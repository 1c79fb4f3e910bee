import Easymesh.CfgMgr.Collect
import Easymesh.CfgMgr.Configured
import Easymesh.Tlv.Complete

open Lib Lib.Result easymesh.cmdu easymesh.tlv_parser

namespace easymesh.cfg_mgr

/-- A packet that carries `piece` behind the header of a WSC CMDU. -/
structure WscFragment (last : Bool) (piece pkt : List UInt8) : Prop extends IsWscPacket pkt where
  flag : Flags_last_fragment (packet pkt) = ok last
  len : packet_len pkt = ok (sizeof_cmdu_raw_msg + piece.length : Nat)
  cmdu : ∃ header more, header.length = sizeof_cmdu_raw_msg ∧ packet pkt = header ++ piece ++ more

/-- The arguments of `Kami_Tlv_ParseObject` for the message in `m2buf`: the
memory starts with `p`, and its length is the length of `p`. -/
def Hands (m2buf : GrowBuffer) (p : List UInt8) : Prop :=
  (tlvs m2buf.buffer).take p.length = p ∧
    wrap32 (wrap32 m2buf.offset - sizeof_cmdu_raw_msg) = p.length

/-- The packets `pkts` and then `pkt`, which completes the message, come to the
parser as `p`, and leave the process as parsing `p` would, with an empty buffer. -/
def Reassembles (w : process) (pkts : List (List UInt8)) (pkt p : List UInt8) : Prop :=
  ∃ w₁ m2buf, pkts.foldlM cfgmgr_handle_packet w = ok w₁ ∧
    cfgmgr_collect_wsc w₁.cfgmgr.m2buf pkt = ok (m2buf, true) ∧ Hands m2buf p ∧
    (∀ w₂, cfgmgr_handle_packet w₁ pkt = ok w₂ → w₂.cfgmgr.m2buf.offset = 0) ∧
    (CompleteTlvs 1 p → cfgmgr_handle_packet w₁ pkt =
      (fun w₂ => w₂.setM2buf { m2buf with offset := 0 }) <$> cfgmgr_parse_wsc_tlvs w p p.length)

/-- The buffer holds a header and then `q`. -/
def Whole (m2buf : GrowBuffer) (q : List UInt8) : Prop :=
  ∃ header, header.length = sizeof_cmdu_raw_msg ∧ m2buf.contents = header ++ q

/-- The buffer holds less than that, because an `int` cannot count it. -/
def Lossy (m2buf : GrowBuffer) (q : List UInt8) : Prop :=
  m2buf.offset < sizeof_cmdu_raw_msg + q.length ∧ INT_MAX < sizeof_cmdu_raw_msg + q.length + 1

section Fragment

variable {m2buf : GrowBuffer} {last : Bool} {piece pkt : List UInt8}

/-- What a fragment has stored: its header only when it starts a message. -/
theorem WscFragment.piece_read (hfrag : WscFragment last piece pkt) (m2buf : GrowBuffer) :
    ∃ len header, packet_len pkt = ok len ∧ header.length = sizeof_cmdu_raw_msg ∧
      readBytes (wsc_piece m2buf last pkt len).1 0 (wsc_piece m2buf last pkt len).2 =
        ok (if last = false ∧ m2buf.offset = 0 then header ++ piece else piece) := by
  obtain ⟨header, more, hheader, hpacket⟩ := hfrag.cmdu
  have hmax := (readI32_bounds hfrag.len).2
  unfold sizeof_cmdu_raw_msg at hheader hmax
  refine ⟨_, header, hfrag.len, hheader, ?_⟩
  have hall : toSize ((sizeof_cmdu_raw_msg + piece.length : Nat) : Int) = 22 + piece.length := by
    have := toSize_of_nonneg (x := ((sizeof_cmdu_raw_msg + piece.length : Nat) : Int))
      (Int.natCast_nonneg _) (by unfold sizeof_cmdu_raw_msg; omega)
    unfold sizeof_cmdu_raw_msg at this ⊢
    omega
  have hbody : toSize (((sizeof_cmdu_raw_msg + piece.length : Nat) : Int) - sizeof_cmdu_raw_msg) =
      piece.length := by
    have := toSize_of_nonneg
      (x := ((sizeof_cmdu_raw_msg + piece.length : Nat) : Int) - sizeof_cmdu_raw_msg)
      (by omega) (by omega)
    omega
  unfold wsc_piece
  split
  · dsimp only
    rw [hall, hpacket, readBytes_of_le le_rfl (by simp [hheader]), Int.toNat_zero, List.drop_zero,
      ← hheader, ← List.length_append, List.take_left]
  · dsimp only
    have hdrop : tlvs (packet pkt) = piece ++ more := by
      rw [tlvs, hpacket, List.append_assoc, sizeof_cmdu_raw_msg, ← hheader, List.drop_left]
    rw [hbody, hdrop, readBytes_of_le le_rfl (by simp), Int.toNat_zero, List.drop_zero,
      List.take_left]

theorem WscFragment.collect_room (hfrag : WscFragment last piece pkt) (hfits : m2buf.Fits) :
    ∃ bytes, (∃ header, header.length = sizeof_cmdu_raw_msg ∧
        bytes = if last = false ∧ m2buf.offset = 0 then header ++ piece else piece) ∧
      (INT_MAX < m2buf.offset + bytes.length + 1 → cfgmgr_collect_wsc m2buf pkt = ok (m2buf, false)) ∧
      (m2buf.offset + bytes.length + 1 ≤ INT_MAX →
        ∃ m2buf', cfgmgr_collect_wsc m2buf pkt = ok (m2buf', last) ∧ m2buf'.Fits ∧
          m2buf'.offset = m2buf.offset + bytes.length ∧
          m2buf'.contents = m2buf.contents ++ bytes) := by
  obtain ⟨len, header, hlen, hheader, hread⟩ := hfrag.piece_read m2buf
  have hcount := readBytes_length hread
  refine ⟨_, ⟨header, hheader, rfl⟩, fun hfull => ?_, fun hroom => ?_⟩
  · rw [hcount] at hfull
    rw [cfgmgr_collect_wsc_eq hfrag.flag hlen, m2buf_store_full hfits hfull]
    rfl
  · rw [hcount] at hroom
    obtain ⟨m2buf', hstore, hfits', hoffset, hcontents⟩ := m2buf_store_room hfits hroom hread
    refine ⟨m2buf', ?_, hfits', by rw [hoffset, hcount], hcontents⟩
    rw [cfgmgr_collect_wsc_eq hfrag.flag hlen, hstore]
    rfl

theorem Whole.offset {q : List UInt8} (hfits : m2buf.Fits) (h : Whole m2buf q) :
    m2buf.offset = sizeof_cmdu_raw_msg + q.length := by
  obtain ⟨header, hheader, hcontents⟩ := h
  rw [← contents_length hfits, hcontents, List.length_append, hheader]

/-- A fragment that starts a message is stored with its header. -/
theorem WscFragment.collect_first (hfrag : WscFragment false piece pkt) (hfits : m2buf.Fits)
    (hempty : m2buf.offset = 0) :
    ∃ m2buf', cfgmgr_collect_wsc m2buf pkt = ok (m2buf', false) ∧ m2buf'.Fits ∧
      (Whole m2buf' piece ∨ Lossy m2buf' piece) := by
  obtain ⟨bytes, ⟨header, hheader, rfl⟩, hfull, hroom⟩ := hfrag.collect_room hfits
  rw [if_pos ⟨rfl, hempty⟩] at hfull hroom
  simp only [List.length_append, hheader, hempty, Nat.zero_add] at hfull hroom
  rcases Nat.lt_or_ge INT_MAX (sizeof_cmdu_raw_msg + piece.length + 1) with hlt | hge
  · refine ⟨m2buf, hfull hlt, hfits, .inr ⟨?_, hlt⟩⟩
    rw [hempty]
    exact Nat.lt_of_lt_of_le (by decide) (Nat.le_add_right _ _)
  · obtain ⟨m2buf', hcollect, hfits', _, hcontents⟩ := hroom hge
    refine ⟨m2buf', hcollect, hfits', .inl ⟨header, hheader, ?_⟩⟩
    rw [hcontents, GrowBuffer.contents, hempty, List.take_zero, List.nil_append]

/-- A fragment that is not the last continues a message. -/
theorem WscFragment.collect_next {q : List UInt8} (hfrag : WscFragment false piece pkt)
    (hfits : m2buf.Fits) (hq : Whole m2buf q ∨ Lossy m2buf q) :
    ∃ m2buf', cfgmgr_collect_wsc m2buf pkt = ok (m2buf', false) ∧ m2buf'.Fits ∧
      (Whole m2buf' (q ++ piece) ∨ Lossy m2buf' (q ++ piece)) := by
  obtain ⟨bytes, ⟨header, hheader, hbytes⟩, hfull, hroom⟩ := hfrag.collect_room hfits
  have hin := hfits.offset_lt
  have hmax := hfits.length_le
  rcases hq with hwhole | ⟨hless, hbig⟩
  · have hoffset := hwhole.offset hfits
    have hne : m2buf.offset ≠ 0 := by rw [hoffset, sizeof_cmdu_raw_msg]; omega
    rw [if_neg fun h => hne h.2] at hbytes
    rw [hbytes] at hfull hroom
    rcases Nat.lt_or_ge INT_MAX (m2buf.offset + piece.length + 1) with hlt | hge
    · refine ⟨m2buf, hfull hlt, hfits, .inr ⟨?_, ?_⟩⟩
      · rw [List.length_append, hoffset]
        omega
      · rw [List.length_append]
        omega
    · obtain ⟨m2buf', hcollect, hfits', _, hcontents⟩ := hroom hge
      obtain ⟨first, hfirst, hheld⟩ := hwhole
      refine ⟨m2buf', hcollect, hfits', .inl ⟨first, hfirst, ?_⟩⟩
      rw [hcontents, hheld, List.append_assoc]
  · rcases Nat.lt_or_ge INT_MAX (m2buf.offset + bytes.length + 1) with hlt | hge
    · refine ⟨m2buf, hfull hlt, hfits, .inr ⟨?_, ?_⟩⟩
      · rw [List.length_append]
        omega
      · rw [List.length_append]
        omega
    · obtain ⟨m2buf', hcollect, hfits', hoffset', _⟩ := hroom hge
      refine ⟨m2buf', hcollect, hfits', .inr ⟨?_, ?_⟩⟩
      · rw [hoffset', hbytes, List.length_append]
        split
        · rename_i hzero
          rw [hzero.2, List.length_append, hheader]
          unfold INT_MAX sizeof_cmdu_raw_msg at *
          omega
        · omega
      · rw [List.length_append]
        omega

end Fragment

theorem handle_fragment {w : process} {piece pkt : List UInt8} {m2buf : GrowBuffer}
    (hfrag : WscFragment false piece pkt)
    (hcollect : cfgmgr_collect_wsc w.cfgmgr.m2buf pkt = ok (m2buf, false)) :
    cfgmgr_handle_packet w pkt = ok (w.setM2buf m2buf) := by
  rw [cfgmgr_handle_packet_wsc hfrag.toIsWscPacket, cfgmgr_handle_autoconfiguration_wsc, hcollect,
    ok_bind]
  exact if_neg Bool.false_ne_true

/-- A run over fragments that are not the last collects their pieces. -/
theorem handle_fragments {w : process} {q : List UInt8} {pieces pkts : List (List UInt8)}
    (hfrags : List.Forall₂ (WscFragment false) pieces pkts) (hfits : w.cfgmgr.m2buf.Fits)
    (hq : Whole w.cfgmgr.m2buf q ∨ Lossy w.cfgmgr.m2buf q) :
    ∃ m2buf, pkts.foldlM cfgmgr_handle_packet w = ok (w.setM2buf m2buf) ∧ m2buf.Fits ∧
      (Whole m2buf (q ++ pieces.flatten) ∨ Lossy m2buf (q ++ pieces.flatten)) := by
  induction hfrags generalizing w q with
  | nil => exact ⟨w.cfgmgr.m2buf, rfl, hfits, by simpa using hq⟩
  | @cons piece pkt pieces pkts hfrag _ ih =>
    obtain ⟨m2buf, hcollect, hfits', hq'⟩ := hfrag.collect_next hfits hq
    obtain ⟨m2buf', hrest, hfits'', hq''⟩ := ih (w := w.setM2buf m2buf) hfits' hq'
    refine ⟨m2buf', ?_, hfits'', ?_⟩
    · rw [List.foldlM_cons, handle_fragment hfrag hcollect, ok_bind, hrest]
      rfl
    · rwa [List.flatten_cons, ← List.append_assoc]

theorem m2_radios_append {p : List UInt8} (more : List UInt8) (hint : p.length ≤ INT_MAX)
    (hcomplete : CompleteTlvs 1 p) : m2_radios (p ++ more) p.length = m2_radios p p.length := by
  obtain ⟨object, hobject⟩ := (Kami_Tlv_ParseObject_returns_iff (.inl rfl) hint).mpr hcomplete
  rw [m2_radios, Kami_Tlv_ParseObject_append more hobject, m2_radios, hobject]

theorem wrap32_offset {m2buf : GrowBuffer} (hfits : m2buf.Fits) :
    wrap32 (wrap32 m2buf.offset - sizeof_cmdu_raw_msg) = m2buf.offset - sizeof_cmdu_raw_msg := by
  have hlt := hfits.offset_lt
  have hle := hfits.length_le
  unfold INT_MAX at hle
  have hinner : wrap32 (m2buf.offset : Int) = m2buf.offset := wrap32_eq (by omega) (by omega)
  rw [hinner, sizeof_cmdu_raw_msg]
  exact wrap32_eq (by omega) (by omega)

/-- A buffer that does not hold a header and all of `p` hands on something else. -/
theorem not_hands {m2buf : GrowBuffer} {p : List UInt8} (hfits : m2buf.Fits)
    (hless : m2buf.offset < sizeof_cmdu_raw_msg + p.length) : ¬ Hands m2buf p := by
  rintro ⟨_, hlen⟩
  rw [wrap32_offset hfits] at hlen
  unfold sizeof_cmdu_raw_msg at *
  omega

/-- A complete message that holds a header and `p` is parsed as `p`. -/
theorem Whole.reassembles {w : process} {m2buf m2buf' : GrowBuffer} {pkts : List (List UInt8)}
    {piece pkt p : List UInt8} (hrun : pkts.foldlM cfgmgr_handle_packet w = ok (w.setM2buf m2buf))
    (hfrag : WscFragment true piece pkt)
    (hcollect : cfgmgr_collect_wsc m2buf pkt = ok (m2buf', true)) (hfits : m2buf'.Fits)
    (hwhole : Whole m2buf' p) : Reassembles w pkts pkt p := by
  have hoffset := hwhole.offset hfits
  have hlt := hfits.offset_lt
  have hmax := hfits.length_le
  obtain ⟨header, hheader, hcontents⟩ := hwhole
  have hlen : wrap32 (wrap32 m2buf'.offset - sizeof_cmdu_raw_msg) = p.length := by
    rw [wrap32_offset hfits, hoffset]
    omega
  obtain ⟨rest, hbuffer⟩ : ∃ rest, tlvs m2buf'.buffer = p ++ rest := by
    refine ⟨m2buf'.buffer.drop m2buf'.offset, ?_⟩
    have hsplit := List.take_append_drop m2buf'.offset m2buf'.buffer
    rw [GrowBuffer.contents] at hcontents
    rw [hcontents, List.append_assoc] at hsplit
    conv_lhs => rw [tlvs, ← hsplit, ← hheader, List.drop_left]
  have hhandle : cfgmgr_handle_packet (w.setM2buf m2buf) pkt =
      cfgmgr_finish_wsc (w.setM2buf m2buf') (wrap32 m2buf'.offset) := by
    rw [cfgmgr_handle_packet_wsc hfrag.toIsWscPacket, cfgmgr_handle_autoconfiguration_wsc,
      setM2buf_m2buf, hcollect, ok_bind]
    exact if_pos rfl
  refine ⟨w.setM2buf m2buf, m2buf', hrun, hcollect, ⟨?_, hlen⟩, fun w₂ hw₂ => ?_, fun hcomplete => ?_⟩
  · rw [hbuffer, List.take_left]
  · rw [hhandle] at hw₂
    obtain ⟨radios, _, rfl⟩ := cfgmgr_finish_wsc_spec hw₂
    rfl
  · have hint : p.length ≤ INT_MAX := by omega
    rw [hhandle, cfgmgr_finish_wsc, cfgmgr_parse_autoconfiguration_wsc, setM2buf_m2buf, hlen,
      cfgmgr_parse_wsc_tlvs_eq, cfgmgr_parse_wsc_tlvs_eq, hbuffer, m2_radios_append rest hint hcomplete]
    cases m2_radios p p.length with
    | ok radios =>
      rw [map_ok, map_ok, map_ok, ok_bind, foldl_configure_m2buf, foldl_configure_setM2buf]
      rfl
    | fail => rfl
    | div => rfl

/-- The last fragment alone is parsed without the header that it came with. -/
theorem not_reassembles_alone {w : process} {final pkt : List UInt8} (hfits : w.cfgmgr.m2buf.Fits)
    (hempty : w.cfgmgr.m2buf.offset = 0) (hfinal : WscFragment true final pkt) :
    ¬ Reassembles w [] pkt final := by
  rintro ⟨w₁, m2buf, hfold, hcollect, hhands, _⟩
  cases hfold
  have hfits' := collect_fits hfits hcollect
  obtain ⟨bytes, ⟨header, _, hbytes⟩, hfull, hroom⟩ := hfinal.collect_room hfits
  rw [if_neg fun h => Bool.noConfusion h.1] at hbytes
  rw [hbytes] at hfull hroom
  obtain hlt | hge := Nat.lt_or_ge INT_MAX (w.cfgmgr.m2buf.offset + final.length + 1)
  · rw [hfull hlt] at hcollect
    cases hcollect
  · obtain ⟨m2buf', hcollect', _, hoffset, _⟩ := hroom hge
    rw [hcollect'] at hcollect
    cases hcollect
    apply not_hands hfits' _ hhands
    rw [hoffset, hempty, sizeof_cmdu_raw_msg]
    omega

/-- A payload cut into consecutive pieces, sent as WSC fragments to a process
whose buffer is empty, is parsed as it was before the cut exactly when there are
at least two fragments and an `int` can count it with its header. -/
theorem fragments_reassemble_iff (clock : Nat → Nat) (uninit : Nat → UInt8)
    {tr : List (event × process)} (hrun : Run Step (cfgmgr_main clock uninit) tr)
    (hempty : (endState (cfgmgr_main clock uninit) tr).cfgmgr.m2buf.offset = 0)
    {pieces pkts : List (List UInt8)} {final pkt p : List UInt8}
    (hpieces : List.Forall₂ (WscFragment false) pieces pkts) (hfinal : WscFragment true final pkt)
    (hp : pieces.flatten ++ final = p) :
    Reassembles (endState (cfgmgr_main clock uninit) tr) pkts pkt p ↔
      2 ≤ pieces.length + 1 ∧ sizeof_cmdu_raw_msg + p.length + 1 ≤ INT_MAX := by
  have hfits := run_fits hrun
  generalize endState (cfgmgr_main clock uninit) tr = w at hempty hfits
  subst hp
  cases hpieces with
  | nil =>
    refine ⟨fun hre => ?_, fun h => absurd h.1 (by decide)⟩
    rw [List.flatten_nil, List.nil_append] at hre
    exact absurd hre (not_reassembles_alone hfits hempty hfinal)
  | @cons piece pkt₁ pieces pkts hfirst hrest =>
    obtain ⟨m2buf₁, hcollect₁, hfits₁, hq₁⟩ := hfirst.collect_first hfits hempty
    obtain ⟨m2buf₂, hfold₂, hfits₂, hq₂⟩ :=
      handle_fragments (w := w.setM2buf m2buf₁) hrest hfits₁ hq₁
    have hfold : (pkt₁ :: pkts).foldlM cfgmgr_handle_packet w = ok (w.setM2buf m2buf₂) := by
      rw [List.foldlM_cons, handle_fragment hfirst hcollect₁, ok_bind, hfold₂]
      rfl
    obtain ⟨bytes, ⟨header, _, hbytes⟩, hfull, hroom⟩ := hfinal.collect_room hfits₂
    rw [if_neg fun h => Bool.noConfusion h.1] at hbytes
    rw [hbytes] at hfull hroom
    rw [← List.flatten_cons] at hq₂
    simp only [List.length_cons, List.length_append]
    constructor
    · intro hre
      obtain ⟨w₁, m2buf, hfold', hcollect, hhands, _⟩ := hre
      rw [hfold] at hfold'
      cases hfold'
      refine ⟨by omega, ?_⟩
      rcases Nat.lt_or_ge INT_MAX (m2buf₂.offset + final.length + 1) with hlt | hge
      · rw [setM2buf_m2buf, hfull hlt] at hcollect
        cases hcollect
      · obtain ⟨m2buf', hcollect', hfits', hoffset, _⟩ := hroom hge
        rw [setM2buf_m2buf, hcollect'] at hcollect
        cases hcollect
        rcases hq₂ with hwhole | ⟨hless, _⟩
        · rw [hwhole.offset hfits₂] at hge
          omega
        · refine absurd hhands (not_hands hfits' ?_)
          rw [hoffset, List.length_append]
          omega
    · rintro ⟨_, hint⟩
      rcases hq₂ with hwhole | ⟨_, hbig⟩
      · have hoffset₂ := hwhole.offset hfits₂
        obtain ⟨m2buf', hcollect', hfits', _, hcontents⟩ := hroom (by omega)
        obtain ⟨first, hheader, hheld⟩ := hwhole
        refine Whole.reassembles hfold hfinal hcollect' hfits' ⟨first, hheader, ?_⟩
        rw [hcontents, hheld, List.append_assoc]
      · omega

def wsc_packet (last : Bool) (tlvs : List UInt8) : List UInt8 :=
  network_packet last MSG_AP_AUTOCONFIGURATION_WSC 2 [0, 0, 0, 0, 0, 1] tlvs

theorem fragments_reassemble_two :
    Reassembles started [wsc_packet false (m2_tlvs.take 3)] (wsc_packet true (m2_tlvs.drop 3))
      m2_tlvs := by
  have hfirst : WscFragment false (m2_tlvs.take 3) (wsc_packet false (m2_tlvs.take 3)) :=
    ⟨⟨⟨PKT_NETWORK, by decide +kernel, by decide⟩, by decide +kernel⟩, by decide +kernel,
      by decide +kernel, (packet (wsc_packet false (m2_tlvs.take 3))).take 22, [], by decide +kernel,
      by decide +kernel⟩
  have hlast : WscFragment true (m2_tlvs.drop 3) (wsc_packet true (m2_tlvs.drop 3)) :=
    ⟨⟨⟨PKT_NETWORK, by decide +kernel, by decide⟩, by decide +kernel⟩, by decide +kernel,
      by decide +kernel, (packet (wsc_packet true (m2_tlvs.drop 3))).take 22, [], by decide +kernel,
      by decide +kernel⟩
  exact (fragments_reassemble_iff (fun k => 10 * k) (fun _ => 0) (.nil _) rfl
    (.cons hfirst .nil) hlast (by decide)).mpr (by unfold INT_MAX; decide)

/-- The same payload in one fragment: the parser is given a length of -14. -/
theorem unfragmented_loses_header :
    WscFragment true m2_tlvs (wsc_packet true m2_tlvs) ∧ started.cfgmgr.m2buf.offset = 0 ∧
      ¬ Reassembles started [] (wsc_packet true m2_tlvs) m2_tlvs := by
  refine ⟨⟨⟨⟨PKT_NETWORK, by decide +kernel, by decide⟩, by decide +kernel⟩, by decide +kernel,
    by decide +kernel, (packet (wsc_packet true m2_tlvs)).take 22, [], by decide +kernel,
    by decide +kernel⟩, rfl, ?_⟩
  rintro ⟨w₁, m2buf, hrun, hcollect, ⟨_, hlen⟩, _⟩
  cases hrun
  have hoffset : (fun r => r.1.offset) <$>
      cfgmgr_collect_wsc started.cfgmgr.m2buf (wsc_packet true m2_tlvs) = ok 8 := by decide +kernel
  rw [hcollect, map_ok] at hoffset
  have height : m2buf.offset = 8 := Result.ok.inj hoffset
  rw [height] at hlen
  revert hlen
  decide

end easymesh.cfg_mgr
