import Easymesh.CfgMgr.Collect
import Easymesh.CfgMgr.Configured
import Easymesh.Tlv.Complete

open Lib Lib.Result easymesh.cmdu easymesh.tlv_parser

namespace easymesh.cfg_mgr

/-- What tells the messages of different senders apart: their address and message id. -/
def fragment_key (pkt : List UInt8) : Result (List UInt8 × UInt16) := do
  let src ← src_addr (packet pkt)
  let id ← msg_id (packet pkt)
  ok (src, id)

/-- A byte of the buffer with the key of the fragment it came in. -/
abbrev owned := Result (List UInt8 × UInt16) × UInt8

/-- The bytes of `m2buf` after `pkt` was stored behind those that were `held`. -/
def own (held : List owned) (pkt : List UInt8) (m2buf : GrowBuffer) : List owned :=
  held ++ (m2buf.contents.drop held.length).map (fragment_key pkt, ·)

/-- The bytes in the buffer after the step; a complete message is taken out. -/
def owners (held : List owned) (w : process) (e : event) (_ : process) : List owned :=
  match e.wsc_packet with
  | none => held
  | some pkt =>
    match cfgmgr_collect_wsc w.cfgmgr.m2buf pkt with
    | ok (m2buf, complete) => if complete then [] else own held pkt m2buf
    | _ => held

/-- The bytes behind the header that a last fragment hands to the parser are all from
fragments with its key, and these alone are enough for the parser to return, so that it
reads no other byte of the buffer. -/
def FromOneSender (held : List owned) (w : process) (e : event) : Prop :=
  ∀ pkt ∈ e.wsc_packet, ∀ m2buf ∈ w.completes e,
    (own held pkt m2buf).map Prod.snd = m2buf.contents ∧
      (∀ b ∈ (own held pkt m2buf).drop sizeof_cmdu_raw_msg, b.1 = fragment_key pkt) ∧
      (Kami_Tlv_ParseObject (((own held pkt m2buf).drop sizeof_cmdu_raw_msg).map Prod.snd)
        (wrap32 (wrap32 m2buf.offset - sizeof_cmdu_raw_msg)) 1).Returns

/-- The TLVs of a packet. -/
def packet_tlvs (pkt : List UInt8) : List UInt8 :=
  (packet_len pkt >>= fun len =>
    readBytes (tlvs (packet pkt)) 0 (toSize (len - sizeof_cmdu_raw_msg))).getD []

/-- A WSC packet that arrives while bytes are in the buffer has their key. The last one of
a message finds its header there, and ends whole TLVs. -/
def Continues (held : List owned) (e : event) : Prop :=
  ∀ pkt ∈ e.wsc_packet, (∀ b ∈ held, b.1 = fragment_key pkt) ∧
    (Flags_last_fragment (packet pkt) = ok true → sizeof_cmdu_raw_msg ≤ held.length ∧
      CompleteTlvs 1 ((held.map Prod.snd).drop sizeof_cmdu_raw_msg ++ packet_tlvs pkt))

instance (held : List owned) (w : process) (e : event) : Decidable (FromOneSender held w e) :=
  inferInstanceAs (Decidable (∀ _ ∈ _, _))

/-- The bytes in the buffer, each with its owner. -/
structure Owned (held : List owned) (w : process) : Prop where
  fits : w.cfgmgr.m2buf.Fits
  bytes : held.map Prod.snd = w.cfgmgr.m2buf.contents

/-- What a packet adds to the buffer is its own. -/
theorem own_bytes {held : List owned} {m2buf m2buf' : GrowBuffer} {pkt : List UInt8}
    {complete : Bool} (hfits : m2buf.Fits) (hbytes : held.map Prod.snd = m2buf.contents)
    (h : cfgmgr_collect_wsc m2buf pkt = ok (m2buf', complete)) :
    (own held pkt m2buf').map Prod.snd = m2buf'.contents := by
  have hlen : held.length = m2buf.contents.length := by rw [← hbytes, List.length_map]
  have hgrown : ∃ bytes, m2buf'.contents = m2buf.contents ++ bytes := by
    obtain ⟨_, _, _, _, ⟨rfl, _⟩ | ⟨bytes, _, _, _, _, hcontents⟩⟩ := cfgmgr_collect_wsc_cases hfits h
    · exact ⟨[], (List.append_nil _).symm⟩
    · exact ⟨bytes, hcontents⟩
  obtain ⟨bytes, hcontents⟩ := hgrown
  rw [own, List.map_append, List.map_map, hbytes, hlen, hcontents, List.drop_left]
  simp [Function.comp_def]

theorem step_owned {held : List owned} {w w' : process} {e : event} (howned : Owned held w)
    (h : Step w e w') : Owned (owners held w e w') w' := by
  refine ⟨step_fits howned.fits h, ?_⟩
  rcases step_m2buf h with ⟨hnone, hsame⟩ | ⟨pkt, m2buf, complete, hwsc, hcollect, hbuf⟩
  · rw [owners, hnone, hsame]
    exact howned.bytes
  · rw [owners, hwsc]
    dsimp only
    rw [hcollect, hbuf]
    cases complete with
    | true => simp [GrowBuffer.contents]
    | false => exact own_bytes howned.fits howned.bytes hcollect

theorem cfgmgr_main_owned (clock : Nat → Nat) (uninit : Nat → UInt8) :
    Owned [] (cfgmgr_main clock uninit) := by
  refine ⟨cfgmgr_main_fits clock uninit, ?_⟩
  rw [GrowBuffer.contents]
  exact (List.take_zero).symm

/-- What a packet that completes a message has added. -/
theorem complete_contents {m2buf m2buf' : GrowBuffer} {pkt : List UInt8} (hfits : m2buf.Fits)
    (h : cfgmgr_collect_wsc m2buf pkt = ok (m2buf', true)) :
    Flags_last_fragment (packet pkt) = ok true ∧ m2buf'.Fits ∧
      m2buf'.contents = m2buf.contents ++ packet_tlvs pkt := by
  obtain ⟨last, len, hlast, hlen, ⟨-, hnone⟩ | ⟨bytes, rfl, hread, hfits', -, hcontents⟩⟩ :=
    cfgmgr_collect_wsc_cases hfits h
  · cases hnone
  · refine ⟨hlast, hfits', ?_⟩
    have htlvs : packet_tlvs pkt = bytes := by
      rw [packet_tlvs, hlen, ok_bind]
      rw [wsc_piece, if_neg (by simp)] at hread
      rw [hread, getD_ok]
    rw [hcontents, htlvs]

/-- Behind the header of a message are the TLVs that were there and those of the packet,
and the parser is given their length. -/
theorem complete_tlvs {held : List owned} {m2buf m2buf' : GrowBuffer} {pkt : List UInt8}
    (hfits : m2buf.Fits) (hbytes : held.map Prod.snd = m2buf.contents)
    (hheader : sizeof_cmdu_raw_msg ≤ held.length)
    (h : cfgmgr_collect_wsc m2buf pkt = ok (m2buf', true)) :
    let body := (held.map Prod.snd).drop sizeof_cmdu_raw_msg ++ packet_tlvs pkt
    ((own held pkt m2buf').drop sizeof_cmdu_raw_msg).map Prod.snd = body ∧
      wrap32 (wrap32 m2buf'.offset - sizeof_cmdu_raw_msg) = body.length ∧
      body.length ≤ INT_MAX := by
  intro body
  obtain ⟨-, hfits', hcontents⟩ := complete_contents hfits h
  have hbody : m2buf'.contents.drop sizeof_cmdu_raw_msg = body := by
    rw [hcontents, ← hbytes, List.drop_append_of_le_length (by rw [List.length_map]; exact hheader)]
  have hoffset : m2buf'.offset = sizeof_cmdu_raw_msg + body.length := by
    rw [← hbody, List.length_drop, contents_length hfits']
    rw [← contents_length hfits', hcontents, List.length_append, ← hbytes, List.length_map]
    omega
  have hlt := hfits'.offset_lt
  have hle := hfits'.length_le
  unfold INT_MAX at hle
  refine ⟨?_, ?_, by unfold INT_MAX; omega⟩
  · rw [List.map_drop, own_bytes hfits hbytes h, hbody]
  · rw [wrap32_eq (x := (m2buf'.offset : Int)) (by omega) (by omega),
      wrap32_eq (by omega) (by omega), hoffset]
    omega

theorem Continues.fromOneSender {held : List owned} {w : process} {e : event}
    (howned : Owned held w) (hcontinues : Continues held e) : FromOneSender held w e := by
  intro pkt hpkt m2buf hm2buf
  obtain ⟨pkt', hpkt', hcollect⟩ := completes_iff.mp hm2buf
  cases hpkt.symm.trans hpkt'
  obtain ⟨hkey, hlast⟩ := hcontinues pkt hpkt
  obtain ⟨hheader, hwhole⟩ := hlast (complete_contents howned.fits hcollect).1
  obtain ⟨hbody, hlength, hint⟩ := complete_tlvs howned.fits howned.bytes hheader hcollect
  refine ⟨own_bytes howned.fits howned.bytes hcollect, fun b hb => ?_, ?_⟩
  · rcases List.mem_append.mp (List.mem_of_mem_drop hb) with hb | hb
    · exact hkey b hb
    · obtain ⟨byte, _, rfl⟩ := List.mem_map.mp hb
      rfl
  · rw [hbody, hlength]
    exact (Kami_Tlv_ParseObject_returns_iff (.inl rfl) hint).mpr hwhole

section Witness

/-- A fragment of an M2 of the sender with this last byte. -/
def m2_fragment (last : Bool) (sender : UInt8) (tlvs : List UInt8) : List UInt8 :=
  network_packet last MSG_AP_AUTOCONFIGURATION_WSC 2 [0, 0, 0, 0, 0, sender] tlvs

/-- An M2 in two fragments, and the first fragment of another sender. -/
def two_senders : List event :=
  [group_message (m2_fragment false 1 []), group_message (m2_fragment true 1 m2_tlvs),
    group_message (m2_fragment false 9 [])]

/-- A first fragment whose last fragment is lost, and then a message of another sender. -/
def lost_last_fragment : List event :=
  [group_message (network_packet false MSG_AP_AUTOCONFIGURATION_WSC 2 [0, 0, 0, 0, 0, 1]
      [0x11, 0x00, 0x01, 0x00]),
    group_message (network_packet true MSG_AP_AUTOCONFIGURATION_WSC 3 [0, 0, 0, 0, 0, 9] m2_tlvs)]

end Witness

end easymesh.cfg_mgr
