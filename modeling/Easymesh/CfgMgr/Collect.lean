import Easymesh.CfgMgr.Steps

open Lib Lib.Result easymesh.cmdu

namespace easymesh.cfg_mgr

section Store

variable {m2buf : GrowBuffer} {src : List UInt8} {n : Nat}

theorem m2buf_store_full (hfits : m2buf.Fits) (hfull : INT_MAX < m2buf.offset + n + 1) :
    m2buf_store m2buf src n = ok none := by
  rw [m2buf_store, cfg_mgr_ensure_m2buf, (GrowBuffer.ensure_eq_none_iff hfits).mpr hfull]

/-- Where there is room, what is read is appended. -/
theorem m2buf_store_room (hfits : m2buf.Fits) (hroom : m2buf.offset + n + 1 ≤ INT_MAX)
    {bytes : List UInt8} (hread : readBytes src 0 n = ok bytes) :
    ∃ m2buf', m2buf_store m2buf src n = ok (some m2buf') ∧ m2buf'.Fits ∧
      m2buf'.offset = m2buf.offset + n ∧ m2buf'.contents = m2buf.contents ++ bytes := by
  have hlen := readBytes_length hread
  obtain ⟨grown, hgrown, _⟩ := GrowBuffer.ensure_of_le hfits hroom
  obtain ⟨m2buf', hstore, hfits', hoffset, hcontents⟩ :=
    GrowBuffer.store_of_ensure hfits (hlen ▸ hgrown)
  refine ⟨m2buf', ?_, hfits', hlen ▸ hoffset, hcontents⟩
  rw [m2buf_store, cfg_mgr_ensure_m2buf, hgrown]
  dsimp only
  rw [hread, ok_bind, hstore, map_ok]

/-- A store that returns has appended what it read, or found no room. -/
theorem m2buf_store_cases (hfits : m2buf.Fits) {stored : Option GrowBuffer}
    (h : m2buf_store m2buf src n = ok stored) :
    stored = none ∧ INT_MAX < m2buf.offset + n + 1 ∨
      ∃ m2buf' bytes, stored = some m2buf' ∧ readBytes src 0 n = ok bytes ∧ m2buf'.Fits ∧
        m2buf'.offset = m2buf.offset + n ∧ m2buf'.contents = m2buf.contents ++ bytes := by
  rcases Nat.lt_or_ge INT_MAX (m2buf.offset + n + 1) with hfull | hroom
  · rw [m2buf_store_full hfits hfull] at h
    cases h
    exact .inl ⟨rfl, hfull⟩
  · obtain ⟨grown, hgrown, _⟩ := GrowBuffer.ensure_of_le hfits hroom
    have hread : ∃ bytes, readBytes src 0 n = ok bytes := by
      rw [m2buf_store, cfg_mgr_ensure_m2buf, hgrown] at h
      obtain ⟨bytes, hbytes, _⟩ := bind_eq_ok_iff.mp h
      exact ⟨bytes, hbytes⟩
    obtain ⟨bytes, hbytes⟩ := hread
    obtain ⟨m2buf', hstore, hfits', hoffset, hcontents⟩ := m2buf_store_room hfits hroom hbytes
    rw [hstore] at h
    cases h
    exact .inr ⟨m2buf', bytes, rfl, hbytes, hfits', hoffset, hcontents⟩

end Store

/-- Where the bytes are that a WSC packet stores, and how many: the whole packet
when it starts a message, and its TLVs otherwise. -/
def wsc_piece (m2buf : GrowBuffer) (last : Bool) (pkt : List UInt8) (len : Int) :
    List UInt8 × Nat :=
  if last = false ∧ m2buf.offset = 0 then (packet pkt, toSize len)
  else (tlvs (packet pkt), toSize (len - sizeof_cmdu_raw_msg))

/-- What becomes of the buffer when a packet is stored or found no room. -/
def stored_or (m2buf : GrowBuffer) (last : Bool) : Option GrowBuffer → GrowBuffer × Bool
  | none => (m2buf, false)
  | some m2buf' => (m2buf', last)

/-- The three copies of the collector are one store of the piece. -/
theorem cfgmgr_collect_wsc_eq {m2buf : GrowBuffer} {pkt : List UInt8} {last : Bool} {len : Int}
    (hlast : Flags_last_fragment (packet pkt) = ok last) (hlen : packet_len pkt = ok len) :
    cfgmgr_collect_wsc m2buf pkt =
      stored_or m2buf last <$>
        m2buf_store m2buf (wsc_piece m2buf last pkt len).1 (wsc_piece m2buf last pkt len).2 := by
  rw [cfgmgr_collect_wsc, hlast, ok_bind, hlen, ok_bind]
  cases last with
  | true =>
    rw [if_pos rfl, wsc_piece, if_neg (by simp)]
    cases m2buf_store m2buf (tlvs (packet pkt)) (toSize (len - sizeof_cmdu_raw_msg)) with
    | ok stored => cases stored <;> rfl
    | fail => rfl
    | div => rfl
  | false =>
    rw [if_neg Bool.false_ne_true, wsc_piece]
    by_cases hzero : m2buf.offset = 0
    · rw [if_pos hzero, if_pos ⟨rfl, hzero⟩]
      cases m2buf_store m2buf (packet pkt) (toSize len) with
      | ok stored => cases stored <;> rfl
      | fail => rfl
      | div => rfl
    · rw [if_neg hzero, if_neg (by simp [hzero])]
      cases m2buf_store m2buf (tlvs (packet pkt)) (toSize (len - sizeof_cmdu_raw_msg)) with
      | ok stored => cases stored <;> rfl
      | fail => rfl
      | div => rfl

/-- Spec of the collector: the piece is appended, or there is no room for it. -/
theorem cfgmgr_collect_wsc_cases {m2buf m2buf' : GrowBuffer} {pkt : List UInt8} {complete : Bool}
    (hfits : m2buf.Fits) (h : cfgmgr_collect_wsc m2buf pkt = ok (m2buf', complete)) :
    ∃ last len, Flags_last_fragment (packet pkt) = ok last ∧ packet_len pkt = ok len ∧
      (m2buf' = m2buf ∧ complete = false ∨
        ∃ bytes, complete = last ∧
          readBytes (wsc_piece m2buf last pkt len).1 0 (wsc_piece m2buf last pkt len).2 = ok bytes ∧
          m2buf'.Fits ∧ m2buf'.offset = m2buf.offset + bytes.length ∧
          m2buf'.contents = m2buf.contents ++ bytes) := by
  obtain ⟨last, hlast, hrest⟩ := bind_eq_ok_iff.mp h
  obtain ⟨len, hlen, _⟩ := bind_eq_ok_iff.mp hrest
  refine ⟨last, len, hlast, hlen, ?_⟩
  rw [cfgmgr_collect_wsc_eq hlast hlen] at h
  obtain ⟨stored, hstored, heq⟩ := map_eq_ok_iff.mp h
  rcases m2buf_store_cases hfits hstored with ⟨rfl, _⟩ | ⟨grown, bytes, rfl, hread, hgrown, hoffset, hcontents⟩
  · cases heq
    exact .inl ⟨rfl, rfl⟩
  · cases heq
    exact .inr ⟨bytes, rfl, hread, hgrown, by rw [hoffset, readBytes_length hread], hcontents⟩

theorem contents_length {m2buf : GrowBuffer} (hfits : m2buf.Fits) :
    m2buf.contents.length = m2buf.offset :=
  List.length_take_of_le (Nat.le_of_lt hfits.offset_lt)

theorem fits_cleared {m2buf : GrowBuffer} (hfits : m2buf.Fits) :
    GrowBuffer.Fits { m2buf with offset := 0 } :=
  ⟨Nat.lt_of_le_of_lt (Nat.zero_le _) hfits.offset_lt, hfits.length_le⟩

instance (pkt : List UInt8) : Decidable (IsWscPacket pkt) :=
  decidable_of_iff
    ((packet_from pkt).Returns ∧ packet_from pkt ≠ ok PKT_LOCAL ∧
      ntohs <$> msg_type (packet pkt) = ok MSG_AP_AUTOCONFIGURATION_WSC)
    ⟨fun ⟨⟨sender, hsender⟩, hlocal, htype⟩ =>
        ⟨⟨sender, hsender, fun heq => hlocal (heq ▸ hsender)⟩, htype⟩,
      fun ⟨⟨sender, hsender, hlocal⟩, htype⟩ =>
        ⟨⟨sender, hsender⟩, fun heq => hlocal (ok.inj (hsender.symm.trans heq)), htype⟩⟩

/-- The packet that an event brings to the handler of WSC messages. -/
def event.wsc_packet : event → Option (List UInt8)
  | .message .MBUS_CMD_GROUP_MSG _ toName pkt =>
    if strcmp_eq toName g_mesh_group_name = ok true ∧ IsWscPacket pkt then some pkt else none
  | _ => none

theorem wsc_packet_group {fromName toName pkt : List UInt8}
    (hto : strcmp_eq toName g_mesh_group_name = ok true) (hpkt : IsWscPacket pkt) :
    event.wsc_packet (.message .MBUS_CMD_GROUP_MSG fromName toName pkt) = some pkt :=
  if_pos ⟨hto, hpkt⟩

/-- An event that brings a WSC packet is a message of the mesh group. -/
theorem event_of_wsc_packet {e : event} {pkt : List UInt8} (h : e.wsc_packet = some pkt) :
    IsWscPacket pkt ∧ ∃ fromName toName, e = .message .MBUS_CMD_GROUP_MSG fromName toName pkt ∧
      strcmp_eq toName g_mesh_group_name = ok true := by
  match e, h with
  | .message .MBUS_CMD_GROUP_MSG fromName toName data, h =>
    rw [event.wsc_packet] at h
    split at h
    · rename_i hwsc
      cases h
      exact ⟨hwsc.2, fromName, toName, rfl, hwsc.1⟩
    · cases h

/-- The message that the event completes in the buffer, if it does. -/
def process.completes (w : process) (e : event) : Option GrowBuffer :=
  match cfgmgr_collect_wsc w.cfgmgr.m2buf <$> e.wsc_packet with
  | some (ok (m2buf, true)) => some m2buf
  | _ => none

theorem completes_iff {w : process} {e : event} {m2buf : GrowBuffer} :
    m2buf ∈ w.completes e ↔
      ∃ pkt ∈ e.wsc_packet, cfgmgr_collect_wsc w.cfgmgr.m2buf pkt = ok (m2buf, true) := by
  rw [process.completes]
  cases e.wsc_packet with
  | none => simp
  | some pkt =>
    match hcollect : cfgmgr_collect_wsc w.cfgmgr.m2buf pkt with
    | ok (found, true) => simp [hcollect]
    | ok (found, false) => simp [hcollect]
    | fail => simp [hcollect]
    | div => simp [hcollect]

theorem cfgmgr_handle_packet_wsc {pkt : List UInt8} (hpkt : IsWscPacket pkt) (w : process) :
    cfgmgr_handle_packet w pkt = cfgmgr_handle_autoconfiguration_wsc w pkt := by
  obtain ⟨⟨sender, hfrom, hnetwork⟩, htype⟩ := hpkt
  have hrenew : MSG_AP_AUTOCONFIGURATION_WSC ≠ MSG_AP_AUTOCONFIGURATION_RENEW := by decide
  rw [cfgmgr_handle_packet, hfrom, ok_bind, htype, ok_bind, if_neg (fun h => hnetwork h.1),
    if_neg hrenew, if_pos rfl]

/-- Only the handler of WSC messages touches the buffer. -/
theorem cfgmgr_handle_packet_m2buf {w w' : process} {pkt : List UInt8}
    (h : cfgmgr_handle_packet w pkt = ok w') :
    IsWscPacket pkt ∨ w'.cfgmgr.m2buf = w.cfgmgr.m2buf := by
  rcases cfgmgr_handle_packet_cases h with ⟨_, rfl | hrenew⟩ | ⟨hpkt, _⟩ | ⟨i, _, rfl⟩
  · exact .inr rfl
  · exact .inr (cfgmgr_handle_autoconfiguration_renew_onlySent hrenew).m2buf
  · exact .inl hpkt
  · exact .inr rfl

/-- What a WSC packet does to the buffer: it is stored, and cleared with a complete message. -/
theorem cfgmgr_handle_autoconfiguration_wsc_m2buf {w w' : process} {pkt : List UInt8}
    (h : cfgmgr_handle_autoconfiguration_wsc w pkt = ok w') :
    ∃ m2buf complete, cfgmgr_collect_wsc w.cfgmgr.m2buf pkt = ok (m2buf, complete) ∧
      w'.cfgmgr.m2buf = if complete then { m2buf with offset := 0 } else m2buf := by
  rcases cfgmgr_handle_autoconfiguration_wsc_cases h with
    ⟨m2buf, hcollect, rfl⟩ | ⟨m2buf, radios, hcollect, _, rfl⟩
  · exact ⟨m2buf, false, hcollect, rfl⟩
  · exact ⟨m2buf, true, hcollect, rfl⟩

theorem backhaulReady_m2buf (w : process) :
    ((w.backhaulReady 0).backhaulReady 1).cfgmgr.m2buf = w.cfgmgr.m2buf := by
  unfold process.backhaulReady
  split <;> split <;> rfl

theorem cfgmgr_handle_private_msg_m2buf {w w' : process} {fromName toName data : List UInt8}
    (h : cfgmgr_handle_private_msg w fromName toName data = ok w') :
    w'.cfgmgr.m2buf = w.cfgmgr.m2buf := by
  rcases cfgmgr_handle_private_msg_cases h with
    ⟨_, rfl⟩ | ⟨_, _, _, _, _, _, _, _, _, rfl⟩ | ⟨_, rfl⟩
  · rfl
  · exact backhaulReady_m2buf _
  · rfl

/-- A step stores the WSC packet that its event brings, or leaves the buffer alone. -/
theorem step_m2buf {w w' : process} {e : event} (h : Step w e w') :
    e.wsc_packet = none ∧ w'.cfgmgr.m2buf = w.cfgmgr.m2buf ∨
      ∃ pkt m2buf complete, e.wsc_packet = some pkt ∧
        cfgmgr_collect_wsc w.cfgmgr.m2buf pkt = ok (m2buf, complete) ∧
        w'.cfgmgr.m2buf = if complete then { m2buf with offset := 0 } else m2buf := by
  cases e with
  | expire cur => exact .inl ⟨rfl, expire_m2buf h⟩
  | message cmd fromName toName data =>
    cases cmd with
    | MBUS_CMD_NONE =>
      cases h
      exact .inl ⟨rfl, rfl⟩
    | MBUS_CMD_HEARTBEAT =>
      cases h
      exact .inl ⟨rfl, rfl⟩
    | MBUS_CMD_PRIVATE_MSG => exact .inl ⟨rfl, cfgmgr_handle_private_msg_m2buf h⟩
    | MBUS_CMD_GROUP_MSG =>
      obtain ⟨isGroup, hto, h⟩ := bind_eq_ok_iff.mp h
      cases isGroup with
      | false =>
        cases h
        refine .inl ⟨if_neg fun hwsc => ?_, rfl⟩
        cases hto.symm.trans hwsc.1
      | true =>
        by_cases hpkt : IsWscPacket data
        · have hwsc : cfgmgr_handle_autoconfiguration_wsc w data = ok w' :=
            (cfgmgr_handle_packet_wsc hpkt w).symm.trans h
          obtain ⟨m2buf, complete, hcollect, hbuf⟩ := cfgmgr_handle_autoconfiguration_wsc_m2buf hwsc
          exact .inr ⟨data, m2buf, complete, wsc_packet_group hto hpkt, hcollect, hbuf⟩
        · exact .inl ⟨if_neg fun hwsc => hpkt hwsc.2,
            (cfgmgr_handle_packet_m2buf h).resolve_left hpkt⟩

theorem collect_fits {m2buf m2buf' : GrowBuffer} {pkt : List UInt8} {complete : Bool}
    (hfits : m2buf.Fits) (h : cfgmgr_collect_wsc m2buf pkt = ok (m2buf', complete)) :
    m2buf'.Fits := by
  obtain ⟨_, _, _, _, ⟨rfl, _⟩ | ⟨_, _, _, hfits', _⟩⟩ := cfgmgr_collect_wsc_cases hfits h
  · exact hfits
  · exact hfits'

theorem step_fits {w w' : process} {e : event} (hfits : w.cfgmgr.m2buf.Fits) (h : Step w e w') :
    w'.cfgmgr.m2buf.Fits := by
  rcases step_m2buf h with ⟨_, hsame⟩ | ⟨pkt, m2buf, complete, _, hcollect, hbuf⟩
  · rw [hsame]
    exact hfits
  · have hfits' := collect_fits hfits hcollect
    rw [hbuf]
    cases complete with
    | true => exact fits_cleared hfits'
    | false => exact hfits'

theorem cfgmgr_main_fits (clock : Nat → Nat) (uninit : Nat → UInt8) :
    (cfgmgr_main clock uninit).cfgmgr.m2buf.Fits :=
  GrowBuffer.malloc_fits uninit (by decide) (by unfold INT_MAX; decide)

/-- In every state the process reaches, the offset of the buffer is inside it. -/
theorem run_fits {clock : Nat → Nat} {uninit : Nat → UInt8} {tr : List (event × process)}
    (hrun : Run Step (cfgmgr_main clock uninit) tr) :
    (endState (cfgmgr_main clock uninit) tr).cfgmgr.m2buf.Fits :=
  hrun.endState_invariant (J := fun w => w.cfgmgr.m2buf.Fits) step_fits
    (cfgmgr_main_fits clock uninit)

end easymesh.cfg_mgr
