import Easymesh.CfgMgr.Handlers

open Lib Lib.Result easymesh.tlv_parser easymesh.cmdu easymesh.minheap easymesh.mh_timer
open easymesh.bus_msg (MbusMsgCcmd)

namespace easymesh.cfg_mgr

/-- What a message of the bus asks of the radios. -/
inductive request where
  | nothing
  | controller_info
  | response (i : Fin 2)
  | m2 (radios : List (Fin 2))
  | reconfig
  deriving DecidableEq, Repr

/-- The states of the radios after the request. -/
def request.states (conf_state : Fin 2 → ConfigStatus) : request → Fin 2 → ConfigStatus
  | nothing => conf_state
  | controller_info => fun i =>
    if conf_state i = .AUTOCONF_CONFIGURED then .AUTOCONF_CONFIGURED else .AUTOCONF_BACKHAUL_READY
  | response i => Function.update conf_state i .AUTOCONF_SEND_M1
  | m2 radios => fun i => if i ∈ radios then .AUTOCONF_CONFIGURED else conf_state i
  | reconfig => fun _ => .AUTOCONF_UNCONFIGURED

/-- How often the request resets the timer of the state machine. -/
def request.resets : request → Nat
  | nothing => 0
  | controller_info => 1
  | response _ => 1
  | m2 radios => radios.length
  | reconfig => 1

/-- The radios that the WSC TLVs of an M2 name, from item `i` on. -/
def m2_radios.loop (pstM2 : KamiTlv_S) : Nat → Nat → Result (List (Fin 2))
  | 0, _ => div
  | fuel + 1, i =>
    match Kami_Tlv_GetObjectItem pstM2 wsc.TLV_TYPE_WSC i with
    | none => ok []
    | some pstWsc => do
      match ← wsc_radio pstWsc with
      | none => ok []
      | some none => loop pstM2 fuel (i + 1)
      | some (some radio) => (radio :: ·) <$> loop pstM2 fuel (i + 1)

def m2_radios (mem : List UInt8) (iLength : Int) : Result (List (Fin 2)) := do
  match ← Kami_Tlv_ParseObject mem iLength 1 with
  | none => ok []
  | some pstM2 => m2_radios.loop pstM2 (pstM2.child.length + 1) 0

/-- What the message of `len` bytes that `m2buf` holds asks for. -/
def m2_request (m2buf : GrowBuffer) (len : Int) : Result request :=
  .m2 <$> m2_radios (tlvs m2buf.buffer) (wrap32 (len - sizeof_cmdu_raw_msg))

/-- What a packet of the mesh group asks for. -/
def packet_request (m2buf : GrowBuffer) (pkt : List UInt8) : Result request := do
  let pktFrom ← packet_from pkt
  let type ← ntohs <$> msg_type (packet pkt)
  if pktFrom = PKT_LOCAL ∧ type = MSG_AP_AUTOCONFIGURATION_WSC then ok .nothing
  else if type = MSG_AP_AUTOCONFIGURATION_WSC then do
    let collected ← cfgmgr_collect_wsc m2buf pkt
    if collected.2 then m2_request collected.1 (wrap32 collected.1.offset) else ok .nothing
  else if type = MSG_AP_AUTOCONFIGURATION_RESPONSE then do
    let len ← packet_len pkt
    let freq_band ← cfgmgr_parse_autoconfiguration_response (packet pkt) len
    ok (if freq_band < 0 then .nothing else .response (radio_of_band freq_band))
  else ok .nothing

/-- What a private message asks for. -/
def private_request (fromName toName data : List UInt8) : Result request := do
  if ← strcmp_eq toName g_cfgmgr_user_name then
    if ← strcmp_eq fromName g_mesh_user_name then do
      let mesh_msg_id ← readU16 data 0
      ok (if mesh_msg_id = MESH_MSGCMD_CONTROLLER_INFO_RSP then .controller_info else .nothing)
    else if ← strcmp_eq fromName config_user_name then do
      ok (if ← strcmp_eq data reconfig_command then .reconfig else .nothing)
    else ok .nothing
  else ok .nothing

def message_request (m2buf : GrowBuffer) (cmd : MbusMsgCcmd) (fromName toName data : List UInt8) :
    Result request :=
  match cmd with
  | .MBUS_CMD_GROUP_MSG => do
    if ← strcmp_eq toName g_mesh_group_name then packet_request m2buf data else ok .nothing
  | .MBUS_CMD_PRIVATE_MSG => private_request fromName toName data
  | _ => ok .nothing

theorem m2_request_eq_ok {m2buf : GrowBuffer} {len : Int} {r : request}
    (h : m2_request m2buf len = ok r) :
    ∃ radios, m2_radios (tlvs m2buf.buffer) (wrap32 (len - sizeof_cmdu_raw_msg)) = ok radios ∧
      r = .m2 radios := by
  obtain ⟨radios, hradios, rfl⟩ := map_eq_ok_iff.mp h
  exact ⟨radios, hradios, rfl⟩

/-- A packet of the group asks to configure radios or to send an M1 and nothing else. -/
theorem packet_request_cases {m2buf : GrowBuffer} {pkt : List UInt8} {r : request}
    (h : packet_request m2buf pkt = ok r) :
    r = .nothing ∨ (∃ radios, r = .m2 radios) ∨ ∃ i, r = .response i := by
  obtain ⟨pktFrom, _, h⟩ := bind_eq_ok_iff.mp h
  obtain ⟨type, _, h⟩ := bind_eq_ok_iff.mp h
  split at h
  · cases h
    exact .inl rfl
  · split at h
    · obtain ⟨collected, _, h⟩ := bind_eq_ok_iff.mp h
      split at h
      · obtain ⟨radios, _, rfl⟩ := m2_request_eq_ok h
        exact .inr (.inl ⟨radios, rfl⟩)
      · cases h
        exact .inl rfl
    · split at h
      · obtain ⟨len, _, h⟩ := bind_eq_ok_iff.mp h
        obtain ⟨band, _, h⟩ := bind_eq_ok_iff.mp h
        split at h
        · cases h
          exact .inl rfl
        · cases h
          exact .inr (.inr ⟨_, rfl⟩)
      · cases h
        exact .inl rfl

/-- A private message asks for a controller's data or for `reconfig` and nothing else. -/
theorem private_request_cases {fromName toName data : List UInt8} {r : request}
    (h : private_request fromName toName data = ok r) :
    r = .nothing ∨ r = .controller_info ∨
      r = .reconfig ∧ g_cfgmgr_user_name <+: toName ∧ config_user_name <+: fromName ∧
        reconfig_command <+: data := by
  obtain ⟨isMe, hto, h⟩ := bind_eq_ok_iff.mp h
  cases isMe with
  | false =>
    cases h
    exact .inl rfl
  | true =>
    obtain ⟨isMesh, hmesh, h⟩ := bind_eq_ok_iff.mp h
    cases isMesh with
    | true =>
      obtain ⟨id, hid, h⟩ := bind_eq_ok_iff.mp h
      split at h
      · cases h
        exact .inr (.inl rfl)
      · cases h
        exact .inl rfl
    | false =>
      obtain ⟨isConfig, hconfig, h⟩ := bind_eq_ok_iff.mp h
      cases isConfig with
      | false =>
        cases h
        exact .inl rfl
      | true =>
        obtain ⟨isReconfig, hdata, h⟩ := bind_eq_ok_iff.mp h
        cases isReconfig with
        | false =>
          cases h
          exact .inl rfl
        | true =>
          cases h
          refine .inr (.inr ⟨rfl, ?_, ?_, ?_⟩)
          · exact (strcmp_eq_true_iff (by decide)).mp hto
          · exact (strcmp_eq_true_iff (by decide)).mp hconfig
          · exact (strcmp_eq_true_iff (by decide)).mp hdata

/-- The process has done what was asked for; its buffer and what it sent are not considered. -/
structure Served (r : request) (w w' : process) : Prop where
  states : w'.conf_state = r.states w.conf_state
  timer : w'.timer =
    (fun timer => reset_timer timer w.cfgmgr.autoconf_fsm_tiemr 10)^[r.resets] w.timer
  fsm_timer : w'.cfgmgr.autoconf_fsm_tiemr = w.cfgmgr.autoconf_fsm_tiemr

section Update

variable (w : process)

@[simp] theorem setState_conf_state (i : Fin 2) (state : ConfigStatus) :
    (w.setState i state).conf_state = Function.update w.conf_state i state := by
  funext j
  by_cases hj : j = i
  · subst hj
    simp [process.setState, process.conf_state]
  · simp [process.setState, process.conf_state, hj]

@[simp] theorem setState_timer (i : Fin 2) (state : ConfigStatus) :
    (w.setState i state).timer = w.timer := rfl

@[simp] theorem setState_fsm_timer (i : Fin 2) (state : ConfigStatus) :
    (w.setState i state).cfgmgr.autoconf_fsm_tiemr = w.cfgmgr.autoconf_fsm_tiemr := rfl

@[simp] theorem resetTimer_conf_state (te : Ptr) (msec : Nat) :
    (w.resetTimer te msec).conf_state = w.conf_state := rfl

@[simp] theorem resetTimer_timer (te : Ptr) (msec : Nat) :
    (w.resetTimer te msec).timer = reset_timer w.timer te msec := rfl

@[simp] theorem resetTimer_cfgmgr (te : Ptr) (msec : Nat) :
    (w.resetTimer te msec).cfgmgr = w.cfgmgr := rfl

@[simp] theorem setM2buf_conf_state (m2buf : GrowBuffer) :
    (w.setM2buf m2buf).conf_state = w.conf_state := rfl

@[simp] theorem setM2buf_timer (m2buf : GrowBuffer) : (w.setM2buf m2buf).timer = w.timer := rfl

@[simp] theorem setM2buf_fsm_timer (m2buf : GrowBuffer) :
    (w.setM2buf m2buf).cfgmgr.autoconf_fsm_tiemr = w.cfgmgr.autoconf_fsm_tiemr := rfl

@[simp] theorem setM2buf_m2buf (m2buf : GrowBuffer) : (w.setM2buf m2buf).cfgmgr.m2buf = m2buf := rfl

end Update

theorem Served.refl (w : process) : Served .nothing w w := ⟨rfl, rfl, rfl⟩

/-- A process that differs in what it has sent and in its message id. -/
structure OnlySent (w w' : process) : Prop where
  radios : w'.cfgmgr.radios = w.cfgmgr.radios
  m2buf : w'.cfgmgr.m2buf = w.cfgmgr.m2buf
  fsm_timer : w'.cfgmgr.autoconf_fsm_tiemr = w.cfgmgr.autoconf_fsm_tiemr
  timer : w'.timer = w.timer

theorem OnlySent.refl (w : process) : OnlySent w w := ⟨rfl, rfl, rfl, rfl⟩

theorem OnlySent.conf_state {w w' : process} (h : OnlySent w w') : w'.conf_state = w.conf_state := by
  funext i
  rw [process.conf_state, h.radios, process.conf_state]

theorem OnlySent.served {w w' : process} (h : OnlySent w w') : Served .nothing w w' :=
  ⟨h.conf_state, h.timer, h.fsm_timer⟩

theorem cfgmgr_send_cmdu_onlySent {w w' : process} {raw_msg al_addr if_addr ifname : List UInt8}
    {pstRoot : KamiTlv_S} (h : cfgmgr_send_cmdu w raw_msg pstRoot al_addr if_addr ifname = ok w') :
    OnlySent w w' := by
  simp only [cfgmgr_send_cmdu, bind_eq_ok_iff] at h
  obtain ⟨_, _, _, _, _, _, _, _, _, _, _, _, hok⟩ := h
  cases hok
  exact ⟨rfl, rfl, rfl, rfl⟩

theorem cfgmgr_send_wsc_m1_onlySent {w w' : process} {al_addr if_addr ifname dest : List UInt8}
    {msg_id band : Int} (h : cfgmgr_send_wsc_m1 w al_addr if_addr ifname dest msg_id band = ok w') :
    OnlySent w w' := by
  simp only [cfgmgr_send_wsc_m1, bind_eq_ok_iff] at h
  obtain ⟨_, _, _, _, _, _, _, _, _, _, _, _, hsend⟩ := h
  exact cfgmgr_send_cmdu_onlySent hsend

theorem cfgmgr_send_autoconfiguration_search_onlySent {w w' : process} {radio : radio_s}
    {ifname if_addr al_addr dest : List UInt8}
    (h : cfgmgr_send_autoconfiguration_search w radio ifname if_addr al_addr dest = ok w') :
    OnlySent w w' := by
  simp only [cfgmgr_send_autoconfiguration_search, bind_eq_ok_iff] at h
  obtain ⟨_, _, _, _, _, _, _, _, hsend⟩ := h
  have hsent := cfgmgr_send_cmdu_onlySent hsend
  exact ⟨hsent.radios, hsent.m2buf, hsent.fsm_timer, hsent.timer⟩

theorem cfgmgr_handle_autoconfiguration_renew_onlySent {w w' : process} {pkt : List UInt8}
    (h : cfgmgr_handle_autoconfiguration_renew w pkt = ok w') : OnlySent w w' := by
  obtain ⟨len, _, h⟩ := bind_eq_ok_iff.mp h
  obtain ⟨freq_band, _, h⟩ := bind_eq_ok_iff.mp h
  split at h
  · cases h
    exact .refl w
  · obtain ⟨dest, _, h⟩ := bind_eq_ok_iff.mp h
    obtain ⟨id, _, h⟩ := bind_eq_ok_iff.mp h
    exact cfgmgr_send_wsc_m1_onlySent h

/-- Parsing an M2 configures the radios it names, one after another. -/
theorem parse_wsc_loop_eq (pstM2 : KamiTlv_S) (fuel i : Nat) (w : process) :
    cfgmgr_parse_autoconfiguration_wsc.loop pstM2 fuel i w =
      (fun radios => radios.foldl process.configure w) <$> m2_radios.loop pstM2 fuel i := by
  induction fuel generalizing i w with
  | zero => rfl
  | succ fuel ih =>
    rw [cfgmgr_parse_autoconfiguration_wsc.loop, m2_radios.loop]
    cases Kami_Tlv_GetObjectItem pstM2 wsc.TLV_TYPE_WSC i with
    | none => rfl
    | some pstWsc =>
      cases hradio : wsc_radio pstWsc with
      | fail => simp [hradio]
      | div => simp [hradio]
      | ok found =>
        match found with
        | none => simp [hradio]
        | some none => simp [hradio, ih]
        | some (some radio) => simp [hradio, ih]

theorem cfgmgr_parse_wsc_tlvs_eq (w : process) (mem : List UInt8) (iLength : Int) :
    cfgmgr_parse_wsc_tlvs w mem iLength =
      (fun radios => radios.foldl process.configure w) <$> m2_radios mem iLength := by
  unfold cfgmgr_parse_wsc_tlvs m2_radios
  cases hparse : Kami_Tlv_ParseObject mem iLength 1 with
  | fail => rfl
  | div => rfl
  | ok object =>
    cases object with
    | none => rfl
    | some pstM2 => simpa using parse_wsc_loop_eq pstM2 _ 0 w

theorem foldl_configure_served (radios : List (Fin 2)) (w : process) :
    Served (.m2 radios) w (radios.foldl process.configure w) := by
  induction radios generalizing w with
  | nil =>
    refine ⟨?_, rfl, rfl⟩
    funext i
    simp [request.states]
  | cons radio radios ih =>
    obtain ⟨hstates, htimer, hfsm⟩ := ih (w.configure radio)
    rw [List.foldl_cons]
    refine ⟨?_, ?_, hfsm⟩
    · rw [hstates]
      funext i
      by_cases hi : i = radio
      · simp [request.states, process.configure, hi]
      · simp [request.states, process.configure, hi]
    · rw [htimer]
      rfl

theorem foldl_configure_m2buf (radios : List (Fin 2)) (w : process) :
    (radios.foldl process.configure w).cfgmgr.m2buf = w.cfgmgr.m2buf := by
  induction radios generalizing w with
  | nil => rfl
  | cons radio radios ih => exact ih (w.configure radio)

theorem foldl_configure_setM2buf (radios : List (Fin 2)) (w : process) (m2buf : GrowBuffer) :
    radios.foldl process.configure (w.setM2buf m2buf) =
      (radios.foldl process.configure w).setM2buf m2buf := by
  induction radios generalizing w with
  | nil => rfl
  | cons radio radios ih => exact ih (w.configure radio)

/-- A complete message configures the radios it names and leaves the buffer empty. -/
theorem cfgmgr_finish_wsc_spec {w w' : process} {len : Int}
    (h : cfgmgr_finish_wsc w len = ok w') :
    ∃ radios, m2_request w.cfgmgr.m2buf len = ok (.m2 radios) ∧
      w' = (radios.foldl process.configure w).setM2buf { w.cfgmgr.m2buf with offset := 0 } := by
  obtain ⟨w₁, hparse, hok⟩ := bind_eq_ok_iff.mp h
  rw [cfgmgr_parse_autoconfiguration_wsc, cfgmgr_parse_wsc_tlvs_eq] at hparse
  obtain ⟨radios, hradios, rfl⟩ := map_eq_ok_iff.mp hparse
  rw [foldl_configure_m2buf] at hok
  refine ⟨radios, ?_, (Result.ok.inj hok).symm⟩
  rw [m2_request, hradios, map_ok]

/-- A CMDU that the handler of WSC messages gets. -/
structure IsWscPacket (pkt : List UInt8) : Prop where
  network : ∃ sender, packet_from pkt = ok sender ∧ sender ≠ PKT_LOCAL
  type : ntohs <$> msg_type (packet pkt) = ok MSG_AP_AUTOCONFIGURATION_WSC

/-- What a WSC packet leaves: it is stored, and a complete message is served. -/
theorem cfgmgr_handle_autoconfiguration_wsc_cases {w w' : process} {pkt : List UInt8}
    (h : cfgmgr_handle_autoconfiguration_wsc w pkt = ok w') :
    (∃ m2buf, cfgmgr_collect_wsc w.cfgmgr.m2buf pkt = ok (m2buf, false) ∧ w' = w.setM2buf m2buf) ∨
    ∃ m2buf radios, cfgmgr_collect_wsc w.cfgmgr.m2buf pkt = ok (m2buf, true) ∧
      m2_request m2buf (wrap32 m2buf.offset) = ok (.m2 radios) ∧
      w' = (radios.foldl process.configure (w.setM2buf m2buf)).setM2buf { m2buf with offset := 0 } := by
  obtain ⟨⟨m2buf, complete⟩, hcollect, h⟩ := bind_eq_ok_iff.mp h
  by_cases hcomplete : complete = true
  · rw [if_pos hcomplete] at h
    obtain ⟨radios, hradios, rfl⟩ := cfgmgr_finish_wsc_spec h
    subst hcomplete
    exact .inr ⟨m2buf, radios, hcollect, hradios, rfl⟩
  · rw [if_neg hcomplete] at h
    cases h
    obtain rfl := Bool.eq_false_of_not_eq_true hcomplete
    exact .inl ⟨m2buf, hcollect, rfl⟩

/-- What a packet of the mesh group can do. -/
theorem cfgmgr_handle_packet_cases {w w' : process} {pkt : List UInt8}
    (h : cfgmgr_handle_packet w pkt = ok w') :
    packet_request w.cfgmgr.m2buf pkt = ok .nothing ∧
        (w' = w ∨ cfgmgr_handle_autoconfiguration_renew w pkt = ok w') ∨
    IsWscPacket pkt ∧ cfgmgr_handle_autoconfiguration_wsc w pkt = ok w' ∨
    ∃ i, packet_request w.cfgmgr.m2buf pkt = ok (.response i) ∧
      w' = (w.setState i .AUTOCONF_SEND_M1).resetTimer w.cfgmgr.autoconf_fsm_tiemr 10 := by
  obtain ⟨pktFrom, hfrom, h⟩ := bind_eq_ok_iff.mp h
  obtain ⟨type, htype, h⟩ := bind_eq_ok_iff.mp h
  by_cases hlocal : pktFrom = PKT_LOCAL ∧ type = MSG_AP_AUTOCONFIGURATION_WSC
  · rw [if_pos hlocal] at h
    cases h
    refine .inl ⟨?_, .inl rfl⟩
    simp only [packet_request, hfrom, htype, ok_bind, if_pos hlocal]
  rw [if_neg hlocal] at h
  by_cases hrenew : type = MSG_AP_AUTOCONFIGURATION_RENEW
  · rw [if_pos hrenew] at h
    have hwsc : type ≠ MSG_AP_AUTOCONFIGURATION_WSC := by rw [hrenew]; decide
    have hresponse : type ≠ MSG_AP_AUTOCONFIGURATION_RESPONSE := by rw [hrenew]; decide
    refine .inl ⟨?_, .inr h⟩
    simp only [packet_request, hfrom, htype, ok_bind, if_neg hlocal, if_neg hwsc, if_neg hresponse]
  rw [if_neg hrenew] at h
  by_cases hwsc : type = MSG_AP_AUTOCONFIGURATION_WSC
  · rw [if_pos hwsc] at h
    subst hwsc
    exact .inr (.inl ⟨⟨⟨pktFrom, hfrom, fun heq => hlocal ⟨heq, rfl⟩⟩, htype⟩, h⟩)
  rw [if_neg hwsc] at h
  by_cases hresponse : type = MSG_AP_AUTOCONFIGURATION_RESPONSE
  · rw [if_pos hresponse] at h
    obtain ⟨len, hlen, h⟩ := bind_eq_ok_iff.mp h
    obtain ⟨freq_band, hband, h⟩ := bind_eq_ok_iff.mp h
    have hrequest : packet_request w.cfgmgr.m2buf pkt =
        ok (if freq_band < 0 then .nothing else .response (radio_of_band freq_band)) := by
      simp only [packet_request, hfrom, htype, ok_bind, if_neg hlocal, if_neg hwsc,
        if_pos hresponse, hlen, hband]
    by_cases hneg : freq_band < 0
    · rw [if_pos hneg] at h hrequest
      cases h
      exact .inl ⟨hrequest, .inl rfl⟩
    · rw [if_neg hneg] at h hrequest
      cases h
      exact .inr (.inr ⟨_, hrequest, rfl⟩)
  · rw [if_neg hresponse] at h
    cases h
    refine .inl ⟨?_, .inl rfl⟩
    simp only [packet_request, hfrom, htype, ok_bind, if_neg hlocal, if_neg hwsc, if_neg hresponse]

/-- What a WSC packet asks for: nothing, until it completes a message. -/
theorem packet_request_wsc {m2buf m2buf' : GrowBuffer} {pkt : List UInt8} {complete : Bool}
    (hpkt : IsWscPacket pkt) (hcollect : cfgmgr_collect_wsc m2buf pkt = ok (m2buf', complete)) :
    packet_request m2buf pkt =
      if complete then m2_request m2buf' (wrap32 m2buf'.offset) else ok .nothing := by
  obtain ⟨⟨sender, hfrom, hnetwork⟩, htype⟩ := hpkt
  rw [packet_request, hfrom, ok_bind, htype, ok_bind, if_neg fun h => hnetwork h.1, if_pos rfl,
    hcollect, ok_bind]

/-- Only a WSC packet that completes a message asks to configure radios. -/
theorem packet_request_m2 {m2buf : GrowBuffer} {pkt : List UInt8} {radios : List (Fin 2)}
    (h : packet_request m2buf pkt = ok (.m2 radios)) :
    IsWscPacket pkt ∧ ∃ m2buf', cfgmgr_collect_wsc m2buf pkt = ok (m2buf', true) ∧
      m2_request m2buf' (wrap32 m2buf'.offset) = ok (.m2 radios) := by
  obtain ⟨pktFrom, hfrom, h⟩ := bind_eq_ok_iff.mp h
  obtain ⟨type, htype, h⟩ := bind_eq_ok_iff.mp h
  split at h
  · cases h
  · rename_i hlocal
    split at h
    · rename_i hwsc
      subst hwsc
      refine ⟨⟨⟨pktFrom, hfrom, fun heq => hlocal ⟨heq, rfl⟩⟩, htype⟩, ?_⟩
      obtain ⟨⟨m2buf', complete⟩, hcollect, h⟩ := bind_eq_ok_iff.mp h
      cases complete with
      | true =>
        rw [if_pos rfl] at h
        exact ⟨m2buf', hcollect, h⟩
      | false => cases h
    · split at h
      · obtain ⟨len, _, h⟩ := bind_eq_ok_iff.mp h
        obtain ⟨band, _, h⟩ := bind_eq_ok_iff.mp h
        split at h
        · cases h
        · cases h
      · cases h

theorem cfgmgr_handle_packet_served {w w' : process} {pkt : List UInt8}
    (h : cfgmgr_handle_packet w pkt = ok w') :
    ∃ r, packet_request w.cfgmgr.m2buf pkt = ok r ∧ Served r w w' := by
  rcases cfgmgr_handle_packet_cases h with ⟨hr, rfl | hrenew⟩ | ⟨hpkt, hwsc⟩ | ⟨i, hr, rfl⟩
  · exact ⟨.nothing, hr, .refl w'⟩
  · exact ⟨.nothing, hr, (cfgmgr_handle_autoconfiguration_renew_onlySent hrenew).served⟩
  · rcases cfgmgr_handle_autoconfiguration_wsc_cases hwsc with
      ⟨m2buf, hcollect, rfl⟩ | ⟨m2buf, radios, hcollect, hradios, rfl⟩
    · refine ⟨.nothing, ?_, ⟨rfl, rfl, rfl⟩⟩
      rw [packet_request_wsc hpkt hcollect, if_neg Bool.false_ne_true]
    · refine ⟨.m2 radios, ?_, ?_⟩
      · rw [packet_request_wsc hpkt hcollect, if_pos rfl, hradios]
      · obtain ⟨hstates, htimer, hfsm⟩ := foldl_configure_served radios (w.setM2buf m2buf)
        exact ⟨hstates, htimer, hfsm⟩
  · exact ⟨.response i, hr, ⟨setState_conf_state w _ _, rfl, rfl⟩⟩

theorem backhaulReady_states (w : process) :
    ((w.backhaulReady 0).backhaulReady 1).conf_state =
      request.controller_info.states w.conf_state := by
  funext i
  unfold process.backhaulReady request.states
  fin_cases i <;> split <;> split <;> simp_all

theorem backhaulReady_rest (w : process) :
    ((w.backhaulReady 0).backhaulReady 1).timer = w.timer ∧
      ((w.backhaulReady 0).backhaulReady 1).cfgmgr.autoconf_fsm_tiemr =
        w.cfgmgr.autoconf_fsm_tiemr := by
  unfold process.backhaulReady
  constructor <;> split <;> split <;> rfl

/-- The fields that a controller's data fills. -/
def process.setBackhaul (w : process)
    (bh_almac bh_local_almac bh_local_ifaddr bh_local_ifname : List UInt8) : process :=
  { w with cfgmgr :=
    { w.cfgmgr with bh_almac, bh_local_almac, bh_local_ifaddr, bh_local_ifname } }

/-- What a private message can do. -/
theorem cfgmgr_handle_private_msg_cases {w w' : process} {fromName toName data : List UInt8}
    (h : cfgmgr_handle_private_msg w fromName toName data = ok w') :
    private_request fromName toName data = ok .nothing ∧ w' = w ∨
    (private_request fromName toName data = ok .controller_info ∧
      ∃ bh_almac bh_local_almac bh_local_ifaddr bh_local_ifname,
        readBytes data 2 ETH_ALEN = ok bh_almac ∧ readBytes data 8 ETH_ALEN = ok bh_local_almac ∧
        readBytes data 14 ETH_ALEN = ok bh_local_ifaddr ∧
        snprintf_s w.cfgmgr.bh_local_ifname (data.drop 20) = ok bh_local_ifname ∧
        w' = (((w.setBackhaul bh_almac bh_local_almac bh_local_ifaddr
          bh_local_ifname).backhaulReady 0).backhaulReady 1).resetTimer
            w.cfgmgr.autoconf_fsm_tiemr 10) ∨
    private_request fromName toName data = ok .reconfig ∧
      w' = ((w.setState 0 .AUTOCONF_UNCONFIGURED).setState 1 .AUTOCONF_UNCONFIGURED).resetTimer
        w.cfgmgr.autoconf_fsm_tiemr 10 := by
  obtain ⟨isMe, hto, h⟩ := bind_eq_ok_iff.mp h
  cases isMe with
  | false =>
    cases h
    exact .inl ⟨by rw [private_request, hto]; rfl, rfl⟩
  | true =>
    obtain ⟨isMesh, hmesh, h⟩ := bind_eq_ok_iff.mp h
    cases isMesh with
    | true =>
      obtain ⟨id, hid, h⟩ := bind_eq_ok_iff.mp h
      by_cases hrsp : id = MESH_MSGCMD_CONTROLLER_INFO_RSP
      · rw [if_pos hrsp] at h
        obtain ⟨almac, halmac, h⟩ := bind_eq_ok_iff.mp h
        obtain ⟨local_almac, hlocal, h⟩ := bind_eq_ok_iff.mp h
        obtain ⟨ifaddr, hifaddr, h⟩ := bind_eq_ok_iff.mp h
        obtain ⟨ifname, hifname, h⟩ := bind_eq_ok_iff.mp h
        cases h
        refine .inr (.inl ⟨by simp [private_request, hto, hmesh, hid, hrsp], ?_⟩)
        exact ⟨almac, local_almac, ifaddr, ifname, halmac, hlocal, hifaddr, hifname, rfl⟩
      · rw [if_neg hrsp] at h
        cases h
        exact .inl ⟨by simp [private_request, hto, hmesh, hid, hrsp], rfl⟩
    | false =>
      obtain ⟨isConfig, hconfig, h⟩ := bind_eq_ok_iff.mp h
      cases isConfig with
      | false =>
        cases h
        exact .inl ⟨by simp [private_request, hto, hmesh, hconfig], rfl⟩
      | true =>
        obtain ⟨isReconfig, hdata, h⟩ := bind_eq_ok_iff.mp h
        cases isReconfig with
        | false =>
          cases h
          exact .inl ⟨by simp [private_request, hto, hmesh, hconfig, hdata], rfl⟩
        | true =>
          cases h
          exact .inr (.inr ⟨by simp [private_request, hto, hmesh, hconfig, hdata], rfl⟩)

theorem cfgmgr_handle_private_msg_served {w w' : process} {fromName toName data : List UInt8}
    (h : cfgmgr_handle_private_msg w fromName toName data = ok w') :
    ∃ r, private_request fromName toName data = ok r ∧ Served r w w' := by
  rcases cfgmgr_handle_private_msg_cases h with
    ⟨hr, rfl⟩ | ⟨hr, almac, local_almac, ifaddr, ifname, _, _, _, _, rfl⟩ | ⟨hr, rfl⟩
  · exact ⟨.nothing, hr, .refl w'⟩
  · refine ⟨.controller_info, hr, ?_⟩
    obtain ⟨htimer, hfsm⟩ := backhaulReady_rest (w.setBackhaul almac local_almac ifaddr ifname)
    refine ⟨backhaulReady_states _, ?_, hfsm⟩
    rw [resetTimer_timer, htimer]
    rfl
  · refine ⟨.reconfig, hr, ?_, rfl, rfl⟩
    funext i
    fin_cases i <;> simp [request.states]

/-- What a message of the bus does to the radios and to the timers. -/
theorem cfgmgr_handle_msg_served {w w' : process} {cmd : MbusMsgCcmd}
    {fromName toName data : List UInt8}
    (h : cfgmgr_handle_msg w cmd fromName toName data = ok w') :
    ∃ r, message_request w.cfgmgr.m2buf cmd fromName toName data = ok r ∧ Served r w w' := by
  cases cmd with
  | MBUS_CMD_GROUP_MSG =>
    obtain ⟨isGroup, hto, h⟩ := bind_eq_ok_iff.mp h
    cases isGroup with
    | false =>
      cases h
      exact ⟨.nothing, by simp [message_request, hto], .refl w⟩
    | true =>
      obtain ⟨r, hr, hserved⟩ := cfgmgr_handle_packet_served h
      exact ⟨r, by simp [message_request, hto, hr], hserved⟩
  | MBUS_CMD_PRIVATE_MSG => exact cfgmgr_handle_private_msg_served h
  | MBUS_CMD_NONE =>
    cases h
    exact ⟨.nothing, rfl, .refl w⟩
  | MBUS_CMD_HEARTBEAT =>
    cases h
    exact ⟨.nothing, rfl, .refl w⟩

end easymesh.cfg_mgr
