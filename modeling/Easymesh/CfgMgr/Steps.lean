import Easymesh.CfgMgr.Requests
import Easymesh.Lib.Transition

open Lib Lib.Result easymesh.cmdu easymesh.minheap easymesh.mh_timer

namespace easymesh.cfg_mgr

/-- The steps of the process, from one event to the next. -/
abbrev Step : process → event → process → Prop := Returning process.exec

/-- A radio that has sent its M1 tries again from the start. -/
def afterTick (state : ConfigStatus) : ConfigStatus :=
  if state = .AUTOCONF_SEND_M1 then .AUTOCONF_UNCONFIGURED else state

/-- What a call of the state machine's timer changes apart from what it sends. -/
structure Ticked (w w' : process) : Prop where
  states : w'.conf_state = fun i => afterTick (w.conf_state i)
  fsm_timer : w'.cfgmgr.autoconf_fsm_tiemr = w.cfgmgr.autoconf_fsm_tiemr
  m2buf : w'.cfgmgr.m2buf = w.cfgmgr.m2buf

theorem cfgmgr_autoconf_radio_spec {i : Fin 2} {w w' : process} {send send' : Bool}
    (h : cfgmgr_autoconf_radio i w send = ok (w', send')) :
    w'.conf_state = Function.update w.conf_state i (afterTick (w.conf_state i)) ∧
      w'.cfgmgr.autoconf_fsm_tiemr = w.cfgmgr.autoconf_fsm_tiemr ∧
      w'.cfgmgr.m2buf = w.cfgmgr.m2buf ∧ w'.timer = w.timer := by
  unfold cfgmgr_autoconf_radio at h
  dsimp only at h
  split at h
  · rename_i hstate
    have hsame : Function.update w.conf_state i (afterTick (w.conf_state i)) = w.conf_state := by
      simp [hstate, afterTick]
    rw [hsame]
    split at h
    · cases h
      exact ⟨rfl, rfl, rfl, rfl⟩
    · cases h
      exact ⟨rfl, rfl, rfl, rfl⟩
  · rename_i hstate
    obtain ⟨w₁, hsend, hok⟩ := bind_eq_ok_iff.mp h
    cases hok
    have hsent := cfgmgr_send_autoconfiguration_search_onlySent hsend
    refine ⟨?_, hsent.fsm_timer, hsent.m2buf, hsent.timer⟩
    simp [hsent.conf_state, hstate, afterTick]
  · rename_i hstate
    obtain ⟨w₁, hsend, hok⟩ := bind_eq_ok_iff.mp h
    cases hok
    have hsent := cfgmgr_send_wsc_m1_onlySent hsend
    refine ⟨?_, hsent.fsm_timer, hsent.m2buf, hsent.timer⟩
    simp [hsent.conf_state, hstate, afterTick]
  · rename_i hstate
    cases h
    refine ⟨?_, rfl, rfl, rfl⟩
    simp [hstate, afterTick]
  · rename_i hstate
    cases h
    refine ⟨?_, rfl, rfl, rfl⟩
    simp [hstate, afterTick]

theorem cfgmgr_autoconf_search_timer_cb_spec {te : Ptr} {w w' : process}
    (h : cfgmgr_autoconf_search_timer_cb te w = ok w') :
    Ticked w w' ∧ w'.timer = reset_timer w.timer te 5000 := by
  obtain ⟨⟨w₁, send₁⟩, hfirst, h⟩ := bind_eq_ok_iff.mp h
  obtain ⟨⟨w₂, send₂⟩, hsecond, hok⟩ := bind_eq_ok_iff.mp h
  cases hok
  obtain ⟨hstate₁, hfsm₁, hbuf₁, htimer₁⟩ := cfgmgr_autoconf_radio_spec hfirst
  obtain ⟨hstate₂, hfsm₂, hbuf₂, htimer₂⟩ := cfgmgr_autoconf_radio_spec hsecond
  refine ⟨⟨?_, hfsm₂.trans hfsm₁, hbuf₂.trans hbuf₁⟩, ?_⟩
  · rw [resetTimer_conf_state, hstate₂, hstate₁]
    funext i
    fin_cases i <;> simp
  · rw [resetTimer_timer, htimer₂, htimer₁]

/-- What one turn of the timer loop can do: nothing is due, the registration
timer runs, or the state machine runs and re-arms its timer. -/
theorem expire_cases {w w' : process} {cur : Nat} (h : w.exec (.expire cur) = ok w') :
    (expire_next w.timer cur = none ∧ w' = w) ∨
    ∃ te timer, expire_next w.timer cur = some (te, timer) ∧
      ((timer.heap.entry te).handler = .cfgmgr_regmsg_timer_cb ∧
          w' = cfgmgr_regmsg_timer_cb { w with timer } ∨
        (timer.heap.entry te).handler = .cfgmgr_autoconf_search_timer_cb ∧
          cfgmgr_autoconf_search_timer_cb te { w with timer } = ok w') := by
  unfold process.exec expire_turn cfgmgr_timers at h
  dsimp only at h
  cases hnext : expire_next w.timer cur with
  | none =>
    rw [hnext] at h
    cases h
    exact .inl ⟨rfl, rfl⟩
  | some due =>
    obtain ⟨te, timer⟩ := due
    rw [hnext] at h
    simp only [Option.map_some, Option.getD_some] at h
    refine .inr ⟨te, timer, rfl, ?_⟩
    cases hhandler : (timer.heap.entry te).handler with
    | cfgmgr_regmsg_timer_cb =>
      rw [hhandler] at h
      cases h
      exact .inl ⟨rfl, rfl⟩
    | cfgmgr_autoconf_search_timer_cb =>
      rw [hhandler] at h
      exact .inr ⟨rfl, h⟩

/-- What the radios do in a turn of the timer loop. -/
theorem expire_states {w w' : process} {cur : Nat} (h : w.exec (.expire cur) = ok w') :
    w'.conf_state = w.conf_state ∨ w'.conf_state = fun i => afterTick (w.conf_state i) := by
  rcases expire_cases h with ⟨_, rfl⟩ | ⟨te, timer, _, ⟨_, rfl⟩ | ⟨_, hcb⟩⟩
  · exact .inl rfl
  · exact .inl rfl
  · exact .inr (cfgmgr_autoconf_search_timer_cb_spec hcb).1.states

theorem expire_m2buf {w w' : process} {cur : Nat} (h : w.exec (.expire cur) = ok w') :
    w'.cfgmgr.m2buf = w.cfgmgr.m2buf := by
  rcases expire_cases h with ⟨_, rfl⟩ | ⟨te, timer, _, ⟨_, rfl⟩ | ⟨_, hcb⟩⟩
  · rfl
  · rfl
  · exact (cfgmgr_autoconf_search_timer_cb_spec hcb).1.m2buf

theorem afterTick_configured_iff {state : ConfigStatus} :
    afterTick state = .AUTOCONF_CONFIGURED ↔ state = .AUTOCONF_CONFIGURED := by
  cases state <;> decide

/-- What an event asks of the radios. -/
def process.request_of (w : process) : event → Result request
  | .message cmd fromName toName data => message_request w.cfgmgr.m2buf cmd fromName toName data
  | .expire _ => ok .nothing

/-- A CMDU from the network, as the mesh agent hands it to the group. -/
def network_packet (last : Bool) (msg_type msg_id : UInt16) (src_addr tlvs : List UInt8) :
    List UInt8 :=
  let raw_msg := List.replicate ETH_ALEN 0xff ++ src_addr ++ bytesU16 (htons 0x893a) ++ [0, 0] ++
    bytesU16 (htons msg_type) ++ bytesU16 msg_id ++ [0, if last then 0x80 else 0] ++ tlvs
  { packet_create raw_msg with pkt_from := PKT_NETWORK, pkt_to := PKT_LOCAL }.bytes

/-- A message of the mesh group. -/
def group_message (pkt : List UInt8) : event :=
  .message .MBUS_CMD_GROUP_MSG g_mesh_user_name g_mesh_group_name pkt

/-- The end of an M2 for the 2.4G radio, and a response for its band. -/
def m2_tlvs : List UInt8 := [0x11, 0x00, 0x05, 0x10, 0x3c, 0x00, 0x01, 0x01]

def response_tlvs : List UInt8 := [0x10, 0x00, 0x01, 0x00]

end easymesh.cfg_mgr
