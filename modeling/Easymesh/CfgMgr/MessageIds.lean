import Easymesh.CfgMgr.Controller
import Easymesh.Lib.Counter

open Lib Lib.Result easymesh.tlv_parser easymesh.cmdu easymesh.minheap easymesh.mh_timer
open easymesh.bus_msg (MbusMsgCcmd)

namespace easymesh.cfg_mgr

/-- How the state machine draws the message id for a radio: a search takes the
next one, and an M1 has the one after it. -/
def radio_draws : ConfigStatus → List Draw
  | .AUTOCONF_BACKHAUL_READY => [.take]
  | .AUTOCONF_SEND_M1 => [.peek]
  | _ => []

/-- The timer of the state machine is the one that is due. -/
def process.FsmDue (w : process) (cur : Nat) : Prop :=
  ∃ due ∈ expire_next w.timer cur,
    (due.2.heap.entry due.1).handler = .cfgmgr_autoconf_search_timer_cb

instance (w : process) (cur : Nat) : Decidable (w.FsmDue cur) :=
  inferInstanceAs (Decidable (∃ _ ∈ _, _))

/-- The draws of a tick of the state machine, for one radio after the other. -/
def process.tick_draws (w : process) : List Draw :=
  (List.finRange 2).flatMap fun i => radio_draws (w.conf_state i)

def process.draws (w : process) : event → List Draw
  | .message .. => []
  | .expire cur => if w.FsmDue cur then w.tick_draws else []

/-- The message ids of the CMDUs among calls to the bus. -/
def cmdu_ids (calls : List mbus_call) : List (Result UInt16) :=
  (calls.filterMap mbus_call.cmdu).map fun pkt => ntohs <$> msg_id (packet pkt)

/-- The message ids of the CMDUs that the timers originate in a step. -/
def originated_ids (w : process) (e : event) (w' : process) : List (Result UInt16) :=
  match e with
  | .message .. => []
  | .expire _ => cmdu_ids (w'.calls.drop w.calls.length)

/-- The same for all steps of a run. -/
def run_ids : process → List (event × process) → List (Result UInt16)
  | _, [] => []
  | w, (e, w') :: tr => originated_ids w e w' ++ run_ids w' tr

def run_draws : process → List (event × process) → List Draw
  | _, [] => []
  | w, (e, w') :: tr => w.draws e ++ run_draws w' tr

/-- The CMDUs sent between two states have the ids that are drawn from `msgid`. -/
structure Sent (draws : List Draw) (w w' : process) : Prop where
  msgid : w'.cfgmgr.msgid = counterAfter w.cfgmgr.msgid draws
  calls : ∃ new, w'.calls = w.calls ++ new ∧
    cmdu_ids new = (drawn w.cfgmgr.msgid draws).map ok

theorem Sent.refl (w : process) : Sent [] w w := ⟨rfl, [], (List.append_nil _).symm, rfl⟩

theorem Sent.trans {draws draws' : List Draw} {w w₁ w' : process} (h₁ : Sent draws w w₁)
    (h₂ : Sent draws' w₁ w') : Sent (draws ++ draws') w w' := by
  obtain ⟨hmsgid₁, new₁, hcalls₁, hids₁⟩ := h₁
  obtain ⟨hmsgid₂, new₂, hcalls₂, hids₂⟩ := h₂
  refine ⟨?_, new₁ ++ new₂, ?_, ?_⟩
  · rw [hmsgid₂, hmsgid₁, counterAfter_append]
  · rw [hcalls₂, hcalls₁, List.append_assoc]
  · have happend : cmdu_ids (new₁ ++ new₂) = cmdu_ids new₁ ++ cmdu_ids new₂ := by
      rw [cmdu_ids, List.filterMap_append, List.map_append]
      rfl
    rw [happend, hids₁, hids₂, hmsgid₁, drawn_append, List.map_append]

/-- A turn of the timer's loop sends what the state of its radio asks for. -/
theorem cfgmgr_autoconf_radio_sent {i : Fin 2} {w w' : process} {send send' : Bool}
    (h : cfgmgr_autoconf_radio i w send = ok (w', send')) :
    Sent (radio_draws (w.conf_state i)) w w' := by
  unfold cfgmgr_autoconf_radio at h
  dsimp only at h
  split at h
  · rename_i hstate
    rw [hstate]
    split at h
    · cases h
      exact .refl w
    · cases h
      exact ⟨rfl, _, rfl, rfl⟩
  · rename_i hstate
    obtain ⟨w₁, hsend, hok⟩ := bind_eq_ok_iff.mp h
    cases hok
    obtain ⟨pkt, rfl, -, hframed⟩ := cfgmgr_send_autoconfiguration_search_spec hsend
    rw [hstate]
    refine ⟨rfl, _, rfl, ?_⟩
    change [ntohs <$> msg_id (packet pkt)] = [ok w.cfgmgr.msgid]
    rw [hframed.msg_id, map_ok, ntohs_htons]
  · rename_i hstate
    obtain ⟨w₁, hsend, hok⟩ := bind_eq_ok_iff.mp h
    cases hok
    obtain ⟨pkt, rfl, -, hframed⟩ := cfgmgr_send_wsc_m1_spec hsend
    rw [hstate]
    refine ⟨rfl, _, rfl, ?_⟩
    change [ntohs <$> msg_id (packet pkt)] = [ok (w.cfgmgr.msgid + 1)]
    rw [hframed.msg_id, if_neg (lt_irrefl 0), map_ok, ntohs_htons]
  · rename_i hstate
    cases h
    rw [hstate]
    exact .refl w
  · rename_i hstate
    cases h
    rw [hstate]
    exact .refl w

theorem cfgmgr_autoconf_search_timer_cb_sent {te : Ptr} {w w' : process}
    (h : cfgmgr_autoconf_search_timer_cb te w = ok w') :
    Sent w.tick_draws w w' := by
  obtain ⟨⟨w₁, send₁⟩, hfirst, h⟩ := bind_eq_ok_iff.mp h
  obtain ⟨⟨w₂, send₂⟩, hsecond, hok⟩ := bind_eq_ok_iff.mp h
  cases hok
  have hstate : w₁.conf_state 1 = w.conf_state 1 := by
    rw [(cfgmgr_autoconf_radio_spec hfirst).1]
    rfl
  have hdraws : w.tick_draws = radio_draws (w.conf_state 0) ++ radio_draws (w.conf_state 1) := by
    simp [process.tick_draws, List.finRange_succ]
  have hsent := (cfgmgr_autoconf_radio_sent hfirst).trans (cfgmgr_autoconf_radio_sent hsecond)
  rw [hstate, ← hdraws] at hsent
  exact ⟨hsent.msgid, hsent.calls⟩

/-- A turn of the timer loop sends what the draws say. -/
theorem expire_sent {w w' : process} {cur : Nat} (h : w.exec (.expire cur) = ok w') :
    Sent (w.draws (.expire cur)) w w' := by
  rw [process.draws]
  rcases expire_cases h with ⟨hnext, rfl⟩ | ⟨te, timer, hnext, ⟨hhandler, rfl⟩ | ⟨hhandler, hcb⟩⟩
  · rw [if_neg (by simp [process.FsmDue, hnext])]
    exact .refl w'
  · rw [if_neg (by simp [process.FsmDue, hnext, hhandler])]
    refine ⟨rfl, ?_⟩
    simp only [cfgmgr_regmsg_timer_cb, process.call, List.append_assoc]
    exact ⟨_, rfl, rfl⟩
  · rw [if_pos (by simp [process.FsmDue, hnext, hhandler])]
    have hsent := cfgmgr_autoconf_search_timer_cb_sent hcb
    exact ⟨hsent.msgid, hsent.calls⟩

/-- A message of the bus leaves `msgid` as it is: what it makes the process send
has an id of its own. -/
theorem cfgmgr_handle_msg_msgid {w w' : process} {cmd : MbusMsgCcmd}
    {fromName toName data : List UInt8} (h : cfgmgr_handle_msg w cmd fromName toName data = ok w') :
    w'.cfgmgr.msgid = w.cfgmgr.msgid := by
  cases cmd with
  | MBUS_CMD_NONE =>
    cases h
    rfl
  | MBUS_CMD_HEARTBEAT =>
    cases h
    rfl
  | MBUS_CMD_GROUP_MSG =>
    obtain ⟨isGroup, _, h⟩ := bind_eq_ok_iff.mp h
    cases isGroup with
    | false =>
      cases h
      rfl
    | true => exact congrArg Prod.snd (cfgmgr_handle_packet_kept h)
  | MBUS_CMD_PRIVATE_MSG =>
    have hprivate : cfgmgr_handle_private_msg w fromName toName data = ok w' := h
    rcases cfgmgr_handle_private_msg_cases hprivate with
      ⟨_, rfl⟩ | ⟨_, almac, local_almac, ifaddr, ifname, _, _, _, _, rfl⟩ | ⟨_, rfl⟩
    · rfl
    · rw [resetTimer_cfgmgr]
      unfold process.backhaulReady
      split <;> split <;> rfl
    · rfl

theorem step_ids {w w' : process} {e : event} (h : Step w e w') :
    w'.cfgmgr.msgid = counterAfter w.cfgmgr.msgid (w.draws e) ∧
      originated_ids w e w' = (drawn w.cfgmgr.msgid (w.draws e)).map ok := by
  cases e with
  | message cmd fromName toName data => exact ⟨cfgmgr_handle_msg_msgid h, rfl⟩
  | expire cur =>
    obtain ⟨hmsgid, new, hcalls, hids⟩ := expire_sent h
    refine ⟨hmsgid, ?_⟩
    rw [originated_ids, hcalls, List.drop_left, hids]

/-- The ids of a run are those that its draws take from the counter. -/
theorem run_ids_eq {w : process} {tr : List (event × process)} (hrun : Run Step w tr) :
    run_ids w tr = (drawn w.cfgmgr.msgid (run_draws w tr)).map ok := by
  induction hrun with
  | nil w => rfl
  | cons hstep _ ih =>
    obtain ⟨hmsgid, hids⟩ := step_ids hstep
    rw [run_ids, run_draws, ih, hids, hmsgid, drawn_append, List.map_append]

/-- In a run of the process the CMDUs that its timer originates have different
ids within any fewer than 65536 of them exactly when, after the first M1, there
is at most one search and then one more M1. -/
theorem originated_ids_fresh_iff (clock : Nat → Nat) (uninit : Nat → UInt8)
    {tr : List (event × process)} (hrun : Run Step (cfgmgr_main clock uninit) tr) :
    FreshWithin 65536 (run_ids (cfgmgr_main clock uninit) tr) ↔
      PeeksLast (run_draws (cfgmgr_main clock uninit) tr) := by
  rw [run_ids_eq hrun, freshWithin_map_iff fun _ _ h => Result.ok.inj h, freshWithin_drawn_iff]

/-- The controller is known, and before the timer expires one radio gets its response. -/
def one_response : List event :=
  [controller_info_message, .expire 10000000, band_response, .expire 10000000]

/-- The tick sends an M1 for the one radio and a search for the other, and the next one
sends a search again. -/
theorem one_response_runs :
    let guard := fun w e => (process.exec w e).Returns
    let next := fun (w : process) e => (w.exec e).getD w
    Enabled guard next started one_response ∧
      Enabled guard next started (one_response ++ [.expire 20000000]) ∧
      run_draws started (runOf one_response) = [.peek, .take] ∧
      run_ids started (runOf (one_response ++ [.expire 20000000])) =
        [ok 0x001b, ok 0x001a, ok 0x001b] := by
  decide +kernel

theorem originated_ids_fresh_once :
    Run Step started (runOf one_response) ∧
      run_draws started (runOf one_response) = [.peek, .take] ∧
      FreshWithin 65536 (run_ids started (runOf one_response)) := by
  obtain ⟨henabled, -, hdraws, -⟩ := one_response_runs
  have hrun : Run Step started (runOf one_response) := run_trace_returning henabled
  exact ⟨hrun, hdraws, (originated_ids_fresh_iff _ _ hrun).mpr (hdraws ▸ ⟨[.peek], rfl⟩)⟩

/-- The next search of the other radio has the id of the M1. -/
theorem search_repeats_m1_id :
    Run Step started (runOf (one_response ++ [.expire 20000000])) ∧
      ¬ FreshWithin 65536 (run_ids started (runOf (one_response ++ [.expire 20000000]))) := by
  obtain ⟨-, henabled, -, hids⟩ := one_response_runs
  refine ⟨run_trace_returning henabled, fun hfresh => ?_⟩
  rw [hids] at hfresh
  have hnodup := hfresh _ List.infix_rfl (by simp)
  simp at hnodup

end easymesh.cfg_mgr
