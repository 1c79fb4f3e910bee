import Easymesh.CfgMgr.Configured

open Lib Lib.Result easymesh.cmdu easymesh.minheap easymesh.mh_timer
open easymesh.bus_msg (MbusMsgCcmd)

namespace easymesh.cfg_mgr

/-- The timer of the state machine has exactly one slot of the heap, and the heap
is ordered by deadline. -/
structure OneSlot (w : process) : Prop where
  count : (held w.timer.heap).count w.cfgmgr.autoconf_fsm_tiemr = 1
  ordered : HeapOrdered w.timer.heap

/-- The step handles no message that resets the timer of the state machine. -/
def NoReset (w : process) (e : event) (_ : process) : Prop :=
  ∀ r, w.request_of e = ok r → r.resets = 0

instance (w : process) : Decidable (OneSlot w) :=
  decidable_of_iff
    ((held w.timer.heap).count w.cfgmgr.autoconf_fsm_tiemr = 1 ∧ HeapOrdered w.timer.heap)
    ⟨fun h => ⟨h.1, h.2⟩, fun h => ⟨h.count, h.ordered⟩⟩

instance (w : process) (e : event) (w' : process) : Decidable (NoReset w e w') :=
  match h : w.request_of e with
  | ok r => decidable_of_iff (r.resets = 0) ⟨fun hr q hq => by cases h.symm.trans hq; exact hr,
      fun hall => hall r h⟩
  | fail => isTrue fun q hq => by cases h.symm.trans hq
  | div => isTrue fun q hq => by cases h.symm.trans hq

/-- The two timers of the process and what they run. -/
structure TwoTimers (w : process) : Prop where
  fsm_timer : w.cfgmgr.autoconf_fsm_tiemr = 2
  regmsg : (w.timer.heap.entry 1).handler = .cfgmgr_regmsg_timer_cb
  search : (w.timer.heap.entry 2).handler = .cfgmgr_autoconf_search_timer_cb
  held : ∀ p ∈ held w.timer.heap, p = 1 ∨ p = 2

theorem cfgmgr_main_twoTimers (clock : Nat → Nat) (uninit : Nat → UInt8) :
    TwoTimers (cfgmgr_main clock uninit) := by
  refine ⟨rfl, ?_, ?_, fun p hp => ?_⟩
  · simp [cfgmgr_main, add_timer_handler]
  · simp [cfgmgr_main, add_timer_handler]
  · simp only [cfgmgr_main, add_timer_held, Multiset.mem_cons] at hp
    rcases hp with rfl | rfl | hp
    · exact .inr rfl
    · exact .inl rfl
    · cases hp

theorem cfgmgr_main_oneSlot (clock : Nat → Nat) (uninit : Nat → UInt8) :
    OneSlot (cfgmgr_main clock uninit) := by
  have hempty : held (empty_heap fun _ => timer_cb.cfgmgr_regmsg_timer_cb) = 0 := rfl
  refine ⟨?_, ?_⟩
  · simp only [cfgmgr_main, add_timer_held, hempty]
    rfl
  · refine add_timer_ordered _ _ _ _ ?_ (add_timer_ordered _ _ _ _ ?_ (empty_heap_ordered _))
    · rw [add_timer_held, hempty]
      decide
    · rw [hempty]
      exact Multiset.notMem_zero 1

theorem step_twoTimers {w w' : process} {e : event} (hw : TwoTimers w) (h : Step w e w') :
    TwoTimers w' := by
  obtain ⟨hfsm, hregmsg, hsearch, hheld⟩ := hw
  cases e with
  | message cmd fromName toName data =>
    obtain ⟨r, _, hserved⟩ := cfgmgr_handle_msg_served h
    obtain ⟨hcopies, hhandler⟩ :=
      reset_timer_iterate w.timer w.cfgmgr.autoconf_fsm_tiemr 10 r.resets
    rw [← hserved.timer] at hcopies hhandler
    refine ⟨hserved.fsm_timer.trans hfsm, (hhandler 1).trans hregmsg, (hhandler 2).trans hsearch,
      fun p hp => ?_⟩
    rw [hcopies, Multiset.mem_add] at hp
    rcases hp with hp | hp
    · exact .inr ((Multiset.eq_of_mem_replicate hp).trans hfsm)
    · exact hheld p hp
  | expire cur =>
    rcases expire_cases h with ⟨_, rfl⟩ | ⟨te, timer, hnext, hcase⟩
    · exact ⟨hfsm, hregmsg, hsearch, hheld⟩
    · obtain ⟨hremoved, _, hsame⟩ := expire_next_spec hnext
      have hte : te = 1 ∨ te = 2 := hheld te (hremoved ▸ Multiset.mem_cons_self te _)
      have hrest : ∀ p ∈ held timer.heap, p = 1 ∨ p = 2 := fun p hp =>
        hheld p (hremoved ▸ Multiset.mem_cons_of_mem hp)
      rcases hcase with ⟨_, rfl⟩ | ⟨_, hcb⟩
      · exact ⟨hfsm, (hsame 1).trans hregmsg, (hsame 2).trans hsearch, hrest⟩
      · obtain ⟨hticked, htimer⟩ := cfgmgr_autoconf_search_timer_cb_spec hcb
        refine ⟨hticked.fsm_timer.trans hfsm, ?_, ?_, fun p hp => ?_⟩
        · rw [htimer, reset_timer_handler]
          exact (hsame 1).trans hregmsg
        · rw [htimer, reset_timer_handler]
          exact (hsame 2).trans hsearch
        · rw [htimer, reset_timer_held, Multiset.mem_cons] at hp
          rcases hp with rfl | hp
          · exact hte
          · exact hrest p hp

/-- A turn of the timer loop that finds the timer of the state machine once in
the heap leaves it there once: it takes it out and its callback puts it back. -/
theorem expire_oneSlot {w w' : process} {cur : Nat} (hw : TwoTimers w) (hone : OneSlot w)
    (h : w.exec (.expire cur) = ok w') : OneSlot w' := by
  obtain ⟨hfsm, hregmsg, hsearch, hheld⟩ := hw
  obtain ⟨hcount, hord⟩ := hone
  rw [hfsm] at hcount
  rcases expire_cases h with ⟨_, rfl⟩ | ⟨te, timer, hnext, hcase⟩
  · exact ⟨by rw [hfsm]; exact hcount, hord⟩
  · obtain ⟨hremoved, hordered, hsame⟩ := expire_next_spec hnext
    have hte : te = 1 ∨ te = 2 := hheld te (hremoved ▸ Multiset.mem_cons_self te _)
    rw [← hremoved] at hcount
    rcases hcase with ⟨hrun, rfl⟩ | ⟨hrun, hcb⟩
    · have hne : te ≠ 2 := by
        rintro rfl
        rw [hsame, hsearch] at hrun
        cases hrun
      rw [Multiset.count_cons_of_ne (Ne.symm hne)] at hcount
      refine ⟨?_, hordered hord⟩
      change Multiset.count w.cfgmgr.autoconf_fsm_tiemr (held timer.heap) = 1
      rw [hfsm]
      exact hcount
    · have heq : te = 2 := by
        rcases hte with rfl | rfl
        · rw [hsame, hregmsg] at hrun
          cases hrun
        · rfl
      subst heq
      rw [Multiset.count_cons_self] at hcount
      have hgone : 2 ∉ held timer.heap := Multiset.count_eq_zero.mp (by omega)
      obtain ⟨hticked, htimer⟩ := cfgmgr_autoconf_search_timer_cb_spec hcb
      refine ⟨?_, ?_⟩
      · rw [htimer, reset_timer_held, hticked.fsm_timer]
        change Multiset.count w.cfgmgr.autoconf_fsm_tiemr (2 ::ₘ held timer.heap) = 1
        rw [hfsm, Multiset.count_cons_self]
        exact hcount
      · rw [htimer]
        exact reset_timer_ordered _ 2 5000 hgone (hordered hord)

/-- A message leaves the one slot alone exactly when it resets no timer. -/
theorem message_oneSlot_iff {w w' : process} {cmd : MbusMsgCcmd}
    {fromName toName data : List UInt8} (hone : OneSlot w)
    (h : w.exec (.message cmd fromName toName data) = ok w') :
    OneSlot w' ↔ NoReset w (.message cmd fromName toName data) w' := by
  obtain ⟨r, hr, hserved⟩ := cfgmgr_handle_msg_served h
  have hiff : NoReset w (.message cmd fromName toName data) w' ↔ r.resets = 0 := by
    constructor
    · exact fun hno => hno r hr
    · intro hzero q hq
      cases hr.symm.trans hq
      exact hzero
  rw [hiff]
  constructor
  · intro hafter
    have hcount := hafter.count
    rw [hserved.fsm_timer, hserved.timer, (reset_timer_iterate _ _ _ _).1, Multiset.count_add,
      Multiset.count_replicate_self, hone.count] at hcount
    omega
  · intro hzero
    have htimer := hserved.timer
    rw [hzero] at htimer
    exact ⟨by rw [hserved.fsm_timer, htimer]; exact hone.count, by rw [htimer]; exact hone.ordered⟩

/-- In a run of the process, the timer of the state machine has one slot of an
ordered heap in every state exactly when no message resets it. -/
theorem fsm_timer_one_slot_iff (clock : Nat → Nat) (uninit : Nat → UInt8)
    {tr : List (event × process)} (hrun : Run Step (cfgmgr_main clock uninit) tr) :
    (∀ x ∈ tr, OneSlot x.2) ↔ AllSteps NoReset (cfgmgr_main clock uninit) tr := by
  apply Run.invariant_iff (J := TwoTimers) (P := OneSlot) (fun hw _ h => step_twoTimers hw h) _
    (cfgmgr_main_twoTimers clock uninit) (cfgmgr_main_oneSlot clock uninit) hrun
  intro w e w' hw hone h
  cases e with
  | message cmd fromName toName data => exact message_oneSlot_iff hone h
  | expire cur =>
    refine ⟨fun _ r hr => ?_, fun _ => expire_oneSlot hw hone h⟩
    cases hr
    rfl

/-- Both timers expire, a discovery message arrives, and the state machine's timer expires again. -/
def timers_only : List event :=
  [.expire 10000000, .expire 10000000,
    group_message (network_packet true 0x0000 1 [0, 0, 0, 0, 0, 1] []),
    .expire 20000000]

theorem fsm_timer_one_slot_timers :
    Run Step started (runOf timers_only) ∧ ∀ x ∈ runOf timers_only, OneSlot x.2 := by
  have hrun : Run Step started (runOf timers_only) := run_trace_returning (by decide +kernel)
  exact ⟨hrun, (fsm_timer_one_slot_iff _ _ hrun).mpr (by decide +kernel)⟩

/-- The command `reconfig` right after the start. -/
def reconfig_at_start : List event :=
  [.message .MBUS_CMD_PRIVATE_MSG config_user_name g_cfgmgr_user_name reconfig_command]

/-- It pushes the pending timer of the state machine a second time. -/
theorem reconfig_duplicates_timer :
    Run Step started (runOf reconfig_at_start) ∧ ¬ ∀ x ∈ runOf reconfig_at_start, OneSlot x.2 :=
  ⟨run_trace_returning (by decide +kernel), by decide +kernel⟩

end easymesh.cfg_mgr
