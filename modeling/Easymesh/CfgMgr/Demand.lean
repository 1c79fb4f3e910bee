import Easymesh.CfgMgr.Automaton

open Lib Lib.Result easymesh.cmdu

namespace easymesh.cfg_mgr

/-- The radio that an output offers an M1 for. -/
def output.offered : output → Option (Fin 2)
  | offers_m1 i => some i
  | _ => none

/-- The input asks for an M1 for the radio: a response for its band, or a renew. -/
def input.Demands (i : Fin 2) (a : input) : Prop := a = .asked (.response i) ∨ a = .renewed i

/-- The radio that an event asks for an M1 for: that of a response or of a renew. -/
def event.demanded (e : event) : Option (Fin 2) :=
  e.renewed.or (e.band_of MSG_AP_AUTOCONFIGURATION_RESPONSE)

instance (i : Fin 2) (a : input) : Decidable (a.Demands i) := inferInstanceAs (Decidable (_ ∨ _))

section Automaton

variable {i : Fin 2} {states : Fin 2 → ConfigStatus}

/-- The M1s for a radio that the automaton has offered. -/
def automaton.offers (i : Fin 2) (d : automaton) : Nat := (d.said.filterMap output.offered).count i

theorem automaton.offers_exec (i : Fin 2) (d : automaton) (a : input) :
    (d.exec a).offers i =
      d.offers i + ((a.outputs d.states).filterMap output.offered).count i := by
  change ((d.said ++ a.outputs d.states).filterMap output.offered).count i = _
  rw [List.filterMap_append, List.count_append]
  rfl

/-- The M1s for a radio that the automaton has offered or is going to offer in the next tick. -/
def automaton.committed (i : Fin 2) (d : automaton) : Nat :=
  d.offers i + if d.states i = .AUTOCONF_SEND_M1 then 1 else 0

/-- In a tick an M1 is offered for the radios that are to send one. -/
theorem ticks_offered (i : Fin 2) (states : Fin 2 → ConfigStatus) :
    ((input.ticks.outputs states).filterMap output.offered).count i =
      if states i = .AUTOCONF_SEND_M1 then 1 else 0 := by
  rw [← radio_said_both]
  generalize hfirst : states 0 = s₀
  generalize hsecond : states 1 = s₁
  fin_cases i
  · simp only [Fin.zero_eta, hfirst]
    cases s₀ <;> cases s₁ <;> rfl
  · simp only [Fin.mk_one, hsecond]
    cases s₀ <;> cases s₁ <;> rfl

/-- Nothing but a demand brings a radio to send an M1. -/
theorem input.next_send_m1 {a : input} (h : a.next states i = .AUTOCONF_SEND_M1)
    (hdemand : ¬ a.Demands i) : a ≠ .ticks ∧ states i = .AUTOCONF_SEND_M1 := by
  rw [input.next] at h
  cases a with
  | nothing | registers | renewed j => exact ⟨by rintro ⟨⟩, h⟩
  | ticks =>
    change radio_next (states i) .tick = _ at h
    rw [radio_next_tick, afterTick] at h
    split at h
    · cases h
    · contradiction
  | asked r =>
    refine ⟨by rintro ⟨⟩, ?_⟩
    change (input.asked r).next states i = _ at h
    rw [request_next] at h
    cases r with
    | nothing => exact h
    | controller_info =>
      change (if states i = _ then _ else _) = _ at h
      split at h
      · cases h
      · cases h
    | response j =>
      have hother : i ≠ j := by
        rintro rfl
        exact hdemand (.inl rfl)
      rw [request.states, Function.update_of_ne hother] at h
      exact h
    | m2 radios =>
      change (if i ∈ radios then _ else _) = _ at h
      split at h
      · cases h
      · exact h
    | reconfig => cases h

/-- An input that makes the device offer nothing. -/
theorem input.offers_le_of_silent {a : input}
    (hsilent : (a.outputs states).filterMap output.offered = []) :
    ((a.outputs states).filterMap output.offered).count i +
        (if a.next states i = .AUTOCONF_SEND_M1 then 1 else 0) ≤
      (if states i = .AUTOCONF_SEND_M1 then 1 else 0) + if decide (a.Demands i) then 1 else 0 := by
  rw [hsilent, List.count_nil]
  by_cases hdemand : a.Demands i
  · rw [if_pos (decide_eq_true hdemand)]
    split <;> omega
  · by_cases hnext : a.next states i = .AUTOCONF_SEND_M1
    · rw [if_pos (input.next_send_m1 hnext hdemand).2]
      split <;> omega
    · rw [if_neg hnext]
      omega

/-- What an input makes the device offer for a radio, or be going to. -/
theorem input.offers_le (i : Fin 2) (states : Fin 2 → ConfigStatus) (a : input) :
    ((a.outputs states).filterMap output.offered).count i +
        (if a.next states i = .AUTOCONF_SEND_M1 then 1 else 0) ≤
      (if states i = .AUTOCONF_SEND_M1 then 1 else 0) + if decide (a.Demands i) then 1 else 0 := by
  cases a with
  | nothing | registers | asked r => exact input.offers_le_of_silent rfl
  | ticks =>
    have hdone : input.ticks.next states i ≠ .AUTOCONF_SEND_M1 := fun hnext =>
      (input.next_send_m1 hnext (by rintro (h | h) <;> cases h)).1 rfl
    rw [ticks_offered, if_neg hdone]
    omega
  | renewed j =>
    change List.count i [j] + (if states i = .AUTOCONF_SEND_M1 then 1 else 0) ≤ _
    rw [List.count_singleton]
    by_cases hj : j = i
    · have hdemand : (input.renewed j).Demands i := .inr (hj ▸ rfl)
      rw [if_pos (decide_eq_true hdemand)]
      split <;> split <;> omega
    · rw [if_neg (by simpa using hj)]
      omega

theorem automaton.committed_exec (i : Fin 2) (d : automaton) (a : input) :
    (d.exec a).committed i ≤ d.committed i + if decide (a.Demands i) then 1 else 0 := by
  have hoffers := input.offers_le i d.states a
  rw [automaton.committed, automaton.offers_exec]
  change _ + (if a.next d.states i = .AUTOCONF_SEND_M1 then 1 else 0) ≤
    d.offers i + (if d.states i = .AUTOCONF_SEND_M1 then 1 else 0) + _
  omega

/-- While nothing happens to a radio, M1s are offered for it in answer to renews alone. -/
theorem automaton.quiet {inputs : List input} (hquiet : ∀ a ∈ inputs, a.for_radio i = none)
    (d : automaton) :
    (endState d (trace automaton.exec d inputs)).states i = d.states i ∧
      (endState d (trace automaton.exec d inputs)).offers i =
        d.offers i + inputs.count (.renewed i) := by
  induction inputs generalizing d with
  | nil => exact ⟨rfl, rfl⟩
  | cons a inputs ih =>
    obtain ⟨hfirst, hrest⟩ := List.forall_mem_cons.mp hquiet
    obtain ⟨hstates, hoffers⟩ := ih hrest (d.exec a)
    have hsame : (d.exec a).states i = d.states i := by
      change (a.for_radio i).elim _ _ = _
      rw [hfirst]
      rfl
    refine ⟨hstates.trans hsame, hoffers.trans ?_⟩
    rw [automaton.offers_exec, List.count_cons]
    cases a with
    | ticks => cases hfirst
    | renewed j =>
      change d.offers i + List.count i [j] + _ = _
      rw [List.count_singleton]
      simp only [beq_iff_eq, input.renewed.injEq]
      omega
    | nothing | registers | asked r =>
      rw [if_neg (by simp)]
      rfl

/-- A response is served in the next tick. -/
theorem automaton.serves_response {inputs : List input}
    (hquiet : ∀ a ∈ inputs, a.for_radio i = none) (d : automaton) :
    ((endState (d.exec (.asked (.response i)))
      (trace automaton.exec (d.exec (.asked (.response i))) inputs)).exec .ticks).offers i =
        d.offers i + inputs.count (.renewed i) + 1 := by
  obtain ⟨hstates, hoffers⟩ := automaton.quiet hquiet (d.exec (.asked (.response i)))
  have hsend : (d.exec (.asked (.response i))).states i = .AUTOCONF_SEND_M1 := by
    change (input.asked (.response i)).next d.states i = _
    rw [request_next, request.states, Function.update_self]
  rw [automaton.offers_exec, ticks_offered, hstates, hsend, if_pos rfl, hoffers,
    automaton.offers_exec]
  rfl

end Automaton

section Events

variable {w : process} {e : event} {i : Fin 2}

theorem band_of_response (h : w.request_of e = ok (.response i)) :
    e.band_of MSG_AP_AUTOCONFIGURATION_RESPONSE = some i := by
  cases e with
  | expire cur => cases h
  | message cmd fromName toName data =>
    cases cmd with
    | MBUS_CMD_NONE | MBUS_CMD_HEARTBEAT => cases h
    | MBUS_CMD_PRIVATE_MSG =>
      rcases private_request_cases h with hr | hr | ⟨hr, -⟩
      · cases hr
      · cases hr
      · cases hr
    | MBUS_CMD_GROUP_MSG =>
      obtain ⟨isGroup, hto, h⟩ := bind_eq_ok_iff.mp h
      cases isGroup with
      | false => cases h
      | true =>
        obtain ⟨pktFrom, -, h⟩ := bind_eq_ok_iff.mp h
        obtain ⟨type, htype, h⟩ := bind_eq_ok_iff.mp h
        split at h
        · cases h
        · split at h
          · obtain ⟨collected, -, h⟩ := bind_eq_ok_iff.mp h
            split at h
            · obtain ⟨radios, -, hm2⟩ := m2_request_eq_ok h
              cases hm2
            · cases h
          · split at h
            · rename_i hresponse
              subst hresponse
              obtain ⟨len, hlen, h⟩ := bind_eq_ok_iff.mp h
              obtain ⟨band, hband, h⟩ := bind_eq_ok_iff.mp h
              have hparsed : cfgmgr_parse_freq_band (packet data) len = ok band := hband
              rw [event.band_of, if_pos ⟨hto, htype⟩, hlen, ok_bind, hparsed]
              dsimp only
              split at h
              · cases h
              · rename_i hnamed
                cases h
                exact if_neg hnamed
            · cases h

/-- A CMDU has one type. -/
theorem band_of_type {type type' : UInt16} {i j : Fin 2} (h : e.band_of type = some i)
    (h' : e.band_of type' = some j) : type = type' := by
  cases e with
  | expire cur => cases h
  | message cmd fromName toName data =>
    cases cmd with
    | MBUS_CMD_NONE | MBUS_CMD_HEARTBEAT | MBUS_CMD_PRIVATE_MSG => cases h
    | MBUS_CMD_GROUP_MSG =>
      rw [event.band_of] at h h'
      split at h
      · rename_i htype
        split at h'
        · rename_i htype'
          exact Result.ok.inj (htype.2.symm.trans htype'.2)
        · cases h'
      · cases h

theorem demanded_of_response (h : w.request_of e = ok (.response i)) : e.demanded = some i := by
  have hband := band_of_response h
  rw [event.demanded]
  cases hrenewed : e.renewed with
  | none => exact hband
  | some j => exact absurd (band_of_type hband hrenewed) (by decide)

theorem demanded_of_demands (h : (w.input e).Demands i) : e.demanded = some i := by
  cases e with
  | expire cur =>
    rw [process.input] at h
    split at h
    · rcases h with h | h <;> cases h
    · split at h
      · rcases h with h | h <;> cases h
      · rcases h with h | h <;> cases h
  | message cmd fromName toName data =>
    rw [process.input] at h
    cases hrenewed : event.renewed (.message cmd fromName toName data) with
    | some j =>
      rw [hrenewed] at h
      rcases h with h | h
      · cases h
      · cases h
        rw [event.demanded, hrenewed]
        rfl
    | none =>
      rw [hrenewed] at h
      rcases h with h | h
      · injection h with h
        have hrequest : w.request_of (.message cmd fromName toName data) = ok (.response i) := by
          cases hr : w.request_of (.message cmd fromName toName data) with
          | ok r =>
            rw [hr, Result.getD_ok] at h
            rw [h]
          | fail =>
            rw [hr] at h
            cases h
          | div =>
            rw [hr] at h
            cases h
        exact demanded_of_response hrequest
      · cases h

end Events

section Runs

theorem Shows.m1_radios {o : output} {c : mbus_call} (h : Shows o c) :
    m1_radios c = o.offered.toList := by
  cases o with
  | logs_in | creates_group | joins_group | asks_for_controller =>
    cases h
    rfl
  | searches i =>
    obtain ⟨pkt, rfl, hsearches⟩ := h
    rw [cfg_mgr.m1_radios, mbus_call.cmdu]
    dsimp only
    rw [hsearches.read.type, if_neg (by decide)]
    rfl
  | offers_m1 i =>
    obtain ⟨pkt, rfl, hoffers⟩ := h
    exact hoffers.read.radios

theorem calls_m1_radios {said : List output} {calls : List mbus_call}
    (h : List.Forall₂ Shows said calls) :
    calls.flatMap m1_radios = said.filterMap output.offered := by
  induction h with
  | nil => rfl
  | @cons o c said calls hfirst _ ih =>
    rw [List.flatMap_cons, hfirst.m1_radios, ih]
    cases hoffered : o.offered with
    | none => rw [List.filterMap_cons_none hoffered, Option.toList_none, List.nil_append]
    | some i =>
      rw [List.filterMap_cons_some hoffered, Option.toList_some, List.singleton_append]

/-- The M1s for a radio that the process has sent. -/
def process.m1s (i : Fin 2) (w : process) : Nat := (w.calls.flatMap m1_radios).count i

theorem Refines.m1s {w : process} {d : automaton} (h : Refines w d) (i : Fin 2) :
    w.m1s i = d.offers i := by
  rw [process.m1s, calls_m1_radios h.calls]
  rfl

/-- The M1s for a radio that the process has sent or is going to send in the next tick. -/
def process.committed (i : Fin 2) (w : process) : Nat :=
  w.m1s i + if w.conf_state i = .AUTOCONF_SEND_M1 then 1 else 0

theorem Refines.committed {w : process} {d : automaton} (h : Refines w d) (i : Fin 2) :
    w.committed i = d.committed i := by
  rw [process.committed, automaton.committed, h.m1s, h.states]

/-- In a step the process commits itself to an M1 only if the event asks for one. -/
theorem Refines.committed_step {w w' : process} {d : automaton} {e : event} (h : Refines w d)
    (htake : Step w e w') (i : Fin 2) :
    w'.committed i ≤ w.committed i + if e.demanded = some i then 1 else 0 := by
  have hexec := automaton.committed_exec i d (w.input e)
  rw [(h.step htake).committed, h.committed]
  refine hexec.trans (Nat.add_le_add_left ?_ _)
  by_cases hdemands : (w.input e).Demands i
  · rw [if_pos (decide_eq_true hdemands), if_pos (demanded_of_demands hdemands)]
  · rw [if_neg (by simpa using hdemands)]
    exact Nat.zero_le _

/-- In every run the process sends for a radio at most as many M1s as it was asked for, by
the responses for its band and the renews. -/
theorem m1s_on_demand (clock : Nat → Nat) (uninit : Nat → UInt8) {tr : List (event × process)}
    (hrun : Run Step (cfgmgr_main clock uninit) tr) (i : Fin 2) :
    (endState (cfgmgr_main clock uninit) tr).m1s i ≤
      (run_inputs (cfgmgr_main clock uninit) tr).countP (·.Demands i) := by
  have href := (refines_start clock uninit).endState hrun
  have hcommitted := endState_trace_le (automaton.committed_exec i) automaton.start
    (run_inputs (cfgmgr_main clock uninit) tr)
  rw [href.m1s]
  refine le_trans (Nat.le_add_right _ _) (hcommitted.trans ?_)
  exact le_of_eq (Nat.zero_add _)

theorem m1s_on_demand_once :
    Run Step started (runOf response_at_start) ∧
      (endState started (runOf response_at_start)).m1s 0 ≤
        (run_inputs started (runOf response_at_start)).countP (·.Demands 0) ∧
      (run_inputs started (runOf response_at_start)).countP (·.Demands 0) = 1 := by
  have h : Enabled (fun w e => (process.exec w e).Returns) (fun w e => (w.exec e).getD w) started
        response_at_start ∧
      (run_inputs started (runOf response_at_start)).countP (·.Demands 0) = 1 := by
    decide +kernel
  have hrun : Run Step started (runOf response_at_start) := run_trace_returning h.1
  exact ⟨hrun, m1s_on_demand _ _ hrun 0, h.2⟩

/-- In every run a response is answered with exactly one M1 in the next turn of the state
machine, if nothing else happens to the radio until then; the only other M1s sent for it
meanwhile answer renews. -/
theorem response_served (clock : Nat → Nat) (uninit : Nat → UInt8) {tr mid : List (event × process)}
    {e e' : event} {w w' : process} {i : Fin 2} (hrun : Run Step (cfgmgr_main clock uninit) tr)
    (hresponse : Step (endState (cfgmgr_main clock uninit) tr) e w)
    (hasked : (endState (cfgmgr_main clock uninit) tr).input e = .asked (.response i))
    (hmid : Run Step w mid) (hquiet : ∀ a ∈ run_inputs w mid, a.for_radio i = none)
    (htick : Step (endState w mid) e' w') (hticks : (endState w mid).input e' = .ticks) :
    w'.m1s i = (endState (cfgmgr_main clock uninit) tr).m1s i +
      (run_inputs w mid).count (.renewed i) + 1 := by
  have hbefore := (refines_start clock uninit).endState hrun
  have hafter := (hbefore.step hresponse).endState hmid
  have hlast := hafter.step htick
  rw [hlast.m1s, hbefore.m1s, hticks, hasked]
  exact automaton.serves_response hquiet _

/-- The process when it has read a response for the 2.4G radio. -/
def responded : process := (started.exec band_response).getD started

/-- The turn that registers the process. -/
def registering : List (event × process) :=
  trace (fun w e => (w.exec e).getD w) responded [.expire 10000000]

/-- The process after the turn of the state machine that follows. -/
def served : process :=
  ((endState responded registering).exec (.expire 10000000)).getD (endState responded registering)

theorem response_served_once : served.m1s 0 = started.m1s 0 + 0 + 1 := by
  have h : (started.exec band_response).Returns ∧
      started.input band_response = .asked (.response 0) ∧
      Enabled (fun w e => (process.exec w e).Returns) (fun w e => (w.exec e).getD w) responded
        [.expire 10000000] ∧
      run_inputs responded registering = [.registers] ∧
      ((endState responded registering).exec (.expire 10000000)).Returns ∧
      (endState responded registering).input (.expire 10000000) = .ticks := by
    decide +kernel
  obtain ⟨hfirst, hasked, henabled, hinputs, hlast, hticks⟩ := h
  have hquiet : ∀ a ∈ run_inputs responded registering, a.for_radio 0 = none := by
    rw [hinputs]
    decide
  have hserved := response_served (fun k => 10 * k) (fun _ => 0) (.nil _)
    (returning_of_returns hfirst) hasked (run_trace_returning henabled) hquiet
    (returning_of_returns hlast) hticks
  change served.m1s 0 = started.m1s 0 + (run_inputs responded registering).count _ + 1 at hserved
  rw [hinputs] at hserved
  exact hserved

end Runs

end easymesh.cfg_mgr
