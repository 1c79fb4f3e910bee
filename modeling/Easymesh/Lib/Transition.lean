import Easymesh.Lib.Result

namespace Lib

variable {S E : Type}

/-- A finite run of a transition system from a state: the events taken, each
with the state it leads to. -/
inductive Run (Step : S → E → S → Prop) : S → List (E × S) → Prop
  | nil (s : S) : Run Step s []
  | cons {s s' : S} {e : E} {tr : List (E × S)} (hstep : Step s e s') (hrest : Run Step s' tr) :
      Run Step s ((e, s') :: tr)

/-- Every step of a run, given as state before, event and state after. -/
def AllSteps (Q : S → E → S → Prop) : S → List (E × S) → Prop
  | _, [] => True
  | s, (e, s') :: tr => Q s e s' ∧ AllSteps Q s' tr

instance decidableAllSteps (Q : S → E → S → Prop) [∀ s e s', Decidable (Q s e s')] :
    ∀ s tr, Decidable (AllSteps Q s tr)
  | _, [] => inferInstanceAs (Decidable True)
  | s, (e, s') :: tr =>
    have := decidableAllSteps Q s' tr
    inferInstanceAs (Decidable (Q s e s' ∧ AllSteps Q s' tr))

/-- The state a run ends in. -/
def endState : S → List (E × S) → S
  | s, [] => s
  | _, (_, s') :: tr => endState s' tr

/-- The steps of a system that does `exec` when `guard` allows it. -/
def Guarded (guard : S → E → Prop) (exec : S → E → S) (s : S) (e : E) (s' : S) : Prop :=
  guard s e ∧ s' = exec s e

/-- The run a system makes on a list of events. -/
def trace (exec : S → E → S) : S → List E → List (E × S)
  | _, [] => []
  | s, e :: es => (e, exec s e) :: trace exec (exec s e) es

/-- Each event of the list is allowed when its turn comes. -/
def Enabled (guard : S → E → Prop) (exec : S → E → S) : S → List E → Prop
  | _, [] => True
  | s, e :: es => guard s e ∧ Enabled guard exec (exec s e) es

instance decidableEnabled (guard : S → E → Prop) (exec : S → E → S)
    [∀ s e, Decidable (guard s e)] : ∀ s es, Decidable (Enabled guard exec s es)
  | _, [] => inferInstanceAs (Decidable True)
  | s, e :: es =>
    have := decidableEnabled guard exec (exec s e) es
    inferInstanceAs (Decidable (guard s e ∧ Enabled guard exec (exec s e) es))

/-- Guards that agree in every state allow the same events. -/
theorem enabled_congr {guard guard' : S → E → Prop} {exec : S → E → S}
    (h : ∀ s e, guard s e ↔ guard' s e) (s : S) (es : List E) :
    Enabled guard exec s es ↔ Enabled guard' exec s es := by
  induction es generalizing s with
  | nil => exact Iff.rfl
  | cons e es ih => exact and_congr (h s e) (ih (exec s e))

theorem run_trace {guard : S → E → Prop} {exec : S → E → S} {s : S} {es : List E}
    (h : Enabled guard exec s es) : Run (Guarded guard exec) s (trace exec s es) := by
  induction es generalizing s with
  | nil => exact .nil s
  | cons e es ih => exact .cons ⟨h.1, rfl⟩ (ih h.2)

/-- What one event adds to a measure, and only if it is of a kind, the events of the kind
add over a run. -/
theorem endState_trace_le {exec : S → E → S} {μ : S → Nat} {kind : E → Bool}
    (hstep : ∀ s e, μ (exec s e) ≤ μ s + if kind e then 1 else 0) (s : S) (es : List E) :
    μ (endState s (trace exec s es)) ≤ μ s + es.countP kind := by
  induction es generalizing s with
  | nil => exact le_rfl
  | cons e es ih =>
    have hfirst := hstep s e
    have hrest := ih (exec s e)
    rw [trace, endState, List.countP_cons]
    omega

/-- The steps of a program that `exec` runs without an undefined access. -/
def Returning (exec : S → E → Result S) (s : S) (e : E) (s' : S) : Prop := exec s e = .ok s'

theorem returning_of_returns {exec : S → E → Result S} {s : S} {e : E} (h : (exec s e).Returns) :
    Returning exec s e ((exec s e).getD s) := by
  obtain ⟨s', hs'⟩ := h
  rw [hs', Result.getD_ok]
  exact hs'

theorem run_trace_returning {exec : S → E → Result S} {s : S} {es : List E}
    (h : Enabled (fun s e => (exec s e).Returns) (fun s e => (exec s e).getD s) s es) :
    Run (Returning exec) s (trace (fun s e => (exec s e).getD s) s es) := by
  induction es generalizing s with
  | nil => exact .nil s
  | cons e es ih =>
    obtain ⟨⟨s', hs'⟩, hrest⟩ := h
    have hnext : (exec s e).getD s = s' := by rw [hs', Result.getD_ok]
    simp only [hnext] at hrest
    simp only [trace, hnext]
    exact .cons hs' (ih hrest)

/-- The steps of such a program when `guard` allows them. -/
def GuardedReturning (guard : S → E → Prop) (exec : S → E → Result S) (s : S) (e : E) (s' : S) :
    Prop :=
  guard s e ∧ exec s e = .ok s'

theorem run_trace_guarded {guard : S → E → Prop} {exec : S → E → Result S} {s : S} {es : List E}
    (h : Enabled (fun s e => guard s e ∧ (exec s e).Returns) (fun s e => (exec s e).getD s) s es) :
    Run (GuardedReturning guard exec) s (trace (fun s e => (exec s e).getD s) s es) := by
  induction es generalizing s with
  | nil => exact .nil s
  | cons e es ih =>
    obtain ⟨⟨hguard, s', hs'⟩, hrest⟩ := h
    have hnext : (exec s e).getD s = s' := by rw [hs', Result.getD_ok]
    simp only [hnext] at hrest
    simp only [trace, hnext]
    exact .cons ⟨hguard, hs'⟩ (ih hrest)

section Recorded

variable {H : Type} {record : H → S → E → S → H} {Q Good : H → S → E → S → Prop}

/-- Every step of a run, seen with a history variable that `record` carries along. -/
def AllRecorded (record : H → S → E → S → H) (Q : H → S → E → S → Prop) :
    H → S → List (E × S) → Prop
  | _, _, [] => True
  | h, s, (e, s') :: tr => Q h s e s' ∧ AllRecorded record Q (record h s e s') s' tr

instance decidableAllRecorded (record : H → S → E → S → H) (Q : H → S → E → S → Prop)
    [∀ h s e s', Decidable (Q h s e s')] : ∀ h s tr, Decidable (AllRecorded record Q h s tr)
  | _, _, [] => inferInstanceAs (Decidable True)
  | h, s, (e, s') :: tr =>
    have := decidableAllRecorded record Q (record h s e s') s' tr
    inferInstanceAs (Decidable (Q h s e s' ∧ AllRecorded record Q (record h s e s') s' tr))

/-- The history at the end of a run. -/
def endHistory (record : H → S → E → S → H) : H → S → List (E × S) → H
  | h, _, [] => h
  | h, s, (e, s') :: tr => endHistory record (record h s e s') s' tr

/-- What steps keep between the history and the state holds at the end of a run. -/
theorem Run.endHistory_invariant {Step : S → E → S → Prop} {J : H → S → Prop}
    (hkeep : ∀ {h s e s'}, J h s → Step s e s' → J (record h s e s') s') {h : H} {s : S}
    {tr : List (E × S)} (hs : J h s) (hrun : Run Step s tr) :
    J (endHistory record h s tr) (endState s tr) := by
  induction hrun generalizing h with
  | nil s => exact hs
  | cons htake _ ih => exact ih (hkeep hs htake)

/-- What good steps keep between the history and the state carries their
property along a run of good steps. -/
theorem Run.allRecorded {Step : S → E → S → Prop} {J : H → S → Prop}
    (hstep : ∀ {h s e s'}, J h s → Good h s e s' → Step s e s' → Q h s e s')
    (hkeep : ∀ {h s e s'}, J h s → Good h s e s' → Step s e s' → J (record h s e s') s')
    {h : H} {s : S} {tr : List (E × S)} (hs : J h s) (hrun : Run Step s tr)
    (hgood : AllRecorded record Good h s tr) : AllRecorded record Q h s tr := by
  induction hrun generalizing h with
  | nil s => exact trivial
  | cons htake _ ih =>
    obtain ⟨hfirst, hrest⟩ := hgood
    exact ⟨hstep hs hfirst htake, ih (hkeep hs hfirst htake) hrest⟩

/-- What every step does from a state that agrees with the history, and keeps the
two in agreement, is so along a run. -/
theorem Run.allRecorded_of_keeps {Step : S → E → S → Prop} {J : H → S → Prop}
    (hstep : ∀ {h s e s'}, J h s → Step s e s' → Q h s e s' ∧ J (record h s e s') s') {h : H} {s : S}
    {tr : List (E × S)} (hs : J h s) (hrun : Run Step s tr) : AllRecorded record Q h s tr := by
  induction hrun generalizing h with
  | nil s => exact trivial
  | cons htake _ ih =>
    obtain ⟨hfirst, hnext⟩ := hstep hs htake
    exact ⟨hfirst, ih hnext⟩

/-- Two conditions on steps and history that agree on the steps of the system,
where the side invariant `J` holds, agree on its runs. -/
theorem Run.allRecorded_iff {Step : S → E → S → Prop} {J : H → S → Prop}
    (hstep : ∀ {h s e s'}, J h s → Step s e s' → (Q h s e s' ↔ Good h s e s'))
    (hkeep : ∀ {h s e s'}, J h s → Step s e s' → J (record h s e s') s') {h : H} {s : S}
    {tr : List (E × S)} (hs : J h s) (hrun : Run Step s tr) :
    AllRecorded record Q h s tr ↔ AllRecorded record Good h s tr := by
  induction hrun generalizing h with
  | nil s => exact Iff.rfl
  | cons htake _ ih => exact and_congr (hstep hs htake) (ih (hkeep hs htake))

end Recorded

variable {Step Q Good : S → E → S → Prop} {P J : S → Prop} {s : S} {tr : List (E × S)}

/-- What a step preserves, a run preserves, and it holds of every state of it. -/
theorem Run.invariant (hstep : ∀ {s e s'}, J s → Step s e s' → J s') (hs : J s)
    (hrun : Run Step s tr) : ∀ x ∈ tr, J x.2 := by
  induction hrun with
  | nil s => simp
  | cons h _ ih =>
    have hnext := hstep hs h
    intro x hx
    rcases List.mem_cons.mp hx with rfl | hx
    · exact hnext
    · exact ih hnext x hx

theorem Run.endState_invariant (hstep : ∀ {s e s'}, J s → Step s e s' → J s') (hs : J s)
    (hrun : Run Step s tr) : J (endState s tr) := by
  induction hrun with
  | nil s => exact hs
  | cons h _ ih => exact ih (hstep hs h)

/-- What good steps preserve, a run of good steps preserves to its end. -/
theorem Run.endState_of_good (hstep : ∀ {s e s'}, J s → Good s e s' → Step s e s' → J s') (hs : J s)
    (hrun : Run Step s tr) (hgood : AllSteps Good s tr) : J (endState s tr) := by
  induction hrun with
  | nil s => exact hs
  | cons h _ ih => exact ih (hstep hs hgood.1 h) hgood.2

/-- A run of steps that each lower a measure is no longer than the measure. -/
theorem Run.length_le {μ : S → Nat}
    (hstep : ∀ {s e s'}, J s → Good s e s' → Step s e s' → J s' ∧ μ s' < μ s) (hs : J s)
    (hrun : Run Step s tr) (hgood : AllSteps Good s tr) : tr.length ≤ μ s := by
  induction hrun with
  | nil s => exact Nat.zero_le _
  | @cons s s' e tr h _ ih =>
    obtain ⟨hnext, hlower⟩ := hstep hs hgood.1 h
    have hrest := ih hnext hgood.2
    rw [List.length_cons]
    omega

/-- A property that a step keeps exactly when the step is good holds in every
state of a run exactly when all its steps are good. The side invariant `J` may
rest on the property in the state that a step starts from, but not on the step being good. -/
theorem Run.invariant_iff (hside : ∀ {s e s'}, J s → P s → Step s e s' → J s')
    (hstep : ∀ {s e s'}, J s → P s → Step s e s' → (P s' ↔ Good s e s'))
    (hs : J s) (hp : P s) (hrun : Run Step s tr) :
    (∀ x ∈ tr, P x.2) ↔ AllSteps Good s tr := by
  induction hrun with
  | nil s => simp [AllSteps]
  | @cons s s' e tr h hrest ih =>
    have hiff := hstep hs hp h
    have hnext := hside hs hp h
    constructor
    · intro hall
      have hp' : P s' := hall (e, s') (by simp)
      exact ⟨hiff.mp hp', (ih hnext hp').mp fun x hx => hall x (List.mem_cons_of_mem _ hx)⟩
    · rintro ⟨hgood, hgoods⟩ x hx
      have hp' : P s' := hiff.mpr hgood
      rcases List.mem_cons.mp hx with rfl | hx
      · exact hp'
      · exact (ih hnext hp').mpr hgoods x hx

/-- What every step from a state with the property does, a run whose states have
it does at each step. -/
theorem Run.allSteps_of_states (hstep : ∀ {s e s'}, P s → Step s e s' → Q s e s') (hp : P s)
    (hrun : Run Step s tr) (hall : ∀ x ∈ tr, P x.2) : AllSteps Q s tr := by
  induction hrun with
  | nil s => exact trivial
  | cons htake _ ih =>
    obtain ⟨hfirst, hrest⟩ := List.forall_mem_cons.mp hall
    exact ⟨hstep hp htake, ih hfirst hrest⟩

/-- Two step conditions that agree on the steps of the system agree on its runs. -/
theorem Run.allSteps_iff (hstep : ∀ {s e s'}, Step s e s' → (Q s e s' ↔ Good s e s'))
    (hrun : Run Step s tr) : AllSteps Q s tr ↔ AllSteps Good s tr := by
  induction hrun with
  | nil s => simp [AllSteps]
  | cons h _ ih => simp only [AllSteps, hstep h, ih]

end Lib
