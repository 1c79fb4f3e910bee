import Easymesh.Lib.Transition

namespace Lib

variable {S E T F : Type}

/-- What a component of a system does in a run of it. `own` is the event of the component
in an event of the system, if it has part in it, and `view` the state of the component. -/
def component (own : S → E → Option F) (view : S → T) : S → List (E × S) → List (F × T)
  | _, [] => []
  | s, (e, s') :: tr => (own s e).toList.map (·, view s') ++ component own view s' tr

/-- A step of the system is a step of the component, or leaves it as it is. -/
def StepOf (Step : T → F → T → Prop) (own : S → E → Option F) (view : S → T) (s : S) (e : E)
    (s' : S) : Prop :=
  (own s e).elim (view s' = view s) fun f => Step (view s) f (view s')

variable {Step : S → E → S → Prop} {Step' : T → F → T → Prop} {own : S → E → Option F}
  {view : S → T} {s s' : S} {e : E} {tr more : List (E × S)}

theorem Run.append (h : Run Step s tr) (hmore : Run Step (endState s tr) more) :
    Run Step s (tr ++ more) := by
  induction h with
  | nil s => exact hmore
  | cons hstep _ ih => exact .cons hstep (ih hmore)

theorem component_none (h : own s e = none) :
    component own view s ((e, s') :: tr) = component own view s' tr := by
  rw [component, h]
  rfl

theorem component_some {f : F} (h : own s e = some f) :
    component own view s ((e, s') :: tr) = (f, view s') :: component own view s' tr := by
  rw [component, h]
  rfl

/-- A run of the system is a run of the component, which ends where the system has it. -/
theorem Run.component (hstep : ∀ {s e s'}, Step s e s' → StepOf Step' own view s e s')
    (hrun : Run Step s tr) :
    Run Step' (view s) (component own view s tr) ∧
      endState (view s) (component own view s tr) = view (endState s tr) := by
  induction hrun with
  | nil s => exact ⟨.nil _, rfl⟩
  | @cons s s' e tr htake _ ih =>
    have hown := hstep htake
    obtain ⟨hrun, hend⟩ := ih
    cases hevent : own s e with
    | none =>
      have hsame : view s' = view s := by rw [StepOf, hevent] at hown; exact hown
      rw [component_none hevent, ← hsame]
      exact ⟨hrun, hend⟩
    | some f =>
      have htaken : Step' (view s) f (view s') := by rw [StepOf, hevent] at hown; exact hown
      rw [component_some hevent]
      exact ⟨.cons htaken hrun, hend⟩

end Lib
