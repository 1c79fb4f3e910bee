import Mathlib.Tactic

namespace Lib

/-- The outcome of running C code: a value, an undefined access (`fail`), or no
value within the fuel given to its loops (`div`). -/
inductive Result (α : Type) where
  | ok (value : α)
  | fail
  | div
  deriving DecidableEq, Repr

namespace Result

instance : Monad Result where
  pure := ok
  bind x f := match x with
    | ok value => f value
    | fail => fail
    | div => div

variable {α β : Type}

@[simp] theorem pure_eq_ok (value : α) : (pure value : Result α) = ok value := rfl

@[simp] theorem ok_bind (value : α) (f : α → Result β) : (ok value >>= f) = f value := rfl

@[simp] theorem fail_bind (f : α → Result β) : ((fail : Result α) >>= f) = fail := rfl

@[simp] theorem div_bind (f : α → Result β) : ((div : Result α) >>= f) = div := rfl

@[simp] theorem map_ok (f : α → β) (value : α) : f <$> (ok value) = ok (f value) := rfl

@[simp] theorem map_fail (f : α → β) : f <$> (fail : Result α) = fail := rfl

@[simp] theorem map_div (f : α → β) : f <$> (div : Result α) = div := rfl

instance : LawfulMonad Result := LawfulMonad.mk' Result
  (by intro α x; cases x <;> rfl) (by intros; rfl) (by intro α β γ x f g; cases x <;> rfl)

/-- Inversion of one sequencing step of a run that returns. -/
theorem bind_eq_ok_iff {x : Result α} {f : α → Result β} {b : β} :
    (x >>= f) = ok b ↔ ∃ a, x = ok a ∧ f a = ok b := by
  cases x <;> simp

theorem bind_eq_div_iff {x : Result α} {f : α → Result β} :
    (x >>= f) = div ↔ x = div ∨ ∃ a, x = ok a ∧ f a = div := by
  cases x <;> simp

theorem map_eq_div_iff {x : Result α} {f : α → β} : (f <$> x) = div ↔ x = div := by
  cases x <;> simp

theorem map_eq_ok_iff {x : Result α} {f : α → β} {b : β} :
    (f <$> x) = ok b ↔ ∃ a, x = ok a ∧ f a = b := by
  cases x <;> simp

/-- The computation returns. -/
def Returns (x : Result α) : Prop := ∃ value, x = ok value

instance (x : Result α) : Decidable x.Returns :=
  match x with
  | ok value => isTrue ⟨value, rfl⟩
  | fail => isFalse nofun
  | div => isFalse nofun

/-- The value returned, or `default` when there is none. -/
def getD (x : Result α) (default : α) : α :=
  match x with
  | ok value => value
  | _ => default

@[simp] theorem getD_ok (value default : α) : (ok value).getD default = value := rfl

theorem returns_ok (value : α) : (ok value).Returns := ⟨value, rfl⟩

end Result

end Lib
