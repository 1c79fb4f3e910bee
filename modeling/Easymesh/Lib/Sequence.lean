import Mathlib.Tactic

namespace Lib.Sequence

/-- The position that an index stands for in a sequence of `n` items: from -1 down
it counts from the end. -/
def position (n : Nat) (i : Int) : Option Nat :=
  if 0 ≤ i ∧ i < n then some i.toNat
  else if -n ≤ i ∧ i < 0 then some (n + i).toNat
  else none

theorem position_eq_none_iff {n : Nat} {i : Int} : position n i = none ↔ i < -n ∨ n ≤ i := by
  unfold position
  split
  · exact ⟨nofun, fun h => by omega⟩
  · split
    · exact ⟨nofun, fun h => by omega⟩
    · exact ⟨fun _ => by omega, fun _ => rfl⟩

theorem position_eq_some {n k : Nat} {i : Int} (h : position n i = some k) :
    k < n ∧ (k : Int) = if i < 0 then n + i else i := by
  unfold position at h
  split at h
  · cases h
    rw [if_neg (by omega)]
    omega
  · split at h
    · cases h
      rw [if_pos (by omega)]
      omega
    · cases h

variable {α : Type}

/-- The item at an index. -/
def item_at (xs : List α) (i : Int) : Option α := position xs.length i >>= fun k => xs[k]?

/-- Where an index inserts: before the item it stands for, or at the end. -/
def gap (n : Nat) (i : Int) : Option Nat := if i = n then some n else position n i

theorem item_at_eq_none_iff {xs : List α} {i : Int} :
    item_at xs i = none ↔ position xs.length i = none := by
  unfold item_at
  cases hpos : position xs.length i with
  | none => exact ⟨fun _ => rfl, fun _ => rfl⟩
  | some k =>
    refine ⟨fun h => ?_, nofun⟩
    exact absurd (List.getElem?_eq_none_iff.mp h) (Nat.not_le_of_lt (position_eq_some hpos).1)

/-- The item at an index splits the sequence. -/
theorem item_at_eq_some {xs : List α} {i : Int} {p : α} (h : item_at xs i = some p) :
    ∃ ys zs, xs = ys ++ p :: zs ∧ position xs.length i = some ys.length := by
  obtain ⟨k, hpos, hk⟩ := Option.bind_eq_some_iff.mp h
  obtain ⟨hlt, rfl⟩ := List.getElem?_eq_some_iff.mp hk
  refine ⟨xs.take k, xs.drop (k + 1), ?_, ?_⟩
  · rw [← List.drop_eq_getElem_cons, List.take_append_drop]
  · rw [List.length_take_of_le hlt.le, hpos]

theorem insertIdx_length (ys zs : List α) (item : α) :
    (ys ++ zs).insertIdx ys.length item = ys ++ item :: zs := by
  induction ys with
  | nil => rfl
  | cons y ys ih => rw [List.cons_append, List.length_cons, List.insertIdx_succ_cons, ih,
      List.cons_append]

theorem eraseIdx_length (ys zs : List α) (p : α) :
    (ys ++ p :: zs).eraseIdx ys.length = ys ++ zs := by
  rw [List.eraseIdx_append_of_length_le (le_refl _), Nat.sub_self, List.eraseIdx_zero, List.tail_cons]

section Members

variable [DecidableEq α]

def insertAfter (xs : List α) (p item : α) : List α := xs.insertIdx (xs.idxOf p + 1) item

def insertBefore (xs : List α) (p item : α) : List α := xs.insertIdx (xs.idxOf p) item

variable {p : α} {ys : List α} (hp : p ∉ ys) (zs : List α)
include hp

theorem idxOf_middle : (ys ++ p :: zs).idxOf p = ys.length := by
  rw [List.idxOf_append_of_notMem hp, List.idxOf_cons_self, Nat.add_zero]

theorem insertBefore_middle (item : α) :
    insertBefore (ys ++ p :: zs) p item = ys ++ item :: p :: zs := by
  rw [insertBefore, idxOf_middle hp, insertIdx_length]

theorem insertAfter_middle (item : α) :
    insertAfter (ys ++ p :: zs) p item = ys ++ p :: item :: zs := by
  have hlength : ys.length + 1 = (ys ++ [p]).length := by
    rw [List.length_append, List.length_singleton]
  have hsplit : ∀ rest, ys ++ p :: rest = ys ++ [p] ++ rest := fun rest => by simp
  rw [insertAfter, idxOf_middle hp, hlength, hsplit zs, insertIdx_length, ← hsplit]

theorem erase_middle : (ys ++ p :: zs).erase p = ys ++ zs := by
  rw [List.erase_append_right _ hp, List.erase_cons_head]

end Members

end Lib.Sequence
