import Mathlib.Data.List.Nodup

namespace Lib

variable {α β : Type} [DecidableEq α]

/-- The pairs of a list whose first part has not come before. -/
def firstSeen : List (α × β) → List (α × β)
  | [] => []
  | x :: rest => x :: (firstSeen rest).filter fun y => y.1 ≠ x.1

theorem mem_firstSeen {xs : List (α × β)} {key : α} :
    key ∈ (firstSeen xs).map Prod.fst ↔ key ∈ xs.map Prod.fst := by
  induction xs with
  | nil => exact Iff.rfl
  | cons x rest ih =>
    rw [firstSeen, List.map_cons, List.map_cons, List.mem_cons, List.mem_cons, ← ih]
    by_cases hkey : key = x.1
    · exact iff_of_true (.inl hkey) (.inl hkey)
    · refine or_congr Iff.rfl ?_
      simp only [List.mem_map, List.mem_filter, decide_eq_true_eq]
      constructor
      · rintro ⟨y, ⟨hy, -⟩, rfl⟩
        exact ⟨y, hy, rfl⟩
      · rintro ⟨y, hy, rfl⟩
        exact ⟨y, ⟨hy, hkey⟩, rfl⟩

/-- One more pair is seen first when its first part is new. -/
theorem firstSeen_concat (xs : List (α × β)) (y : α × β) :
    firstSeen (xs ++ [y]) =
      if y.1 ∈ (firstSeen xs).map Prod.fst then firstSeen xs else firstSeen xs ++ [y] := by
  induction xs with
  | nil => rfl
  | cons x rest ih =>
    rw [List.cons_append, firstSeen, ih, firstSeen]
    by_cases hkey : y.1 = x.1
    · have hfirst : y.1 ∈ (x :: (firstSeen rest).filter fun y => y.1 ≠ x.1).map Prod.fst := by
        rw [hkey]
        exact List.mem_cons_self
      rw [if_pos hfirst]
      split
      · rfl
      · rw [List.filter_append, List.filter_cons_of_neg (by simp [hkey]), List.filter_nil,
          List.append_nil]
    · have hiff : y.1 ∈ (x :: (firstSeen rest).filter fun y => y.1 ≠ x.1).map Prod.fst ↔
          y.1 ∈ (firstSeen rest).map Prod.fst := by
        rw [← firstSeen, mem_firstSeen, mem_firstSeen, List.map_cons, List.mem_cons,
          or_iff_right hkey]
      by_cases hmem : y.1 ∈ (firstSeen rest).map Prod.fst
      · rw [if_pos hmem, if_pos (hiff.mpr hmem)]
      · rw [if_neg hmem, if_neg (mt hiff.mp hmem), List.filter_append,
          List.filter_cons_of_pos (by simp [hkey]), List.filter_nil]
        rfl

theorem firstSeen_nodup (xs : List (α × β)) : ((firstSeen xs).map Prod.fst).Nodup := by
  induction xs with
  | nil => exact .nil
  | cons x rest ih =>
    rw [firstSeen, List.map_cons, List.nodup_cons]
    constructor
    · simp
    · exact ih.sublist (List.filter_sublist.map _)

end Lib
