import Mathlib.Tactic

namespace Lib.DoublyLinked

variable {α : Type}

section Walk

variable [DecidableEq α] (null : α) (step : α → α)

/-- The nodes that following `step` from `p` visits until it meets `null`, at most
`n` of them. -/
def walk : Nat → α → List α
  | 0, _ => []
  | n + 1, p => if p = null then [] else p :: walk n (step p)

theorem null_notMem_walk (n : Nat) (p : α) : null ∉ walk null step n p := by
  induction n generalizing p with
  | zero => exact List.not_mem_nil
  | succ n ih =>
    rw [walk]
    split
    · exact List.not_mem_nil
    · rename_i hp
      exact List.not_mem_cons_of_ne_of_not_mem (Ne.symm hp) (ih (step p))

end Walk

/-- Following `step` from `p` visits the given nodes and comes to `q`. -/
def Path (step : α → α) : α → List α → α → Prop
  | p, [], q => p = q
  | p, x :: xs, q => p = x ∧ Path step (step x) xs q

theorem path_append {step : α → α} {p q : α} {xs ys : List α} :
    Path step p (xs ++ ys) q ↔ ∃ r, Path step p xs r ∧ Path step r ys q := by
  induction xs generalizing p with
  | nil => exact ⟨fun h => ⟨p, rfl, h⟩, fun ⟨_, hr, h⟩ => hr ▸ h⟩
  | cons x xs ih =>
    constructor
    · rintro ⟨rfl, h⟩
      obtain ⟨r, hxs, hys⟩ := ih.mp h
      exact ⟨r, ⟨rfl, hxs⟩, hys⟩
    · rintro ⟨r, ⟨rfl, hxs⟩, hys⟩
      exact ⟨rfl, ih.mpr ⟨r, hxs, hys⟩⟩

theorem Path.head {step : α → α} {p q : α} {xs : List α} (h : Path step p xs q) :
    p = xs.headD q := by
  cases xs with
  | nil => exact h
  | cons x xs => exact h.1

/-- A walk that ends before its bound is a path to `null`. -/
theorem walk_eq_iff [DecidableEq α] {null : α} {step : α → α} {p : α} {xs : List α} :
    walk null step (xs.length + 1) p = xs ↔ Path step p xs null ∧ null ∉ xs := by
  induction xs generalizing p with
  | nil =>
    rw [List.length_nil, walk]
    split
    · rename_i hp
      exact ⟨fun _ => ⟨hp, List.not_mem_nil⟩, fun _ => rfl⟩
    · rename_i hp
      exact ⟨nofun, fun h => absurd h.1 hp⟩
  | cons x xs ih =>
    rw [List.length_cons, walk]
    split
    · rename_i hp
      refine ⟨nofun, fun h => absurd ?_ h.2⟩
      rw [← hp, h.1.1]
      exact List.mem_cons_self
    · rename_i hp
      constructor
      · intro h
        obtain ⟨rfl, hxs⟩ := List.cons.inj h
        obtain ⟨hpath, hnull⟩ := ih.mp hxs
        exact ⟨⟨rfl, hpath⟩, List.not_mem_cons_of_ne_of_not_mem (Ne.symm hp) hnull⟩
      · rintro ⟨⟨rfl, hpath⟩, hnull⟩
        rw [ih.mpr ⟨hpath, fun hmem => hnull (List.mem_cons_of_mem p hmem)⟩]

section Ends

variable (xs ys : List α) (d : α)

theorem headD_append : (xs ++ ys).headD d = xs.headD (ys.headD d) := by
  cases xs <;> rfl

theorem getLastD_append : (xs ++ ys).getLastD d = ys.getLastD (xs.getLastD d) := by
  induction xs generalizing d with
  | nil => rfl
  | cons x xs ih => rw [List.cons_append, List.getLastD_cons, List.getLastD_cons, ih]

variable {xs} {null : α} (hnull : null ∉ xs)
include hnull

theorem getLastD_eq_null_iff : xs.getLastD null = null ↔ xs = [] := by
  refine ⟨fun heq => ?_, fun heq => heq ▸ rfl⟩
  cases xs with
  | nil => rfl
  | cons x xs =>
    rw [List.getLastD_cons] at heq
    exact absurd (heq ▸ List.getLastD_mem_cons) hnull

theorem headD_eq_null_iff : xs.headD null = null ↔ xs = [] := by
  refine ⟨fun heq => ?_, fun heq => heq ▸ rfl⟩
  cases xs with
  | nil => rfl
  | cons x xs => exact absurd (heq ▸ List.mem_cons_self) hnull

/-- The end of a list that may be empty, by a test for `null` at its other end. -/
theorem headD_eq_ite [DecidableEq α] :
    xs.headD d = if xs.getLastD null = null then d else xs.headD null := by
  simp only [getLastD_eq_null_iff hnull]
  cases xs <;> rfl

theorem getLastD_eq_ite [DecidableEq α] :
    xs.getLastD d = if xs.headD null = null then d else xs.getLastD null := by
  simp only [headD_eq_null_iff hnull]
  cases xs with
  | nil => rfl
  | cons x xs => rw [if_neg nofun, List.getLastD_cons, List.getLastD_cons]

end Ends

/-- The nodes in order are linked both ways: the first one back to `before`, the
last one on to `after`. -/
def Seg (next prev : α → α) : α → List α → α → Prop
  | _, [], _ => True
  | before, x :: xs, after => prev x = before ∧ next x = xs.headD after ∧ Seg next prev x xs after

section Seg

variable {next prev next' prev' : α → α} {before before' after after' item : α} {xs ys : List α}

theorem seg_append : Seg next prev before (xs ++ ys) after ↔
    Seg next prev before xs (ys.headD after) ∧ Seg next prev (xs.getLastD before) ys after := by
  induction xs generalizing before with
  | nil => exact ⟨fun h => ⟨trivial, h⟩, fun h => h.2⟩
  | cons x xs ih =>
    simp only [List.cons_append, Seg, headD_append, ih, List.getLastD_cons, and_assoc]

/-- The links of a node inside a segment. -/
theorem Seg.links (h : Seg next prev before (xs ++ item :: ys) after) :
    prev item = xs.getLastD before ∧ next item = ys.headD after := by
  obtain ⟨-, hprev, hnext, -⟩ := seg_append.mp h
  exact ⟨hprev, hnext⟩

theorem Seg.congr (h : Seg next prev before xs after)
    (hsame : ∀ p ∈ xs, next' p = next p ∧ prev' p = prev p) : Seg next' prev' before xs after := by
  induction xs generalizing before with
  | nil => exact trivial
  | cons x xs ih =>
    obtain ⟨hprev, hnext, hrest⟩ := h
    obtain ⟨hnext', hprev'⟩ := hsame x List.mem_cons_self
    exact ⟨hprev'.trans hprev, hnext'.trans hnext,
      ih hrest fun p hp => hsame p (List.mem_cons_of_mem x hp)⟩

/-- Linking is walking both ways. -/
theorem seg_iff : Seg next prev before xs after ↔
    Path next (xs.headD after) xs after ∧ Path prev (xs.getLastD before) xs.reverse before := by
  induction xs generalizing before with
  | nil => exact ⟨fun _ => ⟨rfl, rfl⟩, fun _ => trivial⟩
  | cons x xs ih =>
    rw [List.getLastD_cons, List.reverse_cons, path_append]
    constructor
    · rintro ⟨hprev, hnext, hrest⟩
      obtain ⟨hon, hback⟩ := ih.mp hrest
      exact ⟨⟨rfl, hnext ▸ hon⟩, x, hback, rfl, hprev⟩
    · rintro ⟨⟨-, hon⟩, r, hback, rfl, hprev⟩
      have hnext := hon.head
      exact ⟨hprev, hnext, ih.mpr ⟨hnext ▸ hon, hback⟩⟩

theorem ne_headD {p : α} (hp : p ∈ xs) (hnodup : (xs ++ ys).Nodup) (hafter : after ∉ xs) :
    p ≠ ys.headD after := by
  cases ys with
  | nil =>
    rintro rfl
    exact hafter hp
  | cons y ys =>
    rintro rfl
    exact List.disjoint_of_nodup_append hnodup hp List.mem_cons_self

theorem ne_getLastD {p : α} (hp : p ∈ ys) (hnodup : (xs ++ ys).Nodup) (hbefore : before ∉ ys) :
    p ≠ xs.getLastD before := by
  cases xs with
  | nil =>
    rintro rfl
    exact hbefore hp
  | cons x xs =>
    rintro rfl
    rw [List.getLastD_cons] at hp
    exact List.disjoint_of_nodup_append hnodup List.getLastD_mem_cons hp

variable [DecidableEq α]

/-- A segment whose last node is linked to another node, or `before` if it is empty. -/
theorem Seg.retarget (h : Seg next prev before xs after) (hnodup : (before :: xs).Nodup)
    (hnext : ∀ p ∈ xs, next' p = if p = xs.getLastD before then after' else next p)
    (hprev : ∀ p ∈ xs, prev' p = prev p) : Seg next' prev' before xs after' := by
  induction xs generalizing before with
  | nil => exact trivial
  | cons x xs ih =>
    obtain ⟨hback, hon, hrest⟩ := h
    have hx := hnext x List.mem_cons_self
    rw [List.getLastD_cons] at hx hnext
    refine ⟨(hprev x List.mem_cons_self).trans hback, ?_, ih hrest hnodup.of_cons
      (fun p hp => hnext p (List.mem_cons_of_mem x hp))
      fun p hp => hprev p (List.mem_cons_of_mem x hp)⟩
    cases xs with
    | nil => exact hx.trans (if_pos rfl)
    | cons y ys =>
      have hlast : (y :: ys).getLastD x ∈ y :: ys := by
        rw [List.getLastD_cons]
        exact List.getLastD_mem_cons
      have hne : x ≠ (y :: ys).getLastD x := fun heq =>
        (List.nodup_cons.mp hnodup.of_cons).1 (heq ▸ hlast)
      exact (hx.trans (if_neg hne)).trans hon

/-- A segment whose first node is linked back to another node. -/
theorem Seg.rebase (h : Seg next prev before xs after) (hnodup : xs.Nodup)
    (hnext : ∀ p ∈ xs, next' p = next p)
    (hprev : ∀ p ∈ xs, prev' p = if p = xs.headD after then before' else prev p) :
    Seg next' prev' before' xs after := by
  cases xs with
  | nil => exact trivial
  | cons x xs =>
    obtain ⟨hback, hon, hrest⟩ := h
    refine ⟨(hprev x List.mem_cons_self).trans (if_pos rfl),
      (hnext x List.mem_cons_self).trans hon, hrest.congr fun p hp => ?_⟩
    have hne : p ≠ x := fun heq => (List.nodup_cons.mp hnodup).1 (heq ▸ hp)
    exact ⟨hnext p (List.mem_cons_of_mem x hp),
      (hprev p (List.mem_cons_of_mem x hp)).trans (if_neg hne)⟩

section Splice

variable (hnodup : (before :: (xs ++ ys)).Nodup) (hafter : after ∉ xs ++ ys)
include hnodup hafter

/-- Linking a node in takes the two links of the node and the two to it. -/
theorem Seg.insert (h : Seg next prev before (xs ++ ys) after)
    (hitem : next' item = ys.headD after ∧ prev' item = xs.getLastD before)
    (hnext : ∀ p ∈ xs ++ ys, next' p = if p = xs.getLastD before then item else next p)
    (hprev : ∀ p ∈ xs ++ ys, prev' p = if p = ys.headD after then item else prev p) :
    Seg next' prev' before (xs ++ item :: ys) after := by
  obtain ⟨hbefore, hnodup⟩ := List.nodup_cons.mp hnodup
  have hin : ∀ p ∈ xs, p ∈ xs ++ ys := fun p hp => List.mem_append_left ys hp
  have hout : ∀ p ∈ ys, p ∈ xs ++ ys := fun p hp => List.mem_append_right xs hp
  obtain ⟨hxs, hys⟩ := seg_append.mp h
  refine seg_append.mpr ⟨hxs.retarget ?_ (fun p hp => hnext p (hin p hp)) fun p hp => ?_,
    hitem.2, hitem.1, hys.rebase hnodup.of_append_right (fun p hp => ?_)
      fun p hp => hprev p (hout p hp)⟩
  · exact List.nodup_cons.mpr ⟨fun hmem => hbefore (hin _ hmem), hnodup.of_append_left⟩
  · rw [hprev p (hin p hp), if_neg (ne_headD hp hnodup fun hmem => hafter (hin _ hmem))]
  · rw [hnext p (hout p hp), if_neg (ne_getLastD hp hnodup fun hmem => hbefore (hout _ hmem))]

/-- Unlinking a node takes the link over it in both directions. -/
theorem Seg.remove (h : Seg next prev before (xs ++ item :: ys) after)
    (hnext : ∀ p ∈ xs ++ ys, next' p = if p = xs.getLastD before then ys.headD after else next p)
    (hprev : ∀ p ∈ xs ++ ys, prev' p = if p = ys.headD after then xs.getLastD before else prev p) :
    Seg next' prev' before (xs ++ ys) after := by
  obtain ⟨hbefore, hnodup⟩ := List.nodup_cons.mp hnodup
  have hin : ∀ p ∈ xs, p ∈ xs ++ ys := fun p hp => List.mem_append_left ys hp
  have hout : ∀ p ∈ ys, p ∈ xs ++ ys := fun p hp => List.mem_append_right xs hp
  obtain ⟨hxs, -, -, hys⟩ := seg_append.mp h
  refine seg_append.mpr ⟨hxs.retarget ?_ (fun p hp => hnext p (hin p hp)) fun p hp => ?_,
    hys.rebase hnodup.of_append_right (fun p hp => ?_) fun p hp => hprev p (hout p hp)⟩
  · exact List.nodup_cons.mpr ⟨fun hmem => hbefore (hin _ hmem), hnodup.of_append_left⟩
  · rw [hprev p (hin p hp), if_neg (ne_headD hp hnodup fun hmem => hafter (hin _ hmem))]
  · rw [hnext p (hout p hp), if_neg (ne_getLastD hp hnodup fun hmem => hbefore (hout _ hmem))]

end Splice

end Seg

end Lib.DoublyLinked
