import Easymesh.Timer.MinHeap

open Lib.BinaryHeap

namespace easymesh.minheap

variable {κ : Type}

/-- The live slots of the heap are ordered by deadline. -/
def HeapOrdered (heap : min_heap_t κ) : Prop := Ordered heap.timeAt heap.size

instance (heap : min_heap_t κ) : Decidable (HeapOrdered heap) :=
  decidable_of_iff (∀ i, i < heap.size → 0 < i → heap.timeAt (parent i) ≤ heap.timeAt i)
    ⟨fun h i hpos hi => h i hi hpos, fun h i hi hpos => h i hpos hi⟩

/-- The entries the live slots hold, each as often as it is there. -/
def held (heap : min_heap_t κ) : Multiset Ptr := contents heap.elements heap.size

theorem store_timeAt_eq (heap : min_heap_t κ) (index : Nat) (elem : Ptr) :
    (heap.store index elem).timeAt =
      Function.update heap.timeAt index (heap.entry elem).time :=
  funext (store_timeAt heap index elem)

theorem store_keys {α : Type} (k : Ptr → α) (heap : min_heap_t κ) (index : Nat) (elem : Ptr) :
    k ∘ (heap.store index elem).elements = Function.update (k ∘ heap.elements) index (k elem) :=
  Function.comp_update k heap.elements index elem

/-- A sift up orders the heap by any keys that `elem` compares to as by deadlines. -/
theorem min_heap_shift_up_ordered_by {α : Type} [LinearOrder α] (k : Ptr → α)
    (heap : min_heap_t κ) (index : Nat) (elem : Ptr) {n : Nat}
    (hcmp : ∀ p, k p ≤ k elem ↔ (heap.entry p).time ≤ (heap.entry elem).time)
    (hindex : index < n) (hhole : UpHole (k ∘ heap.elements) n index (k elem)) :
    Ordered (k ∘ (min_heap_shift_up heap index elem).elements) n := by
  fun_induction min_heap_shift_up heap index elem with
  | case1 heap index hpos pindex up hle =>
    rw [store_keys]
    exact hhole.fill fun _ => (hcmp up).mpr hle
  | case2 heap index hpos pindex up hle ih =>
    apply ih
    · intro p
      rw [store_time, store_time]
      exact hcmp p
    · omega
    · rw [store_keys]
      exact hhole.move hpos hindex (lt_of_not_ge fun hge => hle ((hcmp up).mp hge))
  | case3 heap index hpos =>
    rw [store_keys]
    exact hhole.fill fun h => absurd h hpos

/-- A sift up leaves in the array what a plain store at its start would. -/
theorem min_heap_shift_up_contents (heap : min_heap_t κ) (index : Nat) (elem : Ptr) {n : Nat}
    (hindex : index < n) :
    contents (min_heap_shift_up heap index elem).elements n =
      contents (Function.update heap.elements index elem) n := by
  fun_induction min_heap_shift_up heap index elem with
  | case1 heap index hpos pindex up hle => rfl
  | case2 heap index hpos pindex up hle ih =>
    rw [ih (by omega)]
    exact contents_move hindex (by omega) (by omega) elem
  | case3 heap index hpos => rfl

/-- The child that a sift down looks at is a least child. -/
theorem min_heap_child_spec (heap : min_heap_t κ) {index : Nat} (hin : index < heap.size / 2) :
    parent (min_heap_child heap index) = index ∧ min_heap_child heap index < heap.size ∧
      ∀ s, 0 < s → s < heap.size → parent s = index →
        heap.timeAt (min_heap_child heap index) ≤ heap.timeAt s := by
  unfold min_heap_child
  dsimp only
  split
  · rename_i hright
    refine ⟨by unfold parent; omega, hright.1, fun s hs hlt hps => ?_⟩
    rcases (parent_eq_iff hs).mp hps with rfl | rfl
    · exact hright.2.le
    · exact le_rfl
  · rename_i hright
    refine ⟨by unfold parent; omega, by omega, fun s hs hlt hps => ?_⟩
    rcases (parent_eq_iff hs).mp hps with rfl | rfl
    · exact le_rfl
    · exact Nat.le_of_not_lt fun h => hright ⟨hlt, h⟩

/-- What a sift down of `elem` into `index` has to decide for an order by the keys:
it stops above keys that are not less, and moves up a least key that is not more. -/
structure SiftsBy {α : Type} [LinearOrder α] (k : Ptr → α) (heap : min_heap_t κ) (index : Nat)
    (elem : Ptr) : Prop where
  stop : (heap.entry elem).time < (heap.entry (heap.elements (min_heap_child heap index))).time →
    ∀ s, 0 < s → s < heap.size → parent s = index → k elem ≤ k (heap.elements s)
  least : ¬ (heap.entry elem).time < (heap.entry (heap.elements (min_heap_child heap index))).time →
    ∀ s, 0 < s → s < heap.size → parent s = index →
      k (heap.elements (min_heap_child heap index)) ≤ k (heap.elements s)
  move : ¬ (heap.entry elem).time < (heap.entry (heap.elements (min_heap_child heap index))).time →
    k (heap.elements (min_heap_child heap index)) ≤ k elem

/-- A sift down orders the heap by any keys for which it decides right at each turn;
`P` is what tells so, and is carried from turn to turn. -/
theorem min_heap_shift_down_ordered_by {α : Type} [LinearOrder α] (k : Ptr → α)
    (heap : min_heap_t κ) (index : Nat) (elem : Ptr) {P : min_heap_t κ → Nat → Prop}
    (hsifts : ∀ {heap index}, P heap index → index < heap.size / 2 → SiftsBy k heap index elem)
    (hnext : ∀ {heap index}, P heap index → index < heap.size / 2 →
      ¬ (heap.entry elem).time < (heap.entry (heap.elements (min_heap_child heap index))).time →
      P (heap.store index (heap.elements (min_heap_child heap index))) (min_heap_child heap index))
    (hP : P heap index) (hhole : DownHole (k ∘ heap.elements) heap.size index (k elem)) :
    Ordered (k ∘ (min_heap_shift_down heap index elem).elements) heap.size := by
  fun_induction min_heap_shift_down heap index elem with
  | case1 heap index hin child_index child hlt =>
    rw [store_keys]
    exact hhole.fill ((hsifts hP hin).stop hlt)
  | case2 heap index hin child_index child hlt ih =>
    obtain ⟨hparent, hsize, -⟩ := min_heap_child_spec heap hin
    have hgt := lt_min_heap_child heap index
    apply ih (hnext hP hin hlt)
    rw [store_keys, store_size]
    exact hhole.move (by omega) hsize hparent ((hsifts hP hin).least hlt) ((hsifts hP hin).move hlt)
  | case3 heap index hin =>
    rw [store_keys]
    refine hhole.fill fun c hc hcn hpc => ?_
    have := (parent_eq_iff hc).mp hpc
    omega

theorem min_heap_shift_down_ordered (heap : min_heap_t κ) (index : Nat) (elem : Ptr)
    (hhole : DownHole heap.timeAt heap.size index (heap.entry elem).time) :
    Ordered (min_heap_shift_down heap index elem).timeAt heap.size := by
  have hdown := min_heap_shift_down_ordered_by (fun p => (heap.entry p).time) heap index elem
    (P := fun heap' _ => ∀ p, (heap'.entry p).time = (heap.entry p).time) ?_ ?_ (fun _ => rfl) hhole
  · refine hdown.congr fun i _ => ?_
    exact (min_heap_shift_down_entry heap index elem _).1
  · intro heap' index' htime hin
    obtain ⟨hparent, hsize, hmin⟩ := min_heap_child_spec heap' hin
    simp only [min_heap_t.timeAt, htime] at hmin
    constructor
    · intro hlt s hs hsn hps
      rw [htime, htime] at hlt
      exact (Nat.le_of_lt hlt).trans (hmin s hs hsn hps)
    · exact fun _ => hmin
    · intro hnot
      rw [htime, htime] at hnot
      exact Nat.le_of_not_lt hnot
  · intro heap' index' htime hin hnot p
    rw [store_time]
    exact htime p

/-- A sift down leaves in the array what a plain store at its start would. -/
theorem min_heap_shift_down_contents (heap : min_heap_t κ) (index : Nat) (elem : Ptr) :
    contents (min_heap_shift_down heap index elem).elements heap.size =
      contents (Function.update heap.elements index elem) heap.size := by
  fun_induction min_heap_shift_down heap index elem with
  | case1 heap index hin child_index child hlt => rfl
  | case2 heap index hin child_index child hlt ih =>
    have hsize := (min_heap_child_spec heap hin).2.1
    have hgt := lt_min_heap_child heap index
    exact ih.trans (contents_move (by omega) hsize (Nat.ne_of_lt hgt) elem)
  | case3 heap index hin => rfl

section Push

variable (heap : min_heap_t κ) (elem : Ptr)

theorem min_heap_push_size : (min_heap_push heap elem).size = heap.size + 1 := by
  simp [min_heap_push, min_heap_shift_up_size]

theorem min_heap_push_entry (p : Ptr) :
    SameEntry ((min_heap_push heap elem).entry p) (heap.entry p) := by
  obtain ⟨_, _, hentry⟩ := min_heap_ensure_capacity_eq heap (heap.size + 1)
  have hup := min_heap_shift_up_entry (min_heap_ensure_capacity heap (heap.size + 1)) heap.size elem p
  rw [hentry] at hup
  simpa [min_heap_push] using hup

/-- A push adds one occurrence of its entry, whether or not it was there before. -/
theorem min_heap_push_held : held (min_heap_push heap elem) = elem ::ₘ held heap := by
  obtain ⟨helements, hsize, _⟩ := min_heap_ensure_capacity_eq heap (heap.size + 1)
  unfold held min_heap_push
  simp only [hsize, min_heap_shift_up_size]
  rw [min_heap_shift_up_contents _ _ _ (Nat.lt_succ_self _), contents_succ,
    contents_update_outside le_rfl, Function.update_self, helements]

theorem min_heap_push_ordered_by {α : Type} [LinearOrder α] (k : Ptr → α)
    (hcmp : ∀ p, k p ≤ k elem ↔ (heap.entry p).time ≤ (heap.entry elem).time)
    (hord : Ordered (k ∘ heap.elements) heap.size) :
    Ordered (k ∘ (min_heap_push heap elem).elements) (min_heap_push heap elem).size := by
  obtain ⟨helements, hsize, hentry⟩ := min_heap_ensure_capacity_eq heap (heap.size + 1)
  rw [min_heap_push_size]
  unfold min_heap_push
  dsimp only
  rw [hsize]
  apply min_heap_shift_up_ordered_by k _ heap.size elem
  · intro p
    rw [hentry]
    exact hcmp p
  · exact Nat.lt_succ_self _
  · rw [helements]
    refine ⟨fun i hi hlt hne _ => hord i hi (by omega), fun _ c hc hlt hpc => ?_,
      fun c hc hlt hpc => ?_⟩
    · have := parent_lt hc
      omega
    · have := parent_lt hc
      omega

theorem min_heap_push_ordered (hord : HeapOrdered heap) : HeapOrdered (min_heap_push heap elem) := by
  have hpush := min_heap_push_ordered_by heap elem (fun p => (heap.entry p).time)
    (fun _ => Iff.rfl) hord
  refine hpush.congr fun i _ => ?_
  exact (min_heap_push_entry heap elem _).1

end Push

section Remove

variable (heap : min_heap_t κ)

/-- What popping the root and deleting an entry share: the last entry is sifted
down from slot `i`, and the entry that was there gets the back index -1. -/
def min_heap_t.removeAt (heap : min_heap_t κ) (i : Nat) : min_heap_t κ :=
  (min_heap_shift_down heap.takeLast i (heap.elements (heap.size - 1))).setIdx (heap.elements i) (-1)

theorem min_heap_pop_empty (hsize : heap.size = 0) : min_heap_pop heap = (none, heap) := by
  simp [min_heap_pop, hsize]

theorem min_heap_pop_eq (hsize : 0 < heap.size) :
    min_heap_pop heap = (some (heap.elements 0), heap.removeAt 0) := by
  unfold min_heap_pop
  rw [if_neg (by omega)]
  rfl

theorem min_heap_delete_eq {elem : Ptr} {i : Nat} (hi : i < heap.size)
    (hidx : (heap.entry elem).min_heap_idx = i) (helem : heap.elements i = elem) :
    min_heap_delete heap elem = (0, heap.removeAt i) := by
  unfold min_heap_delete
  rw [if_neg (by omega), if_neg (by omega), hidx, ← helem]
  rfl

theorem removeAt_size (i : Nat) : (heap.removeAt i).size = heap.size - 1 := by
  simp [min_heap_t.removeAt, min_heap_shift_down_size]

theorem removeAt_entry (i : Nat) (p : Ptr) :
    SameEntry ((heap.removeAt i).entry p) (heap.entry p) :=
  (setIdx_entry _ _ _ p).trans (min_heap_shift_down_entry _ _ _ p)

/-- Replacing slot `i` by the last entry and dropping the last slot removes one
occurrence of what slot `i` held. -/
theorem takeLast_contents {i : Nat} (hi : i < heap.size) :
    heap.elements i ::ₘ contents (Function.update heap.takeLast.elements i
        (heap.elements (heap.size - 1))) (heap.size - 1) = held heap := by
  have hsucc : heap.size = (heap.size - 1) + 1 := by omega
  have htake : contents heap.takeLast.elements (heap.size - 1) =
      contents heap.elements (heap.size - 1) := contents_update_outside le_rfl _
  have hheld : held heap = heap.elements (heap.size - 1) ::ₘ
      contents heap.elements (heap.size - 1) := by
    unfold held
    conv_lhs => rw [hsucc]
    exact contents_succ _ _
  rcases Nat.lt_or_ge i (heap.size - 1) with hlt | hge
  · have hi' : heap.takeLast.elements i = heap.elements i :=
      Function.update_of_ne (by omega) _ _
    rw [← hi', contents_update hlt, htake, hheld]
  · have : i = heap.size - 1 := by omega
    subst this
    rw [contents_update_outside le_rfl, htake, hheld]

/-- A removal takes out one occurrence of the entry in its slot. -/
theorem removeAt_held {i : Nat} (hi : i < heap.size) :
    heap.elements i ::ₘ held (heap.removeAt i) = held heap := by
  have hdown := min_heap_shift_down_contents heap.takeLast i (heap.elements (heap.size - 1))
  rw [takeLast_size] at hdown
  unfold held
  rw [removeAt_size, min_heap_t.removeAt, setIdx_elements, hdown]
  exact takeLast_contents heap hi

theorem takeLast_elements {i : Nat} (hi : i < heap.size - 1) :
    heap.takeLast.elements i = heap.elements i :=
  Function.update_of_ne (by omega) _ _

theorem takeLast_downHole {α : Type} [LinearOrder α] (k : Ptr → α) {i : Nat}
    (hord : Ordered (k ∘ heap.elements) heap.size) (hi : i < heap.size - 1)
    (habove : k (heap.elements (parent i)) ≤ k (heap.elements (heap.size - 1))) :
    DownHole (k ∘ heap.takeLast.elements) (heap.size - 1) i
      (k (heap.elements (heap.size - 1))) := by
  have hsame : ∀ j, j < heap.size - 1 →
      (k ∘ heap.takeLast.elements) j = (k ∘ heap.elements) j := by
    intro j hj
    rw [Function.comp_apply, Function.comp_apply, takeLast_elements heap hj]
  refine ⟨fun j hj hlt _ _ => ?_, fun hpos c hc hlt hpc => ?_, fun hpos => ?_⟩
  · have hp := parent_lt hj
    rw [hsame _ (by omega), hsame _ hlt]
    exact hord j hj (by omega)
  · have hp := parent_lt hpos
    rw [hsame _ (by omega), hsame _ hlt]
    have hchild := hord c hc (by omega)
    rw [hpc] at hchild
    exact (hord i hpos (by omega)).trans hchild
  · have hp := parent_lt hpos
    rw [hsame _ (by omega)]
    exact habove

/-- A last entry that is earlier than the parent of the freed slot stays in that
slot: its new children are not earlier than that parent. -/
theorem shift_down_stays {i : Nat} (hord : HeapOrdered heap) (hpos : 0 < i)
    (hi : i < heap.size - 1)
    (hbelow : heap.timeAt (heap.size - 1) < heap.timeAt (parent i)) :
    min_heap_shift_down heap.takeLast i (heap.elements (heap.size - 1)) =
      heap.takeLast.store i (heap.elements (heap.size - 1)) := by
  rw [min_heap_shift_down]
  by_cases hin : i < heap.takeLast.size / 2
  · obtain ⟨hparent, hsize, _⟩ := min_heap_child_spec heap.takeLast hin
    have hgt := lt_min_heap_child heap.takeLast i
    generalize min_heap_child heap.takeLast i = c at hparent hsize hgt
    simp only [takeLast_size] at hsize
    rw [if_pos hin]
    dsimp only
    rw [if_pos]
    have hchild := hord c (by omega) (by omega)
    have hslot := hord i hpos (by omega)
    rw [hparent] at hchild
    have hsame := takeLast_timeAt heap hsize
    unfold min_heap_t.timeAt at *
    rw [takeLast_entry] at hsame ⊢
    omega
  · rw [if_neg hin]

/-- Removing slot `i` of an ordered heap leaves it ordered exactly when the last
entry is not earlier than the parent of the freed slot. -/
theorem removeAt_ordered_iff {i : Nat} (hord : HeapOrdered heap) (hi : i < heap.size) :
    HeapOrdered (heap.removeAt i) ↔ heap.timeAt (parent i) ≤ heap.timeAt (heap.size - 1) := by
  unfold HeapOrdered
  rw [removeAt_size]
  unfold min_heap_t.removeAt
  rw [setIdx_timeAt]
  constructor
  · intro hafter
    by_contra hnot
    have hbelow := Nat.lt_of_not_le hnot
    have hpos : 0 < i := by
      rcases Nat.eq_zero_or_pos i with rfl | hpos
      · exact absurd (hord.root_le _ (by omega)) hnot
      · exact hpos
    have hi' : i < heap.size - 1 := by
      rcases Nat.lt_or_ge i (heap.size - 1) with hlt | hge
      · exact hlt
      · have hlast : i = heap.size - 1 := by omega
        rw [← hlast] at hnot
        exact absurd (hord i hpos hi) hnot
    rw [shift_down_stays heap hord hpos hi' hbelow, store_timeAt_eq] at hafter
    have hp := parent_lt hpos
    have hpair := hafter i hpos hi'
    rw [Function.update_self, Function.update_of_ne (by omega), takeLast_timeAt heap (by omega)]
      at hpair
    exact hnot hpair
  · intro habove
    rcases Nat.lt_or_ge i (heap.size - 1) with hlt | hge
    · exact min_heap_shift_down_ordered heap.takeLast i _
        (takeLast_downHole heap (fun p => (heap.entry p).time) hord hlt habove)
    · rw [min_heap_shift_down, if_neg (by simp only [takeLast_size]; omega)]
      refine (hord.mono (Nat.sub_le _ 1)).congr fun j hj => ?_
      rw [store_timeAt_eq, Function.update_of_ne (by omega), takeLast_timeAt heap hj]

theorem min_heap_pop_ordered (hord : HeapOrdered heap) : HeapOrdered (min_heap_pop heap).2 := by
  rcases Nat.eq_zero_or_pos heap.size with hsize | hsize
  · rw [min_heap_pop_empty heap hsize]
    exact hord
  · rw [min_heap_pop_eq heap hsize]
    exact (removeAt_ordered_iff heap hord hsize).mpr (hord.root_le _ (by omega))

end Remove

end easymesh.minheap
