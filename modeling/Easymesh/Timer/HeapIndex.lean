import Easymesh.Timer.HeapOrder

open Lib.BinaryHeap

namespace easymesh.minheap

variable {κ : Type}

theorem mem_held {heap : min_heap_t κ} {p : Ptr} :
    p ∈ held heap ↔ ∃ i, i < heap.size ∧ heap.elements i = p :=
  mem_contents

/-- Every entry knows its slot: those in the heap store its index, all others -1. -/
structure Indexed (heap : min_heap_t κ) : Prop where
  idx : ∀ i, i < heap.size → (heap.entry (heap.elements i)).min_heap_idx = i
  out : ∀ p, p ∉ held heap → (heap.entry p).min_heap_idx = -1

theorem Indexed.elements_inj {heap : min_heap_t κ} (hidx : Indexed heap) {i j : Nat}
    (hi : i < heap.size) (hj : j < heap.size) (heq : heap.elements i = heap.elements j) : i = j := by
  have hii := hidx.idx i hi
  rw [heq, hidx.idx j hj] at hii
  omega

theorem Indexed.held_nodup {heap : min_heap_t κ} (hidx : Indexed heap) : (held heap).Nodup := by
  refine Multiset.Nodup.map_on (fun i hi j hj heq => ?_) (Multiset.nodup_range _)
  exact hidx.elements_inj (Multiset.mem_range.mp hi) (Multiset.mem_range.mp hj) heq

/-- The back indices of the first `n` slots during a sift: the slot `hole` waits
for `elem`, and entry `r` has its own back index set by other code. -/
structure Sifting (heap : min_heap_t κ) (n hole : Nat) (elem r : Ptr) : Prop where
  idx : ∀ i, i < n → i ≠ hole → (heap.entry (heap.elements i)).min_heap_idx = i
  fresh : ∀ i, i < n → i ≠ hole → heap.elements i ≠ elem
  out : ∀ p, p ≠ elem → p ≠ r → (∀ i, i < n → i ≠ hole → heap.elements i ≠ p) →
    (heap.entry p).min_heap_idx = -1

/-- The back indices of the first `n` slots after a sift. -/
structure Sifted (heap : min_heap_t κ) (n : Nat) (r : Ptr) : Prop where
  idx : ∀ i, i < n → (heap.entry (heap.elements i)).min_heap_idx = i
  out : ∀ p, p ≠ r → (∀ i, i < n → heap.elements i ≠ p) → (heap.entry p).min_heap_idx = -1

theorem store_idx (heap : min_heap_t κ) (index : Nat) (elem : Ptr) :
    ((heap.store index elem).entry elem).min_heap_idx = index := by
  simp [min_heap_t.store]

theorem store_entry_of_ne (heap : min_heap_t κ) (index : Nat) {elem p : Ptr} (hp : p ≠ elem) :
    (heap.store index elem).entry p = heap.entry p :=
  Function.update_of_ne hp _ _

section Sift

variable {heap : min_heap_t κ} {n hole : Nat} {elem r : Ptr}

theorem Sifting.move (h : Sifting heap n hole elem r) (hhole : hole < n) {j : Nat} (hj : j < n)
    (hne : j ≠ hole) : Sifting (heap.store hole (heap.elements j)) n j elem r := by
  refine ⟨fun i hi hij => ?_, fun i hi hij => ?_, fun p hp hr hslots => ?_⟩
  · by_cases hih : i = hole
    · subst hih
      rw [store_elements, Function.update_self]
      exact store_idx heap i _
    · have hother : heap.elements i ≠ heap.elements j := by
        intro heq
        have hii := h.idx i hi hih
        rw [heq, h.idx j hj hne] at hii
        omega
      rw [store_elements, Function.update_of_ne hih, store_entry_of_ne heap hole hother]
      exact h.idx i hi hih
  · by_cases hih : i = hole
    · subst hih
      rw [store_elements, Function.update_self]
      exact h.fresh j hj hne
    · rw [store_elements, Function.update_of_ne hih]
      exact h.fresh i hi hih
  · have hmoved : ∀ i, i < n → i ≠ hole → heap.elements i ≠ p := by
      intro i hi hih heq
      by_cases hij : i = j
      · subst hij
        apply hslots hole hhole (Ne.symm hih)
        rw [store_elements, Function.update_self, heq]
      · apply hslots i hi hij
        rw [store_elements, Function.update_of_ne hih, heq]
    have hpj : p ≠ heap.elements j := fun heq => hmoved j hj hne heq.symm
    rw [store_entry_of_ne heap hole hpj]
    exact h.out p hp hr hmoved

theorem Sifting.fill (h : Sifting heap n hole elem r) (hhole : hole < n) :
    Sifted (heap.store hole elem) n r := by
  refine ⟨fun i hi => ?_, fun p hr hslots => ?_⟩
  · by_cases hih : i = hole
    · subst hih
      rw [store_elements, Function.update_self]
      exact store_idx heap i elem
    · rw [store_elements, Function.update_of_ne hih,
        store_entry_of_ne heap hole (h.fresh i hi hih)]
      exact h.idx i hi hih
  · have hp : p ≠ elem := by
      rintro rfl
      exact hslots hole hhole (by rw [store_elements, Function.update_self])
    rw [store_entry_of_ne heap hole hp]
    refine h.out p hp hr fun i hi hih => ?_
    have hslot := hslots i hi
    rwa [store_elements, Function.update_of_ne hih] at hslot

end Sift

theorem min_heap_shift_up_sifted (heap : min_heap_t κ) (index : Nat) (elem : Ptr) {n : Nat}
    {r : Ptr} (hindex : index < n) (h : Sifting heap n index elem r) :
    Sifted (min_heap_shift_up heap index elem) n r := by
  fun_induction min_heap_shift_up heap index elem with
  | case1 heap index hpos pindex up hle => exact h.fill hindex
  | case2 heap index hpos pindex up hle ih =>
    exact ih (by omega) (h.move hindex (by omega) (by omega))
  | case3 heap index hpos => exact h.fill hindex

theorem min_heap_shift_down_sifted (heap : min_heap_t κ) (index : Nat) (elem : Ptr) {r : Ptr}
    (hindex : index < heap.size) (h : Sifting heap heap.size index elem r) :
    Sifted (min_heap_shift_down heap index elem) heap.size r := by
  fun_induction min_heap_shift_down heap index elem with
  | case1 heap index hin child_index child hlt => exact h.fill hindex
  | case2 heap index hin child_index child hlt ih =>
    have hsize := (min_heap_child_spec heap hin).2.1
    have hgt := lt_min_heap_child heap index
    exact ih hsize (h.move hindex hsize (by omega))
  | case3 heap index hin => exact h.fill hindex

variable {heap : min_heap_t κ}

theorem min_heap_push_indexed (hidx : Indexed heap) {elem : Ptr} (hnew : elem ∉ held heap) :
    Indexed (min_heap_push heap elem) := by
  obtain ⟨helements, hsize, hentry⟩ := min_heap_ensure_capacity_eq heap (heap.size + 1)
  have hsift : Sifting (min_heap_ensure_capacity heap (heap.size + 1)) (heap.size + 1) heap.size
      elem elem := by
    refine ⟨fun i hi hne => ?_, fun i hi hne heq => ?_, fun p hp _ hslots => ?_⟩
    · rw [helements, hentry]
      exact hidx.idx i (by omega)
    · rw [helements] at heq
      exact hnew (mem_held.mpr ⟨i, by omega, heq⟩)
    · rw [hentry]
      refine hidx.out p fun hmem => ?_
      obtain ⟨i, hi, heq⟩ := mem_held.mp hmem
      exact hslots i (by omega) (by omega) (by rw [helements, heq])
  have hsifted := min_heap_shift_up_sifted _ _ elem (Nat.lt_succ_self _) hsift
  refine ⟨fun i hi => ?_, fun p hp => ?_⟩
  · rw [min_heap_push_size] at hi
    simpa only [min_heap_push, hsize] using hsifted.idx i hi
  · have hne : p ≠ elem := by
      rintro rfl
      rw [min_heap_push_held] at hp
      exact hp (Multiset.mem_cons_self _ _)
    have hslots : ∀ i, i < heap.size + 1 → (min_heap_push heap elem).elements i ≠ p :=
      fun i hi heq => hp (mem_held.mpr ⟨i, by rwa [min_heap_push_size], heq⟩)
    unfold min_heap_push at hslots ⊢
    dsimp only at hslots ⊢
    rw [hsize] at hslots ⊢
    exact hsifted.out p hne hslots

/-- What a removal leaves, before it marks the removed entry. -/
theorem takeLast_sifted (hidx : Indexed heap) {i : Nat} (hi : i < heap.size) :
    Sifted (min_heap_shift_down heap.takeLast i (heap.elements (heap.size - 1))) (heap.size - 1)
      (heap.elements i) := by
  have hkeep : ∀ j, j < heap.size - 1 → heap.takeLast.elements j = heap.elements j :=
    fun j hj => Function.update_of_ne (by omega) _ _
  have hout : ∀ p, p ≠ heap.elements (heap.size - 1) → p ≠ heap.elements i →
      (∀ j, j < heap.size - 1 → j ≠ i → heap.elements j ≠ p) →
      (heap.entry p).min_heap_idx = -1 := by
    intro p hlast hr hslots
    refine hidx.out p fun hmem => ?_
    obtain ⟨j, hj, heq⟩ := mem_held.mp hmem
    by_cases hji : j = i
    · exact hr (by rw [← heq, hji])
    · by_cases hjl : j = heap.size - 1
      · exact hlast (by rw [← heq, hjl])
      · exact hslots j (by omega) hji heq
  rcases Nat.lt_or_ge i (heap.size - 1) with hlt | hge
  · refine min_heap_shift_down_sifted heap.takeLast i _ hlt ⟨fun j hj hne => ?_,
      fun j hj hne heq => ?_, fun p hlast hr hslots => ?_⟩
    · rw [takeLast_size] at hj
      rw [hkeep j hj]
      exact hidx.idx j (by omega)
    · rw [takeLast_size] at hj
      rw [hkeep j hj] at heq
      have := hidx.elements_inj (by omega) (by omega) heq
      omega
    · refine hout p hlast hr fun j hj hne => ?_
      have hslot := hslots j hj hne
      rwa [hkeep j hj] at hslot
  · have hlast : i = heap.size - 1 := by omega
    subst hlast
    rw [min_heap_shift_down, if_neg (by rw [takeLast_size]; omega)]
    refine ⟨fun j hj => ?_, fun p hr hslots => ?_⟩
    · have hne : heap.elements j ≠ heap.elements (heap.size - 1) := by
        intro heq
        have := hidx.elements_inj (by omega) (by omega) heq
        omega
      rw [store_elements, Function.update_of_ne (by omega), hkeep j hj,
        store_entry_of_ne _ _ hne]
      exact hidx.idx j (by omega)
    · rw [store_entry_of_ne _ _ hr]
      refine hout p hr hr fun j hj hne => ?_
      have hslot := hslots j hj
      rwa [store_elements, Function.update_of_ne hne, hkeep j hj] at hslot

theorem removeAt_indexed (hidx : Indexed heap) {i : Nat} (hi : i < heap.size) :
    Indexed (heap.removeAt i) := by
  have hsifted := takeLast_sifted hidx hi
  have hheld := removeAt_held heap hi
  have hgone : heap.elements i ∉ held (heap.removeAt i) := by
    have hnodup := hidx.held_nodup
    rw [← hheld] at hnodup
    exact (Multiset.nodup_cons.mp hnodup).1
  have hother : ∀ p, p ≠ heap.elements i → (heap.removeAt i).entry p =
      (min_heap_shift_down heap.takeLast i (heap.elements (heap.size - 1))).entry p :=
    fun p hp => Function.update_of_ne hp _ _
  refine ⟨fun j hj => ?_, fun p hp => ?_⟩
  · have hne : (heap.removeAt i).elements j ≠ heap.elements i :=
      fun heq => hgone (mem_held.mpr ⟨j, hj, heq⟩)
    rw [hother _ hne]
    rw [removeAt_size] at hj
    exact hsifted.idx j hj
  · by_cases hpi : p = heap.elements i
    · subst hpi
      simp [min_heap_t.removeAt, min_heap_t.setIdx]
    · rw [hother p hpi]
      refine hsifted.out p hpi fun j hj heq => hp (mem_held.mpr ⟨j, ?_, heq⟩)
      rwa [removeAt_size]

theorem min_heap_pop_indexed (hidx : Indexed heap) : Indexed (min_heap_pop heap).2 := by
  rcases Nat.eq_zero_or_pos heap.size with hsize | hsize
  · rw [min_heap_pop_empty heap hsize]
    exact hidx
  · rw [min_heap_pop_eq heap hsize]
    exact removeAt_indexed hidx hsize

/-- Deleting an entry that is not in the heap changes nothing. -/
theorem min_heap_delete_absent (hidx : Indexed heap) {elem : Ptr} (helem : elem ∉ held heap) :
    (min_heap_delete heap elem).2 = heap := by
  unfold min_heap_delete
  split
  · rfl
  · rw [if_pos (by rw [hidx.out elem helem]; decide)]

/-- Deleting an entry of the heap empties exactly the slot it is in. -/
theorem min_heap_delete_held (hidx : Indexed heap) {i : Nat} (hi : i < heap.size) :
    min_heap_delete heap (heap.elements i) = (0, heap.removeAt i) :=
  min_heap_delete_eq heap hi (hidx.idx i hi) rfl

theorem min_heap_delete_indexed (hidx : Indexed heap) (elem : Ptr) :
    Indexed (min_heap_delete heap elem).2 := by
  by_cases helem : elem ∈ held heap
  · obtain ⟨i, hi, rfl⟩ := mem_held.mp helem
    rw [min_heap_delete_held hidx hi]
    exact removeAt_indexed hidx hi
  · rw [min_heap_delete_absent hidx helem]
    exact hidx

end easymesh.minheap
