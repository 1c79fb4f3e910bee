import Easymesh.Timer.HeapDelete

open Lib Lib.BinaryHeap

namespace easymesh.minheap

variable {κ : Type}

/-- The live slots hold distinct entries that know their slots, no other entry has
one, and there is room for all of them. -/
structure WellFormed (heap : min_heap_t κ) : Prop where
  distinct : ∀ i j, i < heap.size → j < heap.size → heap.elements i = heap.elements j → i = j
  idx : ∀ i, i < heap.size → (heap.entry (heap.elements i)).min_heap_idx = i
  out : ∀ p, p ∉ held heap → (heap.entry p).min_heap_idx = -1
  size_le : heap.size ≤ heap.capacity

/-- What becomes of the entries in the heap: a push adds its own, a pop takes out the
one it returns, if there is any, and a deletion takes out its own, or changes nothing. -/
def HeldAsAsked (heap : min_heap_t κ) (op : HeapOp) (heap' : min_heap_t κ) : Prop :=
  match op with
  | .push elem _ => held heap' = elem ::ₘ held heap
  | .pop =>
    match (min_heap_pop heap).1 with
    | some root => held heap = root ::ₘ held heap'
    | none => held heap = 0 ∧ heap' = heap
  | .delete elem =>
    if elem ∈ held heap then held heap = elem ::ₘ held heap' else heap' = heap

section Capacity

variable (heap : min_heap_t κ) (index : Nat) (elem : Ptr)

theorem min_heap_ensure_capacity_le (n : Nat) : n ≤ (min_heap_ensure_capacity heap n).capacity := by
  unfold min_heap_ensure_capacity
  by_cases hroom : heap.capacity < n
  · rw [if_pos hroom]
    have hle : ∀ a, n ≤ if a < n then n else a := by
      intro a
      split
      · exact Nat.le_refl n
      · omega
    exact hle _
  · rw [if_neg hroom]
    omega

theorem min_heap_shift_up_capacity :
    (min_heap_shift_up heap index elem).capacity = heap.capacity := by
  fun_induction min_heap_shift_up heap index elem with
  | case1 heap index hpos pindex parent hle => rfl
  | case2 heap index hpos pindex parent hle ih => exact ih
  | case3 heap index hpos => rfl

theorem min_heap_shift_down_capacity :
    (min_heap_shift_down heap index elem).capacity = heap.capacity := by
  fun_induction min_heap_shift_down heap index elem with
  | case1 heap index hin child_index child hlt => rfl
  | case2 heap index hin child_index child hlt ih => exact ih
  | case3 heap index hin => rfl

theorem min_heap_push_capacity :
    (min_heap_push heap elem).size ≤ (min_heap_push heap elem).capacity := by
  rw [min_heap_push_size]
  have hroom := min_heap_ensure_capacity_le heap (heap.size + 1)
  unfold min_heap_push
  dsimp only
  rwa [min_heap_shift_up_capacity]

theorem removeAt_capacity : (heap.removeAt index).capacity = heap.capacity :=
  min_heap_shift_down_capacity heap.takeLast index _

/-- A removal leaves room. -/
theorem removeAt_size_le (h : heap.size ≤ heap.capacity) :
    (heap.removeAt index).size ≤ (heap.removeAt index).capacity := by
  rw [removeAt_size, removeAt_capacity]
  omega

end Capacity

theorem WellFormed.of_indexed {heap : min_heap_t κ} (hidx : Indexed heap)
    (hsize : heap.size ≤ heap.capacity) : WellFormed heap :=
  ⟨fun _ _ hi hj => hidx.elements_inj hi hj, hidx.idx, hidx.out, hsize⟩

section Step

variable {heap heap' : min_heap_t κ} {op : HeapOp}

theorem heapStep_size_le (hidx : Indexed heap) (hsize : heap.size ≤ heap.capacity)
    (hstep : HeapStep heap op heap') : heap'.size ≤ heap'.capacity := by
  obtain ⟨hallowed, rfl⟩ := hstep
  cases op with
  | push elem time => exact min_heap_push_capacity _ elem
  | pop =>
    simp only [HeapOp.exec]
    rcases Nat.eq_zero_or_pos heap.size with hzero | hpos
    · rw [min_heap_pop_empty heap hzero]
      exact hsize
    · rw [min_heap_pop_eq heap hpos]
      exact removeAt_size_le heap 0 hsize
  | delete elem =>
    simp only [HeapOp.exec]
    by_cases helem : elem ∈ held heap
    · obtain ⟨i, hi, rfl⟩ := mem_held.mp helem
      rw [min_heap_delete_held hidx hi]
      exact removeAt_size_le heap i hsize
    · rw [min_heap_delete_absent hidx helem]
      exact hsize

theorem heapStep_held (hidx : Indexed heap) (hstep : HeapStep heap op heap') :
    HeldAsAsked heap op heap' := by
  obtain ⟨hallowed, rfl⟩ := hstep
  cases op with
  | push elem time => exact min_heap_push_held (heap.setTime elem time) elem
  | pop =>
    simp only [HeldAsAsked, HeapOp.exec]
    rcases Nat.eq_zero_or_pos heap.size with hzero | hpos
    · rw [min_heap_pop_empty heap hzero]
      refine ⟨?_, rfl⟩
      rw [held, contents, hzero]
      rfl
    · rw [min_heap_pop_eq heap hpos]
      exact (removeAt_held heap hpos).symm
  | delete elem =>
    simp only [HeldAsAsked, HeapOp.exec]
    by_cases helem : elem ∈ held heap
    · rw [if_pos helem]
      obtain ⟨i, hi, rfl⟩ := mem_held.mp helem
      rw [min_heap_delete_held hidx hi]
      exact (removeAt_held heap hi).symm
    · rw [if_neg helem]
      exact min_heap_delete_absent hidx helem

end Step

/-- After each of any pushes, pops and deletions the heap is well formed, and its
entries have changed as the call asked. -/
theorem heap_runs_well_formed (handler : Ptr → κ) {tr : List (HeapOp × min_heap_t κ)}
    (hrun : Run HeapStep (empty_heap handler) tr) :
    (∀ x ∈ tr, WellFormed x.2) ∧ AllSteps HeldAsAsked (empty_heap handler) tr := by
  have hstates : ∀ x ∈ tr, Indexed x.2 ∧ x.2.size ≤ x.2.capacity := by
    apply Run.invariant (J := fun heap => Indexed heap ∧ heap.size ≤ heap.capacity) _
      ⟨empty_heap_indexed handler, Nat.le_refl 0⟩ hrun
    rintro heap op heap' ⟨hidx, hsize⟩ hstep
    exact ⟨heapStep_indexed hidx hstep, heapStep_size_le hidx hsize hstep⟩
  refine ⟨fun x hx => .of_indexed (hstates x hx).1 (hstates x hx).2, ?_⟩
  apply Run.allSteps_of_states _ (empty_heap_indexed handler) hrun
  · exact fun x hx => (hstates x hx).1
  · exact fun hidx hstep => heapStep_held hidx hstep

/-- Of six timers the one in slot 1, which has two below it, is deleted, then one that is
not there, and the top is popped. -/
def delete_middle : List HeapOp :=
  [.push 1 1, .push 2 4, .push 3 2, .push 4 7, .push 5 5, .push 6 3, .delete 2, .delete 9, .pop]

theorem delete_middle_well_formed :
    Run HeapStep (empty_heap fun _ => ())
        (trace HeapOp.exec (empty_heap fun _ => ()) delete_middle) ∧
      ((trace HeapOp.exec (empty_heap fun _ => ()) delete_middle).map fun x =>
          (List.range x.2.size).map x.2.elements).drop 5 =
        [[1, 2, 3, 4, 5, 6], [1, 6, 3, 4, 5], [1, 6, 3, 4, 5], [3, 6, 5, 4]] ∧
      (∀ x ∈ trace HeapOp.exec (empty_heap fun _ => ()) delete_middle, WellFormed x.2) ∧
      AllSteps HeldAsAsked (empty_heap fun _ => ())
        (trace HeapOp.exec (empty_heap fun _ => ()) delete_middle) := by
  have hrun : Run HeapStep (empty_heap fun _ => ())
      (trace HeapOp.exec (empty_heap fun _ => ()) delete_middle) := run_trace (by decide +kernel)
  exact ⟨hrun, by decide +kernel, heap_runs_well_formed (fun _ => ()) hrun⟩

end easymesh.minheap
