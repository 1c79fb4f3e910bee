import Easymesh.Timer.HeapIndex
import Easymesh.Lib.Transition

open Lib Lib.BinaryHeap

namespace easymesh.minheap

variable {κ : Type}

/-- The calls a user of the heap makes; a push sets the entry's deadline first. -/
inductive HeapOp where
  | push (elem : Ptr) (time : Nat)
  | pop
  | delete (elem : Ptr)
  deriving DecidableEq, Repr

/-- `elem->time = time;` -/
def min_heap_t.setTime (heap : min_heap_t κ) (elem : Ptr) (time : Nat) : min_heap_t κ :=
  { heap with entry := Function.update heap.entry elem { heap.entry elem with time } }

def HeapOp.exec (heap : min_heap_t κ) : HeapOp → min_heap_t κ
  | push elem time => min_heap_push (heap.setTime elem time) elem
  | pop => (min_heap_pop heap).2
  | delete elem => (min_heap_delete heap elem).2

/-- Only an entry that is not in the heap is pushed. -/
def HeapOp.Allowed (heap : min_heap_t κ) : HeapOp → Prop
  | push elem _ => elem ∉ held heap
  | _ => True

instance (heap : min_heap_t κ) (op : HeapOp) : Decidable (op.Allowed heap) := by
  cases op <;> unfold HeapOp.Allowed <;> infer_instance

abbrev HeapStep : min_heap_t κ → HeapOp → min_heap_t κ → Prop :=
  Guarded (fun heap op => op.Allowed heap) HeapOp.exec

/-- A heap after `min_heap_create`, with every entry after `min_heap_elem_init`. -/
def empty_heap (handler : Ptr → κ) : min_heap_t κ :=
  min_heap_create
    { elements := fun _ => 0
      size := 0
      capacity := 0
      entry := fun p => min_heap_elem_init (handler p) }

/-- The top of the heap is an entry of least deadline. -/
def TopMinimal (heap : min_heap_t κ) : Prop :=
  ∀ p, min_heap_top heap = some p → ∀ q ∈ held heap, (heap.entry p).time ≤ (heap.entry q).time

/-- The step deletes no entry whose parent is later than the last entry, the one
that takes the free slot. -/
def DeletesInOrder (heap : min_heap_t κ) (op : HeapOp) (_ : min_heap_t κ) : Prop :=
  ∀ i, i < heap.size → op = .delete (heap.elements i) →
    heap.timeAt (parent i) ≤ heap.timeAt (heap.size - 1)

instance (heap : min_heap_t κ) (op : HeapOp) (heap' : min_heap_t κ) :
    Decidable (DeletesInOrder heap op heap') :=
  inferInstanceAs (Decidable (∀ i, i < heap.size → op = .delete (heap.elements i) → _ ≤ _))

theorem empty_heap_indexed (handler : Ptr → κ) : Indexed (empty_heap handler) :=
  ⟨fun _ hi => absurd hi (Nat.not_lt_zero _), fun _ _ => rfl⟩

theorem empty_heap_ordered (handler : Ptr → κ) : HeapOrdered (empty_heap handler) :=
  fun _ _ hi => absurd hi (Nat.not_lt_zero _)

theorem HeapOrdered.top_minimal {heap : min_heap_t κ} (hord : HeapOrdered heap) :
    TopMinimal heap := by
  intro p htop q hq
  unfold min_heap_top at htop
  split at htop
  · obtain ⟨i, hi, rfl⟩ := mem_held.mp hq
    cases htop
    exact hord.root_le i hi
  · cases htop

theorem setTime_indexed {heap : min_heap_t κ} (hidx : Indexed heap) (elem : Ptr) (time : Nat) :
    Indexed (heap.setTime elem time) := by
  have hsame : ∀ p, ((heap.setTime elem time).entry p).min_heap_idx =
      (heap.entry p).min_heap_idx := by
    intro p
    by_cases hp : p = elem
    · subst hp
      simp [min_heap_t.setTime]
    · simp [min_heap_t.setTime, hp]
  exact ⟨fun i hi => (hsame _).trans (hidx.idx i hi), fun p hp => (hsame p).trans (hidx.out p hp)⟩

/-- The deadline of an entry outside the heap has no part in its order. -/
theorem setTime_ordered {heap : min_heap_t κ} {elem : Ptr} (hnew : elem ∉ held heap)
    (hord : HeapOrdered heap) (time : Nat) : HeapOrdered (heap.setTime elem time) := by
  refine hord.congr fun i hi => ?_
  have hne : heap.elements i ≠ elem := fun heq => hnew (mem_held.mpr ⟨i, hi, heq⟩)
  simp [min_heap_t.timeAt, min_heap_t.setTime, hne]

theorem heapStep_indexed {heap heap' : min_heap_t κ} {op : HeapOp} (hidx : Indexed heap)
    (hstep : HeapStep heap op heap') : Indexed heap' := by
  obtain ⟨hallowed, rfl⟩ := hstep
  cases op with
  | push elem time => exact min_heap_push_indexed (setTime_indexed hidx elem time) hallowed
  | pop => exact min_heap_pop_indexed hidx
  | delete elem => exact min_heap_delete_indexed hidx elem

/-- Pushes and pops keep the order; a deletion keeps it exactly when the last
entry may stand below the parent of the slot it moves to. -/
theorem heapStep_ordered_iff {heap heap' : min_heap_t κ} {op : HeapOp} (hidx : Indexed heap)
    (hord : HeapOrdered heap) (hstep : HeapStep heap op heap') :
    HeapOrdered heap' ↔ DeletesInOrder heap op heap' := by
  obtain ⟨hallowed, rfl⟩ := hstep
  cases op with
  | push elem time =>
    have hafter := min_heap_push_ordered _ elem (setTime_ordered hallowed hord time)
    exact ⟨nofun, fun _ => hafter⟩
  | pop => exact ⟨nofun, fun _ => min_heap_pop_ordered heap hord⟩
  | delete elem =>
    by_cases helem : elem ∈ held heap
    · obtain ⟨i, hi, rfl⟩ := mem_held.mp helem
      simp only [HeapOp.exec, min_heap_delete_held hidx hi]
      rw [removeAt_ordered_iff heap hord hi]
      constructor
      · intro habove j hj hop
        cases hidx.elements_inj hj hi (HeapOp.delete.inj hop).symm
        exact habove
      · intro hgood
        exact hgood i hi rfl
    · simp only [HeapOp.exec, min_heap_delete_absent hidx helem]
      refine ⟨fun _ i hi hop => absurd (mem_held.mpr ⟨i, hi, ?_⟩) helem, fun _ => hord⟩
      exact (HeapOp.delete.inj hop).symm

/-- A run of heap calls keeps the heap ordered, and its top minimal, exactly when
each deletion finds the last entry not earlier than the parent of the freed slot. -/
theorem heap_runs_ordered_iff (handler : Ptr → κ) {tr : List (HeapOp × min_heap_t κ)}
    (hrun : Run HeapStep (empty_heap handler) tr) :
    (∀ x ∈ tr, HeapOrdered x.2 ∧ TopMinimal x.2) ↔
      AllSteps DeletesInOrder (empty_heap handler) tr := by
  have hiff := Run.invariant_iff (J := Indexed) (P := HeapOrdered)
    (fun hidx _ hstep => heapStep_indexed hidx hstep)
    (fun hidx hord hstep => heapStep_ordered_iff hidx hord hstep) (empty_heap_indexed handler)
    (empty_heap_ordered handler) hrun
  rw [← hiff]
  exact ⟨fun h x hx => (h x hx).1, fun h x hx => ⟨h x hx, (h x hx).top_minimal⟩⟩

/-- Three timers, of which the first pushed is deleted. -/
def delete_last : List HeapOp := [.push 1 5, .push 2 3, .push 3 4, .delete 1, .pop]

theorem delete_last_ordered :
    Run HeapStep (empty_heap fun _ => ())
        (trace HeapOp.exec (empty_heap fun _ => ()) delete_last) ∧
      ∀ x ∈ trace HeapOp.exec (empty_heap fun _ => ()) delete_last,
        HeapOrdered x.2 ∧ TopMinimal x.2 := by
  have hrun : Run HeapStep (empty_heap fun _ => ())
      (trace HeapOp.exec (empty_heap fun _ => ()) delete_last) := run_trace (by decide +kernel)
  exact ⟨hrun, (heap_runs_ordered_iff (fun _ => ()) hrun).mpr (by decide +kernel)⟩

/-- Six timers in heap order, of which the one in slot 3 is deleted: the last
one, due at 3, comes to stand below the one due at 10. -/
def delete_below_later : List HeapOp :=
  [.push 1 1, .push 2 10, .push 3 2, .push 4 11, .push 5 12, .push 6 3, .delete 4]

theorem delete_below_later_unordered :
    Run HeapStep (empty_heap fun _ => ())
        (trace HeapOp.exec (empty_heap fun _ => ()) delete_below_later) ∧
      ¬ ∀ x ∈ trace HeapOp.exec (empty_heap fun _ => ()) delete_below_later,
        HeapOrdered x.2 ∧ TopMinimal x.2 := by
  refine ⟨run_trace (by decide +kernel), fun hall => ?_⟩
  have hlast := hall (_, delete_below_later.foldl HeapOp.exec (empty_heap fun _ => ()))
    (List.mem_of_getLast? rfl)
  have hpair := hlast.1 3 (by decide) (by decide +kernel)
  revert hpair
  decide +kernel

end easymesh.minheap
