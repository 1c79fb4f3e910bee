import Easymesh.Lib.BinaryHeap

namespace easymesh.minheap

/-- The address of a `timer_entry_t`; `NULL` is 0. -/
abbrev Ptr := Nat

/-- `struct timer_entry_s`, with the callback and its private data as one value. -/
structure timer_entry_t (κ : Type) where
  time : Nat
  interval : Nat
  min_heap_idx : Int
  handler : κ

/-- `struct min_heap`, with the entries its pointers refer to. -/
structure min_heap_t (κ : Type) where
  elements : Nat → Ptr
  size : Nat
  capacity : Nat
  entry : Ptr → timer_entry_t κ

variable {κ : Type}

/-- The deadline of the entry in slot `i`. -/
def min_heap_t.timeAt (heap : min_heap_t κ) (i : Nat) : Nat := (heap.entry (heap.elements i)).time

/-- `heap->elements[index] = elem; heap->elements[index]->min_heap_idx = index;` -/
def min_heap_t.store (heap : min_heap_t κ) (index : Nat) (elem : Ptr) : min_heap_t κ :=
  { heap with
    elements := Function.update heap.elements index elem
    entry := Function.update heap.entry elem { heap.entry elem with min_heap_idx := index } }

/-- `elem->min_heap_idx = idx;` -/
def min_heap_t.setIdx (heap : min_heap_t κ) (elem : Ptr) (idx : Int) : min_heap_t κ :=
  { heap with
    entry := Function.update heap.entry elem { heap.entry elem with min_heap_idx := idx } }

def min_heap_create (heap : min_heap_t κ) : min_heap_t κ :=
  { heap with elements := fun _ => 0, size := 0, capacity := 0 }

def min_heap_elem_init (handler : κ) : timer_entry_t κ :=
  { time := 0, interval := 0, min_heap_idx := -1, handler }

def min_heap_top (heap : min_heap_t κ) : Option Ptr :=
  if 0 < heap.size then some (heap.elements 0) else none

/-- The reallocation succeeds, so only the capacity changes. -/
def min_heap_ensure_capacity (heap : min_heap_t κ) (n : Nat) : min_heap_t κ :=
  if heap.capacity < n then
    let a := if heap.capacity ≠ 0 then heap.capacity * 2 else 8
    { heap with capacity := if a < n then n else a }
  else heap

def min_heap_shift_up (heap : min_heap_t κ) (index : Nat) (elem : Ptr) : min_heap_t κ :=
  if 0 < index then
    let pindex := (index - 1) / 2
    let parent := heap.elements pindex
    if (heap.entry parent).time ≤ (heap.entry elem).time then heap.store index elem
    else min_heap_shift_up (heap.store index parent) pindex elem
  else heap.store index elem
termination_by index

/-- The child of `index` that `min_heap_shift_down` looks at: the right one when
it is in the heap and earlier than the left one. -/
def min_heap_child (heap : min_heap_t κ) (index : Nat) : Nat :=
  let left_index := 2 * index + 1
  let right_index := 2 * index + 2
  if right_index < heap.size ∧ heap.timeAt right_index < heap.timeAt left_index then right_index
  else left_index

theorem lt_min_heap_child (heap : min_heap_t κ) (index : Nat) :
    index < min_heap_child heap index := by
  unfold min_heap_child
  dsimp only
  split <;> omega

def min_heap_shift_down (heap : min_heap_t κ) (index : Nat) (elem : Ptr) : min_heap_t κ :=
  if index < heap.size / 2 then
    let child_index := min_heap_child heap index
    let child := heap.elements child_index
    if (heap.entry elem).time < (heap.entry child).time then heap.store index elem
    else min_heap_shift_down (heap.store index child) child_index elem
  else heap.store index elem
termination_by heap.size - index
decreasing_by
  have := lt_min_heap_child heap index
  simp only [min_heap_t.store]
  omega

def min_heap_push (heap : min_heap_t κ) (elem : Ptr) : min_heap_t κ :=
  let heap := min_heap_ensure_capacity heap (heap.size + 1)
  let heap := min_heap_shift_up heap heap.size elem
  { heap with size := heap.size + 1 }

/-- `last = heap->elements[heap->size - 1]; heap->size--; heap->elements[heap->size] = NULL;` -/
def min_heap_t.takeLast (heap : min_heap_t κ) : min_heap_t κ :=
  { heap with
    size := heap.size - 1
    elements := Function.update heap.elements (heap.size - 1) 0 }

def min_heap_pop (heap : min_heap_t κ) : Option Ptr × min_heap_t κ :=
  if heap.size = 0 then (none, heap)
  else
    let root := heap.elements 0
    let last := heap.elements (heap.size - 1)
    (some root, (min_heap_shift_down heap.takeLast 0 last).setIdx root (-1))

def min_heap_delete (heap : min_heap_t κ) (elem : Ptr) : Int × min_heap_t κ :=
  if heap.size = 0 then (-1, heap)
  else if (heap.entry elem).min_heap_idx < 0 then (0, heap)
  else
    let last := heap.elements (heap.size - 1)
    let index := (heap.entry elem).min_heap_idx.toNat
    (0, (min_heap_shift_down heap.takeLast index last).setIdx elem (-1))

section Frame

variable (heap : min_heap_t κ) (index : Nat) (elem : Ptr)

@[simp] theorem store_elements :
    (heap.store index elem).elements = Function.update heap.elements index elem := rfl

@[simp] theorem store_size : (heap.store index elem).size = heap.size := rfl

@[simp] theorem store_capacity : (heap.store index elem).capacity = heap.capacity := rfl

@[simp] theorem setIdx_elements (idx : Int) : (heap.setIdx elem idx).elements = heap.elements := rfl

@[simp] theorem setIdx_size (idx : Int) : (heap.setIdx elem idx).size = heap.size := rfl

@[simp] theorem takeLast_size : heap.takeLast.size = heap.size - 1 := rfl

@[simp] theorem takeLast_entry : heap.takeLast.entry = heap.entry := rfl

/-- Everything of an entry but its back index. -/
def SameEntry (a b : timer_entry_t κ) : Prop :=
  a.time = b.time ∧ a.interval = b.interval ∧ a.handler = b.handler

theorem store_entry (p : Ptr) : SameEntry ((heap.store index elem).entry p) (heap.entry p) := by
  by_cases hp : p = elem
  · subst hp
    simp [min_heap_t.store, SameEntry]
  · simp [min_heap_t.store, SameEntry, hp]

@[simp] theorem store_time (p : Ptr) :
    ((heap.store index elem).entry p).time = (heap.entry p).time :=
  (store_entry heap index elem p).1

theorem setIdx_entry (idx : Int) (p : Ptr) :
    SameEntry ((heap.setIdx elem idx).entry p) (heap.entry p) := by
  by_cases hp : p = elem
  · subst hp
    simp [min_heap_t.setIdx, SameEntry]
  · simp [min_heap_t.setIdx, SameEntry, hp]

theorem store_timeAt (i : Nat) : (heap.store index elem).timeAt i =
    Function.update heap.timeAt index (heap.entry elem).time i := by
  by_cases hi : i = index
  · subst hi
    simp [min_heap_t.timeAt]
  · simp [min_heap_t.timeAt, hi]

@[simp] theorem setIdx_timeAt (idx : Int) : (heap.setIdx elem idx).timeAt = heap.timeAt := by
  funext i
  exact (setIdx_entry heap elem idx _).1

theorem takeLast_timeAt {i : Nat} (hi : i < heap.size - 1) :
    heap.takeLast.timeAt i = heap.timeAt i := by
  unfold min_heap_t.timeAt min_heap_t.takeLast
  simp only
  rw [Function.update_of_ne (by omega)]

@[simp] theorem min_heap_ensure_capacity_eq (n : Nat) :
    (min_heap_ensure_capacity heap n).elements = heap.elements ∧
      (min_heap_ensure_capacity heap n).size = heap.size ∧
      (min_heap_ensure_capacity heap n).entry = heap.entry := by
  unfold min_heap_ensure_capacity
  split <;> exact ⟨rfl, rfl, rfl⟩

theorem min_heap_shift_up_size : (min_heap_shift_up heap index elem).size = heap.size := by
  fun_induction min_heap_shift_up heap index elem with
  | case1 heap index hpos pindex parent hle => rfl
  | case2 heap index hpos pindex parent hle ih => exact ih
  | case3 heap index hpos => rfl

theorem min_heap_shift_down_size : (min_heap_shift_down heap index elem).size = heap.size := by
  fun_induction min_heap_shift_down heap index elem with
  | case1 heap index hin child_index child hlt => rfl
  | case2 heap index hin child_index child hlt ih => exact ih
  | case3 heap index hin => rfl

theorem SameEntry.trans {a b c : timer_entry_t κ} (hab : SameEntry a b) (hbc : SameEntry b c) :
    SameEntry a c :=
  ⟨hab.1.trans hbc.1, hab.2.1.trans hbc.2.1, hab.2.2.trans hbc.2.2⟩

theorem min_heap_shift_up_entry (p : Ptr) :
    SameEntry ((min_heap_shift_up heap index elem).entry p) (heap.entry p) := by
  fun_induction min_heap_shift_up heap index elem with
  | case1 heap index hpos pindex parent hle => exact store_entry heap index elem p
  | case2 heap index hpos pindex parent hle ih =>
    exact ih.trans (store_entry heap index parent p)
  | case3 heap index hpos => exact store_entry heap index elem p

theorem min_heap_shift_down_entry (p : Ptr) :
    SameEntry ((min_heap_shift_down heap index elem).entry p) (heap.entry p) := by
  fun_induction min_heap_shift_down heap index elem with
  | case1 heap index hin child_index child hlt => exact store_entry heap index elem p
  | case2 heap index hin child_index child hlt ih =>
    exact ih.trans (store_entry heap index child p)
  | case3 heap index hin => exact store_entry heap index elem p

end Frame

end easymesh.minheap
