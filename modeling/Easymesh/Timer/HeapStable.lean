import Easymesh.Timer.HeapDelete
import Mathlib.Data.Prod.Lex

open Lib Lib.BinaryHeap

namespace easymesh.minheap

variable {κ : Type}

/-- The order in which entries were pushed: the number of the next push, and that of
the last push of each entry. -/
structure push_order where
  next : Nat
  rank : Ptr → Nat

/-- Entries count from 1. -/
def push_order.start : push_order where
  next := 1
  rank _ := 0

def push_order.record (order : push_order) (_ : min_heap_t κ) (op : HeapOp) (_ : min_heap_t κ) :
    push_order :=
  match op with
  | .push elem _ => { next := order.next + 1, rank := Function.update order.rank elem order.next }
  | _ => order

/-- An entry that is not in the heap is pushed, or one is popped. -/
def HeapOp.Queues (heap : min_heap_t κ) : HeapOp → Prop
  | push elem _ => elem ∉ held heap
  | pop => True
  | delete _ => False

instance (heap : min_heap_t κ) : ∀ op : HeapOp, Decidable (op.Queues heap)
  | .push elem _ => inferInstanceAs (Decidable (elem ∉ held heap))
  | .pop => isTrue trivial
  | .delete _ => isFalse not_false

abbrev QueueStep : min_heap_t κ → HeapOp → min_heap_t κ → Prop :=
  Guarded (fun heap op => op.Queues heap) HeapOp.exec

/-- The entry that is popped was pushed before those of equal time that stay. -/
def PopsOldest (order : push_order) (heap : min_heap_t κ) (op : HeapOp) (heap' : min_heap_t κ) :
    Prop :=
  op = .pop → ∀ root ∈ (min_heap_pop heap).1, ∀ p ∈ held heap',
    (heap.entry p).time = (heap.entry root).time → order.rank root < order.rank p

/-- On its way down `elem` passes only children of equal time that were pushed before
it, and where two children have equal times the left one was pushed before the right. -/
def ties_in_order (rank : Ptr → Nat) (heap : min_heap_t κ) (index : Nat) (elem : Ptr) : Bool :=
  if index < heap.size / 2 then
    let child_index := min_heap_child heap index
    let child := heap.elements child_index
    if (heap.entry elem).time < (heap.entry child).time then true
    else
      let left := heap.elements (2 * index + 1)
      let right := heap.elements (2 * index + 2)
      decide (2 * index + 2 < heap.size → (heap.entry left).time = (heap.entry right).time →
        rank left < rank right) &&
      decide ((heap.entry child).time = (heap.entry elem).time → rank child < rank elem) &&
      ties_in_order rank (heap.store index child) child_index elem
  else true
termination_by heap.size - index
decreasing_by
  have := lt_min_heap_child heap index
  simp only [min_heap_t.store]
  omega

/-- The sift down of a pop, which lets the last entry down from the root, meets no tie
out of order. -/
def TiesInOrder (order : push_order) (heap : min_heap_t κ) (op : HeapOp) (_ : min_heap_t κ) :
    Prop :=
  op = .pop → ties_in_order order.rank heap.takeLast 0 (heap.elements (heap.size - 1)) = true

instance (order : push_order) (heap heap' : min_heap_t κ) (op : HeapOp) :
    Decidable (PopsOldest order heap op heap') :=
  inferInstanceAs (Decidable (op = .pop → ∀ root ∈ (min_heap_pop heap).1, ∀ p ∈ held heap',
    (heap.entry p).time = (heap.entry root).time → order.rank root < order.rank p))

instance (order : push_order) (heap heap' : min_heap_t κ) (op : HeapOp) :
    Decidable (TiesInOrder order heap op heap') :=
  inferInstanceAs (Decidable (op = .pop → _ = true))

/-- Entries compare by deadline, and where deadlines are equal by their pushes. -/
def push_key (rank : Ptr → Nat) (heap : min_heap_t κ) (p : Ptr) : Nat ×ₗ Nat :=
  toLex ((heap.entry p).time, rank p)

theorem push_key_le {rank : Ptr → Nat} {heap : min_heap_t κ} {p q : Ptr} :
    push_key rank heap p ≤ push_key rank heap q ↔
      (heap.entry p).time < (heap.entry q).time ∨
        (heap.entry p).time = (heap.entry q).time ∧ rank p ≤ rank q :=
  Prod.Lex.toLex_le_toLex

/-- The heap is ordered by deadline and push, and every entry was pushed once. -/
structure Stable (order : push_order) (heap : min_heap_t κ) : Prop where
  indexed : Indexed heap
  ordered : Ordered (push_key order.rank heap ∘ heap.elements) heap.size
  rank_lt : ∀ p, order.rank p < order.next
  rank_inj : ∀ p ∈ held heap, ∀ q ∈ held heap, order.rank p = order.rank q → p = q

theorem start_stable (handler : Ptr → κ) : Stable push_order.start (empty_heap handler) := by
  refine ⟨empty_heap_indexed handler, fun i _ hi => absurd hi (Nat.not_lt_zero i),
    fun _ => Nat.zero_lt_one, fun p hp => ?_⟩
  obtain ⟨i, hi, -⟩ := mem_held.mp hp
  exact absurd hi (Nat.not_lt_zero i)

section SiftDown

variable {rank : Ptr → Nat} {heap : min_heap_t κ} {index : Nat} {elem : Ptr}

theorem ties_in_order_move (hin : index < heap.size / 2)
    (hnot : ¬ (heap.entry elem).time < (heap.entry (heap.elements (min_heap_child heap index))).time)
    (hties : ties_in_order rank heap index elem = true) :
    (2 * index + 2 < heap.size →
        (heap.entry (heap.elements (2 * index + 1))).time =
          (heap.entry (heap.elements (2 * index + 2))).time →
        rank (heap.elements (2 * index + 1)) < rank (heap.elements (2 * index + 2))) ∧
      ((heap.entry (heap.elements (min_heap_child heap index))).time = (heap.entry elem).time →
        rank (heap.elements (min_heap_child heap index)) < rank elem) ∧
      ties_in_order rank (heap.store index (heap.elements (min_heap_child heap index)))
        (min_heap_child heap index) elem = true := by
  rw [ties_in_order, if_pos hin] at hties
  dsimp only at hties
  rw [if_neg hnot, Bool.and_eq_true, Bool.and_eq_true] at hties
  exact ⟨of_decide_eq_true hties.1.1, of_decide_eq_true hties.1.2, hties.2⟩

/-- Without a tie out of order the child that a sift down looks at is least by deadline
and push. -/
theorem min_heap_child_least
    (hties : 2 * index + 2 < heap.size →
      (heap.entry (heap.elements (2 * index + 1))).time =
        (heap.entry (heap.elements (2 * index + 2))).time →
      rank (heap.elements (2 * index + 1)) < rank (heap.elements (2 * index + 2)))
    {s : Nat} (hs : 0 < s) (hsize : s < heap.size) (hparent : parent s = index) :
    push_key rank heap (heap.elements (min_heap_child heap index)) ≤
      push_key rank heap (heap.elements s) := by
  rw [push_key_le]
  unfold min_heap_child min_heap_t.timeAt
  dsimp only
  obtain rfl | rfl := (parent_eq_iff hs).mp hparent
  · split
    · next hright => exact .inl hright.2
    · exact .inr ⟨rfl, Nat.le_refl _⟩
  · split
    · exact .inr ⟨rfl, Nat.le_refl _⟩
    · next hright =>
      have htime := Nat.le_of_not_lt fun hlt => hright ⟨hsize, hlt⟩
      obtain hlt | heq := Nat.lt_or_eq_of_le htime
      · exact .inl hlt
      · exact .inr ⟨heq, Nat.le_of_lt (hties hsize heq)⟩

theorem siftsBy_of_ties (hin : index < heap.size / 2)
    (hties : ties_in_order rank heap index elem = true) :
    SiftsBy (push_key rank heap) heap index elem := by
  obtain ⟨-, -, hmin⟩ := min_heap_child_spec heap hin
  constructor
  · intro hlt s hs hsize hparent
    exact push_key_le.mpr (.inl (Nat.lt_of_lt_of_le hlt (hmin s hs hsize hparent)))
  · intro hnot s hs hsize hparent
    exact min_heap_child_least (ties_in_order_move hin hnot hties).1 hs hsize hparent
  · intro hnot
    rw [push_key_le]
    obtain hlt | heq := Nat.lt_or_eq_of_le (Nat.le_of_not_lt hnot)
    · exact .inl hlt
    · exact .inr ⟨heq, Nat.le_of_lt ((ties_in_order_move hin hnot hties).2.1 heq)⟩

theorem push_key_congr {heap' : min_heap_t κ}
    (htime : ∀ p, (heap'.entry p).time = (heap.entry p).time) :
    push_key rank heap' = push_key rank heap := by
  funext p
  rw [push_key, push_key, htime]

theorem min_heap_shift_down_stable (hties : ties_in_order rank heap index elem = true)
    (hhole : DownHole (push_key rank heap ∘ heap.elements) heap.size index
      (push_key rank heap elem)) :
    Ordered (push_key rank heap ∘ (min_heap_shift_down heap index elem).elements) heap.size := by
  apply min_heap_shift_down_ordered_by (push_key rank heap) heap index elem
    (P := fun heap' index' => (∀ p, (heap'.entry p).time = (heap.entry p).time) ∧
      ties_in_order rank heap' index' elem = true) _ _ ⟨fun _ => rfl, hties⟩ hhole
  · rintro heap' index' ⟨htime, hties'⟩ hin
    rw [← push_key_congr htime]
    exact siftsBy_of_ties hin hties'
  · rintro heap' index' ⟨htime, hties'⟩ hin hnot
    refine ⟨fun p => ?_, (ties_in_order_move hin hnot hties').2.2⟩
    rw [store_time]
    exact htime p

end SiftDown

section Step

variable {order : push_order} {heap heap' : min_heap_t κ} {op : HeapOp}

/-- The root was pushed before every entry of equal time. -/
theorem Stable.root_oldest (h : Stable order heap) {p : Ptr} (hp : p ∈ held heap)
    (hne : p ≠ heap.elements 0) (htime : (heap.entry p).time = (heap.entry (heap.elements 0)).time) :
    order.rank (heap.elements 0) < order.rank p := by
  obtain ⟨i, hi, rfl⟩ := mem_held.mp hp
  have hroot : heap.elements 0 ∈ held heap := mem_held.mpr ⟨0, by omega, rfl⟩
  have hle : order.rank (heap.elements 0) ≤ order.rank (heap.elements i) := by
    obtain hlt | ⟨-, hle⟩ := push_key_le.mp (h.ordered.root_le i hi)
    · omega
    · exact hle
  exact Nat.lt_of_le_of_ne hle fun heq => hne (h.rank_inj _ hroot _ hp heq).symm

theorem Stable.pops_oldest (h : Stable order heap) (hstep : QueueStep heap op heap') :
    PopsOldest order heap op heap' := by
  rintro rfl root hroot p hp htime
  obtain ⟨-, rfl⟩ := hstep
  rcases Nat.eq_zero_or_pos heap.size with hzero | hpos
  · rw [min_heap_pop_empty heap hzero] at hroot
    exact absurd hroot (Option.not_mem_none root)
  · rw [min_heap_pop_eq heap hpos] at hroot
    cases hroot
    have hheld : held heap = heap.elements 0 ::ₘ held (HeapOp.exec heap .pop) := by
      rw [HeapOp.exec, min_heap_pop_eq heap hpos]
      exact (removeAt_held heap hpos).symm
    have hnodup := h.indexed.held_nodup
    rw [hheld, Multiset.nodup_cons] at hnodup
    refine h.root_oldest (hheld ▸ Multiset.mem_cons_of_mem hp) ?_ htime
    rintro rfl
    exact hnodup.1 hp

/-- Of equal deadlines the pushed one has the latest push, so its way up keeps the order. -/
theorem Stable.push (h : Stable order heap) {elem : Ptr} {time : Nat} (hnew : elem ∉ held heap) :
    Stable (order.record heap (.push elem time) heap')
      (HeapOp.exec heap (.push elem time)) := by
  have hstep : HeapStep heap (.push elem time) (HeapOp.exec heap (.push elem time)) := ⟨hnew, rfl⟩
  have hheld : held (HeapOp.exec heap (.push elem time)) = elem ::ₘ held heap :=
    min_heap_push_held (heap.setTime elem time) elem
  have hrank : ∀ p ∈ held heap, Function.update order.rank elem order.next p = order.rank p :=
    fun p hp => Function.update_of_ne (by rintro rfl; exact hnew hp) _ _
  have hlt : ∀ p, Function.update order.rank elem order.next p < order.next + 1 := by
    intro p
    by_cases hp : p = elem
    · subst hp
      rw [Function.update_self]
      exact Nat.lt_succ_self _
    · rw [Function.update_of_ne hp]
      exact Nat.lt_succ_of_lt (h.rank_lt p)
  refine ⟨heapStep_indexed h.indexed hstep, ?_, hlt, ?_⟩
  · -- the keys after the push are those with the new deadline and the new rank
    have htime : ∀ p, ((HeapOp.exec heap (.push elem time)).entry p).time =
        ((heap.setTime elem time).entry p).time :=
      fun p => (min_heap_push_entry (heap.setTime elem time) elem p).1
    rw [push_key_congr htime]
    apply min_heap_push_ordered_by (heap.setTime elem time) elem
    · intro p
      rw [push_key_le]
      have hle : Function.update order.rank elem order.next p ≤
          Function.update order.rank elem order.next elem := by
        rw [Function.update_self]
        exact Nat.le_of_lt_succ (hlt p)
      constructor
      · rintro (hearlier | ⟨hequal, -⟩)
        · exact Nat.le_of_lt hearlier
        · exact Nat.le_of_eq hequal
      · intro hnot
        obtain hearlier | hequal := Nat.lt_or_eq_of_le hnot
        · exact .inl hearlier
        · exact .inr ⟨hequal, hle⟩
    · refine h.ordered.congr fun i hi => ?_
      have hmem : heap.elements i ∈ held heap := mem_held.mpr ⟨i, hi, rfl⟩
      have hne : heap.elements i ≠ elem := fun heq => hnew (heq ▸ hmem)
      simp [push_key, push_order.record, min_heap_t.setTime, hne]
  · intro p hp q hq heq
    rw [hheld, Multiset.mem_cons] at hp hq
    change Function.update order.rank elem order.next p =
      Function.update order.rank elem order.next q at heq
    have hold := h.rank_lt
    obtain rfl | hp := hp
    · obtain rfl | hq := hq
      · rfl
      · rw [Function.update_self, hrank q hq] at heq
        exact absurd (heq ▸ hold q) (Nat.lt_irrefl _)
    · obtain rfl | hq := hq
      · rw [Function.update_self, hrank p hp] at heq
        exact absurd (heq ▸ hold p) (Nat.lt_irrefl _)
      · rw [hrank p hp, hrank q hq] at heq
        exact h.rank_inj p hp q hq heq

theorem Stable.pop (h : Stable order heap)
    (hties : ties_in_order order.rank heap.takeLast 0 (heap.elements (heap.size - 1)) = true) :
    Stable order (HeapOp.exec heap .pop) := by
  rw [HeapOp.exec]
  rcases Nat.eq_zero_or_pos heap.size with hzero | hpos
  · rw [min_heap_pop_empty heap hzero]
    exact h
  · rw [min_heap_pop_eq heap hpos]
    have hheld := removeAt_held heap hpos
    have hstay : ∀ p ∈ held (heap.removeAt 0), p ∈ held heap :=
      fun p hp => hheld ▸ Multiset.mem_cons_of_mem hp
    refine ⟨removeAt_indexed h.indexed hpos, ?_, h.rank_lt,
      fun p hp q hq => h.rank_inj p (hstay p hp) q (hstay q hq)⟩
    rw [push_key_congr fun p => (removeAt_entry heap 0 p).1, removeAt_size, min_heap_t.removeAt,
      setIdx_elements]
    rcases Nat.eq_zero_or_pos (heap.size - 1) with hlast | hrest
    · rw [hlast]
      exact fun i _ hi => absurd hi (Nat.not_lt_zero i)
    · have hroot := h.ordered.root_le (heap.size - 1) (by omega)
      exact min_heap_shift_down_stable hties (takeLast_downHole heap _ h.ordered hrest hroot)

theorem Stable.step (h : Stable order heap) (hties : TiesInOrder order heap op heap')
    (hstep : QueueStep heap op heap') : Stable (order.record heap op heap') heap' := by
  obtain ⟨hqueues, rfl⟩ := hstep
  cases op with
  | push elem time => exact h.push hqueues
  | pop => exact h.pop (hties rfl)
  | delete elem => exact hqueues.elim

end Step

/-- In every sequence of pushes and pops whose sifts down meet no tie out of order, each
pop returns the entry that was pushed first of those with its time. -/
theorem equal_times_pop_in_push_order (handler : Ptr → κ) {tr : List (HeapOp × min_heap_t κ)}
    (hrun : Run QueueStep (empty_heap handler) tr)
    (hties : AllRecorded push_order.record TiesInOrder .start (empty_heap handler) tr) :
    AllRecorded push_order.record PopsOldest .start (empty_heap handler) tr := by
  apply Run.allRecorded _ _ (start_stable handler) hrun hties
  · exact fun h _ hstep => h.pops_oldest hstep
  · exact fun h hgood hstep => h.step hgood hstep

/-- The heap is filled with entries of one time, and then emptied. -/
def equal_run (n : Nat) : List (HeapOp × min_heap_t Unit) :=
  trace HeapOp.exec (empty_heap fun _ => ())
    ((List.range n).map (fun i => .push (i + 1) 5) ++ List.replicate n .pop)

theorem three_equal_in_order :
    AllRecorded push_order.record PopsOldest .start (empty_heap fun _ => ()) (equal_run 3) :=
  equal_times_pop_in_push_order (fun _ => ()) (run_trace (by decide +kernel)) (by decide +kernel)

/-- After the first pop the fourth entry is the left child and the third the last, and the
second pop lets the third down past the fourth, which is then popped before it. -/
theorem four_equal_out_of_order :
    Run QueueStep (empty_heap fun _ => ()) (equal_run 4) ∧
      ¬ AllRecorded push_order.record PopsOldest .start (empty_heap fun _ => ()) (equal_run 4) :=
  ⟨run_trace (by decide +kernel), by decide +kernel⟩

end easymesh.minheap
