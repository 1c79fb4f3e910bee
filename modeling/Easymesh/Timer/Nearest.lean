import Easymesh.Timer.MhTimer

open Lib Lib.Result

namespace easymesh.mh_timer

open easymesh.minheap

variable {κ : Type}

/-- Both conversions to `int` and the subtraction are in 32 bits. -/
def find_nearest_expire_timer (timer : loop_timer κ) : Int × loop_timer κ :=
  match min_heap_top timer.heap with
  | none => (-1, timer)
  | some te =>
    let (now, after) := current_time timer
    let diff := wrap32 (wrap32 (timer.heap.entry te).time - wrap32 now)
    (if 0 < diff then diff else 0, after)

/-- What `find_nearest_expire_timer` returns when its reading of the clock is `c`. -/
def nearest_at (timer : loop_timer κ) (c : Nat) : Int :=
  (find_nearest_expire_timer { timer with clock := fun _ => c }).1

/-- `expire_timer` runs a handler when its reading of the clock is `c`. -/
def RunsAt (timer : loop_timer κ) (c : Nat) : Prop := (expire_next timer c).isSome

/-- 0 is returned exactly when a handler is due, and another `w` when one is due at
`c + w`, in 32 bits, and none at any reading before. -/
structure WaitsExactly (timer : loop_timer κ) (c : Nat) : Prop where
  zero_iff : nearest_at timer c = 0 ↔ RunsAt timer c
  later : 0 < nearest_at timer c → RunsAt timer ((c + (nearest_at timer c).toNat) % 4294967296)
  not_before : 0 < nearest_at timer c → ∀ k, k < (nearest_at timer c).toNat →
    ¬ RunsAt timer ((c + k) % 4294967296)

/-- The deadlines are values of a `uint32_t`. -/
def Deadlines32 (heap : min_heap_t κ) : Prop :=
  ∀ p ∈ held heap, (heap.entry p).time < 4294967296

/-- The least deadline of the heap is at most 2^31 ms before, and less than 2^31 ms
after the reading, as numbers of 32 bits. -/
def NearDeadline (timer : loop_timer κ) (c : Nat) : Prop :=
  ∃ p ∈ held timer.heap,
    (∀ q ∈ held timer.heap, (timer.heap.entry p).time ≤ (timer.heap.entry q).time) ∧
      c ≤ (timer.heap.entry p).time + 2147483648 ∧ (timer.heap.entry p).time < c + 2147483648

section Nearest

variable {timer : loop_timer κ} {c : Nat} {te : Ptr}

/-- The loop of `expire_timer` has a first turn exactly when it runs a handler. -/
theorem expire_turn_isSome_iff {σ : Type} (host : timer_host κ σ) (s : σ) :
    (expire_turn host c s).isSome ↔ RunsAt (host.timer s) c := by
  rw [expire_turn, Option.isSome_map, RunsAt]

theorem top_of_size (h : 0 < timer.heap.size) :
    min_heap_top timer.heap = some (timer.heap.elements 0) := if_pos h

theorem runsAt_iff (htop : min_heap_top timer.heap = some te) :
    RunsAt timer c ↔ (timer.heap.entry te).time ≤ c := by
  rw [RunsAt, expire_next, htop]
  dsimp only
  split
  · next hlater => exact iff_of_false Bool.false_ne_true (Nat.not_le_of_lt hlater)
  · next hdue => exact iff_of_true rfl (Nat.le_of_not_lt hdue)

/-- The least deadline is that of the top. -/
theorem nearDeadline_iff (hord : HeapOrdered timer.heap) (hsize : 0 < timer.heap.size) :
    NearDeadline timer c ↔
      c ≤ (timer.heap.entry (timer.heap.elements 0)).time + 2147483648 ∧
        (timer.heap.entry (timer.heap.elements 0)).time < c + 2147483648 := by
  have htop : timer.heap.elements 0 ∈ held timer.heap := mem_held.mpr ⟨0, hsize, rfl⟩
  have hleast : ∀ q ∈ held timer.heap,
      (timer.heap.entry (timer.heap.elements 0)).time ≤ (timer.heap.entry q).time := by
    intro q hq
    obtain ⟨i, hi, rfl⟩ := mem_held.mp hq
    exact BinaryHeap.Ordered.root_le hord i hi
  constructor
  · rintro ⟨p, hp, hmin, hnear⟩
    rwa [Nat.le_antisymm (hmin _ htop) (hleast p hp)] at hnear
  · exact fun hnear => ⟨_, htop, hleast, hnear⟩

theorem nearest_at_eq (htop : min_heap_top timer.heap = some te) (hc : c < 4294967296) :
    nearest_at timer c =
      if 0 < wrap32 (wrap32 (timer.heap.entry te).time - wrap32 c) then
        wrap32 (wrap32 (timer.heap.entry te).time - wrap32 c) else 0 := by
  rw [nearest_at, find_nearest_expire_timer]
  simp only [htop, current_time, Nat.mod_eq_of_lt hc]

/-- The difference of two 32-bit numbers as an `int`, and the cases in which it is
that of the numbers. -/
theorem diff_cases {time : Nat} (htime : time < 4294967296) (hc : c < 4294967296) :
    (time + 2147483648 < c ∧
        wrap32 (wrap32 time - wrap32 c) = (time : Int) - c + 4294967296) ∨
      (c ≤ time + 2147483648 ∧ time < c + 2147483648 ∧
        wrap32 (wrap32 time - wrap32 c) = (time : Int) - c) ∨
      (c + 2147483648 ≤ time ∧
        wrap32 (wrap32 time - wrap32 c) = (time : Int) - c - 4294967296) := by
  unfold wrap32
  omega

end Nearest

/-- On an ordered heap the wait that is returned is exact at a reading of the clock
exactly when the least deadline is within 2^31 ms of it. -/
theorem find_nearest_expire_timer_exact_iff {timer : loop_timer κ}
    (hord : HeapOrdered timer.heap) (hsize : 0 < timer.heap.size)
    (htimes : Deadlines32 timer.heap) {c : Nat} (hc : c < 4294967296) :
    WaitsExactly timer c ↔ NearDeadline timer c := by
  rw [nearDeadline_iff hord hsize]
  have htop := top_of_size hsize
  have htime := htimes _ (mem_held.mpr ⟨0, hsize, rfl⟩)
  have hruns := fun c => @runsAt_iff κ timer c _ htop
  have hnear := nearest_at_eq htop hc
  generalize timer.heap.elements 0 = te at *
  have hdiff := diff_cases htime hc
  generalize (timer.heap.entry te).time = time at *
  generalize wrap32 (wrap32 time - wrap32 c) = diff at *
  constructor
  · rintro ⟨hzero, -, -⟩
    rw [hnear, hruns] at hzero
    obtain ⟨hearly, rfl⟩ | ⟨hlo, hhi, -⟩ | ⟨hlate, rfl⟩ := hdiff
    · -- the deadline is long past, and the difference has wrapped to a wait
      rw [if_pos (by omega)] at hzero
      omega
    · exact ⟨hlo, hhi⟩
    · -- the deadline is far ahead, and the difference has wrapped to no wait
      rw [if_neg (by omega)] at hzero
      omega
  · rintro ⟨hlo, hhi⟩
    obtain rfl : diff = (time : Int) - c := by omega
    refine ⟨?_, ?_, ?_⟩
    · rw [hnear, hruns]
      split
      · omega
      · omega
    · rw [hnear, hruns]
      intro hpos
      split at hpos
      · rw [if_pos ‹_›]
        omega
      · omega
    · rw [hnear]
      intro hpos k hk
      rw [hruns]
      split at hpos
      · rw [if_pos ‹_›] at hk
        omega
      · omega

/-- A loop with one timer that was added with a delay of `msec`, at a reading of `now`. -/
def timer_in (now msec : Nat) : loop_timer Unit :=
  add_timer { heap := empty_heap fun _ => (), clock := fun _ => now, reads := 0 } 1 msec ()

instance (heap : min_heap_t κ) : Decidable (Deadlines32 heap) :=
  inferInstanceAs (Decidable (∀ p ∈ held heap, _))

instance (timer : loop_timer κ) (c : Nat) : Decidable (RunsAt timer c) :=
  inferInstanceAs (Decidable ((expire_next timer c).isSome = true))

theorem five_seconds_exact : WaitsExactly (timer_in 1000 5000) 2000 :=
  (find_nearest_expire_timer_exact_iff (by decide +kernel) (by decide +kernel) (by decide +kernel)
    (by decide)).mpr ⟨1, by decide +kernel⟩

/-- A deadline 2^31 ms ahead, and one that the clock has left behind by more than that:
the first is waited for with 0, the second has to wait. -/
theorem far_deadlines_inexact :
    ¬ WaitsExactly (timer_in 0 2147483648) 0 ∧ ¬ WaitsExactly (timer_in 0 1000) 2147484649 := by
  constructor
  · intro h
    have hnot : ¬ RunsAt (timer_in 0 2147483648) 0 := by decide +kernel
    exact hnot (h.zero_iff.mp (by decide +kernel))
  · intro h
    have hnot : nearest_at (timer_in 0 1000) 2147484649 ≠ 0 := by decide +kernel
    exact hnot (h.zero_iff.mpr (by decide +kernel))

end easymesh.mh_timer
