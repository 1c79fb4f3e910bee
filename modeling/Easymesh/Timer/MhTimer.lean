import Easymesh.Timer.HeapDelete
import Easymesh.Lib.Memory

open Lib Lib.Result

namespace easymesh.mh_timer

open easymesh.minheap

variable {κ σ α β : Type}

/-- The `timer` of a loop, with the milliseconds that the monotonic clock shows
at each reading and the number of readings so far. -/
structure loop_timer (κ : Type) where
  heap : min_heap_t κ
  clock : Nat → Nat
  reads : Nat

/-- A `uint32_t`. The readings that are only printed are left out. -/
def current_time (timer : loop_timer κ) : Nat × loop_timer κ :=
  (timer.clock timer.reads % 4294967296, { timer with reads := timer.reads + 1 })

/-- `te->interval = msec;` -/
def setInterval (heap : min_heap_t κ) (te : Ptr) (msec : Nat) : min_heap_t κ :=
  { heap with entry := Function.update heap.entry te { heap.entry te with interval := msec } }

/-- `te->time = current_time() + te->interval;` and the push. -/
def arm_timer (timer : loop_timer κ) (te : Ptr) : loop_timer κ :=
  let (now, timer) := current_time timer
  let heap := timer.heap.setTime te ((now + (timer.heap.entry te).interval) % 4294967296)
  { timer with heap := min_heap_push heap te }

/-- `te` is the address that `malloc` returns. -/
def add_timer (timer : loop_timer κ) (te : Ptr) (msec : Nat) (callback : κ) : loop_timer κ :=
  let entry := { min_heap_elem_init callback with interval := msec }
  arm_timer { timer with
    heap := { timer.heap with entry := Function.update timer.heap.entry te entry } } te

def reset_timer (timer : loop_timer κ) (te : Ptr) (msec : Nat) : loop_timer κ :=
  arm_timer
    { timer with heap := if 0 < msec then setInterval timer.heap te msec else timer.heap } te

/-- The delay with which `reset_timer` arms an entry: its last interval when
`msec` is 0. -/
def delay (timer : loop_timer κ) (te : Ptr) (msec : Nat) : Nat :=
  if 0 < msec then msec else (timer.heap.entry te).interval

/-- The entry that a turn of the loop in `expire_timer` takes out of the heap,
where `cur` is the time read before the loop. -/
def expire_next (timer : loop_timer κ) (cur : Nat) : Option (Ptr × loop_timer κ) :=
  match min_heap_top timer.heap with
  | none => none
  | some te =>
    if cur < (timer.heap.entry te).time then none
    else some (te, { timer with heap := (min_heap_pop timer.heap).2 })

/-- A program with timers: where it keeps them, and its callbacks. -/
structure timer_host (κ σ : Type) where
  timer : σ → loop_timer κ
  setTimer : σ → loop_timer κ → σ
  callback : κ → Ptr → σ → Result σ

/-- One turn of the loop in `expire_timer`; `none` leaves the loop. -/
def expire_turn (host : timer_host κ σ) (cur : Nat) (s : σ) : Option (Result σ) :=
  (expire_next (host.timer s) cur).map fun (te, timer) =>
    host.callback (timer.heap.entry te).handler te (host.setTimer s timer)

/-- `fuel` bounds the turns of the loop. -/
def expire_timer (host : timer_host κ σ) : Nat → Nat → σ → Result σ
  | 0, _, _ => div
  | fuel + 1, cur, s =>
    match expire_turn host cur s with
    | none => ok s
    | some next => next >>= expire_timer host fuel cur

/-- The program with a log of its handler calls, in which `note` says what is kept of each. -/
def timer_host.logged (host : timer_host κ σ) (note : κ → Ptr → σ → α) :
    timer_host κ (List α × σ) where
  timer x := host.timer x.2
  setTimer x timer := (x.1, host.setTimer x.2 timer)
  callback handler te x := do
    let s ← host.callback handler te x.2
    ok (x.1 ++ [note handler te x.2], s)

/-- `expire_timer`, with the log of the handlers that it runs, in that order. -/
def expire_logged (host : timer_host κ σ) (note : κ → Ptr → σ → α) (fuel cur : Nat) (s : σ) :
    Result (List α × σ) :=
  expire_timer (host.logged note) fuel cur ([], s)

section Logged

variable {host : timer_host κ σ} {note : κ → Ptr → σ → α} {cur : Nat} {s : σ}

theorem expire_timer_none (hnext : expire_next (host.timer s) cur = none) (fuel : Nat) :
    expire_timer host (fuel + 1) cur s = ok s := by
  rw [expire_timer, expire_turn, hnext]
  rfl

theorem expire_timer_some {te : Ptr} {timer : loop_timer κ}
    (hnext : expire_next (host.timer s) cur = some (te, timer)) (fuel : Nat) :
    expire_timer host (fuel + 1) cur s =
      host.callback (timer.heap.entry te).handler te (host.setTimer s timer) >>=
        expire_timer host fuel cur := by
  rw [expire_timer, expire_turn, hnext]
  rfl

theorem expire_timer_logged_some {te : Ptr} {timer : loop_timer κ}
    (hnext : expire_next (host.timer s) cur = some (te, timer)) (log : List α) (fuel : Nat) :
    expire_timer (host.logged note) (fuel + 1) cur (log, s) =
      host.callback (timer.heap.entry te).handler te (host.setTimer s timer) >>= fun s' =>
        expire_timer (host.logged note) fuel cur
          (log ++ [note (timer.heap.entry te).handler te (host.setTimer s timer)], s') := by
  rw [@expire_timer_some _ _ (host.logged note) cur (log, s) te timer hnext]
  exact bind_assoc _ _ _

/-- A log is only added to. -/
theorem expire_timer_logged (log : List α) (fuel : Nat) :
    expire_timer (host.logged note) fuel cur (log, s) =
      (fun x => (log ++ x.1, x.2)) <$> expire_timer (host.logged note) fuel cur ([], s) := by
  induction fuel generalizing s log with
  | zero => rfl
  | succ fuel ih =>
    cases hnext : expire_next (host.timer s) cur with
    | none =>
      rw [@expire_timer_none _ _ (host.logged note) cur (log, s) hnext,
        @expire_timer_none _ _ (host.logged note) cur ([], s) hnext, map_ok, List.append_nil]
    | some next =>
      rw [expire_timer_logged_some hnext, expire_timer_logged_some hnext, map_bind]
      apply congrArg (bind _)
      funext s'
      rw [ih, ih ([] ++ _), ← comp_map]
      simp only [Function.comp_def, List.nil_append, List.append_assoc]

theorem expire_logged_none (hnext : expire_next (host.timer s) cur = none) (fuel : Nat) :
    expire_logged host note (fuel + 1) cur s = ok ([], s) :=
  @expire_timer_none _ _ (host.logged note) cur ([], s) hnext fuel

/-- A turn logs the handler that it runs, and the rest of the call comes after it. -/
theorem expire_logged_some {te : Ptr} {timer : loop_timer κ}
    (hnext : expire_next (host.timer s) cur = some (te, timer)) (fuel : Nat) :
    expire_logged host note (fuel + 1) cur s =
      host.callback (timer.heap.entry te).handler te (host.setTimer s timer) >>= fun s' =>
        (fun x => (note (timer.heap.entry te).handler te (host.setTimer s timer) :: x.1, x.2)) <$>
          expire_logged host note fuel cur s' := by
  rw [expire_logged, expire_timer_logged_some hnext]
  apply congrArg (bind _)
  funext s'
  rw [expire_timer_logged]
  rfl

/-- The log does not change what the call does. -/
theorem expire_timer_eq (fuel : Nat) :
    expire_timer host fuel cur s = Prod.snd <$> expire_logged host note fuel cur s := by
  induction fuel generalizing s with
  | zero => rfl
  | succ fuel ih =>
    cases hnext : expire_next (host.timer s) cur with
    | none => rw [expire_timer_none hnext, expire_logged_none hnext, map_ok]
    | some next =>
      rw [expire_timer_some hnext, expire_logged_some hnext, map_bind]
      apply congrArg (bind _)
      funext s'
      rw [ih, ← comp_map]
      rfl

/-- Keeping less of each call in the log is forgetting the rest of it. -/
theorem expire_logged_map (f : α → β) (fuel : Nat) :
    expire_logged host (fun handler te s => f (note handler te s)) fuel cur s =
      (fun x => (x.1.map f, x.2)) <$> expire_logged host note fuel cur s := by
  induction fuel generalizing s with
  | zero => rfl
  | succ fuel ih =>
    cases hnext : expire_next (host.timer s) cur with
    | none => rw [expire_logged_none hnext, expire_logged_none hnext, map_ok, List.map_nil]
    | some next =>
      rw [expire_logged_some hnext, expire_logged_some hnext, map_bind]
      apply congrArg (bind _)
      funext s'
      rw [ih, ← comp_map, ← comp_map]
      rfl

end Logged

section Arm

variable (timer : loop_timer κ) (te : Ptr) (msec : Nat)

theorem setTime_entry (heap : min_heap_t κ) (time : Nat) (p : Ptr) :
    ((heap.setTime te time).entry p).handler = (heap.entry p).handler := by
  by_cases hp : p = te
  · subst hp
    simp [min_heap_t.setTime]
  · simp [min_heap_t.setTime, hp]

/-- Arming adds one occurrence of the entry to the heap, wherever it was. -/
theorem arm_timer_held : held (arm_timer timer te).heap = te ::ₘ held timer.heap :=
  min_heap_push_held _ te

theorem arm_timer_handler (p : Ptr) :
    ((arm_timer timer te).heap.entry p).handler = (timer.heap.entry p).handler :=
  (min_heap_push_entry _ te p).2.2.trans (setTime_entry te timer.heap _ p)

theorem arm_timer_interval (p : Ptr) :
    ((arm_timer timer te).heap.entry p).interval = (timer.heap.entry p).interval := by
  apply (min_heap_push_entry _ te p).2.1.trans
  by_cases hp : p = te
  · subst hp
    simp [min_heap_t.setTime]
  · simp [min_heap_t.setTime, hp]

/-- The deadline is the delay after the clock reading, in 32 bits. -/
theorem arm_timer_time : ((arm_timer timer te).heap.entry te).time =
    (timer.clock timer.reads + (timer.heap.entry te).interval) % 4294967296 := by
  apply (min_heap_push_entry _ te te).1.trans
  simp [min_heap_t.setTime]

theorem arm_timer_time_other {p : Ptr} (hp : p ≠ te) :
    ((arm_timer timer te).heap.entry p).time = (timer.heap.entry p).time := by
  apply (min_heap_push_entry _ te p).1.trans
  simp [min_heap_t.setTime, hp]

theorem arm_timer_ordered (hnew : te ∉ held timer.heap) (hord : HeapOrdered timer.heap) :
    HeapOrdered (arm_timer timer te).heap :=
  min_heap_push_ordered _ te (setTime_ordered hnew hord _)

theorem reset_timer_held : held (reset_timer timer te msec).heap = te ::ₘ held timer.heap := by
  rw [reset_timer, arm_timer_held]
  split <;> rfl

theorem reset_timer_time : ((reset_timer timer te msec).heap.entry te).time =
    (timer.clock timer.reads + delay timer te msec) % 4294967296 := by
  rw [reset_timer, arm_timer_time, delay]
  split
  · simp [setInterval]
  · rfl

theorem reset_timer_time_other {p : Ptr} (hp : p ≠ te) :
    ((reset_timer timer te msec).heap.entry p).time = (timer.heap.entry p).time := by
  rw [reset_timer, arm_timer_time_other _ te hp]
  dsimp only
  split
  · simp [setInterval, hp]
  · rfl

theorem reset_timer_handler (p : Ptr) :
    ((reset_timer timer te msec).heap.entry p).handler = (timer.heap.entry p).handler := by
  rw [reset_timer, arm_timer_handler]
  dsimp only
  split
  · by_cases hp : p = te
    · subst hp
      simp [setInterval]
    · simp [setInterval, hp]
  · rfl

/-- A reset keeps the delay as the interval of its timer. -/
theorem reset_timer_interval (p : Ptr) :
    ((reset_timer timer te msec).heap.entry p).interval =
      if p = te then delay timer te msec else (timer.heap.entry p).interval := by
  rw [reset_timer, arm_timer_interval, delay]
  dsimp only
  by_cases hp : p = te
  · subst hp
    rw [if_pos rfl]
    split
    · simp [setInterval]
    · rfl
  · rw [if_neg hp]
    split
    · simp [setInterval, hp]
    · rfl

theorem reset_timer_ordered (hnew : te ∉ held timer.heap) (hord : HeapOrdered timer.heap) :
    HeapOrdered (reset_timer timer te msec).heap := by
  apply arm_timer_ordered
  · dsimp only
    split
    · exact hnew
    · exact hnew
  · dsimp only
    split
    · refine hord.congr fun i hi => ?_
      have hne : timer.heap.elements i ≠ te := fun heq => hnew (mem_held.mpr ⟨i, hi, heq⟩)
      simp [min_heap_t.timeAt, setInterval, hne]
    · exact hord

theorem add_timer_held (callback : κ) :
    held (add_timer timer te msec callback).heap = te ::ₘ held timer.heap :=
  arm_timer_held _ te

theorem add_timer_time (callback : κ) : ((add_timer timer te msec callback).heap.entry te).time =
    (timer.clock timer.reads + msec) % 4294967296 := by
  rw [add_timer, arm_timer_time]
  simp

theorem add_timer_time_other (callback : κ) {p : Ptr} (hp : p ≠ te) :
    ((add_timer timer te msec callback).heap.entry p).time = (timer.heap.entry p).time := by
  rw [add_timer, arm_timer_time_other _ te hp]
  simp [hp]

theorem add_timer_handler (callback : κ) (p : Ptr) :
    ((add_timer timer te msec callback).heap.entry p).handler =
      if p = te then callback else (timer.heap.entry p).handler := by
  rw [add_timer, arm_timer_handler]
  by_cases hp : p = te
  · subst hp
    simp [min_heap_elem_init]
  · simp [hp]

theorem add_timer_interval (callback : κ) (p : Ptr) :
    ((add_timer timer te msec callback).heap.entry p).interval =
      if p = te then msec else (timer.heap.entry p).interval := by
  rw [add_timer, arm_timer_interval]
  by_cases hp : p = te
  · subst hp
    simp
  · simp [hp]

theorem add_timer_ordered (callback : κ) (hnew : te ∉ held timer.heap)
    (hord : HeapOrdered timer.heap) : HeapOrdered (add_timer timer te msec callback).heap := by
  apply arm_timer_ordered
  · exact hnew
  · refine hord.congr fun i hi => ?_
    have hne : timer.heap.elements i ≠ te := fun heq => hnew (mem_held.mpr ⟨i, hi, heq⟩)
    simp [min_heap_t.timeAt, hne]

theorem setInterval_indexed {heap : min_heap_t κ} (hidx : Indexed heap) :
    Indexed (setInterval heap te msec) := by
  have hsame (p : Ptr) : ((setInterval heap te msec).entry p).min_heap_idx =
      (heap.entry p).min_heap_idx := by
    by_cases hp : p = te
    · subst hp
      simp [setInterval]
    · simp [setInterval, hp]
  exact ⟨fun i hi => (hsame _).trans (hidx.idx i hi), fun p hp => (hsame p).trans (hidx.out p hp)⟩

theorem arm_timer_indexed (hnew : te ∉ held timer.heap) (hidx : Indexed timer.heap) :
    Indexed (arm_timer timer te).heap :=
  min_heap_push_indexed (setTime_indexed hidx te _) hnew

theorem reset_timer_indexed (hnew : te ∉ held timer.heap) (hidx : Indexed timer.heap) :
    Indexed (reset_timer timer te msec).heap := by
  apply arm_timer_indexed
  · dsimp only
    split
    · exact hnew
    · exact hnew
  · dsimp only
    split
    · exact setInterval_indexed te msec hidx
    · exact hidx

theorem add_timer_indexed (callback : κ) (hnew : te ∉ held timer.heap)
    (hidx : Indexed timer.heap) : Indexed (add_timer timer te msec callback).heap := by
  apply arm_timer_indexed
  · exact hnew
  · refine ⟨fun i hi => ?_, fun p hp => ?_⟩
    · have hne : timer.heap.elements i ≠ te := fun heq => hnew (mem_held.mpr ⟨i, hi, heq⟩)
      dsimp only
      rw [Function.update_of_ne hne]
      exact hidx.idx i hi
    · by_cases hpte : p = te
      · subst hpte
        simp [min_heap_elem_init]
      · dsimp only
        rw [Function.update_of_ne hpte]
        exact hidx.out p hp

/-- Resetting a timer several times leaves as many copies of it more in the heap. -/
theorem reset_timer_iterate (n : Nat) :
    held ((fun timer => reset_timer timer te msec)^[n] timer).heap =
        Multiset.replicate n te + held timer.heap ∧
      ∀ p, (((fun timer => reset_timer timer te msec)^[n] timer).heap.entry p).handler =
        (timer.heap.entry p).handler := by
  induction n with
  | zero => simp
  | succ n ih =>
    rw [Function.iterate_succ_apply']
    refine ⟨?_, fun p => (reset_timer_handler _ te msec p).trans (ih.2 p)⟩
    rw [reset_timer_held, ih.1, Multiset.replicate_succ, Multiset.cons_add]

end Arm

/-- A turn pops the top of the heap, which is due. -/
theorem expire_next_cases {timer timer' : loop_timer κ} {cur : Nat} {te : Ptr}
    (h : expire_next timer cur = some (te, timer')) :
    0 < timer.heap.size ∧ te = timer.heap.elements 0 ∧ (timer.heap.entry te).time ≤ cur ∧
      timer' = { timer with heap := timer.heap.removeAt 0 } := by
  unfold expire_next min_heap_top at h
  split at h
  · cases h
  · rename_i top htop
    split at htop
    · rename_i hsize
      cases htop
      split at h
      · cases h
      · rename_i hdue
        cases h
        rw [min_heap_pop_eq _ hsize]
        exact ⟨hsize, rfl, Nat.le_of_not_lt hdue, rfl⟩
    · cases htop

/-- What a turn takes out of the heap was in it, and the rest stays. -/
theorem expire_next_spec {timer timer' : loop_timer κ} {cur : Nat} {te : Ptr}
    (h : expire_next timer cur = some (te, timer')) :
    te ::ₘ held timer'.heap = held timer.heap ∧
      (HeapOrdered timer.heap → HeapOrdered timer'.heap) ∧
      ∀ p, (timer'.heap.entry p).handler = (timer.heap.entry p).handler := by
  obtain ⟨hsize, rfl, -, rfl⟩ := expire_next_cases h
  refine ⟨removeAt_held _ hsize, fun hord => ?_, fun p => (removeAt_entry _ 0 p).2.2⟩
  have hpop := min_heap_pop_ordered _ hord
  rwa [min_heap_pop_eq _ hsize] at hpop

theorem expire_next_indexed {timer timer' : loop_timer κ} {cur : Nat} {te : Ptr}
    (hidx : Indexed timer.heap) (h : expire_next timer cur = some (te, timer')) :
    Indexed timer'.heap := by
  obtain ⟨hsize, -, -, rfl⟩ := expire_next_cases h
  have hpop := min_heap_pop_indexed hidx
  rwa [min_heap_pop_eq _ hsize] at hpop

/-- A turn takes out an entry that is due, and changes neither the data of an
entry nor the clock. -/
theorem expire_next_due {timer timer' : loop_timer κ} {cur : Nat} {te : Ptr}
    (h : expire_next timer cur = some (te, timer')) :
    (timer.heap.entry te).time ≤ cur ∧
      (∀ p, SameEntry (timer'.heap.entry p) (timer.heap.entry p)) ∧
      timer'.clock timer'.reads = timer.clock timer.reads := by
  obtain ⟨-, -, hdue, rfl⟩ := expire_next_cases h
  exact ⟨hdue, removeAt_entry _ 0, rfl⟩

/-- The loop ends when no entry of the heap is due. -/
theorem expire_next_none {timer : loop_timer κ} {cur : Nat} (hord : HeapOrdered timer.heap)
    (h : expire_next timer cur = none) : ∀ p ∈ held timer.heap, cur < (timer.heap.entry p).time := by
  intro p hp
  unfold expire_next at h
  cases htop : min_heap_top timer.heap with
  | none =>
    obtain ⟨i, hi, -⟩ := mem_held.mp hp
    rw [min_heap_top, if_pos (by omega)] at htop
    cases htop
  | some top =>
    rw [htop] at h
    dsimp only at h
    split at h
    · rename_i hlater
      exact hlater.trans_le (hord.top_minimal top htop p hp)
    · cases h

end easymesh.mh_timer
