import Easymesh.Timer.Deadline

open Lib Lib.Result

namespace easymesh.mh_timer

open easymesh.minheap

variable {κ σ : Type}

/-- What a handler does with the timers: it adds a new one, at the address that `malloc`
returns, or resets its own. -/
inductive arm_call (κ : Type) where
  | add (te : Ptr) (msec : Nat) (callback : κ)
  | rearm (msec : Nat)

namespace arm_call

/-- The call of a handler that was called with `own`. -/
def exec (own : Ptr) (timer : loop_timer κ) : arm_call κ → loop_timer κ
  | add te msec callback => add_timer timer te msec callback
  | rearm msec => reset_timer timer own msec

/-- The entry that the call pushes. -/
def entry (own : Ptr) : arm_call κ → Ptr
  | add te _ _ => te
  | rearm _ => own

/-- The milliseconds from the clock reading of the call to the deadline. -/
def after (own : Ptr) (timer : loop_timer κ) : arm_call κ → Nat
  | add _ msec _ => msec
  | rearm msec => delay timer own msec

/-- The entry is not in the heap, its delay is positive, and its deadline is below 2^32. -/
def Allowed (own : Ptr) (timer : loop_timer κ) (c : arm_call κ) : Prop :=
  c.entry own ∉ held timer.heap ∧ 0 < c.after own timer ∧
    timer.now + c.after own timer < 4294967296

end arm_call

/-- The handlers return, and touch the timers only by the calls that `arms` tells. -/
structure ArmsOnly (host : timer_host κ σ) (arms : κ → Ptr → σ → List (arm_call κ)) : Prop where
  timer_set : ∀ s timer, host.timer (host.setTimer s timer) = timer
  callback : ∀ handler te s, ∃ s', host.callback handler te s = ok s' ∧
    host.timer s' = (arms handler te s).foldl (arm_call.exec te) (host.timer s)

/-- `expire_timer`, with the entries whose handlers it runs and those that they push. -/
def expire_armed (host : timer_host κ σ) (arms : κ → Ptr → σ → List (arm_call κ)) (fuel cur : Nat)
    (s : σ) : Result (List Ptr × List Ptr × σ) :=
  (fun x => (x.1.map Prod.fst, x.1.flatMap Prod.snd, x.2)) <$>
    expire_logged host (fun handler te s => (te, (arms handler te s).map (arm_call.entry te)))
      fuel cur s

/-- The calls of a handler that a turn of the loop runs are all allowed in their turn. -/
def ArmsAllowed (host : timer_host κ σ) (arms : κ → Ptr → σ → List (arm_call κ)) (cur : Nat)
    (s : σ) (te : Ptr) (_ : σ) : Prop :=
  ∀ next, expire_next (host.timer s) cur = some (te, next) →
    Enabled (fun timer c => c.Allowed te timer) (arm_call.exec te) next
      (arms (next.heap.entry te).handler te (host.setTimer s next))

/-- So are those of all turns of a call of `expire_timer`. -/
def ArmsAllowedThroughout (host : timer_host κ σ) (arms : κ → Ptr → σ → List (arm_call κ))
    (s : σ) : Prop :=
  ∀ tr, Run (Turn host (current_time (host.timer s)).1) (started host s) tr →
    AllSteps (ArmsAllowed host arms (current_time (host.timer s)).1) (started host s) tr

/-- A call of `expire_timer` that reads `cur` runs the handlers of the entries that are
due, each once and in the order of their deadlines, and leaves those that are later,
as they were, and those that the handlers pushed. -/
structure Batch (timer : loop_timer κ) (cur : Nat) (fired armed : List Ptr)
    (timer' : loop_timer κ) : Prop where
  fired_due : (fired : Multiset Ptr) = due timer cur
  once : fired.Nodup
  in_order : fired.Pairwise fun p q => (timer.heap.entry p).time ≤ (timer.heap.entry q).time
  left : held timer'.heap =
    armed + (held timer.heap).filter fun p => cur < (timer.heap.entry p).time
  later_time : ∀ p ∈ held timer.heap, cur < (timer.heap.entry p).time →
    (timer'.heap.entry p).time = (timer.heap.entry p).time
  armed_later : ∀ p ∈ armed, cur < (timer'.heap.entry p).time

/-- What pushes of new entries with deadlines after `cur` leave. -/
structure Armed (timer : loop_timer κ) (cur : Nat) (armed : List Ptr) (timer' : loop_timer κ) :
    Prop where
  held_eq : held timer'.heap = armed + held timer.heap
  later : ∀ p ∈ armed, cur < (timer'.heap.entry p).time
  time : ∀ p ∈ held timer.heap, (timer'.heap.entry p).time = (timer.heap.entry p).time
  sound : Sound timer'
  clock : timer'.clock = timer.clock
  reads : timer.reads ≤ timer'.reads

/-- The clock does not go back and does not reach 2^32, and the heap is sound. -/
structure Steady (timer : loop_timer κ) : Prop where
  sound : Sound timer
  forward : Monotone timer.clock
  bound : ∀ n, timer.clock n < 4294967296

section Arm

variable {timer timer' : loop_timer κ} {cur : Nat} {own : Ptr}

theorem arm_exec_clock (c : arm_call κ) :
    (c.exec own timer).clock = timer.clock ∧ (c.exec own timer).reads = timer.reads + 1 := by
  cases c with
  | add te msec callback => exact ⟨rfl, rfl⟩
  | rearm msec => exact ⟨rfl, rfl⟩

/-- A call pushes its entry, with a deadline after its reading of the clock. -/
theorem arm_exec_armed (hs : Steady timer) (hcur : cur ≤ timer.now) {c : arm_call κ}
    (hallowed : c.Allowed own timer) : Armed timer cur [c.entry own] (c.exec own timer) := by
  obtain ⟨hnew, hpos, hbound⟩ := hallowed
  obtain ⟨hclock, hreads⟩ := @arm_exec_clock _ timer own c
  have harms : Arms timer (c.entry own) (c.after own timer) (c.exec own timer) := by
    cases c with
    | add te msec callback => exact .add callback
    | rearm msec => exact .reset msec rfl
  have hwaits := arms_waits hs.sound hnew harms
  refine ⟨?_, ?_, fun p hp => ?_, hwaits.sound, hclock, hreads ▸ Nat.le_succ _⟩
  · cases c with
    | add te msec callback => exact add_timer_held timer te msec callback
    | rearm msec => exact reset_timer_held timer own msec
  · intro p hp
    obtain rfl := List.mem_singleton.mp hp
    rw [hwaits.deadline, Nat.mod_eq_of_lt hbound]
    omega
  · have hne : p ≠ c.entry own := by
      rintro rfl
      exact hnew hp
    cases c with
    | add te msec callback => exact add_timer_time_other timer te msec callback hne
    | rearm msec => exact reset_timer_time_other timer own msec hne

theorem Armed.steady {armed : List Ptr} (h : Armed timer cur armed timer') (hs : Steady timer) :
    Steady timer' :=
  ⟨h.sound, h.clock ▸ hs.forward, h.clock ▸ hs.bound⟩

theorem Armed.now {armed : List Ptr} (h : Armed timer cur armed timer') (hs : Steady timer)
    (hcur : cur ≤ timer.now) : cur ≤ timer'.now := by
  have hforward := hs.forward h.reads
  rw [loop_timer.now, h.clock]
  exact hcur.trans hforward

theorem Armed.trans {mid : loop_timer κ} {first rest : List Ptr} (h : Armed timer cur first mid)
    (hrest : Armed mid cur rest timer') : Armed timer cur (first ++ rest) timer' := by
  refine ⟨?_, fun p hp => ?_, fun p hp => ?_, hrest.sound, hrest.clock.trans h.clock,
    h.reads.trans hrest.reads⟩
  · rw [hrest.held_eq, h.held_eq, ← Multiset.coe_add]
    abel
  · obtain hp | hp := List.mem_append.mp hp
    · have hmid : p ∈ held mid.heap := by
        rw [h.held_eq, Multiset.mem_add]
        exact .inl hp
      rw [hrest.time p hmid]
      exact h.later p hp
    · exact hrest.later p hp
  · have hmid : p ∈ held mid.heap := by
      rw [h.held_eq, Multiset.mem_add]
      exact .inr hp
    rw [hrest.time p hmid, h.time p hp]

/-- The calls of a handler push their entries one after another. -/
theorem arm_calls_armed (hs : Steady timer) (hcur : cur ≤ timer.now) {calls : List (arm_call κ)}
    (hallowed : Enabled (fun timer c => c.Allowed own timer) (arm_call.exec own) timer calls) :
    Armed timer cur (calls.map (arm_call.entry own))
      (calls.foldl (arm_call.exec own) timer) := by
  induction calls generalizing timer with
  | nil => exact ⟨(Multiset.zero_add _).symm, fun _ hp => absurd hp List.not_mem_nil,
      fun _ _ => rfl, hs.sound, rfl, Nat.le_refl _⟩
  | cons c rest ih =>
    obtain ⟨hfirst, hrest⟩ := hallowed
    have harmed := arm_exec_armed hs hcur hfirst
    exact harmed.trans (ih (harmed.steady hs) (harmed.now hs hcur) hrest)

/-- Entries that are pushed with later deadlines are not due, and the others are as before. -/
theorem Armed.due_eq {armed : List Ptr} (h : Armed timer cur armed timer') :
    due timer' cur = due timer cur := by
  have hnone : (armed : Multiset Ptr).filter (fun p => (timer'.heap.entry p).time ≤ cur) = 0 :=
    Multiset.filter_eq_nil.mpr fun p hp => Nat.not_le_of_lt (h.later p hp)
  rw [due, h.held_eq, Multiset.filter_add, hnone, Multiset.zero_add]
  exact Multiset.filter_congr fun p hp => by rw [h.time p hp]

theorem Armed.later_eq {armed : List Ptr} (h : Armed timer cur armed timer') :
    ((held timer'.heap).filter fun p => cur < (timer'.heap.entry p).time) =
      armed + (held timer.heap).filter fun p => cur < (timer.heap.entry p).time := by
  have hall : (armed : Multiset Ptr).filter (fun p => cur < (timer'.heap.entry p).time) = armed :=
    Multiset.filter_eq_self.mpr fun p hp => h.later p hp
  rw [h.held_eq, Multiset.filter_add, hall]
  exact congrArg _ (Multiset.filter_congr fun p hp => by rw [h.time p hp])

end Arm

section Loop

variable {host : timer_host κ σ} {arms : κ → Ptr → σ → List (arm_call κ)} {cur : Nat}

theorem expire_armed_none {s : σ} (h : expire_next (host.timer s) cur = none) (fuel : Nat) :
    expire_armed host arms (fuel + 1) cur s = ok ([], [], s) := by
  rw [expire_armed, expire_logged_none h]
  rfl

theorem expire_armed_turn {s s₁ : σ} {te : Ptr} {next : loop_timer κ}
    (hnext : expire_next (host.timer s) cur = some (te, next))
    (hcb : host.callback (next.heap.entry te).handler te (host.setTimer s next) = ok s₁)
    (fuel : Nat) : expire_armed host arms (fuel + 1) cur s =
      (fun x => (te :: x.1,
        (arms (next.heap.entry te).handler te (host.setTimer s next)).map (arm_call.entry te) ++
          x.2.1, x.2.2)) <$> expire_armed host arms fuel cur s₁ := by
  rw [expire_armed, expire_logged_some hnext, hcb, ok_bind, expire_armed, ← comp_map, ← comp_map]
  rfl

theorem expire_armed_fired {fuel : Nat} {s s' : σ} {fired armed : List Ptr}
    (h : expire_armed host arms fuel cur s = ok (fired, armed, s')) :
    expire_fired host fuel cur s = ok (fired, s') := by
  obtain ⟨⟨log, t⟩, hloop, heq⟩ := map_eq_ok_iff.mp h
  cases heq
  have hmap := congrArg (Functor.map fun x => (x.1.map Prod.fst, x.2)) hloop
  rwa [← expire_logged_map] at hmap

/-- The fuel of two calls that return makes no difference. -/
theorem expire_fired_unique {fuel₁ fuel₂ : Nat} {s : σ} {r₁ r₂ : List Ptr × σ}
    (h₁ : expire_fired host fuel₁ cur s = ok r₁) (h₂ : expire_fired host fuel₂ cur s = ok r₂) :
    r₁ = r₂ := by
  obtain ⟨fired₁, s₁⟩ := r₁
  obtain ⟨fired₂, s₂⟩ := r₂
  induction fuel₁ generalizing fuel₂ s fired₁ fired₂ with
  | zero => cases h₁
  | succ fuel₁ ih =>
    obtain ⟨hnone, rfl, rfl⟩ | ⟨te, t, rest, fuel, hturn, hfuel, rfl, hloop⟩ := expire_fired_cases h₁
    · obtain ⟨-, rfl, rfl⟩ | ⟨te', t', rest', -, ⟨next, hnext, -⟩, -⟩ := expire_fired_cases h₂
      · rfl
      · cases hnone.symm.trans hnext
    · cases hfuel
      obtain ⟨hnone, -⟩ | ⟨te', t', rest', fuel', hturn', -, rfl, hloop'⟩ := expire_fired_cases h₂
      · obtain ⟨next, hnext, -⟩ := hturn
        cases hnone.symm.trans hnext
      · obtain ⟨rfl, rfl⟩ := hturn.unique hturn'
        cases ih _ hloop _ hloop'
        rfl

theorem expire_next_frame {timer next : loop_timer κ} {te : Ptr}
    (h : expire_next timer cur = some (te, next)) :
    min_heap_top timer.heap = some te ∧ next.clock = timer.clock ∧ next.reads = timer.reads := by
  obtain ⟨hsize, rfl, -, rfl⟩ := expire_next_cases h
  rw [min_heap_top, if_pos hsize]
  exact ⟨rfl, rfl, rfl⟩

section Batch

variable {timer next mid timer' : loop_timer κ} {te : Ptr} {first fired armed : List Ptr}

theorem expire_next_steady (hs : Steady timer) (hnext : expire_next timer cur = some (te, next)) :
    Steady next := by
  obtain ⟨-, hclock, -⟩ := expire_next_frame hnext
  refine ⟨(expire_next_turned none hnext).sound hs.sound, ?_, ?_⟩
  · rw [hclock]
    exact hs.forward
  · rw [hclock]
    exact hs.bound

/-- The entry that is taken out was due, and the other due entries still are. -/
theorem expire_next_split (hnext : expire_next timer cur = some (te, next)) :
    due timer cur = te ::ₘ due next cur ∧
      ((held timer.heap).filter fun p => cur < (timer.heap.entry p).time) =
        (held next.heap).filter fun p => cur < (next.heap.entry p).time := by
  obtain ⟨hheld, -, -⟩ := expire_next_spec hnext
  obtain ⟨hdue, hsame, -⟩ := expire_next_due hnext
  have htime : ∀ p, (next.heap.entry p).time = (timer.heap.entry p).time := fun p => (hsame p).1
  rw [due, due, ← hheld]
  simp only [htime]
  exact ⟨Multiset.filter_cons_of_pos _ hdue,
    Multiset.filter_cons_of_neg _ (Nat.not_lt_of_le hdue)⟩

theorem Batch.none (hs : Sound timer) (hnext : expire_next timer cur = none) :
    Batch timer cur [] [] timer := by
  have hlater := expire_next_none hs.ordered hnext
  refine ⟨?_, .nil, .nil, ?_, fun _ _ _ => rfl, fun _ hp => absurd hp List.not_mem_nil⟩
  · exact (Multiset.filter_eq_nil.mpr fun p hp => Nat.not_le_of_lt (hlater p hp)).symm
  · rw [Multiset.filter_eq_self.mpr hlater]
    exact (Multiset.zero_add _).symm

theorem Batch.cons (hs : Sound timer) (hnext : expire_next timer cur = some (te, next))
    (harmed : Armed next cur first mid) (h : Batch mid cur fired armed timer') :
    Batch timer cur (te :: fired) (first ++ armed) timer' := by
  obtain ⟨hheld, -, -⟩ := expire_next_spec hnext
  obtain ⟨hdue, hsame, -⟩ := expire_next_due hnext
  obtain ⟨hsplit, hlater⟩ := expire_next_split hnext
  have hfired : ((te :: fired : List Ptr) : Multiset Ptr) = due timer cur := by
    rw [hsplit, ← harmed.due_eq, ← h.fired_due, Multiset.cons_coe]
  have htime : ∀ p ∈ held next.heap, (mid.heap.entry p).time = (timer.heap.entry p).time :=
    fun p hp => (harmed.time p hp).trans (hsame p).1
  have hmid : ∀ p ∈ held next.heap, p ∈ held mid.heap := by
    intro p hp
    rw [harmed.held_eq, Multiset.mem_add]
    exact .inr hp
  refine ⟨hfired, ?_, ?_, ?_, fun p hp hafter => ?_, fun p hp => ?_⟩
  · rw [← Multiset.coe_nodup, hfired]
    exact hs.nodup.filter _
  · refine List.Pairwise.cons (fun p hp => ?_) (h.in_order.imp_of_mem fun hp hq hle => ?_)
    · -- the top of the heap has a least deadline
      have hmem : p ∈ due timer cur := hfired ▸ List.mem_cons_of_mem te hp
      exact hs.ordered.top_minimal te (expire_next_frame hnext).1 p (mem_due.mp hmem).1
    · have hin : ∀ p ∈ fired, p ∈ held next.heap := by
        intro p hp
        have hmem : p ∈ due next cur := by
          rw [← harmed.due_eq, ← h.fired_due]
          exact hp
        exact (mem_due.mp hmem).1
      rwa [htime _ (hin _ hp), htime _ (hin _ hq)] at hle
  · rw [h.left, harmed.later_eq, hlater, ← Multiset.coe_add]
    abel
  · have hne : p ≠ te := by
      rintro rfl
      omega
    have hrest : p ∈ held next.heap := by
      rw [← hheld, Multiset.mem_cons] at hp
      exact hp.resolve_left hne
    rw [h.later_time p (hmid p hrest) (htime p hrest ▸ hafter), htime p hrest]
  · obtain hp | hp := List.mem_append.mp hp
    · have hpushed : p ∈ held mid.heap := by
        rw [harmed.held_eq, Multiset.mem_add]
        exact .inl hp
      rw [h.later_time p hpushed (harmed.later p hp)]
      exact harmed.later p hp
    · exact h.armed_later p hp

end Batch

/-- A turn pushes what its handler's calls tell. -/
theorem turn_armed (honly : ArmsOnly host arms) {s : σ} {te : Ptr} {next : loop_timer κ}
    (hs : Steady (host.timer s)) (hcur : cur ≤ (host.timer s).now)
    (hnext : expire_next (host.timer s) cur = some (te, next))
    (hallowed : ∀ s', Turn host cur s te s' → ArmsAllowed host arms cur s te s') :
    ∃ s', Turn host cur s te s' ∧
      Armed next cur ((arms (next.heap.entry te).handler te (host.setTimer s next)).map
        (arm_call.entry te)) (host.timer s') := by
  obtain ⟨s', hcb, htimer⟩ := honly.callback (next.heap.entry te).handler te (host.setTimer s next)
  have hturn : Turn host cur s te s' := ⟨next, hnext, hcb⟩
  refine ⟨s', hturn, ?_⟩
  obtain ⟨-, hclock, hreads⟩ := expire_next_frame hnext
  rw [htimer, honly.timer_set]
  apply arm_calls_armed (expire_next_steady hs hnext)
  · rw [loop_timer.now, hclock, hreads]
    exact hcur
  · exact hallowed s' hturn next hnext

/-- The loop ends, since each turn leaves one entry less that is due. -/
theorem expire_armed_batch (honly : ArmsOnly host arms) {s : σ} (hs : Steady (host.timer s))
    (hcur : cur ≤ (host.timer s).now)
    (hallowed : ∀ tr, Run (Turn host cur) s tr → AllSteps (ArmsAllowed host arms cur) s tr) :
    ∃ fuel fired armed s', expire_armed host arms fuel cur s = ok (fired, armed, s') ∧
      Batch (host.timer s) cur fired armed (host.timer s') ∧ Steady (host.timer s') := by
  induction hcard : (due (host.timer s) cur).card generalizing s with
  | zero =>
    cases hnext : expire_next (host.timer s) cur with
    | none =>
      exact ⟨1, [], [], s, expire_armed_none hnext 0, .none hs.sound hnext, hs⟩
    | some pair =>
      rw [(expire_next_split hnext).1, Multiset.card_cons] at hcard
      cases hcard
  | succ n ih =>
    cases hnext : expire_next (host.timer s) cur with
    | none =>
      exact ⟨1, [], [], s, expire_armed_none hnext 0, .none hs.sound hnext, hs⟩
    | some pair =>
      obtain ⟨te, next⟩ := pair
      obtain ⟨s₁, hturn, harmed⟩ := turn_armed honly hs hcur hnext
        fun s' hturn => (hallowed [(te, s')] (.cons hturn (.nil s'))).1
      have hsteady := expire_next_steady hs hnext
      obtain ⟨-, hclock, hreads⟩ := expire_next_frame hnext
      have hnow : cur ≤ next.now := by
        rw [loop_timer.now, hclock, hreads]
        exact hcur
      rw [(expire_next_split hnext).1, ← harmed.due_eq, Multiset.card_cons] at hcard
      obtain ⟨fuel, fired, armed, s', hloop, hbatch, hend⟩ := ih (harmed.steady hsteady)
        (harmed.now hsteady hnow) (fun tr hrun => (hallowed _ (.cons hturn hrun)).2)
        (Nat.succ.inj hcard)
      obtain ⟨next', hnext', hcb⟩ := hturn
      cases hnext.symm.trans hnext'
      refine ⟨fuel + 1, te :: fired, _, s', ?_, .cons hs.sound hnext harmed hbatch, hend⟩
      rw [expire_armed_turn hnext hcb, hloop, map_ok]

end Loop

/-- A call of `add_timer`, one of `expire_timer`, or anything else the program does. -/
inductive batch_event where
  | add
  | expire
  | other
  deriving DecidableEq

/-- The timers that the program adds are new, and its handlers arm as allowed. -/
inductive BatchStep (host : timer_host κ σ) (arms : κ → Ptr → σ → List (arm_call κ)) :
    σ → batch_event → σ → Prop
  | add {s s' : σ} {te : Ptr} {msec : Nat} {callback : κ} (hnew : te ∉ held (host.timer s).heap)
      (htimer : host.timer s' = add_timer (host.timer s) te msec callback) :
      BatchStep host arms s .add s'
  | expire {s s' : σ} {fuel : Nat} {fired : List Ptr}
      (hallowed : ArmsAllowedThroughout host arms s)
      (hcall : expire_call host fuel s = ok (fired, s')) : BatchStep host arms s .expire s'
  | other {s s' : σ} (htimer : host.timer s' = host.timer s) : BatchStep host arms s .other s'

section Runs

variable {host : timer_host κ σ} {arms : κ → Ptr → σ → List (arm_call κ)}

/-- A whole call of `expire_timer`, with its reading of the clock. -/
def armed_call (host : timer_host κ σ) (arms : κ → Ptr → σ → List (arm_call κ)) (fuel : Nat)
    (s : σ) : Result (List Ptr × List Ptr × σ) :=
  expire_armed host arms fuel (current_time (host.timer s)).1 (started host s)

theorem armed_call_batch (honly : ArmsOnly host arms) {s : σ} (hs : Steady (host.timer s))
    (hallowed : ArmsAllowedThroughout host arms s) :
    ∃ fuel fired armed s', armed_call host arms fuel s = ok (fired, armed, s') ∧
      expire_call host fuel s = ok (fired, s') ∧
      expire_timer host fuel (host.timer s).now (started host s) = ok s' ∧
      Batch (host.timer s) (host.timer s).now fired armed (host.timer s') ∧
      Steady (host.timer s') := by
  have htimer : host.timer (started host s) = (current_time (host.timer s)).2 :=
    honly.timer_set _ _
  have hcur : (current_time (host.timer s)).1 = (host.timer s).now :=
    Nat.mod_eq_of_lt (hs.bound _)
  have hstart : Steady (host.timer (started host s)) := by
    rw [htimer]
    exact ⟨⟨hs.sound.ordered, hs.sound.nodup⟩, hs.forward, hs.bound⟩
  have hnow : (current_time (host.timer s)).1 ≤ (host.timer (started host s)).now := by
    rw [hcur, htimer]
    exact hs.forward (Nat.le_succ _)
  obtain ⟨fuel, fired, armed, s', hloop, hbatch, hend⟩ :=
    expire_armed_batch honly hstart hnow hallowed
  have hfired := expire_armed_fired hloop
  refine ⟨fuel, fired, armed, s', hloop, hfired, ?_, ?_, hend⟩
  · rw [← hcur, expire_timer_eq fuel]
    exact congrArg (Functor.map Prod.snd) hfired
  · rw [htimer, hcur] at hbatch
    exact ⟨hbatch.fired_due, hbatch.once, hbatch.in_order, hbatch.left, hbatch.later_time,
      hbatch.armed_later⟩

theorem batchStep_steady (honly : ArmsOnly host arms) {s s' : σ} {e : batch_event}
    (hs : Steady (host.timer s)) (hstep : BatchStep host arms s e s') : Steady (host.timer s') := by
  cases hstep with
  | add hnew htimer =>
    rw [htimer]
    exact ⟨(arms_waits hs.sound hnew (.add _)).sound, hs.forward, hs.bound⟩
  | expire hallowed hcall =>
    obtain ⟨fuel, fired, armed, t, -, hfired, -, -, hend⟩ := armed_call_batch honly hs hallowed
    cases expire_fired_unique hfired hcall
    exact hend
  | other htimer =>
    rw [htimer]
    exact hs

end Runs

/-- After any calls of `add_timer` and `expire_timer` on a heap that was empty, the next call
of `expire_timer` returns and runs one batch. -/
theorem expire_timer_runs_batch {host : timer_host κ σ}
    {arms : κ → Ptr → σ → List (arm_call κ)} (honly : ArmsOnly host arms) {s₀ : σ}
    (hempty : (host.timer s₀).heap.size = 0) (hforward : Monotone (host.timer s₀).clock)
    (hbound : ∀ n, (host.timer s₀).clock n < 4294967296) {tr : List (batch_event × σ)}
    (hrun : Run (BatchStep host arms) s₀ tr)
    (hallowed : ArmsAllowedThroughout host arms (endState s₀ tr)) :
    ∃ fuel fired armed s', armed_call host arms fuel (endState s₀ tr) = ok (fired, armed, s') ∧
      expire_call host fuel (endState s₀ tr) = ok (fired, s') ∧
      expire_timer host fuel (host.timer (endState s₀ tr)).now (started host (endState s₀ tr)) =
        ok s' ∧
      Batch (host.timer (endState s₀ tr)) (host.timer (endState s₀ tr)).now fired armed
        (host.timer s') := by
  have hstart : Steady (host.timer s₀) := by
    refine ⟨⟨fun i _ hi => ?_, ?_⟩, hforward, hbound⟩
    · rw [hempty] at hi
      exact absurd hi (Nat.not_lt_zero i)
    · rw [held, hempty]
      exact Multiset.nodup_zero
  have hend : Steady (host.timer (endState s₀ tr)) :=
    Run.endState_invariant (J := fun s => Steady (host.timer s))
      (fun hs hstep => batchStep_steady honly hs hstep) hstart hrun
  obtain ⟨fuel, fired, armed, s', hloop, hcall, htimer, hbatch, -⟩ :=
    armed_call_batch honly hend hallowed
  exact ⟨fuel, fired, armed, s', hloop, hcall, htimer, hbatch⟩

/-- A handler that resets its timer with the same interval, and adds another timer with it. -/
def spawning : timer_host Unit (loop_timer Unit) where
  timer := id
  setTimer _ timer := timer
  callback _ te timer := ok (add_timer (reset_timer timer te 0) (te + 10) 700 ())

def spawning_arms (_ : Unit) (te : Ptr) (_ : loop_timer Unit) : List (arm_call Unit) :=
  [.rearm 0, .add (te + 10) 700 ()]

theorem spawning_armsOnly : ArmsOnly spawning spawning_arms :=
  ⟨fun _ _ => rfl, fun _ te timer =>
    ⟨add_timer (reset_timer timer te 0) (te + 10) 700 (), rfl, rfl⟩⟩

def no_timers : loop_timer Unit where
  heap := empty_heap fun _ => ()
  clock n := if n < 2 then 1000 else 5000
  reads := 0

/-- Two timers with deadlines 6000 and 4000. -/
def two_timers : loop_timer Unit := add_timer (add_timer no_timers 1 5000 ()) 2 3000 ()

theorem two_timers_armsAllowed : ArmsAllowedThroughout spawning spawning_arms two_timers := by
  have hcalls : ∀ x ∈ expire_next (current_time two_timers).2 5000,
      Enabled (fun timer c => c.Allowed x.1 timer) (arm_call.exec x.1) x.2
        (spawning_arms () x.1 x.2) := by
    simp only [spawning_arms, Enabled, arm_call.Allowed]
    decide +kernel
  have hlast : ∀ x ∈ expire_next (current_time two_timers).2 5000,
      expire_next (add_timer (reset_timer x.2 x.1 0) (x.1 + 10) 700 ()) 5000 |>.isNone := by
    decide +kernel
  intro tr hrun
  cases hrun with
  | nil => exact trivial
  | cons hturn hrest =>
    obtain ⟨next, hnext, hcb⟩ := hturn
    cases hcb
    refine ⟨fun next' hnext' => ?_, ?_⟩
    · exact hcalls _ hnext'
    · cases hrest with
      | nil => exact trivial
      | cons hturn _ =>
        obtain ⟨next', hnext', -⟩ := hturn
        have hnone := Option.isNone_iff_eq_none.mp (hlast _ hnext)
        cases hnone.symm.trans hnext'

theorem two_timers_run_batch :
    ∃ fuel fired armed s',
      armed_call spawning spawning_arms fuel two_timers = ok (fired, armed, s') ∧
        expire_call spawning fuel two_timers = ok (fired, s') ∧
        expire_timer spawning fuel two_timers.now (started spawning two_timers) = ok s' ∧
        Batch two_timers 5000 fired armed s' := by
  have hclock : Monotone no_timers.clock := by
    intro m n hmn
    change (if m < 2 then 1000 else 5000) ≤ if n < 2 then 1000 else 5000
    split <;> split <;> omega
  have hbound : ∀ n, no_timers.clock n < 4294967296 := by
    intro n
    change (if n < 2 then 1000 else 5000) < 4294967296
    split <;> omega
  exact expire_timer_runs_batch spawning_armsOnly rfl hclock hbound
    (.cons (.add (by decide +kernel) rfl) (.cons (.add (by decide +kernel) rfl) (.nil two_timers)))
    two_timers_armsAllowed

end easymesh.mh_timer
