import Easymesh.Timer.MhTimer

open Lib Lib.Result

namespace easymesh.mh_timer

open easymesh.minheap

variable {κ σ : Type}

/-- `expire_timer`, with the entries whose handlers it runs, in that order. -/
def expire_fired (host : timer_host κ σ) (fuel cur : Nat) (s : σ) : Result (List Ptr × σ) :=
  expire_logged host (fun _ te _ => te) fuel cur s

/-- The state of the loop in `expire_timer` after its reading of the clock. -/
def started (host : timer_host κ σ) (s : σ) : σ :=
  host.setTimer s (current_time (host.timer s)).2

/-- A whole call of `expire_timer`, with its reading of the clock. -/
def expire_call (host : timer_host κ σ) (fuel : Nat) (s : σ) : Result (List Ptr × σ) :=
  expire_fired host fuel (current_time (host.timer s)).1 (started host s)

/-- The handlers return, and touch the timers only by resetting their own, with
the `msec` that `rearm` tells. -/
structure OwnTimer (host : timer_host κ σ) (rearm : κ → Ptr → σ → Option Nat) : Prop where
  timer_set : ∀ s timer, host.timer (host.setTimer s timer) = timer
  callback : ∀ handler te s, ∃ s', host.callback handler te s = ok s' ∧
    host.timer s' = (rearm handler te s).elim (host.timer s) (reset_timer (host.timer s) te)

/-- One turn of the loop in `expire_timer`. -/
def Turn (host : timer_host κ σ) (cur : Nat) (s : σ) (te : Ptr) (s' : σ) : Prop :=
  ∃ timer, expire_next (host.timer s) cur = some (te, timer) ∧
    host.callback (timer.heap.entry te).handler te (host.setTimer s timer) = ok s'

/-- When the handler resets its timer, the new deadline, cut to 32 bits, is after
the clock value that the loop compares with. -/
def RearmsLater (host : timer_host κ σ) (rearm : κ → Ptr → σ → Option Nat) (cur : Nat)
    (s : σ) (te : Ptr) (_ : σ) : Prop :=
  ∀ timer msec, expire_next (host.timer s) cur = some (te, timer) →
    rearm (timer.heap.entry te).handler te (host.setTimer s timer) = some msec →
    cur < ((host.timer s).clock (host.timer s).reads + delay (host.timer s) te msec) % 4294967296

/-- The heap is ordered by deadline and holds no entry twice. -/
structure Sound (timer : loop_timer κ) : Prop where
  ordered : HeapOrdered timer.heap
  nodup : (held timer.heap).Nodup

/-- What a turn that takes out `te` leaves, where the handler resets `te` with
the delay `armed`. -/
structure Turned (timer : loop_timer κ) (cur : Nat) (te : Ptr) (armed : Option Nat)
    (timer' : loop_timer κ) : Prop where
  was_due : (timer.heap.entry te).time ≤ cur
  taken : ∃ rest, held timer.heap = te ::ₘ rest ∧
    held timer'.heap = if armed.isSome then te ::ₘ rest else rest
  time : ∀ p, p ≠ te → (timer'.heap.entry p).time = (timer.heap.entry p).time
  deadline : ∀ msec, armed = some msec →
    (timer'.heap.entry te).time = (timer.clock timer.reads + msec) % 4294967296
  sound : Sound timer → Sound timer'

section Turns

variable {host : timer_host κ σ} {rearm : κ → Ptr → σ → Option Nat} {cur : Nat}

theorem expire_next_turned {timer next : loop_timer κ} {te : Ptr} (armed : Option Nat)
    (hnext : expire_next timer cur = some (te, next)) :
    Turned timer cur te (armed.map (delay timer te)) (armed.elim next (reset_timer next te)) := by
  obtain ⟨hheld, hord, _⟩ := expire_next_spec hnext
  obtain ⟨hdue, hsame, hclock⟩ := expire_next_due hnext
  cases armed with
  | none =>
    refine ⟨hdue, ⟨_, hheld.symm, rfl⟩, fun p _ => (hsame p).1, nofun, fun hs => ⟨hord hs.ordered, ?_⟩⟩
    exact (Multiset.nodup_cons.mp (hheld ▸ hs.nodup)).2
  | some msec =>
    have hdelay : delay next te msec = delay timer te msec := by
      rw [delay, (hsame te).2.1, delay]
    refine ⟨hdue, ⟨_, hheld.symm, reset_timer_held next te msec⟩, fun p hp => ?_,
      fun d hd => ?_, fun hs => ⟨?_, ?_⟩⟩
    · exact (reset_timer_time_other next te msec hp).trans (hsame p).1
    · cases hd
      apply (reset_timer_time next te msec).trans
      rw [hdelay, hclock]
    · have hnew := (Multiset.nodup_cons.mp (hheld ▸ hs.nodup)).1
      exact reset_timer_ordered next te msec hnew (hord hs.ordered)
    · change (held (reset_timer next te msec).heap).Nodup
      rw [reset_timer_held, hheld]
      exact hs.nodup

/-- The loop goes on after each turn, with the heap that the handler leaves. -/
theorem turn_of_next (hown : OwnTimer host rearm) {s : σ} {te : Ptr} {next : loop_timer κ}
    (hnext : expire_next (host.timer s) cur = some (te, next)) :
    ∃ s', Turn host cur s te s' ∧
      Turned (host.timer s) cur te
        ((rearm (next.heap.entry te).handler te (host.setTimer s next)).map
          (delay (host.timer s) te))
        (host.timer s') := by
  obtain ⟨s', hcb, htimer⟩ :=
    hown.callback (next.heap.entry te).handler te (host.setTimer s next)
  rw [hown.timer_set] at htimer
  refine ⟨s', ⟨next, hnext, hcb⟩, ?_⟩
  rw [htimer]
  exact expire_next_turned _ hnext

theorem Turn.unique {s s₁ s₂ : σ} {te₁ te₂ : Ptr} (h₁ : Turn host cur s te₁ s₁)
    (h₂ : Turn host cur s te₂ s₂) : te₁ = te₂ ∧ s₁ = s₂ := by
  obtain ⟨next₁, hnext₁, hcb₁⟩ := h₁
  obtain ⟨next₂, hnext₂, hcb₂⟩ := h₂
  cases hnext₁.symm.trans hnext₂
  cases hcb₁.symm.trans hcb₂
  exact ⟨rfl, rfl⟩

theorem expire_fired_none {s : σ} (h : expire_next (host.timer s) cur = none) (fuel : Nat) :
    expire_fired host (fuel + 1) cur s = ok ([], s) :=
  expire_logged_none h fuel

/-- A turn that returns comes first, and then what the rest of the loop does. -/
theorem expire_fired_turn {s s₁ : σ} {te : Ptr} (h : Turn host cur s te s₁) (fuel : Nat) :
    expire_fired host (fuel + 1) cur s =
      (fun x => (te :: x.1, x.2)) <$> expire_fired host fuel cur s₁ := by
  obtain ⟨next, hnext, hcb⟩ := h
  rw [expire_fired, expire_logged_some hnext, hcb, ok_bind]
  rfl

/-- A call that returns made no turn, or one and what the rest of the loop does. -/
theorem expire_fired_cases {fuel : Nat} {s s' : σ} {fired : List Ptr}
    (h : expire_fired host fuel cur s = ok (fired, s')) :
    (expire_next (host.timer s) cur = none ∧ fired = [] ∧ s' = s) ∨
      ∃ te s₁ rest fuel', Turn host cur s te s₁ ∧ fuel = fuel' + 1 ∧ fired = te :: rest ∧
        expire_fired host fuel' cur s₁ = ok (rest, s') := by
  cases fuel with
  | zero => cases h
  | succ fuel =>
    cases hnext : expire_next (host.timer s) cur with
    | none =>
      rw [expire_fired_none hnext] at h
      cases h
      exact .inl ⟨rfl, rfl, rfl⟩
    | some pair =>
      obtain ⟨te, next⟩ := pair
      rw [expire_fired, expire_logged_some hnext] at h
      obtain ⟨s₁, hcb, hrest⟩ := bind_eq_ok_iff.mp h
      obtain ⟨⟨rest, s₂⟩, hloop, heq⟩ := map_eq_ok_iff.mp hrest
      cases heq
      exact .inr ⟨te, s₁, rest, fuel, ⟨next, hnext, hcb⟩, rfl, rfl, hloop⟩

/-- The entries of the heap whose deadline is not after `cur`. -/
def due (timer : loop_timer κ) (cur : Nat) : Multiset Ptr :=
  (held timer.heap).filter fun p => (timer.heap.entry p).time ≤ cur

theorem mem_due {timer : loop_timer κ} {p : Ptr} :
    p ∈ due timer cur ↔ p ∈ held timer.heap ∧ (timer.heap.entry p).time ≤ cur :=
  Multiset.mem_filter

section Turned

variable {timer timer' : loop_timer κ} {te : Ptr} {armed : Option Nat}

theorem Turned.held_other (h : Turned timer cur te armed timer') {p : Ptr} (hp : p ≠ te) :
    p ∈ held timer'.heap ↔ p ∈ held timer.heap := by
  obtain ⟨rest, hbefore, hafter⟩ := h.taken
  rw [hbefore, hafter]
  split
  · rfl
  · simp [hp]

/-- A turn leaves the other due entries due, and only those when it resets its
own entry to a later deadline. -/
theorem Turned.due_other (h : Turned timer cur te armed timer') {p : Ptr} (hp : p ≠ te) :
    p ∈ due timer' cur ↔ p ∈ due timer cur := by
  rw [mem_due, mem_due, h.held_other hp, h.time p hp]

theorem Turned.due_cons (h : Turned timer cur te armed timer') (hs : Sound timer)
    (hlater : ∀ msec, armed = some msec →
      cur < (timer.clock timer.reads + msec) % 4294967296) :
    due timer cur = te ::ₘ due timer' cur := by
  obtain ⟨rest, hbefore, hafter⟩ := h.taken
  have hnew : te ∉ rest := (Multiset.nodup_cons.mp (hbefore ▸ hs.nodup)).1
  have hrest : rest.filter (fun p => (timer.heap.entry p).time ≤ cur) =
      rest.filter fun p => (timer'.heap.entry p).time ≤ cur := by
    apply Multiset.filter_congr
    intro p hp
    rw [h.time p fun heq => hnew (heq ▸ hp)]
  have hfirst : (te ::ₘ rest).filter (fun p => (timer.heap.entry p).time ≤ cur) =
      te ::ₘ rest.filter fun p => (timer'.heap.entry p).time ≤ cur := by
    rw [← hrest]
    exact Multiset.filter_cons_of_pos rest h.was_due
  rw [due, due, hbefore, hafter, hfirst]
  cases armed with
  | none => rfl
  | some msec =>
    have hnot : ¬ (timer'.heap.entry te).time ≤ cur := by
      rw [h.deadline msec rfl]
      exact Nat.not_le_of_lt (hlater msec rfl)
    have hskip : (te ::ₘ rest).filter (fun p => (timer'.heap.entry p).time ≤ cur) =
        rest.filter fun p => (timer'.heap.entry p).time ≤ cur :=
      Multiset.filter_cons_of_neg rest hnot
    exact congrArg _ hskip.symm

/-- An entry whose new deadline is not after `cur` is due again. -/
theorem Turned.due_again (h : Turned timer cur te armed timer') {msec : Nat}
    (harmed : armed = some msec)
    (hearly : (timer.clock timer.reads + msec) % 4294967296 ≤ cur) : te ∈ due timer' cur := by
  obtain ⟨rest, _, hafter⟩ := h.taken
  refine mem_due.mpr ⟨?_, (h.deadline msec harmed).trans_le hearly⟩
  rw [hafter, harmed]
  exact Multiset.mem_cons_self te rest

end Turned

/-- What a turn does, with the delay of the reset that the handler makes. -/
theorem Turn.turned (hown : OwnTimer host rearm) {s s' : σ} {te : Ptr} (h : Turn host cur s te s') :
    ∃ armed, Turned (host.timer s) cur te armed (host.timer s') ∧
      (RearmsLater host rearm cur s te s' ↔ ∀ msec, armed = some msec →
        cur < ((host.timer s).clock (host.timer s).reads + msec) % 4294967296) := by
  obtain ⟨next, hnext, hcb⟩ := h
  obtain ⟨s₁, hturn, hturned⟩ := turn_of_next hown hnext
  obtain ⟨-, rfl⟩ := hturn.unique ⟨next, hnext, hcb⟩
  refine ⟨_, hturned, ?_⟩
  constructor
  · intro hlater d hd
    obtain ⟨msec, hmsec, rfl⟩ := Option.map_eq_some_iff.mp hd
    exact hlater next msec hnext hmsec
  · intro hlater next' msec hnext' hmsec
    cases hnext.symm.trans hnext'
    exact hlater _ (by rw [hmsec, Option.map_some])

/-- A call that returns has fired every entry that was due when it began. -/
theorem expire_fired_due (hown : OwnTimer host rearm) {fuel : Nat} {s s' : σ} {fired : List Ptr}
    (hs : Sound (host.timer s)) (h : expire_fired host fuel cur s = ok (fired, s')) {p : Ptr}
    (hp : p ∈ due (host.timer s) cur) : p ∈ fired := by
  induction fuel generalizing s fired with
  | zero => cases h
  | succ fuel ih =>
    obtain ⟨hnext, -, -⟩ | ⟨te, s₁, rest, fuel', hturn, hfuel, rfl, hloop⟩ := expire_fired_cases h
    · obtain ⟨hheld, htime⟩ := mem_due.mp hp
      have hlater := expire_next_none hs.ordered hnext p hheld
      omega
    · cases hfuel
      obtain ⟨armed, hturned, -⟩ := hturn.turned hown
      by_cases hpte : p = te
      · exact hpte ▸ List.mem_cons_self
      · have hdue := (hturned.due_other hpte).mpr hp
        exact List.mem_cons_of_mem te (ih (hturned.sound hs) hloop hdue)

/-- An entry that is not due when a call begins waits it out, with its deadline. -/
theorem expire_fired_waits (hown : OwnTimer host rearm) {fuel : Nat} {s s' : σ} {fired : List Ptr}
    (hs : Sound (host.timer s)) (h : expire_fired host fuel cur s = ok (fired, s')) {p : Ptr}
    (hp : p ∈ held (host.timer s).heap) (hlater : cur < ((host.timer s).heap.entry p).time) :
    p ∉ fired ∧ p ∈ held (host.timer s').heap ∧ Sound (host.timer s') ∧
      ((host.timer s').heap.entry p).time = ((host.timer s).heap.entry p).time := by
  induction fuel generalizing s fired with
  | zero => cases h
  | succ fuel ih =>
    obtain ⟨-, rfl, rfl⟩ | ⟨te, s₁, rest, fuel', hturn, hfuel, rfl, hloop⟩ := expire_fired_cases h
    · exact ⟨List.not_mem_nil, hp, hs, rfl⟩
    · cases hfuel
      obtain ⟨armed, hturned, -⟩ := hturn.turned hown
      have hne : p ≠ te := by
        rintro rfl
        exact absurd hturned.was_due (Nat.not_le_of_lt hlater)
      have htime := hturned.time p hne
      obtain ⟨hrest, hheld, hsound, hsame⟩ := ih (hturned.sound hs) hloop
        ((hturned.held_other hne).mpr hp) (by rwa [htime])
      exact ⟨List.not_mem_cons_of_ne_of_not_mem hne hrest, hheld, hsound, hsame.trans htime⟩

/-- A call that fires no entry twice made only turns that reset to later deadlines. -/
theorem expire_fired_rearmsLater (hown : OwnTimer host rearm) {fuel : Nat} {s s' : σ}
    {fired : List Ptr} (hs : Sound (host.timer s))
    (h : expire_fired host fuel cur s = ok (fired, s')) (honce : fired.Nodup)
    {tr : List (Ptr × σ)} (hrun : Run (Turn host cur) s tr) :
    AllSteps (RearmsLater host rearm cur) s tr := by
  induction hrun generalizing fuel fired with
  | nil s => exact trivial
  | cons hturn _ ih =>
    obtain ⟨hnext, -, -⟩ | ⟨te, s₁, rest, fuel', hfirst, -, rfl, hloop⟩ := expire_fired_cases h
    · obtain ⟨next, hsome, -⟩ := hturn
      cases hnext.symm.trans hsome
    · obtain ⟨rfl, rfl⟩ := hfirst.unique hturn
      obtain ⟨armed, hturned, hiff⟩ := hturn.turned hown
      have hnew := hturned.sound hs
      refine ⟨hiff.mpr fun msec harmed => ?_, ih hnew hloop honce.of_cons⟩
      by_contra hnot
      -- the entry that was just fired is due again, so the rest of the call fires it
      have hagain := hturned.due_again harmed (Nat.le_of_not_lt hnot)
      exact (List.nodup_cons.mp honce).1 (expire_fired_due hown hnew hloop hagain)

/-- A loop whose turns all reset to later deadlines ends, having fired exactly
the entries that were due. The measure is the number of due entries. -/
theorem expire_fired_of_rearmsLater (hown : OwnTimer host rearm) {s : σ}
    (hs : Sound (host.timer s))
    (hlater : ∀ tr, Run (Turn host cur) s tr → AllSteps (RearmsLater host rearm cur) s tr) :
    ∃ fuel fired s', expire_fired host fuel cur s = ok (fired, s') ∧
      (fired : Multiset Ptr) = due (host.timer s) cur := by
  induction hcard : (due (host.timer s) cur).card generalizing s with
  | zero =>
    have hdue : due (host.timer s) cur = 0 := Multiset.card_eq_zero.mp hcard
    cases hnext : expire_next (host.timer s) cur with
    | none => exact ⟨1, [], s, expire_fired_none hnext 0, hdue.symm⟩
    | some pair =>
      have hmem : pair.1 ∈ due (host.timer s) cur :=
        mem_due.mpr ⟨(expire_next_spec hnext).1 ▸ Multiset.mem_cons_self _ _,
          (expire_next_due hnext).1⟩
      rw [hdue] at hmem
      exact absurd hmem (Multiset.notMem_zero _)
  | succ n ih =>
    cases hnext : expire_next (host.timer s) cur with
    | none =>
      have hpos : 0 < (due (host.timer s) cur).card := hcard.symm ▸ Nat.succ_pos n
      obtain ⟨p, hp⟩ := Multiset.card_pos_iff_exists_mem.mp hpos
      obtain ⟨hheld, htime⟩ := mem_due.mp hp
      exact absurd htime (Nat.not_le_of_lt (expire_next_none hs.ordered hnext p hheld))
    | some pair =>
      obtain ⟨te, next⟩ := pair
      obtain ⟨s₁, hturn, -⟩ := turn_of_next hown hnext
      obtain ⟨armed, hturned, hiff⟩ := hturn.turned hown
      have hfirst : RearmsLater host rearm cur s te s₁ :=
        (hlater [(te, s₁)] (.cons hturn (.nil s₁))).1
      have hcons := hturned.due_cons hs (hiff.mp hfirst)
      rw [hcons, Multiset.card_cons] at hcard
      obtain ⟨fuel, fired, s', hloop, hfired⟩ := ih (hturned.sound hs)
        (fun tr hrun => (hlater ((te, s₁) :: tr) (.cons hturn hrun)).2) (Nat.succ.inj hcard)
      refine ⟨fuel + 1, te :: fired, s', ?_, ?_⟩
      · rw [expire_fired_turn hturn, hloop, map_ok]
      · rw [hcons, ← hfired, Multiset.cons_coe]

end Turns

section Call

variable (host : timer_host κ σ) (s : σ)

/-- The call of `expire_timer` returns, and has run the handler of each entry at
most once. -/
def ReturnsOnce : Prop :=
  ∃ fuel fired s', expire_call host fuel s = ok (fired, s') ∧ fired.Nodup

/-- The turns of the call all reset to deadlines after the clock value that it
read first. -/
def RearmsLaterThroughout (rearm : κ → Ptr → σ → Option Nat) : Prop :=
  ∀ tr, Run (Turn host (current_time (host.timer s)).1) (started host s) tr →
    AllSteps (RearmsLater host rearm (current_time (host.timer s)).1) (started host s) tr

end Call

/-- A call of `expire_timer` ends, having fired each entry at most once, exactly
when no handler resets its timer to a deadline that, cut to 32 bits, is not after
the clock value that the call began with. -/
theorem expire_timer_returns_once_iff {host : timer_host κ σ} {rearm : κ → Ptr → σ → Option Nat}
    (hown : OwnTimer host rearm) {s : σ} (hs : Sound (host.timer s)) :
    ReturnsOnce host s ↔ RearmsLaterThroughout host s rearm := by
  have htimer : host.timer (started host s) = (current_time (host.timer s)).2 := hown.timer_set _ _
  have hstart : Sound (host.timer (started host s)) := by
    rw [htimer]
    exact ⟨hs.ordered, hs.nodup⟩
  constructor
  · rintro ⟨fuel, fired, s', hcall, honce⟩ tr hrun
    exact expire_fired_rearmsLater hown hstart hcall honce hrun
  · intro hlater
    obtain ⟨fuel, fired, s', hcall, hfired⟩ := expire_fired_of_rearmsLater hown hstart hlater
    refine ⟨fuel, fired, s', hcall, ?_⟩
    rw [← Multiset.coe_nodup, hfired]
    exact hstart.nodup.filter _

instance (timer : loop_timer κ) : Decidable (Sound timer) :=
  decidable_of_iff (HeapOrdered timer.heap ∧ (held timer.heap).Nodup)
    ⟨fun h => ⟨h.1, h.2⟩, fun h => ⟨h.ordered, h.nodup⟩⟩

/-- A program whose handler resets its timer with the same interval again, as
`send_discovery_perodic` does. -/
def discovery : timer_host Unit (loop_timer Unit) where
  timer := id
  setTimer _ timer := timer
  callback _ te timer := ok (reset_timer timer te 0)

theorem discovery_ownTimer : OwnTimer discovery fun _ _ _ => some 0 :=
  ⟨fun _ _ => rfl, fun _ te timer => ⟨reset_timer timer te 0, rfl, rfl⟩⟩

/-- A loop with one timer, which was added with an interval of 5000 at the first
reading of the clock. -/
def one_timer (clock : Nat → Nat) : loop_timer Unit :=
  add_timer { heap := empty_heap fun _ => (), clock, reads := 0 } 1 5000 ()

theorem returns_once_five_seconds :
    ReturnsOnce discovery (one_timer fun n => 1000 + 5000 * n) ∧
      RearmsLaterThroughout discovery (one_timer fun n => 1000 + 5000 * n) fun _ _ _ => some 0 := by
  have hreturns : ReturnsOnce discovery (one_timer fun n => 1000 + 5000 * n) := by
    have hcall : Prod.fst <$> expire_call discovery 2 (one_timer fun n => 1000 + 5000 * n) =
        ok [1] := by decide +kernel
    obtain ⟨⟨fired, s'⟩, hcall, rfl⟩ := map_eq_ok_iff.mp hcall
    exact ⟨2, [1], s', hcall, by decide⟩
  exact ⟨hreturns, (expire_timer_returns_once_iff discovery_ownTimer (by decide +kernel)).mp hreturns⟩

/-- The timer is due 1 ms before the clock wraps, and reset when it has wrapped:
the new deadline is 5000, which is long past for the call. -/
def wrapping : loop_timer Unit := one_timer fun n => if n = 0 then 4294962295 else 4294967294 + n

theorem wrapping_fires_again :
    Monotone wrapping.clock ∧ Sound wrapping ∧ ¬ ReturnsOnce discovery wrapping := by
  refine ⟨fun m n hmn => ?_, by decide +kernel, ?_⟩
  · change (if m = 0 then _ else _) ≤ if n = 0 then _ else _
    split <;> split <;> omega
  · rintro ⟨fuel, fired, s', hcall, honce⟩
    have hfirst : (expire_next (started discovery wrapping) 4294967295).map Prod.fst = some 1 := by
      decide +kernel
    obtain ⟨⟨te, next⟩, hnext, rfl⟩ := Option.map_eq_some_iff.mp hfirst
    obtain ⟨s₁, hturn, -⟩ := turn_of_next discovery_ownTimer hnext
    have hlater := expire_fired_rearmsLater discovery_ownTimer (by decide +kernel) hcall honce
      (.cons hturn (.nil s₁))
    have hdeadline := hlater.1 next 0 hnext rfl
    revert hdeadline
    decide +kernel

end easymesh.mh_timer
