import Easymesh.Timer.Expire

open Lib Lib.Result

namespace easymesh.mh_timer

open easymesh.minheap

variable {κ σ : Type}

/-- The calls that arm entry `te` to fire after `msec` milliseconds. -/
inductive Arms (timer : loop_timer κ) (te : Ptr) (msec : Nat) : loop_timer κ → Prop
  | add (callback : κ) : Arms timer te msec (add_timer timer te msec callback)
  | reset (arg : Nat) (hdelay : delay timer te arg = msec) :
      Arms timer te msec (reset_timer timer te arg)

/-- Entry `te` waits in the heap with deadline `time`. -/
structure Waits (te : Ptr) (time : Nat) (timer : loop_timer κ) : Prop where
  sound : Sound timer
  inside : te ∈ held timer.heap
  deadline : (timer.heap.entry te).time = time

/-- What happens to a program after a timer was armed: calls of `expire_timer`
that return, given by what they fire, and anything else. -/
inductive loop_event where
  | expire (fired : List Ptr)
  | other
  deriving DecidableEq

/-- The clock in milliseconds, not cut to 32 bits, at its next reading. -/
def loop_timer.now (timer : loop_timer κ) : Nat := timer.clock timer.reads

/-- The calls of `expire_timer` come within 2^31 ms of the arming at `since`. What
else the program does leaves the entry `te` in the heap, with its deadline. -/
inductive LoopStep (host : timer_host κ σ) (te : Ptr) (since : Nat) : σ → loop_event → σ → Prop
  | expire {s s' : σ} {fuel : Nat} {fired : List Ptr} (hafter : since ≤ (host.timer s).now)
      (hwithin : (host.timer s).now ≤ since + 2147483648)
      (hcall : expire_call host fuel s = ok (fired, s')) : LoopStep host te since s (.expire fired) s'
  | other {s s' : σ}
      (hkeep : ∀ time, Waits te time (host.timer s) → Waits te time (host.timer s')) :
      LoopStep host te since s .other s'

/-- Whether the entry has not fired yet after the event. -/
def still_waits (te : Ptr) (waits : Bool) (_ : σ) (e : loop_event) (_ : σ) : Bool :=
  match e with
  | .expire fired => waits && !fired.contains te
  | .other => waits

/-- While the entry waits, a call of `expire_timer` fires it if and only if the
`msec` milliseconds have elapsed. -/
def FiresOnTime (host : timer_host κ σ) (te : Ptr) (since msec : Nat) (waits : Bool) (s : σ)
    (e : loop_event) (_ : σ) : Prop :=
  ∀ fired, e = .expire fired → waits = true →
    (te ∈ fired ↔ since + msec ≤ (host.timer s).now)

/-- While the entry waits, the clock at a call of `expire_timer` has wrapped as
often as the deadline. -/
def SameWrap (host : timer_host κ σ) (since msec : Nat) (waits : Bool) (s : σ) (e : loop_event)
    (_ : σ) : Prop :=
  ∀ fired, e = .expire fired → waits = true →
    (host.timer s).now / 4294967296 = (since + msec) / 4294967296

/-- Two times less than 2^31 ms and a bit apart compare in 32 bits as they do in
full exactly when they have wrapped equally often. -/
theorem wrapped_le_iff {since msec now : Nat} (hmsec : msec < 2147483648) (hafter : since ≤ now)
    (hwithin : now ≤ since + 2147483648) :
    (((since + msec) % 4294967296 ≤ now % 4294967296) ↔ since + msec ≤ now) ↔
      now / 4294967296 = (since + msec) / 4294967296 := by
  omega

section Armed

variable {timer timer' : loop_timer κ} {te : Ptr} {msec : Nat}

theorem arms_waits (hs : Sound timer) (hnew : te ∉ held timer.heap) (h : Arms timer te msec timer') :
    Waits te ((timer.now + msec) % 4294967296) timer' := by
  cases h with
  | add callback =>
    have hheld := add_timer_held timer te msec callback
    refine ⟨⟨add_timer_ordered timer te msec callback hnew hs.ordered, ?_⟩, ?_,
      add_timer_time timer te msec callback⟩
    · rw [hheld]
      exact Multiset.nodup_cons.mpr ⟨hnew, hs.nodup⟩
    · rw [hheld]
      exact Multiset.mem_cons_self te _
  | reset arg hdelay =>
    have hheld := reset_timer_held timer te arg
    refine ⟨⟨reset_timer_ordered timer te arg hnew hs.ordered, ?_⟩, ?_, ?_⟩
    · rw [hheld]
      exact Multiset.nodup_cons.mpr ⟨hnew, hs.nodup⟩
    · rw [hheld]
      exact Multiset.mem_cons_self te _
    · rw [reset_timer_time, hdelay, loop_timer.now]

/-- Arming another entry leaves the waiting one as it was. -/
theorem Waits.arms {time : Nat} {p : Ptr} (hw : Waits te time timer) (hnew : p ∉ held timer.heap)
    (h : Arms timer p msec timer') : Waits te time timer' := by
  have hne : te ≠ p := fun heq => hnew (heq ▸ hw.inside)
  refine ⟨(arms_waits hw.sound hnew h).sound, ?_, ?_⟩
  · cases h with
    | add callback =>
      rw [add_timer_held]
      exact Multiset.mem_cons_of_mem hw.inside
    | reset arg hdelay =>
      rw [reset_timer_held]
      exact Multiset.mem_cons_of_mem hw.inside
  · cases h with
    | add callback => exact (add_timer_time_other timer p msec callback hne).trans hw.deadline
    | reset arg hdelay => exact (reset_timer_time_other timer p arg hne).trans hw.deadline

end Armed

section Calls

variable {host : timer_host κ σ} {rearm : κ → Ptr → σ → Option Nat} {te : Ptr} {time : Nat}

/-- A call of `expire_timer` fires a waiting entry exactly when its deadline is not
after the clock value, both cut to 32 bits; if it does not, the entry waits on. -/
theorem expire_call_waits (hown : OwnTimer host rearm) {fuel : Nat} {s s' : σ} {fired : List Ptr}
    (hw : Waits te time (host.timer s)) (h : expire_call host fuel s = ok (fired, s')) :
    (te ∈ fired ↔ time ≤ (host.timer s).now % 4294967296) ∧
      (te ∉ fired → Waits te time (host.timer s')) := by
  have htimer : host.timer (started host s) = (current_time (host.timer s)).2 := hown.timer_set _ _
  have hs : Sound (host.timer (started host s)) := by
    rw [htimer]
    exact ⟨hw.sound.ordered, hw.sound.nodup⟩
  have hheld : te ∈ held (host.timer (started host s)).heap := by
    rw [htimer]
    exact hw.inside
  have hdeadline : ((host.timer (started host s)).heap.entry te).time = time := by
    rw [htimer]
    exact hw.deadline
  rcases Nat.lt_or_ge ((host.timer s).now % 4294967296) time with hlater | hdue
  · obtain ⟨hnot, hstays, hsound, hsame⟩ :=
      expire_fired_waits hown hs h hheld (hdeadline.symm ▸ hlater)
    exact ⟨⟨fun hmem => absurd hmem hnot, fun hle => absurd hle (Nat.not_le_of_lt hlater)⟩,
      fun _ => ⟨hsound, hstays, hsame.trans hdeadline⟩⟩
  · have hmem := expire_fired_due hown hs h (mem_due.mpr ⟨hheld, hdeadline.trans_le hdue⟩)
    exact ⟨⟨fun _ => hdue, fun _ => hmem⟩, fun hnot => absurd hmem hnot⟩

theorem firesOnTime_iff (hown : OwnTimer host rearm) {since msec : Nat} (hmsec : msec < 2147483648)
    {waits : Bool} {s s' : σ} {e : loop_event}
    (hw : waits = true → Waits te ((since + msec) % 4294967296) (host.timer s))
    (h : LoopStep host te since s e s') :
    FiresOnTime host te since msec waits s e s' ↔ SameWrap host since msec waits s e s' := by
  cases h with
  | expire hafter hwithin hcall =>
    rename_i fuel fired
    have hwrap := wrapped_le_iff hmsec hafter hwithin
    constructor
    · rintro htime _ - hwaits
      have hfires := (expire_call_waits hown (hw hwaits) hcall).1
      exact hwrap.mp (hfires.symm.trans (htime fired rfl hwaits))
    · rintro hsame _ heq hwaits
      cases heq
      have hfires := (expire_call_waits hown (hw hwaits) hcall).1
      exact hfires.trans (hwrap.mpr (hsame fired rfl hwaits))
  | other hkeep => exact ⟨nofun, nofun⟩

theorem still_waits_keeps (hown : OwnTimer host rearm) {since : Nat} {waits : Bool} {s s' : σ}
    {e : loop_event} (hw : waits = true → Waits te time (host.timer s))
    (h : LoopStep host te since s e s') :
    still_waits te waits s e s' = true → Waits te time (host.timer s') := by
  intro hstill
  cases h with
  | expire hafter hwithin hcall =>
    simp only [still_waits, Bool.and_eq_true, Bool.not_eq_true', List.contains_eq_mem,
      decide_eq_false_iff_not] at hstill
    exact (expire_call_waits hown (hw hstill.1) hcall).2 hstill.2
  | other hkeep => exact hkeep time (hw hstill)

end Calls

/-- In every run after a timer was armed, its entry fires in the first call of
`expire_timer` at or after its deadline, and in none before, exactly when at each
of these calls the 32-bit clock has wrapped as often as the deadline. -/
theorem armed_timer_fires_on_time_iff {host : timer_host κ σ} {rearm : κ → Ptr → σ → Option Nat}
    (hown : OwnTimer host rearm) {timer : loop_timer κ} (hs : Sound timer) {te : Ptr}
    (hnew : te ∉ held timer.heap) {msec : Nat} (hmsec : msec < 2147483648) {s : σ}
    (harm : Arms timer te msec (host.timer s)) {tr : List (loop_event × σ)}
    (hrun : Run (LoopStep host te timer.now) s tr) :
    AllRecorded (still_waits te) (FiresOnTime host te timer.now msec) true s tr ↔
      AllRecorded (still_waits te) (SameWrap host timer.now msec) true s tr := by
  apply Run.allRecorded_iff
    (J := fun waits s => waits = true →
      Waits te ((timer.now + msec) % 4294967296) (host.timer s)) _ _ _ hrun
  · exact fun hw h => firesOnTime_iff hown hmsec hw h
  · exact fun hw h => still_waits_keeps hown hw h
  · exact fun _ => arms_waits hs hnew harm

/-- A program whose handler does not reset its timer. -/
def one_shot : timer_host Unit (loop_timer Unit) where
  timer := id
  setTimer _ timer := timer
  callback _ _ timer := ok timer

theorem one_shot_ownTimer : OwnTimer one_shot fun _ _ _ => none :=
  ⟨fun _ _ => rfl, fun _ _ timer => ⟨timer, rfl, rfl⟩⟩

/-- A loop without timers. -/
def no_timer (clock : Nat → Nat) : loop_timer Unit :=
  { heap := empty_heap fun _ => (), clock, reads := 0 }

theorem one_timer_arms (clock : Nat → Nat) :
    Sound (no_timer clock) ∧ 1 ∉ held (no_timer clock).heap ∧
      Arms (no_timer clock) 1 5000 (one_shot.timer (one_timer clock)) :=
  ⟨⟨empty_heap_ordered _, Multiset.nodup_zero⟩, Multiset.notMem_zero 1, .add ()⟩

/-- The timer is armed at 1000 ms, and `expire_timer` is called at 4000 and 7000 ms. -/
def on_schedule : loop_timer Unit := one_timer fun n => 1000 + 3000 * n

theorem on_schedule_fires : ∃ s', Run (LoopStep one_shot 1 1000) on_schedule
      [(.expire [], started one_shot on_schedule), (.expire [1], s')] ∧
    AllRecorded (still_waits 1) (FiresOnTime one_shot 1 1000 5000) true on_schedule
      [(.expire [], started one_shot on_schedule), (.expire [1], s')] := by
  have hwait : expire_call one_shot 1 on_schedule = ok ([], started one_shot on_schedule) := by
    apply expire_fired_none
    apply Option.isNone_iff_eq_none.mp
    decide +kernel
  have hfire : Prod.fst <$> expire_call one_shot 2 (started one_shot on_schedule) = ok [1] := by
    decide +kernel
  obtain ⟨⟨_, s'⟩, hcall, rfl⟩ := map_eq_ok_iff.mp hfire
  have hrun : Run (LoopStep one_shot 1 1000) on_schedule
      [(.expire [], started one_shot on_schedule), (.expire [1], s')] :=
    .cons (.expire (by decide +kernel) (by decide +kernel) hwait)
      (.cons (.expire (by decide +kernel) (by decide +kernel) hcall) (.nil s'))
  obtain ⟨hs, hnew, harm⟩ := one_timer_arms fun n => 1000 + 3000 * n
  refine ⟨s', hrun,
    (armed_timer_fires_on_time_iff one_shot_ownTimer hs hnew (by decide) harm hrun).mpr ?_⟩
  exact ⟨fun _ _ _ => by decide +kernel, fun _ _ _ => by decide +kernel, trivial⟩

/-- The timer is armed 1000 ms before the clock wraps, with a deadline after the
wrap, and `expire_timer` is called 10 ms later. -/
def before_wrap : loop_timer Unit := one_timer fun n => 4294966296 + 10 * n

theorem before_wrap_fires_early :
    Sound (no_timer fun n => 4294966296 + 10 * n) ∧
      Arms (no_timer fun n => 4294966296 + 10 * n) 1 5000 before_wrap ∧
      ∃ s', Run (LoopStep one_shot 1 4294966296) before_wrap [(.expire [1], s')] ∧
        ¬ AllRecorded (still_waits 1) (FiresOnTime one_shot 1 4294966296 5000) true before_wrap
          [(.expire [1], s')] := by
  obtain ⟨hs, -, harm⟩ := one_timer_arms fun n => 4294966296 + 10 * n
  have hfire : Prod.fst <$> expire_call one_shot 2 before_wrap = ok [1] := by decide +kernel
  obtain ⟨⟨_, s'⟩, hcall, rfl⟩ := map_eq_ok_iff.mp hfire
  refine ⟨hs, harm, s', .cons (.expire (by decide +kernel) (by decide +kernel) hcall) (.nil s'), ?_⟩
  rintro ⟨htime, -⟩
  have helapsed := (htime [1] rfl rfl).mp (List.mem_singleton_self 1)
  revert helapsed
  decide +kernel

end easymesh.mh_timer
