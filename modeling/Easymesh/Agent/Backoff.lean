import Easymesh.Agent.Discovery

open Lib Lib.Result easymesh.minheap easymesh.mh_timer easymesh.ieee1905_network

namespace easymesh.core

variable {φ ε : Type}

/-- What a run did with the timer of one interface since that was registered: the
intervals with which its sent discoveries reset the timer, and whether `count` was 0 then. -/
structure topo_history where
  intervals : List Nat
  zeros : List Bool
  deriving DecidableEq

def topo_history.start : topo_history := { intervals := [], zeros := [] }

/-- The timer of the interface, when the next turn fires it and the discovery is sent. -/
def sent_timer (net : agent_env φ ε) (a : agent φ ε) (interface : Ptr) : Option Ptr :=
  match a.cur with
  | none => none
  | some cur =>
    match expire_next a.timer cur with
    | none => none
    | some (te, timer) =>
      if (timer.heap.entry te).handler = .send_discovery_perodic interface ∧
          Sends net.toif_env (a.ifs interface) (discovery_frame (a.ifs interface)) a.env then some te
      else none

def topo_history.record (net : agent_env φ ε) (interface : Ptr) (h : topo_history)
    (a : agent φ ε) (e : agent_event φ ε) (a' : agent φ ε) : topo_history :=
  match e with
  | .register new _ => if new = interface then .start else h
  | .turn =>
    match sent_timer net a interface with
    | none => h
    | some te =>
      { intervals := h.intervals ++ [(a'.timer.heap.entry te).interval]
        zeros := h.zeros ++ [decide (a.count = 0)] }
  | _ => h

/-- The history of an interface in a run of an agent. -/
def topo_intervals (net : agent_env φ ε) (interface : Ptr) (a : agent φ ε)
    (tr : List (agent_event φ ε × agent φ ε)) : topo_history :=
  endHistory (topo_history.record net interface) .start a tr

/-- The first five resets are with 5 s, and the others with 45 s. -/
def BacksOff (intervals : List Nat) : Prop :=
  intervals = (List.range intervals.length).map fun k => if k < 5 then 5000 else 45000

/-- `count` was 0 at none of the first five resets, and at the sixth. -/
def OwnCount (zeros : List Bool) : Prop :=
  (∀ k, k < 5 → zeros[k]? ≠ some true) ∧ zeros[5]? ≠ some false

instance (zeros : List Bool) : Decidable (OwnCount zeros) := inferInstanceAs (Decidable (_ ∧ _))

section Intervals

/-- The interval of a timer after resets with these values of `count`. -/
def interval_after (zeros : List Bool) : Nat := if true ∈ zeros then 45000 else 5000

/-- The intervals of all the resets. -/
def reset_intervals (zeros : List Bool) : List Nat :=
  (List.range zeros.length).map fun k => interval_after (zeros.take (k + 1))

theorem reset_intervals_concat (zeros : List Bool) (zero : Bool) :
    reset_intervals (zeros ++ [zero]) =
      reset_intervals zeros ++ [interval_after (zeros ++ [zero])] := by
  rw [reset_intervals, List.length_append, List.length_singleton, List.range_succ, List.map_append,
    List.map_singleton, List.take_of_length_le (by simp), reset_intervals]
  congr 1
  refine List.map_congr_left fun k hk => ?_
  rw [List.take_append_of_le_length (List.mem_range.mp hk)]

theorem interval_after_concat (zeros : List Bool) (zero : Bool) :
    interval_after (zeros ++ [zero]) = if zero then 45000 else interval_after zeros := by
  cases zero with
  | true => simp [interval_after]
  | false => simp [interval_after]

theorem mem_take_true {zeros : List Bool} {n : Nat} :
    true ∈ zeros.take n ↔ ∃ k, k < n ∧ zeros[k]? = some true := by
  rw [List.mem_take_iff_getElem]
  constructor
  · rintro ⟨k, hk, hget⟩
    exact ⟨k, by omega, by rw [List.getElem?_eq_getElem (by omega), hget]⟩
  · rintro ⟨k, hk, hget⟩
    obtain ⟨hlt, heq⟩ := List.getElem?_eq_some_iff.mp hget
    exact ⟨k, by omega, heq⟩

theorem interval_after_take (zeros : List Bool) (n : Nat) :
    interval_after (zeros.take n) = 45000 ↔ ∃ k, k < n ∧ zeros[k]? = some true := by
  rw [← mem_take_true, interval_after]
  split
  · next h => exact iff_of_true rfl h
  · next h => exact iff_of_false (by decide) h

/-- The resets back off when the first 0 is that of the sixth. -/
theorem reset_intervals_backsOff_iff (zeros : List Bool) :
    BacksOff (reset_intervals zeros) ↔ OwnCount zeros := by
  have hlength : (reset_intervals zeros).length = zeros.length := by
    rw [reset_intervals, List.length_map, List.length_range]
  have hcases (n : Nat) : interval_after (zeros.take n) = 5000 ∨
      interval_after (zeros.take n) = 45000 := by
    unfold interval_after
    split
    · exact .inr rfl
    · exact .inl rfl
  rw [BacksOff, hlength, reset_intervals, List.map_inj_left, OwnCount]
  constructor
  · intro h
    have hfirst : ∀ k, k < 5 → zeros[k]? ≠ some true := by
      intro k hk htrue
      obtain ⟨hlt, -⟩ := List.getElem?_eq_some_iff.mp htrue
      have hlater := (interval_after_take zeros (k + 1)).mpr ⟨k, Nat.lt_succ_self k, htrue⟩
      rw [h k (List.mem_range.mpr hlt), if_pos hk] at hlater
      exact absurd hlater (by decide)
    refine ⟨hfirst, fun hfalse => ?_⟩
    obtain ⟨hlt, -⟩ := List.getElem?_eq_some_iff.mp hfalse
    obtain ⟨k, hk, htrue⟩ := (interval_after_take zeros 6).mp (h 5 (List.mem_range.mpr hlt))
    rcases Nat.lt_or_eq_of_le (Nat.le_of_lt_succ hk) with hk | rfl
    · exact hfirst k hk htrue
    · cases hfalse.symm.trans htrue
  · rintro ⟨hfirst, hsixth⟩ k hk
    by_cases hlt : k < 5
    · rw [if_pos hlt]
      refine (hcases _).resolve_right fun hlater => ?_
      obtain ⟨j, hj, htrue⟩ := (interval_after_take zeros (k + 1)).mp hlater
      exact hfirst j (by omega) htrue
    · rw [if_neg hlt]
      have hlength : 5 < zeros.length := by
        have := List.mem_range.mp hk
        omega
      refine (interval_after_take zeros (k + 1)).mpr ⟨5, by omega, ?_⟩
      rw [List.getElem?_eq_getElem hlength] at hsixth ⊢
      cases hzero : zeros[5] with
      | true => rfl
      | false => exact absurd (by rw [hzero]) hsixth

end Intervals

/-- The timer of the interface has the interval that its history tells. -/
structure Tracked (interface : Ptr) (h : topo_history) (a : agent φ ε) : Prop where
  owned : Owned a
  interval : ∀ te ∈ held a.timer.heap,
    (a.timer.heap.entry te).handler = .send_discovery_perodic interface →
      (a.timer.heap.entry te).interval = interval_after h.zeros
  intervals : h.intervals = reset_intervals h.zeros

section Steps

variable {net : agent_env φ ε} {a a' : agent φ ε} {h : topo_history} {interface te : Ptr}

/-- What a step leaves of the timer of the interface was there before. -/
theorem Tracked.keep (ht : Tracked interface h a) (ho : Owned a')
    (hsame : ∀ te ∈ held a'.timer.heap,
      (a'.timer.heap.entry te).handler = .send_discovery_perodic interface →
        te ∈ held a.timer.heap ∧
          (a.timer.heap.entry te).handler = .send_discovery_perodic interface ∧
          (a'.timer.heap.entry te).interval = (a.timer.heap.entry te).interval) :
    Tracked interface h a' := by
  refine ⟨ho, fun te hte hhandler => ?_, ht.intervals⟩
  obtain ⟨hbefore, hwas, hinterval⟩ := hsame te hte hhandler
  rw [hinterval]
  exact ht.interval te hbefore hwas

theorem Tracked.register (ht : Tracked interface h a) {new : Ptr} (hif : new ∉ a.interfaces)
    (hnew : te ∉ held a.timer.heap) :
    Tracked interface (h.record net interface a (.register new te) a')
      (register_interface a new te) := by
  have ho := ht.owned.register hif hnew
  have hcases : ∀ p ∈ held (register_interface a new te).timer.heap,
      ((register_interface a new te).timer.heap.entry p).handler =
          .send_discovery_perodic interface →
        p = te ∧ new = interface ∨ p ≠ te ∧ p ∈ held a.timer.heap ∧
          (a.timer.heap.entry p).handler = .send_discovery_perodic interface := by
    intro p hp heq
    change p ∈ held (mh_timer.add_timer a.timer te 5000 _).heap at hp
    rw [add_timer_held, Multiset.mem_cons] at hp
    change ((mh_timer.add_timer a.timer te 5000 _).heap.entry p).handler = _ at heq
    rw [add_timer_handler] at heq
    split at heq
    · next hpte =>
      cases heq
      exact .inl ⟨hpte, rfl⟩
    · next hne => exact .inr ⟨hne, hp.resolve_left hne, heq⟩
  have hinterval (p : Ptr) : ((register_interface a new te).timer.heap.entry p).interval =
      if p = te then 5000 else (a.timer.heap.entry p).interval :=
    add_timer_interval a.timer te 5000 _ p
  rw [topo_history.record]
  by_cases hsame : new = interface
  · rw [if_pos hsame]
    refine ⟨ho, fun p hp heq => ?_, rfl⟩
    obtain ⟨hpte, -⟩ | ⟨-, hbefore, hwas⟩ := hcases p hp heq
    · rw [hinterval, if_pos hpte]
      rfl
    · exact absurd (ht.owned.owned p hbefore interface hwas).1 (hsame ▸ hif)
  · rw [if_neg hsame]
    refine ht.keep ho fun p hp heq => ?_
    obtain ⟨-, heq⟩ | ⟨hne, hbefore, hwas⟩ := hcases p hp heq
    · exact absurd heq hsame
    · rw [hinterval, if_neg hne]
      exact ⟨hbefore, hwas, rfl⟩

theorem sent_timer_eq {cur : Nat} {timer : loop_timer timer_cb} (hcur : a.cur = some cur)
    (hnext : expire_next a.timer cur = some (te, timer)) :
    sent_timer net a interface =
      if (timer.heap.entry te).handler = .send_discovery_perodic interface ∧
          Sends net.toif_env (a.ifs interface) (discovery_frame (a.ifs interface)) a.env then some te
      else none := by
  rw [sent_timer, hcur]
  dsimp only
  rw [hnext]

/-- A turn that resets the timer of the interface adds one interval to its history. -/
theorem Tracked.turn (ht : Tracked interface h a) {cur : Nat} (hcur : a.cur = some cur)
    (hstep : expire_step net a cur = ok a') :
    Tracked interface (h.record net interface a .turn a') a' := by
  rw [topo_history.record]
  cases hnext : expire_next a.timer cur with
  | none =>
    have hsent : sent_timer net a interface = none := by
      rw [sent_timer, hcur]
      dsimp only
      rw [hnext]
    rw [expire_step, expire_turn] at hstep
    simp only [agent_timers, hnext, Option.map_none, Option.getD_none] at hstep
    cases hstep
    rw [hsent]
    exact ht.keep ⟨ht.owned.indexed, ht.owned.nodup, ht.owned.owned⟩
      fun p hp heq => ⟨hp, heq, rfl⟩
  | some pair =>
    obtain ⟨te, timer⟩ := pair
    obtain ⟨hifs, hinterfaces, htimer⟩ := turn_of_next hnext hstep
    obtain ⟨hheld, -, hhandler⟩ := expire_next_spec hnext
    obtain ⟨-, hsame, -⟩ := expire_next_due hnext
    have hidx := expire_next_indexed ht.owned.indexed hnext
    have hout : te ∉ held timer.heap := by
      have hnodup := ht.owned.indexed.held_nodup
      rw [← hheld] at hnodup
      exact (Multiset.nodup_cons.mp hnodup).1
    have hless : ∀ p ∈ held timer.heap, p ∈ held a.timer.heap :=
      fun p hp => hheld ▸ Multiset.mem_cons_of_mem hp
    have hsent := @sent_timer_eq _ _ net a interface te cur timer hcur hnext
    -- without a reset the timers that are left are as before
    have hgone (heq : a'.timer = timer) : Owned a' ∧ Tracked interface h a' := by
      have ho : Owned a' := by
        apply ht.owned.keep (fun p => by rw [hifs]) hinterfaces
        · exact heq ▸ hidx
        · exact fun p => heq ▸ hhandler p
        · exact fun p hp => hless p (heq ▸ hp)
      refine ⟨ho, ht.keep ho fun p hp hp' => ?_⟩
      rw [heq] at hp hp' ⊢
      exact ⟨hless p hp, (hhandler p).symm.trans hp', (hsame p).2.1⟩
    obtain ⟨hother, heq⟩ | ⟨fired, hfired, hsends, msec, hmsec, heq⟩ | ⟨fired, hfired, hfails, heq⟩ :
        ((timer.heap.entry te).handler = .mesh_obj_create_timer_cb ∧ a'.timer = timer) ∨
        (∃ i, (timer.heap.entry te).handler = .send_discovery_perodic i ∧
          Sends net.toif_env (a.ifs i) (discovery_frame (a.ifs i)) a.env ∧
          ∃ msec, msec = discovery_msec a ∧ a'.timer = reset_timer timer te msec) ∨
        ∃ i, (timer.heap.entry te).handler = .send_discovery_perodic i ∧
          ¬ Sends net.toif_env (a.ifs i) (discovery_frame (a.ifs i)) a.env ∧ a'.timer = timer := by
      obtain hother | ⟨i, hi, hsends | hfails⟩ := htimer
      · exact .inl hother
      · exact .inr (.inl ⟨i, hi, hsends⟩)
      · exact .inr (.inr ⟨i, hi, hfails⟩)
    · rw [hsent, if_neg (by rw [hother]; exact fun hboth => by cases hboth.1)]
      exact (hgone heq).2
    · have hback : held a'.timer.heap = held a.timer.heap := by
        rw [heq, reset_timer_held, hheld]
      have hhandlers (p : Ptr) :
          (a'.timer.heap.entry p).handler = (a.timer.heap.entry p).handler := by
        rw [heq, reset_timer_handler, hhandler]
      have hintervals (p : Ptr) : (a'.timer.heap.entry p).interval =
          if p = te then delay a.timer te msec else (a.timer.heap.entry p).interval := by
        rw [heq, reset_timer_interval, delay, delay, (hsame te).2.1, (hsame p).2.1]
      have ho : Owned a' := by
        apply ht.owned.keep (fun p => by rw [hifs]) hinterfaces
        · exact heq ▸ reset_timer_indexed timer te msec hout hidx
        · exact hhandlers
        · exact fun p hp => hback ▸ hp
      have hte : te ∈ held a.timer.heap := hheld ▸ Multiset.mem_cons_self te _
      rw [hhandler] at hfired
      by_cases hown : fired = interface
      · subst hown
        rw [hsent, if_pos ⟨(hhandler te).trans hfired, hsends⟩]
        have hdelay : delay a.timer te msec = interval_after (h.zeros ++ [decide (a.count = 0)]) := by
          rw [interval_after_concat, ← ht.interval te hte hfired, delay, hmsec, discovery_msec]
          by_cases hzero : a.count = 0
          · simp [hzero]
          · simp [hzero]
        dsimp only
        refine ⟨ho, fun p hp hp' => ?_, ?_⟩
        · rw [hback] at hp
          rw [hhandlers] at hp'
          have hpte : p = te :=
            (ht.owned.owned p hp fired hp').2.symm.trans (ht.owned.owned te hte fired hfired).2
          rw [hintervals, if_pos hpte, hdelay]
        · rw [hintervals, if_pos rfl, hdelay, ht.intervals, reset_intervals_concat]
      · rw [hsent, if_neg (by
          rw [hhandler, hfired]
          exact fun hboth => hown (timer_cb.send_discovery_perodic.inj hboth.1))]
        refine ht.keep ho fun p hp hp' => ?_
        rw [hback] at hp
        rw [hhandlers] at hp'
        have hne : p ≠ te := by
          rintro rfl
          exact hown (timer_cb.send_discovery_perodic.inj (hfired.symm.trans hp'))
        rw [hintervals, if_neg hne]
        exact ⟨hp, hp', rfl⟩
    · rw [hsent, if_neg (fun hboth => hfails (by
        rw [hfired] at hboth
        cases hboth.1
        exact hboth.2))]
      exact (hgone heq).2

theorem Tracked.step {e : agent_event φ ε} (ht : Tracked interface h a) (hstep : Step net a e a') :
    Tracked interface (h.record net interface a e a') a' := by
  obtain ⟨hallowed, hexec⟩ := hstep
  cases e with
  | register new te =>
    cases hexec
    exact ht.register hallowed.1 hallowed.2
  | unregister gone =>
    cases hexec
    obtain ⟨-, hheld, hsame⟩ := min_heap_delete_keeps ht.owned.indexed (a.ifs gone).topo_timer
    exact ht.keep (ht.owned.unregister gone) fun p hp heq =>
      ⟨hheld p hp, (hsame p).2.2.symm.trans heq, (hsame p).2.1⟩
  | add_timer te msec =>
    cases hexec
    refine ht.keep (ht.owned.add_timer msec hallowed) fun p hp heq => ?_
    have hhandler := add_timer_handler a.timer te msec timer_cb.mesh_obj_create_timer_cb p
    have hinterval := add_timer_interval a.timer te msec timer_cb.mesh_obj_create_timer_cb p
    change p ∈ held (mh_timer.add_timer a.timer te msec _).heap at hp
    rw [add_timer_held, Multiset.mem_cons] at hp
    have heq' := hhandler.symm.trans heq
    split at heq'
    · cases heq'
    · next hne =>
      rw [if_neg hne] at hinterval
      exact ⟨hp.resolve_left hne, heq', hinterval⟩
  | configure other new =>
    cases hexec
    have hsame (p : Ptr) : ((a.configure other new).ifs p).topo_timer = (a.ifs p).topo_timer := by
      by_cases hp : p = other
      · subst hp
        simp [agent.configure]
      · simp [agent.configure, hp]
    exact ht.keep (ht.owned.keep hsame rfl ht.owned.indexed (fun _ => rfl) fun _ hp => hp)
      fun p hp heq => ⟨hp, heq, rfl⟩
  | other env =>
    cases hexec
    exact ht.keep ⟨ht.owned.indexed, ht.owned.nodup, ht.owned.owned⟩ fun p hp heq => ⟨hp, heq, rfl⟩
  | expire =>
    cases hexec
    exact ht.keep ⟨ht.owned.indexed, ht.owned.nodup, ht.owned.owned⟩ fun p hp heq => ⟨hp, heq, rfl⟩
  | turn =>
    cases hcur : a.cur with
    | none => exact absurd hcur hallowed
    | some cur =>
      simp only [agent.exec, hcur] at hexec
      exact ht.turn hcur hexec

theorem agent_main_tracked (ifs : Ptr → NetworkInterface φ) (clock : Nat → Nat) (env : ε) :
    Tracked interface .start (agent_main ifs clock env) :=
  ⟨⟨empty_heap_indexed _, List.nodup_nil, fun _ hte => absurd hte (Multiset.notMem_zero _)⟩,
    fun _ hte => absurd hte (Multiset.notMem_zero _), rfl⟩

end Steps

section Runs

variable {net net' : agent_env φ ε} {ifs ifs' : Ptr → NetworkInterface φ} {clock clock' : Nat → Nat}
  {env env' : ε} {tr tr' : List (agent_event φ ε × agent φ ε)}

/-- The intervals of an interface are those that its values of `count` tell. -/
theorem topo_intervals_eq (interface : Ptr) (hrun : Run (Step net) (agent_main ifs clock env) tr) :
    (topo_intervals net interface (agent_main ifs clock env) tr).intervals =
      reset_intervals (topo_intervals net interface (agent_main ifs clock env) tr).zeros := by
  have hend : Tracked interface (topo_intervals net interface (agent_main ifs clock env) tr)
      (endState (agent_main ifs clock env) tr) := by
    apply Run.endHistory_invariant _ (agent_main_tracked ifs clock env) hrun
    exact fun ht hstep => ht.step hstep
  exact hend.intervals

/-- In two runs in which the timer of an interface is reset equally often, the intervals are
the same and back off exactly when, in both, `count` was 0 when the interface had sent its
sixth discovery and at none of its first five. -/
theorem topo_intervals_same_iff (interface : Ptr)
    (hrun : Run (Step net) (agent_main ifs clock env) tr)
    (hrun' : Run (Step net') (agent_main ifs' clock' env') tr')
    (hequal : (topo_intervals net interface (agent_main ifs clock env) tr).intervals.length =
      (topo_intervals net' interface (agent_main ifs' clock' env') tr').intervals.length) :
    ((topo_intervals net interface (agent_main ifs clock env) tr).intervals =
        (topo_intervals net' interface (agent_main ifs' clock' env') tr').intervals ∧
      BacksOff (topo_intervals net interface (agent_main ifs clock env) tr).intervals ∧
      BacksOff (topo_intervals net' interface (agent_main ifs' clock' env') tr').intervals) ↔
    OwnCount (topo_intervals net interface (agent_main ifs clock env) tr).zeros ∧
      OwnCount (topo_intervals net' interface (agent_main ifs' clock' env') tr').zeros := by
  have hfirst := topo_intervals_eq interface hrun
  have hsecond := topo_intervals_eq interface hrun'
  rw [← reset_intervals_backsOff_iff, ← reset_intervals_backsOff_iff, ← hfirst, ← hsecond]
  constructor
  · exact fun h => h.2
  · rintro ⟨hbacks, hbacks'⟩
    refine ⟨?_, hbacks, hbacks'⟩
    rw [hbacks, hequal]
    exact hbacks'.symm

/-- Interfaces are registered, and `n` calls of `expire_timer` make so many turns each. -/
def discovery_rounds (registered : List (agent_event Unit Unit)) (turns n : Nat) :
    List (agent_event Unit Unit) :=
  registered ++ (List.replicate n (.expire :: List.replicate turns .turn)).flatten

/-- The run of an agent whose discoveries are all sent. -/
def rounds_trace (es : List (agent_event Unit Unit)) :
    List (agent_event Unit Unit × agent Unit Unit) :=
  trace (fun a e => (a.exec (accepting fun _ => 54) e).getD a)
    (agent_main two_ifs (fun n => 100000 * n) ()) es

theorem rounds_trace_run {es : List (agent_event Unit Unit)}
    (h : Enabled (fun a e => e.Allowed a ∧ (a.exec (accepting fun _ => 54) e).Returns)
      (fun a e => (a.exec (accepting fun _ => 54) e).getD a)
      (agent_main two_ifs (fun n => 100000 * n) ()) es) :
    Run (Step (accepting fun _ => 54)) (agent_main two_ifs (fun n => 100000 * n) ())
      (rounds_trace es) :=
  run_trace_guarded h

/-- What the run does with the timer of interface 4. -/
def rounds_intervals (es : List (agent_event Unit Unit)) : topo_history :=
  topo_intervals (accepting fun _ => 54) 4 (agent_main two_ifs (fun n => 100000 * n) ())
    (rounds_trace es)

/-- Interface 4 alone, and with interface 3 from its sixth discovery on. -/
theorem one_interface_backs_off :
    let alone := rounds_intervals (discovery_rounds [.register 4 2] 2 6)
    let joined := rounds_intervals
      (discovery_rounds [.register 4 2] 2 5 ++ discovery_rounds [.register 3 1] 3 1)
    (alone.intervals = joined.intervals ∧ BacksOff alone.intervals ∧ BacksOff joined.intervals) ∧
      joined.intervals = [5000, 5000, 5000, 5000, 5000, 45000] := by
  have halone := @rounds_trace_run (discovery_rounds [.register 4 2] 2 6) (by decide +kernel)
  have hjoined := @rounds_trace_run
    (discovery_rounds [.register 4 2] 2 5 ++ discovery_rounds [.register 3 1] 3 1)
    (by decide +kernel)
  have hzeros : rounds_intervals (discovery_rounds [.register 4 2] 2 6) =
        ⟨[5000, 5000, 5000, 5000, 5000, 45000], [false, false, false, false, false, true]⟩ ∧
      rounds_intervals
          (discovery_rounds [.register 4 2] 2 5 ++ discovery_rounds [.register 3 1] 3 1) =
        ⟨[5000, 5000, 5000, 5000, 5000, 45000], [false, false, false, false, false, true]⟩ := by
    decide +kernel
  obtain ⟨hown, hown'⟩ := hzeros
  have hequal : (rounds_intervals (discovery_rounds [.register 4 2] 2 6)).intervals.length =
      (rounds_intervals (discovery_rounds [.register 4 2] 2 5 ++
        discovery_rounds [.register 3 1] 3 1)).intervals.length := by
    rw [hown, hown']
  refine ⟨(topo_intervals_same_iff 4 halone hjoined hequal).mpr ⟨?_, ?_⟩, ?_⟩
  · change OwnCount (rounds_intervals _).zeros
    rw [hown]
    decide
  · change OwnCount (rounds_intervals _).zeros
    rw [hown']
    decide
  · rw [hown']

/-- With the discoveries of interface 3 in between, interface 4 is at its third when `count`
is 0, and goes on with 45 s; alone it does not. -/
theorem two_interfaces_interfere :
    let both := discovery_rounds [.register 3 1, .register 4 2] 3 3
    let alone := discovery_rounds [.register 4 2] 2 3
    Run (Step (accepting fun _ => 54)) (agent_main two_ifs (fun n => 100000 * n) ())
        (rounds_trace both) ∧
      Run (Step (accepting fun _ => 54)) (agent_main two_ifs (fun n => 100000 * n) ())
        (rounds_trace alone) ∧
      (rounds_intervals both).intervals = [5000, 5000, 45000] ∧
      (rounds_intervals alone).intervals = [5000, 5000, 5000] := by
  exact ⟨rounds_trace_run (by decide +kernel), rounds_trace_run (by decide +kernel),
    by decide +kernel, by decide +kernel⟩

end Runs

end easymesh.core
