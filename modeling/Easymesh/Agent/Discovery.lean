import Easymesh.Agent.Core

open Lib Lib.Result easymesh.minheap easymesh.mh_timer easymesh.ieee1905_network

namespace easymesh.core

variable {φ ε : Type} {net : agent_env φ ε} {a a' : agent φ ε} {cur : Nat} {interface te : Ptr}

/-- Every timer of the heap with the callback of an interface is the one of a registered
interface. -/
structure Owned (a : agent φ ε) : Prop where
  indexed : Indexed a.timer.heap
  nodup : a.interfaces.Nodup
  owned : ∀ te ∈ held a.timer.heap, ∀ interface,
    (a.timer.heap.entry te).handler = .send_discovery_perodic interface →
      interface ∈ a.interfaces ∧ (a.ifs interface).topo_timer = te

section Own

/-- Timers that leave the heap, and some of them come back. -/
theorem Owned.keep (ho : Owned a) (hifs : ∀ p, (a'.ifs p).topo_timer = (a.ifs p).topo_timer)
    (hinterfaces : a'.interfaces = a.interfaces) (hindexed : Indexed a'.timer.heap)
    (hhandler : ∀ p, (a'.timer.heap.entry p).handler = (a.timer.heap.entry p).handler)
    (hheld : ∀ te ∈ held a'.timer.heap, te ∈ held a.timer.heap) : Owned a' := by
  refine ⟨hindexed, hinterfaces ▸ ho.nodup, fun te hte interface heq => ?_⟩
  rw [hhandler] at heq
  rw [hinterfaces, hifs]
  exact ho.owned te (hheld te hte) interface heq

/-- A timer is added beside those of the interfaces. -/
theorem Owned.add_timer (ho : Owned a) (msec : Nat) (hnew : te ∉ held a.timer.heap) :
    Owned { a with timer := mh_timer.add_timer a.timer te msec .mesh_obj_create_timer_cb } := by
  refine ⟨add_timer_indexed a.timer te msec _ hnew ho.indexed, ho.nodup, fun p hp i heq => ?_⟩
  change p ∈ held (mh_timer.add_timer a.timer te msec _).heap at hp
  rw [add_timer_held, Multiset.mem_cons] at hp
  change ((mh_timer.add_timer a.timer te msec _).heap.entry p).handler = _ at heq
  rw [add_timer_handler] at heq
  split at heq
  · cases heq
  · next hne => exact ho.owned p (hp.resolve_left hne) i heq

theorem Owned.register (ho : Owned a) (hif : interface ∉ a.interfaces)
    (hnew : te ∉ held a.timer.heap) : Owned (register_interface a interface te) := by
  refine ⟨add_timer_indexed a.timer te 5000 _ hnew ho.indexed, ?_, fun p hp i heq => ?_⟩
  · change (a.interfaces ++ [interface]).Nodup
    rw [← List.concat_eq_append, List.nodup_concat]
    exact ⟨hif, ho.nodup⟩
  · change p ∈ held (mh_timer.add_timer a.timer te 5000 _).heap at hp
    rw [add_timer_held, Multiset.mem_cons] at hp
    change ((mh_timer.add_timer a.timer te 5000 _).heap.entry p).handler = _ at heq
    rw [add_timer_handler] at heq
    split at heq
    · next hpte =>
      cases heq
      refine ⟨List.mem_append_right _ (List.mem_singleton_self _), ?_⟩
      simp [register_interface, agent.setTopoTimer, hpte]
    · next hne =>
      obtain ⟨hi, htopo⟩ := ho.owned p (hp.resolve_left hne) i heq
      have hother : i ≠ interface := fun hsame => hif (hsame ▸ hi)
      refine ⟨List.mem_append_left _ hi, ?_⟩
      simpa [register_interface, agent.setTopoTimer, hother] using htopo

/-- Deleting an entry of the heap takes this one out. -/
theorem min_heap_delete_removes {κ : Type} {heap : min_heap_t κ} (hidx : Indexed heap)
    (hte : te ∈ held heap) :
    te ::ₘ held (min_heap_delete heap te).2 = held heap ∧
      ∀ p, ((min_heap_delete heap te).2.entry p).handler = (heap.entry p).handler := by
  obtain ⟨i, hi, rfl⟩ := mem_held.mp hte
  rw [min_heap_delete_held hidx hi]
  exact ⟨removeAt_held heap hi, fun p => (removeAt_entry heap i p).2.2⟩

/-- What a deletion leaves was there before. -/
theorem min_heap_delete_keeps {κ : Type} {heap : min_heap_t κ} (hidx : Indexed heap) (te : Ptr) :
    te ∉ held (min_heap_delete heap te).2 ∧
      (∀ p ∈ held (min_heap_delete heap te).2, p ∈ held heap) ∧
      ∀ p, SameEntry ((min_heap_delete heap te).2.entry p) (heap.entry p) := by
  by_cases hte : te ∈ held heap
  · obtain ⟨hheld, -⟩ := min_heap_delete_removes hidx hte
    have hnodup := hidx.held_nodup
    rw [← hheld, Multiset.nodup_cons] at hnodup
    refine ⟨hnodup.1, fun p hp => hheld ▸ Multiset.mem_cons_of_mem hp, ?_⟩
    obtain ⟨i, hi, rfl⟩ := mem_held.mp hte
    rw [min_heap_delete_held hidx hi]
    exact removeAt_entry heap i
  · rw [min_heap_delete_absent hidx hte]
    exact ⟨hte, fun _ hp => hp, fun _ => ⟨rfl, rfl, rfl⟩⟩

theorem Owned.unregister (ho : Owned a) (interface : Ptr) :
    Owned (unregister_interface a interface) := by
  obtain ⟨hgone, hheld, hsame⟩ :=
    min_heap_delete_keeps ho.indexed (a.ifs interface).topo_timer
  refine ⟨min_heap_delete_indexed ho.indexed _, ho.nodup.erase _, fun p hp i heq => ?_⟩
  obtain ⟨hi, htopo⟩ := ho.owned p (hheld p hp) i ((hsame p).2.2.symm.trans heq)
  refine ⟨ho.nodup.mem_erase_iff.mpr ⟨?_, hi⟩, htopo⟩
  rintro rfl
  subst htopo
  exact hgone hp

end Own

/-- Registered interfaces and their timers refer to each other. -/
structure Timed (a : agent φ ε) : Prop where
  indexed : Indexed a.timer.heap
  nodup : a.interfaces.Nodup
  handler : ∀ interface ∈ a.interfaces,
    (a.timer.heap.entry (a.ifs interface).topo_timer).handler = .send_discovery_perodic interface
  owned : ∀ te ∈ held a.timer.heap, ∀ interface,
    (a.timer.heap.entry te).handler = .send_discovery_perodic interface →
      interface ∈ a.interfaces ∧ (a.ifs interface).topo_timer = te

theorem Timed.toOwned (h : Timed a) : Owned a := ⟨h.indexed, h.nodup, h.owned⟩

theorem Owned.timed (ho : Owned a) (hhandler : ∀ interface ∈ a.interfaces,
    (a.timer.heap.entry (a.ifs interface).topo_timer).handler = .send_discovery_perodic interface) :
    Timed a :=
  ⟨ho.indexed, ho.nodup, hhandler, ho.owned⟩

/-- No timer is in the heap twice, so it is enough that it is there. -/
theorem Timed.armed_iff (h : Timed a) :
    Armed a ↔ ∀ interface ∈ a.interfaces, (a.ifs interface).topo_timer ∈ held a.timer.heap := by
  refine forall₂_congr fun interface _ => ?_
  constructor
  · intro hcount
    exact Multiset.one_le_count_iff_mem.mp hcount.ge
  · exact Multiset.count_eq_one_of_mem h.indexed.held_nodup

section Keep

/-- Timers that leave the heap, and some of them come back. -/
theorem Timed.keep (h : Timed a) (hifs : a'.ifs = a.ifs) (hinterfaces : a'.interfaces = a.interfaces)
    (hindexed : Indexed a'.timer.heap)
    (hhandler : ∀ p, (a'.timer.heap.entry p).handler = (a.timer.heap.entry p).handler)
    (hheld : ∀ te ∈ held a'.timer.heap, te ∈ held a.timer.heap) : Timed a' := by
  refine (h.toOwned.keep (fun p => by rw [hifs]) hinterfaces hindexed hhandler hheld).timed ?_
  rw [hinterfaces, hifs]
  intro interface hmem
  rw [hhandler]
  exact h.handler interface hmem

/-- A timer is added beside those of the interfaces. -/
theorem Timed.add_timer (h : Timed a) (harmed : Armed a) (msec : Nat)
    (hnew : te ∉ held a.timer.heap) :
    let timer := mh_timer.add_timer a.timer te msec .mesh_obj_create_timer_cb
    Timed { a with timer } ∧ Armed { a with timer } := by
  intro timer
  have hhandler := add_timer_handler a.timer te msec timer_cb.mesh_obj_create_timer_cb
  have hheld : held timer.heap = te ::ₘ held a.timer.heap := add_timer_held a.timer te msec _
  have hin := h.armed_iff.mp harmed
  have htimed : Timed { a with timer } := by
    refine (h.toOwned.add_timer msec hnew).timed fun interface hmem => ?_
    have hne : (a.ifs interface).topo_timer ≠ te := fun heq => hnew (heq ▸ hin interface hmem)
    exact (hhandler _).trans ((if_neg hne).trans (h.handler interface hmem))
  refine ⟨htimed, htimed.armed_iff.mpr fun interface hmem => ?_⟩
  change _ ∈ held timer.heap
  rw [hheld]
  exact Multiset.mem_cons_of_mem (hin interface hmem)

theorem Timed.register (h : Timed a) (harmed : Armed a) (hif : interface ∉ a.interfaces)
    (hnew : te ∉ held a.timer.heap) :
    Timed (register_interface a interface te) ∧ Armed (register_interface a interface te) := by
  have hhandler := add_timer_handler a.timer te 5000 (timer_cb.send_discovery_perodic interface)
  have hheld := add_timer_held a.timer te 5000 (timer_cb.send_discovery_perodic interface)
  have hin := h.armed_iff.mp harmed
  have hself : ((register_interface a interface te).ifs interface).topo_timer = te := by
    simp [register_interface, agent.setTopoTimer]
  have hother {p : Ptr} (hp : p ∈ a.interfaces) :
      (register_interface a interface te).ifs p = a.ifs p := by
    have hne : p ≠ interface := fun heq => hif (heq ▸ hp)
    simp [register_interface, agent.setTopoTimer, hne]
  have htimed : Timed (register_interface a interface te) := by
    refine (h.toOwned.register hif hnew).timed ?_
    change ∀ p ∈ a.interfaces ++ [interface], _
    refine List.forall_mem_append.mpr ⟨fun p hp => ?_, List.forall_mem_singleton.mpr ?_⟩
    · have hne : (a.ifs p).topo_timer ≠ te := fun heq => hnew (heq ▸ hin p hp)
      rw [hother hp]
      exact (hhandler _).trans ((if_neg hne).trans (h.handler p hp))
    · rw [hself]
      exact (hhandler te).trans (if_pos rfl)
  refine ⟨htimed, htimed.armed_iff.mpr ?_⟩
  change ∀ p ∈ a.interfaces ++ [interface], _ ∈ held (mh_timer.add_timer a.timer te 5000 _).heap
  rw [hheld]
  refine List.forall_mem_append.mpr ⟨fun p hp => ?_, List.forall_mem_singleton.mpr ?_⟩
  · rw [hother hp]
    exact Multiset.mem_cons_of_mem (hin p hp)
  · rw [hself]
    exact Multiset.mem_cons_self te _

theorem Timed.unregister (h : Timed a) (harmed : Armed a) (hif : interface ∈ a.interfaces) :
    Timed (unregister_interface a interface) ∧ Armed (unregister_interface a interface) := by
  have hin := h.armed_iff.mp harmed
  obtain ⟨hheld, hhandler⟩ := min_heap_delete_removes h.indexed (hin interface hif)
  have hmem (p : Ptr) : p ∈ (unregister_interface a interface).interfaces ↔
      p ≠ interface ∧ p ∈ a.interfaces := h.nodup.mem_erase_iff
  have htimed : Timed (unregister_interface a interface) :=
    (h.toOwned.unregister interface).timed fun p hp =>
      (hhandler _).trans (h.handler p ((hmem p).mp hp).2)
  refine ⟨htimed, htimed.armed_iff.mpr fun p hp => ?_⟩
  obtain ⟨hne, hp⟩ := (hmem p).mp hp
  have hstill := hheld ▸ hin p hp
  refine (Multiset.mem_cons.mp hstill).resolve_left fun heq => hne ?_
  have hown := h.handler p hp
  rw [heq, h.handler interface hif] at hown
  cases hown
  rfl

end Keep

section Turn

/-- The argument with which `send_discovery_perodic` resets its timer. -/
def discovery_msec (a : agent φ ε) : Nat := if a.count = 0 then 45000 else 0

/-- The callback sends, and resets its timer if the frame was sent. -/
theorem send_discovery_perodic_spec (net : agent_env φ ε) (interface te : Ptr) (a : agent φ ε) :
    ∃ a', send_discovery_perodic net interface te a = ok a' ∧ a'.ifs = a.ifs ∧
      a'.interfaces = a.interfaces ∧
      ((Sends net.toif_env (a.ifs interface) (discovery_frame (a.ifs interface)) a.env ∧
          ∃ msec, msec = discovery_msec a ∧ a'.timer = reset_timer a.timer te msec) ∨
        (¬ Sends net.toif_env (a.ifs interface) (discovery_frame (a.ifs interface)) a.env ∧
          a'.timer = a.timer)) := by
  have hsent := if_send_nonneg_iff net.toif_env (a.ifs interface)
    (discovery_frame (a.ifs interface)) a.env
  rw [send_discovery_perodic, send_topology_discovery_eq, ok_bind, ← hsent]
  dsimp only
  split
  · next hneg => exact ⟨_, rfl, rfl, rfl, .inr ⟨not_le.mpr hneg, rfl⟩⟩
  · next hpos => exact ⟨_, rfl, rfl, rfl, .inl ⟨not_lt.mp hpos, _, rfl, rfl⟩⟩

/-- What a turn that takes `te` out of the heap, and leaves `timer`, does to the
timers: a timer of an interface comes back if its discovery is sent. -/
theorem turn_of_next {timer : loop_timer timer_cb} (hnext : expire_next a.timer cur = some (te, timer))
    (h : expire_step net a cur = ok a') :
    a'.ifs = a.ifs ∧ a'.interfaces = a.interfaces ∧
      (((timer.heap.entry te).handler = .mesh_obj_create_timer_cb ∧ a'.timer = timer) ∨
        ∃ interface, (timer.heap.entry te).handler = .send_discovery_perodic interface ∧
          ((Sends net.toif_env (a.ifs interface) (discovery_frame (a.ifs interface)) a.env ∧
              ∃ msec, msec = discovery_msec a ∧ a'.timer = reset_timer timer te msec) ∨
            (¬ Sends net.toif_env (a.ifs interface) (discovery_frame (a.ifs interface)) a.env ∧
              a'.timer = timer))) := by
  have hturn : (agent_timers net).callback (timer.heap.entry te).handler te { a with timer } =
      ok a' := by
    rw [expire_step, expire_turn] at h
    simp only [agent_timers, hnext, Option.map_some, Option.getD_some] at h
    exact h
  cases hhandler : (timer.heap.entry te).handler with
  | mesh_obj_create_timer_cb =>
    rw [hhandler] at hturn
    cases hturn
    exact ⟨rfl, rfl, .inl ⟨rfl, rfl⟩⟩
  | send_discovery_perodic interface =>
    rw [hhandler] at hturn
    obtain ⟨a₁, hcall, hifs, hinterfaces, htimer⟩ :=
      send_discovery_perodic_spec net interface te { a with timer }
    cases hcall.symm.trans hturn
    exact ⟨hifs, hinterfaces, .inr ⟨interface, rfl, htimer⟩⟩

/-- A turn keeps the timers of all interfaces exactly when it sends what it fires. -/
theorem Timed.turn (h : Timed a) (harmed : Armed a) (hcur : a.cur = some cur)
    (hstep : expire_step net a cur = ok a') :
    Timed a' ∧ (Armed a' ↔ DiscoverySent net a .turn a') := by
  have hin := h.armed_iff.mp harmed
  cases hnext : expire_next a.timer cur with
  | none =>
    rw [expire_step, expire_turn] at hstep
    simp only [agent_timers, hnext, Option.map_none, Option.getD_none] at hstep
    cases hstep
    refine ⟨⟨h.indexed, h.nodup, h.handler, h.owned⟩, iff_of_true harmed fun cur' hcur' next hmem => ?_⟩
    cases Option.some.inj (hcur.symm.trans hcur')
    rw [hnext] at hmem
    cases hmem
  | some pair =>
    obtain ⟨te, timer⟩ := pair
    obtain ⟨hifs, hinterfaces, htimer⟩ := turn_of_next hnext hstep
    obtain ⟨hheld, -, hhandler⟩ := expire_next_spec hnext
    have hidx := expire_next_indexed h.indexed hnext
    have hout : te ∉ held timer.heap := by
      have hnodup := h.indexed.held_nodup
      rw [← hheld] at hnodup
      exact (Multiset.nodup_cons.mp hnodup).1
    have hte : te ∈ held a.timer.heap := hheld ▸ Multiset.mem_cons_self te _
    have hless : ∀ p ∈ held timer.heap, p ∈ held a.timer.heap :=
      fun p hp => hheld ▸ Multiset.mem_cons_of_mem hp
    have hgood : DiscoverySent net a .turn a' ↔ ∀ interface ∈ a.interfaces,
        (timer.heap.entry te).handler = .send_discovery_perodic interface →
          Sends net.toif_env (a.ifs interface) (discovery_frame (a.ifs interface)) a.env := by
      constructor
      · exact fun hsent => hsent cur hcur (te, timer) hnext
      · intro hsent cur' hcur' next hmem
        cases Option.some.inj (hcur.symm.trans hcur')
        cases Option.some.inj (hnext.symm.trans hmem)
        exact hsent
    rw [hgood]
    obtain ⟨hother, heq⟩ | ⟨interface, hfired, hsent⟩ := htimer
    · -- the other timer is gone
      have htimed : Timed a' := by
        apply h.keep hifs hinterfaces
        · exact heq ▸ hidx
        · exact fun p => heq ▸ hhandler p
        · exact fun p hp => hless p (heq ▸ hp)
      refine ⟨htimed, iff_of_true (htimed.armed_iff.mpr ?_) fun interface _ hfired => ?_⟩
      · rw [hinterfaces, hifs, heq]
        intro interface hmem
        refine (Multiset.mem_cons.mp (hheld ▸ hin interface hmem)).resolve_left fun hsame => ?_
        have hown := h.handler interface hmem
        rw [hsame, ← hhandler, hother] at hown
        cases hown
      · rw [hother] at hfired
        cases hfired
    · obtain ⟨hif, htopo⟩ := h.owned te hte interface ((hhandler te).symm.trans hfired)
      obtain ⟨hsends, msec, -, heq⟩ | ⟨hfails, heq⟩ := hsent
      · have hback : held a'.timer.heap = held a.timer.heap := by
          rw [heq, reset_timer_held, hheld]
        have htimed : Timed a' := by
          apply h.keep hifs hinterfaces
          · exact heq ▸ reset_timer_indexed timer te msec hout hidx
          · intro p
            rw [heq, reset_timer_handler, hhandler]
          · exact fun p hp => hback ▸ hp
        refine ⟨htimed, iff_of_true (htimed.armed_iff.mpr ?_) fun other hmem hfired' => ?_⟩
        · rw [hinterfaces, hifs, hback]
          exact hin
        · rw [hfired] at hfired'
          cases hfired'
          exact hsends
      · have htimed : Timed a' := by
          apply h.keep hifs hinterfaces
          · exact heq ▸ hidx
          · exact fun p => heq ▸ hhandler p
          · exact fun p hp => hless p (heq ▸ hp)
        refine ⟨htimed, iff_of_false (fun harmed' => ?_) fun hall => hfails (hall interface hif hfired)⟩
        have hstays := htimed.armed_iff.mp harmed' interface (hinterfaces ▸ hif)
        rw [hifs, htopo, heq] at hstays
        exact hout hstays

end Turn

section Runs

theorem Timed.step {e : agent_event φ ε} (h : Timed a) (harmed : Armed a) (hstep : Step net a e a') :
    Timed a' ∧ (Armed a' ↔ DiscoverySent net a e a') := by
  obtain ⟨hallowed, hexec⟩ := hstep
  cases e with
  | register interface te =>
    cases hexec
    obtain ⟨htimed, harmed'⟩ := h.register harmed hallowed.1 hallowed.2
    exact ⟨htimed, iff_of_true harmed' trivial⟩
  | unregister interface =>
    cases hexec
    obtain ⟨htimed, harmed'⟩ := h.unregister harmed hallowed
    exact ⟨htimed, iff_of_true harmed' trivial⟩
  | add_timer te msec =>
    cases hexec
    obtain ⟨htimed, harmed'⟩ := h.add_timer harmed msec hallowed
    exact ⟨htimed, iff_of_true harmed' trivial⟩
  | configure interface new =>
    cases hexec
    have hsame (p : Ptr) : ((a.configure interface new).ifs p).topo_timer = (a.ifs p).topo_timer := by
      by_cases hp : p = interface
      · subst hp
        simp [agent.configure]
      · simp [agent.configure, hp]
    refine ⟨⟨h.indexed, h.nodup, fun p hp => ?_, fun te hte p heq => ?_⟩, iff_of_true ?_ trivial⟩
    · rw [hsame]
      exact h.handler p hp
    · rw [hsame]
      exact h.owned te hte p heq
    · intro p hp
      rw [hsame]
      exact harmed p hp
  | other env =>
    cases hexec
    exact ⟨⟨h.indexed, h.nodup, h.handler, h.owned⟩, iff_of_true harmed trivial⟩
  | expire =>
    cases hexec
    exact ⟨⟨h.indexed, h.nodup, h.handler, h.owned⟩, iff_of_true harmed trivial⟩
  | turn =>
    cases hcur : a.cur with
    | none => exact absurd hcur hallowed
    | some cur =>
      simp only [agent.exec, hcur] at hexec
      exact h.turn harmed hcur hexec

theorem agent_main_timed (ifs : Ptr → NetworkInterface φ) (clock : Nat → Nat) (env : ε) :
    Timed (agent_main ifs clock env) :=
  ⟨empty_heap_indexed _, List.nodup_nil, nofun, fun _ hte => absurd hte (Multiset.notMem_zero _)⟩

/-- In every run of the agent, the timers of all registered interfaces are in the
heap, once each, whenever no callback runs, exactly when every discovery of the
run was sent: a timer that finds its interface unable to send never comes back. -/
theorem topo_timers_armed_iff {ifs : Ptr → NetworkInterface φ} {clock : Nat → Nat} {env : ε}
    {tr : List (agent_event φ ε × agent φ ε)} (hrun : Run (Step net) (agent_main ifs clock env) tr) :
    (∀ x ∈ tr, Armed x.2) ↔ AllSteps (DiscoverySent net) (agent_main ifs clock env) tr := by
  apply Run.invariant_iff (J := Timed) _ _ (agent_main_timed ifs clock env) nofun hrun
  · exact fun h harmed hstep => (h.step harmed hstep).1
  · exact fun h harmed hstep => (h.step harmed hstep).2

/-- An agent with a filter that accepts all, on sockets that return `ret`. -/
def accepting (ret : Int → Int) : agent_env Unit Unit where
  cb _ _ _ _ := (IF_ACCEPT, ())
  send fd _ _ := (ret fd, ())
  obj_create _ := ()
  uninit _ := 0

/-- The sockets of the interfaces have the numbers of their addresses. -/
def two_ifs (interface : Ptr) : NetworkInterface Unit where
  fd := interface
  addr := #v[0, 0x16, 0x3e, 0, 0, 1]
  ifname := List.replicate 16 0
  al_addr := #v[0x5a, 0x9a, 0x94, 0xc0, 0x42, 0x57]
  topo_timer := 0
  filters := [()]

/-- Two interfaces are registered, and their timers run out in one call of `expire_timer`. -/
def two_discoveries : List (agent_event Unit Unit) :=
  [.register 3 1, .register 4 2, .expire, .turn, .turn, .turn]

/-- The run of the agent on these events, with sockets that return `ret`. -/
def discovery_trace (ret : Int → Int) : List (agent_event Unit Unit × agent Unit Unit) :=
  trace (fun a e => (a.exec (accepting ret) e).getD a)
    (agent_main two_ifs (fun n => 5000 * n) ()) two_discoveries

theorem two_discoveries_armed :
    Run (Step (accepting fun _ => 54)) (agent_main two_ifs (fun n => 5000 * n) ())
        (discovery_trace fun _ => 54) ∧
      ∀ x ∈ discovery_trace fun _ => 54, Armed x.2 := by
  have hrun := @run_trace_guarded _ _ (fun a e => e.Allowed a) (agent.exec (accepting fun _ => 54))
    (agent_main two_ifs (fun n => 5000 * n) ()) two_discoveries (by decide +kernel)
  exact ⟨hrun, (topo_timers_armed_iff hrun).mpr (by decide +kernel)⟩

/-- The socket of the first interface fails once, and its timer is gone. -/
theorem failed_discovery_stops :
    let ret := fun fd : Int => if fd = 3 then -1 else 54
    Run (Step (accepting ret)) (agent_main two_ifs (fun n => 5000 * n) ()) (discovery_trace ret) ∧
      ¬ ∀ x ∈ discovery_trace ret, Armed x.2 := by
  have hrun := @run_trace_guarded _ _ (fun a e => e.Allowed a)
    (agent.exec (accepting fun fd => if fd = 3 then -1 else 54))
    (agent_main two_ifs (fun n => 5000 * n) ()) two_discoveries (by decide +kernel)
  exact ⟨hrun, by decide +kernel⟩

end Runs

end easymesh.core
