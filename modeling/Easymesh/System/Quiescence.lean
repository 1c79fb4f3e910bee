import Easymesh.System.Reactions

open Lib Lib.Result easymesh.cmdu easymesh.ieee1905_network easymesh.bus_msg easymesh.mbusd
open easymesh.cfg_mgr easymesh.mesh_agent

namespace easymesh.system

def mesh_system.rank (s : mesh_system) (k : Nat) : Nat :=
  ((s.posted[k]?).map posted_msg.rank).getD 0

/-- Message `j` was posted because of message `k`. -/
def mesh_system.Comes (s : mesh_system) (k j : Nat) : Prop :=
  (s.posted[j]?.bind fun m => m.cause) = some k

instance (s : mesh_system) (k j : Nat) : Decidable (s.Comes k j) :=
  inferInstanceAs (Decidable (_ = _))

theorem comes_iff {s : mesh_system} {k j : Nat} :
    s.Comes k j ↔ ∃ m, s.posted[j]? = some m ∧ m.cause = some k :=
  Option.bind_eq_some_iff

/-- Of a message comes at most one other, of a lower rank, and no more frames than
messages. -/
structure Ranked (s : mesh_system) : Prop where
  few : ∀ k, (s.caused k).length ≤ 1
  sends : ∀ k, (s.transmitted k).length ≤ (s.caused k).length
  lower : ∀ k j, s.Comes k j → s.rank j < s.rank k

section Ranks

variable {net : setup} {s s' : mesh_system} {c : client} {cause : Option Nat}
  {calls : List mbus_call} {frames : List (Int × List UInt8)} {j k : Nat} {m : posted_msg}

theorem rank_of_posted (hm : s.posted[k]? = some m) : s.rank k = m.rank := by
  rw [mesh_system.rank, hm]
  rfl

theorem rank_goes_of_lt (hk : k < s.posted.length) :
    (s.goes net c cause calls frames).rank k = s.rank k := by
  rw [mesh_system.rank, posted_goes_of_lt hk, mesh_system.rank]

theorem Ranked.of_same (h : Ranked s) (hposted : s'.posted = s.posted) (hsent : s'.sent = s.sent) :
    Ranked s' := by
  have hcaused (k : Nat) : s'.caused k = s.caused k := by
    rw [mesh_system.caused, hposted, mesh_system.caused]
  have hrank (k : Nat) : s'.rank k = s.rank k := by
    rw [mesh_system.rank, hposted, mesh_system.rank]
  constructor
  · intro k
    rw [hcaused]
    exact h.few k
  · intro k
    rw [hcaused, mesh_system.transmitted, hsent]
    exact h.sends k
  · intro k j hcomes
    rw [mesh_system.Comes, hposted] at hcomes
    rw [hrank, hrank]
    exact h.lower k j hcomes

/-- The client makes calls of its own accord or because of a message that nothing has come
of yet. -/
def Moved (net : setup) (s : mesh_system) (c : client) (calls : List mbus_call)
    (frames : List (Int × List UInt8)) : Option Nat → Prop
  | none => True
  | some k => s.Effectless k ∧ ∃ m, s.posted[k]? = some m ∧ m.sender = c.other ∧
    Reacts net c m.call calls frames

theorem Ranked.goes (h : Ranked s) (hmoved : Moved net s c calls frames cause) :
    Ranked (s.goes net c cause calls frames) := by
  have hsingle (k : Nat) : ((s.goes net c cause calls frames).caused k).length ≤ 1 ∧
      ((s.goes net c cause calls frames).transmitted k).length ≤
        ((s.goes net c cause calls frames).caused k).length := by
    rw [caused_goes, transmitted_goes]
    split
    · rename_i hcause
      subst hcause
      obtain ⟨⟨hcaused, htransmitted⟩, m, -, -, hreacts⟩ := hmoved
      rw [hcaused, htransmitted, List.nil_append, List.nil_append, posted_by, sent_by,
        List.length_map, List.length_map]
      exact ⟨hreacts.few, hreacts.sends⟩
    · rw [List.append_nil, List.append_nil]
      exact ⟨h.few k, h.sends k⟩
  refine ⟨fun k => (hsingle k).1, fun k => (hsingle k).2, ?_⟩
  intro k j hcomes
  obtain ⟨m, hm, hcause⟩ := comes_iff.mp hcomes
  rcases posted_goes_cases hm with hold | ⟨-, call, hcall, rfl⟩
  · have hlower := h.lower k j (comes_iff.mpr ⟨m, hold, hcause⟩)
    have hj : j < s.posted.length := (List.getElem?_eq_some_iff.mp hold).1
    have hk : k < s.posted.length := by
      rcases Nat.lt_or_ge k s.posted.length with hk | hk
      · exact hk
      · rw [mesh_system.rank, mesh_system.rank, List.getElem?_eq_none hk] at hlower
        exact absurd hlower (Nat.not_lt_zero _)
    rw [rank_goes_of_lt hj, rank_goes_of_lt hk]
    exact hlower
  · obtain rfl : cause = some k := hcause
    obtain ⟨-, read, hread, hsender, hreacts⟩ := hmoved
    have hk : k < s.posted.length := (List.getElem?_eq_some_iff.mp hread).1
    rw [rank_of_posted hm, rank_goes_of_lt hk, rank_of_posted hread, posted_msg.rank,
      posted_msg.rank, hsender]
    exact hreacts.lower call hcall

theorem Flowing.ranked_step {e : mesh_event} (hflowing : Flowing net s) (h : Ranked s)
    (hstep : MeshStep net s e s') : Ranked s' := by
  cases hflowing.happens hstep with
  | nothing hidle => exact h
  | @begins e c calls frames w env hown hposts =>
    exact (@Ranked.goes net s c none calls frames h trivial).of_same rfl rfl
  | passes hqueue hposted hsender hkept hpassed => exact h.of_same rfl rfl
  | @answers reader controller rest frame k more m calls frames w env hqueue hposted hsender
      hreacts =>
    obtain ⟨-, htaken, -⟩ := hflowing.read_by hqueue
    have htook : Ranked { s with to_client := Function.update s.to_client reader more } :=
      h.of_same rfl rfl
    have hmoved : Moved net { s with to_client := Function.update s.to_client reader more } reader
        calls frames (some k) :=
      ⟨htaken.effectless, m, hposted, hsender, hreacts⟩
    exact (htook.goes hmoved).of_same rfl rfl

end Ranks

section Work

variable {net : setup} {s s' : mesh_system} {c : client} {calls : List mbus_call}
  {cause : Option Nat} {frames : List (Int × List UInt8)}

/-- What a message on a path has before it, once the daemon has passed it on: its reader,
and two hops for every message that may come of it. -/
def mesh_system.toll (s : mesh_system) (c : client) : Nat :=
  ((s.path c).map fun x => 1 + 2 * s.rank x.1).sum + (s.to_daemon c).length

/-- How many messages have still to be read at most until nobody has anything to read. -/
def mesh_system.work (s : mesh_system) : Nat := s.toll .cfg_mgr + s.toll .mesh_agent

theorem work_eq (s : mesh_system) (c : client) : s.work = s.toll c + s.toll c.other := by
  cases c
  · rfl
  · exact Nat.add_comm _ _

theorem goes_rank_new (s : mesh_system) (c : client) (cause : Option Nat) (call : mbus_call)
    (frames : List (Int × List UInt8)) :
    (s.goes net c cause [call] frames).rank s.posted.length = c.rank call := by
  have hnew : (s.goes net c cause [call] frames).posted[s.posted.length]? =
      some { sender := c, call, cause } := by
    rw [mesh_system.goes, List.getElem?_append_right le_rfl, Nat.sub_self]
    rfl
  exact rank_of_posted hnew

/-- What is on a path before the calls counts as before. -/
theorem Flowing.path_sum_goes (h : Flowing net s) (c' : client) :
    ((s.path c').map fun x => 1 + 2 * (s.goes net c cause calls frames).rank x.1) =
      (s.path c').map fun x => 1 + 2 * s.rank x.1 := by
  apply List.map_congr_left
  rintro ⟨k, frame⟩ hmem
  rw [rank_goes_of_lt (h.lt_of_mem hmem)]

/-- One call at most, of a rank below `r`, costs no more than two for each rank. -/
theorem Flowing.toll_goes_le (h : Flowing net s) {r : Nat} (hfew : calls.length ≤ 1)
    (hlower : ∀ call ∈ calls, c.rank call < r) :
    (s.goes net c cause calls frames).toll c ≤ s.toll c + 2 * r := by
  rw [mesh_system.toll, path_goes_self, List.map_append, List.sum_append, h.path_sum_goes]
  match calls, hfew with
  | [], _ =>
    simp only [mesh_system.toll, mesh_system.goes, numbered, setup.taken, List.zipIdx_nil,
      List.map_nil, List.filter_nil, List.sum_nil, List.append_nil, Function.update_self]
    omega
  | [call], _ =>
    have hrank := hlower call List.mem_cons_self
    have htaken := taken_sublist net .to_daemon (numbered c s.posted.length [call])
    have hsum := (htaken.map fun x => 1 + 2 * (s.goes net c cause [call] frames).rank x.1).sum_le_sum
      fun _ _ => Nat.zero_le _
    have hlength := htaken.length_le
    have hdaemon : ((s.goes net c cause [call] frames).to_daemon c).length = (s.to_daemon c).length +
        (net.taken .to_daemon (numbered c s.posted.length [call])).length := by
      rw [mesh_system.goes]
      dsimp only
      rw [Function.update_self, List.length_append]
    have hnumbered : numbered c s.posted.length [call] = [(s.posted.length, c.wire call)] := rfl
    rw [hnumbered, List.map_singleton, List.sum_singleton, goes_rank_new] at hsum
    rw [hnumbered, List.length_singleton] at hlength
    rw [hdaemon, hnumbered, mesh_system.toll]
    omega

theorem Flowing.toll_goes_other (h : Flowing net s) :
    (s.goes net c cause calls frames).toll c.other = s.toll c.other := by
  have hne := c.other_ne
  rw [mesh_system.toll, path_goes_of_ne hne, h.path_sum_goes, mesh_system.toll,
    mesh_system.goes]
  dsimp only
  rw [Function.update_of_ne hne]

/-- The daemon has taken a message from the connection of its sender. -/
theorem toll_passes (hposted : s'.posted = s.posted) (hpath : (s'.path c).Sublist (s.path c))
    (htaken : (s.to_daemon c).length = (s'.to_daemon c).length + 1)
    (hother : s'.path c.other = s.path c.other)
    (hleft : s'.to_daemon c.other = s.to_daemon c.other) : s'.work < s.work := by
  have hrank (k : Nat) : s'.rank k = s.rank k := by
    rw [mesh_system.rank, hposted, mesh_system.rank]
  have hsum : ((s'.path c).map fun x => 1 + 2 * s.rank x.1).sum ≤
      ((s.path c).map fun x => 1 + 2 * s.rank x.1).sum :=
    (hpath.map _).sum_le_sum fun _ _ => Nat.zero_le _
  rw [work_eq s' c, work_eq s c]
  simp only [mesh_system.toll, hrank, hother, hleft]
  omega

/-- The reader has taken message `k` of the other client. -/
theorem toll_taken {reader : client} {k : Nat} {frame : List UInt8}
    {more : List (Nat × List UInt8)} (hqueue : s.to_client reader = (k, frame) :: more) :
    let taken := { s with to_client := Function.update s.to_client reader more }
    s.toll reader.other = taken.toll reader.other + 1 + 2 * s.rank k ∧
      s.toll reader = taken.toll reader := by
  have hpath : s.path reader.other = (k, frame) :: (more ++ s.to_daemon reader.other) := by
    rw [mesh_system.path, client.other_other, hqueue, List.cons_append]
  have hne := reader.other_ne
  constructor
  · rw [mesh_system.toll, hpath, List.map_cons, List.sum_cons]
    simp only [mesh_system.toll, mesh_system.path, client.other_other, Function.update_self,
      mesh_system.rank]
    omega
  · simp only [mesh_system.toll, mesh_system.path, Function.update_of_ne hne, mesh_system.rank]

/-- Whoever reads a message leaves less to read. -/
theorem Flowing.work_lt {e : mesh_event} (h : Flowing net s) (hdelivers : e.Delivers s)
    (hstep : MeshStep net s e s') : s'.work < s.work := by
  cases h.happens hstep with
  | nothing hidle => exact absurd hdelivers hidle
  | begins hown hposts => exact absurd hdelivers hown
  | @passes sender addr rest frame k more kept m b hqueue hposted hsender hkept hpassed =>
    have hne := sender.other_ne
    refine toll_passes (c := sender) rfl ?_ ?_ ?_ ?_
    · simp only [mesh_system.path, Function.update_self, hqueue, List.append_assoc]
      have hsame := hkept.trans (taken_sublist net .to_client _)
      exact (hsame.append_right more).append_left _
    · simp only [hqueue, Function.update_self, List.length_cons]
    · simp only [mesh_system.path, client.other_other, Function.update_of_ne hne,
        Function.update_of_ne hne.symm]
    · simp only [Function.update_of_ne hne]
  | @answers reader controller rest frame k more m calls frames w env hqueue hposted hsender
      hreacts =>
    obtain ⟨hflowing, -⟩ := h.read_by hqueue
    obtain ⟨hother, hreader⟩ := toll_taken hqueue
    have hlower : ∀ call ∈ calls, reader.rank call < s.rank k := by
      intro call hcall
      rw [rank_of_posted hposted, posted_msg.rank, hsender]
      exact hreacts.lower call hcall
    have hgoes := @Flowing.toll_goes_le _ _ reader calls (some k) frames hflowing _ hreacts.few
      hlower
    have hrest := @Flowing.toll_goes_other _ _ reader calls (some k) frames hflowing
    rw [work_eq s reader, hreader, hother]
    calc
      _ = mesh_system.toll _ reader + mesh_system.toll _ reader.other := work_eq _ reader
      _ ≤ _ := Nat.add_le_add hgoes hrest.le
      _ < _ := by omega

end Work

section Runs

variable {net : setup} {s : mesh_system} {tr more : List (mesh_event × mesh_system)}

theorem rank_le_two (s : mesh_system) (k : Nat) : s.rank k ≤ 2 := by
  rw [mesh_system.rank]
  cases s.posted[k]? with
  | none => exact Nat.zero_le 2
  | some m =>
    change m.rank ≤ 2
    unfold posted_msg.rank client.rank
    split
    · exact one_le_two
    · exact one_le_two
    · split
      · exact le_rfl
      · exact Nat.zero_le 2
    · exact Nat.zero_le 2

theorem Start.ranked (h : Start net s) : Ranked s := by
  constructor
  · intro k
    rw [mesh_system.caused, h.posted]
    exact Nat.zero_le 1
  · intro k
    rw [mesh_system.transmitted, h.sent]
    exact Nat.zero_le _
  · intro k j hcomes
    rw [mesh_system.Comes, h.posted] at hcomes
    cases hcomes

/-- Of what comes of a message comes one message at most, and of that one nothing. -/
theorem Ranked.effectless (h : Ranked s) {i j k : Nat} (hfirst : s.Comes k i)
    (hsecond : s.Comes i j) : s.Effectless j ∧ ∀ l, ¬ s.Comes l k := by
  have hlower := h.lower k i hfirst
  have hlowest := h.lower i j hsecond
  have hmost := rank_le_two s k
  have hnone : s.caused j = [] := by
    rw [List.eq_nil_iff_forall_not_mem]
    intro m hm
    obtain ⟨hin, hcause⟩ := List.mem_filter.mp hm
    obtain ⟨n, hn⟩ := List.mem_iff_getElem?.mp hin
    have hbelow := h.lower j n (comes_iff.mpr ⟨m, hn, of_decide_eq_true hcause⟩)
    omega
  constructor
  · refine ⟨hnone, List.length_eq_zero_iff.mp ?_⟩
    have hsends := h.sends j
    rw [hnone] at hsends
    exact Nat.le_zero.mp hsends
  · intro l hcomes
    have habove := h.lower l k hcomes
    have hbound := rank_le_two s l
    omega

theorem Start.ranked_run (hstart : Start net s) (hrun : Run (MeshStep net) s tr) :
    ∀ x ∈ tr, Flowing net x.2 ∧ Ranked x.2 :=
  Run.invariant (J := fun s => Flowing net s ∧ Ranked s)
    (fun h hstep => ⟨(h.1.step hstep).1, h.1.ranked_step h.2 hstep⟩)
    ⟨hstart.flowing, hstart.ranked⟩ hrun

theorem toll_le (s : mesh_system) (c : client) : s.toll c ≤ 6 * (s.path c).length := by
  have hsum : ((s.path c).map fun x => 1 + 2 * s.rank x.1).sum ≤ (s.path c).length * 5 := by
    apply (List.sum_le_card_nsmul _ 5 _).trans_eq
    · rw [List.length_map, smul_eq_mul]
    · intro n hn
      obtain ⟨x, -, rfl⟩ := List.mem_map.mp hn
      have hrank := rank_le_two s x.1
      omega
  have hlength : (s.path c).length = (s.to_client c.other).length + (s.to_daemon c).length :=
    List.length_append
  rw [mesh_system.toll]
  omega

/-- In every state of a run, of every message came at most one other, of a lower rank, and
no more frames than messages, and a chain of messages ends with the second that comes of
the first, which is one that no message asked for. -/
theorem chains_end (hstart : Start net s) (hrun : Run (MeshStep net) s tr) :
    ∀ x ∈ tr, (∀ k, (x.2.transmitted k).length ≤ (x.2.caused k).length ∧
        (x.2.caused k).length ≤ 1) ∧
      (∀ k j, x.2.Comes k j → x.2.rank j < x.2.rank k) ∧
      ∀ i j k, x.2.Comes k i → x.2.Comes i j → x.2.Effectless j ∧ ∀ l, ¬ x.2.Comes l k := by
  intro x hx
  obtain ⟨-, hranked⟩ := hstart.ranked_run hrun x hx
  exact ⟨fun k => ⟨hranked.sends k, hranked.few k⟩, hranked.lower,
    fun i j k hfirst hsecond => hranked.effectless hfirst hsecond⟩

def renew_frame : List UInt8 :=
  packet (network_packet true MSG_AP_AUTOCONFIGURATION_RENEW 1 [2, 0, 0, 0, 0, 1] response_tlvs)

/-- The renew reaches the `cfg_mgr`, its M1 the agent, and the copy of the M1 comes back. -/
def renew_and_m1 : List mesh_event :=
  [.agent_receives eth0 renew_frame, .daemon_reads .mesh_agent 4 [], .client_reads .cfg_mgr none [],
    .daemon_reads .cfg_mgr 4 [], .client_reads .mesh_agent none [], .daemon_reads .mesh_agent 4 [],
    .client_reads .cfg_mgr none []]

def renew_run : List (mesh_event × mesh_system) :=
  trace (fun s e => (s.exec one_interface e).getD s) controller_known renew_and_m1

theorem renew_chain_ends :
    Run (MeshStep one_interface) controller_known renew_run ∧
      (endState controller_known renew_run).Comes 0 1 ∧
      (endState controller_known renew_run).Comes 1 2 ∧
      ∀ x ∈ renew_run, (∀ k, (x.2.transmitted k).length ≤ (x.2.caused k).length ∧
          (x.2.caused k).length ≤ 1) ∧
        (∀ k j, x.2.Comes k j → x.2.rank j < x.2.rank k) ∧
        ∀ i j k, x.2.Comes k i → x.2.Comes i j → x.2.Effectless j ∧ ∀ l, ¬ x.2.Comes l k := by
  have hsteps : Enabled
        (fun s e => mesh_event.Allowed s e ∧ (mesh_system.exec one_interface s e).Returns)
        (fun s e => (s.exec one_interface e).getD s) controller_known renew_and_m1 ∧
      (endState controller_known renew_run).Comes 0 1 ∧
      (endState controller_known renew_run).Comes 1 2 := by
    decide +kernel
  have hrun : Run (MeshStep one_interface) controller_known renew_run := run_trace_guarded hsteps.1
  exact ⟨hrun, hsteps.2.1, hsteps.2.2, chains_end controller_known_start hrun⟩

/-- While no timer is due and the network is silent, the daemon and the clients read at most
six messages one after the other for each one that is under way. -/
theorem deliveries_end (hstart : Start net s) (hrun : Run (MeshStep net) s tr)
    (hmore : Run (MeshStep net) (endState s tr) more)
    (hreads : AllSteps (fun s e _ => e.Delivers s) (endState s tr) more) :
    more.length ≤ 6 * (((endState s tr).path .cfg_mgr).length +
      ((endState s tr).path .mesh_agent).length) := by
  have hflowing : Flowing net (endState s tr) :=
    Run.endState_invariant (fun h hstep => (h.step hstep).1) hstart.flowing hrun
  have hlength : more.length ≤ (endState s tr).work :=
    Run.length_le (fun h hdelivers hstep => ⟨(h.step hstep).1, h.work_lt hdelivers hstep⟩)
      hflowing hmore hreads
  have hcfgmgr := toll_le (endState s tr) .cfg_mgr
  have hagent := toll_le (endState s tr) .mesh_agent
  rw [mesh_system.work] at hlength
  omega

/-- A timer of the `cfg_mgr` is due. -/
def timer_due : List (mesh_event × mesh_system) :=
  trace (fun s e => (s.exec one_interface e).getD s) controller_known (search_and_copy.take 1)

/-- The search of the `cfg_mgr` and its copy are read. -/
def search_read : List (mesh_event × mesh_system) :=
  trace (fun s e => (s.exec one_interface e).getD s) (endState controller_known timer_due)
    (search_and_copy.drop 1)

theorem search_reads_end :
    Run (MeshStep one_interface) controller_known timer_due ∧
      ((endState controller_known timer_due).path .cfg_mgr).length = 2 ∧
      search_read.length = 4 ∧
      search_read.length ≤ 6 * (((endState controller_known timer_due).path .cfg_mgr).length +
        ((endState controller_known timer_due).path .mesh_agent).length) := by
  have hrun : Run (MeshStep one_interface) controller_known timer_due :=
    run_trace_guarded (by decide +kernel)
  have hmore : Run (MeshStep one_interface) (endState controller_known timer_due) search_read :=
    run_trace_guarded (by decide +kernel)
  exact ⟨hrun, by decide +kernel, rfl,
    deliveries_end controller_known_start hrun hmore (by decide +kernel)⟩

end Runs

end easymesh.system
