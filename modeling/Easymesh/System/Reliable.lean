import Easymesh.System.Quiescence

open Lib Lib.Result easymesh.cmdu easymesh.ieee1905_network easymesh.bus_msg easymesh.mbusd
open easymesh.cfg_mgr easymesh.mesh_agent

namespace easymesh.system

/-- `io_write` takes message `k` on both its connections. -/
def setup.carries (net : setup) (k : Nat) : Bool :=
  !net.refused .to_daemon k && !net.refused .to_client k

section Views

variable {β : Type} (f : client → mbus_call → List β)

/-- What a client's messages stand for, all of them in the order in which they were posted. -/
def mesh_system.all (s : mesh_system) (c : client) : List β :=
  s.posted.flatMap fun m => if m.sender = c then f c m.call else []

variable (net : setup)

/-- What calls that are posted with numbers from `n` on stand for, without those that
`io_write` refuses on one of the connections. -/
def setup.carried (c : client) (n : Nat) (calls : List mbus_call) : List β :=
  (calls.zipIdx n).flatMap fun x => if net.carries x.2 then f c x.1 else []

/-- What a client's messages stand for that are not refused, in the order in which they
were posted. -/
def mesh_system.carried (s : mesh_system) (c : client) : List β :=
  s.posted.zipIdx.flatMap fun x =>
    if x.1.sender = c then if net.carries x.2 then f c x.1.call else [] else []

/-- What its messages stand for that are not refused and that somebody has still to read. -/
def mesh_system.ahead (s : mesh_system) (c : client) : List β :=
  (s.path c).flatMap fun x =>
    if net.carries x.1 then ((s.posted[x.1]?).map fun m => f c m.call).getD [] else []

/-- The message that the event makes the other client read. -/
def mesh_event.takes (s : mesh_system) (c : client) : mesh_event → Option mbus_call
  | client_reads reader _ _ =>
    if reader = c.other then
      (s.to_client reader).head?.bind fun x => (s.posted[x.1]?).map fun m => m.call
    else none
  | cfgmgr_timer _ | agent_receives .. | agent_sends .. | daemon_reads .. => none

end Views

/-- A message is on a connection after a write that was not refused. -/
structure Carrying (net : setup) (s : mesh_system) : Prop extends Flowing net s where
  sent : ∀ c, ∀ x ∈ s.to_daemon c, net.refused .to_daemon x.1 = false
  passed : ∀ c, ∀ x ∈ s.to_client c, net.carries x.1

section Fifo

variable {β : Type} {f : client → mbus_call → List β} {net : setup} {s s' : mesh_system}
  {c : client} {cause : Option Nat} {calls : List mbus_call} {frames : List (Int × List UInt8)}

theorem Start.carrying (h : Start net s) : Carrying net s := by
  have hempty (c : client) : s.to_client c.other = [] ∧ s.to_daemon c = [] :=
    List.append_eq_nil_iff.mp (h.idle c)
  refine ⟨h.flowing, fun c x hx => ?_, fun c x hx => ?_⟩
  · rw [(hempty c).2] at hx
    exact absurd hx List.not_mem_nil
  · rw [← c.other_other, (hempty c.other).1] at hx
    exact absurd hx List.not_mem_nil

theorem Carrying.goes_sent (h : Carrying net s) (c : client) (calls : List mbus_call) :
    ∀ c', ∀ x ∈ Function.update s.to_daemon c
        (s.to_daemon c ++ net.taken .to_daemon (numbered c s.posted.length calls)) c',
      net.refused .to_daemon x.1 = false := by
  apply (Function.forall_update_iff s.to_daemon fun _ msgs =>
    ∀ x ∈ msgs, net.refused .to_daemon x.1 = false).mpr
  refine ⟨List.forall_mem_append.mpr ⟨h.sent c, ?_⟩, fun c' _ => h.sent c'⟩
  rintro ⟨k, frame⟩ hnew
  exact (mem_taken.mp hnew).2

/-- What the daemon has read and what it has written. -/
theorem Carrying.passes_sent (h : Carrying net s) {sender : client} {k : Nat} {frame : List UInt8}
    {more kept : List (Nat × List UInt8)} (hqueue : s.to_daemon sender = (k, frame) :: more)
    (hkept : kept.Sublist (net.taken .to_client [(k, frame)])) :
    (∀ c, ∀ x ∈ Function.update s.to_daemon sender more c, net.refused .to_daemon x.1 = false) ∧
      ∀ c, ∀ x ∈ Function.update s.to_client sender.other (s.to_client sender.other ++ kept) c,
        net.carries x.1 := by
  have hsent := h.sent sender
  rw [hqueue, List.forall_mem_cons] at hsent
  constructor
  · exact (Function.forall_update_iff s.to_daemon fun _ msgs =>
      ∀ x ∈ msgs, net.refused .to_daemon x.1 = false).mpr ⟨hsent.2, fun c _ => h.sent c⟩
  · apply (Function.forall_update_iff s.to_client fun _ msgs => ∀ x ∈ msgs, net.carries x.1).mpr
    refine ⟨List.forall_mem_append.mpr ⟨h.passed sender.other, ?_⟩, fun c _ => h.passed c⟩
    rintro ⟨j, frame'⟩ hnew
    obtain ⟨hin, hpassed⟩ := mem_taken.mp (hkept.subset hnew)
    cases List.mem_singleton.mp hin
    rw [setup.carries, hsent.1, hpassed]
    rfl

/-- The reader has taken the first message. -/
theorem Carrying.taken (h : Carrying net s) {reader : client} {k : Nat} {frame : List UInt8}
    {more : List (Nat × List UInt8)} (hqueue : s.to_client reader = (k, frame) :: more) :
    net.carries k ∧
      Carrying net { s with to_client := Function.update s.to_client reader more } := by
  have hpassed := h.passed reader
  rw [hqueue, List.forall_mem_cons] at hpassed
  refine ⟨hpassed.1, (h.read_by hqueue).1, h.sent, ?_⟩
  exact (Function.forall_update_iff s.to_client fun _ msgs => ∀ x ∈ msgs, net.carries x.1).mpr
    ⟨hpassed.2, fun c _ => h.passed c⟩

theorem Carrying.step {e : mesh_event} (h : Carrying net s) (hstep : MeshStep net s e s') :
    Carrying net s' := by
  have hflowing := (h.toFlowing.step hstep).1
  cases h.happens hstep with
  | nothing hidle => exact h
  | begins hown hposts => exact ⟨hflowing, h.goes_sent _ _, h.passed⟩
  | passes hqueue hposted hsender hkept hpassed =>
    obtain ⟨hsent, hpassed⟩ := h.passes_sent hqueue hkept
    exact ⟨hflowing, hsent, hpassed⟩
  | answers hqueue hposted hsender hreacts =>
    obtain ⟨-, htaken⟩ := h.taken hqueue
    exact ⟨hflowing, htaken.goes_sent _ _, htaken.passed⟩

theorem takes_of_not_delivers {e : mesh_event} (h : ¬ e.Delivers s) (c : client) :
    e.takes s c = none := by
  cases e with
  | client_reads reader controller rest =>
    have hnil : s.to_client reader = [] := by
      by_contra hne
      exact h hne
    rw [mesh_event.takes, hnil]
    split <;> rfl
  | cfgmgr_timer | agent_receives | agent_sends | daemon_reads => rfl

theorem takes_reader {reader : client} {controller : Option controller_info_s}
    {rest frame : List UInt8} {k : Nat} {more : List (Nat × List UInt8)} {m : posted_msg}
    (hqueue : s.to_client reader = (k, frame) :: more) (hposted : s.posted[k]? = some m) :
    (mesh_event.client_reads reader controller rest).takes s reader.other = some m.call := by
  rw [mesh_event.takes, client.other_other, if_pos rfl, hqueue, List.head?_cons, Option.bind_some,
    hposted]
  rfl

theorem all_goes (net : setup) (s : mesh_system) (c c' : client) :
    (s.goes net c cause calls frames).all f c' =
      s.all f c' ++ if c = c' then calls.flatMap (f c') else [] := by
  rw [mesh_system.all, mesh_system.goes, List.flatMap_append, mesh_system.all]
  congr 1
  rw [posted_by, List.flatMap_map]
  split
  · rfl
  · exact List.flatMap_eq_nil_iff.mpr fun _ _ => rfl

/-- Refused messages are posted, too. -/
theorem carried_sublist_all (net : setup) (s : mesh_system) (c : client) :
    (s.carried f net c).Sublist (s.all f c) := by
  have hall : s.all f c = s.posted.zipIdx.flatMap fun x =>
      if x.1.sender = c then f c x.1.call else [] := by
    conv_lhs => rw [mesh_system.all, ← List.zipIdx_map_fst 0 s.posted, List.flatMap_map]
  rw [hall, mesh_system.carried]
  refine List.Sublist.flatMap_right _ fun x _ => ?_
  split
  · split
    · exact .refl _
    · exact List.nil_sublist _
  · exact .refl _

theorem carried_goes (net : setup) (s : mesh_system) (c c' : client) :
    (s.goes net c cause calls frames).carried f net c' =
      s.carried f net c' ++ if c = c' then net.carried f c' s.posted.length calls else [] := by
  rw [mesh_system.carried, mesh_system.goes, List.zipIdx_append, List.flatMap_append,
    mesh_system.carried]
  congr 1
  rw [posted_by, List.zipIdx_map, List.flatMap_map, Nat.zero_add]
  split
  · rename_i hsame
    exact List.flatMap_congr fun _ _ => if_pos hsame
  · rename_i hother
    exact List.flatMap_eq_nil_iff.mpr fun _ _ => if_neg hother

/-- What is ahead on a path that was there before the calls. -/
theorem Flowing.ahead_old (h : Flowing net s) (c' : client) :
    ((s.path c').flatMap fun x => if net.carries x.1 then
        (((s.goes net c cause calls frames).posted[x.1]?).map fun m => f c' m.call).getD [] else []) =
      s.ahead f net c' := by
  apply List.flatMap_congr
  rintro ⟨k, frame⟩ hmem
  rw [posted_goes_of_lt (h.lt_of_mem hmem)]

/-- What is refused stands for nothing. -/
theorem taken_flatMap {g : Nat × List UInt8 → List β} {h : hop}
    (hnone : ∀ x, net.refused h x.1 → g x = []) (msgs : List (Nat × List UInt8)) :
    (net.taken h msgs).flatMap g = msgs.flatMap g := by
  induction msgs with
  | nil => rfl
  | cons x msgs ih =>
    rw [setup.taken, List.filter_cons, List.flatMap_cons]
    cases hrefused : net.refused h x.1 with
    | true =>
      rw [hnone x hrefused, if_neg (by simp), List.nil_append]
      exact ih
    | false =>
      rw [if_pos (by simp), List.flatMap_cons]
      exact congrArg (g x ++ ·) ih

theorem not_carries {h : hop} {k : Nat} (hrefused : net.refused h k) : net.carries k = false := by
  rw [setup.carries]
  cases h with
  | to_daemon => rw [hrefused, Bool.not_true, Bool.false_and]
  | to_client => rw [hrefused, Bool.not_true, Bool.and_false]

theorem ahead_new (net : setup) (s : mesh_system) (c : client) :
    ((net.taken .to_daemon (numbered c s.posted.length calls)).flatMap fun x =>
        if net.carries x.1 then
          (((s.goes net c cause calls frames).posted[x.1]?).map fun m => f c m.call).getD []
        else []) =
      net.carried f c s.posted.length calls := by
  have hget (k : Nat) (call : mbus_call) (hcall : calls[k]? = some call) :
      (s.goes net c cause calls frames).posted[s.posted.length + k]? =
        some { sender := c, call, cause } := by
    rw [mesh_system.goes, List.getElem?_append_right (Nat.le_add_right _ _),
      Nat.add_sub_cancel_left, posted_by, List.getElem?_map, hcall]
    rfl
  have hnone (x : Nat × List UInt8) (hrefused : net.refused .to_daemon x.1) :
      (if net.carries x.1 then
        (((s.goes net c cause calls frames).posted[x.1]?).map fun m => f c m.call).getD []
        else []) = [] :=
    if_neg (Bool.not_eq_true _ ▸ not_carries hrefused)
  rw [taken_flatMap hnone, numbered, List.flatMap_map, setup.carried]
  apply List.flatMap_congr
  rintro ⟨call, k⟩ hmem
  obtain ⟨hle, hcall⟩ := List.mem_zipIdx_iff_le_and_getElem?_sub.mp hmem
  have hposted := hget (k - s.posted.length) call hcall
  rw [Nat.add_sub_cancel' hle] at hposted
  dsimp only
  rw [hposted]
  rfl

theorem Flowing.ahead_goes (h : Flowing net s) (c c' : client) :
    (s.goes net c cause calls frames).ahead f net c' =
      s.ahead f net c' ++ if c = c' then net.carried f c' s.posted.length calls else [] := by
  by_cases hsame : c = c'
  · subst hsame
    rw [mesh_system.ahead, path_goes_self, List.flatMap_append, h.ahead_old, ahead_new,
      if_pos rfl]
  · rw [mesh_system.ahead, path_goes_of_ne (Ne.symm hsame), h.ahead_old, if_neg hsame,
      List.append_nil]

/-- The daemon keeps what it passes on in its place on the path. -/
theorem ahead_passes {sender : client} {k : Nat} {frame : List UInt8}
    {more kept : List (Nat × List UInt8)} {m : posted_msg} {b : daemon}
    (hrequest : ∀ c call, c.called call = none → f c call = [])
    (hqueue : s.to_daemon sender = (k, frame) :: more) (hposted : s.posted[k]? = some m)
    (hkept : kept.Sublist (net.taken .to_client [(k, frame)]))
    (hpassed : (sender.called m.call).isSome → kept = net.taken .to_client [(k, frame)])
    (c : client) :
    mesh_system.ahead f net { s with
      daemon := b
      to_daemon := Function.update s.to_daemon sender more
      to_client := Function.update s.to_client sender.other (s.to_client sender.other ++ kept) } c =
        s.ahead f net c := by
  by_cases hsame : c = sender
  · subst hsame
    let g (x : Nat × List UInt8) : List β :=
      if net.carries x.1 then ((s.posted[x.1]?).map fun m : posted_msg => f c m.call).getD [] else []
    have hflat : kept.flatMap g = g (k, frame) := by
      cases hcalled : c.called m.call with
      | some call =>
        rw [hpassed (Option.isSome_of_eq_some hcalled),
          taken_flatMap fun x hrefused => if_neg (Bool.not_eq_true _ ▸ not_carries hrefused),
          List.flatMap_singleton]
      | none =>
        have hnone : g (k, frame) = [] := by
          simp only [g, hposted, Option.map_some, Option.getD_some, hrequest c m.call hcalled,
            ite_self]
        rw [hnone, List.flatMap_eq_nil_iff]
        intro x hx
        obtain rfl := List.mem_singleton.mp ((hkept.trans (taken_sublist _ _ _)).subset hx)
        exact hnone
    simp only [mesh_system.ahead, mesh_system.path, Function.update_self, hqueue,
      List.append_assoc]
    change (s.to_client c.other ++ (kept ++ more)).flatMap g =
      (s.to_client c.other ++ (k, frame) :: more).flatMap g
    rw [List.flatMap_append, List.flatMap_append, hflat, List.flatMap_append, List.flatMap_cons]
  · obtain rfl := client.eq_other hsame
    simp only [mesh_system.ahead, mesh_system.path, client.other_other,
      Function.update_of_ne (client.other_ne _), Function.update_of_ne (client.other_ne _).symm]

/-- The reader takes the first message on the path of the other client. -/
theorem ahead_taken {reader : client} {k : Nat} {frame : List UInt8}
    {more : List (Nat × List UInt8)} {m : posted_msg} (hcarries : net.carries k)
    (hqueue : s.to_client reader = (k, frame) :: more) (hposted : s.posted[k]? = some m) :
    let taken := { s with to_client := Function.update s.to_client reader more }
    s.ahead f net reader.other = f reader.other m.call ++ taken.ahead f net reader.other ∧
      s.ahead f net reader = taken.ahead f net reader := by
  constructor
  · simp only [mesh_system.ahead, mesh_system.path, client.other_other, Function.update_self,
      hqueue, List.cons_append, List.flatMap_cons, hposted, hcarries]
    rfl
  · simp only [mesh_system.ahead, mesh_system.path, Function.update_of_ne (client.other_ne reader)]

/-- A queue for each client: what a step adds to its messages goes to the end of what is
ahead, and what the other client reads is taken from the front. -/
theorem Carrying.fifo_step {e : mesh_event} (h : Carrying net s)
    (hrequest : ∀ c call, c.called call = none → f c call = []) (hstep : MeshStep net s e s')
    (c : client) :
    ∃ added, s'.carried f net c = s.carried f net c ++ added ∧
      s.ahead f net c ++ added = ((e.takes s c).map (f c)).getD [] ++ s'.ahead f net c := by
  cases h.happens hstep with
  | nothing hidle =>
    refine ⟨[], (List.append_nil _).symm, ?_⟩
    rw [takes_of_not_delivers hidle, List.append_nil]
    rfl
  | @begins e sender calls frames w env hown hposts =>
    refine ⟨_, @carried_goes _ f none calls frames net s sender c, ?_⟩
    rw [takes_of_not_delivers hown]
    exact (@Flowing.ahead_goes _ f net s none calls frames h.toFlowing sender c).symm
  | passes hqueue hposted hsender hkept hpassed =>
    refine ⟨[], (List.append_nil _).symm, ?_⟩
    rw [List.append_nil, ahead_passes hrequest hqueue hposted hkept hpassed]
    rfl
  | @answers reader controller rest frame k more m calls frames w env hqueue hposted hsender
      hreacts =>
    obtain ⟨hcarries, htaken⟩ := h.taken hqueue
    obtain ⟨hother, hreader⟩ := @ahead_taken _ f net s reader k frame more m hcarries hqueue hposted
    have hgoes := @Flowing.ahead_goes _ f net _ (some k) calls frames htaken.toFlowing reader c
    refine ⟨_, @carried_goes _ f (some k) calls frames net
      { s with to_client := Function.update s.to_client reader more } reader c, ?_⟩
    change _ = _ ++ mesh_system.ahead f net (mesh_system.goes net _ reader (some k) calls frames) c
    by_cases hsame : reader = c
    · subst hsame
      have htakes : (mesh_event.client_reads reader controller rest).takes s reader = none :=
        if_neg (client.other_ne reader).symm
      rw [hgoes, if_pos rfl, htakes, hreader]
      rfl
    · obtain rfl := client.eq_other (Ne.symm hsame)
      rw [hgoes, if_neg hsame, takes_reader hqueue hposted, hother, List.append_nil,
        List.append_nil]
      rfl

end Fifo

/-- What the `msg_cb` of each client has been called with. -/
def callbacks (h : client → List msg_cb_call) (s : mesh_system) (e : mesh_event)
    (_ : mesh_system) : client → List msg_cb_call :=
  match e with
  | .client_reads reader _ rest =>
    match (s.to_client reader).head? with
    | none => h
    | some (_, frame) =>
      match mbus_handle_msg (frame ++ rest) with
      | ok (some call) => Function.update h reader (h reader ++ [call])
      | _ => h
  | _ => h

/-- The messages of a client as the other one is to be called back with them. -/
def client.message (c : client) (call : mbus_call) : List msg_cb_call := (c.called call).toList

/-- What a client was called back with is what the other one sent, without what `io_write`
refused and what is under way. -/
def Delivered (net : setup) (h : client → List msg_cb_call) (s : mesh_system) : Prop :=
  ∀ c : client, h c.other ++ s.ahead client.message net c = s.carried client.message net c

section Runs

variable {net : setup} {s s' : mesh_system} {tr : List (mesh_event × mesh_system)}

theorem Flowing.callbacks_eq {e : mesh_event} (h : Flowing net s) (hist : client → List msg_cb_call)
    (c : client) :
    callbacks hist s e s' c.other =
      hist c.other ++ ((e.takes s c).map c.message).getD [] := by
  cases e with
  | cfgmgr_timer | agent_receives | agent_sends | daemon_reads =>
    exact (List.append_nil _).symm
  | client_reads reader controller rest =>
    rw [callbacks, mesh_event.takes]
    cases hqueue : s.to_client reader with
    | nil =>
      split
      · exact (List.append_nil _).symm
      · exact (List.append_nil _).symm
    | cons first more =>
      obtain ⟨k, frame⟩ := first
      obtain ⟨-, -, m, hm, hsender, rfl⟩ := h.read_by hqueue
      have hposts := h.posts m (List.mem_of_getElem? hm)
      rw [hsender] at hposts
      dsimp only [List.head?_cons]
      rw [hposts.called_back rest, Option.bind_some, hm]
      by_cases hreader : reader = c.other
      · subst hreader
        rw [if_pos rfl, client.other_other]
        change _ = _ ++ c.message m.call
        rw [client.message]
        cases c.called m.call with
        | none => exact (List.append_nil _).symm
        | some call => exact Function.update_self _ _ _
      · rw [if_neg hreader]
        cases reader.other.called m.call with
        | none => exact (List.append_nil _).symm
        | some call =>
          exact (Function.update_of_ne (Ne.symm hreader) _ _).trans (List.append_nil _).symm

theorem Delivered.step {e : mesh_event} {hist : client → List msg_cb_call}
    (h : Delivered net hist s) (hcarrying : Carrying net s) (hstep : MeshStep net s e s') :
    Delivered net (callbacks hist s e s') s' := by
  intro c
  have hrequest (c : client) (call : mbus_call) (hnone : c.called call = none) :
      c.message call = [] := by
    rw [client.message, hnone]
    rfl
  obtain ⟨added, hall, hahead⟩ := hcarrying.fifo_step hrequest hstep c
  rw [hcarrying.callbacks_eq, List.append_assoc, ← hahead, ← List.append_assoc, h c, hall]

/-- Where no write of a message is refused, all of them are carried. -/
theorem carried_eq_all {β : Type} (f : client → mbus_call → List β)
    (h : ∀ k < s.posted.length, net.carries k) (c : client) : s.carried f net c = s.all f c := by
  conv_rhs => rw [mesh_system.all, ← List.zipIdx_map_fst 0 s.posted, List.flatMap_map]
  rw [mesh_system.carried]
  apply List.flatMap_congr
  rintro ⟨m, k⟩ hmem
  have hcarries := h k (List.snd_lt_of_mem_zipIdx hmem)
  simp only [hcarries, if_true]

/-- Along every run each client is called back with the messages that the other one sent
and `io_write` did not refuse, in their order, none twice and none but those; what is
missing is under way. Where nothing was refused, these are all that were sent. -/
theorem bus_is_reliable (hstart : Start net s) (hrun : Run (MeshStep net) s tr) :
    AllRecorded callbacks (fun hist s e s' => Delivered net (callbacks hist s e s') s')
        (fun _ => []) s tr ∧
      ∀ x ∈ tr, (∀ k < x.2.posted.length, net.carries k) →
        ∀ c, x.2.carried client.message net c = x.2.all client.message c := by
  have hnone : Delivered net (fun _ => []) s := by
    intro c
    rw [mesh_system.ahead, hstart.idle c, mesh_system.carried, hstart.posted]
    rfl
  have hkeep {hist : client → List msg_cb_call} {s s' : mesh_system} {e : mesh_event}
      (h : Carrying net s ∧ Delivered net hist s) (hstep : MeshStep net s e s') :
      Delivered net (callbacks hist s e s') s' ∧
        Carrying net s' ∧ Delivered net (callbacks hist s e s') s' :=
    ⟨h.2.step h.1 hstep, h.1.step hstep, h.2.step h.1 hstep⟩
  refine ⟨Run.allRecorded_of_keeps hkeep ⟨hstart.carrying, hnone⟩ hrun, ?_⟩
  exact fun x _ hnone c => carried_eq_all client.message hnone c

/-- The queue to the agent is full when the daemon writes the second message. -/
def second_refused : setup :=
  { one_interface with refused := fun h k => decide (h = .to_client ∧ k = 1) }

theorem second_refused_start : Start second_refused controller_known :=
  ⟨controller_known_start.daemon, controller_known_start.logged_in, controller_known_start.idle,
    controller_known_start.posted, controller_known_start.sent⟩

/-- Of two searches the agent gets the first, and the copy of that comes back. -/
def search_lost : List mesh_event :=
  [.cfgmgr_timer 10000000, .daemon_reads .cfg_mgr 4 [], .daemon_reads .cfg_mgr 4 [],
    .client_reads .mesh_agent none [], .daemon_reads .mesh_agent 4 [],
    .client_reads .cfg_mgr none [], .client_reads .mesh_agent none []]

def lossy_run : List (mesh_event × mesh_system) :=
  trace (fun s e => (s.exec second_refused e).getD s) controller_known search_lost

theorem search_is_delivered :
    Run (MeshStep second_refused) controller_known lossy_run ∧
      ((endState controller_known lossy_run).all client.message .cfg_mgr).length = 2 ∧
      (endHistory callbacks (fun _ => []) controller_known lossy_run .mesh_agent).length = 1 ∧
      (endHistory callbacks (fun _ => []) controller_known lossy_run .cfg_mgr).length = 1 ∧
      AllRecorded callbacks (fun hist s e s' => Delivered second_refused (callbacks hist s e s') s')
        (fun _ => []) controller_known lossy_run := by
  have hrun : Run (MeshStep second_refused) controller_known lossy_run :=
    run_trace_guarded (by decide +kernel)
  exact ⟨hrun, by decide +kernel, by decide +kernel, by decide +kernel,
    (bus_is_reliable second_refused_start hrun).1⟩

/-- The frames that the agent gave to the sockets because of messages. -/
def mesh_system.relayed (s : mesh_system) : List (Int × List UInt8) :=
  (s.sent.filter fun f => f.cause.isSome).map fun f => (f.fd, f.frame)

theorem relayed_goes (net : setup) (s : mesh_system) (c : client) (cause : Option Nat) (calls : List mbus_call)
    (frames : List (Int × List UInt8)) :
    (s.goes net c cause calls frames).relayed =
      s.relayed ++ if cause.isSome then frames else [] := by
  rw [mesh_system.relayed, mesh_system.goes, List.filter_append, List.map_append,
    mesh_system.relayed]
  congr 1
  cases cause with
  | none =>
    have hnone : (sent_by none frames).filter (fun f => f.cause.isSome) = [] := by
      rw [List.filter_eq_nil_iff]
      intro f hf
      obtain ⟨x, -, rfl⟩ := List.mem_map.mp hf
      exact Bool.false_ne_true
    rw [hnone]
    rfl
  | some k =>
    have hall : (sent_by (some k) frames).filter (fun f => f.cause.isSome) =
        sent_by (some k) frames := by
      rw [List.filter_eq_self]
      intro f hf
      obtain ⟨x, -, rfl⟩ := List.mem_map.mp hf
      rfl
    rw [hall, sent_by, List.map_map]
    exact List.map_id _

theorem Flowing.relayed_step {e : mesh_event} (h : Flowing net s) (hstep : MeshStep net s e s') :
    s'.relayed = s.relayed ++ ((e.takes s .cfg_mgr).map (net.forwards .cfg_mgr)).getD [] := by
  cases h.happens hstep with
  | nothing hidle =>
    rw [takes_of_not_delivers hidle]
    exact (List.append_nil _).symm
  | @begins e c calls frames w env hown hposts =>
    rw [takes_of_not_delivers hown]
    exact relayed_goes net s c none calls frames
  | passes hqueue hposted hsender hkept hpassed => exact (List.append_nil _).symm
  | @answers reader controller rest frame k more m calls frames w env hqueue hposted hsender
      hreacts =>
    refine (relayed_goes net _ reader (some k) calls frames).trans ?_
    change s.relayed ++ frames = _
    rw [hreacts.forwards]
    cases reader with
    | cfg_mgr => rfl
    | mesh_agent =>
      have htakes : (mesh_event.client_reads .mesh_agent controller rest).takes s .cfg_mgr =
          some m.call := takes_reader hqueue hposted
      rw [htakes]
      rfl

/-- The frames that messages made the agent send are those of the packets of the `cfg_mgr`
that were not refused and are not under way any more. -/
def FramesSent (net : setup) (s : mesh_system) : Prop :=
  s.relayed ++ s.ahead net.forwards net .cfg_mgr = s.carried net.forwards net .cfg_mgr

theorem Start.frames_sent (h : Start net s) : FramesSent net s := by
  rw [FramesSent, mesh_system.relayed, h.sent, mesh_system.ahead, h.idle, mesh_system.carried,
    h.posted]
  rfl

theorem FramesSent.step {e : mesh_event} (h : FramesSent net s) (hcarrying : Carrying net s)
    (hstep : MeshStep net s e s') : FramesSent net s' := by
  obtain ⟨added, hall, hahead⟩ := hcarrying.fifo_step
    (fun _ _ hrequest => net.forwards_request hrequest) hstep .cfg_mgr
  rw [FramesSent, hcarrying.relayed_step hstep, List.append_assoc, ← hahead, ← List.append_assoc, h,
    hall]

/-- In every state of a run the frames that messages made the agent send are the CMDUs of
the packets of the `cfg_mgr` that `io_write` did not refuse, each once, as they are, in
their order and on the interfaces that they name; what is missing is in packets under way.
Where nothing was refused, these are all its packets. -/
theorem frames_in_order (hstart : Start net s) (hrun : Run (MeshStep net) s tr) :
    ∀ x ∈ tr, x.2.relayed ++ x.2.ahead net.forwards net .cfg_mgr =
        x.2.carried net.forwards net .cfg_mgr ∧
      ((∀ k < x.2.posted.length, net.carries k) →
        x.2.carried net.forwards net .cfg_mgr = x.2.all net.forwards .cfg_mgr) := by
  have hkeep {s s' : mesh_system} {e : mesh_event} (h : Carrying net s ∧ FramesSent net s)
      (hstep : MeshStep net s e s') : Carrying net s' ∧ FramesSent net s' :=
    ⟨h.1.step hstep, h.2.step h.1 hstep⟩
  intro x hx
  have hinv := Run.invariant (J := fun s => Carrying net s ∧ FramesSent net s)
    hkeep ⟨hstart.carrying, hstart.frames_sent⟩ hrun x hx
  exact ⟨hinv.2, fun hnone => carried_eq_all net.forwards hnone .cfg_mgr⟩

theorem search_is_relayed :
    Run (MeshStep second_refused) controller_known lossy_run ∧
      ((endState controller_known lossy_run).all second_refused.forwards .cfg_mgr).length = 2 ∧
      (endState controller_known lossy_run).relayed.length = 1 ∧
      ∀ x ∈ lossy_run, x.2.relayed ++ x.2.ahead second_refused.forwards second_refused .cfg_mgr =
        x.2.carried second_refused.forwards second_refused .cfg_mgr := by
  have hrun : Run (MeshStep second_refused) controller_known lossy_run :=
    run_trace_guarded (by decide +kernel)
  exact ⟨hrun, by decide +kernel, by decide +kernel,
    fun x hx => (frames_in_order second_refused_start hrun x hx).1⟩

end Runs

end easymesh.system
