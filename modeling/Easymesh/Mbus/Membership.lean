import Easymesh.Mbus.Delivery

open Lib Lib.Result

namespace easymesh.mbusd

/-- What can be said of a run without the daemon: the open connections that have
logged in, each with its name, the groups made, and when a connection joined a
group, as long as it has not left it since. -/
structure history where
  time : Nat
  users : List (Nat × List UInt8)
  groups : List (List UInt8)
  joined : Nat → List UInt8 → Option Nat

/-- The requests that change the registry. -/
inductive request where
  | login (name : List UInt8)
  | create (name : List UInt8)
  | join (name : List UInt8)
  | leave (name : List UInt8)
  deriving DecidableEq, Repr

def msg_request (msg : List UInt8) : Option request :=
  (login_name msg).map .login <|> (create_name msg).map .create <|> (join_name msg).map .join <|>
    (leave_name msg).map .leave

namespace history

variable (h : history) (fd : Nat) (name : List UInt8)

def connections : List Nat := h.users.map Prod.fst

def name_of : Option (List UInt8) := (h.users.find? fun user => user.1 = fd).map Prod.snd

/-- A request succeeds when its name is free, for a login or a new group, and
when a user that is no member asks for a group that there is. -/
def answer : request → history
  | .login name =>
    if name ∈ h.users.map Prod.snd then h else { h with users := h.users ++ [(fd, name)] }
  | .create name => if name ∈ h.groups then h else { h with groups := h.groups ++ [name] }
  | .join name =>
    if fd ∈ h.connections ∧ name ∈ h.groups ∧ h.joined fd name = none then
      { h with joined := fun fd' name' =>
          if fd' = fd ∧ name' = name then some h.time else h.joined fd' name' }
    else h
  | .leave name =>
    { h with joined := fun fd' name' =>
        if fd' = fd ∧ name' = name then none else h.joined fd' name' }

/-- A user that is gone has left all groups. -/
def close : history :=
  { h with
    users := h.users.filter fun user => user.1 ≠ fd
    joined := fun fd' name' => if fd' = fd then none else h.joined fd' name' }

def tick : history := { h with time := h.time + 1 }

def after : bus_event → history
  | .accept _ => h.tick
  | .message fd msg _ =>
    match msg_request msg with
    | some r => (h.answer fd r).tick
    | none => h.tick
  | .close fd | .full fd => (h.close fd).tick

/-- The history before the first connection. -/
def start : history := { time := 0, users := [], groups := [], joined := fun _ _ => none }

/-- The connection joined the group at an earlier time than the other one. -/
def JoinedBefore (fd fd' : Nat) : Prop :=
  ∃ t t', h.joined fd name = some t ∧ h.joined fd' name = some t' ∧ t < t'

/-- A login that can succeed comes on a connection that has not logged in. -/
def LogsInOnce : bus_event → Prop
  | .message fd msg _ => ∀ name ∈ login_name msg, name ∉ h.users.map Prod.snd → fd ∉ h.connections
  | _ => True

/-- A connection that has logged in ends with a close, not with a full buffer. -/
def ClosedByPeer : bus_event → Prop
  | .full fd => fd ∉ h.connections
  | _ => True

instance : ∀ e, Decidable (h.LogsInOnce e)
  | .message _ msg _ => inferInstanceAs (Decidable (∀ name ∈ login_name msg, _))
  | .accept _ | .close _ | .full _ => inferInstanceAs (Decidable True)

instance : ∀ e, Decidable (h.ClosedByPeer e)
  | .full fd => inferInstanceAs (Decidable (fd ∉ h.connections))
  | .accept _ | .message _ _ _ | .close _ => inferInstanceAs (Decidable True)

structure WellFormed : Prop where
  connections : h.connections.Nodup
  joined : ∀ fd name, (h.joined fd name).isSome → fd ∈ h.connections ∧ name ∈ h.groups
  past : ∀ fd name t, h.joined fd name = some t → t < h.time

end history

/-- The users of a group are those that joined and have not left it since, in the
order in which they joined. -/
def ListsMembers (h : history) (name : List UInt8) (users : List (List UInt8)) : Prop :=
  ∃ fds : List Nat, users.map cstring = fds.map h.name_of ∧ fds.Pairwise (h.JoinedBefore name) ∧
    ∀ fd, fd ∈ fds ↔ (h.joined fd name).isSome

/-- The registries say what the history says. -/
structure Follows (h : history) (b : daemon) : Prop where
  clients : (b.g_clients.map fun cli => (cli.io, cstring cli.name)) =
    h.users.map fun user => (some user.1, some user.2)
  groups : b.group_names = h.groups.map some
  members : ∀ group ∈ b.g_groups, ∀ name, cstring group.group_name = some name →
    ListsMembers h name group.users

/-- The close of a connection takes its user out of every group, and nobody else. -/
def OnlyUserLeaves (h : history) (fd : Nat) (b b' : daemon) : Prop :=
  List.Forall₂ (fun group group' : group_t => group'.group_name = group.group_name ∧
    group'.users.map cstring = (group.users.map cstring).filter fun user => user ≠ h.name_of fd)
    b.g_groups b'.g_groups

/-- After a step the registries say what the history says, no group has a user
twice, and the users are the open connections with a client. -/
structure RegistryFollows (h : history) (b : daemon) (e : bus_event) (b' : daemon) : Prop where
  follows : Follows (h.after e) b'
  nodup : ∀ group ∈ b'.g_groups, (group.users.map cstring).Nodup
  connections : ∀ fd, fd ∈ (h.after e).connections ↔
    (b'.ios fd).opened = true ∧ (b'.ios fd).arg ≠ 0
  closed : ∀ fd, e = .close fd → OnlyUserLeaves h fd b b'

/-- Names are short, no connection logs in twice, and the connections of users are
closed by their peers. -/
def UsersBehave (h : history) (b : daemon) (e : bus_event) (b' : daemon) : Prop :=
  ShortNames b e b' ∧ h.LogsInOnce e ∧ h.ClosedByPeer e

instance (h : history) (b : daemon) (e : bus_event) (b' : daemon) :
    Decidable (UsersBehave h b e b') := inferInstanceAs (Decidable (_ ∧ _))

namespace history

variable {h h' : history} {e : bus_event} {fd fd' : Nat} {name : List UInt8} {r : request}

theorem mem_connections_iff : fd ∈ h.connections ↔ ∃ name, (fd, name) ∈ h.users := by
  simp [connections]

theorem WellFormed.name_of_eq_some_iff (hwf : h.WellFormed) :
    h.name_of fd = some name ↔ (fd, name) ∈ h.users := by
  have hfound {user : Nat × List UInt8}
      (hfind : (h.users.find? fun user => user.1 = fd) = some user) : user.1 = fd := by
    have hsome := List.find?_some hfind
    exact of_decide_eq_true hsome
  rw [name_of, Option.map_eq_some_iff]
  constructor
  · rintro ⟨user, hfind, rfl⟩
    have hmem := List.mem_of_find?_eq_some hfind
    rwa [← hfound hfind]
  · intro hmem
    obtain ⟨user, hfind⟩ : ∃ user, (h.users.find? fun user => user.1 = fd) = some user := by
      rw [← Option.isSome_iff_exists, List.find?_isSome]
      exact ⟨(fd, name), hmem, decide_eq_true rfl⟩
    have hfd := hfound hfind
    have huser := List.inj_on_of_nodup_map hwf.connections (List.mem_of_find?_eq_some hfind) hmem hfd
    exact ⟨user, hfind, by rw [huser]⟩

theorem name_of_none (hfd : fd ∉ h.connections) : h.name_of fd = none := by
  rw [name_of, Option.map_eq_none_iff, List.find?_eq_none]
  intro user huser heq
  have hmem : user.1 ∈ h.connections := List.mem_map_of_mem huser
  rw [of_decide_eq_true heq] at hmem
  exact hfd hmem

theorem WellFormed.joined_none (hwf : h.WellFormed) (hnot : fd ∉ h.connections ∨ name ∉ h.groups) :
    h.joined fd name = none := by
  by_contra hjoined
  obtain ⟨hfd, hname⟩ := hwf.joined fd name (Option.isSome_iff_ne_none.mpr hjoined)
  obtain hnot | hnot := hnot
  · exact hnot hfd
  · exact hnot hname

theorem WellFormed.tick (hwf : h.WellFormed) : h.tick.WellFormed :=
  ⟨hwf.connections, hwf.joined, fun fd name t ht => Nat.lt_succ_of_lt (hwf.past fd name t ht)⟩

theorem WellFormed.close (hwf : h.WellFormed) (fd : Nat) : (h.close fd).WellFormed := by
  refine ⟨?_, fun fd' name hjoined => ?_, fun fd' name t ht => ?_⟩
  · exact (List.filter_sublist.map _).nodup hwf.connections
  · simp only [history.close] at hjoined
    split at hjoined
    · cases hjoined
    · next hne =>
      obtain ⟨hfd, hname⟩ := hwf.joined fd' name hjoined
      obtain ⟨own, hmem⟩ := mem_connections_iff.mp hfd
      have hstays : (fd', own) ∈ (h.close fd).users :=
        List.mem_filter.mpr ⟨hmem, decide_eq_true hne⟩
      exact ⟨mem_connections_iff.mpr ⟨own, hstays⟩, hname⟩
  · simp only [history.close] at ht
    split at ht
    · cases ht
    · exact hwf.past fd' name t ht

/-- A request that succeeds leaves the history well formed at the next tick. -/
theorem WellFormed.answer (hwf : h.WellFormed)
    (honce : ∀ name, r = .login name → name ∉ h.users.map Prod.snd → fd ∉ h.connections) :
    (h.answer fd r).tick.WellFormed := by
  cases r with
  | login name =>
    rw [history.answer]
    split
    · exact hwf.tick
    · next hnew =>
      refine ⟨?_, fun fd' name' hjoined => ?_, hwf.tick.past⟩
      · have hnodup : ((h.users ++ [(fd, name)]).map Prod.fst).Nodup := by
          rw [List.map_append, List.map_singleton, ← List.concat_eq_append, List.nodup_concat]
          exact ⟨honce name rfl hnew, hwf.connections⟩
        exact hnodup
      · obtain ⟨hfd, hname⟩ := hwf.joined fd' name' hjoined
        exact ⟨List.map_subset _ (List.subset_append_left _ _) hfd, hname⟩
  | create name =>
    rw [history.answer]
    split
    · exact hwf.tick
    · refine ⟨hwf.connections, fun fd' name' hjoined => ?_, hwf.tick.past⟩
      obtain ⟨hfd, hname⟩ := hwf.joined fd' name' hjoined
      exact ⟨hfd, List.mem_append_left _ hname⟩
  | join name =>
    rw [history.answer]
    split
    · next hjoins =>
      refine ⟨hwf.connections, fun fd' name' hjoined => ?_, fun fd' name' t ht => ?_⟩
      · simp only [history.tick] at hjoined
        split at hjoined
        · next heq =>
          obtain ⟨rfl, rfl⟩ := heq
          exact ⟨hjoins.1, hjoins.2.1⟩
        · exact hwf.joined fd' name' hjoined
      · simp only [history.tick] at ht
        split at ht
        · cases ht
          exact Nat.lt_succ_self _
        · exact hwf.tick.past fd' name' t ht
    · exact hwf.tick
  | leave name =>
    refine ⟨hwf.connections, fun fd' name' hjoined => ?_, fun fd' name' t ht => ?_⟩
    · simp only [history.answer, history.tick] at hjoined
      split at hjoined
      · cases hjoined
      · exact hwf.joined fd' name' hjoined
    · simp only [history.answer, history.tick] at ht
      split at ht
      · cases ht
      · exact hwf.tick.past fd' name' t ht

end history

section Lists

variable {h h' : history} {b b' : daemon} {name : List UInt8} {users : List (List UInt8)} {fd : Nat}
  {cli : client_t} {group : group_t}

/-- A list of members stays right as long as the joins of its group and the names of
those that joined stay the same. -/
theorem ListsMembers.congr (hlists : ListsMembers h name users)
    (hjoined : ∀ fd, h'.joined fd name = h.joined fd name)
    (hnames : ∀ fd, (h.joined fd name).isSome → h'.name_of fd = h.name_of fd) :
    ListsMembers h' name users := by
  obtain ⟨fds, husers, horder, hfds⟩ := hlists
  refine ⟨fds, ?_, horder.imp fun hbefore => ?_, fun fd => ?_⟩
  · rw [husers]
    exact List.map_congr_left fun fd hfd => (hnames fd ((hfds fd).mp hfd)).symm
  · obtain ⟨t, t', ht, ht', hlt⟩ := hbefore
    exact ⟨t, t', (hjoined _).trans ht, (hjoined _).trans ht', hlt⟩
  · rw [hjoined]
    exact hfds fd

/-- A new member comes last. -/
theorem ListsMembers.joins (hlists : ListsMembers h name users) (hwf : h.WellFormed)
    {data : List UInt8} (hdata : cstring data = h.name_of fd)
    (hnew : h.joined fd name = none) (hnames : ∀ fd, h'.name_of fd = h.name_of fd)
    (hjoined : ∀ fd', h'.joined fd' name = if fd' = fd then some h.time else h.joined fd' name) :
    ListsMembers h' name (users ++ [data]) := by
  obtain ⟨fds, husers, horder, hfds⟩ := hlists
  have hfd : fd ∉ fds := by
    rw [hfds, hnew]
    exact Bool.false_ne_true
  have hold {fd'} (hfd' : fd' ∈ fds) : h'.joined fd' name = h.joined fd' name := by
    rw [hjoined, if_neg]
    rintro rfl
    exact hfd hfd'
  refine ⟨fds ++ [fd], ?_, ?_, fun fd' => ?_⟩
  · rw [List.map_append, List.map_append, husers, List.map_singleton, List.map_singleton, hdata,
      hnames, List.map_congr_left fun fd _ => (hnames fd).symm]
  · rw [List.pairwise_append]
    refine ⟨?_, List.pairwise_singleton _ _, fun fd₁ hfd₁ fd₂ hfd₂ => ?_⟩
    · refine horder.imp_of_mem fun hfd₁ hfd₂ hbefore => ?_
      obtain ⟨t, t', ht, ht', hlt⟩ := hbefore
      exact ⟨t, t', (hold hfd₁).trans ht, (hold hfd₂).trans ht', hlt⟩
    · cases List.mem_singleton.mp hfd₂
      obtain ⟨t, ht⟩ := Option.isSome_iff_exists.mp ((hfds fd₁).mp hfd₁)
      exact ⟨t, h.time, (hold hfd₁).trans ht, by rw [hjoined, if_pos rfl],
        hwf.past fd₁ name t ht⟩
  · rw [List.mem_append, List.mem_singleton, hfds, hjoined]
    split
    · next heq => simp [heq]
    · next hne => simp [hne]

/-- Who leaves is taken out of the list. -/
theorem ListsMembers.leaves (hlists : ListsMembers h name users) {users' : List (List UInt8)}
    (husers' : users'.map cstring = (users.map cstring).filter fun user => user ≠ h.name_of fd)
    (hown : ∀ fd', (h.joined fd' name).isSome → h.name_of fd' = h.name_of fd → fd' = fd)
    (hnames : ∀ fd', fd' ≠ fd → h'.name_of fd' = h.name_of fd')
    (hjoined : ∀ fd', h'.joined fd' name = if fd' = fd then none else h.joined fd' name) :
    ListsMembers h' name users' := by
  obtain ⟨fds, husers, horder, hfds⟩ := hlists
  have hkept {fd'} (hfd' : fd' ∈ fds.filter (· ≠ fd)) : fd' ∈ fds ∧ fd' ≠ fd := by
    simpa using hfd'
  refine ⟨fds.filter (· ≠ fd), ?_, ?_, fun fd' => ?_⟩
  · rw [husers', husers, List.filter_map, List.filter_congr (q := (· ≠ fd)) fun fd' hfd' => ?_]
    · exact List.map_congr_left fun fd' hfd' => (hnames fd' (hkept hfd').2).symm
    · have hiff : h.name_of fd' = h.name_of fd ↔ fd' = fd :=
        ⟨hown fd' ((hfds fd').mp hfd'), fun heq => by rw [heq]⟩
      simp [hiff]
  · refine (horder.filter _).imp_of_mem fun hfd₁ hfd₂ hbefore => ?_
    obtain ⟨t, t', ht, ht', hlt⟩ := hbefore
    exact ⟨t, t', by rw [hjoined, if_neg (hkept hfd₁).2, ht],
      by rw [hjoined, if_neg (hkept hfd₂).2, ht'], hlt⟩
  · rw [hjoined]
    split
    · next heq => simp [heq]
    · next hne => simp [hne, hfds]

end Lists

/-- The state of the daemon and the history of its run. -/
structure Tracked (h : history) (b : daemon) : Prop where
  follows : Follows h b
  wellFormed : h.WellFormed
  consistent : Consistent b
  linked : Linked b

section Clients

variable {h h' : history} {b b' : daemon} {name : List UInt8} {fd fd' : Nat} {cli : client_t}
  {group group' : group_t} {groupname : List UInt8} {i : Nat}

theorem Follows.user_names (hf : Follows h b) :
    b.user_names = h.users.map fun user => some user.2 := by
  have hsnd := congrArg (List.map Prod.snd) hf.clients
  simpa [daemon.user_names, Function.comp_def] using hsnd

theorem Follows.mem_user_names_iff (hf : Follows h b) :
    some name ∈ b.user_names ↔ name ∈ h.users.map Prod.snd := by
  simp [hf.user_names]

theorem Follows.mem_group_names_iff (hf : Follows h b) :
    some name ∈ b.group_names ↔ name ∈ h.groups := by
  simp [hf.groups]

theorem Follows.client_user (hf : Follows h b) (hcli : cli ∈ b.g_clients) :
    ∃ fd name, cli.io = some fd ∧ cstring cli.name = some name ∧ (fd, name) ∈ h.users := by
  have hmem : (cli.io, cstring cli.name) ∈ h.users.map fun user => (some user.1, some user.2) :=
    hf.clients ▸ List.mem_map_of_mem hcli
  obtain ⟨user, huser, heq⟩ := List.mem_map.mp hmem
  obtain ⟨hio, hname⟩ := Prod.mk.inj heq
  exact ⟨user.1, user.2, hio.symm, hname.symm, huser⟩

theorem Follows.user_client (hf : Follows h b) (huser : (fd, name) ∈ h.users) :
    ∃ cli ∈ b.g_clients, cli.io = some fd ∧ cstring cli.name = some name := by
  have hmem : (some fd, some name) ∈ b.g_clients.map fun cli => (cli.io, cstring cli.name) :=
    hf.clients ▸ List.mem_map.mpr ⟨(fd, name), huser, rfl⟩
  obtain ⟨cli, hcli, heq⟩ := List.mem_map.mp hmem
  obtain ⟨hio, hname⟩ := Prod.mk.inj heq
  exact ⟨cli, hcli, hio, hname⟩

theorem Tracked.name_of (ht : Tracked h b) (hcli : cli ∈ b.g_clients) (hio : cli.io = some fd) :
    h.name_of fd = cstring cli.name := by
  obtain ⟨fd', name, hio', hname, huser⟩ := ht.follows.client_user hcli
  cases hio.symm.trans hio'
  rw [hname]
  exact ht.wellFormed.name_of_eq_some_iff.mpr huser

/-- The client that a connection points at is on it. -/
theorem Linked.io_of_arg (hlinked : Linked b) (haddr : Addresses b) (hcli : cli ∈ b.g_clients)
    (hopen : (b.ios fd).opened = true) (harg : cli.addr = (b.ios fd).arg) : cli.io = some fd := by
  obtain ⟨fd', hio, hopen', harg'⟩ := hlinked.io cli hcli
  have hne : (b.ios fd').arg ≠ 0 := harg'.symm ▸ haddr.ne_zero cli hcli
  rw [hio, haddr.arg_inj fd' fd hopen' hopen hne (harg'.trans harg)]

/-- The connections with a client are those that the history has a user for. -/
theorem Tracked.connections_iff (ht : Tracked h b) :
    fd ∈ h.connections ↔ (b.ios fd).opened = true ∧ (b.ios fd).arg ≠ 0 := by
  rw [history.mem_connections_iff]
  constructor
  · rintro ⟨name, huser⟩
    obtain ⟨cli, hcli, hio, -⟩ := ht.follows.user_client huser
    obtain ⟨fd', hio', hopen, harg⟩ := ht.linked.io cli hcli
    cases hio.symm.trans hio'
    exact ⟨hopen, harg ▸ ht.consistent.addresses.ne_zero cli hcli⟩
  · rintro ⟨hopen, harg⟩
    obtain ⟨cli, hcli, haddr⟩ := ht.linked.arg fd hopen harg
    obtain ⟨fd', name, hio, -, huser⟩ := ht.follows.client_user hcli
    cases hio.symm.trans (ht.linked.io_of_arg ht.consistent.addresses hcli hopen haddr)
    exact ⟨name, huser⟩

/-- A name is that of one connection. -/
theorem Tracked.eq_of_name_of (ht : Tracked h b) (hfd' : fd' ∈ h.connections)
    (hsame : h.name_of fd' = h.name_of fd) : fd' = fd := by
  obtain ⟨name, huser'⟩ := history.mem_connections_iff.mp hfd'
  have hname' := ht.wellFormed.name_of_eq_some_iff.mpr huser'
  have huser := ht.wellFormed.name_of_eq_some_iff.mp (hsame.symm.trans hname')
  have hnodup : (h.users.map fun user => some user.2).Nodup :=
    ht.follows.user_names ▸ ht.consistent.distinct.clients
  have heq := List.inj_on_of_nodup_map hnodup huser' huser rfl
  exact congrArg Prod.fst heq

/-- The user of a request is the one of its connection, and the group the one it names. -/
theorem Tracked.requests (ht : Tracked h b) (hopen : (b.ios fd).opened = true)
    (hasks : Requests b fd groupname cli i group) :
    fd ∈ h.connections ∧ h.name_of fd = cstring cli.name ∧ b.g_groups[i]? = some group ∧
      ∃ name ∈ h.groups, cstring groupname = some name ∧ cstring group.group_name = some name := by
  obtain ⟨hcli, haddr⟩ := daemon.client_ok hasks.client
  have hio := ht.linked.io_of_arg ht.consistent.addresses hcli hopen haddr
  obtain ⟨hget, name, hname, hown⟩ := search_group_some hasks.search
  refine ⟨ht.connections_iff.mpr ⟨hopen, hasks.logged_in⟩, ht.name_of hcli hio, hget, name, ?_,
    hname, hown⟩
  rw [← ht.follows.mem_group_names_iff, ← hown]
  exact List.mem_map_of_mem (List.mem_of_getElem? hget)

/-- A request for nothing is one of a connection without a user or for no group. -/
theorem Tracked.asksForNothing (ht : Tracked h b)
    (hnothing : AsksForNothing b fd (some name)) : fd ∉ h.connections ∨ name ∉ h.groups := by
  rw [← ht.follows.mem_group_names_iff, ht.connections_iff]
  obtain harg | hnone := hnothing
  · exact .inl fun hfd => hfd.2 harg
  · exact .inr (hnone name rfl)

/-- A user is listed in a group exactly when its connection has joined. -/
theorem Tracked.listed_iff (ht : Tracked h b) (hgroup : group ∈ b.g_groups)
    (hown : cstring group.group_name = some name) :
    h.name_of fd ∈ group.users.map cstring ↔ (h.joined fd name).isSome := by
  obtain ⟨fds, husers, -, hfds⟩ := ht.follows.members group hgroup name hown
  rw [husers, ← hfds]
  constructor
  · intro hmem
    obtain ⟨fd', hfd', hsame⟩ := List.mem_map.mp hmem
    have hjoined := (hfds fd').mp hfd'
    rwa [← ht.eq_of_name_of (ht.wellFormed.joined fd' name hjoined).1 hsame]
  · exact List.mem_map_of_mem

end Clients

section Requests

variable {h h' : history} {b b' : daemon} {name : List UInt8} {fd : Nat} {group group' : group_t}
  {i : Nat} {msg : List UInt8} {addr : Ptr} {r : request}

/-- Who leaves a group without duplicates is not in it any more. -/
theorem Left.filtered {username : List UInt8} (hleft : Left username group group')
    (hnodup : (group.users.map cstring).Nodup) (hsome : (cstring username).isSome) :
    group'.users.map cstring =
      (group.users.map cstring).filter fun user => user ≠ cstring username := by
  rw [hleft.erased hsome, hnodup.erase_eq_filter]
  apply List.filter_congr
  intro user _
  simp [bne, Bool.beq_eq_decide_eq]

theorem Follows.tick (hf : Follows h b) : Follows h.tick b := ⟨hf.clients, hf.groups, hf.members⟩

/-- Where neither users nor joins change, the lists of members stay right. -/
theorem Follows.same (hf : Follows h b) (husers : h'.users = h.users) (hgroups : h'.groups = h.groups)
    (hjoined : ∀ fd name, h'.joined fd name = h.joined fd name) : Follows h' b := by
  refine ⟨husers ▸ hf.clients, hgroups ▸ hf.groups, fun group hgroup name hown => ?_⟩
  apply (hf.members group hgroup name hown).congr (hjoined · name)
  intro fd _
  rw [history.name_of, husers, history.name_of]

/-- One group gets another list of members. -/
theorem Follows.set_members (ht : Tracked h b) (hget : b.g_groups[i]? = some group)
    (hown : cstring group.group_name = some name) (hgroups : b'.g_groups = b.g_groups.set i group')
    (hname : group'.group_name = group.group_name) (hclients : b'.g_clients = b.g_clients)
    (husers : h'.users = h.users) (hnames : h'.groups = h.groups)
    (hmembers : ListsMembers h' name group'.users)
    (hjoined : ∀ fd name', name' ≠ name → h'.joined fd name' = h.joined fd name') :
    Follows h' b' := by
  have hgroup_names : b'.group_names = b.group_names := by
    rw [daemon.group_names, hgroups]
    exact set_group_names hget hname
  have hnodup : b'.group_names.Nodup := hgroup_names ▸ ht.consistent.distinct.groups
  have hmem' : group' ∈ b'.g_groups := by
    rw [hgroups]
    exact List.mem_set (List.getElem?_eq_some_iff.mp hget).1 group'
  refine ⟨?_, ?_, fun other hother name' hown' => ?_⟩
  · rw [hclients, husers]
    exact ht.follows.clients
  · rw [hgroup_names, hnames]
    exact ht.follows.groups
  · by_cases heq : name' = name
    · have hsame : other = group' :=
        List.inj_on_of_nodup_map hnodup hother hmem' (by rw [hown', hname, hown, heq])
      rw [hsame, heq]
      exact hmembers
    · obtain hold | rfl := List.mem_or_eq_of_mem_set (hgroups ▸ hother)
      · apply (ht.follows.members other hold name' hown').congr fun fd => hjoined fd name' heq
        intro fd _
        rw [history.name_of, husers, history.name_of]
      · rw [hname, hown] at hown'
        exact absurd (Option.some.inj hown').symm heq

theorem Tracked.login (ht : Tracked h b)
    (honce : name ∉ h.users.map Prod.snd → fd ∉ h.connections)
    (hid : msg_get_command_id msg = ok CID_LOGIN_REQ_USERLOGIN)
    (hshort : ∀ name ∈ login_name msg, name.length < 128)
    (hfresh : ∀ cli ∈ b.g_clients, cli.addr ≠ addr) (hlogin : login_name msg = some name)
    (hok : handle_login_request b msg fd addr = ok b') : Follows (h.answer fd (.login name)) b' := by
  obtain ⟨rfl, htaken⟩ | ⟨name', stored, hname, hnew, hstored, rfl⟩ :=
    handle_login_request_cases hid hfresh hok
  · rw [history.answer, if_pos (ht.follows.mem_user_names_iff.mp (htaken name hlogin))]
    exact ht.follows
  · cases hlogin.symm.trans hname
    rw [List.take_of_length_le (Nat.le_of_lt_succ (hshort name hname))] at hstored
    have hnot : name ∉ h.users.map Prod.snd := fun hmem => hnew (ht.follows.mem_user_names_iff.mpr hmem)
    have hwf' := ht.wellFormed.answer (r := .login name) (fun _ _ _ => honce hnot)
    rw [history.answer, if_neg hnot] at hwf' ⊢
    refine ⟨?_, ht.follows.groups, fun group hgroup own hown => ?_⟩
    · simp only [daemon.setArg, List.map_append, ht.follows.clients, List.map_singleton, hstored]
    · refine (ht.follows.members group hgroup own hown).congr (fun _ => ?_) fun fd' hjoined => ?_
      · rfl
      obtain ⟨own', huser⟩ :=
        history.mem_connections_iff.mp (ht.wellFormed.joined fd' own hjoined).1
      have hnow := hwf'.name_of_eq_some_iff.mpr (List.mem_append_left _ huser)
      exact hnow.trans (ht.wellFormed.name_of_eq_some_iff.mpr huser).symm

theorem Tracked.create (ht : Tracked h b)
    (hid : msg_get_command_id msg = ok CID_GROUP_CREATE_GROUP)
    (hshort : ∀ name ∈ create_name msg, name.length < 128) (hcreate : create_name msg = some name)
    (hok : handle_create_group b msg = ok b') : Follows (h.answer fd (.create name)) b' := by
  obtain ⟨rfl, htaken⟩ | ⟨name', stored, hname, hnew, hstored, rfl⟩ :=
    handle_create_group_cases hid hok
  · rw [history.answer, if_pos (ht.follows.mem_group_names_iff.mp (htaken name hcreate))]
    exact ht.follows
  · cases hcreate.symm.trans hname
    rw [List.take_of_length_le (Nat.le_of_lt_succ (hshort name hname))] at hstored
    have hnot : name ∉ h.groups := fun hmem => hnew (ht.follows.mem_group_names_iff.mpr hmem)
    rw [history.answer, if_neg hnot]
    refine ⟨ht.follows.clients, ?_, List.forall_mem_append.mpr ⟨ht.follows.members, ?_⟩⟩
    · have hgroups := ht.follows.groups
      rw [daemon.group_names] at hgroups
      rw [daemon.group_names, List.map_append, hgroups, List.map_append, List.map_singleton,
        List.map_singleton, hstored]
    · refine List.forall_mem_singleton.mpr fun own hown => ?_
      cases hstored.symm.trans hown
      refine ⟨[], rfl, .nil, fun fd' => ?_⟩
      have hnone : h.joined fd' name = none := ht.wellFormed.joined_none (.inr hnot)
      simp [hnone]

theorem Tracked.join (ht : Tracked h b) (hopen : (b.ios fd).opened = true)
    (hid : msg_get_command_id msg = ok CID_GROUP_JOIN_GROUP) (hjoin : join_name msg = some name)
    (hok : handle_join_group b msg fd = ok b') : Follows (h.answer fd (.join name)) b' := by
  rw [history.answer]
  obtain ⟨rfl, hnothing⟩ | ⟨value, cli, i, group, hvalue, hasks, hdone⟩ :=
    handle_join_group_cases hid hok
  · rw [if_neg]
    · exact ht.follows
    · rintro ⟨hfd, hname, -⟩
      obtain hnot | hnot := ht.asksForNothing (hjoin ▸ hnothing)
      · exact hnot hfd
      · exact hnot hname
  · obtain ⟨hfd, hname_of, hget, name', hmem, hnamed, hown⟩ := ht.requests hopen hasks
    cases hjoin.symm.trans (hvalue.trans hnamed)
    have hlisted : h.name_of fd ∈ group.users.map cstring ↔ (h.joined fd name).isSome :=
      ht.listed_iff (List.mem_of_getElem? hget) hown
    rw [hname_of] at hlisted
    obtain ⟨rfl, hmember⟩ | ⟨data, own, hcli, hdata, hnew, rfl⟩ := hdone
    · rw [if_neg]
      · exact ht.follows
      · rintro ⟨-, -, hnone⟩
        have hjoined := hlisted.mp hmember
        rw [hnone] at hjoined
        cases hjoined
    · rw [hcli] at hlisted hname_of
      have hnone : h.joined fd name = none :=
        Option.not_isSome_iff_eq_none.mp fun hjoined => hnew (hlisted.mpr hjoined)
      rw [if_pos ⟨hfd, hmem, hnone⟩]
      refine Follows.set_members ht hget hown rfl rfl rfl rfl rfl ?_ fun fd' name' hne => ?_
      · refine (ht.follows.members group (List.mem_of_getElem? hget) name hown).joins ht.wellFormed
          (hdata.trans hname_of.symm) hnone (fun _ => ?_) fun fd' => ?_
        · rfl
        · simp
      · exact if_neg fun heq => hne heq.2

theorem Tracked.leave (ht : Tracked h b) (hopen : (b.ios fd).opened = true)
    (hid : msg_get_command_id msg = ok CID_GROUP_LEAVE_GROUP) (hleave : leave_name msg = some name)
    (hok : handle_leave_group b msg fd = ok b') : Follows (h.answer fd (.leave name)) b' := by
  rw [history.answer]
  obtain ⟨rfl, hnothing⟩ | ⟨value, cli, i, group, group', hvalue, hasks, hleft, rfl⟩ :=
    handle_leave_group_cases hid hok
  · refine ht.follows.same rfl rfl fun fd' name' => ?_
    dsimp only
    split
    · next heq =>
      obtain ⟨rfl, rfl⟩ := heq
      exact (ht.wellFormed.joined_none (ht.asksForNothing (hleave ▸ hnothing))).symm
    · rfl
  · obtain ⟨hfd, hname_of, hget, name', hmem, hnamed, hown⟩ := ht.requests hopen hasks
    cases hleave.symm.trans (hvalue.trans hnamed)
    have hgroup := List.mem_of_getElem? hget
    have hsome := ht.consistent.stored.client_isSome cli (daemon.client_ok hasks.client).1
    refine Follows.set_members ht hget hown rfl hleft.group_name rfl rfl rfl ?_ fun fd' name' hne => ?_
    · have husers := hleft.filtered (ht.consistent.members group hgroup).once hsome
      rw [← hname_of] at husers
      refine (ht.follows.members group hgroup name hown).leaves husers
        (fun fd' hjoined hsame => ?_) (fun _ _ => ?_) fun fd' => ?_
      · exact ht.eq_of_name_of (ht.wellFormed.joined fd' name hjoined).1 hsame
      · rfl
      · simp
    · exact if_neg fun heq => hne heq.2

end Requests

section Messages

variable {h : history} {b b' : daemon} {fd : Nat} {msg : List UInt8} {addr : Ptr} {id : UInt16}

theorem leave_of_ne (hid : msg_get_command_id msg = ok id) (hne : id ≠ CID_GROUP_LEAVE_GROUP) :
    leave_name msg = none := by
  rw [leave_name, hid]
  exact if_neg hne

/-- Of the four kinds of names a message carries that of its command. -/
theorem msg_request_eq (hid : msg_get_command_id msg = ok id) :
    msg_request msg =
      if id = CID_LOGIN_REQ_USERLOGIN then (login_name msg).map .login
      else if id = CID_GROUP_CREATE_GROUP then (create_name msg).map .create
      else if id = CID_GROUP_JOIN_GROUP then (join_name msg).map .join
      else (leave_name msg).map .leave := by
  have hlogin : id ≠ CID_LOGIN_REQ_USERLOGIN → login_name msg = none := carried_of_ne hid
  have hcreate : id ≠ CID_GROUP_CREATE_GROUP → create_name msg = none := carried_of_ne hid
  have hjoin : id ≠ CID_GROUP_JOIN_GROUP → join_name msg = none := carried_of_ne hid
  have hleave : id ≠ CID_GROUP_LEAVE_GROUP → leave_name msg = none := leave_of_ne hid
  rw [msg_request]
  split_ifs with h₁ h₂ h₃
  · simp [hcreate (h₁ ▸ by decide), hjoin (h₁ ▸ by decide), hleave (h₁ ▸ by decide)]
  · simp [hlogin h₁, hjoin (h₂ ▸ by decide), hleave (h₂ ▸ by decide)]
  · simp [hlogin h₁, hcreate h₂, hleave (h₃ ▸ by decide)]
  · simp [hlogin h₁, hcreate h₂, hjoin h₃]

/-- A message of another kind changes no registry. -/
theorem handle_msg_other (hid : msg_get_command_id msg = ok id)
    (hlogin : id ≠ CID_LOGIN_REQ_USERLOGIN) (hcreate : id ≠ CID_GROUP_CREATE_GROUP)
    (hjoin : id ≠ CID_GROUP_JOIN_GROUP) (hleave : id ≠ CID_GROUP_LEAVE_GROUP)
    (hok : handle_msg b msg fd addr = ok b') : ∃ writes, b' = { b with writes } := by
  rw [handle_msg, hid, ok_bind, if_neg hlogin, if_neg hcreate, if_neg hjoin, if_neg hleave] at hok
  split at hok
  · obtain ⟨len, -, hok⟩ := bind_eq_ok_iff.mp hok
    cases hok
    exact ⟨_, rfl⟩
  split at hok
  · next heq =>
    obtain ⟨calls, rfl, -⟩ := handle_group_msg_forwards (heq ▸ hid) hok
    exact ⟨_, rfl⟩
  split at hok
  · next heq =>
    obtain ⟨calls, rfl, -⟩ := handle_private_msg_forwards (heq ▸ hid) hok
    exact ⟨_, rfl⟩
  · cases hok
    exact ⟨b.writes, rfl⟩

theorem Follows.writes (hf : Follows h b) (writes : List io_write_call) :
    Follows h { b with writes } := ⟨hf.clients, hf.groups, hf.members⟩

/-- A message without a name for it changes no registry, whatever its kind. -/
theorem handle_msg_unnamed (hfresh : ∀ cli ∈ b.g_clients, cli.addr ≠ addr)
    (hnone : msg_request msg = none) (hok : handle_msg b msg fd addr = ok b') :
    ∃ writes, b' = { b with writes } := by
  have hrest := hok
  obtain ⟨id, hid, hrest⟩ := bind_eq_ok_iff.mp hrest
  rw [msg_request_eq hid] at hnone
  split_ifs at hnone with h₁ h₂ h₃ <;> rw [Option.map_eq_none_iff] at hnone
  · subst h₁
    obtain ⟨rfl, -⟩ | ⟨name, -, hname, -⟩ := handle_login_request_cases hid hfresh hrest
    · exact ⟨_, rfl⟩
    · cases hnone.symm.trans hname
  · subst h₂
    obtain ⟨rfl, -⟩ | ⟨name, -, hname, -⟩ := handle_create_group_cases hid hrest
    · exact ⟨_, rfl⟩
    · cases hnone.symm.trans hname
  · subst h₃
    obtain ⟨rfl, -⟩ | ⟨value, cli, i, group, hname, hasks, -⟩ := handle_join_group_cases hid hrest
    · exact ⟨_, rfl⟩
    · obtain ⟨-, name, hvalue, -⟩ := search_group_some hasks.search
      cases hnone.symm.trans (hname.trans hvalue)
  · by_cases h₄ : id = CID_GROUP_LEAVE_GROUP
    · subst h₄
      obtain ⟨rfl, -⟩ | ⟨value, cli, i, group, group', hname, hasks, -⟩ :=
        handle_leave_group_cases hid hrest
      · exact ⟨_, rfl⟩
      · obtain ⟨-, name, hvalue, -⟩ := search_group_some hasks.search
        cases hnone.symm.trans (hname.trans hvalue)
    · exact handle_msg_other hid h₁ h₂ h₃ h₄ hok

theorem Tracked.message (ht : Tracked h b) (hallowed : (bus_event.message fd msg addr).Allowed b)
    (hshort : ShortNames b (.message fd msg addr) b') (honce : h.LogsInOnce (.message fd msg addr))
    (hok : handle_msg b msg fd addr = ok b') : Follows (h.after (.message fd msg addr)) b' := by
  obtain ⟨hopen, -, hfresh⟩ := hallowed
  rw [history.after]
  cases hrequest : msg_request msg with
  | none =>
    obtain ⟨writes, rfl⟩ := handle_msg_unnamed hfresh hrequest hok
    exact (ht.follows.writes writes).tick
  | some r =>
    apply Follows.tick
    obtain ⟨id, hid, hok⟩ := bind_eq_ok_iff.mp hok
    rw [msg_request_eq hid] at hrequest
    split_ifs at hrequest with h₁ h₂ h₃ <;>
      obtain ⟨name, hname, rfl⟩ := Option.map_eq_some_iff.mp hrequest
    · subst h₁
      exact ht.login (honce name hname) hid hshort.1 hfresh hname hok
    · subst h₂
      exact ht.create hid hshort.2 hname hok
    · subst h₃
      exact ht.join hopen hid hname hok
    · have h₄ : id = CID_GROUP_LEAVE_GROUP := by
        by_contra hne
        cases (leave_of_ne hid hne).symm.trans hname
      subst h₄
      exact ht.leave hopen hid hname hok

end Messages

section Closing

variable {h : history} {b b' : daemon} {fd : Nat} {e : bus_event}

/-- A connection without a user leaves the history as it is. -/
theorem Tracked.close_nobody (ht : Tracked h b) (hfd : fd ∉ h.connections)
    (hclients : b'.g_clients = b.g_clients) (hgroups : b'.g_groups = b.g_groups) :
    Follows (h.close fd) b' := by
  have husers : (h.close fd).users = h.users := by
    refine List.filter_eq_self.mpr fun user huser => decide_eq_true fun heq => hfd ?_
    exact heq ▸ List.mem_map_of_mem huser
  have hsame : Follows (h.close fd) b := by
    refine ht.follows.same husers rfl fun fd' name => ?_
    simp only [history.close]
    split
    · next heq => rw [heq, ht.wellFormed.joined_none (.inl hfd)]
    · rfl
  refine ⟨hclients ▸ hsame.clients, ?_, hgroups ▸ hsame.members⟩
  rw [daemon.group_names, hgroups]
  exact hsame.groups

theorem exec_close_cases (ht : Tracked h b) (hopen : (b.ios fd).opened = true)
    (heffect : Effect b (.close fd) b') :
    (fd ∉ h.connections ∧ b'.g_clients = b.g_clients ∧ b'.g_groups = b.g_groups) ∨
    ∃ cli ∈ b.g_clients, cli.io = some fd ∧
      b'.g_clients = (b.g_clients.filter fun c => c.addr ≠ cli.addr) ∧
      List.Forall₂ (Left cli.name) b.g_groups b'.g_groups := by
  cases heffect with
  | disconnected harg =>
    exact .inl ⟨fun hfd => (ht.connections_iff.mp hfd).2 harg, rfl, rfl⟩
  | @closed _ cli victim g_groups hcli haddr _ hleft hvictim =>
    cases (ht.consistent.user_get_by_name hcli rfl).symm.trans hvictim
    exact .inr ⟨cli, hcli, ht.linked.io_of_arg ht.consistent.addresses hcli hopen haddr, rfl, hleft⟩

theorem history.WellFormed.name_of_close (hwf : h.WellFormed) {fd' : Nat} (hne : fd' ≠ fd) :
    (h.close fd).name_of fd' = h.name_of fd' := by
  apply Option.ext
  intro name
  rw [(hwf.close fd).name_of_eq_some_iff, hwf.name_of_eq_some_iff]
  simp [history.close, hne]

/-- Only the client of the connection that closes is deleted. -/
theorem Tracked.close_clients (ht : Tracked h b) {cli : client_t} (hcli : cli ∈ b.g_clients)
    (hio : cli.io = some fd) :
    ((b.g_clients.filter fun c => c.addr ≠ cli.addr).map fun c => (c.io, cstring c.name)) =
      (h.close fd).users.map fun user => (some user.1, some user.2) := by
  have hsame : ∀ c ∈ b.g_clients, (c.addr ≠ cli.addr ↔ c.io ≠ some fd) := by
    refine fun c hc => not_congr ⟨fun haddr => ?_, fun hcio => ?_⟩
    · rw [ht.consistent.addresses.eq_of_addr hc hcli haddr, hio]
    · obtain ⟨fd₁, hio₁, -, harg₁⟩ := ht.linked.io c hc
      obtain ⟨fd₂, hio₂, -, harg₂⟩ := ht.linked.io cli hcli
      cases hcio.symm.trans hio₁
      cases hio.symm.trans hio₂
      exact harg₁.symm.trans harg₂
  calc ((b.g_clients.filter fun c => c.addr ≠ cli.addr).map fun c => (c.io, cstring c.name))
      = (b.g_clients.filter fun c => c.io ≠ some fd).map fun c => (c.io, cstring c.name) := by
        rw [List.filter_congr fun c hc => decide_eq_decide.mpr (hsame c hc)]
    _ = (b.g_clients.map fun c => (c.io, cstring c.name)).filter fun p => p.1 ≠ some fd := by
        rw [List.filter_map]
        rfl
    _ = (h.users.map fun user => (some user.1, some user.2)).filter fun p => p.1 ≠ some fd := by
        rw [ht.follows.clients]
    _ = (h.close fd).users.map fun user => (some user.1, some user.2) := by
        rw [List.filter_map]
        simp [history.close, Function.comp_def]

theorem left_filtered {username : List UInt8} {g_groups g_groups' : List group_t}
    (hleft : List.Forall₂ (Left username) g_groups g_groups')
    (hnodup : ∀ group ∈ g_groups, (group.users.map cstring).Nodup)
    (hsome : (cstring username).isSome) :
    List.Forall₂ (fun group group' : group_t => group'.group_name = group.group_name ∧
      group'.users.map cstring =
        (group.users.map cstring).filter fun user => user ≠ cstring username)
      g_groups g_groups' := by
  induction hleft with
  | nil => exact .nil
  | cons hone _ ih =>
    obtain ⟨hfirst, hrest⟩ := List.forall_mem_cons.mp hnodup
    exact .cons ⟨hone.group_name, hone.filtered hfirst hsome⟩ (ih hrest)

theorem Tracked.close (ht : Tracked h b) (hopen : (b.ios fd).opened = true)
    (heffect : Effect b (.close fd) b') : Follows (h.close fd) b' ∧ OnlyUserLeaves h fd b b' := by
  obtain ⟨hfd, hclients, hgroups⟩ | ⟨cli, hcli, hio, hclients, hleft⟩ := exec_close_cases ht hopen heffect
  · refine ⟨ht.close_nobody hfd hclients hgroups, ?_⟩
    rw [OnlyUserLeaves, hgroups, List.forall₂_same]
    refine fun group hgroup => ⟨rfl, (List.filter_eq_self.mpr fun user huser => ?_).symm⟩
    obtain ⟨block, hblock, rfl⟩ := List.mem_map.mp huser
    obtain ⟨name, hname, -⟩ := ht.consistent.stored.users group hgroup block hblock
    rw [history.name_of_none hfd, hname]
    rfl
  · have hname_of := ht.name_of hcli hio
    have hsome := ht.consistent.stored.client_isSome cli hcli
    have honce : ∀ group ∈ b.g_groups, (group.users.map cstring).Nodup :=
      fun group hgroup => (ht.consistent.members group hgroup).once
    refine ⟨⟨?_, ?_, fun group' hgroup' name hown => ?_⟩, ?_⟩
    · rw [hclients]
      exact ht.close_clients hcli hio
    · rw [daemon.group_names, left_group_names hleft]
      exact ht.follows.groups
    · obtain ⟨group, hgroup, hone⟩ := left_mem hleft hgroup'
      have husers := hone.filtered (honce group hgroup) hsome
      rw [← hname_of] at husers
      refine (ht.follows.members group hgroup name (hone.group_name ▸ hown)).leaves husers
        (fun fd' hjoined hsame => ?_) (fun fd' hne => ?_) fun fd' => ?_
      · exact ht.eq_of_name_of (ht.wellFormed.joined fd' name hjoined).1 hsame
      · exact ht.wellFormed.name_of_close hne
      · rfl
    · rw [OnlyUserLeaves, hname_of]
      exact left_filtered hleft honce hsome

end Closing

section Step

variable {h : history} {b b' : daemon} {e : bus_event}

theorem login_name_of_request {msg name : List UInt8}
    (hrequest : msg_request msg = some (.login name)) : login_name msg = some name := by
  rw [msg_request] at hrequest
  cases hlogin : login_name msg with
  | some own => simpa [hlogin] using hrequest
  | none => simp [hlogin, Option.or_eq_some_iff] at hrequest

theorem history.WellFormed.after (hwf : h.WellFormed) (honce : h.LogsInOnce e) :
    (h.after e).WellFormed := by
  cases e with
  | accept fd => exact hwf.tick
  | message fd msg addr =>
    rw [history.after]
    split
    · next r hrequest =>
      apply hwf.answer
      rintro name rfl hnew
      exact honce name (login_name_of_request hrequest) hnew
    · exact hwf.tick
  | close fd | full fd => exact (hwf.close fd).tick

theorem Tracked.linksKept (ht : Tracked h b) (hallowed : e.Allowed b)
    (hgood : UsersBehave h b e b') : LinksKept b e b' := by
  obtain ⟨-, honce, hpeer⟩ := hgood
  cases e with
  | accept fd => trivial
  | message fd msg addr =>
    intro name hname hnew
    have hfd := honce name hname fun hmem => hnew (ht.follows.mem_user_names_iff.mpr hmem)
    by_contra harg
    exact hfd (ht.connections_iff.mpr ⟨hallowed.1, harg⟩)
  | close fd => exact fun cli hcli _ => ht.consistent.user_get_by_name hcli rfl
  | full fd =>
    by_contra harg
    exact hpeer (ht.connections_iff.mpr ⟨hallowed, harg⟩)

theorem Tracked.follows_step (ht : Tracked h b) (hgood : UsersBehave h b e b') (hstep : Step b e b') :
    Follows (h.after e) b' := by
  have heffect := hstep.effect
  cases e with
  | accept fd =>
    cases heffect
    exact ⟨ht.follows.clients, ht.follows.groups, ht.follows.members⟩
  | message fd msg addr => exact ht.message hstep.1 hgood.1 hgood.2.1 hstep.2
  | close fd => exact (ht.close hstep.1 heffect).1.tick
  | full fd =>
    cases heffect
    have hclosed : Follows (h.close fd) (b.eloop_reset_io fd) := ht.close_nobody hgood.2.2 rfl rfl
    exact hclosed.tick

theorem Tracked.step (ht : Tracked h b) (hgood : UsersBehave h b e b') (hstep : Step b e b') :
    Tracked (h.after e) b' := by
  refine ⟨ht.follows_step hgood hstep, ht.wellFormed.after hgood.2.1,
    ht.consistent.step hgood.1 hstep, ?_⟩
  have hiff := hstep.effect.linked_iff ht.consistent.addresses ht.linked hstep.1
  exact hiff.mpr (ht.linksKept hstep.1 hgood)

theorem Tracked.registryFollows (ht : Tracked h b) (hgood : UsersBehave h b e b')
    (hstep : Step b e b') : RegistryFollows h b e b' := by
  have ht' := ht.step hgood hstep
  refine ⟨ht'.follows, fun group hgroup => (ht'.consistent.members group hgroup).once,
    fun fd => ht'.connections_iff, ?_⟩
  rintro fd rfl
  exact (ht.close hstep.1 hstep.effect).2

theorem mbusd_main_tracked : Tracked history.start mbusd_main :=
  ⟨⟨rfl, rfl, nofun⟩, ⟨List.nodup_nil, nofun, nofun⟩, mbusd_main_consistent, mbusd_main_linked⟩

end Step

/-- In every run of the daemon with short names, where no connection logs in twice
and those of users end with a close, the registries are at each step what the
history of the run says. -/
theorem registry_follows_history {tr : List (bus_event × daemon)} (hrun : Run Step mbusd_main tr)
    (hgood : AllRecorded (fun h _ e _ => h.after e) UsersBehave history.start mbusd_main tr) :
    AllRecorded (fun h _ e _ => h.after e) RegistryFollows history.start mbusd_main tr := by
  apply Run.allRecorded (J := Tracked) _ _ mbusd_main_tracked hrun hgood
  · exact fun ht hgood hstep => ht.registryFollows hgood hstep
  · exact fun ht hgood hstep => ht.step hgood hstep

section Runs

def leave_message (groupname : List UInt8) : List UInt8 :=
  bytesI32 groupname.length ++ List.replicate 6 0 ++ bytesU16 CID_GROUP_LEAVE_GROUP ++
    List.replicate 4 0 ++ groupname

theorem leave_and_close_follow_history :
    let tr := bus_trace (two_in_group (cstr ['g']) ++
      [.message 5 (leave_message (cstr ['g'])) 3, .message 5 (join_message (cstr ['g'])) 3, .close 6])
    AllRecorded (fun h _ e _ => h.after e) RegistryFollows history.start mbusd_main tr := by
  intro tr
  have hrun : Run Step mbusd_main tr := bus_trace_run (by decide +kernel)
  exact registry_follows_history hrun (by decide +kernel)

end Runs

end easymesh.mbusd
