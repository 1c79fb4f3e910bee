import Easymesh.Mbus.Forward

open Lib Lib.Result easymesh.tlv_parser

namespace easymesh.mbusd

/-- The string in the item of a message of this command. -/
def carried (command_id type : UInt16) (msg : List UInt8) : Option (List UInt8) :=
  match msg_get_command_id msg, msg_item msg type with
  | ok id, ok (some value) => if id = command_id then cstring value else none
  | _, _ => none

def login_name : List UInt8 → Option (List UInt8) :=
  carried CID_LOGIN_REQ_USERLOGIN TYPE_USERLOGIN_USERNAME

def create_name : List UInt8 → Option (List UInt8) :=
  carried CID_GROUP_CREATE_GROUP TYPE_GROUPCREATE_GROUPNAME

def join_name : List UInt8 → Option (List UInt8) :=
  carried CID_GROUP_JOIN_GROUP TYPE_GROUPJOIN_GROUPNAME

/-- The body of a leave message is the name itself. -/
def leave_name (msg : List UInt8) : Option (List UInt8) :=
  match msg_get_command_id msg with
  | ok id => if id = CID_GROUP_LEAVE_GROUP then cstring (msg_get_data msg) else none
  | _ => none

/-- The names as they are stored. -/
def daemon.user_names (b : daemon) : List (Option (List UInt8)) :=
  b.g_clients.map fun cli => cstring cli.name

def daemon.group_names (b : daemon) : List (Option (List UInt8)) :=
  b.g_groups.map fun group => cstring group.group_name

/-- What a step may do to the daemon, by kind of event; a message that is neither
a login nor the creation of a group carries no name of these two kinds. -/
inductive Effect (b : daemon) : bus_event → daemon → Prop
  | accepted (fd : Nat) :
      Effect b (.accept fd)
        { b with ios := Function.update b.ios fd ({ opened := true, arg := 0 } : io_t) }
  /-- A message that changes nothing of the registry; a name that it carries for
  a login or a new group is taken. -/
  | answered {fd : Nat} {msg : List UInt8} {addr : Ptr} {calls : List io_write_call}
      (hlogin : ∀ name, login_name msg = some name → some name ∈ b.user_names)
      (hcreate : ∀ name, create_name msg = some name → some name ∈ b.group_names)
      (hcalls : msg_get_command_id msg ≠ ok CID_OTHER_HEARTBEAT →
        ∀ call ∈ calls, Forwards b msg call) :
      Effect b (.message fd msg addr) { b with writes := b.writes ++ calls }
  | logged_in {fd : Nat} {msg : List UInt8} {addr : Ptr} {name stored : List UInt8}
      (hcreate : create_name msg = none) (hname : login_name msg = some name)
      (hne : addr ≠ 0) (hfresh : ∀ cli ∈ b.g_clients, cli.addr ≠ addr)
      (hnew : some name ∉ b.user_names)
      (hstored : cstring stored = some (name.take 127)) :
      Effect b (.message fd msg addr)
        ({ b with
          g_clients := b.g_clients ++ [({ addr, io := some fd, name := stored } : client_t)]
          }.setArg fd addr)
  | created {fd : Nat} {msg : List UInt8} {addr : Ptr} {name stored : List UInt8}
      (hlogin : login_name msg = none) (hname : create_name msg = some name)
      (hnew : some name ∉ b.group_names)
      (hstored : cstring stored = some (name.take 127)) :
      Effect b (.message fd msg addr)
        { b with g_groups := b.g_groups ++ [{ group_name := stored, users := [] }] }
  | joined {fd : Nat} {msg : List UInt8} {addr : Ptr} {cli : client_t} {i : Nat}
      {group : group_t} {data name : List UInt8}
      (hlogin : login_name msg = none) (hcreate : create_name msg = none)
      (hcli : cli ∈ b.g_clients) (hgroup : b.g_groups[i]? = some group)
      (hname : cstring cli.name = some name) (hdata : cstring data = some name)
      (hnew : some name ∉ group.users.map cstring) :
      Effect b (.message fd msg addr)
        { b with g_groups := b.g_groups.set i { group with users := group.users ++ [data] } }
  | left {fd : Nat} {msg : List UInt8} {addr : Ptr} {cli : client_t} {i : Nat}
      {group group' : group_t}
      (hlogin : login_name msg = none) (hcreate : create_name msg = none)
      (hcli : cli ∈ b.g_clients) (hgroup : b.g_groups[i]? = some group)
      (hleft : Left cli.name group group') :
      Effect b (.message fd msg addr) { b with g_groups := b.g_groups.set i group' }
  /-- A connection without a client is gone. -/
  | disconnected {fd : Nat} (harg : (b.ios fd).arg = 0) :
      Effect b (.close fd) (b.eloop_reset_io fd)
  | closed {fd : Nat} {cli victim : client_t} {g_groups : List group_t}
      (hcli : cli ∈ b.g_clients) (harg : cli.addr = (b.ios fd).arg) (hne : cli.addr ≠ 0)
      (hleft : List.Forall₂ (Left cli.name) b.g_groups g_groups)
      (hvictim : user_get_by_name b.g_clients cli.name = ok (some victim)) :
      Effect b (.close fd)
        ({ b with
          g_groups
          g_clients := b.g_clients.filter fun c => c.addr ≠ victim.addr }.eloop_reset_io fd)
  | reset (fd : Nat) : Effect b (.full fd) (b.eloop_reset_io fd)

/-- The client of a connection and the group that it asks for by name. -/
structure Requests (b : daemon) (fd : Nat) (groupname : List UInt8) (cli : client_t) (i : Nat)
    (group : group_t) : Prop where
  logged_in : (b.ios fd).arg ≠ 0
  client : b.client (b.ios fd).arg = ok cli
  search : search_group b.g_groups groupname = ok (some (i, group))

/-- A join or leave message that no client and group are found for. -/
def AsksForNothing (b : daemon) (fd : Nat) (groupname : Option (List UInt8)) : Prop :=
  (b.ios fd).arg = 0 ∨ ∀ name ∈ groupname, some name ∉ b.group_names

variable {b b' : daemon} {fd : Nat} {msg : List UInt8} {addr p : Ptr} {cli : client_t}

section Carried

variable {command_id id type : UInt16} {value name : List UInt8}

theorem carried_of_item (hid : msg_get_command_id msg = ok command_id)
    (hitem : msg_item msg type = ok (some value)) : carried command_id type msg = cstring value := by
  rw [carried, hid, hitem]
  exact if_pos rfl

theorem carried_of_none (hitem : msg_item msg type = ok none) :
    carried command_id type msg = none := by
  rw [carried, hitem]
  cases msg_get_command_id msg <;> rfl

theorem carried_of_ne (hid : msg_get_command_id msg = ok id) (hne : id ≠ command_id) :
    carried command_id type msg = none := by
  rw [carried, hid]
  split
  · next hok _ =>
    cases hok
    rw [if_neg hne]
  · rfl

/-- A message that is neither a login nor the creation of a group. -/
theorem carried_other (hid : msg_get_command_id msg = ok id) (hlogin : id ≠ CID_LOGIN_REQ_USERLOGIN)
    (hcreate : id ≠ CID_GROUP_CREATE_GROUP) : login_name msg = none ∧ create_name msg = none :=
  ⟨carried_of_ne hid hlogin, carried_of_ne hid hcreate⟩

end Carried

section Handlers

/-- A message that is no login and creates no group, and is at most answered. -/
theorem Effect.of_calls (hlogin : login_name msg = none) (hcreate : create_name msg = none)
    {calls : List io_write_call} (hcalls : msg_get_command_id msg ≠ ok CID_OTHER_HEARTBEAT →
      ∀ call ∈ calls, Forwards b msg call) :
    Effect b (.message fd msg addr) { b with writes := b.writes ++ calls } := by
  refine .answered (fun name hname => ?_) (fun name hname => ?_) hcalls
  · rw [hlogin] at hname
    cases hname
  · rw [hcreate] at hname
    cases hname

/-- A message that nothing comes of. -/
theorem Effect.nothing (hlogin : ∀ name, login_name msg = some name → some name ∈ b.user_names)
    (hcreate : ∀ name, create_name msg = some name → some name ∈ b.group_names) :
    Effect b (.message fd msg addr) b := by
  have h := @Effect.answered b fd msg addr [] hlogin hcreate (fun _ => nofun)
  rwa [List.append_nil] at h

theorem Effect.ignored (hlogin : login_name msg = none) (hcreate : create_name msg = none) :
    Effect b (.message fd msg addr) b := by
  have h := @Effect.of_calls b fd msg addr hlogin hcreate [] (fun _ => nofun)
  rwa [List.append_nil] at h

/-- Only the new client takes the address that `malloc` returned. -/
theorem setIo_new {g_clients : List client_t} {name : List UInt8}
    (hfresh : ∀ cli ∈ g_clients, cli.addr ≠ addr) :
    ({ b with g_clients := g_clients ++ [({ addr, io := none, name } : client_t)] }.setArg fd
        addr).setIo fd addr =
      { b with g_clients := g_clients ++ [({ addr, io := some fd, name } : client_t)] }.setArg fd
        addr := by
  have hold : g_clients.map (fun cli => if cli.addr = addr then { cli with io := some fd } else cli) =
      g_clients := by
    rw [List.map_congr_left fun cli hcli => if_neg (hfresh cli hcli), List.map_id']
  simp only [daemon.setIo, daemon.setArg, List.map_append, hold, List.map_cons, List.map_nil, if_pos]

/-- A name under which no group is found is not one of the stored names. -/
theorem search_group_missed {groupname name : List UInt8}
    (h : search_group b.g_groups groupname = ok none) (hname : cstring groupname = some name) :
    some name ∉ b.group_names := by
  intro hmem
  obtain ⟨group, hgroup, hown⟩ := List.mem_map.mp hmem
  exact search_group_none h hname group hgroup hown

theorem handle_login_request_cases (hid : msg_get_command_id msg = ok CID_LOGIN_REQ_USERLOGIN)
    (hfresh : ∀ cli ∈ b.g_clients, cli.addr ≠ addr)
    (h : handle_login_request b msg fd addr = ok b') :
    (b' = b ∧ ∀ name, login_name msg = some name → some name ∈ b.user_names) ∨
    ∃ name stored, login_name msg = some name ∧ some name ∉ b.user_names ∧
      cstring stored = some (name.take 127) ∧
      b' = { b with
        g_clients := b.g_clients ++ [({ addr, io := some fd, name := stored } : client_t)]
        }.setArg fd addr := by
  obtain ⟨item, hitem, h⟩ := bind_eq_ok_iff.mp h
  cases item with
  | none =>
    cases h
    have hnone : login_name msg = none := carried_of_none hitem
    exact .inl ⟨rfl, fun name hname => absurd (hnone.symm.trans hname) nofun⟩
  | some value =>
    have hlogin : login_name msg = cstring value := carried_of_item hid hitem
    obtain ⟨found, hfound, h⟩ := bind_eq_ok_iff.mp h
    cases found with
    | some cli =>
      cases h
      obtain ⟨hcli, body, hown, hvalue⟩ := user_get_by_name_some hfound
      refine .inl ⟨rfl, fun name hname => ?_⟩
      rw [hlogin, hvalue, ← hown] at hname
      exact List.mem_map.mpr ⟨cli, hcli, hname⟩
    | none =>
      obtain ⟨g_clients, hmake, h⟩ := bind_eq_ok_iff.mp h
      cases h
      obtain ⟨body, stored, hvalue, hstored, rfl⟩ := user_create_stores hmake
      rw [setIo_new hfresh]
      refine .inr ⟨body, stored, hlogin.trans hvalue, fun hmem => ?_, hstored, rfl⟩
      obtain ⟨cli, hcli, heq⟩ := List.mem_map.mp hmem
      exact user_get_by_name_none hfound hvalue cli hcli heq

theorem handle_login_request_effect (hid : msg_get_command_id msg = ok CID_LOGIN_REQ_USERLOGIN)
    (hne : addr ≠ 0) (hfresh : ∀ cli ∈ b.g_clients, cli.addr ≠ addr)
    (h : handle_login_request b msg fd addr = ok b') : Effect b (.message fd msg addr) b' := by
  have hcreate : create_name msg = none := carried_of_ne hid (by decide)
  obtain ⟨rfl, htaken⟩ | ⟨name, stored, hname, hnew, hstored, rfl⟩ :=
    handle_login_request_cases hid hfresh h
  · exact Effect.nothing htaken fun name hname => absurd (hcreate.symm.trans hname) nofun
  · exact .logged_in hcreate hname hne hfresh hnew hstored

theorem handle_create_group_cases (hid : msg_get_command_id msg = ok CID_GROUP_CREATE_GROUP)
    (h : handle_create_group b msg = ok b') :
    (b' = b ∧ ∀ name, create_name msg = some name → some name ∈ b.group_names) ∨
    ∃ name stored, create_name msg = some name ∧ some name ∉ b.group_names ∧
      cstring stored = some (name.take 127) ∧
      b' = { b with g_groups := b.g_groups ++ [{ group_name := stored, users := [] }] } := by
  obtain ⟨item, hitem, h⟩ := bind_eq_ok_iff.mp h
  cases item with
  | none =>
    cases h
    have hnone : create_name msg = none := carried_of_none hitem
    exact .inl ⟨rfl, fun name hname => absurd (hnone.symm.trans hname) nofun⟩
  | some value =>
    have hcreate : create_name msg = cstring value := carried_of_item hid hitem
    obtain ⟨found, hfound, h⟩ := bind_eq_ok_iff.mp h
    cases found with
    | some p =>
      cases h
      obtain ⟨hget, body, hvalue, hown⟩ := search_group_some hfound
      refine .inl ⟨rfl, fun name hname => ?_⟩
      rw [hcreate, hvalue, ← hown] at hname
      exact List.mem_map.mpr ⟨p.2, List.mem_of_getElem? hget, hname⟩
    | none =>
      obtain ⟨g_groups, hmake, h⟩ := bind_eq_ok_iff.mp h
      cases h
      obtain ⟨body, stored, hvalue, hstored, rfl⟩ := group_create_stores hmake
      exact .inr ⟨body, stored, hcreate.trans hvalue, search_group_missed hfound hvalue, hstored,
        rfl⟩

theorem handle_create_group_effect (hid : msg_get_command_id msg = ok CID_GROUP_CREATE_GROUP)
    (h : handle_create_group b msg = ok b') : Effect b (.message fd msg addr) b' := by
  have hlogin : login_name msg = none := carried_of_ne hid (by decide)
  obtain ⟨rfl, htaken⟩ | ⟨name, stored, hname, hnew, hstored, rfl⟩ :=
    handle_create_group_cases hid h
  · exact Effect.nothing (fun name hname => absurd (hlogin.symm.trans hname) nofun) htaken
  · exact .created hlogin hname hnew hstored

/-- A client that asks for a group that exists is in it already or gets in, at its
end; nothing else happens on a join message. -/
theorem handle_join_group_cases (hid : msg_get_command_id msg = ok CID_GROUP_JOIN_GROUP)
    (h : handle_join_group b msg fd = ok b') :
    (b' = b ∧ AsksForNothing b fd (join_name msg)) ∨
    ∃ value cli i group, join_name msg = cstring value ∧ Requests b fd value cli i group ∧
      ((b' = b ∧ cstring cli.name ∈ group.users.map cstring) ∨
        ∃ data name, cstring cli.name = some name ∧ cstring data = some name ∧
          some name ∉ group.users.map cstring ∧
          b' = { b with
            g_groups := b.g_groups.set i { group with users := group.users ++ [data] } }) := by
  unfold handle_join_group at h
  split at h
  · next harg =>
    cases h
    exact .inl ⟨rfl, .inl harg⟩
  next harg =>
  obtain ⟨item, hitem, h⟩ := bind_eq_ok_iff.mp h
  cases item with
  | none =>
    cases h
    have hnone : join_name msg = none := carried_of_none hitem
    exact .inl ⟨rfl, .inr fun name hname => absurd (hnone.symm.trans hname) nofun⟩
  | some value =>
    have hjoin : join_name msg = cstring value := carried_of_item hid hitem
    obtain ⟨found, hfound, h⟩ := bind_eq_ok_iff.mp h
    cases found with
    | none =>
      cases h
      exact .inl ⟨rfl, .inr fun name hname => search_group_missed hfound (hjoin.symm.trans hname)⟩
    | some p =>
      obtain ⟨i, group⟩ := p
      obtain ⟨cli, hcli, h⟩ := bind_eq_ok_iff.mp h
      obtain ⟨g_groups, hadd, h⟩ := bind_eq_ok_iff.mp h
      cases h
      refine .inr ⟨value, cli, i, group, hjoin, ⟨harg, hcli, hfound⟩, ?_⟩
      obtain ⟨rfl, hmember⟩ | ⟨data, name, hname, hdata, hnew, rfl⟩ := join_group_found hfound hadd
      · exact .inl ⟨rfl, hmember⟩
      · exact .inr ⟨data, name, hname, hdata, hnew, rfl⟩

theorem handle_join_group_effect (hid : msg_get_command_id msg = ok CID_GROUP_JOIN_GROUP)
    (h : handle_join_group b msg fd = ok b') : Effect b (.message fd msg addr) b' := by
  obtain ⟨hlogin, hcreate⟩ := carried_other hid (by decide) (by decide)
  obtain ⟨rfl, -⟩ | ⟨value, cli, i, group, -, hasks, ⟨rfl, -⟩ | ⟨data, name, hname, hdata, hnew, rfl⟩⟩ :=
    handle_join_group_cases hid h
  · exact Effect.ignored hlogin hcreate
  · exact Effect.ignored hlogin hcreate
  · exact .joined hlogin hcreate (daemon.client_ok hasks.client).1 (search_group_some hasks.search).1
      hname hdata hnew

theorem handle_leave_group_cases (hid : msg_get_command_id msg = ok CID_GROUP_LEAVE_GROUP)
    (h : handle_leave_group b msg fd = ok b') :
    (b' = b ∧ AsksForNothing b fd (leave_name msg)) ∨
    ∃ value cli i group group', leave_name msg = cstring value ∧ Requests b fd value cli i group ∧
      Left cli.name group group' ∧ b' = { b with g_groups := b.g_groups.set i group' } := by
  have hleave : leave_name msg = cstring (msg_get_data msg) := by
    rw [leave_name, hid]
    rfl
  unfold handle_leave_group at h
  split at h
  · next harg =>
    cases h
    exact .inl ⟨rfl, .inl harg⟩
  next harg =>
  obtain ⟨cli, hcli, h⟩ := bind_eq_ok_iff.mp h
  obtain ⟨g_groups, hgroups, h⟩ := bind_eq_ok_iff.mp h
  cases h
  obtain ⟨rfl, hmissed⟩ | ⟨i, group, group', hfound, hleft, rfl⟩ := leave_group_by_name_cases hgroups
  · exact .inl ⟨rfl, .inr fun name hname => search_group_missed hmissed (hleave.symm.trans hname)⟩
  · exact .inr ⟨msg_get_data msg, cli, i, group, group', hleave, ⟨harg, hcli, hfound⟩, hleft, rfl⟩

theorem handle_leave_group_effect (hid : msg_get_command_id msg = ok CID_GROUP_LEAVE_GROUP)
    (h : handle_leave_group b msg fd = ok b') : Effect b (.message fd msg addr) b' := by
  obtain ⟨hlogin, hcreate⟩ := carried_other hid (by decide) (by decide)
  obtain ⟨rfl, -⟩ | ⟨value, cli, i, group, group', -, hasks, hleft, rfl⟩ :=
    handle_leave_group_cases hid h
  · exact Effect.ignored hlogin hcreate
  · exact .left hlogin hcreate (daemon.client_ok hasks.client).1 (search_group_some hasks.search).1
      hleft

theorem handle_msg_effect (hne : addr ≠ 0) (hfresh : ∀ cli ∈ b.g_clients, cli.addr ≠ addr)
    (h : handle_msg b msg fd addr = ok b') :
    Effect b (.message fd msg addr) b' := by
  obtain ⟨id, hid, h⟩ := bind_eq_ok_iff.mp h
  split at h
  · next heq =>
    obtain ⟨hlogin, hcreate⟩ := carried_other hid (heq ▸ by decide) (heq ▸ by decide)
    obtain ⟨len, -, h⟩ := bind_eq_ok_iff.mp h
    cases h
    exact Effect.of_calls hlogin hcreate (fun hne => absurd (heq ▸ hid) hne)
  split at h
  · next heq => exact handle_login_request_effect (heq ▸ hid) hne hfresh h
  split at h
  · next heq => exact handle_create_group_effect (heq ▸ hid) h
  next hlogin hcreate =>
  obtain ⟨hlogin, hcreate⟩ := carried_other hid hlogin hcreate
  split at h
  · next heq => exact handle_join_group_effect (heq ▸ hid) h
  split at h
  · next heq => exact handle_leave_group_effect (heq ▸ hid) h
  split at h
  · next heq =>
    obtain ⟨calls, rfl, hcalls⟩ := handle_group_msg_forwards (heq ▸ hid) h
    exact Effect.of_calls hlogin hcreate (fun _ => hcalls)
  split at h
  · next heq =>
    obtain ⟨calls, rfl, hcalls⟩ := handle_private_msg_forwards (heq ▸ hid) h
    exact Effect.of_calls hlogin hcreate (fun _ => hcalls)
  · cases h
    exact Effect.ignored hlogin hcreate

end Handlers

theorem exec_close_effect (h : b.exec (.close fd) = ok b') : Effect b (.close fd) b' := by
  obtain ⟨b₁, hclose, h⟩ := bind_eq_ok_iff.mp h
  cases h
  unfold handle_close at hclose
  split at hclose
  · next harg =>
    cases hclose
    exact .disconnected harg
  · next harg =>
    obtain ⟨cli, hclient, hclose⟩ := bind_eq_ok_iff.mp hclose
    obtain ⟨g_groups, hleave, hclose⟩ := bind_eq_ok_iff.mp hclose
    obtain ⟨g_clients, hdelete, hclose⟩ := bind_eq_ok_iff.mp hclose
    cases hclose
    obtain ⟨hcli, haddr⟩ := daemon.client_ok hclient
    obtain ⟨found, hfound, hdelete⟩ := bind_eq_ok_iff.mp hdelete
    cases found with
    | none => exact absurd hfound (user_get_by_name_own hcli)
    | some victim =>
      cases hdelete
      exact .closed hcli haddr (haddr ▸ harg) (leave_all_group_left hleave) hfound

/-- Every step has one of the effects. -/
theorem Step.effect {e : bus_event} (h : Step b e b') : Effect b e b' := by
  obtain ⟨hallowed, h⟩ := h
  cases e with
  | accept fd =>
    simp only [daemon.exec, daemon.eloop_set_event] at h
    split at h
    · cases h
      exact .accepted fd
    · cases h
  | message fd msg addr => exact handle_msg_effect hallowed.2.1 hallowed.2.2 h
  | close fd => exact exec_close_effect h
  | full fd =>
    cases h
    exact .reset fd

/-- A client that the daemon lists has a connection. -/
theorem Effect.io_kept {e : bus_event} (heffect : Effect b e b')
    (hio : ∀ cli ∈ b.g_clients, cli.io ≠ none) : ∀ cli ∈ b'.g_clients, cli.io ≠ none := by
  cases heffect with
  | accepted _ | answered _ _ _ | created _ _ _ _ | joined _ _ _ _ _ _ _ | left _ _ _ _ _
  | disconnected _ | reset _ => exact hio
  | logged_in _ _ _ _ _ _ =>
    exact List.forall_mem_append.mpr
      ⟨hio, List.forall_mem_singleton.mpr (Option.some_ne_none _)⟩
  | closed _ _ _ _ _ => exact fun cli hcli => hio cli (List.mem_of_mem_filter hcli)

end easymesh.mbusd
