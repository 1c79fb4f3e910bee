import Easymesh.Mbus.Registry

open Lib Lib.Result

namespace easymesh.mbusd

/-- The call writes the message, as it came, to a client of the user's name. -/
def SentTo (b : daemon) (msg user : List UInt8) (call : io_write_call) : Prop :=
  ∃ member ∈ b.g_clients, cstring member.name = cstring user ∧ member.io = some call.io ∧
    call.data = msg ∧ msg_size msg = ok call.len

/-- The calls serve each member of the group but the sender, each once and in the
order of the list; no two clients and no two members have one name. -/
structure SentToOthers (b : daemon) (msg : List UInt8) (cli : client_t) (group : group_t)
    (calls : List io_write_call) : Prop where
  names : b.user_names.Nodup
  once : (group.users.map cstring).Nodup
  each : List.Forall₂ (SentTo b msg)
    (group.users.filter fun user => cstring user ≠ cstring cli.name) calls

/-- What a group message may do: when it is for a group, the calls for its members
are all that happens, and otherwise nothing happens. -/
def GroupMsgDelivers (b : daemon) (msg : List UInt8) (fd : Nat) (b' : daemon) : Prop :=
  (∀ cli group, ToGroup b msg fd cli group →
    ∃ calls, b' = { b with writes := b.writes ++ calls } ∧ SentToOthers b msg cli group calls) ∧
  ((∀ cli group, ¬ ToGroup b msg fd cli group) → b' = b)

variable {b b' : daemon} {msg fromName user : List UInt8} {fd : Nat} {addr : Ptr}
  {cli cli' : client_t} {group group' : group_t} {users : List (List UInt8)} {len : Int}
  {calls : List io_write_call}

section Delivered

/-- With consistent registries the loop passes over nobody but the sender. -/
theorem Consistent.delivered_each (h : Consistent b) (hcli : cli ∈ b.g_clients)
    (hsize : msg_size msg = ok len) (hdelivered : Delivered b cli.name msg len users calls)
    (hknown : ∀ user ∈ users, cstring user ∈ b.user_names) :
    List.Forall₂ (SentTo b msg) (users.filter fun user => cstring user ≠ cstring cli.name) calls := by
  obtain ⟨own, hown⟩ := Option.isSome_iff_exists.mp (h.stored.client_isSome cli hcli)
  induction hdelivered with
  | nil => exact .nil
  | sender hsame _ ih =>
    obtain ⟨name, huser, hname⟩ := strcmp_eq_ok_true_iff.mp hsame
    rw [List.filter_cons_of_neg (by simp [huser, hname])]
    exact ih fun user huser => hknown user (List.mem_cons_of_mem _ huser)
  | unknown _ hfound _ _ =>
    obtain ⟨member, hmember, hname⟩ := List.mem_map.mp (hknown _ List.mem_cons_self)
    rw [h.user_get_by_name hmember hname.symm] at hfound
    cases hfound
  | no_io _ hfound hio _ _ => exact absurd hio (h.io _ (user_get_by_name_some hfound).1)
  | sent hsame hfound hio _ ih =>
    have hother := cstring_ne_of_strcmp hsame hown
    rw [List.filter_cons_of_pos (by simpa [hown] using hother)]
    obtain ⟨hmember, name, hname, huser⟩ := user_get_by_name_some hfound
    have hsent : SentTo b msg _ { io := _, data := msg, len } :=
      ⟨_, hmember, hname.trans huser.symm, hio, rfl, hsize⟩
    exact .cons hsent (ih fun user huser => hknown user (List.mem_cons_of_mem _ huser))

/-- A message is from one client and for one group. -/
theorem ToGroup.unique (h : ToGroup b msg fd cli group) (h' : ToGroup b msg fd cli' group') :
    cli' = cli ∧ group' = group := by
  obtain ⟨name, first, i, hname, -, -, hsearch⟩ := h.group_name
  obtain ⟨first', i', -, -, hsearch'⟩ := h'.of_item hname
  cases hsearch.symm.trans hsearch'
  cases h.client.symm.trans h'.client
  exact ⟨rfl, rfl⟩

theorem Consistent.handle_group_msg_delivers (h : Consistent b)
    (hhandle : handle_group_msg b msg fd = ok b') : GroupMsgDelivers b msg fd b' := by
  obtain ⟨cli, group, len, calls, hto, hsize, hdelivered, rfl⟩ | ⟨rfl, hnone⟩ :=
    handle_group_msg_cases hhandle
  · refine ⟨fun cli' group' hto' => ?_, fun hnone => absurd hto (hnone cli group)⟩
    obtain ⟨rfl, rfl⟩ := hto.unique hto'
    obtain ⟨_, _, i, -, -, -, hsearch⟩ := hto.group_name
    have hmembers := h.members group' (List.mem_of_getElem? (search_group_some hsearch).1)
    have hcli := (daemon.client_ok hto.client).1
    exact ⟨calls, rfl, h.distinct.clients, hmembers.once,
      h.delivered_each hcli hsize hdelivered hmembers.known⟩
  · exact ⟨fun cli group hto => absurd hto (hnone cli group), fun _ => rfl⟩

end Delivered

section Returns

theorem Consistent.client_returns (h : Consistent b) (hopen : (b.ios fd).opened = true)
    (harg : (b.ios fd).arg ≠ 0) : ∃ cli, b.client (b.ios fd).arg = ok cli := by
  obtain ⟨cli, hcli, haddr⟩ := h.listed fd hopen harg
  unfold daemon.client
  split
  · next found _ => exact ⟨found, rfl⟩
  · next hnone => exact absurd haddr (by simpa using List.find?_eq_none.mp hnone cli hcli)

theorem group_cb_returns (hstored : ∀ cli ∈ b.g_clients, (cstring cli.name).isSome)
    (hfrom : (cstring fromName).isSome) (huser : (cstring user).isSome) :
    ∃ writes, group_cb fromName msg len user b = ok { b with writes } := by
  obtain ⟨name, hname⟩ := Option.isSome_iff_exists.mp huser
  obtain ⟨own, hown⟩ := Option.isSome_iff_exists.mp hfrom
  obtain ⟨found, hfound⟩ := user_get_by_name_returns hstored huser
  rw [group_cb, strcmp_eq_of_cstring hname hown, ok_bind]
  split
  · exact ⟨b.writes, rfl⟩
  · rw [hfound, ok_bind]
    cases found with
    | none => exact ⟨b.writes, rfl⟩
    | some cli =>
      simp only [send_data_to_user]
      split
      · exact ⟨b.writes, rfl⟩
      · exact ⟨_, rfl⟩

theorem foldlM_group_cb_returns (hstored : ∀ cli ∈ b.g_clients, (cstring cli.name).isSome)
    (hfrom : (cstring fromName).isSome) (husers : ∀ user ∈ users, (cstring user).isSome) :
    (users.foldlM (fun b user => group_cb fromName msg len user b) b).Returns := by
  induction users generalizing b with
  | nil => exact returns_ok b
  | cons user users ih =>
    obtain ⟨huser, hrest⟩ := List.forall_mem_cons.mp husers
    obtain ⟨writes, hcb⟩ := @group_cb_returns b msg fromName user len hstored hfrom huser
    rw [List.foldlM_cons, hcb, ok_bind]
    exact @ih { b with writes } hstored hrest

theorem msg_root_returns (h : (msg_root msg).Returns) :
    (msg_size msg).Returns ∧ ∀ type, (msg_item msg type).Returns := by
  obtain ⟨root, hroot⟩ := h
  obtain ⟨length, hlength, -⟩ := bind_eq_ok_iff.mp hroot
  refine ⟨⟨_, by rw [msg_size, hlength]; rfl⟩, fun type => ⟨_, by rw [msg_item, hroot]; rfl⟩⟩

theorem readU8_returns (h : (cstring user).isSome) : (readU8 user 0).Returns := by
  cases user with
  | nil => cases h
  | cons c rest => exact ⟨c, by simp [readU8, readBytes]⟩

theorem Consistent.search_group_returns (h : Consistent b) {name : List UInt8}
    (hname : (cstring name).isSome) : (search_group b.g_groups name).Returns := by
  obtain ⟨body, hbody⟩ := Option.isSome_iff_exists.mp hname
  apply lookup_returns
  intro group hgroup
  obtain ⟨own, hown, -⟩ := h.stored.groups group hgroup
  exact ⟨_, strcmp_eq_of_cstring hbody hown⟩

/-- A group message whose body can be read and whose group name ends in it is handled. -/
theorem Consistent.handle_group_msg_returns (h : Consistent b) (hopen : (b.ios fd).opened = true)
    (hroot : (msg_root msg).Returns)
    (hname : ∀ name, msg_item msg TYPE_GROUPMSG_GROUP_NAME = ok (some name) →
      (cstring name).isSome) :
    (handle_group_msg b msg fd).Returns := by
  obtain ⟨⟨len, hlen⟩, hitems⟩ := msg_root_returns hroot
  obtain ⟨sender, hsender⟩ := hitems TYPE_GROUPMSG_SENDER_NAME
  obtain ⟨group_name, hgroup_name⟩ := hitems TYPE_GROUPMSG_GROUP_NAME
  obtain ⟨group_msg, hgroup_msg⟩ := hitems TYPE_GROUPMSG_GROUP_MSG
  unfold handle_group_msg
  split
  · exact returns_ok b
  · next harg =>
    rw [hsender, hgroup_name, hgroup_msg]
    simp only [ok_bind]
    split
    · next name _ =>
      have hsome := hname name hgroup_name
      obtain ⟨first, hfirst⟩ := readU8_returns hsome
      rw [hfirst, ok_bind]
      split
      · exact returns_ok b
      · obtain ⟨found, hfound⟩ := h.search_group_returns hsome
        rw [hfound, ok_bind]
        cases found with
        | none => exact returns_ok b
        | some p =>
          obtain ⟨i, group⟩ := p
          obtain ⟨cli, hcli⟩ := h.client_returns hopen harg
          have hgroup := List.mem_of_getElem? (search_group_some hfound).1
          simp only [hcli, hlen, ok_bind, forward_msg_in_group, foreach_group_member,
            search_group_again hfound]
          apply foldlM_group_cb_returns h.stored.client_isSome
          · exact h.stored.client_isSome cli (daemon.client_ok hcli).1
          · intro user huser
            obtain ⟨name, hname, -⟩ := h.stored.users group hgroup user huser
            rw [hname]
            rfl
    · exact returns_ok b

end Returns

theorem handle_msg_group (hid : msg_get_command_id msg = ok CID_GROUP_MSG) :
    handle_msg b msg fd addr = handle_group_msg b msg fd := by
  rw [handle_msg, hid]
  rfl

section Runs

def join_message (groupname : List UInt8) : List UInt8 :=
  bus_message CID_GROUP_JOIN_GROUP [(TYPE_GROUPJOIN_GROUPNAME, groupname)]

def group_message (sender groupname text : List UInt8) : List UInt8 :=
  bus_message CID_GROUP_MSG [(TYPE_GROUPMSG_SENDER_NAME, sender),
    (TYPE_GROUPMSG_GROUP_NAME, groupname), (TYPE_GROUPMSG_GROUP_MSG, text)]

/-- The users `a` and `b` log in and join a group that one of them makes. -/
def two_in_group (groupname : List UInt8) : List bus_event :=
  [.accept 5, .message 5 (login_message (cstr ['a'])) 1, .accept 6,
    .message 6 (login_message (cstr ['b'])) 2, .message 5 (create_message groupname) 3,
    .message 5 (join_message groupname) 3, .message 6 (join_message groupname) 3]

end Runs

end easymesh.mbusd
