import Easymesh.Mbus.Daemon
import Easymesh.Mbus.Lookup

open Lib Lib.Result

namespace easymesh.mbusd

/-- The client that a message on the connection `fd` is from and the group it is
for, when it is one that `_handle_group_msg` forwards. -/
structure ToGroup (b : daemon) (msg : List UInt8) (fd : Nat) (cli : client_t) (group : group_t) :
    Prop where
  logged_in : (b.ios fd).arg ≠ 0
  client : b.client (b.ios fd).arg = ok cli
  sender : ∃ value, msg_item msg TYPE_GROUPMSG_SENDER_NAME = ok (some value)
  message : ∃ value, msg_item msg TYPE_GROUPMSG_GROUP_MSG = ok (some value)
  group_name : ∃ name first i, msg_item msg TYPE_GROUPMSG_GROUP_NAME = ok (some name) ∧
    readU8 name 0 = ok first ∧ first ≠ 0 ∧ search_group b.g_groups name = ok (some (i, group))

/-- The calls of `io_write` that the loop over some members makes. -/
inductive Delivered (b : daemon) (fromName data : List UInt8) (len : Int) :
    List (List UInt8) → List io_write_call → Prop
  | nil : Delivered b fromName data len [] []
  | sender {user : List UInt8} {users : List (List UInt8)} {calls : List io_write_call}
      (hsame : strcmp_eq user fromName = ok true)
      (hrest : Delivered b fromName data len users calls) :
      Delivered b fromName data len (user :: users) calls
  | unknown {user : List UInt8} {users : List (List UInt8)} {calls : List io_write_call}
      (hsame : strcmp_eq user fromName = ok false)
      (hfound : user_get_by_name b.g_clients user = ok none)
      (hrest : Delivered b fromName data len users calls) :
      Delivered b fromName data len (user :: users) calls
  | no_io {user : List UInt8} {users : List (List UInt8)} {calls : List io_write_call}
      {cli : client_t} (hsame : strcmp_eq user fromName = ok false)
      (hfound : user_get_by_name b.g_clients user = ok (some cli)) (hio : cli.io = none)
      (hrest : Delivered b fromName data len users calls) :
      Delivered b fromName data len (user :: users) calls
  | sent {user : List UInt8} {users : List (List UInt8)} {calls : List io_write_call}
      {cli : client_t} {io : Nat} (hsame : strcmp_eq user fromName = ok false)
      (hfound : user_get_by_name b.g_clients user = ok (some cli)) (hio : cli.io = some io)
      (hrest : Delivered b fromName data len users calls) :
      Delivered b fromName data len (user :: users) ({ io, data, len } :: calls)

/-- The client is one that the message is for: the receiver of a private message
or a member of the group of a group message. -/
def Addressed (b : daemon) (msg : List UInt8) (cli : client_t) : Prop :=
  (msg_get_command_id msg = ok CID_PRIVATE_MSG ∧
    ∃ receiver, msg_item msg TYPE_PRIVATEMSG_RECEIVER_NAME = ok (some receiver) ∧
      cstring cli.name = cstring receiver) ∨
  (msg_get_command_id msg = ok CID_GROUP_MSG ∧
    ∃ name i group, msg_item msg TYPE_GROUPMSG_GROUP_NAME = ok (some name) ∧
      search_group b.g_groups name = ok (some (i, group)) ∧
      ∃ user ∈ group.users, cstring cli.name = cstring user)

/-- A call of `io_write` that hands a message on to a user it is for. -/
def Forwards (b : daemon) (msg : List UInt8) (call : io_write_call) : Prop :=
  ∃ cli ∈ b.g_clients, Addressed b msg cli ∧ cli.io = some call.io ∧ call.data = msg ∧
    msg_size msg = ok call.len

variable {b b' : daemon} {msg : List UInt8} {fd i : Nat} {cli : client_t} {group : group_t}
  {fromName data user : List UInt8} {users : List (List UInt8)} {len : Int}
  {calls : List io_write_call}

theorem daemon.client_ok {p : Ptr} (h : b.client p = ok cli) : cli ∈ b.g_clients ∧ cli.addr = p := by
  unfold daemon.client at h
  split at h
  · next found hfind =>
    cases h
    have haddr := List.find?_some hfind
    exact ⟨List.mem_of_find?_eq_some hfind, of_decide_eq_true haddr⟩
  · cases h

section Members

/-- Earlier writes have no part in a delivery. -/
theorem Delivered.of_writes {writes : List io_write_call}
    (h : Delivered { b with writes } fromName data len users calls) :
    Delivered b fromName data len users calls := by
  induction h with
  | nil => exact .nil
  | sender hsame _ ih => exact .sender hsame ih
  | unknown hsame hfound _ ih => exact .unknown hsame hfound ih
  | no_io hsame hfound hio _ ih => exact .no_io hsame hfound hio ih
  | sent hsame hfound hio _ ih => exact .sent hsame hfound hio ih

theorem foldlM_group_cb
    (h : users.foldlM (fun b username => group_cb fromName data len username b) b = ok b') :
    ∃ calls, Delivered b fromName data len users calls ∧
      b' = { b with writes := b.writes ++ calls } := by
  induction users generalizing b with
  | nil =>
    cases h
    exact ⟨[], .nil, by rw [List.append_nil]⟩
  | cons user users ih =>
    rw [List.foldlM_cons] at h
    obtain ⟨b₁, hcb, h⟩ := bind_eq_ok_iff.mp h
    obtain ⟨calls, hdelivered, rfl⟩ := ih h
    obtain ⟨same, hsame, hcb⟩ := bind_eq_ok_iff.mp hcb
    cases same with
    | true =>
      cases hcb
      exact ⟨calls, .sender hsame hdelivered, rfl⟩
    | false =>
      obtain ⟨found, hfound, hcb⟩ := bind_eq_ok_iff.mp hcb
      cases found with
      | none =>
        cases hcb
        exact ⟨calls, .unknown hsame hfound hdelivered, rfl⟩
      | some cli =>
        cases hcb
        cases hio : cli.io with
        | none =>
          simp only [send_data_to_user, hio] at hdelivered ⊢
          exact ⟨calls, .no_io hsame hfound hio hdelivered, rfl⟩
        | some io =>
          simp only [send_data_to_user, hio, daemon.io_write] at hdelivered ⊢
          refine ⟨_, .sent hsame hfound hio hdelivered.of_writes, ?_⟩
          rw [List.append_assoc, List.singleton_append]

/-- Each call serves a member found among the clients. -/
theorem Delivered.mem (h : Delivered b fromName data len users calls) :
    ∀ call ∈ calls, call.data = data ∧ call.len = len ∧ ∃ user ∈ users, ∃ cli,
      user_get_by_name b.g_clients user = ok (some cli) ∧ cli.io = some call.io := by
  induction h with
  | nil => exact nofun
  | sender _ _ ih | unknown _ _ _ ih | no_io _ _ _ _ ih =>
    intro call hcall
    obtain ⟨hdata, hlen, user, huser, hcli⟩ := ih call hcall
    exact ⟨hdata, hlen, user, List.mem_cons_of_mem _ huser, hcli⟩
  | sent hsame hfound hio _ ih =>
    intro call hcall
    rcases List.mem_cons.mp hcall with rfl | hcall
    · exact ⟨rfl, rfl, _, List.mem_cons_self, _, hfound, hio⟩
    · obtain ⟨hdata, hlen, user, huser, hcli⟩ := ih call hcall
      exact ⟨hdata, hlen, user, List.mem_cons_of_mem _ huser, hcli⟩

end Members

section GroupMessage

/-- A group that was found by a name is found by its own. -/
theorem search_group_again {g_groups : List group_t} {name : List UInt8}
    (h : search_group g_groups name = ok (some (i, group))) :
    search_group g_groups group.group_name = ok (some (i, group)) := by
  obtain ⟨-, body, hname, hown⟩ := search_group_some h
  have hsame : (fun group' => strcmp_eq group.group_name group'.group_name) =
      fun group' : group_t => strcmp_eq name group'.group_name := by
    funext group'
    exact strcmp_eq_congr hown hname _
  rw [search_group, hsame]
  exact h

/-- The group of a message that is forwarded is the one of its group name. -/
theorem ToGroup.of_item {name : List UInt8} (h : ToGroup b msg fd cli group)
    (hitem : msg_item msg TYPE_GROUPMSG_GROUP_NAME = ok (some name)) :
    ∃ first i, readU8 name 0 = ok first ∧ first ≠ 0 ∧
      search_group b.g_groups name = ok (some (i, group)) := by
  obtain ⟨name', first, i, hitem', hfirst, hne, hsearch⟩ := h.group_name
  rw [hitem] at hitem'
  cases hitem'
  exact ⟨first, i, hfirst, hne, hsearch⟩

/-- A group message that is not dropped is delivered to the members, and one that
is dropped changes nothing. -/
theorem handle_group_msg_cases (h : handle_group_msg b msg fd = ok b') :
    (∃ cli group len calls, ToGroup b msg fd cli group ∧ msg_size msg = ok len ∧
      Delivered b cli.name msg len group.users calls ∧
      b' = { b with writes := b.writes ++ calls }) ∨
    (b' = b ∧ ∀ cli group, ¬ ToGroup b msg fd cli group) := by
  unfold handle_group_msg at h
  split at h
  · next harg =>
    cases h
    exact .inr ⟨rfl, fun _ _ hto => hto.logged_in harg⟩
  · next harg =>
    obtain ⟨sender, hsender, h⟩ := bind_eq_ok_iff.mp h
    obtain ⟨group_name, hname, h⟩ := bind_eq_ok_iff.mp h
    obtain ⟨group_msg, hmessage, h⟩ := bind_eq_ok_iff.mp h
    cases sender with
    | none =>
      cases h
      exact .inr ⟨rfl, fun _ _ hto => absurd hto.sender (by simp [hsender])⟩
    | some sender =>
      cases group_name with
      | none =>
        cases h
        exact .inr ⟨rfl, fun _ _ hto => absurd hto.group_name (by simp [hname])⟩
      | some name =>
        cases group_msg with
        | none =>
          cases h
          exact .inr ⟨rfl, fun _ _ hto => absurd hto.message (by simp [hmessage])⟩
        | some message =>
          obtain ⟨first, hfirst, h⟩ := bind_eq_ok_iff.mp h
          split at h
          · next hempty =>
            cases h
            refine .inr ⟨rfl, fun _ _ hto => ?_⟩
            obtain ⟨first', i, hfirst', hne, -⟩ := hto.of_item hname
            cases hfirst.symm.trans hfirst'
            exact hne hempty
          · next hnonempty =>
            obtain ⟨found, hfound, h⟩ := bind_eq_ok_iff.mp h
            cases found with
            | none =>
              cases h
              refine .inr ⟨rfl, fun _ _ hto => ?_⟩
              obtain ⟨first', i, -, -, hfound'⟩ := hto.of_item hname
              cases hfound.symm.trans hfound'
            | some p =>
              obtain ⟨i, group⟩ := p
              obtain ⟨cli, hcli, h⟩ := bind_eq_ok_iff.mp h
              obtain ⟨len, hlen, h⟩ := bind_eq_ok_iff.mp h
              simp only [forward_msg_in_group, foreach_group_member, search_group_again hfound,
                ok_bind] at h
              obtain ⟨calls, hdelivered, rfl⟩ := foldlM_group_cb h
              have hto : ToGroup b msg fd cli group :=
                ⟨harg, hcli, ⟨sender, hsender⟩, ⟨message, hmessage⟩,
                  name, first, i, hname, hfirst, hnonempty, hfound⟩
              exact .inl ⟨cli, group, len, calls, hto, hlen, hdelivered, rfl⟩

theorem handle_group_msg_forwards (hid : msg_get_command_id msg = ok CID_GROUP_MSG)
    (h : handle_group_msg b msg fd = ok b') :
    ∃ calls, b' = { b with writes := b.writes ++ calls } ∧ ∀ call ∈ calls, Forwards b msg call := by
  obtain ⟨cli, group, len, calls, hto, hlen, hdelivered, rfl⟩ | ⟨rfl, -⟩ := handle_group_msg_cases h
  · refine ⟨calls, rfl, fun call hcall => ?_⟩
    obtain ⟨hdata, rfl, user, huser, member, hfound, hio⟩ := hdelivered.mem call hcall
    obtain ⟨hmember, body, hown, hname⟩ := user_get_by_name_some hfound
    obtain ⟨name, first, i, hitem, -, -, hsearch⟩ := hto.group_name
    have haddressed : Addressed b msg member :=
      .inr ⟨hid, name, i, group, hitem, hsearch, user, huser, hown.trans hname.symm⟩
    exact ⟨member, hmember, haddressed, hio, hdata, hlen⟩
  · exact ⟨[], by rw [List.append_nil], nofun⟩

end GroupMessage

theorem handle_private_msg_forwards (hid : msg_get_command_id msg = ok CID_PRIVATE_MSG)
    (h : handle_private_msg b msg fd = ok b') :
    ∃ calls, b' = { b with writes := b.writes ++ calls } ∧ ∀ call ∈ calls, Forwards b msg call := by
  have hnothing : ∃ calls, b = { b with writes := b.writes ++ calls } ∧
      ∀ call ∈ calls, Forwards b msg call := ⟨[], by rw [List.append_nil], nofun⟩
  unfold handle_private_msg at h
  split at h
  · cases h
    exact hnothing
  · obtain ⟨sender, -, h⟩ := bind_eq_ok_iff.mp h
    obtain ⟨receiver, hreceiver, h⟩ := bind_eq_ok_iff.mp h
    obtain ⟨private_msg, -, h⟩ := bind_eq_ok_iff.mp h
    split at h
    · cases receiver with
      | none => cases h
      | some name =>
        obtain ⟨found, hfound, h⟩ := bind_eq_ok_iff.mp h
        cases found with
        | none =>
          cases h
          exact hnothing
        | some peer_cli =>
          obtain ⟨len, hlen, h⟩ := bind_eq_ok_iff.mp h
          cases h
          cases hio : peer_cli.io with
          | none =>
            simp only [send_data_to_user, hio]
            exact hnothing
          | some io =>
            simp only [send_data_to_user, hio, daemon.io_write]
            refine ⟨_, rfl, fun call hcall => ?_⟩
            cases List.mem_singleton.mp hcall
            obtain ⟨hpeer, body, hown, hname⟩ := user_get_by_name_some hfound
            have haddressed : Addressed b msg peer_cli :=
              .inl ⟨hid, name, hreceiver, hown.trans hname.symm⟩
            exact ⟨peer_cli, hpeer, haddressed, hio, rfl, hlen⟩
    · cases h
      exact hnothing

end easymesh.mbusd
