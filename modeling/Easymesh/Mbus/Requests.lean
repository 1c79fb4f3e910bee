import Easymesh.Mbus.EndToEnd

open Lib Lib.Result easymesh.tlv_parser easymesh.mbusd

namespace easymesh.bus_msg

section Send

variable (uninit : Nat → UInt8) (name : List UInt8)

/-- What the requests with one name share. A failed print returns -1. -/
def mbus_named_request (type command_id : UInt16) : Result (Int × Option (List UInt8 × Int)) := do
  if (← readU8 name 0) = 0 then ok (-1, none)
  else do
    let pstRoot := Kami_Tlv_CreateObject MBUS_TYPE_LEN
    let n ← strlen name
    let pstRoot ← Kami_Tlv_AddTlvToObject pstRoot type (UInt16.ofNat (n + 1)) name 0 MBUS_TYPE_LEN
    match ← Kami_Tlv_Print uninit pstRoot with
    | none => ok (-1, none)
    | some pr => do
      let tlv_len := Kami_Tlv_ObjectLength pstRoot
      let body ← readBytes pr 0 tlv_len
      let msg ← writeBytes (bytesI32 tlv_len ++ List.replicate 12 0 ++ body) 10 (bytesU16 command_id)
      let size ← msg_size msg
      ok (0, some (msg, size))

def mbus_register_object : Result (Int × Option (List UInt8 × Int)) :=
  mbus_named_request uninit name TYPE_USERLOGIN_USERNAME CID_LOGIN_REQ_USERLOGIN

def mbus_create_group : Result (Int × Option (List UInt8 × Int)) :=
  mbus_named_request uninit name TYPE_GROUPCREATE_GROUPNAME CID_GROUP_CREATE_GROUP

def mbus_join_group : Result (Int × Option (List UInt8 × Int)) :=
  mbus_named_request uninit name TYPE_GROUPJOIN_GROUPNAME CID_GROUP_JOIN_GROUP

end Send

section Named

variable {type command_id : UInt16} {name body : List UInt8}

/-- A request with one name as it is on the wire. -/
def named_msg (type command_id : UInt16) (name : List UInt8) : List UInt8 :=
  items_msg command_id [(type, name ++ [0])]

theorem named_total (type : UInt16) (name : List UInt8) :
    total_length [(type, name ++ [0])] = 4 + (name.length + 1) := by
  simp only [total_length, List.map_cons, List.map_nil, List.sum_cons, List.sum_nil,
    List.length_append, List.length_singleton, Nat.add_zero]

theorem named_msg_length (type command_id : UInt16) (name : List UInt8) :
    (named_msg type command_id name).length = 21 + name.length := by
  rw [named_msg, items_msg_length, named_total]
  omega

theorem mbus_named_request_spec (uninit : Nat → UInt8) (hname : cstring name = some body)
    (hne : body ≠ []) (hfits : body.length ≤ 65530) :
    mbus_named_request uninit name type command_id =
      ok (0, some (named_msg type command_id body,
        ((named_msg type command_id body).length : Int))) := by
  obtain ⟨hfree, tail, hmem⟩ := cstring_eq_some_iff.mp hname
  obtain ⟨first, hfirst, hzero⟩ : ∃ first, readU8 name 0 = ok first ∧ first ≠ 0 := by
    cases body with
    | nil => exact absurd rfl hne
    | cons first others =>
      refine ⟨first, by simp [← hmem, readU8, readBytes], ?_⟩
      rintro rfl
      exact hfree List.mem_cons_self
  obtain ⟨root, hadd, hflat, hchild⟩ := flatObject_new.add type (readBytes_cstring hname)
  have htotal := named_total type body
  have hbody : encodeAll root.child = [(type, body ++ [0])].flatMap tlv_bytes := by
    have hcut : cut (body ++ [0]) = body ++ [0] := by
      apply cut_eq
      rw [List.length_append, List.length_singleton]
      omega
    rw [hchild, encodeAll_eq]
    simp only [Kami_Tlv_CreateObject, List.nil_append, List.map_cons, List.map_nil, encode_msg_node,
      hcut]
    rfl
  have hlength := flatMap_tlv_bytes_length [(type, body ++ [0])]
  obtain ⟨hcount, more, hprint⟩ :=
    hflat.print uninit (by rw [hbody, hlength, htotal]; unfold INT_MAX; omega)
  rw [hbody, hlength, htotal, Nat.mod_eq_of_lt (by omega)] at hcount
  rw [hbody] at hprint
  have hcopy : readBytes ([(type, body ++ [0])].flatMap tlv_bytes ++ more) 0
      (4 + (body.length + 1)) = ok ([(type, body ++ [0])].flatMap tlv_bytes) := by
    rw [← htotal, ← hlength]
    exact readBytes_front rfl
  have hsize := @msg_bytes_size (4 + (body.length + 1)) command_id
    ([(type, body ++ [0])].flatMap tlv_bytes) (by omega) []
  rw [List.append_nil] at hsize
  rw [List.length_append, List.length_singleton] at hadd
  rw [mbus_named_request, hfirst, ok_bind, if_neg hzero, strlen_cstring hname, ok_bind, hadd,
    ok_bind, hprint, ok_bind]
  have hlen : (16 : Int) + (4 + (body.length + 1) : Nat) =
      ((named_msg type command_id body).length : Int) := by
    rw [named_msg_length]
    omega
  simp only [hcount, hcopy, ok_bind, write_command_id, hsize, hlen]
  rw [named_msg, items_msg, htotal]

/-- The name is found under its type. -/
theorem named_msg_item (hfits : name.length ≤ 65530) (rest : List UInt8) :
    msg_item (named_msg type command_id name ++ rest) type = ok (some (name ++ [0])) := by
  obtain ⟨pstRoot, hroot, hchild⟩ := @items_msg_root command_id [(type, name ++ [0])]
    (List.cons_ne_nil _ _) (by rw [named_total]; omega) (by simp) rest
  have hitem : Kami_Tlv_GetObjectItem pstRoot type 0 = some (msg_node type (name ++ [0])) := by
    rw [Kami_Tlv_GetObjectItem, hchild]
    exact if_pos rfl
  have hcut : cut (name ++ [0]) = name ++ [0] := by
    apply cut_eq
    rw [List.length_append, List.length_singleton]
    omega
  rw [named_msg, msg_item_found hroot hitem, msg_node_value, hcut]

theorem named_msg_command_id (rest : List UInt8) :
    msg_get_command_id (named_msg type command_id name ++ rest) = ok command_id :=
  msg_bytes_command_id rest

end Named

section Known

variable {b : daemon} {fd : Nat} {cli : client_t} {name : List UInt8}

/-- A login under a name that is taken changes nothing. -/
theorem handle_msg_registered (hfits : name.length ≤ 65530)
    (hfound : user_get_by_name b.g_clients (name ++ [0]) = ok (some cli)) (addr : Ptr)
    (rest : List UInt8) :
    handle_msg b (named_msg TYPE_USERLOGIN_USERNAME CID_LOGIN_REQ_USERLOGIN name ++ rest) fd addr =
      ok b := by
  have hitem := @named_msg_item TYPE_USERLOGIN_USERNAME CID_LOGIN_REQ_USERLOGIN _ hfits rest
  rw [handle_msg, named_msg_command_id, ok_bind]
  rw [if_neg (by decide), if_pos rfl, handle_login_request, hitem, ok_bind]
  simp only [hfound, ok_bind]

/-- So does making a group that is there. -/
theorem handle_msg_created {found : Nat × group_t} (hfits : name.length ≤ 65530)
    (hfound : search_group b.g_groups (name ++ [0]) = ok (some found)) (addr : Ptr)
    (rest : List UInt8) :
    handle_msg b (named_msg TYPE_GROUPCREATE_GROUPNAME CID_GROUP_CREATE_GROUP name ++ rest) fd addr =
      ok b := by
  have hitem := @named_msg_item TYPE_GROUPCREATE_GROUPNAME CID_GROUP_CREATE_GROUP _ hfits rest
  rw [handle_msg, named_msg_command_id, ok_bind]
  rw [if_neg (by decide), if_neg (by decide), if_pos rfl, handle_create_group, hitem, ok_bind]
  simp only [hfound, ok_bind]

/-- A member of a group is found in it. -/
theorem search_item_in_group_known {group : group_t} {username body : List UInt8}
    (husers : ∀ user ∈ group.users, (cstring user).isSome) (hname : cstring username = some body)
    (hmember : some body ∈ group.users.map cstring) :
    ∃ j, search_item_in_group group username = ok (some j) := by
  have hall : ∀ user ∈ group.users, (strcmp_eq user username).Returns := by
    intro user huser
    obtain ⟨own, hown⟩ := Option.isSome_iff_exists.mp (husers user huser)
    exact ⟨_, strcmp_eq_of_cstring hown hname⟩
  obtain ⟨found, hfound⟩ := lookup_returns hall
  have hsearch : search_item_in_group group username = ok (found.map Prod.fst) := by
    rw [search_item_in_group, hfound, map_ok]
  cases found with
  | none => exact absurd hmember (search_item_in_group_none hsearch hname)
  | some found => exact ⟨found.1, hsearch⟩

/-- So does joining a group again. -/
theorem handle_msg_joined {i j : Nat} {group : group_t} (hfits : name.length ≤ 65530)
    (hfound : search_group b.g_groups (name ++ [0]) = ok (some (i, group)))
    (harg : (b.ios fd).arg ≠ 0) (hcli : b.client (b.ios fd).arg = ok cli)
    (hmember : search_item_in_group group cli.name = ok (some j)) (addr : Ptr)
    (rest : List UInt8) :
    handle_msg b (named_msg TYPE_GROUPJOIN_GROUPNAME CID_GROUP_JOIN_GROUP name ++ rest) fd addr =
      ok b := by
  have hitem := @named_msg_item TYPE_GROUPJOIN_GROUPNAME CID_GROUP_JOIN_GROUP _ hfits rest
  rw [handle_msg, named_msg_command_id, ok_bind]
  rw [if_neg (by decide), if_neg (by decide), if_neg (by decide), if_pos rfl, handle_join_group,
    if_neg harg, hitem, ok_bind]
  simp only [hfound, ok_bind, hcli, join_group, hmember]

end Known

end easymesh.bus_msg
