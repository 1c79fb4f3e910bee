import Easymesh.Lib.CString

open Lib Lib.Result

namespace easymesh.mbusd

/-- The address of a `client_t`; `NULL` is 0. -/
abbrev Ptr := Nat

/-- `struct client_s` at address `addr`; its `io` is a slot of the loop or `NULL`. -/
structure client_t where
  addr : Ptr
  io : Option Nat
  name : List UInt8
  deriving DecidableEq, Repr

/-- `struct group_s`; `users` are the blocks that the nodes of the list point at. -/
structure group_t where
  group_name : List UInt8
  users : List (List UInt8)
  deriving DecidableEq, Repr

/-- What the daemon uses of `struct io_buf_s`: whether the slot holds a
connection, and its `arg`. -/
structure io_t where
  opened : Bool
  arg : Ptr
  deriving DecidableEq, Repr

/-- The arguments of a call of `io_write`; `data` is the memory it points at. -/
structure io_write_call where
  io : Nat
  data : List UInt8
  len : Int
  deriving DecidableEq, Repr

structure daemon where
  g_clients : List client_t
  g_groups : List group_t
  ios : Nat → io_t
  writes : List io_write_call

section Lookup

variable {α : Type}

/-- The loop with an iterator that the lookups share: the first element that
`same` finds, with its position. -/
def lookup (same : α → Result Bool) : List α → Result (Option (Nat × α))
  | [] => ok none
  | x :: xs => do
    if ← same x then ok (some (0, x))
    else (·.map fun (i, y) => (i + 1, y)) <$> lookup same xs

end Lookup

section Users

def user_get_by_name (g_clients : List client_t) (name : List UInt8) : Result (Option client_t) :=
  (·.map Prod.snd) <$> lookup (fun cli => strcmp_eq cli.name name) g_clients

/-- `addr` is what `malloc` returns. -/
def user_create (g_clients : List client_t) (addr : Ptr) (name : List UInt8) :
    Result (List client_t) := do
  let name ← snprintf_s (List.replicate 128 0) name
  ok (g_clients ++ [{ addr, io := none, name }])

def user_delete (g_clients : List client_t) (name : List UInt8) : Result (List client_t) := do
  match ← user_get_by_name g_clients name with
  | none => ok g_clients
  | some cli => ok (g_clients.filter fun c => c.addr ≠ cli.addr)

end Users

section Groups

/-- Groups are never deleted, so a `group_t *` is given by the position in the list. -/
def search_group (g_groups : List group_t) (groupname : List UInt8) :
    Result (Option (Nat × group_t)) :=
  lookup (fun group => strcmp_eq groupname group.group_name) g_groups

def group_create (g_groups : List group_t) (name : List UInt8) : Result (List group_t) := do
  let group_name ← snprintf_s (List.replicate 128 0) name
  ok (g_groups ++ [{ group_name, users := [] }])

/-- The position of the node. -/
def search_item_in_group (group : group_t) (username : List UInt8) : Result (Option Nat) :=
  (·.map Prod.fst) <$> lookup (fun user_name => strcmp_eq user_name username) group.users

/-- The new node points at a copy of the name in a block of its size. -/
def join_group (g_groups : List group_t) (username groupname : List UInt8) :
    Result (List group_t) := do
  match ← search_group g_groups groupname with
  | none => ok g_groups
  | some (i, group) =>
    match ← search_item_in_group group username with
    | some _ => ok g_groups
    | none => do
      let n ← strlen username
      let data ← snprintf_s (List.replicate (n + 1) 0) username
      ok (g_groups.set i { group with users := group.users ++ [data] })

def leave_group (username : List UInt8) (group : group_t) : Result group_t := do
  match ← search_item_in_group group username with
  | none => ok group
  | some i => ok { group with users := group.users.eraseIdx i }

def leave_group_by_name (g_groups : List group_t) (username groupname : List UInt8) :
    Result (List group_t) := do
  match ← search_group g_groups groupname with
  | none => ok g_groups
  | some (i, group) => do
    let group ← leave_group username group
    ok (g_groups.set i group)

def leave_all_group (username : List UInt8) : List group_t → Result (List group_t)
  | [] => ok []
  | group :: g_groups => do
    let group ← leave_group username group
    let g_groups ← leave_all_group username g_groups
    ok (group :: g_groups)

/-- `cb` runs on the names in the order of the list. -/
def foreach_group_member {σ : Type} (g_groups : List group_t) (groupname : List UInt8)
    (cb : List UInt8 → σ → Result σ) (s : σ) : Result σ := do
  match ← search_group g_groups groupname with
  | none => ok s
  | some (_, group) => group.users.foldlM (fun s user_name => cb user_name s) s

end Groups

end easymesh.mbusd
