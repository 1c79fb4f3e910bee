import Easymesh.Mbus.State
import Easymesh.Tlv.Parser
import Easymesh.Lib.Transition

open Lib Lib.Result easymesh.tlv_parser

namespace easymesh.mbusd

def MBUS_TYPE_LEN : Nat := 2

def MAX_EPOLL_EVENTS : Nat := 1024

def TYPE_GROUPMSG_SENDER_NAME : UInt16 := 0x0001
def TYPE_GROUPMSG_GROUP_NAME : UInt16 := 0x0002
def TYPE_GROUPMSG_GROUP_MSG : UInt16 := 0x0003
def TYPE_PRIVATEMSG_SENDER_NAME : UInt16 := 0x0004
def TYPE_PRIVATEMSG_RECEIVER_NAME : UInt16 := 0x0005
def TYPE_PRIVATEMSG_PRIVATE_MSG : UInt16 := 0x0006
def TYPE_USERLOGIN_USERNAME : UInt16 := 0x0007
def TYPE_GROUPCREATE_GROUPNAME : UInt16 := 0x0008
def TYPE_GROUPJOIN_GROUPNAME : UInt16 := 0x0009

def CID_LOGIN_REQ_USERLOGIN : UInt16 := 259
def CID_GROUP_CREATE_GROUP : UInt16 := 1026
def CID_GROUP_JOIN_GROUP : UInt16 := 1027
def CID_GROUP_LEAVE_GROUP : UInt16 := 1028
def CID_GROUP_MSG : UInt16 := 1029
def CID_OTHER_HEARTBEAT : UInt16 := 1793
def CID_PRIVATE_MSG : UInt16 := 2000

/-! A message is given by the memory from its header on; `sizeof(msg_t)` is
written out as 16. -/

def msg_length (msg : List UInt8) : Result Nat := readU32 msg 0

def msg_get_command_id (msg : List UInt8) : Result UInt16 := readU16 msg 10

def msg_get_data (msg : List UInt8) : List UInt8 := msg.drop 16

/-- `sizeof(msg_t) + msg->length` as an `int`. -/
def msg_size (msg : List UInt8) : Result Int := (fun n : Nat => wrap32 (16 + n)) <$> msg_length msg

/-- `Kami_Tlv_ParseObject(msg->body, msg->length, MBUS_TYPE_LEN)` -/
def msg_root (msg : List UInt8) : Result (Option KamiTlv_S) := do
  let length ← msg_length msg
  Kami_Tlv_ParseObject (msg_get_data msg) (wrap32 length) MBUS_TYPE_LEN

/-- The value of the item in the body. A body that does not parse and one without
the item make the handlers return alike. -/
def msg_item (msg : List UInt8) (type : UInt16) : Result (Option (List UInt8)) :=
  (fun pstRoot => do
    let pstItem ← Kami_Tlv_GetObjectItem (← pstRoot) type 0
    some pstItem.value) <$> msg_root msg

section Update

variable (b : daemon) (fd : Nat)

/-- `ios[fd].arg = arg;` -/
def daemon.setArg (arg : Ptr) : daemon :=
  { b with ios := Function.update b.ios fd { b.ios fd with arg } }

/-- `cli->io = &ios[fd];` for the client at `addr`. -/
def daemon.setIo (addr : Ptr) : daemon :=
  { b with
    g_clients := b.g_clients.map fun cli =>
      if cli.addr = addr then { cli with io := some fd } else cli }

def daemon.io_write (data : List UInt8) (len : Int) : daemon :=
  { b with writes := b.writes ++ [{ io := fd, data, len }] }

/-- `eloop_set_event(&ios[fd], fd, NULL)`: the slots are an array. -/
def daemon.eloop_set_event : Result daemon :=
  if fd < MAX_EPOLL_EVENTS then
    ok { b with ios := Function.update b.ios fd { opened := true, arg := 0 } }
  else fail

def daemon.eloop_reset_io : daemon :=
  { b with ios := Function.update b.ios fd { opened := false, arg := 0 } }

/-- The client that a pointer refers to, undefined when it was freed. -/
def daemon.client (p : Ptr) : Result client_t :=
  match b.g_clients.find? fun cli => cli.addr = p with
  | some cli => ok cli
  | none => fail

end Update

section Handlers

variable (b : daemon) (msg : List UInt8) (fd : Nat)

def handle_heartbeat : Result daemon := do
  let len ← msg_size msg
  ok (b.io_write fd msg len)

/-- `addr` is what `malloc` returns for the new client. -/
def handle_login_request (addr : Ptr) : Result daemon := do
  match ← msg_item msg TYPE_USERLOGIN_USERNAME with
  | none => ok b
  | some name =>
    match ← user_get_by_name b.g_clients name with
    | some _ => ok b
    | none => do
      let g_clients ← user_create b.g_clients addr name
      ok (({ b with g_clients }.setArg fd addr).setIo fd addr)

def handle_create_group : Result daemon := do
  match ← msg_item msg TYPE_GROUPCREATE_GROUPNAME with
  | none => ok b
  | some name =>
    match ← search_group b.g_groups name with
    | some _ => ok b
    | none => do
      let g_groups ← group_create b.g_groups name
      ok { b with g_groups }

def handle_join_group : Result daemon :=
  if (b.ios fd).arg = 0 then ok b
  else do
    match ← msg_item msg TYPE_GROUPJOIN_GROUPNAME with
    | none => ok b
    | some name =>
      match ← search_group b.g_groups name with
      | none => ok b
      | some _ => do
        let cli ← b.client (b.ios fd).arg
        let g_groups ← join_group b.g_groups cli.name name
        ok { b with g_groups }

def handle_leave_group : Result daemon :=
  if (b.ios fd).arg = 0 then ok b
  else do
    let cli ← b.client (b.ios fd).arg
    let g_groups ← leave_group_by_name b.g_groups cli.name (msg_get_data msg)
    ok { b with g_groups }

def send_data_to_user (cli : client_t) (data : List UInt8) (len : Int) : daemon :=
  match cli.io with
  | none => b
  | some io => b.io_write io data len

def group_cb (fromName data : List UInt8) (len : Int) (username : List UInt8) (b : daemon) :
    Result daemon := do
  if ← strcmp_eq username fromName then ok b
  else
    match ← user_get_by_name b.g_clients username with
    | none => ok b
    | some cli => ok (send_data_to_user b cli data len)

def forward_msg_in_group (group : group_t) (fromName data : List UInt8) (len : Int) :
    Result daemon :=
  foreach_group_member b.g_groups group.group_name (group_cb fromName data len) b

def handle_group_msg : Result daemon :=
  if (b.ios fd).arg = 0 then ok b
  else do
    let sender ← msg_item msg TYPE_GROUPMSG_SENDER_NAME
    let group_name ← msg_item msg TYPE_GROUPMSG_GROUP_NAME
    let group_msg ← msg_item msg TYPE_GROUPMSG_GROUP_MSG
    match sender, group_name, group_msg with
    | some _, some name, some _ => do
      if (← readU8 name 0) = 0 then ok b
      else
        match ← search_group b.g_groups name with
        | none => ok b
        | some (_, group) => do
          let cli ← b.client (b.ios fd).arg
          let len ← msg_size msg
          forward_msg_in_group b group cli.name msg len
    | _, _, _ => ok b

/-- Of the three items, the one with the receiver is not tested. -/
def handle_private_msg : Result daemon :=
  if (b.ios fd).arg = 0 then ok b
  else do
    let sender ← msg_item msg TYPE_PRIVATEMSG_SENDER_NAME
    let receiver ← msg_item msg TYPE_PRIVATEMSG_RECEIVER_NAME
    let private_msg ← msg_item msg TYPE_PRIVATEMSG_PRIVATE_MSG
    match sender, private_msg with
    | some _, some _ =>
      match receiver with
      | none => fail
      | some name =>
        match ← user_get_by_name b.g_clients name with
        | none => ok b
        | some peer_cli => do
          let len ← msg_size msg
          ok (send_data_to_user b peer_cli msg len)
    | _, _ => ok b

def handle_msg (addr : Ptr) : Result daemon := do
  let command_id ← msg_get_command_id msg
  if command_id = CID_OTHER_HEARTBEAT then handle_heartbeat b msg fd
  else if command_id = CID_LOGIN_REQ_USERLOGIN then handle_login_request b msg fd addr
  else if command_id = CID_GROUP_CREATE_GROUP then handle_create_group b msg
  else if command_id = CID_GROUP_JOIN_GROUP then handle_join_group b msg fd
  else if command_id = CID_GROUP_LEAVE_GROUP then handle_leave_group b msg fd
  else if command_id = CID_GROUP_MSG then handle_group_msg b msg fd
  else if command_id = CID_PRIVATE_MSG then handle_private_msg b msg fd
  else ok b

def handle_close : Result daemon :=
  if (b.ios fd).arg = 0 then ok b
  else do
    let cli ← b.client (b.ios fd).arg
    let g_groups ← leave_all_group cli.name b.g_groups
    let g_clients ← user_delete b.g_clients cli.name
    ok { b with g_groups, g_clients }

end Handlers

/-- What happens to the daemon: a new connection, a message on one, with the
address of the client it may create, a peer's close, and a read that finds the
buffer full without a complete message. -/
inductive bus_event where
  | accept (fd : Nat)
  | message (fd : Nat) (msg : List UInt8) (addr : Ptr)
  | close (fd : Nat)
  | full (fd : Nat)
  deriving DecidableEq, Repr

/-- The kernel gives free descriptors and speaks of open ones only, and `malloc`
returns no address that is in use. -/
def bus_event.Allowed (b : daemon) : bus_event → Prop
  | accept fd => (b.ios fd).opened = false
  | message fd _ addr => (b.ios fd).opened = true ∧ addr ≠ 0 ∧ ∀ cli ∈ b.g_clients, cli.addr ≠ addr
  | close fd => (b.ios fd).opened = true
  | full fd => (b.ios fd).opened = true

instance (b : daemon) (e : bus_event) : Decidable (e.Allowed b) := by
  cases e <;> unfold bus_event.Allowed <;> infer_instance

def daemon.exec (b : daemon) : bus_event → Result daemon
  | .accept fd => b.eloop_set_event fd
  | .message fd msg addr => handle_msg b msg fd addr
  | .close fd => do
    let b ← handle_close b fd
    ok (b.eloop_reset_io fd)
  | .full fd => ok (b.eloop_reset_io fd)

abbrev Step : daemon → bus_event → daemon → Prop :=
  GuardedReturning (fun b e => e.Allowed b) daemon.exec

/-- The daemon before its first connection. -/
def mbusd_main : daemon :=
  { g_clients := [], g_groups := [], ios := fun _ => { opened := false, arg := 0 }, writes := [] }

end easymesh.mbusd
