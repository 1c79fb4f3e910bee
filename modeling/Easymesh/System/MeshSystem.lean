import Easymesh.Agent.Main
import Easymesh.CfgMgr.Emits
import Easymesh.Mbus.Requests

open Lib Lib.Result easymesh.cmdu easymesh.ieee1905_network easymesh.bus_msg easymesh.mbusd
open easymesh.cfg_mgr easymesh.mesh_agent

namespace easymesh.system

/-- The two clients of the daemon. -/
inductive client where
  | cfg_mgr
  | mesh_agent
  deriving DecidableEq, Repr

def client.other : client → client
  | cfg_mgr => mesh_agent
  | mesh_agent => cfg_mgr

/-- The name that the client logs in with, without its NUL. -/
def client.user : client → List UInt8
  | cfg_mgr => g_cfgmgr_user_name.dropLast
  | mesh_agent => mesh_agent.g_mesh_user_name.dropLast

/-- The name of the group, without its NUL. -/
def gmesh : List UInt8 := mesh_agent.g_mesh_group_name.dropLast

/-- `struct controller_info_s`, as `find_controller` fills it. -/
structure controller_info_s where
  controller_al_mac : MacAddr
  my_al_mac : MacAddr
  local_ifaddr : MacAddr
  local_ifname : Vector UInt8 16
  deriving DecidableEq, Repr

def controller_info_s.bytes (info : controller_info_s) : List UInt8 :=
  info.controller_al_mac.toList ++ info.my_al_mac.toList ++ info.local_ifaddr.toList ++
    info.local_ifname.toList

/-- `controller` is what `find_controller` finds, if anything. -/
def mesh_handle_private_msg (controller : Option controller_info_s)
    (fromName toName data : List UInt8) : Result (List mbus_call) := do
  if ← strcmp_eq toName mesh_agent.g_mesh_user_name then
    let mesh_msg_id ← readU16 data 0
    if mesh_msg_id = MESH_MSGCMD_CONTROLLER_INFO_REQ then
      match controller with
      | none => ok []
      | some info =>
        ok [.sendmsg_private toName fromName
          (bytesU16 MESH_MSGCMD_CONTROLLER_INFO_RSP ++ info.bytes)]
    else ok []
  else ok []

/-- The two connections that a message goes over. -/
inductive hop where
  | to_daemon
  | to_client
  deriving DecidableEq, Repr

/-- What the system is set up with: the daemon's descriptors of its two connections, the
interfaces of the agent, what their sockets answer, what fresh heap memory holds, and for
which messages `io_write` returns -1. Such a message leaves nothing on the connection: a
send that would block while nothing is queued, after which there is a stray byte, is not
among them. -/
structure setup where
  fd : client → Nat
  interfaces : List mesh_interface
  sent : Int → List UInt8 → Int
  uninit : Nat → UInt8
  refused : hop → Nat → Bool

/-- A message that a client has handed to the bus, with the number of the message that
it was handling, if it was handling one. -/
structure posted_msg where
  sender : client
  call : mbus_call
  cause : Option Nat
  deriving DecidableEq, Repr

/-- A frame that was given to the socket of an interface, with its cause. -/
structure sent_frame where
  cause : Option Nat
  fd : Int
  frame : List UInt8
  deriving DecidableEq, Repr

/-- The two processes and the daemon. On the connections are messages with their
numbers, the positions in `posted`; those of `to_daemon` are from the client. Refused
ones are posted as well. -/
structure mesh_system where
  daemon : daemon
  cfgmgr : process
  outbox : outbox
  to_daemon : client → List (Nat × List UInt8)
  to_client : client → List (Nat × List UInt8)
  posted : List posted_msg
  sent : List sent_frame

/-- A timer of the `cfg_mgr` is due, the agent receives a CMDU or sends one of its own,
and the daemon or a client reads the next message on a connection. Behind a message the
reader's buffer holds `rest`; `addr` is what `malloc` would return. -/
inductive mesh_event where
  | cfgmgr_timer (cur : Nat)
  | agent_receives (interface : mesh_interface) (data : List UInt8)
  | agent_sends (interface : mesh_interface) (buf : List UInt8)
  | daemon_reads (sender : client) (addr : Ptr) (rest : List UInt8)
  | client_reads (reader : client) (controller : Option controller_info_s) (rest : List UInt8)

/-- `client_read_cb` reads at most 2048 bytes, and what the agent sends itself is
built in buffers of 512. -/
def mesh_event.Allowed (_ : mesh_system) : mesh_event → Prop
  | agent_receives _ data => data.length ≤ 2048
  | agent_sends _ buf => buf.length ≤ 2048
  | cfgmgr_timer _ | daemon_reads .. | client_reads .. => True

section Exec

variable (net : setup)

/-- The messages that `io_write` puts on a connection. -/
def setup.taken (h : hop) (msgs : List (Nat × List UInt8)) : List (Nat × List UInt8) :=
  msgs.filter fun x => !net.refused h x.1

/-- What a call hands to `io_write`. -/
def handed : mbus_call → Result (Int × Option (List UInt8 × Int))
  | .register_object username => mbus_register_object net.uninit username
  | .create_group groupname => mbus_create_group net.uninit groupname
  | .join_group groupname => mbus_join_group net.uninit groupname
  | .sendmsg_in_group my_name groupname data =>
    mbus_sendmsg_in_group net.uninit my_name groupname (some data) data.length
  | .sendmsg_private my_name peer_name data =>
    mbus_sendmsg_private net.uninit my_name peer_name (some data) data.length

/-- The client does not look at what `io_write` returns: a refused message is lost. -/
def mesh_system.post (sender : client) (cause : Option Nat) (s : mesh_system) (call : mbus_call) :
    Result mesh_system := do
  match (← handed net call).2 with
  | none => ok s
  | some (msg, size) => do
    let frame ← readBytes msg 0 size.toNat
    ok { s with
      to_daemon := Function.update s.to_daemon sender
        (s.to_daemon sender ++ net.taken .to_daemon [(s.posted.length, frame)])
      posted := s.posted ++ [{ sender, call, cause }] }

/-- The `cfg_mgr` has gone on to `w`. -/
def mesh_system.cfgmgr_goes (s : mesh_system) (w : process) (cause : Option Nat) :
    Result mesh_system :=
  (w.calls.drop s.cfgmgr.calls.length).foldlM (mesh_system.post net .cfg_mgr cause)
    { s with cfgmgr := w }

/-- The agent has filled its `outbox` and has sent `replies`. -/
def mesh_system.agent_goes (s : mesh_system) (env : mesh_agent.outbox) (replies : List mbus_call)
    (cause : Option Nat) : Result mesh_system :=
  let published := (env.published.drop s.outbox.published.length).map fun data =>
    mbus_call.sendmsg_in_group mesh_agent.g_mesh_user_name mesh_agent.g_mesh_group_name data
  let transmitted := (env.transmitted.drop s.outbox.transmitted.length).map fun (fd, frame) =>
    { cause, fd, frame : sent_frame }
  (published ++ replies).foldlM (mesh_system.post net .mesh_agent cause)
    { s with outbox := env, sent := s.sent ++ transmitted }

/-- The daemon writes message `k` to a connection. It does not look at what `io_write`
returns either. -/
def mesh_system.deliver (k : Nat) (s : mesh_system) (call : io_write_call) :
    Result mesh_system := do
  let frame ← readBytes call.data 0 call.len.toNat
  match [client.cfg_mgr, .mesh_agent].find? fun c => net.fd c = call.io with
  | none => ok s
  | some c =>
    ok { s with
      to_client := Function.update s.to_client c
        (s.to_client c ++ net.taken .to_client [(k, frame)]) }

def mesh_handle_msg (controller : Option controller_info_s) (call : msg_cb_call) (env : outbox) :
    Result (outbox × List mbus_call) :=
  match call.cmd with
  | .MBUS_CMD_GROUP_MSG => do
    let env ← mesh_handle_group_msg net.sent net.interfaces (call.toName.getD []) call.data env
    ok (env, [])
  | .MBUS_CMD_PRIVATE_MSG => do
    let replies ← mesh_handle_private_msg controller (call.fromName.getD [])
      (call.toName.getD []) call.data
    ok (env, replies)
  | .MBUS_CMD_NONE | .MBUS_CMD_HEARTBEAT => ok (env, [])

/-- The `msg_cb` of a client is called for message `k`. Only a heartbeat has no names,
and nobody looks for them. -/
def mesh_system.call_back (s : mesh_system) (reader : client)
    (controller : Option controller_info_s) (k : Nat) (call : msg_cb_call) : Result mesh_system :=
  match reader with
  | .cfg_mgr => do
    let w ← s.cfgmgr.exec (.message call.cmd (call.fromName.getD [])
      (call.toName.getD []) call.data)
    s.cfgmgr_goes net w (some k)
  | .mesh_agent => do
    let (env, replies) ← mesh_handle_msg net controller call s.outbox
    s.agent_goes net env replies (some k)

/-- With nothing on the connection there is nothing to read. -/
def mesh_system.exec (s : mesh_system) : mesh_event → Result mesh_system
  | .cfgmgr_timer cur => do
    let w ← s.cfgmgr.exec (.expire cur)
    s.cfgmgr_goes net w none
  | .agent_receives interface data =>
    s.agent_goes net (cmdu_filter_func interface.toNetworkInterface .IF_RECV data s.outbox).2 [] none
  | .agent_sends interface buf =>
    s.agent_goes net (if_send (agent_net net.sent) interface.toNetworkInterface buf s.outbox).2 []
      none
  | .daemon_reads sender addr rest =>
    match s.to_daemon sender with
    | [] => ok s
    | (k, frame) :: more => do
      let b ← handle_msg s.daemon (frame ++ rest) (net.fd sender) addr
      (b.writes.drop s.daemon.writes.length).foldlM (mesh_system.deliver net k)
        { s with daemon := b, to_daemon := Function.update s.to_daemon sender more }
  | .client_reads reader controller rest =>
    match s.to_client reader with
    | [] => ok s
    | (k, frame) :: more => do
      let s := { s with to_client := Function.update s.to_client reader more }
      match ← mbus_handle_msg (frame ++ rest) with
      | none => ok s
      | some call => s.call_back net reader controller k call

abbrev MeshStep : mesh_system → mesh_event → mesh_system → Prop :=
  GuardedReturning (fun s e => e.Allowed s) (mesh_system.exec net)

end Exec

/-- The daemon has the two clients, each on its connection, and both are in the group. -/
structure LoggedIn (fd : client → Nat) (b : daemon) : Prop where
  apart : fd .cfg_mgr ≠ fd .mesh_agent
  clients : ∀ cli ∈ b.g_clients, ∃ c : client, cstring cli.name = some c.user ∧
    cli.io = some (fd c)
  logged_in : ∀ c, (b.ios (fd c)).arg ≠ 0 ∧ ∃ cli, b.client (b.ios (fd c)).arg = ok cli ∧
    cstring cli.name = some c.user
  group : ∃ i group, search_group b.g_groups (gmesh ++ [0]) = ok (some (i, group)) ∧
    (group.users.map cstring).Perm [some client.cfg_mgr.user, some client.mesh_agent.user]

end easymesh.system
