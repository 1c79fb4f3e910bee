import Easymesh.Agent.Network
import Easymesh.Mbus.Lookup

open Lib Lib.Result easymesh.cmdu easymesh.ieee1905_network

namespace easymesh.mesh_agent

def g_mesh_user_name : List UInt8 := cstr ['u', 'm', 'e', 's', 'h']

def g_mesh_group_name : List UInt8 := cstr ['g', 'm', 'e', 's', 'h']

/-- The callbacks that `main` registers as filters. -/
inductive cmdu_filter_cb where
  | cmdu_filter_func
  deriving DecidableEq, Repr

/-- An interface of the agent: `if_create` has copied its name with `snprintf`, and
`main` registers one filter. -/
structure mesh_interface extends NetworkInterface cmdu_filter_cb where
  named : (cstring ifname).isSome
  filtered : filters = [.cmdu_filter_func]

inductive filter_op where
  | IF_SEND
  | IF_RECV
  deriving DecidableEq, Repr

/-- What the agent has done so far: the data of its `mbus_sendmsg_in_group`, always
from `g_mesh_user_name` to `g_mesh_group_name`, and what it gave to the sockets. -/
structure outbox where
  published : List (List UInt8)
  transmitted : List (Int × List UInt8)
  deriving DecidableEq, Repr

/-- The packet that the filter publishes. The name of an interface is terminated,
so that `snprintf_s` returns. -/
def filter_packet (interface : NetworkInterface cmdu_filter_cb) (pkt_from pkt_to : Int)
    (data : List UInt8) : mesh_packet_s :=
  let pkt := packet_create data
  { pkt with
    pkt_from
    pkt_to
    ifname := (snprintf_s pkt.ifname interface.ifname).getD pkt.ifname
    ifaddr := interface.addr.toList
    aladdr := interface.al_addr.toList }

/-- `malloc` does not fail for a frame that is there. -/
def cmdu_filter_func (interface : NetworkInterface cmdu_filter_cb) (op : filter_op)
    (data : List UInt8) (env : outbox) : Int × outbox :=
  let pkt :=
    match op with
    | .IF_SEND => filter_packet interface PKT_LOCAL PKT_NETWORK data
    | .IF_RECV => filter_packet interface PKT_NETWORK PKT_LOCAL data
  (IF_ACCEPT, { env with published := env.published ++ [pkt.bytes] })

/-- The filter of the agent, and sockets whose answer to what they are given is `sent`. -/
def agent_net (sent : Int → List UInt8 → Int) : if_env cmdu_filter_cb outbox where
  cb
    | .cmdu_filter_func, interface, buf, env => cmdu_filter_func interface .IF_SEND buf env
  send fd buf env := (sent fd buf, { env with transmitted := env.transmitted ++ [(fd, buf)] })

section Handle

variable (sent : Int → List UInt8 → Int) (interfaces : List mesh_interface)

def get_if_by_name (ifname : List UInt8) : Result (Option mesh_interface) :=
  (·.map Prod.snd) <$>
    mbusd.lookup (fun interface : mesh_interface => strcmp_eq ifname interface.ifname) interfaces

/-- A negative `packet_len` becomes a `size_t` that is larger than any packet. -/
def forward_cmdu_to_interface (pkt : List UInt8) (env : outbox) : Result outbox := do
  match ← get_if_by_name interfaces (pkt_ifname pkt) with
  | none => ok env
  | some interface =>
    let len ← packet_len pkt
    let buf ← readBytes (packet pkt) 0 (toSize len)
    ok (if_send (agent_net sent) interface.toNetworkInterface buf env).2

def forward_cmdu (pkt : List UInt8) (env : outbox) : Result outbox := do
  if (← packet_to pkt) = PKT_NETWORK then forward_cmdu_to_interface sent interfaces pkt env
  else ok env

def mesh_handle_packet (pkt : List UInt8) (env : outbox) : Result outbox :=
  forward_cmdu sent interfaces pkt env

/-- `strcmp` finds the group name in the message. -/
def mesh_handle_group_msg (toName data : List UInt8) (env : outbox) : Result outbox := do
  if ← strcmp_eq toName g_mesh_group_name then mesh_handle_packet sent interfaces data env
  else ok env

end Handle

section Forward

variable {sent : Int → List UInt8 → Int} {interfaces : List mesh_interface}
  {ifname : List UInt8}

/-- The search stays inside the name that it is given when there is a NUL in it, or
when no name of an interface goes on after all its bytes. -/
theorem get_if_by_name_returns_iff :
    (get_if_by_name interfaces ifname).Returns ↔
      (0 : UInt8) ∈ ifname ∨ ∀ interface ∈ interfaces, ¬ ifname <+: interface.ifname := by
  have hmap : (get_if_by_name interfaces ifname).Returns ↔
      (mbusd.lookup (fun interface : mesh_interface => strcmp_eq ifname interface.ifname)
        interfaces).Returns := by
    constructor
    · rintro ⟨found, h⟩
      obtain ⟨item, hitem, -⟩ := map_eq_ok_iff.mp h
      exact ⟨item, hitem⟩
    · rintro ⟨item, hitem⟩
      exact ⟨_, map_eq_ok_iff.mpr ⟨item, hitem, rfl⟩⟩
  rw [hmap]
  by_cases hnul : (0 : UInt8) ∈ ifname
  · refine iff_of_true (mbusd.lookup_returns fun interface _ => ?_) (.inl hnul)
    obtain ⟨body, hbody⟩ := Option.isSome_iff_exists.mp (cstring_isSome_iff.mpr hnul)
    obtain ⟨own, hown⟩ := Option.isSome_iff_exists.mp interface.named
    exact ⟨_, strcmp_eq_of_cstring hbody hown⟩
  · rw [or_iff_right hnul]
    constructor
    · rintro ⟨found, hfound⟩ interface hin
      rw [← strcmp_eq_unterminated hnul interface.named]
      cases found with
      | none => exact ⟨false, mbusd.lookup_eq_none_iff.mp hfound interface hin⟩
      | some item =>
        obtain ⟨-, -, -, -, hsame, -⟩ := mbusd.lookup_eq_some_iff.mp hfound
        obtain ⟨body, hbody, -⟩ := strcmp_eq_ok_true_iff.mp hsame
        exact absurd (cstring_isSome_iff.mp (Option.isSome_of_eq_some hbody)) hnul
    · intro hnone
      refine mbusd.lookup_returns fun interface hin => ?_
      exact (strcmp_eq_unterminated hnul interface.named).mpr (hnone interface hin)

/-- An interface is found under a name that ends. -/
theorem get_if_by_name_terminated {interface : mesh_interface}
    (h : get_if_by_name interfaces ifname = ok (some interface)) : (0 : UInt8) ∈ ifname := by
  obtain ⟨item, hitem, hsome⟩ := map_eq_ok_iff.mp h
  obtain ⟨⟨i, found⟩, rfl, -⟩ := Option.map_eq_some_iff.mp hsome
  obtain ⟨-, -, -, -, hsame, -⟩ := mbusd.lookup_eq_some_iff.mp hitem
  obtain ⟨body, hbody, -⟩ := strcmp_eq_ok_true_iff.mp hsame
  exact cstring_isSome_iff.mp (Option.isSome_of_eq_some hbody)

theorem get_if_by_name_mem {interface : mesh_interface}
    (h : get_if_by_name interfaces ifname = ok (some interface)) : interface ∈ interfaces := by
  obtain ⟨item, hitem, hsome⟩ := map_eq_ok_iff.mp h
  obtain ⟨⟨i, found⟩, rfl, rfl⟩ := Option.map_eq_some_iff.mp hsome
  obtain ⟨before, rest, rfl, -⟩ := mbusd.lookup_eq_some_iff.mp hitem
  exact List.mem_append_right _ List.mem_cons_self

/-- Sending on an interface publishes one copy of the frame, and gives the frame to
the socket if there is one. -/
theorem if_send_outbox (interface : mesh_interface) (buf : List UInt8) (env : outbox) :
    (if_send (agent_net sent) interface.toNetworkInterface buf env).2 =
      { published := env.published ++
          [(filter_packet interface.toNetworkInterface PKT_LOCAL PKT_NETWORK buf).bytes]
        transmitted := env.transmitted ++
          if interface.fd = 0 then [] else [(interface.fd, buf)] } := by
  have hfilter : if_filter_before_send (agent_net sent) interface.toNetworkInterface buf env =
      cmdu_filter_func interface.toNetworkInterface .IF_SEND buf env := by
    rw [if_filter_before_send, interface.filtered]
    rfl
  rw [if_send, hfilter]
  change (linux_if_send (agent_net sent) interface.toNetworkInterface buf _).2 = _
  rw [linux_if_send]
  split
  · rw [List.append_nil]
  · rfl

end Forward

end easymesh.mesh_agent
