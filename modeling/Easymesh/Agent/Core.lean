import Easymesh.Agent.Network
import Easymesh.Timer.MhTimer

open Lib Lib.Result easymesh.cmdu easymesh.minheap easymesh.mh_timer easymesh.ieee1905_network

namespace easymesh.core

/-- The timer callbacks of the agent; an interface is given by its address. -/
inductive timer_cb where
  | send_discovery_perodic (interface : Ptr)
  | mesh_obj_create_timer_cb
  deriving DecidableEq, Repr

/-- The agent: the interfaces in memory, the list of those that are registered,
the timers of its loop, the `count` of `send_discovery_perodic`, all that filters
and sockets work on, and `cur` while the loop of `expire_timer` runs. -/
structure agent (φ ε : Type) where
  ifs : Ptr → NetworkInterface φ
  interfaces : List Ptr
  timer : loop_timer timer_cb
  count : Int
  env : ε
  cur : Option Nat

/-- What the agent runs on: filters and sockets, what the callback of its other
timer does on the bus, and what fresh heap memory holds. -/
structure agent_env (φ ε : Type) extends if_env φ ε where
  obj_create : ε → ε
  uninit : Nat → UInt8

variable {φ ε : Type}

section Update

variable (a : agent φ ε)

/-- `interface->topo_timer = te;` -/
def agent.setTopoTimer (interface te : Ptr) : agent φ ε :=
  { a with ifs := Function.update a.ifs interface { a.ifs interface with topo_timer := te } }

/-- The interface is changed, but not its timer. -/
def agent.configure (interface : Ptr) (new : NetworkInterface φ) : agent φ ε :=
  let topo_timer := (a.ifs interface).topo_timer
  { a with ifs := Function.update a.ifs interface { new with topo_timer } }

def agent.resetTimer (te : Ptr) (msec : Nat) : agent φ ε :=
  { a with timer := reset_timer a.timer te msec }

end Update

def send_discovery_perodic (net : agent_env φ ε) (interface te : Ptr) (a : agent φ ε) :
    Result (agent φ ε) := do
  let (ret, env) ← send_topology_discovery (a.ifs interface) net.toif_env net.uninit a.env
  let a := { a with env }
  if ret < 0 then ok a
  else
    let msec := if a.count = 0 then 45000 else 0
    ok ({ a with count := wrap32 (a.count - 1) }.resetTimer te msec)

/-- `te` is the address that `malloc` returns for the timer. -/
def register_interface (a : agent φ ε) (interface te : Ptr) : agent φ ε :=
  { a with
    interfaces := a.interfaces ++ [interface]
    timer := add_timer a.timer te 5000 (.send_discovery_perodic interface) }.setTopoTimer
      interface te

def unregister_interface (a : agent φ ε) (interface : Ptr) : agent φ ε :=
  { a with
    interfaces := a.interfaces.erase interface
    timer := { a.timer with
      heap := (min_heap_delete a.timer.heap (a.ifs interface).topo_timer).2 } }

def agent_timers (net : agent_env φ ε) : timer_host timer_cb (agent φ ε) where
  timer a := a.timer
  setTimer a timer := { a with timer }
  callback
    | .send_discovery_perodic interface, te, a => send_discovery_perodic net interface te a
    | .mesh_obj_create_timer_cb, _, a => ok { a with env := net.obj_create a.env }

/-- What happens in the agent. `configure` is what other code does to an interface,
to anything but its timer, and `other` what becomes of the rest of the world. A
call of `expire_timer` is `expire` and then turns of its loop. -/
inductive agent_event (φ ε : Type) where
  | register (interface te : Ptr)
  | unregister (interface : Ptr)
  | add_timer (te : Ptr) (msec : Nat)
  | configure (interface : Ptr) (new : NetworkInterface φ)
  | other (env : ε)
  | expire
  | turn

/-- An interface is registered once, `malloc` returns no timer that is in the heap,
and the turns of a call of `expire_timer` follow it. -/
def agent_event.Allowed (a : agent φ ε) : agent_event φ ε → Prop
  | register interface te => interface ∉ a.interfaces ∧ te ∉ held a.timer.heap
  | unregister interface => interface ∈ a.interfaces
  | add_timer te _ => te ∉ held a.timer.heap
  | configure _ _ => True
  | other _ => True
  | expire => a.cur = none
  | turn => a.cur ≠ none

instance (a : agent φ ε) (e : agent_event φ ε) : Decidable (e.Allowed a) := by
  cases e <;> unfold agent_event.Allowed <;> infer_instance

/-- A turn of the loop of `expire_timer`, which the last one leaves. -/
def expire_step (net : agent_env φ ε) (a : agent φ ε) (cur : Nat) : Result (agent φ ε) :=
  (expire_turn (agent_timers net) cur a).getD (ok { a with cur := none })

def agent.exec (net : agent_env φ ε) (a : agent φ ε) : agent_event φ ε → Result (agent φ ε)
  | .register interface te => ok (register_interface a interface te)
  | .unregister interface => ok (unregister_interface a interface)
  | .add_timer te msec =>
    ok { a with timer := mh_timer.add_timer a.timer te msec .mesh_obj_create_timer_cb }
  | .configure interface new => ok (a.configure interface new)
  | .other env => ok { a with env }
  | .expire =>
    let (cur, timer) := current_time a.timer
    ok { a with timer, cur := some cur }
  | .turn =>
    match a.cur with
    | none => ok a
    | some cur => expire_step net a cur

abbrev Step (net : agent_env φ ε) : agent φ ε → agent_event φ ε → agent φ ε → Prop :=
  GuardedReturning (fun a e => e.Allowed a) (agent.exec net)

/-- The agent before it registers its first interface. -/
def agent_main (ifs : Ptr → NetworkInterface φ) (clock : Nat → Nat) (env : ε) : agent φ ε :=
  { ifs
    interfaces := []
    timer := { heap := empty_heap fun _ => .mesh_obj_create_timer_cb, clock, reads := 0 }
    count := 5
    env
    cur := none }

/-- The timer of each registered interface is in the heap exactly once. -/
def Armed (a : agent φ ε) : Prop :=
  ∀ interface ∈ a.interfaces, (held a.timer.heap).count (a.ifs interface).topo_timer = 1

instance (a : agent φ ε) : Decidable (Armed a) :=
  inferInstanceAs (Decidable (∀ interface ∈ a.interfaces, _))

/-- In a turn that fires the timer of an interface, the discovery is sent. -/
def DiscoverySent (net : agent_env φ ε) (a : agent φ ε) (e : agent_event φ ε) (_ : agent φ ε) :
    Prop :=
  match e with
  | .turn => ∀ cur ∈ a.cur, ∀ next ∈ expire_next a.timer cur,
      ∀ interface ∈ a.interfaces,
        (next.2.heap.entry next.1).handler = .send_discovery_perodic interface →
          Sends net.toif_env (a.ifs interface) (discovery_frame (a.ifs interface)) a.env
  | _ => True

instance (net : agent_env φ ε) (a a' : agent φ ε) : ∀ e, Decidable (DiscoverySent net a e a')
  | .turn => inferInstanceAs (Decidable (∀ cur ∈ a.cur, ∀ next ∈ expire_next a.timer cur, _))
  | .register _ _ | .unregister _ | .add_timer _ _ | .configure _ _ | .other _ | .expire =>
    inferInstanceAs (Decidable True)

end easymesh.core
