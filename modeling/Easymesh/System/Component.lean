import Easymesh.System.Reliable
import Easymesh.CfgMgr.Demand
import Easymesh.Lib.Component

open Lib Lib.Result easymesh.cmdu easymesh.ieee1905_network easymesh.bus_msg easymesh.mbusd
open easymesh.cfg_mgr easymesh.mesh_agent

namespace easymesh.system

/-- The event that a call of its `msg_cb` is to the `cfg_mgr`. -/
def called_event (call : msg_cb_call) : event :=
  .message call.cmd (call.fromName.getD []) (call.toName.getD []) call.data

/-- The event of the `cfg_mgr` in an event of the system. -/
def mesh_event.of_cfgmgr (s : mesh_system) : mesh_event → Option event
  | cfgmgr_timer cur => some (.expire cur)
  | client_reads .cfg_mgr _ rest =>
    match s.to_client .cfg_mgr with
    | [] => none
    | (_, frame) :: _ =>
      match mbus_handle_msg (frame ++ rest) with
      | ok (some call) => some (called_event call)
      | _ => none
  | client_reads .mesh_agent _ _ | agent_receives .. | agent_sends .. | daemon_reads .. => none

/-- The part of the `cfg_mgr` in a run of the system. -/
abbrev cfgmgr_part : mesh_system → List (mesh_event × mesh_system) → List (event × process) :=
  component mesh_event.of_cfgmgr mesh_system.cfgmgr

section Views

variable {β : Type} {f : client → mbus_call → List β} {net : setup} {s s' : mesh_system}
  {cause : Option Nat} {call : mbus_call} {calls : List mbus_call}

/-- Nothing has changed for the `cfg_mgr`. -/
structure LeavesCfgMgr (s s' : mesh_system) : Prop where
  cfgmgr : s'.cfgmgr = s.cfgmgr
  all : ∀ {β : Type} (f : client → mbus_call → List β), s'.all f .cfg_mgr = s.all f .cfg_mgr

theorem LeavesCfgMgr.refl (s : mesh_system) : LeavesCfgMgr s s := ⟨rfl, fun _ => rfl⟩

theorem LeavesCfgMgr.trans {s₁ s₂ s₃ : mesh_system} (h₁ : LeavesCfgMgr s₁ s₂)
    (h₂ : LeavesCfgMgr s₂ s₃) : LeavesCfgMgr s₁ s₃ :=
  ⟨h₂.cfgmgr.trans h₁.cfgmgr, fun f => (h₂.all f).trans (h₁.all f)⟩

theorem agent_posts (h : mesh_system.post net .mesh_agent cause s call = ok s') :
    LeavesCfgMgr s s' := by
  obtain ⟨⟨io, sent⟩, -, h⟩ := bind_eq_ok_iff.mp h
  cases sent with
  | none =>
    cases h
    exact .refl _
  | some msg =>
    obtain ⟨frame, -, hok⟩ := bind_eq_ok_iff.mp h
    cases hok
    refine ⟨rfl, fun f => ?_⟩
    rw [mesh_system.all, List.flatMap_append]
    exact List.append_nil _

theorem agent_posts_all (h : calls.foldlM (mesh_system.post net .mesh_agent cause) s = ok s') :
    LeavesCfgMgr s s' := by
  induction calls generalizing s with
  | nil =>
    cases h
    exact .refl _
  | cons call calls ih =>
    rw [List.foldlM_cons] at h
    obtain ⟨s₁, hpost, h⟩ := bind_eq_ok_iff.mp h
    exact (agent_posts hpost).trans (ih h)

theorem agent_goes_leaves {env : outbox} (h : s.agent_goes net env calls cause = ok s') :
    LeavesCfgMgr s s' := by
  obtain ⟨hcfgmgr, hall⟩ := agent_posts_all h
  exact ⟨hcfgmgr, hall⟩

theorem deliver_leaves {k : Nat} {writes : List io_write_call}
    (h : writes.foldlM (mesh_system.deliver net k) s = ok s') : LeavesCfgMgr s s' := by
  induction writes generalizing s with
  | nil =>
    cases h
    exact .refl _
  | cons call writes ih =>
    rw [List.foldlM_cons] at h
    obtain ⟨s₁, hdeliver, h⟩ := bind_eq_ok_iff.mp h
    obtain ⟨frame, -, hdeliver⟩ := bind_eq_ok_iff.mp hdeliver
    have hfirst : LeavesCfgMgr s s₁ := by
      split at hdeliver
      · cases hdeliver
        exact .refl _
      · cases hdeliver
        exact ⟨rfl, fun _ => rfl⟩
    exact hfirst.trans (ih h)

/-- What the `cfg_mgr` has done is a step of its own, and it has posted what it handed to
the bus in it. -/
structure CfgMgrSteps (s : mesh_system) (a : event) (s' : mesh_system) : Prop where
  step : cfg_mgr.Step s.cfgmgr a s'.cfgmgr
  posts : ∃ new, s'.cfgmgr.calls = s.cfgmgr.calls ++ new ∧ (∀ c ∈ new, Emits c) ∧
    ∀ {β : Type} (f : client → mbus_call → List β),
      s'.all f .cfg_mgr = s.all f .cfg_mgr ++ new.flatMap (f .cfg_mgr)

theorem cfgmgr_goes_steps {a : event} {w : process} (hstep : cfg_mgr.Step s.cfgmgr a w)
    (h : s.cfgmgr_goes net w cause = ok s') : CfgMgrSteps s a s' := by
  obtain ⟨calls, hcalls, hemits⟩ := step_emits hstep
  rw [cfgmgr_goes_eq hemits hcalls] at h
  cases h
  refine ⟨hstep, calls, hcalls, hemits, fun f => ?_⟩
  exact @all_goes _ f cause calls [] net s .cfg_mgr .cfg_mgr

/-- A step of the system is one of the `cfg_mgr`, or nothing to it. -/
theorem cfgmgr_steps {e : mesh_event} (hstep : MeshStep net s e s') :
    (e.of_cfgmgr s).elim (LeavesCfgMgr s s') fun a => CfgMgrSteps s a s' := by
  obtain ⟨-, hexec⟩ := hstep
  cases e with
  | cfgmgr_timer cur =>
    obtain ⟨w, hw, hgoes⟩ := bind_eq_ok_iff.mp hexec
    exact cfgmgr_goes_steps hw hgoes
  | agent_receives interface data => exact agent_goes_leaves hexec
  | agent_sends interface buf => exact agent_goes_leaves hexec
  | daemon_reads sender addr rest =>
    rw [mesh_system.exec] at hexec
    split at hexec
    · cases hexec
      exact .refl _
    · obtain ⟨b, -, hdeliver⟩ := bind_eq_ok_iff.mp hexec
      obtain ⟨hcfgmgr, hall⟩ := deliver_leaves hdeliver
      exact ⟨hcfgmgr, hall⟩
  | client_reads reader controller rest =>
    rw [mesh_system.exec] at hexec
    cases hqueue : s.to_client reader with
    | nil =>
      rw [hqueue] at hexec
      cases hexec
      cases reader with
      | cfg_mgr =>
        rw [mesh_event.of_cfgmgr, hqueue]
        exact .refl _
      | mesh_agent => exact .refl _
    | cons first more =>
      obtain ⟨k, frame⟩ := first
      rw [hqueue] at hexec
      obtain ⟨called, hcalled, hexec⟩ := bind_eq_ok_iff.mp hexec
      cases called with
      | none =>
        cases hexec
        cases reader with
        | cfg_mgr =>
          rw [mesh_event.of_cfgmgr, hqueue]
          dsimp only
          rw [hcalled]
          exact ⟨rfl, fun _ => rfl⟩
        | mesh_agent => exact ⟨rfl, fun _ => rfl⟩
      | some call =>
        cases reader with
        | cfg_mgr =>
          rw [mesh_event.of_cfgmgr, hqueue]
          dsimp only
          rw [hcalled]
          obtain ⟨w, hw, hgoes⟩ := bind_eq_ok_iff.mp hexec
          obtain ⟨hstep, new, hnew, hemits, hall⟩ := cfgmgr_goes_steps hw hgoes
          exact ⟨hstep, new, hnew, hemits, hall⟩
        | mesh_agent =>
          obtain ⟨⟨env, replies⟩, -, hgoes⟩ := bind_eq_ok_iff.mp hexec
          obtain ⟨hcfgmgr, hall⟩ := agent_goes_leaves hgoes
          exact ⟨hcfgmgr, hall⟩

end Views

/-- The events that the messages of a client are to the `cfg_mgr`. -/
def client.events (c : client) (call : mbus_call) : List event :=
  (c.called call).toList.map called_event

/-- The event is a call of the `msg_cb`. -/
def IsMessage : event → Bool
  | .message .. => true
  | .expire _ => false

section Runs

variable {net : setup} {s s' : mesh_system} {e : mesh_event}
  {tr : List (mesh_event × mesh_system)}

theorem client.events_request {c : client} {call : mbus_call} (h : c.called call = none) :
    c.events call = [] := by
  rw [client.events, h]
  rfl

/-- The `cfg_mgr` handles what it takes from the connection. -/
theorem Flowing.of_cfgmgr_messages (h : Flowing net s) (e : mesh_event) :
    (e.of_cfgmgr s).toList.filter IsMessage =
      ((e.takes s .mesh_agent).map client.mesh_agent.events).getD [] := by
  cases e with
  | cfgmgr_timer | agent_receives | agent_sends | daemon_reads => rfl
  | client_reads reader controller rest =>
    cases reader with
    | mesh_agent =>
      rw [mesh_event.takes, if_neg (by decide)]
      rfl
    | cfg_mgr =>
      rw [mesh_event.of_cfgmgr, mesh_event.takes, if_pos (by rfl)]
      cases hqueue : s.to_client .cfg_mgr with
      | nil => rfl
      | cons first more =>
        obtain ⟨k, frame⟩ := first
        obtain ⟨-, -, m, hm, hsender, rfl⟩ := h.read_by hqueue
        have hposts := h.posts m (List.mem_of_getElem? hm)
        rw [hsender] at hposts
        dsimp only [List.head?_cons]
        rw [hposts.called_back rest, Option.bind_some, hm]
        change _ = client.mesh_agent.events m.call
        rw [client.events]
        change (match ok (client.mesh_agent.called m.call) with
          | ok (some call) => some (called_event call)
          | _ => none).toList.filter IsMessage = _
        cases client.mesh_agent.called m.call with
        | none => rfl
        | some call => rfl

/-- Over a run the events of the part of the `cfg_mgr` are taken from the front of what the
agent's messages are to it. -/
theorem Carrying.part_events (h : Carrying net s) (hrun : Run (MeshStep net) s tr) :
    ∃ added, (endState s tr).carried client.events net .mesh_agent =
        s.carried client.events net .mesh_agent ++ added ∧
      s.ahead client.events net .mesh_agent ++ added =
        ((cfgmgr_part s tr).map Prod.fst).filter IsMessage ++
          (endState s tr).ahead client.events net .mesh_agent := by
  induction hrun with
  | nil s => exact ⟨[], (List.append_nil _).symm, List.append_nil _⟩
  | @cons s s' e tr htake _ ih =>
    obtain ⟨added, hall, hahead⟩ := h.fifo_step (fun _ _ => client.events_request) htake .mesh_agent
    obtain ⟨more, hrest, hmore⟩ := ih (h.step htake)
    have hpart : ((cfgmgr_part s ((e, s') :: tr)).map Prod.fst).filter IsMessage =
        (e.of_cfgmgr s).toList.filter IsMessage ++
          ((cfgmgr_part s' tr).map Prod.fst).filter IsMessage := by
      rw [cfgmgr_part, component, List.map_append, List.filter_append, List.map_map]
      congr 2
      exact List.map_id _
    refine ⟨added ++ more, ?_, ?_⟩
    · rw [endState, hrest, hall, List.append_assoc]
    · rw [endState, hpart, h.of_cfgmgr_messages, List.append_assoc, ← hmore, ← List.append_assoc,
        hahead, List.append_assoc]

/-- Over a run the `cfg_mgr` posts what it hands to the bus. -/
theorem cfgmgr_posts (hrun : Run (MeshStep net) s tr) :
    ∃ new, (endState s tr).cfgmgr.calls = s.cfgmgr.calls ++ new ∧ (∀ c ∈ new, Emits c) ∧
      ∀ {β : Type} (f : client → mbus_call → List β),
        (endState s tr).all f .cfg_mgr = s.all f .cfg_mgr ++ new.flatMap (f .cfg_mgr) := by
  induction hrun with
  | nil s =>
    exact ⟨[], (List.append_nil _).symm, List.forall_mem_nil _, fun _ => (List.append_nil _).symm⟩
  | @cons s s' e tr htake _ ih =>
    obtain ⟨more, hmore, hemits, hrest⟩ := ih
    have hsteps := cfgmgr_steps htake
    rw [endState]
    cases hown : e.of_cfgmgr s with
    | none =>
      rw [hown] at hsteps
      obtain ⟨hcfgmgr, hall⟩ := hsteps
      refine ⟨more, by rw [hmore, hcfgmgr], hemits, fun f => ?_⟩
      rw [hrest, hall]
    | some a =>
      rw [hown] at hsteps
      obtain ⟨-, new, hnew, hfirst, hall⟩ := hsteps
      refine ⟨new ++ more, by rw [hmore, hnew, List.append_assoc],
        List.forall_mem_append.mpr ⟨hfirst, hemits⟩, fun f => ?_⟩
      rw [hrest, hall, List.flatMap_append, List.append_assoc]

theorem cfgmgr_step_of {e : mesh_event} (hstep : MeshStep net s e s') :
    StepOf cfg_mgr.Step mesh_event.of_cfgmgr mesh_system.cfgmgr s e s' := by
  have hsteps := cfgmgr_steps hstep
  rw [StepOf]
  cases hown : e.of_cfgmgr s with
  | none =>
    rw [hown] at hsteps
    exact hsteps.cfgmgr
  | some a =>
    rw [hown] at hsteps
    exact hsteps.step

/-- In every run of the system the `cfg_mgr` makes a run of its own, on the messages that
the agent has posted and `io_write` has not refused, in their order, up to those that are
under way; and what it hands to the bus in it is what it has posted. Where nothing was
refused, it handles all that the agent has posted. -/
theorem cfgmgr_runs (hstart : Start net s) (hrun : Run (MeshStep net) s tr) :
    Run cfg_mgr.Step s.cfgmgr (cfgmgr_part s tr) ∧
      endState s.cfgmgr (cfgmgr_part s tr) = (endState s tr).cfgmgr ∧
      ((cfgmgr_part s tr).map Prod.fst).filter IsMessage ++
          (endState s tr).ahead client.events net .mesh_agent =
        (endState s tr).carried client.events net .mesh_agent ∧
      ((∀ k < (endState s tr).posted.length, net.carries k) →
        (endState s tr).carried client.events net .mesh_agent =
          (endState s tr).all client.events .mesh_agent) ∧
      (endState s tr).cfgmgr.calls =
        s.cfgmgr.calls ++ (endState s tr).all (fun _ call => [call]) .cfg_mgr := by
  obtain ⟨hpart, hend⟩ := hrun.component cfgmgr_step_of
  obtain ⟨added, hcarried, hahead⟩ := hstart.carrying.part_events hrun
  obtain ⟨new, hnew, -, hposts⟩ := cfgmgr_posts hrun
  have hnone {β : Type} (f : client → mbus_call → List β) (c : client) : s.all f c = [] := by
    rw [mesh_system.all, hstart.posted]
    rfl
  refine ⟨hpart, hend, ?_, fun hnone => carried_eq_all client.events hnone .mesh_agent, ?_⟩
  · rw [hcarried, mesh_system.carried, hstart.posted, ← hahead, mesh_system.ahead, hstart.idle]
    rfl
  · rw [hnew, hposts, hnone, List.flatMap_singleton', List.nil_append]

/-- Of two searches one reaches the agent, and the `cfg_mgr` has seen the turn of its timer
and the copy. -/
theorem search_is_run :
    Run cfg_mgr.Step controller_known.cfgmgr (cfgmgr_part controller_known lossy_run) ∧
      (cfgmgr_part controller_known lossy_run).length = 2 ∧
      ((cfgmgr_part controller_known lossy_run).map Prod.fst).filter IsMessage =
        (endState controller_known lossy_run).carried client.events second_refused .mesh_agent := by
  have h : Enabled (fun s e => e.Allowed s ∧ (mesh_system.exec second_refused s e).Returns)
        (fun s e => (s.exec second_refused e).getD s) controller_known search_lost ∧
      (cfgmgr_part controller_known lossy_run).length = 2 ∧
      (endState controller_known lossy_run).ahead client.events second_refused .mesh_agent = [] := by
    decide +kernel
  have hrun : Run (MeshStep second_refused) controller_known lossy_run := run_trace_guarded h.1
  obtain ⟨hpart, -, hhandled, -⟩ := cfgmgr_runs second_refused_start hrun
  rw [h.2.2, List.append_nil] at hhandled
  exact ⟨hpart, h.2.1, hhandled⟩

end Runs

end easymesh.system
