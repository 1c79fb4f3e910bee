import Easymesh.System.Component

open Lib Lib.Result easymesh.cmdu easymesh.ieee1905_network easymesh.bus_msg easymesh.mbusd
open easymesh.cfg_mgr easymesh.mesh_agent

namespace easymesh.system

/-- The radios that a message of a client asks the `cfg_mgr` for an M1 for. -/
def client.demands (c : client) (call : mbus_call) : List (Fin 2) :=
  (c.events call).filterMap event.demanded

/-- The radios that a frame on the network is an M1 for. -/
def frame_radios (frame : List UInt8) : List (Fin 2) :=
  if ntohs <$> msg_type frame = ok MSG_AP_AUTOCONFIGURATION_WSC then
    (m2_radios (tlvs frame) (wrap32 (frame.length - sizeof_cmdu_raw_msg))).getD []
  else []

/-- The radios that the frames of a call are M1s for. -/
def setup.offers (net : setup) (c : client) (call : mbus_call) : List (Fin 2) :=
  (net.forwards c call).flatMap fun f => frame_radios f.2

section Frames

variable {net : setup} {s s' : mesh_system} {my_name groupname data : List UInt8} {call : mbus_call}

/-- The frame of a packet is an M1 for the radios that the packet is one for. -/
theorem m1_radios_packet (h : Published data) :
    m1_radios (.sendmsg_in_group my_name groupname data) = frame_radios (packet data) := by
  obtain ⟨type, -, id, hframed⟩ := h
  rw [m1_radios, mbus_call.cmdu, frame_radios]
  dsimp only
  rw [hframed.packet_len, ok_bind]

/-- A packet comes to at most one frame. -/
theorem offers_sublist (h : Emits call) :
    (net.offers .cfg_mgr call).Sublist (m1_radios call) := by
  cases call with
  | register_object username | create_group groupname | join_group groupname =>
    exact List.nil_sublist _
  | sendmsg_private my_name peer_name data => exact List.nil_sublist _
  | sendmsg_in_group my_name groupname data =>
    rw [m1_radios_packet h.2.2, setup.offers, setup.forwards]
    split
    · rw [socket_frames]
      split
      · exact List.nil_sublist _
      · rw [List.flatMap_singleton]
    · exact List.nil_sublist _

end Frames

section Account

variable {net : setup} {s s' : mesh_system} {e : mesh_event} {i : Fin 2}
  {tr : List (mesh_event × mesh_system)}

theorem client.demands_request {c : client} {call : mbus_call} (h : c.called call = none) :
    c.demands call = [] := by
  rw [client.demands, client.events_request h]
  rfl

/-- A message that the `cfg_mgr` takes asks for what its event asks for. -/
theorem Flowing.takes_demands (h : Flowing net s) (e : mesh_event) :
    ((e.takes s .mesh_agent).map client.mesh_agent.demands).getD [] =
      (e.of_cfgmgr s).toList.filterMap event.demanded := by
  have hmessages := congrArg (List.filterMap event.demanded) (h.of_cfgmgr_messages e)
  have htaken : (((e.takes s .mesh_agent).map client.mesh_agent.events).getD []).filterMap
      event.demanded = ((e.takes s .mesh_agent).map client.mesh_agent.demands).getD [] := by
    cases e.takes s .mesh_agent with
    | none => rfl
    | some call => rfl
  rw [htaken] at hmessages
  rw [← hmessages]
  cases e.of_cfgmgr s with
  | none => rfl
  | some a =>
    cases a with
    | message cmd fromName toName data => rfl
    | expire cur => rfl

/-- The M1s for a radio that the `cfg_mgr` is committed to are covered, up to `n` of them,
by the messages that it has taken. -/
structure Covered (net : setup) (i : Fin 2) (n : Nat) (s : mesh_system) : Prop where
  carrying : Carrying net s
  refines : ∃ d, Refines s.cfgmgr d
  covered : s.cfgmgr.committed i + (s.ahead client.demands net .mesh_agent).count i ≤
    n + (s.carried client.demands net .mesh_agent).count i

theorem Covered.step {n : Nat} (h : Covered net i n s) (hstep : MeshStep net s e s') :
    Covered net i n s' := by
  obtain ⟨hcarrying, ⟨d, href⟩, hcovered⟩ := h
  obtain ⟨added, hall, hahead⟩ := hcarrying.fifo_step (fun _ _ => client.demands_request) hstep
    .mesh_agent
  rw [hcarrying.takes_demands] at hahead
  have hcount := congrArg (List.count i) hahead
  rw [List.count_append, List.count_append] at hcount
  have hown := cfgmgr_steps hstep
  cases hevent : e.of_cfgmgr s with
  | none =>
    rw [hevent] at hown hcount
    refine ⟨hcarrying.step hstep, ⟨d, hown.cfgmgr ▸ href⟩, ?_⟩
    rw [hown.cfgmgr, hall, List.count_append]
    change _ = List.count i [] + _ at hcount
    rw [List.count_nil] at hcount
    omega
  | some a =>
    rw [hevent] at hown hcount
    have hcommitted := href.committed_step hown.step i
    refine ⟨hcarrying.step hstep, ⟨_, href.step hown.step⟩, ?_⟩
    have hdemanded : ((some a).toList.filterMap event.demanded).count i =
        if a.demanded = some i then 1 else 0 := by
      change ([a].filterMap event.demanded).count i = _
      cases hradio : a.demanded with
      | none =>
        rw [List.filterMap_cons_none hradio]
        rfl
      | some j =>
        rw [List.filterMap_cons_some hradio, List.filterMap_nil, List.count_singleton]
        simp only [beq_iff_eq, Option.some.injEq]
    rw [hdemanded] at hcount
    rw [hall, List.count_append]
    omega

end Account

/-- A radio that the step takes out of `AUTOCONF_CONFIGURED` is taken out by a response for
its band that the agent has posted. -/
def LeavesByResponse (s : mesh_system) (e : mesh_event) (s' : mesh_system) : Prop :=
  ∀ i, s.cfgmgr.conf_state i = .AUTOCONF_CONFIGURED →
    s'.cfgmgr.conf_state i ≠ .AUTOCONF_CONFIGURED →
      ∃ call, e.takes s .mesh_agent = some call ∧
        ∃ a ∈ client.mesh_agent.events call, a.band_of MSG_AP_AUTOCONFIGURATION_RESPONSE = some i

section Leaves

variable {net : setup} {s s' : mesh_system} {e : mesh_event}

/-- The agent does not have the name that `reconfig` has to come from. -/
theorem agent_sends_no_reconfig {call : mbus_call} {a : event}
    (h : a ∈ client.mesh_agent.events call) : ¬ a.IsReconfig := by
  obtain ⟨cb, hcb, rfl⟩ := List.mem_map.mp h
  have hname : cb.fromName = some (client.mesh_agent.user ++ [0]) := by
    cases call with
    | register_object _ | create_group _ | join_group _ => cases hcb
    | sendmsg_in_group _ _ _ | sendmsg_private _ _ _ =>
      obtain rfl := List.mem_singleton.mp hcb
      rfl
  have hother : ¬ config_user_name <+: client.mesh_agent.user ++ [0] := by decide
  rw [called_event, hname]
  cases cb.cmd with
  | MBUS_CMD_PRIVATE_MSG => exact fun hreconfig => hother hreconfig.2.1
  | MBUS_CMD_GROUP_MSG | MBUS_CMD_NONE | MBUS_CMD_HEARTBEAT => exact id

/-- What takes a radio out of `AUTOCONF_CONFIGURED`. -/
theorem request_leaves {r : cfg_mgr.request} {states : Fin 2 → ConfigStatus} {i : Fin 2}
    (hconf : states i = .AUTOCONF_CONFIGURED) (hleft : r.states states i ≠ .AUTOCONF_CONFIGURED) :
    r = .response i ∨ r = .reconfig := by
  cases r with
  | nothing => exact absurd hconf hleft
  | controller_info => exact absurd (if_pos hconf) hleft
  | response j =>
    by_cases hj : i = j
    · exact .inl (hj ▸ rfl)
    · rw [request.states, Function.update_of_ne hj] at hleft
      exact absurd hconf hleft
  | m2 radios =>
    change (if i ∈ radios then _ else _) ≠ _ at hleft
    split at hleft
    · exact absurd rfl hleft
    · exact absurd hconf hleft
  | reconfig => exact .inr rfl

/-- The message of the agent that an event of the `cfg_mgr` is. -/
theorem Flowing.taken_event (h : Flowing net s) {a : event} (hown : e.of_cfgmgr s = some a)
    (hmessage : IsMessage a) :
    ∃ call, e.takes s .mesh_agent = some call ∧ a ∈ client.mesh_agent.events call := by
  have hmessages := h.of_cfgmgr_messages e
  rw [hown, Option.toList_some, List.filter_cons_of_pos hmessage, List.filter_nil] at hmessages
  cases htakes : e.takes s .mesh_agent with
  | none =>
    rw [htakes] at hmessages
    cases hmessages
  | some call =>
    rw [htakes] at hmessages
    refine ⟨call, rfl, ?_⟩
    have hevents : client.mesh_agent.events call = [a] := hmessages.symm
    rw [hevents]
    exact List.mem_cons_self

theorem Flowing.leaves_by_response (h : Flowing net s) (hstep : MeshStep net s e s') :
    LeavesByResponse s e s' := by
  intro i hconf hleft
  have hown := cfgmgr_steps hstep
  cases hevent : e.of_cfgmgr s with
  | none =>
    rw [hevent] at hown
    rw [hown.cfgmgr] at hleft
    exact absurd hconf hleft
  | some a =>
    rw [hevent] at hown
    rcases step_states hown.step with ⟨r, hr, hstates⟩ | ⟨-, hstates⟩
    · rw [hstates] at hleft
      rcases request_leaves hconf hleft with rfl | rfl
      · have hmessage : IsMessage a := by
          cases a with
          | expire cur => cases hr
          | message cmd fromName toName data => rfl
        obtain ⟨call, htakes, hcall⟩ := h.taken_event hevent hmessage
        exact ⟨call, htakes, a, hcall, band_of_response hr⟩
      · have hreconfig := isReconfig_of_request hr
        have hmessage : IsMessage a := by
          cases a with
          | expire cur => cases hr
          | message cmd fromName toName data => rfl
        obtain ⟨call, -, hcall⟩ := h.taken_event hevent hmessage
        exact absurd hreconfig (agent_sends_no_reconfig hcall)
    · rw [hstates] at hleft
      exact absurd (afterTick_configured_iff.mpr hconf) hleft

end Leaves

section Runs

variable {net : setup} {s : mesh_system} {tr : List (mesh_event × mesh_system)}

/-- In every run the frames that messages make the agent give to the sockets are, for each
radio, at most as many M1s as the agent has posted responses and renews for its band, but
for one that the `cfg_mgr` may be about to send at the start. -/
theorem m1_frames_on_demand (hstart : Start net s) (hrun : Run (MeshStep net) s tr)
    {clock : Nat → Nat} {uninit : Nat → UInt8} {before : List (event × process)}
    (hbefore : Run cfg_mgr.Step (cfgmgr_main clock uninit) before)
    (hcfgmgr : s.cfgmgr = endState (cfgmgr_main clock uninit) before) (i : Fin 2) :
    ((endState s tr).relayed.flatMap fun f => frame_radios f.2).count i ≤
      (if s.cfgmgr.conf_state i = .AUTOCONF_SEND_M1 then 1 else 0) +
        ((endState s tr).all client.demands .mesh_agent).count i := by
  have href : ∃ d, Refines s.cfgmgr d :=
    ⟨_, hcfgmgr ▸ (refines_start clock uninit).endState hbefore⟩
  have hcover : Covered net i (s.cfgmgr.committed i) s := by
    refine ⟨hstart.carrying, href, ?_⟩
    rw [mesh_system.ahead, hstart.idle]
    exact Nat.add_le_add_left (Nat.zero_le _) _
  obtain ⟨-, -, hcovered⟩ := hrun.endState_invariant (fun h hstep => h.step hstep) hcover
  obtain ⟨-, hsent⟩ := hrun.endState_invariant (J := fun s => Carrying net s ∧ FramesSent net s)
    (fun h hstep => ⟨h.1.step hstep, h.2.step h.1 hstep⟩) ⟨hstart.carrying, hstart.frames_sent⟩
  obtain ⟨new, hnew, hemits, hposts⟩ := cfgmgr_posts hrun
  have hrelayed : ((endState s tr).relayed.flatMap fun f => frame_radios f.2).count i ≤
      (new.flatMap m1_radios).count i := by
    have hall : (endState s tr).all net.forwards .cfg_mgr = new.flatMap (net.forwards .cfg_mgr) := by
      rw [hposts, mesh_system.all, hstart.posted]
      rfl
    calc
      _ ≤ (((endState s tr).carried net.forwards net .cfg_mgr).flatMap fun f =>
          frame_radios f.2).count i := by
        rw [← hsent, List.flatMap_append, List.count_append]
        exact Nat.le_add_right _ _
      _ ≤ (((endState s tr).all net.forwards .cfg_mgr).flatMap fun f => frame_radios f.2).count i :=
        ((carried_sublist_all net _ .cfg_mgr).flatMap _).count_le _
      _ = (new.flatMap (net.offers .cfg_mgr)).count i := by
        rw [hall, List.flatMap_assoc]
        rfl
      _ ≤ (new.flatMap m1_radios).count i := by
        apply List.Sublist.count_le
        exact List.Sublist.flatMap_right new fun call hcall => offers_sublist (hemits call hcall)
  have hm1s : (endState s tr).cfgmgr.m1s i = s.cfgmgr.m1s i + (new.flatMap m1_radios).count i := by
    rw [process.m1s, hnew, List.flatMap_append, List.count_append]
    rfl
  have hdemanded := (@carried_sublist_all _ client.demands net (endState s tr) .mesh_agent).count_le i
  rw [process.committed, process.committed] at hcovered
  omega

/-- A renew for the 2.4G radio from the network, and the M1 that is sent for it. -/
theorem renewed_m1_on_demand :
    Run (MeshStep one_interface) controller_known renew_run ∧
      ((endState controller_known renew_run).relayed.flatMap fun f => frame_radios f.2) = [0] ∧
      ((endState controller_known renew_run).relayed.flatMap fun f => frame_radios f.2).count 0 ≤
        (if controller_known.cfgmgr.conf_state 0 = .AUTOCONF_SEND_M1 then 1 else 0) +
          ((endState controller_known renew_run).all client.demands .mesh_agent).count 0 := by
  have h : Enabled (fun s e => e.Allowed s ∧ (mesh_system.exec one_interface s e).Returns)
        (fun s e => (s.exec one_interface e).getD s) controller_known renew_and_m1 ∧
      Enabled (fun w e => (process.exec w e).Returns) (fun w e => (w.exec e).getD w) started
        [.expire 10000000, controller_info_message] ∧
      ((endState controller_known renew_run).relayed.flatMap fun f => frame_radios f.2) = [0] := by
    decide +kernel
  obtain ⟨hmesh, hcfgmgr, hframes⟩ := h
  have hrun : Run (MeshStep one_interface) controller_known renew_run := run_trace_guarded hmesh
  have hbefore : Run cfg_mgr.Step started (runOf [.expire 10000000, controller_info_message]) :=
    run_trace_returning hcfgmgr
  exact ⟨hrun, hframes, m1_frames_on_demand controller_known_start hrun hbefore rfl 0⟩

/-- In every run a radio that is configured stays so until the `cfg_mgr` takes a response
for its band from what the agent has posted. -/
theorem configured_until_response (hstart : Start net s) (hrun : Run (MeshStep net) s tr) :
    AllSteps LeavesByResponse s tr := by
  have hflowing : ∀ x ∈ tr, Flowing net x.2 :=
    Run.invariant (fun h hstep => (h.step hstep).1) hstart.flowing hrun
  exact Run.allSteps_of_states (fun h hstep => h.leaves_by_response hstep) hstart.flowing hrun hflowing

/-- The agent receives a CMDU from the network, and the `cfg_mgr` gets it. -/
def received (type : UInt16) (last : Bool) (tlvs : List UInt8) : List mesh_event :=
  [.agent_receives eth0 (packet (network_packet last type 2 [2, 0, 0, 0, 0, 1] tlvs)),
    .daemon_reads .mesh_agent 4 [], .client_reads .cfg_mgr none []]

/-- An M2 in two fragments configures the 2.4G radio, and then comes a response. -/
def m2_and_response : List mesh_event :=
  received MSG_AP_AUTOCONFIGURATION_WSC false [] ++ received MSG_AP_AUTOCONFIGURATION_WSC true m2_tlvs ++
    received MSG_AP_AUTOCONFIGURATION_RESPONSE true response_tlvs

def m2_run : List (mesh_event × mesh_system) :=
  trace (fun s e => (s.exec one_interface e).getD s) controller_known m2_and_response

theorem configured_until_response_once :
    Run (MeshStep one_interface) controller_known m2_run ∧
      m2_run.map (fun x => x.2.cfgmgr.conf_state 0) =
        List.replicate 5 .AUTOCONF_BACKHAUL_READY ++ List.replicate 3 .AUTOCONF_CONFIGURED ++
          [.AUTOCONF_SEND_M1] ∧
      AllSteps LeavesByResponse controller_known m2_run := by
  have h : Enabled (fun s e => e.Allowed s ∧ (mesh_system.exec one_interface s e).Returns)
        (fun s e => (s.exec one_interface e).getD s) controller_known m2_and_response ∧
      m2_run.map (fun x => x.2.cfgmgr.conf_state 0) =
        List.replicate 5 .AUTOCONF_BACKHAUL_READY ++ List.replicate 3 .AUTOCONF_CONFIGURED ++
          [.AUTOCONF_SEND_M1] := by
    decide +kernel
  have hrun : Run (MeshStep one_interface) controller_known m2_run := run_trace_guarded h.1
  exact ⟨hrun, h.2, configured_until_response controller_known_start hrun⟩

end Runs

end easymesh.system
