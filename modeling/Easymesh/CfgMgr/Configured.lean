import Easymesh.CfgMgr.Steps

open Lib Lib.Result easymesh.cmdu easymesh.minheap easymesh.mh_timer

namespace easymesh.cfg_mgr

/-- The external command `reconfig` of the user `ucfgmgr_config`. -/
def event.IsReconfig : event → Prop
  | .message .MBUS_CMD_PRIVATE_MSG fromName toName data =>
    g_cfgmgr_user_name <+: toName ∧ config_user_name <+: fromName ∧ reconfig_command <+: data
  | _ => False

/-- A radio that the step takes out of `AUTOCONF_CONFIGURED` is taken out by `reconfig`. -/
def LeavesByReconfig (w : process) (e : event) (w' : process) : Prop :=
  ∀ i, w.conf_state i = .AUTOCONF_CONFIGURED → w'.conf_state i ≠ .AUTOCONF_CONFIGURED →
    e.IsReconfig

/-- The step handles no autoconfiguration response for a radio that is configured. -/
def NoLateResponse (w : process) (e : event) (_ : process) : Prop :=
  ∀ i, w.request_of e = ok (.response i) → w.conf_state i ≠ .AUTOCONF_CONFIGURED

instance : ∀ e : event, Decidable e.IsReconfig
  | .message .MBUS_CMD_PRIVATE_MSG _ _ _ => inferInstanceAs (Decidable (_ ∧ _ ∧ _))
  | .message .MBUS_CMD_NONE _ _ _ => isFalse nofun
  | .message .MBUS_CMD_HEARTBEAT _ _ _ => isFalse nofun
  | .message .MBUS_CMD_GROUP_MSG _ _ _ => isFalse nofun
  | .expire _ => isFalse nofun

instance (w : process) (e : event) (w' : process) : Decidable (LeavesByReconfig w e w') :=
  inferInstanceAs (Decidable (∀ _, _ → _ → _))

instance (w : process) (e : event) (w' : process) : Decidable (NoLateResponse w e w') :=
  inferInstanceAs (Decidable (∀ _, _ → _))

/-- Only `reconfig` asks for `reconfig`. -/
theorem isReconfig_of_request {w : process} {e : event} (h : w.request_of e = ok .reconfig) :
    e.IsReconfig := by
  cases e with
  | expire cur => cases h
  | message cmd fromName toName data =>
    cases cmd with
    | MBUS_CMD_NONE => cases h
    | MBUS_CMD_HEARTBEAT => cases h
    | MBUS_CMD_GROUP_MSG =>
      obtain ⟨isGroup, _, h⟩ := bind_eq_ok_iff.mp h
      cases isGroup with
      | false => cases h
      | true =>
        rcases packet_request_cases h with hr | ⟨radios, hr⟩ | ⟨i, hr⟩
        · cases hr
        · cases hr
        · cases hr
    | MBUS_CMD_PRIVATE_MSG =>
      rcases private_request_cases h with hr | hr | ⟨_, hnames⟩
      · cases hr
      · cases hr
      · exact hnames

/-- `reconfig` is no response. -/
theorem not_response_of_isReconfig {w : process} {e : event} (he : e.IsReconfig) (i : Fin 2) :
    w.request_of e ≠ ok (.response i) := by
  intro h
  match e, he with
  | .message .MBUS_CMD_PRIVATE_MSG fromName toName data, _ =>
    rcases private_request_cases h with hr | hr | ⟨hr, _⟩ <;> cases hr

/-- What the radios do in a step. -/
theorem step_states {w w' : process} {e : event} (h : Step w e w') :
    (∃ r, w.request_of e = ok r ∧ w'.conf_state = r.states w.conf_state) ∨
      w.request_of e = ok .nothing ∧ w'.conf_state = fun i => afterTick (w.conf_state i) := by
  cases e with
  | message cmd fromName toName data =>
    obtain ⟨r, hr, hserved⟩ := cfgmgr_handle_msg_served h
    exact .inl ⟨r, hr, hserved.states⟩
  | expire cur =>
    rcases expire_states h with hsame | htick
    · exact .inl ⟨.nothing, rfl, hsame⟩
    · exact .inr ⟨rfl, htick⟩

theorem leavesByReconfig_iff {w w' : process} {e : event} (h : Step w e w') :
    LeavesByReconfig w e w' ↔ NoLateResponse w e w' := by
  rcases step_states h with ⟨r, hr, hstates⟩ | ⟨hr, hstates⟩
  · constructor
    · intro hleave i hi hconf
      rw [hr] at hi
      cases hi
      refine not_response_of_isReconfig (hleave i hconf ?_) i hr
      simp [hstates, request.states]
    · intro hlate i hconf hleft
      rw [hstates] at hleft
      cases r with
      | nothing => exact absurd hconf hleft
      | controller_info => simp [request.states, hconf] at hleft
      | response j =>
        have hj := hlate j hr
        have hne : i ≠ j := by
          rintro rfl
          exact hj hconf
        simp [request.states, hne, hconf] at hleft
      | m2 radios => simp [request.states, hconf] at hleft
      | reconfig => exact isReconfig_of_request hr
  · constructor
    · intro _ i hi
      rw [hr] at hi
      cases hi
    · intro _ i hconf hleft
      rw [hstates] at hleft
      exact absurd (afterTick_configured_iff.mpr hconf) hleft

/-- In a run of the process, configured radios are left alone by all but
`reconfig` exactly when no response arrives for a radio that is configured. -/
theorem configured_until_reconfig_iff (clock : Nat → Nat) (uninit : Nat → UInt8)
    {tr : List (event × process)} (hrun : Run Step (cfgmgr_main clock uninit) tr) :
    AllSteps LeavesByReconfig (cfgmgr_main clock uninit) tr ↔
      AllSteps NoLateResponse (cfgmgr_main clock uninit) tr :=
  Run.allSteps_iff (fun h => leavesByReconfig_iff h) hrun

/-- The process started on a clock that shows 10 ms more at each reading. -/
def started : process := cfgmgr_main (fun k => 10 * k) fun _ => 0

abbrev runOf (es : List event) : List (event × process) :=
  trace (fun w e => (w.exec e).getD w) started es

/-- A response for the 2.4G radio and then an M2, in two fragments, that configures it. -/
def response_then_m2 : List event :=
  [group_message (network_packet true MSG_AP_AUTOCONFIGURATION_RESPONSE 1 [0, 0, 0, 0, 0, 1]
      response_tlvs),
    group_message (network_packet false MSG_AP_AUTOCONFIGURATION_WSC 2 [0, 0, 0, 0, 0, 1] []),
    group_message (network_packet true MSG_AP_AUTOCONFIGURATION_WSC 2 [0, 0, 0, 0, 0, 1] m2_tlvs)]

/-- The same with the response once more, repeated at the end. -/
def m2_then_response : List event :=
  response_then_m2 ++
    [group_message (network_packet true MSG_AP_AUTOCONFIGURATION_RESPONSE 1 [0, 0, 0, 0, 0, 1]
      response_tlvs)]

/-- The radio is configured, its timer runs, a response for the 5G radio comes and the M2 once
more, and then `reconfig`. -/
def m2_then_reconfig : List event :=
  response_then_m2 ++
    [.expire 10000000,
      group_message (network_packet true MSG_AP_AUTOCONFIGURATION_RESPONSE 3 [0, 0, 0, 0, 0, 1]
        [0x10, 0x00, 0x01, 0x01]),
      .expire 10000000,
      group_message (network_packet false MSG_AP_AUTOCONFIGURATION_WSC 2 [0, 0, 0, 0, 0, 1] []),
      group_message (network_packet true MSG_AP_AUTOCONFIGURATION_WSC 2 [0, 0, 0, 0, 0, 1] m2_tlvs),
      .message .MBUS_CMD_PRIVATE_MSG config_user_name g_cfgmgr_user_name reconfig_command]

theorem configured_until_reconfig_once :
    Run Step started (runOf m2_then_reconfig) ∧
      AllSteps LeavesByReconfig started (runOf m2_then_reconfig) ∧
      (runOf m2_then_reconfig).map (fun x => x.2.conf_state 0) =
        [.AUTOCONF_SEND_M1, .AUTOCONF_SEND_M1, .AUTOCONF_CONFIGURED, .AUTOCONF_CONFIGURED,
          .AUTOCONF_CONFIGURED, .AUTOCONF_CONFIGURED, .AUTOCONF_CONFIGURED, .AUTOCONF_CONFIGURED,
          .AUTOCONF_UNCONFIGURED] := by
  have hrun : Run Step started (runOf m2_then_reconfig) := run_trace_returning (by decide +kernel)
  exact ⟨hrun, (configured_until_reconfig_iff _ _ hrun).mpr (by decide +kernel), by decide +kernel⟩

/-- A replayed response takes a configured radio back to `AUTOCONF_SEND_M1`. -/
theorem replayed_response_unconfigures :
    Run Step started (runOf m2_then_response) ∧
      ¬ AllSteps LeavesByReconfig started (runOf m2_then_response) :=
  ⟨run_trace_returning (by decide +kernel), by decide +kernel⟩

end easymesh.cfg_mgr
