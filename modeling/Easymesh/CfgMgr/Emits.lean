import Easymesh.CfgMgr.Controller

open Lib Lib.Result easymesh.cmdu

namespace easymesh.cfg_mgr

/-- A packet that the process publishes, with a search or an M1. -/
def Published (pkt : List UInt8) : Prop :=
  ∃ type ∈ [MSG_AP_AUTOCONFIGURATION_SEARCH, MSG_AP_AUTOCONFIGURATION_WSC], ∃ id,
    Framed (htons type) id pkt

/-- What the process hands to the bus: its registration, requests to the mesh agent and
its packets. -/
def Emits : mbus_call → Prop
  | .register_object username => username = g_cfgmgr_user_name
  | .create_group groupname | .join_group groupname => groupname = g_mesh_group_name
  | .sendmsg_in_group my_name groupname data =>
    my_name = g_cfgmgr_user_name ∧ groupname = g_mesh_group_name ∧ Published data
  | .sendmsg_private my_name peer_name data =>
    my_name = g_cfgmgr_user_name ∧ peer_name = g_mesh_user_name ∧
      data = bytesU16 MESH_MSGCMD_CONTROLLER_INFO_REQ

/-- The calls that the process has added are all of these. -/
def Emitted (calls calls' : List mbus_call) : Prop :=
  ∃ new, calls' = calls ++ new ∧ ∀ c ∈ new, Emits c

section Emitted

variable {calls calls₁ calls₂ : List mbus_call} {w w' : process}

theorem Emitted.refl (calls : List mbus_call) : Emitted calls calls :=
  ⟨[], (List.append_nil _).symm, nofun⟩

theorem Emitted.trans (h₁ : Emitted calls calls₁) (h₂ : Emitted calls₁ calls₂) :
    Emitted calls calls₂ := by
  obtain ⟨new₁, rfl, hall₁⟩ := h₁
  obtain ⟨new₂, rfl, hall₂⟩ := h₂
  exact ⟨new₁ ++ new₂, List.append_assoc _ _ _, List.forall_mem_append.mpr ⟨hall₁, hall₂⟩⟩

theorem cfgmgr_send_wsc_m1_emits {al_addr if_addr ifname dest : List UInt8} {msg_id band : Int}
    (h : cfgmgr_send_wsc_m1 w al_addr if_addr ifname dest msg_id band = ok w') :
    Emitted w.calls w'.calls := by
  obtain ⟨pkt, rfl, -, hframed⟩ := cfgmgr_send_wsc_m1_spec h
  refine ⟨[_], rfl, List.forall_mem_singleton.mpr ?_⟩
  exact ⟨rfl, rfl, _, List.mem_cons_of_mem _ List.mem_cons_self, _, hframed⟩

theorem cfgmgr_autoconf_radio_emits {i : Fin 2} {send send' : Bool}
    (h : cfgmgr_autoconf_radio i w send = ok (w', send')) : Emitted w.calls w'.calls := by
  unfold cfgmgr_autoconf_radio at h
  dsimp only at h
  split at h
  · split at h
    · cases h
      exact .refl _
    · cases h
      refine ⟨[_], rfl, List.forall_mem_singleton.mpr ?_⟩
      exact ⟨rfl, rfl, rfl⟩
  · obtain ⟨w₁, hsend, hok⟩ := bind_eq_ok_iff.mp h
    cases hok
    obtain ⟨pkt, rfl, -, hframed⟩ := cfgmgr_send_autoconfiguration_search_spec hsend
    refine ⟨[_], rfl, List.forall_mem_singleton.mpr ?_⟩
    exact ⟨rfl, rfl, _, List.mem_cons_self, _, hframed⟩
  · obtain ⟨w₁, hsend, hok⟩ := bind_eq_ok_iff.mp h
    cases hok
    have hemits := cfgmgr_send_wsc_m1_emits hsend
    exact hemits
  · cases h
    exact .refl _
  · cases h
    exact .refl _

theorem expire_emits {cur : Nat} (h : w.exec (.expire cur) = ok w') :
    Emitted w.calls w'.calls := by
  rcases expire_cases h with ⟨_, rfl⟩ | ⟨te, timer, _, ⟨_, rfl⟩ | ⟨_, hcb⟩⟩
  · exact .refl _
  · refine ⟨[.register_object g_cfgmgr_user_name, .create_group g_mesh_group_name,
      .join_group g_mesh_group_name], ?_, ?_⟩
    · simp only [cfgmgr_regmsg_timer_cb, process.call, List.append_assoc]
      rfl
    · simp [Emits]
  · obtain ⟨⟨w₁, send₁⟩, hfirst, h⟩ := bind_eq_ok_iff.mp hcb
    obtain ⟨⟨w₂, send₂⟩, hsecond, hok⟩ := bind_eq_ok_iff.mp h
    cases hok
    have hemits₁ := cfgmgr_autoconf_radio_emits hfirst
    have hemits₂ := cfgmgr_autoconf_radio_emits hsecond
    exact hemits₁.trans hemits₂

theorem foldl_configure_calls (radios : List (Fin 2)) (w : process) :
    (radios.foldl process.configure w).calls = w.calls := by
  induction radios generalizing w with
  | nil => rfl
  | cons radio radios ih => exact ih (w.configure radio)

theorem cfgmgr_handle_packet_emits {pkt : List UInt8} (h : cfgmgr_handle_packet w pkt = ok w') :
    Emitted w.calls w'.calls := by
  rcases cfgmgr_handle_packet_cases h with ⟨_, rfl | hrenew⟩ | ⟨_, hwsc⟩ | ⟨i, _, rfl⟩
  · exact .refl _
  · obtain ⟨len, _, h⟩ := bind_eq_ok_iff.mp hrenew
    obtain ⟨band, _, h⟩ := bind_eq_ok_iff.mp h
    split at h
    · cases h
      exact .refl _
    · obtain ⟨dest, _, h⟩ := bind_eq_ok_iff.mp h
      obtain ⟨id, _, h⟩ := bind_eq_ok_iff.mp h
      exact cfgmgr_send_wsc_m1_emits h
  · rcases cfgmgr_handle_autoconfiguration_wsc_cases hwsc with
      ⟨m2buf, _, rfl⟩ | ⟨m2buf, radios, _, _, rfl⟩
    · exact .refl _
    · change Emitted w.calls (radios.foldl process.configure (w.setM2buf m2buf)).calls
      rw [foldl_configure_calls]
      exact .refl _
  · exact .refl _

theorem cfgmgr_handle_private_msg_calls {fromName toName data : List UInt8}
    (h : cfgmgr_handle_private_msg w fromName toName data = ok w') : w'.calls = w.calls := by
  rcases cfgmgr_handle_private_msg_cases h with
    ⟨_, rfl⟩ | ⟨_, _, _, _, _, _, _, _, _, rfl⟩ | ⟨_, rfl⟩
  · rfl
  · unfold process.backhaulReady
    split <;> split <;> rfl
  · rfl

/-- All that the process ever hands to the bus. -/
theorem step_emits {e : event} (h : Step w e w') : Emitted w.calls w'.calls := by
  cases e with
  | expire cur => exact expire_emits h
  | message cmd fromName toName data =>
    cases cmd with
    | MBUS_CMD_NONE | MBUS_CMD_HEARTBEAT =>
      cases h
      exact .refl _
    | MBUS_CMD_GROUP_MSG =>
      obtain ⟨isGroup, _, h⟩ := bind_eq_ok_iff.mp h
      split at h
      · exact cfgmgr_handle_packet_emits h
      · cases h
        exact .refl _
    | MBUS_CMD_PRIVATE_MSG =>
      rw [cfgmgr_handle_private_msg_calls h]
      exact .refl _

end Emitted

end easymesh.cfg_mgr
