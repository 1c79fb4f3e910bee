import Easymesh.CfgMgr.Cmdus

open Lib Lib.Result easymesh.tlv_parser easymesh.cmdu easymesh.minheap easymesh.mh_timer
open easymesh.bus_msg (MbusMsgCcmd)

namespace easymesh.cfg_mgr

/-- What happens to one radio. -/
inductive radio_input where
  | tick
  | controller_info
  | response
  | m2
  | reconfig
  deriving DecidableEq, Repr

/-- The automaton of a radio. -/
def radio_next : ConfigStatus → radio_input → ConfigStatus
  | .AUTOCONF_SEND_M1, .tick => .AUTOCONF_UNCONFIGURED
  | state, .tick => state
  | .AUTOCONF_CONFIGURED, .controller_info => .AUTOCONF_CONFIGURED
  | _, .controller_info => .AUTOCONF_BACKHAUL_READY
  | _, .response => .AUTOCONF_SEND_M1
  | _, .m2 => .AUTOCONF_CONFIGURED
  | _, .reconfig => .AUTOCONF_UNCONFIGURED

/-- What the device says to the others on the bus. -/
inductive output where
  | logs_in
  | creates_group
  | joins_group
  | asks_for_controller
  | searches (i : Fin 2)
  | offers_m1 (i : Fin 2)
  deriving DecidableEq, Repr

/-- What a radio says when its state machine ticks. -/
def radio_output (i : Fin 2) : ConfigStatus → Option output
  | .AUTOCONF_UNCONFIGURED => some .asks_for_controller
  | .AUTOCONF_BACKHAUL_READY => some (.searches i)
  | .AUTOCONF_SEND_M1 => some (.offers_m1 i)
  | .AUTOCONF_WAIT_M2 | .AUTOCONF_CONFIGURED => none

/-- What happens to the device. -/
inductive input where
  | nothing
  | registers
  | ticks
  | asked (r : request)
  | renewed (i : Fin 2)
  deriving DecidableEq, Repr

/-- What of it concerns a radio. -/
def input.for_radio (i : Fin 2) : input → Option radio_input
  | ticks => some .tick
  | asked .controller_info => some .controller_info
  | asked (.response j) => if i = j then some .response else none
  | asked (.m2 radios) => if radios.contains i then some .m2 else none
  | asked .reconfig => some .reconfig
  | nothing | registers | asked .nothing | renewed _ => none

/-- The radios go on independently of each other. -/
def input.next (a : input) (states : Fin 2 → ConfigStatus) (i : Fin 2) : ConfigStatus :=
  (a.for_radio i).elim (states i) (radio_next (states i))

/-- What the device says: in a tick what its radios do, and only once what both say. -/
def input.outputs (states : Fin 2 → ConfigStatus) : input → List output
  | registers => [.logs_in, .creates_group, .joins_group]
  | ticks => ((List.finRange 2).flatMap fun i => (radio_output i (states i)).toList).dedup
  | renewed i => [.offers_m1 i]
  | nothing | asked _ => []

/-- The two radios and what the device has said so far. -/
structure automaton where
  states : Fin 2 → ConfigStatus
  said : List output

def automaton.start : automaton := ⟨fun _ => .AUTOCONF_UNCONFIGURED, []⟩

def automaton.exec (d : automaton) (a : input) : automaton :=
  ⟨a.next d.states, d.said ++ a.outputs d.states⟩

/-- A call to the bus says this. -/
def Shows : output → mbus_call → Prop
  | .logs_in, c => c = .register_object g_cfgmgr_user_name
  | .creates_group, c => c = .create_group g_mesh_group_name
  | .joins_group, c => c = .join_group g_mesh_group_name
  | .asks_for_controller, c => c = .sendmsg_private g_cfgmgr_user_name g_mesh_user_name
      (bytesU16 MESH_MSGCMD_CONTROLLER_INFO_REQ)
  | .searches i, c => ∃ pkt, c = .sendmsg_in_group g_cfgmgr_user_name g_mesh_group_name pkt ∧
      Searches i pkt
  | .offers_m1 i, c => ∃ pkt, c = .sendmsg_in_group g_cfgmgr_user_name g_mesh_group_name pkt ∧
      OffersM1 i pkt

/-- The radio of the band in a CMDU of the type from the group. -/
def event.band_of (type : UInt16) : event → Option (Fin 2)
  | .message .MBUS_CMD_GROUP_MSG _ toName data =>
    if strcmp_eq toName g_mesh_group_name = ok true ∧ ntohs <$> msg_type (packet data) = ok type then
      match packet_len data >>= cfgmgr_parse_freq_band (packet data) with
      | ok freq_band => if freq_band < 0 then none else some (radio_of_band freq_band)
      | _ => none
    else none
  | _ => none

/-- The radio that a renew asks for an M1 for. -/
def event.renewed : event → Option (Fin 2) := event.band_of MSG_AP_AUTOCONFIGURATION_RENEW

/-- What an event is to the device. -/
def process.input (w : process) : event → input
  | .expire cur =>
    match expire_next w.timer cur with
    | none => .nothing
    | some (te, timer) =>
      match (timer.heap.entry te).handler with
      | .cfgmgr_regmsg_timer_cb => .registers
      | .cfgmgr_autoconf_search_timer_cb => .ticks
  | .message cmd fromName toName data =>
    match event.renewed (.message cmd fromName toName data) with
    | some i => .renewed i
    | none => .asked ((w.request_of (.message cmd fromName toName data)).getD .nothing)

/-- What the events of a run are to the device. -/
def run_inputs : process → List (event × process) → List input
  | _, [] => []
  | w, (e, w') :: tr => w.input e :: run_inputs w' tr

/-- The process has done what the automaton does. -/
structure Moves (w : process) (a : input) (w' : process) : Prop where
  states : w'.conf_state = a.next w.conf_state
  calls : ∃ new, w'.calls = w.calls ++ new ∧ List.Forall₂ Shows (a.outputs w.conf_state) new
  bands : ∀ i, (w'.cfgmgr.radios i).auto_conf_band = (w.cfgmgr.radios i).auto_conf_band

/-- The process is where the automaton is, and has said what it has said. -/
structure Refines (w : process) (d : automaton) : Prop where
  states : w.conf_state = d.states
  calls : List.Forall₂ Shows d.said w.calls
  bands : ∀ i, (w.cfgmgr.radios i).auto_conf_band = UInt8.ofNat i

section Ticks

variable {w w' : process} {i : Fin 2}

/-- The bands that the radios were set up with. -/
def process.bands (w : process) (i : Fin 2) : UInt8 := (w.cfgmgr.radios i).auto_conf_band

theorem setState_bands (w : process) (i : Fin 2) (state : ConfigStatus) :
    (w.setState i state).bands = w.bands := by
  funext j
  by_cases hj : j = i
  · subst hj
    simp [process.bands, process.setState]
  · simp [process.bands, process.setState, hj]

theorem OnlySent.bands (h : OnlySent w w') : w'.bands = w.bands := by
  funext j
  rw [process.bands, h.radios, process.bands]

/-- What a turn of the loop says for its radio, when the question was asked or not. -/
def radio_said (i : Fin 2) (state : ConfigStatus) (find_controller_msg_send : Bool) : List output :=
  if find_controller_msg_send ∧ state = .AUTOCONF_UNCONFIGURED then []
  else (radio_output i state).toList

/-- The turns say what the radios do, and nothing twice. -/
theorem radio_said_both (states : Fin 2 → ConfigStatus) :
    radio_said 0 (states 0) false ++
        radio_said 1 (states 1) (decide (states 0 = .AUTOCONF_UNCONFIGURED)) =
      input.ticks.outputs states := by
  have hlist : (List.finRange 2).flatMap (fun i => (radio_output i (states i)).toList) =
      (radio_output 0 (states 0)).toList ++ ((radio_output 1 (states 1)).toList ++ []) := rfl
  rw [input.outputs, hlist]
  generalize states 0 = s₀, states 1 = s₁
  cases s₀ <;> cases s₁ <;> rfl

theorem cfgmgr_autoconf_radio_says {send send' : Bool} (hband : w.bands i = UInt8.ofNat i)
    (h : cfgmgr_autoconf_radio i w send = ok (w', send')) :
    w'.bands = w.bands ∧ send' = (send || decide (w.conf_state i = .AUTOCONF_UNCONFIGURED)) ∧
      ∃ new, w'.calls = w.calls ++ new ∧
        List.Forall₂ Shows (radio_said i (w.conf_state i) send) new := by
  unfold cfgmgr_autoconf_radio at h
  dsimp only at h
  split at h
  · rename_i hstate
    rw [hstate]
    split at h
    · rename_i hsend
      cases h
      subst hsend
      exact ⟨rfl, rfl, [], (List.append_nil _).symm, .nil⟩
    · rename_i hsend
      cases h
      obtain rfl := Bool.eq_false_of_not_eq_true hsend
      exact ⟨rfl, rfl, [_], rfl, .cons rfl .nil⟩
  · rename_i hstate
    rw [hstate]
    obtain ⟨w₁, hsend, hok⟩ := bind_eq_ok_iff.mp h
    cases hok
    have hsame := (cfgmgr_send_autoconfiguration_search_onlySent hsend).bands
    obtain ⟨pkt, rfl, hsearches⟩ := cfgmgr_send_autoconfiguration_search_searches hband hsend
    refine ⟨hsame, (Bool.or_false send).symm, [_], rfl, ?_⟩
    rw [radio_said, if_neg fun hasked => absurd hasked.2 (by decide)]
    exact .cons ⟨pkt, rfl, hsearches⟩ .nil
  · rename_i hstate
    rw [hstate]
    obtain ⟨w₁, hsend, hok⟩ := bind_eq_ok_iff.mp h
    cases hok
    have hsame := (cfgmgr_send_wsc_m1_onlySent hsend).bands
    have hradio : ((w.cfgmgr.radios i).auto_conf_band.toNat : Int) = (i : Nat) := by
      change ((w.bands i).toNat : Int) = _
      rw [hband]
      fin_cases i
      · rfl
      · rfl
    rw [hradio] at hsend
    obtain ⟨pkt, rfl, hoffers⟩ := cfgmgr_send_wsc_m1_offers hsend
    refine ⟨(setState_bands _ _ _).trans hsame, (Bool.or_false send).symm, [_], rfl, ?_⟩
    rw [radio_said, if_neg fun hasked => absurd hasked.2 (by decide)]
    exact .cons ⟨pkt, rfl, hoffers⟩ .nil
  · rename_i hstate
    rw [hstate]
    cases h
    refine ⟨rfl, (Bool.or_false send).symm, [], (List.append_nil _).symm, ?_⟩
    rw [radio_said, if_neg fun hasked => absurd hasked.2 (by decide)]
    exact .nil
  · rename_i hstate
    rw [hstate]
    cases h
    refine ⟨rfl, (Bool.or_false send).symm, [], (List.append_nil _).symm, ?_⟩
    rw [radio_said, if_neg fun hasked => absurd hasked.2 (by decide)]
    exact .nil

theorem radio_next_tick (state : ConfigStatus) : radio_next state .tick = afterTick state := by
  cases state <;> rfl

theorem cfgmgr_autoconf_search_timer_cb_moves {te : Ptr} (hbands : ∀ i, w.bands i = UInt8.ofNat i)
    (h : cfgmgr_autoconf_search_timer_cb te w = ok w') : Moves w .ticks w' := by
  have hstates := (cfgmgr_autoconf_search_timer_cb_spec h).1.states
  obtain ⟨⟨w₁, send₁⟩, hfirst, h⟩ := bind_eq_ok_iff.mp h
  obtain ⟨⟨w₂, send₂⟩, hsecond, hok⟩ := bind_eq_ok_iff.mp h
  cases hok
  obtain ⟨hbands₁, rfl, new₁, hcalls₁, hshows₁⟩ := cfgmgr_autoconf_radio_says (hbands 0) hfirst
  have hband : w₁.bands 1 = UInt8.ofNat (1 : Fin 2) := by
    rw [hbands₁]
    exact hbands 1
  obtain ⟨hbands₂, -, new₂, hcalls₂, hshows₂⟩ := cfgmgr_autoconf_radio_says hband hsecond
  have hother : w₁.conf_state 1 = w.conf_state 1 := by
    rw [(cfgmgr_autoconf_radio_spec hfirst).1]
    rfl
  rw [hother, Bool.false_or] at hshows₂
  refine ⟨?_, ⟨new₁ ++ new₂, ?_, ?_⟩, ?_⟩
  · rw [hstates]
    funext i
    exact (radio_next_tick _).symm
  · change w₂.calls = _
    rw [hcalls₂, hcalls₁, List.append_assoc]
  · rw [← radio_said_both]
    exact List.rel_append hshows₁ hshows₂
  · intro i
    exact congrFun (hbands₂.trans hbands₁) i

theorem expire_moves {cur : Nat} (hbands : ∀ i, w.bands i = UInt8.ofNat i)
    (h : w.exec (.expire cur) = ok w') : Moves w (w.input (.expire cur)) w' := by
  rw [process.input]
  rcases expire_cases h with ⟨hnone, rfl⟩ | ⟨te, timer, hdue, ⟨hhandler, rfl⟩ | ⟨hhandler, hcb⟩⟩
  · rw [hnone]
    exact ⟨rfl, ⟨[], (List.append_nil _).symm, .nil⟩, fun _ => rfl⟩
  · rw [hdue]
    dsimp only
    rw [hhandler]
    refine ⟨rfl, ⟨[.register_object g_cfgmgr_user_name, .create_group g_mesh_group_name,
      .join_group g_mesh_group_name], ?_, .cons rfl (.cons rfl (.cons rfl .nil))⟩, fun _ => rfl⟩
    simp only [cfgmgr_regmsg_timer_cb, process.call, List.append_assoc]
    rfl
  · rw [hdue]
    dsimp only
    rw [hhandler]
    have hmoves : Moves { w with timer } .ticks w' :=
      cfgmgr_autoconf_search_timer_cb_moves hbands hcb
    exact ⟨hmoves.states, hmoves.calls, hmoves.bands⟩

end Ticks

section Messages

variable {w w' : process} {cmd : MbusMsgCcmd} {fromName toName data : List UInt8}

theorem request_next (r : request) (states : Fin 2 → ConfigStatus) :
    (input.asked r).next states = r.states states := by
  funext i
  cases r with
  | nothing => rfl
  | controller_info =>
    change radio_next (states i) .controller_info = if states i = _ then _ else _
    cases states i <;> rfl
  | response j =>
    rw [input.next, input.for_radio, request.states]
    by_cases hi : i = j
    · subst hi
      rw [if_pos rfl, Function.update_self]
      cases states i <;> rfl
    · rw [if_neg hi, Function.update_of_ne hi]
      rfl
  | m2 radios =>
    change (if radios.contains i then some radio_input.m2 else none).elim (states i)
      (radio_next (states i)) = if i ∈ radios then ConfigStatus.AUTOCONF_CONFIGURED else states i
    by_cases hi : i ∈ radios
    · rw [if_pos (List.contains_iff_mem.mpr hi), if_pos hi]
      cases states i <;> rfl
    · rw [if_neg fun hin => hi (List.contains_iff_mem.mp hin), if_neg hi]
      rfl
  | reconfig =>
    change radio_next (states i) .reconfig = _
    cases states i <;> rfl

/-- A band is the index of a radio. -/
theorem cfgmgr_parse_freq_band_cases {msg : List UInt8} {len band : Int}
    (h : cfgmgr_parse_freq_band msg len = ok band) :
    band < 0 ∨ band = (radio_of_band band : Nat) := by
  obtain ⟨object, -, h⟩ := bind_eq_ok_iff.mp h
  cases object with
  | none =>
    cases h
    exact .inl (by decide)
  | some pstRenew =>
    dsimp only at h
    cases hitem : Kami_Tlv_GetObjectItem pstRenew 0x10 0 with
    | none =>
      rw [hitem] at h
      cases h
      exact .inl (by decide)
    | some pstFreqBand =>
      rw [hitem] at h
      obtain ⟨value, -, h⟩ := bind_eq_ok_iff.mp h
      split at h
      · cases h
        exact .inr rfl
      · split at h
        · cases h
          exact .inr rfl
        · cases h
          exact .inl (by decide)

/-- A renew is answered with an M1, if it names a band. -/
theorem cfgmgr_handle_autoconfiguration_renew_moves (fromName : List UInt8)
    (hto : strcmp_eq toName g_mesh_group_name = ok true)
    (hrenew : ntohs <$> msg_type (packet data) = ok MSG_AP_AUTOCONFIGURATION_RENEW)
    (h : cfgmgr_handle_autoconfiguration_renew w data = ok w') :
    match event.renewed (.message .MBUS_CMD_GROUP_MSG fromName toName data) with
    | some i => ∃ pkt, w' = w.call (.sendmsg_in_group g_cfgmgr_user_name g_mesh_group_name pkt) ∧
        OffersM1 i pkt
    | none => w' = w := by
  obtain ⟨len, hlen, h⟩ := bind_eq_ok_iff.mp h
  obtain ⟨band, hband, h⟩ := bind_eq_ok_iff.mp h
  have hparsed : cfgmgr_parse_freq_band (packet data) len = ok band := hband
  rw [event.renewed, event.band_of, if_pos ⟨hto, hrenew⟩, hlen, ok_bind, hparsed]
  dsimp only
  by_cases hneg : band < 0
  · rw [if_pos hneg] at h ⊢
    cases h
    rfl
  · rw [if_neg hneg] at h ⊢
    obtain ⟨dest, -, h⟩ := bind_eq_ok_iff.mp h
    obtain ⟨id, -, h⟩ := bind_eq_ok_iff.mp h
    have hradio := (cfgmgr_parse_freq_band_cases hband).resolve_left hneg
    rw [hradio] at h
    exact cfgmgr_send_wsc_m1_offers h

theorem foldl_configure_bands (radios : List (Fin 2)) (w : process) :
    (radios.foldl process.configure w).bands = w.bands := by
  induction radios generalizing w with
  | nil => rfl
  | cons radio radios ih => exact (ih (w.configure radio)).trans (setState_bands w radio _)

theorem backhaulReady_bands (w : process) (i : Fin 2) : (w.backhaulReady i).bands = w.bands := by
  unfold process.backhaulReady
  split
  · exact setState_bands w i _
  · rfl

theorem cfgmgr_handle_private_msg_bands
    (h : cfgmgr_handle_private_msg w fromName toName data = ok w') : w'.bands = w.bands := by
  rcases cfgmgr_handle_private_msg_cases h with
    ⟨-, rfl⟩ | ⟨-, almac, local_almac, ifaddr, ifname, -, -, -, -, rfl⟩ | ⟨-, rfl⟩
  · rfl
  · change ((process.backhaulReady _ 0).backhaulReady 1).bands = _
    rw [backhaulReady_bands, backhaulReady_bands]
    rfl
  · change ((w.setState 0 _).setState 1 _).bands = _
    rw [setState_bands, setState_bands]

theorem cfgmgr_handle_autoconfiguration_response_quiet
    (h : cfgmgr_handle_autoconfiguration_response w data = ok w') :
    w'.calls = w.calls ∧ w'.bands = w.bands := by
  obtain ⟨len, -, h⟩ := bind_eq_ok_iff.mp h
  obtain ⟨band, -, h⟩ := bind_eq_ok_iff.mp h
  split at h
  · cases h
    exact ⟨rfl, rfl⟩
  · cases h
    exact ⟨rfl, setState_bands w _ _⟩

theorem cfgmgr_handle_autoconfiguration_wsc_quiet
    (h : cfgmgr_handle_autoconfiguration_wsc w data = ok w') :
    w'.calls = w.calls ∧ w'.bands = w.bands := by
  rcases cfgmgr_handle_autoconfiguration_wsc_cases h with
    ⟨m2buf, -, rfl⟩ | ⟨m2buf, radios, -, -, rfl⟩
  · exact ⟨rfl, rfl⟩
  · exact ⟨foldl_configure_calls radios (w.setM2buf m2buf),
      foldl_configure_bands radios (w.setM2buf m2buf)⟩

/-- Of all packets a renew alone makes the device say something. -/
theorem cfgmgr_handle_packet_quiet
    (hother : ntohs <$> msg_type (packet data) ≠ ok MSG_AP_AUTOCONFIGURATION_RENEW)
    (h : cfgmgr_handle_packet w data = ok w') : w'.calls = w.calls ∧ w'.bands = w.bands := by
  obtain ⟨pktFrom, -, h⟩ := bind_eq_ok_iff.mp h
  obtain ⟨type, htype, h⟩ := bind_eq_ok_iff.mp h
  have hrenew : type ≠ MSG_AP_AUTOCONFIGURATION_RENEW := by
    rintro rfl
    exact hother htype
  rw [if_neg hrenew] at h
  split at h
  · cases h
    exact ⟨rfl, rfl⟩
  · split at h
    · exact cfgmgr_handle_autoconfiguration_wsc_quiet h
    · split at h
      · exact cfgmgr_handle_autoconfiguration_response_quiet h
      · cases h
        exact ⟨rfl, rfl⟩

theorem cfgmgr_handle_packet_renew
    (hrenew : ntohs <$> msg_type (packet data) = ok MSG_AP_AUTOCONFIGURATION_RENEW)
    (h : cfgmgr_handle_packet w data = ok w') :
    cfgmgr_handle_autoconfiguration_renew w data = ok w' := by
  obtain ⟨pktFrom, -, h⟩ := bind_eq_ok_iff.mp h
  rw [hrenew, ok_bind, if_neg fun hlocal => absurd hlocal.2 (by decide), if_pos rfl] at h
  exact h

/-- What is asked of the radios is done, and nothing is said. -/
theorem moves_asked {e : event} {r : request} (hr : w.request_of e = ok r)
    (hstates : w'.conf_state = r.states w.conf_state) (hcalls : w'.calls = w.calls)
    (hbands : w'.bands = w.bands) : Moves w (.asked ((w.request_of e).getD .nothing)) w' := by
  rw [hr, Result.getD_ok]
  refine ⟨hstates.trans (request_next r _).symm, ⟨[], ?_, .nil⟩, congrFun hbands⟩
  exact hcalls.trans (List.append_nil _).symm

theorem message_moves (h : w.exec (.message cmd fromName toName data) = ok w') :
    Moves w (w.input (.message cmd fromName toName data)) w' := by
  obtain ⟨r, hr, hserved⟩ := cfgmgr_handle_msg_served h
  have hasked : w'.calls = w.calls → w'.bands = w.bands →
      Moves w (.asked ((w.request_of (.message cmd fromName toName data)).getD .nothing)) w' :=
    moves_asked hr hserved.states
  cases cmd with
  | MBUS_CMD_NONE | MBUS_CMD_HEARTBEAT =>
    cases h
    exact hasked rfl rfl
  | MBUS_CMD_PRIVATE_MSG =>
    exact hasked (cfgmgr_handle_private_msg_calls h) (cfgmgr_handle_private_msg_bands h)
  | MBUS_CMD_GROUP_MSG =>
    obtain ⟨isGroup, hto, h⟩ := bind_eq_ok_iff.mp h
    by_cases hrenew : strcmp_eq toName g_mesh_group_name = ok true ∧
        ntohs <$> msg_type (packet data) = ok MSG_AP_AUTOCONFIGURATION_RENEW
    · cases hto.symm.trans hrenew.1
      have hhandle := cfgmgr_handle_packet_renew hrenew.2 h
      have hmoves := cfgmgr_handle_autoconfiguration_renew_moves fromName hrenew.1 hrenew.2 hhandle
      rw [process.input]
      cases hband : event.renewed (.message .MBUS_CMD_GROUP_MSG fromName toName data) with
      | none =>
        rw [hband] at hmoves
        subst hmoves
        exact hasked rfl rfl
      | some i =>
        rw [hband] at hmoves
        obtain ⟨pkt, rfl, hoffers⟩ := hmoves
        exact ⟨rfl, ⟨_, rfl, .cons ⟨pkt, rfl, hoffers⟩ .nil⟩, fun _ => rfl⟩
    · have hnone : event.renewed (.message .MBUS_CMD_GROUP_MSG fromName toName data) = none :=
        if_neg hrenew
      rw [process.input, hnone]
      cases isGroup with
      | false =>
        cases h
        exact hasked rfl rfl
      | true =>
        obtain ⟨hcalls, hbands⟩ := cfgmgr_handle_packet_quiet (fun htype => hrenew ⟨hto, htype⟩) h
        exact hasked hcalls hbands

end Messages

section Runs

variable {w w' : process} {d : automaton} {e : event}

/-- The process does in every step what the automaton does. -/
theorem step_moves (hbands : ∀ i, w.bands i = UInt8.ofNat i) (h : Step w e w') :
    Moves w (w.input e) w' := by
  cases e with
  | expire cur => exact expire_moves hbands h
  | message cmd fromName toName data => exact message_moves h

theorem Refines.step (href : Refines w d) (h : Step w e w') : Refines w' (d.exec (w.input e)) := by
  obtain ⟨hstates, ⟨new, hnew, hshows⟩, hbands⟩ := step_moves href.bands h
  rw [href.states] at hstates hshows
  refine ⟨hstates, ?_, fun i => (hbands i).trans (href.bands i)⟩
  rw [hnew]
  exact List.rel_append href.calls hshows

theorem refines_start (clock : Nat → Nat) (uninit : Nat → UInt8) :
    Refines (cfgmgr_main clock uninit) automaton.start := by
  refine ⟨rfl, .nil, fun i => ?_⟩
  fin_cases i
  · rfl
  · rfl

theorem Refines.run {tr : List (event × process)} (href : Refines w d) (hrun : Run Step w tr) :
    List.Forall₂ (fun x y => Refines x.2 y.2) tr (trace automaton.exec d (run_inputs w tr)) := by
  induction hrun generalizing d with
  | nil w => exact .nil
  | cons htake _ ih =>
    have hnext := href.step htake
    exact .cons hnext (ih hnext)

theorem Refines.endState {tr : List (event × process)} (href : Refines w d) (hrun : Run Step w tr) :
    Refines (Lib.endState w tr) (Lib.endState d (trace automaton.exec d (run_inputs w tr))) := by
  induction hrun generalizing d with
  | nil w => exact href
  | cons htake _ ih => exact ih (href.step htake)

/-- In every run the process is after each event where the automaton is, and has said on
the bus what the automaton has said. -/
theorem process_refines_automaton (clock : Nat → Nat) (uninit : Nat → UInt8)
    {tr : List (event × process)} (hrun : Run Step (cfgmgr_main clock uninit) tr) :
    List.Forall₂ (fun x y => Refines x.2 y.2) tr
      (trace automaton.exec automaton.start (run_inputs (cfgmgr_main clock uninit) tr)) :=
  (refines_start clock uninit).run hrun

/-- A device that has seen a response and two turns of its timers has registered and has
offered the M1 that was asked for. -/
theorem process_refines_automaton_once :
    Run Step started (runOf response_at_start) ∧
      List.Forall₂ (fun x y => Refines x.2 y.2) (runOf response_at_start)
        (trace automaton.exec automaton.start (run_inputs started (runOf response_at_start))) ∧
      (endState automaton.start (trace automaton.exec automaton.start
        (run_inputs started (runOf response_at_start)))).said =
          [.logs_in, .creates_group, .joins_group, .offers_m1 0, .asks_for_controller] := by
  have h : Enabled (fun w e => (process.exec w e).Returns) (fun w e => (w.exec e).getD w) started
        response_at_start ∧
      (endState automaton.start (trace automaton.exec automaton.start
        (run_inputs started (runOf response_at_start)))).said =
          [.logs_in, .creates_group, .joins_group, .offers_m1 0, .asks_for_controller] := by
    decide +kernel
  have hrun : Run Step started (runOf response_at_start) := run_trace_returning h.1
  exact ⟨hrun, process_refines_automaton _ _ hrun, h.2⟩

/-- What a call hands to the group reads back. -/
def ReadsBack : mbus_call → Prop
  | .sendmsg_in_group _ _ pkt => ∃ i, SearchRead i pkt ∨ M1Read i pkt
  | _ => True

theorem Shows.reads_back {o : output} {c : mbus_call} (h : Shows o c) : ReadsBack c := by
  cases o with
  | logs_in | creates_group | joins_group | asks_for_controller =>
    cases h
    exact trivial
  | searches i =>
    obtain ⟨pkt, rfl, hsearches⟩ := h
    exact ⟨i, .inl hsearches.read⟩
  | offers_m1 i =>
    obtain ⟨pkt, rfl, hoffers⟩ := h
    exact ⟨i, .inr hoffers.read⟩

/-- Every CMDU that the process ever hands to the group reads back as what it was made
for: a search for a band with the address it comes from, or an M1 for one radio with all
its attributes. -/
theorem group_cmdus_read_back (clock : Nat → Nat) (uninit : Nat → UInt8)
    {tr : List (event × process)} (hrun : Run Step (cfgmgr_main clock uninit) tr) :
    ∀ x ∈ tr, ∀ c ∈ x.2.calls, ReadsBack c := by
  have hstep : ∀ {w e w'}, (∃ d, Refines w d) → Step w e w' → ∃ d, Refines w' d :=
    fun ⟨d, href⟩ htake => ⟨_, href.step htake⟩
  have hstart : ∃ d, Refines (cfgmgr_main clock uninit) d := ⟨_, refines_start clock uninit⟩
  intro x hx
  obtain ⟨d, href⟩ := Run.invariant (J := fun w => ∃ d, Refines w d) hstep hstart hrun x hx
  have hcalls := href.calls.flip.imp fun c o hshows =>
    And.intro (Shows.reads_back hshows) hshows
  exact ((List.forall₂_and_left _ _).mp hcalls).1

theorem group_cmdus_read_back_once :
    Run Step started (runOf response_at_start) ∧
      ∀ x ∈ runOf response_at_start, ∀ c ∈ x.2.calls, ReadsBack c := by
  have hrun : Run Step started (runOf response_at_start) := run_trace_returning (by decide +kernel)
  exact ⟨hrun, group_cmdus_read_back _ _ hrun⟩

end Runs

end easymesh.cfg_mgr
