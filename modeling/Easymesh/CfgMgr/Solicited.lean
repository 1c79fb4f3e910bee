import Easymesh.CfgMgr.Collect
import Easymesh.CfgMgr.Controller

open Lib Lib.Result easymesh.cmdu easymesh.tlv_parser

namespace easymesh.cfg_mgr

/-- Of the message types the device knows only its own, so what answers it is not
an M1, and it repeats the device's nonce. -/
def answers_m1 (pstWscObj : KamiTlv_S) : Bool :=
  (Kami_Tlv_GetObjectItem pstWscObj 0x101a 0).any (fun nonce => nonce.value = wsc.enrollee_nonce) &&
    (Kami_Tlv_GetObjectItem pstWscObj 0x1022 0).any
      (fun msg_type => msg_type.value ≠ [wsc.WSC_MSG_TYPE_M1])

/-- The WSC TLV is for radio `i` and answers an M1 of the device. -/
def wsc_answers (i : Fin 2) (pstWsc : KamiTlv_S) : Bool :=
  wsc_radio pstWsc = ok (some (some i)) &&
    match Kami_Tlv_ParseObject pstWsc.value pstWsc.length.toNat 2 with
    | ok (some pstWscObj) => answers_m1 pstWscObj
    | _ => false

/-- A WSC TLV of the message in `m2buf` answers an M1 of the device for radio `i`. -/
def m2_answers (m2buf : GrowBuffer) (len : Int) (i : Fin 2) : Bool :=
  match Kami_Tlv_ParseObject (tlvs m2buf.buffer) (wrap32 (len - sizeof_cmdu_raw_msg)) 1 with
  | ok (some pstM2) => pstM2.child.any fun pstWsc =>
      pstWsc.type = wsc.TLV_TYPE_WSC && wsc_answers i pstWsc
  | _ => false

/-- The radios that a CMDU handed to the group is an M1 for. -/
def m1_radios (c : mbus_call) : List (Fin 2) :=
  match c.cmdu with
  | none => []
  | some pkt =>
    if ntohs <$> msg_type (packet pkt) = ok MSG_AP_AUTOCONFIGURATION_WSC then
      (packet_len pkt >>= fun len =>
        m2_radios (tlvs (packet pkt)) (wrap32 (len - sizeof_cmdu_raw_msg))).getD []
    else []

/-- The radios for which an M1 was sent since the start or the last `reconfig`. -/
def asked (sent : List (Fin 2)) (w : process) (e : event) (w' : process) : List (Fin 2) :=
  if e.IsReconfig then [] else sent ++ (w'.calls.drop w.calls.length).flatMap m1_radios

/-- The radios that the message of `len` bytes in `m2buf` names. -/
def m2_named (m2buf : GrowBuffer) (len : Int) : List (Fin 2) :=
  match m2_request m2buf len with
  | ok (.m2 radios) => radios
  | _ => []

/-- A radio that the step configures is configured by a complete WSC message from
the network that answers an M1 sent for it. -/
def EntersAnswered (sent : List (Fin 2)) (w : process) (e : event) (w' : process) : Prop :=
  ∀ i, w.conf_state i ≠ .AUTOCONF_CONFIGURED → w'.conf_state i = .AUTOCONF_CONFIGURED →
    ∃ m2buf ∈ w.completes e, i ∈ sent ∧ m2_answers m2buf (wrap32 m2buf.offset) i

/-- A complete WSC message names a radio that is not configured only in answer to
an M1 sent for it. -/
def OnlyAnswers (sent : List (Fin 2)) (w : process) (e : event) (_ : process) : Prop :=
  ∀ m2buf ∈ w.completes e, ∀ i ∈ m2_named m2buf (wrap32 m2buf.offset),
    w.conf_state i ≠ .AUTOCONF_CONFIGURED → i ∈ sent ∧ m2_answers m2buf (wrap32 m2buf.offset) i

instance (sent : List (Fin 2)) (w : process) (e : event) (w' : process) :
    Decidable (EntersAnswered sent w e w') := inferInstanceAs (Decidable (∀ _, _ → _ → _))

instance (sent : List (Fin 2)) (w : process) (e : event) (w' : process) :
    Decidable (OnlyAnswers sent w e w') := inferInstanceAs (Decidable (∀ _ ∈ _, _))

/-- Only a complete WSC message asks to configure radios. -/
theorem request_of_m2 {w : process} {e : event} {radios : List (Fin 2)}
    (h : w.request_of e = ok (.m2 radios)) :
    ∃ m2buf ∈ w.completes e, m2_request m2buf (wrap32 m2buf.offset) = ok (.m2 radios) := by
  cases e with
  | expire cur => cases h
  | message cmd fromName toName data =>
    cases cmd with
    | MBUS_CMD_NONE => cases h
    | MBUS_CMD_HEARTBEAT => cases h
    | MBUS_CMD_PRIVATE_MSG =>
      rcases private_request_cases h with hr | hr | ⟨hr, _⟩
      · cases hr
      · cases hr
      · cases hr
    | MBUS_CMD_GROUP_MSG =>
      obtain ⟨isGroup, hto, h⟩ := bind_eq_ok_iff.mp h
      cases isGroup with
      | false => cases h
      | true =>
        obtain ⟨hpkt, m2buf, hcollect, hradios⟩ := packet_request_m2 h
        exact ⟨m2buf, completes_iff.mpr ⟨data, wsc_packet_group hto hpkt, hcollect⟩, hradios⟩

/-- What a complete WSC message asks for. -/
theorem request_of_completes {w : process} {e : event} {m2buf : GrowBuffer}
    (h : m2buf ∈ w.completes e) :
    w.request_of e = m2_request m2buf (wrap32 m2buf.offset) := by
  obtain ⟨pkt, hwsc, hcollect⟩ := completes_iff.mp h
  obtain ⟨hpkt, fromName, toName, rfl, hto⟩ := event_of_wsc_packet hwsc
  rw [process.request_of, message_request, hto, ok_bind, if_pos rfl,
    packet_request_wsc hpkt hcollect, if_pos rfl]

theorem mem_m2_named {m2buf : GrowBuffer} {len : Int} {i : Fin 2} :
    i ∈ m2_named m2buf len ↔ ∃ radios, m2_request m2buf len = ok (.m2 radios) ∧ i ∈ radios := by
  rw [m2_named]
  split
  · rename_i radios hradios
    rw [hradios]
    simp
  · rename_i hother
    constructor
    · nofun
    · rintro ⟨radios, hradios, _⟩
      exact absurd hradios (hother radios)

theorem entersAnswered_iff {sent : List (Fin 2)} {w w' : process} {e : event} (h : Step w e w') :
    EntersAnswered sent w e w' ↔ OnlyAnswers sent w e w' := by
  constructor
  · intro henters m2buf hm2buf i hi hconf
    obtain ⟨radios, hradios, hi⟩ := mem_m2_named.mp hi
    have hr := (request_of_completes hm2buf).trans hradios
    have hentered : w'.conf_state i = .AUTOCONF_CONFIGURED := by
      rcases step_states h with ⟨r, hr', hstates⟩ | ⟨hr', _⟩
      · cases hr.symm.trans hr'
        rw [hstates]
        exact if_pos hi
      · cases hr.symm.trans hr'
    obtain ⟨m2buf', hm2buf', hanswer⟩ := henters i hconf hentered
    cases hm2buf.symm.trans hm2buf'
    exact hanswer
  · intro honly i hconf hentered
    rcases step_states h with ⟨r, hr, hstates⟩ | ⟨_, hstates⟩
    · rw [hstates] at hentered
      cases r with
      | nothing => exact absurd hentered hconf
      | controller_info =>
        change (if w.conf_state i = _ then _ else _) = _ at hentered
        rw [if_neg hconf] at hentered
        cases hentered
      | response j =>
        by_cases hij : i = j
        · rw [request.states, hij, Function.update_self] at hentered
          cases hentered
        · rw [request.states, Function.update_of_ne hij] at hentered
          exact absurd hentered hconf
      | m2 radios =>
        obtain ⟨m2buf, hm2buf, hradios⟩ := request_of_m2 hr
        by_cases hi : i ∈ radios
        · exact ⟨m2buf, hm2buf, honly m2buf hm2buf i (mem_m2_named.mpr ⟨radios, hradios, hi⟩) hconf⟩
        · change (if i ∈ radios then _ else _) = _ at hentered
          rw [if_neg hi] at hentered
          exact absurd hentered hconf
      | reconfig => cases hentered
    · rw [hstates] at hentered
      exact absurd (afterTick_configured_iff.mp hentered) hconf

/-- In a run of the process, radios are configured only in answer to an M1 sent
since the start or the last `reconfig` exactly when all complete WSC messages
from the network are such answers for the radios they name. -/
theorem configured_only_by_answer_iff (clock : Nat → Nat) (uninit : Nat → UInt8)
    {tr : List (event × process)} (hrun : Run Step (cfgmgr_main clock uninit) tr) :
    AllRecorded asked EntersAnswered [] (cfgmgr_main clock uninit) tr ↔
      AllRecorded asked OnlyAnswers [] (cfgmgr_main clock uninit) tr := by
  apply Run.allRecorded_iff (J := fun _ _ => True) _ _ trivial hrun
  · exact fun _ h => entersAnswered_iff h
  · exact fun _ _ => trivial

/-- An M2 for the 2.4G radio that repeats the nonce of the device. -/
def answer_tlvs : List UInt8 :=
  [0x11, 0x00, 30, 0x10, 0x22, 0x00, 0x01, 0x05, 0x10, 0x1a, 0x00, 0x10] ++ wsc.enrollee_nonce ++
    [0x10, 0x3c, 0x00, 0x01, 0x01]

/-- A WSC message of the registrar, in two fragments. -/
def wsc_message (tlvs : List UInt8) : List event :=
  [group_message (network_packet false MSG_AP_AUTOCONFIGURATION_WSC 2 [0, 0, 0, 0, 0, 1] []),
    group_message (network_packet true MSG_AP_AUTOCONFIGURATION_WSC 2 [0, 0, 0, 0, 0, 1] tlvs)]

/-- A response makes the timer send an M1, and the answer to it arrives. -/
def m1_then_answer : List event := response_at_start ++ wsc_message answer_tlvs

theorem configured_only_by_answer_once :
    Run Step started (runOf m1_then_answer) ∧
      AllRecorded asked EntersAnswered [] started (runOf m1_then_answer) ∧
      (endState started (runOf m1_then_answer)).conf_state 0 = .AUTOCONF_CONFIGURED := by
  have h : Enabled (fun w e => (process.exec w e).Returns) (fun w e => (w.exec e).getD w) started
        m1_then_answer ∧
      AllRecorded asked OnlyAnswers [] started (runOf m1_then_answer) ∧
      (endState started (runOf m1_then_answer)).conf_state 0 = .AUTOCONF_CONFIGURED := by
    decide +kernel
  have hrun : Run Step started (runOf m1_then_answer) := run_trace_returning h.1
  exact ⟨hrun, (configured_only_by_answer_iff _ _ hrun).mpr h.2.1, h.2.2⟩

/-- An M2 that nothing asked for configures a radio. -/
theorem unsolicited_m2_configures :
    Run Step started (runOf (wsc_message m2_tlvs)) ∧
      ¬ AllRecorded asked EntersAnswered [] started (runOf (wsc_message m2_tlvs)) :=
  ⟨run_trace_returning (by decide +kernel), by decide +kernel⟩

end easymesh.cfg_mgr
