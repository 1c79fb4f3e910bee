import Easymesh.CfgMgr.State
import Easymesh.Mbus.BusMsg

open Lib Lib.Result easymesh.tlv_parser easymesh.cmdu easymesh.minheap easymesh.mh_timer
open easymesh.bus_msg (MbusMsgCcmd)

namespace easymesh.cfg_mgr

def SUP_FREQ_BAND_24G : Int := 0x00

def SUP_FREQ_BAND_5G : Int := 0x01

/-- The band in the first TLV of type 0x10 of a renew or a response, or -1.
`msg` is the memory from the CMDU header on. -/
def cfgmgr_parse_freq_band (msg : List UInt8) (len : Int) : Result Int := do
  match ← Kami_Tlv_ParseObject (tlvs msg) (wrap32 (len - sizeof_cmdu_raw_msg)) 1 with
  | none => ok (-1)
  | some pstRenew =>
    match Kami_Tlv_GetObjectItem pstRenew 0x10 0 with
    | none => ok (-1)
    | some pstFreqBand => do
      let band ← readU8 pstFreqBand.value 0
      if band = 0x01 then ok SUP_FREQ_BAND_5G
      else if band = 0x00 then ok SUP_FREQ_BAND_24G
      else ok (-1)

def cfgmgr_parse_autoconfiguration_renew (msg : List UInt8) (len : Int) : Result Int :=
  cfgmgr_parse_freq_band msg len

def cfgmgr_parse_autoconfiguration_response (msg : List UInt8) (len : Int) : Result Int :=
  cfgmgr_parse_freq_band msg len

def cfgmgr_handle_autoconfiguration_renew (w : process) (pkt : List UInt8) : Result process := do
  let msg := packet pkt
  let len ← packet_len pkt
  let freq_band ← cfgmgr_parse_autoconfiguration_renew msg len
  if freq_band < 0 then ok w
  else do
    let dest ← src_addr msg
    let id ← msg_id msg
    cfgmgr_send_wsc_m1 w (pkt_aladdr pkt) (pkt_ifaddr pkt) (pkt_ifname pkt) dest (id.toNat + 1)
      freq_band

/-- The radio that a frequency band of 0 or 1 is the index of. -/
def radio_of_band (freq_band : Int) : Fin 2 := if freq_band = 0 then 0 else 1

def cfgmgr_handle_autoconfiguration_response (w : process) (pkt : List UInt8) : Result process := do
  let len ← packet_len pkt
  let freq_band ← cfgmgr_parse_autoconfiguration_response (packet pkt) len
  if freq_band < 0 then ok w
  else
    ok ((w.setState (radio_of_band freq_band) .AUTOCONF_SEND_M1).resetTimer
      w.cfgmgr.autoconf_fsm_tiemr 10)

/-- The radio that an RF band of an M2 configures. -/
def radio_of_rf_band (rf_band : UInt8) : Option (Fin 2) :=
  if rf_band = 0x02 then some 1
  else if rf_band = 0x01 then some 0
  else none

/-- The radio that one WSC TLV configures, if any: outer `none` leaves the loop. -/
def wsc_radio (pstWsc : KamiTlv_S) : Result (Option (Option (Fin 2))) := do
  match ← Kami_Tlv_ParseObject pstWsc.value pstWsc.length.toNat 2 with
  | none => ok none
  | some pstWscObj =>
    match Kami_Tlv_GetObjectItem pstWscObj wsc.DATA_ELEM_TYPE_RF_BANDS 0 with
    | none => ok (some none)
    | some pstRfBands => do
      let rf_band ← readU8 pstRfBands.value 0
      ok (some (radio_of_rf_band rf_band))

/-- `cfgmgr->radios[i].conf_state = AUTOCONF_CONFIGURED;` and the reset of the timer. -/
def process.configure (w : process) (i : Fin 2) : process :=
  (w.setState i .AUTOCONF_CONFIGURED).resetTimer w.cfgmgr.autoconf_fsm_tiemr 10

/-- The loop of `cfgmgr_parse_autoconfiguration_wsc` from item `i` on. -/
def cfgmgr_parse_autoconfiguration_wsc.loop (pstM2 : KamiTlv_S) :
    Nat → Nat → process → Result process
  | 0, _, _ => div
  | fuel + 1, i, w =>
    match Kami_Tlv_GetObjectItem pstM2 wsc.TLV_TYPE_WSC i with
    | none => ok w
    | some pstWsc => do
      match ← wsc_radio pstWsc with
      | none => ok w
      | some none => loop pstM2 fuel (i + 1) w
      | some (some radio) => loop pstM2 fuel (i + 1) (w.configure radio)

/-- `mem` is the memory from the TLVs on, and `iLength` the length given for it.
There are no more WSC TLVs than TLVs. -/
def cfgmgr_parse_wsc_tlvs (w : process) (mem : List UInt8) (iLength : Int) : Result process := do
  match ← Kami_Tlv_ParseObject mem iLength 1 with
  | none => ok w
  | some pstM2 => cfgmgr_parse_autoconfiguration_wsc.loop pstM2 (pstM2.child.length + 1) 0 w

def cfgmgr_parse_autoconfiguration_wsc (w : process) (msg : List UInt8) (len : Int) :
    Result process :=
  cfgmgr_parse_wsc_tlvs w (tlvs msg) (wrap32 (len - sizeof_cmdu_raw_msg))

/-- Room for `n` bytes of the packet in `m2buf`, and the copy; `none` when there is no room. -/
def m2buf_store (m2buf : GrowBuffer) (src : List UInt8) (n : Nat) : Result (Option GrowBuffer) :=
  match cfg_mgr_ensure_m2buf m2buf n with
  | none => ok none
  | some m2buf => do
    let bytes ← readBytes src 0 n
    some <$> m2buf.store bytes

/-- What `cfgmgr_handle_autoconfiguration_wsc` does before it parses: the packet
is stored, and `true` is returned when that completes the message. -/
def cfgmgr_collect_wsc (m2buf : GrowBuffer) (pkt : List UInt8) : Result (GrowBuffer × Bool) := do
  let msg := packet pkt
  let last ← Flags_last_fragment msg
  let len ← packet_len pkt
  if last then
    match ← m2buf_store m2buf (tlvs msg) (toSize (len - sizeof_cmdu_raw_msg)) with
    | none => ok (m2buf, false)
    | some m2buf => ok (m2buf, true)
  else if m2buf.offset = 0 then
    -- no header in buffer
    match ← m2buf_store m2buf msg (toSize len) with
    | none => ok (m2buf, false)
    | some m2buf => ok (m2buf, false)
  else
    match ← m2buf_store m2buf (tlvs msg) (toSize (len - sizeof_cmdu_raw_msg)) with
    | none => ok (m2buf, false)
    | some m2buf => ok (m2buf, false)

/-- What follows once `m2buf` holds a complete message of `len` bytes. -/
def cfgmgr_finish_wsc (w : process) (len : Int) : Result process := do
  let w ← cfgmgr_parse_autoconfiguration_wsc w w.cfgmgr.m2buf.buffer len
  -- clean buffer to handle next wsc msg
  ok (w.setM2buf { w.cfgmgr.m2buf with offset := 0 })

def cfgmgr_handle_autoconfiguration_wsc (w : process) (pkt : List UInt8) : Result process := do
  let collected ← cfgmgr_collect_wsc w.cfgmgr.m2buf pkt
  let w := w.setM2buf collected.1
  if collected.2 then cfgmgr_finish_wsc w (wrap32 w.cfgmgr.m2buf.offset) else ok w

def cfgmgr_handle_packet (w : process) (pkt : List UInt8) : Result process := do
  let pktFrom ← packet_from pkt
  let type ← ntohs <$> msg_type (packet pkt)
  if pktFrom = PKT_LOCAL ∧ type = MSG_AP_AUTOCONFIGURATION_WSC then ok w
  else if type = MSG_AP_AUTOCONFIGURATION_RENEW then cfgmgr_handle_autoconfiguration_renew w pkt
  else if type = MSG_AP_AUTOCONFIGURATION_WSC then cfgmgr_handle_autoconfiguration_wsc w pkt
  else if type = MSG_AP_AUTOCONFIGURATION_RESPONSE then
    cfgmgr_handle_autoconfiguration_response w pkt
  else ok w

/-- `strcmp` finds the group name in the message. -/
def cfgmgr_handle_group_msg (w : process) (toName data : List UInt8) : Result process := do
  if ← strcmp_eq toName g_mesh_group_name then cfgmgr_handle_packet w data else ok w

def MESH_MSGCMD_CONTROLLER_INFO_REQ : UInt16 := 0

def MESH_MSGCMD_CONTROLLER_INFO_RSP : UInt16 := 1

/-- A controller is known: a radio that is not configured may search for it. -/
def process.backhaulReady (w : process) (i : Fin 2) : process :=
  if w.conf_state i ≠ .AUTOCONF_CONFIGURED then w.setState i .AUTOCONF_BACKHAUL_READY else w

def cfgmgr_handle_priv_msg_from_mesh (w : process) (data : List UInt8) : Result process := do
  let mesh_msg_id ← readU16 data 0
  if mesh_msg_id = MESH_MSGCMD_CONTROLLER_INFO_RSP then do
    let bh_almac ← readBytes data 2 ETH_ALEN
    let bh_local_almac ← readBytes data 8 ETH_ALEN
    let bh_local_ifaddr ← readBytes data 14 ETH_ALEN
    let bh_local_ifname ← snprintf_s w.cfgmgr.bh_local_ifname (data.drop 20)
    let w := { w with cfgmgr :=
      { w.cfgmgr with bh_almac, bh_local_almac, bh_local_ifaddr, bh_local_ifname } }
    ok (((w.backhaulReady 0).backhaulReady 1).resetTimer w.cfgmgr.autoconf_fsm_tiemr 10)
  else ok w

def cfgmgr_handle_external_command (w : process) (data : List UInt8) : Result process := do
  if ← strcmp_eq data reconfig_command then
    ok (((w.setState 0 .AUTOCONF_UNCONFIGURED).setState 1 .AUTOCONF_UNCONFIGURED).resetTimer
      w.cfgmgr.autoconf_fsm_tiemr 10)
  else ok w

def cfgmgr_handle_private_msg (w : process) (fromName toName data : List UInt8) :
    Result process := do
  if ← strcmp_eq toName g_cfgmgr_user_name then
    if ← strcmp_eq fromName g_mesh_user_name then cfgmgr_handle_priv_msg_from_mesh w data
    else if ← strcmp_eq fromName config_user_name then cfgmgr_handle_external_command w data
    else ok w
  else ok w

def cfgmgr_handle_msg (w : process) (cmd : MbusMsgCcmd) (fromName toName data : List UInt8) :
    Result process :=
  match cmd with
  | .MBUS_CMD_GROUP_MSG => cfgmgr_handle_group_msg w toName data
  | .MBUS_CMD_PRIVATE_MSG => cfgmgr_handle_private_msg w fromName toName data
  | _ => ok w

def cfgmgr_regmsg_timer_cb (w : process) : process :=
  ((w.call (.register_object g_cfgmgr_user_name)).call (.create_group g_mesh_group_name)).call
    (.join_group g_mesh_group_name)

/-- One turn of the loop of `cfgmgr_autoconf_search_timer_cb`, with
`find_controller_msg_send` as it is carried through the turns. -/
def cfgmgr_autoconf_radio (i : Fin 2) (w : process) (find_controller_msg_send : Bool) :
    Result (process × Bool) :=
  let cfgmgr := w.cfgmgr
  match w.conf_state i with
  | .AUTOCONF_UNCONFIGURED =>
    if find_controller_msg_send then ok (w, true)
    else
      ok (w.call (.sendmsg_private g_cfgmgr_user_name g_mesh_user_name
        (bytesU16 MESH_MSGCMD_CONTROLLER_INFO_REQ)), true)
  | .AUTOCONF_BACKHAUL_READY => do
    let w ← cfgmgr_send_autoconfiguration_search w (cfgmgr.radios i) cfgmgr.bh_local_ifname
      cfgmgr.bh_local_ifaddr cfgmgr.bh_local_almac cfgmgr.bh_almac
    ok (w, find_controller_msg_send)
  | .AUTOCONF_SEND_M1 => do
    let w ← cfgmgr_send_wsc_m1 w cfgmgr.bh_local_almac cfgmgr.bh_local_ifaddr
      cfgmgr.bh_local_ifname cfgmgr.bh_almac 0 (cfgmgr.radios i).auto_conf_band.toNat
    -- if not configured by this m1 try again
    ok (w.setState i .AUTOCONF_UNCONFIGURED, find_controller_msg_send)
  | .AUTOCONF_WAIT_M2 => ok (w, find_controller_msg_send)
  | .AUTOCONF_CONFIGURED => ok (w, find_controller_msg_send)

def cfgmgr_autoconf_search_timer_cb (te : Ptr) (w : process) : Result process := do
  let (w, find_controller_msg_send) ← cfgmgr_autoconf_radio 0 w false
  let (w, _) ← cfgmgr_autoconf_radio 1 w find_controller_msg_send
  ok (w.resetTimer te 5000)

/-- The timers of the process and what they run. -/
def cfgmgr_timers : timer_host timer_cb process where
  timer w := w.timer
  setTimer w timer := { w with timer }
  callback
    | .cfgmgr_regmsg_timer_cb, _, w => ok (cfgmgr_regmsg_timer_cb w)
    | .cfgmgr_autoconf_search_timer_cb, te, w => cfgmgr_autoconf_search_timer_cb te w

/-- What the loop of the process reacts to: a message of the bus, whose names and
data are memory blocks, or a timer that is due at the time `cur` that was read. -/
inductive event where
  | message (cmd : MbusMsgCcmd) (fromName toName data : List UInt8)
  | expire (cur : Nat)
  deriving DecidableEq, Repr

/-- The process after `main` has set it up: the addresses `malloc` gives the
registration timer and the timer of the state machine are 1 and 2. -/
def cfgmgr_main (clock : Nat → Nat) (uninit : Nat → UInt8) : process :=
  let heap := empty_heap fun _ => timer_cb.cfgmgr_regmsg_timer_cb
  let timer := add_timer { heap, clock, reads := 0 } 1 1 .cfgmgr_regmsg_timer_cb
  { cfgmgr := { cfg_mgr_init uninit with autoconf_fsm_tiemr := 2 }
    timer := add_timer timer 2 10000 .cfgmgr_autoconf_search_timer_cb
    calls := []
    uninit }

/-- The reaction to one event. A turn that finds no timer due changes nothing. -/
def process.exec (w : process) : event → Result process
  | .message cmd fromName toName data => cfgmgr_handle_msg w cmd fromName toName data
  | .expire cur => (expire_turn cfgmgr_timers cur w).getD (ok w)

end easymesh.cfg_mgr
