import Easymesh.Agent.Wsc
import Easymesh.Agent.Cmdu
import Easymesh.Lib.CString
import Easymesh.Timer.MhTimer

open Lib Lib.Result easymesh.tlv_parser easymesh.cmdu easymesh.minheap easymesh.mh_timer

namespace easymesh.cfg_mgr

inductive ConfigStatus where
  | AUTOCONF_UNCONFIGURED
  | AUTOCONF_BACKHAUL_READY
  | AUTOCONF_SEND_M1
  | AUTOCONF_WAIT_M2
  | AUTOCONF_CONFIGURED
  deriving DecidableEq, Repr

structure radio_s where
  auto_conf_band : UInt8
  conf_state : ConfigStatus
  deriving DecidableEq, Repr

/-- `struct cfg_mgr_s` without its connection; `m2buf` has its `length` from the block. -/
structure cfg_mgr_s where
  bh_local_ifname : List UInt8
  bh_local_ifaddr : List UInt8
  bh_local_almac : List UInt8
  bh_almac : List UInt8
  m2buf : GrowBuffer
  radios : Fin 2 → radio_s
  msgid : UInt16
  nradio : Int
  autoconf_fsm_tiemr : Ptr

/-- The timer callbacks of the process, whose private data is never `NULL`. -/
inductive timer_cb where
  | cfgmgr_regmsg_timer_cb
  | cfgmgr_autoconf_search_timer_cb
  deriving DecidableEq, Repr

/-- The calls by which the process hands something to the bus. -/
inductive mbus_call where
  | register_object (username : List UInt8)
  | create_group (groupname : List UInt8)
  | join_group (groupname : List UInt8)
  | sendmsg_in_group (my_name groupname data : List UInt8)
  | sendmsg_private (my_name peer_name data : List UInt8)
  deriving DecidableEq, Repr

/-- The process: its `cfg_mgr`, the timers of its loop, what it has handed to the
bus so far, and what fresh heap memory holds. -/
structure process where
  cfgmgr : cfg_mgr_s
  timer : loop_timer timer_cb
  calls : List mbus_call
  uninit : Nat → UInt8

def g_cfgmgr_user_name : List UInt8 := cstr ['u', 'c', 'f', 'g', 'm', 'g', 'r']

def g_mesh_user_name : List UInt8 := cstr ['u', 'm', 'e', 's', 'h']

def g_mesh_group_name : List UInt8 := cstr ['g', 'm', 'e', 's', 'h']

/-- The user whose private messages are external commands. -/
def config_user_name : List UInt8 :=
  cstr ['u', 'c', 'f', 'g', 'm', 'g', 'r', '_', 'c', 'o', 'n', 'f', 'i', 'g']

def reconfig_command : List UInt8 := cstr ['r', 'e', 'c', 'o', 'n', 'f', 'i', 'g']

def cfg_mgr_init (uninit : Nat → UInt8) : cfg_mgr_s :=
  { bh_local_ifname := List.replicate IF_NAMESIZE 0
    bh_local_ifaddr := List.replicate ETH_ALEN 0
    bh_local_almac := List.replicate ETH_ALEN 0
    bh_almac := List.replicate ETH_ALEN 0
    m2buf := GrowBuffer.malloc uninit 2048
    radios := fun i => { auto_conf_band := UInt8.ofNat i, conf_state := .AUTOCONF_UNCONFIGURED }
    msgid := 0x001a
    nradio := 2
    autoconf_fsm_tiemr := 0 }

def cfg_mgr_ensure_m2buf (p : GrowBuffer) (needed : Nat) : Option GrowBuffer := p.ensure needed

section Update

variable (w : process)

def process.call (c : mbus_call) : process := { w with calls := w.calls ++ [c] }

/-- `cfgmgr->radios[i].conf_state = state;` -/
def process.setState (i : Fin 2) (state : ConfigStatus) : process :=
  { w with cfgmgr := { w.cfgmgr with
      radios := Function.update w.cfgmgr.radios i
        { w.cfgmgr.radios i with conf_state := state } } }

/-- `reset_timer(&cfgmgr->io->loop->timer, te, msec);` -/
def process.resetTimer (te : Ptr) (msec : Nat) : process :=
  { w with timer := reset_timer w.timer te msec }

def process.setM2buf (m2buf : GrowBuffer) : process :=
  { w with cfgmgr := { w.cfgmgr with m2buf } }

def process.conf_state (i : Fin 2) : ConfigStatus := (w.cfgmgr.radios i).conf_state

end Update

section Send

/-- What both senders of a CMDU do once its header and TLVs are built. A failed
print returns `NULL`, which the copy into the 512-byte `buffer` reads from. -/
def cfgmgr_send_cmdu (w : process) (raw_msg : List UInt8) (pstRoot : KamiTlv_S)
    (al_addr if_addr ifname : List UInt8) : Result process := do
  let pr ← Kami_Tlv_Print w.uninit pstRoot
  let printed ← readBytes (pr.getD []) 0 (Kami_Tlv_ObjectLength pstRoot)
  let buffer ← writeBytes (raw_msg ++ List.replicate (512 - sizeof_cmdu_raw_msg) 0)
    sizeof_cmdu_raw_msg printed
  let pkt := packet_create (buffer.take (sizeof_cmdu_raw_msg + Kami_Tlv_ObjectLength pstRoot))
  let ifname ← snprintf_s pkt.ifname ifname
  let aladdr ← readBytes al_addr 0 ETH_ALEN
  let ifaddr ← readBytes if_addr 0 ETH_ALEN
  let pkt := { pkt with pkt_to := PKT_NETWORK, pkt_from := PKT_LOCAL, ifname, aladdr, ifaddr }
  ok (w.call (.sendmsg_in_group g_cfgmgr_user_name g_mesh_group_name pkt.bytes))

def sup_classes : List UInt8 :=
  [0x00, 0x00, 0x00, 0x00, 0x01, 0x00, 0x01, 0x03, 0x51, 0x00, 0x00, 0x53, 0x00, 0x00, 0x54, 0x00,
    0x00]

def TLV_TYPE_RADIO_BASIC_CAPA : tlv_type := 0x85

/-- A band that is neither 2.4G nor 5G leaves `pcWscVal` at `NULL` and `len` at 0. -/
def wsc_m1_of_band (uninit : Nat → UInt8) (if_addr : List UInt8) (band : Int) :
    Result (Option (List UInt8) × Nat) :=
  if band = 0 then wsc.wsc_m1_msg_create uninit if_addr 1
  else if band = 1 then wsc.wsc_m1_msg_create uninit if_addr 2
  else ok (none, 0)

def cfgmgr_send_wsc_m1 (w : process) (al_addr if_addr ifname dest : List UInt8) (msg_id band : Int) :
    Result process := do
  let dest_addr ← readBytes dest 0 ETH_ALEN
  let src_addr ← readBytes al_addr 0 ETH_ALEN
  let msg_id :=
    if 0 < msg_id then UInt16.ofInt msg_id else htons (w.cfgmgr.msgid + 1)
  let raw_msg := cmdu_raw_msg dest_addr src_addr (htons MSG_AP_AUTOCONFIGURATION_WSC) msg_id
  let (pcWscVal, len) ← wsc_m1_of_band w.uninit if_addr band
  let pstRoot ← Kami_Tlv_AddTlvToObject (Kami_Tlv_CreateObject 1) wsc.TLV_TYPE_WSC
    (UInt16.ofNat len) (pcWscVal.getD []) 0 1
  let pstRoot ← Kami_Tlv_AddTlvToObject pstRoot TLV_TYPE_RADIO_BASIC_CAPA 17 sup_classes 0 1
  let pstRoot ← Kami_Tlv_AddTlvToObject pstRoot 0x00 0 [] 0 1
  cfgmgr_send_cmdu w raw_msg pstRoot al_addr if_addr ifname

/-- The TLVs of an autoconfiguration search after the AL MAC address. -/
def search_tlvs (radio : radio_s) : List (tlv_type × List UInt8) :=
  [(0x0d, [0x00]),
    (0x0e, [radio.auto_conf_band]),
    (0x80, [0x01, 0x01]),
    (0x81, [0x01, 0x00]),
    (0x00, [])]

def cfgmgr_send_autoconfiguration_search (w : process) (radio : radio_s)
    (ifname if_addr al_addr dest : List UInt8) : Result process := do
  let dest_addr ← readBytes dest 0 ETH_ALEN
  let src_addr ← readBytes al_addr 0 ETH_ALEN
  let raw_msg := cmdu_raw_msg dest_addr src_addr (htons MSG_AP_AUTOCONFIGURATION_SEARCH)
    (htons w.cfgmgr.msgid)
  let w := { w with cfgmgr := { w.cfgmgr with msgid := w.cfgmgr.msgid + 1 } }
  let pstRoot ← Kami_Tlv_AddTlvToObject (Kami_Tlv_CreateObject 1) 0x01 6 al_addr 0 1
  let pstRoot ← (search_tlvs radio).foldlM
    (fun pstRoot (type, value) =>
      Kami_Tlv_AddTlvToObject pstRoot type (UInt16.ofNat value.length) value 0 1) pstRoot
  cfgmgr_send_cmdu w raw_msg pstRoot al_addr if_addr ifname

end Send

end easymesh.cfg_mgr
