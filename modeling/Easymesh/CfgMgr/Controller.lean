import Easymesh.CfgMgr.Configured

open Lib Lib.Result easymesh.cmdu easymesh.tlv_parser easymesh.minheap easymesh.mh_timer
open easymesh.bus_msg (MbusMsgCcmd)

namespace easymesh.cfg_mgr

/-- A packet whose CMDU goes to `dest` and which names the given addresses and
the given interface, cut to what its field holds. -/
structure Addressed (dest al_addr if_addr ifname pkt : List UInt8) : Prop where
  dest : dest_addr (packet pkt) = readBytes dest 0 ETH_ALEN
  src : src_addr (packet pkt) = readBytes al_addr 0 ETH_ALEN
  aladdr : readBytes (pkt_aladdr pkt) 0 ETH_ALEN = readBytes al_addr 0 ETH_ALEN
  ifaddr : readBytes (pkt_ifaddr pkt) 0 ETH_ALEN = readBytes if_addr 0 ETH_ALEN
  ifname : cstring (pkt_ifname pkt) = (cstring ifname).map (·.take (IF_NAMESIZE - 1))

instance (dest al_addr if_addr ifname pkt : List UInt8) :
    Decidable (Addressed dest al_addr if_addr ifname pkt) :=
  decidable_of_iff
    (dest_addr (packet pkt) = readBytes dest 0 ETH_ALEN ∧
      src_addr (packet pkt) = readBytes al_addr 0 ETH_ALEN ∧
      readBytes (pkt_aladdr pkt) 0 ETH_ALEN = readBytes al_addr 0 ETH_ALEN ∧
      readBytes (pkt_ifaddr pkt) 0 ETH_ALEN = readBytes if_addr 0 ETH_ALEN ∧
      cstring (pkt_ifname pkt) = (cstring ifname).map (·.take (IF_NAMESIZE - 1)))
    ⟨fun ⟨h₁, h₂, h₃, h₄, h₅⟩ => ⟨h₁, h₂, h₃, h₄, h₅⟩,
      fun h => ⟨h.dest, h.src, h.aladdr, h.ifaddr, h.ifname⟩⟩

/-- A packet to the controller that a controller-info response describes: the
response has its AL address, our AL address, the address and name of the interface. -/
def ToController (info pkt : List UInt8) : Prop :=
  20 ≤ info.length ∧
    Addressed (info.drop 2) (info.drop 8) (info.drop 14) (info.drop 20) pkt

instance (info pkt : List UInt8) : Decidable (ToController info pkt) :=
  inferInstanceAs (Decidable (_ ∧ _))

/-- The controller-info response received last. -/
def learned (known : Option (List UInt8)) (w : process) (e : event) (_ : process) :
    Option (List UInt8) :=
  match e with
  | .message _ _ _ data => if w.request_of e = ok .controller_info then some data else known
  | .expire _ => known

/-- The CMDU of a call, if it has one. -/
def mbus_call.cmdu : mbus_call → Option (List UInt8)
  | .sendmsg_in_group _ _ data => some data
  | _ => none

/-- Every CMDU that a timer sends in the step goes to a controller that is known. -/
def SendsToController (known : Option (List UInt8)) (w : process) (e : event) (w' : process) :
    Prop :=
  match e with
  | .expire _ => ∀ c ∈ w'.calls.drop w.calls.length, ∀ pkt ∈ c.cmdu, ∃ info ∈ known,
      ToController info pkt
  | .message .. => True

/-- The step handles no autoconfiguration response while no controller is known. -/
def NoEarlyResponse (known : Option (List UInt8)) (w : process) (e : event) (_ : process) : Prop :=
  known = none → ∀ i, w.request_of e ≠ ok (.response i)

instance (known : Option (List UInt8)) (w : process) (e : event) (w' : process) :
    Decidable (SendsToController known w e w') :=
  match e with
  | .expire _ => inferInstanceAs (Decidable (∀ c ∈ _, _))
  | .message .. => isTrue trivial

instance (known : Option (List UInt8)) (w : process) (e : event) (w' : process) :
    Decidable (NoEarlyResponse known w e w') := inferInstanceAs (Decidable (_ → ∀ _, _))

/-- A packet from here to the network whose CMDU of at most 512 bytes has the type and
the id. -/
structure Framed (type id : UInt16) (pkt : List UInt8) : Prop where
  short : pkt.length ≤ sizeof_mesh_packet + 512
  pkt_from : packet_from pkt = ok PKT_LOCAL
  pkt_to : packet_to pkt = ok PKT_NETWORK
  packet_len : packet_len pkt = ok ((packet pkt).length : Int)
  msg_type : msg_type (packet pkt) = ok type
  msg_id : msg_id (packet pkt) = ok id

section Layout

variable {pkt : mesh_packet_s} {dest al_addr if_addr ifname : List UInt8}

theorem bytes_length (hname : pkt.ifname.length = IF_NAMESIZE)
    (hif : pkt.ifaddr.length = ETH_ALEN) (hal : pkt.aladdr.length = ETH_ALEN) :
    pkt.bytes.length = sizeof_mesh_packet + pkt.packet.length := by
  simp only [mesh_packet_s.bytes, List.length_append, hname, hif, hal, bytesI32, List.length_cons,
    List.length_nil, IF_NAMESIZE, ETH_ALEN, sizeof_mesh_packet]

/-- The directions and the length in the bytes of a packet. -/
theorem bytes_fields (hname : pkt.ifname.length = IF_NAMESIZE)
    (hif : pkt.ifaddr.length = ETH_ALEN) (hal : pkt.aladdr.length = ETH_ALEN)
    (hfrom : pkt.pkt_from = PKT_LOCAL) (hto : pkt.pkt_to = PKT_NETWORK)
    (hlen : pkt.packet_len = pkt.packet.length) (hint : pkt.packet.length ≤ INT_MAX) :
    packet_from pkt.bytes = ok PKT_LOCAL ∧ packet_to pkt.bytes = ok PKT_NETWORK ∧
      packet_len pkt.bytes = ok (pkt.packet.length : Int) := by
  refine ⟨?_, ?_, ?_⟩
  · refine @readI32_stored pkt.bytes [] (bytesI32 pkt.pkt_to ++ (pkt.ifname ++ (pkt.ifaddr ++
      (pkt.aladdr ++ (bytesI32 pkt.packet_len ++ pkt.packet))))) PKT_LOCAL (by decide) (by decide) ?_
    simp only [mesh_packet_s.bytes, List.append_assoc, List.nil_append, hfrom]
  · refine @readI32_stored pkt.bytes (bytesI32 pkt.pkt_from) (pkt.ifname ++ (pkt.ifaddr ++
      (pkt.aladdr ++ (bytesI32 pkt.packet_len ++ pkt.packet)))) PKT_NETWORK (by decide)
      (by decide) ?_
    simp only [mesh_packet_s.bytes, List.append_assoc, hto]
  · have hread := @readI32_stored pkt.bytes (bytesI32 pkt.pkt_from ++ (bytesI32 pkt.pkt_to ++
      (pkt.ifname ++ (pkt.ifaddr ++ pkt.aladdr)))) pkt.packet (pkt.packet.length : Int)
      (by omega) (by unfold INT_MAX at hint; omega)
      (by simp only [mesh_packet_s.bytes, List.append_assoc, hlen])
    simp only [List.length_append, hname, hif, hal] at hread
    exact hread

theorem bytes_packet (hname : pkt.ifname.length = IF_NAMESIZE)
    (hif : pkt.ifaddr.length = ETH_ALEN) (hal : pkt.aladdr.length = ETH_ALEN) :
    pkt_ifname pkt.bytes =
        pkt.ifname ++ (pkt.ifaddr ++ (pkt.aladdr ++ (bytesI32 pkt.packet_len ++ pkt.packet))) ∧
      pkt_ifaddr pkt.bytes =
        pkt.ifaddr ++ (pkt.aladdr ++ (bytesI32 pkt.packet_len ++ pkt.packet)) ∧
      pkt_aladdr pkt.bytes = pkt.aladdr ++ (bytesI32 pkt.packet_len ++ pkt.packet) ∧
      packet pkt.bytes = pkt.packet := by
  have h₁ : pkt_ifname pkt.bytes =
      pkt.ifname ++ (pkt.ifaddr ++ (pkt.aladdr ++ (bytesI32 pkt.packet_len ++ pkt.packet))) := by
    simp [pkt_ifname, mesh_packet_s.bytes, bytesI32]
  have h₂ : pkt_ifaddr pkt.bytes =
      pkt.ifaddr ++ (pkt.aladdr ++ (bytesI32 pkt.packet_len ++ pkt.packet)) := by
    rw [← @List.drop_left _ pkt.ifname (pkt.ifaddr ++ _), ← h₁, hname, pkt_ifaddr,
      pkt_ifname, List.drop_drop]
    rfl
  have h₃ : pkt_aladdr pkt.bytes = pkt.aladdr ++ (bytesI32 pkt.packet_len ++ pkt.packet) := by
    rw [← @List.drop_left _ pkt.ifaddr (pkt.aladdr ++ _), ← h₂, hif, pkt_aladdr,
      pkt_ifaddr, List.drop_drop]
    rfl
  refine ⟨h₁, h₂, h₃, ?_⟩
  rw [← @List.drop_left _ (pkt.aladdr ++ bytesI32 pkt.packet_len) pkt.packet,
    List.append_assoc, ← h₃, List.length_append, hal, packet, pkt_aladdr, List.drop_drop]
  rfl

/-- The bytes of a packet tell what its fields hold and where its CMDU goes. -/
theorem bytes_addressed {dst src rest : List UInt8}
    (hdst : readBytes dest 0 ETH_ALEN = ok dst) (hsrc : readBytes al_addr 0 ETH_ALEN = ok src)
    (hpacket : pkt.packet = dst ++ (src ++ rest)) (hname : pkt.ifname.length = IF_NAMESIZE)
    (hcname : cstring pkt.ifname = (cstring ifname).map (·.take (IF_NAMESIZE - 1)))
    (hend : cstring pkt.ifname ≠ none) (hal : readBytes al_addr 0 ETH_ALEN = ok pkt.aladdr)
    (hif : readBytes if_addr 0 ETH_ALEN = ok pkt.ifaddr) :
    Addressed dest al_addr if_addr ifname pkt.bytes := by
  have hlen := readBytes_length hdst
  obtain ⟨hbname, hbif, hbal, hbpacket⟩ :=
    bytes_packet hname (readBytes_length hif) (readBytes_length hal)
  refine ⟨?_, ?_, ?_, ?_, ?_⟩
  · rw [dest_addr, hbpacket, hdst, ← hlen]
    exact readBytes_front hpacket
  · have hmiddle := readBytes_middle dst src rest
    rw [← hpacket, hlen, readBytes_length hsrc] at hmiddle
    rw [src_addr, hbpacket, hsrc]
    exact hmiddle
  · rw [hbal, hal, ← readBytes_length hal]
    exact readBytes_front rfl
  · rw [hbif, hif, ← readBytes_length hif]
    exact readBytes_front rfl
  · obtain ⟨body, hbody⟩ := Option.ne_none_iff_exists'.mp hend
    rw [hbname, cstring_append_of_some _ hbody, ← hbody, hcname]

end Layout

/-- The packet that a CMDU is wrapped in before it is handed to the group. -/
structure Wrapped (raw_msg al_addr if_addr ifname : List UInt8) (pkt : mesh_packet_s) : Prop where
  header : raw_msg <+: pkt.packet
  short : pkt.packet.length ≤ 512
  packet_len : pkt.packet_len = pkt.packet.length
  pkt_from : pkt.pkt_from = PKT_LOCAL
  pkt_to : pkt.pkt_to = PKT_NETWORK
  ifname_length : pkt.ifname.length = IF_NAMESIZE
  ifname : cstring pkt.ifname = (cstring ifname).map (·.take (IF_NAMESIZE - 1))
  named : cstring pkt.ifname ≠ none
  aladdr : readBytes al_addr 0 ETH_ALEN = ok pkt.aladdr
  ifaddr : readBytes if_addr 0 ETH_ALEN = ok pkt.ifaddr

theorem cfgmgr_send_cmdu_spec {w w' : process} {raw_msg al_addr if_addr ifname : List UInt8}
    {pstRoot : KamiTlv_S} (hraw : raw_msg.length = sizeof_cmdu_raw_msg)
    (h : cfgmgr_send_cmdu w raw_msg pstRoot al_addr if_addr ifname = ok w') :
    ∃ pkt, w' = w.call (.sendmsg_in_group g_cfgmgr_user_name g_mesh_group_name pkt.bytes) ∧
      Wrapped raw_msg al_addr if_addr ifname pkt := by
  obtain ⟨pr, _, h⟩ := bind_eq_ok_iff.mp h
  obtain ⟨printed, _, h⟩ := bind_eq_ok_iff.mp h
  obtain ⟨buffer, hbuffer, h⟩ := bind_eq_ok_iff.mp h
  obtain ⟨name, hname, h⟩ := bind_eq_ok_iff.mp h
  obtain ⟨aladdr, haladdr, h⟩ := bind_eq_ok_iff.mp h
  obtain ⟨ifaddr, hifaddr, h⟩ := bind_eq_ok_iff.mp h
  cases h
  have hzeros : List.replicate IF_NAMESIZE (0 : UInt8) ≠ [] := by decide
  obtain ⟨body, hbody, hnamelen, _⟩ := snprintf_s_spec hzeros hname
  have hcname := snprintf_s_cstring hzeros hname
  have hroom : buffer.length = 512 := by
    rw [writeBytes_length hbuffer, List.length_append, hraw, List.length_replicate]
    rfl
  refine ⟨_, rfl, ?_, ?_, rfl, rfl, rfl, hnamelen, hcname, ?_, haladdr, hifaddr⟩
  · have hhead := writeBytes_take hbuffer
    rw [Int.toNat_natCast, ← hraw, List.take_left] at hhead
    have hprefix : raw_msg <+: buffer := by
      rw [← hhead]
      exact List.take_prefix _ _
    exact List.prefix_take_iff.mpr ⟨ hprefix, by omega⟩
  · exact hroom ▸ List.length_take_le' _ _
  · rw [hcname, hbody]
    exact Option.some_ne_none _

/-- The header of a CMDU carries the addresses, the type and the message id it is built
from. -/
theorem cfgmgr_send_cmdu_addressed {w w' : process} {dest dst src : List UInt8}
    {al_addr if_addr ifname : List UInt8} {msg_type msg_id : UInt16} {pstRoot : KamiTlv_S}
    (hdst : readBytes dest 0 ETH_ALEN = ok dst) (hsrc : readBytes al_addr 0 ETH_ALEN = ok src)
    (h : cfgmgr_send_cmdu w (cmdu_raw_msg dst src msg_type msg_id) pstRoot al_addr if_addr ifname =
      ok w') :
    ∃ pkt, w' = w.call (.sendmsg_in_group g_cfgmgr_user_name g_mesh_group_name pkt) ∧
      Addressed dest al_addr if_addr ifname pkt ∧ Framed msg_type msg_id pkt := by
  have hdstlen := readBytes_length hdst
  have hsrclen := readBytes_length hsrc
  have hraw : (cmdu_raw_msg dst src msg_type msg_id).length = sizeof_cmdu_raw_msg := by
    simp [cmdu_raw_msg, bytesU16, hdstlen, hsrclen, ETH_ALEN, sizeof_cmdu_raw_msg]
  obtain ⟨pkt, hcall, hwrapped⟩ := cfgmgr_send_cmdu_spec hraw h
  obtain ⟨rest, hrest⟩ := hwrapped.header
  have hname := hwrapped.ifname_length
  have hif := readBytes_length hwrapped.ifaddr
  have hal := readBytes_length hwrapped.aladdr
  have hpacket : pkt.packet = dst ++ (src ++ (bytesU16 (htons 0x893a) ++ ([0, 0] ++
      (bytesU16 msg_type ++ (bytesU16 msg_id ++ ([0, 0x80] ++ rest)))))) := by
    rw [← hrest, cmdu_raw_msg]
    simp only [List.append_assoc]
  have hbytes := (bytes_packet hname hif hal).2.2.2
  have hlength := bytes_length hname hif hal
  have hshort := hwrapped.short
  obtain ⟨hfrom, hto, hlen⟩ := bytes_fields hname hif hal hwrapped.pkt_from hwrapped.pkt_to
    hwrapped.packet_len (by unfold INT_MAX; omega)
  rw [← hbytes] at hlen
  refine ⟨pkt.bytes, hcall, bytes_addressed hdst hsrc hpacket hname hwrapped.ifname hwrapped.named
    hwrapped.aladdr hwrapped.ifaddr, by omega, hfrom, hto, hlen, ?_, ?_⟩
  · have hmiddle := readBytes_middle (dst ++ (src ++ (bytesU16 (htons 0x893a) ++ [0, 0])))
      (bytesU16 msg_type) (bytesU16 msg_id ++ ([0, 0x80] ++ rest))
    simp only [List.append_assoc] at hmiddle
    rw [← hpacket] at hmiddle
    simp only [List.length_append, hdstlen, hsrclen] at hmiddle
    have hread : readBytes pkt.packet 16 2 = ok (bytesU16 msg_type) := hmiddle
    rw [hbytes, cmdu.msg_type, readU16, hread, map_ok, leNat_bytesU16, UInt16.ofNat_toNat]
  · have hmiddle := readBytes_middle
      (dst ++ (src ++ (bytesU16 (htons 0x893a) ++ ([0, 0] ++ bytesU16 msg_type))))
      (bytesU16 msg_id) ([0, 0x80] ++ rest)
    simp only [List.append_assoc] at hmiddle
    rw [← hpacket] at hmiddle
    simp only [List.length_append, hdstlen, hsrclen] at hmiddle
    have hread : readBytes pkt.packet 18 2 = ok (bytesU16 msg_id) := hmiddle
    rw [hbytes, cmdu.msg_id, readU16, hread, map_ok, leNat_bytesU16, UInt16.ofNat_toNat]

theorem cfgmgr_send_wsc_m1_spec {w w' : process} {al_addr if_addr ifname dest : List UInt8}
    {msg_id band : Int} (h : cfgmgr_send_wsc_m1 w al_addr if_addr ifname dest msg_id band = ok w') :
    ∃ pkt, w' = w.call (.sendmsg_in_group g_cfgmgr_user_name g_mesh_group_name pkt) ∧
      Addressed dest al_addr if_addr ifname pkt ∧
      Framed (htons MSG_AP_AUTOCONFIGURATION_WSC)
        (if 0 < msg_id then UInt16.ofInt msg_id else htons (w.cfgmgr.msgid + 1)) pkt := by
  obtain ⟨dst, hdst, h⟩ := bind_eq_ok_iff.mp h
  obtain ⟨src, hsrc, h⟩ := bind_eq_ok_iff.mp h
  obtain ⟨m1, _, h⟩ := bind_eq_ok_iff.mp h
  obtain ⟨root₁, _, h⟩ := bind_eq_ok_iff.mp h
  obtain ⟨root₂, _, h⟩ := bind_eq_ok_iff.mp h
  obtain ⟨root₃, _, h⟩ := bind_eq_ok_iff.mp h
  exact cfgmgr_send_cmdu_addressed hdst hsrc h

theorem cfgmgr_send_autoconfiguration_search_spec {w w' : process} {radio : radio_s}
    {ifname if_addr al_addr dest : List UInt8}
    (h : cfgmgr_send_autoconfiguration_search w radio ifname if_addr al_addr dest = ok w') :
    ∃ pkt, w' = process.call { w with cfgmgr := { w.cfgmgr with msgid := w.cfgmgr.msgid + 1 } }
        (.sendmsg_in_group g_cfgmgr_user_name g_mesh_group_name pkt) ∧
      Addressed dest al_addr if_addr ifname pkt ∧
      Framed (htons MSG_AP_AUTOCONFIGURATION_SEARCH) (htons w.cfgmgr.msgid) pkt := by
  obtain ⟨dst, hdst, h⟩ := bind_eq_ok_iff.mp h
  obtain ⟨src, hsrc, h⟩ := bind_eq_ok_iff.mp h
  obtain ⟨root₁, _, h⟩ := bind_eq_ok_iff.mp h
  obtain ⟨root₂, _, h⟩ := bind_eq_ok_iff.mp h
  exact cfgmgr_send_cmdu_addressed hdst hsrc h

/-- The fields that a controller's data fills. -/
structure backhaul where
  bh_almac : List UInt8
  bh_local_almac : List UInt8
  bh_local_ifaddr : List UInt8
  bh_local_ifname : List UInt8

def process.backhaul (w : process) : backhaul :=
  ⟨w.cfgmgr.bh_almac, w.cfgmgr.bh_local_almac, w.cfgmgr.bh_local_ifaddr, w.cfgmgr.bh_local_ifname⟩

/-- A radio for which a tick of the state machine sends a CMDU. -/
def Sending (state : ConfigStatus) : Prop :=
  state = .AUTOCONF_BACKHAUL_READY ∨ state = .AUTOCONF_SEND_M1

/-- All CMDUs among the new calls go to the addresses in `b`, and there are none
unless `allowed`. -/
def SendsTo (b : backhaul) (allowed : Prop) (calls calls' : List mbus_call) : Prop :=
  ∃ new, calls' = calls ++ new ∧ ∀ c ∈ new, ∀ pkt ∈ c.cmdu,
    allowed ∧ Addressed b.bh_almac b.bh_local_almac b.bh_local_ifaddr b.bh_local_ifname pkt

section SendsTo

variable {b : backhaul} {allowed more : Prop} {calls calls₁ calls₂ : List mbus_call}

theorem SendsTo.none (b : backhaul) (allowed : Prop) {calls new : List mbus_call}
    (hnew : ∀ c ∈ new, c.cmdu = none) : SendsTo b allowed calls (calls ++ new) := by
  refine ⟨new, rfl, fun c hc pkt hpkt => ?_⟩
  rw [hnew c hc] at hpkt
  cases hpkt

theorem SendsTo.refl (b : backhaul) (allowed : Prop) (calls : List mbus_call) :
    SendsTo b allowed calls calls := by
  simpa using @SendsTo.none b allowed calls [] (by simp)

theorem SendsTo.mono (h : SendsTo b allowed calls calls₁) (himp : allowed → more) :
    SendsTo b more calls calls₁ := by
  obtain ⟨new, heq, hall⟩ := h
  exact ⟨new, heq, fun c hc pkt hpkt => ⟨himp (hall c hc pkt hpkt).1, (hall c hc pkt hpkt).2⟩⟩

theorem SendsTo.trans (h₁ : SendsTo b allowed calls calls₁) (h₂ : SendsTo b allowed calls₁ calls₂) :
    SendsTo b allowed calls calls₂ := by
  obtain ⟨new₁, rfl, hall₁⟩ := h₁
  obtain ⟨new₂, rfl, hall₂⟩ := h₂
  refine ⟨new₁ ++ new₂, List.append_assoc _ _ _, fun c hc => ?_⟩
  rcases List.mem_append.mp hc with hc | hc
  · exact hall₁ c hc
  · exact hall₂ c hc

end SendsTo

/-- A turn of the timer's loop sends for a radio that is ready to, and to the
controller whose data was received. -/
theorem cfgmgr_autoconf_radio_sends {i : Fin 2} {w w' : process} {send send' : Bool}
    (h : cfgmgr_autoconf_radio i w send = ok (w', send')) :
    w'.backhaul = w.backhaul ∧ SendsTo w.backhaul (Sending (w.conf_state i)) w.calls w'.calls := by
  unfold cfgmgr_autoconf_radio at h
  dsimp only at h
  split at h
  · split at h
    · cases h
      exact ⟨rfl, .refl _ _ _⟩
    · cases h
      refine ⟨rfl, .none _ _ fun c hc => ?_⟩
      rw [List.mem_singleton.mp hc]
      rfl
  · rename_i hstate
    obtain ⟨w₁, hsend, hok⟩ := bind_eq_ok_iff.mp h
    cases hok
    obtain ⟨pkt, rfl, haddr, -⟩ := cfgmgr_send_autoconfiguration_search_spec hsend
    refine ⟨rfl, [_], rfl, fun c hc pkt' hpkt' => ?_⟩
    rw [List.mem_singleton.mp hc] at hpkt'
    cases hpkt'
    exact ⟨.inl hstate, haddr⟩
  · rename_i hstate
    obtain ⟨w₁, hsend, hok⟩ := bind_eq_ok_iff.mp h
    cases hok
    obtain ⟨pkt, rfl, haddr, -⟩ := cfgmgr_send_wsc_m1_spec hsend
    refine ⟨rfl, [_], rfl, fun c hc pkt' hpkt' => ?_⟩
    rw [List.mem_singleton.mp hc] at hpkt'
    cases hpkt'
    exact ⟨.inr hstate, haddr⟩
  · cases h
    exact ⟨rfl, .refl _ _ _⟩
  · cases h
    exact ⟨rfl, .refl _ _ _⟩

theorem cfgmgr_autoconf_search_timer_cb_sends {te : Ptr} {w w' : process}
    (h : cfgmgr_autoconf_search_timer_cb te w = ok w') :
    w'.backhaul = w.backhaul ∧
      SendsTo w.backhaul (∃ i, Sending (w.conf_state i)) w.calls w'.calls := by
  obtain ⟨⟨w₁, send₁⟩, hfirst, h⟩ := bind_eq_ok_iff.mp h
  obtain ⟨⟨w₂, send₂⟩, hsecond, hok⟩ := bind_eq_ok_iff.mp h
  cases hok
  obtain ⟨hback₁, hsends₁⟩ := cfgmgr_autoconf_radio_sends hfirst
  obtain ⟨hback₂, hsends₂⟩ := cfgmgr_autoconf_radio_sends hsecond
  have hstate : w₁.conf_state 1 = w.conf_state 1 := by
    rw [(cfgmgr_autoconf_radio_spec hfirst).1]
    rfl
  rw [hback₁, hstate] at hsends₂
  exact ⟨hback₂.trans hback₁,
    (hsends₁.mono fun h => ⟨0, h⟩).trans (hsends₂.mono fun h => ⟨1, h⟩)⟩

theorem expire_sends {w w' : process} {cur : Nat} (h : w.exec (.expire cur) = ok w') :
    w'.backhaul = w.backhaul ∧
      SendsTo w.backhaul (∃ i, Sending (w.conf_state i)) w.calls w'.calls := by
  rcases expire_cases h with ⟨_, rfl⟩ | ⟨te, timer, _, ⟨_, rfl⟩ | ⟨_, hcb⟩⟩
  · exact ⟨rfl, .refl _ _ _⟩
  · refine ⟨rfl, ?_⟩
    simp only [cfgmgr_regmsg_timer_cb, process.call, List.append_assoc]
    apply SendsTo.none
    decide
  · have hsends := cfgmgr_autoconf_search_timer_cb_sends hcb
    exact hsends

/-- The fields of the process are those of a controller-info response. -/
structure Describes (info : List UInt8) (w : process) : Prop where
  len : 20 ≤ info.length
  almac : readBytes info 2 ETH_ALEN = ok w.cfgmgr.bh_almac
  local_almac : readBytes info 8 ETH_ALEN = ok w.cfgmgr.bh_local_almac
  local_ifaddr : readBytes info 14 ETH_ALEN = ok w.cfgmgr.bh_local_ifaddr
  ifname : cstring w.cfgmgr.bh_local_ifname =
    (cstring (info.drop 20)).map (·.take (IF_NAMESIZE - 1))

theorem readBytes_whole {mem bs : List UInt8} {i n : Nat} (h : readBytes mem i n = ok bs) :
    readBytes bs 0 n = readBytes (mem.drop i) 0 n := by
  rw [readBytes_drop mem i le_rfl, Int.add_zero, h, ← readBytes_length h]
  exact readBytes_front (List.append_nil bs).symm

theorem Describes.toController {info pkt : List UInt8} {w : process} (h : Describes info w)
    (hpkt : Addressed w.cfgmgr.bh_almac w.cfgmgr.bh_local_almac w.cfgmgr.bh_local_ifaddr
      w.cfgmgr.bh_local_ifname pkt) : ToController info pkt := by
  obtain ⟨hlen, halmac, hlocal, hifaddr, hifname⟩ := h
  obtain ⟨hdest, hsrc, hal, hif, hname⟩ := hpkt
  refine ⟨hlen, ?_, ?_, ?_, ?_, ?_⟩
  · rw [hdest, readBytes_whole halmac]
  · rw [hsrc, readBytes_whole hlocal]
  · rw [hal, readBytes_whole hlocal]
  · rw [hif, readBytes_whole hifaddr]
  · rw [hname, hifname, Option.map_map]
    congr 1
    funext body
    simp

theorem backhaulReady_backhaul (w : process) :
    ((w.backhaulReady 0).backhaulReady 1).backhaul = w.backhaul := by
  unfold process.backhaulReady
  split <;> split <;> rfl

/-- What the handlers of CMDUs leave as it is. -/
def process.kept (w : process) : cfg_mgr.backhaul × UInt16 := (w.backhaul, w.cfgmgr.msgid)

theorem foldl_configure_kept (radios : List (Fin 2)) (w : process) :
    (radios.foldl process.configure w).kept = w.kept := by
  induction radios generalizing w with
  | nil => rfl
  | cons radio radios ih => exact ih (w.configure radio)

theorem cfgmgr_handle_packet_kept {w w' : process} {pkt : List UInt8}
    (h : cfgmgr_handle_packet w pkt = ok w') : w'.kept = w.kept := by
  rcases cfgmgr_handle_packet_cases h with ⟨_, rfl | hrenew⟩ | ⟨_, hwsc⟩ | ⟨i, _, rfl⟩
  · rfl
  · obtain ⟨len, _, h⟩ := bind_eq_ok_iff.mp hrenew
    obtain ⟨band, _, h⟩ := bind_eq_ok_iff.mp h
    split at h
    · cases h
      rfl
    · obtain ⟨dest, _, h⟩ := bind_eq_ok_iff.mp h
      obtain ⟨id, _, h⟩ := bind_eq_ok_iff.mp h
      obtain ⟨sent, rfl, _⟩ := cfgmgr_send_wsc_m1_spec h
      rfl
  · rcases cfgmgr_handle_autoconfiguration_wsc_cases hwsc with
      ⟨m2buf, _, rfl⟩ | ⟨m2buf, radios, _, _, rfl⟩
    · rfl
    · exact foldl_configure_kept radios (w.setM2buf m2buf)
  · rfl

/-- A controller-info response fills the fields of the process with its data. -/
theorem controller_info_describes {w : process} {data almac local_almac ifaddr ifname : List UInt8}
    (hheld : w.cfgmgr.bh_local_ifname.length = IF_NAMESIZE)
    (halmac : readBytes data 2 ETH_ALEN = ok almac)
    (hlocal : readBytes data 8 ETH_ALEN = ok local_almac)
    (hifaddr : readBytes data 14 ETH_ALEN = ok ifaddr)
    (hifname : snprintf_s w.cfgmgr.bh_local_ifname (data.drop 20) = ok ifname) {w' : process}
    (hback : w'.backhaul = ⟨almac, local_almac, ifaddr, ifname⟩) :
    Describes data w' ∧ w'.cfgmgr.bh_local_ifname.length = IF_NAMESIZE := by
  have hne : w.cfgmgr.bh_local_ifname ≠ [] := by
    rw [← List.length_pos_iff, hheld]
    decide
  obtain ⟨_, _, hlen, _⟩ := snprintf_s_spec hne hifname
  have hcname := snprintf_s_cstring hne hifname
  rw [hheld] at hlen hcname
  cases hback
  have hinside := (readBytes_eq_ok (by decide) hifaddr).2.1
  exact ⟨⟨hinside, halmac, hlocal, hifaddr, hcname⟩, hlen⟩

/-- Only a controller-info response changes the fields. -/
theorem cfgmgr_handle_msg_backhaul {w w' : process} {cmd : MbusMsgCcmd}
    {fromName toName data : List UInt8} (hheld : w.cfgmgr.bh_local_ifname.length = IF_NAMESIZE)
    (h : cfgmgr_handle_msg w cmd fromName toName data = ok w') :
    (message_request w.cfgmgr.m2buf cmd fromName toName data = ok .controller_info ∧
      Describes data w' ∧ w'.cfgmgr.bh_local_ifname.length = IF_NAMESIZE) ∨
    message_request w.cfgmgr.m2buf cmd fromName toName data ≠ ok .controller_info ∧
      w'.backhaul = w.backhaul := by
  cases cmd with
  | MBUS_CMD_NONE =>
    cases h
    exact .inr ⟨nofun, rfl⟩
  | MBUS_CMD_HEARTBEAT =>
    cases h
    exact .inr ⟨nofun, rfl⟩
  | MBUS_CMD_GROUP_MSG =>
    refine .inr ⟨fun hr => ?_, ?_⟩
    · obtain ⟨isGroup, _, hr⟩ := bind_eq_ok_iff.mp hr
      cases isGroup with
      | false => cases hr
      | true =>
        rcases packet_request_cases hr with hr | ⟨radios, hr⟩ | ⟨i, hr⟩
        · cases hr
        · cases hr
        · cases hr
    · obtain ⟨isGroup, _, h⟩ := bind_eq_ok_iff.mp h
      cases isGroup with
      | false =>
        cases h
        rfl
      | true => exact congrArg Prod.fst (cfgmgr_handle_packet_kept h)
  | MBUS_CMD_PRIVATE_MSG =>
    have hprivate : cfgmgr_handle_private_msg w fromName toName data = ok w' := h
    change private_request fromName toName data = ok .controller_info ∧ _ ∨
      private_request fromName toName data ≠ ok .controller_info ∧ _
    rcases cfgmgr_handle_private_msg_cases hprivate with
      ⟨hr, rfl⟩ | ⟨hr, almac, local_almac, ifaddr, ifname, halmac, hlocal, hifaddr, hifname, rfl⟩ |
        ⟨hr, rfl⟩
    · rw [hr]
      exact .inr ⟨nofun, rfl⟩
    · exact .inl ⟨hr, controller_info_describes hheld halmac hlocal hifaddr hifname
        (backhaulReady_backhaul _)⟩
    · rw [hr]
      exact .inr ⟨nofun, rfl⟩

/-- What holds between the controller-info response received last and the process. -/
structure KnowsController (known : Option (List UInt8)) (w : process) : Prop where
  ifname_len : w.cfgmgr.bh_local_ifname.length = IF_NAMESIZE
  unknown : known = none → ∀ i, ¬ Sending (w.conf_state i)
  describes : ∀ info ∈ known, Describes info w

theorem cfgmgr_main_knows (clock : Nat → Nat) (uninit : Nat → UInt8) :
    KnowsController none (cfgmgr_main clock uninit) := by
  refine ⟨rfl, fun _ i => ?_, fun info hinfo => by cases hinfo⟩
  rintro (hstate | hstate) <;> cases hstate

/-- A request that is no response makes no radio send that was not sending. -/
theorem not_sending_states {r : request} {conf_state : Fin 2 → ConfigStatus}
    (hresponse : ∀ i, r ≠ .response i) (hinfo : r ≠ .controller_info)
    (hquiet : ∀ i, ¬ Sending (conf_state i)) (i : Fin 2) : ¬ Sending (r.states conf_state i) := by
  cases r with
  | nothing => exact hquiet i
  | controller_info => exact absurd rfl hinfo
  | response j => exact absurd rfl (hresponse j)
  | m2 radios =>
    change ¬ Sending (if i ∈ radios then .AUTOCONF_CONFIGURED else conf_state i)
    split
    · rintro (hstate | hstate) <;> cases hstate
    · exact hquiet i
  | reconfig => rintro (hstate | hstate) <;> cases hstate

theorem not_sending_afterTick {state : ConfigStatus} (h : ¬ Sending state) :
    ¬ Sending (afterTick state) := by
  rw [afterTick, if_neg fun hstate => h (.inr hstate)]
  exact h

theorem Describes.of_backhaul {info : List UInt8} {w w' : process} (h : Describes info w)
    (hback : w'.backhaul = w.backhaul) : Describes info w' := by
  injection hback with halmac hlocal hifaddr hifname
  exact ⟨h.len, by rw [halmac]; exact h.almac, by rw [hlocal]; exact h.local_almac,
    by rw [hifaddr]; exact h.local_ifaddr, by rw [hifname]; exact h.ifname⟩

theorem step_knows {known : Option (List UInt8)} {w w' : process} {e : event}
    (hknows : KnowsController known w) (hearly : NoEarlyResponse known w e w') (h : Step w e w') :
    KnowsController (learned known w e w') w' := by
  obtain ⟨hheld, hquiet, hdescribes⟩ := hknows
  cases e with
  | expire cur =>
    have hback := (expire_sends h).1
    refine ⟨?_, fun hnone i => ?_, fun info hinfo => (hdescribes info hinfo).of_backhaul hback⟩
    · injection hback with _ _ _ hifname
      rw [hifname, hheld]
    · rcases expire_states h with hsame | htick
      · rw [hsame]
        exact hquiet hnone i
      · rw [htick]
        exact not_sending_afterTick (hquiet hnone i)
  | message cmd fromName toName data =>
    obtain ⟨r, hr, hserved⟩ := cfgmgr_handle_msg_served h
    rcases cfgmgr_handle_msg_backhaul hheld h with ⟨hinfo, hdata, hlen⟩ | ⟨hinfo, hback⟩
    · have hlearned : learned known w (.message cmd fromName toName data) w' = some data :=
        if_pos hinfo
      rw [hlearned]
      refine ⟨hlen, nofun, fun info hmem => ?_⟩
      cases hmem
      exact hdata
    · have hlearned : learned known w (.message cmd fromName toName data) w' = known :=
        if_neg hinfo
      rw [hlearned]
      refine ⟨?_, fun hnone i => ?_, fun info hmem => (hdescribes info hmem).of_backhaul hback⟩
      · injection hback with _ _ _ hifname
        rw [hifname, hheld]
      · rw [hserved.states]
        refine not_sending_states (fun j hj => ?_) (fun hr' => ?_) (hquiet hnone) i
        · exact hearly hnone j (hj ▸ hr)
        · exact hinfo (hr' ▸ hr)

theorem step_sends {known : Option (List UInt8)} {w w' : process} {e : event}
    (hknows : KnowsController known w) (h : Step w e w') : SendsToController known w e w' := by
  cases e with
  | message cmd fromName toName data => exact trivial
  | expire cur =>
    obtain ⟨_, new, hcalls, hnew⟩ := expire_sends h
    rw [SendsToController, hcalls, List.drop_left]
    intro c hc pkt hpkt
    obtain ⟨⟨i, hsending⟩, haddressed⟩ := hnew c hc pkt hpkt
    cases hknown : known with
    | none => exact absurd hsending (hknows.unknown hknown i)
    | some info => exact ⟨info, rfl, (hknows.describes info hknown).toController haddressed⟩

/-- In a run of the process that handles no autoconfiguration response before a
controller-info response, all that the timer sends goes to the controller known last. -/
theorem sends_to_known_controller (clock : Nat → Nat) (uninit : Nat → UInt8)
    {tr : List (event × process)} (hrun : Run Step (cfgmgr_main clock uninit) tr)
    (hearly : AllRecorded learned NoEarlyResponse none (cfgmgr_main clock uninit) tr) :
    AllRecorded learned SendsToController none (cfgmgr_main clock uninit) tr :=
  Run.allRecorded (Q := SendsToController) (J := KnowsController)
    (fun hknows _ h => step_sends hknows h) step_knows (cfgmgr_main_knows clock uninit) hrun hearly

/-- A controller-info response of the mesh agent. -/
def controller_info_message : event :=
  .message .MBUS_CMD_PRIVATE_MSG g_mesh_user_name g_cfgmgr_user_name
    (bytesU16 MESH_MSGCMD_CONTROLLER_INFO_RSP ++ [2, 0, 0, 0, 0, 1] ++ [2, 0, 0, 0, 0, 2] ++
      [2, 0, 0, 0, 0, 3] ++ cstr ['e', 't', 'h', '0'])

def band_response : event :=
  group_message (network_packet true MSG_AP_AUTOCONFIGURATION_RESPONSE 1 [0, 0, 0, 0, 0, 1]
    response_tlvs)

/-- The controller is found, the timers expire, and a response arrives. -/
def controller_then_response : List event :=
  [controller_info_message, .expire 10000000, .expire 10000000, band_response]

theorem sends_to_known_controller_once :
    Run Step started (runOf controller_then_response) ∧
      AllRecorded learned SendsToController none started (runOf controller_then_response) := by
  have hrun : Run Step started (runOf controller_then_response) :=
    run_trace_returning (by decide +kernel)
  exact ⟨hrun, sends_to_known_controller _ _ hrun (by decide +kernel)⟩

/-- A response comes first, and then the timers expire. -/
def response_at_start : List event := [band_response, .expire 10000000, .expire 10000000]

/-- With no controller known the timer sends an M1 from and to the zero address. -/
theorem early_response_sends_m1 :
    Run Step started (runOf response_at_start) ∧
      ¬ AllRecorded learned SendsToController none started (runOf response_at_start) := by
  have h : Enabled (fun w e => (process.exec w e).Returns) (fun w e => (w.exec e).getD w) started
        response_at_start ∧
      ¬ AllRecorded learned SendsToController none started (runOf response_at_start) := by
    decide +kernel
  exact ⟨run_trace_returning h.1, h.2⟩

end easymesh.cfg_mgr
