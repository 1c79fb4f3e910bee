import Easymesh.Agent.Network

open Lib Lib.Result easymesh.cmdu easymesh.tlv_parser

namespace easymesh.ieee1905_network

def MSG_TOPOLOGY_DISCOBERY : UInt16 := 0x0000

def MSG_TOPOLOGY_QUERY : UInt16 := 0x0002

def MSG_TOPOLOGY_RESPONSE : UInt16 := 0x0003

def MSG_AP_CAPABILITY_QUERY : UInt16 := 0x8001

def MSG_AP_CAPABILITY_REPORT : UInt16 := 0x8002

def SUP_SERVICE_CONTROLLER : UInt8 := 0x00

structure nbr_1905dev where
  al_addr : MacAddr
  sup_service : UInt8
  deriving DecidableEq

/-- An interface with its list of neighbours. -/
structure cmdu_interface (φ : Type) extends NetworkInterface φ where
  nbr_1905 : List nbr_1905dev

section Response

variable {φ ε : Type} (interface : cmdu_interface φ) (dest : MacAddr) (msg_id : UInt16)

/-- `tlv_type_1905_device_info` with the one `local_if_dev_info` that is sent: the media
type and the length of the special information are 0. -/
def dev_info : List UInt8 :=
  interface.al_addr.toList ++ [1] ++ (interface.addr.toList ++ bytesU16 0x0000 ++ [0])

/-- `tlv_type_dev_bridging_capa` -/
def brg_capa : List UInt8 := [1, 1] ++ interface.addr.toList

/-- `ngr_dev.nbr_addr` after the loop over the neighbours, each of which is copied there. -/
def nbr_addr : MacAddr :=
  interface.nbr_1905.foldl (fun _ dev => dev.al_addr) (Vector.replicate 6 0)

/-- `tlv_type_1905_nbr_dev` -/
def ngr_dev : List UInt8 := interface.addr.toList ++ (nbr_addr interface).toList ++ [0x80]

/-- `tlv_type_supported_service_info` -/
def sup_info : List UInt8 := [1, 1]

def response_tlvs : List (tlv_type × List UInt8) :=
  [(0x03, dev_info interface),
    (0x04, brg_capa interface),
    (0x07, ngr_dev interface),
    (0x80, sup_info),
    (0x00, [])]

def response_header : List UInt8 :=
  cmdu_raw_msg dest.toList interface.al_addr.toList (htons MSG_TOPOLOGY_RESPONSE) msg_id

def send_topology_response (net : if_env φ ε) (uninit : Nat → UInt8) (env : ε) :
    Result (Int × ε) :=
  send_tlvs net interface.toNetworkInterface (response_header interface dest msg_id)
    (response_tlvs interface) uninit env

/-- The frame that a topology response is sent as. -/
def response_frame : List UInt8 :=
  tlv_frame (response_header interface dest msg_id) (response_tlvs interface)

theorem cmdu_raw_msg_length (dest src : MacAddr) (type msg_id : UInt16) :
    (cmdu_raw_msg dest.toList src.toList type msg_id).length = sizeof_cmdu_raw_msg := by
  simp only [cmdu_raw_msg, bytesU16, List.length_append, List.length_cons, List.length_nil,
    Vector.length_toList]
  rfl

theorem response_tlvs_length :
    (encodeAll ((response_tlvs interface).map tlv_node)).length = 54 := by
  rw [encodeAll_nodes_length]
  simp only [response_tlvs, dev_info, brg_capa, ngr_dev, sup_info, bytesU16, List.map_cons,
    List.map_nil, List.sum_cons, List.sum_nil, Vector.length_toList, List.length_append,
    List.length_cons, List.length_nil]
  rfl

theorem send_topology_response_eq (net : if_env φ ε) (uninit : Nat → UInt8) (env : ε) :
    send_topology_response interface dest msg_id net uninit env =
      ok (if_send net interface.toNetworkInterface (response_frame interface dest msg_id) env) :=
  send_tlvs_eq uninit env (cmdu_raw_msg_length _ _ _ _)
    (Nat.le_trans (Nat.le_of_eq (response_tlvs_length interface)) (by decide))

end Response

section Reported

/-- The neighbours in the value of a 0x07 TLV behind the address of the interface, an
address and a byte of flags each. -/
def nbr_records : List UInt8 → List (List UInt8)
  | a :: b :: c :: d :: e :: f :: _ :: rest => [a, b, c, d, e, f] :: nbr_records rest
  | _ => []

/-- The neighbour addresses that a frame reports to one who parses it. -/
def reported_nbrs (frame : List UInt8) : List (List UInt8) :=
  match Kami_Tlv_ParseObject (tlvs frame) (tlvs frame).length 1 with
  | ok (some pstRoot) =>
    (pstRoot.child.filter fun pstTlv => pstTlv.type = 0x07).flatMap fun pstTlv =>
      nbr_records (pstTlv.value.drop 6)
  | _ => []

variable {φ ε : Type} (interface : cmdu_interface φ) (dest : MacAddr) (msg_id : UInt16)

/-- A topology response reports the neighbours in the list, each exactly once, and no
other. -/
def ReportsNbrs : Prop :=
  (reported_nbrs (response_frame interface dest msg_id)).Perm
    (interface.nbr_1905.map fun dev => dev.al_addr.toList)

theorem nbr_records_one (mac : MacAddr) (flags : UInt8) :
    nbr_records (mac.toList ++ [flags]) = [mac.toList] := by
  have hlength := mac.length_toList
  match h : mac.toList, hlength with
  | [a, b, c, d, e, f], _ => rfl

/-- What is parsed from a frame are its TLVs, up to a last one without a value. -/
theorem parse_tlv_frame {header : List UInt8} {list : List (tlv_type × List UInt8)}
    (hheader : header.length = sizeof_cmdu_raw_msg)
    (hmin : 3 ≤ (encodeAll (list.map tlv_node)).length)
    (hmax : (encodeAll (list.map tlv_node)).length ≤ 65535) :
    ∃ pstRoot, Kami_Tlv_ParseObject (tlvs (tlv_frame header list))
        (tlvs (tlv_frame header list)).length 1 = ok (some pstRoot) ∧
      pstRoot.child = (kept (list.map tlv_node)).map (parsed 1) := by
  have hsize : ∀ item ∈ list, item.2.length ≤ 65535 := by
    intro item hitem
    rw [encodeAll_nodes_length] at hmax
    have hle := List.le_sum_of_mem (List.mem_map_of_mem (f := fun item => 3 + item.2.length) hitem)
    omega
  have htlvs : tlvs (tlv_frame header list) = encodeAll (list.map tlv_node) :=
    List.drop_left' hheader
  obtain ⟨pstRoot, -, hbuilt, hobject, hchild⟩ := flat_object_from hsize .object rfl
  have hcons := ((hbuilt.consistent (.inl rfl)).holder (by rw [hobject]; exact nofun)).child
  have hnodes : pstRoot.child = list.map tlv_node := hchild
  rw [hnodes] at hcons
  obtain ⟨pstParsed, hparse, hparsed⟩ := Kami_Tlv_ParseObject_level (.inl rfl) hcons hmin hmax []
  rw [List.append_nil] at hparse
  rw [level_nodes] at hparsed
  rw [htlvs]
  exact ⟨pstParsed, hparse, hparsed⟩

/-- One neighbour is reported, whatever the list. -/
theorem reported_response :
    reported_nbrs (response_frame interface dest msg_id) = [(nbr_addr interface).toList] := by
  have hlength := response_tlvs_length interface
  obtain ⟨pstRoot, hparse, hchild⟩ := parse_tlv_frame
    (cmdu_raw_msg_length dest interface.al_addr (htons MSG_TOPOLOGY_RESPONSE) msg_id)
    (by rw [hlength]; decide) (by rw [hlength]; decide)
  have hnodes : kept ((response_tlvs interface).map tlv_node) =
      [(0x03, dev_info interface), (0x04, brg_capa interface), (0x07, ngr_dev interface),
        (0x80, sup_info)].map tlv_node := rfl
  have hvalue : (ngr_dev interface).drop 6 = (nbr_addr interface).toList ++ [0x80] := by
    rw [ngr_dev, List.append_assoc]
    exact List.drop_left' interface.addr.length_toList
  rw [hnodes] at hchild
  rw [reported_nbrs, response_frame, response_header, hparse]
  dsimp only
  rw [hchild]
  change nbr_records ((ngr_dev interface).drop 6) ++ [] = _
  rw [hvalue, nbr_records_one, List.append_nil]

theorem nbr_addr_single {dev : nbr_1905dev} (h : interface.nbr_1905 = [dev]) :
    nbr_addr interface = dev.al_addr := by
  rw [nbr_addr, h]
  rfl

/-- A topology response reports the list of neighbours exactly when there is one of them. -/
theorem topology_response_reports_iff (net : if_env φ ε) (uninit : Nat → UInt8) (env : ε) :
    send_topology_response interface dest msg_id net uninit env =
        ok (if_send net interface.toNetworkInterface (response_frame interface dest msg_id) env) ∧
      (ReportsNbrs interface dest msg_id ↔ interface.nbr_1905.length = 1) := by
  refine ⟨send_topology_response_eq interface dest msg_id net uninit env, ?_⟩
  rw [ReportsNbrs, reported_response]
  constructor
  · intro hperm
    have hlength := hperm.length_eq
    rw [List.length_map] at hlength
    exact hlength.symm
  · intro hone
    obtain ⟨dev, hdev⟩ := List.length_eq_one_iff.mp hone
    rw [nbr_addr_single interface hdev, hdev]
    exact .refl _

end Reported

/-- An interface with the neighbours of these addresses. -/
def with_nbrs (nbrs : List MacAddr) : cmdu_interface Unit where
  fd := 5
  addr := #v[2, 0, 0, 0, 0, 16]
  ifname := List.replicate 16 0
  al_addr := #v[2, 0, 0, 0, 0, 17]
  topo_timer := 1
  filters := []
  nbr_1905 := nbrs.map fun al_addr => { al_addr, sup_service := SUP_SERVICE_CONTROLLER }

/-- Of two neighbours only the second is reported, and with none a neighbour of zeros. -/
theorem topology_response_two_and_none :
    ¬ ReportsNbrs (with_nbrs [#v[2, 0, 0, 0, 0, 1], #v[2, 0, 0, 0, 0, 2]]) #v[2, 0, 0, 0, 0, 9] 1 ∧
      ¬ ReportsNbrs (with_nbrs []) #v[2, 0, 0, 0, 0, 9] 1 := by
  constructor
  · intro h
    have hlength := h.length_eq
    rw [reported_response] at hlength
    cases hlength
  · intro h
    have hlength := h.length_eq
    rw [reported_response] at hlength
    cases hlength

end easymesh.ieee1905_network
