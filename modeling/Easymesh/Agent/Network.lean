import Easymesh.Agent.BpfFilter
import Easymesh.Agent.Cmdu
import Easymesh.Timer.MinHeap
import Easymesh.Tlv.RoundTrip

open Lib Lib.Result easymesh.cmdu easymesh.minheap easymesh.tlv_parser

namespace easymesh.ieee1905_network

def IF_ACCEPT : Int := 0

def IF_DROP : Int := 1

/-- `struct _NetworkInterface`, as far as sending uses it; `filters` are the
callbacks of the nodes of the list. -/
structure NetworkInterface (φ : Type) where
  fd : Int
  addr : MacAddr
  ifname : List UInt8
  al_addr : MacAddr
  topo_timer : Ptr
  filters : List φ

/-- What the callback of a filter and the socket return for a frame that is sent,
and what becomes of all they work on. -/
structure if_env (φ ε : Type) where
  cb : φ → NetworkInterface φ → List UInt8 → ε → Int × ε
  send : Int → List UInt8 → ε → Int × ε

section Send

variable {φ ε : Type} (net : if_env φ ε) (interface : NetworkInterface φ) (buf : List UInt8)

/-- The loop of `if_filter_before_send`, with `ret` as the last filter left it. -/
def if_filter_before_send.loop : List φ → Int → ε → Int × ε
  | [], ret, env => (ret, env)
  | filter :: rest, _, env =>
    let (ret, env) := net.cb filter interface buf env
    if ret = IF_DROP then (IF_DROP, env) else loop rest ret env

def if_filter_before_send (env : ε) : Int × ε :=
  if_filter_before_send.loop net interface buf interface.filters IF_ACCEPT env

def linux_if_send (env : ε) : Int × ε :=
  if interface.fd = 0 then (-1, env) else net.send interface.fd buf env

def if_send (env : ε) : Int × ε :=
  let (ret, env) := if_filter_before_send net interface buf env
  if ret = IF_DROP then (-1, env) else linux_if_send net interface buf env

/-- The interface has a socket, none of its filters drops the frame, and the
socket takes it. -/
def Sends (env : ε) : Prop :=
  interface.fd ≠ 0 ∧ (if_filter_before_send net interface buf env).1 ≠ IF_DROP ∧
    0 ≤ (net.send interface.fd buf (if_filter_before_send net interface buf env).2).1

instance (env : ε) : Decidable (Sends net interface buf env) :=
  inferInstanceAs (Decidable (_ ∧ _))

theorem if_send_nonneg_iff (env : ε) :
    0 ≤ (if_send net interface buf env).1 ↔ Sends net interface buf env := by
  unfold if_send Sends
  generalize if_filter_before_send net interface buf env = filtered
  obtain ⟨ret, env'⟩ := filtered
  dsimp only
  by_cases hdrop : ret = IF_DROP
  · rw [if_pos hdrop]
    exact iff_of_false (show ¬ (0 : Int) ≤ -1 by decide) fun h => h.2.1 hdrop
  · rw [if_neg hdrop, linux_if_send]
    by_cases hfd : interface.fd = 0
    · rw [if_pos hfd]
      exact iff_of_false (show ¬ (0 : Int) ≤ -1 by decide) fun h => h.1 hfd
    · rw [if_neg hfd]
      exact ⟨fun h => ⟨hfd, hdrop, h⟩, fun h => h.2.2⟩

end Send

section Frame

variable {φ ε : Type} (net : if_env φ ε) (interface : NetworkInterface φ) (header : List UInt8)
  (list : List (tlv_type × List UInt8))

/-- A header and the TLVs behind it. -/
def tlv_frame : List UInt8 := header ++ encodeAll (list.map tlv_node)

/-- How the senders print their TLVs into the 512-byte `buffer` that begins with
`header`. `uninit` is what fresh heap memory holds, and a failed print returns `NULL`,
which the copy reads from. -/
def send_tlvs (uninit : Nat → UInt8) (env : ε) : Result (Int × ε) := do
  let pstRoot ← flat_object list
  let pr ← Kami_Tlv_Print uninit pstRoot
  let printed ← readBytes (pr.getD []) 0 (Kami_Tlv_ObjectLength pstRoot)
  let buffer ← writeBytes (header ++ List.replicate (512 - sizeof_cmdu_raw_msg) 0)
    sizeof_cmdu_raw_msg printed
  ok (if_send net interface
    (buffer.take (sizeof_cmdu_raw_msg + Kami_Tlv_ObjectLength pstRoot)) env)

variable {net interface header list}

/-- TLVs that fit the buffer are sent behind the header. -/
theorem send_tlvs_eq (uninit : Nat → UInt8) (env : ε) (hheader : header.length = sizeof_cmdu_raw_msg)
    (hfits : (encodeAll (list.map tlv_node)).length ≤ 490) :
    send_tlvs net interface header list uninit env =
      ok (if_send net interface (tlv_frame header list) env) := by
  have hsize : ∀ item ∈ list, item.2.length ≤ 65535 := by
    intro item hitem
    rw [encodeAll_nodes_length] at hfits
    have hle := List.le_sum_of_mem (List.mem_map_of_mem (f := fun item => 3 + item.2.length) hitem)
    omega
  obtain ⟨pstRoot, hroot, hbuilt, hobject, hchild⟩ := flat_object_from hsize .object rfl
  have hcons := hbuilt.consistent (.inl rfl)
  have hbytes : encode pstRoot = encodeAll (list.map tlv_node) := by
    rw [encode_object hobject, hchild]
    rfl
  have hcount : Kami_Tlv_ObjectLength pstRoot = (encodeAll (list.map tlv_node)).length := by
    have hholder := hcons.holder (by rw [hobject]; exact nofun)
    rw [Kami_Tlv_ObjectLength, hholder.length, ← encode_object hobject, hbytes]
    exact UInt16.toNat_ofNat_of_lt' (by rw [UInt16.size]; omega)
  obtain ⟨more, hprint⟩ := Kami_Tlv_Print_spec uninit (.inl rfl) hcons
    (by rw [hbytes]; unfold INT_MAX; omega)
  have hcopy : readBytes (encodeAll (list.map tlv_node) ++ more) 0
      (encodeAll (list.map tlv_node)).length = ok (encodeAll (list.map tlv_node)) :=
    readBytes_front rfl
  obtain ⟨buffer, hwrite, -, htake⟩ := @writeBytes_inside
    (header ++ List.replicate (512 - sizeof_cmdu_raw_msg) 0) (encodeAll (list.map tlv_node))
    sizeof_cmdu_raw_msg (by
      rw [List.length_append, hheader, List.length_replicate]
      unfold sizeof_cmdu_raw_msg
      omega)
  rw [List.take_left' hheader] at htake
  rw [send_tlvs, flat_object, hroot, ok_bind, hprint, hbytes, hcount, ok_bind, Option.getD_some,
    hcopy, ok_bind, hwrite, ok_bind, htake, tlv_frame]

end Frame

section Discovery

variable {φ ε : Type} (interface : NetworkInterface φ)

def topology_dest_addr : List UInt8 := [0x01, 0x80, 0xc2, 0x00, 0x00, 0x13]

/-- The TLVs of a topology discovery. -/
def discovery_tlvs : List (tlv_type × List UInt8) :=
  [(0x01, interface.al_addr.toList),
    (0x02, interface.addr.toList),
    (0x0b, [0x00, 0x0c, 0xe7, 0xff, 0x00, 0x0c, 0xe7, 0x00]),
    (0x00, [])]

/-- The header of a topology discovery, whose message type and id stay 0. -/
def discovery_header : List UInt8 :=
  cmdu_raw_msg topology_dest_addr interface.al_addr.toList 0 0

def send_topology_discovery (net : if_env φ ε) (uninit : Nat → UInt8) (env : ε) :
    Result (Int × ε) :=
  send_tlvs net interface (discovery_header interface) (discovery_tlvs interface) uninit env

/-- The frame that a topology discovery is sent as. -/
def discovery_frame : List UInt8 :=
  tlv_frame (discovery_header interface) (discovery_tlvs interface)

theorem discovery_header_length : (discovery_header interface).length = sizeof_cmdu_raw_msg := by
  simp only [discovery_header, cmdu_raw_msg, topology_dest_addr, bytesU16, List.length_append,
    List.length_cons, List.length_nil, Vector.length_toList]
  rfl

theorem discovery_tlvs_length :
    (encodeAll ((discovery_tlvs interface).map tlv_node)).length = 32 := by
  rw [encodeAll_nodes_length]
  simp only [discovery_tlvs, List.map_cons, List.map_nil, List.sum_cons, List.sum_nil,
    Vector.length_toList, List.length_cons, List.length_nil]
  rfl

/-- Building the frame cannot fail. -/
theorem send_topology_discovery_eq (net : if_env φ ε) (uninit : Nat → UInt8) (env : ε) :
    send_topology_discovery interface net uninit env =
      ok (if_send net interface (discovery_frame interface) env) :=
  send_tlvs_eq uninit env (discovery_header_length interface)
    (Nat.le_trans (Nat.le_of_eq (discovery_tlvs_length interface)) (by decide))

end Discovery

end easymesh.ieee1905_network
