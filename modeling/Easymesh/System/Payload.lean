import Easymesh.Agent.Main
import Easymesh.CfgMgr.Handlers
import Easymesh.Tlv.Inside

open Lib Lib.Result easymesh.tlv_parser easymesh.cmdu easymesh.ieee1905_network
open easymesh.mesh_agent easymesh.cfg_mgr

namespace easymesh.system

/-- A read of a handler in the payload of a message. -/
inductive payload_read where
  | bytes (off n : Nat)
  /-- a string, up to its NUL -/
  | string (off : Nat)
  /-- the name that `get_if_by_name` compares -/
  | search (interfaces : List mesh_interface) (off : Nat)
  /-- the memory that `Kami_Tlv_ParseObject` is given -/
  | parse (off : Nat) (iLength : Int)

/-- The read returns on memory that ends where the payload ends. -/
def payload_read.Inside (data : List UInt8) : payload_read → Prop
  | bytes off n => (readBytes data off n).Returns
  | string off => (strlen (data.drop off)).Returns
  | search interfaces off => (get_if_by_name interfaces (data.drop off)).Returns
  | parse off iLength => (Kami_Tlv_ParseObject (data.drop off) iLength 1).Returns

def ReadsInside (data : List UInt8) (reads : List payload_read) : Prop :=
  ∀ r ∈ reads, r.Inside data

section Reads

variable (data : List UInt8)

/-- What the filter copies, and what the socket sends. -/
def if_send_reads (interface : mesh_interface) (len : Int) : List payload_read :=
  .bytes 40 len.toNat :: if interface.fd = 0 then [] else [.bytes 40 (toSize len)]

/-- The name is printed when it was found. -/
def forward_cmdu_to_interface_reads (interfaces : List mesh_interface) : List payload_read :=
  .search interfaces 8 ::
    match get_if_by_name interfaces (pkt_ifname data) with
    | ok (some interface) =>
      [.string 8, .bytes 36 4] ++
        match packet_len data with
        | ok len => if_send_reads interface len
        | _ => []
    | _ => []

/-- What `mesh_handle_packet` reads of the payload. -/
def mesh_handle_packet_reads (interfaces : List mesh_interface) : List payload_read :=
  .bytes 4 4 ::
    if packet_to data = ok PKT_NETWORK then forward_cmdu_to_interface_reads data interfaces else []

def mesh_handle_group_msg_reads (interfaces : List mesh_interface) (toName : List UInt8) :
    List payload_read :=
  if strcmp_eq toName mesh_agent.g_mesh_group_name = ok true then
    mesh_handle_packet_reads data interfaces
  else []

/-- A band that is found is answered with an M1 to `src_addr`, under `msg_id`, from the
addresses and the name in the packet. -/
def cfgmgr_handle_autoconfiguration_renew_reads (len : Int) : List payload_read :=
  .parse 62 (wrap32 (len - sizeof_cmdu_raw_msg)) ::
    match cfgmgr_parse_autoconfiguration_renew (packet data) len with
    | ok freq_band =>
      if freq_band < 0 then []
      else [.bytes 46 ETH_ALEN, .bytes 58 2, .bytes 30 ETH_ALEN, .bytes 24 ETH_ALEN, .string 8]
    | _ => []

def cfgmgr_handle_autoconfiguration_response_reads (len : Int) : List payload_read :=
  [.parse 62 (wrap32 (len - sizeof_cmdu_raw_msg))]

def m2buf_store_reads (m2buf : GrowBuffer) (off n : Nat) : List payload_read :=
  if (cfg_mgr_ensure_m2buf m2buf n).isSome then [.bytes off n] else []

def cfgmgr_handle_autoconfiguration_wsc_reads (m2buf : GrowBuffer) (len : Int) :
    List payload_read :=
  .bytes 61 1 ::
    match Flags_last_fragment (packet data) with
    | ok last =>
      if last = false ∧ m2buf.offset = 0 then m2buf_store_reads m2buf 40 (toSize len)
      else m2buf_store_reads m2buf 62 (toSize (len - sizeof_cmdu_raw_msg))
    | _ => []

/-- What `cfgmgr_handle_packet` reads of a packet with these fields. -/
def cfgmgr_switch_reads (m2buf : GrowBuffer) (pktFrom : Int) (type : UInt16) (len : Int) :
    List payload_read :=
  if pktFrom = PKT_LOCAL ∧ type = MSG_AP_AUTOCONFIGURATION_WSC then []
  else if type = MSG_AP_AUTOCONFIGURATION_RENEW then
    cfgmgr_handle_autoconfiguration_renew_reads data len
  else if type = MSG_AP_AUTOCONFIGURATION_WSC then
    cfgmgr_handle_autoconfiguration_wsc_reads data m2buf len
  else if type = MSG_AP_AUTOCONFIGURATION_RESPONSE then
    cfgmgr_handle_autoconfiguration_response_reads len
  else []

/-- All of `from`, `to`, the name and the length are printed first. -/
def cfgmgr_handle_packet_reads (m2buf : GrowBuffer) : List payload_read :=
  [.bytes 0 4, .bytes 4 4, .string 8, .bytes 36 4, .bytes 56 2] ++
    match packet_from data, msg_type (packet data), packet_len data with
    | ok pktFrom, ok type, ok len => cfgmgr_switch_reads data m2buf pktFrom (ntohs type) len
    | _, _, _ => []

def cfgmgr_handle_group_msg_reads (m2buf : GrowBuffer) (toName : List UInt8) : List payload_read :=
  if strcmp_eq toName cfg_mgr.g_mesh_group_name = ok true then
    cfgmgr_handle_packet_reads data m2buf
  else []

end Reads

/-- A payload that the agent forwards as far as it goes: the name ends, unless no
interface has a name that begins with the rest of the payload, and the packet for an
interface that is found is all there. -/
structure ForwardFits (interfaces : List mesh_interface) (data : List UInt8) : Prop where
  header : 8 ≤ data.length
  name : packet_to data = ok PKT_NETWORK →
    (0 : UInt8) ∈ pkt_ifname data ∨
      ∀ interface ∈ interfaces, ¬ pkt_ifname data <+: interface.ifname
  frame : packet_to data = ok PKT_NETWORK → ∀ interface,
    get_if_by_name interfaces (pkt_ifname data) = ok (some interface) →
      40 ≤ data.length ∧ ∀ len, packet_len data = ok len →
        (len < 0 → interface.fd = 0) ∧ 40 + len.toNat ≤ data.length

/-- The size that `m2buf` is asked to have room for. -/
def fragment_len (m2buf : GrowBuffer) (last : Bool) (len : Int) : Int :=
  if last = false ∧ m2buf.offset = 0 then len else len - sizeof_cmdu_raw_msg

/-- A payload that holds its headers with a name that ends. In a renew and a response
the TLVs are whole for as far as `packet_len` goes, and a part of an M2 for which there is
room in `m2buf` is all there. -/
structure PacketFits (m2buf : GrowBuffer) (data : List UInt8) : Prop where
  header : 58 ≤ data.length
  name : (0 : UInt8) ∈ pkt_ifname data
  parsed : ∀ type len, msg_type (packet data) = ok type → packet_len data = ok len →
    ntohs type = MSG_AP_AUTOCONFIGURATION_RENEW ∨
      ntohs type = MSG_AP_AUTOCONFIGURATION_RESPONSE →
    22 ≤ len ∧ TlvsWithin 1 (data.drop 62) (len - 22).toNat
  stored : ∀ type len, msg_type (packet data) = ok type → packet_len data = ok len →
    ntohs type = MSG_AP_AUTOCONFIGURATION_WSC → packet_from data ≠ ok PKT_LOCAL →
    62 ≤ data.length ∧ ∀ last, Flags_last_fragment (packet data) = ok last →
      (cfg_mgr_ensure_m2buf m2buf (toSize (fragment_len m2buf last len))).isSome →
      40 + len ≤ data.length

section Lists

variable {data : List UInt8} {r : payload_read} {reads more : List payload_read}

@[simp] theorem readsInside_nil : ReadsInside data [] := nofun

@[simp] theorem readsInside_cons :
    ReadsInside data (r :: reads) ↔ r.Inside data ∧ ReadsInside data reads :=
  List.forall_mem_cons

@[simp] theorem readsInside_append :
    ReadsInside data (reads ++ more) ↔ ReadsInside data reads ∧ ReadsInside data more :=
  List.forall_mem_append

@[simp] theorem inside_bytes_iff {off n : Nat} :
    (payload_read.bytes off n).Inside data ↔ n = 0 ∨ off + n ≤ data.length :=
  readBytes_returns_iff

@[simp] theorem inside_string_iff {off : Nat} :
    (payload_read.string off).Inside data ↔ (0 : UInt8) ∈ data.drop off :=
  strlen_returns_iff

end Lists

section Forward

variable {data : List UInt8} {interfaces : List mesh_interface} {len : Int}

theorem if_send_reads_inside_iff (interface : mesh_interface) (hlength : data.length ≤ INT_MAX)
    (hheader : 40 ≤ data.length) (hlo : -2147483648 ≤ len) (hhi : len ≤ 2147483647) :
    ReadsInside data (if_send_reads interface len) ↔
      (len < 0 → interface.fd = 0) ∧ 40 + len.toNat ≤ data.length := by
  have hcopy : len.toNat = 0 ∨ 40 + len.toNat ≤ data.length ↔ 40 + len.toNat ≤ data.length := by
    omega
  rw [if_send_reads, readsInside_cons, inside_bytes_iff, hcopy, and_comm]
  by_cases hfd : interface.fd = 0
  · rw [if_pos hfd]
    exact and_congr_left' (iff_of_true readsInside_nil fun _ => hfd)
  · rw [if_neg hfd, readsInside_cons, inside_bytes_iff, and_iff_left readsInside_nil]
    apply and_congr_left
    intro hin
    by_cases hneg : len < 0
    · have hhuge := toSize_of_neg hlo hneg
      unfold INT_MAX at hlength
      exact iff_of_false (by omega) fun h => hfd (h hneg)
    · have hsize := toSize_of_nonneg (x := len) (by omega) (by omega)
      exact iff_of_true (by omega) fun h => absurd h hneg

theorem packet_len_of_le (h : 40 ≤ data.length) : ∃ len, packet_len data = ok len :=
  readI32_of_le data (by decide) h

/-- Reading what the socket sends is enough. -/
theorem if_send_reads_of_read {interface : mesh_interface} {buf : List UInt8}
    (hlen : packet_len data = ok len) (hbuf : readBytes (packet data) 0 (toSize len) = ok buf) :
    ReadsInside data (if_send_reads interface len) := by
  have hsize : (payload_read.bytes 40 (toSize len)).Inside data := by
    rw [packet, readBytes_drop data sizeof_mesh_packet le_rfl] at hbuf
    exact ⟨buf, hbuf⟩
  have hcopy : (payload_read.bytes 40 len.toNat).Inside data := by
    have hin := inside_bytes_iff.mp hsize
    obtain ⟨hlo, hhi⟩ := readI32_bounds hlen
    refine inside_bytes_iff.mpr ?_
    unfold toSize at hin
    omega
  refine readsInside_cons.mpr ⟨hcopy, ?_⟩
  split
  · exact readsInside_nil
  · exact readsInside_cons.mpr ⟨hsize, readsInside_nil⟩

theorem mesh_handle_packet_reads_inside_iff (hlength : data.length ≤ INT_MAX) :
    ReadsInside data (mesh_handle_packet_reads data interfaces) ↔ ForwardFits interfaces data := by
  have hread : (4 = 0 ∨ 4 + 4 ≤ data.length) ↔ 8 ≤ data.length := by omega
  rw [mesh_handle_packet_reads, readsInside_cons, inside_bytes_iff, hread]
  by_cases hto : packet_to data = ok PKT_NETWORK
  · rw [if_pos hto, forward_cmdu_to_interface_reads, readsInside_cons, payload_read.Inside,
      get_if_by_name_returns_iff]
    constructor
    · rintro ⟨hheader, hname, hrest⟩
      refine ⟨hheader, fun _ => hname, fun _ interface hfound => ?_⟩
      rw [hfound] at hrest
      obtain ⟨hprinted, hsend⟩ := readsInside_append.mp hrest
      have hfield : 40 ≤ data.length := by
        have hin := inside_bytes_iff.mp (hprinted (.bytes 36 4) (by simp))
        omega
      refine ⟨hfield, fun len hlen => ?_⟩
      obtain ⟨hlo, hhi⟩ := readI32_bounds hlen
      rw [hlen] at hsend
      exact (if_send_reads_inside_iff interface hlength hfield hlo hhi).mp hsend
    · rintro ⟨hheader, hname, hframe⟩
      refine ⟨hheader, hname hto, ?_⟩
      split
      · next interface hfound =>
        obtain ⟨hfield, hsend⟩ := hframe hto interface hfound
        obtain ⟨len, hlen⟩ := packet_len_of_le hfield
        obtain ⟨hlo, hhi⟩ := readI32_bounds hlen
        have hnul := get_if_by_name_terminated hfound
        have hsent := (if_send_reads_inside_iff interface hlength hfield hlo hhi).mpr (hsend len hlen)
        rw [hlen]
        refine readsInside_append.mpr ⟨?_, hsent⟩
        exact readsInside_cons.mpr ⟨inside_string_iff.mpr hnul,
          readsInside_cons.mpr ⟨inside_bytes_iff.mpr (.inr hfield), readsInside_nil⟩⟩
      · exact readsInside_nil
  · rw [if_neg hto, and_iff_left readsInside_nil]
    exact ⟨fun h => ⟨h, fun hnet => absurd hnet hto, fun hnet => absurd hnet hto⟩, fun h => h.header⟩

end Forward

section Switch

variable {data : List UInt8} {m2buf : GrowBuffer} {len : Int}

theorem tlvs_packet (data : List UInt8) : tlvs (packet data) = data.drop 62 := List.drop_drop

theorem parse_inside_iff (hlength : data.length ≤ INT_MAX) (hlo : -2147483648 ≤ len)
    (hhi : len ≤ 2147483647) :
    (payload_read.parse 62 (wrap32 (len - sizeof_cmdu_raw_msg))).Inside data ↔
      22 ≤ len ∧ TlvsWithin 1 (data.drop 62) (len - 22).toNat := by
  have hdrop : (data.drop 62).length = data.length - 62 := List.length_drop
  have hmem : (data.drop 62).length + 8 ≤ INT_MAX := by
    unfold INT_MAX at *
    omega
  have hiff := @Kami_Tlv_ParseObject_returns_iff_whole (data.drop 62) _ 1 (.inl rfl)
    (wrap32_lo (len - sizeof_cmdu_raw_msg)) (wrap32_hi _) hmem
  have hwrap : wrap32 (len - sizeof_cmdu_raw_msg) = len - 22 ∨
      len < 22 ∧ 2147483626 ≤ wrap32 (len - sizeof_cmdu_raw_msg) := by
    unfold wrap32 sizeof_cmdu_raw_msg
    omega
  rw [payload_read.Inside, hiff]
  generalize wrap32 (len - sizeof_cmdu_raw_msg) = iLength at hwrap
  rcases hwrap with rfl | ⟨hshort, hhuge⟩
  · rw [Int.sub_nonneg]
  · refine iff_of_false ?_ fun h => absurd h.1 (by omega)
    rintro ⟨-, hwithin⟩
    have := hwithin.le_length
    unfold INT_MAX at hlength
    omega

/-- A band is found in a packet that has TLVs. -/
theorem freq_band_found {band : Int}
    (h : cfgmgr_parse_autoconfiguration_renew (packet data) len = ok band) (hband : 0 ≤ band) :
    62 ≤ data.length := by
  by_contra hshort
  rw [cfgmgr_parse_autoconfiguration_renew, cfgmgr_parse_freq_band, tlvs_packet,
    List.drop_eq_nil_of_le (by omega)] at h
  obtain ⟨object, hobject, h⟩ := bind_eq_ok_iff.mp h
  cases object with
  | none =>
    cases h
    omega
  | some pstRenew =>
    dsimp only at h
    rw [Kami_Tlv_GetObjectItem, Kami_Tlv_ParseObject_nil hobject] at h
    cases h
    omega

theorem renew_reads_inside_iff (hlength : data.length ≤ INT_MAX) (hname : (0 : UInt8) ∈ pkt_ifname data)
    (hlo : -2147483648 ≤ len) (hhi : len ≤ 2147483647) :
    ReadsInside data (cfgmgr_handle_autoconfiguration_renew_reads data len) ↔
      22 ≤ len ∧ TlvsWithin 1 (data.drop 62) (len - 22).toNat := by
  rw [cfgmgr_handle_autoconfiguration_renew_reads, readsInside_cons,
    parse_inside_iff hlength hlo hhi, and_iff_left]
  split
  · next freq_band hband =>
    split
    · exact readsInside_nil
    · have hin := freq_band_found hband (by omega)
      simp only [readsInside_cons, inside_bytes_iff, inside_string_iff, readsInside_nil, and_true,
        ETH_ALEN]
      exact ⟨by omega, by omega, by omega, by omega, hname⟩
  · exact readsInside_nil

theorem flags_of_le (h : 62 ≤ data.length) : ∃ last, Flags_last_fragment (packet data) = ok last := by
  have hin : (21 : Int).toNat + 1 ≤ (packet data).length := by
    rw [packet, List.length_drop]
    change 22 ≤ data.length - 40
    omega
  exact ⟨_, by rw [Flags_last_fragment, readU8, readBytes_of_le (by decide) hin]; rfl⟩

theorem msg_type_of_le (h : 58 ≤ data.length) : ∃ type, msg_type (packet data) = ok type := by
  refine readU16_of_le (packet data) (by decide) ?_
  rw [packet, List.length_drop]
  change 18 ≤ data.length - 40
  omega

/-- Where there is room, the length is not negative. -/
theorem ensure_isSome_le {x : Int} (h : (cfg_mgr_ensure_m2buf m2buf (toSize x)).isSome)
    (hlo : -4294967296 ≤ x) (hhi : x ≤ 2147483647) : 0 ≤ x ∧ (toSize x : Int) = x := by
  have hle : toSize x ≤ INT_MAX := by
    by_contra hgt
    rw [cfg_mgr_ensure_m2buf, GrowBuffer.ensure] at h
    split at h
    · cases h
    · rw [if_pos (by omega)] at h
      cases h
  unfold toSize INT_MAX at *
  omega

theorem m2buf_store_reads_inside_iff {off : Nat} {x : Int} (hlo : -4294967296 ≤ x)
    (hhi : x ≤ 2147483647) (hoff : off ≤ data.length) :
    ReadsInside data (m2buf_store_reads m2buf off (toSize x)) ↔
      ((cfg_mgr_ensure_m2buf m2buf (toSize x)).isSome → off + x ≤ data.length) := by
  unfold m2buf_store_reads
  split
  · next hroom =>
    obtain ⟨hnonneg, hsize⟩ := ensure_isSome_le hroom hlo hhi
    rw [readsInside_cons, inside_bytes_iff, and_iff_left readsInside_nil, imp_iff_right hroom]
    omega
  · next hfull => exact iff_of_true readsInside_nil fun hroom => absurd hroom hfull

theorem wsc_reads_inside_iff (hlo : -2147483648 ≤ len) (hhi : len ≤ 2147483647) :
    ReadsInside data (cfgmgr_handle_autoconfiguration_wsc_reads data m2buf len) ↔
      62 ≤ data.length ∧ ∀ last, Flags_last_fragment (packet data) = ok last →
        (cfg_mgr_ensure_m2buf m2buf (toSize (fragment_len m2buf last len))).isSome →
        40 + len ≤ data.length := by
  have hflags : (1 = 0 ∨ 61 + 1 ≤ data.length) ↔ 62 ≤ data.length := by omega
  rw [cfgmgr_handle_autoconfiguration_wsc_reads, readsInside_cons, inside_bytes_iff, hflags]
  apply and_congr_right
  intro hheader
  obtain ⟨last, hlast⟩ := flags_of_le hheader
  rw [hlast]
  simp only [ok.injEq, forall_eq', fragment_len]
  split
  · exact m2buf_store_reads_inside_iff (by omega) hhi (by omega)
  · have hsub : len - sizeof_cmdu_raw_msg = len - 22 := rfl
    rw [m2buf_store_reads_inside_iff (by omega) (by omega) hheader, hsub]
    apply imp_congr_right
    intro _
    push_cast
    omega

/-- What the fields of a packet ask of its payload. -/
theorem switch_reads_inside_iff {type : UInt16} {pktFrom : Int} (hlength : data.length ≤ INT_MAX)
    (hname : (0 : UInt8) ∈ pkt_ifname data) (hlo : -2147483648 ≤ len) (hhi : len ≤ 2147483647) :
    ReadsInside data (cfgmgr_switch_reads data m2buf pktFrom type len) ↔
      (type = MSG_AP_AUTOCONFIGURATION_RENEW ∨ type = MSG_AP_AUTOCONFIGURATION_RESPONSE →
        22 ≤ len ∧ TlvsWithin 1 (data.drop 62) (len - 22).toNat) ∧
      (type = MSG_AP_AUTOCONFIGURATION_WSC → pktFrom ≠ PKT_LOCAL →
        62 ≤ data.length ∧ ∀ last, Flags_last_fragment (packet data) = ok last →
          (cfg_mgr_ensure_m2buf m2buf (toSize (fragment_len m2buf last len))).isSome →
          40 + len ≤ data.length) := by
  have hrenew := renew_reads_inside_iff hlength hname hlo hhi
  have hresponse : ReadsInside data (cfgmgr_handle_autoconfiguration_response_reads len) ↔
      22 ≤ len ∧ TlvsWithin 1 (data.drop 62) (len - 22).toNat := by
    rw [cfgmgr_handle_autoconfiguration_response_reads, readsInside_cons,
      parse_inside_iff hlength hlo hhi, and_iff_left readsInside_nil]
  have hwsc := @wsc_reads_inside_iff data m2buf len hlo hhi
  rw [cfgmgr_switch_reads]
  by_cases htype : type = MSG_AP_AUTOCONFIGURATION_WSC
  · have hother : ¬ (type = MSG_AP_AUTOCONFIGURATION_RENEW ∨
        type = MSG_AP_AUTOCONFIGURATION_RESPONSE) := by
      rw [htype]
      decide
    rw [imp_iff_right htype, and_iff_right fun h => absurd h hother]
    by_cases hlocal : pktFrom = PKT_LOCAL
    · rw [if_pos ⟨hlocal, htype⟩]
      exact iff_of_true readsInside_nil fun h => absurd hlocal h
    · rw [if_neg fun h => hlocal h.1, if_neg fun h => hother (.inl h), if_pos htype,
        imp_iff_right hlocal]
      exact hwsc
  · rw [if_neg fun h => htype h.2, and_iff_left fun h => absurd h htype]
    by_cases hask : type = MSG_AP_AUTOCONFIGURATION_RENEW
    · rw [if_pos hask, imp_iff_right (.inl hask)]
      exact hrenew
    · rw [if_neg hask, if_neg htype]
      by_cases hanswer : type = MSG_AP_AUTOCONFIGURATION_RESPONSE
      · rw [if_pos hanswer, imp_iff_right (.inr hanswer)]
        exact hresponse
      · rw [if_neg hanswer]
        exact iff_of_true readsInside_nil fun h => absurd h (by simp [hask, hanswer])

theorem header_reads_inside_iff :
    ReadsInside data [.bytes 0 4, .bytes 4 4, .string 8, .bytes 36 4, .bytes 56 2] ↔
      58 ≤ data.length ∧ (0 : UInt8) ∈ pkt_ifname data := by
  simp only [readsInside_cons, inside_bytes_iff, inside_string_iff, readsInside_nil, and_true]
  constructor
  · rintro ⟨-, -, hname, -, hread⟩
    exact ⟨by omega, hname⟩
  · rintro ⟨hheader, hname⟩
    exact ⟨by omega, by omega, hname, by omega, by omega⟩

theorem cfgmgr_handle_packet_reads_inside_iff (hlength : data.length ≤ INT_MAX) :
    ReadsInside data (cfgmgr_handle_packet_reads data m2buf) ↔ PacketFits m2buf data := by
  rw [cfgmgr_handle_packet_reads, readsInside_append, header_reads_inside_iff]
  constructor
  · rintro ⟨⟨hheader, hname⟩, hswitch⟩
    obtain ⟨pktFrom, hfrom⟩ := readI32_of_le data (i := 0) (by decide) (by omega)
    obtain ⟨len, hlen⟩ := @packet_len_of_le data (by omega)
    obtain ⟨type, htype⟩ := msg_type_of_le hheader
    obtain ⟨hlo, hhi⟩ := readI32_bounds hlen
    rw [packet_from, hfrom, htype, hlen] at hswitch
    obtain ⟨hparsed, hstored⟩ := (switch_reads_inside_iff hlength hname hlo hhi).mp hswitch
    refine ⟨hheader, hname, fun type' len' htype' hlen' => ?_, fun type' len' htype' hlen' => ?_⟩
    · cases htype.symm.trans htype'
      cases hlen.symm.trans hlen'
      exact hparsed
    · cases htype.symm.trans htype'
      cases hlen.symm.trans hlen'
      intro hwsc hremote
      exact hstored hwsc fun hlocal => hremote (by rw [packet_from, hfrom, hlocal])
  · rintro ⟨hheader, hname, hparsed, hstored⟩
    refine ⟨⟨hheader, hname⟩, ?_⟩
    obtain ⟨pktFrom, hfrom⟩ := readI32_of_le data (i := 0) (by decide) (by omega)
    obtain ⟨len, hlen⟩ := @packet_len_of_le data (by omega)
    obtain ⟨type, htype⟩ := msg_type_of_le hheader
    obtain ⟨hlo, hhi⟩ := readI32_bounds hlen
    rw [packet_from, hfrom, htype, hlen]
    refine (switch_reads_inside_iff hlength hname hlo hhi).mpr ⟨hparsed type len htype hlen, ?_⟩
    intro hwsc hremote
    refine hstored type len htype hlen hwsc fun hlocal => hremote ?_
    rw [packet_from, hfrom] at hlocal
    exact ok.inj hlocal

end Switch

section Handlers

variable {data toName : List UInt8} {sent : Int → List UInt8 → Int} {interfaces : List mesh_interface}

/-- When the agent handles a message its reads were inside. -/
theorem mesh_handle_group_msg_inside {env env' : outbox}
    (h : mesh_handle_group_msg sent interfaces toName data env = ok env') :
    ReadsInside data (mesh_handle_group_msg_reads data interfaces toName) := by
  obtain ⟨same, hsame, h⟩ := bind_eq_ok_iff.mp h
  rw [mesh_handle_group_msg_reads, hsame]
  cases same with
  | false => exact readsInside_nil
  | true =>
    obtain ⟨pktTo, hto, h⟩ := bind_eq_ok_iff.mp h
    have hfield : 8 ≤ data.length := readI32_inside hto
    rw [if_pos rfl, mesh_handle_packet_reads, hto]
    refine readsInside_cons.mpr ⟨inside_bytes_iff.mpr (.inr hfield), ?_⟩
    by_cases hnet : pktTo = PKT_NETWORK
    · rw [if_pos hnet] at h
      rw [if_pos (congrArg ok hnet)]
      obtain ⟨found, hfound, h⟩ := bind_eq_ok_iff.mp h
      refine readsInside_cons.mpr ⟨⟨found, hfound⟩, ?_⟩
      rw [hfound]
      cases found with
      | none => exact readsInside_nil
      | some interface =>
        obtain ⟨len, hlen, h⟩ := bind_eq_ok_iff.mp h
        obtain ⟨buf, hbuf, -⟩ := bind_eq_ok_iff.mp h
        have hend : 40 ≤ data.length := readI32_inside hlen
        have hnul := get_if_by_name_terminated hfound
        refine readsInside_append.mpr ⟨?_, ?_⟩
        · exact readsInside_cons.mpr ⟨inside_string_iff.mpr hnul,
            readsInside_cons.mpr ⟨inside_bytes_iff.mpr (.inr hend), readsInside_nil⟩⟩
        · rw [hlen]
          exact if_send_reads_of_read hlen hbuf
    · rw [if_neg fun heq => hnet (ok.inj heq)]
      exact readsInside_nil

theorem m2buf_store_inside {m2buf : GrowBuffer} {stored : Option GrowBuffer} {off n : Nat}
    (h : m2buf_store m2buf (data.drop off) n = ok stored) :
    ReadsInside data (m2buf_store_reads m2buf off n) := by
  rw [m2buf_store_reads]
  split
  · next hroom =>
    obtain ⟨grown, hgrown⟩ := Option.isSome_iff_exists.mp hroom
    rw [m2buf_store, hgrown] at h
    obtain ⟨bytes, hbytes, -⟩ := bind_eq_ok_iff.mp h
    rw [readBytes_drop data off le_rfl, Int.add_zero] at hbytes
    exact readsInside_cons.mpr ⟨⟨bytes, hbytes⟩, readsInside_nil⟩
  · exact readsInside_nil

theorem cfgmgr_collect_wsc_inside {m2buf : GrowBuffer} {collected : GrowBuffer × Bool} {len : Int}
    (hlen : packet_len data = ok len) (h : cfgmgr_collect_wsc m2buf data = ok collected) :
    ReadsInside data (cfgmgr_handle_autoconfiguration_wsc_reads data m2buf len) := by
  obtain ⟨last, hlast, h⟩ := bind_eq_ok_iff.mp h
  rw [hlen, ok_bind, tlvs_packet] at h
  have hflags : 62 ≤ data.length := by
    obtain ⟨byte, hbyte, -⟩ := map_eq_ok_iff.mp hlast
    obtain ⟨bs, hbs, -⟩ := map_eq_ok_iff.mp hbyte
    rw [packet, readBytes_drop data sizeof_mesh_packet (by decide)] at hbs
    exact (readBytes_eq_ok (by decide) hbs).2.1
  refine readsInside_cons.mpr ⟨inside_bytes_iff.mpr (.inr hflags), ?_⟩
  rw [hlast]
  cases last with
  | true =>
    rw [if_pos rfl] at h
    obtain ⟨stored, hstored, -⟩ := bind_eq_ok_iff.mp h
    dsimp only
    rw [if_neg fun hfirst => Bool.false_ne_true hfirst.1.symm]
    exact m2buf_store_inside hstored
  | false =>
    rw [if_neg Bool.false_ne_true] at h
    by_cases hempty : m2buf.offset = 0
    · rw [if_pos hempty] at h
      obtain ⟨stored, hstored, -⟩ := bind_eq_ok_iff.mp h
      dsimp only
      rw [if_pos ⟨rfl, hempty⟩]
      exact m2buf_store_inside hstored
    · rw [if_neg hempty] at h
      obtain ⟨stored, hstored, -⟩ := bind_eq_ok_iff.mp h
      dsimp only
      rw [if_neg fun hfirst => hempty hfirst.2]
      exact m2buf_store_inside hstored

/-- When `cfg_mgr` handles a message whose name can be printed its reads were inside. -/
theorem cfgmgr_handle_group_msg_inside {w w' : process} (hlength : data.length ≤ INT_MAX)
    (hname : (0 : UInt8) ∈ pkt_ifname data) (h : cfgmgr_handle_group_msg w toName data = ok w') :
    ReadsInside data (cfgmgr_handle_group_msg_reads data w.cfgmgr.m2buf toName) := by
  obtain ⟨same, hsame, h⟩ := bind_eq_ok_iff.mp h
  rw [cfgmgr_handle_group_msg_reads, hsame]
  cases same with
  | false => exact readsInside_nil
  | true =>
    obtain ⟨pktFrom, hfrom, h⟩ := bind_eq_ok_iff.mp h
    obtain ⟨type, htype, h⟩ := bind_eq_ok_iff.mp h
    obtain ⟨raw, hraw, rfl⟩ := map_eq_ok_iff.mp htype
    have hheader : 58 ≤ data.length := by
      obtain ⟨bs, hbs, -⟩ := map_eq_ok_iff.mp hraw
      rw [packet, readBytes_drop data sizeof_mesh_packet (by decide)] at hbs
      exact (readBytes_eq_ok (by decide) hbs).2.1
    obtain ⟨len, hlen⟩ := @packet_len_of_le data (by omega)
    obtain ⟨hlo, hhi⟩ := readI32_bounds hlen
    have hparsed : ∀ object,
        Kami_Tlv_ParseObject (tlvs (packet data)) (wrap32 (len - sizeof_cmdu_raw_msg)) 1 = ok object →
        22 ≤ len ∧ TlvsWithin 1 (data.drop 62) (len - 22).toNat := by
      intro object hobject
      rw [tlvs_packet] at hobject
      exact (parse_inside_iff hlength hlo hhi).mp ⟨object, hobject⟩
    rw [if_pos rfl, cfgmgr_handle_packet_reads, hfrom, hraw, hlen]
    refine readsInside_append.mpr ⟨header_reads_inside_iff.mpr ⟨hheader, hname⟩, ?_⟩
    dsimp only
    rw [cfgmgr_switch_reads]
    split at h
    · next hdrop =>
      rw [if_pos hdrop]
      exact readsInside_nil
    · next hkeep =>
      rw [if_neg hkeep]
      split at h
      · next hrenew =>
        rw [if_pos hrenew]
        rw [cfgmgr_handle_autoconfiguration_renew, hlen, ok_bind] at h
        obtain ⟨freq_band, hband, -⟩ := bind_eq_ok_iff.mp h
        obtain ⟨object, hobject, -⟩ := bind_eq_ok_iff.mp hband
        exact (renew_reads_inside_iff hlength hname hlo hhi).mpr (hparsed object hobject)
      · next hother =>
        rw [if_neg hother]
        split at h
        · next hwsc =>
          rw [if_pos hwsc]
          obtain ⟨collected, hcollected, -⟩ := bind_eq_ok_iff.mp h
          exact cfgmgr_collect_wsc_inside hlen hcollected
        · next hother =>
          rw [if_neg hother]
          split at h
          · next hresponse =>
            rw [if_pos hresponse]
            rw [cfgmgr_handle_autoconfiguration_response, hlen, ok_bind] at h
            obtain ⟨freq_band, hband, -⟩ := bind_eq_ok_iff.mp h
            obtain ⟨object, hobject, -⟩ := bind_eq_ok_iff.mp hband
            exact readsInside_cons.mpr
              ⟨(parse_inside_iff hlength hlo hhi).mpr (hparsed object hobject), readsInside_nil⟩
          · next hnone =>
            rw [if_neg hnone]
            exact readsInside_nil

end Handlers

section Messages

/-- What the two programs read of the payload of a message to the group lies inside it
exactly when its fields say so. -/
theorem group_msg_reads_inside_iff (interfaces : List mesh_interface) (m2buf : GrowBuffer)
    {toName data : List UInt8} (hto : strcmp_eq toName mesh_agent.g_mesh_group_name = ok true)
    (hlength : data.length ≤ INT_MAX) :
    (ReadsInside data (mesh_handle_group_msg_reads data interfaces toName) ↔
        ForwardFits interfaces data) ∧
      (ReadsInside data (cfgmgr_handle_group_msg_reads data m2buf toName) ↔
        PacketFits m2buf data) := by
  constructor
  · rw [mesh_handle_group_msg_reads, if_pos hto]
    exact mesh_handle_packet_reads_inside_iff hlength
  · have hgroup : strcmp_eq toName cfg_mgr.g_mesh_group_name = ok true := hto
    rw [cfgmgr_handle_group_msg_reads, if_pos hgroup]
    exact cfgmgr_handle_packet_reads_inside_iff hlength

/-- The name of the interface that `main` creates, with the rest of its array. -/
def ens32_ifname : List UInt8 := cstr ['e', 'n', 's', '3', '2'] ++ List.replicate 10 0

theorem ens32_named : (cstring ens32_ifname).isSome := by decide

/-- Its AL MAC. -/
def ens32_al_addr : Array UInt8 := #[0x5a, 0x9a, 0x94, 0xc0, 0x42, 0x57]

theorem ens32_al_addr_size : ens32_al_addr.size = 6 := rfl

/-- The interface that `main` creates. -/
def ens32 : mesh_interface where
  fd := 5
  addr := #v[0x00, 0x0c, 0x29, 0x11, 0x22, 0x33]
  ifname := ens32_ifname
  al_addr := ⟨ens32_al_addr, ens32_al_addr_size⟩
  topo_timer := 1
  filters := [.cmdu_filter_func]
  named := ens32_named
  filtered := rfl

/-- A packet of `len` bytes for the interface, with the header of an autoconfiguration
search and `tlvs` behind it. -/
def search_packet (len : Int) (tlvs : List UInt8) : List UInt8 :=
  mesh_packet_s.bytes
    { pkt_from := PKT_LOCAL
      pkt_to := PKT_NETWORK
      ifname := ens32.ifname
      ifaddr := ens32.addr.toList
      aladdr := ens32.al_addr.toList
      packet_len := len
      packet := cmdu_raw_msg topology_dest_addr ens32.al_addr.toList
        (htons MSG_AP_AUTOCONFIGURATION_SEARCH) 1 ++ tlvs }

theorem search_packet_reads_inside :
    ReadsInside (search_packet 25 [0, 0, 0])
        (mesh_handle_group_msg_reads (search_packet 25 [0, 0, 0]) [ens32]
          mesh_agent.g_mesh_group_name) ∧
      ReadsInside (search_packet 25 [0, 0, 0])
        (cfgmgr_handle_group_msg_reads (search_packet 25 [0, 0, 0])
          (GrowBuffer.malloc (fun _ => 0) 2048) mesh_agent.g_mesh_group_name) := by
  obtain ⟨hagent, hcfg⟩ := @group_msg_reads_inside_iff [ens32] (GrowBuffer.malloc (fun _ => 0) 2048)
    mesh_agent.g_mesh_group_name (search_packet 25 [0, 0, 0]) (by decide) (by decide)
  have htype : msg_type (packet (search_packet 25 [0, 0, 0])) = ok 0x0700 := by decide
  have hlen : packet_len (search_packet 25 [0, 0, 0]) = ok 25 := by decide
  refine ⟨hagent.mpr ⟨by decide, fun _ => .inl (by decide), fun _ interface _ => ?_⟩,
    hcfg.mpr ⟨by decide, by decide, fun type _ h _ hask => ?_, fun type _ h _ hwsc => ?_⟩⟩
  · refine ⟨by decide, fun len h => ?_⟩
    cases hlen.symm.trans h
    exact ⟨fun hneg => absurd hneg (by decide), by decide⟩
  · cases htype.symm.trans h
    exact absurd hask (by decide)
  · cases htype.symm.trans h
    exact absurd hwsc (by decide)

/-- A packet that says it has 100 bytes, and one whose message ends before its type. -/
theorem group_msg_reads_outside :
    ¬ ReadsInside (search_packet 100 [])
        (mesh_handle_group_msg_reads (search_packet 100 []) [ens32] mesh_agent.g_mesh_group_name) ∧
      ¬ ReadsInside ((search_packet 100 []).take 48)
        (cfgmgr_handle_group_msg_reads ((search_packet 100 []).take 48)
          (GrowBuffer.malloc (fun _ => 0) 2048) mesh_agent.g_mesh_group_name) := by
  constructor
  · intro h
    rw [mesh_handle_group_msg_reads, if_pos (by decide)] at h
    have hfits := (mesh_handle_packet_reads_inside_iff (by decide)).mp h
    have hlen : packet_len (search_packet 100 []) = ok 100 := by decide
    obtain ⟨-, hframe⟩ := hfits.frame (by decide) ens32 rfl
    exact absurd (hframe 100 hlen).2 (by decide)
  · intro h
    rw [cfgmgr_handle_group_msg_reads, if_pos (by decide)] at h
    have hfits := (cfgmgr_handle_packet_reads_inside_iff (by decide)).mp h
    exact absurd hfits.header (by decide)

end Messages

end easymesh.system
