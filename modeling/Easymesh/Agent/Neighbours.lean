import Easymesh.Agent.Topology
import Easymesh.Lib.FirstSeen

open Lib Lib.Result easymesh.cmdu easymesh.tlv_parser

namespace easymesh.ieee1905_network

/-- An interface, what its filters and sockets work on, and the calls of
`send_topology_query` so far with their destination and message id. -/
structure cmdu_state (φ ε : Type) where
  interface : cmdu_interface φ
  env : ε
  queries : List (MacAddr × UInt16)

section Handle

variable {φ ε : Type}

def add_1905_nbr (interface : cmdu_interface φ) (nbr : nbr_1905dev) : cmdu_interface φ :=
  { interface with nbr_1905 := interface.nbr_1905 ++ [nbr] }

def search_1905_nbr (interface : cmdu_interface φ) (almac : MacAddr) : Option nbr_1905dev :=
  interface.nbr_1905.find? fun dev => almac = dev.al_addr

/-- The one TLV is of zeros, and the source is not the AL MAC. -/
def query_frame (interface : cmdu_interface φ) (dest : MacAddr) (msg_id : UInt16) : List UInt8 :=
  cmdu_raw_msg dest.toList interface.addr.toList (htons MSG_TOPOLOGY_QUERY) msg_id ++ [0, 0, 0]

def send_topology_query (net : if_env φ ε) (s : cmdu_state φ ε) (dest : MacAddr)
    (msg_id : UInt16) : cmdu_state φ ε :=
  { s with
    env := (if_send net s.interface.toNetworkInterface (query_frame s.interface dest msg_id) s.env).2
    queries := s.queries ++ [(dest, msg_id)] }

/-- The TLVs of an AP capability report. -/
def capa : List UInt8 := [
    0xa1, 0x00, 0x01, 0x80, 0x85, 0x00, 0x20, 0x00, 0x00, 0x00, 0x00, 0x01, 0x01, 0x01, 0x08, 0x73,
    0x00, 0x00, 0x74, 0x00, 0x00, 0x76, 0x00, 0x00, 0x77, 0x00, 0x00, 0x7d, 0x00, 0x00, 0x7e, 0x00,
    0x00, 0x80, 0x00, 0x00, 0x81, 0x00, 0x00, 0x85, 0x00, 0x11, 0x00, 0x00, 0x00, 0x00, 0x01, 0x00,
    0x01, 0x03, 0x51, 0x00, 0x00, 0x53, 0x00, 0x00, 0x54, 0x00, 0x00, 0x86, 0x00, 0x07, 0x00, 0x00,
    0x00, 0x00, 0x01, 0x00, 0x5c, 0x86, 0x00, 0x07, 0x00, 0x00, 0x00, 0x00, 0x01, 0x01, 0x5e, 0x87,
    0x00, 0x0c, 0x00, 0x00, 0x00, 0x00, 0x01, 0x00, 0xff, 0xfa, 0xff, 0xfa, 0x07, 0x00, 0x87, 0x00,
    0x0c, 0x00, 0x00, 0x00, 0x00, 0x01, 0x01, 0xff, 0xfa, 0xff, 0xfa, 0x27, 0x40, 0x88, 0x00, 0x0d,
    0x00, 0x00, 0x00, 0x00, 0x01, 0x00, 0x04, 0xfa, 0xff, 0xfa, 0xff, 0x24, 0x00, 0x88, 0x00, 0x11,
    0x00, 0x00, 0x00, 0x00, 0x01, 0x01, 0x08, 0xfa, 0xff, 0xfa, 0xff, 0xfa, 0xff, 0xfa, 0xff, 0x25,
    0x34, 0x00, 0x00, 0x00]

def send_ap_capa_report (net : if_env φ ε) (interface : cmdu_interface φ) (dest : MacAddr)
    (msg_id : UInt16) (env : ε) : Int × ε :=
  if_send net interface.toNetworkInterface
    (cmdu_raw_msg dest.toList interface.al_addr.toList (htons MSG_AP_CAPABILITY_REPORT) msg_id ++
      capa) env

/-- `msg->src_addr` -/
def src_mac (msg : List UInt8) : Result MacAddr := do
  let bytes ← src_addr msg
  if h : bytes.toArray.size = 6 then ok ⟨bytes.toArray, h⟩ else fail

/-- `buf` is the buffer of the caller with the frame in it, which is given in full also
where the frame is shorter. `malloc` succeeds. -/
def cmdu_handle (net : if_env φ ε) (uninit : Nat → UInt8) (s : cmdu_state φ ε)
    (buf : List UInt8) : Result (cmdu_state φ ε) := do
  let type := ntohs (← msg_type buf)
  let src ← src_mac buf
  let id ← msg_id buf
  if type = MSG_TOPOLOGY_DISCOBERY then
    if s.interface.al_addr ≠ src then
      match search_1905_nbr s.interface src with
      | some _ => ok s
      | none =>
        let nbr := { al_addr := src, sup_service := SUP_SERVICE_CONTROLLER }
        ok (send_topology_query net { s with interface := add_1905_nbr s.interface nbr } src id)
    else ok s
  else if type = MSG_TOPOLOGY_QUERY then
    if s.interface.al_addr ≠ src then do
      let (_, env) ← send_topology_response s.interface src id net uninit s.env
      ok { s with env }
    else ok s
  else if type = MSG_AP_AUTOCONFIGURATION_RENEW then ok s
  else if type = MSG_AP_CAPABILITY_QUERY then
    if s.interface.al_addr ≠ src then
      ok { s with env := (send_ap_capa_report net s.interface src id s.env).2 }
    else ok s
  else ok s

end Handle

section Runs

variable {φ ε : Type}

/-- `cmdu_handle` on one frame after another. -/
def cmdu_handle_all (net : if_env φ ε) (uninit : Nat → UInt8) (s : cmdu_state φ ε)
    (frames : List (List UInt8)) : Result (cmdu_state φ ε) :=
  frames.foldlM (cmdu_handle net uninit) s

/-- The source and message id of a topology discovery whose source is not `al_addr`. -/
def foreign_discovery (al_addr : MacAddr) (frame : List UInt8) : Option (MacAddr × UInt16) :=
  match msg_type frame, src_mac frame, msg_id frame with
  | ok type, ok src, ok id =>
    if ntohs type = MSG_TOPOLOGY_DISCOBERY ∧ al_addr ≠ src then some (src, id) else none
  | _, _, _ => none

/-- The topology discoveries of other devices among the frames. -/
def foreign_discoveries (al_addr : MacAddr) (frames : List (List UInt8)) :
    List (MacAddr × UInt16) :=
  frames.filterMap (foreign_discovery al_addr)

/-- The table and the queries are those of the discoveries so far that were first of their
source. -/
structure Learned (al_addr : MacAddr) (frames : List (List UInt8)) (s : cmdu_state φ ε) : Prop where
  own : s.interface.al_addr = al_addr
  nbrs : s.interface.nbr_1905.map nbr_1905dev.al_addr =
    (firstSeen (foreign_discoveries al_addr frames)).map Prod.fst
  queries : s.queries = firstSeen (foreign_discoveries al_addr frames)

variable {net : if_env φ ε} {uninit : Nat → UInt8} {s : cmdu_state φ ε} {buf : List UInt8}

/-- A buffer with a header in it has the fields that are read. -/
theorem header_fields (hbuf : sizeof_cmdu_raw_msg ≤ buf.length) :
    ∃ type src id, msg_type buf = ok type ∧ src_mac buf = ok src ∧ msg_id buf = ok id := by
  unfold sizeof_cmdu_raw_msg at hbuf
  obtain ⟨type, htype⟩ := readU16_of_le buf (by decide : (0 : Int) ≤ 16) (by omega)
  obtain ⟨id, hid⟩ := readU16_of_le buf (by decide : (0 : Int) ≤ 18) (by omega)
  have hbytes := readBytes_of_le (n := ETH_ALEN) (by decide : (0 : Int) ≤ 6)
    (by unfold ETH_ALEN; omega : (6 : Int).toNat + ETH_ALEN ≤ buf.length)
  have hsize : ((buf.drop (6 : Int).toNat).take ETH_ALEN).toArray.size = 6 :=
    readBytes_length hbytes
  refine ⟨type, ⟨_, hsize⟩, id, htype, ?_, hid⟩
  rw [src_mac, src_addr, hbytes, ok_bind, dif_pos hsize]

theorem search_1905_nbr_isSome {interface : cmdu_interface φ} {almac : MacAddr} :
    (search_1905_nbr interface almac).isSome ↔
      almac ∈ interface.nbr_1905.map nbr_1905dev.al_addr := by
  rw [search_1905_nbr, List.find?_isSome, List.mem_map]
  simp only [decide_eq_true_eq]
  exact exists_congr fun dev => and_congr_right fun _ => eq_comm

theorem foreign_discoveries_concat (al_addr : MacAddr) (frames : List (List UInt8)) :
    foreign_discoveries al_addr (frames ++ [buf]) =
      foreign_discoveries al_addr frames ++ (foreign_discovery al_addr buf).toList := by
  rw [foreign_discoveries, List.filterMap_append, foreign_discoveries]
  cases hframe : foreign_discovery al_addr buf with
  | none => rw [List.filterMap_cons_none hframe]; rfl
  | some x => rw [List.filterMap_cons_some hframe]; rfl

section Learned

variable {al_addr : MacAddr} {frames : List (List UInt8)}

/-- A frame that is no discovery of another device changes nothing but the world. -/
theorem Learned.skip (h : Learned al_addr frames s) (hnone : foreign_discovery al_addr buf = none)
    (env : ε) : Learned al_addr (frames ++ [buf]) { s with env } := by
  refine ⟨h.own, ?_, ?_⟩
  · rw [foreign_discoveries_concat, hnone, Option.toList_none, List.append_nil]
    exact h.nbrs
  · rw [foreign_discoveries_concat, hnone, Option.toList_none, List.append_nil]
    exact h.queries

/-- A discovery of a device in the table changes nothing. -/
theorem Learned.known (h : Learned al_addr frames s) {src : MacAddr} {id : UInt16}
    (hsome : foreign_discovery al_addr buf = some (src, id))
    (hknown : src ∈ s.interface.nbr_1905.map nbr_1905dev.al_addr) :
    Learned al_addr (frames ++ [buf]) s := by
  have hsame : firstSeen (foreign_discoveries al_addr (frames ++ [buf])) =
      firstSeen (foreign_discoveries al_addr frames) := by
    rw [foreign_discoveries_concat, hsome, Option.toList_some, firstSeen_concat,
      if_pos (h.nbrs ▸ hknown)]
  exact ⟨h.own, h.nbrs.trans (by rw [hsame]), h.queries.trans hsame.symm⟩

/-- A discovery of a new device adds it at the end, and asks it with the id of the frame. -/
theorem Learned.new (h : Learned al_addr frames s) {src : MacAddr} {id : UInt16}
    (hsome : foreign_discovery al_addr buf = some (src, id))
    (hnew : src ∉ s.interface.nbr_1905.map nbr_1905dev.al_addr) :
    Learned al_addr (frames ++ [buf]) (send_topology_query net
      { s with interface := add_1905_nbr s.interface ⟨src, SUP_SERVICE_CONTROLLER⟩ } src id) := by
  have hnext : firstSeen (foreign_discoveries al_addr (frames ++ [buf])) =
      firstSeen (foreign_discoveries al_addr frames) ++ [(src, id)] := by
    rw [foreign_discoveries_concat, hsome, Option.toList_some, firstSeen_concat,
      if_neg (h.nbrs ▸ hnew)]
  refine ⟨h.own, ?_, ?_⟩
  · change (s.interface.nbr_1905 ++ [_]).map nbr_1905dev.al_addr = _
    rw [List.map_append, h.nbrs, hnext, List.map_append]
    rfl
  · change s.queries ++ [(src, id)] = _
    rw [h.queries, hnext]

/-- What one frame teaches; any message that is no discovery leaves table and queries alone. -/
theorem cmdu_handle_learns (h : Learned al_addr frames s)
    (hbuf : sizeof_cmdu_raw_msg ≤ buf.length) :
    ∃ s', cmdu_handle net uninit s buf = ok s' ∧ Learned al_addr (frames ++ [buf]) s' := by
  obtain ⟨type, src, id, htype, hsrc, hid⟩ := header_fields hbuf
  have hforeign : foreign_discovery al_addr buf =
      if ntohs type = MSG_TOPOLOGY_DISCOBERY ∧ al_addr ≠ src then some (src, id) else none := by
    rw [foreign_discovery, htype, hsrc, hid]
  rw [cmdu_handle, htype, ok_bind, hsrc, ok_bind, hid, ok_bind, h.own]
  by_cases hdiscovery : ntohs type = MSG_TOPOLOGY_DISCOBERY
  · rw [if_pos hdiscovery]
    by_cases hown : al_addr = src
    · rw [if_neg (not_not.mpr hown)]
      rw [if_neg (fun hboth => hboth.2 hown)] at hforeign
      exact ⟨s, rfl, h.skip hforeign s.env⟩
    · rw [if_pos hown]
      rw [if_pos ⟨hdiscovery, hown⟩] at hforeign
      cases hsearch : search_1905_nbr s.interface src with
      | some dev =>
        refine ⟨s, rfl, h.known hforeign ?_⟩
        rw [← search_1905_nbr_isSome, hsearch, Option.isSome_some]
      | none =>
        refine ⟨_, rfl, h.new hforeign ?_⟩
        rw [← search_1905_nbr_isSome, hsearch]
        exact Bool.false_ne_true
  · rw [if_neg (fun hboth => hdiscovery hboth.1)] at hforeign
    rw [if_neg hdiscovery, send_topology_response_eq, ok_bind]
    split
    · split
      · exact ⟨_, rfl, h.skip hforeign _⟩
      · exact ⟨_, rfl, h.skip hforeign s.env⟩
    · split
      · exact ⟨_, rfl, h.skip hforeign s.env⟩
      · split
        · split
          · exact ⟨_, rfl, h.skip hforeign _⟩
          · exact ⟨_, rfl, h.skip hforeign s.env⟩
        · exact ⟨_, rfl, h.skip hforeign s.env⟩

theorem cmdu_handle_all_learns (h : Learned al_addr frames s) {more : List (List UInt8)}
    (hbufs : ∀ buf ∈ more, sizeof_cmdu_raw_msg ≤ buf.length) :
    ∃ s', cmdu_handle_all net uninit s more = ok s' ∧ Learned al_addr (frames ++ more) s' := by
  induction more generalizing frames s with
  | nil => exact ⟨s, rfl, by rwa [List.append_nil]⟩
  | cons buf rest ih =>
    obtain ⟨s₁, hfirst, hlearned⟩ :=
      @cmdu_handle_learns _ _ net uninit _ _ _ _ h (hbufs buf List.mem_cons_self)
    obtain ⟨s', hrest, hend⟩ := ih hlearned fun b hb => hbufs b (List.mem_cons_of_mem _ hb)
    refine ⟨s', ?_, ?_⟩
    · rw [cmdu_handle_all, List.foldlM_cons, hfirst, ok_bind]
      exact hrest
    · rwa [List.append_assoc] at hend

end Learned

/-- After any frames an interface that began without neighbours has, in the order in which
they were first seen and without duplicates, those whose discoveries it received, and has
asked each of them once, with the id of its first discovery. -/
theorem cmdu_handle_neighbours (net : if_env φ ε) (uninit : Nat → UInt8)
    {interface : cmdu_interface φ} (hempty : interface.nbr_1905 = []) (env : ε)
    {frames : List (List UInt8)} (hbufs : ∀ buf ∈ frames, sizeof_cmdu_raw_msg ≤ buf.length) :
    ∃ s', cmdu_handle_all net uninit { interface, env, queries := [] } frames = ok s' ∧
      (s'.interface.nbr_1905.map nbr_1905dev.al_addr).Nodup ∧
      s'.interface.nbr_1905.map nbr_1905dev.al_addr =
        (firstSeen (foreign_discoveries interface.al_addr frames)).map Prod.fst ∧
      s'.queries = firstSeen (foreign_discoveries interface.al_addr frames) := by
  have hstart : Learned interface.al_addr [] ({ interface, env, queries := [] } : cmdu_state φ ε) :=
    ⟨rfl, congrArg (List.map nbr_1905dev.al_addr) hempty, rfl⟩
  obtain ⟨s', hall, hend⟩ := @cmdu_handle_all_learns _ _ net uninit _ _ _ hstart _ hbufs
  rw [List.nil_append] at hend
  refine ⟨s', hall, ?_, hend.nbrs, hend.queries⟩
  rw [hend.nbrs]
  exact firstSeen_nodup _

/-- A discovery as a device sends it. -/
def discovery_from (src : MacAddr) (id : UInt16) : List UInt8 :=
  cmdu_raw_msg topology_dest_addr src.toList 0 id

/-- Two discoveries of one device with different ids, a query, and one of the interface's own. -/
theorem cmdu_handle_one_neighbour :
    ∃ s', cmdu_handle_all
        { cb := fun (_ : Unit) _ _ (env : Unit) => (IF_ACCEPT, env), send := fun _ _ env => (0, env) }
        (fun _ => 0) { interface := with_nbrs [], env := (), queries := [] }
        [discovery_from #v[2, 0, 0, 0, 0, 1] 7, discovery_from #v[2, 0, 0, 0, 0, 1] 8,
          cmdu_raw_msg topology_dest_addr [2, 0, 0, 0, 0, 1] (htons MSG_TOPOLOGY_QUERY) 9,
          discovery_from (with_nbrs []).al_addr 10] = ok s' ∧
      (s'.interface.nbr_1905.map nbr_1905dev.al_addr).Nodup ∧
      s'.interface.nbr_1905.map nbr_1905dev.al_addr = [#v[2, 0, 0, 0, 0, 1]] ∧
      s'.queries = [(#v[2, 0, 0, 0, 0, 1], 7)] :=
  cmdu_handle_neighbours _ _ rfl () (by decide)

end Runs

end easymesh.ieee1905_network
