import Easymesh.Agent.Neighbours
import Easymesh.Agent.Main

open Lib Lib.Result Lib.ClassicBpf easymesh.cmdu easymesh.ieee1905_network

namespace easymesh.mesh_agent

/-- An interface of the agent with its neighbours, and what the agent has done with it. -/
abbrev device := cmdu_state cmdu_filter_cb outbox

section Receive

variable (interface : NetworkInterface cmdu_filter_cb) (buf : List UInt8)

/-- The loop of `if_filter_before_recv`, with `ret` as the last filter left it. -/
def if_filter_before_recv.loop : List cmdu_filter_cb → Int → outbox → Int × outbox
  | [], ret, env => (ret, env)
  | .cmdu_filter_func :: rest, _, env =>
    let (ret, env) := cmdu_filter_func interface .IF_RECV buf env
    if ret = IF_DROP then (IF_DROP, env) else loop rest ret env

def if_filter_before_recv (env : outbox) : Int × outbox :=
  if_filter_before_recv.loop interface buf interface.filters IF_ACCEPT env

/-- `buf` is what `recv` has copied into the buffer. -/
def if_recv (env : outbox) : Int × outbox :=
  if interface.fd = 0 then (-1, env)
  else if 0 < buf.length then
    let (op, env) := if_filter_before_recv interface buf env
    if op = IF_DROP then (-1, env) else (buf.length, env)
  else (0, env)

end Receive

/-- The buffer of `client_read_cb`, 2048 bytes that were zero, with a frame in it. -/
def read_buffer (frame : List UInt8) : List UInt8 :=
  frame.take 2048 ++ List.replicate (2048 - (frame.take 2048).length) 0

/-- `frame` is the next packet of the socket, which is cut to the buffer. -/
def client_read_cb (sent : Int → List UInt8 → Int) (uninit : Nat → UInt8) (s : device)
    (frame : List UInt8) : Result device :=
  let (recv_b, env) := if_recv s.interface.toNetworkInterface (frame.take 2048) s.env
  if recv_b ≤ 0 then ok { s with env }
  else cmdu_handle (agent_net sent) uninit { s with env } (read_buffer frame)

section Filters

variable {sent : Int → List UInt8 → Int} (interface : NetworkInterface cmdu_filter_cb)
  (buf : List UInt8) (env : outbox)

/-- The filters neither drop a frame nor send one. -/
theorem filters_before_send (filters : List cmdu_filter_cb) {ret : Int} (hret : ret = IF_ACCEPT) :
    (if_filter_before_send.loop (agent_net sent) interface buf filters ret env).1 = IF_ACCEPT ∧
      (if_filter_before_send.loop (agent_net sent) interface buf filters ret env).2.transmitted =
        env.transmitted := by
  induction filters generalizing ret env with
  | nil => exact ⟨hret, rfl⟩
  | cons filter rest ih =>
    cases filter with
    | cmdu_filter_func => exact ih _ rfl

theorem filters_before_recv (filters : List cmdu_filter_cb) {ret : Int} (hret : ret = IF_ACCEPT) :
    (if_filter_before_recv.loop interface buf filters ret env).1 = IF_ACCEPT ∧
      (if_filter_before_recv.loop interface buf filters ret env).2.transmitted =
        env.transmitted := by
  induction filters generalizing ret env with
  | nil => exact ⟨hret, rfl⟩
  | cons filter rest ih =>
    cases filter with
    | cmdu_filter_func => exact ih _ rfl

/-- What an interface gives to its socket of a frame. -/
def interface_frames : List (Int × List UInt8) :=
  if interface.fd = 0 then [] else [(interface.fd, buf)]

theorem mem_interface_frames {interface : NetworkInterface cmdu_filter_cb} {buf : List UInt8}
    {x : Int × List UInt8} (h : x ∈ interface_frames interface buf) : x.2 = buf := by
  rw [interface_frames] at h
  split at h
  · cases h
  · rw [List.mem_singleton.mp h]

theorem if_send_transmitted :
    (if_send (agent_net sent) interface buf env).2.transmitted =
      env.transmitted ++ interface_frames interface buf := by
  obtain ⟨hret, htransmitted⟩ :=
    @filters_before_send sent interface buf env interface.filters IF_ACCEPT rfl
  rw [if_send, if_filter_before_send]
  generalize if_filter_before_send.loop (agent_net sent) interface buf interface.filters IF_ACCEPT
    env = filtered at hret htransmitted
  obtain ⟨ret, env'⟩ := filtered
  change ret = IF_ACCEPT at hret
  change env'.transmitted = env.transmitted at htransmitted
  subst hret
  dsimp only
  rw [if_neg (by decide), linux_if_send, interface_frames]
  split
  · exact htransmitted.trans (List.append_nil _).symm
  · exact congrArg (· ++ [(interface.fd, buf)]) htransmitted

theorem if_recv_spec :
    (if_recv interface buf env).1 = (if interface.fd = 0 then -1 else (buf.length : Int)) ∧
      (if_recv interface buf env).2.transmitted = env.transmitted := by
  obtain ⟨hret, htransmitted⟩ := filters_before_recv interface buf env interface.filters rfl
  rw [if_recv]
  by_cases hfd : interface.fd = 0
  · rw [if_pos hfd, if_pos hfd]
    exact ⟨rfl, rfl⟩
  · rw [if_neg hfd, if_neg hfd]
    by_cases hpos : 0 < buf.length
    · rw [if_pos hpos, if_filter_before_recv]
      generalize if_filter_before_recv.loop interface buf interface.filters IF_ACCEPT env = filtered
        at hret htransmitted
      obtain ⟨op, env'⟩ := filtered
      change op = IF_ACCEPT at hret
      subst hret
      dsimp only
      rw [if_neg (by decide)]
      exact ⟨rfl, htransmitted⟩
    · rw [if_neg hpos]
      exact ⟨by omega, rfl⟩

end Filters

section Header

/-- A frame with the header that the senders give it. -/
def Headed (type : UInt16) (src dest : MacAddr) (frame : List UInt8) : Prop :=
  ∃ id rest, frame = cmdu_raw_msg dest.toList src.toList (htons type) id ++ rest

variable {type id : UInt16} {src dest : MacAddr} {frame : List UInt8}

/-- What is read in the header of a frame. -/
theorem header_read (dest src : MacAddr) (type id : UInt16) (rest : List UInt8) :
    msg_type (cmdu_raw_msg dest.toList src.toList type id ++ rest) = ok type ∧
      src_mac (cmdu_raw_msg dest.toList src.toList type id ++ rest) = ok src := by
  have hdest := dest.length_toList
  have hsrc := src.length_toList
  have hbytes : cmdu_raw_msg dest.toList src.toList type id ++ rest =
      dest.toList ++ (src.toList ++ (bytesU16 (htons 0x893a) ++ ([0, 0] ++ (bytesU16 type ++
        (bytesU16 id ++ ([0, 0x80] ++ rest)))))) := by
    rw [cmdu_raw_msg]
    simp only [List.append_assoc]
  constructor
  · have hmiddle := readBytes_middle
      (dest.toList ++ (src.toList ++ (bytesU16 (htons 0x893a) ++ [0, 0])))
      (bytesU16 type) (bytesU16 id ++ ([0, 0x80] ++ rest))
    simp only [List.append_assoc] at hmiddle
    rw [← hbytes] at hmiddle
    simp only [List.length_append, hdest, hsrc] at hmiddle
    have hread : readBytes (cmdu_raw_msg dest.toList src.toList type id ++ rest) 16 2 =
      ok (bytesU16 type) := hmiddle
    rw [msg_type, readU16, hread, map_ok, leNat_bytesU16, UInt16.ofNat_toNat]
  · have hmiddle := readBytes_middle dest.toList src.toList (bytesU16 (htons 0x893a) ++ ([0, 0] ++
      (bytesU16 type ++ (bytesU16 id ++ ([0, 0x80] ++ rest)))))
    rw [← hbytes, hdest, hsrc] at hmiddle
    have hread : src_addr (cmdu_raw_msg dest.toList src.toList type id ++ rest) = ok src.toList :=
      hmiddle
    rw [src_mac, hread, ok_bind, dif_pos (by rw [List.size_toArray]; exact hsrc)]
    exact congrArg ok (Vector.toList_inj.mp rfl)

/-- The buffer begins with the header. -/
theorem Headed.read_buffer (h : Headed type src dest frame) :
    Headed type src dest (mesh_agent.read_buffer frame) := by
  obtain ⟨id, rest, rfl⟩ := h
  have hheader := cmdu_raw_msg_length dest src (htons type) id
  refine ⟨id, rest.take (2048 - sizeof_cmdu_raw_msg) ++ List.replicate
    (2048 - ((cmdu_raw_msg dest.toList src.toList (htons type) id ++ rest).take 2048).length) 0, ?_⟩
  have hlong : (cmdu_raw_msg dest.toList src.toList (htons type) id).take 2048 =
      cmdu_raw_msg dest.toList src.toList (htons type) id := by
    apply List.take_of_length_le
    rw [hheader]
    decide
  rw [mesh_agent.read_buffer, List.take_append, hlong, hheader, List.append_assoc]

theorem Headed.type_read (h : Headed type src dest frame) :
    msg_type (mesh_agent.read_buffer frame) = ok (htons type) := by
  obtain ⟨id, rest, hbuffer⟩ := h.read_buffer
  rw [hbuffer]
  exact (header_read dest src (htons type) id rest).1

theorem Headed.src_read (h : Headed type src dest frame) :
    src_mac (mesh_agent.read_buffer frame) = ok src := by
  obtain ⟨id, rest, hbuffer⟩ := h.read_buffer
  rw [hbuffer]
  exact (header_read dest src (htons type) id rest).2

theorem mac_bytes (mac : MacAddr) : ∃ b0 b1 b2 b3 b4 b5, mac = #v[b0, b1, b2, b3, b4, b5] := by
  obtain ⟨⟨bytes⟩, hsize⟩ := mac
  rw [List.size_toArray] at hsize
  rcases bytes with _ | ⟨b0, _ | ⟨b1, _ | ⟨b2, _ | ⟨b3, _ | ⟨b4, _ | ⟨b5, _ | ⟨b6, bytes⟩⟩⟩⟩⟩⟩⟩
  case cons.cons.cons.cons.cons.cons.nil => exact ⟨b0, b1, b2, b3, b4, b5, rfl⟩
  all_goals
    simp only [List.length_cons, List.length_nil] at hsize
    omega

theorem Headed.dest_read (h : Headed type src dest frame) : ieee1905_dest frame = some dest := by
  obtain ⟨id, rest, rfl⟩ := h
  obtain ⟨d0, d1, d2, d3, d4, d5, rfl⟩ := mac_bytes dest
  obtain ⟨s0, s1, s2, s3, s4, s5, rfl⟩ := mac_bytes src
  change (if (0x89 : UInt8) = 0x89 ∧ (0x3a : UInt8) = 0x3a then
    some (#v[d0, d1, d2, d3, d4, d5] : MacAddr) else none) = some #v[d0, d1, d2, d3, d4, d5]
  rw [if_pos ⟨rfl, rfl⟩]

theorem read_buffer_length (frame : List UInt8) : (read_buffer frame).length = 2048 := by
  rw [read_buffer, List.length_append, List.length_replicate, List.length_take]
  omega

end Header

end easymesh.mesh_agent
