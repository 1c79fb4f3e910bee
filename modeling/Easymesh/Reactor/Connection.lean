import Easymesh.Reactor.Reassembly
import Easymesh.Reactor.WriteQueue

open Lib Lib.Result Lib.Framing

namespace easymesh.eloop_event

section Halves

variable {io io' : io_buf_s}

/-- The fields that a read uses are the same. -/
structure SameRead (io io' : io_buf_s) : Prop where
  buf : io'.buf = io.buf
  len : io'.len = io.len
  head : io'.head = io.head
  tail : io'.tail = io.tail
  pack : io'.pack = io.pack

/-- The fields that a write uses are the same. -/
structure SameWrite (io io' : io_buf_s) : Prop where
  write_queue : io'.write_queue = io.write_queue
  wmem_size : io'.wmem_size = io.wmem_size
  wmem_max_size : io'.wmem_max_size = io.wmem_max_size
  events : io'.events = io.events

theorem SameRead.refl (io : io_buf_s) : SameRead io io := ⟨rfl, rfl, rfl, rfl, rfl⟩

theorem SameWrite.refl (io : io_buf_s) : SameWrite io io := ⟨rfl, rfl, rfl, rfl⟩

theorem SameWrite.trans {io'' : io_buf_s} (h : SameWrite io io') (h' : SameWrite io' io'') :
    SameWrite io io'' :=
  ⟨h'.write_queue.trans h.write_queue, h'.wmem_size.trans h.wmem_size,
    h'.wmem_max_size.trans h.wmem_max_size, h'.events.trans h.events⟩

theorem SameRead.live (h : SameRead io io') (hlive : Live io) : Live io' := by
  obtain ⟨⟨hhead, hle, htail, hlen⟩, hbuf⟩ := hlive
  rw [← h.buf] at hbuf
  rw [← h.head] at hhead hle hlen
  rw [← h.tail] at hle htail hlen
  rw [← h.len] at hlen
  exact ⟨⟨hhead, hle, htail, hlen⟩, hbuf⟩

theorem SameRead.reassembled (h : SameRead io io') {pack : io_pack_s} {fs : List (List UInt8)}
    {n : Nat} {log : List io_buf_s} (hs : Reassembled pack fs n (io, log)) :
    Reassembled pack fs n (io', log) := by
  obtain ⟨hlive, hroom, hdelivered, hreads⟩ := hs
  refine ⟨h.live hlive, ?_, hdelivered, fun hbuf => ?_⟩
  · rw [h.tail]
    exact hroom
  · obtain ⟨-, hpack, hinside, fs', hcut⟩ := hreads hlive.2
    refine ⟨h.live hlive, h.pack.trans hpack, hinside, fs', ?_⟩
    have hpending : pending io' = pending io := by rw [pending, h.buf, h.head, h.len, pending]
    rw [hpending]
    exact hcut

theorem SameWrite.kept (h : SameWrite io io') (hkept : Kept io) : Kept io' := by
  obtain ⟨hqueue, hregistered⟩ := hkept
  constructor
  · rw [h.write_queue]
    exact hqueue
  · rw [Registered, h.events, h.wmem_max_size, h.write_queue]
    exact hregistered

theorem SameWrite.writeQueueOk (h : SameWrite io io') (hok : WriteQueueOk io) :
    WriteQueueOk io' := by
  obtain ⟨hsize, hlt, hoffset, hevents⟩ := hok
  constructor
  · rw [h.wmem_size, h.write_queue]
    exact hsize
  · rw [h.events, h.wmem_size, h.wmem_max_size]
    exact hlt
  · rw [h.write_queue]
    exact hoffset
  · rw [h.events, h.write_queue]
    exact hevents

theorem io_write_sameRead {mem sent : List UInt8} {data len ret : Int} {send : send_result}
    (hcall : io_write io mem data len send = ok (ret, io', sent)) :
    SameRead io io' ∧ io'.wmem_max_size = io.wmem_max_size := by
  rcases io_write_cases hcall with ⟨_, rfl, _⟩ | ⟨nsend, _, _, ⟨_, _, rfl⟩ | ⟨bytes, _, _, _, rfl⟩⟩
  · exact ⟨.refl _, rfl⟩
  · exact ⟨.refl _, rfl⟩
  · exact ⟨⟨rfl, rfl, rfl, rfl, rfl⟩, rfl⟩

theorem handle_write_loop_sameRead {queue : List io_write_queue_s} {send : Nat → send_result}
    {sent sent' : List UInt8} (hcall : handle_write.loop io queue send sent = ok (io', sent')) :
    SameRead io io' ∧ io'.wmem_max_size = io.wmem_max_size := by
  induction queue generalizing io send sent with
  | nil =>
    cases hcall
    exact ⟨⟨rfl, rfl, rfl, rfl, rfl⟩, rfl⟩
  | cons item rest ih =>
    rw [handle_write.loop] at hcall
    obtain ⟨bytes, -, hcall⟩ := bind_eq_ok_iff.mp hcall
    dsimp only at hcall
    split at hcall
    · cases hcall
      exact ⟨⟨rfl, rfl, rfl, rfl, rfl⟩, rfl⟩
    · cases hcall
      exact ⟨⟨rfl, rfl, rfl, rfl, rfl⟩, rfl⟩
    · cases hcall
      exact ⟨⟨rfl, rfl, rfl, rfl, rfl⟩, rfl⟩
    · split at hcall
      · cases hcall
        exact ⟨⟨rfl, rfl, rfl, rfl, rfl⟩, rfl⟩
      · obtain ⟨⟨hbuf, hlen, hhead, htail, hpack⟩, hmax⟩ := ih hcall
        exact ⟨⟨hbuf, hlen, hhead, htail, hpack⟩, hmax⟩

theorem read_cb_sameWrite {fuel : Nat} {buf len : Int} {log log' : List io_buf_s}
    (h : read_cb recorder fuel io buf len log = ok (io', log')) : SameWrite io io' := by
  induction fuel generalizing io buf len log with
  | zero => cases h
  | succ fuel ih =>
    rw [read_cb] at h
    split at h
    · obtain ⟨nbody, -, h⟩ := bind_eq_ok_iff.mp h
      dsimp only at h
      split at h
      · cases h
        exact .refl _
      · obtain ⟨hqueue, hsize, hmax, hevents⟩ := ih h
        exact ⟨hqueue, hsize, hmax, hevents⟩
    · cases h
      exact .refl _

/-- A read that does not close the connection leaves its write queue alone. -/
theorem readStep_sameWrite {s s' : ReadState} {recv : recv_result} (hstep : ReadStep s recv s')
    (hroom : s.1.tail < IO_BUF_SIZE) (hopen : recv ≠ .closed) : SameWrite s.1 s'.1 := by
  obtain ⟨-, fuel, h⟩ := hstep
  unfold handle_read at h
  dsimp only at h
  rw [if_neg (by omega)] at h
  cases recv with
  | again | error =>
    cases h
    exact .refl _
  | closed => exact absurd rfl hopen
  | data bytes =>
    obtain ⟨buf, -, h⟩ := bind_eq_ok_iff.mp h
    obtain ⟨⟨io₁, log₁⟩, hloop, h⟩ := bind_eq_ok_iff.mp h
    have hsame := read_cb_sameWrite hloop
    obtain ⟨hqueue, hsize, hmax, hevents⟩ := hsame
    dsimp only at h
    split at h
    · obtain ⟨moved, -, h⟩ := bind_eq_ok_iff.mp h
      obtain ⟨buf', -, h⟩ := bind_eq_ok_iff.mp h
      cases h
      exact ⟨hqueue, hsize, hmax, hevents⟩
    · cases h
      exact ⟨hqueue, hsize, hmax, hevents⟩

end Halves

/-- A `send` takes no more than it is offered. -/
def Bounded (offered : Int) : send_result → Prop
  | .accepted nsend => nsend ≤ offered
  | .again | .error => True

section Sends

variable {io io' : io_buf_s} {sent : List UInt8}

/-- A send that fails or takes nothing stops the loop just as one that would block. -/
def blocked : send_result → send_result
  | .accepted (n + 1) => .accepted (n + 1)
  | .accepted 0 | .again | .error => .again

theorem handle_write_loop_blocked (io : io_buf_s) (queue : List io_write_queue_s)
    (send : Nat → send_result) (sent : List UInt8) :
    handle_write.loop io queue send sent =
      handle_write.loop io queue (fun i => blocked (send i)) sent := by
  induction queue generalizing io send sent with
  | nil => rfl
  | cons item rest ih =>
    rw [handle_write.loop, handle_write.loop]
    congr 1
    funext bytes
    dsimp only
    generalize hfirst : send 0 = r
    cases r with
    | again => rfl
    | error => rfl
    | accepted n =>
      cases n with
      | zero => rfl
      | succ n =>
        simp only [blocked]
        split
        · rfl
        · exact ih _ _ _

theorem Bounded.legal {offered : Int} {send : send_result} (h : Bounded offered send) :
    LegalSend offered (blocked send) := by
  match send with
  | .again => exact trivial
  | .error => exact trivial
  | .accepted 0 => exact trivial
  | .accepted (n + 1) => exact ⟨Nat.succ_pos n, h⟩

theorem handle_write_bounded {send : Nat → send_result} (hqueue : QueueOk io.write_queue)
    (hbounded : ∀ i item, io.write_queue[i]? = some item →
      Bounded (item.len - item.offset) (send i)) :
    ∃ io' sent, handle_write io send = ok (io', sent) ∧ QueueOk io'.write_queue ∧
      sent ++ unsent io'.write_queue = unsent io.write_queue := by
  rw [handle_write, handle_write_loop_blocked]
  exact handle_write_spec hqueue fun i item hitem => (hbounded i item hitem).legal

end Sends

/-- The bytes of a direction of a connection: the frames that were written, the bytes that
the socket has taken and the other end not received, and the number of those received. -/
structure Carried (pack : io_pack_s) (out : io_buf_s) (frames : List (List UInt8))
    (flight : List UInt8) (nread : Nat) (inn : ReadState) : Prop where
  kept : Kept out
  queue : WriteQueueOk out
  limit : out.wmem_max_size = MAX_WMEM_SIZE
  framed : ∀ f ∈ frames, IsFrame pack f
  stream : frames.flatten.take nread ++ (flight ++ unsent out.write_queue) = frames.flatten
  nread_le : nread ≤ frames.flatten.length
  reassembled : Reassembled pack frames nread inn

section Directions

variable {pack : io_pack_s} {out out' : io_buf_s} {frames : List (List UInt8)}
  {flight sent frame : List UInt8} {nread : Nat} {inn inn' : ReadState} {ret : Int}

theorem Reassembled.append (h : Reassembled pack frames nread inn)
    (hn : nread ≤ frames.flatten.length) (hpos : 0 < frame.length) :
    Reassembled pack (frames ++ [frame]) nread inn := by
  obtain ⟨hlive, hroom, hdelivered, hreads⟩ := h
  refine ⟨hlive, hroom, ?_, ?_⟩
  · rw [arrived_append hn hpos]
    exact hdelivered
  · rw [List.flatten_append, List.take_append_of_le_length hn]
    exact hreads

/-- A write of a frame is taken as a whole or refused as a whole, when the socket does not
block on an empty queue. -/
theorem io_write_frame {send : send_result} (hkept : Kept out) (hok : WriteQueueOk out)
    (hlimit : out.wmem_max_size = MAX_WMEM_SIZE) (hframe : (frame.length : Int) ≤ IO_BUF_SIZE)
    (hsend : out.write_queue = [] → send ≠ .again ∧ Bounded frame.length send)
    (hcall : io_write out frame 0 frame.length send = ok (ret, out', sent)) :
    (0 ≤ ret ∧ sent ++ unsent out'.write_queue = unsent out.write_queue ++ frame) ∨
      (ret < 0 ∧ sent = [] ∧ out' = out) := by
  unfold IO_BUF_SIZE at hframe
  have hread : readBytes frame 0 (frame.length : Int).toNat = ok frame := by
    rw [Int.toNat_natCast, readBytes_front (List.append_nil _).symm]
  have hint : -2147483648 ≤ (frame.length : Int) ∧ (frame.length : Int) ≤ INT_MAX := by
    unfold INT_MAX
    omega
  by_cases hret : 0 ≤ ret
  · refine .inl ⟨hret, (io_write_spec hkept.queue ?_ hint hread hcall hret).2⟩
    intro hnil
    obtain ⟨hblocks, hbounded⟩ := hsend hnil
    have hempty : out.write_queue.length ≤ 0 := by rw [hnil]; exact le_rfl
    unfold io_write at hcall
    rw [if_pos hempty] at hcall
    cases send with
    | again => exact absurd rfl hblocks
    | error =>
      cases hcall
      exact absurd hret (by decide)
    | accepted nsend =>
      obtain ⟨bytes, -, hcall⟩ := bind_eq_ok_iff.mp hcall
      refine ⟨?_, hbounded⟩
      by_contra hzero
      rw [if_pos (by omega)] at hcall
      cases hcall
      exact absurd hret (by decide)
  · refine .inr ⟨not_le.mp hret, ?_⟩
    rcases io_write_cases hcall with ⟨-, hsame, hlen | hnil⟩ | ⟨nsend, hfrom, hlength, hcases⟩
    · omega
    · exact ⟨hnil, hsame⟩
    · unfold enqueued_from at hfrom
      by_cases hempty : out.write_queue.length ≤ 0
      · rw [if_pos hempty] at hfrom
        have hnil : out.write_queue = [] := List.eq_nil_of_length_eq_zero (by omega)
        obtain ⟨hblocks, -⟩ := hsend hnil
        cases send with
        | again => exact absurd rfl hblocks
        | error => cases hfrom
        | accepted n =>
          dsimp only at hfrom
          split at hfrom
          · rename_i hpart
            cases hfrom
            -- What is left of a frame fits an empty queue.
            have hzero : out.wmem_size = 0 := by rw [hok.wmem_size_eq, hnil, queued_size_nil]
            have hwrap : wrap32 ((frame.length : Int) - n) = frame.length - n :=
              wrap32_eq (by omega) (by omega)
            have haccepts : Accepts out (wrap32 ((frame.length : Int) - n)) := by
              rw [hwrap]
              refine ⟨by omega, ?_⟩
              rw [hzero, zero_add, hwrap, hlimit]
              unfold MAX_WMEM_SIZE
              omega
            rcases hcases with ⟨hfull, -⟩ | ⟨bytes, -, -, hnsend, -⟩
            · exact absurd haccepts hfull
            · omega
          · cases hfrom
      · rw [if_neg hempty] at hfrom
        cases hfrom
        rcases hcases with ⟨-, -, hsame⟩ | ⟨bytes, -, -, hnsend, -⟩
        · exact ⟨List.eq_nil_of_length_eq_zero hlength, hsame⟩
        · omega

theorem Carried.write (h : Carried pack out frames flight nread inn) (hpack : pack.Valid)
    {send : send_result} (hframe : IsFrame pack frame)
    (hsend : out.write_queue = [] → send ≠ .again ∧ Bounded frame.length send)
    (hcall : io_write out frame 0 frame.length send = ok (ret, out', sent)) :
    Carried pack out' (if 0 ≤ ret then frames ++ [frame] else frames) (flight ++ sent) nread
      inn := by
  obtain ⟨hkept, hok, hlimit, hframed, hstream, hnread, hreassembled⟩ := h
  obtain ⟨nbody, -, -, -, hmax⟩ := id hframe
  obtain ⟨-, hpos⟩ := hframe.frameSize hpack
  have hint : -2147483648 ≤ (frame.length : Int) ∧ (frame.length : Int) ≤ INT_MAX := by
    unfold IO_BUF_SIZE at hmax
    unfold INT_MAX
    omega
  have hfits : out.write_queue ≠ [] → out.wmem_size + frame.length ≤ INT_MAX := by
    intro _
    have hsize := hkept.wmem_size_le hok
    unfold IO_BUF_SIZE at hmax
    unfold MAX_WMEM_SIZE at hsize
    unfold INT_MAX
    omega
  rcases io_write_frame hkept hok hlimit hmax hsend hcall with ⟨hret, hbytes⟩ | ⟨hret, rfl, rfl⟩
  · rw [if_pos hret]
    constructor
    · exact io_write_keeps hkept hok hcall
    · exact (io_write_ok_iff hkept hok hint hcall).mpr hfits
    · exact (io_write_sameRead hcall).2.trans hlimit
    · exact List.forall_mem_append.mpr ⟨hframed, List.forall_mem_singleton.mpr hframe⟩
    · rw [List.flatten_append, List.flatten_singleton, List.take_append_of_le_length hnread,
        List.append_assoc flight, hbytes, ← List.append_assoc flight, ← List.append_assoc, hstream]
    · rw [List.flatten_append, List.length_append]
      omega
    · exact hreassembled.append hnread hpos
  · rw [if_neg (by omega), List.append_nil]
    exact ⟨hkept, hok, hlimit, hframed, hstream, hnread, hreassembled⟩

theorem Carried.writable (h : Carried pack out frames flight nread inn)
    {send : Nat → send_result}
    (hbounded : ∀ i item, out.write_queue[i]? = some item →
      Bounded (item.len - item.offset) (send i))
    (hcall : handle_write out send = ok (out', sent)) :
    Carried pack out' frames (flight ++ sent) nread inn := by
  obtain ⟨hkept, hok, hlimit, hframed, hstream, hnread, hreassembled⟩ := h
  obtain ⟨io', sent', hcall', -, hbytes⟩ := handle_write_bounded hkept.queue hbounded
  cases hcall.symm.trans hcall'
  obtain ⟨hkept', hok'⟩ := handle_write_keeps hkept hok hcall
  refine ⟨hkept', hok', (handle_write_loop_sameRead hcall).2.trans hlimit, hframed, ?_, hnread,
    hreassembled⟩
  rw [List.append_assoc flight, hbytes, hstream]

theorem Carried.readable (h : Carried pack out frames flight nread inn) (hpack : pack.Valid)
    {recv : recv_result} (hfits : Fits inn.1 recv) (hopen : recv ≠ .closed)
    (hread : received recv <+: flight) :
    ∃ inn', ReadStep inn recv inn' ∧
      Carried pack out frames (flight.drop (received recv).length)
        (nread + (received recv).length) inn' := by
  obtain ⟨hkept, hok, hlimit, hframed, hstream, hnread, hreassembled⟩ := h
  obtain ⟨rest, rfl⟩ := hread
  have hflatten : frames.flatten.take nread ++ received recv <+: frames.flatten := by
    rw [← List.append_assoc, ← List.append_assoc, List.append_assoc _ rest] at hstream
    exact ⟨_, hstream⟩
  obtain ⟨inn', hstep, hnext⟩ :=
    readStep_reassembled hpack hframed hreassembled hfits hopen hflatten hnread
  have hlength := hflatten.length_le
  rw [List.length_append, List.length_take_of_le hnread] at hlength
  have htake := List.prefix_iff_eq_take.mp hflatten
  rw [List.length_append, List.length_take_of_le hnread] at htake
  refine ⟨inn', hstep, hkept, hok, hlimit, hframed, ?_, hlength, hnext⟩
  rw [List.drop_left, ← htake, List.append_assoc, ← List.append_assoc _ rest]
  exact hstream

/-- The other direction changes the halves that this one does not use. -/
theorem Carried.of_same (h : Carried pack out frames flight nread inn)
    (hout : SameWrite out out') (hlog : inn'.2 = inn.2) (hinn : SameRead inn.1 inn'.1) :
    Carried pack out' frames flight nread inn' := by
  obtain ⟨hkept, hok, hlimit, hframed, hstream, hnread, hreassembled⟩ := h
  refine ⟨hout.kept hkept, hout.writeQueueOk hok, hout.wmem_max_size.trans hlimit, hframed, ?_,
    hnread, ?_⟩
  · rw [hout.write_queue]
    exact hstream
  · obtain ⟨io, log⟩ := inn'
    obtain rfl : log = inn.2 := hlog
    exact hinn.reassembled hreassembled

/-- With nothing queued and nothing on the way every frame has arrived. -/
theorem Carried.all_delivered (h : Carried pack out frames flight nread inn) (hflight : flight = [])
    (hqueue : out.write_queue = []) : List.Forall₂ PointsAt inn.2 frames := by
  obtain ⟨-, -, -, -, hstream, hnread, hreassembled⟩ := h
  have hall : nread = frames.flatten.length := by
    have hlength := congrArg List.length hstream
    rw [hflight, hqueue, unsent, List.flatMap_nil, List.append_nil, List.append_nil,
      List.length_take_of_le hnread] at hlength
    exact hlength
  have hdelivered := hreassembled.delivered
  rw [hall, arrived_all] at hdelivered
  exact hdelivered

theorem io_enqueue_returns {data len : Int} (hdata : 0 ≤ data)
    (hin : data + len ≤ (frame.length : Int)) :
    ∃ ret out', io_enqueue out frame data len = ok (ret, out') := by
  unfold io_enqueue
  split
  · exact ⟨_, _, rfl⟩
  · split
    · exact ⟨_, _, rfl⟩
    · rw [readBytes_of_le hdata (by omega)]
      exact ⟨_, _, rfl⟩

theorem io_write_enqueue_returns {nsend : Int} (hnsend : 0 ≤ nsend)
    (hle : nsend ≤ frame.length) (hmax : (frame.length : Int) ≤ IO_BUF_SIZE) :
    ∃ ret out' sent', io_write.enqueue out frame 0 frame.length nsend sent =
      ok (ret, out', sent') := by
  unfold IO_BUF_SIZE at hmax
  have hwrap : wrap32 ((frame.length : Int) - nsend) = frame.length - nsend :=
    wrap32_eq (by omega) (by omega)
  obtain ⟨enqueue_len, out', henqueue⟩ := @io_enqueue_returns out frame (0 + nsend)
    ((frame.length : Int) - nsend) (by omega) (by omega)
  rw [io_write.enqueue, hwrap, henqueue, ok_bind]
  dsimp only
  split
  · exact ⟨_, _, _, rfl⟩
  · exact ⟨_, _, _, rfl⟩

/-- A write of a frame stays inside it. -/
theorem io_write_frame_returns {send : send_result} (hmax : (frame.length : Int) ≤ IO_BUF_SIZE)
    (hsend : out.write_queue = [] → send ≠ .again ∧ Bounded frame.length send) :
    ∃ ret out' sent, io_write out frame 0 frame.length send = ok (ret, out', sent) := by
  unfold io_write
  split
  · rename_i hempty
    obtain ⟨hblocks, hbounded⟩ := hsend (List.eq_nil_of_length_eq_zero (by omega))
    cases send with
    | again => exact absurd rfl hblocks
    | error => exact ⟨_, _, _, rfl⟩
    | accepted nsend =>
      have hle : (nsend : Int) ≤ frame.length := hbounded
      dsimp only
      rw [readBytes_of_le le_rfl (by omega), ok_bind]
      split
      · exact ⟨_, _, _, rfl⟩
      · split
        · exact io_write_enqueue_returns (Int.natCast_nonneg nsend) hle hmax
        · exact ⟨_, _, _, rfl⟩
  · exact io_write_enqueue_returns le_rfl (Int.natCast_nonneg _) hmax

end Directions

/-- The two ends of a connection. -/
inductive side where
  | server
  | client
  deriving DecidableEq, Repr

def side.other : side → side
  | server => client
  | client => server

/-- Both ends of a connection, with what `on_read` has been called for there; and for the
direction from each side the frames that `io_write` took, the bytes of them that the socket
took and the other side has not received, and how many it has. -/
structure connection where
  io : side → io_buf_s
  log : side → List io_buf_s
  frames : side → List (List UInt8)
  flight : side → List UInt8
  nread : side → Nat

/-- A frame is written at a side, its socket has room, or it has something to read. -/
inductive io_event where
  | write (a : side) (frame : List UInt8) (send : send_result)
  | writable (a : side) (send : Nat → send_result)
  | readable (a : side) (recv : recv_result)

/-- The socket keeps its promises and does not block while nothing is queued, and neither
side closes the connection. -/
def io_event.Allowed (pack : io_pack_s) (s : connection) : io_event → Prop
  | write a frame send => IsFrame pack frame ∧
    ((s.io a).write_queue = [] → send ≠ .again ∧ Bounded frame.length send)
  | writable a send => ∀ i item, (s.io a).write_queue[i]? = some item →
    Bounded (item.len - item.offset) (send i)
  | readable a recv => Fits (s.io a) recv ∧ recv ≠ .closed ∧ received recv <+: s.flight a.other

/-- What a side has written. -/
def connection.wrote (s : connection) (a : side) (io : io_buf_s) (sent : List UInt8)
    (frames : List (List UInt8)) : connection :=
  { s with
    io := Function.update s.io a io
    flight := Function.update s.flight a (s.flight a ++ sent)
    frames := Function.update s.frames a frames }

/-- What a side has read. -/
def connection.got (s : connection) (a : side) (inn : ReadState) (n : Nat) : connection :=
  { s with
    io := Function.update s.io a inn.1
    log := Function.update s.log a inn.2
    flight := Function.update s.flight a.other ((s.flight a.other).drop n)
    nread := Function.update s.nread a.other (s.nread a.other + n) }

inductive ConnectionStep (pack : io_pack_s) (s : connection) : io_event → connection → Prop
  | write {a : side} {frame sent : List UInt8} {send : send_result} {io : io_buf_s} {ret : Int}
      (hallowed : (io_event.write a frame send).Allowed pack s)
      (hcall : io_write (s.io a) frame 0 frame.length send = ok (ret, io, sent)) :
      ConnectionStep pack s (.write a frame send)
        (s.wrote a io sent (if 0 ≤ ret then s.frames a ++ [frame] else s.frames a))
  | writable {a : side} {sent : List UInt8} {send : Nat → send_result} {io : io_buf_s}
      (hallowed : (io_event.writable a send).Allowed pack s)
      (hcall : handle_write (s.io a) send = ok (io, sent)) :
      ConnectionStep pack s (.writable a send) (s.wrote a io sent (s.frames a))
  | readable {a : side} {recv : recv_result} {inn : ReadState}
      (hallowed : (io_event.readable a recv).Allowed pack s)
      (hstep : ReadStep (s.io a, s.log a) recv inn) :
      ConnectionStep pack s (.readable a recv) (s.got a inn (received recv).length)

/-- Both directions. -/
def Connected (pack : io_pack_s) (s : connection) : Prop :=
  ∀ a, Carried pack (s.io a) (s.frames a) (s.flight a) (s.nread a) (s.io a.other, s.log a.other)

section Connection

variable {pack : io_pack_s} {s s' : connection} {e : io_event} {a : side}

theorem side.other_other (a : side) : a.other.other = a := by
  cases a <;> rfl

theorem side.other_ne (a : side) : a.other ≠ a := by
  cases a <;> decide

theorem side.eq_other {a b : side} (h : b ≠ a) : b = a.other := by
  cases a <;> cases b <;> first | rfl | exact absurd rfl h

/-- A side whose `io` has changed in its write half. -/
theorem Connected.wrote (h : Connected pack s) {io : io_buf_s} {sent : List UInt8}
    {frames : List (List UInt8)} (hread : SameRead (s.io a) io)
    (hcarried : Carried pack io frames (s.flight a ++ sent) (s.nread a)
      (s.io a.other, s.log a.other)) : Connected pack (s.wrote a io sent frames) := by
  intro b
  by_cases hside : b = a
  · subst hside
    simpa only [connection.wrote, Function.update_self, Function.update_of_ne b.other_ne] using
      hcarried
  · obtain rfl := side.eq_other hside
    have hother := h a.other
    rw [side.other_other] at hother
    simp only [connection.wrote, side.other_other, Function.update_self,
      Function.update_of_ne a.other_ne]
    exact hother.of_same (.refl _) rfl hread

/-- A side whose `io` has changed in its read half. -/
theorem Connected.got (h : Connected pack s) {inn : ReadState} {n : Nat}
    (hwrite : SameWrite (s.io a) inn.1)
    (hcarried : Carried pack (s.io a.other) (s.frames a.other) ((s.flight a.other).drop n)
      (s.nread a.other + n) inn) : Connected pack (s.got a inn n) := by
  intro b
  by_cases hside : b = a
  · subst hside
    simp only [connection.got, Function.update_self, Function.update_of_ne b.other_ne,
      Function.update_of_ne b.other_ne.symm]
    exact (h b).of_same hwrite rfl (.refl _)
  · obtain rfl := side.eq_other hside
    simpa only [connection.got, side.other_other, Function.update_self,
      Function.update_of_ne a.other_ne] using hcarried

theorem Connected.step (hpack : pack.Valid) (h : Connected pack s)
    (hstep : ConnectionStep pack s e s') : Connected pack s' := by
  cases hstep with
  | @write a frame sent send io ret hallowed hcall =>
    obtain ⟨hframe, hsend⟩ := hallowed
    exact h.wrote (io_write_sameRead hcall).1 ((h a).write hpack hframe hsend hcall)
  | @writable a sent send io hallowed hcall =>
    exact h.wrote (handle_write_loop_sameRead hcall).1 ((h a).writable hallowed hcall)
  | @readable a recv inn hallowed hstep =>
    obtain ⟨hfits, hopen, hprefix⟩ := hallowed
    have hcarried := h a.other
    rw [side.other_other] at hcarried
    obtain ⟨inn', hstep', hnext⟩ := hcarried.readable hpack hfits hopen hprefix
    cases readStep_unique hstep hstep'
    exact h.got (readStep_sameWrite hstep hcarried.reassembled.room hopen) hnext

/-- Whatever may happen next, the code returns. -/
theorem Connected.returns (hpack : pack.Valid) (h : Connected pack s) (hallowed : e.Allowed pack s) :
    ∃ s', ConnectionStep pack s e s' := by
  cases e with
  | write a frame send =>
    obtain ⟨nbody, -, -, -, hmax⟩ := hallowed.1
    obtain ⟨ret, io, sent, hcall⟩ := io_write_frame_returns hmax hallowed.2
    exact ⟨_, .write hallowed hcall⟩
  | writable a send =>
    obtain ⟨io, sent, hcall, -⟩ := handle_write_bounded (h a).kept.queue hallowed
    exact ⟨_, .writable hallowed hcall⟩
  | readable a recv =>
    obtain ⟨hfits, hopen, hprefix⟩ := id hallowed
    have hcarried := h a.other
    rw [side.other_other] at hcarried
    obtain ⟨inn, hstep, -⟩ := hcarried.readable hpack hfits hopen hprefix
    exact ⟨_, .readable hallowed hstep⟩

end Connection

/-- Both ends are registered for reading, with the packer, and nothing has been written. -/
structure Opened (pack : io_pack_s) (s : connection) : Prop where
  io : ∀ a, ∃ buf, (buf.length : Int) = IO_BUF_SIZE ∧
    s.io a = eloop_add_event (registered buf pack).1 EPOLLIN
  log : ∀ a, s.log a = []
  frames : ∀ a, s.frames a = []
  flight : ∀ a, s.flight a = []
  nread : ∀ a, s.nread a = 0

section Runs

variable {pack : io_pack_s} {s : connection} {tr : List (io_event × connection)}

theorem Opened.connected (hpack : pack.Valid) (h : Opened pack s) : Connected pack s := by
  intro a
  obtain ⟨buf, -, hout⟩ := h.io a
  obtain ⟨buf', hbuf, hinn⟩ := h.io a.other
  rw [h.frames, h.flight, h.nread, h.log, hout, hinn]
  have hregistered : Reassembled pack [] 0 ((registered buf' pack).1, []) :=
    ⟨registered_live hbuf pack, (by decide : (0 : Int) < IO_BUF_SIZE), .nil,
      registered_reads hpack buf'⟩
  have hin : (0 ||| EPOLLIN) &&& EPOLLIN ≠ 0 := by decide
  have hroom : (0 : Int) < MAX_WMEM_SIZE := by decide
  have hidle : (0 ||| EPOLLIN) &&& EPOLLOUT ≠ 0 ↔ ([] : List io_write_queue_s) ≠ [] := by decide
  have hkept : Kept (eloop_add_event (registered buf pack).1 EPOLLIN) :=
    ⟨List.forall_mem_nil _, .inl ⟨hin, rfl⟩⟩
  have hqueue : WriteQueueOk (eloop_add_event (registered buf pack).1 EPOLLIN) :=
    ⟨rfl, fun _ => hroom, List.forall_mem_nil _, hidle⟩
  have hsame : SameRead (registered buf' pack).1
      (eloop_add_event (registered buf' pack).1 EPOLLIN) := ⟨rfl, rfl, rfl, rfl, rfl⟩
  exact ⟨hkept, hqueue, rfl, List.forall_mem_nil _, rfl, Nat.zero_le _,
    hsame.reassembled hregistered⟩

theorem Opened.run_connected (hpack : pack.Valid) (hopened : Opened pack s)
    (hrun : Run (ConnectionStep pack) s tr) : ∀ x ∈ tr, Connected pack x.2 :=
  Run.invariant (fun h hstep => h.step hpack hstep) (hopened.connected hpack) hrun

/-- Along every run of a connection, `on_read` has been called at each end for the frames
that the other end's `io_write` took and whose last byte has arrived: each once, as it was
written and in order, and for all of them once nothing is queued or on the way. Whatever may
happen next, the code returns. -/
theorem connection_carries_frames (hpack : pack.Valid) (hopened : Opened pack s)
    (hrun : Run (ConnectionStep pack) s tr) :
    ∀ x ∈ tr, (∀ a, List.Forall₂ PointsAt (x.2.log a.other)
          (arrived (x.2.frames a) (x.2.nread a)) ∧
        (x.2.flight a = [] → (x.2.io a).write_queue = [] →
          List.Forall₂ PointsAt (x.2.log a.other) (x.2.frames a))) ∧
      ∀ e : io_event, e.Allowed pack x.2 → ∃ s', ConnectionStep pack x.2 e s' := by
  intro x hx
  have hconnected := hopened.run_connected hpack hrun x hx
  exact ⟨fun a => ⟨(hconnected a).reassembled.delivered, (hconnected a).all_delivered⟩,
    fun e hallowed => hconnected.returns hpack hallowed⟩

/-- Two ends with the packer of the bus. -/
def opened_pair : connection where
  io _ := eloop_add_event msg_registered.1 EPOLLIN
  log _ := []
  frames _ := []
  flight _ := []
  nread _ := 0

theorem opened_pair_opened : Opened msg_pack opened_pair :=
  ⟨fun _ => ⟨List.replicate 8192 0, by rw [List.length_replicate]; rfl, rfl⟩, fun _ => rfl,
    fun _ => rfl, fun _ => rfl, fun _ => rfl⟩

/-- A side writes a frame, which the socket takes whole, and the other side receives it. -/
theorem frame_received {frame : List UInt8} (hframe : IsFrame msg_pack frame) (a : side) :
    ∃ tr, Run (ConnectionStep msg_pack) opened_pair tr ∧
      tr.map Prod.fst = [.write a frame (.accepted frame.length),
        .readable a.other (.data frame)] ∧
      ∃ x ∈ tr, x.2.frames a = [frame] ∧ x.2.flight a = [] ∧ (x.2.io a).write_queue = [] := by
  have hpos := (hframe.frameSize msg_pack_valid).2
  obtain ⟨nbody, -, -, -, hmax⟩ := id hframe
  have hbounded : Bounded (frame.length : Int) (.accepted frame.length) := le_rfl
  have hcall : io_write (opened_pair.io a) frame 0 frame.length (.accepted frame.length) =
      ok ((frame.length : Int), opened_pair.io a, frame) := by
    have hread := readBytes_front (List.append_nil frame).symm
    have hempty : (opened_pair.io a).write_queue.length ≤ 0 := le_rfl
    rw [io_write, if_pos hempty, hread, ok_bind, if_neg (by omega), if_neg (lt_irrefl _)]
  have hsend : send_result.accepted frame.length ≠ .again := fun h => by cases h
  have hwrite := @ConnectionStep.write msg_pack opened_pair a _ _ _ _ _
    ⟨hframe, fun _ => ⟨hsend, hbounded⟩⟩ hcall
  have hconnected := (opened_pair_opened.connected msg_pack_valid).step msg_pack_valid hwrite
  have hfits := @msg_registered_fits frame hpos (by unfold IO_BUF_SIZE at hmax; omega)
  have hallowed : (io_event.readable a.other (.data frame)).Allowed msg_pack
      (opened_pair.wrote a (opened_pair.io a) frame [frame]) := by
    have hopen : recv_result.data frame ≠ .closed := fun h => by cases h
    refine ⟨?_, hopen, ?_⟩
    · rw [connection.wrote, Function.update_eq_self]
      exact ⟨hfits.1, hfits.2⟩
    · simp only [connection.wrote, side.other_other, Function.update_self, received]
      exact List.prefix_refl frame
  rw [if_pos (Int.natCast_nonneg _)] at hwrite hconnected
  obtain ⟨s', hread⟩ := hconnected.returns msg_pack_valid hallowed
  refine ⟨_, .cons hwrite (.cons hread (.nil _)), rfl, _, List.mem_cons_of_mem _ List.mem_cons_self, ?_⟩
  cases hread with
  | readable hallowed hstep =>
    simp only [connection.got, connection.wrote, side.other_other, Function.update_self,
      Function.update_of_ne a.other_ne.symm, received]
    exact ⟨rfl, List.drop_length, rfl⟩

/-- The client receives a frame that the server writes, and `on_read` is called for it. -/
theorem connection_carries_short_frame :
    ∃ tr, Run (ConnectionStep msg_pack) opened_pair tr ∧
      tr.map Prod.fst = [.write .server (short_frame.take 19) (.accepted 19),
        .readable .client (.data (short_frame.take 19))] ∧
      (∃ x ∈ tr, List.Forall₂ PointsAt (x.2.log .client) [short_frame.take 19]) ∧
      ∀ x ∈ tr, ∀ e : io_event, e.Allowed msg_pack x.2 →
        ∃ s', ConnectionStep msg_pack x.2 e s' := by
  have hframe : IsFrame msg_pack (short_frame.take 19) :=
    ⟨3, by decide, by decide, by decide, by decide⟩
  obtain ⟨tr, hrun, hevents, x, hx, hframes, hflight, hqueue⟩ := frame_received hframe .server
  have hcarries := connection_carries_frames msg_pack_valid opened_pair_opened hrun
  refine ⟨tr, hrun, hevents, ⟨x, hx, ?_⟩, fun x hx => (hcarries x hx).2⟩
  exact hframes ▸ ((hcarries x hx).1 .server).2 hflight hqueue

end Runs

end easymesh.eloop_event
