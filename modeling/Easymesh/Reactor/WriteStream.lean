import Easymesh.Reactor.WritePath
import Easymesh.Lib.Transition

open Lib Lib.Result

namespace easymesh.eloop_event

/-- An item of the write queue with something left to send. -/
structure QueueItemOk (item : io_write_queue_s) : Prop where
  offset_nonneg : 0 ≤ item.offset
  offset_lt : item.offset < item.len
  len_eq : item.len = item.data.length
  len_le : item.len ≤ INT_MAX

def QueueOk (queue : List io_write_queue_s) : Prop := ∀ item ∈ queue, QueueItemOk item

/-- The bytes of the write queue not accepted by the socket yet. -/
def unsent (queue : List io_write_queue_s) : List UInt8 :=
  queue.flatMap fun item => item.data.drop item.offset.toNat

/-- A `send` of `offered` bytes that accepts some of them or would block. -/
def LegalSend (offered : Int) : send_result → Prop
  | .accepted nsend => 1 ≤ nsend ∧ nsend ≤ offered
  | .again => True
  | .error => False

theorem QueueItemOk.read {item : io_write_queue_s} (hitem : QueueItemOk item) :
    readBytes item.data item.offset (toSize (item.len - item.offset)) =
      ok (item.data.drop item.offset.toNat) := by
  obtain ⟨hnonneg, hlt, hlen, hmax⟩ := hitem
  unfold INT_MAX at hmax
  have hsize := toSize_of_nonneg (by omega : 0 ≤ item.len - item.offset) (by omega)
  rw [readBytes_of_le hnonneg (by omega), List.take_of_length_le]
  rw [List.length_drop]
  omega

/-- Draining the queue moves bytes from its head to the socket and loses none. -/
theorem handle_write_loop_spec (io : io_buf_s) (queue : List io_write_queue_s)
    (send : Nat → send_result) (sent : List UInt8) (hqueue : QueueOk queue)
    (hlegal : ∀ i item, queue[i]? = some item → LegalSend (item.len - item.offset) (send i)) :
    ∃ io' sent', handle_write.loop io queue send sent = ok (io', sent') ∧
      QueueOk io'.write_queue ∧ sent' ++ unsent io'.write_queue = sent ++ unsent queue := by
  induction queue generalizing io send sent with
  | nil => exact ⟨_, sent, rfl, hqueue, rfl⟩
  | cons item rest ih =>
    have hitem := hqueue item (by simp)
    have hread := hitem.read
    obtain ⟨hnonneg, hlt, hlen, hmax⟩ := hitem
    have hfirst := hlegal 0 item rfl
    rw [handle_write.loop, hread]
    simp only [ok_bind]
    generalize send 0 = r at hfirst
    match r with
    | .again => exact ⟨_, sent, rfl, hqueue, rfl⟩
    | .error => exact absurd hfirst id
    | .accepted 0 => exact absurd hfirst.1 (Nat.not_succ_le_zero 0)
    | .accepted (n + 1) =>
      obtain ⟨_, hle⟩ := hfirst
      have hsplit := List.take_append_drop (n + 1) (item.data.drop item.offset.toNat)
      by_cases hpart : ((n + 1 : Nat) : Int) < item.len - item.offset
      · have hoffset : wrap32 (item.offset + (n + 1 : Nat)) = item.offset + (n + 1 : Nat) := by
          unfold INT_MAX at hmax
          exact wrap32_eq (by omega) (by omega)
        simp only [if_pos hpart, hoffset]
        refine ⟨_, _, rfl, ?_, ?_⟩
        · intro other hother
          rcases List.mem_cons.mp hother with rfl | hother
          · exact ⟨by dsimp only; omega, by dsimp only; omega, hlen, hmax⟩
          · exact hqueue other (List.mem_cons_of_mem _ hother)
        · have hnat : (item.offset + (n + 1 : Nat)).toNat = item.offset.toNat + (n + 1) := by omega
          simp only [unsent, List.flatMap_cons, hnat, List.append_assoc]
          rw [← List.drop_drop, ← List.append_assoc (List.take _ _), hsplit]
      · simp only [if_neg hpart]
        obtain ⟨io', sent', hloop, hok, hbytes⟩ := ih
          { io with wmem_size := wrap32 (io.wmem_size - item.len) } (fun i => send (i + 1))
          (sent ++ (item.data.drop item.offset.toNat).take (n + 1))
          (fun other hother => hqueue other (List.mem_cons_of_mem _ hother))
          (fun i other hother => hlegal (i + 1) other hother)
        refine ⟨io', sent', hloop, hok, ?_⟩
        rw [hbytes, List.take_of_length_le (by rw [List.length_drop]; omega)]
        simp only [unsent, List.flatMap_cons, List.append_assoc]

theorem handle_write_spec {io : io_buf_s} {send : Nat → send_result}
    (hqueue : QueueOk io.write_queue)
    (hlegal : ∀ i item, io.write_queue[i]? = some item →
      LegalSend (item.len - item.offset) (send i)) :
    ∃ io' sent, handle_write io send = ok (io', sent) ∧ QueueOk io'.write_queue ∧
      sent ++ unsent io'.write_queue = unsent io.write_queue := by
  obtain ⟨io', sent, hloop, hok, hbytes⟩ := handle_write_loop_spec io io.write_queue send []
    hqueue hlegal
  exact ⟨io', sent, hloop, hok, hbytes⟩

/-- A rest that is queued is the data from `nsend` on, behind what was queued before. -/
theorem io_write_enqueue_spec {io io' : io_buf_s} {mem sent sent' bytes : List UInt8}
    {data len ret : Int} (nsend : Nat) (hqueue : QueueOk io.write_queue) (hlen : len ≤ INT_MAX)
    (hrest : -2147483648 ≤ len - nsend)
    (hdata : readBytes mem data len.toNat = ok bytes)
    (hcall : io_write.enqueue io mem data len nsend sent = ok (ret, io', sent')) (hret : 0 ≤ ret) :
    sent' = sent ∧ QueueOk io'.write_queue ∧
      unsent io'.write_queue = unsent io.write_queue ++ bytes.drop nsend := by
  obtain ⟨⟨enqueue_len, io₁⟩, henqueue, hcall⟩ := bind_eq_ok_iff.mp hcall
  rw [wrap32_eq hrest (by unfold INT_MAX at hlen; omega)] at henqueue
  dsimp only at hcall
  by_cases hfailed : enqueue_len < 0
  · rw [if_pos hfailed] at hcall
    cases hcall
    omega
  · rw [if_neg hfailed] at hcall
    cases hcall
    unfold io_enqueue at henqueue
    by_cases hempty : len - nsend ≤ 0
    · rw [if_pos hempty] at henqueue
      cases henqueue
      omega
    · rw [if_neg hempty] at henqueue
      by_cases hfull : io.wmem_max_size ≤ wrap32 (io.wmem_size + (len - nsend))
      · rw [if_pos hfull] at henqueue
        cases henqueue
        omega
      · rw [if_neg hfull] at henqueue
        obtain ⟨rest, hrest, henqueue⟩ := bind_eq_ok_iff.mp henqueue
        cases henqueue
        obtain ⟨hpos, hin, rfl⟩ := readBytes_eq_ok (by omega) hdata
        obtain ⟨_, _, rfl⟩ := readBytes_eq_ok (by omega) hrest
        have hrest : (mem.drop (data + nsend).toNat).take (len - nsend).toNat =
            ((mem.drop data.toNat).take len.toNat).drop nsend := by
          rw [List.drop_take, List.drop_drop]
          congr 1
          · omega
          · congr 1
            omega
        refine ⟨rfl, ?_, ?_⟩
        · intro item hitem
          rcases List.mem_append.mp hitem with hitem | hitem
          · exact hqueue item hitem
          · rw [List.mem_singleton] at hitem
            subst hitem
            refine ⟨le_refl _, by dsimp only; omega, ?_, by dsimp only; omega⟩
            simp only [List.length_take, List.length_drop]
            omega
        · simp only [unsent, eloop_add_event, List.flatMap_append, List.flatMap_singleton,
            Int.toNat_zero, List.drop_zero, hrest]

/-- A write that does not fail passes its data to the socket and the queue in order. -/
theorem io_write_spec {io io' : io_buf_s} {mem sent bytes : List UInt8} {data len ret : Int}
    {send : send_result} (hqueue : QueueOk io.write_queue)
    (hlegal : io.write_queue = [] → LegalSend len send)
    (hlen : -2147483648 ≤ len ∧ len ≤ INT_MAX) (hdata : readBytes mem data len.toNat = ok bytes)
    (hcall : io_write io mem data len send = ok (ret, io', sent)) (hret : 0 ≤ ret) :
    QueueOk io'.write_queue ∧ sent ++ unsent io'.write_queue = unsent io.write_queue ++ bytes := by
  unfold io_write at hcall
  by_cases hempty : io.write_queue.length ≤ 0
  · rw [if_pos hempty] at hcall
    have hnil : io.write_queue = [] := List.eq_nil_of_length_eq_zero (by omega)
    have hsend := hlegal hnil
    cases send with
    | again =>
      obtain ⟨⟨enqueue_len, io₁⟩, _, hcall⟩ := bind_eq_ok_iff.mp hcall
      dsimp only at hcall
      split at hcall <;> cases hcall <;> omega
    | error => exact absurd hsend id
    | accepted nsend =>
      obtain ⟨hpos, hle⟩ := hsend
      obtain ⟨sent₁, hsent, hcall⟩ := bind_eq_ok_iff.mp hcall
      rw [if_neg (by omega)] at hcall
      obtain ⟨_, hin, rfl⟩ := readBytes_eq_ok (by omega) hdata
      obtain ⟨_, _, rfl⟩ := readBytes_eq_ok (by omega) hsent
      have hprefix : (mem.drop data.toNat).take nsend =
          ((mem.drop data.toNat).take len.toNat).take nsend := by
        rw [List.take_take, Nat.min_eq_left (by omega)]
      by_cases hpart : (nsend : Int) < len
      · rw [if_pos hpart] at hcall
        obtain ⟨rfl, hok, hbytes⟩ := io_write_enqueue_spec nsend hqueue hlen.2 (by omega)
          hdata hcall hret
        refine ⟨hok, ?_⟩
        rw [hbytes, hprefix, hnil]
        exact List.take_append_drop nsend _
      · rw [if_neg hpart] at hcall
        cases hcall
        refine ⟨hqueue, ?_⟩
        rw [hnil, hprefix, List.take_of_length_le (by rw [List.length_take]; omega)]
        simp [unsent]
  · rw [if_neg hempty] at hcall
    obtain ⟨rfl, hok, hbytes⟩ := io_write_enqueue_spec 0 hqueue hlen.2
      (by simpa using hlen.1) hdata hcall hret
    exact ⟨hok, by rw [hbytes, List.nil_append, List.drop_zero]⟩

/-- A call of `io_write` with the memory it is given a position in, or an event
that makes the connection writable. -/
inductive WriteEvent where
  | write (mem : List UInt8) (data len : Int) (send : send_result)
  | writable (send : Nat → send_result)

/-- A connection with the bytes its socket has accepted and the data that
`io_write` has been called with, each in order. -/
structure WriteState where
  io : io_buf_s
  wire : List UInt8
  written : List UInt8

inductive WriteStep : WriteState → WriteEvent → WriteState → Prop
  | write {s : WriteState} {mem bytes sent : List UInt8} {data len ret : Int} {send : send_result}
      {io : io_buf_s} (hlegal : s.io.write_queue = [] → LegalSend len send)
      (hlen : -2147483648 ≤ len ∧ len ≤ INT_MAX)
      (hdata : readBytes mem data len.toNat = ok bytes)
      (hcall : io_write s.io mem data len send = ok (ret, io, sent)) (hret : 0 ≤ ret) :
      WriteStep s (.write mem data len send) ⟨io, s.wire ++ sent, s.written ++ bytes⟩
  | writable {s : WriteState} {send : Nat → send_result} {sent : List UInt8} {io : io_buf_s}
      (hlegal : ∀ i item, s.io.write_queue[i]? = some item →
        LegalSend (item.len - item.offset) (send i))
      (hcall : handle_write s.io send = ok (io, sent)) :
      WriteStep s (.writable send) ⟨io, s.wire ++ sent, s.written⟩

/-- Every byte written is on the wire or in the queue, in order. -/
def StreamExact (s : WriteState) : Prop := s.wire ++ unsent s.io.write_queue = s.written

theorem writeStep_exact {s s' : WriteState} {e : WriteEvent}
    (hs : QueueOk s.io.write_queue ∧ StreamExact s) (hstep : WriteStep s e s') :
    QueueOk s'.io.write_queue ∧ StreamExact s' := by
  obtain ⟨hqueue, hexact⟩ := hs
  unfold StreamExact at hexact ⊢
  cases hstep with
  | write hlegal hlen hdata hcall hret =>
    obtain ⟨hok, hbytes⟩ := io_write_spec hqueue hlegal hlen hdata hcall hret
    exact ⟨hok, by rw [List.append_assoc, hbytes, ← List.append_assoc, hexact]⟩
  | writable hlegal hcall =>
    obtain ⟨io', sent, hcall', hok, hbytes⟩ := handle_write_spec hqueue hlegal
    rw [hcall] at hcall'
    cases hcall'
    exact ⟨hok, by rw [List.append_assoc, hbytes, hexact]⟩

/-- In a run whose writes do not fail, what the socket has accepted and what is
still queued is exactly what has been written. -/
theorem write_stream_exact {io : io_buf_s} (hempty : io.write_queue = [])
    {tr : List (WriteEvent × WriteState)} (hrun : Run WriteStep ⟨io, [], []⟩ tr) :
    ∀ x ∈ tr, StreamExact x.2 := by
  have hstart : QueueOk io.write_queue ∧ StreamExact ⟨io, [], []⟩ := by
    rw [StreamExact, hempty]
    exact ⟨nofun, rfl⟩
  intro x hx
  exact (hrun.invariant (fun hs hstep => writeStep_exact hs hstep) hstart x hx).2

/-- A connection with room for writes and an empty queue. -/
def idle_io : io_buf_s := { io_zero with wmem_max_size := MAX_WMEM_SIZE }

/-- `idle_io` with two queued items. -/
def queued_io (offset : Int) : io_buf_s :=
  { idle_io with
    events := EPOLLOUT
    write_queue := [⟨[3, 4], 2, offset⟩, ⟨[5, 6, 7], 3, 0⟩]
    wmem_size := 5 }

/-- The socket takes two of four bytes, the next three bytes are queued behind
the rest, and a drain gets one byte further. -/
theorem write_stream_exact_drain :
    StreamExact ⟨queued_io 1, [1, 2, 3], [1, 2, 3, 4, 5, 6, 7]⟩ ∧
      [4] ++ [5, 6, 7] = unsent (queued_io 1).write_queue := by
  have hfirst : WriteStep ⟨idle_io, [], []⟩ (.write [1, 2, 3, 4] 0 4 (.accepted 2))
      ⟨{ idle_io with events := EPOLLOUT, write_queue := [⟨[3, 4], 2, 0⟩], wmem_size := 2 },
        [1, 2], [1, 2, 3, 4]⟩ :=
    .write (fun _ => ⟨by decide, by decide⟩) (by decide) rfl rfl (by decide)
  have hsecond : WriteStep
      ⟨{ idle_io with events := EPOLLOUT, write_queue := [⟨[3, 4], 2, 0⟩], wmem_size := 2 },
        [1, 2], [1, 2, 3, 4]⟩
      (.write [5, 6, 7] 0 3 .again) ⟨queued_io 0, [1, 2], [1, 2, 3, 4, 5, 6, 7]⟩ :=
    .write nofun (by decide) rfl rfl (by decide)
  have hdrain : WriteStep ⟨queued_io 0, [1, 2], [1, 2, 3, 4, 5, 6, 7]⟩
      (.writable fun _ => .accepted 1) ⟨queued_io 1, [1, 2, 3], [1, 2, 3, 4, 5, 6, 7]⟩ := by
    refine @WriteStep.writable _ _ [3] _ (fun i item hitem => ?_) rfl
    match i with
    | 0 | 1 =>
      cases hitem
      exact ⟨by decide, by decide⟩
    | i + 2 => cases hitem
  have hrun := Run.cons hfirst (.cons hsecond (.cons hdrain (.nil _)))
  exact ⟨write_stream_exact rfl hrun _ (List.mem_of_getLast? rfl), rfl⟩

end easymesh.eloop_event
