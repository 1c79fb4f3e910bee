import Easymesh.Reactor.WriteStream

open Lib Lib.Result

namespace easymesh.eloop_event

/-- `io_enqueue` takes `len` bytes: there are some, and the queue stays below its limit. -/
def Accepts (io : io_buf_s) (len : Int) : Prop :=
  0 < len ∧ wrap32 (io.wmem_size + len) < io.wmem_max_size

instance (io : io_buf_s) (len : Int) : Decidable (Accepts io len) :=
  inferInstanceAs (Decidable (_ ∧ _))

/-- A connection with one more item at the end of its write queue. -/
def append_item (io : io_buf_s) (data : List UInt8) (len : Int) : io_buf_s :=
  { io with
    write_queue := io.write_queue ++ [{ data, len, offset := 0 }]
    wmem_size := wrap32 (io.wmem_size + len) }

/-- `io_enqueue` appends the data as one item or leaves the connection as it is. -/
theorem io_enqueue_cases {io io' : io_buf_s} {mem : List UInt8} {data len ret : Int}
    (hcall : io_enqueue io mem data len = ok (ret, io')) :
    (¬ Accepts io len ∧ ret = -1 ∧ io' = io) ∨
      ∃ bytes, Accepts io len ∧ readBytes mem data len.toNat = ok bytes ∧ ret = len ∧
        io' = append_item io bytes len := by
  unfold io_enqueue at hcall
  by_cases hempty : len ≤ 0
  · rw [if_pos hempty] at hcall
    cases hcall
    exact .inl ⟨fun haccepts => absurd haccepts.1 (by omega), rfl, rfl⟩
  · rw [if_neg hempty] at hcall
    by_cases hfull : io.wmem_max_size ≤ wrap32 (io.wmem_size + len)
    · rw [if_pos hfull] at hcall
      cases hcall
      exact .inl ⟨fun haccepts => absurd haccepts.2 (not_lt.mpr hfull), rfl, rfl⟩
    · rw [if_neg hfull] at hcall
      obtain ⟨bytes, hbytes, hcall⟩ := bind_eq_ok_iff.mp hcall
      cases hcall
      exact .inr ⟨bytes, ⟨not_le.mp hempty, not_le.mp hfull⟩, hbytes, rfl, rfl⟩

/-- The position in the message from which `io_write` tries to enqueue it, if it
does. A send that would block leaves -1 in `nsend`. -/
def enqueued_from (io : io_buf_s) (len : Int) (send : send_result) : Option Int :=
  if io.write_queue.length ≤ 0 then
    match send with
    | .again => some (-1)
    | .error => none
    | .accepted nsend => if 0 < nsend ∧ nsend < len then some nsend else none
  else some 0

theorem io_write_enqueue_cases {io io' : io_buf_s} {mem sent sent' : List UInt8}
    {data len nsend ret : Int}
    (hcall : io_write.enqueue io mem data len nsend sent = ok (ret, io', sent')) :
    sent' = sent ∧
      ((¬ Accepts io (wrap32 (len - nsend)) ∧ ret = -1 ∧ io' = io) ∨
        ∃ bytes, Accepts io (wrap32 (len - nsend)) ∧
          readBytes mem (data + nsend) (wrap32 (len - nsend)).toNat = ok bytes ∧ ret = nsend ∧
          io' = eloop_add_event (append_item io bytes (wrap32 (len - nsend))) EPOLLOUT) := by
  obtain ⟨⟨enqueue_len, io₁⟩, henqueue, hreturn⟩ := bind_eq_ok_iff.mp hcall
  dsimp only at hreturn
  generalize wrap32 (len - nsend) = rest at henqueue ⊢
  rcases io_enqueue_cases henqueue with
    ⟨hfull, rfl, rfl⟩ | ⟨bytes, haccepts, hbytes, rfl, rfl⟩
  · rw [if_pos (by decide)] at hreturn
    cases hreturn
    exact ⟨rfl, .inl ⟨hfull, rfl, rfl⟩⟩
  · have hpos := haccepts.1
    rw [if_neg (by omega)] at hreturn
    cases hreturn
    exact ⟨rfl, .inr ⟨bytes, haccepts, hbytes, rfl, rfl⟩⟩

/-- Everything a call of `io_write` can do: it never reaches the queue, the queue
refuses the rest, or the rest is queued. -/
theorem io_write_cases {io io' : io_buf_s} {mem sent : List UInt8} {data len ret : Int}
    {send : send_result} (hcall : io_write io mem data len send = ok (ret, io', sent)) :
    (enqueued_from io len send = none ∧ io' = io ∧ (ret = len ∨ sent = [])) ∨
      ∃ nsend, enqueued_from io len send = some nsend ∧ sent.length = nsend.toNat ∧
        ((¬ Accepts io (wrap32 (len - nsend)) ∧ ret = -1 ∧ io' = io) ∨
          ∃ bytes, Accepts io (wrap32 (len - nsend)) ∧
            readBytes mem (data + nsend) (wrap32 (len - nsend)).toNat = ok bytes ∧ ret = nsend ∧
            io' = eloop_add_event (append_item io bytes (wrap32 (len - nsend))) EPOLLOUT) := by
  unfold io_write at hcall
  unfold enqueued_from
  by_cases hempty : io.write_queue.length ≤ 0
  · rw [if_pos hempty] at hcall ⊢
    cases send with
    | again =>
      obtain ⟨rfl, hcases⟩ := io_write_enqueue_cases hcall
      exact .inr ⟨-1, rfl, rfl, hcases⟩
    | error =>
      cases hcall
      exact .inl ⟨rfl, rfl, .inr rfl⟩
    | accepted nsend =>
      obtain ⟨sent₁, hsent, hcall⟩ := bind_eq_ok_iff.mp hcall
      have hlength := readBytes_length hsent
      by_cases hzero : nsend = 0
      · rw [if_pos hzero] at hcall
        cases hcall
        have hnil : sent = [] := List.eq_nil_of_length_eq_zero (hlength.trans hzero)
        exact .inl ⟨if_neg fun h => absurd hzero (by omega), rfl, .inr hnil⟩
      · rw [if_neg hzero] at hcall
        by_cases hpart : (nsend : Int) < len
        · rw [if_pos hpart] at hcall
          obtain ⟨rfl, hcases⟩ := io_write_enqueue_cases hcall
          exact .inr ⟨nsend, if_pos ⟨by omega, hpart⟩, hlength, hcases⟩
        · rw [if_neg hpart] at hcall
          cases hcall
          exact .inl ⟨if_neg fun h => hpart h.2, rfl, .inl rfl⟩
  · rw [if_neg hempty] at hcall ⊢
    obtain ⟨rfl, hcases⟩ := io_write_enqueue_cases hcall
    exact .inr ⟨0, rfl, rfl, hcases⟩

/-- The writes of which a failure leaves no trace. -/
def FailsWhole (io : io_buf_s) (len : Int) : send_result → Prop
  | .accepted nsend => 0 < nsend → nsend < len → Accepts io (len - nsend)
  | .again => ¬ Accepts io (wrap32 (len + 1))
  | .error => True

/-- A connection with its bytes in order is no connection with an item more. -/
theorem append_item_ne (io : io_buf_s) (bytes : List UInt8) (len : Int) :
    eloop_add_event (append_item io bytes len) EPOLLOUT ≠ io := by
  intro heq
  have hqueue := congrArg (fun io : io_buf_s => io.write_queue.length) heq
  simp [eloop_add_event, append_item] at hqueue

/-- A write that returns -1 has passed nothing on and changed nothing, exactly
when either the queue has items already, or the socket took a part and the queue
takes the rest, or the socket would block and the queue has no room. -/
theorem io_write_fails_whole_iff {io io' : io_buf_s} {mem sent : List UInt8} {data len ret : Int}
    {send : send_result} (hlen : 0 ≤ len ∧ len ≤ INT_MAX)
    (hcall : io_write io mem data len send = ok (ret, io', sent)) :
    (ret = -1 → sent = [] ∧ io' = io) ↔ (io.write_queue = [] → FailsWhole io len send) := by
  have hwrap : ∀ nsend : Nat, (nsend : Int) < len → wrap32 (len - nsend) = len - nsend := by
    intro nsend hlt
    unfold INT_MAX at hlen
    exact wrap32_eq (by omega) (by omega)
  by_cases hempty : io.write_queue = []
  · have hlength : io.write_queue.length ≤ 0 := by rw [hempty]; exact le_refl 0
    have hcases := io_write_cases hcall
    unfold enqueued_from at hcases
    simp only [if_pos hlength] at hcases
    cases send with
    | error =>
      rcases hcases with ⟨_, rfl, hret | hsent⟩ | ⟨_, hnone, _⟩
      · exact iff_of_true (fun hfail => absurd hret (by omega)) fun _ => trivial
      · exact iff_of_true (fun _ => ⟨hsent, rfl⟩) fun _ => trivial
      · cases hnone
    | again =>
      rcases hcases with ⟨hnone, _⟩ | ⟨_, hfrom, hsent, hqueue⟩
      · cases hnone
      · cases hfrom
        have hsent : sent = [] := List.eq_nil_of_length_eq_zero hsent
        rcases hqueue with ⟨hfull, rfl, rfl⟩ | ⟨bytes, haccepts, _, rfl, rfl⟩
        · exact iff_of_true (fun _ => ⟨hsent, rfl⟩) fun _ => hfull
        · refine iff_of_false (fun h => ?_) fun h => h hempty haccepts
          exact append_item_ne io bytes _ (h rfl).2
    | accepted nsend =>
      by_cases hpart : 0 < nsend ∧ (nsend : Int) < len
      · simp only [if_pos hpart] at hcases
        rcases hcases with ⟨hnone, _⟩ | ⟨_, hfrom, hsent, hqueue⟩
        · cases hnone
        · cases hfrom
          rw [hwrap nsend hpart.2] at hqueue
          rcases hqueue with ⟨hfull, rfl, rfl⟩ | ⟨bytes, haccepts, _, rfl, rfl⟩
          · refine iff_of_false (fun h => ?_) fun h => hfull (h hempty hpart.1 hpart.2)
            rw [(h rfl).1] at hsent
            simp only [List.length_nil, Int.toNat_natCast] at hsent
            omega
          · exact iff_of_true (fun h => absurd h (by omega)) fun _ _ _ => haccepts
      · simp only [if_neg hpart] at hcases
        rcases hcases with ⟨_, rfl, hret | hsent⟩ | ⟨_, hnone, _⟩
        · refine iff_of_true (fun hfail => absurd hret (by omega)) fun _ hpos hlt => ?_
          exact absurd ⟨hpos, hlt⟩ hpart
        · exact iff_of_true (fun _ => ⟨hsent, rfl⟩) fun _ hpos hlt => absurd ⟨hpos, hlt⟩ hpart
        · cases hnone
  · have hlength : ¬ io.write_queue.length ≤ 0 := by
      intro h
      exact hempty (List.eq_nil_of_length_eq_zero (by omega))
    have hcases := io_write_cases hcall
    unfold enqueued_from at hcases
    simp only [if_neg hlength] at hcases
    refine iff_of_true (fun hfail => ?_) fun h => absurd h hempty
    rcases hcases with ⟨hnone, _⟩ | ⟨_, hfrom, hsent, hqueue⟩
    · cases hnone
    · cases hfrom
      rcases hqueue with ⟨_, _, rfl⟩ | ⟨_, _, _, hret, _⟩
      · exact ⟨List.eq_nil_of_length_eq_zero hsent, rfl⟩
      · omega

/-- `idle_io` with a queue that has room for no byte more. -/
def full_io : io_buf_s :=
  { idle_io with
    events := EPOLLOUT
    write_queue := [⟨List.replicate 16383 7, 16383, 0⟩]
    wmem_size := 16383 }

/-- A write to a full queue fails whole. A send that would block makes the write fail with its
data in the queue. -/
theorem io_write_full_queue :
    (∃ io sent, io_write full_io [9, 1, 2] 0 3 .again = ok (-1, io, sent) ∧
      sent = [] ∧ io = full_io) ∧
    ∃ io sent, io_write idle_io [9, 1, 2] 1 2 .again = ok (-1, io, sent) ∧
      ¬ (sent = [] ∧ io = idle_io) := by
  constructor
  · have hcall : io_write full_io [9, 1, 2] 0 3 .again = ok (-1, full_io, []) := rfl
    have hwhole := (io_write_fails_whole_iff (by decide) hcall).mpr fun hempty => by cases hempty
    exact ⟨full_io, [], hcall, hwhole rfl⟩
  · have hcall : io_write idle_io [9, 1, 2] 1 2 .again = ok (-1, { idle_io with
        events := EPOLLOUT, write_queue := [⟨[9, 1, 2], 3, 0⟩], wmem_size := 3 }, []) := rfl
    refine ⟨_, _, hcall, fun hwhole => ?_⟩
    have hfails := (io_write_fails_whole_iff (by decide) hcall).mp (fun _ => hwhole) rfl
    have haccepts : Accepts idle_io (wrap32 (2 + 1)) := by decide
    exact hfails haccepts

/-- The socket takes the first 100 bytes of 20000, and the queue has no room for the rest. -/
theorem io_write_fails_in_part : ¬ ∀ (io io' : io_buf_s) (mem sent : List UInt8)
    (data len ret : Int) (send : send_result), 0 ≤ len ∧ len ≤ INT_MAX →
    io_write io mem data len send = ok (ret, io', sent) →
    ret = -1 → sent = [] ∧ io' = io := by
  intro hclaim
  have hread : readBytes (List.replicate 20000 7) 0 100 = ok (List.replicate 100 7) :=
    readBytes_replicate 7 (by decide)
  have hcall : io_write idle_io (List.replicate 20000 7) 0 20000 (.accepted 100) =
      ok (-1, idle_io, List.replicate 100 7) := by
    unfold io_write
    rw [if_pos (by decide)]
    simp only [hread, ok_bind]
    rfl
  have hsent := (hclaim _ _ _ _ _ _ _ _ (by decide) hcall rfl).1
  exact absurd hsent (by decide)

/-- The bytes that the items of a queue account for. -/
def queued_size (queue : List io_write_queue_s) : Int := (queue.map io_write_queue_s.len).sum

@[simp] theorem queued_size_nil : queued_size [] = 0 := rfl

@[simp] theorem queued_size_cons (item : io_write_queue_s) (queue : List io_write_queue_s) :
    queued_size (item :: queue) = item.len + queued_size queue := rfl

@[simp] theorem queued_size_append (queue rest : List io_write_queue_s) :
    queued_size (queue ++ rest) = queued_size queue + queued_size rest := by
  unfold queued_size
  rw [List.map_append, List.sum_append]

/-- The byte counter, the offsets and the event mask agree with the write queue. -/
structure WriteQueueOk (io : io_buf_s) : Prop where
  wmem_size_eq : io.wmem_size = queued_size io.write_queue
  wmem_size_lt : io.events ≠ 0 → io.wmem_size < io.wmem_max_size
  offset_ok : ∀ item ∈ io.write_queue, 0 ≤ item.offset ∧ item.offset < item.len
  epollout : io.events &&& EPOLLOUT ≠ 0 ↔ io.write_queue ≠ []

/-- A connection is registered for reading with the usual limit, or has been reset. -/
def Registered (io : io_buf_s) : Prop :=
  (io.events &&& EPOLLIN ≠ 0 ∧ io.wmem_max_size = MAX_WMEM_SIZE) ∨
    (io.events = 0 ∧ io.wmem_max_size = 0 ∧ io.write_queue = [])

inductive QueueEvent where
  | write (mem : List UInt8) (data len : Int) (send : send_result)
  | writable (send : Nat → send_result)
  | reset

inductive QueueStep : io_buf_s → QueueEvent → io_buf_s → Prop
  | write {io io' : io_buf_s} {mem sent : List UInt8} {data len ret : Int} {send : send_result}
      (hlen : -2147483648 ≤ len ∧ len ≤ INT_MAX)
      (hcall : io_write io mem data len send = ok (ret, io', sent)) :
      QueueStep io (.write mem data len send) io'
  | writable {io io' : io_buf_s} {send : Nat → send_result} {sent : List UInt8}
      (hcall : handle_write io send = ok (io', sent)) : QueueStep io (.writable send) io'
  | reset (io : io_buf_s) : QueueStep io .reset (eloop_reset_io io)

theorem QueueOk.queued_size_nonneg {queue : List io_write_queue_s} (hqueue : QueueOk queue) :
    0 ≤ queued_size queue := by
  induction queue with
  | nil => exact le_refl 0
  | cons item rest ih =>
    have hitem := hqueue item (by simp)
    have hrest := ih fun other hother => hqueue other (List.mem_cons_of_mem _ hother)
    have hnonneg := hitem.offset_nonneg
    have hlt := hitem.offset_lt
    rw [queued_size_cons]
    omega

/-- What the operations keep whether or not the byte counter is right. -/
structure Kept (io : io_buf_s) : Prop where
  queue : QueueOk io.write_queue
  registered : Registered io

theorem WriteQueueOk.wmem_size_nonneg {io : io_buf_s} (hok : WriteQueueOk io) (hkept : Kept io) :
    0 ≤ io.wmem_size := by
  rw [hok.wmem_size_eq]
  exact hkept.queue.queued_size_nonneg

theorem Kept.wmem_size_le {io : io_buf_s} (hkept : Kept io) (hok : WriteQueueOk io) :
    io.wmem_size ≤ MAX_WMEM_SIZE := by
  rcases hkept.registered with ⟨hin, hmax⟩ | ⟨_, _, hnil⟩
  · have hevents : io.events ≠ 0 := by
      intro hzero
      rw [hzero] at hin
      exact hin UInt32.zero_and
    exact hmax ▸ (hok.wmem_size_lt hevents).le
  · rw [hok.wmem_size_eq, hnil, queued_size_nil]
    decide

/-- Only a registered connection takes anything into its queue. -/
theorem Kept.of_accepts {io : io_buf_s} {len : Int} (hkept : Kept io) (hok : WriteQueueOk io)
    (hlen : len ≤ INT_MAX) (haccepts : Accepts io len) :
    io.events &&& EPOLLIN ≠ 0 ∧ io.wmem_max_size = MAX_WMEM_SIZE := by
  rcases hkept.registered with hreg | ⟨_, hmax, hempty⟩
  · exact hreg
  · obtain ⟨hpos, hroom⟩ := haccepts
    have hzero : io.wmem_size = 0 := by rw [hok.wmem_size_eq, hempty, queued_size_nil]
    unfold INT_MAX at hlen
    rw [hmax, hzero, wrap32_eq (by omega) (by omega)] at hroom
    omega

theorem Kept.append_item {io : io_buf_s} {mem bytes : List UInt8} {data len : Int} (hkept : Kept io)
    (hok : WriteQueueOk io) (hlen : len ≤ INT_MAX) (haccepts : Accepts io len)
    (hbytes : readBytes mem data len.toNat = ok bytes) :
    Kept (eloop_add_event (append_item io bytes len) EPOLLOUT) := by
  obtain ⟨hin, hmax⟩ := hkept.of_accepts hok hlen haccepts
  have hpos := haccepts.1
  have hlength := readBytes_length hbytes
  refine ⟨?_, .inl ⟨?_, hmax⟩⟩
  · intro item hitem
    rcases List.mem_append.mp hitem with hitem | hitem
    · exact hkept.queue item hitem
    · rw [List.mem_singleton] at hitem
      subst hitem
      exact ⟨le_refl 0, hpos, by dsimp only; omega, hlen⟩
  · exact (add_event_in io.events).symm ▸ hin

/-- Past the largest `int` the sum comes back negative, below every limit. -/
theorem Kept.accepts_of_overflow {io : io_buf_s} {len : Int} (hkept : Kept io)
    (hok : WriteQueueOk io) (hempty : io.write_queue ≠ []) (hlen : len ≤ INT_MAX)
    (hover : INT_MAX < io.wmem_size + len) : Accepts io len := by
  have hle := hkept.wmem_size_le hok
  unfold INT_MAX at hlen hover
  unfold MAX_WMEM_SIZE at hle
  refine ⟨by omega, ?_⟩
  have hneg : wrap32 (io.wmem_size + len) < 0 := wrap32_neg_of_gt (by omega) (by omega)
  rcases hkept.registered with ⟨_, hmax⟩ | ⟨_, _, hnil⟩
  · calc wrap32 (io.wmem_size + len) < 0 := hneg
      _ < MAX_WMEM_SIZE := by decide
      _ = io.wmem_max_size := hmax.symm
  · exact absurd hnil hempty

/-- An accepted item leaves the counter right exactly when the counter does not overflow. -/
theorem WriteQueueOk.append_item_iff {io : io_buf_s} {bytes : List UInt8} {len : Int}
    (hok : WriteQueueOk io) (hkept : Kept io) (haccepts : Accepts io len) :
    WriteQueueOk (eloop_add_event (append_item io bytes len) EPOLLOUT) ↔
      io.wmem_size + len ≤ INT_MAX := by
  have hnonneg := hok.wmem_size_nonneg hkept
  obtain ⟨hpos, hroom⟩ := haccepts
  constructor
  · intro hafter
    have hsize : wrap32 (io.wmem_size + len) = io.wmem_size + len := by
      have heq := hafter.wmem_size_eq
      simp only [eloop_add_event, append_item, queued_size_append, queued_size_cons,
        queued_size_nil, add_zero] at heq
      rw [heq, hok.wmem_size_eq]
    exact hsize ▸ wrap32_hi (io.wmem_size + len)
  · intro hfits
    have hsize : wrap32 (io.wmem_size + len) = io.wmem_size + len := by
      unfold INT_MAX at hfits
      exact wrap32_eq (by omega) (by omega)
    rw [hsize] at hroom
    constructor
    · simp only [eloop_add_event, append_item, queued_size_append, queued_size_cons,
        queued_size_nil, add_zero, hsize]
      rw [hok.wmem_size_eq]
    · intro _
      simp only [eloop_add_event, append_item, hsize]
      exact hroom
    · intro item hitem
      rcases List.mem_append.mp hitem with hitem | hitem
      · exact hok.offset_ok item hitem
      · rw [List.mem_singleton] at hitem
        subst hitem
        exact ⟨le_refl 0, hpos⟩
    · refine iff_of_true ?_ (List.append_ne_nil_of_right_ne_nil _ (List.cons_ne_nil _ _))
      exact (add_event_out io.events).symm ▸ by decide

/-- Behind a queue with items, a write does not take the byte counter past `int`. -/
def CounterFits (io : io_buf_s) : QueueEvent → io_buf_s → Prop
  | .write _ _ len _, _ => io.write_queue ≠ [] → io.wmem_size + len ≤ INT_MAX
  | .writable _, _ | .reset, _ => True

theorem io_write_keeps {io io' : io_buf_s} {mem sent : List UInt8} {data len ret : Int}
    {send : send_result} (hkept : Kept io) (hok : WriteQueueOk io)
    (hcall : io_write io mem data len send = ok (ret, io', sent)) : Kept io' := by
  rcases io_write_cases hcall with ⟨_, rfl, _⟩ | ⟨nsend, _, _, hqueue⟩
  · exact hkept
  · rcases hqueue with ⟨_, _, rfl⟩ | ⟨bytes, haccepts, hbytes, _, rfl⟩
    · exact hkept
    · exact hkept.append_item hok (wrap32_hi _) haccepts hbytes

theorem io_write_ok_iff {io io' : io_buf_s} {mem sent : List UInt8} {data len ret : Int}
    {send : send_result} (hkept : Kept io) (hok : WriteQueueOk io)
    (hlen : -2147483648 ≤ len ∧ len ≤ INT_MAX)
    (hcall : io_write io mem data len send = ok (ret, io', sent)) :
    WriteQueueOk io' ↔ (io.write_queue ≠ [] → io.wmem_size + len ≤ INT_MAX) := by
  have hnonneg := hok.wmem_size_nonneg hkept
  have hcases := io_write_cases hcall
  by_cases hempty : io.write_queue = []
  · refine iff_of_true ?_ fun h => absurd hempty h
    have hzero : io.wmem_size = 0 := by rw [hok.wmem_size_eq, hempty, queued_size_nil]
    rcases hcases with ⟨_, rfl, _⟩ | ⟨nsend, _, _, ⟨_, _, rfl⟩ | ⟨_, haccepts, _, _, rfl⟩⟩
    · exact hok
    · exact hok
    · rw [hok.append_item_iff hkept haccepts, hzero, zero_add]
      exact wrap32_hi (len - nsend)
  · have hlength : ¬ io.write_queue.length ≤ 0 := by
      intro h
      exact hempty (List.eq_nil_of_length_eq_zero (by omega))
    have hwrap : wrap32 (len - 0) = len := by
      unfold INT_MAX at hlen
      rw [sub_zero]
      exact wrap32_eq (by omega) (by omega)
    unfold enqueued_from at hcases
    simp only [if_neg hlength] at hcases
    rcases hcases with ⟨hnone, _⟩ | ⟨nsend, hfrom, _, hqueue⟩
    · cases hnone
    · cases hfrom
      rw [hwrap] at hqueue
      rcases hqueue with ⟨hfull, _, rfl⟩ | ⟨_, haccepts, _, _, rfl⟩
      · refine iff_of_true hok fun _ => ?_
        by_contra hover
        exact hfull (hkept.accepts_of_overflow hok hempty hlen.2 (not_le.mp hover))
      · rw [hok.append_item_iff hkept haccepts]
        exact ⟨fun h _ => h, fun h => h hempty⟩

/-- What draining a queue leaves of it: the counter follows the items removed, and
the write event goes with the last of them. -/
structure Drained (io io' : io_buf_s) : Prop where
  queue : QueueOk io'.write_queue
  wmem_size_eq : io'.wmem_size = queued_size io'.write_queue
  wmem_size_le : io'.wmem_size ≤ io.wmem_size
  wmem_max_size_eq : io'.wmem_max_size = io.wmem_max_size
  events : (io'.write_queue = [] ∧ io'.events = io.events &&& ~~~EPOLLOUT) ∨
    (io'.write_queue ≠ [] ∧ io'.events = io.events)

theorem handle_write_loop_drained {io io' : io_buf_s} {queue : List io_write_queue_s}
    {send : Nat → send_result} {sent sent' : List UInt8} (hqueue : QueueOk queue)
    (hsize : io.wmem_size = queued_size queue) (hfits : io.wmem_size ≤ INT_MAX)
    (hcall : handle_write.loop io queue send sent = ok (io', sent')) : Drained io io' := by
  induction queue generalizing io send sent with
  | nil =>
    cases hcall
    exact ⟨hqueue, hsize, le_refl _, rfl, .inl ⟨rfl, rfl⟩⟩
  | cons item rest ih =>
    have hitem := hqueue item (by simp)
    have hrestQueue : QueueOk rest := fun other hother => hqueue other (List.mem_cons_of_mem _ hother)
    obtain ⟨hnonneg, hlt, hlen, hmax⟩ := hitem
    have hstay : Drained io { io with write_queue := item :: rest } :=
      ⟨hqueue, hsize, le_refl _, rfl, .inr ⟨List.cons_ne_nil _ _, rfl⟩⟩
    rw [handle_write.loop] at hcall
    obtain ⟨bytes, _, hcall⟩ := bind_eq_ok_iff.mp hcall
    generalize send 0 = r at hcall
    cases r with
    | again =>
      cases hcall
      exact hstay
    | error =>
      cases hcall
      exact hstay
    | accepted k =>
    cases k with
    | zero =>
      cases hcall
      exact hstay
    | succ n =>
      by_cases hpart : ((n + 1 : Nat) : Int) < item.len - item.offset
      · have hoffset : wrap32 (item.offset + (n + 1 : Nat)) = item.offset + (n + 1 : Nat) := by
          unfold INT_MAX at hmax
          exact wrap32_eq (by omega) (by omega)
        simp only [if_pos hpart, hoffset] at hcall
        cases hcall
        refine ⟨?_, hsize, le_refl _, rfl, .inr ⟨List.cons_ne_nil _ _, rfl⟩⟩
        intro other hother
        rcases List.mem_cons.mp hother with rfl | hother
        · exact ⟨by dsimp only; omega, by dsimp only; omega, hlen, hmax⟩
        · exact hrestQueue other hother
      · have hrestSize := hrestQueue.queued_size_nonneg
        rw [queued_size_cons] at hsize
        have hless : wrap32 (io.wmem_size - item.len) = queued_size rest := by
          unfold INT_MAX at hfits
          rw [wrap32_eq (by omega) (by omega)]
          omega
        simp only [if_neg hpart, hless] at hcall
        obtain ⟨hok, heq, hle, hlimit, hevents⟩ := ih hrestQueue rfl (by dsimp only; omega) hcall
        exact ⟨hok, heq, le_trans hle (by dsimp only; omega), hlimit, hevents⟩

theorem handle_write_keeps {io io' : io_buf_s} {send : Nat → send_result} {sent : List UInt8}
    (hkept : Kept io) (hok : WriteQueueOk io) (hcall : handle_write io send = ok (io', sent)) :
    Kept io' ∧ WriteQueueOk io' := by
  have hbound : io.wmem_size ≤ MAX_WMEM_SIZE := hkept.wmem_size_le hok
  obtain ⟨hqueue, hsize, hle, hlimit, hevents⟩ := handle_write_loop_drained hkept.queue
    hok.wmem_size_eq (le_trans hbound (by decide)) hcall
  have hoffset : ∀ item ∈ io'.write_queue, 0 ≤ item.offset ∧ item.offset < item.len :=
    fun item hitem => ⟨(hqueue item hitem).offset_nonneg, (hqueue item hitem).offset_lt⟩
  have hin : io'.events &&& EPOLLIN = io.events &&& EPOLLIN := by
    rcases hevents with ⟨_, heq⟩ | ⟨_, heq⟩
    · rw [heq, del_event_in]
    · rw [heq]
  have hempty : io.write_queue = [] → io'.write_queue = [] := by
    intro hnil
    unfold handle_write at hcall
    rw [hnil] at hcall
    cases hcall
    rfl
  refine ⟨⟨hqueue, ?_⟩, hsize, ?_, hoffset, ?_⟩
  · rcases hkept.registered with ⟨hreg, hmax⟩ | ⟨hzero, hmax, hnil⟩
    · exact .inl ⟨hin ▸ hreg, hlimit.trans hmax⟩
    · refine .inr ⟨?_, hlimit.trans hmax, hempty hnil⟩
      rcases hevents with ⟨_, heq⟩ | ⟨_, heq⟩
      · rw [heq, hzero, UInt32.zero_and]
      · rw [heq, hzero]
  · intro hreg
    have hbefore : io.events ≠ 0 := by
      intro hzero
      rcases hevents with ⟨_, heq⟩ | ⟨_, heq⟩
      · exact hreg (by rw [heq, hzero, UInt32.zero_and])
      · exact hreg (heq.trans hzero)
    exact hlimit ▸ lt_of_le_of_lt hle (hok.wmem_size_lt hbefore)
  · rcases hevents with ⟨hnil, heq⟩ | ⟨hne, heq⟩
    · rw [heq, del_event_out, hnil]
      exact iff_of_false (fun h => h rfl) fun h => h rfl
    · rw [heq]
      exact iff_of_true (hok.epollout.mpr fun hnil => hne (hempty hnil)) hne

theorem reset_keeps (io : io_buf_s) : Kept (eloop_reset_io io) ∧ WriteQueueOk (eloop_reset_io io) :=
  ⟨⟨nofun, .inr ⟨rfl, rfl, rfl⟩⟩, rfl, fun h => absurd rfl h, nofun,
    by unfold eloop_reset_io; decide⟩

/-- In every run from a connection registered for reading with an empty queue, the
counter, the offsets and the event mask agree with the queue after each operation,
exactly when no write behind a queue with items takes the counter past `int`. -/
theorem write_queue_ok_iff {io : io_buf_s} (hevents : io.events = EPOLLIN)
    (hmax : io.wmem_max_size = MAX_WMEM_SIZE) (hempty : io.write_queue = [])
    (hsize : io.wmem_size = 0) {tr : List (QueueEvent × io_buf_s)} (hrun : Run QueueStep io tr) :
    (∀ x ∈ tr, WriteQueueOk x.2) ↔ AllSteps CounterFits io tr := by
  have hkept : Kept io := ⟨by rw [hempty]; exact nofun, .inl ⟨by rw [hevents]; decide, hmax⟩⟩
  have hok : WriteQueueOk io := by
    refine ⟨by rw [hsize, hempty, queued_size_nil], fun _ => ?_, by rw [hempty]; exact nofun, ?_⟩
    · rw [hsize, hmax]
      decide
    · rw [hevents, hempty]
      decide
  refine hrun.invariant_iff ?_ ?_ hkept hok
  · intro io e io' hkept hok hstep
    cases hstep with
    | write hlen hcall => exact io_write_keeps hkept hok hcall
    | writable hcall => exact (handle_write_keeps hkept hok hcall).1
    | reset => exact (reset_keeps io).1
  · intro io e io' hkept hok hstep
    cases hstep with
    | write hlen hcall => exact io_write_ok_iff hkept hok hlen hcall
    | writable hcall => exact iff_of_true (handle_write_keeps hkept hok hcall).2 trivial
    | reset => exact iff_of_true (reset_keeps io).2 trivial

/-- A connection registered for reading, with an empty queue. -/
def reading_io : io_buf_s := { idle_io with events := EPOLLIN }

/-- `reading_io` with the last `size` bytes of a message in its queue. -/
def waiting_io (data : List UInt8) (size : Int) : io_buf_s :=
  { reading_io with
    events := EPOLLIN ||| EPOLLOUT
    write_queue := [⟨data, size, 0⟩]
    wmem_size := size }

/-- One byte is sent, two are queued and drained, and the connection is reset. -/
theorem write_queue_ok_drain :
    WriteQueueOk (waiting_io [2, 3] 2) ∧ WriteQueueOk (eloop_reset_io reading_io) := by
  have hwrite : QueueStep reading_io (.write [1, 2, 3] 0 3 (.accepted 1)) (waiting_io [2, 3] 2) :=
    .write (by decide) rfl
  have hdrain : QueueStep (waiting_io [2, 3] 2) (.writable fun _ => .accepted 2) reading_io :=
    @QueueStep.writable _ _ _ [2, 3] rfl
  have hrun := Run.cons hwrite (.cons hdrain (.cons (.reset reading_io) (.nil _)))
  have hall := (write_queue_ok_iff rfl rfl rfl rfl hrun).mpr
    ⟨fun h => absurd rfl h, trivial, trivial, trivial⟩
  exact ⟨hall _ (.head _), hall _ (.tail _ (.tail _ (.head _)))⟩

/-- Behind two queued bytes, a message of the largest `int` of bytes takes the counter below zero. -/
theorem write_queue_overflows : ¬ ∀ (io : io_buf_s) (tr : List (QueueEvent × io_buf_s)),
    io.events = EPOLLIN → io.wmem_max_size = MAX_WMEM_SIZE → io.write_queue = [] →
    io.wmem_size = 0 → Run QueueStep io tr → ∀ x ∈ tr, WriteQueueOk x.2 := by
  intro hclaim
  obtain ⟨mem, hmem⟩ : ∃ mem : List UInt8, mem.length = INT_MAX :=
    ⟨List.replicate INT_MAX 7, List.length_replicate⟩
  have hfirst : QueueStep reading_io (.write [1, 2, 3] 0 3 (.accepted 1)) (waiting_io [2, 3] 2) :=
    .write (by decide) rfl
  have hread : readBytes mem 0 INT_MAX = ok mem := by
    rw [readBytes_of_le (le_refl 0) (by rw [hmem]; exact le_refl _), ← hmem, Int.toNat_zero,
      List.drop_zero, List.take_length]
  have hcall : io_write (waiting_io [2, 3] 2) mem 0 INT_MAX .again =
      ok (0, eloop_add_event (append_item (waiting_io [2, 3] 2) mem INT_MAX) EPOLLOUT, []) := by
    have hwrap : wrap32 ((INT_MAX : Int) - 0) = INT_MAX := by decide
    unfold io_write io_write.enqueue io_enqueue
    rw [if_neg (by decide), hwrap, if_neg (by decide), if_neg (by decide), Int.toNat_natCast,
      add_zero, hread]
    rfl
  have hsecond := QueueStep.write (by decide) hcall
  have hafter := hclaim reading_io _ rfl rfl rfl rfl (.cons hfirst (.cons hsecond (.nil _))) _
    (.tail _ (.head _))
  have hsize : wrap32 (2 + INT_MAX) = 2 + (INT_MAX + 0) := hafter.wmem_size_eq
  exact absurd hsize (by decide)

end easymesh.eloop_event
