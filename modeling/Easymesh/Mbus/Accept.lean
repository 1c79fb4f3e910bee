import Easymesh.Mbus.Daemon
import Easymesh.Reactor.IoBuf

open Lib Lib.Result easymesh.eloop_event

namespace easymesh.mbusd

/-- The callbacks that the daemon gives its connections. -/
inductive connection_cb where
  | handle_read
  | handle_close
  deriving DecidableEq, Repr

/-- An `io_buf_t` of the loop. -/
structure io_slot where
  fd : Int
  arg : Ptr
  on_read : Option connection_cb
  on_close : Option connection_cb
  io : io_buf_s

/-- The array that `eloop_create` allocates. -/
structure eloop_t where
  ios : Fin MAX_EPOLL_EVENTS → io_slot

/-- The place of `&io->loop->ios[fd]`, which the array must have. -/
def slot_index (fd : Int) : Result (Fin MAX_EPOLL_EVENTS) :=
  if h : fd.toNat < MAX_EPOLL_EVENTS ∧ 0 ≤ fd then ok ⟨fd.toNat, h.1⟩ else fail

/-- The count at which the scan for a slot without events stops. -/
def scan_slots (loop : eloop_t) : Nat :=
  (((List.finRange MAX_EPOLL_EVENTS).find? fun i => (loop.ios i).io.events = 0).map
    fun i => i.val).getD MAX_EPOLL_EVENTS

/-- The calls on the slot of a new connection; `mem` is the block that `malloc` returns. -/
def connect_slot (slot : io_slot) (clientfd : Int) (mem : List UInt8) : io_slot where
  fd := clientfd
  arg := 0
  on_read := some .handle_read
  on_close := some .handle_close
  io := eloop_add_event (io_add_packer (eloop_set_event slot.io mem) 16 0) EPOLLIN

/-- `clientfd` is what `accept` returns, and `flag` what `fcntl` returns for it. The result
tells the slot that is used with the loop. -/
def handle_accept (loop : eloop_t) (clientfd flag : Int) (mem : List UInt8) :
    Result (Option (Fin MAX_EPOLL_EVENTS) × eloop_t) :=
  if clientfd < 0 then ok (none, loop)
  else
    let i := 0
    -- the scan counts in a variable of its own that is also called `i`
    let _i := scan_slots loop
    if i = MAX_EPOLL_EVENTS then ok (none, loop)
    else if flag < 0 then ok (none, loop)
    else do
      let slot ← slot_index clientfd
      let ios := Function.update loop.ios slot (connect_slot (loop.ios slot) clientfd mem)
      ok (some slot, { loop with ios })

/-- What becomes of the connections. -/
inductive slot_event where
  | accept (clientfd flag : Int) (mem : List UInt8)
  /-- `eloop_reset_io` -/
  | close (slot : Fin MAX_EPOLL_EVENTS)
  /-- what the reactor does with the buffers of a connection -/
  | handle (slot : Fin MAX_EPOLL_EVENTS) (io : io_buf_s)

def eloop_t.exec (loop : eloop_t) : slot_event → Result eloop_t
  | .accept clientfd flag mem => Prod.snd <$> handle_accept loop clientfd flag mem
  | .close slot => ok { loop with
      ios := Function.update loop.ios slot
        { fd := 0, arg := 0, on_read := none, on_close := none, io := eloop_reset_io (loop.ios slot).io } }
  | .handle slot io => ok { loop with
      ios := Function.update loop.ios slot { loop.ios slot with io } }

/-- There is no slot for the connection: all are in use, or its descriptor is not the
number of one. -/
def BeyondLimit (loop : eloop_t) (clientfd : Int) : Prop :=
  (∀ i, (loop.ios i).io.events ≠ 0) ∨ MAX_EPOLL_EVENTS ≤ clientfd

/-- `handle_accept` uses a slot of the array or none, and none for a connection beyond
the limit, which leaves the loop as it was. -/
def KeepsToSlots (loop : eloop_t) : slot_event → Prop
  | .accept clientfd flag mem => ∃ slot loop', handle_accept loop clientfd flag mem = ok (slot, loop') ∧
      (BeyondLimit loop clientfd → slot = none ∧ loop' = loop)
  | _ => True

/-- A connection that was accepted and made non-blocking has the number of a slot, and
some slot is free. -/
def WithinLimit (loop : eloop_t) : slot_event → Prop
  | .accept clientfd flag _ => clientfd < 0 ∨ flag < 0 ∨
      clientfd < MAX_EPOLL_EVENTS ∧ ∃ i, (loop.ios i).io.events = 0
  | _ => True

section Accept

variable {loop : eloop_t} {clientfd flag : Int} {mem : List UInt8}

theorem slot_index_of_lt (hpos : 0 ≤ clientfd) (hlt : clientfd < MAX_EPOLL_EVENTS) :
    slot_index clientfd = ok ⟨clientfd.toNat, by omega⟩ :=
  dif_pos ⟨by omega, hpos⟩

theorem slot_index_of_ge (hge : MAX_EPOLL_EVENTS ≤ clientfd) : slot_index clientfd = fail :=
  dif_neg (by omega)

theorem handle_accept_refused (hrefused : clientfd < 0 ∨ flag < 0) :
    handle_accept loop clientfd flag mem = ok (none, loop) := by
  rw [handle_accept]
  split
  · rfl
  · next hpos =>
    dsimp only
    rw [if_neg (by decide), if_pos (hrefused.resolve_left hpos)]

/-- The check of the limit never stops a connection. -/
theorem handle_accept_connects (hpos : 0 ≤ clientfd) (hflag : 0 ≤ flag) :
    handle_accept loop clientfd flag mem = slot_index clientfd >>= fun slot =>
      ok (some slot, { loop with
        ios := Function.update loop.ios slot (connect_slot (loop.ios slot) clientfd mem) }) := by
  rw [handle_accept, if_neg (by omega)]
  dsimp only
  rw [if_neg (by decide), if_neg (by omega)]

/-- The daemon's table of connections, which `daemon.eloop_set_event` writes, ends where
the array does. -/
theorem daemon_set_event_returns_iff (b : daemon) (hflag : 0 ≤ flag) (fd : Nat) :
    (b.eloop_set_event fd).Returns ↔ (handle_accept loop fd flag mem).Returns := by
  rw [handle_accept_connects (Int.natCast_nonneg fd) hflag, daemon.eloop_set_event]
  by_cases hlt : fd < MAX_EPOLL_EVENTS
  · rw [if_pos hlt, slot_index_of_lt (Int.natCast_nonneg fd) (by omega)]
    exact iff_of_true ⟨_, rfl⟩ ⟨_, rfl⟩
  · rw [if_neg hlt, slot_index_of_ge (by omega)]
    exact iff_of_false (by rintro ⟨b', ⟨⟩⟩) (by rintro ⟨r, ⟨⟩⟩)

/-- A step keeps to the slots exactly when the connection is within the limit. -/
theorem keepsToSlots_iff (loop : eloop_t) (e : slot_event) :
    KeepsToSlots loop e ↔ WithinLimit loop e := by
  cases e with
  | close slot => exact Iff.rfl
  | handle slot io => exact Iff.rfl
  | accept clientfd flag mem =>
    by_cases hrefused : clientfd < 0 ∨ flag < 0
    · refine iff_of_true ⟨none, loop, handle_accept_refused hrefused, fun _ => ⟨rfl, rfl⟩⟩ ?_
      rw [WithinLimit, ← or_assoc]
      exact .inl hrefused
    · have hpos : 0 ≤ clientfd := by omega
      have hconnects := @handle_accept_connects loop clientfd flag mem hpos (by omega)
      rw [KeepsToSlots, WithinLimit, hconnects]
      constructor
      · rintro ⟨slot, loop', hcall, hbeyond⟩
        obtain ⟨index, hindex, hresult⟩ := bind_eq_ok_iff.mp hcall
        cases hresult
        have hwithin : ¬ BeyondLimit loop clientfd := fun h => Option.some_ne_none _ (hbeyond h).1
        rw [BeyondLimit, not_or, not_forall, Int.not_le] at hwithin
        obtain ⟨⟨i, hfree⟩, hlt⟩ := hwithin
        exact .inr (.inr ⟨hlt, i, not_not.mp hfree⟩)
      · rintro (hneg | hneg | ⟨hlt, i, hfree⟩)
        · exact absurd (.inl hneg) hrefused
        · exact absurd (.inr hneg) hrefused
        · rw [slot_index_of_lt hpos hlt]
          refine ⟨_, _, rfl, ?_⟩
          rintro (hfull | hge)
          · exact absurd hfree (hfull i)
          · exact absurd hge (Int.not_le.mpr hlt)

end Accept

/-- In any sequence of connections that come and go, every `handle_accept` keeps to the
slots exactly when each connection is within the limit in its turn. -/
theorem handle_accept_keeps_to_slots_iff (loop : eloop_t) (events : List slot_event) :
    Enabled KeepsToSlots (fun loop e => (loop.exec e).getD loop) loop events ↔
      Enabled WithinLimit (fun loop e => (loop.exec e).getD loop) loop events :=
  enabled_congr keepsToSlots_iff loop events

/-- A loop whose slots are all zero. -/
def empty_slots : eloop_t where
  ios _ := { fd := 0, arg := 0, on_read := none, on_close := none, io := io_zero }

/-- The first connection after 1024 other descriptors were opened, and one when every slot
has events. -/
theorem handle_accept_beyond_limit :
    ¬ KeepsToSlots empty_slots (.accept 1024 0 []) ∧
      ¬ KeepsToSlots ⟨fun i => { empty_slots.ios i with io := { io_zero with events := EPOLLIN } }⟩
        (.accept 5 0 []) := by
  constructor
  · rintro ⟨slot, loop', hcall, -⟩
    cases hcall
  · rintro ⟨slot, loop', hcall, hbeyond⟩
    cases hcall
    have hevents : EPOLLIN ≠ 0 := by decide
    have hnone := (hbeyond (.inl fun _ => hevents)).1
    cases hnone

end easymesh.mbusd
