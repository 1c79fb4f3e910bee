import Easymesh.Reactor.IoBuf

open Lib Lib.Result

namespace easymesh.eloop_event

/-- What `send` gives: the number of bytes accepted, `EAGAIN` or `EINTR`, or
another error. -/
inductive send_result where
  | accepted (nsend : Nat)
  | again
  | error
  deriving DecidableEq, Repr

/-- `data` is a position in `mem`. -/
def io_enqueue (io : io_buf_s) (mem : List UInt8) (data len : Int) : Result (Int × io_buf_s) :=
  if len ≤ 0 then ok (-1, io)
  else if io.wmem_max_size ≤ wrap32 (io.wmem_size + len) then ok (-1, io)
  else do
    let bytes ← readBytes mem data len.toNat
    ok (len, { io with
      write_queue := io.write_queue ++ [{ data := bytes, len, offset := 0 }]
      wmem_size := wrap32 (io.wmem_size + len) })

/-- What `io_write` does with a rest that is to be sent later. -/
def io_write.enqueue (io : io_buf_s) (mem : List UInt8) (data len nsend : Int)
    (sent : List UInt8) : Result (Int × io_buf_s × List UInt8) := do
  let (enqueue_len, io) ← io_enqueue io mem (data + nsend) (wrap32 (len - nsend))
  if enqueue_len < 0 then ok (-1, io, sent)
  else ok (nsend, eloop_add_event io EPOLLOUT, sent)

/-- `io_write` of the `len` bytes at position `data` of `mem`, with the bytes the
socket accepts in the call as the last result. `send` is what a direct send
gives; a failed one leaves -1 in `nsend`. -/
def io_write (io : io_buf_s) (mem : List UInt8) (data len : Int) (send : send_result) :
    Result (Int × io_buf_s × List UInt8) :=
  if io.write_queue.length ≤ 0 then
    match send with
    | .again => io_write.enqueue io mem data len (-1) []
    | .error => ok (-1, io, [])
    | .accepted nsend => do
      let sent ← readBytes mem data nsend
      if nsend = 0 then ok (-1, io, sent)
      else if nsend < len then io_write.enqueue io mem data len nsend sent
      else ok (len, io, sent)
  else io_write.enqueue io mem data len 0 []

/-- The loop of `handle_write` over the write queue; `send i` is what the `i`-th
call of `send` gives, and `sent` the bytes accepted so far. -/
def handle_write.loop (io : io_buf_s) :
    List io_write_queue_s → (Nat → send_result) → List UInt8 → Result (io_buf_s × List UInt8)
  | [], _, sent => ok (eloop_del_event { io with write_queue := [] } EPOLLOUT, sent)
  | queue_node :: rest, send, sent => do
    let should_send := queue_node.len - queue_node.offset
    let bytes ← readBytes queue_node.data queue_node.offset (toSize should_send)
    match send 0 with
    | .again | .error | .accepted 0 => ok ({ io with write_queue := queue_node :: rest }, sent)
    | .accepted nsend =>
      let sent := sent ++ bytes.take nsend
      if nsend < should_send then
        let queue_node := { queue_node with offset := wrap32 (queue_node.offset + nsend) }
        ok ({ io with write_queue := queue_node :: rest }, sent)
      else
        let io := { io with wmem_size := wrap32 (io.wmem_size - queue_node.len) }
        loop io rest (fun i => send (i + 1)) sent

def handle_write (io : io_buf_s) (send : Nat → send_result) : Result (io_buf_s × List UInt8) :=
  handle_write.loop io io.write_queue send []

end easymesh.eloop_event
