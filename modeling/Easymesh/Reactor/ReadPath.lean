import Easymesh.Reactor.IoBuf

open Lib Lib.Result

namespace easymesh.eloop_event

/-- The callbacks of a connection, on the state `σ` of the program that set them.
They do not move the cursors of the connection. -/
structure io_callbacks (σ : Type) where
  on_read : io_buf_s → σ → Result σ
  on_close : io_buf_s → σ → Result σ

/-- What `recv` gives: bytes, `EAGAIN`, another error, or the peer's close. -/
inductive recv_result where
  | data (bytes : List UInt8)
  | again
  | error
  | closed
  deriving DecidableEq, Repr

variable {σ : Type}

/-- `__read_cb`; `buf` is a position in `io->buf`. -/
def read_cb (cb : io_callbacks σ) : Nat → io_buf_s → Int → Int → σ → Result (io_buf_s × σ)
  | 0, _, _, _, _ => div
  | fuel + 1, io, buf, len, s =>
    if io.pack.nheader ≤ len then do
      let nbody ← readI32 io.buf (buf + io.pack.len_offset)
      let size := wrap32 (nbody + io.pack.nheader)
      if len < size then ok (io, s)
      else do
        let s ← cb.on_read io s
        let io := { io with head := wrap32 (io.head + size), len := wrap32 (io.len - size) }
        read_cb cb fuel io (buf + size) (wrap32 (len - size)) s
    else ok (io, s)

/-- `fuel` bounds the turns of the loop in `__read_cb`. -/
def handle_read (cb : io_callbacks σ) (fuel : Nat) (io : io_buf_s) (recv : recv_result) (s : σ) :
    Result (io_buf_s × σ) :=
  let len := IO_BUF_SIZE - io.tail
  if len ≤ 0 then ok (eloop_reset_io io, s)
  else
    match recv with
    | .again => ok (io, s)
    | .error => ok (io, s)
    | .closed => do
      let s ← cb.on_close io s
      ok (eloop_reset_io io, s)
    | .data bytes => do
      let buf ← writeBytes io.buf io.tail bytes
      let io := { io with
        buf
        tail := wrap32 (io.tail + bytes.length)
        len := wrap32 (io.len + bytes.length) }
      let (io, s) ← read_cb cb fuel io io.head io.len s
      if IO_BUF_SIZE ≤ io.tail then do
        let moved ← readBytes io.buf io.head (toSize io.len)
        let buf ← writeBytes io.buf 0 moved
        ok ({ io with buf, head := 0, tail := io.len }, s)
      else ok (io, s)

end easymesh.eloop_event
