import Easymesh.Lib.Memory

open Lib Lib.Result

namespace easymesh.eloop_event

def IO_BUF_SIZE : Int := 8192

def MAX_WMEM_SIZE : Int := 16384

def EPOLLIN : UInt32 := 0x001

def EPOLLOUT : UInt32 := 0x004

structure io_pack_s where
  nheader : Int
  len_offset : Int
  deriving DecidableEq, Repr

structure io_write_queue_s where
  data : List UInt8
  len : Int
  offset : Int
  deriving DecidableEq, Repr

/-- `struct io_buf_s` without its descriptor, callbacks and owner; `buf` is empty
when it is `NULL`. -/
structure io_buf_s where
  buf : List UInt8
  len : Int
  head : Int
  tail : Int
  events : UInt32
  pack : io_pack_s
  has_packer : Bool
  write_queue : List io_write_queue_s
  wmem_max_size : Int
  wmem_size : Int
  deriving DecidableEq, Repr

/-- `memset(io, 0, sizeof(io_buf_t))` -/
def io_zero : io_buf_s :=
  { buf := []
    len := 0
    head := 0
    tail := 0
    events := 0
    pack := { nheader := 0, len_offset := 0 }
    has_packer := false
    write_queue := []
    wmem_max_size := 0
    wmem_size := 0 }

/-- `mem` is the block that `malloc` returns when there is no buffer yet. -/
def eloop_set_event (io : io_buf_s) (mem : List UInt8) : io_buf_s :=
  { io with
    buf := if io.buf = [] then mem else io.buf
    wmem_max_size := MAX_WMEM_SIZE }

def io_add_packer (io : io_buf_s) (nheader body_offset : Int) : io_buf_s :=
  { io with
    pack := { nheader, len_offset := body_offset }
    has_packer := true }

def eloop_reset_io (_ : io_buf_s) : io_buf_s := io_zero

def eloop_add_event (io : io_buf_s) (events : UInt32) : io_buf_s :=
  { io with events := io.events ||| events }

def eloop_del_event (io : io_buf_s) (events : UInt32) : io_buf_s :=
  { io with events := io.events &&& ~~~events }

@[simp] theorem add_event_out (e : UInt32) : (e ||| EPOLLOUT) &&& EPOLLOUT = EPOLLOUT := by
  apply UInt32.toBitVec_inj.mp
  ext i hi
  simp [EPOLLOUT]
  grind

@[simp] theorem add_event_in (e : UInt32) : (e ||| EPOLLOUT) &&& EPOLLIN = e &&& EPOLLIN := by
  apply UInt32.toBitVec_inj.mp
  ext i hi
  simp [EPOLLOUT, EPOLLIN]
  grind

@[simp] theorem del_event_out (e : UInt32) : (e &&& ~~~EPOLLOUT) &&& EPOLLOUT = 0 := by
  rw [UInt32.and_assoc]
  exact UInt32.and_zero

@[simp] theorem del_event_in (e : UInt32) : (e &&& ~~~EPOLLOUT) &&& EPOLLIN = e &&& EPOLLIN := by
  rw [UInt32.and_assoc]
  rfl

/-- The position in `io->buf` that `io_data` points at. -/
def io_data (io : io_buf_s) : Int := io.head

end easymesh.eloop_event
