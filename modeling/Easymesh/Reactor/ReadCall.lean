import Easymesh.Reactor.ReadLoop

open Lib Lib.Result Lib.Framing

namespace easymesh.eloop_event

/-- The connection after `recv` has stored `bytes` behind the tail. -/
def io_buf_s.receive (io : io_buf_s) (bytes : List UInt8) : io_buf_s :=
  { io with
    buf := io.buf.take io.tail.toNat ++ bytes ++ io.buf.drop (io.tail.toNat + bytes.length)
    tail := io.tail + bytes.length
    len := io.len + bytes.length }

/-- The connection after the pending bytes of a full buffer are moved to its start. -/
def io_buf_s.compact (io : io_buf_s) : io_buf_s :=
  if IO_BUF_SIZE ≤ io.tail then
    { io with
      buf := pending io ++ io.buf.drop (pending io).length
      head := 0
      tail := io.len }
  else io

section Receive

variable {io : io_buf_s} {bytes : List UInt8}

theorem Live.receive (hlive : Live io) (hfit : (bytes.length : Int) ≤ IO_BUF_SIZE - io.tail) :
    Live (io.receive bytes) := by
  obtain ⟨⟨hhead, hle, htail, hlen⟩, hbuf⟩ := hlive
  refine ⟨⟨hhead, ?_, ?_, ?_⟩, ?_⟩ <;> simp only [io_buf_s.receive]
  · omega
  · omega
  · omega
  · simp only [List.length_append, List.length_take, List.length_drop]
    omega

theorem pending_receive (hlive : Live io) (bytes : List UInt8) :
    pending (io.receive bytes) = pending io ++ bytes := by
  have hlength := hlive.pending_length
  obtain ⟨⟨hhead, hle, htail, hlen⟩, hbuf⟩ := hlive
  have hold : (io.buf.take io.tail.toNat).drop io.head.toNat = pending io := by
    rw [List.drop_take, pending]
    congr 1
    omega
  have htake : (io.buf.take io.tail.toNat).length = io.tail.toNat :=
    List.length_take_of_le (by omega)
  unfold pending io_buf_s.receive at *
  simp only
  rw [List.append_assoc, List.drop_append_of_le_length (by omega), hold, ← List.append_assoc,
    List.take_append_of_le_length (by rw [List.length_append]; omega),
    List.take_of_length_le (by rw [List.length_append]; omega)]

theorem Live.compact (hlive : Live io) : Live io.compact := by
  have hlength := hlive.pending_length
  unfold io_buf_s.compact
  split
  · obtain ⟨⟨hhead, hle, htail, hlen⟩, hbuf⟩ := hlive
    refine ⟨⟨le_refl _, ?_, ?_, ?_⟩, ?_⟩ <;> simp only
    · omega
    · omega
    · omega
    · simp only [List.length_append, List.length_drop]
      omega
  · exact hlive

theorem pending_compact (hlive : Live io) : pending io.compact = pending io := by
  have hlength := hlive.pending_length
  unfold io_buf_s.compact
  split
  · rw [pending]
    simp only [Int.toNat_zero, List.drop_zero]
    rw [List.take_append_of_le_length (by omega), List.take_of_length_le (by omega)]
  · rfl

theorem compact_room (hlive : Live io) (hshort : ((pending io).length : Int) < IO_BUF_SIZE) :
    io.compact.tail < IO_BUF_SIZE := by
  have hlength := hlive.pending_length
  unfold io_buf_s.compact
  split
  · simp only
    omega
  · omega

theorem compact_pack (io : io_buf_s) : io.compact.pack = io.pack := by
  unfold io_buf_s.compact
  split <;> rfl

/-- The `memmove` that ends a call which filled the buffer. -/
theorem handle_read_compact {σ : Type} (hlive : Live io) (s : σ) :
    (if IO_BUF_SIZE ≤ io.tail then do
        let moved ← readBytes io.buf io.head (toSize io.len)
        let buf ← writeBytes io.buf 0 moved
        ok ({ io with buf, head := 0, tail := io.len }, s)
      else ok (io, s)) = ok (io.compact, s) := by
  have hlength := hlive.pending_length
  obtain ⟨⟨hhead, hle, htail, hlen⟩, hbuf⟩ := hlive
  unfold io_buf_s.compact IO_BUF_SIZE at *
  split
  · have hsize : toSize io.len = io.len.toNat := by
      have := toSize_of_nonneg (x := io.len) (by omega) (by omega)
      omega
    rw [hsize, readBytes_of_le hhead (by omega), ok_bind]
    change (writeBytes io.buf 0 (pending io) >>= _) = _
    rw [writeBytes_of_le (le_refl _) (by simp only [Int.toNat_zero]; omega)]
    simp
  · rfl

end Receive

section Call

variable {σ : Type} (cb : io_callbacks σ) {io : io_buf_s} {bytes : List UInt8}

theorem handle_read_full (hfull : IO_BUF_SIZE ≤ io.tail) (fuel : Nat) (recv : recv_result) (s : σ) :
    handle_read cb fuel io recv s = ok (eloop_reset_io io, s) := by
  unfold handle_read
  rw [if_pos (by omega)]

theorem handle_read_data (hlive : Live io) (hroom : io.tail < IO_BUF_SIZE)
    (hfit : (bytes.length : Int) ≤ IO_BUF_SIZE - io.tail) (fuel : Nat) (s : σ) :
    handle_read cb fuel io (.data bytes) s =
      read_cb cb fuel (io.receive bytes) (io.receive bytes).head (io.receive bytes).len s >>=
        fun (io, s) =>
          if IO_BUF_SIZE ≤ io.tail then do
            let moved ← readBytes io.buf io.head (toSize io.len)
            let buf ← writeBytes io.buf 0 moved
            ok ({ io with buf, head := 0, tail := io.len }, s)
          else ok (io, s) := by
  obtain ⟨⟨hhead, hle, htail, hlen⟩, hbuf⟩ := hlive
  unfold handle_read
  unfold IO_BUF_SIZE at *
  rw [if_neg (by omega)]
  simp only
  rw [writeBytes_of_le (by omega) (by omega), wrap32_eq (by omega) (by omega),
    wrap32_eq (by omega) (by omega)]
  rfl

/-- The frames are no longer than what is pending. -/
theorem frames_received (hlive : Live io) (hfit : (bytes.length : Int) ≤ IO_BUF_SIZE - io.tail)
    {fs : List (List UInt8)} {rest : List UInt8}
    (hcut : Framed (frameSize io.pack) (pending io ++ bytes) fs rest) :
    fs.flatten.length ≤ (io.receive bytes).len := by
  have hlength := (hlive.receive hfit).pending_length
  rw [pending_receive hlive bytes, hcut.flatten] at hlength
  simp only [List.length_append] at hlength
  omega

/-- A call that completes frames hands them to `on_read` in order and keeps the rest. -/
theorem handle_read_framed (hlive : Live io) (hpack : io.pack.Valid) (hroom : io.tail < IO_BUF_SIZE)
    (hfit : (bytes.length : Int) ≤ IO_BUF_SIZE - io.tail) {fs : List (List UInt8)}
    {rest : List UInt8} (hcut : Framed (frameSize io.pack) (pending io ++ bytes) fs rest) (s : σ) :
    handle_read cb (fs.length + 1) io (.data bytes) s =
      (snapshots (io.receive bytes) fs).foldlM (fun s io => cb.on_read io s) s >>=
        fun s => ok (((io.receive bytes).advance fs.flatten.length).compact, s) := by
  have hlive' := hlive.receive hfit
  have hpending := pending_receive hlive bytes
  have hsize := frames_received hlive hfit hcut
  rw [handle_read_data cb hlive hroom hfit,
    read_cb_framed cb hpack hcut hlive' rfl hpending, bind_assoc]
  congr 1
  funext s'
  rw [ok_bind]
  exact handle_read_compact (hlive'.advance hsize) s'

end Call

/-- A call that hands on only frames inside the bytes received finds pending
bytes that can be cut into frames. -/
theorem framed_of_handle_read {io io' : io_buf_s} {bytes : List UInt8} {fuel : Nat}
    {log log' : List io_buf_s} (hlive : Live io) (hpack : io.pack.Valid)
    (hroom : io.tail < IO_BUF_SIZE) (hfit : (bytes.length : Int) ≤ IO_BUF_SIZE - io.tail)
    (h : handle_read recorder fuel io (.data bytes) log = ok (io', log'))
    (hsafe : ∀ snap ∈ log', FrameInside snap) :
    ∃ fs rest, Framed (frameSize io.pack) (pending io ++ bytes) fs rest := by
  rw [handle_read_data recorder hlive hroom hfit] at h
  obtain ⟨⟨io₂, log₂⟩, hloop, hend⟩ := bind_eq_ok_iff.mp h
  have hlog : log₂ = log' := by
    dsimp only at hend
    split at hend
    · obtain ⟨moved, _, hend⟩ := bind_eq_ok_iff.mp hend
      obtain ⟨buf, _, hend⟩ := bind_eq_ok_iff.mp hend
      cases hend
      rfl
    · cases hend
      rfl
  subst hlog
  rw [← pending_receive hlive bytes]
  exact framed_of_read_cb (hlive.receive hfit) hpack hloop hsafe

/-- More fuel does not change what the loop returns. -/
theorem read_cb_mono {σ : Type} {cb : io_callbacks σ} {fuel fuel' : Nat} {io : io_buf_s}
    {buf len : Int} {s : σ} {r : io_buf_s × σ} (hle : fuel ≤ fuel')
    (h : read_cb cb fuel io buf len s = ok r) : read_cb cb fuel' io buf len s = ok r := by
  induction fuel generalizing fuel' io buf len s with
  | zero => cases h
  | succ fuel ih =>
    obtain ⟨fuel', rfl⟩ := Nat.exists_eq_succ_of_ne_zero (by omega : fuel' ≠ 0)
    rw [read_cb] at h ⊢
    split
    · rename_i hhdr
      rw [if_pos hhdr] at h
      obtain ⟨nbody, hread, h⟩ := bind_eq_ok_iff.mp h
      rw [hread, ok_bind]
      dsimp only at h ⊢
      split
      · rename_i hstop
        rwa [if_pos hstop] at h
      · rename_i hstop
        rw [if_neg hstop] at h
        obtain ⟨s', hs', h⟩ := bind_eq_ok_iff.mp h
        rw [hs', ok_bind]
        exact ih (by omega) h
    · rename_i hhdr
      rwa [if_neg hhdr] at h

theorem handle_read_mono {σ : Type} {cb : io_callbacks σ} {fuel fuel' : Nat} {io : io_buf_s}
    {recv : recv_result} {s : σ} {r : io_buf_s × σ} (hle : fuel ≤ fuel')
    (h : handle_read cb fuel io recv s = ok r) : handle_read cb fuel' io recv s = ok r := by
  unfold handle_read at h ⊢
  dsimp only at h ⊢
  split
  · rename_i hfull
    rwa [if_pos hfull] at h
  · rename_i hfull
    rw [if_neg hfull] at h
    cases recv with
    | again => exact h
    | error => exact h
    | closed => exact h
    | data bytes =>
      obtain ⟨buf, hbuf, h⟩ := bind_eq_ok_iff.mp h
      obtain ⟨p, hloop, h⟩ := bind_eq_ok_iff.mp h
      dsimp only
      rw [hbuf, ok_bind, read_cb_mono hle hloop]
      exact h

/-- What a call returns does not depend on the fuel. -/
theorem handle_read_unique {σ : Type} {cb : io_callbacks σ} {fuel fuel' : Nat} {io : io_buf_s}
    {recv : recv_result} {s : σ} {r r' : io_buf_s × σ} (h : handle_read cb fuel io recv s = ok r)
    (h' : handle_read cb fuel' io recv s = ok r') : r = r' := by
  have hr := handle_read_mono (Nat.le_max_left fuel fuel') h
  have hr' := handle_read_mono (Nat.le_max_right fuel fuel') h'
  rw [hr] at hr'
  exact ok.inj hr'

end easymesh.eloop_event
