import Easymesh.Reactor.ReadCall
import Easymesh.Lib.Transition

open Lib Lib.Result Lib.Framing

namespace easymesh.eloop_event

/-- A connection, and what `on_read` has been called for on it. -/
abbrev ReadState := io_buf_s × List io_buf_s

/-- The bytes that a `recv` adds to the stream. -/
def received : recv_result → List UInt8
  | .data bytes => bytes
  | _ => []

theorem received_data {recv : recv_result} (h : received recv ≠ []) :
    ∃ bytes, recv = .data bytes := by
  cases recv with
  | data bytes => exact ⟨bytes, rfl⟩
  | again => exact absurd rfl h
  | error => exact absurd rfl h
  | closed => exact absurd rfl h

/-- `recv` is called on an allocated buffer and gives no more than its free space. -/
def Fits (io : io_buf_s) (recv : recv_result) : Prop :=
  (io.buf.length : Int) = IO_BUF_SIZE ∧
    ∀ bytes, recv = .data bytes → 0 < bytes.length ∧ (bytes.length : Int) ≤ IO_BUF_SIZE - io.tail

/-- A call of `handle_read` that returns. -/
def ReadStep (s : ReadState) (recv : recv_result) (s' : ReadState) : Prop :=
  Fits s.1 recv ∧ ∃ fuel, handle_read recorder fuel s.1 recv s.2 = ok s'

/-- The cursors are in order, and `on_read` has been called for nothing but
frames inside the bytes received. -/
def ReadOk (s : ReadState) : Prop := CursorsOk s.1 ∧ ∀ snap ∈ s.2, FrameInside snap

/-- A connection after `eloop_set_event` and `io_add_packer`. -/
def registered (buf : List UInt8) (pack : io_pack_s) : ReadState :=
  (io_add_packer (eloop_set_event io_zero buf) pack.nheader pack.len_offset, [])

theorem registered_eq (buf : List UInt8) (pack : io_pack_s) :
    registered buf pack =
      ({ io_zero with buf, pack, has_packer := true, wmem_max_size := MAX_WMEM_SIZE }, []) := rfl

/-- Every frame of the stream, as far as its header has arrived, has a size that
is positive and fits an `int`. -/
def SizesOk (pack : io_pack_s) (stream : List UInt8) : Prop :=
  ∃ fs rest, Framed (frameSize pack) stream fs rest

/-- Between calls, as long as the connection is not reset, the pending bytes are
what is left of the stream behind its complete frames. -/
def Reads (pack : io_pack_s) (stream : List UInt8) (s : ReadState) : Prop :=
  (s.1.buf.length : Int) = IO_BUF_SIZE →
    Live s.1 ∧ s.1.pack = pack ∧ (∀ snap ∈ s.2, FrameInside snap) ∧
      ∃ fs, Framed (frameSize pack) stream fs (pending s.1)

theorem zero_le_IO_BUF_SIZE : 0 ≤ IO_BUF_SIZE := by decide

theorem registered_reads {pack : io_pack_s} (hpack : pack.Valid) (buf : List UInt8) :
    Reads pack [] (registered buf pack) := by
  intro hbuf
  refine ⟨⟨⟨le_refl _, le_refl _, zero_le_IO_BUF_SIZE, rfl⟩, hbuf⟩, rfl, by simp [registered], [], ?_⟩
  have hnil : pending (registered buf pack).1 = [] := by
    rw [pending, registered_eq]
    exact List.take_zero
  rw [hnil]
  exact .rest fun n hn => by rw [(frameSize_announced hpack).nil] at hn; cases hn

theorem snapshots_inside {pack : io_pack_s} (hpack : pack.Valid) {bs rest : List UInt8}
    {fs : List (List UInt8)} (hcut : Framed (frameSize pack) bs fs rest) {io : io_buf_s}
    (hlive : Live io) (hio : io.pack = pack) (hbs : pending io = bs) :
    ∀ snap ∈ snapshots io fs, FrameInside snap := by
  induction hcut generalizing io with
  | rest hshort => simp [snapshots]
  | @frame f more rest fs hsize hpos hmore ih =>
    subst hio
    rw [← hbs] at hsize
    have hlen := hlive.pending_length
    have hle : f.length ≤ (pending io).length := by
      rw [hbs]
      simp
    obtain ⟨hhead, hht, htail, hlt⟩ := hlive.toCursorsOk
    have hhdr : io.pack.nheader ≤ io.len := by
      by_contra hshort
      rw [frameSize, if_pos (by omega)] at hsize
      cases hsize
    obtain ⟨nbody, hread, _, _, hframe⟩ := header_read hlive hpack hhdr
    rw [hframe] at hsize
    have hnext : pending (io.advance f.length) = more := by
      rw [pending_advance hlive (by omega), hbs, List.drop_left]
    intro snap hsnap
    rcases List.mem_cons.mp hsnap with rfl | hsnap
    · refine ⟨nbody, hread, ?_⟩
      rw [io_data]
      split at hsize
      · have := Option.some.inj hsize
        omega
      · have := Option.some.inj hsize
        omega
    · exact ih (hlive.advance (by omega)) rfl hnext snap hsnap

/-- A call on pending bytes that can be cut returns, in order. -/
theorem readStep_of_framed {io : io_buf_s} {log : List io_buf_s} {bytes : List UInt8}
    (hlive : Live io) (hpack : io.pack.Valid) (hlog : ∀ snap ∈ log, FrameInside snap)
    (hfits : Fits io (.data bytes)) {fs : List (List UInt8)} {rest : List UInt8}
    (hcut : Framed (frameSize io.pack) (pending io ++ bytes) fs rest) :
    ∃ io', ReadStep (io, log) (.data bytes) (io', log ++ snapshots (io.receive bytes) fs) ∧
      Live io' ∧ io'.pack = io.pack ∧ pending io' = rest ∧
      ((rest.length : Int) < IO_BUF_SIZE → io'.tail < IO_BUF_SIZE) ∧
      (∀ snap ∈ log ++ snapshots (io.receive bytes) fs, FrameInside snap) := by
  obtain ⟨hpos, hfit⟩ := hfits.2 bytes rfl
  have hlive' := hlive.receive hfit
  have hpending := pending_receive hlive bytes
  have hsize := frames_received hlive hfit hcut
  have hcall := handle_read_framed recorder hlive hpack (by omega) hfit hcut log
  rw [recorder_foldlM, ok_bind] at hcall
  have hrest : pending ((io.receive bytes).advance fs.flatten.length) = rest := by
    rw [pending_advance hlive' hsize, hpending, hcut.flatten, List.drop_left]
  refine ⟨_, ⟨hfits, _, hcall⟩, (hlive'.advance hsize).compact, compact_pack _, ?_, ?_, ?_⟩
  · rw [pending_compact (hlive'.advance hsize), hrest]
  · intro hshort
    exact compact_room (hlive'.advance hsize) (by rwa [hrest])
  · intro snap hsnap
    rcases List.mem_append.mp hsnap with hsnap | hsnap
    · exact hlog snap hsnap
    · exact snapshots_inside hpack hcut hlive' rfl hpending snap hsnap

theorem reset_readOk (io : io_buf_s) : CursorsOk (eloop_reset_io io) :=
  ⟨le_refl _, le_refl _, zero_le_IO_BUF_SIZE, rfl⟩

/-- A call that receives nothing leaves the connection as it is, unless the peer
has closed it or its buffer is full. -/
theorem readStep_idle {io : io_buf_s} (log : List io_buf_s) {recv : recv_result}
    (hfits : Fits io recv) (hnothing : received recv = []) (hroom : io.tail < IO_BUF_SIZE)
    (hopen : recv ≠ .closed) : ReadStep (io, log) recv (io, log) := by
  have hlen : ¬ IO_BUF_SIZE - io.tail ≤ 0 := by omega
  cases recv with
  | data bytes =>
    have hpos := (hfits.2 bytes rfl).1
    rw [received] at hnothing
    rw [hnothing] at hpos
    exact absurd hpos (Nat.lt_irrefl 0)
  | again => exact ⟨hfits, 0, by simp only [handle_read, if_neg hlen]⟩
  | error => exact ⟨hfits, 0, by simp only [handle_read, if_neg hlen]⟩
  | closed => exact absurd rfl hopen

theorem readStep_of_nothing {io : io_buf_s} (log : List io_buf_s) {recv : recv_result}
    (hfits : Fits io recv) (hnothing : received recv = []) :
    ∃ io', ReadStep (io, log) recv (io', log) ∧ (io' = io ∨ io' = eloop_reset_io io) := by
  rcases Int.lt_or_le io.tail IO_BUF_SIZE with hroom | hfull
  · by_cases hopen : recv = .closed
    · subst hopen
      refine ⟨_, ⟨hfits, 0, ?_⟩, .inr rfl⟩
      simp only [handle_read, if_neg (by omega : ¬ IO_BUF_SIZE - io.tail ≤ 0), recorder, ok_bind]
    · exact ⟨io, readStep_idle log hfits hnothing hroom hopen, .inl rfl⟩
  · exact ⟨_, ⟨hfits, 0, handle_read_full recorder hfull 0 recv log⟩, .inr rfl⟩

theorem readStep_unique {s s₁ s₂ : ReadState} {recv : recv_result} (h₁ : ReadStep s recv s₁)
    (h₂ : ReadStep s recv s₂) : s₁ = s₂ := by
  obtain ⟨_, _, h₁⟩ := h₁
  obtain ⟨_, _, h₂⟩ := h₂
  exact handle_read_unique h₁ h₂

/-- A call returns in order exactly when the stream it continues has good sizes. -/
theorem readStep_ok_iff {pack : io_pack_s} (hpack : pack.Valid) {stream : List UInt8}
    {s : ReadState} {recv : recv_result} (hreads : Reads pack stream s) (hfits : Fits s.1 recv) :
    (∃ s', ReadStep s recv s' ∧ ReadOk s') ↔ SizesOk pack (stream ++ received recv) := by
  obtain ⟨io, log⟩ := s
  obtain ⟨hlive, rfl, hlog, fs, hcut⟩ := hreads hfits.1
  have hann := frameSize_announced hpack
  by_cases hnothing : received recv = []
  · rw [hnothing, List.append_nil]
    refine ⟨fun _ => ⟨fs, _, hcut⟩, fun _ => ?_⟩
    obtain ⟨io', hstep, rfl | rfl⟩ := readStep_of_nothing log hfits hnothing
    · exact ⟨_, hstep, hlive.toCursorsOk, hlog⟩
    · exact ⟨_, hstep, reset_readOk io, hlog⟩
  · obtain ⟨bytes, rfl⟩ := received_data hnothing
    have hpos := (hfits.2 bytes rfl).1
    have hfit : (bytes.length : Int) ≤ IO_BUF_SIZE - io.tail := (hfits.2 bytes rfl).2
    constructor
    · rintro ⟨⟨io', log'⟩, ⟨_, fuel, hcall⟩, _, hsafe⟩
      have hroom : io.tail < IO_BUF_SIZE := by omega
      obtain ⟨gs, rest, hnext⟩ :=
        framed_of_handle_read hlive hpack hroom hfit hcall hsafe
      exact ⟨fs ++ gs, rest, hcut.append hann hnext⟩
    · rintro ⟨all, rest, hall⟩
      obtain ⟨fs', mid, gs, hfirst, hnext, _⟩ := hall.interrupt hann rfl
      obtain ⟨_, rfl⟩ := hcut.unique hfirst
      obtain ⟨io', hstep, hlive', _, _, _, hsafe⟩ := readStep_of_framed hlive hpack hlog hfits hnext
      exact ⟨_, hstep, hlive'.toCursorsOk, hsafe⟩

/-- What a call that returns in order keeps. -/
theorem readStep_reads {pack : io_pack_s} (hpack : pack.Valid) {stream : List UInt8}
    {s s' : ReadState} {recv : recv_result} (hreads : Reads pack stream s)
    (hstep : ReadStep s recv s') (hok : SizesOk pack (stream ++ received recv)) :
    ReadOk s' ∧ Reads pack (stream ++ received recv) s' := by
  obtain ⟨io, log⟩ := s
  have hfits := hstep.1
  obtain ⟨hlive, rfl, hlog, fs, hcut⟩ := hreads hfits.1
  have hann := frameSize_announced hpack
  by_cases hnothing : received recv = []
  · rw [hnothing, List.append_nil]
    obtain ⟨io', hstep', hio'⟩ := readStep_of_nothing log hfits hnothing
    cases readStep_unique hstep hstep'
    rcases hio' with rfl | rfl
    · exact ⟨⟨hlive.toCursorsOk, hlog⟩, fun _ => ⟨hlive, rfl, hlog, fs, hcut⟩⟩
    · exact ⟨⟨reset_readOk io, hlog⟩, nofun⟩
  · obtain ⟨bytes, rfl⟩ := received_data hnothing
    obtain ⟨all, rest, hall⟩ := hok
    obtain ⟨fs', mid, gs, hfirst, hnext, _⟩ := hall.interrupt hann rfl
    obtain ⟨rfl, rfl⟩ := hcut.unique hfirst
    obtain ⟨io', hstep', hlive', hpack', hpending', _, hsafe⟩ :=
      readStep_of_framed hlive hpack hlog hfits hnext
    cases readStep_unique hstep hstep'
    refine ⟨⟨hlive'.toCursorsOk, hsafe⟩, fun _ => ⟨hlive', hpack', hsafe, fs ++ gs, ?_⟩⟩
    rw [hpending']
    exact hcut.append hann hnext

theorem reads_safe_iff {pack : io_pack_s} (hpack : pack.Valid) {stream : List UInt8}
    {s : ReadState} {tr : List (recv_result × ReadState)} {recv : recv_result}
    (hreads : Reads pack stream s) (hrun : Run ReadStep s tr)
    (hfits : Fits (endState s tr).1 recv) :
    (AllSteps (fun _ _ s' => ReadOk s') s tr ∧
        ∃ s', ReadStep (endState s tr) recv s' ∧ ReadOk s') ↔
      SizesOk pack (stream ++ tr.flatMap (fun x => received x.1) ++ received recv) := by
  induction hrun generalizing stream with
  | nil s =>
    rw [List.flatMap_nil, List.append_nil]
    exact (and_iff_right trivial).trans (readStep_ok_iff hpack hreads hfits)
  | @cons s s' e tr hstep hrest ih =>
    have hstream : stream ++ ((e, s') :: tr).flatMap (fun x => received x.1) ++ received recv =
        (stream ++ received e) ++ tr.flatMap (fun x => received x.1) ++ received recv := by
      simp only [List.flatMap_cons, List.append_assoc]
    rw [hstream]
    constructor
    · rintro ⟨⟨hok, hoks⟩, hcall⟩
      have hsizes := (readStep_ok_iff hpack hreads hstep.1).mp ⟨s', hstep, hok⟩
      exact (ih (readStep_reads hpack hreads hstep hsizes).2 hfits).mp ⟨hoks, hcall⟩
    · intro hall
      have hsizes : SizesOk pack (stream ++ received e) := by
        obtain ⟨fs, rest, hcut⟩ := hall
        rw [List.append_assoc] at hcut
        obtain ⟨fs', mid, _, hfirst, _, _⟩ := hcut.interrupt (frameSize_announced hpack) rfl
        exact ⟨fs', mid, hfirst⟩
      obtain ⟨hok, hreads'⟩ := readStep_reads hpack hreads hstep hsizes
      obtain ⟨hoks, hcall⟩ := (ih hreads' hfits).mpr hall
      exact ⟨⟨hok, hoks⟩, hcall⟩

/-- Every call of `handle_read`, and the next one, returns in order exactly when
the sizes announced in the stream received so far are positive and fit an `int`. -/
theorem handle_read_safe_iff {pack : io_pack_s} (hpack : pack.Valid) (buf : List UInt8)
    {tr : List (recv_result × ReadState)} {recv : recv_result}
    (hrun : Run ReadStep (registered buf pack) tr)
    (hfits : Fits (endState (registered buf pack) tr).1 recv) :
    (AllSteps (fun _ _ s' => ReadOk s') (registered buf pack) tr ∧
        ∃ s', ReadStep (endState (registered buf pack) tr) recv s' ∧ ReadOk s') ↔
      SizesOk pack (tr.flatMap (fun x => received x.1) ++ received recv) :=
  reads_safe_iff hpack (registered_reads hpack buf) hrun hfits

/-- The packer of the message bus: a 16-byte header that starts with the body length. -/
def msg_pack : io_pack_s := { nheader := 16, len_offset := 0 }

theorem msg_pack_valid : msg_pack.Valid := by
  refine ⟨?_, ?_, ?_⟩ <;> decide

/-- A connection of the message bus on a buffer of zero bytes. -/
def msg_registered : ReadState := registered (List.replicate 8192 0) msg_pack

theorem msg_registered_fits {bytes : List UInt8} (hpos : 0 < bytes.length)
    (hle : bytes.length ≤ 8192) : Fits msg_registered.1 (.data bytes) := by
  refine ⟨?_, fun bytes' h => ?_⟩
  · rw [msg_registered, registered_eq]
    simp only [List.length_replicate]
    rfl
  · cases h
    rw [msg_registered, registered_eq]
    simp only [io_zero, IO_BUF_SIZE]
    omega

/-- A header, a body of three bytes and the first byte of the next header. -/
def short_frame : List UInt8 := [3, 0, 0, 0] ++ List.replicate 12 0 ++ [1, 2, 3] ++ [9]

theorem handle_read_safe_short :
    ∃ s', ReadStep msg_registered (.data short_frame) s' ∧ ReadOk s' := by
  have hcut : Framed (frameSize msg_pack) short_frame [short_frame.take 19] [9] :=
    @Framed.frame _ _ (short_frame.take 19) [9] _ _ (by decide) (by decide) (.rest (by decide))
  have hfits : Fits (endState msg_registered ([] : List (recv_result × ReadState))).1
      (.data short_frame) :=
    msg_registered_fits (by decide) (by decide)
  exact ((handle_read_safe_iff msg_pack_valid _ (.nil _) hfits).mpr ⟨_, _, hcut⟩).2

/-- A frame of size 0 is handed to `on_read` without end. -/
theorem read_cb_zero {io : io_buf_s} (hhdr : io.pack.nheader ≤ io.len)
    (hread : readI32 io.buf (io.head + io.pack.len_offset) = ok (-io.pack.nheader))
    (hhead : wrap32 io.head = io.head) (hlen : wrap32 io.len = io.len) (hlen0 : 0 ≤ io.len)
    (fuel : Nat) (log : List io_buf_s) : read_cb recorder fuel io io.head io.len log = div := by
  induction fuel generalizing log with
  | zero => rfl
  | succ fuel ih =>
    have hzero : wrap32 (-io.pack.nheader + io.pack.nheader) = 0 := by
      rw [Int.add_left_neg]
      rfl
    rw [read_cb, if_pos hhdr, hread, ok_bind]
    simp only [hzero, Int.add_zero, Int.sub_zero, hhead, hlen]
    rw [if_neg (by omega)]
    exact ih (log ++ [io])

/-- A header that announces a body of -16 bytes. -/
def zero_frame : List UInt8 := [0xF0, 0xFF, 0xFF, 0xFF] ++ List.replicate 12 0

theorem handle_read_zero_frame :
    Fits msg_registered.1 (.data zero_frame) ∧
      ∀ fuel, handle_read recorder fuel msg_registered.1 (.data zero_frame) [] = div := by
  have hfits : Fits msg_registered.1 (.data zero_frame) :=
    msg_registered_fits (by decide) (by decide)
  refine ⟨hfits, fun fuel => ?_⟩
  have hlive : Live msg_registered.1 := (registered_reads msg_pack_valid _ hfits.1).1
  rw [handle_read_data recorder hlive (by decide) (by decide),
    read_cb_zero (by decide) (by decide +kernel) (by decide) (by decide) (by decide)]
  rfl

end easymesh.eloop_event
