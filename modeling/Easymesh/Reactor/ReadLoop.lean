import Easymesh.Reactor.ReadPath
import Easymesh.Lib.Framing

open Lib Lib.Result Lib.Framing

namespace easymesh.eloop_event

/-- What `io_add_packer` is called with: the length field lies in the header. -/
structure io_pack_s.Valid (pack : io_pack_s) : Prop where
  len_offset_nonneg : 0 ≤ pack.len_offset
  len_offset_le : pack.len_offset + 4 ≤ pack.nheader
  nheader_le : pack.nheader ≤ INT_MAX

/-- The size of the frame at the head of `bs`, header and body, once its header
is there; 0 for a size that is not positive or exceeds an `int`. -/
def frameSize (pack : io_pack_s) (bs : List UInt8) : Option Nat :=
  if bs.length < pack.nheader then none
  else
    match readI32 bs pack.len_offset with
    | .ok nbody =>
      let size := nbody + pack.nheader
      if 1 ≤ size ∧ size ≤ INT_MAX then some size.toNat else some 0
    | _ => none

/-- The cursors delimit the bytes not handled yet. -/
structure CursorsOk (io : io_buf_s) : Prop where
  head_nonneg : 0 ≤ io.head
  head_le : io.head ≤ io.tail
  tail_le : io.tail ≤ IO_BUF_SIZE
  len_eq : io.len = io.tail - io.head

/-- The bytes received and not handled yet. -/
def pending (io : io_buf_s) : List UInt8 := (io.buf.drop io.head.toNat).take io.len.toNat

/-- A connection whose buffer is allocated and whose cursors are in order. -/
structure Live (io : io_buf_s) : Prop extends CursorsOk io where
  allocated : (io.buf.length : Int) = IO_BUF_SIZE

theorem Live.pending_length {io : io_buf_s} (hlive : Live io) :
    ((pending io).length : Int) = io.len := by
  obtain ⟨⟨hhead, hle, htail, hlen⟩, hbuf⟩ := hlive
  unfold pending
  simp only [List.length_take, List.length_drop]
  omega

theorem frameSize_announced {pack : io_pack_s} (hpack : pack.Valid) :
    Announced (frameSize pack) := by
  obtain ⟨hoff, hle, _⟩ := hpack
  refine ⟨?_, fun bs more n hsize => ?_⟩
  · unfold frameSize
    rw [if_pos (by simp only [List.length_nil]; omega)]
  · unfold frameSize at hsize ⊢
    by_cases hshort : (bs.length : Int) < pack.nheader
    · rw [if_pos hshort] at hsize
      cases hsize
    · rw [if_neg hshort] at hsize
      rw [if_neg (by rw [List.length_append]; omega)]
      obtain ⟨nbody, hnbody⟩ := readI32_of_le bs hoff (by omega)
      rw [readI32_append more hnbody]
      rwa [hnbody] at hsize

/-- What the header at the head of the pending bytes says. -/
theorem header_read {io : io_buf_s} (hlive : Live io) (hpack : io.pack.Valid)
    (hhdr : io.pack.nheader ≤ io.len) :
    ∃ nbody, readI32 io.buf (io.head + io.pack.len_offset) = ok nbody ∧
      nbody ≤ 2147483647 ∧ -2147483648 ≤ nbody ∧
      frameSize io.pack (pending io) =
        if 1 ≤ nbody + io.pack.nheader ∧ nbody + io.pack.nheader ≤ INT_MAX then
          some (nbody + io.pack.nheader).toNat
        else some 0 := by
  have hlength := hlive.pending_length
  obtain ⟨hoff, hle, _⟩ := hpack
  obtain ⟨nbody, hnbody⟩ := readI32_of_le (pending io) hoff (by omega)
  obtain ⟨hlo, hhi⟩ := readI32_bounds hnbody
  refine ⟨nbody, ?_, hhi, hlo, ?_⟩
  · have hmore := readI32_append ((io.buf.drop io.head.toNat).drop io.len.toNat) hnbody
    rw [pending, List.take_append_drop, readI32_drop _ _ hoff] at hmore
    rwa [Int.toNat_of_nonneg hlive.head_nonneg] at hmore
  · unfold frameSize
    rw [if_neg (by omega), hnbody]

/-- The cursors after a frame of `n` bytes has been handled. -/
def io_buf_s.advance (io : io_buf_s) (n : Nat) : io_buf_s :=
  { io with head := io.head + n, len := io.len - n }

theorem advance_advance (io : io_buf_s) (m n : Nat) :
    (io.advance m).advance n = io.advance (m + n) := by
  simp only [io_buf_s.advance, Nat.cast_add]
  congr 1 <;> omega

theorem Live.advance {io : io_buf_s} (hlive : Live io) {n : Nat} (hn : n ≤ io.len) :
    Live (io.advance n) := by
  obtain ⟨⟨hhead, hle, htail, hlen⟩, hbuf⟩ := hlive
  refine ⟨⟨?_, ?_, htail, ?_⟩, hbuf⟩ <;> simp only [io_buf_s.advance] <;> omega

theorem pending_advance {io : io_buf_s} (hlive : Live io) {n : Nat} (hn : n ≤ io.len) :
    pending (io.advance n) = (pending io).drop n := by
  have hhead := hlive.head_nonneg
  unfold pending io_buf_s.advance
  simp only
  rw [List.drop_take, List.drop_drop]
  congr 1
  · omega
  · congr 1
    omega

variable {σ : Type} (cb : io_callbacks σ)

/-- A frame of `n` bytes that is complete is handed to `on_read` and passed. -/
theorem read_cb_frame {io : io_buf_s} (hlive : Live io) (hpack : io.pack.Valid) {n : Nat}
    (hsize : frameSize io.pack (pending io) = some n) (hpos : 0 < n)
    (hn : n ≤ (pending io).length) (fuel : Nat) (s : σ) :
    read_cb cb (fuel + 1) io io.head io.len s =
      cb.on_read io s >>= read_cb cb fuel (io.advance n) (io.advance n).head (io.advance n).len := by
  have hlength := hlive.pending_length
  obtain ⟨hhead, hle, htail, hlen⟩ := hlive.toCursorsOk
  have hhdr : io.pack.nheader ≤ io.len := by
    by_contra hshort
    rw [frameSize, if_pos (by omega)] at hsize
    cases hsize
  obtain ⟨nbody, hread, hhi, hlo, hframe⟩ := header_read hlive hpack hhdr
  rw [hframe] at hsize
  by_cases hgood : 1 ≤ nbody + io.pack.nheader ∧ nbody + io.pack.nheader ≤ INT_MAX
  · rw [if_pos hgood] at hsize
    have hsum : nbody + io.pack.nheader = n := by
      have := Option.some.inj hsize
      omega
    unfold INT_MAX at hgood
    unfold IO_BUF_SIZE at htail
    have hwrap : wrap32 (n : Int) = n := wrap32_eq (by omega) (by omega)
    have hwhead : wrap32 (io.head + n) = io.head + n := wrap32_eq (by omega) (by omega)
    have hwlen : wrap32 (io.len - n) = io.len - n := wrap32_eq (by omega) (by omega)
    rw [read_cb, if_pos hhdr, hread]
    simp only [ok_bind, hsum, hwrap, hwhead, hwlen]
    rw [if_neg (by omega)]
    rfl
  · rw [if_neg hgood] at hsize
    cases hsize
    omega

/-- An incomplete frame ends the loop. -/
theorem read_cb_stop {io : io_buf_s} (hlive : Live io) (hpack : io.pack.Valid)
    (hshort : ∀ n, frameSize io.pack (pending io) = some n → (pending io).length < n)
    (fuel : Nat) (s : σ) : read_cb cb (fuel + 1) io io.head io.len s = ok (io, s) := by
  have hlength := hlive.pending_length
  rw [read_cb]
  by_cases hhdr : io.pack.nheader ≤ io.len
  · obtain ⟨nbody, hread, hhi, hlo, hframe⟩ := header_read hlive hpack hhdr
    by_cases hgood : 1 ≤ nbody + io.pack.nheader ∧ nbody + io.pack.nheader ≤ INT_MAX
    · rw [if_pos hgood] at hframe
      have hlong := hshort _ hframe
      unfold INT_MAX at hgood
      have hwrap : wrap32 (nbody + io.pack.nheader) = nbody + io.pack.nheader :=
        wrap32_eq (by omega) (by omega)
      rw [if_pos hhdr, hread]
      simp only [ok_bind, hwrap]
      rw [if_pos (by omega)]
    · rw [if_neg hgood] at hframe
      exact absurd (hshort _ hframe) (Nat.not_lt_zero _)
  · rw [if_neg hhdr]

/-- The connection as `on_read` finds it for each of a sequence of frames. -/
def snapshots : io_buf_s → List (List UInt8) → List io_buf_s
  | _, [] => []
  | io, f :: fs => io :: snapshots (io.advance f.length) fs

/-- When the pending bytes can be cut into frames, the loop hands each of them to
`on_read` in order and ends. -/
theorem read_cb_framed {pack : io_pack_s} (hpack : pack.Valid) {bs rest : List UInt8}
    {fs : List (List UInt8)} (hcut : Framed (frameSize pack) bs fs rest) {io : io_buf_s}
    (hlive : Live io) (hio : io.pack = pack) (hbs : pending io = bs) (s : σ) :
    read_cb cb (fs.length + 1) io io.head io.len s =
      (snapshots io fs).foldlM (fun s io => cb.on_read io s) s >>=
        fun s => ok (io.advance fs.flatten.length, s) := by
  induction hcut generalizing io s with
  | @rest bs hshort =>
    subst hio hbs
    rw [List.length_nil, read_cb_stop cb hlive hpack hshort]
    simp [snapshots, io_buf_s.advance]
  | @frame f more rest fs hsize hpos hmore ih =>
    subst hio
    rw [← hbs] at hsize
    have hlen := hlive.pending_length
    have hle : f.length ≤ (pending io).length := by
      rw [hbs]
      simp
    rw [List.length_cons, read_cb_frame cb hlive hpack hsize hpos hle]
    have hnext : pending (io.advance f.length) = more := by
      rw [pending_advance hlive (by omega), hbs, List.drop_left]
    simp only [snapshots, List.foldlM_cons, bind_assoc]
    congr 1
    funext s'
    rw [ih (hlive.advance (by omega)) rfl hnext, advance_advance, List.flatten_cons,
      List.length_append]

/-- The callbacks that only note down how they find the connection. -/
def recorder : io_callbacks (List io_buf_s) where
  on_read io log := ok (log ++ [io])
  on_close _ log := ok log

theorem recorder_foldlM (snaps log : List io_buf_s) :
    snaps.foldlM (fun log io => recorder.on_read io log) log = ok (log ++ snaps) := by
  induction snaps generalizing log with
  | nil => simp
  | cons io snaps ih =>
    rw [List.foldlM_cons]
    simp only [recorder, ok_bind] at ih ⊢
    rw [ih, List.append_assoc]
    rfl

/-- The frame that `on_read` is called for lies in the bytes received. -/
def FrameInside (io : io_buf_s) : Prop :=
  ∃ nbody, readI32 io.buf (io_data io + io.pack.len_offset) = ok nbody ∧
    0 ≤ nbody + io.pack.nheader ∧ io_data io + (nbody + io.pack.nheader) ≤ io.tail

theorem read_cb_log {fuel : Nat} {io io' : io_buf_s} {buf len : Int} {log log' : List io_buf_s}
    (h : read_cb recorder fuel io buf len log = ok (io', log')) : log <+: log' := by
  induction fuel generalizing io buf len log with
  | zero => cases h
  | succ fuel ih =>
    rw [read_cb] at h
    by_cases hhdr : io.pack.nheader ≤ len
    · rw [if_pos hhdr] at h
      obtain ⟨nbody, _, h⟩ := bind_eq_ok_iff.mp h
      dsimp only at h
      split at h
      · cases h
        exact List.prefix_refl _
      · exact (List.prefix_append log [io]).trans (ih h)
    · rw [if_neg hhdr] at h
      cases h
      exact List.prefix_refl _

/-- When the loop ends having handed on only frames inside the bytes received,
the pending bytes can be cut into frames. A frame of size 0 would be handed on
again and again. -/
theorem framed_of_read_cb {fuel : Nat} {io io' : io_buf_s} {log log' : List io_buf_s}
    (hlive : Live io) (hpack : io.pack.Valid)
    (h : read_cb recorder fuel io io.head io.len log = ok (io', log'))
    (hsafe : ∀ snap ∈ log', FrameInside snap) :
    ∃ fs rest, Framed (frameSize io.pack) (pending io) fs rest := by
  induction fuel generalizing io log with
  | zero => cases h
  | succ fuel ih =>
    have hlength := hlive.pending_length
    obtain ⟨hhead, hle, htail, hlen⟩ := hlive.toCursorsOk
    by_cases hhdr : io.pack.nheader ≤ io.len
    · obtain ⟨nbody, hread, hhi, hlo, hframe⟩ := header_read hlive hpack hhdr
      have hn := hpack.nheader_le
      unfold INT_MAX at hn hframe
      unfold IO_BUF_SIZE at htail
      rw [read_cb, if_pos hhdr, hread] at h
      simp only [ok_bind] at h
      by_cases hstop : io.len < wrap32 (nbody + io.pack.nheader)
      · refine ⟨[], _, .rest fun n hsize => ?_⟩
        rw [hframe] at hsize
        have hsmall : nbody + io.pack.nheader ≤ 2147483647 := by
          by_contra hbig
          have := wrap32_neg_of_gt (x := nbody + io.pack.nheader) (by omega) (by omega)
          omega
        have hlow : -2147483648 ≤ nbody + io.pack.nheader := by
          have := hpack.len_offset_le
          have := hpack.len_offset_nonneg
          omega
        rw [wrap32_eq hlow hsmall] at hstop
        rw [if_pos ⟨by omega, by omega⟩] at hsize
        have := Option.some.inj hsize
        omega
      · rw [if_neg hstop] at h
        have hseen : io ∈ log' :=
          (read_cb_log h).subset (List.mem_append_right _ (List.mem_singleton_self _))
        obtain ⟨nbody', hread', hnonneg, hinside⟩ := hsafe io hseen
        rw [io_data, hread] at hread'
        cases hread'
        rw [io_data] at hinside
        obtain ⟨n, hsum⟩ := Int.eq_ofNat_of_zero_le hnonneg
        have hwrap : wrap32 (n : Int) = n := wrap32_eq (by omega) (by omega)
        have hwhead : wrap32 (io.head + n) = io.head + n := wrap32_eq (by omega) (by omega)
        have hwlen : wrap32 (io.len - n) = io.len - n := wrap32_eq (by omega) (by omega)
        simp only [hsum, hwrap, hwhead, hwlen] at h
        have hnlen : (n : Int) ≤ io.len := by omega
        obtain ⟨fs, rest, hcut⟩ := @ih (io.advance n) _ (hlive.advance hnlen) hpack h
        rw [pending_advance hlive hnlen] at hcut
        rcases Nat.eq_zero_or_pos n with rfl | hpos
        · exact ⟨fs, rest, hcut⟩
        · rw [if_pos ⟨by omega, by omega⟩] at hframe
          have htake : ((pending io).take n).length = n := List.length_take_of_le (by omega)
          refine ⟨(pending io).take n :: fs, rest, ?_⟩
          have hsplit := List.take_append_drop n (pending io)
          have hnat : (nbody + io.pack.nheader).toNat = n := by omega
          rw [hnat] at hframe
          have hwhole : Framed (frameSize io.pack) ((pending io).take n ++ (pending io).drop n)
              ((pending io).take n :: fs) rest :=
            .frame (by rw [hsplit, hframe, htake]) (by rwa [htake]) hcut
          rwa [hsplit] at hwhole
    · refine ⟨[], _, .rest fun n hsize => ?_⟩
      rw [frameSize, if_pos (by omega)] at hsize
      cases hsize

end easymesh.eloop_event
