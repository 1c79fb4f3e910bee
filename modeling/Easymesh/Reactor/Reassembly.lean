import Easymesh.Reactor.ReadSafety

open Lib Lib.Result Lib.Framing

namespace easymesh.eloop_event

/-- A frame a peer sends: header and body, no longer than the receive buffer. -/
def IsFrame (pack : io_pack_s) (f : List UInt8) : Prop :=
  ∃ nbody, readI32 f pack.len_offset = ok nbody ∧ 0 ≤ nbody ∧
    (f.length : Int) = pack.nheader + nbody ∧ (f.length : Int) ≤ IO_BUF_SIZE

/-- When `on_read` is called, `io_data` points at exactly the bytes of the frame. -/
def PointsAt (snap : io_buf_s) (f : List UInt8) : Prop :=
  readBytes snap.buf (io_data snap) f.length = ok f

theorem IsFrame.valid {pack : io_pack_s} {f : List UInt8} (hf : IsFrame pack f)
    (hle : pack.len_offset + 4 ≤ pack.nheader) : pack.Valid := by
  obtain ⟨nbody, hread, hnonneg, hlength, hmax⟩ := hf
  refine ⟨?_, hle, ?_⟩
  · obtain ⟨value, hvalue, _⟩ := map_eq_ok_iff.mp hread
    obtain ⟨bs, hbs, _⟩ := map_eq_ok_iff.mp hvalue
    exact (readBytes_eq_ok (by decide) hbs).1
  · unfold IO_BUF_SIZE at hmax
    unfold INT_MAX
    omega

theorem IsFrame.frameSize {pack : io_pack_s} {f : List UInt8} (hf : IsFrame pack f)
    (hpack : pack.Valid) : frameSize pack f = some f.length ∧ 0 < f.length := by
  obtain ⟨nbody, hread, hnonneg, hlength, hmax⟩ := hf
  obtain ⟨hoff, hle, _⟩ := hpack
  unfold IO_BUF_SIZE at hmax
  have hgood : 1 ≤ nbody + pack.nheader ∧ nbody + pack.nheader ≤ INT_MAX := by
    unfold INT_MAX
    omega
  have hnat : (nbody + pack.nheader).toNat = f.length := by omega
  refine ⟨?_, by omega⟩
  rw [eloop_event.frameSize, if_neg (by omega), hread]
  dsimp only
  rw [if_pos hgood, hnat]

theorem snapshots_point {pack : io_pack_s} {bs rest : List UInt8} {fs : List (List UInt8)}
    (hcut : Framed (frameSize pack) bs fs rest) {io : io_buf_s} (hlive : Live io)
    (hbs : pending io = bs) : List.Forall₂ PointsAt (snapshots io fs) fs := by
  induction hcut generalizing io with
  | rest hshort => exact .nil
  | @frame f more rest fs hsize hpos hmore ih =>
    have hlen := hlive.pending_length
    obtain ⟨⟨hhead, hht, htail, hlt⟩, hbuf⟩ := hlive
    have hle : f.length ≤ (pending io).length := by
      rw [hbs]
      simp
    have hlive : Live io := ⟨⟨hhead, hht, htail, hlt⟩, hbuf⟩
    refine .cons ?_ (ih (hlive.advance (by omega)) ?_)
    · unfold PointsAt io_data
      rw [readBytes_of_le hhead (by omega)]
      have htake : (pending io).take f.length = (io.buf.drop io.head.toNat).take f.length := by
        rw [pending, List.take_take, Nat.min_eq_left (by omega)]
      rw [← htake, hbs, List.take_left]
    · rw [pending_advance hlive (by omega), hbs, List.drop_left]

/-- After the first `n` bytes of a sequence of frames: `on_read` has been called
for the frames that have arrived, and there is room for the next `recv`. -/
structure Reassembled (pack : io_pack_s) (fs : List (List UInt8)) (n : Nat) (s : ReadState) :
    Prop where
  live : Live s.1
  room : s.1.tail < IO_BUF_SIZE
  delivered : List.Forall₂ PointsAt s.2 (arrived fs n)
  reads : Reads pack (fs.flatten.take n) s

theorem readStep_reassembled {pack : io_pack_s} (hpack : pack.Valid) {fs : List (List UInt8)}
    (hframes : ∀ f ∈ fs, IsFrame pack f) {n : Nat} {s : ReadState} (hs : Reassembled pack fs n s)
    {recv : recv_result} (hfits : Fits s.1 recv) (hopen : recv ≠ .closed)
    (hstream : fs.flatten.take n ++ received recv <+: fs.flatten)
    (hn : n ≤ fs.flatten.length) :
    ∃ s', ReadStep s recv s' ∧ Reassembled pack fs (n + (received recv).length) s' := by
  obtain ⟨io, log⟩ := s
  obtain ⟨hlive, hroom, hdelivered, hreads⟩ := hs
  have hann := frameSize_announced hpack
  by_cases hnothing : received recv = []
  · rw [hnothing]
    exact ⟨_, readStep_idle log hfits hnothing hroom hopen, hlive, hroom, hdelivered, hreads⟩
  · obtain ⟨bytes, rfl⟩ := received_data hnothing
    simp only [received] at hstream ⊢
    obtain ⟨_, rfl, hlog, fs₁, hcut⟩ := hreads hfits.1
    have hstream' : fs.flatten.take n ++ bytes = fs.flatten.take (n + bytes.length) := by
      have hpre := List.prefix_iff_eq_take.mp hstream
      rwa [List.length_append, List.length_take_of_le hn] at hpre
    have hsizes := fun f hf => (hframes f hf).frameSize hpack
    obtain ⟨mid, hold, _⟩ := framed_take hann hsizes n
    obtain ⟨rfl, rfl⟩ := hcut.unique hold
    obtain ⟨rest, hall, hrest⟩ := framed_take hann hsizes (n + bytes.length)
    obtain ⟨fs₂, mid, gs, hfirst, hnext, harrived⟩ := hall.interrupt hann hstream'.symm
    obtain ⟨rfl, rfl⟩ := hcut.unique hfirst
    obtain ⟨io', hstep, hlive', hpack', hpending', hroom', hsafe⟩ :=
      readStep_of_framed hlive hpack hlog hfits hnext
    refine ⟨_, hstep, hlive', hroom' ?_, ?_,
      fun _ => ⟨hlive', hpack', hsafe, arrived fs (n + bytes.length), ?_⟩⟩
    · rcases hrest with rfl | ⟨f, hf, hlt⟩
      · exact (by decide : (0 : Int) < IO_BUF_SIZE)
      · obtain ⟨_, _, _, _, hmax⟩ := hframes f hf
        omega
    · rw [harrived]
      refine List.rel_append hdelivered (snapshots_point hnext (hlive.receive ?_) ?_)
      · exact (hfits.2 bytes rfl).2
      · exact pending_receive hlive bytes
    · rw [hpending']
      exact hall

theorem run_reassembled {pack : io_pack_s} (hpack : pack.Valid) {fs : List (List UInt8)}
    (hframes : ∀ f ∈ fs, IsFrame pack f) {n : Nat} {s : ReadState}
    {tr : List (recv_result × ReadState)} (hs : Reassembled pack fs n s) (hrun : Run ReadStep s tr)
    (hopen : ∀ x ∈ tr, x.1 ≠ .closed)
    (hstream : fs.flatten.take n ++ tr.flatMap (fun x => received x.1) <+: fs.flatten)
    (hn : n ≤ fs.flatten.length) :
    Reassembled pack fs (n + (tr.flatMap (fun x => received x.1)).length) (endState s tr) := by
  induction hrun generalizing n with
  | nil s => exact hs
  | @cons s s' e tr hstep hrest ih =>
    rw [List.flatMap_cons, ← List.append_assoc] at hstream
    have hhead := (List.prefix_append _ _).trans hstream
    have heq := List.prefix_iff_eq_take.mp hhead
    rw [List.length_append, List.length_take_of_le hn] at heq
    obtain ⟨s'', hstep', hs'⟩ :=
      readStep_reassembled hpack hframes hs hstep.1 (hopen (e, s') (by simp)) hhead hn
    cases readStep_unique hstep hstep'
    have hnext := ih hs' (fun x hx => hopen x (List.mem_cons_of_mem _ hx)) (by rwa [← heq]) (by
      have := hhead.length_le
      rwa [List.length_append, List.length_take_of_le hn] at this)
    rw [List.flatMap_cons, List.length_append, ← Nat.add_assoc]
    exact hnext

theorem run_idle {s : ReadState} {tr : List (recv_result × ReadState)} (hrun : Run ReadStep s tr)
    (hroom : s.1.tail < IO_BUF_SIZE) (hopen : ∀ x ∈ tr, x.1 ≠ .closed)
    (hnothing : tr.flatMap (fun x => received x.1) = []) : endState s tr = s := by
  induction hrun with
  | nil s => rfl
  | @cons s s' e tr hstep hrest ih =>
    rw [List.flatMap_cons] at hnothing
    obtain ⟨hfirst, hlater⟩ := List.append_eq_nil_iff.mp hnothing
    have hidle := readStep_idle s.2 hstep.1 hfirst hroom (hopen (e, s') (by simp))
    cases readStep_unique hstep hidle
    exact ih hroom (fun x hx => hopen x (List.mem_cons_of_mem _ hx)) hlater

theorem registered_live {buf : List UInt8} (hbuf : (buf.length : Int) = IO_BUF_SIZE)
    (pack : io_pack_s) : Live (registered buf pack).1 :=
  ⟨⟨le_refl _, le_refl _, zero_le_IO_BUF_SIZE, rfl⟩, hbuf⟩

/-- Frames that fit the buffer are handed to `on_read` once each, in order and as
soon as their last byte has arrived, however the stream is split into chunks. -/
theorem handle_read_reassembles {pack : io_pack_s} (hle : pack.len_offset + 4 ≤ pack.nheader)
    {buf : List UInt8} (hbuf : (buf.length : Int) = IO_BUF_SIZE) {fs : List (List UInt8)}
    (hframes : ∀ f ∈ fs, IsFrame pack f) {tr : List (recv_result × ReadState)}
    {recv : recv_result} (hrun : Run ReadStep (registered buf pack) tr)
    (hfits : Fits (endState (registered buf pack) tr).1 recv)
    (hopen : (∀ x ∈ tr, x.1 ≠ .closed) ∧ recv ≠ .closed)
    (hstream : tr.flatMap (fun x => received x.1) ++ received recv <+: fs.flatten) :
    ∃ s', ReadStep (endState (registered buf pack) tr) recv s' ∧ Live s'.1 ∧
      s'.1.tail < IO_BUF_SIZE ∧
      List.Forall₂ PointsAt s'.2
        (arrived fs (tr.flatMap (fun x => received x.1) ++ received recv).length) := by
  have hlive := registered_live hbuf pack
  have hroom : (registered buf pack).1.tail < IO_BUF_SIZE := (by decide : (0 : Int) < IO_BUF_SIZE)
  cases fs with
  | nil =>
    obtain ⟨hbefore, hnow⟩ := List.append_eq_nil_iff.mp (List.prefix_nil.mp hstream)
    have hsame := run_idle hrun hroom hopen.1 hbefore
    rw [hsame] at hfits ⊢
    exact ⟨_, readStep_idle [] hfits hnow hroom hopen.2, hlive, hroom, .nil⟩
  | cons f fs =>
    have hpack := (hframes f (by simp)).valid hle
    have hstart : Reassembled pack (f :: fs) 0 (registered buf pack) := by
      have hpos := ((hframes f (by simp)).frameSize hpack).2
      refine ⟨hlive, hroom, ?_, ?_⟩
      · rw [arrived, if_neg (by omega)]
        exact .nil
      · rw [List.take_zero]
        exact registered_reads hpack buf
    have hbefore := (List.prefix_append _ _).trans hstream
    have hend := run_reassembled hpack hframes hstart hrun hopen.1 (by simpa using hbefore)
      (Nat.zero_le _)
    rw [Nat.zero_add] at hend
    have htake := List.prefix_iff_eq_take.mp hbefore
    obtain ⟨s', hstep, hs'⟩ := readStep_reassembled hpack hframes hend hfits hopen.2
      (by rwa [← htake]) hbefore.length_le
    rw [List.length_append]
    exact ⟨s', hstep, hs'.live, hs'.room, hs'.delivered⟩

/-- Two frames, of which the first recv brings one and the header of the other. -/
theorem handle_read_reassembles_two :
    ∃ s', ReadStep msg_registered (.data (short_frame.take 19 ++ short_frame.take 16)) s' ∧
      Live s'.1 ∧ s'.1.tail < IO_BUF_SIZE ∧ List.Forall₂ PointsAt s'.2 [short_frame.take 19] := by
  have hframe : IsFrame msg_pack (short_frame.take 19) :=
    ⟨3, by decide, by decide, by decide, by decide⟩
  have hframes : ∀ f ∈ [short_frame.take 19, short_frame.take 19], IsFrame msg_pack f := by
    intro f hf
    rcases List.mem_pair.mp hf with rfl | rfl <;> exact hframe
  have hle : msg_pack.len_offset + 4 ≤ msg_pack.nheader := by decide
  have hbuf : ((List.replicate 8192 (0 : UInt8)).length : Int) = IO_BUF_SIZE := by
    rw [List.length_replicate]
    rfl
  have hrun : Run ReadStep (registered (List.replicate 8192 0) msg_pack) [] := .nil _
  have hfits : Fits (endState (registered (List.replicate 8192 0) msg_pack)
      ([] : List (recv_result × ReadState))).1
      (.data (short_frame.take 19 ++ short_frame.take 16)) := by
    rw [endState]
    exact msg_registered_fits (by decide) (by decide)
  have harrived : arrived [short_frame.take 19, short_frame.take 19]
      (short_frame.take 19 ++ short_frame.take 16).length = [short_frame.take 19] := by decide
  have hpre : short_frame.take 19 ++ short_frame.take 16 <+:
      [short_frame.take 19, short_frame.take 19].flatten := ⟨[1, 2, 3], by decide⟩
  rw [← harrived]
  exact handle_read_reassembles hle hbuf hframes hrun hfits ⟨by simp, by simp⟩ hpre

end easymesh.eloop_event
