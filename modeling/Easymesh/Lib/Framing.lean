import Mathlib.Tactic

namespace Lib.Framing

variable {α : Type} {size : List α → Option Nat}

/-- A stream cut into the frames at its head and what is left. `size` tells the
length of the frame a stream starts with, once enough of the stream is there; a
length of 0 is one no frame has, and a stream that starts so has no cut. -/
inductive Framed (size : List α → Option Nat) : List α → List (List α) → List α → Prop
  | rest {bs : List α} (hshort : ∀ n, size bs = some n → bs.length < n) : Framed size bs [] bs
  | frame {f more rest : List α} {fs : List (List α)} (hsize : size (f ++ more) = some f.length)
      (hpos : 0 < f.length) (hmore : Framed size more fs rest) :
      Framed size (f ++ more) (f :: fs) rest

/-- A length that is known stays the same as more of the stream arrives, and the
empty stream tells none. -/
structure Announced (size : List α → Option Nat) : Prop where
  nil : size [] = none
  stable : ∀ bs more n, size bs = some n → size (bs ++ more) = some n

theorem Framed.flatten {bs rest : List α} {fs : List (List α)} (h : Framed size bs fs rest) :
    bs = fs.flatten ++ rest := by
  induction h with
  | rest hshort => rfl
  | frame hsize hpos hmore ih => rw [List.flatten_cons, List.append_assoc, ← ih]

/-- The cut of a stream at its first frame. -/
theorem Framed.cons_inv {bs rest : List α} {fs : List (List α)} {n : Nat}
    (h : Framed size bs fs rest) (hsize : size bs = some n) (hle : n ≤ bs.length) :
    0 < n ∧ ∃ gs, fs = bs.take n :: gs ∧ Framed size (bs.drop n) gs rest := by
  cases h with
  | rest hshort => exact absurd hle (Nat.not_le_of_lt (hshort n hsize))
  | @frame f more rest gs hframe hpos hmore =>
    rw [hframe] at hsize
    cases hsize
    exact ⟨hpos, gs, by rw [List.take_left], by rwa [List.drop_left]⟩

theorem Framed.nil_inv {bs rest : List α} {fs : List (List α)}
    (h : Framed size bs fs rest) (hshort : ∀ n, size bs = some n → bs.length < n) :
    fs = [] ∧ rest = bs := by
  cases h with
  | rest _ => exact ⟨rfl, rfl⟩
  | frame hframe hpos hmore =>
    have := hshort _ hframe
    simp at this

/-- A stream has one cut. -/
theorem Framed.unique {bs rest rest' : List α} {fs fs' : List (List α)}
    (h : Framed size bs fs rest) (h' : Framed size bs fs' rest') : fs = fs' ∧ rest = rest' := by
  induction h generalizing fs' with
  | rest hshort =>
    obtain ⟨rfl, rfl⟩ := h'.nil_inv hshort
    exact ⟨rfl, rfl⟩
  | frame hsize hpos hmore ih =>
    obtain ⟨_, gs, hgs, hrest⟩ := h'.cons_inv hsize (by simp)
    rw [List.take_left] at hgs
    rw [List.drop_left] at hrest
    obtain ⟨rfl, rfl⟩ := ih hrest
    exact ⟨hgs.symm, rfl⟩

/-- Cutting what was left, with what arrived since behind it, continues the cut. -/
theorem Framed.append (hann : Announced size) {as bs mid rest : List α} {fs gs : List (List α)}
    (hfirst : Framed size as fs mid) (hnext : Framed size (mid ++ bs) gs rest) :
    Framed size (as ++ bs) (fs ++ gs) rest := by
  induction hfirst with
  | rest hshort => exact hnext
  | frame hsize hpos hmore ih =>
    rw [List.append_assoc]
    refine .frame ?_ hpos (ih hnext)
    rw [← List.append_assoc]
    exact hann.stable _ _ _ hsize

/-- A stream that can be cut can be cut wherever it is interrupted. -/
theorem Framed.interrupt (hann : Announced size) {as bs all rest : List α} {hs : List (List α)}
    (h : Framed size all hs rest) (hall : all = as ++ bs) :
    ∃ fs mid gs, Framed size as fs mid ∧ Framed size (mid ++ bs) gs rest ∧ hs = fs ++ gs := by
  induction h generalizing as with
  | @rest all hshort =>
    subst hall
    refine ⟨[], as, [], .rest fun n hn => ?_, .rest hshort, rfl⟩
    have := hshort n (hann.stable _ _ _ hn)
    simp at this
    omega
  | @frame f more rest fs hsize hpos hmore ih =>
    by_cases hcut : ∃ n, size as = some n ∧ n ≤ as.length
    · obtain ⟨n, hn, hle⟩ := hcut
      have hsame := hann.stable _ bs _ hn
      rw [← hall, hsize] at hsame
      cases hsame
      have hf : f = as.take f.length := by
        have := congrArg (List.take f.length) hall
        rwa [List.take_left, List.take_append_of_le_length hle] at this
      have hmid : more = as.drop f.length ++ bs := by
        have := congrArg (List.drop f.length) hall
        rwa [List.drop_left, List.drop_append_of_le_length hle] at this
      obtain ⟨fs', mid, gs, hfirst, hnext, rfl⟩ := ih hmid
      have hsplit : f ++ as.drop f.length = as := by
        conv_lhs => rw [hf]
        rw [List.length_take_of_le hle, List.take_append_drop]
      refine ⟨f :: fs', mid, gs, ?_, hnext, rfl⟩
      rw [← hsplit]
      exact .frame (by rw [hsplit]; exact hn) hpos hfirst
    · refine ⟨[], as, f :: fs, .rest fun n hn => ?_, ?_, rfl⟩
      · by_contra hnot
        exact hcut ⟨n, hn, Nat.le_of_not_lt hnot⟩
      · rw [← hall]
        exact .frame hsize hpos hmore

/-- The frames of a sequence whose last byte is among the first `n` bytes. -/
def arrived : List (List α) → Nat → List (List α)
  | [], _ => []
  | f :: fs, n => if f.length ≤ n then f :: arrived fs (n - f.length) else []

theorem arrived_all (fs : List (List α)) : arrived fs fs.flatten.length = fs := by
  induction fs with
  | nil => rfl
  | cons f fs ih =>
    rw [arrived, List.flatten_cons, List.length_append, if_pos (Nat.le_add_right _ _),
      Nat.add_sub_cancel_left, ih]

theorem arrived_start (fs : List (List α)) (n : Nat) : arrived fs n <+: fs := by
  induction fs generalizing n with
  | nil => exact List.prefix_refl _
  | cons f fs ih =>
    rw [arrived]
    split
    · exact List.cons_prefix_cons.mpr ⟨rfl, ih _⟩
    · exact List.nil_prefix

/-- A frame that nothing has arrived of does not count. -/
theorem arrived_append {fs : List (List α)} {frame : List α} {n : Nat}
    (hn : n ≤ fs.flatten.length) (hpos : 0 < frame.length) :
    arrived (fs ++ [frame]) n = arrived fs n := by
  induction fs generalizing n with
  | nil =>
    rw [List.flatten_nil, List.length_nil] at hn
    have hshort : ¬ frame.length ≤ n := by omega
    exact if_neg hshort
  | cons f fs ih =>
    rw [List.flatten_cons, List.length_append] at hn
    rw [List.cons_append, arrived, arrived]
    split
    · rw [ih (by omega)]
    · rfl

/-- A sequence of frames, interrupted anywhere, is cut into the frames that have
arrived, and what is left is shorter than the next frame. -/
theorem framed_take (hann : Announced size) {fs : List (List α)}
    (hframes : ∀ f ∈ fs, size f = some f.length ∧ 0 < f.length) (n : Nat) :
    ∃ rest, Framed size (fs.flatten.take n) (arrived fs n) rest ∧
      (rest = [] ∨ ∃ f ∈ fs, rest.length < f.length) := by
  induction fs generalizing n with
  | nil =>
    refine ⟨[], ?_, .inl rfl⟩
    rw [List.flatten_nil, List.take_nil]
    exact .rest fun m hm => by rw [hann.nil] at hm; cases hm
  | cons f fs ih =>
    obtain ⟨hsize, hpos⟩ := hframes f (by simp)
    rw [List.flatten_cons, arrived]
    by_cases hle : f.length ≤ n
    · obtain ⟨rest, hcut, hrest⟩ :=
        ih (fun g hg => hframes g (List.mem_cons_of_mem _ hg)) (n - f.length)
      refine ⟨rest, ?_, hrest.imp_right fun ⟨g, hg, hlt⟩ => ⟨g, List.mem_cons_of_mem _ hg, hlt⟩⟩
      rw [if_pos hle, List.take_append, List.take_of_length_le hle]
      exact .frame (hann.stable _ _ _ hsize) hpos hcut
    · have hlt : n < f.length := Nat.lt_of_not_le hle
      have hlen : (f.take n).length = n := List.length_take_of_le (Nat.le_of_lt hlt)
      rw [if_neg hle, List.take_append_of_le_length (Nat.le_of_lt hlt)]
      refine ⟨f.take n, .rest fun m hm => ?_, .inr ⟨f, by simp, by rw [hlen]; exact hlt⟩⟩
      have hfull := hann.stable _ (f.drop n) _ hm
      rw [List.take_append_drop, hsize] at hfull
      cases hfull
      rwa [hlen]

end Lib.Framing
