import Easymesh.Lib.Memory

open Lib.Result

namespace Lib

/-- A heap block that is filled from its start and reallocated when it is too
small. `uninit` is what its memory holds where nothing was stored yet. -/
structure GrowBuffer where
  buffer : List UInt8
  offset : Nat
  uninit : Nat → UInt8

namespace GrowBuffer

def length (p : GrowBuffer) : Nat := p.buffer.length

/-- What was stored since the offset was 0. -/
def contents (p : GrowBuffer) : List UInt8 := p.buffer.take p.offset

/-- A new block of `size` bytes. -/
def malloc (uninit : Nat → UInt8) (size : Nat) : GrowBuffer :=
  { buffer := (List.range size).map uninit, offset := 0, uninit }

/-- The block grown to `newsize` bytes, which `realloc` does not refuse. -/
def realloc (p : GrowBuffer) (newsize : Nat) : GrowBuffer :=
  { p with buffer := p.buffer ++ (List.range' p.length (newsize - p.length)).map p.uninit }

/-- Room for `needed` bytes and one more behind the offset, or `none` when there
can be none. -/
def ensure (p : GrowBuffer) (needed : Nat) : Option GrowBuffer :=
  if 0 < p.length ∧ p.length ≤ p.offset then none
  else if INT_MAX < needed then none
  else
    let needed := needed + p.offset + 1
    if needed ≤ p.length then some p
    else if INT_MAX / 2 < needed then
      if needed ≤ INT_MAX then some (p.realloc INT_MAX) else none
    else some (p.realloc (needed * 2))

/-- `memcpy(p->buffer + p->offset, bs, n); p->offset += n;` -/
def store (p : GrowBuffer) (bs : List UInt8) : Result GrowBuffer := do
  let buffer ← writeBytes p.buffer p.offset bs
  ok { p with buffer, offset := p.offset + bs.length }

/-- Room for the bytes `bs`, and a store of them there; `none` where there is no room. -/
def append (p : GrowBuffer) (bs : List UInt8) : Result (Option GrowBuffer) :=
  match p.ensure bs.length with
  | none => ok none
  | some p => some <$> p.store bs

/-- The offset is inside the block, and the block no larger than an `int` counts. -/
structure Fits (p : GrowBuffer) : Prop where
  offset_lt : p.offset < p.length
  length_le : p.length ≤ INT_MAX

variable {p q : GrowBuffer}

theorem malloc_fits (uninit : Nat → UInt8) {size : Nat} (hpos : 0 < size) (hsize : size ≤ INT_MAX) :
    (malloc uninit size).Fits := by
  constructor <;> simpa [malloc, length]

@[simp] theorem realloc_offset (p : GrowBuffer) (n : Nat) : (p.realloc n).offset = p.offset := rfl

theorem realloc_length {n : Nat} (hn : p.length ≤ n) : (p.realloc n).length = n := by
  simp only [realloc, length, List.length_append, List.length_map, List.length_range'] at hn ⊢
  omega

theorem realloc_contents {n : Nat} (hp : p.offset ≤ p.length) :
    (p.realloc n).contents = p.contents := by
  unfold contents realloc
  exact List.take_append_of_le_length hp

/-- There is room unless an `int` cannot count what the block would hold. -/
theorem ensure_eq_none_iff (hp : p.Fits) {n : Nat} :
    p.ensure n = none ↔ INT_MAX < p.offset + n + 1 := by
  obtain ⟨hlt, hle⟩ := hp
  unfold ensure
  unfold INT_MAX at hle ⊢
  rw [if_neg (by omega)]
  dsimp only
  by_cases hn : 2147483647 < n
  · rw [if_pos hn]
    exact ⟨fun _ => by omega, fun _ => rfl⟩
  · rw [if_neg hn]
    split
    · exact ⟨nofun, fun h => by omega⟩
    · split
      · split
        · exact ⟨nofun, fun h => by omega⟩
        · exact ⟨fun _ => by omega, fun _ => rfl⟩
      · exact ⟨nofun, fun h => by omega⟩

theorem ensure_eq_some (hp : p.Fits) {n : Nat} (h : p.ensure n = some q) :
    q.offset = p.offset ∧ q.contents = p.contents ∧ p.offset + n < q.length ∧
      q.length ≤ INT_MAX := by
  obtain ⟨hlt, hle⟩ := hp
  have hcontents := fun m => realloc_contents (n := m) hlt.le
  have hlength := fun m => realloc_length (p := p) (n := m)
  unfold ensure at h
  unfold INT_MAX at h hle ⊢
  rw [if_neg (by omega)] at h
  dsimp only at h
  split at h
  · cases h
  · split at h
    · cases h
      exact ⟨rfl, rfl, by omega, hle⟩
    · split at h
      · split at h
        · cases h
          exact ⟨rfl, hcontents _, by rw [hlength _ (by omega)]; omega,
            by rw [hlength _ (by omega)]⟩
        · cases h
      · cases h
        exact ⟨rfl, hcontents _, by rw [hlength _ (by omega)]; omega,
          by rw [hlength _ (by omega)]; omega⟩

/-- Making room moves no byte of the block. -/
theorem ensure_prefix {n : Nat} (h : p.ensure n = some q) : p.buffer <+: q.buffer := by
  unfold ensure at h
  split at h
  · cases h
  · split at h
    · cases h
    · dsimp only at h
      split at h
      · cases h
        exact List.prefix_rfl
      · split at h
        · split at h
          · cases h
            exact List.prefix_append _ _
          · cases h
        · cases h
          exact List.prefix_append _ _

theorem store_length {bs : List UInt8} (h : p.store bs = ok q) : q.length = p.length := by
  obtain ⟨out, hout, heq⟩ := bind_eq_ok_iff.mp h
  cases heq
  exact writeBytes_length hout

/-- What is stored where there is room is appended to the contents. -/
theorem store_of_room {bs : List UInt8} (hlt : p.offset + bs.length < p.length)
    (hle : p.length ≤ INT_MAX) :
    ∃ q, p.store bs = ok q ∧ q.Fits ∧ q.offset = p.offset + bs.length ∧
      q.contents = p.contents ++ bs := by
  obtain ⟨out, hout, hlength, htake⟩ := writeBytes_inside (Nat.le_of_lt hlt)
  refine ⟨{ p with buffer := out, offset := p.offset + bs.length }, by rw [store, hout, ok_bind],
    ⟨?_, ?_⟩, rfl, htake⟩
  · unfold length at hlt ⊢
    rw [hlength]
    exact hlt
  · unfold length at hle ⊢
    rw [hlength]
    exact hle

/-- What is stored after room was made for it is appended to the contents. -/
theorem store_of_ensure (hp : p.Fits) {bs : List UInt8} (h : p.ensure bs.length = some q) :
    ∃ r, q.store bs = ok r ∧ r.Fits ∧ r.offset = p.offset + bs.length ∧
      r.contents = p.contents ++ bs := by
  obtain ⟨hoffset, hcontents, hlt, hle⟩ := ensure_eq_some hp h
  obtain ⟨r, hr, hfits, hroffset, hrcontents⟩ := store_of_room (hoffset ▸ hlt) hle
  exact ⟨r, hr, hfits, hoffset ▸ hroffset, hcontents ▸ hrcontents⟩

/-- There is room as long as an `int` can count what the block would hold. -/
theorem ensure_of_le (hp : p.Fits) {n : Nat} (hroom : p.offset + n + 1 ≤ INT_MAX) :
    ∃ q, p.ensure n = some q ∧ q.offset = p.offset ∧ q.contents = p.contents ∧
      p.offset + n < q.length ∧ q.length ≤ INT_MAX := by
  have hsome : p.ensure n ≠ none := fun hnone =>
    absurd ((ensure_eq_none_iff hp).mp hnone) (Nat.not_lt_of_le hroom)
  obtain ⟨q, hq⟩ := Option.ne_none_iff_exists'.mp hsome
  exact ⟨q, hq, ensure_eq_some hp hq⟩

/-- `q` is the block `p` with `bs` appended. -/
structure Appended (bs : List UInt8) (p q : GrowBuffer) : Prop where
  fits : q.Fits
  offset : q.offset = p.offset + bs.length
  contents : q.contents = p.contents ++ bs

/-- Running `f` appends `bs` wherever a block can hold it. -/
def Emits (f : GrowBuffer → Result (Option GrowBuffer)) (bs : List UInt8) : Prop :=
  ∀ p : GrowBuffer, p.Fits → p.offset + bs.length + 1 ≤ INT_MAX →
    ∃ q, f p = ok (some q) ∧ Appended bs p q

theorem emits_nil : Emits (fun p => ok (some p)) [] :=
  fun p hp _ => ⟨p, rfl, hp, rfl, (List.append_nil _).symm⟩

/-- The bytes of a sequence of steps are those of its steps, one after the other. -/
theorem Emits.seq {f g : GrowBuffer → Result (Option GrowBuffer)} {as bs : List UInt8}
    (hf : Emits f as) (hg : Emits g bs) {h : GrowBuffer → Result (Option GrowBuffer)}
    (hseq : ∀ p q, f p = ok (some q) → h p = g q) : Emits h (as ++ bs) := by
  intro p hp hroom
  rw [List.length_append] at hroom
  obtain ⟨q, hq, hfits, hoffset, hcontents⟩ := hf p hp (by omega)
  obtain ⟨r, hr, hfits', hoffset', hcontents'⟩ := hg q hfits (by omega)
  refine ⟨r, (hseq p q hq).trans hr, hfits', ?_, ?_⟩
  · rw [hoffset', hoffset, List.length_append]
    omega
  · rw [hcontents', hcontents, List.append_assoc]

end GrowBuffer

end Lib
