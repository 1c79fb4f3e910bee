import Easymesh.Lib.Result

open Lib.Result

namespace Lib

/-- The largest value of a 32-bit `int`. -/
def INT_MAX : Nat := 2147483647

/-- Reduction of an integer to the 32-bit two's complement `int` it is stored as. -/
def wrap32 (x : Int) : Int := (x + 2147483648) % 4294967296 - 2147483648

/-- Conversion of an integer to a 64-bit `size_t`. -/
def toSize (x : Int) : Nat := (x % 18446744073709551616).toNat

theorem wrap32_eq {x : Int} (hlo : -2147483648 ≤ x) (hhi : x ≤ 2147483647) : wrap32 x = x := by
  unfold wrap32
  omega

theorem wrap32_lo (x : Int) : -2147483648 ≤ wrap32 x := by
  unfold wrap32
  omega

theorem wrap32_hi (x : Int) : wrap32 x ≤ 2147483647 := by
  unfold wrap32
  omega

/-- An `int` sum past the largest value comes back negative. -/
theorem wrap32_neg_of_gt {x : Int} (hlo : 2147483647 < x) (hhi : x ≤ 4294967294) :
    wrap32 x < 0 := by
  unfold wrap32
  omega

theorem toSize_of_nonneg {x : Int} (hlo : 0 ≤ x) (hhi : x < 18446744073709551616) :
    (toSize x : Int) = x := by
  unfold toSize
  omega

/-- A negative `int` becomes a `size_t` above every `int`. -/
theorem toSize_of_neg {x : Int} (hlo : -2147483648 ≤ x) (hhi : x < 0) :
    (toSize x : Int) = x + 18446744073709551616 := by
  unfold toSize
  omega

/-- The bytes `mem[i, i + n)`. Reading none of them touches no memory. -/
def readBytes (mem : List UInt8) (i : Int) (n : Nat) : Result (List UInt8) :=
  if n = 0 then ok []
  else if 0 ≤ i ∧ i.toNat + n ≤ mem.length then ok ((mem.drop i.toNat).take n)
  else fail

/-- The memory after `bs` is stored at `mem[i, i + n)`. Storing nothing touches no memory. -/
def writeBytes (mem : List UInt8) (i : Int) (bs : List UInt8) : Result (List UInt8) :=
  if bs = [] then ok mem
  else if 0 ≤ i ∧ i.toNat + bs.length ≤ mem.length then
    ok (mem.take i.toNat ++ bs ++ mem.drop (i.toNat + bs.length))
  else fail

/-- The value of bytes stored with the least significant one first. -/
def leNat : List UInt8 → Nat
  | [] => 0
  | b :: bs => b.toNat + 256 * leNat bs

/-- A 16-bit load on a little-endian machine. -/
def readU16 (mem : List UInt8) (i : Int) : Result UInt16 :=
  (fun bs => UInt16.ofNat (leNat bs)) <$> readBytes mem i 2

/-- A 32-bit unsigned load on a little-endian machine. -/
def readU32 (mem : List UInt8) (i : Int) : Result Nat :=
  leNat <$> readBytes mem i 4

/-- A load of a 32-bit `int` on a little-endian machine. -/
def readI32 (mem : List UInt8) (i : Int) : Result Int :=
  (fun value : Nat => wrap32 value) <$> readU32 mem i

def readU8 (mem : List UInt8) (i : Int) : Result UInt8 :=
  (fun bs => bs.headD 0) <$> readBytes mem i 1

/-- The value of a number whose two bytes are swapped. -/
theorem swap_toNat (x : UInt16) :
    ((x <<< 8) ||| (x >>> 8)).toNat = 256 * (x.toNat % 256) + x.toNat / 256 := by
  have hx := x.toNat_lt
  simp only [UInt16.toNat_or, UInt16.toNat_shiftLeft, UInt16.toNat_shiftRight]
  rw [show (8 : UInt16).toNat % 16 = 8 from rfl, Nat.shiftLeft_eq, Nat.shiftRight_eq_div_pow]
  have hup : x.toNat * 2 ^ 8 % 2 ^ 16 = (x.toNat % 256) <<< 8 := by
    rw [Nat.shiftLeft_eq]
    omega
  rw [hup, ← Nat.shiftLeft_add_eq_or_of_lt (by omega), Nat.shiftLeft_eq]
  omega

/-- The bytes a 16-bit value is stored as on a little-endian machine. -/
def bytesU16 (x : UInt16) : List UInt8 := [x.toUInt8, (x >>> 8).toUInt8]

/-- The bytes an `int` is stored as on a little-endian machine. -/
def bytesI32 (x : Int) : List UInt8 :=
  let value := (x % 4294967296).toNat
  [UInt8.ofNat value, UInt8.ofNat (value / 256), UInt8.ofNat (value / 65536),
    UInt8.ofNat (value / 16777216)]

theorem leNat_bytesI32 {n : Nat} (hn : n < 4294967296) : leNat (bytesI32 n) = n := by
  have hvalue : ((n : Int) % 4294967296).toNat = n := by omega
  simp only [bytesI32, hvalue, leNat, UInt8.toNat_ofNat']
  omega

theorem leNat_lt {bs : List UInt8} (h : bs.length = 4) : leNat bs < 4294967296 := by
  obtain ⟨a, b, c, d, rfl⟩ := List.length_eq_four.mp h
  have ha := a.toNat_lt
  have hb := b.toNat_lt
  have hc := c.toNat_lt
  have hd := d.toNat_lt
  simp only [leNat]
  omega

theorem leNat_bytesU16 (x : UInt16) : leNat (bytesU16 x) = x.toNat := by
  have hx := x.toNat_lt
  simp only [bytesU16, leNat, UInt16.toNat_toUInt8, UInt16.toNat_shiftRight,
    Nat.shiftRight_eq_div_pow]
  change x.toNat % 256 + 256 * (x.toNat / 256 % 256 + 256 * 0) = x.toNat
  omega

theorem readBytes_of_le {mem : List UInt8} {i : Int} {n : Nat} (hi : 0 ≤ i)
    (hn : i.toNat + n ≤ mem.length) : readBytes mem i n = ok ((mem.drop i.toNat).take n) := by
  unfold readBytes
  by_cases hzero : n = 0
  · simp [hzero]
  · simp [hzero, hi, hn]

theorem readBytes_replicate {n k : Nat} (b : UInt8) (hk : k ≤ n) :
    readBytes (List.replicate n b) 0 k = ok (List.replicate k b) := by
  have hin : (0 : Int).toNat + k ≤ (List.replicate n b).length := by
    rw [List.length_replicate, Int.toNat_zero, Nat.zero_add]
    exact hk
  rw [readBytes_of_le (le_refl 0) hin, Int.toNat_zero, List.drop_zero, List.take_replicate,
    Nat.min_eq_left hk]

theorem readBytes_zero (mem : List UInt8) (i : Int) : readBytes mem i 0 = ok [] := by
  simp [readBytes]

/-- A load that returns a byte stays inside the memory it is given. -/
theorem readBytes_eq_ok {mem bs : List UInt8} {i : Int} {n : Nat} (hn : 0 < n)
    (h : readBytes mem i n = ok bs) :
    0 ≤ i ∧ i.toNat + n ≤ mem.length ∧ bs = (mem.drop i.toNat).take n := by
  unfold readBytes at h
  rw [if_neg (by omega)] at h
  by_cases hin : 0 ≤ i ∧ i.toNat + n ≤ mem.length
  · rw [if_pos hin] at h
    cases h
    exact ⟨hin.1, hin.2, rfl⟩
  · rw [if_neg hin] at h
    cases h

theorem readBytes_outside {mem : List UInt8} {i : Int} {n : Nat} (hn : 0 < n)
    (hout : i < 0 ∨ mem.length < i.toNat + n) : readBytes mem i n = fail := by
  unfold readBytes
  rw [if_neg (by omega), if_neg (by omega)]

theorem readBytes_returns_iff {mem : List UInt8} {off n : Nat} :
    (readBytes mem off n).Returns ↔ n = 0 ∨ off + n ≤ mem.length := by
  constructor
  · rintro ⟨bs, h⟩
    rcases Nat.eq_zero_or_pos n with hzero | hpos
    · exact .inl hzero
    · exact .inr (readBytes_eq_ok hpos h).2.1
  · rintro (rfl | hin)
    · exact ⟨[], readBytes_zero mem off⟩
    · exact ⟨_, readBytes_of_le (Int.natCast_nonneg off) hin⟩

theorem readBytes_length {mem bs : List UInt8} {i : Int} {n : Nat} (h : readBytes mem i n = ok bs) :
    bs.length = n := by
  rcases Nat.eq_zero_or_pos n with rfl | hpos
  · rw [readBytes_zero] at h
    cases h
    rfl
  · obtain ⟨_, hle, rfl⟩ := readBytes_eq_ok hpos h
    rw [List.length_take, List.length_drop]
    omega

theorem readBytes_ne_div (mem : List UInt8) (i : Int) (n : Nat) : readBytes mem i n ≠ div := by
  unfold readBytes
  split
  · simp
  · split <;> simp

theorem readU16_ne_div (mem : List UInt8) (i : Int) : readU16 mem i ≠ div :=
  fun h => readBytes_ne_div mem i 2 (map_eq_div_iff.mp h)

theorem readU16_inside {mem : List UInt8} {i : Int} {x : UInt16} (h : readU16 mem i = ok x) :
    0 ≤ i ∧ i.toNat + 2 ≤ mem.length := by
  obtain ⟨bs, hbs, _⟩ := map_eq_ok_iff.mp h
  obtain ⟨hi, hle, _⟩ := readBytes_eq_ok (by decide) hbs
  exact ⟨hi, hle⟩

/-- Bytes that are already there do not change when more memory follows them. -/
theorem readBytes_append {mem bs : List UInt8} {i : Int} {n : Nat} (more : List UInt8)
    (h : readBytes mem i n = ok bs) : readBytes (mem ++ more) i n = ok bs := by
  by_cases hzero : n = 0
  · subst hzero
    rw [readBytes_zero] at h ⊢
    exact h
  · obtain ⟨hi, hle, rfl⟩ := readBytes_eq_ok (by omega) h
    rw [readBytes_of_le hi (by simp; omega), List.drop_append_of_le_length (by omega),
      List.take_append_of_le_length (by simp; omega)]

theorem readU16_append {mem : List UInt8} {i : Int} {x : UInt16} (more : List UInt8)
    (h : readU16 mem i = ok x) : readU16 (mem ++ more) i = ok x := by
  obtain ⟨bs, hbs, hx⟩ := map_eq_ok_iff.mp h
  exact map_eq_ok_iff.mpr ⟨bs, readBytes_append more hbs, hx⟩

/-- Loads from the first bytes of a memory are loads from the memory. -/
theorem readBytes_take {mem bs : List UInt8} {i : Int} {n k : Nat} (h : readBytes mem i n = ok bs)
    (hin : n = 0 ∨ i.toNat + n ≤ k) : readBytes (mem.take k) i n = ok bs := by
  rcases Nat.eq_zero_or_pos n with rfl | hpos
  · rw [readBytes_zero] at h ⊢
    exact h
  · obtain ⟨hi, hle, rfl⟩ := readBytes_eq_ok hpos h
    rw [readBytes_of_le hi (by rw [List.length_take]; omega), List.drop_take, List.take_take]
    congr 2
    omega

theorem readU16_take {mem : List UInt8} {i : Int} {x : UInt16} {k : Nat} (h : readU16 mem i = ok x)
    (hin : i.toNat + 2 ≤ k) : readU16 (mem.take k) i = ok x := by
  obtain ⟨bs, hbs, hx⟩ := map_eq_ok_iff.mp h
  exact map_eq_ok_iff.mpr ⟨bs, readBytes_take hbs (.inr hin), hx⟩

/-- A load at an offset is a load at the start of what follows that offset. -/
theorem readBytes_drop (mem : List UInt8) (k : Nat) {i : Int} (hi : 0 ≤ i) (n : Nat) :
    readBytes (mem.drop k) i n = readBytes mem (k + i) n := by
  by_cases hzero : n = 0
  · subst hzero
    simp [readBytes_zero]
  · have hsum : ((k : Int) + i).toNat = k + i.toNat := by omega
    by_cases hle : i.toNat + n ≤ (mem.drop k).length
    · have hle' : k + i.toNat + n ≤ mem.length := by simp at hle; omega
      rw [readBytes_of_le hi hle, readBytes_of_le (by omega) (by omega), List.drop_drop, hsum]
    · have hle' : mem.length < k + i.toNat + n := by simp at hle; omega
      rw [readBytes_outside (by omega) (by omega), readBytes_outside (by omega) (by omega)]

/-- The first bytes of what a load at the start returns. -/
theorem readBytes_less {mem bs : List UInt8} {k : Nat} (h : readBytes mem 0 bs.length = ok bs)
    (hk : k ≤ bs.length) : readBytes mem 0 k = ok (bs.take k) := by
  by_cases hzero : bs.length = 0
  · obtain rfl : k = 0 := by omega
    rw [readBytes_zero, List.take_zero]
  · obtain ⟨_, hle, hbs⟩ := readBytes_eq_ok (by omega) h
    rw [readBytes_of_le le_rfl (by omega), hbs, List.take_take, Nat.min_eq_left hk]

/-- A load of what the memory starts with. -/
theorem readBytes_front {mem bs rest : List UInt8} (hmem : mem = bs ++ rest) :
    readBytes mem 0 bs.length = ok bs := by
  subst hmem
  rw [readBytes_of_le le_rfl (by simp), Int.toNat_zero, List.drop_zero, List.take_left]

/-- A load of what stands behind a prefix. -/
theorem readBytes_middle (front bs rest : List UInt8) :
    readBytes (front ++ (bs ++ rest)) front.length bs.length = ok bs := by
  rw [readBytes_of_le (Int.natCast_nonneg _) (by simp), Int.toNat_natCast, List.drop_left,
    List.take_left]

theorem writeBytes_of_le {mem bs : List UInt8} {i : Int} (hi : 0 ≤ i)
    (hn : i.toNat + bs.length ≤ mem.length) :
    writeBytes mem i bs = ok (mem.take i.toNat ++ bs ++ mem.drop (i.toNat + bs.length)) := by
  unfold writeBytes
  by_cases hnil : bs = []
  · simp [hnil]
  · simp [hnil, hi, hn]

/-- A store inside the memory puts the bytes behind what is below them. -/
theorem writeBytes_inside {mem bs : List UInt8} {off : Nat} (hin : off + bs.length ≤ mem.length) :
    ∃ out, writeBytes mem off bs = ok out ∧ out.length = mem.length ∧
      out.take (off + bs.length) = mem.take off ++ bs := by
  have htake : (mem.take off).length = off := List.length_take_of_le (by omega)
  refine ⟨mem.take off ++ bs ++ mem.drop (off + bs.length), ?_, ?_, ?_⟩
  · rw [writeBytes_of_le (Int.natCast_nonneg off) (by rw [Int.toNat_natCast]; exact hin),
      Int.toNat_natCast]
  · simp only [List.length_append, htake, List.length_drop]
    omega
  · exact List.take_left' (by rw [List.length_append, htake])

/-- A store leaves alone what is below it. -/
theorem writeBytes_take {mem bs out : List UInt8} {i : Int} (h : writeBytes mem i bs = ok out) :
    out.take i.toNat = mem.take i.toNat := by
  unfold writeBytes at h
  split at h
  · cases h
    rfl
  · split at h
    · rename_i hin
      cases h
      have hlen : (mem.take i.toNat).length = i.toNat := List.length_take_of_le (by omega)
      rw [List.append_assoc, List.take_append_of_le_length (by omega), List.take_of_length_le (by omega)]
    · cases h

/-- A store leaves the size of the memory as it is. -/
theorem writeBytes_length {mem bs out : List UInt8} {i : Int} (h : writeBytes mem i bs = ok out) :
    out.length = mem.length := by
  unfold writeBytes at h
  split at h
  · cases h
    rfl
  · split at h
    · cases h
      simp only [List.length_append, List.length_take, List.length_drop]
      omega
    · cases h

/-- A store that begins inside or right behind another one, and ends no earlier. -/
theorem writeBytes_overlap {mem as bs : List UInt8} {i k : Nat} (hk : k ≤ as.length)
    (hend : as.length ≤ k + bs.length) (hin : i + (k + bs.length) ≤ mem.length) :
    (writeBytes mem i as >>= fun mem => writeBytes mem (i + k : Nat) bs) =
      writeBytes mem i (as.take k ++ bs) := by
  have hfront : (mem.take i).length = i := List.length_take_of_le (by omega)
  have htaken : (as.take k).length = k := List.length_take_of_le hk
  have hlength : (mem.take i ++ as ++ mem.drop (i + as.length)).length = mem.length := by
    simp only [List.length_append, hfront, List.length_drop]
    omega
  rw [writeBytes_of_le (Int.natCast_nonneg i) (by rw [Int.toNat_natCast]; omega), Int.toNat_natCast,
    ok_bind, writeBytes_of_le (Int.natCast_nonneg _) (by rw [Int.toNat_natCast, hlength]; omega),
    Int.toNat_natCast, writeBytes_of_le (Int.natCast_nonneg i) (by
      rw [Int.toNat_natCast, List.length_append, htaken]; omega), Int.toNat_natCast,
    List.length_append, htaken]
  have hbefore : (mem.take i ++ as ++ mem.drop (i + as.length)).take (i + k) =
      mem.take i ++ as.take k := by
    rw [List.append_assoc, List.take_append, hfront, List.take_of_length_le (by omega),
      Nat.add_sub_cancel_left, List.take_append_of_le_length hk]
  have hafter : (mem.take i ++ as ++ mem.drop (i + as.length)).drop (i + k + bs.length) =
      mem.drop (i + (k + bs.length)) := by
    have hsum : i + as.length + (k + bs.length - as.length) = i + (k + bs.length) := by omega
    rw [List.drop_append, List.length_append, hfront,
      List.drop_of_length_le (by rw [List.length_append, hfront]; omega), List.nil_append,
      List.drop_drop, ← hsum]
    congr 1
    omega
  rw [hbefore, hafter, List.append_assoc (mem.take i)]

/-- A load of an `int` is a value of type `int`. -/
theorem readI32_bounds {mem : List UInt8} {i x : Int} (h : readI32 mem i = ok x) :
    -2147483648 ≤ x ∧ x ≤ 2147483647 := by
  obtain ⟨value, _, rfl⟩ := map_eq_ok_iff.mp h
  exact ⟨wrap32_lo _, wrap32_hi _⟩

/-- An `int` that is stored is read back. -/
theorem readI32_stored {mem front rest : List UInt8} {x : Int} (hlo : -2147483648 ≤ x)
    (hhi : x ≤ 2147483647) (hmem : mem = front ++ (bytesI32 x ++ rest)) :
    readI32 mem front.length = ok x := by
  have hread : readBytes mem front.length 4 = ok (bytesI32 x) := by
    rw [hmem]
    exact readBytes_middle front (bytesI32 x) rest
  have hvalue : leNat (bytesI32 x) = (x % 4294967296).toNat := by
    simp only [bytesI32, leNat, UInt8.toNat_ofNat']
    omega
  have hback : wrap32 ((x % 4294967296).toNat : Nat) = x := by
    unfold wrap32
    omega
  rw [readI32, readU32, hread, map_ok, map_ok, hvalue, hback]

theorem readI32_inside {mem : List UInt8} {off : Nat} {x : Int} (h : readI32 mem off = ok x) :
    off + 4 ≤ mem.length := by
  obtain ⟨value, hvalue, -⟩ := map_eq_ok_iff.mp h
  obtain ⟨bs, hbs, -⟩ := map_eq_ok_iff.mp hvalue
  exact (readBytes_eq_ok (by decide) hbs).2.1

theorem readI32_append {mem : List UInt8} {i x : Int} (more : List UInt8)
    (h : readI32 mem i = ok x) : readI32 (mem ++ more) i = ok x := by
  obtain ⟨value, hvalue, rfl⟩ := map_eq_ok_iff.mp h
  obtain ⟨bs, hbs, rfl⟩ := map_eq_ok_iff.mp hvalue
  simp [readI32, readU32, readBytes_append more hbs]

theorem readI32_drop (mem : List UInt8) (k : Nat) {i : Int} (hi : 0 ≤ i) :
    readI32 (mem.drop k) i = readI32 mem (k + i) := by
  simp [readI32, readU32, readBytes_drop mem k hi]

/-- A load inside the memory returns. -/
theorem readI32_of_le (mem : List UInt8) {i : Int} (hi : 0 ≤ i) (hn : i.toNat + 4 ≤ mem.length) :
    ∃ x, readI32 mem i = ok x := by
  simp [readI32, readU32, readBytes_of_le hi hn]

theorem readU16_of_le (mem : List UInt8) {i : Int} (hi : 0 ≤ i) (hn : i.toNat + 2 ≤ mem.length) :
    ∃ x, readU16 mem i = ok x := by
  simp [readU16, readBytes_of_le hi hn]

end Lib
