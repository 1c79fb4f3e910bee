import Easymesh.Tlv.Printer

open Lib Lib.Result Lib.GrowBuffer

namespace easymesh.tlv_parser

/-- The type field on the wire. -/
def type_bytes (type : tlv_type) (type_len : Nat) : List UInt8 :=
  if type_len = 2 then be16 type else [type.toUInt8]

/-- The two fields in front of a value. -/
def header_bytes (type : tlv_type) (type_len : Nat) (length : tlv_len) : List UInt8 :=
  type_bytes type type_len ++ be16 length

mutual

/-- The bytes that a node stands for. An object has no bytes of its own. -/
def encode : KamiTlv_S → List UInt8
  | ⟨type, type_len, length, obj_type, value, child⟩ =>
    match obj_type with
    | .KamiTlv_Tlv => header_bytes type type_len length ++ value
    | .KamiTlv_Array => header_bytes type type_len length ++ encodeAll child
    | .KamiTlv_Object => encodeAll child
    | .KamiTlv_Invalid => []

def encodeAll : List KamiTlv_S → List UInt8
  | [] => []
  | pstItem :: rest => encode pstItem ++ encodeAll rest

end

mutual

/-- A tree of types `len` bytes wide in which every length counts the bytes it is
for, as far as its 16 bits do. -/
def Consistent (len : Nat) : KamiTlv_S → Prop
  | ⟨_, type_len, length, obj_type, value, child⟩ =>
    type_len = len ∧
      match obj_type with
      | .KamiTlv_Tlv => value.length = length.toNat ∧ child = []
      | .KamiTlv_Array | .KamiTlv_Object =>
        length = UInt16.ofNat (encodeAll child).length ∧ ConsistentAll len child
      | .KamiTlv_Invalid => False

def ConsistentAll (len : Nat) : List KamiTlv_S → Prop
  | [] => True
  | pstItem :: rest => Consistent len pstItem ∧ ConsistentAll len rest

end

theorem type_bytes_length (type : tlv_type) {len : Nat} (hlen : len = 1 ∨ len = 2) :
    (type_bytes type len).length = len := by
  rcases hlen with rfl | rfl
  · rfl
  · rfl

theorem header_bytes_length (type : tlv_type) {len : Nat} (hlen : len = 1 ∨ len = 2)
    (length : tlv_len) : (header_bytes type len length).length = len + 2 := by
  rw [header_bytes, List.length_append, type_bytes_length type hlen]
  rfl

/-- The printer stores the type two bytes wide; the length covers the second one
of a one-byte type. -/
theorem little2bigs_type_bytes (type : tlv_type) {len : Nat} (hlen : len = 1 ∨ len = 2) :
    ∃ swapped, little2bigs_type type len = ok swapped ∧
      (bytesU16 swapped).take len = type_bytes type len := by
  rcases hlen with rfl | rfl
  · exact ⟨type, rfl, rfl⟩
  · refine ⟨_, rfl, ?_⟩
    rw [bytesU16_swap]
    rfl

theorem Kami_Tlv_PrintHeader_spec {p : GrowBuffer} (type : tlv_type) {len : Nat} (length : tlv_len)
    (hlen : len = 1 ∨ len = 2) (hroom : p.offset + (len + 2) ≤ p.length) :
    ∃ q, Kami_Tlv_PrintHeader p type len length = ok q ∧ q.length = p.length ∧
      q.offset = p.offset + (len + 2) ∧
      q.contents = p.contents ++ header_bytes type len length := by
  obtain ⟨swapped, hswapped, hbytes⟩ := little2bigs_type_bytes type hlen
  unfold GrowBuffer.length at hroom
  have htwo : ∀ x : UInt16, (bytesU16 x).length = 2 := fun _ => rfl
  obtain ⟨out₁, hout₁, hlen₁, htake₁⟩ := @writeBytes_inside p.buffer (bytesU16 swapped) p.offset
    (by rw [htwo]; omega)
  obtain ⟨out₂, hout₂, hlen₂, htake₂⟩ := @writeBytes_inside out₁
    (bytesU16 (little2bigs_len length)) (p.offset + len) (by rw [htwo]; omega)
  have hoff : ((p.offset + len : Nat) : Int) = p.offset + len := Int.natCast_add _ _
  refine ⟨{ p with buffer := out₂, offset := p.offset + (len + 2) }, ?_, ?_, rfl, ?_⟩
  · rw [Kami_Tlv_PrintHeader, hswapped, ok_bind, hout₁, ok_bind, ← hoff, hout₂, ok_bind]
  · exact hlen₂.trans hlen₁
  · have htype : out₁.take (p.offset + len) = p.contents ++ type_bytes type len := by
      have hcut : out₁.take (p.offset + len) = (out₁.take (p.offset + 2)).take (p.offset + len) := by
        rw [List.take_take, Nat.min_eq_left (by omega)]
      have hfront : (p.buffer.take p.offset).length = p.offset := List.length_take_of_le (by omega)
      rw [htwo] at htake₁
      rw [hcut, htake₁, List.take_append, hfront, List.take_of_length_le (by omega),
        Nat.add_sub_cancel_left, hbytes]
      rfl
    rw [htwo, htype, little2bigs_len, bytesU16_swap, List.append_assoc, Nat.add_assoc] at htake₂
    exact htake₂

theorem Kami_Tlv_PrintTlv_emits (type : tlv_type) {len : Nat} {length : tlv_len}
    {value : List UInt8} (hlen : len = 1 ∨ len = 2) (hvalue : value.length = length.toNat) :
    Emits (Kami_Tlv_PrintTlv type len length value) (header_bytes type len length ++ value) := by
  intro p hp hroom
  rw [List.length_append, header_bytes_length type hlen] at hroom
  obtain ⟨grown, hgrown, hoffset, hcontents, hlt, hle⟩ :=
    ensure_of_le hp (n := length.toNat + len + 2) (by omega)
  obtain ⟨q, hq, hqlength, hqoffset, hqcontents⟩ :=
    Kami_Tlv_PrintHeader_spec type length hlen (p := grown) (by omega)
  obtain ⟨r, hr, hfits, hroffset, hrcontents⟩ := @store_of_room q value (by omega) (by omega)
  have hread : readBytes value 0 length.toNat = ok value := by
    rw [← hvalue]
    exact readBytes_front (List.append_nil value).symm
  refine ⟨r, ?_, hfits, ?_, ?_⟩
  · rw [Kami_Tlv_PrintTlv, Kami_Tlv_Ensure, hgrown]
    dsimp only
    rw [hq, ok_bind, hread, ok_bind, hr, map_ok]
  · rw [List.length_append, header_bytes_length type hlen]
    omega
  · rw [hrcontents, hqcontents, hcontents, List.append_assoc]

/-- The header of an array, as `Kami_Tlv_PrintArray` starts with it. -/
theorem print_array_header_emits (type : tlv_type) {len : Nat} (length : tlv_len)
    (hlen : len = 1 ∨ len = 2) {bs : List UInt8} {child : List KamiTlv_S}
    (hchild : Emits (Kami_Tlv_PrintObject child) bs) (value : List UInt8) :
    Emits (Kami_Tlv_PrintValue ⟨type, len, length, .KamiTlv_Array, value, child⟩)
      (header_bytes type len length ++ bs) := by
  intro p hp hroom
  rw [List.length_append, header_bytes_length type hlen] at hroom
  obtain ⟨grown, hgrown, hoffset, hcontents, hlt, hle⟩ := ensure_of_le hp (n := len + 2) (by omega)
  obtain ⟨q, hq, hqlength, hqoffset, hqcontents⟩ :=
    Kami_Tlv_PrintHeader_spec type length hlen (p := grown) (by omega)
  obtain ⟨r, hr, hfits, hroffset, hrcontents⟩ := hchild q ⟨by omega, by omega⟩ (by omega)
  refine ⟨r, ?_, hfits, ?_, ?_⟩
  · rw [Kami_Tlv_PrintValue, Kami_Tlv_Ensure]
    rw [hgrown]
    dsimp only
    rw [hq, ok_bind, hr]
  · rw [List.length_append, header_bytes_length type hlen]
    omega
  · rw [hrcontents, hqcontents, hcontents, List.append_assoc]

mutual

/-- A node of a consistent tree prints as its encoding. -/
theorem Kami_Tlv_PrintValue_emits {len : Nat} (hlen : len = 1 ∨ len = 2) :
    ∀ {pstItem : KamiTlv_S}, Consistent len pstItem → Emits (Kami_Tlv_PrintValue pstItem) (encode pstItem)
  | ⟨type, type_len, length, .KamiTlv_Tlv, value, child⟩, h => by
    obtain ⟨rfl, hvalue, _⟩ := h
    exact Kami_Tlv_PrintTlv_emits type hlen hvalue
  | ⟨type, type_len, length, .KamiTlv_Array, value, child⟩, h => by
    obtain ⟨rfl, _, hchild⟩ := h
    exact print_array_header_emits type length hlen (Kami_Tlv_PrintObject_emits hlen hchild) value
  | ⟨type, type_len, length, .KamiTlv_Object, value, child⟩, h => by
    obtain ⟨rfl, _, hchild⟩ := h
    exact Kami_Tlv_PrintObject_emits hlen hchild
  | ⟨type, type_len, length, .KamiTlv_Invalid, value, child⟩, h => h.2.elim

theorem Kami_Tlv_PrintObject_emits {len : Nat} (hlen : len = 1 ∨ len = 2) :
    ∀ {child : List KamiTlv_S}, ConsistentAll len child →
      Emits (Kami_Tlv_PrintObject child) (encodeAll child)
  | [], _ => emits_nil
  | pstItem :: rest, h => by
    apply (Kami_Tlv_PrintValue_emits hlen h.1).seq (Kami_Tlv_PrintObject_emits hlen h.2)
    intro p q hq
    rw [Kami_Tlv_PrintObject, hq, ok_bind]

end

/-- Printing a consistent tree gives a block that starts with its encoding. -/
theorem Kami_Tlv_Print_spec (uninit : Nat → UInt8) {len : Nat} {pstTlv : KamiTlv_S}
    (hlen : len = 1 ∨ len = 2) (hcons : Consistent len pstTlv)
    (hsize : (encode pstTlv).length + 1 ≤ INT_MAX) :
    ∃ more, Kami_Tlv_Print uninit pstTlv = ok (some (encode pstTlv ++ more)) := by
  have hfits : (GrowBuffer.malloc uninit 256).Fits :=
    malloc_fits uninit (by decide) (by unfold INT_MAX; decide)
  obtain ⟨q, hq, hqfits, hoffset, hcontents⟩ :=
    Kami_Tlv_PrintValue_emits hlen hcons _ hfits (by simpa [GrowBuffer.malloc] using hsize)
  have hhead : q.buffer.take q.offset = encode pstTlv := hcontents
  refine ⟨(q.buffer.take (q.offset + 1)).drop q.offset, ?_⟩
  have hblock : encode pstTlv ++ (q.buffer.take (q.offset + 1)).drop q.offset =
      q.buffer.take (q.offset + 1) := by
    conv_rhs => rw [← List.take_append_drop q.offset (q.buffer.take (q.offset + 1))]
    rw [List.take_take, Nat.min_eq_left (Nat.le_succ _), hhead]
  rw [Kami_Tlv_Print, hq, ok_bind, hblock]

end easymesh.tlv_parser
