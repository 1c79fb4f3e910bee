import Easymesh.Tlv.Encode

open Lib Lib.Result

namespace easymesh.tlv_parser

def Kami_Tlv_CreateArray (usType : tlv_type) (len : Nat) : KamiTlv_S :=
  { Kami_Tlv_CreateObject len with type := usType, obj_type := .KamiTlv_Array }

/-- `Kami_Tlv_AddItemToObject` for the node that `path` leads to from the root:
the loop adds what the item adds to the length of every node above it, too. -/
def Kami_Tlv_AddItemToObject_at : List Nat → KamiTlv_S → KamiTlv_S → Option (KamiTlv_S × tlv_len)
  | [], pstTlv, pstItem => some (Kami_Tlv_AddItemToObject pstTlv pstItem, usIncLength pstTlv pstItem)
  | i :: path, pstParent, pstItem => do
    let pstTlv ← pstParent.child[i]?
    let (pstTlv, inc) ← Kami_Tlv_AddItemToObject_at path pstTlv pstItem
    some ({ pstParent with child := pstParent.child.set i pstTlv, length := pstParent.length + inc },
      inc)

/-- The node that a path leads to. -/
def node_at : List Nat → KamiTlv_S → Option KamiTlv_S
  | [], pstTlv => some pstTlv
  | i :: path, pstTlv => pstTlv.child[i]? >>= node_at path

/-- The trees that are made with `len`-byte types: items are attached to objects
and arrays, wherever these are in a tree and whatever they hold. -/
inductive Built (len : Nat) : KamiTlv_S → Prop
  | object : Built len (Kami_Tlv_CreateObject len)
  | array (usType : tlv_type) : Built len (Kami_Tlv_CreateArray usType len)
  | tlv {usType : tlv_type} {usLength : tlv_len} {mem : List UInt8} {pValue : Int}
      {pstItem : KamiTlv_S} (h : Kami_Tlv_CreateTlv usType usLength mem pValue len = ok pstItem) :
      Built len pstItem
  | add (path : List Nat) {pstRoot pstTlv pstItem pstRoot' : KamiTlv_S} {inc : tlv_len}
      (hroot : Built len pstRoot) (hitem : Built len pstItem)
      (hnode : node_at path pstRoot = some pstTlv) (hleaf : pstTlv.obj_type ≠ .KamiTlv_Tlv)
      (h : Kami_Tlv_AddItemToObject_at path pstRoot pstItem = some (pstRoot', inc)) :
      Built len pstRoot'

theorem encodeAll_eq (child : List KamiTlv_S) : encodeAll child = (child.map encode).flatten := by
  induction child with
  | nil => rfl
  | cons pstItem rest ih => rw [encodeAll, ih, List.map_cons, List.flatten_cons]

theorem encodeAll_append (as bs : List KamiTlv_S) :
    encodeAll (as ++ bs) = encodeAll as ++ encodeAll bs := by
  rw [encodeAll_eq, encodeAll_eq, encodeAll_eq, List.map_append, List.flatten_append]

theorem consistentAll_iff {len : Nat} {child : List KamiTlv_S} :
    ConsistentAll len child ↔ ∀ pstItem ∈ child, Consistent len pstItem := by
  induction child with
  | nil => simp [ConsistentAll]
  | cons pstItem rest ih => simp [ConsistentAll, ih]

/-- A node that items may be attached to. -/
structure Holder (len : Nat) (pstTlv : KamiTlv_S) : Prop where
  type_len : pstTlv.type_len = len
  obj_type : pstTlv.obj_type = .KamiTlv_Array ∨ pstTlv.obj_type = .KamiTlv_Object
  length : pstTlv.length = UInt16.ofNat (encodeAll pstTlv.child).length
  child : ConsistentAll len pstTlv.child

theorem Holder.consistent {len : Nat} {pstTlv : KamiTlv_S} (h : Holder len pstTlv) :
    Consistent len pstTlv := by
  obtain ⟨type, type_len, length, obj_type, value, child⟩ := pstTlv
  obtain ⟨rfl, rfl | rfl, hlength, hchild⟩ := h
  · exact ⟨rfl, hlength, hchild⟩
  · exact ⟨rfl, hlength, hchild⟩

/-- A consistent node that is no TLV holds items. -/
theorem Consistent.holder {len : Nat} {pstTlv : KamiTlv_S} (h : Consistent len pstTlv)
    (hleaf : pstTlv.obj_type ≠ .KamiTlv_Tlv) : Holder len pstTlv := by
  obtain ⟨type, type_len, length, obj_type, value, child⟩ := pstTlv
  obtain ⟨hlen, h⟩ := h
  cases obj_type with
  | KamiTlv_Invalid => exact h.elim
  | KamiTlv_Tlv => exact absurd rfl hleaf
  | KamiTlv_Object => exact ⟨hlen, .inr rfl, h.1, h.2⟩
  | KamiTlv_Array => exact ⟨hlen, .inl rfl, h.1, h.2⟩

/-- A node with children is no TLV. -/
theorem Consistent.holder_of_child {len i : Nat} {pstTlv pstItem : KamiTlv_S}
    (h : Consistent len pstTlv) (hchild : pstTlv.child[i]? = some pstItem) : Holder len pstTlv := by
  apply h.holder
  obtain ⟨type, type_len, length, obj_type, value, child⟩ := pstTlv
  rintro rfl
  obtain ⟨_, _, rfl⟩ := h
  cases hchild

/-- The bytes of a holder: its children's, behind a header if it is an array. -/
theorem Holder.encode_length {len : Nat} (hlen : len = 1 ∨ len = 2) {pstTlv : KamiTlv_S}
    (h : Holder len pstTlv) :
    (encode pstTlv).length =
      (if pstTlv.obj_type = .KamiTlv_Array then len + 2 else 0) + (encodeAll pstTlv.child).length := by
  obtain ⟨type, type_len, length, obj_type, value, child⟩ := pstTlv
  obtain ⟨rfl, rfl | rfl, _, _⟩ := h
  · rw [encode, List.length_append, header_bytes_length type hlen, if_pos rfl]
  · rw [encode, if_neg nofun, Nat.zero_add]

/-- What attaching an item adds to a length is what it prints as. -/
theorem usIncLength_eq {len : Nat} (hlen : len = 1 ∨ len = 2) {pstTlv pstItem : KamiTlv_S}
    (htype_len : pstTlv.type_len = len) (h : Consistent len pstItem) :
    usIncLength pstTlv pstItem = UInt16.ofNat (encode pstItem).length := by
  obtain ⟨type, type_len, length, obj_type, value, child⟩ := pstItem
  obtain ⟨rfl, h⟩ := h
  cases obj_type with
  | KamiTlv_Invalid => exact h.elim
  | KamiTlv_Tlv =>
    rw [encode, List.length_append, header_bytes_length type hlen, h.1]
    change UInt16.ofNat (pstTlv.type_len + 2 + length.toNat) = _
    rw [htype_len]
  | KamiTlv_Object => exact h.1
  | KamiTlv_Array =>
    rw [encode, List.length_append, header_bytes_length type hlen]
    change UInt16.ofNat (pstTlv.type_len + 2 + length.toNat) = _
    rw [htype_len, UInt16.ofNat_add, UInt16.ofNat_toNat, h.1, ← UInt16.ofNat_add]

/-- What a node looks like after items were attached to it or below it. -/
structure Grown (len : Nat) (pstTlv : KamiTlv_S) (n : Nat) (pstTlv' : KamiTlv_S) : Prop where
  holder : Holder len pstTlv'
  obj_type : pstTlv'.obj_type = pstTlv.obj_type
  size : (encode pstTlv').length = (encode pstTlv).length + n

/-- A holder whose children print as `n` bytes more, and whose length says so. -/
theorem Holder.grown {len n : Nat} (hlen : len = 1 ∨ len = 2) {pstTlv : KamiTlv_S}
    (h : Holder len pstTlv) {child : List KamiTlv_S} (hchild : ConsistentAll len child)
    (hsize : (encodeAll child).length = (encodeAll pstTlv.child).length + n) :
    Grown len pstTlv n { pstTlv with child, length := pstTlv.length + UInt16.ofNat n } := by
  have hholder : Holder len { pstTlv with child, length := pstTlv.length + UInt16.ofNat n } := by
    refine ⟨h.type_len, h.obj_type, ?_, hchild⟩
    change pstTlv.length + UInt16.ofNat n = UInt16.ofNat (encodeAll child).length
    rw [hsize, UInt16.ofNat_add, h.length]
  refine ⟨hholder, rfl, ?_⟩
  rw [hholder.encode_length hlen, h.encode_length hlen]
  change (if pstTlv.obj_type = _ then _ else _) + (encodeAll child).length = _
  rw [hsize, Nat.add_assoc]

/-- Replacing a child replaces its bytes. -/
theorem encodeAll_set_length {child : List KamiTlv_S} {i n : Nat} {pstItem pstItem' : KamiTlv_S}
    (hi : child[i]? = some pstItem) (hsize : (encode pstItem').length = (encode pstItem).length + n) :
    (encodeAll (child.set i pstItem')).length = (encodeAll child).length + n := by
  induction child generalizing i with
  | nil => cases hi
  | cons first rest ih =>
    cases i with
    | zero =>
      cases hi
      rw [List.set_cons_zero, encodeAll, encodeAll, List.length_append, List.length_append, hsize]
      omega
    | succ i =>
      rw [List.set_cons_succ, encodeAll, encodeAll, List.length_append, List.length_append, ih hi]
      omega

theorem Kami_Tlv_AddItemToObject_at_grown {len : Nat} (hlen : len = 1 ∨ len = 2) {path : List Nat}
    {pstRoot pstTlv pstItem pstRoot' : KamiTlv_S} {inc : tlv_len} (hroot : Consistent len pstRoot)
    (hitem : Consistent len pstItem) (hnode : node_at path pstRoot = some pstTlv)
    (hleaf : pstTlv.obj_type ≠ .KamiTlv_Tlv)
    (h : Kami_Tlv_AddItemToObject_at path pstRoot pstItem = some (pstRoot', inc)) :
    inc = UInt16.ofNat (encode pstItem).length ∧
      Grown len pstRoot (encode pstItem).length pstRoot' := by
  induction path generalizing pstRoot pstRoot' inc with
  | nil =>
    cases hnode
    cases h
    have hholder := hroot.holder hleaf
    have hinc := usIncLength_eq hlen hholder.type_len hitem
    refine ⟨hinc, ?_⟩
    rw [Kami_Tlv_AddItemToObject, hinc]
    refine hholder.grown hlen ?_ ?_
    · apply consistentAll_iff.mpr
      intro pstChild hmem
      rcases List.mem_append.mp hmem with hmem | hmem
      · exact consistentAll_iff.mp hholder.child pstChild hmem
      · rw [List.mem_singleton.mp hmem]
        exact hitem
    · rw [encodeAll_append, List.length_append, encodeAll, encodeAll, List.append_nil]
  | cons i path ih =>
    obtain ⟨pstChild, hi, hnode⟩ := Option.bind_eq_some_iff.mp hnode
    obtain ⟨pstChild₁, hi₁, h⟩ := Option.bind_eq_some_iff.mp h
    cases hi.symm.trans hi₁
    obtain ⟨⟨pstChild', inc'⟩, hadd, h⟩ := Option.bind_eq_some_iff.mp h
    cases h
    have hholder := hroot.holder_of_child hi
    have hchildren := consistentAll_iff.mp hholder.child
    obtain ⟨rfl, hgrown⟩ := ih (hchildren pstChild (List.mem_of_getElem? hi)) hnode hadd
    refine ⟨rfl, hholder.grown hlen ?_ (encodeAll_set_length hi hgrown.size)⟩
    apply consistentAll_iff.mpr
    intro pstOther hmem
    rcases List.mem_or_eq_of_mem_set hmem with hmem | rfl
    · exact hchildren pstOther hmem
    · exact hgrown.holder.consistent

/-- Every tree that is made with the functions of the library is consistent. -/
theorem Built.consistent {len : Nat} (hlen : len = 1 ∨ len = 2) {pstTlv : KamiTlv_S}
    (h : Built len pstTlv) : Consistent len pstTlv := by
  induction h with
  | object => exact ⟨rfl, rfl, trivial⟩
  | array usType => exact ⟨rfl, rfl, trivial⟩
  | tlv h =>
    obtain ⟨value, hvalue, hok⟩ := bind_eq_ok_iff.mp h
    cases hok
    exact ⟨rfl, readBytes_length hvalue, rfl⟩
  | add path _ _ hnode hleaf hadd hroot hitem =>
    exact (Kami_Tlv_AddItemToObject_at_grown hlen hroot hitem hnode hleaf hadd).2.holder.consistent

end easymesh.tlv_parser
