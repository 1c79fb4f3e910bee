import Easymesh.Tlv.FirstItem
import Easymesh.Tlv.Lengths

open Lib Lib.Result

namespace easymesh.tlv_parser

/-- A TLV that is to be added to an object: its type, its length and the memory that the
value is copied from. -/
abbrev tlv_arg := tlv_type × tlv_len × List UInt8

/-- The bytes that are copied. -/
def tlv_arg.value (arg : tlv_arg) : List UInt8 := arg.2.2.take arg.2.1.toNat

/-- The node that is made for the TLV. -/
def tlv_arg.node (len : Nat) (arg : tlv_arg) : KamiTlv_S :=
  { Kami_Tlv_CreateObject len with
    type := arg.1, length := arg.2.1, value := arg.value, obj_type := .KamiTlv_Tlv }

/-- An object that TLVs and nothing else are added to. -/
structure FlatObject (len : Nat) (args : List tlv_arg) (pstRoot : KamiTlv_S) : Prop where
  built : Built len pstRoot
  obj_type : pstRoot.obj_type = .KamiTlv_Object
  child : pstRoot.child = args.map (tlv_arg.node len)
  inside : ∀ arg ∈ args, arg.2.1.toNat ≤ arg.2.2.length

section Build

variable {len : Nat} {args : List tlv_arg} {arg : tlv_arg} {pstRoot pstRoot' : KamiTlv_S}

theorem flatObject_create (len : Nat) : FlatObject len [] (Kami_Tlv_CreateObject len) :=
  ⟨.object, rfl, rfl, List.forall_mem_nil _⟩

/-- A value that can be copied is there. -/
theorem Kami_Tlv_CreateTlv_arg {pstItem : KamiTlv_S}
    (h : Kami_Tlv_CreateTlv arg.1 arg.2.1 arg.2.2 0 len = ok pstItem) :
    pstItem = arg.node len ∧ arg.2.1.toNat ≤ arg.2.2.length := by
  obtain ⟨value, hvalue, hok⟩ := bind_eq_ok_iff.mp h
  cases hok
  rcases Nat.eq_zero_or_pos arg.2.1.toNat with hzero | hpos
  · rw [hzero, readBytes_zero] at hvalue
    cases hvalue
    refine ⟨?_, hzero ▸ Nat.zero_le _⟩
    rw [tlv_arg.node, tlv_arg.value, hzero, List.take_zero]
  · obtain ⟨-, hin, rfl⟩ := readBytes_eq_ok hpos hvalue
    rw [Int.toNat_zero, Nat.zero_add] at hin
    exact ⟨rfl, hin⟩

theorem FlatObject.add (hflat : FlatObject len args pstRoot)
    (h : Kami_Tlv_AddTlvToObject pstRoot arg.1 arg.2.1 arg.2.2 0 len = ok pstRoot') :
    FlatObject len (args ++ [arg]) pstRoot' := by
  obtain ⟨hbuilt, hobject, hchild, hinside⟩ := hflat
  obtain ⟨pstItem, hcreate, hok⟩ := bind_eq_ok_iff.mp h
  cases hok
  obtain ⟨rfl, hin⟩ := Kami_Tlv_CreateTlv_arg hcreate
  refine ⟨.add [] hbuilt (.tlv hcreate) rfl (by rw [hobject]; exact nofun) rfl, hobject, ?_, ?_⟩
  · rw [List.map_append, ← hchild]
    rfl
  · exact List.forall_mem_append.mpr ⟨hinside, List.forall_mem_singleton.mpr hin⟩

/-- Adding TLVs one after another. -/
theorem FlatObject.adds {more : List tlv_arg} (hflat : FlatObject len args pstRoot)
    (h : more.foldlM (fun pstTlv arg =>
      Kami_Tlv_AddTlvToObject pstTlv arg.1 arg.2.1 arg.2.2 0 len) pstRoot = ok pstRoot') :
    FlatObject len (args ++ more) pstRoot' := by
  induction more generalizing args pstRoot with
  | nil =>
    cases h
    rw [List.append_nil]
    exact hflat
  | cons arg more ih =>
    rw [List.foldlM_cons] at h
    obtain ⟨pstNext, hadd, h⟩ := bind_eq_ok_iff.mp h
    have hall := ih (hflat.add hadd) h
    rw [List.append_assoc] at hall
    exact hall

/-- What is printed of the object is what its TLVs encode to. -/
theorem FlatObject.printed (hlen : len = 1 ∨ len = 2) (hflat : FlatObject len args pstRoot)
    (hsize : (encodeAll (args.map (tlv_arg.node len))).length ≤ 65535) {uninit : Nat → UInt8}
    {pr : Option (List UInt8)} (h : Kami_Tlv_Print uninit pstRoot = ok pr) :
    ∃ more, pr = some (encodeAll (args.map (tlv_arg.node len)) ++ more) ∧
      Kami_Tlv_ObjectLength pstRoot = (encodeAll (args.map (tlv_arg.node len))).length := by
  obtain ⟨hbuilt, hobject, hchild, -⟩ := hflat
  have hcons := hbuilt.consistent hlen
  have hencode := encode_object hobject
  rw [hchild] at hencode
  obtain ⟨more, hprint⟩ := Kami_Tlv_Print_spec uninit hlen hcons (by
    rw [hencode]
    unfold INT_MAX
    omega)
  cases h.symm.trans hprint
  refine ⟨more, by rw [hencode], ?_⟩
  have hholder := hcons.holder (by rw [hobject]; exact nofun)
  rw [Kami_Tlv_ObjectLength, hholder.length_eq hlen (by rw [hencode]; exact hsize), hchild]

end Build

section Read

variable {len : Nat} {args : List tlv_arg}

theorem tlv_arg.value_length {arg : tlv_arg} (h : arg.2.1.toNat ≤ arg.2.2.length) :
    arg.value.length = arg.2.1.toNat := List.length_take_of_le h

/-- Only the bytes that are copied matter. -/
theorem tlv_arg.node_take (len : Nat) (type : tlv_type) (length : tlv_len) (mem : List UInt8) :
    tlv_arg.node len (type, length, mem.take length.toNat) = tlv_arg.node len (type, length, mem) := by
  rw [tlv_arg.node, tlv_arg.node, tlv_arg.value, tlv_arg.value, List.take_take, Nat.min_self]

theorem consistentAll_args (len : Nat) (hinside : ∀ arg ∈ args, arg.2.1.toNat ≤ arg.2.2.length) :
    ConsistentAll len (args.map (tlv_arg.node len)) := by
  rw [consistentAll_iff]
  intro pstItem hmem
  obtain ⟨arg, harg, rfl⟩ := List.mem_map.mp hmem
  exact ⟨rfl, tlv_arg.value_length (hinside arg harg), rfl⟩

theorem level_args (len : Nat) (args : List tlv_arg) :
    level (args.map (tlv_arg.node len)) = args.map (tlv_arg.node len) := by
  induction args with
  | nil => rfl
  | cons arg rest ih =>
    rw [List.map_cons, level, ih]
    rfl

/-- The parser finds the TLVs again, but an empty one at the end. -/
theorem parse_args (hlen : len = 1 ∨ len = 2)
    (hinside : ∀ arg ∈ args, arg.2.1.toNat ≤ arg.2.2.length)
    (hmin : len + 2 ≤ (encodeAll (args.map (tlv_arg.node len))).length)
    (hmax : (encodeAll (args.map (tlv_arg.node len))).length ≤ 65535) :
    ∃ pstRoot, Kami_Tlv_ParseObject (encodeAll (args.map (tlv_arg.node len)))
        (encodeAll (args.map (tlv_arg.node len))).length len = ok (some pstRoot) ∧
      pstRoot.child = (kept (args.map (tlv_arg.node len))).map (parsed len) := by
  obtain ⟨pstRoot, hparse, hchild⟩ :=
    Kami_Tlv_ParseObject_level hlen (consistentAll_args len hinside) hmin hmax []
  rw [List.append_nil] at hparse
  rw [level_args] at hchild
  exact ⟨pstRoot, hparse, hchild⟩

theorem encodeAll_args_length (hlen : len = 1 ∨ len = 2) (args : List tlv_arg) :
    (encodeAll (args.map (tlv_arg.node len))).length =
      (args.map fun arg => len + 2 + arg.value.length).sum := by
  induction args with
  | nil => rfl
  | cons arg rest ih =>
    rw [List.map_cons, encodeAll, List.length_append, ih, List.map_cons, List.sum_cons]
    congr 1
    change (header_bytes arg.1 len arg.2.1 ++ arg.value).length = _
    rw [List.length_append, header_bytes_length _ hlen]

theorem header_le_encodeAll_args (hlen : len = 1 ∨ len = 2) (arg : tlv_arg) (rest : List tlv_arg) :
    len + 2 ≤ (encodeAll ((arg :: rest).map (tlv_arg.node len))).length := by
  rw [encodeAll_args_length hlen, List.map_cons, List.sum_cons]
  omega

end Read

section Attributes

variable {args : List tlv_arg}

/-- The bytes of an item with a two-byte type. -/
theorem encode_attribute (arg : tlv_arg) :
    encode (arg.node 2) = type_bytes arg.1 2 ++ (arg.2.1 >>> 8).toUInt8 :: arg.2.1.toUInt8 ::
      arg.value := by
  change type_bytes arg.1 2 ++ be16 arg.2.1 ++ arg.value = _
  rw [List.append_assoc]
  rfl

theorem completeTlvs_attributes (hinside : ∀ arg ∈ args, arg.2.1.toNat ≤ arg.2.2.length) :
    CompleteTlvs 2 (encodeAll (args.map (tlv_arg.node 2))) := by
  induction args with
  | nil => exact .stop (Nat.zero_le _)
  | cons arg rest ih =>
    obtain ⟨hfirst, hrest⟩ := List.forall_mem_cons.mp hinside
    rw [List.map_cons, encodeAll, encode_attribute, List.append_assoc, List.cons_append,
      List.cons_append]
    refine .tlv (type_bytes_length _ (.inr rfl)) ?_ (ih hrest)
    rw [be16_toNat]
    exact tlv_arg.value_length hfirst

/-- Where no value is empty, the first value of a type among the bytes is that of the
first item of the type. -/
theorem first_value_attributes (usType : tlv_type)
    (hinside : ∀ arg ∈ args, 0 < arg.2.1.toNat ∧ arg.2.1.toNat ≤ arg.2.2.length) :
    first_value usType 0 (encodeAll (args.map (tlv_arg.node 2))) =
      (args.find? fun arg => decide (arg.1 = usType)).map tlv_arg.value := by
  induction args with
  | nil => exact first_value_short (Nat.zero_le _)
  | cons arg rest ih =>
    obtain ⟨⟨hpos, hin⟩, hrest⟩ := List.forall_mem_cons.mp hinside
    have hlength := tlv_arg.value_length hin
    have hmore : arg.value ++ encodeAll (rest.map (tlv_arg.node 2)) ≠ [] := by
      apply List.append_ne_nil_of_left_ne_nil
      exact List.length_pos_iff.mp (by omega)
    rw [List.map_cons, encodeAll, encode_attribute, List.append_assoc, List.cons_append,
      List.cons_append, first_value_header (type_bytes_length _ (.inr rfl)) (by
        rw [be16_toNat]
        exact hlength) hmore, read_type_two, ih hrest]
    by_cases hsame : arg.1 = usType
    · rw [if_pos hsame, List.find?_cons_of_pos (by simpa using hsame)]
      rfl
    · rw [if_neg hsame, List.find?_cons_of_neg (by simpa using hsame)]

end Attributes

end easymesh.tlv_parser
