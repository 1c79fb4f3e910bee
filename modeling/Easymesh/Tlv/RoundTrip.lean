import Easymesh.Tlv.Build
import Easymesh.Tlv.Complete

open Lib Lib.Result Lib.GrowBuffer

namespace easymesh.tlv_parser

/-- What stands behind the header of an item. -/
def content : KamiTlv_S → List UInt8
  | ⟨_, _, _, .KamiTlv_Tlv, value, _⟩ => value
  | ⟨_, _, _, _, _, child⟩ => encodeAll child

mutual

/-- The items that a node puts on the level of its parent: an object is
transparent, so these are the items it holds. -/
def items : KamiTlv_S → List KamiTlv_S
  | ⟨_, _, _, .KamiTlv_Object, _, child⟩ => level child
  | pstItem => [pstItem]

def level : List KamiTlv_S → List KamiTlv_S
  | [] => []
  | pstItem :: rest => items pstItem ++ level rest

end

/-- The items that the parser finds: it takes a last item of length 0 for the end. -/
def kept : List KamiTlv_S → List KamiTlv_S
  | [] => []
  | [pstItem] => if pstItem.length = 0 then [] else [pstItem]
  | pstItem :: pstNext :: rest => pstItem :: kept (pstNext :: rest)

/-- The parser's node for an item. -/
def parsed (len : Nat) (pstItem : KamiTlv_S) : KamiTlv_S :=
  { type := read_type (type_bytes pstItem.type len), type_len := len, length := pstItem.length,
    obj_type := .KamiTlv_Tlv, value := content pstItem, child := [] }

/-- A node that prints as a header and as many bytes as the header announces. -/
structure IsItem (len : Nat) (pstItem : KamiTlv_S) : Prop where
  encode_eq : encode pstItem = header_bytes pstItem.type len pstItem.length ++ content pstItem
  length_eq : (content pstItem).length = pstItem.length.toNat

theorem be16_toNat (x : UInt16) : 256 * ((x >>> 8).toUInt8).toNat + (x.toUInt8).toNat = x.toNat := by
  have hx := x.toNat_lt
  rw [UInt16.toNat_toUInt8, UInt16.toNat_toUInt8, UInt16.toNat_shiftRight,
    Nat.shiftRight_eq_div_pow, show 2 ^ ((8 : UInt16).toNat % 16) = 256 from rfl]
  omega

theorem Kami_Tlv_AddTlvToObject_at {mem rest : List UInt8} {off len : Nat} {pstItem : KamiTlv_S}
    (hitem : IsItem len pstItem) (hmem : mem.drop off = content pstItem ++ rest)
    (hoff : off ≤ mem.length) (pstRoot : KamiTlv_S) :
    Kami_Tlv_AddTlvToObject pstRoot (read_type (type_bytes pstItem.type len)) pstItem.length mem off
      len = ok (Kami_Tlv_AddItemToObject pstRoot (parsed len pstItem)) := by
  have hread : readBytes mem off pstItem.length.toNat = ok (content pstItem) := by
    have hmiddle := readBytes_middle (mem.take off) (content pstItem) rest
    rw [← hmem, List.take_append_drop, List.length_take_of_le hoff, hitem.length_eq] at hmiddle
    exact hmiddle
  rw [Kami_Tlv_AddTlvToObject, Kami_Tlv_CreateTlv, hread, ok_bind]
  rfl

theorem IsItem.split {len : Nat} {pstItem : KamiTlv_S} (h : IsItem len pstItem) (rest : List UInt8) :
    encode pstItem ++ rest = type_bytes pstItem.type len ++
      (pstItem.length >>> 8).toUInt8 :: pstItem.length.toUInt8 :: (content pstItem ++ rest) := by
  rw [h.encode_eq, header_bytes, be16]
  simp only [List.append_assoc, List.cons_append, List.nil_append]

theorem IsItem.length_pos {len : Nat} {pstItem : KamiTlv_S} (hlen : len = 1 ∨ len = 2)
    (h : IsItem len pstItem) : 0 < (encode pstItem).length := by
  rw [h.encode_eq, List.length_append, header_bytes_length _ hlen]
  omega

/-- An item is kept unless it is empty and the last one. -/
theorem kept_cons {len : Nat} (hlen : len = 1 ∨ len = 2) {pstItem : KamiTlv_S}
    {rest : List KamiTlv_S} (hitem : IsItem len pstItem) (hitems : ∀ pstNext ∈ rest, IsItem len pstNext) :
    kept (pstItem :: rest) =
      if content pstItem ++ (rest.map encode).flatten = [] then [] else pstItem :: kept rest := by
  cases rest with
  | nil =>
    change (if pstItem.length = 0 then [] else [pstItem]) = _
    rw [List.map_nil, List.flatten_nil, List.append_nil]
    have hiff : pstItem.length = 0 ↔ content pstItem = [] := by
      rw [← List.length_eq_zero_iff, hitem.length_eq, ← UInt16.toNat_inj]
      rfl
    by_cases hzero : pstItem.length = 0
    · rw [if_pos hzero, if_pos (hiff.mp hzero)]
    · rw [if_neg hzero, if_neg (fun h => hzero (hiff.mpr h))]
      rfl
  | cons pstNext rest =>
    have hpos := (hitems pstNext (List.mem_cons_self ..)).length_pos hlen
    rw [kept, if_neg]
    intro hnil
    have hlength := congrArg List.length hnil
    simp only [List.map_cons, List.flatten_cons, List.length_append, List.length_nil] at hlength
    omega

/-- The loop of the parser over printed items, from any of them on. -/
theorem loop_items {mem : List UInt8} {len : Nat} (hlen : len = 1 ∨ len = 2)
    (hint : mem.length ≤ INT_MAX) {list : List KamiTlv_S} (hitems : ∀ pstItem ∈ list, IsItem len pstItem)
    {fuel off : Nat} (pstRoot : KamiTlv_S) (hoff : off ≤ mem.length)
    (hmem : mem.drop off = (list.map encode).flatten) (hfuel : list.length < fuel) :
    ∃ pstRoot', Kami_Tlv_ParseObject.loop mem mem.length len fuel off pstRoot = ok pstRoot' ∧
      pstRoot'.child = pstRoot.child ++ (kept list).map (parsed len) := by
  induction list generalizing fuel off pstRoot with
  | nil =>
    obtain ⟨fuel, rfl⟩ := Nat.exists_eq_succ_of_ne_zero (Nat.ne_of_gt hfuel)
    have hsize := congrArg List.length hmem
    rw [List.length_drop] at hsize
    refine ⟨pstRoot, loop_stop fuel pstRoot hint hoff ?_, (List.append_nil _).symm⟩
    rw [hsize]
    exact Nat.zero_le _
  | cons pstItem rest ih =>
    obtain ⟨fuel, rfl⟩ := Nat.exists_eq_succ_of_ne_zero (Nat.ne_of_gt (Nat.zero_lt_of_lt hfuel))
    have hitem := hitems pstItem (List.mem_cons_self ..)
    have hrest := fun pstNext hmem => hitems pstNext (List.mem_cons_of_mem pstItem hmem)
    have htype := type_bytes_length pstItem.type hlen
    rw [List.map_cons, List.flatten_cons, hitem.split] at hmem
    rw [kept_cons hlen hitem hrest]
    have hsize := congrArg List.length hmem
    simp only [List.length_drop, List.length_append, List.length_cons, htype] at hsize
    by_cases hend : content pstItem ++ (rest.map encode).flatten = []
    · rw [if_pos hend]
      rw [← List.length_append, hend] at hsize
      refine ⟨pstRoot, loop_stop fuel pstRoot hint hoff ?_, (List.append_nil _).symm⟩
      rw [hsize]
      exact le_rfl
    · have hvalue : mem.drop (off + len + 2) = content pstItem ++ (rest.map encode).flatten := by
        have hsplit : mem.drop (off + (len + 2)) = (mem.drop off).drop (len + 2) := List.drop_drop.symm
        rw [Nat.add_assoc, hsplit, hmem, ← List.drop_drop, List.drop_left' htype]
        rfl
      have hnext : mem.drop (off + len + 2 + pstItem.length.toNat) = (rest.map encode).flatten := by
        rw [← List.drop_drop, hvalue, ← hitem.length_eq, List.drop_left]
      have hlength := hitem.length_eq
      have hin : off + len + 2 + pstItem.length.toNat ≤ mem.length := by omega
      have hat : off + len + 2 ≤ mem.length := by omega
      have hwrap : wrap32 ((off + len + 2 : Nat) + (pstItem.length.toNat : Nat)) =
          (off + len + 2 + pstItem.length.toNat : Nat) := by
        unfold INT_MAX at hint
        rw [wrap32_eq (by omega) (by omega)]
        exact (Int.natCast_add _ _).symm
      obtain ⟨pstRoot', hloop, hchild⟩ :=
        ih hrest (Kami_Tlv_AddItemToObject pstRoot (parsed len pstItem)) hin hnext
          (Nat.lt_of_succ_lt_succ hfuel)
      refine ⟨pstRoot', ?_, ?_⟩
      · have hmore := List.length_pos_iff.mpr hend
        rw [List.length_append] at hmore
        rw [loop_header fuel pstRoot hlen htype (by omega) hmem hint, be16_toNat, UInt16.ofNat_toNat,
          Kami_Tlv_AddTlvToObject_at hitem hvalue hat, ok_bind, hwrap]
        exact hloop
      · rw [hchild, if_neg hend, List.map_cons, Kami_Tlv_AddItemToObject, List.append_assoc]
        rfl

mutual

/-- The items of a node print as the node does, and are items indeed where 16
bits count their bytes. -/
theorem items_spec {len : Nat} :
    ∀ {pstItem : KamiTlv_S}, Consistent len pstItem → (encode pstItem).length ≤ 65535 →
      encode pstItem = ((items pstItem).map encode).flatten ∧
        ∀ i ∈ items pstItem, IsItem len i ∧ Consistent len i
  | ⟨type, type_len, length, .KamiTlv_Tlv, value, child⟩, h, _ => by
    refine ⟨(List.append_nil _).symm, fun i hi => ?_⟩
    rw [List.mem_singleton.mp hi]
    refine ⟨⟨?_, h.2.1⟩, h⟩
    rw [encode, h.1, content]
  | ⟨type, type_len, length, .KamiTlv_Array, value, child⟩, h, hsize => by
    refine ⟨(List.append_nil _).symm, fun i hi => ?_⟩
    rw [List.mem_singleton.mp hi]
    rw [encode, List.length_append] at hsize
    refine ⟨⟨?_, ?_⟩, h⟩
    · rw [encode, h.1]
      rfl
    · change (encodeAll child).length = length.toNat
      rw [h.2.1, UInt16.toNat_ofNat_of_lt' (by rw [UInt16.size]; omega)]
  | ⟨type, type_len, length, .KamiTlv_Object, value, child⟩, h, hsize => level_spec h.2.2 hsize
  | ⟨type, type_len, length, .KamiTlv_Invalid, value, child⟩, h, _ => h.2.elim

theorem level_spec {len : Nat} :
    ∀ {child : List KamiTlv_S}, ConsistentAll len child → (encodeAll child).length ≤ 65535 →
      encodeAll child = ((level child).map encode).flatten ∧
        ∀ i ∈ level child, IsItem len i ∧ Consistent len i
  | [], _, _ => ⟨rfl, nofun⟩
  | pstItem :: rest, h, hsize => by
    rw [encodeAll, List.length_append] at hsize
    obtain ⟨hfirst, hitems⟩ := items_spec h.1 (by omega)
    obtain ⟨hrest, hlevel⟩ := level_spec h.2 (by omega)
    refine ⟨?_, fun i hi => ?_⟩
    · rw [encodeAll, level, List.map_append, List.flatten_append, ← hfirst, ← hrest]
    · rcases List.mem_append.mp hi with hi | hi
      · exact hitems i hi
      · exact hlevel i hi

end

theorem length_le_flatten {len : Nat} (hlen : len = 1 ∨ len = 2) {list : List KamiTlv_S}
    (hitems : ∀ i ∈ list, IsItem len i) : list.length ≤ (list.map encode).flatten.length := by
  induction list with
  | nil => exact le_rfl
  | cons pstItem rest ih =>
    have hpos := (hitems pstItem (List.mem_cons_self ..)).length_pos hlen
    have hrest := ih fun i hi => hitems i (List.mem_cons_of_mem _ hi)
    rw [List.map_cons, List.flatten_cons, List.length_append, List.length_cons]
    omega

/-- Parsing what the children of a node print as gives the items of their level. -/
theorem Kami_Tlv_ParseObject_level {len : Nat} (hlen : len = 1 ∨ len = 2) {child : List KamiTlv_S}
    (hcons : ConsistentAll len child) (hmin : len + 2 ≤ (encodeAll child).length)
    (hmax : (encodeAll child).length ≤ 65535) (more : List UInt8) :
    ∃ pstRoot, Kami_Tlv_ParseObject (encodeAll child ++ more) (encodeAll child).length len =
        ok (some pstRoot) ∧ pstRoot.child = (kept (level child)).map (parsed len) := by
  obtain ⟨hbytes, hlevel⟩ := level_spec hcons hmax
  have hitems := fun i hi => (hlevel i hi).1
  have hint : (encodeAll child).length ≤ INT_MAX := by
    unfold INT_MAX
    omega
  have hfuel : (level child).length < (encodeAll child).length + 1 := by
    have hcount := length_le_flatten hlen hitems
    rw [← hbytes] at hcount
    omega
  obtain ⟨pstRoot, hloop, hchild⟩ := loop_items hlen hint hitems (Kami_Tlv_CreateObject len)
    (Nat.zero_le _) (by rw [List.drop_zero]; exact hbytes) hfuel
  refine ⟨pstRoot, Kami_Tlv_ParseObject_append more ?_, hchild⟩
  have hguard : (toSize ((encodeAll child).length : Int) : Int) = (encodeAll child).length :=
    toSize_of_nonneg (Int.natCast_nonneg _) (by omega)
  rw [Kami_Tlv_ParseObject, if_neg (by omega)]
  rw [Int.natCast_zero] at hloop
  rw [hloop, map_ok]

/-- The parser's node says of an item what the item says: its type, its length
and its value, which for an array is what its children print as. -/
structure SameItem (pstItem pstParsed : KamiTlv_S) : Prop where
  type : pstParsed.type = pstItem.type
  length : pstParsed.length = pstItem.length
  value : if pstItem.obj_type = .KamiTlv_Tlv then pstParsed.value = pstItem.value
    else Emits (Kami_Tlv_PrintObject pstItem.child) pstParsed.value

theorem Consistent.value {len : Nat} (hlen : len = 1 ∨ len = 2) {pstItem : KamiTlv_S}
    (h : Consistent len pstItem) :
    if pstItem.obj_type = .KamiTlv_Tlv then content pstItem = pstItem.value
    else Emits (Kami_Tlv_PrintObject pstItem.child) (content pstItem) := by
  obtain ⟨type, type_len, length, obj_type, value, child⟩ := pstItem
  obtain ⟨_, h⟩ := h
  cases obj_type with
  | KamiTlv_Tlv => exact rfl
  | KamiTlv_Array => exact Kami_Tlv_PrintObject_emits hlen h.2
  | KamiTlv_Object => exact Kami_Tlv_PrintObject_emits hlen h.2
  | KamiTlv_Invalid => exact h.elim

section Nested

/-- `iLength` bytes of `mem` parse to the items of the level that `child` makes up,
apart from a last one of length 0, and so on with the value of each array. -/
inductive Recovers : List KamiTlv_S → List UInt8 → Int → Prop
  | level {child : List KamiTlv_S} {mem : List UInt8} {iLength : Int} {pstRoot : KamiTlv_S}
      (hparse : Kami_Tlv_ParseObject mem iLength 2 = ok (some pstRoot))
      (hitems : List.Forall₂ SameItem (kept (level child)) pstRoot.child)
      (hnext : ∀ pair ∈ (kept (level child)).zip pstRoot.child,
        pair.1.obj_type = .KamiTlv_Array → pair.1.length ≠ 0 →
          Recovers pair.1.child pair.2.value pair.2.length.toNat) :
      Recovers child mem iLength

theorem mem_of_mem_kept {i : KamiTlv_S} {list : List KamiTlv_S} (h : i ∈ kept list) : i ∈ list := by
  induction list with
  | nil => exact h
  | cons pstItem rest ih =>
    cases rest with
    | nil =>
      change i ∈ (if pstItem.length = 0 then [] else [pstItem]) at h
      split at h
      · cases h
      · exact h
    | cons pstNext rest =>
      rcases List.mem_cons.mp h with rfl | h
      · exact List.mem_cons_self ..
      · exact List.mem_cons_of_mem _ (ih h)

theorem read_type_two (type : tlv_type) : read_type (type_bytes type 2) = type := by
  change UInt16.ofNat (256 * ((type >>> 8).toUInt8).toNat + (type.toUInt8).toNat) = type
  rw [be16_toNat, UInt16.ofNat_toNat]

theorem sameItem_two {pstItem : KamiTlv_S} (h : Consistent 2 pstItem) :
    SameItem pstItem (parsed 2 pstItem) :=
  ⟨read_type_two pstItem.type, rfl, h.value (.inr rfl)⟩

/-- An item's own bytes are fewer than those of the level it is on. -/
theorem encode_length_le {i : KamiTlv_S} {list : List KamiTlv_S} (hi : i ∈ list) :
    (encode i).length ≤ (list.map encode).flatten.length :=
  (List.sublist_flatten_of_mem (List.mem_map_of_mem hi)).length_le

/-- Bytes of a level, if there are any, are at least one header. -/
theorem level_length {len : Nat} (hlen : len = 1 ∨ len = 2) {child : List KamiTlv_S}
    (hcons : ConsistentAll len child) (hmax : (encodeAll child).length ≤ 65535)
    (hne : (encodeAll child).length ≠ 0) : len + 2 ≤ (encodeAll child).length := by
  obtain ⟨hbytes, hlevel⟩ := level_spec hcons hmax
  cases hlist : level child with
  | nil =>
    rw [hbytes, hlist] at hne
    exact absurd rfl hne
  | cons pstItem rest =>
    rw [hlist] at hbytes hlevel
    have hitem := (hlevel pstItem (List.mem_cons_self ..)).1
    have hle := encode_length_le (List.mem_cons_self (a := pstItem) (l := rest))
    rw [← hbytes, hitem.encode_eq, List.length_append, header_bytes_length _ hlen] at hle
    omega

theorem mem_zip_map {α β : Type} {f : α → β} {list : List α} {pair : α × β}
    (h : pair ∈ list.zip (list.map f)) : pair.1 ∈ list ∧ pair.2 = f pair.1 := by
  induction list with
  | nil => cases h
  | cons a rest ih =>
    rw [List.map_cons, List.zip_cons_cons] at h
    rcases List.mem_cons.mp h with rfl | h
    · exact ⟨List.mem_cons_self .., rfl⟩
    · exact ⟨List.mem_cons_of_mem _ (ih h).1, (ih h).2⟩

/-- An array of a consistent tree: its value is what its children print as. -/
theorem Consistent.array {len : Nat} {i : KamiTlv_S} (h : Consistent len i)
    (harray : i.obj_type = .KamiTlv_Array) :
    content i = encodeAll i.child ∧ ConsistentAll len i.child := by
  obtain ⟨type, type_len, length, obj_type, value, child⟩ := i
  cases harray
  exact ⟨rfl, h.2.2⟩

/-- By induction on the number of bytes: the value of an array is shorter than the
level that the array is on. -/
theorem recovers_of_consistent {child : List KamiTlv_S} (hcons : ConsistentAll 2 child)
    (hmin : 4 ≤ (encodeAll child).length) (hmax : (encodeAll child).length ≤ 65535)
    (more : List UInt8) : Recovers child (encodeAll child ++ more) (encodeAll child).length := by
  induction hn : (encodeAll child).length using Nat.strong_induction_on generalizing child more with
  | _ n ih =>
    obtain ⟨pstRoot, hparse, hchild⟩ := Kami_Tlv_ParseObject_level (.inr rfl) hcons hmin hmax more
    obtain ⟨hbytes, hlevel⟩ := level_spec hcons hmax
    rw [hn] at hparse
    refine .level hparse ?_ fun pair hpair harray hlength => ?_
    · rw [hchild, List.forall₂_map_right_iff, List.forall₂_same]
      exact fun i hi => sameItem_two (hlevel i (mem_of_mem_kept hi)).2
    · rw [hchild] at hpair
      obtain ⟨hmem, hparsed⟩ := mem_zip_map hpair
      obtain ⟨hitem, hitemcons⟩ := hlevel pair.1 (mem_of_mem_kept hmem)
      obtain ⟨hcontent, hchildren⟩ := hitemcons.array harray
      have hle := encode_length_le (mem_of_mem_kept hmem)
      rw [← hbytes, hitem.encode_eq, List.length_append, header_bytes_length _ (.inr rfl),
        hcontent] at hle
      have hlength_eq := hitem.length_eq
      rw [hcontent] at hlength_eq
      have hne : pair.1.length.toNat ≠ 0 := fun hzero => hlength (UInt16.toNat_inj.mp hzero)
      have hinner := ih (encodeAll pair.1.child).length (by omega) hchildren
        (level_length (.inr rfl) hchildren (by omega) (by omega)) (by omega) [] rfl
      rw [List.append_nil, ← hcontent, hitem.length_eq] at hinner
      rw [hparsed]
      exact hinner

/-- A tree of two-byte types whose root is an object: the printed block parses,
level by level, to the items of the tree. -/
theorem Kami_Tlv_Print_recovers (uninit : Nat → UInt8) {pstRoot : KamiTlv_S}
    (hbuilt : Built 2 pstRoot) (hroot : pstRoot.obj_type = .KamiTlv_Object)
    (hmin : 4 ≤ (encode pstRoot).length) (hmax : (encode pstRoot).length ≤ 65535) :
    ∃ printed, Kami_Tlv_Print uninit pstRoot = ok (some printed) ∧
      Recovers pstRoot.child printed (Kami_Tlv_ObjectLength pstRoot) := by
  have hcons := hbuilt.consistent (.inr rfl)
  have hholder := hcons.holder (by rw [hroot]; exact nofun)
  obtain ⟨more, hprint⟩ := Kami_Tlv_Print_spec uninit (.inr rfl) hcons
    (by unfold INT_MAX; omega)
  obtain ⟨type, type_len, length, obj_type, value, child⟩ := pstRoot
  cases hroot
  have hlength : Kami_Tlv_ObjectLength ⟨type, type_len, length, .KamiTlv_Object, value, child⟩ =
      (encodeAll child).length := by
    have hfield : length = UInt16.ofNat (encodeAll child).length := hholder.length
    change length.toNat = _
    rw [hfield]
    exact UInt16.toNat_ofNat_of_lt' (Nat.lt_succ_of_le hmax)
  refine ⟨_, hprint, ?_⟩
  rw [hlength]
  exact recovers_of_consistent hholder.child hmin hmax more

/-- An array in an array in an object: the outer array is attached to the root
before the inner one and the items are attached to them. -/
def nested_array : Option KamiTlv_S := do
  let pstTlv := { Kami_Tlv_CreateObject 2 with
    type := 1, length := 2, value := [0x61, 0x00], obj_type := .KamiTlv_Tlv }
  let (pstRoot, _) ← Kami_Tlv_AddItemToObject_at [] (Kami_Tlv_CreateObject 2) (Kami_Tlv_CreateArray 16 2)
  let (pstRoot, _) ← Kami_Tlv_AddItemToObject_at [0] pstRoot (Kami_Tlv_CreateArray 17 2)
  let (pstRoot, _) ← Kami_Tlv_AddItemToObject_at [0, 0] pstRoot pstTlv
  let (pstRoot, _) ← Kami_Tlv_AddItemToObject_at [0] pstRoot pstTlv
  some pstRoot

theorem nested_array_built : ∃ pstRoot, nested_array = some pstRoot ∧ Built 2 pstRoot ∧
    pstRoot.obj_type = .KamiTlv_Object ∧ (encode pstRoot).length = 20 := by
  have htlv : Built 2 { Kami_Tlv_CreateObject 2 with
      type := 1, length := 2, value := [0x61, 0x00], obj_type := .KamiTlv_Tlv } :=
    @Built.tlv 2 1 2 [0x61, 0x00] 0 _ rfl
  have harray : Built 2 _ := .add [] .object (.array 16) rfl nofun rfl
  have harrays : Built 2 _ := .add [0] harray (.array 17) rfl nofun rfl
  have hinner : Built 2 _ := .add [0, 0] harrays htlv rfl nofun rfl
  exact ⟨_, rfl, .add [0] hinner htlv rfl nofun rfl, rfl, by decide⟩

theorem Kami_Tlv_Print_recovers_nested :
    ∃ pstRoot printed, nested_array = some pstRoot ∧
      Kami_Tlv_Print (fun _ => 0) pstRoot = ok (some printed) ∧
      Recovers pstRoot.child printed (Kami_Tlv_ObjectLength pstRoot) := by
  obtain ⟨pstRoot, hroot, hbuilt, hobject, hsize⟩ := nested_array_built
  obtain ⟨printed, hprinted, hrecovers⟩ :=
    Kami_Tlv_Print_recovers (fun _ => 0) hbuilt hobject (by omega) (by omega)
  exact ⟨pstRoot, printed, hroot, hprinted, hrecovers⟩

end Nested

section Flat

/-- An object of one-byte types made by adding TLVs to it one after another. -/
def flat_object (list : List (tlv_type × List UInt8)) : Result KamiTlv_S :=
  list.foldlM (fun pstRoot (usType, value) =>
    Kami_Tlv_AddTlvToObject pstRoot usType (UInt16.ofNat value.length) value 0 1)
    (Kami_Tlv_CreateObject 1)

/-- The printed object parses to the same items, in which the same item is found. -/
def RoundTrips (uninit : Nat → UInt8) (pstRoot : KamiTlv_S) : Prop :=
  ∃ printed pstParsed, Kami_Tlv_Print uninit pstRoot = ok (some printed) ∧
    Kami_Tlv_ParseObject printed (Kami_Tlv_ObjectLength pstRoot) 1 = ok (some pstParsed) ∧
    List.Forall₂ SameItem pstRoot.child pstParsed.child ∧
    ∀ usType idx, Option.Rel SameItem (Kami_Tlv_GetObjectItem pstRoot usType idx)
      (Kami_Tlv_GetObjectItem pstParsed usType idx)

/-- Lists of the same items are searched with the same result. -/
theorem GetObjectItem_rel {as bs : List KamiTlv_S} (h : List.Forall₂ SameItem as bs)
    (usType : tlv_type) (idx : Int) :
    Option.Rel SameItem (Kami_Tlv_GetObjectItem.loop usType as idx)
      (Kami_Tlv_GetObjectItem.loop usType bs idx) := by
  induction h generalizing idx with
  | nil => exact .none
  | @cons a b as bs hab _ ih =>
    rw [Kami_Tlv_GetObjectItem.loop, Kami_Tlv_GetObjectItem.loop, hab.type]
    split
    · split
      · exact .some hab
      · exact ih (idx - 1)
    · exact ih idx

theorem sign_extend_iff (n : Fin 256) :
    (UInt8.ofNat n.val).toInt8.toInt16.toUInt16 = UInt16.ofNat n.val ↔ n.val < 128 := by
  revert n
  decide +kernel

/-- The parser's sign extension keeps a type byte below 0x80 and no other. -/
theorem read_type_one_iff {type : tlv_type} (hbyte : type.toNat ≤ 255) :
    read_type (type_bytes type 1) = type ↔ type.toNat < 128 := by
  have hiff := sign_extend_iff ⟨type.toNat, by omega⟩
  have hlow : UInt8.ofNat type.toNat = type.toUInt8 := by
    apply UInt8.toNat_inj.mp
    rw [UInt8.toNat_ofNat', UInt16.toNat_toUInt8]
  rw [UInt16.ofNat_toNat, hlow] at hiff
  exact hiff

/-- The node of a TLV of `flat_object`. -/
def tlv_node (item : tlv_type × List UInt8) : KamiTlv_S :=
  { Kami_Tlv_CreateObject 1 with
    type := item.1, length := UInt16.ofNat item.2.length, value := item.2, obj_type := .KamiTlv_Tlv }

theorem Kami_Tlv_CreateTlv_node {item : tlv_type × List UInt8} (hsize : item.2.length ≤ 65535) :
    Kami_Tlv_CreateTlv item.1 (UInt16.ofNat item.2.length) item.2 0 1 = ok (tlv_node item) := by
  have hread : readBytes item.2 0 (UInt16.ofNat item.2.length).toNat = ok item.2 := by
    rw [UInt16.toNat_ofNat_of_lt' (Nat.lt_succ_of_le hsize)]
    exact readBytes_front (List.append_nil _).symm
  rw [Kami_Tlv_CreateTlv, hread, ok_bind]
  rfl

/-- Adding TLVs to an object appends their nodes. -/
theorem flat_object_from {list : List (tlv_type × List UInt8)} {pstRoot : KamiTlv_S}
    (hsize : ∀ item ∈ list, item.2.length ≤ 65535) (hbuilt : Built 1 pstRoot)
    (hobject : pstRoot.obj_type = .KamiTlv_Object) :
    ∃ pstRoot', list.foldlM (fun pstRoot (usType, value) =>
        Kami_Tlv_AddTlvToObject pstRoot usType (UInt16.ofNat value.length) value 0 1) pstRoot =
          ok pstRoot' ∧ Built 1 pstRoot' ∧ pstRoot'.obj_type = .KamiTlv_Object ∧
        pstRoot'.child = pstRoot.child ++ list.map tlv_node := by
  induction list generalizing pstRoot with
  | nil => exact ⟨pstRoot, rfl, hbuilt, hobject, (List.append_nil _).symm⟩
  | cons item rest ih =>
    have hnode := Kami_Tlv_CreateTlv_node (hsize item (List.mem_cons_self ..))
    have hnext : Built 1 (Kami_Tlv_AddItemToObject pstRoot (tlv_node item)) :=
      .add [] hbuilt (.tlv hnode) rfl (by rw [hobject]; exact nofun) rfl
    obtain ⟨pstRoot', hfold, hbuilt', hobject', hchild⟩ :=
      ih (fun i hi => hsize i (List.mem_cons_of_mem _ hi)) hnext hobject
    have hadd : Kami_Tlv_AddTlvToObject pstRoot item.1 (UInt16.ofNat item.2.length) item.2 0 1 =
        ok (Kami_Tlv_AddItemToObject pstRoot (tlv_node item)) := by
      rw [Kami_Tlv_AddTlvToObject, hnode, ok_bind]
    refine ⟨pstRoot', ?_, hbuilt', hobject', ?_⟩
    · rw [List.foldlM_cons]
      change Kami_Tlv_AddTlvToObject pstRoot item.1 (UInt16.ofNat item.2.length) item.2 0 1 >>= _ = _
      rw [hadd, ok_bind]
      exact hfold
    · rw [hchild, List.map_cons, Kami_Tlv_AddItemToObject, List.append_assoc]
      rfl

theorem level_nodes (list : List (tlv_type × List UInt8)) :
    level (list.map tlv_node) = list.map tlv_node := by
  induction list with
  | nil => rfl
  | cons item rest ih =>
    rw [List.map_cons, level, ih]
    rfl

theorem kept_eq_self {list : List KamiTlv_S} (h : ∀ last ∈ list.getLast?, last.length ≠ 0) :
    kept list = list := by
  induction list with
  | nil => rfl
  | cons pstItem rest ih =>
    cases rest with
    | nil => exact if_neg (h pstItem rfl)
    | cons pstNext rest =>
      rw [kept, ih]
      intro last hlast
      exact h last (by rw [List.getLast?_cons_cons]; exact hlast)

theorem encodeAll_nodes_length (list : List (tlv_type × List UInt8)) :
    (encodeAll (list.map tlv_node)).length = (list.map fun item => 3 + item.2.length).sum := by
  induction list with
  | nil => rfl
  | cons item rest ih =>
    rw [List.map_cons, encodeAll, List.length_append, ih, List.map_cons, List.sum_cons]
    congr 1
    change (header_bytes item.1 1 (UInt16.ofNat item.2.length) ++ item.2).length = _
    rw [List.length_append, header_bytes_length _ (.inl rfl)]

theorem sameItem_one_iff {item : tlv_type × List UInt8} (hbyte : item.1.toNat ≤ 255) :
    SameItem (tlv_node item) (parsed 1 (tlv_node item)) ↔ item.1.toNat < 128 := by
  rw [← read_type_one_iff hbyte]
  exact ⟨fun h => h.type, fun h => ⟨h, rfl, rfl⟩⟩

theorem encode_object {pstRoot : KamiTlv_S} (hobject : pstRoot.obj_type = .KamiTlv_Object) :
    encode pstRoot = encodeAll pstRoot.child := by
  obtain ⟨type, type_len, length, obj_type, value, child⟩ := pstRoot
  cases hobject
  rfl

/-- The loop stops at an empty last item only, so a flat object is kept whole. -/
theorem kept_nodes {list : List (tlv_type × List UInt8)} {last : tlv_type × List UInt8}
    (hlast : list.getLast? = some last) (hvalue : last.2 ≠ []) (hlength : last.2.length ≤ 65535) :
    kept (level (list.map tlv_node)) = list.map tlv_node := by
  rw [level_nodes]
  apply kept_eq_self
  rw [List.getLast?_map, hlast]
  intro pstLast hpstLast
  cases hpstLast
  intro hzero
  have hpos := List.length_pos_iff.mpr hvalue
  have hnat := congrArg UInt16.toNat hzero
  change (UInt16.ofNat last.2.length).toNat = 0 at hnat
  rw [UInt16.toNat_ofNat_of_lt' (by rw [UInt16.size]; omega)] at hnat
  omega

/-- A flat object of TLVs with one-byte types, the last of them not empty, comes
back from the parser as it was exactly when all its types are below 0x80. -/
theorem flat_object_round_trips_iff (uninit : Nat → UInt8) {list : List (tlv_type × List UInt8)}
    {last : tlv_type × List UInt8} (hbyte : ∀ item ∈ list, item.1.toNat ≤ 255)
    (hsize : (list.map fun item => 3 + item.2.length).sum ≤ 65535)
    (hlast : list.getLast? = some last) (hvalue : last.2 ≠ []) :
    ∃ pstRoot, flat_object list = ok pstRoot ∧
      (RoundTrips uninit pstRoot ↔ ∀ item ∈ list, item.1.toNat < 128) := by
  have hmem := List.mem_of_getLast? hlast
  have hvalues : ∀ item ∈ list, item.2.length ≤ 65535 := by
    intro item hitem
    have hle := List.le_sum_of_mem (List.mem_map_of_mem (f := fun item => 3 + item.2.length) hitem)
    omega
  obtain ⟨pstRoot, hfold, hbuilt, hobject, hchild⟩ := flat_object_from hvalues .object rfl
  have hnodes : pstRoot.child = list.map tlv_node := hchild
  refine ⟨pstRoot, hfold, ?_⟩
  have hcons := hbuilt.consistent (.inl rfl)
  have hholder := hcons.holder (by rw [hobject]; exact nofun)
  have hencode := encode_object hobject
  have htotal := encodeAll_nodes_length list
  rw [← hnodes] at htotal
  have hlong : 3 ≤ (encodeAll pstRoot.child).length := by
    have hle := List.le_sum_of_mem (List.mem_map_of_mem (f := fun item => 3 + item.2.length) hmem)
    omega
  obtain ⟨more, hprint⟩ := Kami_Tlv_Print_spec uninit (.inl rfl) hcons
    (by rw [hencode]; unfold INT_MAX; omega)
  obtain ⟨pstParsed, hparse, hparsed⟩ :=
    Kami_Tlv_ParseObject_level (.inl rfl) hholder.child hlong (by omega) more
  have hlength : Kami_Tlv_ObjectLength pstRoot = (encodeAll pstRoot.child).length := by
    rw [Kami_Tlv_ObjectLength, hholder.length]
    exact UInt16.toNat_ofNat_of_lt' (by rw [UInt16.size]; omega)
  have hkept : kept (level pstRoot.child) = list.map tlv_node := by
    rw [hnodes]
    exact kept_nodes hlast hvalue (hvalues last hmem)
  rw [hkept, List.map_map] at hparsed
  have hsame : List.Forall₂ SameItem pstRoot.child pstParsed.child ↔
      ∀ item ∈ list, item.1.toNat < 128 := by
    rw [hnodes, hparsed, List.forall₂_map_left_iff, List.forall₂_map_right_iff, List.forall₂_same]
    exact forall₂_congr fun item hitem => sameItem_one_iff (hbyte item hitem)
  rw [hencode] at hprint
  rw [← hlength] at hparse
  constructor
  · rintro ⟨printed, pstParsed', hprint', hparse', hitems, _⟩
    cases hprint.symm.trans hprint'
    cases hparse.symm.trans hparse'
    exact hsame.mp hitems
  · intro hsmall
    have hitems := hsame.mpr hsmall
    exact ⟨_, pstParsed, hprint, hparse, hitems, fun usType idx => GetObjectItem_rel hitems usType idx⟩

theorem flat_object_round_trips_two :
    ∃ pstRoot, flat_object [(0x10, [0x01]), (0x0d, []), (0x11, [0x10, 0x3c])] = ok pstRoot ∧
      RoundTrips (fun _ => 0) pstRoot := by
  obtain ⟨pstRoot, hroot, hiff⟩ := @flat_object_round_trips_iff (fun _ => 0)
    [(0x10, [0x01]), (0x0d, []), (0x11, [0x10, 0x3c])] _ (by decide) (by decide) rfl nofun
  exact ⟨pstRoot, hroot, hiff.mpr (by decide)⟩

/-- A TLV of type 0x85, which the parser makes 0xff85. -/
theorem flat_object_sign_extended :
    ∃ pstRoot, flat_object [(0x85, [0x01])] = ok pstRoot ∧ ¬ RoundTrips (fun _ => 0) pstRoot := by
  refine ⟨Kami_Tlv_AddItemToObject (Kami_Tlv_CreateObject 1) (tlv_node (0x85, [0x01])), rfl, ?_⟩
  rintro ⟨printed, pstParsed, hprint, hparse, hitems, _⟩
  have heval : Kami_Tlv_Print (fun _ => 0) (Kami_Tlv_AddItemToObject (Kami_Tlv_CreateObject 1)
      (tlv_node (0x85, [0x01]))) = ok (some [0x85, 0x00, 0x01, 0x01, 0x00]) := by decide +kernel
  cases hprint.symm.trans heval
  have htypes : Option.map (fun pstObject => pstObject.child.map KamiTlv_S.type) <$>
      Kami_Tlv_ParseObject [0x85, 0x00, 0x01, 0x01, 0x00] 4 1 = ok (some [0xff85]) := by
    decide +kernel
  change Kami_Tlv_ParseObject _ 4 1 = _ at hparse
  rw [hparse] at htypes
  obtain ⟨pstItem, rest, hitem, _, hchild⟩ := List.forall₂_cons_left_iff.mp hitems
  rw [map_ok, Option.map_some, hchild] at htypes
  have htype := hitem.type
  simp only [List.map_cons, Result.ok.injEq, Option.some.injEq, List.cons.injEq] at htypes
  rw [htypes.1] at htype
  exact absurd htype (by decide)

end Flat

end easymesh.tlv_parser
