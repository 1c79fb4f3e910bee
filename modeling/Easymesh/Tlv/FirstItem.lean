import Easymesh.Tlv.RoundTrip

open Lib Lib.Result

namespace easymesh.tlv_parser

section Search

/-- The search by index is an index into the items of the type. -/
theorem GetObjectItem_loop_eq (usType : tlv_type) (list : List KamiTlv_S) (idx : Nat) :
    Kami_Tlv_GetObjectItem.loop usType list idx =
      (list.filter fun pstItem => decide (pstItem.type = usType))[idx]? := by
  induction list generalizing idx with
  | nil => rfl
  | cons pstItem rest ih =>
    rw [Kami_Tlv_GetObjectItem.loop]
    by_cases htype : pstItem.type = usType
    · rw [if_pos htype, List.filter_cons_of_pos (by simpa using htype)]
      cases idx with
      | zero => rfl
      | succ idx =>
        have hprev : ((idx + 1 : Nat) : Int) - 1 = idx := by omega
        rw [if_neg (by omega), hprev, ih, List.getElem?_cons_succ]
    · rw [if_neg htype, List.filter_cons_of_neg (by simpa using htype), ih]

theorem Kami_Tlv_GetObjectItem_eq (pstObject : KamiTlv_S) (usType : tlv_type) (idx : Nat) :
    Kami_Tlv_GetObjectItem pstObject usType idx =
      (pstObject.child.filter fun pstItem => decide (pstItem.type = usType))[idx]? :=
  GetObjectItem_loop_eq usType pstObject.child idx

theorem kept_concat (init : List KamiTlv_S) (pstLast : KamiTlv_S) :
    kept (init ++ [pstLast]) = if pstLast.length = 0 then init else init ++ [pstLast] := by
  induction init with
  | nil => rfl
  | cons pstItem rest ih =>
    have hkept : kept (pstItem :: (rest ++ [pstLast])) = pstItem :: kept (rest ++ [pstLast]) := by
      cases rest <;> rfl
    rw [List.cons_append, hkept, ih]
    split <;> rfl

end Search

/-- The value of the first item of a type among items with two-byte types, when
`skip` bytes are left out first. A header that ends the bytes is no item. -/
def first_value (usType : tlv_type) : Nat → List UInt8 → Option (List UInt8)
  | skip + 1, _ :: rest => first_value usType skip rest
  | 0, t1 :: t0 :: hi :: lo :: b :: rest =>
    if UInt16.ofNat (256 * t1.toNat + t0.toNat) = usType then
      some ((b :: rest).take (256 * hi.toNat + lo.toNat))
    else first_value usType (256 * hi.toNat + lo.toNat) (b :: rest)
  | _, _ => none

theorem first_value_skip (usType : tlv_type) (skip : Nat) (bs : List UInt8) :
    first_value usType skip bs = first_value usType 0 (bs.drop skip) := by
  induction bs generalizing skip with
  | nil => cases skip <;> rfl
  | cons b bs ih =>
    cases skip with
    | zero => rfl
    | succ skip => exact ih skip

/-- No more than a header holds no item. -/
theorem first_value_short {usType : tlv_type} {bs : List UInt8} (hshort : bs.length ≤ 4) :
    first_value usType 0 bs = none := by
  match bs with
  | [] | [_] | [_, _] | [_, _, _] | [_, _, _, _] => rfl
  | _ :: _ :: _ :: _ :: _ :: _ =>
    simp only [List.length_cons] at hshort
    omega

theorem first_value_header {usType : tlv_type} {type value rest : List UInt8} {hi lo : UInt8}
    (htype : type.length = 2) (hvalue : value.length = 256 * hi.toNat + lo.toNat)
    (hmore : value ++ rest ≠ []) :
    first_value usType 0 (type ++ hi :: lo :: (value ++ rest)) =
      if read_type type = usType then some value else first_value usType 0 rest := by
  obtain ⟨t1, t0, rfl⟩ := List.length_eq_two.mp htype
  obtain ⟨b, bs, hbs⟩ := List.exists_cons_of_ne_nil hmore
  rw [hbs, List.cons_append, List.cons_append, List.nil_append, first_value, ← hbs, ← hvalue,
    List.take_left, first_value_skip, List.drop_left]
  rfl

/-- Adding an item whose bytes can be read. -/
theorem Kami_Tlv_AddTlvToObject_read {mem value : List UInt8} {pValue : Int} {len : Nat}
    (pstTlv : KamiTlv_S) (usType : tlv_type) (hsmall : value.length ≤ 65535)
    (hread : readBytes mem pValue value.length = ok value) :
    ∃ pstItem, Kami_Tlv_AddTlvToObject pstTlv usType (UInt16.ofNat value.length) mem pValue len =
        ok (Kami_Tlv_AddItemToObject pstTlv pstItem) ∧
      pstItem.type = usType ∧ pstItem.value = value := by
  have hnat : (UInt16.ofNat value.length).toNat = value.length :=
    UInt16.toNat_ofNat_of_lt' (Nat.lt_succ_of_le hsmall)
  refine ⟨{ Kami_Tlv_CreateObject len with
    type := usType, length := UInt16.ofNat value.length, value, obj_type := .KamiTlv_Tlv }, ?_, rfl, rfl⟩
  rw [Kami_Tlv_AddTlvToObject, Kami_Tlv_CreateTlv, hnat, hread, ok_bind, ok_bind]

/-- The loop of the parser over complete bytes adds items of which the first of
each type has the value that stands first in the bytes. -/
theorem loop_first {mem bs : List UInt8} (hcomplete : CompleteTlvs 2 bs)
    (hint : mem.length ≤ INT_MAX) {fuel off : Nat} (pstRoot : KamiTlv_S) (hoff : off ≤ mem.length)
    (hmem : mem.drop off = bs) (hfuel : bs.length < fuel) :
    ∃ pstRoot' added, Kami_Tlv_ParseObject.loop mem mem.length 2 fuel off pstRoot = ok pstRoot' ∧
      pstRoot'.child = pstRoot.child ++ added ∧
      ∀ usType, (Kami_Tlv_GetObjectItem.loop usType added 0).map KamiTlv_S.value =
        first_value usType 0 bs := by
  induction hcomplete generalizing fuel off pstRoot with
  | @stop bs hshort =>
    obtain ⟨fuel, rfl⟩ := Nat.exists_eq_succ_of_ne_zero (Nat.ne_of_gt (Nat.zero_lt_of_lt hfuel))
    have hsize := congrArg List.length hmem
    rw [List.length_drop] at hsize
    refine ⟨pstRoot, [], loop_stop fuel pstRoot hint hoff (by omega), (List.append_nil _).symm, ?_⟩
    intro usType
    rw [first_value_short hshort]
    rfl
  | @tlv type value rest hi lo htype hvalue hrest ih =>
    obtain ⟨fuel, rfl⟩ := Nat.exists_eq_succ_of_ne_zero (Nat.ne_of_gt (Nat.zero_lt_of_lt hfuel))
    have hsize := congrArg List.length hmem
    simp only [List.length_drop, List.length_append, List.length_cons, htype] at hsize hfuel
    by_cases hmore : value ++ rest = []
    · have hlen := congrArg List.length hmore
      rw [List.length_append, List.length_nil] at hlen
      refine ⟨pstRoot, [], loop_stop fuel pstRoot hint hoff (by omega), (List.append_nil _).symm, ?_⟩
      intro usType
      rw [first_value_short]
      · rfl
      · simp only [List.length_append, List.length_cons, htype]
        omega
    · have hpos := List.length_pos_iff.mpr hmore
      rw [List.length_append] at hpos
      have hdrop : mem.drop (off + 2 + 2) = value ++ rest := by
        have hsplit : mem.drop (off + (2 + 2)) = (mem.drop off).drop (2 + 2) := List.drop_drop.symm
        rw [Nat.add_assoc, hsplit, hmem, ← List.drop_drop, List.drop_left' htype]
        rfl
      have hnext : mem.drop (off + 2 + 2 + value.length) = rest := by
        rw [← List.drop_drop, hdrop, List.drop_left]
      have hread : readBytes mem (off + 2 + 2 : Nat) value.length = ok value := by
        have hmiddle := readBytes_middle (mem.take (off + 2 + 2)) value rest
        rw [← hdrop, List.take_append_drop, List.length_take_of_le (by omega)] at hmiddle
        exact hmiddle
      have hin : off + 2 + 2 + value.length ≤ mem.length := by omega
      have hless : rest.length < fuel := by omega
      have hlong : 2 + 2 < mem.length - off := by omega
      have hsmall : value.length ≤ 65535 := by
        have hhi := hi.toNat_lt
        have hlo := lo.toNat_lt
        omega
      have hwrap : wrap32 ((off + 2 + 2 : Nat) + (value.length : Nat)) =
          (off + 2 + 2 + value.length : Nat) := by
        unfold INT_MAX at hint
        rw [wrap32_eq (by omega) (by omega)]
        exact (Int.natCast_add _ _).symm
      obtain ⟨pstItem, hadd, hitem⟩ := Kami_Tlv_AddTlvToObject_read pstRoot (read_type type) hsmall hread
      obtain ⟨pstRoot', added, hloop, hchild, hfirst⟩ :=
        ih (Kami_Tlv_AddItemToObject pstRoot pstItem) hin hnext hless
      refine ⟨pstRoot', pstItem :: added, ?_, ?_, ?_⟩
      · rw [loop_header fuel pstRoot (.inr rfl) htype hlong hmem hint, ← hvalue, hadd, ok_bind,
          hwrap]
        exact hloop
      · rw [hchild]
        exact List.append_assoc pstRoot.child [pstItem] added
      · intro usType
        rw [first_value_header htype hvalue hmore, Kami_Tlv_GetObjectItem.loop, hitem.1]
        by_cases hsame : read_type type = usType
        · rw [if_pos hsame, if_pos hsame, if_pos rfl, Option.map_some, hitem.2]
        · rw [if_neg hsame, if_neg hsame]
          exact hfirst usType

/-- An object of complete bytes: the first item of a type has the value that
stands first in the bytes. -/
theorem Kami_Tlv_ParseObject_first {mem : List UInt8} (hcomplete : CompleteTlvs 2 mem)
    (hlong : 4 ≤ mem.length) (hint : mem.length ≤ INT_MAX) :
    ∃ pstRoot, Kami_Tlv_ParseObject mem mem.length 2 = ok (some pstRoot) ∧
      ∀ usType, (Kami_Tlv_GetObjectItem pstRoot usType 0).map KamiTlv_S.value =
        first_value usType 0 mem := by
  have hguard : ¬ toSize (mem.length : Int) < 2 + 2 := by
    have hsize : (toSize (mem.length : Int) : Int) = mem.length := by
      unfold INT_MAX at hint
      exact toSize_of_nonneg (Int.natCast_nonneg _) (by omega)
    omega
  have hfuel : mem.length < mem.length + 1 := Nat.lt_succ_self _
  obtain ⟨pstRoot, added, hloop, hchild, hfirst⟩ :=
    loop_first hcomplete hint (Kami_Tlv_CreateObject 2) (Nat.zero_le _) List.drop_zero hfuel
  rw [Int.natCast_zero] at hloop
  refine ⟨pstRoot, ?_, fun usType => ?_⟩
  · rw [Kami_Tlv_ParseObject, if_neg hguard, hloop, map_ok]
  · rw [Kami_Tlv_GetObjectItem, hchild]
    exact hfirst usType

/-- No object is parsed from less than a header. -/
theorem Kami_Tlv_ParseObject_short {mem : List UInt8} {len n : Nat} (hshort : n < len + 2)
    (hint : n ≤ INT_MAX) : Kami_Tlv_ParseObject mem n len = ok none := by
  have hguard : (toSize (n : Int) : Int) = n := by
    unfold INT_MAX at hint
    exact toSize_of_nonneg (Int.natCast_nonneg _) (by omega)
  rw [Kami_Tlv_ParseObject, if_pos (by omega)]

end easymesh.tlv_parser
