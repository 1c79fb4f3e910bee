import Easymesh.Lib.Memory

open Lib Lib.Result

namespace easymesh.tlv_parser

abbrev tlv_type := UInt16

/-- `sizeof(tlv_len)` is written out as 2 below. -/
abbrev tlv_len := UInt16

/-- The values of `obj_type`. -/
inductive KamiTlvType where
  | KamiTlv_Invalid
  | KamiTlv_Tlv
  | KamiTlv_Object
  | KamiTlv_Array
  deriving DecidableEq, Repr

/-- `struct tagKamiTlv`: the sibling links of its children are the list `child`,
and an empty `value` is the `NULL` pointer. -/
structure KamiTlv_S where
  type : tlv_type
  type_len : Nat
  length : tlv_len
  obj_type : KamiTlvType
  value : List UInt8
  child : List KamiTlv_S
  deriving Repr

/-- `be` is read as a `signed char` for one-byte types; for other widths than 1
and 2 the result is an uninitialised variable. -/
def big2littles_type (be : tlv_type) (len : Nat) : Result tlv_type :=
  if len = 2 then ok ((be <<< 8) ||| (be >>> 8))
  else if len = 1 then ok be.toUInt8.toInt8.toInt16.toUInt16
  else fail

def big2littles_len (be : tlv_len) : tlv_len := (be <<< 8) ||| (be >>> 8)

def Kami_Tlv_CreateObject (type_len : Nat) : KamiTlv_S :=
  { type := 0, type_len, length := 0, obj_type := .KamiTlv_Object, value := [], child := [] }

/-- The value is copied from offset `pValue` of `mem`. -/
def Kami_Tlv_CreateTlv (usType : tlv_type) (usLength : tlv_len) (mem : List UInt8) (pValue : Int)
    (len : Nat) : Result KamiTlv_S := do
  let value ← readBytes mem pValue usLength.toNat
  ok { Kami_Tlv_CreateObject len with
    type := usType
    length := usLength
    value
    obj_type := .KamiTlv_Tlv }

/-- What attaching `pstItem` adds to the length of `pstTlv`. -/
def usIncLength (pstTlv pstItem : KamiTlv_S) : tlv_len :=
  match pstItem.obj_type with
  | .KamiTlv_Tlv | .KamiTlv_Array =>
    UInt16.ofNat (pstTlv.type_len + 2 + pstItem.length.toNat)
  | .KamiTlv_Object => pstItem.length
  | .KamiTlv_Invalid => 0

/-- `pstTlv` has no parent of its own, so only its own length grows. -/
def Kami_Tlv_AddItemToObject (pstTlv pstItem : KamiTlv_S) : KamiTlv_S :=
  { pstTlv with
    child := pstTlv.child ++ [pstItem]
    length := pstTlv.length + usIncLength pstTlv pstItem }

def Kami_Tlv_AddTlvToObject (pstTlv : KamiTlv_S) (usType : tlv_type) (usLength : tlv_len)
    (mem : List UInt8) (pValue : Int) (len : Nat) : Result KamiTlv_S := do
  let pstItem ← Kami_Tlv_CreateTlv usType usLength mem pValue len
  ok (Kami_Tlv_AddItemToObject pstTlv pstItem)

/-- The loop of `Kami_Tlv_ParseObject`. The difference `iLength - iOffset` is an
`int` that is compared as a `size_t`. -/
def Kami_Tlv_ParseObject.loop (mem : List UInt8) (iLength : Int) (len : Nat) :
    Nat → Int → KamiTlv_S → Result KamiTlv_S
  | 0, _, _ => div
  | fuel + 1, iOffset, pstRoot =>
    if len + 2 < toSize (wrap32 (iLength - iOffset)) then do
      let usType ← readU16 mem iOffset
      let iOffset := wrap32 (iOffset + len)
      let usLength ← readU16 mem iOffset
      let iOffset := wrap32 (iOffset + 2)
      let type ← big2littles_type usType len
      let pstRoot ← Kami_Tlv_AddTlvToObject pstRoot type (big2littles_len usLength) mem iOffset len
      loop mem iLength len fuel (wrap32 (iOffset + (big2littles_len usLength).toNat)) pstRoot
    else ok pstRoot

/-- `mem` is the memory from `pTlvData` on that may be read. Each turn of the
loop reads a header further on in it, which bounds the number of turns. The
callers pass `NULL` for an empty value only, which the length test rejects too. -/
def Kami_Tlv_ParseObject (mem : List UInt8) (iLength : Int) (len : Nat) :
    Result (Option KamiTlv_S) :=
  if toSize iLength < len + 2 then ok none
  else
    some <$> Kami_Tlv_ParseObject.loop mem iLength len (mem.length + 1) 0 (Kami_Tlv_CreateObject len)

/-- The item of type `usType` that `idx` others of the type come before. -/
def Kami_Tlv_GetObjectItem.loop (usType : tlv_type) : List KamiTlv_S → Int → Option KamiTlv_S
  | [], _ => none
  | pstChild :: rest, idx =>
    if pstChild.type = usType then
      if idx = 0 then some pstChild else loop usType rest (idx - 1)
    else loop usType rest idx

def Kami_Tlv_GetObjectItem (pstObject : KamiTlv_S) (usType : tlv_type) (idx : Int) :
    Option KamiTlv_S :=
  Kami_Tlv_GetObjectItem.loop usType pstObject.child idx

section Swap

/-- The bytes of a 16-bit field on the wire, the most significant one first. -/
def be16 (x : UInt16) : List UInt8 := [(x >>> 8).toUInt8, x.toUInt8]

/-- A swapped value is stored most significant byte first. -/
theorem bytesU16_swap (x : UInt16) : bytesU16 ((x <<< 8) ||| (x >>> 8)) = be16 x := by
  have hx := x.toNat_lt
  have hhi : (((x <<< 8) ||| (x >>> 8)).toUInt8).toNat = ((x >>> 8).toUInt8).toNat := by
    rw [UInt16.toNat_toUInt8, swap_toNat, UInt16.toNat_toUInt8, UInt16.toNat_shiftRight,
      Nat.shiftRight_eq_div_pow, show 2 ^ ((8 : UInt16).toNat % 16) = 256 from rfl]
    omega
  have hlo : ((((x <<< 8) ||| (x >>> 8)) >>> 8).toUInt8).toNat = (x.toUInt8).toNat := by
    have hdiv : (256 * (x.toNat % 256) + x.toNat / 256) / 256 = x.toNat % 256 := by
      rw [Nat.mul_add_div (by decide), Nat.div_eq_of_lt (by omega), Nat.add_zero]
    rw [UInt16.toNat_toUInt8, UInt16.toNat_shiftRight, swap_toNat, UInt16.toNat_toUInt8,
      Nat.shiftRight_eq_div_pow, show 2 ^ ((8 : UInt16).toNat % 16) = 256 from rfl, hdiv]
    exact Nat.mod_mod _ _
  rw [bytesU16, be16, UInt8.toNat_inj.mp hhi, UInt8.toNat_inj.mp hlo]

variable (hi lo : UInt8)

theorem leNat_pair : leNat [hi, lo] = hi.toNat + 256 * lo.toNat := by
  simp [leNat]

theorem big2littles_len_toNat :
    (big2littles_len (UInt16.ofNat (leNat [hi, lo]))).toNat = 256 * hi.toNat + lo.toNat := by
  have hhi := hi.toNat_lt
  have hlo := lo.toNat_lt
  have hval : (UInt16.ofNat (leNat [hi, lo])).toNat = hi.toNat + 256 * lo.toNat := by
    rw [leNat_pair, UInt16.toNat_ofNat_of_lt' (by rw [UInt16.size]; omega)]
  rw [big2littles_len, swap_toNat, hval]
  omega

end Swap

end easymesh.tlv_parser
