import Easymesh.Tlv.Parser
import Easymesh.Lib.GrowBuffer

open Lib Lib.Result

namespace easymesh.tlv_parser

/-- For other widths than 1 and 2 the result is an uninitialised variable. -/
def little2bigs_type (num : tlv_type) (len : Nat) : Result tlv_type :=
  if len = 2 then ok ((num <<< 8) ||| (num >>> 8))
  else if len = 1 then ok num
  else fail

def little2bigs_len (num : tlv_len) : tlv_len := (num <<< 8) ||| (num >>> 8)

/-- `Kami_Tlv_Ensure`; `output_buffer` is a `KamiTlvPrintBuffer`. -/
def Kami_Tlv_Ensure (p : GrowBuffer) (needed : Nat) : Option GrowBuffer := p.ensure needed

/-- The type and length fields at the offset of the buffer. -/
def Kami_Tlv_PrintHeader (output_buffer : GrowBuffer) (type : tlv_type) (type_len : Nat)
    (length : tlv_len) : Result GrowBuffer := do
  let swapped ← little2bigs_type type type_len
  let buffer ← writeBytes output_buffer.buffer output_buffer.offset (bytesU16 swapped)
  let buffer ← writeBytes buffer (output_buffer.offset + type_len) (bytesU16 (little2bigs_len length))
  ok { output_buffer with buffer, offset := output_buffer.offset + (type_len + 2) }

/-- `none` is the return value -1. -/
def Kami_Tlv_PrintTlv (type : tlv_type) (type_len : Nat) (length : tlv_len) (value : List UInt8)
    (output_buffer : GrowBuffer) : Result (Option GrowBuffer) :=
  match Kami_Tlv_Ensure output_buffer (length.toNat + type_len + 2) with
  | none => ok none
  | some output_buffer => do
    let output_buffer ← Kami_Tlv_PrintHeader output_buffer type type_len length
    let bytes ← readBytes value 0 length.toNat
    some <$> output_buffer.store bytes

mutual

/-- `Kami_Tlv_PrintValue`, with `Kami_Tlv_PrintArray` as its second branch. -/
def Kami_Tlv_PrintValue : KamiTlv_S → GrowBuffer → Result (Option GrowBuffer)
  | ⟨type, type_len, length, obj_type, value, child⟩, output_buffer =>
    match obj_type with
    | .KamiTlv_Tlv => Kami_Tlv_PrintTlv type type_len length value output_buffer
    | .KamiTlv_Array =>
      match Kami_Tlv_Ensure output_buffer (type_len + 2) with
      | none => ok none
      | some output_buffer => do
        let output_buffer ← Kami_Tlv_PrintHeader output_buffer type type_len length
        Kami_Tlv_PrintObject child output_buffer
    | .KamiTlv_Object => Kami_Tlv_PrintObject child output_buffer
    | .KamiTlv_Invalid => ok none

/-- The loop over the children that objects and arrays share. -/
def Kami_Tlv_PrintObject : List KamiTlv_S → GrowBuffer → Result (Option GrowBuffer)
  | [], output_buffer => ok (some output_buffer)
  | current_item :: rest, output_buffer => do
    match ← Kami_Tlv_PrintValue current_item output_buffer with
    | none => ok none
    | some output_buffer => Kami_Tlv_PrintObject rest output_buffer

end

/-- The block returned holds the printed bytes and one more; `none` is `NULL`. -/
def Kami_Tlv_Print (uninit : Nat → UInt8) (pstTlv : KamiTlv_S) : Result (Option (List UInt8)) := do
  match ← Kami_Tlv_PrintValue pstTlv (GrowBuffer.malloc uninit 256) with
  | none => ok none
  | some buffer => ok (some (buffer.buffer.take (buffer.offset + 1)))

def Kami_Tlv_ObjectLength (pstObject : KamiTlv_S) : Nat := pstObject.length.toNat

end easymesh.tlv_parser
