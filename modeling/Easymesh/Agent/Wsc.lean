import Easymesh.Tlv.Printer

open Lib Lib.Result easymesh.tlv_parser

namespace easymesh.wsc

def TLV_TYPE_WSC : tlv_type := 0x11

def WSC_MSG_TYPE_M1 : UInt8 := 0x04

def DATA_ELEM_TYPE_RF_BANDS : tlv_type := 0x103c

def enrollee_nonce : List UInt8 :=
  [0x53, 0x83, 0x78, 0x76, 0x1c, 0x9a, 0x4b, 0xee, 0x59, 0x3e, 0x6b, 0x53, 0x37, 0xd6, 0x25, 0x4b]

def public_key : List UInt8 :=
  [0x14, 0x03, 0x2d, 0x1d, 0x10, 0x87, 0x4d,
    0xc4, 0xe5, 0x19, 0x5b, 0x0b, 0xeb, 0x15, 0x02, 0x25, 0x3a, 0x29, 0xad, 0x43, 0x44, 0x85, 0x0f,
    0x6a, 0x77, 0xf0, 0x53, 0xf9, 0x7a, 0x0e, 0x1e, 0xc9, 0x38, 0x46, 0xef, 0x05, 0x94, 0x5c, 0x95,
    0x70, 0x5a, 0x49, 0x6b, 0xba, 0x3f, 0xcf, 0xd3, 0x23, 0x97, 0x7f, 0xd6, 0xa6, 0xec, 0x74, 0x51,
    0xa9, 0xa3, 0xe3, 0xda, 0xe5, 0x41, 0x68, 0x07, 0xa4, 0xcd, 0xb3, 0x28, 0x81, 0x76, 0xaa, 0x4f,
    0x2a, 0x5b, 0x60, 0x17, 0xee, 0x65, 0xf8, 0xd1, 0x8a, 0x8d, 0x9e, 0x47, 0x5a, 0x24, 0xd9, 0x81,
    0xc8, 0x41, 0xf1, 0xfc, 0xa2, 0x3d, 0x22, 0x81, 0xb6, 0x47, 0x1a, 0x6f, 0xc6, 0xcc, 0x0b, 0x8e,
    0xc6, 0x2f, 0x52, 0xb0, 0xa6, 0xf8, 0x5a, 0xd4, 0x93, 0x25, 0xff, 0xf7, 0x97, 0xba, 0x46, 0x9a,
    0x25, 0x18, 0x8d, 0xbc, 0x75, 0x55, 0x28, 0x87, 0xe8, 0x5d, 0x56, 0x4d, 0xa1, 0xd4, 0x09, 0x7f,
    0x1f, 0xbe, 0x12, 0x23, 0x6a, 0x51, 0xd4, 0x5a, 0x85, 0xa0, 0xaa, 0xda, 0x68, 0x29, 0x92, 0x5d,
    0x0e, 0xea, 0x31, 0xd8, 0x99, 0x52, 0x9a, 0x13, 0xa7, 0xd3, 0x56, 0x97, 0x04, 0x7c, 0x03, 0xaa,
    0xe7, 0x37, 0xe7, 0x0d, 0x06, 0x09, 0x9a, 0x7a, 0x8e, 0x62, 0xe8, 0x7c, 0x1e, 0xa0, 0x4e, 0x24,
    0xdd, 0x41, 0xcc, 0xa4, 0x9d, 0x56, 0x69, 0x40, 0x30]

def chars (cs : List Char) : List UInt8 := cs.map fun c => UInt8.ofNat c.toNat

/-- The attributes of an M1 in the order they are added: type, length and the
memory the value is copied from. -/
def wsc_m1_attributes (ifaddr : List UInt8) (rf_bands : UInt8) :
    List (tlv_type × tlv_len × List UInt8) :=
  [(0x104a, 1, [0x10]),
    (0x1022, 1, [WSC_MSG_TYPE_M1]),
    (0x1047, 16, List.replicate 16 0),
    (0x1020, 6, ifaddr),
    (0x101a, 16, enrollee_nonce),
    (0x1032, 192, public_key),
    (0x1004, 2, [0x00, 0x63]),
    (0x1010, 2, [0x00, 0x0f]),
    (0x100d, 1, [0x01]),
    (0x1008, 2, [0x06, 0x80]),
    (0x1044, 1, [0x01]),
    (0x1021, 8, chars ['m', 'e', 'd', 'i', 'a', 't', 'e', 'k']),
    (0x1023, 8, chars ['M', 'T', 'K', ' ', '0', '0', '0', '0']),
    (0x1024, 6, chars ['v', '2', '.', '0', '.', '2']),
    (0x1042, 19, chars ['2', '2', '3', '3', '3', '3', '-', '7', '6', '8', '3', '6', '7', '3', '7',
      '3', '6', '4', '6']),
    (0x1054, 8, [0x00, 0x06, 0x00, 0x50, 0xf2, 0x04, 0x00, 0x01]),
    (0x1011, 6, chars ['E', 'R', 'O', 'L', 'E', 'E']),
    (DATA_ELEM_TYPE_RF_BANDS, 1, [rf_bands]),
    (0x1002, 2, [0x00, 0x01]),
    (0x1012, 2, [0x00, 0x04]),
    (0x1009, 2, [0x00, 0x00]),
    (0x102d, 4, [0x80, 0x00, 0x00, 0x00]),
    (0x1049, 8, [0x00, 0x37, 0x2a, 0x00, 0x01, 0x20, 0x00, 0x00])]

/-- The block returned and the length stored through `len`. -/
def wsc_m1_msg_create (uninit : Nat → UInt8) (ifaddr : List UInt8) (rf_bands : UInt8) :
    Result (Option (List UInt8) × Nat) := do
  let pstWsc ← (wsc_m1_attributes ifaddr rf_bands).foldlM
    (fun pstWsc (type, length, value) => Kami_Tlv_AddTlvToObject pstWsc type length value 0 2)
    (Kami_Tlv_CreateObject 2)
  let printed ← Kami_Tlv_Print uninit pstWsc
  ok (printed, Kami_Tlv_ObjectLength pstWsc)

end easymesh.wsc
