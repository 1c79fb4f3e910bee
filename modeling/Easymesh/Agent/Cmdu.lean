import Easymesh.Lib.Memory

open Lib Lib.Result

namespace easymesh.cmdu

def ETH_ALEN : Nat := 6

def IF_NAMESIZE : Nat := 16

def MSG_AP_AUTOCONFIGURATION_SEARCH : UInt16 := 0x0007

def MSG_AP_AUTOCONFIGURATION_RESPONSE : UInt16 := 0x0008

def MSG_AP_AUTOCONFIGURATION_WSC : UInt16 := 0x0009

def MSG_AP_AUTOCONFIGURATION_RENEW : UInt16 := 0x000a

def PKT_NETWORK : Int := 1

def PKT_LOCAL : Int := 2

def sizeof_cmdu_raw_msg : Nat := 22

def sizeof_mesh_packet : Nat := 40

def htons (x : UInt16) : UInt16 := (x <<< 8) ||| (x >>> 8)

def ntohs (x : UInt16) : UInt16 := (x <<< 8) ||| (x >>> 8)

theorem ntohs_htons (x : UInt16) : ntohs (htons x) = x := by
  have hx := x.toNat_lt
  apply UInt16.toNat_inj.mp
  rw [ntohs, swap_toNat, htons, swap_toNat]
  omega

/-- `struct _cmdu_raw_msg` up to its TLVs, with `Flags_last_fragment` set and all
that the senders leave zero. -/
def cmdu_raw_msg (dest_addr src_addr : List UInt8) (msg_type msg_id : UInt16) : List UInt8 :=
  dest_addr ++ src_addr ++ bytesU16 (htons 0x893a) ++ [0, 0] ++ bytesU16 msg_type ++
    bytesU16 msg_id ++ [0, 0x80]

section Fields

variable (msg : List UInt8)

def dest_addr : Result (List UInt8) := readBytes msg 0 ETH_ALEN

def src_addr : Result (List UInt8) := readBytes msg 6 ETH_ALEN

def msg_type : Result UInt16 := readU16 msg 16

def msg_id : Result UInt16 := readU16 msg 18

/-- `Flags_last_fragment` is the highest bit of its byte. -/
def Flags_last_fragment : Result Bool := (fun b => decide (0x80 ≤ b)) <$> readU8 msg 21

def tlvs : List UInt8 := msg.drop sizeof_cmdu_raw_msg

end Fields

/-- `struct mesh_packet_s` -/
structure mesh_packet_s where
  pkt_from : Int
  pkt_to : Int
  ifname : List UInt8
  ifaddr : List UInt8
  aladdr : List UInt8
  packet_len : Int
  packet : List UInt8
  deriving DecidableEq, Repr

/-- The bytes of a packet, as the receiver of a group message finds them. -/
def mesh_packet_s.bytes (pkt : mesh_packet_s) : List UInt8 :=
  bytesI32 pkt.pkt_from ++ bytesI32 pkt.pkt_to ++ pkt.ifname ++ pkt.ifaddr ++ pkt.aladdr ++
    bytesI32 pkt.packet_len ++ pkt.packet

def packet_create (data : List UInt8) : mesh_packet_s :=
  { pkt_from := 0
    pkt_to := 0
    ifname := List.replicate IF_NAMESIZE 0
    ifaddr := List.replicate ETH_ALEN 0
    aladdr := List.replicate ETH_ALEN 0
    packet_len := data.length
    packet := data }

section Received

variable (pkt : List UInt8)

def packet_from : Result Int := readI32 pkt 0

def packet_to : Result Int := readI32 pkt 4

def pkt_ifname : List UInt8 := pkt.drop 8

def pkt_ifaddr : List UInt8 := pkt.drop 24

def pkt_aladdr : List UInt8 := pkt.drop 30

def packet_len : Result Int := readI32 pkt 36

def packet : List UInt8 := pkt.drop sizeof_mesh_packet

end Received

end easymesh.cmdu
