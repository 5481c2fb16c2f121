import TsPacket.Lib.OnesComplement
import TsPacket.Bpf.Common

/-!
# The packet builders of the test harness

The frames `bpf/tests/bpf_harness.py` builds and the checksum it recomputes.  The
results about the programs are for all frames; these build the frames a result is
tried on.

## Main definitions

* `eth`, `vlan`, `ipv4`, `udp` — the builders.
* `ipChecksum` — the checksum over a header, from scratch.
-/

namespace TsPacket

open Bytes OnesComplement

/-- The checksum over a header; the words are read big-endian. -/
def ipChecksum (hdr : List Byte) : U16 := checksum hdr

/-- `struct.pack("!H", w)`. -/
def pack16 (w : U16) : List Byte := [w.extractLsb' 8 8, w.extractLsb' 0 8]

/-- `DST_MAC`. -/
def dstMac : List Byte := [0xaa, 0xbb, 0xcc, 0xdd, 0xee, 0xff]
/-- `SRC_MAC`. -/
def srcMac : List Byte := [0x11, 0x22, 0x33, 0x44, 0x55, 0x66]

/-- `eth`. -/
def eth (ethertype : U16) (payload : List Byte) : Frame :=
  dstMac ++ srcMac ++ pack16 ethertype ++ payload

/-- A tag: the TCI, the encapsulated type and the payload. -/
def vlan (pcp vid innerEthertype : U16) (payload : List Byte) : List Byte :=
  pack16 ((pcp <<< 13) ||| (vid &&& 0xFFF)) ++ pack16 innerEthertype ++ payload

/-- The keyword arguments of `ipv4`. -/
structure Ipv4Args where
  tos : U8 := 0
  options : List Byte := []
  src : List Byte := [10, 0, 0, 1]
  dst : List Byte := [10, 0, 0, 2]
  ttl : U8 := 64
  fragOff : U16 := 0

/-- The header with a zero checksum field. -/
def ipv4Header (proto : U8) (payload : List Byte) (args : Ipv4Args) : List Byte :=
  let ihl := 5 + args.options.length / 4
  let total := ihl * 4 + payload.length
  [(4 <<< 4) ||| BitVec.ofNat 8 ihl, args.tos] ++ pack16 (BitVec.ofNat 16 total)
    ++ pack16 0x1234 ++ pack16 args.fragOff ++ [args.ttl, proto] ++ pack16 0
    ++ args.src ++ args.dst ++ args.options

/-- `ipv4`: the header with its checksum, and the payload. -/
def ipv4 (proto : U8) (payload : List Byte) (args : Ipv4Args) : List Byte :=
  let hdr := ipv4Header proto payload args
  hdr.take 10 ++ pack16 (ipChecksum hdr) ++ hdr.drop 12 ++ payload

/-- `udp`, whose checksum is zero. -/
def udp (dport : U16) (payload : List Byte) (sport : U16) : List Byte :=
  pack16 sport ++ pack16 dport ++ pack16 (BitVec.ofNat 16 (8 + payload.length)) ++ pack16 0
    ++ payload

/-- A UDP datagram in an untagged frame, from the port the harness uses. -/
def udpFrame (dport : U16) (payload : List Byte) (args : Ipv4Args) : Frame :=
  eth ethPIp (ipv4 ipprotoUdp (udp dport payload 12345) args)

end TsPacket
