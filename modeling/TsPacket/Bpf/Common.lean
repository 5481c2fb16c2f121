import Mathlib.Data.Int.Notation
import TsPacket.Lib.Bytes

/-!
# Constants and records shared by the BPF programs

`bpf/src/ts_common.h`, the UAPI constants the programs compare with, and the part
of `struct __sk_buff` they read and write.

Header fields are read big-endian (`Bytes.be16At`), so a field is compared with a
constant directly where the source compares it with `bpf_htons` of the constant.

## Main definitions

* `TsConfig`, `TsCounter` — the value of the `ts_config` map and the indices of
  the `ts_counters` map.
* `Skb` — a packet with its metadata.
-/

namespace TsPacket

open Bytes

/-- `__u8`. -/
abbrev U8 := BitVec 8
/-- `__u16`, in the byte order of the host. -/
abbrev U16 := BitVec 16
/-- `__u32`. -/
abbrev U32 := BitVec 32

/-- The bytes between `data` and `data_end`. -/
abbrev Frame := List Byte

/-! ### UAPI constants -/

/-- A verdict of a tc program. -/
abbrev TcAct := ℤ

/-- `TC_ACT_UNSPEC`: the next program of the chain decides. -/
def tcActUnspec : TcAct := -1
/-- `TC_ACT_OK`. -/
def tcActOk : TcAct := 0

/-- `ETH_P_8021Q`. -/
def ethP8021Q : U16 := 0x8100
/-- `ETH_P_8021AD`. -/
def ethP8021AD : U16 := 0x88A8
/-- `ETH_P_IP`. -/
def ethPIp : U16 := 0x0800
/-- `IPPROTO_UDP`. -/
def ipprotoUdp : U8 := 17
/-- `TC_PRIO_INTERACTIVE`. -/
def tcPrioInteractive : U32 := 6

/-- `sizeof(struct ethhdr)`; `h_proto` is its last field. -/
abbrev sizeofEthhdr : ℕ := 14
/-- `h_proto` in `struct ethhdr`. -/
abbrev offsetofHProto : ℕ := 12

/-- `sizeof(struct vlan_hdr)`: `tci`, then `encap_proto`. -/
abbrev sizeofVlanHdr : ℕ := 4
/-- `h_vlan_encapsulated_proto` in `struct vlan_hdr`. -/
abbrev offsetofEncapProto : ℕ := 2

/-- `sizeof(struct iphdr)`, the fixed part without options. -/
abbrev sizeofIphdr : ℕ := 20
/-- `frag_off` in `struct iphdr`. -/
abbrev offsetofFragOff : ℕ := 6
/-- `protocol` in `struct iphdr`. -/
abbrev offsetofProtocol : ℕ := 9
/-- `check` in `struct iphdr`. -/
abbrev offsetofCheck : ℕ := 10

/-- `sizeof(struct udphdr)`. -/
abbrev sizeofUdphdr : ℕ := 8
/-- `dest` in `struct udphdr`. -/
abbrev offsetofDest : ℕ := 2

/-! ### `ts_common.h` -/

/-- `TS_IP_MF`: more fragments follow. -/
def tsIpMf : U16 := 0x2000
/-- `TS_IP_OFFSET`: the place of a fragment. -/
def tsIpOffset : U16 := 0x1FFF
/-- `TS_DEFAULT_UDP_PORT`. -/
def tsDefaultUdpPort : U16 := 6000
/-- `AVTP_ETHERTYPE`. -/
def avtpEthertype : U16 := 0x22F0
/-- `TS_VLAN_PCP_MIN`. -/
def tsVlanPcpMin : U8 := 5
/-- `TS_DEFAULT_PRIORITY`. -/
def tsDefaultPriority : U32 := tcPrioInteractive
/-- `TS_DEFAULT_DSCP`, expedited forwarding. -/
def tsDefaultDscp : U32 := 46

/-- `TS_CFG_MARK_DSCP`: rewrite the IPv4 DSCP of TS packets. -/
def tsCfgMarkDscp : U32 := 1 <<< 0
/-- `TS_CFG_DISABLE_UDP_DEFAULT`: do not match the default port. -/
def tsCfgDisableUdpDefault : U32 := 1 <<< 1

/-- `struct ts_config`; a zero `priority` or `dscp` stands for the default. -/
structure TsConfig where
  priority : U32 := 0
  dscp : U32 := 0
  flags : U32 := 0
  reserved : U32 := 0
  deriving DecidableEq, Repr

/-- `enum ts_counter`, the indices of the `ts_counters` map. -/
inductive TsCounter
  /-- Not TS, the priority is left alone. -/
  | normal
  | tsAvtp
  | tsPcp
  | tsUdp
  | dscpMarked
  /-- A header is cut, so the packet cannot be decided. -/
  | parseShort
  deriving DecidableEq, Repr

/-- `CNT_MAX`. -/
abbrev cntMax : ℕ := 6

/-- The index a counter has in the map. -/
def TsCounter.idx : TsCounter → Fin cntMax
  | normal => 0
  | tsAvtp => 1
  | tsPcp => 2
  | tsUdp => 3
  | dscpMarked => 4
  | parseShort => 5

theorem TsCounter.idx_injective : Function.Injective TsCounter.idx := by
  intro a b h
  cases a <;> cases b <;> first | rfl | exact absurd h (by decide)

/-! ### The packet -/

/-- The fields of `struct __sk_buff` the programs use. -/
structure Skb where
  data : Frame
  vlanPresent : U32 := 0
  vlanTci : U32 := 0
  priority : U32 := 0
  deriving DecidableEq, Repr

end TsPacket
