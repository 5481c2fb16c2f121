import TsPacket.Bpf.Common

/-!
# The packet parser

`classify` of `bpf/src/ts_classifier.c`.  Every direct packet access is a checked
read: the result is `none` when the program would read outside the frame, which the
bounds checks of the source are there to exclude.

The exits of the source are kept apart: a cut tag returns at once, a cut IPv4 header
keeps a verdict the PCP already gave, and everything else falls to the label `done`.

## Main definitions

* `tagLoop` — the unrolled loop over the in-packet tags.
* `classifyIpv4`, `classifyUdp` — the IPv4 branch and the UDP branch inside it.
* `classify` — the verdict and the `parse_result`.
-/

namespace TsPacket

open Bytes

/-- `struct parse_result`.  The caller starts from all zeros. -/
structure ParseResult where
  reason : TsCounter := .normal
  /-- Offset of the IPv4 header, zero for none. -/
  ipOff : ℕ := 0
  deriving DecidableEq, Repr

/-- The priority code point of a tag. -/
def tciPcp (tci : U16) : U8 := ((tci >>> 13) &&& 7).setWidth 8

/-- The priority code point of the tag a driver moved to the metadata. -/
def vlanTciPcp (vlanTci : U32) : U8 := ((vlanTci >>> 13) &&& 7).setWidth 8

/-- The variables the tag loop updates. -/
structure TagState where
  proto : U16
  off : ℕ
  pcp : U8
  hasPcp : Bool
  deriving DecidableEq, Repr

/-- How the tag loop ends: at a cut tag, or with the variables it leaves. -/
inductive TagLoop
  | short
  | parsed (st : TagState)
  deriving DecidableEq, Repr

/-- The first tag seen is the outer one, and only its PCP counts. -/
def tagPcp (f : Frame) (st : TagState) : Option U8 :=
  if st.hasPcp then some st.pcp else (readBe16 f st.off).map tciPcp

/-- The loop over the in-packet tags with `n` rounds left. -/
def tagLoop (f : Frame) : ℕ → TagState → Option TagLoop
  | 0, st => some (.parsed st)
  | n + 1, st =>
    if st.proto ≠ ethP8021Q ∧ st.proto ≠ ethP8021AD then some (.parsed st)
    else if f.length < st.off + sizeofVlanHdr then some .short
    else do
      let pcp ← tagPcp f st
      let proto ← readBe16 f (st.off + offsetofEncapProto)
      tagLoop f n { proto := proto, off := st.off + sizeofVlanHdr, pcp := pcp, hasPcp := true }

/-- The label `done`. -/
def classifyDone (pr : ParseResult) : Bool × ParseResult :=
  if pr.reason = .tsPcp then (true, pr) else (false, { pr with reason := .normal })

/-- A TS port: the reason stays with the PCP if that decided already. -/
def udpReason (pr : ParseResult) : ParseResult :=
  if pr.reason ≠ .tsPcp then { pr with reason := .tsUdp } else pr

/-- The UDP branch, with the UDP header at `off`. -/
def classifyUdp (f : Frame) (cfg : TsConfig) (tsUdpPorts : U16 → Bool) (off : ℕ)
    (pr : ParseResult) : Option (Bool × ParseResult) :=
  if f.length < off + sizeofUdphdr then some (classifyDone pr)
  else do
    let dport ← readBe16 f (off + offsetofDest)
    if cfg.flags &&& tsCfgDisableUdpDefault = 0 ∧ dport = tsDefaultUdpPort then
      some (true, udpReason pr)
    else if tsUdpPorts dport then some (true, udpReason pr)
    else some (classifyDone pr)

/-- The IPv4 branch, with the IPv4 header at `off`. -/
def classifyIpv4 (f : Frame) (cfg : TsConfig) (tsUdpPorts : U16 → Bool) (off : ℕ)
    (pr : ParseResult) : Option (Bool × ParseResult) :=
  if f.length < off + sizeofIphdr then
    let pr := if pr.reason ≠ .tsPcp then { pr with reason := .parseShort } else pr
    some (pr.reason = .tsPcp, pr)
  else do
    let versionIhl ← read8 f off
    if versionIhl >>> 4 ≠ 4 then some (classifyDone pr)
    else
      let ihl := (versionIhl &&& 0xf).toNat * 4
      if ihl < sizeofIphdr then some (classifyDone pr)
      else do
        let fragOff ← readBe16 f (off + offsetofFragOff)
        -- a fragment leaves before `ip_off` is set
        if fragOff &&& (tsIpMf ||| tsIpOffset) ≠ 0 then some (classifyDone pr)
        else do
          let pr := { pr with ipOff := off }
          let protocol ← read8 f (off + offsetofProtocol)
          if protocol = ipprotoUdp then classifyUdp f cfg tsUdpPorts (off + ihl) pr
          else some (classifyDone pr)

/-- The parser: whether the packet is TS, and the `parse_result` it leaves. -/
def classify (skb : Skb) (cfg : TsConfig) (tsUdpPorts : U16 → Bool) (pr : ParseResult) :
    Option (Bool × ParseResult) :=
  if skb.data.length < sizeofEthhdr then some (false, { pr with reason := .parseShort })
  else do
    let proto ← readBe16 skb.data offsetofHProto
    -- a tag the driver moved to the metadata is the outer one
    let st : TagState :=
      if skb.vlanPresent ≠ 0 then
        { proto := proto, off := sizeofEthhdr, pcp := vlanTciPcp skb.vlanTci, hasPcp := true }
      else { proto := proto, off := sizeofEthhdr, pcp := 0, hasPcp := false }
    match ← tagLoop skb.data 2 st with
    | .short => some (false, { pr with reason := .parseShort })
    | .parsed st =>
      if st.proto = avtpEthertype then some (true, { pr with reason := .tsAvtp })
      else
        let pr := if st.hasPcp = true ∧ tsVlanPcpMin ≤ st.pcp then { pr with reason := .tsPcp }
          else pr
        if st.proto = ethPIp then classifyIpv4 skb.data cfg tsUdpPorts st.off pr
        else some (classifyDone pr)

end TsPacket
