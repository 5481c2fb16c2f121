import TsPacket.Bpf.Harness
import TsPacket.Bpf.Grammar
import TsPacket.Bpf.MarkDscp

/-!
# What the classifier reads of a built frame

The builders of `bpf/tests/bpf_harness.py` nest: a header around tags around a payload.  Read
from the outside, the frame gives back the arguments it was built from, so that what the
classifier makes of it can be told from the arguments alone.

## Main definitions

* `Tag`, `Content`, `frameOf` — the arguments of a frame, and the frame.
* `Content.reason`, `expected` — what is to become of it.

## Main results

* `etherTypeAt_frameOf`, `byteAt_frameOf` — the arguments are read back.
* `verdict_frameOf` — **the classifier decides by the arguments.**
* `parse_frameOf` — the harness reads the TOS byte, and a checksum that verifies.
* `markDscp_headerOff` — **marking gives the frame that is built with the new TOS byte.**
-/

namespace TsPacket

open Bytes OnesComplement

/-! ### Bytes behind other bytes -/

theorem byteAt_append_right {pre : List Byte} {n : ℕ} (hpre : pre.length = n) (l : List Byte)
    (i : ℕ) : byteAt (pre ++ l) (n + i) = byteAt l i := by
  subst hpre
  rw [byteAt, byteAt, List.getD_eq_getElem?_getD, List.getD_eq_getElem?_getD,
    List.getElem?_append_right (Nat.le_add_right _ _), Nat.add_sub_cancel_left]

theorem be16At_append_right {pre : List Byte} {n : ℕ} (hpre : pre.length = n) (l : List Byte)
    (i : ℕ) : be16At (pre ++ l) (n + i) = be16At l i := by
  rw [be16At, be16At, Nat.add_assoc, byteAt_append_right hpre, byteAt_append_right hpre]

theorem length_pack16 (w : U16) : (pack16 w).length = 2 := rfl

theorem length_macs : (dstMac ++ srcMac).length = 12 := rfl

/-- A packed word is read back. -/
theorem be16At_pack16 (w : U16) (l : List Byte) : be16At (pack16 w ++ l) 0 = w := by
  change w.extractLsb' 8 8 ++ w.extractLsb' 0 8 = w
  ext i hi
  simp only [BitVec.getElem_append, BitVec.getElem_extractLsb']
  split
  · rw [Nat.zero_add, BitVec.getLsbD_eq_getElem]
  · rw [BitVec.getLsbD_eq_getElem (by omega)]
    congr 1
    omega

/-! ### Frames by their arguments -/

/-- The arguments of a tag, with the EtherType that announces it. -/
structure Tag where
  tpid : U16
  isVlan : IsVlan tpid
  pcp : Fin 8
  vid : U16

/-- The PCP in the upper three bits, the VLAN in the lower twelve. -/
def Tag.tci (t : Tag) : U16 := (BitVec.ofNat 16 t.pcp <<< 13) ||| (t.vid &&& 0xFFF)

theorem Tag.length_bytes (t : Tag) : (pack16 t.tpid ++ pack16 t.tci).length = 4 := rfl

/-- What stands behind the tags. -/
inductive Content
  | ipv4 (proto : U8) (payload : List Byte) (args : Ipv4Args)
  | other (ethertype : U16) (body : List Byte)

/-- The type that stands in front of the content. -/
def Content.ethertype : Content → U16
  | .ipv4 _ _ _ => ethPIp
  | .other ethertype _ => ethertype

/-- The bytes behind the type. -/
def Content.body : Content → List Byte
  | .ipv4 proto payload args => TsPacket.ipv4 proto payload args
  | .other _ body => body

@[simp] theorem Content.body_ipv4 (proto : U8) (payload : List Byte) (args : Ipv4Args) :
    (Content.ipv4 proto payload args).body = TsPacket.ipv4 proto payload args := rfl

@[simp] theorem Content.body_other (ethertype : U16) (body : List Byte) :
    (Content.other ethertype body).body = body := rfl

/-- The header length, in words. -/
def ihlOf (args : Ipv4Args) : ℕ := 5 + args.options.length / 4

/-- What the builders take: options in whole words, of which a header holds ten, addresses of
four bytes and a length that fits its field.  An IPv4 header that is none is cut short. -/
def Content.Valid : Content → Prop
  | .ipv4 _ payload args => args.options.length % 4 = 0 ∧ args.options.length ≤ 40 ∧
      args.src.length = 4 ∧ args.dst.length = 4 ∧ ihlOf args * 4 + payload.length < 2 ^ 16
  | .other ethertype body => ¬ IsVlan ethertype ∧ (ethertype = ethPIp → body.length < 20)

instance (c : Content) : Decidable c.Valid := by
  cases c <;> exact inferInstanceAs (Decidable (_ ∧ _))

/-- The type and the payload behind some tags: `vlan` around `vlan` around the content. -/
def tagged : List Tag → Content → U16 × List Byte
  | [], c => (c.ethertype, c.body)
  | t :: ts, c =>
    (t.tpid, vlan (BitVec.ofNat 16 t.pcp) t.vid (tagged ts c).1 (tagged ts c).2)

/-- The frame. -/
def frameOf (ts : List Tag) (c : Content) : Frame := eth (tagged ts c).1 (tagged ts c).2

/-- The bytes from the first EtherType on. -/
def typed (ts : List Tag) (c : Content) : List Byte := pack16 (tagged ts c).1 ++ (tagged ts c).2

theorem frameOf_eq (ts : List Tag) (c : Content) : frameOf ts c = dstMac ++ srcMac ++ typed ts c :=
  List.append_assoc ..

theorem typed_cons (t : Tag) (ts : List Tag) (c : Content) :
    typed (t :: ts) c = pack16 t.tpid ++ pack16 t.tci ++ typed ts c := by
  rw [typed, tagged, vlan, typed, List.append_assoc, List.append_assoc]
  rfl

/-- The EtherType that stands behind `k` tags. -/
def typeBehind (ts : List Tag) (c : Content) (k : ℕ) : U16 :=
  (ts[k]?.map Tag.tpid).getD c.ethertype

/-- The EtherTypes are read back. -/
theorem be16At_typed : ∀ (ts : List Tag) (c : Content) (k : ℕ), k ≤ ts.length →
    be16At (typed ts c) (4 * k) = typeBehind ts c k := by
  intro ts
  induction ts with
  | nil =>
    intro c k hk
    obtain rfl : k = 0 := Nat.le_zero.mp hk
    exact be16At_pack16 _ _
  | cons t ts ih =>
    intro c k hk
    rw [typed_cons]
    cases k with
    | zero =>
      rw [List.append_assoc]
      exact be16At_pack16 _ _
    | succ k =>
      rw [show 4 * (k + 1) = 4 + 4 * k by omega,
        be16At_append_right t.length_bytes]
      exact ih c k (Nat.le_of_succ_le_succ hk)

theorem etherTypeAt_frameOf (ts : List Tag) (c : Content) {k : ℕ} (hk : k ≤ ts.length) :
    etherTypeAt (frameOf ts c) k = typeBehind ts c k := by
  rw [etherTypeAt, frameOf_eq, be16At_append_right length_macs,
    be16At_typed ts c k hk]

/-- The first TCI is read back. -/
theorem tci_frameOf (t : Tag) (ts : List Tag) (c : Content) :
    be16At (frameOf (t :: ts) c) 14 = t.tci := by
  rw [frameOf_eq, show 14 = 12 + 2 from rfl, be16At_append_right length_macs,
    typed_cons, List.append_assoc, show 2 = 2 + 0 from rfl,
    be16At_append_right (length_pack16 t.tpid), be16At_pack16]

/-- The bytes of the content are read back. -/
theorem byteAt_typed : ∀ (ts : List Tag) (c : Content) (i : ℕ),
    byteAt (typed ts c) (4 * ts.length + 2 + i) = byteAt c.body i := by
  intro ts
  induction ts with
  | nil => intro c i; exact byteAt_append_right (length_pack16 c.ethertype) _ _
  | cons t ts ih =>
    intro c i
    rw [typed_cons, List.length_cons, show 4 * (ts.length + 1) + 2 + i
      = 4 + (4 * ts.length + 2 + i) by omega,
      byteAt_append_right t.length_bytes, ih]

theorem byteAt_frameOf (ts : List Tag) (c : Content) (i : ℕ) :
    byteAt (frameOf ts c) (14 + 4 * ts.length + i) = byteAt c.body i := by
  rw [frameOf_eq, show 14 + 4 * ts.length + i = 12 + (4 * ts.length + 2 + i) by omega,
    byteAt_append_right length_macs, byteAt_typed]

theorem be16At_frameOf (ts : List Tag) (c : Content) (i : ℕ) :
    be16At (frameOf ts c) (14 + 4 * ts.length + i) = be16At c.body i := by
  rw [be16At, be16At, byteAt_frameOf, Nat.add_assoc (14 + 4 * ts.length) i 1, byteAt_frameOf]

theorem length_typed : ∀ (ts : List Tag) (c : Content),
    (typed ts c).length = 4 * ts.length + 2 + c.body.length := by
  intro ts
  induction ts with
  | nil => intro c; simp [typed, tagged, length_pack16]
  | cons t ts ih =>
    intro c
    rw [typed_cons, List.length_append, ih, List.length_append, length_pack16, length_pack16,
      List.length_cons]
    omega

theorem length_frameOf (ts : List Tag) (c : Content) :
    (frameOf ts c).length = 14 + 4 * ts.length + c.body.length := by
  rw [frameOf_eq, List.length_append, length_typed]
  have hmacs := length_macs
  omega

/-! ### Tags -/

/-- The PCP of a tag is read back. -/
theorem tciPcp_tci (t : Tag) : tciPcp t.tci = BitVec.ofNat 8 t.pcp := by
  have hvid : (t.vid &&& 0xFFF) >>> 13 = 0#16 := by
    rw [BitVec.ushiftRight_and_distrib, show (0xFFF : U16) >>> 13 = 0 by decide]
    exact BitVec.and_zero
  rw [tciPcp, Tag.tci, BitVec.ushiftRight_or_distrib, hvid]
  have hall : ∀ p : Fin 8, (((BitVec.ofNat 16 p <<< 13) >>> 13 ||| 0#16 : U16) &&& 7).setWidth 8
      = BitVec.ofNat 8 p := by decide
  exact hall t.pcp

variable {ts : List Tag} {c : Content}

theorem not_isVlan (hc : c.Valid) : ¬ IsVlan c.ethertype := by
  cases c with
  | ipv4 => change ¬ IsVlan ethPIp; decide
  | other => exact hc.1

theorem isVlan_typeBehind {k : ℕ} (hk : k < ts.length) : IsVlan (typeBehind ts c k) := by
  rw [typeBehind, List.getElem?_eq_getElem hk]
  exact (ts[k]).isVlan

/-- How many tags the classifier reads. -/
theorem tagCount_frameOf (hc : c.Valid) : tagCount (frameOf ts c) = min ts.length 2 := by
  have hread : ∀ n k : ℕ, k ≤ ts.length →
      tagsFrom (frameOf ts c) k n = min (ts.length - k) n := by
    intro n
    induction n with
    | zero => intro k _; exact (Nat.min_zero _).symm
    | succ n ih =>
      intro k hk
      rw [tagsFrom, etherTypeAt_frameOf ts c hk]
      rcases Nat.lt_or_eq_of_le hk with hlt | rfl
      · rw [if_pos (isVlan_typeBehind hlt), ih (k + 1) hlt]
        omega
      · have htype : typeBehind ts c ts.length = c.ethertype := by
          rw [typeBehind, List.getElem?_eq_none (Nat.le_refl _)]
          rfl
        rw [if_neg (by rw [htype]; exact not_isVlan hc)]
        omega
  exact hread 2 0 (Nat.zero_le _)

theorem payloadOff_frameOf (hc : c.Valid) :
    payloadOff (frameOf ts c) = 14 + 4 * min ts.length 2 := by
  rw [payloadOff, tagCount_frameOf hc]

theorem tagsComplete_frameOf (hc : c.Valid) : TagsComplete (frameOf ts c) := by
  rw [TagsComplete, payloadOff_frameOf hc, length_frameOf]
  omega

theorem innerType_frameOf (hc : c.Valid) :
    innerType (frameOf ts c) = typeBehind ts c (min ts.length 2) := by
  rw [innerType, tagCount_frameOf hc, etherTypeAt_frameOf ts c (Nat.min_le_left _ _)]

/-- Behind no more than two tags the classifier reaches the content. -/
theorem innerType_of_le (hc : c.Valid) (hts : ts.length ≤ 2) :
    innerType (frameOf ts c) = c.ethertype := by
  rw [innerType_frameOf hc, Nat.min_eq_left hts, typeBehind, List.getElem?_eq_none (Nat.le_refl _)]
  rfl

/-- Behind more it stops at the third. -/
theorem isVlan_innerType (hc : c.Valid) (hts : ¬ ts.length ≤ 2) :
    IsVlan (innerType (frameOf ts c)) := by
  rw [innerType_frameOf hc, Nat.min_eq_right (by omega)]
  exact isVlan_typeBehind (by omega)

/-- The outermost PCP is one of the TS ones. -/
def pcpHigh : List Tag → Bool
  | [] => false
  | t :: _ => 5 ≤ (t.pcp : ℕ)

theorem pcpTs_frameOf (hc : c.Valid) {skb : Skb} (hdata : skb.data = frameOf ts c)
    (hmeta : skb.vlanPresent = 0) : PcpTs skb ↔ pcpHigh ts = true := by
  have hmeta : ¬ skb.vlanPresent ≠ 0 := fun h => h hmeta
  cases ts with
  | nil =>
    have htype : ¬ IsVlan (etherTypeAt skb.data 0) := by
      rw [hdata, etherTypeAt_frameOf [] c (Nat.zero_le _)]
      exact not_isVlan hc
    refine iff_of_false (not_pcpTs_of_none (outerPcp_of_untagged hmeta htype)) ?_
    exact Bool.false_ne_true
  | cons t ts =>
    have htype : IsVlan (etherTypeAt skb.data 0) := by
      rw [hdata, etherTypeAt_frameOf _ _ (Nat.zero_le _)]
      exact isVlan_typeBehind (Nat.succ_pos _)
    rw [pcpTs_iff_of_some (outerPcp_of_tag hmeta htype), hdata, tci_frameOf, tciPcp_tci, pcpHigh,
      decide_eq_true_iff]
    have hall : ∀ p : Fin 8, tsVlanPcpMin ≤ BitVec.ofNat 8 p ↔ 5 ≤ (p : ℕ) := by decide
    exact hall t.pcp

/-! ### The IPv4 header -/

section Ipv4

variable {proto : U8} {payload : List Byte} {args : Ipv4Args}

/-- The bytes of a built packet, up to the addresses one by one. -/
theorem ipv4_eq (proto : U8) (payload : List Byte) (args : Ipv4Args) :
    ipv4 proto payload args =
      [(4 <<< 4) ||| BitVec.ofNat 8 (ihlOf args), args.tos]
        ++ pack16 (BitVec.ofNat 16 (ihlOf args * 4 + payload.length)) ++ pack16 0x1234
        ++ pack16 args.fragOff ++ [args.ttl, proto]
        ++ pack16 (ipChecksum (ipv4Header proto payload args))
        ++ (args.src ++ args.dst ++ args.options ++ payload) := by
  rw [ipv4]
  simp only [← List.append_assoc]
  rfl

theorem length_ipv4 (hc : (Content.ipv4 proto payload args).Valid) :
    (ipv4 proto payload args).length = ihlOf args * 4 + payload.length := by
  obtain ⟨hmod, -, hsrc, hdst, -⟩ := hc
  rw [ipv4_eq]
  simp only [List.length_append, List.length_cons, List.length_nil, length_pack16, hsrc, hdst,
    ihlOf]
  omega

theorem byteAt_ipv4_zero : byteAt (ipv4 proto payload args) 0
    = ((4 : U8) <<< 4) ||| BitVec.ofNat 8 (ihlOf args) := by
  rw [ipv4_eq]
  rfl

theorem byteAt_ipv4_tos : byteAt (ipv4 proto payload args) 1 = args.tos := by
  rw [ipv4_eq]
  rfl

theorem byteAt_ipv4_proto : byteAt (ipv4 proto payload args) 9 = proto := by
  rw [ipv4_eq]
  rfl

theorem be16At_ipv4_fragOff : be16At (ipv4 proto payload args) 6 = args.fragOff := by
  rw [ipv4_eq]
  exact be16At_pack16 args.fragOff []

/-- The payload stands behind the header. -/
theorem byteAt_ipv4_payload (hc : (Content.ipv4 proto payload args).Valid) (i : ℕ) :
    byteAt (ipv4 proto payload args) (ihlOf args * 4 + i) = byteAt payload i := by
  obtain ⟨hmod, -, hsrc, hdst, -⟩ := hc
  rw [ipv4_eq, ← List.append_assoc]
  refine byteAt_append_right ?_ payload i
  simp only [List.length_append, List.length_cons, List.length_nil, length_pack16, hsrc, hdst,
    ihlOf]
  omega

theorem be16At_ipv4_payload (hc : (Content.ipv4 proto payload args).Valid) (i : ℕ) :
    be16At (ipv4 proto payload args) (ihlOf args * 4 + i) = be16At payload i := by
  rw [be16At, be16At, byteAt_ipv4_payload hc, Nat.add_assoc, byteAt_ipv4_payload hc]

theorem ihlOf_lt (hc : (Content.ipv4 proto payload args).Valid) : ihlOf args < 16 := by
  have hopt := hc.2.1
  rw [ihlOf]
  omega

/-- Version and header length of the first byte. -/
theorem version_ihl : ∀ n < 16, (((4 : U8) <<< 4) ||| BitVec.ofNat 8 n) >>> 4 = 4 ∧
    ((((4 : U8) <<< 4) ||| BitVec.ofNat 8 n) &&& 0xf).toNat = n := by decide

end Ipv4

/-! ### What is to become of a frame -/

/-- The datagram goes to a TS port. -/
def PortTs (cfg : TsConfig) (tsUdpPorts : U16 → Bool) (port : U16) : Prop :=
  (cfg.flags &&& tsCfgDisableUdpDefault = 0 ∧ port = tsDefaultUdpPort) ∨ tsUdpPorts port = true

instance (cfg : TsConfig) (tsUdpPorts : U16 → Bool) (port : U16) :
    Decidable (PortTs cfg tsUdpPorts port) := inferInstanceAs (Decidable (_ ∨ _))

/-- The arguments say that the packet is a fragment. -/
def FragmentArgs (args : Ipv4Args) : Prop := args.fragOff &&& (tsIpMf ||| tsIpOffset) ≠ 0

instance (args : Ipv4Args) : Decidable (FragmentArgs args) := inferInstanceAs (Decidable (¬ _))

/-- The reason of a content that no PCP decides. -/
def Content.reason (cfg : TsConfig) (tsUdpPorts : U16 → Bool) : Content → TsCounter
  | .ipv4 proto payload args =>
    if ¬ FragmentArgs args ∧ proto = ipprotoUdp ∧ 8 ≤ payload.length ∧
        PortTs cfg tsUdpPorts (be16At payload 2) then .tsUdp
    else .normal
  | .other ethertype _ => if ethertype = ethPIp then .parseShort else .normal

/-- The reason of a frame. -/
def expected (cfg : TsConfig) (tsUdpPorts : U16 → Bool) (ts : List Tag) (c : Content) :
    TsCounter :=
  if ts.length ≤ 2 ∧ c.ethertype = avtpEthertype then .tsAvtp
  else if pcpHigh ts then .tsPcp
  else if ts.length ≤ 2 then c.reason cfg tsUdpPorts
  else .normal

/-- A reason for TS. -/
def TsCounter.isTs : TsCounter → Bool
  | .tsAvtp | .tsPcp | .tsUdp => true
  | _ => false

/-- Where the header is that a mark goes to, or 0. -/
def headerOff (ts : List Tag) : Content → ℕ
  | .ipv4 _ _ args => if ts.length ≤ 2 ∧ ¬ FragmentArgs args then 14 + 4 * ts.length else 0
  | .other _ _ => 0

section Header

variable {proto : U8} {payload : List Byte} {args : Ipv4Args}

theorem fragment_frameOf :
    Fragment (frameOf ts (.ipv4 proto payload args)) (14 + 4 * ts.length) ↔ FragmentArgs args := by
  rw [fragment_iff, be16At_frameOf, Content.body_ipv4, be16At_ipv4_fragOff]
  rfl

variable (hc : (Content.ipv4 proto payload args).Valid)
include hc

/-- The header is found where it was built. -/
theorem ipv4At_frameOf (ts : List Tag) :
    Ipv4At (frameOf ts (.ipv4 proto payload args)) (14 + 4 * ts.length) ∧
      ipIhl (frameOf ts (.ipv4 proto payload args)) (14 + 4 * ts.length) = ihlOf args := by
  have hfirst := byteAt_frameOf ts (.ipv4 proto payload args) 0
  rw [Nat.add_zero, Content.body_ipv4, byteAt_ipv4_zero] at hfirst
  have hihl := version_ihl _ (ihlOf_lt hc)
  have hlen := length_ipv4 hc
  refine ⟨⟨?_, ?_, ?_⟩, ?_⟩
  · rw [length_frameOf, Content.body_ipv4, hlen, ihlOf]
    omega
  · rw [ipVersion, hfirst]
    exact hihl.1
  · rw [ipIhl, hfirst, hihl.2, ihlOf]
    omega
  · rw [ipIhl, hfirst, hihl.2]

theorem udpTs_frameOf (cfg : TsConfig) (tsUdpPorts : U16 → Bool) :
    UdpTs cfg tsUdpPorts (frameOf ts (.ipv4 proto payload args)) (14 + 4 * ts.length) ↔
      ¬ FragmentArgs args ∧ proto = ipprotoUdp ∧ 8 ≤ payload.length ∧
        PortTs cfg tsUdpPorts (be16At payload 2) := by
  obtain ⟨h4, hihl⟩ := ipv4At_frameOf hc ts
  have hport : be16At (frameOf ts (.ipv4 proto payload args))
      (14 + 4 * ts.length + ihlOf args * 4 + 2) = be16At payload 2 := by
    rw [Nat.add_assoc (14 + 4 * ts.length), be16At_frameOf]
    exact be16At_ipv4_payload hc 2
  have hproto :
      byteAt (frameOf ts (.ipv4 proto payload args)) (14 + 4 * ts.length + 9) = proto := by
    rw [byteAt_frameOf]
    exact byteAt_ipv4_proto
  have hlen : (frameOf ts (.ipv4 proto payload args)).length
      = 14 + 4 * ts.length + (ihlOf args * 4 + payload.length) := by
    rw [length_frameOf]
    exact congrArg _ (length_ipv4 hc)
  have hudp : 14 + 4 * ts.length + ihlOf args * 4 + 8
      ≤ 14 + 4 * ts.length + (ihlOf args * 4 + payload.length) ↔ 8 ≤ payload.length := by omega
  rw [UdpTs, fragment_frameOf, hihl, hproto, hlen, hudp, TsPort, hport]
  exact and_iff_right h4

end Header

/-- The offset that is recorded is that of the header that was built. -/
theorem ipOffOf_frameOf (ts : List Tag) (hc : c.Valid) :
    ipOffOf (frameOf ts c) = headerOff ts c := by
  by_cases hts : ts.length ≤ 2
  · have hoff : payloadOff (frameOf ts c) = 14 + 4 * ts.length := by
      rw [payloadOff_frameOf hc, Nat.min_eq_left hts]
    cases c with
    | ipv4 proto payload args =>
      rw [ipOffOf_of_ipv4 (tagsComplete_frameOf hc) (innerType_of_le hc hts), hoff, headerOff]
      simp only [fragment_frameOf, (ipv4At_frameOf hc ts).1, hts, true_and]
    | other ethertype body =>
      by_cases hip : ethertype = ethPIp
      · rw [ipOffOf_of_ipv4 (tagsComplete_frameOf hc) ((innerType_of_le hc hts).trans hip), hoff,
          if_neg, headerOff]
        -- such a header is cut short
        have hshort := hc.2 hip
        rintro ⟨h4, -⟩
        have hfits := h4.fits
        rw [length_frameOf] at hfits
        rw [Content.body_other] at hfits
        omega
      · exact ipOffOf_of_ne fun h => hip ((innerType_of_le hc hts).symm.trans h)
  · have hvlan := isVlan_innerType (c := c) hc hts
    have hne : innerType (frameOf ts c) ≠ ethPIp := by
      intro heq
      rw [heq] at hvlan
      exact absurd hvlan (by decide)
    rw [ipOffOf_of_ne hne]
    cases c with
    | ipv4 => exact (if_neg fun h => hts h.1).symm
    | other => rfl

/-- **The classifier decides by the arguments of the frame.** -/
theorem verdict_frameOf (hc : c.Valid) {skb : Skb} (hdata : skb.data = frameOf ts c)
    (hmeta : skb.vlanPresent = 0) (cfg : TsConfig) (tsUdpPorts : U16 → Bool) :
    verdict skb cfg tsUdpPorts = ((expected cfg tsUdpPorts ts c).isTs,
      { reason := expected cfg tsUdpPorts ts c, ipOff := headerOff ts c }) := by
  have hoff := ipOffOf_frameOf ts hc
  have hpcp := pcpTs_frameOf hc hdata hmeta
  simp only [verdict, hdata, tagsComplete_frameOf hc, not_true_eq_false, if_false, hoff, hpcp]
  rw [expected]
  by_cases hts : ts.length ≤ 2
  · -- at most two tags: the parser is at the content
    have hpay : payloadOff (frameOf ts c) = 14 + 4 * ts.length := by
      rw [payloadOff_frameOf hc, Nat.min_eq_left hts]
    rw [innerType_of_le hc hts, hpay]
    simp only [hts, true_and, if_true]
    -- AVTP comes before the outer PCP
    by_cases havtp : c.ethertype = avtpEthertype
    · rw [if_pos havtp, if_pos havtp]
      cases c with
      | ipv4 => exact absurd havtp (show ethPIp ≠ avtpEthertype by decide)
      | other => rfl
    rw [if_neg havtp, if_neg havtp]
    by_cases hhigh : pcpHigh ts = true
    · rw [if_pos hhigh, if_pos hhigh]
      rfl
    rw [if_neg hhigh, if_neg hhigh]
    cases c with
    | ipv4 proto payload args =>
      -- the whole IPv4 header is there, so the ports decide
      have hfits := (ipv4At_frameOf hc ts).1.fits
      rw [if_neg fun h => absurd h.2 (Nat.not_lt.mpr hfits), Content.reason]
      simp only [udpTs_frameOf hc, Content.ethertype, true_and]
      split <;> rfl
    | other ethertype body =>
      rw [Content.reason]
      -- an IPv4 type over a cut header, or content of no interest
      by_cases hip : ethertype = ethPIp
      · have hshort := hc.2 hip
        have hlen : (frameOf ts (.other ethertype body)).length < 14 + 4 * ts.length + 20 := by
          rw [length_frameOf, Content.body_other]
          omega
        rw [if_pos ⟨hip, hlen⟩, if_pos hip]
        rfl
      · rw [if_neg fun h => hip h.1, if_neg fun h => hip h.1, if_neg hip]
        rfl
  · -- a third tag: the type seen last is still a tag's
    have hvlan := isVlan_innerType (c := c) hc hts
    have havtp : innerType (frameOf ts c) ≠ avtpEthertype := by
      intro heq
      rw [heq] at hvlan
      exact absurd hvlan (by decide)
    have hip : innerType (frameOf ts c) ≠ ethPIp := by
      intro heq
      rw [heq] at hvlan
      exact absurd hvlan (by decide)
    rw [if_neg havtp,
      if_neg fun h : ts.length ≤ 2 ∧ c.ethertype = avtpEthertype => hts h.1, if_neg hts]
    by_cases hhigh : pcpHigh ts = true
    · rw [if_pos hhigh, if_pos hhigh]
      rfl
    · rw [if_neg hhigh, if_neg hhigh, if_neg fun h => hip h.1, if_neg fun h => hip h.1]
      rfl

/-! ### The checksum that is built in -/

/-- `parse_ipv4_tos_and_csum_ok`: the TOS byte, and whether the header verifies. -/
def parseIpv4TosAndCsumOk (frame : Frame) (ipOff : ℕ) : U8 × Bool :=
  let hdr := ipHeader frame ipOff
  (byteAt hdr 1, ipChecksum hdr == 0)

section Checksum

variable {proto : U8} {payload : List Byte} {args : Ipv4Args}

/-- The header as it is built, with its checksum. -/
def builtHeader (proto : U8) (payload : List Byte) (args : Ipv4Args) : List Byte :=
  [(4 <<< 4) ||| BitVec.ofNat 8 (ihlOf args), args.tos]
    ++ pack16 (BitVec.ofNat 16 (ihlOf args * 4 + payload.length)) ++ pack16 0x1234
    ++ pack16 args.fragOff ++ [args.ttl, proto]
    ++ pack16 (ipChecksum (ipv4Header proto payload args))
    ++ (args.src ++ args.dst ++ args.options)

theorem ipv4_eq_builtHeader :
    ipv4 proto payload args = builtHeader proto payload args ++ payload := by
  rw [ipv4_eq, builtHeader, ← List.append_assoc]

/-- Without its checksum it is the header the checksum was computed over. -/
theorem zeroWord_builtHeader :
    zeroWord (builtHeader proto payload args) 10 = ipv4Header proto payload args := by
  rw [builtHeader, ipv4Header, List.append_assoc, List.append_assoc]
  rfl

variable (hc : (Content.ipv4 proto payload args).Valid)
include hc

theorem length_builtHeader : (builtHeader proto payload args).length = ihlOf args * 4 := by
  have hlen := length_ipv4 hc
  rw [ipv4_eq_builtHeader, List.length_append] at hlen
  omega

/-- **A built header verifies.** -/
theorem ipChecksum_builtHeader : ipChecksum (builtHeader proto payload args) = 0 := by
  have hlen := length_builtHeader hc
  have hver : byteAt (builtHeader proto payload args) 0 >>> 4 = 4 :=
    (version_ihl _ (ihlOf_lt hc)).1
  refine checksum_eq_zero_of_stored (q := 10) rfl ?_ (wordSum_ne_zero_of_version hver) ?_
  · rw [hlen, ihlOf]
    omega
  · rw [zeroWord_builtHeader]
    exact be16At_pack16 _ []

/-- The header is the one that was built. -/
theorem ipHeader_frameOf (ts : List Tag) :
    ipHeader (frameOf ts (.ipv4 proto payload args)) (14 + 4 * ts.length)
      = builtHeader proto payload args := by
  obtain ⟨h4, hihl⟩ := ipv4At_frameOf hc ts
  have hbuilt := length_builtHeader hc
  have hfit : 14 + 4 * ts.length + ihlOf args * 4
      ≤ (frameOf ts (.ipv4 proto payload args)).length := by
    rw [length_frameOf, Content.body_ipv4, length_ipv4 hc]
    omega
  rw [ipHeader, hihl]
  refine ext_byteAt ((length_slice hfit).trans hbuilt.symm) fun i hi => ?_
  rw [length_slice hfit] at hi
  rw [byteAt_slice hfit hi, byteAt_frameOf, Content.body_ipv4, ipv4_eq_builtHeader,
    byteAt_append_left (by omega)]

/-- What the harness reads of a frame it built. -/
theorem parse_frameOf (ts : List Tag) :
    parseIpv4TosAndCsumOk (frameOf ts (.ipv4 proto payload args)) (14 + 4 * ts.length)
      = (args.tos, true) := by
  rw [parseIpv4TosAndCsumOk, ipHeader_frameOf hc, ipChecksum_builtHeader hc]
  rfl

end Checksum

/-! ### Marking a built frame -/

/-- The content with the DSCP. -/
def Content.mark (dscp : U8) : Content → Content
  | .ipv4 proto payload args => .ipv4 proto payload { args with tos := markTos dscp args.tos }
  | .other ethertype body => .other ethertype body

theorem Content.valid_mark {dscp : U8} (hc : c.Valid) : (c.mark dscp).Valid := by
  cases c with
  | ipv4 => exact hc
  | other => exact hc

/-- Marking twice is marking once. -/
@[simp] theorem Content.mark_mark (dscp : U8) (c : Content) :
    (c.mark dscp).mark dscp = c.mark dscp := by
  cases c with
  | ipv4 proto payload args =>
    have htos : markTos dscp (markTos dscp args.tos) = markTos dscp args.tos := by
      rw [markTos, markTos_ecn]
      rfl
    simp only [Content.mark, htos]
  | other => rfl

@[simp] theorem headerOff_mark (ts : List Tag) (dscp : U8) (c : Content) :
    headerOff ts (c.mark dscp) = headerOff ts c := by
  cases c <;> rfl

/-- The reason does not depend on the TOS byte. -/
@[simp] theorem expected_mark (cfg : TsConfig) (tsUdpPorts : U16 → Bool) (ts : List Tag)
    (dscp : U8) (c : Content) :
    expected cfg tsUdpPorts ts (c.mark dscp) = expected cfg tsUdpPorts ts c := by
  cases c <;> rfl

/-- A frame is its tags with the body behind them. -/
theorem tagged_eq_append : ∀ (ts : List Tag) (c : Content),
    tagged ts c = ((tagged ts (.other c.ethertype [])).1,
      (tagged ts (.other c.ethertype [])).2 ++ c.body) := by
  intro ts
  induction ts with
  | nil => intro c; rfl
  | cons t ts ih =>
    intro c
    rw [tagged, ih, tagged]
    simp only [vlan, List.append_assoc]

theorem frameOf_eq_append (ts : List Tag) (c : Content) :
    frameOf ts c = frameOf ts (.other c.ethertype []) ++ c.body := by
  rw [frameOf, tagged_eq_append, frameOf]
  simp only [eth, List.append_assoc]

/-- The bytes before the body depend on the type of the content alone. -/
theorem byteAt_frameOf_of_lt {c c' : Content} (htype : c'.ethertype = c.ethertype) {i : ℕ}
    (hi : i < 14 + 4 * ts.length) : byteAt (frameOf ts c') i = byteAt (frameOf ts c) i := by
  have hlen : i < (frameOf ts (.other c.ethertype [])).length := by
    rw [length_frameOf]
    exact hi
  rw [frameOf_eq_append ts c', frameOf_eq_append ts c, htype, byteAt_append_left hlen,
    byteAt_append_left hlen]

/-- The bytes of a word. -/
theorem bytes_of_be16At {l l' : List Byte} {i : ℕ} (h : be16At l i = be16At l' i) :
    byteAt l i = byteAt l' i ∧ byteAt l (i + 1) = byteAt l' (i + 1) := by
  have hnat := congrArg BitVec.toNat h
  rw [be16At, be16At, toNat_append, toNat_append] at hnat
  have hlow := (byteAt l (i + 1)).isLt
  have hlow' := (byteAt l' (i + 1)).isLt
  exact ⟨BitVec.eq_of_toNat_eq (by omega), BitVec.eq_of_toNat_eq (by omega)⟩

section Mark

variable {proto : U8} {payload : List Byte} {args : Ipv4Args}

/-- Headers built with different TOS bytes agree but for these and the checksums. -/
theorem byteAt_builtHeader_withTos (tos : U8) {i : ℕ} (h1 : i ≠ 1) (h10 : i ≠ 10)
    (h11 : i ≠ 11) : byteAt (builtHeader proto payload { args with tos := tos }) i
      = byteAt (builtHeader proto payload args) i := by
  rw [builtHeader, builtHeader]
  -- the checksums are of no matter
  generalize ipChecksum (ipv4Header proto payload args) = w
  generalize ipChecksum (ipv4Header proto payload { args with tos := tos }) = w'
  rcases i with _ | _ | _ | _ | _ | _ | _ | _ | _ | _ | _ | _ | i
  all_goals first | exact absurd rfl h1 | exact absurd rfl h10 | exact absurd rfl h11 | rfl

theorem be16At_builtHeader : be16At (builtHeader proto payload args) 10
    = checksum (zeroWord (builtHeader proto payload args) 10) := by
  rw [zeroWord_builtHeader]
  exact be16At_pack16 _ []

/-- Strings that agree outside a word are equal once it is zeroed. -/
theorem zeroWord_congr {l l' : List Byte} {q : ℕ} (hlen : l'.length = l.length)
    (hrest : ∀ i, i ≠ q → i ≠ q + 1 → byteAt l' i = byteAt l i) :
    zeroWord l' q = zeroWord l q := by
  refine ext_byteAt (by simp only [zeroWord, List.length_set, hlen]) fun i hi => ?_
  simp only [zeroWord, List.length_set] at hi
  rw [zeroWord, zeroWord]
  rcases eq_or_ne i (q + 1) with rfl | h1
  · rw [byteAt_set_self _ (by rw [List.length_set]; exact hi),
      byteAt_set_self _ (by rw [List.length_set, ← hlen]; exact hi)]
  rcases eq_or_ne i q with rfl | h0
  · rw [byteAt_set_of_ne _ (Ne.symm h1), byteAt_set_of_ne _ (Ne.symm h1), byteAt_set_self _ hi,
      byteAt_set_self _ (by rw [← hlen]; exact hi)]
  · rw [byteAt_set_of_ne _ (Ne.symm h1), byteAt_set_of_ne _ (Ne.symm h1),
      byteAt_set_of_ne _ (Ne.symm h0), byteAt_set_of_ne _ (Ne.symm h0), hrest i h0 h1]

variable {K : Kernel} (hK : K.Exact) (hT : K.Total) (hE : K.Eqn3)
  (hc : (Content.ipv4 proto payload args).Valid)

include hE hc in
/-- After the update the header is the one built with the new TOS byte: a checksum updated
from one computed from scratch is the one computed from scratch. -/
theorem ipHeader_rewrite {f f' : Frame} {o : ℕ} {tos : U8} {bs : List Byte} (hbs : bs.length = 2)
    (hf : f = frameOf ts (.ipv4 proto payload args)) (ho : o = 14 + 4 * ts.length)
    (hw : HeaderRewrite f f' o tos bs)
    (hcsum : K.l3CsumReplace f (o + 10) (tosWord K f o (byteAt f (o + 1))) (tosWord K f o tos)
      = some (overwrite f (o + 10) bs)) :
    ipHeader f' o = builtHeader proto payload { args with tos := tos } := by
  obtain ⟨h4, hihl⟩ := ipv4At_frameOf hc ts
  have hold := ipHeader_frameOf hc ts
  have hflen := length_frameOf ts (.ipv4 proto payload args)
  rw [Content.body_ipv4, length_ipv4 hc] at hflen
  rw [← hf, ← ho] at h4 hihl hold hflen
  have hlen := length_builtHeader hc
  have hlen' : (builtHeader proto payload { args with tos := tos }).length = ihlOf args * 4 :=
    length_builtHeader (show (Content.ipv4 proto payload { args with tos := tos }).Valid from hc)
  have hfive := h4.ihl
  have hfit : o + ipIhl f o * 4 ≤ f.length := by
    rw [hihl]
    omega
  have hup := hw.header_update hfit hE hfive hbs hcsum
  have hhlen := hw.header_length hfit
  have hrest := hw.header_rest hfit
  have hbyte1 : byteAt (ipHeader f' (o)) 1 = tos :=
    (hw.header_byte hfit (by omega)).trans (hw.byte 1)
  have hbyte0 : byteAt (ipHeader f' (o)) 0
      = byteAt (builtHeader proto payload args) 0 := by
    rw [hw.header_byte hfit (by omega), hw.byte 0, ← hold, byteAt_ipHeader hfit (by omega)]
    rfl
  rw [hold] at hup hhlen hrest
  -- outside the checksum it is the header that is built
  have hagree : ∀ i, i ≠ 10 → i ≠ 10 + 1 → byteAt (ipHeader f' (o)) i
      = byteAt (builtHeader proto payload { args with tos := tos }) i := by
    intro i h10 h11
    rcases eq_or_ne i 1 with rfl | h1
    · exact hbyte1
    rw [byteAt_builtHeader_withTos tos h1 h10 h11]
    rcases eq_or_ne i 0 with rfl | h0
    · exact hbyte0
    · exact hrest i h0 h1 h10 h11
  have hzero : zeroWord (ipHeader f' (o)) 10
      = zeroWord (builtHeader proto payload { args with tos := tos }) 10 :=
    zeroWord_congr (by omega) hagree
  have hver : ∀ {l : List Byte}, byteAt l 0 = byteAt (builtHeader proto payload args) 0 →
      wordSum (zeroWord l 10) ≠ 0 := fun hl => by
    refine wordSum_ne_zero_of_version ?_
    rw [byteAt_zeroWord_of_lt (by omega), hl]
    exact (version_ihl _ (ihlOf_lt hc)).1
  have hsum : be16At (ipHeader f' (o)) 10
      = be16At (builtHeader proto payload { args with tos := tos }) 10 := by
    rw [eq_checksum_of_update rfl rfl (by omega) (by omega) hhlen hrest hup (hver rfl)
      (hver hbyte0) be16At_builtHeader, hzero, be16At_builtHeader]
  obtain ⟨h10, h11⟩ := bytes_of_be16At hsum
  refine ext_byteAt (by omega) fun i _ => ?_
  rcases eq_or_ne i 10 with rfl | hi10
  · exact h10
  rcases eq_or_ne i (10 + 1) with rfl | hi11
  · exact h11
  · exact hagree i hi10 hi11

include hK hT hE hc

/-- Marking leaves the header that is built with the new TOS byte. -/
theorem ipHeader_markDscp (hts : ts.length ≤ 2) (dscp : U8) :
    ipHeader (markDscp K (frameOf ts (.ipv4 proto payload args)) (14 + 4 * ts.length) dscp).2
        (14 + 4 * ts.length)
      = builtHeader proto payload { args with tos := markTos dscp args.tos } := by
  have hfits := (ipv4At_frameOf hc ts).1.fits
  have htos : byteAt (frameOf ts (.ipv4 proto payload args)) (14 + 4 * ts.length + 1) = args.tos :=
    (byteAt_frameOf ts (.ipv4 proto payload args) 1).trans byteAt_ipv4_tos
  rcases markDscp_cases hK (frameOf ts (.ipv4 proto payload args)) (14 + 4 * ts.length) dscp with
    ⟨hle, hf⟩ | ⟨-, bs, hbs, hin, hcsum, ⟨hstore, -⟩ | ⟨hf⟩⟩
  · -- the DSCP is right already
    rcases markDscp_of_total hK hT dscp (show 14 + 4 * ts.length + 12
        ≤ (frameOf ts (.ipv4 proto payload args)).length by omega) (by omega) (by omega)
      with ⟨hsame, -⟩ | ⟨-, bs, -, hr⟩
    · rw [htos] at hsame
      rw [hf, hsame, ipHeader_frameOf hc]
    · rw [hr] at hle
      exact absurd (show (1 : ℤ) ≤ 0 from hle) (by decide)
  · -- the store is in range, so it does not fail
    have hsome : (K.skbStoreBytes (overwrite (frameOf ts (.ipv4 proto payload args))
        (14 + 4 * ts.length + 10) bs) (14 + 4 * ts.length + 1)
        [markTos dscp (byteAt (frameOf ts (.ipv4 proto payload args))
          (14 + 4 * ts.length + 1))]).isSome :=
      hT.store (by rw [length_overwrite (by omega), List.length_singleton]; omega)
    rw [hstore] at hsome
    cases hsome
  · rw [hf]
    rw [htos] at hcsum ⊢
    exact ipHeader_rewrite hE hc hbs rfl rfl (headerRewrite_overwrite hbs hin)
      (by rw [htos]; exact hcsum)

/-- Marking gives the frame that is built with the new TOS byte. -/
theorem markDscp_frameOf (hts : ts.length ≤ 2) (dscp : U8) :
    (markDscp K (frameOf ts (.ipv4 proto payload args)) (14 + 4 * ts.length) dscp).2
      = frameOf ts (.ipv4 proto payload { args with tos := markTos dscp args.tos }) := by
  have hc' : (Content.ipv4 proto payload { args with tos := markTos dscp args.tos }).Valid := hc
  obtain ⟨hlen, hbytes⟩ := markDscp_frame hK (frameOf ts (.ipv4 proto payload args))
    (14 + 4 * ts.length) dscp
  have hheader := ipHeader_markDscp hK hT hE hc hts dscp
  have hihl := (ipv4At_frameOf hc ts).2
  generalize (markDscp K (frameOf ts (.ipv4 proto payload args)) (14 + 4 * ts.length) dscp).2 = f'
    at hlen hbytes hheader ⊢
  have hihl' : ipIhl f' (14 + 4 * ts.length) = ihlOf args := by
    rw [← hihl, ipIhl, ipIhl, hbytes _ (by omega) (by omega) (by omega)]
  have hold := length_frameOf ts (.ipv4 proto payload args)
  have hnew := length_frameOf ts
    (.ipv4 proto payload { args with tos := markTos dscp args.tos })
  simp only [Content.body, length_ipv4 hc, length_ipv4 hc'] at hold hnew
  have htype : (Content.ipv4 proto payload args).ethertype
    = (Content.ipv4 proto payload { args with tos := markTos dscp args.tos }).ethertype := rfl
  have hsame : ihlOf { args with tos := markTos dscp args.tos } = ihlOf args := rfl
  refine ext_byteAt (by omega) fun i _ => ?_
  rcases Nat.lt_or_ge i (14 + 4 * ts.length) with hi | hi
  · rw [hbytes i (by omega) (by omega) (by omega)]
    exact byteAt_frameOf_of_lt htype hi
  obtain ⟨j, rfl⟩ := Nat.exists_eq_add_of_le hi
  rw [byteAt_frameOf]
  change byteAt f' _ = byteAt (ipv4 proto payload _) j
  rcases Nat.lt_or_ge j (ihlOf args * 4) with hj | hj
  · -- in the header
    rw [← byteAt_ipHeader (by omega) (show j < ipIhl f' (14 + 4 * ts.length) * 4 by omega),
      hheader, ipv4_eq_builtHeader, byteAt_append_left (by rw [length_builtHeader hc']; omega)]
  · -- in the payload
    have hfive := (ipv4At_frameOf hc ts).1.ihl
    obtain ⟨k, rfl⟩ := Nat.exists_eq_add_of_le hj
    rw [hbytes _ (by omega) (by omega) (by omega), byteAt_frameOf]
    exact (byteAt_ipv4_payload hc k).trans (byteAt_ipv4_payload hc' k).symm

end Mark

/-- **Marking gives the frame of the content that is marked.** -/
theorem markDscp_headerOff {K : Kernel} (hK : K.Exact) (hT : K.Total) (hE : K.Eqn3)
    (hc : c.Valid) (hoff : headerOff ts c ≠ 0) (dscp : U8) :
    (markDscp K (frameOf ts c) (headerOff ts c) dscp).2 = frameOf ts (c.mark dscp) := by
  cases c with
  | ipv4 proto payload args =>
    rw [headerOff] at hoff ⊢
    split at hoff
    case isTrue hts =>
      rw [if_pos hts]
      exact markDscp_frameOf hK hT hE hc hts.1 dscp
    case isFalse => exact absurd rfl hoff
  | other => exact absurd rfl hoff

end TsPacket
