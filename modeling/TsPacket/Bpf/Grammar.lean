import Mathlib.Order.Basic
import TsPacket.Bpf.Classify

/-!
# The classification grammar

What a frame is, said without a parser.  The EtherType that stands after `k` tags is
the word at `12 + 4 * k`, so the tags of a frame are counted (`tagCount`) rather than
walked over, and what follows them starts at `payloadOff`.  On these rest the three
grounds for a TS packet: the AVTP EtherType, the outer PCP, and an unfragmented UDP
datagram to a TS port.

`verdict` puts the grounds together with the exits of the parser and is shown to be
what `classify` computes, for every frame of every length; the claims about the
parser are then about `verdict`.

## Main definitions

* `tagCount`, `payloadOff`, `innerType` — the tags and what they wrap.
* `outerPcp`, `PcpTs` — the outer priority code point, from metadata or packet.
* `Ipv4At`, `Fragment`, `UdpTs` — the IPv4 header and the UDP rule.
* `verdict` — the verdict in closed form.

## Main results

* `tagLoop_eq` — the loop consumes the tags `tagCount` counts, or stops at a cut one.
* `classify_eq_verdict` — **the parser computes the grammar**; in particular it never
  reads outside the frame.
-/

namespace TsPacket

open Bytes

/-! ### Tags -/

/-- The EtherType that stands after `k` tags. -/
def etherTypeAt (f : Frame) (k : ℕ) : U16 := be16At f (12 + 4 * k)

/-- An EtherType that announces a tag. -/
def IsVlan (t : U16) : Prop := t = ethP8021Q ∨ t = ethP8021AD

instance (t : U16) : Decidable (IsVlan t) := inferInstanceAs (Decidable (_ ∨ _))

/-- How many of the `n` tags from the `k`-th on are present. -/
def tagsFrom (f : Frame) : ℕ → ℕ → ℕ
  | _, 0 => 0
  | k, n + 1 => if IsVlan (etherTypeAt f k) then tagsFrom f (k + 1) n + 1 else 0

/-- How many of the first two tags are present. -/
def tagCount (f : Frame) : ℕ := tagsFrom f 0 2

/-- Where the frame goes on after at most two tags. -/
def payloadOff (f : Frame) : ℕ := 14 + 4 * tagCount f

/-- The EtherType left after at most two tags. -/
def innerType (f : Frame) : U16 := etherTypeAt f (tagCount f)

/-- The Ethernet header and each of the first two tags present are complete. -/
def TagsComplete (f : Frame) : Prop := payloadOff f ≤ f.length

instance (f : Frame) : Decidable (TagsComplete f) := inferInstanceAs (Decidable (_ ≤ _))

theorem tagsFrom_le (f : Frame) : ∀ n k : ℕ, tagsFrom f k n ≤ n := by
  intro n
  induction n with
  | zero => intro k; exact Nat.le_refl 0
  | succ n ih =>
    intro k
    rw [tagsFrom]
    split
    · exact Nat.succ_le_succ (ih (k + 1))
    · exact Nat.zero_le _

theorem tagCount_le (f : Frame) : tagCount f ≤ 2 := tagsFrom_le f 2 0

theorem payloadOff_le (f : Frame) : payloadOff f ≤ 22 := by
  have := tagCount_le f
  unfold payloadOff
  omega

theorem le_payloadOff (f : Frame) : 14 ≤ payloadOff f := Nat.le_add_right 14 _

theorem tagCount_pos_iff (f : Frame) : 0 < tagCount f ↔ IsVlan (etherTypeAt f 0) := by
  rw [tagCount, tagsFrom]
  split <;> simp [*]

/-! ### The grounds for TS -/

/-- The outer PCP: of the tag in the metadata, else of the first tag in the packet. -/
def outerPcp (skb : Skb) : Option U8 :=
  if skb.vlanPresent ≠ 0 then some (vlanTciPcp skb.vlanTci)
  else if IsVlan (etherTypeAt skb.data 0) then some (tciPcp (be16At skb.data 14))
  else none

/-- The outer PCP is one of the TS ones. -/
def PcpTs (skb : Skb) : Prop := ∃ p ∈ outerPcp skb, tsVlanPcpMin ≤ p

instance (skb : Skb) : Decidable (PcpTs skb) := inferInstanceAs (Decidable (∃ _ ∈ _, _))

theorem outerPcp_of_meta {skb : Skb} (h : skb.vlanPresent ≠ 0) :
    outerPcp skb = some (vlanTciPcp skb.vlanTci) := if_pos h

theorem outerPcp_of_tag {skb : Skb} (h : ¬ skb.vlanPresent ≠ 0)
    (hv : IsVlan (etherTypeAt skb.data 0)) :
    outerPcp skb = some (tciPcp (be16At skb.data 14)) := by
  rw [outerPcp, if_neg h, if_pos hv]

theorem outerPcp_of_untagged {skb : Skb} (h : ¬ skb.vlanPresent ≠ 0)
    (hv : ¬ IsVlan (etherTypeAt skb.data 0)) : outerPcp skb = none := by
  rw [outerPcp, if_neg h, if_neg hv]

theorem pcpTs_iff_of_some {skb : Skb} {p : U8} (h : outerPcp skb = some p) :
    PcpTs skb ↔ tsVlanPcpMin ≤ p := by
  rw [PcpTs, h]
  simp

theorem not_pcpTs_of_none {skb : Skb} (h : outerPcp skb = none) : ¬ PcpTs skb := by
  rw [PcpTs, h]
  simp

/-- The version of the IPv4 header at `o`. -/
def ipVersion (f : Frame) (o : ℕ) : U8 := byteAt f o >>> 4
/-- Its length, in words of four bytes. -/
def ipIhl (f : Frame) (o : ℕ) : ℕ := (byteAt f o &&& 0xf).toNat

/-- A whole fixed IPv4 header stands at `o`. -/
structure Ipv4At (f : Frame) (o : ℕ) : Prop where
  fits : o + 20 ≤ f.length
  version : ipVersion f o = 4
  ihl : 5 ≤ ipIhl f o

theorem ipv4At_iff (f : Frame) (o : ℕ) :
    Ipv4At f o ↔ o + 20 ≤ f.length ∧ ipVersion f o = 4 ∧ 5 ≤ ipIhl f o :=
  ⟨fun h => ⟨h.fits, h.version, h.ihl⟩, fun h => ⟨h.1, h.2.1, h.2.2⟩⟩

instance (f : Frame) (o : ℕ) : Decidable (Ipv4At f o) := decidable_of_iff _ (ipv4At_iff f o).symm

/-- MF is set or the fragment offset is not zero. -/
def Fragment (f : Frame) (o : ℕ) : Prop :=
  be16At f (o + 6) &&& tsIpMf ≠ 0 ∨ be16At f (o + 6) &&& tsIpOffset ≠ 0

instance (f : Frame) (o : ℕ) : Decidable (Fragment f o) := inferInstanceAs (Decidable (_ ∨ _))

/-- The frame wraps IPv4, and its fixed header is complete and well formed. -/
def Ipv4Frame (f : Frame) : Prop :=
  TagsComplete f ∧ innerType f = ethPIp ∧ Ipv4At f (payloadOff f)

instance (f : Frame) : Decidable (Ipv4Frame f) := inferInstanceAs (Decidable (_ ∧ _))

/-- The destination port of the UDP header at `u` is a TS port. -/
def TsPort (cfg : TsConfig) (tsUdpPorts : U16 → Bool) (f : Frame) (u : ℕ) : Prop :=
  (cfg.flags &&& tsCfgDisableUdpDefault = 0 ∧ be16At f (u + 2) = tsDefaultUdpPort) ∨
    tsUdpPorts (be16At f (u + 2)) = true

instance (cfg : TsConfig) (tsUdpPorts : U16 → Bool) (f : Frame) (u : ℕ) :
    Decidable (TsPort cfg tsUdpPorts f u) := inferInstanceAs (Decidable (_ ∨ _))

/-- An unfragmented UDP datagram to a TS port, its IPv4 header at `o`. -/
def UdpTs (cfg : TsConfig) (tsUdpPorts : U16 → Bool) (f : Frame) (o : ℕ) : Prop :=
  Ipv4At f o ∧ ¬ Fragment f o ∧ byteAt f (o + 9) = ipprotoUdp ∧
    o + ipIhl f o * 4 + 8 ≤ f.length ∧ TsPort cfg tsUdpPorts f (o + ipIhl f o * 4)

instance (cfg : TsConfig) (tsUdpPorts : U16 → Bool) (f : Frame) (o : ℕ) :
    Decidable (UdpTs cfg tsUdpPorts f o) := inferInstanceAs (Decidable (_ ∧ _))

theorem fragment_iff (f : Frame) (o : ℕ) :
    Fragment f o ↔ be16At f (o + 6) &&& (tsIpMf ||| tsIpOffset) ≠ 0 := by
  have hor : be16At f (o + 6) &&& (tsIpMf ||| tsIpOffset)
      = (be16At f (o + 6) &&& tsIpMf) ||| (be16At f (o + 6) &&& tsIpOffset) := by
    ext i hi
    simp only [BitVec.getElem_and, BitVec.getElem_or, Bool.and_or_distrib_left]
  rw [hor]
  exact not_and_or.symm.trans (not_congr BitVec.or_eq_zero_iff.symm)

/-! ### The verdict in closed form -/

/-- The offset the parser records: of an unfragmented IPv4 header, else zero. -/
def ipOffOf (f : Frame) : ℕ :=
  if Ipv4Frame f ∧ ¬ Fragment f (payloadOff f) then payloadOff f else 0

theorem ipOffOf_of_ipv4 {f : Frame} (hcomp : TagsComplete f) (hip : innerType f = ethPIp) :
    ipOffOf f = if Ipv4At f (payloadOff f) ∧ ¬ Fragment f (payloadOff f) then payloadOff f
      else 0 := by
  simp only [ipOffOf, Ipv4Frame, hcomp, hip, true_and]

theorem ipOffOf_of_ne {f : Frame} (hip : innerType f ≠ ethPIp) : ipOffOf f = 0 := by
  rw [ipOffOf, if_neg fun h => hip h.1.2.1]

/-- The verdict and the `parse_result` of a frame, by the grammar. -/
def verdict (skb : Skb) (cfg : TsConfig) (tsUdpPorts : U16 → Bool) : Bool × ParseResult :=
  let f := skb.data
  let o := payloadOff f
  if ¬ TagsComplete f then (false, { reason := .parseShort })
  else if innerType f = avtpEthertype then (true, { reason := .tsAvtp })
  else if PcpTs skb then (true, { reason := .tsPcp, ipOff := ipOffOf f })
  else if innerType f = ethPIp ∧ f.length < o + 20 then (false, { reason := .parseShort })
  else if innerType f = ethPIp ∧ UdpTs cfg tsUdpPorts f o then
    (true, { reason := .tsUdp, ipOff := ipOffOf f })
  else (false, { reason := .normal, ipOff := ipOffOf f })

/-! ### The loop over the tags -/

theorem tagLoop_stop {f : Frame} {st : TagState} (hv : ¬ IsVlan st.proto) (n : ℕ) :
    tagLoop f n st = some (.parsed st) := by
  cases n with
  | zero => rfl
  | succ n =>
    rw [IsVlan, not_or] at hv
    rw [tagLoop, if_pos hv]

theorem tagLoop_short {f : Frame} {st : TagState} (hv : IsVlan st.proto)
    (hcut : f.length < st.off + 4) (n : ℕ) : tagLoop f (n + 1) st = some .short := by
  have hproto : ¬ (st.proto ≠ ethP8021Q ∧ st.proto ≠ ethP8021AD) := by
    rw [not_and_or, not_not, not_not]; exact hv
  rw [tagLoop, if_neg hproto, if_pos hcut]

theorem tagPcp_eq {f : Frame} {st : TagState} (h : st.off + 2 ≤ f.length) :
    tagPcp f st = some (if st.hasPcp = true then st.pcp else tciPcp (be16At f st.off)) := by
  rw [tagPcp, readBe16_eq_some h, Option.map_some]
  split <;> rfl

theorem tagLoop_next {f : Frame} {st : TagState} (hv : IsVlan st.proto)
    (hlen : st.off + 4 ≤ f.length) (n : ℕ) :
    tagLoop f (n + 1) st = tagLoop f n
      { proto := be16At f (st.off + 2)
        off := st.off + 4
        pcp := if st.hasPcp = true then st.pcp else tciPcp (be16At f st.off)
        hasPcp := true } := by
  have hproto : ¬ (st.proto ≠ ethP8021Q ∧ st.proto ≠ ethP8021AD) := by
    rw [not_and_or, not_not, not_not]; exact hv
  rw [tagLoop, if_neg hproto, if_neg (Nat.not_lt.mpr hlen), tagPcp_eq (by omega),
    readBe16_eq_some (by omega)]
  rfl

/-- The variables the loop leaves once it consumed the tags from the `k`-th on.  The PCP
is that of the first of them, if there was none before. -/
def tagsLeft (f : Frame) (k n : ℕ) (pcp : U8) (hasPcp : Bool) : TagState where
  proto := etherTypeAt f (k + tagsFrom f k n)
  off := 14 + 4 * (k + tagsFrom f k n)
  pcp := if hasPcp = true ∨ tagsFrom f k n = 0 then pcp else tciPcp (be16At f (14 + 4 * k))
  hasPcp := hasPcp || decide (0 < tagsFrom f k n)

/-- **The loop consumes the tags `tagsFrom` counts**, and stops short exactly when the
last of them is cut. -/
theorem tagLoop_eq (f : Frame) : ∀ (n k : ℕ) (pcp : U8) (hasPcp : Bool),
    14 + 4 * k ≤ f.length →
    tagLoop f n { proto := etherTypeAt f k, off := 14 + 4 * k, pcp := pcp, hasPcp := hasPcp }
      = some (if f.length < 14 + 4 * (k + tagsFrom f k n) then .short
        else .parsed (tagsLeft f k n pcp hasPcp)) := by
  intro n
  induction n with
  | zero =>
    intro k pcp hasPcp hlen
    rw [tagLoop, tagsFrom, Nat.add_zero, if_neg (by omega)]
    simp [tagsLeft, tagsFrom]
  | succ n ih =>
    intro k pcp hasPcp hlen
    -- a round finds no tag, a cut one, or one more to consume
    by_cases hv : IsVlan (etherTypeAt f k)
    · have htags : tagsFrom f k (n + 1) = tagsFrom f (k + 1) n + 1 := by
        rw [tagsFrom, if_pos hv]
      have hsum : k + (tagsFrom f (k + 1) n + 1) = k + 1 + tagsFrom f (k + 1) n := by omega
      rw [tagsLeft, htags, hsum]
      by_cases hcut : f.length < 14 + 4 * k + 4
      · rw [tagLoop_short hv hcut, if_pos (by omega)]
      · have hnext : 14 + 4 * k + 4 = 14 + 4 * (k + 1) := by omega
        have henc : be16At f (14 + 4 * k + 2) = etherTypeAt f (k + 1) := by
          rw [etherTypeAt]; congr 1; omega
        rw [tagLoop_next hv (Nat.not_lt.mp hcut)]
        simp only [hnext, henc]
        rw [ih (k + 1) _ true (by omega)]
        simp [tagsLeft]
    · have htags : tagsFrom f k (n + 1) = 0 := by rw [tagsFrom, if_neg hv]
      rw [tagLoop_stop hv, tagsLeft, htags, Nat.add_zero, if_neg (by omega)]
      simp

/-- The variables the loop starts from. -/
def tagInit (skb : Skb) : TagState :=
  if skb.vlanPresent ≠ 0 then
    { proto := etherTypeAt skb.data 0, off := 14, pcp := vlanTciPcp skb.vlanTci, hasPcp := true }
  else { proto := etherTypeAt skb.data 0, off := 14, pcp := 0, hasPcp := false }

/-- **The loop over a frame's tags**: it ends behind them with the outer PCP, or at a
cut one. -/
theorem tagLoop_tagInit (skb : Skb) (hlen : 14 ≤ skb.data.length) :
    ∃ st : TagState, tagLoop skb.data 2 (tagInit skb)
        = some (if TagsComplete skb.data then .parsed st else .short) ∧
      st.proto = innerType skb.data ∧ st.off = payloadOff skb.data ∧
      ((st.hasPcp = true ∧ tsVlanPcpMin ≤ st.pcp) ↔ PcpTs skb) := by
  have hcut : ∀ st : TagState, (if skb.data.length < 14 + 4 * (0 + tagsFrom skb.data 0 2) then
      TagLoop.short else .parsed st) = if TagsComplete skb.data then .parsed st else .short := by
    intro st
    rw [← ite_not]
    congr 1
    rw [TagsComplete, payloadOff, tagCount, Nat.zero_add, Nat.not_lt]
  have hproto : ∀ pcp hasPcp, (tagsLeft skb.data 0 2 pcp hasPcp).proto = innerType skb.data := by
    intro pcp hasPcp
    rw [tagsLeft, innerType, tagCount, Nat.zero_add]
  have hoff : ∀ pcp hasPcp, (tagsLeft skb.data 0 2 pcp hasPcp).off = payloadOff skb.data := by
    intro pcp hasPcp
    rw [tagsLeft, payloadOff, tagCount, Nat.zero_add]
  have hpos : 0 < tagsFrom skb.data 0 2 ↔ IsVlan (etherTypeAt skb.data 0) :=
    tagCount_pos_iff skb.data
  -- the outer tag is the one in the metadata, or else the first in the packet
  by_cases hmeta : skb.vlanPresent ≠ 0
  · have h := tagLoop_eq skb.data 2 0 (vlanTciPcp skb.vlanTci) true (by omega)
    rw [hcut] at h
    refine ⟨_, by rw [tagInit, if_pos hmeta]; exact h, hproto _ _, hoff _ _, ?_⟩
    rw [pcpTs_iff_of_some (outerPcp_of_meta hmeta)]
    simp [tagsLeft]
  · have h := tagLoop_eq skb.data 2 0 0 false (by omega)
    rw [hcut] at h
    refine ⟨_, by rw [tagInit, if_neg hmeta]; exact h, hproto _ _, hoff _ _, ?_⟩
    by_cases hv : IsVlan (etherTypeAt skb.data 0)
    · have hne : tagsFrom skb.data 0 2 ≠ 0 := by have := hpos.mpr hv; omega
      rw [pcpTs_iff_of_some (outerPcp_of_tag hmeta hv)]
      simp [tagsLeft, hne, Nat.pos_of_ne_zero hne]
    · have hz : tagsFrom skb.data 0 2 = 0 := by have := mt hpos.mp hv; omega
      refine iff_of_false ?_ (not_pcpTs_of_none (outerPcp_of_untagged hmeta hv))
      simp [tagsLeft, hz]

/-! ### The parser computes the grammar -/

theorem classifyDone_of_pcp {pr : ParseResult} (h : pr.reason = .tsPcp) :
    classifyDone pr = (true, pr) := if_pos h

theorem classifyDone_of_ne {pr : ParseResult} (h : pr.reason ≠ .tsPcp) :
    classifyDone pr = (false, { pr with reason := .normal }) := if_neg h

theorem udpReason_of_pcp {pr : ParseResult} (h : pr.reason = .tsPcp) : udpReason pr = pr :=
  if_neg (not_not.mpr h)

theorem udpReason_of_ne {pr : ParseResult} (h : pr.reason ≠ .tsPcp) :
    udpReason pr = { pr with reason := .tsUdp } := if_pos h

/-- The UDP branch once the PCP decided: only the reads can fail. -/
theorem classifyUdp_of_pcp (f : Frame) (cfg : TsConfig) (tsUdpPorts : U16 → Bool) (u : ℕ)
    {pr : ParseResult} (h : pr.reason = .tsPcp) :
    classifyUdp f cfg tsUdpPorts u pr = some (true, pr) := by
  unfold classifyUdp
  by_cases hlen : f.length < u + 8
  · rw [if_pos hlen, classifyDone_of_pcp h]
  · rw [if_neg hlen, readBe16_eq_some (show u + 2 + 2 ≤ f.length by omega), udpReason_of_pcp h,
      classifyDone_of_pcp h]
    simp

/-- The UDP branch otherwise: the port decides. -/
theorem classifyUdp_of_ne (f : Frame) (cfg : TsConfig) (tsUdpPorts : U16 → Bool) (u : ℕ)
    {pr : ParseResult} (h : pr.reason ≠ .tsPcp) :
    classifyUdp f cfg tsUdpPorts u pr = some
      (if u + 8 ≤ f.length ∧ TsPort cfg tsUdpPorts f u then (true, { pr with reason := .tsUdp })
      else (false, { pr with reason := .normal })) := by
  unfold classifyUdp
  -- a cut UDP header is no port, so the frame is normal
  by_cases hlen : f.length < u + 8
  · rw [if_pos hlen, if_neg (by omega), classifyDone_of_ne h]
  · have hfit : u + 8 ≤ f.length := by omega
    rw [if_neg hlen, readBe16_eq_some (show u + 2 + 2 ≤ f.length by omega), udpReason_of_ne h,
      classifyDone_of_ne h]
    simp only [TsPort, hfit, true_and, Option.bind_eq_bind, Option.bind_some]
    by_cases hdef : cfg.flags &&& tsCfgDisableUdpDefault = 0 ∧ be16At f (u + 2) = tsDefaultUdpPort
    · rw [if_pos hdef, if_pos (Or.inl hdef)]
    · rw [if_neg hdef]
      by_cases hmap : tsUdpPorts (be16At f (u + 2)) = true
      · rw [if_pos hmap, if_pos (Or.inr hmap)]
      · rw [if_neg hmap, if_neg (not_or.mpr ⟨hdef, hmap⟩)]

/-- What the IPv4 branch does below the checks of the header: `ip_off` is recorded for
an unfragmented header, and the UDP rule is asked. -/
theorem classifyIpv4_eq (f : Frame) (cfg : TsConfig) (tsUdpPorts : U16 → Bool) (o : ℕ)
    (pr : ParseResult) (hoff : pr.ipOff = 0) :
    classifyIpv4 f cfg tsUdpPorts o pr = some
      (let ipOff := if Ipv4At f o ∧ ¬ Fragment f o then o else 0
      if pr.reason = .tsPcp then (true, { reason := .tsPcp, ipOff := ipOff })
      else if f.length < o + 20 then (false, { reason := .parseShort, ipOff := 0 })
      else if UdpTs cfg tsUdpPorts f o then (true, { reason := .tsUdp, ipOff := ipOff })
      else (false, { reason := .normal, ipOff := ipOff })) := by
  obtain ⟨reason, ipOff⟩ := pr
  simp only at hoff
  subst hoff
  unfold classifyIpv4
  -- the exits in the order of the source, each with the PCP verdict so far or without
  by_cases hlen : f.length < o + 20
  · have h4 : ¬ Ipv4At f o := fun h => absurd h.fits (by omega)
    rw [if_pos hlen]
    by_cases hpcp : reason = .tsPcp <;> simp [hpcp, hlen, h4]
  · have hfit : o + 20 ≤ f.length := by omega
    rw [if_neg hlen, read8_eq_some (show o < f.length by omega)]
    simp only [Option.bind_eq_bind, Option.bind_some]
    by_cases hver : byteAt f o >>> 4 = 4
    · rw [if_neg (not_not.mpr hver)]
      by_cases hihl : (byteAt f o &&& 0xf).toNat * 4 < 20
      · have h4 : ¬ Ipv4At f o := fun h => by
          have := h.ihl
          unfold ipIhl at this
          omega
        rw [if_pos hihl]
        by_cases hpcp : reason = .tsPcp <;> simp [classifyDone, UdpTs, hpcp, hlen, h4]
      · have h4 : Ipv4At f o := ⟨hfit, hver, by unfold ipIhl; omega⟩
        rw [if_neg hihl, readBe16_eq_some (show o + 6 + 2 ≤ f.length by omega)]
        simp only [Option.bind_some]
        by_cases hfrag : Fragment f o
        · rw [if_pos ((fragment_iff f o).mp hfrag)]
          by_cases hpcp : reason = .tsPcp <;> simp [classifyDone, UdpTs, hpcp, hlen, hfrag]
        · rw [if_neg (fun h => hfrag ((fragment_iff f o).mpr h)),
            read8_eq_some (show o + 9 < f.length by omega)]
          simp only [Option.bind_some]
          by_cases hudp : byteAt f (o + 9) = ipprotoUdp
          · rw [if_pos hudp]
            by_cases hpcp : reason = .tsPcp
            · rw [classifyUdp_of_pcp _ _ _ _ hpcp]
              simp [hpcp, h4, hfrag]
            · rw [classifyUdp_of_ne _ _ _ _ hpcp]
              simp [UdpTs, hpcp, hlen, h4, hfrag, hudp, ipIhl]
          · rw [if_neg hudp]
            by_cases hpcp : reason = .tsPcp <;>
              simp [classifyDone, UdpTs, hpcp, hlen, h4, hfrag, hudp]
    · have h4 : ¬ Ipv4At f o := fun h => hver h.version
      rw [if_pos hver]
      by_cases hpcp : reason = .tsPcp <;> simp [classifyDone, UdpTs, hpcp, hlen, h4]

/-- **The parser computes the grammar**, reading nothing outside the frame. -/
theorem classify_eq_verdict (skb : Skb) (cfg : TsConfig) (tsUdpPorts : U16 → Bool) :
    classify skb cfg tsUdpPorts {} = some (verdict skb cfg tsUdpPorts) := by
  have hle := le_payloadOff skb.data
  unfold classify
  by_cases hlen : skb.data.length < 14
  · have hcut : ¬ TagsComplete skb.data := by rw [TagsComplete]; omega
    rw [if_pos hlen, verdict, if_pos hcut]
  · obtain ⟨st, hloop, hproto, hoff, hpcp⟩ := tagLoop_tagInit skb (by omega)
    have hread : readBe16 skb.data 12 = some (etherTypeAt skb.data 0) :=
      readBe16_eq_some (by omega)
    rw [if_neg hlen, hread]
    simp only [Option.bind_eq_bind, Option.bind_some]
    rw [show (if skb.vlanPresent ≠ 0 then
        ({ proto := etherTypeAt skb.data 0, off := 14, pcp := vlanTciPcp skb.vlanTci,
           hasPcp := true } : TagState)
        else { proto := etherTypeAt skb.data 0, off := 14, pcp := 0, hasPcp := false })
        = tagInit skb from rfl, hloop]
    by_cases hcomp : TagsComplete skb.data
    · -- behind whole tags: AVTP, then the PCP, then the IPv4 branch
      rw [if_pos hcomp]
      simp only [Option.bind_some, hproto, hoff]
      rw [verdict, if_neg (not_not.mpr hcomp)]
      by_cases havtp : innerType skb.data = avtpEthertype
      · rw [if_pos havtp, if_pos havtp]
      · rw [if_neg havtp, if_neg havtp]
        by_cases hip : innerType skb.data = ethPIp
        · rw [if_pos hip, classifyIpv4_eq _ _ _ _ _ (by split <;> rfl), ipOffOf_of_ipv4 hcomp hip]
          by_cases hp : PcpTs skb
          · rw [if_pos (hpcp.mpr hp)]
            simp [hp]
          · rw [if_neg (mt hpcp.mp hp)]
            by_cases hshort : skb.data.length < payloadOff skb.data + 20
            · simp [hp, hip, hshort]
            · simp [hp, hip, hshort]
        · rw [if_neg hip, ipOffOf_of_ne hip]
          by_cases hp : PcpTs skb
          · rw [if_pos (hpcp.mpr hp)]
            simp [hp, classifyDone]
          · rw [if_neg (mt hpcp.mp hp)]
            simp [hp, hip, classifyDone]
    · rw [if_neg hcomp, verdict, if_pos hcomp]
      rfl

end TsPacket
