import TsPacket.Bpf.Harness
import TsPacket.Bpf.Verdict

/-!
# Classification with the outer tag in the metadata

A driver may take the outer tag out of the packet and hand it over in `vlan_tci`.  What
stands behind the tag moves by its four bytes (`Stripped`), and the grammar moves with
it, one tag less to count.  But the loop of the parser still looks at two tags, so of a
stripped frame it sees a third one that it does not see when the outer tag is in the
packet.

## Main definitions

* `offload` — the packet as a driver that strips the outer tag hands it over.
* `SameClass` — same verdict, same reason, and the same IPv4 header.
* `ThirdTagMatters` — a third tag is there, and what follows it is of consequence.

## Main results

* `sameClass_of_two_tags` — with at most two tags nothing depends on the driver.
* `classify_offload_iff` — **the two classifications agree exactly if no third tag
  matters**.
-/

namespace TsPacket

open Bytes

/-- The packet with its outer tag moved to the metadata. -/
def offload (skb : Skb) : Skb :=
  { skb with
    data := removeRange skb.data 12 4
    vlanPresent := 1
    vlanTci := (be16At skb.data 14).setWidth 32 }

/-- Same verdict, same reason, and the IPv4 offset four bytes further, or none. -/
def SameClass (r r' : Bool × ParseResult) : Prop :=
  r.1 = r'.1 ∧ r.2.reason = r'.2.reason ∧
    (r.2.ipOff = r'.2.ipOff + 4 ∨ (r.2.ipOff = 0 ∧ r'.2.ipOff = 0))

/-- Three tags stand in the packet, and what follows the third decides something: it is
cut, or announces AVTP, or an IPv4 header that is cut or of which the offset is used. -/
def ThirdTagMatters (skb : Skb) : Prop :=
  IsVlan (etherTypeAt skb.data 1) ∧ IsVlan (etherTypeAt skb.data 2) ∧ 22 ≤ skb.data.length ∧
    (skb.data.length < 26 ∨ etherTypeAt skb.data 3 = avtpEthertype ∨
      (etherTypeAt skb.data 3 = ethPIp ∧
        ((skb.data.length < 46 ∧ ¬ PcpTs skb) ∨
          (Ipv4At skb.data 26 ∧ ¬ Fragment skb.data 26))))

instance (skb : Skb) : Decidable (ThirdTagMatters skb) := inferInstanceAs (Decidable (_ ∧ _))

/-! ### What the removal moves -/

/-- `g` is `f` without four bytes at offset `12`, as far as the grammar looks. -/
structure Stripped (f g : Frame) : Prop where
  length : g.length + 4 = f.length
  byteAt : ∀ i, 12 ≤ i → byteAt g i = Bytes.byteAt f (i + 4)

theorem stripped_removeRange {f : Frame} (h : 16 ≤ f.length) :
    Stripped f (removeRange f 12 4) where
  length := by rw [length_removeRange h]; omega
  byteAt i hi := by rw [byteAt_removeRange h, if_neg (by omega)]

namespace Stripped

variable {f g : Frame} {o : ℕ}

theorem be16At (h : Stripped f g) {i : ℕ} (hi : 12 ≤ i) :
    be16At g i = Bytes.be16At f (i + 4) := by
  rw [Bytes.be16At, Bytes.be16At, h.byteAt i hi, h.byteAt (i + 1) (by omega),
    Nat.add_right_comm]

theorem etherTypeAt (h : Stripped f g) (k : ℕ) :
    etherTypeAt g k = TsPacket.etherTypeAt f (k + 1) := by
  rw [TsPacket.etherTypeAt, TsPacket.etherTypeAt, h.be16At (by omega)]
  congr 1

theorem tagsFrom (h : Stripped f g) : ∀ n k : ℕ,
    tagsFrom g k n = TsPacket.tagsFrom f (k + 1) n := by
  intro n
  induction n with
  | zero => intro k; rfl
  | succ n ih =>
    intro k
    rw [TsPacket.tagsFrom, TsPacket.tagsFrom, h.etherTypeAt, ih]

theorem ipIhl (h : Stripped f g) (ho : 12 ≤ o) : ipIhl g o = TsPacket.ipIhl f (o + 4) := by
  rw [TsPacket.ipIhl, TsPacket.ipIhl, h.byteAt o ho]

theorem ipv4At_iff (h : Stripped f g) (ho : 12 ≤ o) : Ipv4At g o ↔ Ipv4At f (o + 4) := by
  have hlen := h.length
  rw [TsPacket.ipv4At_iff, TsPacket.ipv4At_iff, ipVersion, ipVersion, h.ipIhl ho,
    h.byteAt o ho]
  refine and_congr_left fun _ => ?_
  omega

theorem fragment_iff (h : Stripped f g) (ho : 12 ≤ o) : Fragment g o ↔ Fragment f (o + 4) := by
  rw [Fragment, Fragment, h.be16At (by omega), Nat.add_right_comm]

theorem tsPort_iff (h : Stripped f g) (cfg : TsConfig) (tsUdpPorts : U16 → Bool)
    (ho : 12 ≤ o) : TsPort cfg tsUdpPorts g o ↔ TsPort cfg tsUdpPorts f (o + 4) := by
  rw [TsPort, TsPort, h.be16At (by omega), Nat.add_right_comm]

theorem udpTs_iff (h : Stripped f g) (cfg : TsConfig) (tsUdpPorts : U16 → Bool)
    (ho : 12 ≤ o) : UdpTs cfg tsUdpPorts g o ↔ UdpTs cfg tsUdpPorts f (o + 4) := by
  have hlen := h.length
  have hu : o + TsPacket.ipIhl f (o + 4) * 4 + 4 = o + 4 + TsPacket.ipIhl f (o + 4) * 4 := by
    omega
  rw [UdpTs, UdpTs, h.ipv4At_iff ho, h.fragment_iff ho, h.byteAt (o + 9) (by omega),
    h.ipIhl ho, h.tsPort_iff cfg tsUdpPorts (by omega), hu, Nat.add_right_comm o 9 4]
  refine and_congr_right fun _ => and_congr_right fun _ => and_congr_right fun _ => ?_
  refine and_congr_left fun _ => ?_
  omega

end Stripped

/-! ### The outer PCP does not move -/

theorem vlanTciPcp_setWidth (tci : U16) : vlanTciPcp (tci.setWidth 32) = tciPcp tci := by
  apply BitVec.eq_of_toNat_eq
  simp only [vlanTciPcp, tciPcp, BitVec.toNat_setWidth, BitVec.toNat_and, BitVec.toNat_ushiftRight]
  rw [Nat.mod_eq_of_lt (show tci.toNat < 2 ^ 32 by omega)]
  rfl

theorem outerPcp_offload {skb : Skb} (h0 : skb.vlanPresent = 0)
    (hv : IsVlan (etherTypeAt skb.data 0)) : outerPcp (offload skb) = outerPcp skb := by
  have hmeta : (offload skb).vlanPresent ≠ 0 := by
    change (1 : U32) ≠ 0
    decide
  rw [outerPcp_of_meta hmeta, outerPcp_of_tag (not_not.mpr h0) hv]
  exact congrArg some (vlanTciPcp_setWidth _)

theorem pcpTs_offload {skb : Skb} (h0 : skb.vlanPresent = 0)
    (hv : IsVlan (etherTypeAt skb.data 0)) : PcpTs (offload skb) ↔ PcpTs skb := by
  rw [PcpTs, PcpTs, outerPcp_offload h0 hv]

/-! ### At most two tags -/

/-- Without a third tag the stripped frame has one tag less. -/
theorem tagCount_of_stripped {f g : Frame} (h : Stripped f g) (hv : IsVlan (etherTypeAt f 0))
    (h3 : ¬ (IsVlan (etherTypeAt f 1) ∧ IsVlan (etherTypeAt f 2))) :
    tagCount f = tagCount g + 1 := by
  rw [tagCount, tagCount, h.tagsFrom, tagsFrom, if_pos hv]
  congr 1
  rw [tagsFrom, tagsFrom, tagsFrom, tagsFrom, tagsFrom]
  by_cases h1 : IsVlan (etherTypeAt f 1)
  · rw [if_pos h1, if_pos h1, if_neg fun h2 => h3 ⟨h1, h2⟩]
  · rw [if_neg h1, if_neg h1]

/-- With one it has two tags still. -/
theorem tagCount_of_third {f g : Frame} (h : Stripped f g) (h1 : IsVlan (etherTypeAt f 1))
    (h2 : IsVlan (etherTypeAt f 2)) : tagCount g = 2 := by
  rw [tagCount, h.tagsFrom]
  simp only [tagsFrom, if_pos h1, if_pos h2]

section

variable {skb : Skb} (cfg : TsConfig) (tsUdpPorts : U16 → Bool)

/-- **With at most two tags nothing depends on the driver.** -/
theorem sameClass_of_two_tags (h0 : skb.vlanPresent = 0)
    (hv : IsVlan (etherTypeAt skb.data 0)) (hlen : 18 ≤ skb.data.length)
    (h3 : ¬ (IsVlan (etherTypeAt skb.data 1) ∧ IsVlan (etherTypeAt skb.data 2))) :
    SameClass (verdict skb cfg tsUdpPorts) (verdict (offload skb) cfg tsUdpPorts) := by
  have hs : Stripped skb.data (offload skb).data := stripped_removeRange (by omega)
  have hslen := hs.length
  have htags := tagCount_of_stripped hs hv h3
  -- whatever the verdict asks about the payload is asked four bytes earlier
  have hoff : payloadOff skb.data = payloadOff (offload skb).data + 4 := by
    rw [payloadOff, payloadOff, htags, Nat.mul_add, Nat.add_assoc]
  have ho : 12 ≤ payloadOff (offload skb).data := by
    have := le_payloadOff (offload skb).data
    omega
  have hinner : innerType skb.data = innerType (offload skb).data := by
    rw [innerType, innerType, hs.etherTypeAt, htags]
  have hcomp : TagsComplete skb.data ↔ TagsComplete (offload skb).data := by
    rw [TagsComplete, TagsComplete, hoff]
    omega
  have hshort : skb.data.length < payloadOff skb.data + 20 ↔
      (offload skb).data.length < payloadOff (offload skb).data + 20 := by
    rw [hoff]
    omega
  have hudp : UdpTs cfg tsUdpPorts skb.data (payloadOff skb.data) ↔
      UdpTs cfg tsUdpPorts (offload skb).data (payloadOff (offload skb).data) := by
    rw [hoff, hs.udpTs_iff cfg tsUdpPorts ho]
  have hipOff : ipOffOf skb.data = ipOffOf (offload skb).data + 4 ∨
      (ipOffOf skb.data = 0 ∧ ipOffOf (offload skb).data = 0) := by
    have h4 : (Ipv4Frame skb.data ∧ ¬ Fragment skb.data (payloadOff skb.data)) ↔
        (Ipv4Frame (offload skb).data ∧
          ¬ Fragment (offload skb).data (payloadOff (offload skb).data)) := by
      rw [Ipv4Frame, Ipv4Frame, hcomp, hinner, hoff, hs.ipv4At_iff ho, hs.fragment_iff ho]
    by_cases hf : Ipv4Frame skb.data ∧ ¬ Fragment skb.data (payloadOff skb.data)
    · left
      rw [ipOffOf, ipOffOf, if_pos hf, if_pos (h4.mp hf), hoff]
    · right
      rw [ipOffOf, ipOffOf, if_neg hf, if_neg (mt h4.mpr hf)]
      exact ⟨rfl, rfl⟩
  -- so both take the same branch, and only the offset they record differs
  simp only [verdict, hcomp, hinner, hshort, hudp, pcpTs_offload h0 hv]
  split
  · exact ⟨rfl, rfl, Or.inr ⟨rfl, rfl⟩⟩
  split
  · exact ⟨rfl, rfl, Or.inr ⟨rfl, rfl⟩⟩
  split
  · exact ⟨rfl, rfl, hipOff⟩
  split
  · exact ⟨rfl, rfl, Or.inr ⟨rfl, rfl⟩⟩
  split
  · exact ⟨rfl, rfl, hipOff⟩
  · exact ⟨rfl, rfl, hipOff⟩

/-! ### A third tag -/

theorem IsVlan.ne_avtp {t : U16} (h : IsVlan t) : t ≠ avtpEthertype := by
  rcases h with rfl | rfl <;> decide

theorem IsVlan.ne_ip {t : U16} (h : IsVlan t) : t ≠ ethPIp := by
  rcases h with rfl | rfl <;> decide

/-- In the packet three tags hide what is inside: only the PCP counts. -/
theorem verdict_of_third (hv : IsVlan (etherTypeAt skb.data 0))
    (h1 : IsVlan (etherTypeAt skb.data 1)) (h2 : IsVlan (etherTypeAt skb.data 2)) :
    verdict skb cfg tsUdpPorts =
      if skb.data.length < 22 then (false, { reason := .parseShort })
      else if PcpTs skb then (true, { reason := .tsPcp })
      else (false, { reason := .normal }) := by
  have htags : tagCount skb.data = 2 := by
    simp only [tagCount, tagsFrom, if_pos hv, if_pos h1]
  have hinner : IsVlan (innerType skb.data) := by rw [innerType, htags]; exact h2
  have hcomp : TagsComplete skb.data ↔ ¬ skb.data.length < 22 := by
    rw [TagsComplete, payloadOff, htags, Nat.not_lt]
  simp only [verdict, hcomp, not_not, if_neg hinner.ne_avtp, hinner.ne_ip, false_and, if_false,
    ipOffOf_of_ne hinner.ne_ip]

/-- The IPv4 header behind three tags, of which the stripped frame records the offset. -/
def Ipv4BehindThird (f : Frame) : Prop :=
  etherTypeAt f 3 = ethPIp ∧ Ipv4At f 26 ∧ ¬ Fragment f 26

instance (f : Frame) : Decidable (Ipv4BehindThird f) := inferInstanceAs (Decidable (_ ∧ _))

/-- Of the stripped frame the parser sees what is behind the third tag. -/
theorem verdict_offload_of_third (h0 : skb.vlanPresent = 0)
    (hv : IsVlan (etherTypeAt skb.data 0)) (hlen : 18 ≤ skb.data.length)
    (h1 : IsVlan (etherTypeAt skb.data 1)) (h2 : IsVlan (etherTypeAt skb.data 2)) :
    verdict (offload skb) cfg tsUdpPorts =
      let ipOff := if Ipv4BehindThird skb.data then 22 else 0
      if skb.data.length < 26 then (false, { reason := .parseShort })
      else if etherTypeAt skb.data 3 = avtpEthertype then (true, { reason := .tsAvtp })
      else if PcpTs skb then (true, { reason := .tsPcp, ipOff := ipOff })
      else if etherTypeAt skb.data 3 = ethPIp ∧ skb.data.length < 46 then
        (false, { reason := .parseShort })
      else if etherTypeAt skb.data 3 = ethPIp ∧ UdpTs cfg tsUdpPorts skb.data 26 then
        (true, { reason := .tsUdp, ipOff := ipOff })
      else (false, { reason := .normal, ipOff := ipOff }) := by
  have hs : Stripped skb.data (offload skb).data := stripped_removeRange (by omega)
  have hslen := hs.length
  -- the parser steps over the two tags behind the stripped one
  have htags := tagCount_of_third hs h1 h2
  have hoff : payloadOff (offload skb).data = 22 := by rw [payloadOff, htags]
  have hinner : innerType (offload skb).data = etherTypeAt skb.data 3 := by
    rw [innerType, htags, hs.etherTypeAt]
  have hcomp : TagsComplete (offload skb).data ↔ ¬ skb.data.length < 26 := by
    rw [TagsComplete, hoff]
    omega
  -- every bound is read four bytes further on in the frame of the wire
  have hshort : (offload skb).data.length < 22 + 20 ↔ skb.data.length < 46 := by omega
  have hipOff : ¬ skb.data.length < 26 →
      ipOffOf (offload skb).data = if Ipv4BehindThird skb.data then 22 else 0 := by
    intro hlong
    simp only [ipOffOf, Ipv4Frame, hcomp, hinner, hoff, hlong, not_false_eq_true, true_and,
      hs.ipv4At_iff (show 12 ≤ 22 by omega), hs.fragment_iff (show 12 ≤ 22 by omega),
      Ipv4BehindThird, and_assoc]
    rfl
  simp only [verdict, hcomp, not_not, hinner, hoff, pcpTs_offload h0 hv, hshort,
    hs.udpTs_iff cfg tsUdpPorts (show 12 ≤ 22 by omega)]
  by_cases hcut : skb.data.length < 26
  · rw [if_pos hcut, if_pos hcut]
  · rw [if_neg hcut, if_neg hcut, hipOff hcut]

/-- With three tags the classifications agree exactly if the third does not matter. -/
theorem sameClass_iff_of_third (h0 : skb.vlanPresent = 0)
    (hv : IsVlan (etherTypeAt skb.data 0)) (hlen : 18 ≤ skb.data.length)
    (h1 : IsVlan (etherTypeAt skb.data 1)) (h2 : IsVlan (etherTypeAt skb.data 2)) :
    SameClass (verdict skb cfg tsUdpPorts) (verdict (offload skb) cfg tsUdpPorts) ↔
      ¬ ThirdTagMatters skb := by
  rw [verdict_of_third cfg tsUdpPorts hv h1 h2,
    verdict_offload_of_third cfg tsUdpPorts h0 hv hlen h1 h2]
  simp only [ThirdTagMatters, h1, h2, true_and]
  by_cases h22 : skb.data.length < 22
  · rw [if_pos h22, if_pos (by omega)]
    refine iff_of_true ⟨rfl, rfl, Or.inr ⟨rfl, rfl⟩⟩ fun h => ?_
    omega
  rw [if_neg h22]
  simp only [Nat.not_lt.mp h22, true_and]
  by_cases h26 : skb.data.length < 26
  · -- the third tag is cut for one of the two only
    rw [if_pos h26]
    refine iff_of_false (fun h => ?_) (not_not.mpr (Or.inl h26))
    have hreason := h.2.1
    split at hreason <;> cases hreason
  rw [if_neg h26]
  simp only [h26, false_or]
  by_cases havtp : etherTypeAt skb.data 3 = avtpEthertype
  · rw [if_pos havtp]
    refine iff_of_false (fun h => ?_) (not_not.mpr (Or.inl havtp))
    have hreason := h.2.1
    split at hreason <;> cases hreason
  rw [if_neg havtp]
  simp only [havtp, false_or]
  -- from here on only an offset recorded, or a cut header, tells the two apart
  by_cases hpcp : PcpTs skb
  · rw [if_pos hpcp, if_pos hpcp]
    simp only [hpcp, not_true_eq_false, and_false, false_or]
    by_cases h4 : Ipv4BehindThird skb.data
    · rw [if_pos h4]
      exact iff_of_false (fun h => by rcases h.2.2 with h | h <;> simp at h) (not_not.mpr h4)
    · rw [if_neg h4]
      exact iff_of_true ⟨rfl, rfl, Or.inr ⟨rfl, rfl⟩⟩ h4
  rw [if_neg hpcp, if_neg hpcp]
  simp only [hpcp, not_false_eq_true, and_true]
  by_cases hshort : etherTypeAt skb.data 3 = ethPIp ∧ skb.data.length < 46
  · rw [if_pos hshort]
    exact iff_of_false (fun h => by cases h.2.1) (not_not.mpr ⟨hshort.1, Or.inl hshort.2⟩)
  rw [if_neg hshort]
  by_cases hudp : etherTypeAt skb.data 3 = ethPIp ∧ UdpTs cfg tsUdpPorts skb.data 26
  · rw [if_pos hudp]
    exact iff_of_false (fun h => by cases h.1)
      (not_not.mpr ⟨hudp.1, Or.inr ⟨hudp.2.1, hudp.2.2.1⟩⟩)
  rw [if_neg hudp]
  by_cases h4 : Ipv4BehindThird skb.data
  · rw [if_pos h4]
    exact iff_of_false (fun h => by rcases h.2.2 with h | h <;> simp at h)
      (not_not.mpr ⟨h4.1, Or.inr h4.2⟩)
  · rw [if_neg h4]
    refine iff_of_true ⟨rfl, rfl, Or.inr ⟨rfl, rfl⟩⟩ ?_
    rintro ⟨hip, h46 | h4'⟩
    · exact hshort ⟨hip, h46⟩
    · exact h4 ⟨hip, h4'⟩

/-- **The two classifications agree exactly if no third tag matters.** -/
theorem sameClass_iff (h0 : skb.vlanPresent = 0)
    (hv : IsVlan (etherTypeAt skb.data 0)) (hlen : 18 ≤ skb.data.length) :
    SameClass (verdict skb cfg tsUdpPorts) (verdict (offload skb) cfg tsUdpPorts) ↔
      ¬ ThirdTagMatters skb := by
  by_cases h3 : IsVlan (etherTypeAt skb.data 1) ∧ IsVlan (etherTypeAt skb.data 2)
  · exact sameClass_iff_of_third cfg tsUdpPorts h0 hv hlen h3.1 h3.2
  · exact iff_of_true (sameClass_of_two_tags cfg tsUdpPorts h0 hv hlen h3)
      fun h => h3 ⟨h.1, h.2.1⟩

end

/-- **Classification does not depend on whether the driver stripped the tag exactly if no
third tag matters.**  The packet has its outer tag, whole, in its bytes. -/
theorem classify_offload_iff (skb : Skb) (cfg : TsConfig) (tsUdpPorts : U16 → Bool)
    (h0 : skb.vlanPresent = 0) (hv : IsVlan (etherTypeAt skb.data 0))
    (hlen : 18 ≤ skb.data.length) :
    (∃ r r', classify skb cfg tsUdpPorts {} = some r ∧
      classify (offload skb) cfg tsUdpPorts {} = some r' ∧ SameClass r r') ↔
      ¬ ThirdTagMatters skb := by
  rw [← sameClass_iff cfg tsUdpPorts h0 hv hlen, classify_eq_verdict, classify_eq_verdict]
  constructor
  · rintro ⟨r, r', hr, hr', hsame⟩
    rw [Option.some.inj hr, Option.some.inj hr']
    exact hsame
  · exact fun hsame => ⟨_, _, rfl, rfl, hsame⟩

/-- A datagram to the default port behind a stack of tags, all of PCP 0. -/
def taggedUdp (vids : List U16) : Frame :=
  let p := vids.foldr (fun vid p => (ethP8021Q, vlan 0 vid p.1 p.2))
    (ethPIp, ipv4 ipprotoUdp (udp 6000 [] 12345) {})
  eth p.1 p.2

theorem classify_offload_iff_two_tags :
    (∃ r r', classify { data := taggedUdp [200, 10] } {} (fun _ => false) {} = some r ∧
      classify (offload { data := taggedUdp [200, 10] }) {} (fun _ => false) {} = some r' ∧
      SameClass r r') ↔ ¬ ThirdTagMatters { data := taggedUdp [200, 10] } :=
  classify_offload_iff _ _ _ rfl (by decide) (by decide)

/-- Behind three tags the datagram is TS only if the driver stripped the outer one. -/
theorem classify_offload_three_tags :
    let skb : Skb := { data := taggedUdp [300, 200, 10] }
    skb.vlanPresent = 0 ∧ IsVlan (etherTypeAt skb.data 0) ∧ 18 ≤ skb.data.length ∧
      classify skb {} (fun _ => false) {} = some (false, { reason := .normal }) ∧
      classify (offload skb) {} (fun _ => false) {}
        = some (true, { reason := .tsUdp, ipOff := 22 }) ∧
      ¬ ∃ r r', classify skb {} (fun _ => false) {} = some r ∧
        classify (offload skb) {} (fun _ => false) {} = some r' ∧ SameClass r r' := by
  have hin : classify { data := taggedUdp [300, 200, 10] } {} (fun _ => false) {}
      = some (false, { reason := .normal }) := by decide
  have hoff : classify (offload { data := taggedUdp [300, 200, 10] }) {} (fun _ => false) {}
      = some (true, { reason := .tsUdp, ipOff := 22 }) := by decide
  refine ⟨rfl, by decide, by decide, hin, hoff, ?_⟩
  rintro ⟨r, r', hr, hr', hsame⟩
  rw [hin] at hr
  rw [hoff] at hr'
  cases hr
  cases hr'
  cases hsame.1

end TsPacket
