import TsPacket.Lib.OnesComplement
import TsPacket.Bpf.Harness
import TsPacket.Bpf.SameTags
import TsPacket.Bpf.Verdict

/-!
# More visible bytes

A frame that is cut at `data_end` may have more bytes in the packet.  Whether the verdict
on the visible part stands once more of it is seen is a question about two runs of the
parser, on `f` and on `f ++ g`.  A TS verdict stands, since what it rests on is in `f`; so
does a normal one, but for a frame that ends in the UDP header.

## Main definitions

* `Skb.extend` — the packet with more bytes visible.
* `OpenPort` — an unfragmented UDP datagram whose cut header may still name a TS port.

## Main results

* `isTs_extend`, `tsReason_extend` — a ground for TS is one in the extension, for the same
  reason.
* `verdict_final_iff` — **a decided verdict is final exactly if no port is open.**
-/

namespace TsPacket

open Bytes OnesComplement

/-- The packet with the bytes `g` visible behind its frame. -/
def Skb.extend (skb : Skb) (g : List Byte) : Skb := { skb with data := skb.data ++ g }

section

variable (cfg : TsConfig) (tsUdpPorts : U16 → Bool)

/-- A TS port, by default or by the map. -/
def IsTsPort (p : U16) : Prop :=
  (cfg.flags &&& tsCfgDisableUdpDefault = 0 ∧ p = tsDefaultUdpPort) ∨ tsUdpPorts p = true

instance (p : U16) : Decidable (IsTsPort cfg tsUdpPorts p) := inferInstanceAs (Decidable (_ ∨ _))

/-- The bytes of the destination port that are visible are those of `p`. -/
def PortAgrees (f : Frame) (u : ℕ) (p : U16) : Prop :=
  (u + 2 < f.length → byteAt f (u + 2) = (p >>> 8).setWidth 8) ∧
    (u + 3 < f.length → byteAt f (u + 3) = p.setWidth 8)

instance (f : Frame) (u : ℕ) (p : U16) : Decidable (PortAgrees f u p) :=
  inferInstanceAs (Decidable (_ ∧ _))

/-- The UDP header of an unfragmented datagram is cut, and a TS port agrees with what is
visible of its destination. -/
def OpenPort (f : Frame) (o : ℕ) : Prop :=
  Ipv4At f o ∧ ¬ Fragment f o ∧ byteAt f (o + 9) = ipprotoUdp ∧
    f.length < o + ipIhl f o * 4 + 8 ∧
    ∃ p, IsTsPort cfg tsUdpPorts p ∧ PortAgrees f (o + ipIhl f o * 4) p

end

variable {skb : Skb} {cfg : TsConfig} {tsUdpPorts : U16 → Bool} {f g : Frame}

/-! ### What stays -/

theorem be16At_append_left {i : ℕ} (h : i + 2 ≤ f.length) :
    be16At (f ++ g) i = be16At f i := by
  rw [be16At, be16At, byteAt_append_left (by omega), byteAt_append_left (by omega)]

theorem tagsComplete_extend (hcomp : TagsComplete skb.data) :
    TagsComplete (skb.extend g).data := by
  unfold TagsComplete Skb.extend
  rw [(sameTags_append hcomp g).payloadOff, List.length_append]
  exact Nat.le_trans hcomp (Nat.le_add_right _ _)

theorem innerType_extend (hcomp : TagsComplete skb.data) :
    innerType (skb.extend g).data = innerType skb.data := (sameTags_append hcomp g).innerType

theorem payloadOff_extend (hcomp : TagsComplete skb.data) :
    payloadOff (skb.extend g).data = payloadOff skb.data := (sameTags_append hcomp g).payloadOff

theorem pcpTs_extend (hcomp : TagsComplete skb.data) : PcpTs (skb.extend g) ↔ PcpTs skb := by
  have htags : SameTags skb.data (skb.extend g).data := sameTags_append hcomp g
  exact htags.pcpTs ⟨rfl, rfl⟩

theorem ipIhl_append {o : ℕ} (hlen : o < f.length) : ipIhl (f ++ g) o = ipIhl f o := by
  rw [ipIhl, ipIhl, byteAt_append_left hlen]

/-- Behind a whole IPv4 header the UDP rule looks at the length and the port only. -/
theorem udpTs_append {o : ℕ} (hlen : o + 20 ≤ f.length) :
    UdpTs cfg tsUdpPorts (f ++ g) o ↔ Ipv4At f o ∧ ¬ Fragment f o ∧
      byteAt f (o + 9) = ipprotoUdp ∧ o + ipIhl f o * 4 + 8 ≤ (f ++ g).length ∧
      IsTsPort cfg tsUdpPorts (be16At (f ++ g) (o + ipIhl f o * 4 + 2)) := by
  have hfirst : byteAt (f ++ g) o = byteAt f o := byteAt_append_left (by omega)
  have hat : Ipv4At (f ++ g) o ↔ Ipv4At f o := by
    rw [ipv4At_iff, ipv4At_iff, ipVersion, ipVersion, ipIhl, ipIhl, hfirst, List.length_append]
    exact and_congr_left fun _ => ⟨fun _ => hlen, fun _ => by omega⟩
  have hfrag : Fragment (f ++ g) o ↔ Fragment f o := by
    rw [Fragment, Fragment, be16At_append_left (by omega)]
  rw [UdpTs, hat, hfrag, byteAt_append_left (show o + 9 < f.length by omega),
    ipIhl_append (by omega)]
  rfl

/-- A ground for TS is one in the extension. -/
theorem isTs_extend (hcomp : TagsComplete skb.data) (h : IsTs skb cfg tsUdpPorts) :
    IsTs (skb.extend g) cfg tsUdpPorts := by
  rcases h with havtp | hpcp | ⟨hip, hudp⟩
  · exact Or.inl ((innerType_extend hcomp).trans havtp)
  · exact Or.inr (Or.inl ((pcpTs_extend hcomp).mpr hpcp))
  · refine Or.inr (Or.inr ⟨(innerType_extend hcomp).trans hip, ?_⟩)
    rw [payloadOff_extend hcomp]
    obtain ⟨hat, hfrag, hproto, hfit, hport⟩ := hudp
    apply (udpTs_append hat.fits).mpr
    refine ⟨hat, hfrag, hproto, ?_, ?_⟩
    · rw [List.length_append]
      omega
    · rw [be16At_append_left (by omega)]
      exact hport

theorem tsReason_extend (hcomp : TagsComplete skb.data) :
    tsReason (skb.extend g) = tsReason skb := by
  simp only [tsReason, innerType_extend hcomp, pcpTs_extend hcomp]

/-! ### What may come -/

/-- The two bytes of a word. -/
theorem setWidth_append (a b : U8) :
    ((a ++ b : U16) >>> 8).setWidth 8 = a ∧ (a ++ b : U16).setWidth 8 = b := by
  have ha := a.isLt
  have hb := b.isLt
  constructor
  · apply BitVec.eq_of_toNat_eq
    rw [BitVec.toNat_setWidth, BitVec.toNat_ushiftRight, toNat_append, Nat.shiftRight_eq_div_pow]
    omega
  · apply BitVec.eq_of_toNat_eq
    rw [BitVec.toNat_setWidth, toNat_append]
    omega

/-- Behind the frame the bytes are those of a template that is filled in there. -/
theorem byteAt_append_drop (f l : Frame) {i : ℕ} (h : f.length ≤ i) :
    byteAt (f ++ l.drop f.length) i = byteAt l i := by
  rw [byteAt, byteAt, List.getD_eq_getElem?_getD, List.getD_eq_getElem?_getD,
    List.getElem?_append_right h, List.getElem?_drop, Nat.add_sub_cancel' h]

/-- A UDP header at `u` with destination port `p`, and zeros elsewhere. -/
def portTemplate (u : ℕ) (p : U16) : Frame :=
  List.replicate (u + 2) (0 : Byte) ++ [(p >>> 8).setWidth 8, p.setWidth 8, 0, 0, 0, 0]

theorem length_portTemplate (u : ℕ) (p : U16) : (portTemplate u p).length = u + 8 := by
  rw [portTemplate, List.length_append, List.length_replicate]
  rfl

theorem byteAt_portTemplate (u : ℕ) (p : U16) :
    byteAt (portTemplate u p) (u + 2) = (p >>> 8).setWidth 8 ∧
      byteAt (portTemplate u p) (u + 3) = p.setWidth 8 := by
  have hskip : ∀ i, (portTemplate u p)[u + 2 + i]?
      = [(p >>> 8).setWidth 8, p.setWidth 8, 0, 0, 0, 0][i]? := fun i => by
    rw [portTemplate, List.getElem?_append_right (by rw [List.length_replicate]; omega),
      List.length_replicate, Nat.add_sub_cancel_left]
  rw [byteAt, byteAt, List.getD_eq_getElem?_getD, List.getD_eq_getElem?_getD]
  exact ⟨congrArg (·.getD 0) (hskip 0), congrArg (·.getD 0) (hskip 1)⟩

/-- Any port that agrees with the visible bytes can be the one that is cut. -/
theorem exists_append_port {u : ℕ} {p : U16} (hcut : f.length < u + 8)
    (hp : PortAgrees f u p) :
    ∃ g, u + 8 ≤ (f ++ g).length ∧ be16At (f ++ g) (u + 2) = p := by
  obtain ⟨hhi, hlo⟩ := byteAt_portTemplate u p
  refine ⟨(portTemplate u p).drop f.length, ?_, ?_⟩
  · rw [List.length_append, List.length_drop, length_portTemplate]
    omega
  · -- a byte of the port is in the frame, where it agrees, or in the template
    have h2 : byteAt (f ++ (portTemplate u p).drop f.length) (u + 2) = (p >>> 8).setWidth 8 := by
      by_cases hin : u + 2 < f.length
      · rw [byteAt_append_left hin, hp.1 hin]
      · rw [byteAt_append_drop f _ (by omega), hhi]
    have h3 : byteAt (f ++ (portTemplate u p).drop f.length) (u + 3) = p.setWidth 8 := by
      by_cases hin : u + 3 < f.length
      · rw [byteAt_append_left hin, hp.2 hin]
      · rw [byteAt_append_drop f _ (by omega), hlo]
    rw [be16At, h2, show u + 2 + 1 = u + 3 from rfl, h3, setWidth_append_setWidth]

/-- The port of an extension agrees with the visible bytes. -/
theorem portAgrees_append (u : ℕ) : PortAgrees f u (be16At (f ++ g) (u + 2)) := by
  obtain ⟨hhi, hlo⟩ := setWidth_append (byteAt (f ++ g) (u + 2)) (byteAt (f ++ g) (u + 2 + 1))
  rw [PortAgrees, be16At, hhi, hlo]
  exact ⟨fun h => (byteAt_append_left h).symm, fun h => (byteAt_append_left h).symm⟩

/-- **The UDP rule comes to hold in some extension** exactly if a port is open, where it
does not hold already. -/
theorem exists_udpTs_append_iff {o : ℕ} (hlen : o + 20 ≤ f.length)
    (hno : ¬ UdpTs cfg tsUdpPorts f o) :
    (∃ g, UdpTs cfg tsUdpPorts (f ++ g) o) ↔ OpenPort cfg tsUdpPorts f o := by
  constructor
  · rintro ⟨g, hudp⟩
    obtain ⟨hat, hfrag, hproto, -, hport⟩ := (udpTs_append hlen).mp hudp
    refine ⟨hat, hfrag, hproto, ?_, _, hport, portAgrees_append _⟩
    -- with a whole header the rule would hold already
    by_contra hwhole
    refine hno ⟨hat, hfrag, hproto, by omega, ?_⟩
    rw [be16At_append_left (by omega)] at hport
    exact hport
  · rintro ⟨hat, hfrag, hproto, hcut, p, hport, hagree⟩
    obtain ⟨g, hfit, hbytes⟩ := exists_append_port hcut hagree
    refine ⟨g, (udpTs_append hlen).mpr ⟨hat, hfrag, hproto, hfit, ?_⟩⟩
    rw [hbytes]
    exact hport

/-! ### Final verdicts -/

/-- What the parser decides of the frame it decides of the extension: TS for the same
reason, and normal. -/
def FinalUnder (skb : Skb) (cfg : TsConfig) (tsUdpPorts : U16 → Bool) (g : List Byte) : Prop :=
  (∀ pr, classify skb cfg tsUdpPorts {} = some (true, pr) →
    ∃ pr', classify (skb.extend g) cfg tsUdpPorts {} = some (true, pr') ∧
      pr'.reason = pr.reason) ∧
  (∀ pr, classify skb cfg tsUdpPorts {} = some (false, pr) → pr.reason = .normal →
    ∃ pr', classify (skb.extend g) cfg tsUdpPorts {} = some (false, pr') ∧
      pr'.reason = .normal)

/-- A TS verdict is final. -/
theorem classify_extend_of_ts {pr : ParseResult} (g : List Byte)
    (hc : classify skb cfg tsUdpPorts {} = some (true, pr)) :
    ∃ pr', classify (skb.extend g) cfg tsUdpPorts {} = some (true, pr') ∧
      pr'.reason = pr.reason := by
  obtain ⟨r, hr, hexit⟩ := classify_exit skb cfg tsUdpPorts
  obtain ⟨⟨ts', pr'⟩, hc', hexit'⟩ := classify_exit (skb.extend g) cfg tsUdpPorts
  rw [hc] at hr
  obtain rfl := Option.some.inj hr
  have hcomp : TagsComplete skb.data := by
    cases hexit with
    | avtp hcomp => exact hcomp
    | pcp hcomp => exact hcomp
    | udp hcomp => exact hcomp
  obtain ⟨hts, hreason⟩ := hexit.isTs rfl
  have hts' : ts' = true := (hexit'.ts_iff (tagsComplete_extend hcomp)).mpr (isTs_extend hcomp hts)
  subst hts'
  refine ⟨pr', hc', ?_⟩
  calc pr'.reason = tsReason (skb.extend g) := (hexit'.isTs rfl).2
    _ = tsReason skb := tsReason_extend hcomp
    _ = pr.reason := hreason.symm

/-- With whole tags and, under IPv4, a whole fixed header, what is not TS is normal. -/
theorem classify_of_not_ts (hcomp : TagsComplete skb.data)
    (hlong : ¬ (innerType skb.data = ethPIp ∧ skb.data.length < payloadOff skb.data + 20))
    (hno : ¬ IsTs skb cfg tsUdpPorts) :
    ∃ pr, classify skb cfg tsUdpPorts {} = some (false, pr) ∧ pr.reason = .normal := by
  obtain ⟨⟨ts, pr⟩, hc, hexit⟩ := classify_exit skb cfg tsUdpPorts
  have hts : ts = false := Bool.eq_false_iff.mpr fun h => hno ((hexit.ts_iff hcomp).mp h)
  subst hts
  refine ⟨pr, hc, ?_⟩
  have hreason : pr.reason = _ := hexit.reason_of_not_ts rfl
  rw [hreason, if_neg (not_or.mpr ⟨not_not.mpr hcomp, hlong⟩)]

/-- **A decided verdict is final exactly if no port is open.**  For every frame, whatever
is appended: TS stays TS with its reason, and normal stays normal, unless the frame is an
unfragmented UDP datagram that ends in its UDP header, no PCP decides it, and a TS port
agrees with the visible bytes of its destination port. -/
theorem verdict_final_iff (skb : Skb) (cfg : TsConfig) (tsUdpPorts : U16 → Bool) :
    (∀ g, FinalUnder skb cfg tsUdpPorts g) ↔
      ¬ (TagsComplete skb.data ∧ innerType skb.data = ethPIp ∧ ¬ PcpTs skb ∧
        OpenPort cfg tsUdpPorts skb.data (payloadOff skb.data)) := by
  constructor
  · rintro hfinal ⟨hcomp, hip, hpcp, hopen⟩
    have hfits : payloadOff skb.data + 20 ≤ skb.data.length := hopen.1.fits
    have hudp : ¬ UdpTs cfg tsUdpPorts skb.data (payloadOff skb.data) := fun h =>
      absurd h.2.2.2.1 (Nat.not_le.mpr hopen.2.2.2.1)
    have hno : ¬ IsTs skb cfg tsUdpPorts :=
      not_or.mpr ⟨ne_avtp_of_ip hip, not_or.mpr ⟨hpcp, fun h => hudp h.2⟩⟩
    -- the frame is normal, and TS once the open port is filled in
    obtain ⟨pr, hc, hreason⟩ := classify_of_not_ts hcomp (fun h => absurd h.2 (by omega)) hno
    obtain ⟨g, hg⟩ := (exists_udpTs_append_iff hfits hudp).mpr hopen
    obtain ⟨pr', hc', -⟩ := (hfinal g).2 pr hc hreason
    obtain ⟨r, hr, hexit⟩ := classify_exit (skb.extend g) cfg tsUdpPorts
    have hts : IsTs (skb.extend g) cfg tsUdpPorts := by
      refine Or.inr (Or.inr ⟨(innerType_extend hcomp).trans hip, ?_⟩)
      rw [payloadOff_extend hcomp]
      exact hg
    have htrue := (hexit.ts_iff (tagsComplete_extend hcomp)).mpr hts
    rw [hc'] at hr
    rw [← Option.some.inj hr] at htrue
    cases htrue
  · intro hclosed g
    refine ⟨fun pr hc => classify_extend_of_ts g hc, fun pr hc hreason => ?_⟩
    obtain ⟨r, hr, hexit⟩ := classify_exit skb cfg tsUdpPorts
    rw [hc] at hr
    obtain rfl := Option.some.inj hr
    cases hexit with
    | cut | ipv4Short => cases hreason
    | normal hcomp havtp hpcp hshort hudp =>
      refine classify_of_not_ts (tagsComplete_extend hcomp) ?_ ?_
      · rw [innerType_extend hcomp, payloadOff_extend hcomp]
        rintro ⟨hip, hlt⟩
        refine hshort ⟨hip, Nat.lt_of_le_of_lt ?_ hlt⟩
        exact Nat.le_trans (Nat.le_add_right _ _) (Nat.le_of_eq List.length_append.symm)
      · rintro (havtp' | hpcp' | ⟨hip', hudp'⟩)
        · exact havtp ((innerType_extend hcomp).symm.trans havtp')
        · exact hpcp ((pcpTs_extend hcomp).mp hpcp')
        · have hip : innerType skb.data = ethPIp := (innerType_extend hcomp).symm.trans hip'
          have hfits : payloadOff skb.data + 20 ≤ skb.data.length :=
            Nat.not_lt.mp fun h => hshort ⟨hip, h⟩
          rw [payloadOff_extend hcomp] at hudp'
          exact hclosed ⟨hcomp, hip, hpcp, (exists_udpTs_append_iff hfits fun h =>
            hudp ⟨hip, h⟩).mp ⟨g, hudp'⟩⟩

/-- A datagram to the default port, cut behind the destination port, is normal; it is TS
once the rest of its header is visible. -/
theorem verdict_not_final_cut_udp :
    let skb : Skb := { data := (udpFrame 6000 [] {}).take 38 }
    let g : List Byte := (udpFrame 6000 [] {}).drop 38
    classify skb {} (fun _ => false) {} = some (false, { reason := .normal, ipOff := 14 }) ∧
      classify (skb.extend g) {} (fun _ => false) {}
        = some (true, { reason := .tsUdp, ipOff := 14 }) ∧
      ¬ FinalUnder skb {} (fun _ => false) g := by
  refine ⟨by decide, by decide, fun hfinal => ?_⟩
  obtain ⟨pr', hc', -⟩ := hfinal.2 { reason := .normal, ipOff := 14 } (by decide) rfl
  have hts : classify (Skb.extend { data := (udpFrame 6000 [] {}).take 38 }
      ((udpFrame 6000 [] {}).drop 38)) {} (fun _ => false) {}
      = some (true, { reason := .tsUdp, ipOff := 14 }) := by decide
  rw [hts] at hc'
  cases hc'

end TsPacket
