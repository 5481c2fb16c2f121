import TsPacket.Bpf.Harness
import TsPacket.Bpf.Grammar

/-!
# What the verdict says

The exits of the parser as one inductive predicate, so that a result about the
verdict is a case analysis with the facts of each exit at hand.  From it: which frames
are TS, for what reason, and when an offset is recorded.

## Main definitions

* `Exit` — the six ways the parser ends.
* `IsTs` — the grounds for TS, put together.
* `tsReason` — the reason the grounds give: AVTP before the PCP before the port.

## Main results

* `verdict_exit` — the verdict is one of the exits.
* `classify_grammar` — **a frame with whole tags is TS exactly on the three grounds**,
  with the reason in their order; a frame that is not is short only as cut IPv4.
-/

namespace TsPacket

open Bytes

section

variable (skb : Skb) (cfg : TsConfig) (tsUdpPorts : U16 → Bool)

/-- How the parser ends, with what it found out. -/
inductive Exit : Bool × ParseResult → Prop
  /-- The Ethernet header or a tag is cut. -/
  | cut (hcut : ¬ TagsComplete skb.data) : Exit (false, { reason := .parseShort })
  | avtp (hcomp : TagsComplete skb.data) (havtp : innerType skb.data = avtpEthertype) :
      Exit (true, { reason := .tsAvtp })
  /-- The PCP decides, whatever the rest is. -/
  | pcp (hcomp : TagsComplete skb.data) (havtp : innerType skb.data ≠ avtpEthertype)
      (hpcp : PcpTs skb) : Exit (true, { reason := .tsPcp, ipOff := ipOffOf skb.data })
  | ipv4Short (hcomp : TagsComplete skb.data) (hpcp : ¬ PcpTs skb)
      (hip : innerType skb.data = ethPIp)
      (hshort : skb.data.length < payloadOff skb.data + 20) :
      Exit (false, { reason := .parseShort })
  | udp (hcomp : TagsComplete skb.data) (hpcp : ¬ PcpTs skb)
      (hip : innerType skb.data = ethPIp)
      (hudp : UdpTs cfg tsUdpPorts skb.data (payloadOff skb.data)) :
      Exit (true, { reason := .tsUdp, ipOff := ipOffOf skb.data })
  | normal (hcomp : TagsComplete skb.data) (havtp : innerType skb.data ≠ avtpEthertype)
      (hpcp : ¬ PcpTs skb)
      (hshort : ¬ (innerType skb.data = ethPIp ∧
        skb.data.length < payloadOff skb.data + 20))
      (hudp : ¬ (innerType skb.data = ethPIp ∧
        UdpTs cfg tsUdpPorts skb.data (payloadOff skb.data))) :
      Exit (false, { reason := .normal, ipOff := ipOffOf skb.data })

/-- The grounds for TS. -/
def IsTs : Prop :=
  innerType skb.data = avtpEthertype ∨ PcpTs skb ∨
    (innerType skb.data = ethPIp ∧ UdpTs cfg tsUdpPorts skb.data (payloadOff skb.data))

instance : Decidable (IsTs skb cfg tsUdpPorts) := inferInstanceAs (Decidable (_ ∨ _))

/-- The reason a TS frame has. -/
def tsReason : TsCounter :=
  if innerType skb.data = avtpEthertype then .tsAvtp
  else if PcpTs skb then .tsPcp else .tsUdp

end

variable {skb : Skb} {cfg : TsConfig} {tsUdpPorts : U16 → Bool}

theorem avtpEthertype_ne_ethPIp : avtpEthertype ≠ ethPIp := by decide

theorem ne_avtp_of_ip {f : Frame} (hip : innerType f = ethPIp) :
    innerType f ≠ avtpEthertype := by
  rw [hip]
  exact avtpEthertype_ne_ethPIp.symm

/-- A datagram the UDP rule takes is not short. -/
theorem UdpTs.fits {f : Frame} {o : ℕ} (h : UdpTs cfg tsUdpPorts f o) : o + 20 ≤ f.length :=
  h.1.fits

/-- The verdict is one of the exits. -/
theorem verdict_exit (skb : Skb) (cfg : TsConfig) (tsUdpPorts : U16 → Bool) :
    Exit skb cfg tsUdpPorts (verdict skb cfg tsUdpPorts) := by
  unfold verdict
  by_cases hcomp : TagsComplete skb.data
  · rw [if_neg (not_not.mpr hcomp)]
    -- in the order of the program: AVTP, the PCP, the IPv4 branch
    by_cases havtp : innerType skb.data = avtpEthertype
    · rw [if_pos havtp]
      exact .avtp hcomp havtp
    · rw [if_neg havtp]
      by_cases hpcp : PcpTs skb
      · rw [if_pos hpcp]
        exact .pcp hcomp havtp hpcp
      · rw [if_neg hpcp]
        split
        case isTrue h => exact .ipv4Short hcomp hpcp h.1 h.2
        case isFalse hshort =>
          split
          case isTrue h => exact .udp hcomp hpcp h.1 h.2
          case isFalse hudp => exact .normal hcomp havtp hpcp hshort hudp
  · rw [if_pos hcomp]
    exact .cut hcomp

/-- The parser ends in one of the exits. -/
theorem classify_exit (skb : Skb) (cfg : TsConfig) (tsUdpPorts : U16 → Bool) :
    ∃ r, classify skb cfg tsUdpPorts {} = some r ∧ Exit skb cfg tsUdpPorts r :=
  ⟨_, classify_eq_verdict skb cfg tsUdpPorts, verdict_exit skb cfg tsUdpPorts⟩

/-! ### Which frames are TS -/

theorem not_isTs_of_exit {r : Bool × ParseResult} (h : Exit skb cfg tsUdpPorts r)
    (hcomp : TagsComplete skb.data) (hfalse : r.1 = false) : ¬ IsTs skb cfg tsUdpPorts := by
  cases h with
  | cut hcut => exact absurd hcomp hcut
  | avtp | pcp | udp => cases hfalse
  | ipv4Short _ hpcp hip hshort =>
    rintro (havtp | hp | ⟨-, hudp⟩)
    · exact ne_avtp_of_ip hip havtp
    · exact hpcp hp
    · exact absurd hudp.fits (Nat.not_le.mpr hshort)
  | normal _ havtp hpcp _ hudp => exact not_or.mpr ⟨havtp, not_or.mpr ⟨hpcp, hudp⟩⟩

/-- A TS verdict has a ground, and the reason says which. -/
theorem Exit.isTs {r : Bool × ParseResult} (h : Exit skb cfg tsUdpPorts r)
    (htrue : r.1 = true) : IsTs skb cfg tsUdpPorts ∧ r.2.reason = tsReason skb := by
  cases h with
  | cut | ipv4Short | normal => cases htrue
  | avtp _ havtp => exact ⟨Or.inl havtp, (if_pos havtp).symm⟩
  | pcp _ havtp hpcp =>
    refine ⟨Or.inr (Or.inl hpcp), ?_⟩
    rw [tsReason, if_neg havtp, if_pos hpcp]
  | udp _ hpcp hip hudp =>
    refine ⟨Or.inr (Or.inr ⟨hip, hudp⟩), ?_⟩
    rw [tsReason, if_neg (ne_avtp_of_ip hip), if_neg hpcp]

/-- With whole tags the verdict is TS exactly on the grounds. -/
theorem Exit.ts_iff {r : Bool × ParseResult} (h : Exit skb cfg tsUdpPorts r)
    (hcomp : TagsComplete skb.data) : r.1 = true ↔ IsTs skb cfg tsUdpPorts := by
  refine ⟨fun ht => (h.isTs ht).1, fun hts => ?_⟩
  rcases Bool.eq_false_or_eq_true r.1 with ht | hf
  · exact ht
  · exact absurd hts (not_isTs_of_exit h hcomp hf)

/-- The reason a verdict of not TS leaves. -/
theorem Exit.reason_of_not_ts {r : Bool × ParseResult} (h : Exit skb cfg tsUdpPorts r)
    (hfalse : r.1 = false) :
    r.2.reason = if ¬ TagsComplete skb.data ∨ innerType skb.data = ethPIp ∧
      skb.data.length < payloadOff skb.data + 20 then .parseShort else .normal := by
  cases h with
  | avtp | pcp | udp => cases hfalse
  | cut hcut => exact (if_pos (Or.inl hcut)).symm
  | ipv4Short _ _ hip hshort => exact (if_pos (Or.inr ⟨hip, hshort⟩)).symm
  | normal hcomp _ _ hshort _ => exact (if_neg (not_or.mpr ⟨not_not.mpr hcomp, hshort⟩)).symm

/-- An offset is recorded for an unfragmented IPv4 header only, behind the tags. -/
theorem Exit.ipOff {r : Bool × ParseResult} (h : Exit skb cfg tsUdpPorts r)
    (hoff : r.2.ipOff ≠ 0) : r.2.ipOff = payloadOff skb.data ∧ Ipv4Frame skb.data ∧
      ¬ Fragment skb.data (payloadOff skb.data) := by
  have hof : r.2.ipOff = ipOffOf skb.data := by
    cases h with
    | cut | avtp | ipv4Short => exact absurd rfl hoff
    | pcp | udp | normal => rfl
  rw [hof] at hoff ⊢
  by_cases h4 : Ipv4Frame skb.data ∧ ¬ Fragment skb.data (payloadOff skb.data)
  · exact ⟨if_pos h4, h4⟩
  · exact absurd (if_neg h4) hoff

/-- **The classification grammar.**  A frame whose Ethernet header and tags are whole is
TS exactly if it is AVTP, its outer PCP is a TS one, or it is an unfragmented UDP
datagram to a TS port; the reason is the first of the three that holds.  Otherwise it is
short exactly if it is IPv4 with a cut header, and normal if not. -/
theorem classify_grammar (skb : Skb) (cfg : TsConfig) (tsUdpPorts : U16 → Bool)
    (hcomp : TagsComplete skb.data) :
    ∃ ts pr, classify skb cfg tsUdpPorts {} = some (ts, pr) ∧
      (ts = true ↔ innerType skb.data = avtpEthertype ∨ PcpTs skb ∨
        (innerType skb.data = ethPIp ∧ UdpTs cfg tsUdpPorts skb.data (payloadOff skb.data))) ∧
      (ts = true → pr.reason = if innerType skb.data = avtpEthertype then .tsAvtp
        else if PcpTs skb then .tsPcp else .tsUdp) ∧
      (ts = false → pr.reason = if innerType skb.data = ethPIp ∧
        skb.data.length < payloadOff skb.data + 20 then .parseShort else .normal) := by
  obtain ⟨⟨ts, pr⟩, hc, hexit⟩ := classify_exit skb cfg tsUdpPorts
  refine ⟨ts, pr, hc, hexit.ts_iff hcomp, fun ht => (hexit.isTs ht).2, fun hf => ?_⟩
  -- all tags are there, so a short frame is a cut IPv4 header
  have hreason := hexit.reason_of_not_ts hf
  simp only [not_not.mpr hcomp, false_or] at hreason
  exact hreason

/-- A datagram to the default port behind an outer tag of PCP 1. -/
theorem classify_grammar_tagged :
    let skb : Skb := { data := eth ethP8021Q (vlan 1 100 ethPIp
      (ipv4 ipprotoUdp (udp 6000 [] 12345) {})) }
    ∃ ts pr, classify skb {} (fun _ => false) {} = some (ts, pr) ∧
      (ts = true ↔ innerType skb.data = avtpEthertype ∨ PcpTs skb ∨
        (innerType skb.data = ethPIp ∧
          UdpTs {} (fun _ => false) skb.data (payloadOff skb.data))) ∧
      (ts = true → pr.reason = if innerType skb.data = avtpEthertype then .tsAvtp
        else if PcpTs skb then .tsPcp else .tsUdp) ∧
      (ts = false → pr.reason = if innerType skb.data = ethPIp ∧
        skb.data.length < payloadOff skb.data + 20 then .parseShort else .normal) :=
  classify_grammar _ _ _ (by decide)

end TsPacket
