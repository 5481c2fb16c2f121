import TsPacket.Bpf.SameTags
import TsPacket.Bpf.TsClassifier

/-!
# The fragments of a datagram

Only the first fragment of a datagram has its UDP header, so the parser leaves a fragment
before it looks for one: nothing behind the fragment field is read, and no offset is
recorded.  What a run does to a fragment is therefore a function of its tags, and two
fragments of one datagram leave alike.

## Main results

* `tsClassifier_fragment` — **the outcome for a fragment**: the outer PCP decides, and no
  byte changes.
* `fragments_together` — **two fragments behind the same tags get the same priority and
  the same TOS byte**, and neither is TS by a port.
-/

namespace TsPacket

open Bytes

variable {ncpu : ℕ}

/-- **The outcome for a fragment.**  It is TS exactly by its outer PCP, is never counted as
TS by a port, and keeps its bytes. -/
theorem tsClassifier_fragment (K : Kernel) (cpu : Fin ncpu) (maps : ClsfMaps ncpu) (skb : Skb)
    (hcomp : TagsComplete skb.data) (hip : innerType skb.data = ethPIp)
    (hfrag : Fragment skb.data (payloadOff skb.data)) :
    ∃ ts pr, classify skb maps.cfg maps.tsUdpPorts {} = some (ts, pr) ∧
      (ts = true ↔ PcpTs skb) ∧ pr.reason ≠ .tsUdp ∧
      tsClassifier K cpu maps skb = some (tcActUnspec, maps.count cpu pr.reason,
        { skb with priority := if PcpTs skb then tsPriority maps.cfg else skb.priority }) := by
  obtain ⟨ts, pr, maps', skb', hc, hexit, hrun, hway⟩ := tsClassifier_run K cpu maps skb
  have hoff : pr.ipOff = 0 := by
    by_contra hne
    exact (hexit.ipOff hne).2.2 hfrag
  have hts : ts = true ↔ PcpTs skb := by
    rw [hexit.ts_iff hcomp]
    refine ⟨?_, fun hpcp => Or.inr (Or.inl hpcp)⟩
    rintro (havtp | hpcp | ⟨-, hudp⟩)
    · exact absurd havtp (ne_avtp_of_ip hip)
    · exact hpcp
    · exact absurd hfrag hudp.2.1
  have hreason : pr.reason ≠ .tsUdp := by
    cases hexit with
    | cut | avtp | pcp | ipv4Short | normal => exact TsCounter.noConfusion
    | udp _ _ _ hudp => exact absurd hfrag hudp.2.1
  refine ⟨ts, pr, hc, hts, hreason, ?_⟩
  rw [hrun]
  -- without an offset a run that is TS writes the priority only
  cases hway with
  | passed => rw [if_neg fun hpcp => Bool.false_ne_true (hts.mpr hpcp)]
  | ts _ => rw [if_pos (hts.mp rfl)]
  | mark _ hne => exact absurd hoff hne

/-- A frame that starts with the header and the whole tags of another has them whole. -/
theorem sameTags_of_header {f g : Frame} (hcomp : TagsComplete f)
    (hsame : g.take (payloadOff f) = f.take (payloadOff f)) :
    TagsComplete g ∧ innerType g = innerType f ∧ payloadOff g = payloadOff f := by
  have htags : SameTags f g := sameTags_of_take hsame
  have hlen := congrArg List.length hsame
  rw [List.length_take, List.length_take, Nat.min_eq_left (show payloadOff f ≤ f.length from hcomp)]
    at hlen
  refine ⟨?_, htags.innerType, htags.payloadOff⟩
  rw [TagsComplete, htags.payloadOff]
  omega

/-- **Fragments stay together.**  Two fragments with the same Ethernet header and the same
whole tags around IPv4, of the same priority and TOS byte, leave with the same priority and
the same TOS byte, under every configuration and port set and whatever else stands behind
the tags.  Neither is counted as TS by a port, and their priority is the TS one exactly by the outer
PCP. -/
theorem fragments_together (K : Kernel) (cpu₁ cpu₂ : Fin ncpu) (maps₁ maps₂ : ClsfMaps ncpu)
    (hcfg : maps₂.cfg = maps₁.cfg) (s₁ s₂ : Skb)
    (hvlan : s₂.vlanPresent = s₁.vlanPresent ∧ s₂.vlanTci = s₁.vlanTci)
    (hprio : s₂.priority = s₁.priority) (hcomp : TagsComplete s₁.data)
    (hip : innerType s₁.data = ethPIp)
    (hsame : s₂.data.take (payloadOff s₁.data) = s₁.data.take (payloadOff s₁.data))
    (hfrag₁ : Fragment s₁.data (payloadOff s₁.data))
    (hfrag₂ : Fragment s₂.data (payloadOff s₁.data))
    (htos : byteAt s₂.data (payloadOff s₁.data + 1) = byteAt s₁.data (payloadOff s₁.data + 1)) :
    ∃ ts pr₁ pr₂ m₁ m₂ r₁ r₂,
      classify s₁ maps₁.cfg maps₁.tsUdpPorts {} = some (ts, pr₁) ∧
      classify s₂ maps₂.cfg maps₂.tsUdpPorts {} = some (ts, pr₂) ∧
      tsClassifier K cpu₁ maps₁ s₁ = some (tcActUnspec, m₁, r₁) ∧
      tsClassifier K cpu₂ maps₂ s₂ = some (tcActUnspec, m₂, r₂) ∧
      r₂.priority = r₁.priority ∧
      byteAt r₂.data (payloadOff s₁.data + 1) = byteAt r₁.data (payloadOff s₁.data + 1) ∧
      (pr₁.reason ≠ .tsUdp ∧ pr₂.reason ≠ .tsUdp) ∧
      (∀ c, m₁.tsCounters.val c TsCounter.tsUdp.idx = maps₁.tsCounters.val c TsCounter.tsUdp.idx ∧
        m₂.tsCounters.val c TsCounter.tsUdp.idx = maps₂.tsCounters.val c TsCounter.tsUdp.idx) ∧
      (ts = true ↔ PcpTs s₁) ∧
      r₁.priority = if PcpTs s₁ then tsPriority maps₁.cfg else s₁.priority := by
  -- the tags and the type are in the common prefix
  obtain ⟨hcomp₂, hip₂, hoff₂⟩ := sameTags_of_header hcomp hsame
  have hpcp : PcpTs s₂ ↔ PcpTs s₁ := (sameTags_of_take hsame).pcpTs hvlan
  rw [← hoff₂] at hfrag₂
  obtain ⟨ts₁, pr₁, hc₁, hts₁, hr₁, hrun₁⟩ := tsClassifier_fragment K cpu₁ maps₁ s₁ hcomp hip hfrag₁
  obtain ⟨ts₂, pr₂, hc₂, hts₂, hr₂, hrun₂⟩ :=
    tsClassifier_fragment K cpu₂ maps₂ s₂ hcomp₂ (hip₂.trans hip) hfrag₂
  have hts : ts₂ = ts₁ := Bool.eq_iff_iff.mpr (hts₂.trans (hpcp.trans hts₁.symm))
  -- a fragment is never counted as TS by its ports
  have hcount : ∀ (maps : ClsfMaps ncpu) (cpu c : Fin ncpu) {r : TsCounter}, r ≠ .tsUdp →
      (maps.count cpu r).tsCounters.val c TsCounter.tsUdp.idx
        = maps.tsCounters.val c TsCounter.tsUdp.idx := fun maps cpu c r hr =>
    PercpuArray.val_incr_of_ne _ cpu (fun h => hr (TsCounter.idx_injective h).symm) c
  subst hts
  refine ⟨_, pr₁, pr₂, _, _, _, _, hc₁, hc₂, hrun₁, hrun₂, ?_, htos, ⟨hr₁, hr₂⟩, ?_, hts₁, rfl⟩
  · simp only [hpcp, hcfg, hprio]
  · exact fun c => ⟨hcount maps₁ cpu₁ c hr₁, hcount maps₂ cpu₂ c hr₂⟩

/-- The first fragment of a datagram to the default port, and a later one whose payload
looks like a UDP header to it, behind an outer tag of PCP 6. -/
theorem fragments_together_pcpFrame :
    let maps : ClsfMaps 2 := { ClsfMaps.init 2 with tsConfig := some { flags := tsCfgMarkDscp } }
    let s₁ : Skb := { data := pcpFrame { fragOff := tsIpMf } }
    let s₂ : Skb := { data := eth ethP8021Q (vlan 6 100 ethPIp
      (ipv4 ipprotoUdp [0x30, 0x39, 0x17, 0x70, 0, 0, 0, 0] { fragOff := 185 })) }
    ∃ ts pr₁ pr₂ m₁ m₂ r₁ r₂,
      classify s₁ maps.cfg maps.tsUdpPorts {} = some (ts, pr₁) ∧
      classify s₂ maps.cfg maps.tsUdpPorts {} = some (ts, pr₂) ∧
      tsClassifier (refKernel .little) 0 maps s₁ = some (tcActUnspec, m₁, r₁) ∧
      tsClassifier (refKernel .little) 1 maps s₂ = some (tcActUnspec, m₂, r₂) ∧
      r₂.priority = r₁.priority ∧
      byteAt r₂.data (payloadOff s₁.data + 1) = byteAt r₁.data (payloadOff s₁.data + 1) ∧
      (pr₁.reason ≠ .tsUdp ∧ pr₂.reason ≠ .tsUdp) ∧
      (∀ c, m₁.tsCounters.val c TsCounter.tsUdp.idx = maps.tsCounters.val c TsCounter.tsUdp.idx ∧
        m₂.tsCounters.val c TsCounter.tsUdp.idx = maps.tsCounters.val c TsCounter.tsUdp.idx) ∧
      (ts = true ↔ PcpTs s₁) ∧
      r₁.priority = if PcpTs s₁ then tsPriority maps.cfg else s₁.priority :=
  fragments_together _ _ _ _ _ rfl _ _ ⟨rfl, rfl⟩ rfl (by decide) (by decide) (by decide)
    (by decide) (by decide) (by decide)

end TsPacket
