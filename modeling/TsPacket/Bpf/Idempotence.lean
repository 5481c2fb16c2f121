import TsPacket.Bpf.TcxChain

/-!
# Running the classifier twice

On a kernel with both hooks the classifier may be attached to each of them, so a packet
may pass it twice.  What a run writes, the priority, the DSCP and the checksum, no branch
of the parser reads: the second run comes to the verdict of the first, finds the DSCP
right already, and writes the priority that is there.

## Main results

* `classify_of_remarked` — the verdict does not depend on what `mark_dscp` writes.
* `markDscp_again` — a second call finds nothing to do.
* `tsClassifier_idempotent` — **a second run counts the packet again and changes nothing.**
-/

namespace TsPacket

open Bytes

variable {ncpu : ℕ} {f g : Frame} {cfg : TsConfig} {tsUdpPorts : U16 → Bool}

/-! ### The parser does not read what is written -/

namespace Remarked

theorem fragment_iff {o : ℕ} (h : Remarked f g o) : Fragment g o ↔ Fragment f o := by
  rw [Fragment, Fragment, be16At, be16At, h.byteAt (o + 6) (by omega) (by omega) (by omega),
    h.byteAt (o + 6 + 1) (by omega) (by omega) (by omega)]

/-- The UDP header stands behind the fixed IPv4 header, so the rule holds of both. -/
theorem udpTs_iff {o : ℕ} (h : Remarked f g o) :
    UdpTs cfg tsUdpPorts g o ↔ UdpTs cfg tsUdpPorts f o := by
  have hihl : ipIhl g o = ipIhl f o := by
    rw [ipIhl, ipIhl, h.byteAt o (by omega) (by omega) (by omega)]
  rw [UdpTs, UdpTs, h.ipv4At_iff, h.fragment_iff,
    h.byteAt (o + 9) (by omega) (by omega) (by omega), hihl, h.length]
  refine and_congr_right fun hat => ?_
  have hfive := hat.ihl
  have hport : be16At g (o + ipIhl f o * 4 + 2) = be16At f (o + ipIhl f o * 4 + 2) := by
    rw [be16At, be16At, h.byteAt _ (by omega) (by omega) (by omega),
      h.byteAt _ (by omega) (by omega) (by omega)]
  rw [TsPort, TsPort, hport]

theorem ipOffOf (h : Remarked f g (TsPacket.payloadOff f)) : ipOffOf g = TsPacket.ipOffOf f := by
  rw [TsPacket.ipOffOf, TsPacket.ipOffOf, h.payloadOff]
  exact if_congr (and_congr h.ipv4Frame_iff (not_congr h.fragment_iff)) rfl rfl

end Remarked

/-- **The verdict does not depend on what a run writes.** -/
theorem classify_of_remarked {skb skb' : Skb}
    (h : Remarked skb.data skb'.data (payloadOff skb.data))
    (hvlan : skb'.vlanPresent = skb.vlanPresent ∧ skb'.vlanTci = skb.vlanTci) :
    classify skb' cfg tsUdpPorts {} = classify skb cfg tsUdpPorts {} := by
  rw [classify_eq_verdict, classify_eq_verdict]
  simp only [verdict, h.tagsComplete_iff, h.innerType, h.sameTags.pcpTs hvlan, h.ipOffOf,
    h.length, h.payloadOff, h.udpTs_iff]

/-! ### Marking twice -/

/-- A second call finds the DSCP right. -/
theorem markDscp_again {K : Kernel} (hK : K.Exact) (hT : K.Total) {o : ℕ} (dscp : U8)
    (hfit : o + 12 ≤ f.length) (heven : o % 2 = 0) (hmax : o + 10 ≤ 0xffff) :
    markDscp K (markDscp K f o dscp).2 o dscp = (0, (markDscp K f o dscp).2) := by
  have hdscp := markDscp_dscp hK hT dscp hfit heven hmax
  have hfit' : o + 12 ≤ (markDscp K f o dscp).2.length := by
    rw [(markDscp_frame hK f o dscp).1]
    exact hfit
  rcases markDscp_of_total hK hT dscp hfit' heven hmax with ⟨-, hr⟩ | ⟨hne, -⟩
  · exact hr
  · exact absurd ((markTos_eq_iff dscp _).mpr hdscp) hne

/-- The packet a run leaves is the one it got but for what is marked. -/
theorem ClsfRun.remarked {K : Kernel} (hK : K.Exact) {cpu : Fin ncpu} {maps : ClsfMaps ncpu}
    {skb : Skb} {pr : ParseResult} {ts : Bool} {r : ClsfMaps ncpu × Skb}
    (h : ClsfRun K cpu maps skb pr ts r) (hexit : Exit skb maps.cfg maps.tsUdpPorts (ts, pr)) :
    Remarked skb.data r.2.data (payloadOff skb.data) := by
  by_cases hsame : r.2.data = skb.data
  · rw [hsame]
    exact ⟨rfl, fun _ _ _ _ => rfl, rfl⟩
  · obtain ⟨-, hoff, hdata⟩ := h.data_of_ne hsame
    have ho : pr.ipOff = payloadOff skb.data := (hexit.ipOff hoff).1
    rw [hdata, ho]
    exact remarked_markDscp hK _ _ _

/-- **Idempotence.**  A second run on the packet a run left, under the same configuration
and ports and on any CPU, counts it under the same reason and not as marked, and leaves the
priority and every byte as they are. -/
theorem tsClassifier_idempotent {K : Kernel} (hK : K.Exact) (hT : K.Total) (cpu : Fin ncpu)
    (maps : ClsfMaps ncpu) (skb : Skb) :
    ∃ ts pr maps₁ skb₁, classify skb maps.cfg maps.tsUdpPorts {} = some (ts, pr) ∧
      tsClassifier K cpu maps skb = some (tcActUnspec, maps₁, skb₁) ∧
      (maps₁ = maps.count cpu pr.reason ∨
        maps₁ = (maps.count cpu pr.reason).count cpu .dscpMarked) ∧
      pr.reason ≠ .dscpMarked ∧
      maps₁.tsConfig = maps.tsConfig ∧ maps₁.tsUdpPorts = maps.tsUdpPorts ∧
      ∀ (cpu₂ : Fin ncpu) (maps₂ : ClsfMaps ncpu), maps₂.tsConfig = maps.tsConfig →
        maps₂.tsUdpPorts = maps.tsUdpPorts →
        tsClassifier K cpu₂ maps₂ skb₁
          = some (tcActUnspec, maps₂.count cpu₂ pr.reason, skb₁) := by
  obtain ⟨ts, pr, maps₁, skb₁, hc, hexit, hrun, hway⟩ := tsClassifier_run K cpu maps skb
  have hcounted : maps₁ = maps.count cpu pr.reason ∨
      maps₁ = (maps.count cpu pr.reason).count cpu .dscpMarked := by
    cases hway with
    | passed => exact Or.inl rfl
    | ts _ => exact Or.inl rfl
    | mark _ _ =>
      split
      · exact Or.inr rfl
      · exact Or.inl rfl
  have hreason : pr.reason ≠ .dscpMarked := by
    cases hexit <;> exact TsCounter.noConfusion
  refine ⟨ts, pr, maps₁, skb₁, hc, hrun, hcounted, hreason, hway.config.1, hway.config.2,
    fun cpu₂ maps₂ hcfg hports => ?_⟩
  have hcfg₂ : maps₂.cfg = maps.cfg := by rw [ClsfMaps.cfg, ClsfMaps.cfg, hcfg]
  -- the second run comes to the same verdict
  have hre : Remarked skb.data skb₁.data (payloadOff skb.data) := hway.remarked hK hexit
  obtain ⟨ts₂, pr₂, maps', skb', hc₂, -, hrun₂, hway₂⟩ := tsClassifier_run K cpu₂ maps₂ skb₁
  rw [hcfg₂, hports, classify_of_remarked hre hway.vlan, hc] at hc₂
  obtain ⟨rfl, rfl⟩ := Prod.mk.inj (Option.some.inj hc₂)
  rw [hrun₂]
  cases hway₂ with
  | passed => rfl
  | ts _ =>
    have hprio : skb₁.priority = tsPriority maps₂.cfg := by
      rw [hcfg₂]
      exact hway.priority_of_ts
    rw [← hprio]
  | mark hmark hoff =>
    have hprio : skb₁.priority = tsPriority maps₂.cfg := by
      rw [hcfg₂]
      exact hway.priority_of_ts
    obtain ⟨ho, h4, -⟩ := hexit.ipOff hoff
    change pr.ipOff = _ at ho
    have hfits := h4.2.2.fits
    have hmax := payloadOff_le skb.data
    -- the first run marked as well, so there is nothing left to mark
    have hdata : skb₁.data = (markDscp K skb.data pr.ipOff (tsDscp maps₂.cfg)).2 := by
      rw [hcfg₂] at hmark ⊢
      cases hway with
      | ts hno => exact absurd ⟨hmark, hoff⟩ hno
      | mark _ _ => rfl
    have hagain : markDscp K skb₁.data pr.ipOff (tsDscp maps₂.cfg) = (0, skb₁.data) := by
      rw [hdata, ho]
      exact markDscp_again hK hT _ (by omega) (payloadOff_even _) (by omega)
    rw [hagain, ← hprio]
    rfl

/-- A datagram that the first run marks. -/
theorem tsClassifier_idempotent_udpFrame :
    let maps : ClsfMaps 2 := { ClsfMaps.init 2 with tsConfig := some { flags := tsCfgMarkDscp } }
    let skb : Skb := { data := udpFrame 6000 [] {} }
    ∃ ts pr maps₁ skb₁, classify skb maps.cfg maps.tsUdpPorts {} = some (ts, pr) ∧
      tsClassifier (refKernel .little) 0 maps skb = some (tcActUnspec, maps₁, skb₁) ∧
      (maps₁ = maps.count 0 pr.reason ∨
        maps₁ = (maps.count 0 pr.reason).count 0 .dscpMarked) ∧
      pr.reason ≠ .dscpMarked ∧
      maps₁.tsConfig = maps.tsConfig ∧ maps₁.tsUdpPorts = maps.tsUdpPorts ∧
      ∀ (cpu₂ : Fin 2) (maps₂ : ClsfMaps 2), maps₂.tsConfig = maps.tsConfig →
        maps₂.tsUdpPorts = maps.tsUdpPorts →
        tsClassifier (refKernel .little) cpu₂ maps₂ skb₁
          = some (tcActUnspec, maps₂.count cpu₂ pr.reason, skb₁) :=
  tsClassifier_idempotent (refKernel_exact .little) (refKernel_total .little) _ _ _

end TsPacket
