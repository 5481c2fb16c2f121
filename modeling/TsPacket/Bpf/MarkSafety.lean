import TsPacket.Bpf.TsClassifier

/-!
# Reads and marks in range

The bounds checks of the parser justify two kinds of access: its own reads, and those of
the packet helpers that run once it has returned, at an offset it recorded.  Between the
two writes of `mark_dscp` stands an exit that would leave the checksum of the new TOS byte
with the old byte; a helper that fails only out of range never takes it.

## Main results

* `Exit.mark_inRange` — a recorded offset is that of a whole IPv4 header, and even.
* `markDscp_complete` — in range a call succeeds, and writes both fields or none.
* `tsClassifier_inBounds` — **no read leaves the frame, and no mark is left half done.**
-/

namespace TsPacket

open Bytes

variable {ncpu : ℕ}

/-- A recorded offset is one the helpers take: the header stands in the frame, and the
checksum field is even and low. -/
theorem Exit.mark_inRange {skb : Skb} {cfg : TsConfig} {tsUdpPorts : U16 → Bool}
    {r : Bool × ParseResult} (h : Exit skb cfg tsUdpPorts r) (hoff : r.2.ipOff ≠ 0) :
    r.2.ipOff + 12 ≤ skb.data.length ∧ r.2.ipOff % 2 = 0 ∧ r.2.ipOff + 10 ≤ 0xffff := by
  obtain ⟨ho, h4, -⟩ := h.ipOff hoff
  have hfits := h4.2.2.fits
  have hmax := payloadOff_le skb.data
  rw [ho]
  exact ⟨by omega, payloadOff_even _, by omega⟩

/-- In range a call succeeds, and a frame that it changes has the new TOS byte. -/
theorem markDscp_complete {K : Kernel} (hK : K.Exact) (hT : K.Total) {f : Frame} {o : ℕ}
    (dscp : U8) (hfit : o + 12 ≤ f.length) (heven : o % 2 = 0) (hmax : o + 10 ≤ 0xffff) :
    (markDscp K f o dscp).1 ≠ -1 ∧
      ((markDscp K f o dscp).2 ≠ f →
        byteAt (markDscp K f o dscp).2 (o + 1) = markTos dscp (byteAt f (o + 1)) ∧
          markTos dscp (byteAt f (o + 1)) ≠ byteAt f (o + 1)) := by
  rcases markDscp_of_total hK hT dscp hfit heven hmax with ⟨-, hr⟩ | ⟨hne, bs, hbs, hr⟩
  · rw [hr]
    exact ⟨show (0 : ℤ) ≠ -1 by decide, fun hchanged => absurd rfl hchanged⟩
  · rw [hr]
    refine ⟨show (1 : ℤ) ≠ -1 by decide, fun _ => ⟨?_, hne⟩⟩
    rw [byteAt_overwrite_tos hbs hfit, if_pos rfl]

/-- **In-bounds reads and no half-done mark.**  On every frame the parser and the whole run
end, so no read leaves the frame.  Where `mark_dscp` is called, the bytes at `0`, `1`, `10`
and `11` behind the offset are in the frame and the checksum offset is even and below
65536.  With helpers that fail only out of range the call does not fail, and a packet that
a run changed has the new TOS byte, which is not the old one. -/
theorem tsClassifier_inBounds (K : Kernel) (cpu : Fin ncpu) (maps : ClsfMaps ncpu) (skb : Skb) :
    ∃ ts pr maps' skb', classify skb maps.cfg maps.tsUdpPorts {} = some (ts, pr) ∧
      tsClassifier K cpu maps skb = some (tcActUnspec, maps', skb') ∧
      (ts = true → maps.cfg.flags &&& tsCfgMarkDscp ≠ 0 → pr.ipOff ≠ 0 →
        skb'.data = (markDscp K skb.data pr.ipOff (tsDscp maps.cfg)).2 ∧
        pr.ipOff + 12 ≤ skb.data.length ∧ (pr.ipOff + 10) % 2 = 0 ∧ pr.ipOff + 10 < 65536 ∧
        (K.Exact → K.Total → (markDscp K skb.data pr.ipOff (tsDscp maps.cfg)).1 ≠ -1)) ∧
      (K.Exact → K.Total → skb'.data ≠ skb.data →
        byteAt skb'.data (pr.ipOff + 1)
          = markTos (tsDscp maps.cfg) (byteAt skb.data (pr.ipOff + 1)) ∧
        byteAt skb'.data (pr.ipOff + 1) ≠ byteAt skb.data (pr.ipOff + 1)) := by
  obtain ⟨ts, pr, maps', skb', hc, hexit, hrun, hway⟩ := tsClassifier_run K cpu maps skb
  refine ⟨ts, pr, maps', skb', hc, hrun, ?_, ?_⟩
  · rintro rfl hmark hoff
    obtain ⟨hfit, heven, hmax⟩ := hexit.mark_inRange hoff
    change pr.ipOff + 12 ≤ _ at hfit
    change pr.ipOff % 2 = 0 at heven
    change pr.ipOff + 10 ≤ _ at hmax
    refine ⟨?_, hfit, by omega, by omega, fun hK hT =>
      (markDscp_complete hK hT _ hfit heven hmax).1⟩
    -- the marking ran, since its condition is met
    cases hway with
    | ts hno => exact absurd ⟨hmark, hoff⟩ hno
    | mark _ _ => rfl
  · -- a byte changed, so the marking went through to its end
    intro hK hT hne
    obtain ⟨-, hoff, hdata⟩ := hway.data_of_ne hne
    obtain ⟨hfit, heven, hmax⟩ := hexit.mark_inRange hoff
    change skb'.data = _ at hdata
    rw [hdata] at hne ⊢
    obtain ⟨htos, hnew⟩ := (markDscp_complete hK hT _ hfit heven hmax).2 hne
    rw [htos]
    exact ⟨rfl, hnew⟩

/-- A datagram with IP options behind two tags, with marking on. -/
theorem tsClassifier_inBounds_qinq :
    let maps : ClsfMaps 1 := { ClsfMaps.init 1 with tsConfig := some { flags := tsCfgMarkDscp } }
    let skb : Skb := { data := eth ethP8021AD (vlan 0 200 ethP8021Q (vlan 0 10 ethPIp
      (ipv4 ipprotoUdp (udp 6000 [] 12345) { options := [1, 1, 1, 1] }))) }
    ∃ ts pr maps' skb', classify skb maps.cfg maps.tsUdpPorts {} = some (ts, pr) ∧
      tsClassifier (refKernel .little) 0 maps skb = some (tcActUnspec, maps', skb') ∧
      (ts = true → pr.ipOff ≠ 0 → (pr.ipOff + 10) % 2 = 0 ∧
        (markDscp (refKernel .little) skb.data pr.ipOff (tsDscp maps.cfg)).1 ≠ -1) ∧
      (skb'.data ≠ skb.data →
        byteAt skb'.data (pr.ipOff + 1) ≠ byteAt skb.data (pr.ipOff + 1)) := by
  intro maps skb
  obtain ⟨ts, pr, maps', skb', hc, hrun, hmark, hwhole⟩ :=
    tsClassifier_inBounds (refKernel .little) 0 maps skb
  refine ⟨ts, pr, maps', skb', hc, hrun, fun hts hoff => ?_, fun hne => ?_⟩
  · obtain ⟨-, -, heven, -, hok⟩ := hmark hts (by decide) hoff
    exact ⟨heven, hok (refKernel_exact .little) (refKernel_total .little)⟩
  · exact (hwhole (refKernel_exact .little) (refKernel_total .little) hne).2

end TsPacket
