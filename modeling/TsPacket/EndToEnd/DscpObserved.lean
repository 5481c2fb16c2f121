import TsPacket.Analysis.Metrics
import TsPacket.Testbed.BpfMaps
import TsPacket.Workload.Listener

/-!
# The DSCP that is configured and the DSCP that is observed

A DSCP goes from the command line into the configuration map as a 32-bit word, from there
into six bits of the TOS byte of a packet, with the listener's control message into the
CSV, and into the histogram the analysis makes of that column.  Zero stands for the
default; it is tested for before the word is cut to six bits, so a multiple of 64 is not
taken for zero and marks a packet as best effort.

## Main definitions

* `ObservedUnder` — the TOS byte of a received datagram is recorded, and counted under a
  DSCP and an ECN value.

## Main results

* `configured_dscp_observed_iff` — **the DSCP that is observed is the configured one
  exactly if it is below 64.**
-/

namespace TsPacket

open Bytes PyText

variable {ncpu : ℕ}

/-- A listener that records TOS values reads the byte `tos` of any datagram, and the
analysis counts the row under this DSCP and this ECN value. -/
def ObservedUnder (tos : Byte) (dscp ecn : ℤ) : Prop :=
  ∀ (args : ListenerArgs) (data : List Byte), args.recordTos = true →
    ∃ t kernelNs, recvOne args data [{ level := ipprotoIp, ctype := ipTos, cdata := [tos] }]
        = some (data.take 65535, some t, kernelNs) ∧ CountedUnder t dscp ecn

theorem observedUnder_iff (tos : Byte) (dscp ecn : ℤ) :
    ObservedUnder tos dscp ecn ↔
      ((tos >>> 2).toNat : ℤ) = dscp ∧ ((tos &&& 0x3).toNat : ℤ) = ecn := by
  have hshift : (tos.toNat : ℤ) >>> (2 : ℕ) = ((tos >>> 2).toNat : ℤ) := by
    rw [BitVec.toNat_ushiftRight, Nat.shiftRight_eq_div_pow, Int.shiftRight_eq_div_pow]
    rfl
  have hmod : (tos.toNat : ℤ) % 4 = ((tos &&& 0x3).toNat : ℤ) := by
    rw [BitVec.toNat_and, show (0x3 : U8).toNat = 2 ^ 2 - 1 from rfl,
      Nat.and_two_pow_sub_one_eq_mod]
    rfl
  -- the control message carries the byte, whatever else is asked for
  have hrecv : ∀ (args : ListenerArgs) (data : List Byte), args.recordTos = true →
      recvOne args data [{ level := ipprotoIp, ctype := ipTos, cdata := [tos] }]
        = some (data.take 65535, some (tos.toNat : ℤ), none) := by
    intro args data htos
    rw [recvOne, if_neg fun h => h.1 htos, if_pos htos]
    rfl
  rw [← hshift, ← hmod, ← countedUnder_iff (Int.natCast_nonneg _)]
  constructor
  · intro h
    obtain ⟨t, kernelNs, hr, ht⟩ := h ⟨0, true, false, .little⟩ [] rfl
    rw [hrecv _ _ rfl] at hr
    cases hr
    exact ht
  · exact fun h args data htos => ⟨_, _, hrecv args data htos, h⟩

/-- The DSCP the program takes from a configuration word. -/
theorem toNat_cfgDscp {cfg : TsConfig} {d : ℤ} (h0 : 0 ≤ d) (h1 : d < 2 ^ 32)
    (hcfg : cfg.dscp = BitVec.ofNat 32 d.toNat) :
    ((cfgDscp cfg).toNat : ℤ) = if d = 0 then 46 else d := by
  have hword : (BitVec.ofNat 32 d.toNat).toNat = d.toNat := by
    rw [BitVec.toNat_ofNat, Nat.mod_eq_of_lt (by omega)]
  rw [cfgDscp, hcfg]
  by_cases hd : d = 0
  · subst hd
    rw [if_pos rfl]
    rfl
  · have hne : BitVec.ofNat 32 d.toNat ≠ 0 := fun h => by
      have hnat := congrArg BitVec.toNat h
      rw [hword] at hnat
      change d.toNat = 0 at hnat
      omega
    rw [if_pos hne, if_neg hd, hword]
    exact Int.toNat_of_nonneg h0

/-- **The DSCP that is observed is the configured one exactly if it is below 64.**  The
configuration was written with `set_ts_config` and has marking on; the packet is
unfragmented IPv4 and TS, on whatever ground and with whatever TOS byte.  The row recorded
for it is counted under the configured DSCP, 46 for zero, and under the ECN value it came
with. -/
theorem configured_dscp_observed_iff {K : Kernel} (hK : K.Exact) (hT : K.Total) {U : Unicode}
    (cpu : Fin ncpu) (maps : ClsfMaps ncpu) {priority dscp flags : Str} {val : List Byte}
    {d : ℤ} (hset : setTsConfig U priority dscp flags = some val) (hd : intOf U dscp = some d)
    (hval : maps.tsConfig = some (TsConfig.ofBytes val))
    (hmark : maps.cfg.flags &&& tsCfgMarkDscp ≠ 0) (skb : Skb)
    (hts : ∃ pr, classify skb maps.cfg maps.tsUdpPorts {} = some (true, pr))
    (h4 : Ipv4Frame skb.data) (hfrag : ¬ Fragment skb.data (payloadOff skb.data)) :
    (∃ maps' skb', tsClassifier K cpu maps skb = some (tcActUnspec, maps', skb') ∧
      ObservedUnder (byteAt skb'.data (payloadOff skb.data + 1)) (if d = 0 then 46 else d)
        (byteAt skb.data (payloadOff skb.data + 1) &&& 0x3).toNat) ↔ d < 64 := by
  obtain ⟨ts, pr, maps', skb', hc, hexit, hrun, hway⟩ := tsClassifier_run K cpu maps skb
  obtain ⟨pr₁, hc₁⟩ := hts
  rw [hc] at hc₁
  obtain ⟨rfl, rfl⟩ := Prod.mk.inj (Option.some.inj hc₁)
  have hoff := hexit.ipOff_of_ipv4 h4
  rw [if_neg hfrag] at hoff
  obtain ⟨hdscp, hecn⟩ := hway.tos_of_mark hK hT hmark hoff h4
  -- the word the program reads is the number that was given
  obtain ⟨p, d', f, -, hd', -, ⟨h0, h1⟩, hbytes⟩ := ofBytes_setTsConfig hset
  rw [hd] at hd'
  obtain rfl := Option.some.inj hd'
  have hcfg : maps.cfg.dscp = BitVec.ofNat 32 d.toNat := by
    rw [ClsfMaps.cfg, hval, Option.getD_some, hbytes]
  have hword := toNat_cfgDscp h0 h1 hcfg
  have hobs : ObservedUnder (byteAt skb'.data (payloadOff skb.data + 1))
      (if d = 0 then 46 else d) (byteAt skb.data (payloadOff skb.data + 1) &&& 0x3).toNat
      ↔ d < 64 := by
    rw [observedUnder_iff, hecn, hdscp]
    split at hword
    case isTrue hz =>
      rw [if_pos hz]
      omega
    case isFalse hz =>
      rw [if_neg hz]
      omega
  constructor
  · rintro ⟨maps₁, skb₁, hrun₁, h⟩
    rw [hrun] at hrun₁
    cases hrun₁
    exact hobs.mp h
  · exact fun h => ⟨maps', skb', hrun, hobs.mpr h⟩

/-- A datagram to the default port that came with TOS 0xfe, under a DSCP of 34. -/
theorem configured_dscp_observed_af41 :
    let maps : ClsfMaps 1 :=
      { ClsfMaps.init 1 with tsConfig := some { dscp := 34, flags := tsCfgMarkDscp } }
    let skb : Skb := { data := udpFrame 6000 [] { tos := 0xfe } }
    (∃ maps' skb', tsClassifier (refKernel .little) 0 maps skb
        = some (tcActUnspec, maps', skb') ∧
      ObservedUnder (byteAt skb'.data (payloadOff skb.data + 1)) (if (34 : ℤ) = 0 then 46 else 34)
        (byteAt skb.data (payloadOff skb.data + 1) &&& 0x3).toNat) ↔ (34 : ℤ) < 64 :=
  configured_dscp_observed_iff (refKernel_exact .little) (refKernel_total .little) _ _
    (show setTsConfig asciiTable ['0'] ['3', '4'] ['1']
      = some [0, 0, 0, 0, 34, 0, 0, 0, 1, 0, 0, 0, 0, 0, 0, 0] by decide)
    (show intOf asciiTable ['3', '4'] = some 34 by decide) (by decide) (by decide) _
    ⟨{ reason := .tsUdp, ipOff := 14 }, by decide⟩ (by decide) (by decide)

/-- Under a DSCP of 64 the datagram is marked, and leaves as best effort. -/
theorem configured_dscp_64_is_best_effort :
    let val : List Byte := [0, 0, 0, 0, 64, 0, 0, 0, 1, 0, 0, 0, 0, 0, 0, 0]
    let maps : ClsfMaps 1 := { ClsfMaps.init 1 with tsConfig := some (.ofBytes val) }
    let skb : Skb := { data := udpFrame 6000 [] { tos := 0xb8 } }
    setTsConfig asciiTable ['0'] ['6', '4'] ['1'] = some val ∧
      intOf asciiTable ['6', '4'] = some 64 ∧
      (tsClassifier (refKernel .little) 0 maps skb).map
        (fun r => (r.2.2.priority, byteAt r.2.2.data (payloadOff skb.data + 1))) = some (6, 0) ∧
      ¬ ObservedUnder 0 64 0 := by
  refine ⟨by decide, by decide, by decide, fun h => ?_⟩
  exact absurd ((observedUnder_iff 0 64 0).mp h).1 (by decide)

end TsPacket
