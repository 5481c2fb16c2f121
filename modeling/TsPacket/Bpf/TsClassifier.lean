import TsPacket.Lib.PercpuArray
import TsPacket.Bpf.Harness
import TsPacket.Bpf.MarkDscp
import TsPacket.Bpf.Verdict

/-!
# The classifier

`ts_classifier` of `bpf/src/ts_classifier.c` and its three maps.  What one run can do is
said once, in `ClsfRun`; which packets it touches, and where, follows from that and from
the exits of the parser.

## Main definitions

* `ClsfMaps` — the maps of the program.
* `tsClassifier` — one run: the verdict, the maps and the packet it leaves.
* `ClsfRun` — the three ways a run goes.

## Main results

* `tsClassifier_run` — every run goes one of these ways, and returns `TC_ACT_UNSPEC`.
* `tsClassifier_confined` — **a run changes the priority of a TS packet, the DSCP and the
  checksum of the IPv4 header it located, and nothing else.**
* `outerPcp_decides_iff` — **a TS PCP decides exactly if no tag behind it is cut.**
* `dscp_marked_iff` — **a TS packet leaves with the DSCP exactly if it is no fragment, or
  came with it.**
-/

namespace TsPacket

open Bytes

/-- The maps of the program, on a machine with `ncpu` CPUs. -/
structure ClsfMaps (ncpu : ℕ) where
  /-- The value of key 0. -/
  tsConfig : Option TsConfig
  /-- The extra TS ports, in host byte order. -/
  tsUdpPorts : U16 → Bool
  tsCounters : PercpuArray ncpu cntMax

variable {ncpu : ℕ}

/-- The maps as they are after loading. -/
def ClsfMaps.init (ncpu : ℕ) : ClsfMaps ncpu where
  tsConfig := some {}
  tsUdpPorts := fun _ => false
  tsCounters := .zero ncpu cntMax

/-- The configuration in force: all zeros when the lookup fails. -/
def ClsfMaps.cfg (maps : ClsfMaps ncpu) : TsConfig := maps.tsConfig.getD {}

/-- `count`, on the CPU the program runs on. -/
def ClsfMaps.count (maps : ClsfMaps ncpu) (cpu : Fin ncpu) (c : TsCounter) : ClsfMaps ncpu :=
  { maps with tsCounters := maps.tsCounters.incr cpu c.idx }

/-- The priority of a TS packet. -/
def tsPriority (cfg : TsConfig) : U32 :=
  if cfg.priority ≠ 0 then cfg.priority else tsDefaultPriority

/-- The DSCP the configuration asks for. -/
def cfgDscp (cfg : TsConfig) : U32 := if cfg.dscp ≠ 0 then cfg.dscp else tsDefaultDscp

/-- The DSCP of a TS packet, cut to a byte before the mask. -/
def tsDscp (cfg : TsConfig) : U8 := (cfgDscp cfg).setWidth 8 &&& 0x3f

/-- One run on CPU `cpu`: the return value, the maps and the packet.  `none` stands for a
read outside the frame. -/
def tsClassifier (K : Kernel) (cpu : Fin ncpu) (maps : ClsfMaps ncpu) (skb : Skb) :
    Option (TcAct × ClsfMaps ncpu × Skb) := do
  let cfg := maps.cfg
  let (ts, pr) ← classify skb cfg maps.tsUdpPorts {}
  if ts = false then
    -- the priority stays as it is for the next program
    some (tcActUnspec, maps.count cpu pr.reason, skb)
  else
    let skb := { skb with priority := tsPriority cfg }
    let maps := maps.count cpu pr.reason
    if cfg.flags &&& tsCfgMarkDscp ≠ 0 ∧ pr.ipOff ≠ 0 then
      let (marked, data) := markDscp K skb.data pr.ipOff (tsDscp cfg)
      -- an unchanged TOS byte and a failed helper are not counted
      let maps := if marked > 0 then maps.count cpu .dscpMarked else maps
      some (tcActUnspec, maps, { skb with data := data })
    else some (tcActUnspec, maps, skb)

/-! ### The ways a run goes -/

/-- What a run leaves, given the verdict of the parser. -/
inductive ClsfRun (K : Kernel) (cpu : Fin ncpu) (maps : ClsfMaps ncpu) (skb : Skb)
    (pr : ParseResult) : Bool → ClsfMaps ncpu × Skb → Prop
  | passed : ClsfRun K cpu maps skb pr false (maps.count cpu pr.reason, skb)
  | ts (hmark : ¬ (maps.cfg.flags &&& tsCfgMarkDscp ≠ 0 ∧ pr.ipOff ≠ 0)) :
      ClsfRun K cpu maps skb pr true
        (maps.count cpu pr.reason, { skb with priority := tsPriority maps.cfg })
  | mark (hmark : maps.cfg.flags &&& tsCfgMarkDscp ≠ 0) (hoff : pr.ipOff ≠ 0) :
      ClsfRun K cpu maps skb pr true
        (if (markDscp K skb.data pr.ipOff (tsDscp maps.cfg)).1 > 0 then
            (maps.count cpu pr.reason).count cpu .dscpMarked
          else maps.count cpu pr.reason,
          { skb with
            priority := tsPriority maps.cfg
            data := (markDscp K skb.data pr.ipOff (tsDscp maps.cfg)).2 })

/-- Every run goes one of these ways, and returns `TC_ACT_UNSPEC`. -/
theorem tsClassifier_run (K : Kernel) (cpu : Fin ncpu) (maps : ClsfMaps ncpu) (skb : Skb) :
    ∃ ts pr maps' skb', classify skb maps.cfg maps.tsUdpPorts {} = some (ts, pr) ∧
      Exit skb maps.cfg maps.tsUdpPorts (ts, pr) ∧
      tsClassifier K cpu maps skb = some (tcActUnspec, maps', skb') ∧
      ClsfRun K cpu maps skb pr ts (maps', skb') := by
  obtain ⟨⟨ts, pr⟩, hc, hexit⟩ := classify_exit skb maps.cfg maps.tsUdpPorts
  refine ⟨ts, pr, ?_⟩
  simp only [tsClassifier, hc, Option.bind_eq_bind, Option.bind_some]
  cases ts with
  | false => exact ⟨_, _, trivial, hexit, if_pos rfl, .passed⟩
  | true =>
    rw [if_neg (by decide)]
    by_cases hmark : maps.cfg.flags &&& tsCfgMarkDscp ≠ 0 ∧ pr.ipOff ≠ 0
    · rw [if_pos hmark]
      exact ⟨_, _, trivial, hexit, rfl, .mark hmark.1 hmark.2⟩
    · rw [if_neg hmark]
      exact ⟨_, _, trivial, hexit, rfl, .ts hmark⟩

namespace ClsfRun

variable {K : Kernel} {cpu : Fin ncpu} {maps : ClsfMaps ncpu} {skb : Skb} {pr : ParseResult}
  {ts : Bool} {r : ClsfMaps ncpu × Skb}

/-- The configuration and the ports are only read. -/
theorem config (h : ClsfRun K cpu maps skb pr ts r) :
    r.1.tsConfig = maps.tsConfig ∧ r.1.tsUdpPorts = maps.tsUdpPorts := by
  cases h with
  | passed => exact ⟨rfl, rfl⟩
  | ts hmark => exact ⟨rfl, rfl⟩
  | mark hmark hoff => constructor <;> split <;> rfl

theorem skb_of_not_ts (h : ClsfRun K cpu maps skb pr false r) : r.2 = skb := by
  cases h with
  | passed => rfl

theorem priority_of_ts (h : ClsfRun K cpu maps skb pr true r) :
    r.2.priority = tsPriority maps.cfg := by
  cases h with
  | ts hmark => rfl
  | mark hmark hoff => rfl

/-- The tag in the metadata is only read. -/
theorem vlan (h : ClsfRun K cpu maps skb pr ts r) :
    r.2.vlanPresent = skb.vlanPresent ∧ r.2.vlanTci = skb.vlanTci := by
  cases h with
  | passed => exact ⟨rfl, rfl⟩
  | ts hmark => exact ⟨rfl, rfl⟩
  | mark hmark hoff => exact ⟨rfl, rfl⟩

/-- The bytes change by a call of `mark_dscp` alone, made for a recorded offset. -/
theorem data_of_ne (h : ClsfRun K cpu maps skb pr ts r) (hne : r.2.data ≠ skb.data) :
    maps.cfg.flags &&& tsCfgMarkDscp ≠ 0 ∧ pr.ipOff ≠ 0 ∧
      r.2.data = (markDscp K skb.data pr.ipOff (tsDscp maps.cfg)).2 := by
  cases h with
  | passed => exact absurd rfl hne
  | ts hmark => exact absurd rfl hne
  | mark hmark hoff => exact ⟨hmark, hoff, rfl⟩

end ClsfRun

/-! ### What a run writes -/

/-- **Effect confinement.**  A run returns `TC_ACT_UNSPEC` and keeps the length of the
frame.  A packet that is not TS leaves as it came.  A TS packet gets the TS priority, and
its bytes change only if marking is on and an IPv4 header was found behind the tags, and
then only in the upper six bits of its TOS byte and in its checksum.  An AVTP frame keeps
its bytes. -/
theorem tsClassifier_confined {K : Kernel} (hK : K.Exact) (cpu : Fin ncpu)
    (maps : ClsfMaps ncpu) (skb : Skb) :
    let o := payloadOff skb.data
    ∃ ts pr maps' skb', classify skb maps.cfg maps.tsUdpPorts {} = some (ts, pr) ∧
      tsClassifier K cpu maps skb = some (tcActUnspec, maps', skb') ∧
      skb'.data.length = skb.data.length ∧
      (ts = false → skb'.priority = skb.priority ∧ skb'.data = skb.data) ∧
      (ts = true →
        skb'.priority = (if maps.cfg.priority ≠ 0 then maps.cfg.priority else 6) ∧
        (skb'.data ≠ skb.data →
          maps.cfg.flags &&& tsCfgMarkDscp ≠ 0 ∧ Ipv4Frame skb.data) ∧
        (∀ i, i ≠ o + 1 → i ≠ o + 10 → i ≠ o + 11 →
          byteAt skb'.data i = byteAt skb.data i) ∧
        byteAt skb'.data (o + 1) &&& 0x3 = byteAt skb.data (o + 1) &&& 0x3) ∧
      (TagsComplete skb.data → innerType skb.data = avtpEthertype → skb'.data = skb.data) := by
  obtain ⟨ts, pr, maps', skb', hc, hexit, hrun, hway⟩ := tsClassifier_run K cpu maps skb
  refine ⟨ts, pr, maps', skb', hc, hrun, ?_⟩
  -- either no byte changed, or `mark_dscp` wrote
  by_cases hsame : skb'.data = skb.data
  · rw [hsame]
    refine ⟨rfl, ?_, ?_, fun _ _ => rfl⟩
    · rintro rfl
      have hskb : skb' = skb := hway.skb_of_not_ts
      exact ⟨by rw [hskb], rfl⟩
    · rintro rfl
      exact ⟨hway.priority_of_ts, fun h => absurd rfl h, fun _ _ _ _ => rfl, rfl⟩
  · obtain ⟨hmark, hoff, hdata⟩ := hway.data_of_ne hsame
    -- it wrote at the header the parser found, an uncut IPv4 one
    obtain ⟨ho, h4, -⟩ := hexit.ipOff hoff
    change skb'.data = _ at hdata
    change pr.ipOff = _ at ho
    rw [ho] at hdata
    obtain ⟨hlen, hbytes⟩ := markDscp_frame hK skb.data (payloadOff skb.data) (tsDscp maps.cfg)
    have hecn := markDscp_ecn hK skb.data (payloadOff skb.data) (tsDscp maps.cfg)
    rw [← hdata] at hlen hbytes hecn
    refine ⟨hlen, ?_, ?_, fun _ havtp => absurd havtp (ne_avtp_of_ip h4.2.1)⟩
    · rintro rfl
      have hskb : skb' = skb := hway.skb_of_not_ts
      exact absurd (congrArg Skb.data hskb) hsame
    · rintro rfl
      exact ⟨hway.priority_of_ts, fun _ => ⟨hmark, h4⟩, hbytes, hecn⟩

/-- A datagram to the default port, with marking on. -/
theorem tsClassifier_confined_udpFrame :
    let maps : ClsfMaps 2 := { ClsfMaps.init 2 with tsConfig := some { flags := tsCfgMarkDscp } }
    let skb : Skb := { data := udpFrame 6000 [] {} }
    let o := payloadOff skb.data
    ∃ ts pr maps' skb', classify skb maps.cfg maps.tsUdpPorts {} = some (ts, pr) ∧
      tsClassifier (refKernel .little) 1 maps skb = some (tcActUnspec, maps', skb') ∧
      skb'.data.length = skb.data.length ∧
      (ts = false → skb'.priority = skb.priority ∧ skb'.data = skb.data) ∧
      (ts = true →
        skb'.priority = (if maps.cfg.priority ≠ 0 then maps.cfg.priority else 6) ∧
        (skb'.data ≠ skb.data →
          maps.cfg.flags &&& tsCfgMarkDscp ≠ 0 ∧ Ipv4Frame skb.data) ∧
        (∀ i, i ≠ o + 1 → i ≠ o + 10 → i ≠ o + 11 →
          byteAt skb'.data i = byteAt skb.data i) ∧
        byteAt skb'.data (o + 1) &&& 0x3 = byteAt skb.data (o + 1) &&& 0x3) ∧
      (TagsComplete skb.data → innerType skb.data = avtpEthertype → skb'.data = skb.data) :=
  tsClassifier_confined (refKernel_exact .little) _ _ _

/-! ### The outer PCP -/

/-- **A TS PCP decides exactly if no tag is cut**, whatever follows the tags and wherever
the frame ends behind them. -/
theorem outerPcp_decides_iff (K : Kernel) (cpu : Fin ncpu) (maps : ClsfMaps ncpu) (skb : Skb)
    (hpcp : ∃ p ∈ outerPcp skb, tsVlanPcpMin ≤ p) :
    (∃ pr maps' skb', classify skb maps.cfg maps.tsUdpPorts {} = some (true, pr) ∧
      (pr.reason = .tsPcp ∨ pr.reason = .tsAvtp) ∧
      tsClassifier K cpu maps skb = some (tcActUnspec, maps', skb') ∧
      skb'.priority = tsPriority maps.cfg) ↔ TagsComplete skb.data := by
  obtain ⟨ts, pr, maps', skb', hc, hexit, hrun, hway⟩ := tsClassifier_run K cpu maps skb
  constructor
  · rintro ⟨pr₁, -, -, hc₁, -⟩
    rw [hc] at hc₁
    obtain ⟨rfl, rfl⟩ := Prod.mk.inj (Option.some.inj hc₁)
    -- every time-sensitive exit is behind the last tag
    cases hexit with
    | avtp hcomp => exact hcomp
    | pcp hcomp => exact hcomp
    | udp hcomp => exact hcomp
  · intro hcomp
    -- and past the tags a high PCP is enough
    have hts : ts = true := (hexit.ts_iff hcomp).mpr (Or.inr (Or.inl hpcp))
    subst hts
    refine ⟨pr, maps', skb', hc, ?_, hrun, hway.priority_of_ts⟩
    have hreason : pr.reason = tsReason skb := (hexit.isTs rfl).2
    rw [hreason, tsReason, if_pos (show PcpTs skb from hpcp)]
    split
    · exact Or.inr rfl
    · exact Or.inl rfl

/-- An IPv4 datagram behind an outer tag of PCP 6. -/
def pcpFrame (args : Ipv4Args) : Frame :=
  eth ethP8021Q (vlan 6 100 ethPIp (ipv4 ipprotoUdp (udp 5000 [] 12345) args))

/-- A frame of an outer tag of PCP 5 that announces a tag, cut in that tag. -/
def cutQinqFrame : Frame := eth ethP8021AD (vlan 5 200 ethP8021Q [0x20, 0x0a])

theorem outerPcp_decides_iff_pcpFrame :
    (∃ pr maps' skb', classify { data := pcpFrame {} } (ClsfMaps.init 2).cfg
        (ClsfMaps.init 2).tsUdpPorts {} = some (true, pr) ∧
      (pr.reason = .tsPcp ∨ pr.reason = .tsAvtp) ∧
      tsClassifier (refKernel .little) 0 (ClsfMaps.init 2) { data := pcpFrame {} }
        = some (tcActUnspec, maps', skb') ∧
      skb'.priority = tsPriority (ClsfMaps.init 2).cfg) ↔ TagsComplete (pcpFrame {}) :=
  outerPcp_decides_iff _ _ _ _ ⟨6, by decide, by decide⟩

/-- A cut inner tag takes the TS priority from a packet with an outer PCP of 5. -/
theorem outerPcp_cut_qinq :
    let skb : Skb := { data := cutQinqFrame }
    14 ≤ skb.data.length ∧ IsVlan (etherTypeAt skb.data 0) ∧ 18 ≤ skb.data.length ∧
      outerPcp skb = some 5 ∧
      classify skb {} (fun _ => false) {} = some (false, { reason := .parseShort }) ∧
      (tsClassifier (refKernel .little) (0 : Fin 1) (ClsfMaps.init 1) skb).map
        (fun r => r.2.2.priority) = some 0 := by decide

/-! ### The DSCP of a TS packet -/

/-- The DSCP that is written, as a number. -/
theorem toNat_tsDscp (cfg : TsConfig) :
    (tsDscp cfg &&& 0x3f).toNat = (cfgDscp cfg).toNat % 64 := by
  have hmod : (cfgDscp cfg).toNat % 2 ^ 8 % 2 ^ 6 = (cfgDscp cfg).toNat % 2 ^ 6 :=
    Nat.mod_mod_of_dvd _ ⟨2 ^ 2, rfl⟩
  rw [tsDscp, BitVec.and_assoc, BitVec.and_self, BitVec.toNat_and, BitVec.toNat_setWidth,
    show (0x3f : U8).toNat = 2 ^ 6 - 1 from rfl, Nat.and_two_pow_sub_one_eq_mod, hmod]
  rfl

/-- The offset of the payload is one the checksum helper takes. -/
theorem payloadOff_even (f : Frame) : payloadOff f % 2 = 0 := by
  unfold payloadOff
  omega

/-- What the parser records of a TS packet that is IPv4. -/
theorem Exit.ipOff_of_ipv4 {skb : Skb} {cfg : TsConfig} {tsUdpPorts : U16 → Bool}
    {pr : ParseResult} (h : Exit skb cfg tsUdpPorts (true, pr)) (h4 : Ipv4Frame skb.data) :
    pr.ipOff = if Fragment skb.data (payloadOff skb.data) then 0 else payloadOff skb.data := by
  have hof : pr.ipOff = ipOffOf skb.data := by
    cases h with
    | avtp _ havtp => exact absurd havtp (ne_avtp_of_ip h4.2.1)
    | pcp => rfl
    | udp => rfl
  rw [hof, ipOffOf]
  by_cases hfrag : Fragment skb.data (payloadOff skb.data)
  · rw [if_pos hfrag, if_neg fun h => h.2 hfrag]
  · rw [if_neg hfrag, if_pos ⟨h4, hfrag⟩]

/-- What a run that marks leaves in the TOS byte. -/
theorem ClsfRun.tos_of_mark {K : Kernel} (hK : K.Exact) (hT : K.Total) {cpu : Fin ncpu}
    {maps : ClsfMaps ncpu} {skb : Skb} {pr : ParseResult} {r : ClsfMaps ncpu × Skb}
    (h : ClsfRun K cpu maps skb pr true r) (hmark : maps.cfg.flags &&& tsCfgMarkDscp ≠ 0)
    (hoff : pr.ipOff = payloadOff skb.data) (h4 : Ipv4Frame skb.data) :
    (byteAt r.2.data (payloadOff skb.data + 1) >>> 2).toNat = (cfgDscp maps.cfg).toNat % 64 ∧
      byteAt r.2.data (payloadOff skb.data + 1) &&& 0x3
        = byteAt skb.data (payloadOff skb.data + 1) &&& 0x3 := by
  have hfits := h4.2.2.fits
  have hle := le_payloadOff skb.data
  have hmax := payloadOff_le skb.data
  cases h with
  | ts hno => exact absurd ⟨hmark, by omega⟩ hno
  | mark _ _ =>
    dsimp only
    rw [hoff]
    constructor
    · rw [markDscp_dscp hK hT _ (by omega) (payloadOff_even _) (by omega), toNat_tsDscp]
    · exact markDscp_ecn hK _ _ _

/-- **A TS packet leaves with the DSCP exactly if it is no fragment, or came with it.**
Marking is on, and the packet is IPv4 with a whole fixed header. -/
theorem dscp_marked_iff {K : Kernel} (hK : K.Exact) (hT : K.Total) (cpu : Fin ncpu)
    (maps : ClsfMaps ncpu) (skb : Skb) (hmark : maps.cfg.flags &&& tsCfgMarkDscp ≠ 0)
    (hts : ∃ pr, classify skb maps.cfg maps.tsUdpPorts {} = some (true, pr))
    (h4 : Ipv4Frame skb.data) :
    (∃ maps' skb', tsClassifier K cpu maps skb = some (tcActUnspec, maps', skb') ∧
      (byteAt skb'.data (payloadOff skb.data + 1) >>> 2).toNat
        = (if maps.cfg.dscp ≠ 0 then maps.cfg.dscp else 46).toNat % 64) ↔
      ¬ Fragment skb.data (payloadOff skb.data) ∨
        (byteAt skb.data (payloadOff skb.data + 1) >>> 2).toNat
          = (if maps.cfg.dscp ≠ 0 then maps.cfg.dscp else 46).toNat % 64 := by
  obtain ⟨ts, pr, maps', skb', hc, hexit, hrun, hway⟩ := tsClassifier_run K cpu maps skb
  obtain ⟨pr₁, hc₁⟩ := hts
  rw [hc] at hc₁
  obtain ⟨rfl, rfl⟩ := Prod.mk.inj (Option.some.inj hc₁)
  have hoff := hexit.ipOff_of_ipv4 h4
  -- the run is the one found, so the left side is about its packet
  have hleft : ∀ P : Skb → Prop, (∃ maps₁ skb₁,
      tsClassifier K cpu maps skb = some (tcActUnspec, maps₁, skb₁) ∧ P skb₁) ↔ P skb' := by
    intro P
    constructor
    · rintro ⟨maps₁, skb₁, hrun₁, hP⟩
      rw [hrun] at hrun₁
      cases hrun₁
      exact hP
    · exact fun hP => ⟨maps', skb', hrun, hP⟩
  rw [hleft fun skb₁ => (byteAt skb₁.data (payloadOff skb.data + 1) >>> 2).toNat = _]
  by_cases hfrag : Fragment skb.data (payloadOff skb.data)
  · have hsame : skb'.data = skb.data := by
      by_contra hne
      exact (hway.data_of_ne hne).2.1 (by rw [hoff, if_pos hfrag])
    rw [hsame]
    simp only [not_true_eq_false, hfrag, false_or]
  · rw [if_neg hfrag] at hoff
    exact iff_of_true (hway.tos_of_mark hK hT hmark hoff h4).1 (Or.inl hfrag)

theorem dscp_marked_iff_pcpFrame :
    let maps : ClsfMaps 1 := { ClsfMaps.init 1 with tsConfig := some { flags := tsCfgMarkDscp } }
    let skb : Skb := { data := pcpFrame {} }
    (∃ maps' skb', tsClassifier (refKernel .little) 0 maps skb
        = some (tcActUnspec, maps', skb') ∧
      (byteAt skb'.data (payloadOff skb.data + 1) >>> 2).toNat
        = (if maps.cfg.dscp ≠ 0 then maps.cfg.dscp else 46).toNat % 64) ↔
      ¬ Fragment skb.data (payloadOff skb.data) ∨
        (byteAt skb.data (payloadOff skb.data + 1) >>> 2).toNat
          = (if maps.cfg.dscp ≠ 0 then maps.cfg.dscp else 46).toNat % 64 :=
  dscp_marked_iff (refKernel_exact .little) (refKernel_total .little) _ _ _ (by decide)
    ⟨{ reason := .tsPcp, ipOff := 18 }, by decide⟩ (by decide)

/-- A first fragment behind an outer PCP of 6 is TS, and leaves with DSCP 0 under a
configuration that asks for 46. -/
theorem dscp_not_marked_fragment :
    let cfg : TsConfig := { flags := tsCfgMarkDscp }
    let maps : ClsfMaps 1 := { ClsfMaps.init 1 with tsConfig := some cfg }
    let skb : Skb := { data := pcpFrame { fragOff := tsIpMf } }
    cfg.flags &&& tsCfgMarkDscp ≠ 0 ∧ Ipv4Frame skb.data ∧
      classify skb cfg (fun _ => false) {} = some (true, { reason := .tsPcp }) ∧
      (tsClassifier (refKernel .little) 0 maps skb).map (fun r =>
          (r.2.2.priority, byteAt r.2.2.data (payloadOff skb.data + 1) >>> 2))
        = some (6, 0) ∧
      (0 : U8).toNat ≠ (if cfg.dscp ≠ 0 then cfg.dscp else 46).toNat % 64 := by decide

end TsPacket
