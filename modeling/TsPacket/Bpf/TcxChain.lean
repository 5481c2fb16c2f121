import TsPacket.Lib.FilterChain
import TsPacket.Bpf.SameTags
import TsPacket.Bpf.TsClassifier

/-!
# The classifier at the head of a chain

On a device where other tcx programs run, the classifier is attached in front of them.
What it may change of a packet, the priority, the DSCP and the header checksum, is masked
by `unmarked`; a later program is `Oblivious` if nothing it does, the rest of the packet it
leaves included, depends on what is masked, and if it does not write the priority.  The
classifier leaves a packet that is the same but for the mask, so the chain behind it runs
as if it were not there.  That verdict and state do not depend on the mask is not enough:
a program may copy the priority to where the next one reads it.

## Main definitions

* `HookPkt` — a packet at the hook, on its CPU.
* `unmarked`, `SameUnmarked` — a packet without what the classifier may change.
* `Oblivious` — the later programs admitted.
* `MaskUnused` — verdict and state do not depend on the mask, and none of it is written.
* `clsfProg`, `tcxDummyOk` — the classifier and the dummy program as programs of a chain.

## Main results

* `unmarked_tsClassifier` — the classifier changes nothing but what is masked.
* `classifier_transparent` — **the classifier in front is invisible to the programs behind
  it, and TS packets leave with the TS priority.**
-/

namespace TsPacket

open Bytes FilterChain

variable {ncpu : ℕ} {σ : Type}

/-- A packet at the hook, on the CPU that handles it. -/
structure HookPkt (ncpu : ℕ) where
  cpu : Fin ncpu
  skb : Skb

/-- The IPv4 header at `o` without its DSCP and its checksum. -/
def scrubIpv4 (f : Frame) (o : ℕ) : Frame :=
  ((f.set (o + 1) (byteAt f (o + 1) &&& 0x3)).set (o + 10) 0).set (o + 11) 0

/-- The packet without its priority, and without DSCP and checksum of its IPv4 header. -/
def unmarked (skb : Skb) : Skb :=
  { skb with
    priority := 0
    data := if Ipv4Frame skb.data then scrubIpv4 skb.data (payloadOff skb.data) else skb.data }

/-- The same packet but for what is masked. -/
def SameUnmarked (p q : HookPkt ncpu) : Prop := p.cpu = q.cpu ∧ unmarked p.skb = unmarked q.skb

/-- A program that does not read what is masked: its verdict, its state and the rest of
the packet it leaves do not depend on it; and that leaves the priority alone. -/
structure Oblivious (f : Filter σ (HookPkt ncpu) TcAct) : Prop where
  reads : Respects SameUnmarked f
  priority : ∀ s p, (f s p).2.2.skb.priority = p.skb.priority

/-- A program whose verdict and state do not depend on what is masked, and that writes
none of it.  What it writes elsewhere in the packet is left open. -/
structure MaskUnused (f : Filter σ (HookPkt ncpu) TcAct) : Prop where
  verdict : ∀ s {p q}, SameUnmarked p q → (f s p).1 = (f s q).1
  state : ∀ s {p q}, SameUnmarked p q → (f s p).2.1 = (f s q).2.1
  priority : ∀ s p, (f s p).2.2.skb.priority = p.skb.priority
  dscp : ∀ s p, Ipv4Frame p.skb.data →
    byteAt (f s p).2.2.skb.data (payloadOff p.skb.data + 1) &&& 0xfc
      = byteAt p.skb.data (payloadOff p.skb.data + 1) &&& 0xfc
  checksum : ∀ s p, Ipv4Frame p.skb.data →
    be16At (f s p).2.2.skb.data (payloadOff p.skb.data + 10)
      = be16At p.skb.data (payloadOff p.skb.data + 10)

/-! ### The mask -/

theorem length_scrubIpv4 (f : Frame) (o : ℕ) : (scrubIpv4 f o).length = f.length := by
  rw [scrubIpv4, List.length_set, List.length_set, List.length_set]

theorem byteAt_set_zero (f : Frame) (i : ℕ) : byteAt (f.set i 0) i = 0 := by
  by_cases hi : i < f.length
  · exact byteAt_set_self 0 hi
  · exact byteAt_of_length_le (by rw [List.length_set]; omega)

/-- What is left of a scrubbed header, byte by byte. -/
theorem byteAt_scrubIpv4 (f : Frame) (o i : ℕ) : byteAt (scrubIpv4 f o) i =
    if i = o + 10 ∨ i = o + 11 then 0
    else if i = o + 1 then byteAt f (o + 1) &&& 0x3 else byteAt f i := by
  rw [scrubIpv4]
  by_cases h11 : i = o + 11
  · rw [if_pos (Or.inr h11), h11, byteAt_set_zero]
  rw [byteAt_set_of_ne _ (Ne.symm h11)]
  by_cases h10 : i = o + 10
  · rw [if_pos (Or.inl h10), h10, byteAt_set_zero]
  rw [byteAt_set_of_ne _ (Ne.symm h10), if_neg (not_or.mpr ⟨h10, h11⟩)]
  by_cases h1 : i = o + 1
  · rw [if_pos h1, h1]
    by_cases hlen : o + 1 < f.length
    · exact byteAt_set_self _ hlen
    · rw [byteAt_of_length_le (by rw [List.length_set]; omega),
        byteAt_of_length_le (Nat.not_lt.mp hlen)]
      rfl
  · rw [if_neg h1, byteAt_set_of_ne _ (Ne.symm h1)]

/-- `g` is `f` but for the DSCP and the checksum of the IPv4 header at `o`. -/
structure Remarked (f g : Frame) (o : ℕ) : Prop where
  length : g.length = f.length
  byteAt : ∀ i, i ≠ o + 1 → i ≠ o + 10 → i ≠ o + 11 → byteAt g i = Bytes.byteAt f i
  ecn : Bytes.byteAt g (o + 1) &&& 0x3 = Bytes.byteAt f (o + 1) &&& 0x3

theorem remarked_markDscp {K : Kernel} (hK : K.Exact) (f : Frame) (o : ℕ) (dscp : U8) :
    Remarked f (markDscp K f o dscp).2 o :=
  ⟨(markDscp_frame hK f o dscp).1, (markDscp_frame hK f o dscp).2, markDscp_ecn hK f o dscp⟩

namespace Remarked

variable {f g : Frame}

/-- The tags stand before the header, so they are the same. -/
theorem sameTags (h : Remarked f g (payloadOff f)) : SameTags f g :=
  fun i _ hi => h.byteAt i (by omega) (by omega) (by omega)

theorem payloadOff (h : Remarked f g (payloadOff f)) : payloadOff g = TsPacket.payloadOff f :=
  h.sameTags.payloadOff

theorem innerType (h : Remarked f g (TsPacket.payloadOff f)) :
    innerType g = TsPacket.innerType f := h.sameTags.innerType

theorem tagsComplete_iff (h : Remarked f g (TsPacket.payloadOff f)) :
    TagsComplete g ↔ TagsComplete f := by
  rw [TagsComplete, TagsComplete, h.payloadOff, h.length]

theorem ipv4At_iff {o : ℕ} (h : Remarked f g o) : Ipv4At g o ↔ Ipv4At f o := by
  have hfirst : Bytes.byteAt g o = Bytes.byteAt f o :=
    h.byteAt o (by omega) (by omega) (by omega)
  rw [TsPacket.ipv4At_iff, TsPacket.ipv4At_iff, ipVersion, ipVersion, ipIhl, ipIhl, hfirst,
    h.length]

theorem ipv4Frame_iff (h : Remarked f g (TsPacket.payloadOff f)) :
    Ipv4Frame g ↔ Ipv4Frame f := by
  rw [Ipv4Frame, Ipv4Frame, h.tagsComplete_iff, h.innerType, h.payloadOff, h.ipv4At_iff]

/-- Without DSCP and checksum the two are the same. -/
theorem scrubIpv4 {o : ℕ} (h : Remarked f g o) : scrubIpv4 g o = TsPacket.scrubIpv4 f o := by
  refine ext_byteAt (by rw [length_scrubIpv4, length_scrubIpv4, h.length]) fun i _ => ?_
  rw [byteAt_scrubIpv4, byteAt_scrubIpv4, h.ecn]
  by_cases hcsum : i = o + 10 ∨ i = o + 11
  · rw [if_pos hcsum, if_pos hcsum]
  rw [if_neg hcsum, if_neg hcsum]
  by_cases h1 : i = o + 1
  · rw [if_pos h1, if_pos h1]
  · rw [not_or] at hcsum
    rw [if_neg h1, if_neg h1, h.byteAt i h1 hcsum.1 hcsum.2]

end Remarked

/-- **The classifier changes nothing but what is masked.** -/
theorem unmarked_tsClassifier {K : Kernel} (hK : K.Exact) {cpu : Fin ncpu}
    {maps maps' : ClsfMaps ncpu} {skb skb' : Skb} {r : TcAct}
    (hrun : tsClassifier K cpu maps skb = some (r, maps', skb')) :
    unmarked skb' = unmarked skb := by
  obtain ⟨ts, pr, maps₁, skb₁, hc, hexit, hrun₁, hway⟩ := tsClassifier_run K cpu maps skb
  rw [hrun] at hrun₁
  cases hrun₁
  have hvlan : skb'.vlanPresent = skb.vlanPresent ∧ skb'.vlanTci = skb.vlanTci := hway.vlan
  rw [unmarked, unmarked, hvlan.1, hvlan.2]
  congr 1
  by_cases hsame : skb'.data = skb.data
  · rw [hsame]
  · obtain ⟨-, hoff, hdata⟩ := hway.data_of_ne hsame
    obtain ⟨ho, h4, -⟩ := hexit.ipOff hoff
    change skb'.data = _ at hdata
    change pr.ipOff = _ at ho
    have hre : Remarked skb.data skb'.data (payloadOff skb.data) := by
      rw [hdata, ho]
      exact remarked_markDscp hK _ _ _
    rw [if_pos h4, if_pos (hre.ipv4Frame_iff.mpr h4), hre.payloadOff, hre.scrubIpv4]

/-- The last byte of an IPv4 frame stands behind the fields that are masked. -/
theorem payloadOff_le_of_ipv4Frame {f : Frame} (h : Ipv4Frame f) :
    payloadOff f + 20 ≤ f.length := h.2.2.fits

/-- Packets that are the same but for what is masked end in the same byte. -/
theorem SameUnmarked.lastByte {p q : HookPkt ncpu} (h : SameUnmarked p q) :
    byteAt p.skb.data (p.skb.data.length - 1) = byteAt q.skb.data (q.skb.data.length - 1) := by
  have hmask : ∀ skb : Skb, (unmarked skb).data.length = skb.data.length ∧
      byteAt (unmarked skb).data (skb.data.length - 1)
        = byteAt skb.data (skb.data.length - 1) := by
    intro skb
    rw [unmarked]
    by_cases h4 : Ipv4Frame skb.data
    · have hlen := payloadOff_le_of_ipv4Frame h4
      refine ⟨by rw [if_pos h4, length_scrubIpv4], ?_⟩
      rw [if_pos h4, byteAt_scrubIpv4, if_neg (by omega), if_neg (by omega)]
    · exact ⟨by rw [if_neg h4], by rw [if_neg h4]⟩
  have hlen : p.skb.data.length = q.skb.data.length := by
    rw [← (hmask p.skb).1, ← (hmask q.skb).1, h.2]
  rw [← (hmask p.skb).2, ← (hmask q.skb).2, h.2, hlen]

/-! ### Programs of a chain -/

/-- What user space sets for the classifier. -/
structure ClsfEnv where
  tsConfig : Option TsConfig
  tsUdpPorts : U16 → Bool

/-- The maps of the classifier, with the counters it owns. -/
def ClsfEnv.maps (env : ClsfEnv) (tsCounters : PercpuArray ncpu cntMax) : ClsfMaps ncpu where
  tsConfig := env.tsConfig
  tsUdpPorts := env.tsUdpPorts
  tsCounters := tsCounters

/-- The classifier as a program of a chain.  It owns its counters. -/
def clsfProg (K : Kernel) (env : ClsfEnv) :
    Filter (PercpuArray ncpu cntMax × σ) (HookPkt ncpu) TcAct := fun s p =>
  match tsClassifier K p.cpu (env.maps s.1) p.skb with
  | some (verdict, maps, skb) => (verdict, (maps.tsCounters, s.2), { p with skb := skb })
  -- a read outside the frame, which does not happen
  | none => (tcActUnspec, s, p)

/-- `tcx_dummy_ok` of `bpf/src/tcx_dummy_ok.c`: it counts and ends the chain. -/
def tcxDummyOk : Filter (PercpuArray ncpu 1) (HookPkt ncpu) TcAct :=
  fun dummyHits p => (tcActOk, dummyHits.incr p.cpu 0, p)

theorem oblivious_tcxDummyOk :
    Oblivious (tcxDummyOk : Filter (PercpuArray ncpu 1) (HookPkt ncpu) TcAct) where
  reads :=
    { verdict := fun _ _ _ _ => rfl
      state := fun s p q h => by rw [tcxDummyOk, tcxDummyOk, h.1]
      packet := fun _ _ _ h => h }
  priority _ _ := rfl

theorem clsfProg_eq (K : Kernel) (env : ClsfEnv) (s : PercpuArray ncpu cntMax × σ)
    (p : HookPkt ncpu) : ∃ maps' skb',
      tsClassifier K p.cpu (env.maps s.1) p.skb = some (tcActUnspec, maps', skb') ∧
      clsfProg K env s p = (tcActUnspec, (maps'.tsCounters, s.2), { p with skb := skb' }) := by
  obtain ⟨ts, pr, maps', skb', -, -, hrun, -⟩ := tsClassifier_run K p.cpu (env.maps s.1) p.skb
  exact ⟨maps', skb', hrun, by rw [clsfProg, hrun]⟩

/-- The chain with the classifier in front, under the configuration of the moment. -/
def withClassifier (K : Kernel) (c : Chain σ (HookPkt ncpu) TcAct) (env : ClsfEnv) :
    Chain (PercpuArray ncpu cntMax × σ) (HookPkt ncpu) TcAct := c.withFront (clsfProg K env)

/-- A TS packet leaves the chain with the TS priority. -/
theorem priority_withClassifier {K : Kernel} {c : Chain σ (HookPkt ncpu) TcAct}
    (hc : ∀ f ∈ c.filters ++ c.fallback, Oblivious f) (env : ClsfEnv)
    (s : PercpuArray ncpu cntMax × σ) (p : HookPkt ncpu) {pr : ParseResult}
    (hts : classify p.skb (env.tsConfig.getD {}) env.tsUdpPorts {} = some (true, pr)) :
    ((withClassifier K c env).run tcActUnspec s p).packet.skb.priority
      = tsPriority (env.tsConfig.getD {}) := by
  obtain ⟨ts, pr₁, maps', skb', hc₁, -, hrun, hway⟩ :=
    tsClassifier_run K p.cpu (env.maps s.1) p.skb
  have hts₁ : ts = true := by
    change classify p.skb (env.tsConfig.getD {}) env.tsUdpPorts {} = _ at hc₁
    rw [hts] at hc₁
    exact (Prod.mk.inj (Option.some.inj hc₁)).1.symm
  subst hts₁
  have hfront : clsfProg K env s p
      = (tcActUnspec, (maps'.tsCounters, s.2), { p with skb := skb' }) := by
    rw [clsfProg, hrun]
  have hprio : skb'.priority = tsPriority (env.tsConfig.getD {}) := hway.priority_of_ts
  rw [withClassifier, Chain.run_withFront (by rw [hfront]), hfront]
  -- no later program writes the priority
  exact Chain.run_keeps (fun q : HookPkt ncpu => q.skb.priority = tsPriority _)
    (fun f hf s q hq => ((hc f hf).priority s q).trans hq) s.2 hprio

/-- **Head-of-chain transparency.**  Behind the classifier, oblivious programs and filters
run on each packet as they would without it: the verdict is the same, the same of them
run, and they are left in the same states; and a TS packet leaves the chain with the TS
priority.  The sequence of packets and the configuration at each are arbitrary. -/
theorem classifier_transparent {K : Kernel} (hK : K.Exact) (c : Chain σ (HookPkt ncpu) TcAct)
    (hc : ∀ f ∈ c.filters ++ c.fallback, Oblivious f)
    (tsCounters : PercpuArray ncpu cntMax) (s : σ) (xs : List (ClsfEnv × HookPkt ncpu)) :
    List.Forall₂ (fun o o' => o'.verdict = o.verdict ∧ o'.state.2 = o.state ∧
        o'.ran = o.ran + 1 ∧ o'.ranFallback = o.ranFallback)
      (Chain.runAll tcActUnspec (fun _ => c) s xs)
      (Chain.runAll tcActUnspec (withClassifier K c) (tsCounters, s) xs) ∧
    List.Forall₂ (fun x o' => ∀ pr,
        classify x.2.skb (x.1.tsConfig.getD {}) x.1.tsUdpPorts {} = some (true, pr) →
        o'.packet.skb.priority = tsPriority (x.1.tsConfig.getD {}))
      xs (Chain.runAll tcActUnspec (withClassifier K c) (tsCounters, s) xs) := by
  constructor
  · refine (Chain.runAll_withFront SameUnmarked (fun g hg => (hc g hg).reads) (clsfProg K)
      (fun env s p => ?_) (fun env s p => ?_) (fun env s p => ?_) xs tsCounters s).imp
      fun o o' h => ⟨h.1, h.2.1, h.2.2.2.1, h.2.2.2.2⟩
    · -- the classifier never decides, and leaves the packet as the rest reads it
      obtain ⟨maps', skb', -, hp⟩ := clsfProg_eq K env s p
      rw [hp]
    · obtain ⟨maps', skb', -, hp⟩ := clsfProg_eq K env s p
      rw [hp]
    · obtain ⟨maps', skb', hrun, hp⟩ := clsfProg_eq K env s p
      rw [hp]
      exact ⟨rfl, (unmarked_tsClassifier hK hrun).symm⟩
  · exact Chain.runAll_forall (fun env s p pr hts => priority_withClassifier hc env s p hts) xs _

/-- In front of the dummy program, with marking on. -/
theorem classifier_transparent_dummy :
    let c : Chain (PercpuArray 1 1) (HookPkt 1) TcAct :=
      { filters := [tcxDummyOk], fallback := [] }
    let env : ClsfEnv :=
      { tsConfig := some { flags := tsCfgMarkDscp }, tsUdpPorts := fun _ => false }
    let xs : List (ClsfEnv × HookPkt 1) :=
      [(env, { cpu := 0, skb := { data := udpFrame 6000 [] {} } }),
        (env, { cpu := 0, skb := { data := pcpFrame {} } })]
    let plain := Chain.runAll tcActUnspec (fun _ => c) (.zero 1 1) xs
    let front := Chain.runAll tcActUnspec (withClassifier (refKernel .little) c)
      (.zero 1 cntMax, .zero 1 1) xs
    List.Forall₂ (fun o o' => o'.verdict = o.verdict ∧ o'.state.2 = o.state ∧
        o'.ran = o.ran + 1 ∧ o'.ranFallback = o.ranFallback) plain front ∧
      List.Forall₂ (fun x o' => ∀ pr,
        classify x.2.skb (x.1.tsConfig.getD {}) x.1.tsUdpPorts {} = some (true, pr) →
        o'.packet.skb.priority = tsPriority (x.1.tsConfig.getD {})) xs front := by
  refine classifier_transparent (refKernel_exact .little) _ (fun f hf => ?_) _ _ _
  obtain rfl : f = tcxDummyOk := by simpa using hf
  exact oblivious_tcxDummyOk

/-! ### A program that copies the priority -/

/-- Copies the low byte of the priority to the last byte of the frame, and passes the
packet on. -/
def copyPriority : Filter Unit (HookPkt ncpu) TcAct := fun s p =>
  (tcActUnspec, s,
    { p with skb := { p.skb with
      data := p.skb.data.set (p.skb.data.length - 1) (p.skb.priority.setWidth 8) } })

/-- Ends the chain on a frame whose last byte is not zero. -/
def okByLastByte : Filter Unit (HookPkt ncpu) TcAct := fun s p =>
  (if byteAt p.skb.data (p.skb.data.length - 1) = 0 then tcActUnspec else tcActOk, s, p)

theorem maskUnused_copyPriority :
    MaskUnused (copyPriority : Filter Unit (HookPkt ncpu) TcAct) where
  verdict _ _ _ _ := rfl
  state _ _ _ _ := rfl
  priority _ _ := rfl
  dscp _ p h := by
    have hlen := payloadOff_le_of_ipv4Frame h
    rw [copyPriority, byteAt_set_of_ne _ (by omega)]
  checksum _ p h := by
    have hlen := payloadOff_le_of_ipv4Frame h
    rw [copyPriority, be16At, byteAt_set_of_ne _ (by omega), byteAt_set_of_ne _ (by omega),
      be16At]

theorem maskUnused_okByLastByte :
    MaskUnused (okByLastByte : Filter Unit (HookPkt ncpu) TcAct) where
  verdict _ p q h := by rw [okByLastByte, okByLastByte, h.lastByte]
  state _ _ _ _ := rfl
  priority _ _ := rfl
  dscp _ _ _ := rfl
  checksum _ _ _ := rfl

/-- Neither program uses the mask for its verdict or its state, and neither writes it;
yet the classifier in front changes the verdict of a TS packet. -/
theorem classifier_visible_copied :
    let c : Chain Unit (HookPkt 1) TcAct :=
      { filters := [copyPriority, okByLastByte], fallback := [] }
    let env : ClsfEnv :=
      { tsConfig := some { flags := tsCfgMarkDscp }, tsUdpPorts := fun _ => false }
    let xs : List (ClsfEnv × HookPkt 1) := [(env, { cpu := 0, skb := { data := pcpFrame {} } })]
    (∀ f ∈ c.filters ++ c.fallback, MaskUnused f) ∧
      (Chain.runAll tcActUnspec (fun _ => c) () xs).map Outcome.verdict = [tcActUnspec] ∧
      (Chain.runAll tcActUnspec (withClassifier (refKernel .little) c)
        (.zero 1 cntMax, ()) xs).map Outcome.verdict = [tcActOk] := by
  refine ⟨fun f hf => ?_, by decide, by decide⟩
  obtain rfl | rfl : f = copyPriority ∨ f = okByLastByte := by simpa using hf
  · exact maskUnused_copyPriority
  · exact maskUnused_okByLastByte

end TsPacket
