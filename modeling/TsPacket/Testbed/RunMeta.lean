import TsPacket.Testbed.RunScript

/-!
# What the runs of the testbed write

The maps of the programs are never reset, so a text that is read from one counts everything
that passed since the programs were loaded.  What a run writes are differences of two such
texts, and those are read at three times before the workload and three times behind it: each
difference has a window of its own.

## Main definitions

* `Sighting` — a packet at the egress, and whether the classifier was attached.
* `Recorded` — the maps hold what passed since they were loaded.
* `Describes` — a `meta.json` counts the packets of a run.

## Main results

* `passAll_recorded` — what packets leave in the maps.
* `runOne_spec` — one run, which ends with its file or with a command that fails.
* `runPlan_meta` — **every `meta.json` counts the packets of its own run**, and the classifier
  counts in those of the conditions that end in `_clsf` only.
-/

namespace TsPacket

open PyText PyData JsonText Bytes

variable {Dev D N : Type} {ncpu : ℕ}

/-! ### What packets leave in the maps -/

/-- A packet at the egress, and whether the classifier was attached. -/
structure Sighting (ncpu : ℕ) where
  classified : Bool
  cpu : Fin ncpu
  skb : Skb

/-- The packets that leave, and whether the classifier is attached. -/
def sightings (clsf : Bool) (es : List (Seen ncpu)) : List (Sighting ncpu) :=
  (egressOf es).map fun p => ⟨clsf, p.1, p.2⟩

theorem sightings_append (clsf : Bool) (es es' : List (Seen ncpu)) :
    sightings clsf (es ++ es') = sightings clsf es ++ sightings clsf es' := by
  rw [sightings, egressOf, List.filterMap_append, List.map_append]
  rfl

theorem ingressOf_append (es es' : List (Seen ncpu)) :
    ingressOf (es ++ es') = ingressOf es ++ ingressOf es' := List.filterMap_append

/-- Every packet crosses the first veth, or leaves. -/
theorem length_ingressOf_add (clsf : Bool) (es : List (Seen ncpu)) :
    (ingressOf es).length + (sightings clsf es).length = es.length := by
  induction es with
  | nil => rfl
  | cons e es ih =>
    cases e with
    | ingress cpu skb =>
      simp only [ingressOf, sightings, egressOf, List.filterMap_cons, List.length_cons,
        List.length_map] at ih ⊢
      omega
    | egress cpu skb =>
      simp only [ingressOf, sightings, egressOf, List.filterMap_cons, List.length_cons,
        List.length_map] at ih ⊢
      omega

namespace Sighting

variable (K : Kernel) (maps : ClsfMaps ncpu) (s : Sighting ncpu)

/-- The packet with the configuration it meets. -/
def passage : Passage ncpu := ⟨s.cpu, maps, s.skb⟩

/-- The packet as the probe sees it. -/
def leaves : Skb := if s.classified then s.passage maps |>.out K else s.skb

/-- The counters that the classifier adds to for this packet, if it sees it. -/
def counterBumps : List (Fin ncpu × Fin cntMax) :=
  if s.classified then s.passage maps |>.bumps K else []

/-- The bucket that the probe at the egress adds to. -/
def histBump : Fin ncpu × Fin prioHistBuckets := (s.cpu, prioBucket (s.leaves K maps).priority)

/-- The packet is one of those a counter counts. -/
def Counts (c : TsCounter) : Prop :=
  s.classified = true ∧
    if c = .dscpMarked then (s.passage maps).BytesChanged K else (s.passage maps).reason = c

instance (c : TsCounter) : Decidable (s.Counts K maps c) := by
  unfold Counts
  infer_instance

variable {K} {maps} {s}

theorem countP_counterBumps (s : Sighting ncpu) (c : TsCounter) :
    (s.counterBumps K maps).countP (fun q => q.2 = c.idx)
      = if s.Counts K maps c then 1 else 0 := by
  unfold counterBumps Counts
  by_cases hs : s.classified = true
  · simp only [hs, if_true, true_and]
    by_cases hc : c = .dscpMarked
    · subst hc
      simp only [if_true]
      exact Passage.countP_bumps_marked _
    · simp only [if_neg hc]
      exact Passage.countP_bumps_reason _ hc
  · simp [hs]

end Sighting

/-- What the classifier makes of a packet depends on the configuration, not on the counters. -/
theorem out_congr (K : Kernel) (cpu : Fin ncpu) {maps maps' : ClsfMaps ncpu} (skb : Skb)
    (hcfg : maps.tsConfig = maps'.tsConfig) (hports : maps.tsUdpPorts = maps'.tsUdpPorts) :
    (Passage.mk cpu maps skb).out K = (Passage.mk cpu maps' skb).out K := by
  have hcfg' : maps.cfg = maps'.cfg := by rw [ClsfMaps.cfg, ClsfMaps.cfg, hcfg]
  unfold Passage.out tsClassifier
  dsimp only
  rw [hcfg', hports]
  cases classify skb maps'.cfg maps'.tsUdpPorts {} with
  | none => rfl
  | some r =>
    simp only [Option.bind_eq_bind, Option.bind_some]
    by_cases hts : r.1 = false
    · rw [if_pos hts, if_pos hts]
      rfl
    · rw [if_neg hts, if_neg hts]
      by_cases hmark : maps'.cfg.flags &&& tsCfgMarkDscp ≠ 0 ∧ r.2.ipOff ≠ 0
      · rw [if_pos hmark, if_pos hmark]
        rfl
      · rw [if_neg hmark, if_neg hmark]
        rfl

/-- So do the increments it causes. -/
theorem bumps_congr (K : Kernel) (cpu : Fin ncpu) {maps maps' : ClsfMaps ncpu} (skb : Skb)
    (hcfg : maps.tsConfig = maps'.tsConfig) (hports : maps.tsUdpPorts = maps'.tsUdpPorts) :
    (Passage.mk cpu maps skb).bumps K = (Passage.mk cpu maps' skb).bumps K := by
  have hcfg' : maps.cfg = maps'.cfg := by rw [ClsfMaps.cfg, ClsfMaps.cfg, hcfg]
  have hreason : (Passage.mk cpu maps skb).reason = (Passage.mk cpu maps' skb).reason := by
    simp only [Passage.reason, Passage.verdict, hcfg', hports]
  have hbytes : (Passage.mk cpu maps skb).BytesChanged K
      ↔ (Passage.mk cpu maps' skb).BytesChanged K := by
    rw [Passage.BytesChanged, Passage.BytesChanged, out_congr K cpu skb hcfg hports]
  rw [Passage.bumps, Passage.bumps, hreason]
  simp only [hbytes]

/-- The machine after these packets crossed the first veth and these left: `maps` has the
configuration, and `clsf` says whether the classifier is attached. -/
structure Recorded (K : Kernel) (tc : Tc Dev) (maps : ClsfMaps ncpu) (clsf : Bool)
    (m : Machine Dev ncpu) (crossed : List (Fin ncpu × Skb)) (left : List (Sighting ncpu)) :
    Prop where
  filters : tc.filters m.dev = wiredFilters clsf
  config : m.nic.clsf.tsConfig = maps.tsConfig
  ports : m.nic.clsf.tsUdpPorts = maps.tsUdpPorts
  counters : m.nic.clsf.tsCounters
    = (PercpuArray.zero ncpu cntMax).bumps (left.flatMap (Sighting.counterBumps K maps))
  hist : m.nic.prioHist
    = (PercpuArray.zero ncpu prioHistBuckets).bumps (left.map (Sighting.histBump K maps))
  histIn : m.probeIn = (PercpuArray.zero ncpu prioHistBuckets).bumps
    (crossed.map fun p => (p.1, prioBucket p.2.priority))

section

variable {K : Kernel} (hK : K.Exact) (hT : K.Total) {tc : Tc Dev} {maps : ClsfMaps ncpu}
  {clsf : Bool} {crossed : List (Fin ncpu × Skb)} {left : List (Sighting ncpu)}
include hK hT

/-- What the classifier leaves of its maps and of a packet. -/
theorem tsClassifier_spec (cpu : Fin ncpu) (maps : ClsfMaps ncpu) (skb : Skb) :
    ∃ maps', tsClassifier K cpu maps skb
        = some (tcActUnspec, maps', (Passage.mk cpu maps skb).out K) ∧
      maps'.tsConfig = maps.tsConfig ∧ maps'.tsUdpPorts = maps.tsUdpPorts ∧
      maps'.tsCounters = maps.tsCounters.bumps ((Passage.mk cpu maps skb).bumps K) := by
  obtain ⟨maps', skb', hrun, hbumps⟩ := Passage.tsClassifier_bumps hK hT ⟨cpu, maps, skb⟩
  obtain ⟨ts, pr, maps'', skb'', -, -, hrun', hway⟩ := tsClassifier_run K cpu maps skb
  rw [hrun'] at hrun
  obtain ⟨rfl, rfl⟩ := Prod.mk.inj (Prod.mk.inj (Option.some.inj hrun)).2
  rw [Passage.out_eq hrun']
  exact ⟨_, hrun', hway.config.1, hway.config.2, hbumps⟩

/-- **A packet at the egress** goes through the filters that are attached. -/
theorem egress_wired (clsf : Bool) (cpu : Fin ncpu) (nic : NicState ncpu) (skb : Skb)
    (hcfg : nic.clsf.tsConfig = maps.tsConfig) (hports : nic.clsf.tsUdpPorts = maps.tsUdpPorts) :
    ∃ nic', egress K cpu (wiredFilters clsf) nic skb = some nic' ∧
      nic'.clsf.tsConfig = maps.tsConfig ∧ nic'.clsf.tsUdpPorts = maps.tsUdpPorts ∧
      nic'.clsf.tsCounters
        = nic.clsf.tsCounters.bumps (Sighting.counterBumps K maps ⟨clsf, cpu, skb⟩) ∧
      nic'.prioHist = nic.prioHist.bumps [Sighting.histBump K maps ⟨clsf, cpu, skb⟩] := by
  cases clsf with
  | false => exact ⟨_, rfl, hcfg, hports, rfl, rfl⟩
  | true =>
    obtain ⟨maps', hrun, hcfg', hports', hbumps⟩ := tsClassifier_spec hK hT cpu nic.clsf skb
    rw [bumps_congr K cpu skb hcfg hports] at hbumps
    rw [out_congr K cpu skb hcfg hports] at hrun
    refine ⟨⟨maps', (prioProbe cpu nic.prioHist ((Passage.mk cpu maps skb).out K)).2⟩, ?_,
      hcfg'.trans hcfg, hports'.trans hports, hbumps, rfl⟩
    simp only [wiredFilters, if_true, egress, hrun, Option.bind_eq_bind, Option.bind_some]
    rfl

/-- One packet. -/
theorem pass_recorded {m : Machine Dev ncpu} (h : Recorded K tc maps clsf m crossed left)
    (e : Seen ncpu) :
    ∃ m', pass K tc m e = some m' ∧ Recorded K tc maps clsf m' (crossed ++ ingressOf [e])
      (left ++ sightings clsf [e]) := by
  cases e with
  -- only the probe at the ingress sees the packet
  | ingress cpu skb =>
    refine ⟨_, rfl, h.filters, h.config, h.ports, ?_, ?_, ?_⟩
    · rw [h.counters]
      simp [sightings, egressOf]
    · rw [h.hist]
      simp [sightings, egressOf]
    · rw [List.map_append, PercpuArray.bumps_append, ← h.histIn]
      rfl
  -- the classifier, if it is attached, and the probe at the egress
  | egress cpu skb =>
    obtain ⟨nic', hnic, hcfg, hports, hcounters, hhist⟩ :=
      egress_wired hK hT clsf cpu m.nic skb h.config h.ports
    refine ⟨{ m with nic := nic' }, ?_, h.filters, hcfg, hports, ?_, ?_, ?_⟩
    · rw [pass, h.filters, hnic]
      rfl
    · rw [hcounters, h.counters, List.flatMap_append, PercpuArray.bumps_append]
      simp [sightings, egressOf]
    · rw [hhist, h.hist, List.map_append, PercpuArray.bumps_append]
      rfl
    · rw [h.histIn]
      simp [ingressOf]

/-- **What packets leave in the maps.** -/
theorem passAll_recorded (es : List (Seen ncpu)) : ∀ {m : Machine Dev ncpu}
    {crossed : List (Fin ncpu × Skb)} {left : List (Sighting ncpu)},
    Recorded K tc maps clsf m crossed left →
    ∃ m', passAll K tc m es = some m' ∧ Recorded K tc maps clsf m' (crossed ++ ingressOf es)
      (left ++ sightings clsf es) := by
  -- one packet after the other
  induction es with
  | nil =>
    intro m crossed left h
    refine ⟨m, rfl, ?_⟩
    simpa [ingressOf, sightings, egressOf] using h
  | cons e es ih =>
    intro m crossed left h
    obtain ⟨m₁, hpass, h₁⟩ := pass_recorded hK hT h e
    obtain ⟨m', hall, h'⟩ := ih h₁
    refine ⟨m', ?_, ?_⟩
    · rw [passAll, List.foldlM_cons, hpass]
      exact hall
    · have hin := ingressOf_append [e] es
      have hout := sightings_append clsf [e] es
      rw [List.singleton_append] at hin hout
      rw [hin, hout, ← List.append_assoc, ← List.append_assoc]
      exact h'

end

namespace Recorded

variable {K : Kernel} {tc : Tc Dev} {maps : ClsfMaps ncpu} {clsf : Bool} {m : Machine Dev ncpu}
  {crossed : List (Fin ncpu × Skb)} {left : List (Sighting ncpu)}

theorem total_counter (h : Recorded K tc maps clsf m crossed left) (hlt : left.length < 2 ^ 64)
    (c : TsCounter) :
    m.nic.clsf.tsCounters.total c.idx = left.countP fun s => s.Counts K maps c := by
  rw [h.counters]
  exact PercpuArray.total_bumps_zero
    (countP_flatMap_ite _ _ _ (fun s => s.countP_counterBumps c) left)
    (Nat.lt_of_le_of_lt List.countP_le_length hlt)

theorem total_hist (h : Recorded K tc maps clsf m crossed left) (hlt : left.length < 2 ^ 64)
    (i : Fin prioHistBuckets) :
    m.nic.prioHist.total i
      = left.countP fun s => prioBucket (s.leaves K maps).priority = i := by
  rw [h.hist]
  exact PercpuArray.total_bumps_zero List.countP_map
    (Nat.lt_of_le_of_lt List.countP_le_length hlt)

theorem total_histIn (h : Recorded K tc maps clsf m crossed left)
    (hlt : crossed.length < 2 ^ 64) (i : Fin prioHistBuckets) :
    m.probeIn.total i = crossed.countP fun p => prioBucket p.2.priority = i := by
  rw [h.histIn]
  exact PercpuArray.total_bumps_zero List.countP_map
    (Nat.lt_of_le_of_lt List.countP_le_length hlt)

end Recorded

/-! ### What is read from the maps -/

/-- A histogram as it is written. -/
def histDict (count : Fin prioHistBuckets → ℕ) : NumDict :=
  (List.finRange prioHistBuckets).map fun i : Fin prioHistBuckets => (strOf i, (count i : ℤ))

/-- Counters as they are written. -/
def counterDict (count : TsCounter → ℕ) : NumDict :=
  TsCounter.all.map fun c => (c.name, (count c : ℤ))

/-- `bpftool` prints the entries of a map, and Python knows the ASCII digits. -/
structure Tools.Documented (tools : Tools D N ncpu) : Prop where
  table : tools.table.Ascii
  bpftool : ∀ n a, Renders a (tools.bpftool n a)

section

variable {tools : Tools D N ncpu} (htools : tools.Documented)
include htools

/-- **A map is read as its totals.** -/
theorem readMap_dumpPercpu {n : ℕ} (hn : n ≤ 16) {a : PercpuArray ncpu n}
    (ha : ∀ i, a.total i < 2 ^ 64) :
    ∃ text, readMap tools .dumpPercpu a = some text ∧
      readDict tools.dec text
        = some ((List.finRange n).map fun i : Fin n => (strOf i, (a.total i : ℤ))) := by
  have hent : n ≤ 10 ^ maxStrDigits := (show n ≤ 2 ^ 64 by omega).trans two_pow_le
  have hdump := dumpDict_renders htools.table hent (htools.bpftool n a)
  obtain ⟨out, hout, hread⟩ := readDict_printed htools.table tools.floats tools.parse
    tools.constant (d := (List.finRange n).map fun i : Fin n => (strOf i, (a.total i : ℤ)))
    (by
      rw [List.map_map]
      exact (List.nodup_finRange n).map (strOf_fin_injective htools.table hent))
    (by
      refine List.forall_mem_map.mpr fun i _ => ?_
      exact (ha i).trans_le two_pow_le)
  refine ⟨substitution out, ?_, hread⟩
  simp only [readMap, MapCommand.dict, hdump, Option.bind_eq_bind, Option.bind_some, hout]

/-- The counters, under their names. -/
theorem readMap_counters {a : PercpuArray ncpu cntMax} (ha : ∀ i, a.total i < 2 ^ 64) :
    ∃ text, readMap tools .counters a = some text ∧
      readDict tools.dec text
        = some (TsCounter.all.map fun c => (c.name, (a.total c.idx : ℤ))) := by
  have hent : cntMax ≤ 10 ^ maxStrDigits := (show cntMax ≤ 2 ^ 64 by decide).trans two_pow_le
  have hdump := dumpDict_renders htools.table hent (htools.bpftool cntMax a)
  obtain ⟨out, hout, hread⟩ := readDict_printed htools.table tools.floats tools.parse
    tools.constant (d := TsCounter.all.map fun c => (c.name, (a.total c.idx : ℤ)))
    (by
      rw [List.map_map]
      exact List.Nodup.map TsCounter.name_injective (by decide))
    (by
      refine List.forall_mem_map.mpr fun c _ => ?_
      exact (ha c.idx).trans_le two_pow_le)
  refine ⟨substitution out, ?_, hread⟩
  simp only [readMap, MapCommand.dict, hdump, Option.map_some,
    countersOf_totals htools.table a hent,
    Option.bind_eq_bind, Option.bind_some, hout]

variable {K : Kernel} {tc : Tc Dev} {maps : ClsfMaps ncpu} {clsf : Bool}
  {m m' : Machine Dev ncpu} {crossed crossed' c : List (Fin ncpu × Skb)}
  {left left' l : List (Sighting ncpu)}

/-- Two reads of the probe behind the first veth. -/
theorem delta_probeIn (h : Recorded K tc maps clsf m crossed left)
    (h' : Recorded K tc maps clsf m' (crossed ++ c) left')
    (hlt : (crossed ++ c).length < 2 ^ 64) :
    ∃ before after, readMap tools .dumpPercpu m.probeIn = some before ∧
      readMap tools .dumpPercpu m'.probeIn = some after ∧
      deltaOf tools after before
        = some (histDict fun i => c.countP fun p => prioBucket p.2.priority = i) := by
  have hlt₀ : crossed.length < 2 ^ 64 := by
    rw [List.length_append] at hlt
    omega
  -- what has crossed so far is the histogram, before and after
  have htotal := h.total_histIn hlt₀
  have htotal' := h'.total_histIn hlt
  obtain ⟨before, hb, hrb⟩ := readMap_dumpPercpu htools (le_refl 16) (a := m.probeIn) fun i => by
    rw [htotal]
    exact Nat.lt_of_le_of_lt List.countP_le_length hlt₀
  obtain ⟨after, ha, hra⟩ := readMap_dumpPercpu htools (le_refl 16) (a := m'.probeIn) fun i => by
    rw [htotal']
    exact Nat.lt_of_le_of_lt List.countP_le_length hlt
  -- what crossed before cancels
  refine ⟨before, after, hb, ha, ?_⟩
  simp only [deltaOf, hrb, hra, Option.bind_eq_bind, Option.bind_some]
  rw [delta_map (strOf_fin_injective htools.table ((show 16 ≤ 2 ^ 64 by omega).trans two_pow_le))
    (List.nodup_finRange 16)]
  simp only [htotal, htotal', List.countP_append, Nat.cast_add, add_sub_cancel_left]
  rfl

/-- Two reads of the probe at the egress. -/
theorem delta_prioHist (h : Recorded K tc maps clsf m crossed left)
    (h' : Recorded K tc maps clsf m' crossed' (left ++ l)) (hlt : (left ++ l).length < 2 ^ 64) :
    ∃ before after, readMap tools .dumpPercpu m.nic.prioHist = some before ∧
      readMap tools .dumpPercpu m'.nic.prioHist = some after ∧
      deltaOf tools after before
        = some (histDict fun i =>
          l.countP fun s => prioBucket (s.leaves K maps).priority = i) := by
  have hlt₀ : left.length < 2 ^ 64 := by
    rw [List.length_append] at hlt
    omega
  have htotal := h.total_hist hlt₀
  have htotal' := h'.total_hist hlt
  obtain ⟨before, hb, hrb⟩ := readMap_dumpPercpu htools (le_refl 16) (a := m.nic.prioHist)
    fun i => by
      rw [htotal]
      exact Nat.lt_of_le_of_lt List.countP_le_length hlt₀
  obtain ⟨after, ha, hra⟩ := readMap_dumpPercpu htools (le_refl 16) (a := m'.nic.prioHist)
    fun i => by
      rw [htotal']
      exact Nat.lt_of_le_of_lt List.countP_le_length hlt
  -- what left before cancels
  refine ⟨before, after, hb, ha, ?_⟩
  simp only [deltaOf, hrb, hra, Option.bind_eq_bind, Option.bind_some]
  rw [delta_map (strOf_fin_injective htools.table ((show 16 ≤ 2 ^ 64 by omega).trans two_pow_le))
    (List.nodup_finRange 16)]
  simp only [htotal, htotal', List.countP_append, Nat.cast_add, add_sub_cancel_left]
  rfl

/-- Two reads of the counters. -/
theorem delta_counters (h : Recorded K tc maps clsf m crossed left)
    (h' : Recorded K tc maps clsf m' crossed' (left ++ l)) (hlt : (left ++ l).length < 2 ^ 64) :
    ∃ before after, readMap tools .counters m.nic.clsf.tsCounters = some before ∧
      readMap tools .counters m'.nic.clsf.tsCounters = some after ∧
      deltaOf tools after before
        = some (counterDict fun c => l.countP fun s => s.Counts K maps c) := by
  have hlt₀ : left.length < 2 ^ 64 := by
    rw [List.length_append] at hlt
    omega
  -- every index is that of a counter
  have hidx : ∀ i : Fin cntMax, ∃ c ∈ TsCounter.all, c.idx = i := by decide
  have htotal := h.total_counter hlt₀
  have htotal' := h'.total_counter hlt
  obtain ⟨before, hb, hrb⟩ := readMap_counters htools (a := m.nic.clsf.tsCounters) fun i => by
    obtain ⟨c, -, rfl⟩ := hidx i
    rw [htotal]
    exact Nat.lt_of_le_of_lt List.countP_le_length hlt₀
  obtain ⟨after, ha, hra⟩ := readMap_counters htools (a := m'.nic.clsf.tsCounters) fun i => by
    obtain ⟨c, -, rfl⟩ := hidx i
    rw [htotal']
    exact Nat.lt_of_le_of_lt List.countP_le_length hlt
  -- what was counted before cancels
  refine ⟨before, after, hb, ha, ?_⟩
  simp only [deltaOf, hrb, hra, Option.bind_eq_bind, Option.bind_some]
  rw [delta_map TsCounter.name_injective (by decide)]
  simp only [htotal, htotal', List.countP_append, Nat.cast_add, add_sub_cancel_left]
  rfl

end

/-! ### Runs -/

namespace RunTraffic

variable (t : RunTraffic ncpu)

/-- The packets between the two reads of a map. -/
def betweenIn : List (Seen ncpu) := t.inOut ++ t.outCnt ++ t.workload

/-- The packets between the two reads of the histogram at the egress. -/
def betweenOut : List (Seen ncpu) := t.outCnt ++ t.workload ++ t.inOutAfter

/-- The packets between the two reads of the counters. -/
def betweenCnt : List (Seen ncpu) := t.workload ++ t.inOutAfter ++ t.outCntAfter

/-- The packets from the first read to the last. -/
def around : List (Seen ncpu) :=
  t.inOut ++ t.outCnt ++ t.workload ++ t.inOutAfter ++ t.outCntAfter

/-- How many packets there are in all. -/
def length : ℕ := t.idle.length + t.settle.length + t.around.length

end RunTraffic

/-- **A `meta.json` counts the packets of a run**: those between the two reads of each map. -/
structure Describes (K : Kernel) (maps : ClsfMaps ncpu) (r : PlannedRun D N ncpu)
    (file : Meta D N) : Prop where
  condition : file.condition = r.cond
  run : file.run = r.run
  ingress : file.prioHistAfterVethIngress = histDict fun i =>
    (ingressOf r.traffic.betweenIn).countP fun p => prioBucket p.2.priority = i
  egress : file.prioHistAtNicEgress = histDict fun i =>
    (sightings (endsInClsf r.cond) r.traffic.betweenOut).countP fun s =>
      prioBucket (s.leaves K maps).priority = i
  counters : file.tsCounters = counterDict fun c =>
    (sightings (endsInClsf r.cond) r.traffic.betweenCnt).countP fun s => s.Counts K maps c

/-- The variables are numbers. -/
def Settings.Converts (tools : Tools D N ncpu) (set : Settings) : Prop :=
  (tools.parse set.rateMbps).isSome ∧ (tools.parse set.floodMbps).isSome ∧
    (intOf tools.table set.count).isSome ∧ (tools.parse set.intervalMs).isSome

/-- What keeps a run from writing its file: a condition that cannot be set up, a command around
the workload that fails or is waited for in vain, or a variable that is no number. -/
def PlannedRun.Stops (tc : Tc Dev) (tools : Tools D N ncpu) (set : Settings)
    (r : PlannedRun D N ncpu) : Prop :=
  (∃ d, applyCondition tc set.shaper set.rateMbps r.cond d = none) ∨ ¬ r.ending.Completes ∨
    ¬ set.Converts tools

/-- What is written for the differences. -/
theorem writeMeta_spec {K : Kernel} {maps : ClsfMaps ncpu} {tools : Tools D N ncpu}
    {set : Settings} (hconv : set.Converts tools) {r : PlannedRun D N ncpu} {reads : Reads}
    (hIn : deltaOf tools reads.afterIn reads.beforeIn = some (histDict fun i =>
      (ingressOf r.traffic.betweenIn).countP fun p => prioBucket p.2.priority = i))
    (hOut : deltaOf tools reads.afterOut reads.beforeOut = some (histDict fun i =>
      (sightings (endsInClsf r.cond) r.traffic.betweenOut).countP fun s =>
        prioBucket (s.leaves K maps).priority = i))
    (hCnt : deltaOf tools reads.afterCnt reads.beforeCnt = some (counterDict fun c =>
      (sightings (endsInClsf r.cond) r.traffic.betweenCnt).countP fun s => s.Counts K maps c)) :
    ∃ file, writeMeta tools set r reads = some file ∧ Describes K maps r file := by
  obtain ⟨hrate, hflood, hcount, hinterval⟩ := hconv
  obtain ⟨rate, hrate⟩ := Option.isSome_iff_exists.mp hrate
  obtain ⟨flood, hflood⟩ := Option.isSome_iff_exists.mp hflood
  obtain ⟨count, hcount⟩ := Option.isSome_iff_exists.mp hcount
  obtain ⟨interval, hinterval⟩ := Option.isSome_iff_exists.mp hinterval
  unfold writeMeta
  rw [hrate, hflood, hcount, hinterval, hIn, hOut, hCnt]
  exact ⟨_, rfl, rfl, rfl, rfl, rfl, rfl⟩

/-- Without numbers in its variables the script does not write a file. -/
theorem writeMeta_eq_none {tools : Tools D N ncpu} {set : Settings}
    (hconv : ¬ set.Converts tools) (r : PlannedRun D N ncpu) (reads : Reads) :
    writeMeta tools set r reads = none := by
  rw [Settings.Converts] at hconv
  unfold writeMeta
  cases hrate : tools.parse set.rateMbps with
  | none => rfl
  | some rate =>
    cases hflood : tools.parse set.floodMbps with
    | none => rfl
    | some flood =>
      cases hcount : intOf tools.table set.count with
      | none => rfl
      | some count =>
        cases hinterval : tools.parse set.intervalMs with
        | none => rfl
        | some interval => simp [hrate, hflood, hcount, hinterval] at hconv

section

variable {K : Kernel} (hK : K.Exact) (hT : K.Total) {tc : Tc Dev} (htc : tc.Documented)
  {tools : Tools D N ncpu} (htools : tools.Documented) {set : Settings}
  {maps : ClsfMaps ncpu} {clsf : Bool}
include hK hT htools

/-- **The reads around a workload**, and the difference of each two. -/
theorem readAround_spec {m : Machine Dev ncpu} {crossed : List (Fin ncpu × Skb)}
    {left : List (Sighting ncpu)} (h : Recorded K tc maps clsf m crossed left)
    (t : RunTraffic ncpu) (hlt : crossed.length + left.length + t.around.length < 2 ^ 64) :
    ∃ m' crossed' left' reads, readAround K tc tools m t = some (m', reads) ∧
      Recorded K tc maps clsf m' crossed' left' ∧
      crossed'.length + left'.length = crossed.length + left.length + t.around.length ∧
      deltaOf tools reads.afterIn reads.beforeIn = some (histDict fun i =>
        (ingressOf t.betweenIn).countP fun p => prioBucket p.2.priority = i) ∧
      deltaOf tools reads.afterOut reads.beforeOut = some (histDict fun i =>
        (sightings clsf t.betweenOut).countP fun s =>
          prioBucket (s.leaves K maps).priority = i) ∧
      deltaOf tools reads.afterCnt reads.beforeCnt = some (counterDict fun c =>
        (sightings clsf t.betweenCnt).countP fun s => s.Counts K maps c) := by
  -- the machine after each of the five stretches between the six reads
  obtain ⟨m₁, hinOut, h₁⟩ := passAll_recorded hK hT t.inOut h
  obtain ⟨m₂, houtCnt, h₂⟩ := passAll_recorded hK hT t.outCnt h₁
  obtain ⟨m₃, hworkload, h₃⟩ := passAll_recorded hK hT t.workload h₂
  obtain ⟨m₄, hinOut', h₄⟩ := passAll_recorded hK hT t.inOutAfter h₃
  obtain ⟨m₅, houtCnt', h₅⟩ := passAll_recorded hK hT t.outCntAfter h₄
  -- no packet is lost on the way, so that no count reaches the width of a map
  have hlen₁ := length_ingressOf_add clsf t.inOut
  have hlen₂ := length_ingressOf_add clsf t.outCnt
  have hlen₃ := length_ingressOf_add clsf t.workload
  have hlen₄ := length_ingressOf_add clsf t.inOutAfter
  have hlen₅ := length_ingressOf_add clsf t.outCntAfter
  simp only [RunTraffic.around, List.length_append] at hlt
  -- the difference of the two reads of a map is what passed between them
  obtain ⟨beforeIn, afterIn, hbIn, haIn, hIn⟩ := delta_probeIn htools h
    (c := ingressOf t.betweenIn)
    (by simpa only [RunTraffic.betweenIn, ingressOf_append, List.append_assoc] using h₃)
    (by
      simp only [RunTraffic.betweenIn, ingressOf_append, List.length_append]
      omega)
  obtain ⟨beforeOut, afterOut, hbOut, haOut, hOut⟩ := delta_prioHist htools h₁
    (l := sightings clsf t.betweenOut)
    (by simpa only [RunTraffic.betweenOut, sightings_append, List.append_assoc] using h₄)
    (by
      simp only [RunTraffic.betweenOut, sightings_append, List.length_append]
      omega)
  obtain ⟨beforeCnt, afterCnt, hbCnt, haCnt, hCnt⟩ := delta_counters htools h₂
    (l := sightings clsf t.betweenCnt)
    (by simpa only [RunTraffic.betweenCnt, sightings_append, List.append_assoc] using h₅)
    (by
      simp only [RunTraffic.betweenCnt, sightings_append, List.length_append]
      omega)
  -- the reads in the order of the script
  refine ⟨m₅, _, _, ⟨beforeIn, beforeOut, beforeCnt, afterIn, afterOut, afterCnt⟩, ?_, h₅, ?_, hIn,
    hOut, hCnt⟩
  · rw [readAround]
    refine Option.bind_eq_some_iff.mpr ⟨_, hbIn, Option.bind_eq_some_iff.mpr ⟨_, hinOut, ?_⟩⟩
    refine Option.bind_eq_some_iff.mpr ⟨_, hbOut, Option.bind_eq_some_iff.mpr ⟨_, houtCnt, ?_⟩⟩
    refine Option.bind_eq_some_iff.mpr ⟨_, hbCnt, Option.bind_eq_some_iff.mpr ⟨_, hworkload, ?_⟩⟩
    refine Option.bind_eq_some_iff.mpr ⟨_, haIn, Option.bind_eq_some_iff.mpr ⟨_, hinOut', ?_⟩⟩
    refine Option.bind_eq_some_iff.mpr ⟨_, haOut, Option.bind_eq_some_iff.mpr ⟨_, houtCnt', ?_⟩⟩
    exact Option.bind_eq_some_iff.mpr ⟨_, haCnt, rfl⟩
  · -- the packets of the five stretches are all
    simp only [RunTraffic.around, List.length_append]
    omega

include htc

/-- **One run**: it ends with its file, or it stops before. -/
theorem runOne_spec {m : Machine Dev ncpu} {crossed : List (Fin ncpu × Skb)}
    {left : List (Sighting ncpu)} (h : Recorded K tc maps clsf m crossed left)
    (r : PlannedRun D N ncpu)
    (hlt : crossed.length + left.length + r.traffic.length < 2 ^ 64) :
    (∃ m' file crossed' left', runOne K tc tools set m r = some (m', file) ∧
        Recorded K tc maps (endsInClsf r.cond) m' crossed' left' ∧
        crossed'.length + left'.length = crossed.length + left.length + r.traffic.length ∧
        Describes K maps r file) ∨
      runOne K tc tools set m r = none ∧ r.Stops tc tools set := by
  obtain ⟨m₁, hidle, h₁⟩ := passAll_recorded hK hT r.traffic.idle h
  cases happly : applyCondition tc set.shaper set.rateMbps r.cond m₁.dev with
  | none =>
    refine Or.inr ⟨?_, Or.inl ⟨m₁.dev, happly⟩⟩
    simp only [runOne, hidle, happly, Option.bind_eq_bind, Option.bind_some, Option.bind_none]
  | some dev =>
    -- the maps stay as they are while the bottleneck is set up
    have hdev : Recorded K tc maps (endsInClsf r.cond) { m₁ with dev := dev } _ _ :=
      ⟨(filters_applyCondition htc h₁.filters happly).1, h₁.config, h₁.ports, h₁.counters,
        h₁.hist, h₁.histIn⟩
    obtain ⟨m₂, hsettle, h₂⟩ := passAll_recorded hK hT r.traffic.settle hdev
    have hidleLen := length_ingressOf_add clsf r.traffic.idle
    have hsettleLen := length_ingressOf_add (endsInClsf r.cond) r.traffic.settle
    obtain ⟨m', crossed', left', reads, hreads, h', hlen, hIn, hOut, hCnt⟩ :=
      readAround_spec hK hT htools h₂ r.traffic (by
        rw [RunTraffic.length] at hlt
        simp only [List.length_append]
        omega)
    -- the workload
    by_cases hends : r.ending.Completes
    case neg =>
      refine Or.inr ⟨?_, Or.inr (Or.inl hends)⟩
      simp only [runOne, hidle, happly, hsettle, hreads, if_neg hends, Option.bind_eq_bind,
        Option.bind_some]
    by_cases hconv : set.Converts tools
    · obtain ⟨file, hfile, hdescribes⟩ := writeMeta_spec hconv hIn hOut hCnt
      refine Or.inl ⟨m', file, crossed', left', ?_, h', ?_, hdescribes⟩
      · simp only [runOne, hidle, happly, hsettle, hreads, if_pos hends, hfile,
          Option.bind_eq_bind, Option.bind_some]
      · rw [RunTraffic.length]
        simp only [List.length_append] at hlen
        omega
    · refine Or.inr ⟨?_, Or.inr (Or.inr hconv)⟩
      simp only [runOne, hidle, happly, hsettle, hreads, if_pos hends, writeMeta_eq_none hconv,
        Option.bind_eq_bind, Option.bind_some, Option.bind_none]

/-- **Runs in a row**: what is written describes the runs up to the one that stops, or behind
which the script stops. -/
theorem runPlan_spec (plan : List (PlannedRun D N ncpu)) : ∀ {clsf : Bool}
    {m : Machine Dev ncpu} {crossed : List (Fin ncpu × Skb)} {left : List (Sighting ncpu)},
    Recorded K tc maps clsf m crossed left →
    crossed.length + left.length + (plan.map fun r => r.traffic.length).sum < 2 ^ 64 →
    ∃ done rest, plan = done ++ rest ∧
      List.Forall₂ (Describes K maps) done (runPlan K tc tools set m plan) ∧
      ∀ r ∈ rest.head?, r.Stops tc tools set ∨ ∃ q ∈ done.getLast?, q.ending.reported = false := by
  induction plan with
  | nil => exact fun _ _ => ⟨[], [], rfl, .nil, nofun⟩
  | cons r plan ih =>
    intro clsf m crossed left h hlt
    rw [List.map_cons, List.sum_cons] at hlt
    rcases runOne_spec hK hT htc htools h r (by omega)
      with ⟨m', file, crossed', left', hrun, h', hlen, hdescribes⟩ | ⟨hrun, hfail⟩
    · cases hreported : r.ending.reported with
      | true =>
        obtain ⟨done, rest, rfl, hdone, hrest⟩ := ih h' (by omega)
        refine ⟨r :: done, rest, rfl, ?_, fun r' hr' => (hrest r' hr').imp_right ?_⟩
        · rw [runPlan, hrun]
          dsimp only
          rw [if_pos hreported]
          exact .cons hdescribes hdone
        · exact fun ⟨q, hq, hno⟩ => ⟨q, List.mem_getLast?_cons hq, hno⟩
      | false =>
        -- the file is written, and the script stops behind it
        refine ⟨[r], plan, rfl, ?_, fun _ _ => Or.inr ⟨r, rfl, hreported⟩⟩
        rw [runPlan, hrun]
        dsimp only
        rw [if_neg (Bool.eq_false_iff.mp hreported)]
        exact .cons hdescribes .nil
    · refine ⟨[], r :: plan, rfl, ?_, ?_⟩
      · rw [runPlan, hrun]
        exact .nil
      · rintro r' ⟨⟩
        exact Or.inl hfail

end

/-! ### What a file says -/

namespace Describes

variable {K : Kernel} {maps : ClsfMaps ncpu} {r : PlannedRun D N ncpu} {file : Meta D N}

/-- Without the classifier nothing is counted. -/
theorem counters_zero (h : Describes K maps r file) (hcond : endsInClsf r.cond = false) :
    file.tsCounters = counterDict fun _ => 0 := by
  rw [h.counters, hcond]
  congr 1
  funext c
  rw [List.countP_eq_zero]
  intro s hs hcounts
  obtain ⟨p, -, rfl⟩ := List.mem_map.mp hs
  exact Bool.false_ne_true (of_decide_eq_true hcounts).1

/-- With it every packet is counted for one reason. -/
theorem counters_sum (h : Describes K maps r file) (hcond : endsInClsf r.cond = true) :
    ((file.tsCounters.filter fun p => p.1 ≠ TsCounter.dscpMarked.name).map Prod.snd).sum
      = (egressOf r.traffic.betweenCnt).length := by
  have hreason : ∀ c : TsCounter, c ≠ .dscpMarked →
      (sightings true r.traffic.betweenCnt).countP (fun s => s.Counts K maps c)
        = ((egressOf r.traffic.betweenCnt).map fun p => Passage.mk p.1 maps p.2).countP
          (fun p => p.reason = c) := by
    intro c hc
    rw [sightings, List.countP_map, List.countP_map]
    refine List.countP_congr fun p _ => ?_
    simp [Sighting.Counts, Sighting.passage, hc]
  have hall := length_eq_countP_reasons
    ((egressOf r.traffic.betweenCnt).map fun p => Passage.mk p.1 maps p.2)
  rw [List.length_map, ← hreason _ TsCounter.noConfusion, ← hreason _ TsCounter.noConfusion,
    ← hreason _ TsCounter.noConfusion, ← hreason _ TsCounter.noConfusion,
    ← hreason _ TsCounter.noConfusion] at hall
  have hfilter : ∀ f : TsCounter → ℕ,
      (((counterDict f).filter fun p => p.1 ≠ TsCounter.dscpMarked.name).map Prod.snd).sum
        = f .normal + (f .tsAvtp + (f .tsPcp + (f .tsUdp + (f .parseShort + 0)))) := fun _ => rfl
  rw [h.counters, hcond, hfilter]
  omega

end Describes

/-- The maps of the classifier as the script sets them up: marking is on, and all else is as it
was loaded. -/
def scriptMaps (ncpu : ℕ) : ClsfMaps ncpu :=
  { ClsfMaps.init ncpu with tsConfig := some { flags := tsCfgMarkDscp } }

/-- The machine as the script sets it up. -/
theorem setup_recorded {K : Kernel} {tc : Tc Dev} (htc : tc.Documented) {tools : Tools D N ncpu}
    (htools : tools.Documented) {rateMbps : Str} {dev : Dev} (hdev : tc.filters dev = [])
    {m : Machine Dev ncpu} {shaper havePrio : Bool}
    (h : setup tc tools rateMbps dev = some (m, shaper, havePrio)) :
    Recorded K tc (scriptMaps ncpu) false m [] [] := by
  rw [setup] at h
  obtain ⟨d, hadd, h⟩ := Option.bind_eq_some_iff.mp h
  obtain ⟨val, hval, h⟩ := Option.bind_eq_some_iff.mp h
  obtain ⟨rfl, -⟩ := Prod.mk.inj (Option.some.inj h)
  obtain ⟨hfilters, -⟩ := htc.filterAdd hadd
  rw [filters_detectQdisc htc, filters_detectQdisc htc, hdev] at hfilters
  refine ⟨hfilters, ?_, rfl, rfl, rfl, rfl⟩
  -- the numbers that are written into the configuration
  obtain ⟨p, q, f, hp, hq, hf, -, hbytes⟩ := ofBytes_setTsConfig hval
  have hzero : intOf tools.table "0".toList = some 0 :=
    intOf_strOf htools.table 0 (Nat.pos_of_ne_zero (by simp))
  have hone : intOf tools.table "1".toList = some 1 :=
    intOf_strOf htools.table 1 (Nat.one_lt_pow (by decide) (by decide))
  rw [hzero] at hp hq
  rw [hone] at hf
  obtain rfl := Option.some.inj hp
  obtain rfl := Option.some.inj hq
  obtain rfl := Option.some.inj hf
  exact congrArg some hbytes

/-- The filters and the queues of the bottleneck. -/
def refTc : Tc (List (ℕ × Program) × List Qdisc) where
  filters := Prod.fst
  qdiscs := Prod.snd
  filterAdd pref prog d := some (insertFilter pref prog d.1, d.2)
  filterDel pref d :=
    if d.1.any (·.1 == pref) then some (d.1.filter (·.1 ≠ pref), d.2) else none
  qdiscAdd q d := some (d.1, d.2 ++ [q])
  qdiscReplaceRoot kind d := some (d.1, [⟨none, 0, kind⟩])
  qdiscDelRoot d := if d.2 = [] then none else some (d.1, [])

theorem refTc_documented : refTc.Documented where
  filterAdd h := by
    obtain rfl := Option.some.inj h
    exact ⟨rfl, rfl⟩
  filterDel {pref d d'} h := by
    simp only [refTc] at h
    split at h
    · obtain rfl := Option.some.inj h
      exact ⟨rfl, rfl⟩
    · cases h
  filterDel_none {pref d} h f hf hpref := by
    simp only [refTc, ite_eq_right_iff, reduceCtorEq, imp_false] at h
    exact h (List.any_eq_true.mpr ⟨f, hf, beq_iff_eq.mpr hpref⟩)
  qdiscAdd h := by
    obtain rfl := Option.some.inj h
    exact ⟨rfl, rfl⟩
  qdiscReplaceRoot h := by
    obtain rfl := Option.some.inj h
    rfl
  qdiscDelRoot {d d'} h := by
    simp only [refTc] at h
    split at h
    · cases h
    · obtain rfl := Option.some.inj h
      exact ⟨rfl, rfl⟩
  qdiscDelRoot_none {d} h := by
    simpa [refTc] using h

/-- `float` of the text of an integer. -/
def parseInteger (s : Str) : Option (PyFloat {n : ℕ // n < doubleBound}) :=
  (intOf asciiTable s).map fun z =>
    if h : z.toNat < doubleBound then .finite ⟨z.toNat, h⟩ else .inf false

/-- `bpftool`, and floats that are whole numbers. -/
def refTools : Tools {n : ℕ // n < doubleBound} ℕ 2 where
  bpftool _ a := bpftoolFormatted a
  table := asciiTable
  floats := FloatTypes.whole
  parse := parseInteger
  constant _ := .none

theorem refTools_documented : refTools.Documented :=
  ⟨asciiTable_ascii, fun _ a => renders_bpftoolFormatted a⟩

/-- The first condition without the classifier and one with it, each with a datagram to the
default port while the workload runs. -/
def twoRuns : List (PlannedRun {n : ℕ // n < doubleBound} ℕ 2) :=
  let traffic : RunTraffic 2 :=
    { idle := [], settle := [], inOut := [], outCnt := [], inOutAfter := [], outCntAfter := []
      workload := [.ingress (Fin.last 1) { data := udpFrame 6000 [] {} },
        .egress (Fin.last 1).rev { data := udpFrame 6000 [] {} }] }
  [⟨"fifo".toList, 1, traffic, {}, none, none⟩,
    ⟨"prio_clsf".toList, 1, traffic, {}, none, none⟩]

end TsPacket
