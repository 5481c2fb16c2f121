import TsPacket.Analysis.Report
import TsPacket.Analysis.Summarised
import TsPacket.Lib.Alike

/-!
# What the summary reads off the clocks

Two datasets that were measured with different clocks have other latencies, and nothing else
of them that is summarised is other.  The latencies go through the summary on a path of their
own: whatever they have to do with each other, the latency tables have to do with each other,
and all else is the same.

## Main definitions

* `Run.Reclocked`, `Cell.Reclocked` — the same but for the latencies.
* `Summary.Related` — the same but for what comes of the latencies.
* `Transfers` — how a relation between latencies shows in the tables.
* `SameLength` — nothing is known of the latencies but how many there are.

## Main results

* `summarise_alike` — **the summaries of reclocked cells are related**, or raise the same.
* `transfers_sameLength` — the number of latencies is all that the rest depends on.
-/

namespace TsPacket

open PyText Raise

variable {F : Type}

/-! ### Runs -/

/-- The same run, but for its latencies and what it was clocked with. -/
structure Run.Reclocked (L : List F → List F → Prop) (r r' : Run F) : Prop where
  name : r.name = r'.name
  condition : r.condition = r'.condition
  runIndex : r.runIndex = r'.runIndex
  seq : r.seq = r'.seq
  latencyMs : L r.latencyMs r'.latencyMs
  jitterUs : r.jitterUs = r'.jitterUs
  tos : r.tos = r'.tos

/-- A condition of the same runs, with the columns of time of two clocks. -/
structure Cell.Reclocked (L : List F → List F → Prop) (cell cell' : Cell F) : Prop where
  condition : cell.condition = cell'.condition
  runs : List.Forall₂ (Run.Reclocked L) cell.runs cell'.runs

variable {L : List F → List F → Prop}

/-- **Filing and sorting look at no clock.** -/
theorem forall₂_cells_groups {rs rs' : List (Run F)}
    (h : List.Forall₂ (Run.Reclocked L) rs rs') :
    List.Forall₂ (Cell.Reclocked L) (cells (groups rs)) (cells (groups rs')) := by
  -- the groups, sorted by the index of the run
  have hgroups : List.Forall₂ (fun g g' => g.1 = g'.1 ∧ List.Forall₂ (Run.Reclocked L) g.2 g'.2)
      (groups rs) (groups rs') := by
    rw [groups, groups, List.forall₂_map_left_iff, List.forall₂_map_right_iff]
    refine (forall₂_groupBy (fun r r' hr => hr.condition) h).imp fun g g' hg => ⟨hg.1, ?_⟩
    refine forall₂_insertionSort (fun r r' hr s s' hs => ?_) hg.2
    rw [runKey, runKey, runKey, runKey, hr.runIndex, hs.runIndex]
  -- the cells, sorted by their conditions
  rw [cells, cells, List.forall₂_map_left_iff, List.forall₂_map_right_iff]
  refine (forall₂_insertionSort (fun g g' hg k k' hk => ?_) hgroups).imp
    fun g g' hg => ⟨hg.1, hg.2⟩
  rw [hg.1, hk.1]

/-! ### What no clock shows in -/

section

variable {cell cell' : Cell F} (hcell : Cell.Reclocked L cell cell')
include hcell

theorem jitterUs_reclocked (np : Numpy.Ops F) : cell.jitterUs np = cell'.jitterUs np := by
  unfold Cell.jitterUs
  rw [map_eq_map_of_forall₂ (fun r r' hr => by rw [hr.jitterUs]) hcell.runs]

theorem aggregateLoss_reclocked : aggregateLoss cell.runs = aggregateLoss cell'.runs := by
  unfold aggregateLoss
  rw [map_eq_map_of_forall₂ (fun r r' hr => by rw [hr.seq]) hcell.runs]

theorem aggregateDscp_reclocked : aggregateDscp cell.runs = aggregateDscp cell'.runs := by
  have htos : cell.runs.map Run.tos = cell'.runs.map Run.tos :=
    map_eq_map_of_forall₂ (fun r r' hr => hr.tos) hcell.runs
  have hper : ∀ rs : List (Run F), (rs.filterMap fun r => dscpDistribution r.tos)
      = (rs.map Run.tos).filterMap dscpDistribution := fun rs => by
    rw [List.filterMap_map]
    rfl
  unfold aggregateDscp
  rw [hper, hper, htos]

end

/-! ### Summaries -/

/-- What the entries of two summaries that come of latencies have to do with each other. -/
structure LatencyRel (F : Type) where
  distribution : DistributionSummary F → DistributionSummary F → Prop
  comparison : Comparison F → Comparison F → Prop
  aggregate : RunAggregate F → RunAggregate F → Prop

/-- The label of the metric that is not one of the latencies. -/
def jitterLabel : Str := "jitter_p99_us".toList

section

variable (V : LatencyRel F)

/-- The entries of a condition: related where they show latencies, the same elsewhere. -/
structure CellSummary.Related (s s' : CellSummary F) : Prop where
  condition : s.condition = s'.condition
  runs : s.runs = s'.runs
  nRuns : s.nRuns = s'.nRuns
  nPackets : s.nPackets = s'.nPackets
  latencyMs : V.distribution s.latencyMs s'.latencyMs
  jitterUs : s.jitterUs = s'.jitterUs
  loss : s.loss = s'.loss
  dscp : s.dscp = s'.dscp
  perRun : Option.Rel (fun p p' => V.aggregate p.1 p'.1 ∧ p.2 = p'.2) s.perRun s'.perRun

/-- The comparison under a label. -/
def MetricRelated (p p' : Str × Comparison F) : Prop :=
  p.1 = p'.1 ∧ if p.1 = jitterLabel then p.2 = p'.2 else V.comparison p.2 p'.2

/-- The comparisons of a condition, metric by metric. -/
structure ConditionComparison.Related (c c' : ConditionComparison F) : Prop where
  condition : c.condition = c'.condition
  baseline : c.baseline = c'.baseline
  metrics : List.Forall₂ (MetricRelated V) c.metrics c'.metrics

/-- Two summaries of the same conditions, entry by entry. -/
structure Summary.Related (s s' : Summary F) : Prop where
  resultsDir : s.resultsDir = s'.resultsDir
  args : s.args = s'.args
  baseline : s.baseline = s'.baseline
  conditions : s.conditions = s'.conditions
  cells : List.Forall₂ (CellSummary.Related V) s.cells s'.cells
  comparisons : List.Forall₂ (ConditionComparison.Related V) s.comparisons s'.comparisons

end

/-- What latencies have to do with each other shows in what is made of them. -/
structure Transfers [LinearOrder F] (np : Numpy.Ops F) (args : SummaryArgs)
    (L : List F → List F → Prop) (V : LatencyRel F) : Prop where
  length : ∀ {xs xs'}, L xs xs' → xs.length = xs'.length
  flatten : ∀ {xss xss'}, xss ≠ [] → List.Forall₂ L xss xss' → L xss.flatten xss'.flatten
  distribution : ∀ {xs xs'}, L xs xs' →
    Alike V.distribution (latencySummary np xs args.method) (latencySummary np xs' args.method)
  comparison : ∀ {a a' b b' q}, 0 ≤ q ∧ q ≤ 100 → L a a' → L b b' →
    Alike V.comparison
      (compare np a b (.percentile q) args.nBoot args.ci args.seed args.method)
      (compare np a' b' (.percentile q) args.nBoot args.ci args.seed args.method)
  aggregate : ∀ {vs vs'}, vs ≠ [] → List.Forall₂ L vs vs' →
    Alike V.aggregate (perRunAggregate np vs (.percentile 99) args.ci args.method)
      (perRunAggregate np vs' (.percentile 99) args.ci args.method)

section

variable [LinearOrder F] {np : Numpy.Ops F} {args : SummaryArgs} {V : LatencyRel F}
  (hV : Transfers np args L V)
include hV

/-! ### One condition -/

section

variable {cell cell' : Cell F} (hcell : Cell.Reclocked L cell cell')
include hcell

theorem latencyMs_alike : Alike L cell.latencyMs cell'.latencyMs := by
  have hlatency : List.Forall₂ L (cell.runs.map Run.latencyMs) (cell'.runs.map Run.latencyMs) := by
    rw [List.forall₂_map_left_iff, List.forall₂_map_right_iff]
    exact hcell.runs.imp fun r r' hr => hr.latencyMs
  rw [Cell.latencyMs, Cell.latencyMs]
  by_cases hne : cell.runs.map Run.latencyMs = []
  · rw [hne] at hlatency ⊢
    rw [List.forall₂_nil_left_iff.mp hlatency]
    exact .error _
  · have hne' : cell'.runs.map Run.latencyMs ≠ [] := fun h => by
      rw [h] at hlatency
      exact hne (List.forall₂_nil_right_iff.mp hlatency)
    rw [Numpy.concatenate_of_ne hne, Numpy.concatenate_of_ne hne']
    exact .ok (hV.flatten hne hlatency)

theorem perRunEntry_alike :
    Alike (Option.Rel fun p p' => V.aggregate p.1 p'.1 ∧ p.2 = p'.2)
      (perRunEntry np cell args.method args.ci) (perRunEntry np cell' args.method args.ci) := by
  have hn : cell.nRuns = cell'.nRuns := hcell.runs.length_eq
  rw [perRunEntry, perRunEntry, ← hn]
  by_cases h : cell.nRuns > 1
  · rw [if_pos h, if_pos h]
    have hlatency : List.Forall₂ L (cell.runs.map Run.latencyMs)
        (cell'.runs.map Run.latencyMs) := by
      rw [List.forall₂_map_left_iff, List.forall₂_map_right_iff]
      exact hcell.runs.imp fun r r' hr => hr.latencyMs
    have hne : cell.runs.map Run.latencyMs ≠ [] := fun hnil => by
      rw [Cell.nRuns, List.map_eq_nil_iff.mp hnil, List.length_nil] at h
      omega
    refine (hV.aggregate hne hlatency).bind fun a a' ha => ?_
    rw [map_eq_map_of_forall₂ (fun r r' hr => by rw [hr.jitterUs]) hcell.runs]
    refine Alike.bind (Alike.of_eq fun b => rfl) fun b b' hb => ?_
    exact .ok (.some ⟨ha, hb⟩)
  · rw [if_neg h, if_neg h]
    exact .ok .none

/-- **The entry of a condition.** -/
theorem cellSummary_alike :
    Alike (CellSummary.Related V) (cellSummary np cell args.method args.ci)
      (cellSummary np cell' args.method args.ci) := by
  unfold cellSummary
  -- latency is carried along the chain
  refine (latencyMs_alike hV hcell).bind fun xs xs' hxs => ?_
  refine (hV.distribution hxs).bind fun d d' hd => ?_
  -- jitter is the same sample on both sides
  rw [jitterUs_reclocked hcell np]
  refine Alike.bind (Alike.of_eq fun b => rfl) fun j j' hj => ?_
  subst hj
  refine Alike.bind (Alike.of_eq fun b => rfl) fun k k' hk => ?_
  subst hk
  refine (perRunEntry_alike hV hcell).bind fun e e' he => .ok ?_
  exact
    { condition := hcell.condition
      runs := map_eq_map_of_forall₂ (fun r r' hr => hr.name) hcell.runs
      nRuns := hcell.runs.length_eq
      nPackets := hV.length hxs
      latencyMs := hd
      jitterUs := rfl
      loss := aggregateLoss_reclocked hcell
      dscp := aggregateDscp_reclocked hcell
      perRun := he }

end

/-! ### Two conditions -/

omit hV [LinearOrder F] in
/-- Two metrics are of the latencies, and one is of the jitter. -/
theorem comparisonMetrics_cases {label : Str} {sample : Sample} {stat : Statistic}
    (h : (label, sample, stat) ∈ comparisonMetrics) :
    (label ≠ jitterLabel ∧ sample = .latencyMs ∧ ∃ q, (0 ≤ q ∧ q ≤ 100) ∧ stat = .percentile q) ∨
      label = jitterLabel ∧ sample = .jitterUs := by
  have hrange := comparisonMetrics_inRange _ h
  rcases List.mem_cons.mp h with heq | h
  · cases heq
    exact Or.inl ⟨by decide, rfl, 50, hrange, rfl⟩
  rcases List.mem_cons.mp h with heq | h
  · cases heq
    exact Or.inl ⟨by decide, rfl, 99, hrange, rfl⟩
  · cases List.mem_singleton.mp h
    exact Or.inr ⟨rfl, rfl⟩

theorem compareCells_alike {base base' other other' : Cell F}
    (hbase : Cell.Reclocked L base base') (hother : Cell.Reclocked L other other') :
    Alike (List.Forall₂ (MetricRelated V))
      (compareCells np base other args.nBoot args.ci args.seed args.method)
      (compareCells np base' other' args.nBoot args.ci args.seed args.method) := by
  refine Alike.mapM_same fun m hm => ?_
  obtain ⟨label, sample, stat⟩ := m
  -- a metric of the latency sample, or the one of the jitter sample
  rcases comparisonMetrics_cases hm with ⟨hlabel, rfl, q, hq, rfl⟩ | ⟨rfl, rfl⟩
  · refine (latencyMs_alike hV hbase).bind fun a a' ha => ?_
    refine (latencyMs_alike hV hother).bind fun b b' hb => ?_
    refine (hV.comparison hq ha hb).bind fun c c' hc => .ok ⟨rfl, ?_⟩
    rw [if_neg hlabel]
    exact hc
  · have hb : base.sample np .jitterUs = base'.sample np .jitterUs := jitterUs_reclocked hbase np
    have ho : other.sample np .jitterUs = other'.sample np .jitterUs :=
      jitterUs_reclocked hother np
    dsimp only
    rw [hb, ho]
    refine Alike.bind (Alike.of_eq fun b => rfl) fun xs xs' hxs => ?_
    refine Alike.bind (Alike.of_eq fun b => rfl) fun ys ys' hys => ?_
    subst hxs hys
    refine Alike.bind (Alike.of_eq fun b => rfl) fun c c' hc => .ok ⟨rfl, ?_⟩
    rw [if_pos rfl]
    exact hc

/-! ### The summary -/

section

variable {cs cs' : List (Cell F)} (hcs : List.Forall₂ (Cell.Reclocked L) cs cs')
include hcs

omit hV [LinearOrder F] in
theorem conditions_reclocked : cs.map Cell.condition = cs'.map Cell.condition :=
  map_eq_map_of_forall₂ (fun _ _ hcell => hcell.condition) hcs

omit hV [LinearOrder F] in
theorem lookupCell_alike (c : Str) :
    Alike (Cell.Reclocked L) (lookupCell cs c) (lookupCell cs' c) := by
  induction hcs with
  | nil => exact .error _
  | @cons cell cell' cs cs' hcell _ ih =>
    unfold lookupCell at ih ⊢
    rw [List.find?_cons, List.find?_cons, ← hcell.condition]
    cases decide (cell.condition = c) with
    | true => exact .ok hcell
    | false => exact ih

theorem cellEntry_alike (c : Str) :
    Alike (CellSummary.Related V) (cellEntry np args cs c) (cellEntry np args cs' c) :=
  (lookupCell_alike hcs c).bind fun _ _ hcell => (cellSummary_alike hV hcell).mapError _

theorem comparisonEntry_alike (base c : Str) :
    Alike (ConditionComparison.Related V) (comparisonEntry np args cs base c)
      (comparisonEntry np args cs' base c) := by
  refine (lookupCell_alike hcs base).bind fun b b' hb => ?_
  refine (lookupCell_alike hcs c).bind fun o o' ho => ?_
  exact ((compareCells_alike hV hb ho).mapError _).bind fun ms ms' hms => .ok ⟨rfl, rfl, hms⟩

/-- **The summaries of reclocked cells** are the same, but for what comes of the latencies;
or what stops one stops the other. -/
theorem summarise_alike (resultsDir : Str) :
    Alike (Summary.Related V) (summarise np args resultsDir cs)
      (summarise np args resultsDir cs') := by
  unfold summarise
  rw [← conditions_reclocked hcs]
  refine Alike.bind (Alike.of_eq fun b => rfl) fun base base' hbase => ?_
  subst hbase
  refine (Alike.mapM_same fun c _ => cellEntry_alike hV hcs c).bind fun es es' hes => ?_
  refine (Alike.mapM_same fun c _ => comparisonEntry_alike hV hcs base c).bind
    fun ks ks' hks => .ok ?_
  exact ⟨rfl, rfl, rfl, rfl, hes, hks⟩

end

end

end TsPacket
