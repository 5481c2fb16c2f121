import Mathlib.Algebra.Order.BigOperators.Group.List
import TsPacket.Analysis.Dataset
import TsPacket.Analysis.Stats

/-!
# The report

`analysis/tsn_analysis/report.py`, but for the rendering.

## Main definitions

* `aggregateLoss`, `aggregateDscp` — the loss and the DSCP values of a condition, over its
  runs.
* `cellSummary` — the metrics of a condition.
* `compareCells` — two conditions, compared on each metric.
* `buildSummary` — the summary of a results directory.

## Main results

* `aggregateLoss_exact` — **the floats of a condition are the totals of its runs**, if these
  are below `2 ^ 53`.
* `aggregateLoss_sums` — they add up as the counts of a run do.
-/

namespace TsPacket

open PyText

variable {F : Type}

/-! ### Loss over runs -/

/-- `_aggregate_loss`: the floats of the runs, added up.  From Python 3.12 on `sum` also keeps
track of what it rounds away, which is nothing for `Countable` runs. -/
def aggregateLoss (runs : List (Run F)) : LossSummary :=
  let perRun := runs.map fun r => lossSummary r.seq
  let lost := Binary64.sum (perRun.map LossSummary.lost)
  let expected := Binary64.sum (perRun.map LossSummary.expected)
  { expected := expected
    received := Binary64.sum (perRun.map LossSummary.received)
    unique := Binary64.sum (perRun.map LossSummary.unique)
    lost := lost
    lossPct := if expected ≠ 0 then some (lossPercent lost expected) else none
    duplicates := Binary64.sum (perRun.map LossSummary.duplicates)
    reorders := Binary64.sum (perRun.map LossSummary.reorders) }

/-- The totals over the runs, as integers. -/
def totalCounts (runs : List (Run F)) : LossCounts :=
  let total (key : LossCounts → ℤ) : ℤ := (runs.map fun r => key (lossCounts r.seq)).sum
  { expected := total LossCounts.expected
    received := total LossCounts.received
    unique := total LossCounts.unique
    lost := total LossCounts.lost
    duplicates := total LossCounts.duplicates
    reorders := total LossCounts.reorders }

/-- Runs with numbers that are not negative, of fewer than `2 ^ 53` packets in all. -/
structure Countable (runs : List (Run F)) : Prop where
  nonneg : ∀ r ∈ runs, ∀ k ∈ r.seq, 0 ≤ k
  expected : (totalCounts runs).expected < 2 ^ 53
  received : (totalCounts runs).received < 2 ^ 53

instance (runs : List (Run F)) : Decidable (Countable runs) :=
  decidable_of_iff ((∀ r ∈ runs, ∀ k ∈ r.seq, 0 ≤ k) ∧ (totalCounts runs).expected < 2 ^ 53 ∧
      (totalCounts runs).received < 2 ^ 53)
    ⟨fun h => ⟨h.1, h.2.1, h.2.2⟩, fun h => ⟨h.nonneg, h.expected, h.received⟩⟩

/-- The totals add up as the counts of a run do. -/
theorem totalCounts_sums (runs : List (Run F)) :
    (totalCounts runs).received = (totalCounts runs).unique + (totalCounts runs).duplicates ∧
      (totalCounts runs).expected = (totalCounts runs).unique + (totalCounts runs).lost := by
  simp only [totalCounts]
  rw [← List.sum_map_add, ← List.sum_map_add]
  constructor
  · congr 2
    funext r
    exact (lossCounts_sums r.seq).1
  · congr 2
    funext r
    exact (lossCounts_sums r.seq).2

theorem exists_natCast {arr : List ℤ} (h : ∀ k ∈ arr, 0 ≤ k) :
    ∃ seqs : List ℕ, arr = seqs.map Nat.cast := by
  refine ⟨arr.map Int.toNat, ?_⟩
  rw [List.map_map]
  exact ((List.map_congr_left fun k hk => Int.toNat_of_nonneg (h k hk)).trans
    (List.map_id arr)).symm

/-- The counts of a column without negative numbers. -/
theorem bounded_of_nonneg {arr : List ℤ} (h : ∀ k ∈ arr, 0 ≤ k) : (lossCounts arr).Bounded := by
  obtain ⟨seqs, rfl⟩ := exists_natCast h
  exact bounded_lossCounts seqs

section

variable {runs : List (Run F)} (h : Countable runs)
include h

/-- **The floats are the totals.** -/
theorem aggregateLoss_exact : (aggregateLoss runs).Exact (totalCounts runs) := by
  have hbounded : ∀ r ∈ runs, (lossCounts r.seq).Bounded := fun r hr =>
    bounded_of_nonneg (h.nonneg r hr)
  -- a key is added up of the runs, and none of its terms is over that of a total
  have hkey : ∀ {key bound : LossCounts → ℤ}, (∀ c : LossCounts, c.Bounded →
      0 ≤ key c ∧ key c ≤ bound c) → (runs.map fun r => bound (lossCounts r.seq)).sum < 2 ^ 53 →
      Binary64.sum (runs.map fun r => Binary64.nearest (key (lossCounts r.seq)))
        = ((runs.map fun r => key (lossCounts r.seq)).sum : ℤ) := fun hle hsum =>
    Binary64.sum_nearest (fun r hr => hle _ (hbounded r hr)) hsum
  simp only [aggregateLoss, List.map_map, Function.comp_def, lossSummary, LossCounts.summary]
  exact
    { expected := hkey (fun c hc => ⟨hc.lost.1.trans hc.lost.2, le_rfl⟩) h.expected
      received := hkey (fun c hc => ⟨hc.reorders.1.trans hc.reorders.2, le_rfl⟩) h.received
      unique := hkey (fun c hc => hc.unique) h.expected
      lost := hkey (fun c hc => hc.lost) h.expected
      duplicates := hkey (fun c hc => hc.duplicates) h.received
      reorders := hkey (fun c hc => hc.reorders) h.received }

/-- The totals of the report add up. -/
theorem aggregateLoss_sums :
    (aggregateLoss runs).received = (aggregateLoss runs).unique + (aggregateLoss runs).duplicates ∧
      (aggregateLoss runs).expected
        = (aggregateLoss runs).unique + (aggregateLoss runs).lost :=
  (aggregateLoss_exact h).sums (totalCounts_sums runs)

end

/-! ### DSCP over runs -/

/-- `_aggregate_dscp`: `none` if no run has TOS values. -/
def aggregateDscp (runs : List (Run F)) : Option DscpDistribution :=
  let perRun := runs.filterMap fun r => dscpDistribution r.tos
  if perRun = [] then none
  else
    let dscp := perRun.foldl (fun m d => Histogram.merge m d.dscp) []
    some
      { dscp := dscp
        ecn := perRun.foldl (fun m d => Histogram.merge m d.ecn) []
        tos := perRun.foldl (fun m d => Histogram.merge m d.tos) []
        missing := (perRun.map DscpDistribution.missing).sum
        -- the first of the most frequent values, in the order they came in
        dominantDscp := if dscp ≠ [] then (dscp.argmax Prod.snd).map Prod.fst else none }

/-! ### One condition -/

/-- The dictionary `cell_summary` returns; `perRun` has the latency and the jitter. -/
structure CellSummary (F : Type) where
  condition : Str
  runs : List Str
  nRuns : ℕ
  nPackets : ℕ
  latencyMs : DistributionSummary F
  jitterUs : DistributionSummary F
  loss : LossSummary
  dscp : Option DscpDistribution
  perRun : Option (RunAggregate F × RunAggregate F)

/-- The entry `per_run`, which only several runs have. -/
def perRunEntry (np : Numpy.Ops F) (cell : Cell F) (method : Numpy.Method) (ci : ℚ) :
    Except Numpy.Error (Option (RunAggregate F × RunAggregate F)) :=
  if cell.nRuns > 1 then do
    let latency ← perRunAggregate np (cell.runs.map Run.latencyMs) (.percentile 99) ci method
    let jitter ← perRunAggregate np (cell.runs.map fun r => jitterValues np r.jitterUs)
      (.percentile 99) ci method
    return some (latency, jitter)
  else .ok none

/-- `cell_summary`. -/
def cellSummary (np : Numpy.Ops F) (cell : Cell F) (method : Numpy.Method) (ci : ℚ) :
    Except Numpy.Error (CellSummary F) := do
  let latency ← cell.latencyMs
  let latencyMs ← latencySummary np latency method
  let jitter ← cell.jitterUs np
  let jitterUs ← distributionSummary np jitter latencyPercentiles method
  let perRun ← perRunEntry np cell method ci
  return { condition := cell.condition, runs := cell.runs.map Run.name, nRuns := cell.nRuns,
           nPackets := latency.length, latencyMs, jitterUs, loss := aggregateLoss cell.runs,
           dscp := aggregateDscp cell.runs, perRun }

/-! ### Two conditions -/

/-- The samples of a cell that are compared. -/
inductive Sample
  | latencyMs
  | jitterUs
  deriving DecidableEq

/-- `getattr(cell, attr)`. -/
def Cell.sample (np : Numpy.Ops F) (cell : Cell F) : Sample → Except Numpy.Error (List F)
  | .latencyMs => cell.latencyMs
  | .jitterUs => cell.jitterUs np

/-- `COMPARISON_METRICS`: the label, the sample and the statistic. -/
def comparisonMetrics : List (Str × Sample × Statistic) :=
  [("latency_p50_ms".toList, .latencyMs, .percentile 50),
    ("latency_p99_ms".toList, .latencyMs, .percentile 99),
    ("jitter_p99_us".toList, .jitterUs, .percentile 99)]

section

variable [LinearOrder F] (np : Numpy.Ops F)

/-- `compare_cells`. -/
def compareCells (base other : Cell F) (nBoot : ℤ) (ci : ℚ) (seed : ℕ)
    (method : Numpy.Method) : Except Numpy.Error (List (Str × Comparison F)) :=
  comparisonMetrics.mapM fun m => do
    let baseValues ← base.sample np m.2.1
    let otherValues ← other.sample np m.2.1
    let c ← compare np baseValues otherValues m.2.2 nBoot ci seed method
    return (m.1, c)

/-! ### The summary -/

/-- The exceptions of `build_summary`. -/
inductive SummaryError
  | load (e : LoadError)
  /-- `ValueError`: the requested baseline is not among the conditions. -/
  | unknownBaseline (requested : Str) (conditions : List Str)
  /-- `ValueError`: no conditions found. -/
  | noConditions
  /-- `KeyError`. -/
  | noCell (condition : Str)
  | array (e : Numpy.Error)
  deriving DecidableEq

/-- `choose_baseline`. -/
def chooseBaseline (conditions : List Str) (requested : Option Str) :
    Except SummaryError Str :=
  match requested with
  | some b => if conditions.contains b then .ok b else .error (.unknownBaseline b conditions)
  | none =>
    match conditions with
    | [] => .error .noConditions
    | c :: _ => .ok c

/-- The arguments of `build_summary`. -/
structure SummaryArgs where
  baseline : Option Str := none
  nBoot : ℤ := 2000
  ci : ℚ := 95 / 100
  seed : ℕ := 0
  method : Numpy.Method := .linear

/-- An element of `"comparisons"`. -/
structure ConditionComparison (F : Type) where
  condition : Str
  baseline : Str
  metrics : List (Str × Comparison F)

/-- The dictionary `build_summary` returns. -/
structure Summary (F : Type) where
  resultsDir : Str
  args : SummaryArgs
  baseline : Str
  conditions : List Str
  cells : List (CellSummary F)
  comparisons : List (ConditionComparison F)

/-- `cells[c]`. -/
def lookupCell (cells : List (Cell F)) (c : Str) : Except SummaryError (Cell F) :=
  match cells.find? fun cell => cell.condition = c with
  | some cell => .ok cell
  | none => .error (.noCell c)

/-- An element of `"cells"`. -/
def cellEntry (args : SummaryArgs) (cells : List (Cell F)) (c : Str) :
    Except SummaryError (CellSummary F) := do
  let cell ← lookupCell cells c
  (cellSummary np cell args.method args.ci).mapError .array

/-- An element of `"comparisons"`. -/
def comparisonEntry (args : SummaryArgs) (cells : List (Cell F)) (base c : Str) :
    Except SummaryError (ConditionComparison F) := do
  let baseCell ← lookupCell cells base
  let other ← lookupCell cells c
  let metrics ← (compareCells np baseCell other args.nBoot args.ci args.seed
    args.method).mapError .array
  return { condition := c, baseline := base, metrics }

/-- The summary of the cells of a dataset. -/
def summarise (args : SummaryArgs) (resultsDir : Str) (cells : List (Cell F)) :
    Except SummaryError (Summary F) := do
  let names := cells.map Cell.condition
  let base ← chooseBaseline names args.baseline
  let entries ← names.mapM (cellEntry np args cells)
  let comparisons ← (names.filter (· ≠ base)).mapM (comparisonEntry np args cells base)
  return { resultsDir, args, baseline := base, conditions := names, cells := entries,
           comparisons }

/-- `files` are the CSV files of the directory. -/
def buildSummary (U : Unicode) (fl : FloatOps F) (args : SummaryArgs) (resultsDir : Str)
    (files : List CsvFile) : Except SummaryError (Summary F) := do
  let cells ← (buildDataset U fl files).mapError .load
  summarise np args resultsDir cells

end

end TsPacket
