import TsPacket.Analysis.Columns
import TsPacket.Analysis.Report

/-!
# Every dataset that loads can be summarised, but for runs of one packet

Small runs leave little to compute with: the first row of a run has no jitter, so a run of
one row has an empty jitter sample.  The pooled summary, the bootstrap, the rank tests and
Cliff's delta have a guard for it and give `nan`.  The aggregate over repeated runs has none,
so a run of one row can only be summarised if it is the only run of its condition.

## Main definitions

* `CellSummary.Describes` — the entry of a condition, in terms of its runs.
* `Summary.Complete` — an entry for every condition, a comparison for every other one than
  the baseline, and `nan` for what is undefined.

## Main results

* `exists_cellSummary_iff` — when the entry of a condition can be made.
* `buildSummary_total_iff` — **when the summary of a directory can be made**, and that it is
  complete.
-/

namespace TsPacket

open PyText Raise

variable {F : Type}

/-! ### What a summary says -/

/-- The entry of a condition counts the packets of its runs, and is `nan` where a sample is
too small. -/
structure CellSummary.Describes (np : Numpy.Ops F) (s : CellSummary F) (runs : List (Run F)) :
    Prop where
  nRuns : s.nRuns = runs.length
  nPackets : s.nPackets = (runs.map fun r => r.latencyMs.length).sum
  latency_n : s.latencyMs.n = (runs.map fun r => r.latencyMs.length).sum
  -- the first row of every run is dropped
  jitter_n : s.jitterUs.n = (runs.map fun r => r.jitterUs.length - 1).sum
  latency : s.latencyMs.UndefinedNan np latencyPercentiles
  jitter : s.jitterUs.UndefinedNan np latencyPercentiles
  perRun : ∀ a b, s.perRun = some (a, b) → (a.nRuns = s.nRuns ∧ b.nRuns = s.nRuns) ∧
    a.UndefinedNan np ∧ b.UndefinedNan np

/-- One entry for every condition, one comparison for every condition but the baseline. -/
structure Summary.Complete (np : Numpy.Ops F) (runs : List (Run F)) (s : Summary F) : Prop where
  nodup : s.conditions.Nodup
  mem_conditions : ∀ c, c ∈ s.conditions ↔ ∃ r ∈ runs, r.condition = c
  cells : s.cells.map CellSummary.condition = s.conditions
  describes : ∀ e ∈ s.cells, e.Describes np (runs.filter fun r => r.condition = e.condition)
  baseline : s.baseline ∈ s.conditions
  comparisons : s.comparisons.map ConditionComparison.condition
    = s.conditions.filter (· ≠ s.baseline)
  compared : ∀ d ∈ s.comparisons, d.baseline = s.baseline ∧
    d.metrics.map Prod.fst = comparisonMetrics.map Prod.fst ∧
    ∀ m ∈ d.metrics, m.2.UndefinedNan np

/-! ### Runs -/

/-- A run that loads has a row, so its arrays are not empty. -/
theorem Loaded.length_pos {U : Unicode} {fl : FloatOps F} {path : CsvPath}
    {header : List Str} {rows : List (List Str)} {run : Run F}
    (h : Loaded U fl path header rows run) : run.latencyMs ≠ [] ∧ run.jitterUs ≠ [] := by
  have hne : ∀ (c : Str) (xs : List F), c ∈ header →
      floats fl (columnsOf header rows c) = .ok xs → xs ≠ [] := by
    rintro c xs hc hxs rfl
    have hlen := (mapM_eq_ok_iff.mp hxs).length_eq
    rw [length_columnsOf, List.length_nil, Nat.mul_eq_zero, List.length_eq_zero_iff] at hlen
    exact hlen.elim h.rows_ne_nil (Nat.ne_of_gt (List.count_pos_iff.mpr hc))
  exact ⟨hne _ _ (h.required _ (by decide)) h.latencyMs,
    hne _ _ (h.required _ (by decide)) h.jitterUs⟩

/-- The arrays of loaded runs are not empty. -/
theorem arrays_ne_nil {U : Unicode} {fl : FloatOps F} {files : List CsvFile}
    {runs : List (Run F)} (h : files.mapM (CsvFile.load U fl) = .ok runs) :
    ∀ r ∈ runs, r.latencyMs ≠ [] ∧ r.jitterUs ≠ [] := by
  intro r hr
  obtain ⟨file, -, hload⟩ := (mem_of_mapM h).mp hr
  exact (Loaded.of_loadCsv hload).length_pos

/-! ### One condition -/

section

variable {np : Numpy.Ops F} {cell : Cell F} {method : Numpy.Method} {ci : ℚ}

theorem p99_range : (0 : ℚ) ≤ 99 ∧ (99 : ℚ) ≤ 100 := by constructor <;> decide +kernel

/-- The jitter of a run is empty exactly if it has one row. -/
theorem jitterValues_ne_nil_iff {xs : List F} (hxs : xs ≠ []) :
    jitterValues np xs ≠ [] ↔ xs.length ≠ 1 := by
  have hpos := List.length_pos_iff.mpr hxs
  rw [ne_eq, ← List.length_eq_zero_iff, length_jitterValues]
  omega

/-- **Repeated runs can be aggregated** exactly if none of them has one row only. -/
theorem exists_perRunEntry_iff (hne : ∀ r ∈ cell.runs, r.latencyMs ≠ [] ∧ r.jitterUs ≠ []) :
    (∃ e, perRunEntry np cell method ci = .ok e) ↔
      (cell.nRuns > 1 → ∀ r ∈ cell.runs, r.jitterUs.length ≠ 1) := by
  -- a run has a latency, but its jitter may be of one row, which is dropped
  have hlatency : ∀ v ∈ cell.runs.map Run.latencyMs, v ≠ [] := by
    intro v hv
    obtain ⟨r, hr, rfl⟩ := List.mem_map.mp hv
    exact (hne r hr).1
  have hjitter : (∀ v ∈ cell.runs.map fun r => jitterValues np r.jitterUs, v ≠ []) ↔
      ∀ r ∈ cell.runs, r.jitterUs.length ≠ 1 := by
    rw [List.forall_mem_map]
    exact forall₂_congr fun r hr => jitterValues_ne_nil_iff (hne r hr).2
  rw [perRunEntry]
  -- the aggregate of the latencies always exists
  by_cases hn : cell.nRuns > 1
  · rw [if_pos hn, imp_iff_right hn, ← hjitter,
      ← exists_perRunAggregate_iff np _ p99_range ci method]
    obtain ⟨a, ha⟩ := (exists_perRunAggregate_iff np _ p99_range ci method).mpr hlatency
    rw [ha, ok_bind]
    constructor
    · rintro ⟨e, he⟩
      obtain ⟨b, hb, -⟩ := bind_eq_ok_iff.mp he
      exact ⟨b, hb⟩
    · rintro ⟨b, hb⟩
      exact ⟨some (a, b), by rw [hb]; rfl⟩
  · rw [if_neg hn]
    exact iff_of_true ⟨none, rfl⟩ fun h => absurd h hn

/-- What the aggregates are. -/
theorem perRunEntry_spec {e : Option (RunAggregate F × RunAggregate F)}
    (h : perRunEntry np cell method ci = .ok e) :
    ∀ a b, e = some (a, b) → (a.nRuns = cell.nRuns ∧ b.nRuns = cell.nRuns) ∧
      a.UndefinedNan np ∧ b.UndefinedNan np := by
  rintro a b rfl
  rw [perRunEntry] at h
  split at h
  case isFalse => cases h
  case isTrue =>
    obtain ⟨a', ha, h⟩ := bind_eq_ok_iff.mp h
    obtain ⟨b', hb, h⟩ := bind_eq_ok_iff.mp h
    cases h
    obtain ⟨hna, hanan⟩ := perRunAggregate_spec ha
    obtain ⟨hnb, hbnan⟩ := perRunAggregate_spec hb
    rw [List.length_map] at hna hnb
    exact ⟨⟨hna, hnb⟩, hanan, hbnan⟩

theorem latencyMs_eq (hne : cell.runs ≠ []) :
    cell.latencyMs = .ok (cell.runs.map Run.latencyMs).flatten :=
  Numpy.concatenate_of_ne (mt List.map_eq_nil_iff.mp hne)

theorem jitterUs_eq (hne : cell.runs ≠ []) :
    cell.jitterUs np = .ok (cell.runs.map fun r => jitterValues np r.jitterUs).flatten :=
  Numpy.concatenate_of_ne (mt List.map_eq_nil_iff.mp hne)

/-- What the entry of a condition is made of. -/
theorem cellSummary_eq (np : Numpy.Ops F) (hne : cell.runs ≠ []) (method : Numpy.Method)
    (ci : ℚ) :
    ∃ s : CellSummary F, s.condition = cell.condition ∧
      (∀ e, perRunEntry np cell method ci = .ok e →
        ({ s with perRun := e } : CellSummary F).Describes np cell.runs) ∧
      cellSummary np cell method ci
        = (perRunEntry np cell method ci).map fun e => { s with perRun := e } := by
  -- the two tables always exist
  obtain ⟨latency, hlatency, hln, hlnan⟩ := distributionSummary_total np
    (cell.runs.map Run.latencyMs).flatten latencyPercentiles_range method
  obtain ⟨jitter, hjitter, hjn, hjnan⟩ := distributionSummary_total np
    (cell.runs.map fun r => jitterValues np r.jitterUs).flatten latencyPercentiles_range method
  -- their sizes are the totals of the runs
  have hpackets : (cell.runs.map Run.latencyMs).flatten.length
      = (cell.runs.map fun r => r.latencyMs.length).sum := by
    rw [List.length_flatten, List.map_map]
    rfl
  have hjitters : (cell.runs.map fun r => jitterValues np r.jitterUs).flatten.length
      = (cell.runs.map fun r => r.jitterUs.length - 1).sum := by
    rw [List.length_flatten, List.map_map]
    exact congrArg List.sum (List.map_congr_left fun r _ => length_jitterValues r.jitterUs)
  refine ⟨{ condition := cell.condition, runs := cell.runs.map Run.name, nRuns := cell.nRuns,
            nPackets := (cell.runs.map Run.latencyMs).flatten.length, latencyMs := latency,
            jitterUs := jitter, loss := aggregateLoss cell.runs,
            dscp := aggregateDscp cell.runs, perRun := none }, rfl, fun e he => ?_, ?_⟩
  · exact ⟨rfl, hpackets, hln.trans hpackets, hjn.trans hjitters, hlnan, hjnan,
      perRunEntry_spec he⟩
  · rw [cellSummary, latencyMs_eq hne, ok_bind, latencySummary, hlatency, ok_bind,
      jitterUs_eq hne, ok_bind, hjitter, ok_bind]
    cases perRunEntry np cell method ci with
    | error e => rfl
    | ok e => rfl

/-- **The entry of a condition can be made** exactly if its only run has one row, or none of
its runs has. -/
theorem exists_cellSummary_iff (hruns : cell.runs ≠ [])
    (hne : ∀ r ∈ cell.runs, r.latencyMs ≠ [] ∧ r.jitterUs ≠ []) :
    (∃ s, cellSummary np cell method ci = .ok s) ↔
      (cell.nRuns > 1 → ∀ r ∈ cell.runs, r.jitterUs.length ≠ 1) := by
  obtain ⟨s, -, -, heq⟩ := cellSummary_eq np hruns method ci
  rw [heq, exists_map_eq_ok_iff, exists_perRunEntry_iff hne]

theorem cellSummary_describes (hruns : cell.runs ≠ []) {s : CellSummary F}
    (h : cellSummary np cell method ci = .ok s) :
    s.condition = cell.condition ∧ s.Describes np cell.runs := by
  obtain ⟨s', hcond, hdesc, heq⟩ := cellSummary_eq np hruns method ci
  rw [heq] at h
  obtain ⟨e, he, rfl⟩ := map_eq_ok_iff.mp h
  exact ⟨hcond, hdesc e he⟩

/-- The runs may stand in another order. -/
theorem CellSummary.Describes.perm {s : CellSummary F} {runs runs' : List (Run F)}
    (h : s.Describes np runs) (hperm : runs.Perm runs') : s.Describes np runs' where
  nRuns := h.nRuns.trans hperm.length_eq
  nPackets := h.nPackets.trans (hperm.map _).sum_eq
  latency_n := h.latency_n.trans (hperm.map _).sum_eq
  jitter_n := h.jitter_n.trans (hperm.map _).sum_eq
  latency := h.latency
  jitter := h.jitter
  perRun := h.perRun

end

/-! ### Two conditions -/

theorem comparisonMetrics_inRange : ∀ m ∈ comparisonMetrics, m.2.2.InRange := by
  have hrange : (0 : ℚ) ≤ 50 ∧ (50 : ℚ) ≤ 100 := by constructor <;> decide +kernel
  simp only [comparisonMetrics, List.forall_mem_cons]
  exact ⟨hrange, p99_range, p99_range, fun m hm => absurd hm List.not_mem_nil⟩

theorem exists_sample (np : Numpy.Ops F) {cell : Cell F} (hne : cell.runs ≠ [])
    (sample : Sample) :
    ∃ xs, cell.sample np sample = .ok xs := by
  cases sample with
  | latencyMs => exact ⟨_, latencyMs_eq hne⟩
  | jitterUs => exact ⟨_, jitterUs_eq hne⟩

/-- **Any two conditions can be compared**, on every metric. -/
theorem compareCells_total [LinearOrder F] (np : Numpy.Ops F) {base other : Cell F}
    (hbase : base.runs ≠ []) (hother : other.runs ≠ []) (nBoot : ℤ) {ci : ℚ}
    (hci : -1 ≤ ci ∧ ci ≤ 1) (seed : ℕ) (method : Numpy.Method) :
    ∃ metrics, compareCells np base other nBoot ci seed method = .ok metrics ∧
      metrics.map Prod.fst = comparisonMetrics.map Prod.fst ∧
      ∀ m ∈ metrics, m.2.UndefinedNan np := by
  -- one metric
  have hstep : ∀ m ∈ comparisonMetrics, ∃ p, (do
      let baseValues ← base.sample np m.2.1
      let otherValues ← other.sample np m.2.1
      let c ← compare np baseValues otherValues m.2.2 nBoot ci seed method
      return (m.1, c) : Except Numpy.Error (Str × Comparison F)) = .ok p ∧
        p.1 = m.1 ∧ p.2.UndefinedNan np := by
    intro m hm
    obtain ⟨b, hb⟩ := exists_sample np hbase m.2.1
    obtain ⟨o, ho⟩ := exists_sample np hother m.2.1
    obtain ⟨c, hc, -, hnan⟩ := compare_total np b o (comparisonMetrics_inRange m hm) nBoot hci
      seed method
    refine ⟨(m.1, c), ?_, rfl, hnan⟩
    rw [hb, ho, ok_bind, ok_bind, hc]
    rfl
  obtain ⟨metrics, hmetrics, hnan, hlabels⟩ := mapM_total hstep
  refine ⟨metrics, hmetrics, hlabels _ _ _ fun m p hp => hp.1, fun p hp => ?_⟩
  obtain ⟨m, -, -, hp⟩ := hnan p hp
  exact hp

/-! ### The summary -/

section

variable {np : Numpy.Ops F} {cs : List (Cell F)} {runs : List (Run F)}

theorem lookupCell_eq_ok {c : Str} {cell : Cell F} (h : lookupCell cs c = .ok cell) :
    cell ∈ cs ∧ cell.condition = c := by
  rw [lookupCell] at h
  split at h
  case h_2 => cases h
  case h_1 cell' hfind =>
    cases h
    have hcond := List.find?_some hfind
    exact ⟨List.mem_of_find?_eq_some hfind, of_decide_eq_true hcond⟩

/-- Under distinct conditions every cell is found. -/
theorem lookupCell_of_mem (hnodup : (cs.map Cell.condition).Nodup) {cell : Cell F}
    (hcell : cell ∈ cs) : lookupCell cs cell.condition = .ok cell := by
  rw [lookupCell]
  cases hfind : cs.find? fun c => c.condition = cell.condition with
  | none =>
    have hnone := List.find?_eq_none.mp hfind cell hcell
    exact absurd (decide_eq_true rfl) hnone
  | some c =>
    have hcond := List.find?_some hfind
    exact congrArg Except.ok (List.inj_on_of_nodup_map hnodup (List.mem_of_find?_eq_some hfind)
      hcell (of_decide_eq_true hcond))

/-- A baseline is chosen if there is a condition and the requested one is among them. -/
theorem exists_chooseBaseline_iff {names : List Str} {requested : Option Str} :
    (∃ b, chooseBaseline names requested = .ok b) ↔
      (∀ b, requested = some b → b ∈ names) ∧ (requested = none → names ≠ []) := by
  unfold chooseBaseline
  cases requested with
  | some b =>
    dsimp only
    by_cases hb : names.contains b = true
    · rw [if_pos hb]
      refine iff_of_true ⟨b, rfl⟩ ⟨?_, nofun⟩
      rintro _ ⟨⟩
      exact List.contains_iff_mem.mp hb
    · rw [if_neg hb]
      exact iff_of_false (by rintro ⟨_, ⟨⟩⟩) fun h => hb (List.contains_iff_mem.mpr (h.1 b rfl))
  | none =>
    cases names with
    | nil => exact iff_of_false (by rintro ⟨_, ⟨⟩⟩) fun h => h.2 rfl rfl
    | cons c names => exact iff_of_true ⟨c, rfl⟩ ⟨nofun, fun _ => List.cons_ne_nil c names⟩

theorem chooseBaseline_mem {names : List Str} {requested : Option Str} {b : Str}
    (h : chooseBaseline names requested = .ok b) : b ∈ names := by
  unfold chooseBaseline at h
  split at h
  · split at h
    case isFalse => cases h
    case isTrue hmem =>
      cases h
      exact List.contains_iff_mem.mp hmem
  · split at h
    · cases h
    · cases h
      exact List.mem_cons_self

/-- The conditions of a dataset are those of its runs. -/
theorem IsDataset.mem_conditions_iff (hds : IsDataset runs cs) (c : Str) :
    c ∈ cs.map Cell.condition ↔ ∃ r ∈ runs, r.condition = c := by
  rw [List.mem_map]
  constructor
  · rintro ⟨cell, hcell, rfl⟩
    obtain ⟨r, hr⟩ := List.exists_mem_of_ne_nil _ (hds.runs_ne cell hcell)
    obtain ⟨hmem, hcond⟩ := List.mem_filter.mp ((hds.runs_perm cell hcell).mem_iff.mp hr)
    exact ⟨r, hmem, of_decide_eq_true hcond⟩
  · rintro ⟨r, hr, rfl⟩
    exact hds.exists_cell r hr

theorem IsDataset.conditions_ne_nil_iff (hds : IsDataset runs cs) :
    cs.map Cell.condition ≠ [] ↔ runs ≠ [] := by
  constructor
  · rintro hne rfl
    obtain ⟨c, hc⟩ := List.exists_mem_of_ne_nil _ hne
    obtain ⟨r, hr, -⟩ := (hds.mem_conditions_iff c).mp hc
    exact absurd hr List.not_mem_nil
  · intro hne
    obtain ⟨r, hr⟩ := List.exists_mem_of_ne_nil _ hne
    exact List.ne_nil_of_mem ((hds.mem_conditions_iff _).mpr ⟨r, hr, rfl⟩)

/-- A run of one row is the only one of its condition. -/
def LoneSingles (runs : List (Run F)) : Prop :=
  ∀ r ∈ runs, r.jitterUs.length = 1 → (runs.filter fun s => s.condition = r.condition).length = 1

theorem IsDataset.mem_runs_iff (hds : IsDataset runs cs) {cell : Cell F} (hcell : cell ∈ cs)
    (r : Run F) : r ∈ cell.runs ↔ r ∈ runs ∧ r.condition = cell.condition := by
  rw [(hds.runs_perm cell hcell).mem_iff, List.mem_filter, decide_eq_true_iff]

theorem IsDataset.nRuns_eq (hds : IsDataset runs cs) {cell : Cell F} (hcell : cell ∈ cs) :
    cell.nRuns = (runs.filter fun s => s.condition = cell.condition).length :=
  (hds.runs_perm cell hcell).length_eq

/-- The same, condition by condition. -/
theorem loneSingles_iff (hds : IsDataset runs cs) :
    LoneSingles runs ↔
      ∀ cell ∈ cs, cell.nRuns > 1 → ∀ r ∈ cell.runs, r.jitterUs.length ≠ 1 := by
  constructor
  · intro h cell hcell hmany r hr hone
    obtain ⟨hmem, hcond⟩ := (hds.mem_runs_iff hcell r).mp hr
    have hlone := h r hmem hone
    rw [hcond, ← hds.nRuns_eq hcell] at hlone
    omega
  · intro h r hr hone
    obtain ⟨cell, hcell, hcond⟩ := hds.exists_cell r hr
    have hmem : r ∈ cell.runs := (hds.mem_runs_iff hcell r).mpr ⟨hr, hcond.symm⟩
    have hfew : ¬ cell.nRuns > 1 := fun hmany => h cell hcell hmany r hmem hone
    have hsome : 0 < cell.nRuns := List.length_pos_of_mem hmem
    rw [← hcond, ← hds.nRuns_eq hcell]
    omega

variable {args : SummaryArgs}

/-- The entry under the condition of a cell is that of the cell. -/
theorem cellEntry_eq [LinearOrder F] (hds : IsDataset runs cs) {cell : Cell F}
    (hcell : cell ∈ cs) :
    cellEntry np args cs cell.condition
      = (cellSummary np cell args.method args.ci).mapError .array := by
  rw [cellEntry, lookupCell_of_mem hds.nodup hcell, ok_bind]

theorem exists_cellEntries_iff [LinearOrder F] (np : Numpy.Ops F) (args : SummaryArgs)
    (hds : IsDataset runs cs) (hne : ∀ r ∈ runs, r.latencyMs ≠ [] ∧ r.jitterUs ≠ []) :
    (∃ es, (cs.map Cell.condition).mapM (cellEntry np args cs) = .ok es) ↔ LoneSingles runs := by
  rw [exists_mapM_eq_ok_iff, List.forall_mem_map, loneSingles_iff hds]
  refine forall₂_congr fun cell hcell => ?_
  rw [cellEntry_eq hds hcell]
  simp only [mapError_eq_ok_iff]
  exact exists_cellSummary_iff (hds.runs_ne cell hcell) fun r hr =>
    hne r ((hds.mem_runs_iff hcell r).mp hr).1

theorem cellEntry_spec [LinearOrder F] (hds : IsDataset runs cs) {c : Str}
    {e : CellSummary F} (h : cellEntry np args cs c = .ok e) :
    e.condition = c ∧ e.Describes np (runs.filter fun r => r.condition = e.condition) := by
  obtain ⟨cell, hlookup, hsummary⟩ := bind_eq_ok_iff.mp h
  obtain ⟨hcell, rfl⟩ := lookupCell_eq_ok hlookup
  obtain ⟨hcond, hdesc⟩ := cellSummary_describes (hds.runs_ne cell hcell)
    (mapError_eq_ok_iff.mp hsummary)
  refine ⟨hcond, ?_⟩
  rw [hcond]
  exact hdesc.perm (hds.runs_perm cell hcell)

/-- Every other condition has its comparison. -/
theorem comparisonEntry_total [LinearOrder F] (np : Numpy.Ops F) (hds : IsDataset runs cs)
    (hci : -1 ≤ args.ci ∧ args.ci ≤ 1) {base c : Str} (hbase : base ∈ cs.map Cell.condition)
    (hc : c ∈ cs.map Cell.condition) :
    ∃ d, comparisonEntry np args cs base c = .ok d ∧ d.condition = c ∧ d.baseline = base ∧
      d.metrics.map Prod.fst = comparisonMetrics.map Prod.fst ∧
      ∀ m ∈ d.metrics, m.2.UndefinedNan np := by
  obtain ⟨baseCell, hb, rfl⟩ := List.mem_map.mp hbase
  obtain ⟨other, ho, rfl⟩ := List.mem_map.mp hc
  obtain ⟨metrics, hmetrics, hlabels, hnan⟩ := compareCells_total np
    (hds.runs_ne baseCell hb) (hds.runs_ne other ho) args.nBoot hci args.seed args.method
  refine ⟨{ condition := _, baseline := _, metrics }, ?_, rfl, rfl, hlabels, hnan⟩
  rw [comparisonEntry, lookupCell_of_mem hds.nodup hb, lookupCell_of_mem hds.nodup ho, ok_bind,
    ok_bind, mapError_eq_ok_iff.mpr hmetrics]
  rfl

/-- **The summary of a dataset can be made** exactly if there is a baseline and every run of
one row is the only one of its condition; then it is complete. -/
theorem summarise_total [LinearOrder F] (hds : IsDataset runs cs)
    (hne : ∀ r ∈ runs, r.latencyMs ≠ [] ∧ r.jitterUs ≠ [])
    (hci : -1 ≤ args.ci ∧ args.ci ≤ 1) (resultsDir : Str) :
    (∃ s, summarise np args resultsDir cs = .ok s ∧ s.Complete np runs) ↔
      (∃ b, chooseBaseline (cs.map Cell.condition) args.baseline = .ok b) ∧
        LoneSingles runs := by
  rw [← exists_cellEntries_iff np args hds hne]
  constructor
  · -- what was computed did not fail
    rintro ⟨s, hs, -⟩
    obtain ⟨b, hb, hs⟩ := bind_eq_ok_iff.mp hs
    obtain ⟨es, hes, -⟩ := bind_eq_ok_iff.mp hs
    exact ⟨⟨b, hb⟩, es, hes⟩
  · rintro ⟨⟨b, hb⟩, es, hes⟩
    have hbase := chooseBaseline_mem hb
    -- the comparisons never fail
    obtain ⟨ds, hds', hcompared, hconditions⟩ := mapM_total fun c hc =>
      comparisonEntry_total np hds hci hbase
        (List.mem_of_mem_filter (p := fun c => decide (c ≠ b)) hc)
    refine ⟨{ resultsDir, args, baseline := b, conditions := cs.map Cell.condition, cells := es,
              comparisons := ds }, ?_, ?_⟩
    · rw [summarise, hb, ok_bind, hes, ok_bind, hds', ok_bind]
      rfl
    · have hcells := map_of_mapM hes fun c _ e he => (cellEntry_spec hds he).1
      have hcomparisons := hconditions _ ConditionComparison.condition id fun c d hd => hd.1
      refine ⟨hds.nodup, hds.mem_conditions_iff, hcells.trans (List.map_id _), fun e he => ?_,
        hbase, hcomparisons.trans (List.map_id _), fun d hd => ?_⟩
      · obtain ⟨c, -, hc⟩ := (mem_of_mapM hes).mp he
        exact (cellEntry_spec hds hc).2
      · obtain ⟨c, -, -, hspec⟩ := hcompared d hd
        exact hspec

end

/-- **Every dataset that loads can be summarised** exactly if it has a run and every run of
one row is the only one of its condition.  The summary then has one entry for each condition
and one comparison for each but the baseline, and what is undefined in it is `nan`. -/
theorem buildSummary_total_iff [LinearOrder F] (np : Numpy.Ops F) {U : Unicode}
    {fl : FloatOps F} {files : List CsvFile} {runs : List (Run F)}
    (hruns : files.mapM (CsvFile.load U fl) = .ok runs) (args : SummaryArgs)
    (hci : -1 ≤ args.ci ∧ args.ci ≤ 1)
    (hbase : ∀ b, args.baseline = some b → ∃ r ∈ runs, r.condition = b) (resultsDir : Str) :
    (∃ s, buildSummary np U fl args resultsDir files = .ok s ∧ s.Complete np runs) ↔
      runs ≠ [] ∧ ∀ r ∈ runs, r.jitterUs.length = 1 →
        (runs.filter fun s => s.condition = r.condition).length = 1 := by
  obtain ⟨cs, hcs, hds⟩ := buildDataset_isDataset hruns
  have hbuild : buildSummary np U fl args resultsDir files = summarise np args resultsDir cs := by
    rw [buildSummary, mapError_eq_ok_iff.mpr hcs, ok_bind]
  -- there is a baseline if there is any run, since one that is asked for has runs
  have hchoose : (∃ b, chooseBaseline (cs.map Cell.condition) args.baseline = .ok b) ↔
      runs ≠ [] := by
    rw [exists_chooseBaseline_iff, ← hds.conditions_ne_nil_iff]
    constructor
    · rintro ⟨hreq, hnone⟩
      cases hb : args.baseline with
      | none => exact hnone hb
      | some b => exact List.ne_nil_of_mem (hreq b hb)
    · exact fun hne => ⟨fun b hb => (hds.mem_conditions_iff b).mpr (hbase b hb), fun _ => hne⟩
  rw [hbuild, summarise_total hds (arrays_ne_nil hruns) hci resultsDir, hchoose]
  rfl

/-! ### Small directories -/

/-- Floats that are rational, of which the whole ones have a text. -/
def rationalFloats : FloatOps (WithTop ℚ) where
  ofInt z := (z : ℚ)
  div := Numpy.lift₂ (· / ·)
  zero := (0 : ℚ)
  e3 := (1000 : ℚ)
  e6 := (1000000 : ℚ)
  repr x := FloatOps.whole.repr ((x.untopD 0).floor)
  parse s := (FloatOps.whole.parse s).map fun z => ((z : ℚ) : WithTop ℚ)
  trunc x :=
    match x with
    | ⊤ => .error .notANumber
    | (v : ℚ) => .ok (v.num.tdiv v.den)

/-- Two runs of two rows: the interval over the runs is undefined, and the summary has it. -/
theorem buildSummary_total_iff_two_runs :
    let header := "seq,send_ns,recv_ns,latency_ms,jitter_us,pkt_size\r\n"
    ∃ runs s, buildSummary Numpy.exact asciiTable rationalFloats {} "results".toList
        [⟨⟨"fifo_run1.csv".toList, "fifo_run1".toList⟩,
          (header ++ "0,1,2,1.0,0.0,64\r\n1,2,3,1.0,5.0,64\r\n").toList⟩,
        ⟨⟨"fifo_run2.csv".toList, "fifo_run2".toList⟩,
          (header ++ "0,1,2,1.0,0.0,64\r\n1,2,3,1.0,7.0,64\r\n").toList⟩] = .ok s ∧
      s.Complete Numpy.exact runs ∧ runs.length = 2 := by
  have hload : ([⟨⟨"fifo_run1.csv".toList, "fifo_run1".toList⟩,
        ("seq,send_ns,recv_ns,latency_ms,jitter_us,pkt_size\r\n" ++
          "0,1,2,1.0,0.0,64\r\n1,2,3,1.0,5.0,64\r\n").toList⟩,
      ⟨⟨"fifo_run2.csv".toList, "fifo_run2".toList⟩,
        ("seq,send_ns,recv_ns,latency_ms,jitter_us,pkt_size\r\n" ++
          "0,1,2,1.0,0.0,64\r\n1,2,3,1.0,7.0,64\r\n").toList⟩].mapM
        (CsvFile.load asciiTable rationalFloats)).map
          (fun runs => runs.map fun r => r.jitterUs.length)
      = .ok [2, 2] := by decide +kernel
  obtain ⟨runs, hruns, hlens⟩ := map_eq_ok_iff.mp hload
  have hone : ∀ r ∈ runs, r.jitterUs.length ≠ 1 := by
    intro r hr
    have hmem : r.jitterUs.length ∈ [2, 2] := hlens ▸ List.mem_map_of_mem hr
    simp only [List.mem_cons, List.not_mem_nil, or_false] at hmem
    omega
  have hlen : runs.length = 2 := by
    have hlen := congrArg List.length hlens
    rwa [List.length_map] at hlen
  have hne : runs ≠ [] := by
    rintro rfl
    exact absurd hlen (by decide)
  obtain ⟨s, hs, hcomplete⟩ := (buildSummary_total_iff Numpy.exact hruns {}
    (by constructor <;> decide +kernel) nofun "results".toList).mpr
    ⟨hne, fun r hr h => absurd h (hone r hr)⟩
  exact ⟨runs, s, hs, hcomplete, hlen⟩

/-- Two runs of one condition, of which the first has one row: the percentile of its empty
jitter sample ends the program. -/
theorem buildSummary_single_row :
    let header := "seq,send_ns,recv_ns,latency_ms,jitter_us,pkt_size\r\n"
    let files : List CsvFile :=
      [⟨⟨"fifo_run1.csv".toList, "fifo_run1".toList⟩, (header ++ "0,1,2,1.0,0.0,64\r\n").toList⟩,
        ⟨⟨"fifo_run2.csv".toList, "fifo_run2".toList⟩,
          (header ++ "0,1,2,1.0,0.0,64\r\n1,2,3,1.0,5.0,64\r\n").toList⟩]
    (∃ runs, files.mapM (CsvFile.load asciiTable rationalFloats) = .ok runs) ∧
      buildSummary Numpy.exact asciiTable rationalFloats {} "results".toList files
        = .error (.array (.emptySample .percentile)) := by
  dsimp only
  constructor
  · apply (exists_map_eq_ok_iff (f := fun _ => ())).mp
    exact ⟨(), by decide +kernel⟩
  · apply (map_eq_error_iff (f := fun _ => ())).mp
    decide +kernel

end TsPacket
