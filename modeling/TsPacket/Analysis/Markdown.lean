import TsPacket.Analysis.Coherence
import TsPacket.Lib.PipeTable

/-!
# The report as text

The rendering of `analysis/tsn_analysis/report.py`.  How a float is written is a parameter
(`Formats`); `none` stands for a `KeyError`.

## Main definitions

* `fmt`, `fmtSigned`, `fmtP` — the values in the cells.
* `latencySection`, `jitterSection`, `lossSection`, `perRunSections`, `comparisonsSection` — the
  tables of a summary.
* `renderMarkdown` — the text.
* `Summary.Shown` — what the tables show of a summary.

## Main results

* `buildSummary_keyed` — a summary has what its rendering looks up.
* `rendered_tables` — **the text of a summary is read back** as tables that show it.
* `rendered_ascii_iff` — it is ASCII exactly if the names in it are.
-/

namespace TsPacket

open PyText PipeTable Raise

variable {F : Type}

/-! ### Values -/

/-- What the rendering asks of a float. -/
structure Formats (F : Type) where
  nan : F
  isNan : F → Bool
  isInf : F → Bool
  ofRat : ℚ → F
  /-- `x < q`, for a literal `q`. -/
  below : F → ℚ → Bool
  /-- `f"{x:.{digits}f}"`. -/
  fixed : ℕ → F → Str
  /-- `f"{x:+.2f}"`. -/
  signed : F → Str
  /-- `f"{x:.2e}"`. -/
  exponent : F → Str

/-- The characters of a formatted float, `inf` and `nan` included. -/
def floatChars : List Char := "0123456789+-.einfa".toList

/-- A formatted number has no other characters than these. -/
structure Formats.Lawful (fm : Formats F) : Prop where
  fixed : ∀ n x, ∀ c ∈ fm.fixed n x, c ∈ floatChars
  signed : ∀ x, ∀ c ∈ fm.signed x, c ∈ floatChars
  exponent : ∀ x, ∀ c ∈ fm.exponent x, c ∈ floatChars

/-- A value of the summary. -/
inductive Value (F : Type)
  | none
  | float (x : F)
  | int (z : ℤ)

section

variable (fm : Formats F)

/-- A percentage or an effect size that may be `nan`. -/
def Formats.ofRat? (q : Option ℚ) : F := (q.map fm.ofRat).getD fm.nan

/-- `_fmt`. -/
def fmt (value : Value F) (digits : ℕ) : Str :=
  match value with
  | .none => "-".toList
  | .float x => if fm.isNan x || fm.isInf x then "nan".toList else fm.fixed digits x
  | .int z => strOf z

/-- `_fmt_signed`. -/
def fmtSigned (value : F) : Str := if fm.isNan value then "nan".toList else fm.signed value

/-- `_fmt_p`. -/
def fmtP (p : F) : Str :=
  if fm.isNan p then "nan".toList
  else if fm.below p (1 / 10 ^ 300) then "<1e-300".toList
  else if fm.below p (1 / 100) then fm.exponent p
  else fm.fixed 2 p

/-- A float with two digits. -/
def fmtFloat (x : F) : Str := fmt fm (.float x) 2

/-- A count, which the summary has as a float. -/
def fmtCount (x : ℚ) : Str := fmt fm (.float (fm.ofRat x)) 0

end

/-- The name of a method in `numpy`. -/
def methodName : Numpy.Method → Str
  | .invertedCdf => "inverted_cdf".toList
  | .averagedInvertedCdf => "averaged_inverted_cdf".toList
  | .closestObservation => "closest_observation".toList
  | .interpolatedInvertedCdf => "interpolated_inverted_cdf".toList
  | .hazen => "hazen".toList
  | .weibull => "weibull".toList
  | .linear => "linear".toList
  | .medianUnbiased => "median_unbiased".toList
  | .normalUnbiased => "normal_unbiased".toList
  | .lower => "lower".toList
  | .higher => "higher".toList
  | .midpoint => "midpoint".toList
  | .nearest => "nearest".toList

/-- What `describe_delta` returns. -/
def Effect.text : Effect → Str
  | .notAvailable => "n/a".toList
  | .negligible => "negligible".toList
  | .small => "small".toList
  | .medium => "medium".toList
  | .large => "large".toList

/-! ### Tables -/

/-- The keys of a distribution that have a column. -/
inductive Column
  | percentile (q : ℚ)
  | max
  | mean
  | std

/-- `cols`, with the key each of them names. -/
def cols : List (Str × Column) :=
  [("p50".toList, .percentile 50), ("p90".toList, .percentile 90), ("p99".toList, .percentile 99),
    ("p99.9".toList, .percentile (999 / 10)), ("max".toList, .max), ("mean".toList, .mean),
    ("std".toList, .std)]

/-- `c["latency_ms"][k]`. -/
def DistributionSummary.entry (d : DistributionSummary F) : Column → Option F
  | .percentile q => d.percentiles.lookup q
  | .max => some d.max
  | .mean => some d.mean
  | .std => some d.std

section

variable (fm : Formats F) (s : Summary F)

/-- `[_fmt(d[k]) for k in cols]`. -/
def colCells (d : DistributionSummary F) : Option (List Str) :=
  cols.mapM fun k => (d.entry k.2).map (fmtFloat fm)

/-- The table of the latencies. -/
def latencySection : Option Section := do
  let rows ← s.cells.mapM fun c =>
    (colCells fm c.latencyMs).map fun cells =>
      c.condition :: strOf c.nRuns :: strOf c.nPackets :: cells
  return { title := "Latency (ms)".toList
           headers := "condition".toList :: "runs".toList :: "n".toList :: cols.map Prod.fst
           rows }

/-- The table of the jitter. -/
def jitterSection : Option Section := do
  let rows ← s.cells.mapM fun c =>
    (colCells fm c.jitterUs).map fun cells => c.condition :: cells
  return { title := "Jitter |dt| (us)".toList
           headers := "condition".toList :: cols.map Prod.fst
           rows }

/-- `"-" if dscp is None else _fmt(dscp["dominant_dscp"])`. -/
def dscpCell (c : CellSummary F) : Str :=
  match c.dscp with
  | none => "-".toList
  | some d => fmt fm ((d.dominantDscp.map Value.int).getD .none) 2

/-- The cells of a condition behind its name. -/
def lossCells (c : CellSummary F) : List Str :=
  [fmtCount fm c.loss.expected, fmtCount fm c.loss.received, fmtCount fm c.loss.lost,
    fmtFloat fm (fm.ofRat? c.loss.lossPct), fmtCount fm c.loss.duplicates,
    fmtCount fm c.loss.reorders, dscpCell fm c]

/-- The table of losses and DSCP values. -/
def lossSection : Section where
  title := "Loss and DSCP".toList
  headers := ["condition".toList, "expected".toList, "received".toList, "lost".toList,
    "loss %".toList, "dup".toList, "reorder".toList, "DSCP".toList]
  rows := s.cells.map fun c => c.condition :: lossCells fm c

/-- `c.get("per_run", {}).items()`. -/
def CellSummary.perRunItems (c : CellSummary F) : List (Str × RunAggregate F) :=
  match c.perRun with
  | none => []
  | some (latency, jitter) => [("latency_p99_ms".toList, latency), ("jitter_p99_us".toList, jitter)]

/-- The cells of an aggregate behind its condition and metric. -/
def perRunCells (agg : RunAggregate F) : List Str :=
  [strOf agg.nRuns, fmtFloat fm agg.mean, fmtFloat fm agg.std,
    "[".toList ++ fmtFloat fm agg.ciLow ++ ", ".toList ++ fmtFloat fm agg.ciHigh ++ "]".toList]

/-- The table of the repeated runs, if there are any. -/
def perRunSections : List Section :=
  let rows := s.cells.flatMap fun c => c.perRunItems.map fun p =>
    c.condition :: p.1 :: perRunCells fm p.2
  if rows ≠ [] then
    [{ title := "Per-run p99 (mean over runs, t-interval)".toList
       headers := ["condition".toList, "metric".toList, "runs".toList, "mean".toList,
         "std".toList, "CI".toList]
       rows }]
  else []

/-- `point [low, high]`. -/
def fmtInterval (b : BootstrapCI F) : Str :=
  fmtFloat fm b.point ++ " [".toList ++ fmtFloat fm b.low ++ ", ".toList ++ fmtFloat fm b.high
    ++ "]".toList

/-- The cells of a comparison behind its condition and metric. -/
def comparisonCells (m : Comparison F) : List Str :=
  [fmtInterval fm m.baseline, fmtInterval fm m.proposed,
    fmtSigned fm m.improvementPct ++ "%".toList, fmtP fm m.pValue,
    fmtSigned fm (fm.ofRat? m.cliffsDelta) ++ " (".toList ++ m.effect.text ++ ")".toList]

/-- The title and the note below it. -/
def comparisonsTitle : Str := "Comparisons vs `".toList ++ s.baseline ++ "`".toList

/-- The note on the columns of the comparisons. -/
def comparisonsNote : Str :=
  ("improvement = (baseline - condition) / baseline. p: two-sided Mann-Whitney U; " ++
    "delta: Cliff's delta, + when the baseline is slower. Both compare whole " ++
    "distributions, so they repeat across the latency rows.").toList

/-- The columns of the comparisons. -/
def comparisonsHeaders : List Str :=
  ["condition".toList, "metric".toList, "baseline [CI]".toList, "condition [CI]".toList,
    "improvement".toList, "p-value".toList, "delta".toList]

/-- The table of the comparisons. -/
def comparisonsSection : Section where
  title := comparisonsTitle s
  notes := [comparisonsNote, []]
  headers := comparisonsHeaders
  rows := s.comparisons.flatMap fun cmp => cmp.metrics.map fun m =>
    cmp.condition :: m.1 :: comparisonCells fm m.2

/-! ### The text -/

/-- The lines above the tables. -/
def reportHead : List Str :=
  ["# TSN measurement summary".toList, [],
    "- results dir: `".toList ++ s.resultsDir ++ "`".toList,
    "- baseline: `".toList ++ s.baseline ++ "`".toList,
    "- conditions: ".toList ++ ", ".toList.intercalate s.conditions,
    "- percentiles: numpy `".toList ++ methodName s.args.method ++ "`; CIs: ".toList
      ++ fm.fixed 0 (fm.ofRat (s.args.ci * 100)) ++ "% percentile bootstrap, n_boot=".toList
      ++ strOf s.args.nBoot ++ ", seed=".toList ++ strOf s.args.seed,
    []]

/-- `render_markdown`; `none` if a distribution has no entry for a column (`KeyError`). -/
def renderMarkdown : Option Str := do
  let latency ← latencySection fm s
  let jitter ← jitterSection fm s
  return document (reportHead fm s)
    (latency :: jitter :: lossSection fm s :: (perRunSections fm s ++ [comparisonsSection fm s]))

end

/-! ### The texts of the cells -/

/-- The cells of a distribution. -/
def colTexts (fm : Formats F) (d : DistributionSummary F) : List Str :=
  cols.map fun k => fmtFloat fm ((d.entry k.2).getD fm.nan)

/-- A character of ASCII that shows. -/
def Printing (c : Char) : Prop := 32 ≤ c.toNat ∧ c.toNat < 127

instance (c : Char) : Decidable (Printing c) := inferInstanceAs (Decidable (_ ∧ _))

/-- A text that shows. -/
def Visible (t : Str) : Prop := ∀ c ∈ t, Printing c

instance (t : Str) : Decidable (Visible t) := List.decidableBAll _ _

/-- A text that can stand in a cell. -/
def Printable (t : Str) : Prop := ∀ c ∈ t, c ≠ '|' ∧ Printing c

instance (t : Str) : Decidable (Printable t) := List.decidableBAll _ _

@[simp] theorem printable_append {t u : Str} : Printable (t ++ u) ↔ Printable t ∧ Printable u :=
  List.forall_mem_append

@[simp] theorem printable_cons {c : Char} {t : Str} :
    Printable (c :: t) ↔ (c ≠ '|' ∧ Printing c) ∧ Printable t := List.forall_mem_cons

theorem Printable.plain {t : Str} (h : Printable t) : Plain t :=
  ⟨fun hmem => (h _ hmem).1 rfl, fun hmem => absurd (h _ hmem).2 (by decide)⟩

section

variable {fm : Formats F} (hfm : fm.Lawful)

theorem printable_of_floatChars {t : Str} (h : ∀ c ∈ t, c ∈ floatChars) : Printable t :=
  fun c hc => (by decide : Printable floatChars) c (h c hc)

theorem mem_floatChars_toDigits (n : ℕ) : ∀ c ∈ Nat.toDigits 10 n, c ∈ floatChars := by
  have hcodes : ∀ k < 58, 48 ≤ k → Char.ofNat k ∈ floatChars := by decide
  intro c hc
  obtain ⟨hlo, hhi⟩ := toNat_of_isDigit (Nat.isDigit_of_mem_toDigits (by omega) (by omega) hc)
  have hmem := hcodes c.toNat (by omega) hlo
  rwa [Char.ofNat_toNat] at hmem

theorem printable_strOf (z : ℤ) : Printable (strOf z) := by
  cases z with
  | ofNat n => exact printable_of_floatChars (mem_floatChars_toDigits n)
  | negSucc n =>
    exact printable_cons.mpr
      ⟨by decide, printable_of_floatChars (mem_floatChars_toDigits (n + 1))⟩

theorem printable_effect (e : Effect) : Printable e.text := by cases e <;> decide

include hfm

theorem printable_fmt (v : Value F) (digits : ℕ) : Printable (fmt fm v digits) := by
  cases v with
  | none => exact (by decide : Printable "-".toList)
  | float x =>
    rw [fmt]
    split
    · decide
    · exact printable_of_floatChars (hfm.fixed digits x)
  | int z => exact printable_strOf z

theorem printable_fmtSigned (x : F) : Printable (fmtSigned fm x) := by
  rw [fmtSigned]
  split
  · decide
  · exact printable_of_floatChars (hfm.signed x)

theorem printable_fmtP (p : F) : Printable (fmtP fm p) := by
  rw [fmtP]
  split
  · decide
  · split
    · decide
    · split
      · exact printable_of_floatChars (hfm.exponent p)
      · exact printable_of_floatChars (hfm.fixed 2 p)

theorem printable_fmtFloat (x : F) : Printable (fmtFloat fm x) := printable_fmt hfm _ _

theorem printable_fmtCount (x : ℚ) : Printable (fmtCount fm x) := printable_fmt hfm _ _

theorem printable_lossCells (c : CellSummary F) : ∀ t ∈ lossCells fm c, Printable t := by
  have hdscp : Printable (dscpCell fm c) := by
    rw [dscpCell]
    split
    · decide
    · exact printable_fmt hfm _ _
  simp [lossCells, printable_fmtCount hfm, printable_fmtFloat hfm, hdscp]

theorem printable_perRunCells (agg : RunAggregate F) : ∀ t ∈ perRunCells fm agg, Printable t := by
  have hmarks : Printable "[".toList ∧ Printable ", ".toList ∧ Printable "]".toList := by decide
  obtain ⟨hleft, hcomma, hright⟩ := hmarks
  simp only [perRunCells, List.forall_mem_cons, printable_append]
  exact ⟨printable_strOf _, printable_fmtFloat hfm _, printable_fmtFloat hfm _,
    ⟨⟨⟨⟨hleft, printable_fmtFloat hfm _⟩, hcomma⟩, printable_fmtFloat hfm _⟩, hright⟩,
    List.forall_mem_nil _⟩

theorem printable_fmtInterval (b : BootstrapCI F) : Printable (fmtInterval fm b) := by
  have hmarks : Printable " [".toList ∧ Printable ", ".toList ∧ Printable "]".toList := by decide
  obtain ⟨hleft, hcomma, hright⟩ := hmarks
  simp only [fmtInterval, printable_append]
  exact ⟨⟨⟨⟨⟨printable_fmtFloat hfm _, hleft⟩, printable_fmtFloat hfm _⟩, hcomma⟩,
    printable_fmtFloat hfm _⟩, hright⟩

theorem printable_comparisonCells (m : Comparison F) :
    ∀ t ∈ comparisonCells fm m, Printable t := by
  have hmarks : Printable "%".toList ∧ Printable " (".toList ∧ Printable ")".toList := by decide
  obtain ⟨hpercent, hleft, hright⟩ := hmarks
  simp only [comparisonCells, List.forall_mem_cons, printable_append]
  exact ⟨printable_fmtInterval hfm _, printable_fmtInterval hfm _,
    ⟨printable_fmtSigned hfm _, hpercent⟩, printable_fmtP hfm _,
    ⟨⟨⟨printable_fmtSigned hfm _, hleft⟩, printable_effect _⟩, hright⟩, List.forall_mem_nil _⟩

theorem printable_colTexts (d : DistributionSummary F) : ∀ t ∈ colTexts fm d, Printable t := by
  intro t ht
  obtain ⟨k, -, rfl⟩ := List.mem_map.mp ht
  exact printable_fmtFloat hfm _

end

/-! ### What the rendering looks up -/

/-- A summary with all that its rendering looks up. -/
structure Summary.Keyed (s : Summary F) : Prop where
  nodup : s.conditions.Nodup
  conditions : s.cells.map CellSummary.condition = s.conditions
  baseline : s.baseline ∈ s.conditions
  entries : ∀ e ∈ s.cells, ∀ k ∈ cols,
    (e.latencyMs.entry k.2).isSome ∧ (e.jitterUs.entry k.2).isSome
  comparisons : s.comparisons.map (fun d => (d.condition, d.metrics.map Prod.fst))
    = (s.conditions.filter (· ≠ s.baseline)).map fun c => (c, comparisonMetrics.map Prod.fst)

theorem isSome_entry {np : Numpy.Ops F} {xs : List F} {method : Numpy.Method}
    {d : DistributionSummary F}
    (h : distributionSummary np xs latencyPercentiles method = .ok d) :
    ∀ k ∈ cols, (d.entry k.2).isSome := by
  have hlevel : ∀ q ∈ latencyPercentiles, (d.percentiles.lookup q).isSome := by
    intro q hq
    obtain ⟨y, hy, -⟩ := (distributionSummary_spec h).2 q hq
    rw [hy]
    rfl
  simp only [latencyPercentiles, List.forall_mem_cons] at hlevel
  obtain ⟨h50, h90, h99, h999, -⟩ := hlevel
  simp [cols, DistributionSummary.entry, h50, h90, h99, h999]

theorem labels_compareCells [LinearOrder F] {np : Numpy.Ops F} {base other : Cell F} {nBoot : ℤ}
    {ci : ℚ} {seed : ℕ} {method : Numpy.Method} {metrics : List (Str × Comparison F)}
    (h : compareCells np base other nBoot ci seed method = .ok metrics) :
    metrics.map Prod.fst = comparisonMetrics.map Prod.fst := by
  apply map_of_mapM h
  intro m _ p hp
  obtain ⟨xs, -, hp⟩ := bind_eq_ok_iff.mp hp
  obtain ⟨ys, -, hp⟩ := bind_eq_ok_iff.mp hp
  obtain ⟨c, -, hp⟩ := bind_eq_ok_iff.mp hp
  obtain rfl := Except.ok.inj hp
  rfl

theorem summarise_keyed [LinearOrder F] {np : Numpy.Ops F} {args : SummaryArgs}
    {cs : List (Cell F)} {runs : List (Run F)} (hds : IsDataset runs cs) {resultsDir : Str}
    {s : Summary F} (h : summarise np args resultsDir cs = .ok s) :
    s.Keyed ∧ s.resultsDir = resultsDir := by
  obtain ⟨base, hbase, h⟩ := bind_eq_ok_iff.mp h
  obtain ⟨entries, hentries, h⟩ := bind_eq_ok_iff.mp h
  obtain ⟨comparisons, hcomparisons, h⟩ := bind_eq_ok_iff.mp h
  obtain rfl := Except.ok.inj h
  refine ⟨{ nodup := hds.nodup, conditions := ?_, baseline := chooseBaseline_mem hbase,
            entries := ?_, comparisons := ?_ }, rfl⟩
  · exact (map_of_mapM hentries fun c _ e he => (cellEntry_spec hds he).1).trans (List.map_id _)
  · -- each condition's tables have an entry for every percentile
    intro e he k hk
    obtain ⟨c, -, hc⟩ := (mem_of_mapM hentries).mp he
    obtain ⟨cell, hlookup, hcell⟩ := bind_eq_ok_iff.mp hc
    have hruns := hds.runs_ne cell (lookupCell_eq_ok hlookup).1
    obtain ⟨hlatency, hjitter, -⟩ := cellSummary_parts hruns (mapError_eq_ok_iff.mp hcell)
    exact ⟨isSome_entry hlatency k hk, isSome_entry hjitter k hk⟩
  · -- each comparison has the labels of `COMPARISON_METRICS`
    apply map_of_mapM hcomparisons
    intro c _ d hd
    obtain ⟨baseCell, -, hd⟩ := bind_eq_ok_iff.mp hd
    obtain ⟨other, -, hd⟩ := bind_eq_ok_iff.mp hd
    obtain ⟨metrics, hmetrics, hd⟩ := bind_eq_ok_iff.mp hd
    obtain rfl := Except.ok.inj hd
    exact Prod.ext rfl (labels_compareCells (mapError_eq_ok_iff.mp hmetrics))

/-- **A summary has what its rendering looks up.** -/
theorem buildSummary_keyed [LinearOrder F] {np : Numpy.Ops F} {U : Unicode} {fl : FloatOps F}
    {args : SummaryArgs} {resultsDir : Str} {files : List CsvFile} {s : Summary F}
    (h : buildSummary np U fl args resultsDir files = .ok s) :
    s.Keyed ∧ s.resultsDir = resultsDir := by
  obtain ⟨cs, hcs, h⟩ := bind_eq_ok_iff.mp h
  rw [mapError_eq_ok_iff, buildDataset] at hcs
  obtain ⟨gs, hgs, rfl⟩ := map_eq_ok_iff.mp hcs
  obtain ⟨loaded, hloaded, rfl⟩ := map_eq_ok_iff.mp hgs
  exact summarise_keyed (isDataset_cells loaded) h

/-! ### What a reader finds -/

/-- What the tables show of a summary. -/
structure Summary.Shown (fm : Formats F) (s : Summary F)
    (latency jitter loss comparisons : Table) (perRun : List Table) : Prop where
  -- each condition once, in the order of the summary
  latency_keys : latency.keys 1 = s.conditions.map fun c => [c]
  jitter_keys : jitter.keys 1 = s.conditions.map fun c => [c]
  loss_keys : loss.keys 1 = s.conditions.map fun c => [c]
  runs : ∀ c ∈ s.cells, latency.cell c.condition "runs".toList = some (strOf c.nRuns)
  packets : ∀ c ∈ s.cells, latency.cell c.condition "n".toList = some (strOf c.nPackets)
  latency : ∀ c ∈ s.cells, ∀ k ∈ cols,
    latency.cell c.condition k.1 = (c.latencyMs.entry k.2).map (fmtFloat fm)
  jitter : ∀ c ∈ s.cells, ∀ k ∈ cols,
    jitter.cell c.condition k.1 = (c.jitterUs.entry k.2).map (fmtFloat fm)
  loss_rows : loss.rows = s.cells.map fun c => c.condition :: lossCells fm c
  lost : ∀ c ∈ s.cells, loss.cell c.condition "lost".toList = some (fmtCount fm c.loss.lost)
  dscp : ∀ c ∈ s.cells, loss.cell c.condition "DSCP".toList = some (dscpCell fm c)
  perRun_eq_nil : perRun = [] ↔ ∀ c ∈ s.cells, c.perRun = none
  perRun_keys : ∀ t ∈ perRun, t.keys 2 = (s.cells.filter fun c => c.perRun.isSome).flatMap fun c =>
    [[c.condition, "latency_p99_ms".toList], [c.condition, "jitter_p99_us".toList]]
  perRun_rows : ∀ t ∈ perRun, t.rows = s.cells.flatMap fun c => c.perRunItems.map fun p =>
    c.condition :: p.1 :: perRunCells fm p.2
  comparisons_keys : comparisons.keys 2
    = (s.conditions.filter (· ≠ s.baseline)).flatMap fun c =>
      comparisonMetrics.map fun m => [c, m.1]
  comparisons_rows : comparisons.rows = s.comparisons.flatMap fun d => d.metrics.map fun m =>
    d.condition :: m.1 :: comparisonCells fm m.2

theorem colCells_eq {fm : Formats F} {d : DistributionSummary F}
    (h : ∀ k ∈ cols, (d.entry k.2).isSome) : colCells fm d = some (colTexts fm d) := by
  have hcell : ∀ k ∈ cols, (d.entry k.2).map (fmtFloat fm)
      = some (fmtFloat fm ((d.entry k.2).getD fm.nan)) := by
    intro k hk
    obtain ⟨x, hx⟩ := Option.isSome_iff_exists.mp (h k hk)
    simp [hx]
  rw [colCells, ← List.map_id cols]
  exact mapM_map_pure hcell

theorem mapM_colCells {fm : Formats F} {cells : List (CellSummary F)}
    {pick : CellSummary F → DistributionSummary F}
    (h : ∀ c ∈ cells, ∀ k ∈ cols, ((pick c).entry k.2).isSome)
    (f : CellSummary F → List Str → List Str) :
    (cells.mapM fun c => (colCells fm (pick c)).map (f c))
      = some (cells.map fun c => f c (colTexts fm (pick c))) := by
  have hrow : ∀ c ∈ cells, (colCells fm (pick c)).map (f c)
      = some (f c (colTexts fm (pick c))) := by
    intro c hc
    rw [colCells_eq (h c hc), Option.map_some]
  conv_lhs => rw [← List.map_id cells]
  exact mapM_map_pure hrow

/-- Keys and what stands below them. -/
theorem lookup_zip_map {α β γ : Type} [BEq α] [LawfulBEq α] (g : α × β → γ) {k : α × β} :
    ∀ {l : List (α × β)}, (l.map Prod.fst).Nodup → k ∈ l →
      ((l.map Prod.fst).zip (l.map g)).lookup k.1 = some (g k) := by
  intro l
  induction l with
  | nil => exact fun _ hk => absurd hk List.not_mem_nil
  | cons p l ih =>
    intro hnodup hk
    rw [List.map_cons, List.nodup_cons] at hnodup
    rw [List.map_cons, List.map_cons, List.zip_cons_cons, List.lookup_cons]
    rcases List.mem_cons.mp hk with rfl | hmem
    · simp
    · have hne : k.1 ≠ p.1 := fun heq => hnodup.1 (heq ▸ List.mem_map_of_mem hmem)
      rw [beq_false_of_ne hne]
      exact ih hnodup.2 hmem

/-- The columns of a distribution, behind others. -/
theorem lookup_cols {fm : Formats F} {d : DistributionSummary F} {k : Str × Column} (hk : k ∈ cols)
    (h : (d.entry k.2).isSome) : ∀ pre : List (Str × Str), (∀ p ∈ pre, k.1 ≠ p.1) →
    ((pre.map Prod.fst ++ cols.map Prod.fst).zip (pre.map Prod.snd ++ colTexts fm d)).lookup k.1
      = (d.entry k.2).map (fmtFloat fm) := by
  obtain ⟨x, hx⟩ := Option.isSome_iff_exists.mp h
  intro pre
  induction pre with
  -- no fixed column is left: the percentile is looked up by its own name
  | nil =>
    intro _
    have hlookup := lookup_zip_map (fun k => fmtFloat fm ((d.entry k.2).getD fm.nan))
      (by decide : (cols.map Prod.fst).Nodup) hk
    rw [hx] at hlookup ⊢
    exact hlookup
  | cons p pre ih =>
    intro hpre
    rw [List.forall_mem_cons] at hpre
    rw [List.map_cons, List.map_cons, List.cons_append, List.cons_append, List.zip_cons_cons,
      List.lookup_cons, beq_false_of_ne hpre.1]
    exact ih hpre.2

section

variable {fm : Formats F} {s : Summary F}

/-- The section that `latencySection` finds. -/
def latencyShown (fm : Formats F) (s : Summary F) : Section where
  title := "Latency (ms)".toList
  headers := "condition".toList :: "runs".toList :: "n".toList :: cols.map Prod.fst
  rows := s.cells.map fun c =>
    c.condition :: strOf c.nRuns :: strOf c.nPackets :: colTexts fm c.latencyMs

/-- The section that `jitterSection` finds. -/
def jitterShown (fm : Formats F) (s : Summary F) : Section where
  title := "Jitter |dt| (us)".toList
  headers := "condition".toList :: cols.map Prod.fst
  rows := s.cells.map fun c => c.condition :: colTexts fm c.jitterUs

theorem Summary.Keyed.latencySection_eq (h : s.Keyed) :
    latencySection fm s = some (latencyShown fm s) := by
  rw [latencySection, mapM_colCells fun c hc k hk => (h.entries c hc k hk).1]
  rfl

theorem Summary.Keyed.jitterSection_eq (h : s.Keyed) :
    jitterSection fm s = some (jitterShown fm s) := by
  rw [jitterSection, mapM_colCells fun c hc k hk => (h.entries c hc k hk).2]
  rfl

/-- The sections of the report. -/
def reportSections (fm : Formats F) (s : Summary F) : List Section :=
  latencyShown fm s :: jitterShown fm s :: lossSection fm s ::
    (perRunSections fm s ++ [comparisonsSection fm s])

theorem Summary.Keyed.renderMarkdown_eq (h : s.Keyed) :
    renderMarkdown fm s = some (document (reportHead fm s) (reportSections fm s)) := by
  rw [renderMarkdown, h.latencySection_eq, h.jitterSection_eq]
  rfl

theorem perRunItems_eq_nil_iff {c : CellSummary F} : c.perRunItems = [] ↔ c.perRun = none := by
  rw [CellSummary.perRunItems]
  cases c.perRun with
  | none => exact iff_of_true rfl rfl
  | some p => exact iff_of_false (List.cons_ne_nil _ _) nofun

theorem perRunSections_eq_nil_iff :
    perRunSections fm s = [] ↔ ∀ c ∈ s.cells, c.perRun = none := by
  have hrows : (s.cells.flatMap fun c => c.perRunItems.map fun p =>
      c.condition :: p.1 :: perRunCells fm p.2) = [] ↔ ∀ c ∈ s.cells, c.perRun = none := by
    simp only [List.flatMap_eq_nil_iff, List.map_eq_nil_iff, perRunItems_eq_nil_iff]
  rw [← hrows, perRunSections]
  split
  case isTrue hne => exact iff_of_false (List.cons_ne_nil _ _) hne
  case isFalse hnil => exact iff_of_true rfl (not_not.mp hnil)

theorem perRunSections_rows {t : Section} (ht : t ∈ perRunSections fm s) :
    t.rows = s.cells.flatMap fun c => c.perRunItems.map fun p =>
      c.condition :: p.1 :: perRunCells fm p.2 := by
  rw [perRunSections] at ht
  split at ht
  case isTrue => rw [List.mem_singleton.mp ht]
  case isFalse => exact absurd ht List.not_mem_nil

theorem perRunItems_keys (cells : List (CellSummary F)) :
    (cells.flatMap fun c => c.perRunItems.map fun p => [c.condition, p.1])
      = (cells.filter fun c => c.perRun.isSome).flatMap fun c =>
        [[c.condition, "latency_p99_ms".toList], [c.condition, "jitter_p99_us".toList]] := by
  induction cells with
  | nil => rfl
  | cons c cells ih =>
    rw [List.flatMap_cons, ih, CellSummary.perRunItems]
    cases hper : c.perRun with
    | none => rw [List.filter_cons_of_neg (by simp [hper]), List.map_nil, List.nil_append]
    | some p =>
      rw [List.filter_cons_of_pos (by simp [hper]), List.flatMap_cons]
      rfl

/-- The names of the columns are those of no other. -/
theorem cols_ne : ∀ k ∈ cols, k.1 ≠ "condition".toList ∧ k.1 ≠ "runs".toList ∧
    k.1 ≠ "n".toList := by decide

theorem comparisons_keys_eq (h : s.Keyed) :
    (comparisonsSection fm s).rows.map (List.take 2)
      = (s.conditions.filter (· ≠ s.baseline)).flatMap fun c =>
        comparisonMetrics.map fun m => [c, m.1] := by
  have hkeys := congrArg
    (fun l : List (Str × List Str) => l.flatMap fun p => p.2.map fun label => [p.1, label])
    h.comparisons
  simp only [List.flatMap_map, List.map_map] at hkeys
  rw [comparisonsSection, List.map_flatMap]
  simp only [List.map_map]
  exact hkeys

/-- A table with a row for each condition. -/
theorem Summary.Keyed.keys_one (h : s.Keyed) {t : Table} {cells : CellSummary F → List Str}
    (hrows : t.rows = s.cells.map fun c => c.condition :: cells c) :
    t.keys 1 = s.conditions.map fun c => [c] := by
  rw [← h.conditions, List.map_map, Table.keys, hrows]
  exact List.map_map

/-- **The tables of a summary show it.** -/
theorem Summary.Keyed.shown (h : s.Keyed) :
    s.Shown fm (latencyShown fm s).table (jitterShown fm s).table (lossSection fm s).table
      (comparisonsSection fm s).table ((perRunSections fm s).map Section.table) := by
  -- rows are found by condition, and no two conditions agree
  have hnodup : (s.cells.map CellSummary.condition).Nodup := h.conditions ▸ h.nodup
  exact
    { latency_keys := h.keys_one rfl
      jitter_keys := h.keys_one rfl
      loss_keys := h.keys_one rfl
      runs := fun c hc => by
        rw [cell_map rfl hnodup hc]
        rfl
      packets := fun c hc => by
        rw [cell_map rfl hnodup hc]
        rfl
      -- the fixed columns have other names than the percentiles
      latency := fun c hc k hk => by
        rw [cell_map rfl hnodup hc]
        refine lookup_cols hk (h.entries c hc k hk).1 [("condition".toList, c.condition),
          ("runs".toList, strOf c.nRuns), ("n".toList, strOf c.nPackets)] ?_
        simpa using cols_ne k hk
      jitter := fun c hc k hk => by
        rw [cell_map rfl hnodup hc]
        refine lookup_cols hk (h.entries c hc k hk).2 [("condition".toList, c.condition)] ?_
        simpa using (cols_ne k hk).1
      loss_rows := rfl
      lost := fun c hc => by
        rw [cell_map rfl hnodup hc]
        rfl
      dscp := fun c hc => by
        rw [cell_map rfl hnodup hc]
        rfl
      perRun_eq_nil := by rw [List.map_eq_nil_iff, perRunSections_eq_nil_iff]
      -- a section of runs is there only where runs were summarised
      perRun_keys := by
        intro t ht
        obtain ⟨p, hp, rfl⟩ := List.mem_map.mp ht
        rw [← perRunItems_keys, Table.keys, Section.table, perRunSections_rows hp,
          List.map_flatMap]
        simp only [List.map_map]
        rfl
      perRun_rows := by
        intro t ht
        obtain ⟨p, hp, rfl⟩ := List.mem_map.mp ht
        exact perRunSections_rows hp
      comparisons_keys := comparisons_keys_eq h
      comparisons_rows := rfl }

/-! ### What it is made of -/

/-- A section of names and texts of the program. -/
structure MadeOf (names : List Str) (t : Section) : Prop where
  title : ∀ x ∈ t.title, Printing x ∨ ∃ n ∈ names, x ∈ n
  notes : ∀ l ∈ t.notes, Visible l ∧ readTitle l = none ∧ readRow l = none
  headers : t.headers ≠ []
  cells : ∀ r ∈ t.headers :: t.rows, ∀ c ∈ r, c ∈ names ∨ Printable c
  width : ∀ r ∈ t.rows, r.length = t.headers.length

theorem not_printing_newline : ¬ Printing '\n' := by decide

namespace MadeOf

variable {names : List Str} {t : Section} (h : MadeOf names t)
include h

/-- What holds of the names and of all that shows holds of the section. -/
theorem forall_mem_lines {P : Char → Prop} (hP : ∀ c, Printing c → P c)
    (hnames : ∀ n ∈ names, ∀ c ∈ n, P c) : ∀ l ∈ t.lines, ∀ x ∈ l, P x := by
  refine PipeTable.forall_mem_lines ?_ ?_ ?_ ?_
  · exact fun c hc => hP c ((by decide : Visible "#|- ".toList) c hc)
  · intro x hx
    rcases h.title x hx with hx | ⟨n, hn, hx⟩
    · exact hP x hx
    · exact hnames n hn x hx
  · exact fun l hl x hx => hP x ((h.notes l hl).1 x hx)
  · intro r hr c hc x hx
    rcases h.cells r hr c hc with hmem | hprint
    · exact hnames c hmem x hx
    · exact hP x (hprint x hx).2

theorem clean (hnames : ∀ n ∈ names, Plain n) : t.Clean where
  title hx := by
    rcases h.title _ hx with hx | ⟨n, hn, hx⟩
    · exact not_printing_newline hx
    · exact (hnames n hn).2 hx
  notes l hl :=
    ⟨fun hx => not_printing_newline ((h.notes l hl).1 _ hx), (h.notes l hl).2⟩
  headers := h.headers
  cells r hr c hc := by
    rcases h.cells r hr c hc with hmem | hprint
    · exact hnames c hmem
    · exact hprint.plain
  width := h.width

end MadeOf

theorem madeOf_of_rows {names : List Str} {title : Str} {headers : List Str}
    {rows : List (List Str)} (htitle : Visible title) (hne : headers ≠ [])
    (hheaders : ∀ c ∈ headers, Printable c)
    (hrows : ∀ r ∈ rows, (∀ c ∈ r, c ∈ names ∨ Printable c) ∧ r.length = headers.length) :
    MadeOf names { title, headers, rows } where
  title x hx := Or.inl (htitle x hx)
  notes := fun _ hl => absurd hl List.not_mem_nil
  headers := hne
  cells := List.forall_mem_cons.mpr ⟨fun c hc => Or.inr (hheaders c hc), fun r hr => (hrows r hr).1⟩
  width := fun r hr => (hrows r hr).2

theorem comparisonsNote_line : Visible comparisonsNote ∧
    readTitle comparisonsNote = none ∧ readRow comparisonsNote = none := by
  decide +kernel

section

variable (hfm : fm.Lawful) (h : s.Keyed)
include hfm h

omit hfm in
theorem condition_mem {c : CellSummary F} (hc : c ∈ s.cells) : c.condition ∈ s.conditions :=
  h.conditions ▸ List.mem_map_of_mem hc

theorem latencyShown_madeOf : MadeOf s.conditions (latencyShown fm s) := by
  apply madeOf_of_rows (by decide) (List.cons_ne_nil _ _) (by decide)
  intro r hr
  obtain ⟨c, hc, rfl⟩ := List.mem_map.mp hr
  refine ⟨?_, by simp [colTexts]⟩
  simp only [List.forall_mem_cons]
  exact ⟨Or.inl (condition_mem h hc), Or.inr (printable_strOf _), Or.inr (printable_strOf _),
    fun t ht => Or.inr (printable_colTexts hfm _ t ht)⟩

theorem jitterShown_madeOf : MadeOf s.conditions (jitterShown fm s) := by
  apply madeOf_of_rows (by decide) (List.cons_ne_nil _ _) (by decide)
  intro r hr
  obtain ⟨c, hc, rfl⟩ := List.mem_map.mp hr
  refine ⟨?_, by simp [colTexts]⟩
  rw [List.forall_mem_cons]
  exact ⟨Or.inl (condition_mem h hc), fun t ht => Or.inr (printable_colTexts hfm _ t ht)⟩

theorem lossSection_madeOf : MadeOf s.conditions (lossSection fm s) := by
  apply madeOf_of_rows (by decide) (List.cons_ne_nil _ _) (by decide)
  intro r hr
  obtain ⟨c, hc, rfl⟩ := List.mem_map.mp hr
  refine ⟨?_, rfl⟩
  rw [List.forall_mem_cons]
  exact ⟨Or.inl (condition_mem h hc), fun t ht => Or.inr (printable_lossCells hfm c t ht)⟩

theorem perRunSections_madeOf : ∀ t ∈ perRunSections fm s, MadeOf s.conditions t := by
  -- the two labels of the table are ASCII
  have hlabels : ∀ c : CellSummary F, ∀ p ∈ c.perRunItems, Printable p.1 := by
    intro c p hp
    rw [CellSummary.perRunItems] at hp
    split at hp
    · exact absurd hp List.not_mem_nil
    · rcases List.mem_cons.mp hp with rfl | hp
      · exact (by decide : Printable "latency_p99_ms".toList)
      · rw [List.mem_singleton.mp hp]
        exact (by decide : Printable "jitter_p99_us".toList)
  intro t ht
  rw [perRunSections] at ht
  split at ht
  case isFalse => exact absurd ht List.not_mem_nil
  case isTrue =>
    rw [List.mem_singleton.mp ht]
    apply madeOf_of_rows (by decide) (List.cons_ne_nil _ _) (by decide)
    intro r hr
    obtain ⟨c, hc, hr⟩ := List.mem_flatMap.mp hr
    obtain ⟨p, hp, rfl⟩ := List.mem_map.mp hr
    refine ⟨?_, rfl⟩
    simp only [List.forall_mem_cons]
    exact ⟨Or.inl (condition_mem h hc), Or.inr (hlabels c p hp),
      fun t ht => Or.inr (printable_perRunCells hfm p.2 t ht)⟩

omit hfm in
theorem comparisonsTitle_chars :
    ∀ x ∈ comparisonsTitle s, Printing x ∨ ∃ n ∈ s.conditions, x ∈ n := by
  have hleft : Visible "Comparisons vs `".toList := by decide
  have hright : Visible "`".toList := by decide
  intro x hx
  unfold comparisonsTitle at hx
  rcases List.mem_append.mp hx with hx | hx
  · rcases List.mem_append.mp hx with hx | hx
    · exact Or.inl (hleft x hx)
    · exact Or.inr ⟨s.baseline, h.baseline, hx⟩
  · exact Or.inl (hright x hx)

theorem comparisonsSection_rows :
    ∀ r ∈ (comparisonsSection fm s).rows, ∀ c ∈ r, c ∈ s.conditions ∨ Printable c := by
  intro r hr
  obtain ⟨d, hd, hr⟩ := List.mem_flatMap.mp hr
  obtain ⟨m, hm, rfl⟩ := List.mem_map.mp hr
  have hmem := List.mem_map_of_mem (f := fun d => (d.condition, d.metrics.map Prod.fst)) hd
  rw [h.comparisons] at hmem
  obtain ⟨c, hc, heq⟩ := List.mem_map.mp hmem
  obtain ⟨hcondition, hlabels⟩ := Prod.mk.inj heq
  -- the labels are those of `COMPARISON_METRICS`, all of them ASCII
  have hlabel : m.1 ∈ comparisonMetrics.map Prod.fst := by
    rw [hlabels]
    exact List.mem_map_of_mem hm
  have hprint : ∀ l ∈ comparisonMetrics.map Prod.fst, Printable l := by decide
  simp only [List.forall_mem_cons]
  exact ⟨Or.inl (hcondition ▸ List.mem_of_mem_filter hc), Or.inr (hprint _ hlabel),
    fun t ht => Or.inr (printable_comparisonCells hfm m.2 t ht)⟩

theorem comparisonsSection_madeOf : MadeOf s.conditions (comparisonsSection fm s) where
  title := comparisonsTitle_chars h
  notes := List.forall_mem_cons.mpr ⟨comparisonsNote_line, by simp [Visible]⟩
  headers := List.cons_ne_nil _ _
  cells := by
    have hheaders : ∀ c ∈ comparisonsHeaders, Printable c := by decide
    exact List.forall_mem_cons.mpr
      ⟨fun c hc => Or.inr (hheaders c hc), comparisonsSection_rows hfm h⟩
  width := by
    intro r hr
    obtain ⟨d, -, hr⟩ := List.mem_flatMap.mp hr
    obtain ⟨m, -, rfl⟩ := List.mem_map.mp hr
    rfl

theorem reportSections_madeOf : ∀ t ∈ reportSections fm s, MadeOf s.conditions t := by
  simp only [reportSections, List.forall_mem_cons, List.forall_mem_append]
  exact ⟨latencyShown_madeOf hfm h, jitterShown_madeOf hfm h, lossSection_madeOf hfm h,
    perRunSections_madeOf hfm h, comparisonsSection_madeOf hfm h, List.forall_mem_nil _⟩

/-- The lines above the tables. -/
theorem reportHead_chars {P : Char → Prop} (hP : ∀ c, Printing c → P c)
    (hdir : ∀ c ∈ s.resultsDir, P c) (hnames : ∀ n ∈ s.conditions, ∀ c ∈ n, P c) :
    ∀ l ∈ reportHead fm s, ∀ c ∈ l, P c := by
  have hlit : ∀ t : Str, Visible t → ∀ c ∈ t, P c := fun t ht c hc => hP c (ht c hc)
  -- all but the directory and the names is text of the program
  have hmethod : Visible (methodName s.args.method) := by cases s.args.method <;> decide
  have hci : Visible (fm.fixed 0 (fm.ofRat (s.args.ci * 100))) := fun c hc =>
    (printable_of_floatChars (hfm.fixed _ _) c hc).2
  have hint : ∀ z : ℤ, Visible (strOf z) := fun z c hc => (printable_strOf z c hc).2
  simp only [reportHead, List.forall_mem_cons, List.forall_mem_append]
  exact ⟨hlit _ (by decide), List.forall_mem_nil _,
    ⟨⟨hlit _ (by decide), hdir⟩, hlit _ (by decide)⟩,
    ⟨⟨hlit _ (by decide), hnames _ h.baseline⟩, hlit _ (by decide)⟩,
    ⟨hlit _ (by decide), forall_mem_intercalate (hlit _ (by decide)) hnames⟩,
    ⟨⟨⟨⟨⟨⟨⟨hlit _ (by decide), hlit _ hmethod⟩, hlit _ (by decide)⟩, hlit _ hci⟩,
      hlit _ (by decide)⟩, hlit _ (hint _)⟩, hlit _ (by decide)⟩, hlit _ (hint _)⟩,
    List.forall_mem_nil _, List.forall_mem_nil _⟩

omit hfm h in
/-- None of them is a title. -/
theorem readTitle_reportHead : ∀ l ∈ reportHead fm s, readTitle l = none := by
  simp [reportHead, readTitle]

end

end

/-! ### Decimals -/

/-- `f"{v:.{digits}f}"`. -/
def fixedText (digits : ℕ) (v : ℚ) : Str :=
  let n := (Binary64.roundEven (|v| * 10 ^ digits)).toNat
  let sign := if v < 0 then ['-'] else []
  let whole := Nat.toDigits 10 (n / 10 ^ digits)
  if digits = 0 then sign ++ whole
  else sign ++ whole ++ '.' :: (Nat.toDigits 10 (10 ^ digits + n % 10 ^ digits)).drop 1

/-- A value below one, its exponent counted down from `e`. -/
def exponentText : ℕ → ℕ → ℚ → Str
  | fuel + 1, e, v =>
    if |v| < 1 then exponentText fuel (e + 1) (v * 10)
    else fixedText 2 v ++ 'e' :: '-' :: (if e < 10 then ['0'] else []) ++ Nat.toDigits 10 e
  | 0, _, v => fixedText 2 v

/-- The formats of exact values, with `nan` above them. -/
def decimalFormats : Formats (WithTop ℚ) where
  nan := ⊤
  isNan x := x = ⊤
  isInf _ := false
  ofRat q := (q : WithTop ℚ)
  below x q := x < (q : WithTop ℚ)
  fixed digits
    | ⊤ => "nan".toList
    | (v : ℚ) => fixedText digits v
  signed
    | ⊤ => "+nan".toList
    | (v : ℚ) => if v < 0 then fixedText 2 v else '+' :: fixedText 2 v
  exponent
    | ⊤ => "nan".toList
    | (v : ℚ) => exponentText 300 0 v

theorem mem_floatChars_fixedText (digits : ℕ) (v : ℚ) :
    ∀ c ∈ fixedText digits v, c ∈ floatChars := by
  have hsign : ∀ c ∈ (if v < 0 then ['-'] else []), c ∈ floatChars := by
    split
    · exact List.forall_mem_singleton.mpr (by decide)
    · exact List.forall_mem_nil _
  rw [fixedText]
  split
  · exact List.forall_mem_append.mpr ⟨hsign, mem_floatChars_toDigits _⟩
  · refine List.forall_mem_append.mpr ⟨List.forall_mem_append.mpr ⟨hsign,
      mem_floatChars_toDigits _⟩, List.forall_mem_cons.mpr ⟨by decide, fun c hc => ?_⟩⟩
    exact mem_floatChars_toDigits _ c (List.mem_of_mem_drop hc)

theorem mem_floatChars_exponentText (fuel : ℕ) :
    ∀ (e : ℕ) (v : ℚ), ∀ c ∈ exponentText fuel e v, c ∈ floatChars := by
  induction fuel with
  | zero => exact fun _ v => mem_floatChars_fixedText 2 v
  | succ fuel ih =>
    intro e v
    -- the exponent has two digits at least
    have hzero : ∀ c ∈ (if e < 10 then ['0'] else []), c ∈ floatChars := by
      split
      · exact List.forall_mem_singleton.mpr (by decide)
      · exact List.forall_mem_nil _
    rw [exponentText]
    split
    · exact ih _ _
    · refine List.forall_mem_append.mpr ⟨List.forall_mem_append.mpr
        ⟨mem_floatChars_fixedText 2 v, ?_⟩, mem_floatChars_toDigits e⟩
      exact List.forall_mem_cons.mpr ⟨by decide, List.forall_mem_cons.mpr ⟨by decide, hzero⟩⟩

theorem mem_floatChars_signed (v : ℚ) :
    ∀ c ∈ (if v < 0 then fixedText 2 v else '+' :: fixedText 2 v), c ∈ floatChars := by
  split
  · exact mem_floatChars_fixedText 2 v
  · exact List.forall_mem_cons.mpr ⟨by decide, mem_floatChars_fixedText 2 v⟩

theorem nan_chars : ∀ c ∈ "nan".toList, c ∈ floatChars := by
  have hnan : "nan".toList = ['n', 'a', 'n'] := rfl
  rw [hnan]
  simp only [List.forall_mem_cons]
  exact ⟨by decide, by decide, by decide, List.forall_mem_nil _⟩

theorem decimalFormats_lawful : decimalFormats.Lawful where
  fixed digits x := by
    cases x with
    | top => exact nan_chars
    | coe v => exact mem_floatChars_fixedText digits v
  signed x := by
    cases x with
    | top => exact List.forall_mem_cons.mpr ⟨by decide, nan_chars⟩
    | coe v => exact mem_floatChars_signed v
  exponent x := by
    cases x with
    | top => exact nan_chars
    | coe v => exact mem_floatChars_exponentText 300 0 v

/-! ### The report -/

/-- What has all that is looked up can be rendered, and read. -/
theorem Summary.Keyed.rendered {fm : Formats F} (hfm : fm.Lawful) {s : Summary F} (h : s.Keyed)
    (hnames : ∀ c ∈ s.conditions, Plain c) (hdir : '\n' ∉ s.resultsDir) :
    ∃ text latency jitter loss comparisons perRun, renderMarkdown fm s = some text ∧
      readTables text = some (latency :: jitter :: loss :: (perRun ++ [comparisons])) ∧
      s.Shown fm latency jitter loss comparisons perRun := by
  have hnewline : ∀ c, Printing c → c ≠ '\n' := fun c hc heq => not_printing_newline (heq ▸ hc)
  -- a line break would end a line of the head early
  have hlines := reportHead_chars hfm h hnewline (fun c hc heq => hdir (heq ▸ hc))
    fun n hn c hc heq => (hnames n hn).2 (heq ▸ hc)
  have hhead : reportHead fm s ≠ [] := List.cons_ne_nil _ _
  refine ⟨_, _, _, _, _, _, h.renderMarkdown_eq, ?_, h.shown⟩
  rw [readTables_document hhead
      (fun l hl => ⟨fun hmem => hlines l hl _ hmem rfl, readTitle_reportHead l hl⟩)
      fun t ht => (reportSections_madeOf hfm h t ht).clean hnames,
    reportSections, List.map_cons, List.map_cons, List.map_cons, List.map_append]
  rfl

/-- **The report can be read.**  For every directory, every choice of arguments and any arithmetic
on floats: if there is a summary, no name of a condition has a bar or a line feed and the name of
the directory no line feed, there is a text, and a reader who cuts its lines at the bars finds the
tables of latency, jitter, loss, repeated runs and comparisons.  The first three have a row for
each condition, and below every column the formatted value of the summary; the runs are there
exactly if a condition was repeated, and each condition but the baseline is compared in each
metric. -/
theorem rendered_tables [LinearOrder F] {np : Numpy.Ops F} {U : Unicode} {fl : FloatOps F}
    {args : SummaryArgs} {resultsDir : Str} {files : List CsvFile} {s : Summary F}
    (h : buildSummary np U fl args resultsDir files = .ok s) {fm : Formats F} (hfm : fm.Lawful)
    (hnames : ∀ c ∈ s.conditions, Plain c) (hdir : '\n' ∉ resultsDir) :
    ∃ text latency jitter loss comparisons perRun, renderMarkdown fm s = some text ∧
      readTables text = some (latency :: jitter :: loss :: (perRun ++ [comparisons])) ∧
      s.Shown fm latency jitter loss comparisons perRun := by
  obtain ⟨hkeyed, rfl⟩ := buildSummary_keyed h
  exact hkeyed.rendered hfm hnames hdir

/-- Two conditions, one of them with a TOS column. -/
theorem rendered_tables_two_conditions :
    let header := "seq,send_ns,recv_ns,latency_ms,jitter_us,pkt_size"
    let files : List CsvFile :=
      [⟨⟨"fifo_run1.csv".toList, "fifo_run1".toList⟩,
          (header ++ "\r\n0,1,2,1.0,0.0,64\r\n2,2,3,3.0,5.0,64\r\n").toList⟩,
        ⟨⟨"prio_clsf_run1.csv".toList, "prio_clsf_run1".toList⟩,
          (header ++ ",tos\r\n0,1,2,1.0,0.0,64,184\r\n1,2,3,2.0,7.0,64,-1\r\n").toList⟩]
    ∃ s, buildSummary Numpy.exact asciiTable rationalFloats { nBoot := 3 } "results".toList files
        = .ok s ∧
      ∃ text latency jitter loss comparisons perRun, renderMarkdown decimalFormats s = some text ∧
        readTables text = some (latency :: jitter :: loss :: (perRun ++ [comparisons])) ∧
        s.Shown decimalFormats latency jitter loss comparisons perRun := by
  intro header files
  have hbuild : (buildSummary Numpy.exact asciiTable rationalFloats { nBoot := 3 }
      "results".toList files).map Summary.conditions
      = .ok ["fifo".toList, "prio_clsf".toList] := by decide +kernel
  obtain ⟨s, hs, hconditions⟩ := map_eq_ok_iff.mp hbuild
  have hnames : ∀ c ∈ s.conditions, Plain c := by
    rw [hconditions]
    decide
  exact ⟨s, hs, rendered_tables hs decimalFormats_lawful hnames (by decide)⟩

/-- **The report is ASCII** exactly if the names in it are: that of the directory and those of the
conditions. -/
theorem rendered_ascii_iff [LinearOrder F] {np : Numpy.Ops F} {U : Unicode} {fl : FloatOps F}
    {args : SummaryArgs} {resultsDir : Str} {files : List CsvFile} {s : Summary F}
    (h : buildSummary np U fl args resultsDir files = .ok s) {fm : Formats F} (hfm : fm.Lawful) :
    ∃ text, renderMarkdown fm s = some text ∧
      ((∀ c ∈ text, c.toNat < 128) ↔
        (∀ c ∈ resultsDir, c.toNat < 128) ∧ ∀ n ∈ s.conditions, ∀ c ∈ n, c.toNat < 128) := by
  obtain ⟨hkeyed, rfl⟩ := buildSummary_keyed h
  refine ⟨_, hkeyed.renderMarkdown_eq, fun hascii => ?_, fun ⟨hdir, hnames⟩ => ?_⟩
  · -- the directory and the names are printed as they are in the head
    have hline : ∀ l ∈ reportHead fm s, ∀ c ∈ l, c.toNat < 128 := fun l hl c hc =>
      hascii c (mem_intercalate hc (List.mem_append_left _ hl))
    simp only [reportHead, List.forall_mem_cons, List.forall_mem_append] at hline
    obtain ⟨-, -, ⟨⟨-, hdir⟩, -⟩, -, ⟨-, hlist⟩, -⟩ := hline
    exact ⟨hdir, fun n hn c hc => hlist c (mem_intercalate hc hn)⟩
  · -- and nothing else in the text can be other than ASCII
    have hascii : ∀ c, Printing c → c.toNat < 128 := fun c hc => lt_trans hc.2 (by decide)
    refine forall_mem_intercalate (by simp) (List.forall_mem_append.mpr
      ⟨reportHead_chars hfm hkeyed hascii hdir hnames, fun l hl => ?_⟩)
    obtain ⟨t, ht, hl⟩ := List.mem_flatMap.mp hl
    exact (reportSections_madeOf hfm hkeyed t ht).forall_mem_lines hascii hnames l hl

/-- One condition, in a directory with an accent. -/
theorem rendered_ascii_iff_accent :
    let files : List CsvFile :=
      [⟨⟨"fifo_run1.csv".toList, "fifo_run1".toList⟩,
        ("seq,send_ns,recv_ns,latency_ms,jitter_us,pkt_size\r\n" ++
          "0,1,2,1.0,0.0,64\r\n2,2,3,3.0,5.0,64\r\n").toList⟩]
    ∃ s, buildSummary Numpy.exact asciiTable rationalFloats { nBoot := 3 } "résultats".toList files
        = .ok s ∧
      ∃ text, renderMarkdown decimalFormats s = some text ∧ ¬ ∀ c ∈ text, c.toNat < 128 := by
  intro files
  have hbuild : (buildSummary Numpy.exact asciiTable rationalFloats { nBoot := 3 }
      "résultats".toList files).map Summary.conditions = .ok ["fifo".toList] := by
    decide +kernel
  obtain ⟨s, hs, -⟩ := map_eq_ok_iff.mp hbuild
  obtain ⟨text, htext, hiff⟩ := rendered_ascii_iff hs decimalFormats_lawful
  refine ⟨s, hs, text, htext, fun hascii => ?_⟩
  exact absurd ((hiff.mp hascii).1 'é' (by decide)) (by decide)

end TsPacket
