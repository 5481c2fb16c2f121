import TsPacket.Analysis.Markdown
import TsPacket.EndToEnd.ClockOffset
import TsPacket.EndToEnd.TestMatrix

/-!
# From the test matrix to the report

What a reader of the Markdown report of a test matrix finds of the measurement: the runs and the
packets that were recorded.

## Main definitions

* `recordedConditions` — the conditions with a recorded run, in the fixed order.
* `recordedPackets` — the rows of a condition.

## Main results

* `matrix_report` — **the report of a matrix counts what was recorded.**
-/

namespace TsPacket

open PyText PipeTable Raise

variable {F : Type}

/-! ### Summaries of cells -/

section

variable [LinearOrder F] {np : Numpy.Ops F} {args : SummaryArgs} {resultsDir : Str}
  {cs : List (Cell F)} {s : Summary F}

theorem conditions_summarise (h : summarise np args resultsDir cs = .ok s) :
    s.conditions = cs.map Cell.condition := by
  obtain ⟨base, -, h⟩ := bind_eq_ok_iff.mp h
  obtain ⟨entries, -, h⟩ := bind_eq_ok_iff.mp h
  obtain ⟨comparisons, -, h⟩ := bind_eq_ok_iff.mp h
  obtain rfl := Except.ok.inj h
  rfl

/-- An entry counts the runs and the packets of its cell. -/
theorem counts_summarise {runs : List (Run F)} (hds : IsDataset runs cs)
    (h : summarise np args resultsDir cs = .ok s) {e : CellSummary F} (he : e ∈ s.cells) :
    ∃ cell ∈ cs, e.condition = cell.condition ∧ e.nRuns = cell.runs.length ∧
      e.nPackets = (cell.runs.map fun r => r.latencyMs.length).sum ∧
      (e.perRun = none ↔ cell.runs.length ≤ 1) := by
  obtain ⟨base, -, h⟩ := bind_eq_ok_iff.mp h
  obtain ⟨entries, hentries, h⟩ := bind_eq_ok_iff.mp h
  obtain ⟨comparisons, -, h⟩ := bind_eq_ok_iff.mp h
  obtain rfl := Except.ok.inj h
  obtain ⟨c, -, hc⟩ := (mem_of_mapM hentries).mp he
  obtain ⟨cell, hlookup, hcell⟩ := bind_eq_ok_iff.mp hc
  rw [mapError_eq_ok_iff] at hcell
  have hmem := (lookupCell_eq_ok hlookup).1
  have hruns := hds.runs_ne cell hmem
  obtain ⟨hcondition, hdesc⟩ := cellSummary_describes hruns hcell
  obtain ⟨-, -, hperRun, -⟩ := cellSummary_parts hruns hcell
  have hsome := (perRunEntry_coherent hperRun).1
  refine ⟨cell, hmem, hcondition, hdesc.nRuns, hdesc.nPackets, ?_⟩
  rw [← Option.not_isSome_iff_eq_none, hsome, not_lt]
  rfl

end

/-! ### The matrix -/

/-- The conditions with a recorded run, in the fixed order. -/
def recordedConditions (rs : List (Outcome F)) (runs : ℕ) : List Str :=
  knownConditions.filter fun c => !(recordedRuns rs runs c).isEmpty

/-- The rows of a condition. -/
def recordedPackets (rs : List (Outcome F)) (runs : ℕ) (cond : Str) : ℕ :=
  ((recordedRuns rs runs cond).map fun k => (recorded rs cond k).length).sum

theorem plain_recordedConditions {rs : List (Outcome F)} {runs : ℕ} :
    ∀ c ∈ recordedConditions rs runs, Plain c := by
  have hknown : ∀ c ∈ knownConditions, Plain c := by decide
  exact fun c hc => hknown c (List.mem_of_mem_filter hc)

/-- A cell that holds the runs has as many, with as many rows. -/
theorem Cell.Holds.counts {args : ListenerArgs} {runs : ℕ} {rs : List (Outcome F)} {cell : Cell F}
    (h : cell.Holds args runs rs) :
    cell.runs.length = (recordedRuns rs runs cell.condition).length ∧
      (cell.runs.map fun r => r.latencyMs.length).sum
        = recordedPackets rs runs cell.condition := by
  refine ⟨h.length_eq.symm, ?_⟩
  rw [Cell.Holds] at h
  rw [recordedPackets]
  generalize recordedRuns rs runs cell.condition = ks at h ⊢
  generalize cell.runs = rs' at h ⊢
  induction h with
  | nil => rfl
  | cons hk _ ih =>
    rw [List.map_cons, List.map_cons, List.sum_cons, List.sum_cons, ih, hk.2.latencyMs,
      List.length_map]

/-- **From the test matrix to the report.**  For any number of rounds and any conditions, wherever
the script stops, whatever runs received nothing, in whatever order the directory is listed, any
choice of arguments and any arithmetic: if there is a summary of the directory, it has a text, and
a reader of its tables finds a row for each condition with a recorded run, in the fixed order, and
in it the number of its recorded runs and of their rows; repeated runs have their table exactly if
there are any. -/
theorem matrix_report [LinearOrder F] {np : Numpy.Ops F} {U : Unicode} (hU : U.Lawful)
    {fl : FloatOps F} (hfl : fl.Exact) {largs : ListenerArgs} {runs : ℕ} (hruns : runs < 2 ^ 64)
    {conditions : List Str} {havePrio : Bool} {rs : List (Outcome F)}
    (hrs : Outcomes runs conditions havePrio rs) (hfits : RecordedFits largs rs) (out : Str)
    {files : List CsvFile} (hfiles : IsListing fl largs out rs files) {args : SummaryArgs}
    {resultsDir : Str} (hdir : '\n' ∉ resultsDir) {s : Summary F}
    (h : buildSummary np U fl args resultsDir files = .ok s) {fm : Formats F} (hfm : fm.Lawful) :
    ∃ text latency jitter loss comparisons perRun, renderMarkdown fm s = some text ∧
      readTables text = some (latency :: jitter :: loss :: (perRun ++ [comparisons])) ∧
      latency.keys 1 = (recordedConditions rs runs).map (fun c => [c]) ∧
      jitter.keys 1 = (recordedConditions rs runs).map (fun c => [c]) ∧
      loss.keys 1 = (recordedConditions rs runs).map (fun c => [c]) ∧
      (∀ c ∈ recordedConditions rs runs,
        latency.cell c "runs".toList = some (strOf (recordedRuns rs runs c).length) ∧
          latency.cell c "n".toList = some (strOf (recordedPackets rs runs c))) ∧
      (perRun = [] ↔ ∀ c ∈ recordedConditions rs runs, (recordedRuns rs runs c).length ≤ 1) := by
  obtain ⟨cs, hcs, hsummarise⟩ := bind_eq_ok_iff.mp h
  rw [mapError_eq_ok_iff, buildDataset] at hcs
  obtain ⟨gs, hgs, rfl⟩ := map_eq_ok_iff.mp hcs
  obtain ⟨loaded, hloaded, rfl⟩ := map_eq_ok_iff.mp hgs
  have hds := isDataset_cells loaded
  obtain ⟨hkeyed, hresults⟩ := summarise_keyed hds hsummarise
  have hconditions : s.conditions = recordedConditions rs runs :=
    (conditions_summarise hsummarise).trans
      (conditions_matrix hU hfl hruns hrs hfits hfiles hloaded)
  have hnames : ∀ c ∈ s.conditions, Plain c := by
    rw [hconditions]
    exact plain_recordedConditions
  -- an entry shows what its cell holds
  have hcounts : ∀ e ∈ s.cells, e.nRuns = (recordedRuns rs runs e.condition).length ∧
      e.nPackets = recordedPackets rs runs e.condition ∧
      (e.perRun = none ↔ (recordedRuns rs runs e.condition).length ≤ 1) := by
    intro e he
    obtain ⟨cell, hcell, hcondition, hnRuns, hnPackets, hperRun⟩ :=
      counts_summarise hds hsummarise he
    obtain ⟨hlength, hsum⟩ := (holds_cell hU hfl hruns hrs hfits hfiles hloaded hcell).counts
    rw [hcondition, ← hlength, ← hsum]
    exact ⟨hnRuns, hnPackets, hperRun⟩
  have hentry : ∀ c ∈ recordedConditions rs runs, ∃ e ∈ s.cells, e.condition = c := by
    intro c hc
    rw [← hconditions, ← hkeyed.conditions] at hc
    exact List.mem_map.mp hc
  obtain ⟨text, latency, jitter, loss, comparisons, perRun, htext, hread, hshown⟩ :=
    hkeyed.rendered hfm hnames (hresults ▸ hdir)
  refine ⟨text, latency, jitter, loss, comparisons, perRun, htext, hread, ?_, ?_, ?_, ?_, ?_⟩
  · rw [hshown.latency_keys, hconditions]
  · rw [hshown.jitter_keys, hconditions]
  · rw [hshown.loss_keys, hconditions]
  · intro c hc
    obtain ⟨e, he, rfl⟩ := hentry c hc
    obtain ⟨hnRuns, hnPackets, -⟩ := hcounts e he
    rw [hshown.runs e he, hshown.packets e he, hnRuns, hnPackets]
    exact ⟨rfl, rfl⟩
  · rw [hshown.perRun_eq_nil]
    constructor
    · intro hnone c hc
      obtain ⟨e, he, rfl⟩ := hentry c hc
      exact (hcounts e he).2.2.mp (hnone e he)
    · intro hfew e he
      refine (hcounts e he).2.2.mpr (hfew _ ?_)
      rw [← hconditions, ← hkeyed.conditions]
      exact List.mem_map_of_mem he

/-- The formats of rationals, none of which is `nan`. -/
def rationalFormats : Formats ℚ where
  nan := 0
  isNan _ := false
  isInf _ := false
  ofRat := id
  below x q := x < q
  fixed := fixedText
  signed v := if v < 0 then fixedText 2 v else '+' :: fixedText 2 v
  exponent := exponentText 300 0

theorem rationalFormats_lawful : rationalFormats.Lawful where
  fixed := mem_floatChars_fixedText
  signed := mem_floatChars_signed
  exponent := mem_floatChars_exponentText 300 0

/-- Two rounds of two conditions; the second round of the first received nothing. -/
theorem matrix_report_two_rounds :
    let row : Row ℚ := ⟨7, 1000, 2000, 1, 0, 64, none, none⟩
    let largs : ListenerArgs := ⟨1000000, false, false, .little⟩
    let rs : List (Outcome ℚ) :=
      [⟨"prio_clsf".toList, 1, [row, row]⟩, ⟨"fifo".toList, 1, [row, row]⟩,
        ⟨"prio_clsf".toList, 2, []⟩, ⟨"fifo".toList, 2, [row, row, row]⟩]
    let files : List CsvFile :=
      (outDir fractionFloats largs rs).map fun p => ⟨csvPath "runs".toList p.1, p.2⟩
    ∃ s, buildSummary (exactRational []) asciiTable fractionFloats { nBoot := 3 } "runs".toList
        files = .ok s ∧
      ∃ text latency jitter loss comparisons perRun,
        renderMarkdown rationalFormats s = some text ∧
        readTables text = some (latency :: jitter :: loss :: (perRun ++ [comparisons])) ∧
        latency.keys 1 = [["fifo".toList], ["prio_clsf".toList]] ∧
        latency.cell "fifo".toList "runs".toList = some "2".toList ∧
        latency.cell "fifo".toList "n".toList = some "5".toList ∧ perRun ≠ [] := by
  intro row largs rs files
  have hrs : Outcomes 2 ["prio_clsf".toList, "fifo".toList] true rs := ⟨by decide, by decide⟩
  have hfits : RecordedFits largs rs := by
    refine forall_recorded fun r hr row' hrow' => ?_
    -- every recorded row is the one row of the example
    have hsame : row' = row := by
      simp only [rs, List.mem_cons, List.not_mem_nil, or_false] at hr
      rcases hr with rfl | rfl | rfl | rfl
      · simpa using hrow'
      · simpa using hrow'
      · exact absurd hrow' List.not_mem_nil
      · simpa using hrow'
    rw [hsame]
    exact ⟨by decide, by decide, by decide, by decide, fun h => absurd h (by decide),
      fun h => absurd h (by decide)⟩
  have hbuild : ∃ s, buildSummary (exactRational []) asciiTable fractionFloats { nBoot := 3 }
      "runs".toList files = .ok s := by
    apply (exists_map_eq_ok_iff (f := fun _ => ())).mp
    exact ⟨(), by decide +kernel⟩
  obtain ⟨s, hs⟩ := hbuild
  obtain ⟨text, latency, jitter, loss, comparisons, perRun, htext, hread, hkeys, -, -, hcells,
    hperRun⟩ := matrix_report asciiTable_lawful fractionFloats_exact (by decide) hrs hfits
      "runs".toList (List.Perm.refl _) (by decide) hs rationalFormats_lawful
  have hnames : recordedConditions rs 2 = ["fifo".toList, "prio_clsf".toList] := by decide
  rw [hnames] at hkeys hcells hperRun
  have hfifo := hcells "fifo".toList List.mem_cons_self
  refine ⟨s, hs, text, latency, jitter, loss, comparisons, perRun, htext, hread, hkeys,
    hfifo.1.trans (by decide), hfifo.2.trans (by decide), fun hnil => ?_⟩
  exact absurd (hperRun.mp hnil "fifo".toList List.mem_cons_self) (by decide)

end TsPacket
