import TsPacket.Analysis.Grouping
import TsPacket.EndToEnd.CsvRoundTrip
import TsPacket.Testbed.RunScript

/-!
# From the test matrix to the dataset

`testbed/run.sh` runs every condition once a round, copies what the listener wrote to
`<condition>_run<k>.csv`, and stops at the first command that fails; a run in which nothing was
received has no file.  The names go through the file system, which lists them in an order of
its own, and `build_dataset` puts them together again.  Names are compared as texts on the way,
so run 10 comes before run 2 there.

## Main definitions

* `matrix` — the runs of the script, in its order.
* `Outcome`, `outDir` — what the listener recorded in a run, and the files that are left.
* `recorded` — what was recorded last for a run.
* `RecordedFits`, `RecordedLoads` — what was recorded is a listener's, and can be read back.

## Main results

* `get?_outDir` — the directory holds what was recorded last.
* `matrix_dataset` — **the dataset has a cell for every condition with a file, in the fixed
  order, with its runs by number and in each of them what was recorded there.**
-/

namespace TsPacket

open OrderedDict PyText Raise

variable {F : Type}

/-! ### The runs of the script -/

/-- The loops over the rounds and the conditions; without a `prio` its conditions are left out. -/
def matrix (runs : ℕ) (conditions : List Str) (havePrio : Bool) : List (Str × ℕ) :=
  (List.range runs).flatMap fun k =>
    (conditions.filter fun c => havePrio || !"prio_".toList.isPrefixOf c).map fun c => (c, k + 1)

/-- A run of the script, with the rows that the listener recorded. -/
structure Outcome (F : Type) where
  cond : Str
  run : ℕ
  rows : List (Row F)

/-- `$OUT/${cond}_run${run}.csv`, by its stem. -/
def csvPath (out stem : Str) : CsvPath := ⟨out ++ '/' :: stem ++ ".csv".toList, stem⟩

/-- The copy at the end of a run, in a directory of stems and texts. -/
def copyResults (fl : FloatOps F) (args : ListenerArgs) (dir : List (Str × Str))
    (r : Outcome F) : List (Str × Str) :=
  if r.rows = [] then dir
  else update (runStem r.cond r.run) [] (fun _ => csvText fl args r.rows) dir

/-- The directory after these runs. -/
def outDir (fl : FloatOps F) (args : ListenerArgs) (rs : List (Outcome F)) : List (Str × Str) :=
  rs.foldl (copyResults fl args) []

/-- What was recorded last for a run of a condition. -/
def recorded (rs : List (Outcome F)) (cond : Str) (run : ℕ) : List (Row F) :=
  rs.foldl (fun rows r => if r.cond = cond ∧ r.run = run ∧ r.rows ≠ [] then r.rows else rows) []

theorem outDir_concat (fl : FloatOps F) (args : ListenerArgs) (rs : List (Outcome F))
    (r : Outcome F) : outDir fl args (rs ++ [r]) = copyResults fl args (outDir fl args rs) r := by
  rw [outDir, List.foldl_append]
  rfl

theorem recorded_concat (rs : List (Outcome F)) (r : Outcome F) (cond : Str) (run : ℕ) :
    recorded (rs ++ [r]) cond run
      = if r.cond = cond ∧ r.run = run ∧ r.rows ≠ [] then r.rows else recorded rs cond run := by
  rw [recorded, List.foldl_append]
  rfl

theorem run_of_mem_matrix {runs : ℕ} {conditions : List Str} {havePrio : Bool} {p : Str × ℕ}
    (h : p ∈ matrix runs conditions havePrio) : 1 ≤ p.2 ∧ p.2 ≤ runs := by
  obtain ⟨k, hk, hp⟩ := List.mem_flatMap.mp h
  obtain ⟨c, -, rfl⟩ := List.mem_map.mp hp
  exact ⟨Nat.succ_pos k, List.mem_range.mp hk⟩

/-- What was recorded was recorded in a run. -/
theorem exists_outcome_of_recorded {rs : List (Outcome F)} {cond : Str} {run : ℕ}
    (h : recorded rs cond run ≠ []) :
    ∃ r ∈ rs, r.cond = cond ∧ r.run = run ∧ r.rows = recorded rs cond run := by
  induction rs using List.reverseRecOn with
  | nil => exact absurd rfl h
  | append_singleton rs r ih =>
    rw [recorded_concat] at h ⊢
    by_cases hr : r.cond = cond ∧ r.run = run ∧ r.rows ≠ []
    · rw [if_pos hr]
      exact ⟨r, List.mem_append_right rs List.mem_cons_self, hr.1, hr.2.1, rfl⟩
    · rw [if_neg hr] at h ⊢
      obtain ⟨r', hr', heq⟩ := ih h
      exact ⟨r', List.mem_append_left _ hr', heq⟩

/-! ### The directory -/

section

variable {U : Unicode} (hU : U.Lawful)
include hU

/-- Different runs have different names. -/
theorem runStem_inj {cond cond' : Str} {run run' : ℕ} (hne : cond ≠ []) (hne' : cond' ≠ [])
    (h : runStem cond run = runStem cond' run') : cond = cond' ∧ run = run' := by
  have hstem := isRunStem_runStem hU hne run
  rw [h] at hstem
  obtain ⟨hcond, hrun⟩ := hstem.unique (decimal_underscore hU.toAscii)
    (isRunStem_runStem hU hne' run')
  have hdigits : digits 10 U.decimal (strOf run) = some run := digits_toDigits hU.toAscii run
  rw [hrun] at hdigits
  have hdigits' : digits 10 U.decimal (strOf run') = some run' := digits_toDigits hU.toAscii run'
  exact ⟨hcond, Option.some.inj (hdigits.symm.trans hdigits')⟩

/-- **The directory holds what was recorded last.** -/
theorem get?_outDir (fl : FloatOps F) (args : ListenerArgs) {rs : List (Outcome F)}
    (hrs : ∀ r ∈ rs, r.cond ≠ []) {cond : Str} (hcond : cond ≠ []) (run : ℕ) :
    get? (outDir fl args rs) (runStem cond run)
      = if recorded rs cond run = [] then none
        else some (csvText fl args (recorded rs cond run)) := by
  induction rs using List.reverseRecOn with
  | nil => rfl
  | append_singleton rs r ih =>
    have ih := ih fun r' hr' => hrs r' (List.mem_append_left _ hr')
    have hr := hrs r (List.mem_append_right rs List.mem_cons_self)
    rw [outDir_concat, recorded_concat, copyResults]
    -- a run without rows leaves no file; any other replaces its own
    by_cases hrows : r.rows = []
    · have hnot : ¬ (r.cond = cond ∧ r.run = run ∧ r.rows ≠ []) := fun h => h.2.2 hrows
      rw [if_pos hrows, if_neg hnot, ih]
    · rw [if_neg hrows, get?_update]
      by_cases hsame : r.cond = cond ∧ r.run = run
      · obtain ⟨rfl, rfl⟩ := hsame
        simp [hrows]
      · -- two names that differ in condition or run differ as texts
        have hstem : runStem cond run ≠ runStem r.cond r.run := fun h =>
          hsame ((runStem_inj hU hcond hr h).imp Eq.symm Eq.symm)
        have hnot : ¬ (r.cond = cond ∧ r.run = run ∧ r.rows ≠ []) := fun h => hsame ⟨h.1, h.2.1⟩
        rw [if_neg hstem, if_neg hnot, ih]

omit hU

theorem nodup_outDir (fl : FloatOps F) (args : ListenerArgs) (rs : List (Outcome F)) :
    ((outDir fl args rs).map Prod.fst).Nodup := by
  induction rs using List.reverseRecOn with
  | nil => exact List.nodup_nil
  | append_singleton rs r ih =>
    rw [outDir_concat, copyResults]
    split
    · exact ih
    · exact nodup_update ih

/-- Every file is that of a run. -/
theorem exists_outcome_of_mem (fl : FloatOps F) (args : ListenerArgs) {rs : List (Outcome F)}
    {stem : Str} (h : stem ∈ (outDir fl args rs).map Prod.fst) :
    ∃ r ∈ rs, stem = runStem r.cond r.run := by
  induction rs using List.reverseRecOn with
  | nil => exact absurd h List.not_mem_nil
  | append_singleton rs r ih =>
    have hold : stem ∈ (outDir fl args rs).map Prod.fst →
        ∃ r' ∈ rs ++ [r], stem = runStem r'.cond r'.run := fun h => by
      obtain ⟨r', hr', heq⟩ := ih h
      exact ⟨r', List.mem_append_left _ hr', heq⟩
    rw [outDir_concat, copyResults] at h
    split at h
    · exact hold h
    · rw [map_fst_update] at h
      split at h
      · exact hold h
      · rcases List.mem_append.mp h with h | h
        · exact hold h
        · exact ⟨r, List.mem_append_right rs List.mem_cons_self, List.mem_singleton.mp h⟩

/-- **The files of the directory**: one for each run with rows, with what was recorded last. -/
theorem mem_outDir_iff (hU : U.Lawful) (fl : FloatOps F) (args : ListenerArgs)
    {rs : List (Outcome F)} (hrs : ∀ r ∈ rs, r.cond ≠ []) {stem text : Str} :
    (stem, text) ∈ outDir fl args rs ↔ ∃ cond run, cond ≠ [] ∧ stem = runStem cond run ∧
      recorded rs cond run ≠ [] ∧ text = csvText fl args (recorded rs cond run) := by
  rw [mem_iff_get? (nodup_outDir fl args rs)]
  constructor
  · intro h
    have hmem : stem ∈ (outDir fl args rs).map Prod.fst :=
      List.mem_map.mpr ⟨_, (mem_iff_get? (nodup_outDir fl args rs)).mpr h, rfl⟩
    obtain ⟨r, hr, rfl⟩ := exists_outcome_of_mem fl args hmem
    rw [get?_outDir hU fl args hrs (hrs r hr)] at h
    split at h
    case isTrue => cases h
    case isFalse hne => exact ⟨r.cond, r.run, hrs r hr, rfl, hne, (Option.some.inj h).symm⟩
  · rintro ⟨cond, run, hcond, rfl, hne, rfl⟩
    rw [get?_outDir hU fl args hrs hcond, if_neg hne]

end

/-! ### The dataset -/

/-- The conditions the script knows, in the order of the dataset. -/
def knownConditions : List Str := conditionOrder ++ ["prio_noclsf".toList]

theorem mem_knownConditions {cond : Str} (h : (innerQdisc cond).isSome = true) :
    cond ∈ knownConditions := by
  unfold innerQdisc at h
  split at h
  case isTrue h₁ => rw [h₁]; decide
  split at h
  case isTrue h₂ => rw [h₂]; decide
  split at h
  case isTrue h₃ => rcases h₃ with rfl | rfl <;> decide
  split at h
  case isTrue h₄ => rcases h₄ with rfl | rfl <;> decide
  case isFalse => cases h

theorem knownConditions_spec : ∀ cond ∈ knownConditions,
    cond ≠ [] ∧ '\n' ∉ cond ∧ cond.length ≤ 18 := by decide

/-- The runs of a condition in which something was received, by number. -/
def recordedRuns (rs : List (Outcome F)) (runs : ℕ) (cond : Str) : List ℕ :=
  ((List.range runs).map (· + 1)).filter fun k => !(recorded rs cond k).isEmpty

/-- The files of the directory, in some order. -/
def IsListing (fl : FloatOps F) (args : ListenerArgs) (out : Str) (rs : List (Outcome F))
    (files : List CsvFile) : Prop :=
  files.Perm ((outDir fl args rs).map fun p => ⟨csvPath out p.1, p.2⟩)

/-- The outcomes of the script up to some run. -/
structure Outcomes (runs : ℕ) (conditions : List Str) (havePrio : Bool)
    (rs : List (Outcome F)) : Prop where
  prefix_matrix : rs.map (fun r => (r.cond, r.run)) <+: matrix runs conditions havePrio
  known : ∀ r ∈ rs, (innerQdisc r.cond).isSome = true

/-- The fields of what was recorded fit the types they were read as. -/
def RecordedFits (args : ListenerArgs) (rs : List (Outcome F)) : Prop :=
  ∀ cond run, ∀ row ∈ recorded rs cond run, RowFits args row

/-- What was recorded can be read back: the send times fit a signed field, and the texts of the
floats keep to the limit of the reader. -/
def RecordedLoads (fl : FloatOps F) (rs : List (Outcome F)) : Prop :=
  ∀ cond run, ∀ row ∈ recorded rs cond run, row.sendNs < 2 ^ 63 ∧ row.Printable fl

/-- What is recorded of a run are its rows. -/
theorem forall_recorded {rs : List (Outcome F)} {p : Row F → Prop}
    (h : ∀ r ∈ rs, ∀ row ∈ r.rows, p row) (cond : Str) (run : ℕ) :
    ∀ row ∈ recorded rs cond run, p row := by
  intro row hrow
  obtain ⟨r, hr, -, -, hrows⟩ := exists_outcome_of_recorded (List.ne_nil_of_mem hrow)
  exact h r hr row (hrows ▸ hrow)

namespace Outcomes

variable {args : ListenerArgs} {runs : ℕ} {conditions : List Str} {havePrio : Bool}
  {rs : List (Outcome F)}

theorem cond_spec (h : Outcomes runs conditions havePrio rs) {r : Outcome F} (hr : r ∈ rs) :
    r.cond ≠ [] ∧ '\n' ∉ r.cond ∧ r.cond.length ≤ 18 :=
  knownConditions_spec _ (mem_knownConditions (h.known r hr))

theorem run_spec (h : Outcomes runs conditions havePrio rs) {r : Outcome F} (hr : r ∈ rs) :
    1 ≤ r.run ∧ r.run ≤ runs :=
  run_of_mem_matrix (h.prefix_matrix.subset (List.mem_map.mpr ⟨r, hr, rfl⟩))

theorem mem_recordedRuns_iff (h : Outcomes runs conditions havePrio rs) {cond : Str}
    {k : ℕ} : k ∈ recordedRuns rs runs cond ↔ recorded rs cond k ≠ [] := by
  rw [recordedRuns, List.mem_filter]
  have hempty : (!(recorded rs cond k).isEmpty) = true ↔ recorded rs cond k ≠ [] := by
    simp
  rw [hempty]
  refine ⟨And.right, fun hne => ⟨?_, hne⟩⟩
  obtain ⟨r, hr, -, rfl, -⟩ := exists_outcome_of_recorded hne
  obtain ⟨hlo, hhi⟩ := h.run_spec hr
  exact List.mem_map.mpr ⟨r.run - 1, List.mem_range.mpr (by omega), by omega⟩

theorem pairwise_recordedRuns (rs : List (Outcome F)) (runs : ℕ) (cond : Str) :
    (recordedRuns rs runs cond).Pairwise (· < ·) := by
  refine List.Pairwise.sublist List.filter_sublist ?_
  rw [List.pairwise_map]
  exact List.pairwise_lt_range.imp fun h => Nat.add_lt_add_right h 1

/-- A file is named after a run in which something was recorded, and holds that. -/
theorem file_spec {U : Unicode} (hU : U.Lawful) (fl : FloatOps F) (args : ListenerArgs)
    (hruns : runs < 2 ^ 64) (h : Outcomes runs conditions havePrio rs) {out : Str}
    {files : List CsvFile} (hfiles : IsListing fl args out rs files) {file : CsvFile}
    (hfile : file ∈ files) :
    ∃ cond k, file.path.stem = runStem cond k ∧ (runStem cond k).length ≤ maxStrDigits ∧
      parseName U (runStem cond k) = .ok (cond, some (k : ℤ)) ∧ recorded rs cond k ≠ [] ∧
      file.text = csvText fl args (recorded rs cond k) := by
  obtain ⟨p, hp, rfl⟩ := List.mem_map.mp (hfiles.mem_iff.mp hfile)
  obtain ⟨cond, k, -, hstem, hne, htext⟩ :=
    (mem_outDir_iff hU fl args fun r hr => (h.cond_spec hr).1).mp hp
  obtain ⟨r, hr, rfl, rfl, -⟩ := exists_outcome_of_recorded hne
  obtain ⟨hcond, hnewline, hlen⟩ := h.cond_spec hr
  -- a run number below 2^64 has at most 21 digits
  have hk : r.run < 10 ^ 20 := by
    have hle := (h.run_spec hr).2
    omega
  have hdigits : (strOf r.run).length ≤ 21 := length_strOf_le (show 0 < 20 by omega) hk
  have hbound : r.run < 10 ^ maxStrDigits :=
    (Nat.lt_of_le_of_lt (h.run_spec hr).2 hruns).trans_le two_pow_le
  refine ⟨r.cond, r.run, hstem, ?_, ?_, hne, htext⟩
  · have hmax : maxStrDigits = 4300 := rfl
    have hfour : "_run".toList.length = 4 := rfl
    rw [runStem, List.length_append, List.length_append]
    omega
  · rw [parseName_runStem hU hcond hnewline r.run, if_pos hbound]

/-- **A file that loads** is loaded as the run in its name, with what was recorded there. -/
theorem read_spec {U : Unicode} (hU : U.Lawful) {fl : FloatOps F} (hfl : fl.Exact)
    (hruns : runs < 2 ^ 64) (h : Outcomes runs conditions havePrio rs)
    (hfits : RecordedFits args rs) {out : Str} {files : List CsvFile}
    (hfiles : IsListing fl args out rs files) {file : CsvFile} (hfile : file ∈ files)
    {run : Run F} (hload : file.load U fl = .ok run) :
    ∃ cond k, file.path.stem = runStem cond k ∧ recorded rs cond k ≠ [] ∧
      run.condition = cond ∧ run.runIndex = some (k : ℤ) ∧
      run.Reads args (recorded rs cond k) := by
  obtain ⟨cond, k, hstem, -, hparsed, hne, htext⟩ := h.file_spec hU fl args hruns hfiles hfile
  have hname := name_of_load hload
  rw [hstem, hparsed] at hname
  obtain ⟨hcond, hindex⟩ := Prod.mk.inj (Except.ok.inj hname)
  rw [CsvFile.load, htext] at hload
  exact ⟨cond, k, hstem, hne, hcond.symm, hindex.symm,
    reads_of_loadCsv hU hfl (hfits cond k) hload⟩

/-- **Every file is loaded**, if what was recorded can be read back. -/
theorem exists_load {U : Unicode} (hU : U.Lawful) {fl : FloatOps F} (hfl : fl.Exact)
    (hruns : runs < 2 ^ 64) (h : Outcomes runs conditions havePrio rs)
    (hfits : RecordedFits args rs) (hloads : RecordedLoads fl rs) {out : Str}
    {files : List CsvFile} (hfiles : IsListing fl args out rs files) {file : CsvFile}
    (hfile : file ∈ files) : ∃ run, file.load U fl = .ok run := by
  obtain ⟨cond, k, hstem, hshort, -, hne, htext⟩ := h.file_spec hU fl args hruns hfiles hfile
  rw [← hstem] at hshort
  obtain ⟨run, hload, -⟩ := (loadCsv_csvText_iff hU hfl hshort hne (hfits cond k)
    fun row hrow => (hloads cond k row hrow).2).mpr fun row hrow => (hloads cond k row hrow).1
  exact ⟨run, by rw [CsvFile.load, htext]; exact hload⟩

end Outcomes

/-! ### The cells -/

/-- The runs of a cell are those with rows, by number, each with what was recorded there. -/
def Cell.Holds (args : ListenerArgs) (runs : ℕ) (rs : List (Outcome F)) (cell : Cell F) : Prop :=
  List.Forall₂ (fun (k : ℕ) run => run.runIndex = some (k : ℤ) ∧
      run.Reads args (recorded rs cell.condition k))
    (recordedRuns rs runs cell.condition) cell.runs

section

variable {U : Unicode} (hU : U.Lawful) {fl : FloatOps F} (hfl : fl.Exact) {args : ListenerArgs}
  {runs : ℕ} (hruns : runs < 2 ^ 64) {conditions : List Str} {havePrio : Bool}
  {rs : List (Outcome F)} (hrs : Outcomes runs conditions havePrio rs)
  (hfits : RecordedFits args rs) {out : Str} {files : List CsvFile}
  (hfiles : IsListing fl args out rs files)
include hU hfl hruns hrs hfits hfiles

/-- What a loaded run is. -/
theorem loaded_spec {loaded : List (Run F)} (h : files.mapM (CsvFile.load U fl) = .ok loaded)
    {run : Run F} (hrun : run ∈ loaded) :
    ∃ k : ℕ, run.runIndex = some (k : ℤ) ∧ recorded rs run.condition k ≠ [] ∧
      run.Reads args (recorded rs run.condition k) := by
  obtain ⟨file, hfile, hload⟩ := (mem_of_mapM h).mp hrun
  obtain ⟨cond, k, -, hne, rfl, hindex, hreads⟩ :=
    hrs.read_spec hU hfl hruns hfits hfiles hfile hload
  exact ⟨k, hindex, hne, hreads⟩

/-- What was recorded is loaded. -/
theorem mem_loaded {loaded : List (Run F)} (h : files.mapM (CsvFile.load U fl) = .ok loaded)
    {cond : Str} {k : ℕ} (hne : recorded rs cond k ≠ []) :
    ∃ run ∈ loaded, run.condition = cond ∧ run.runIndex = some (k : ℤ) := by
  have hcond : cond ≠ [] := by
    obtain ⟨r, hr, rfl, -⟩ := exists_outcome_of_recorded hne
    exact (hrs.cond_spec hr).1
  have hentry := (mem_outDir_iff hU fl args fun r hr => (hrs.cond_spec hr).1).mpr
    ⟨cond, k, hcond, rfl, hne, rfl⟩
  have hfile := hfiles.mem_iff.mpr (List.mem_map.mpr ⟨_, hentry, rfl⟩)
  obtain ⟨run, hload⟩ := exists_mapM_eq_ok_iff.mp ⟨_, h⟩ _ hfile
  obtain ⟨cond', k', hstem, hne', hcond', hindex, -⟩ :=
    hrs.read_spec hU hfl hruns hfits hfiles hfile hload
  obtain ⟨r, hr, hrcond, -⟩ := exists_outcome_of_recorded hne'
  obtain ⟨rfl, rfl⟩ := runStem_inj hU hcond (hrcond ▸ (hrs.cond_spec hr).1) hstem
  exact ⟨run, (mem_of_mapM h).mpr ⟨_, hfile, hload⟩, hcond', hindex⟩

/-- No two loaded runs have the same condition and the same number. -/
theorem nodup_loaded {loaded : List (Run F)}
    (h : files.mapM (CsvFile.load U fl) = .ok loaded) :
    (loaded.map fun r => (r.condition, r.runIndex)).Nodup := by
  have hstems : (files.map fun file => file.path.stem).Nodup := by
    have hperm := hfiles.map fun file => file.path.stem
    rw [List.map_map] at hperm
    exact hperm.nodup_iff.mpr (nodup_outDir fl args rs)
  -- the name of a file is made of the condition and the number of its run
  have hnames : loaded.map (fun r => runStem r.condition (r.runIndex.getD 0).toNat)
      = files.map fun file => file.path.stem := by
    refine map_of_mapM h fun file hfile run hload => ?_
    obtain ⟨cond, k, hstem, -, rfl, hindex, -⟩ :=
      hrs.read_spec hU hfl hruns hfits hfiles hfile hload
    rw [hstem, hindex]
    rfl
  rw [← hnames] at hstems
  have hkeys : loaded.map (fun r => runStem r.condition (r.runIndex.getD 0).toNat)
      = (loaded.map fun r => (r.condition, r.runIndex)).map
        fun p => runStem p.1 (p.2.getD 0).toNat := by
    rw [List.map_map]
    rfl
  rw [hkeys] at hstems
  exact hstems.of_map _

/-- **A cell holds what was recorded**, by number. -/
theorem holds_cell {loaded : List (Run F)}
    (h : (sortedPaths files).mapM (CsvFile.load U fl) = .ok loaded) {cell : Cell F}
    (hcell : cell ∈ cells (groups loaded)) : cell.Holds args runs rs := by
  have hsorted : IsListing fl args out rs (sortedPaths files) :=
    (List.perm_insertionSort _ files).trans hfiles
  have hdataset := isDataset_cells loaded
  have hperm := hdataset.runs_perm cell hcell
  have hmem : ∀ {run}, run ∈ cell.runs ↔ run ∈ loaded ∧ run.condition = cell.condition := by
    intro run
    rw [hperm.mem_iff, List.mem_filter, decide_eq_true_iff]
  -- each run has its number and its rows
  have hspec : ∀ run ∈ cell.runs, run.runIndex = some ((run.runIndex.getD 0).toNat : ℤ) ∧
      recorded rs cell.condition (run.runIndex.getD 0).toNat ≠ [] ∧
      run.Reads args (recorded rs cell.condition (run.runIndex.getD 0).toNat) := by
    intro run hrun
    obtain ⟨hloaded, hcond⟩ := hmem.mp hrun
    obtain ⟨k, hindex, hne, hreads⟩ := loaded_spec hU hfl hruns hrs hfits hsorted h hloaded
    rw [hindex, ← hcond]
    exact ⟨rfl, hne, hreads⟩
  have hnodup : (cell.runs.map Run.runIndex).Nodup := by
    have hkeys := ((nodup_loaded hU hfl hruns hrs hfits hsorted h).sublist
      ((List.filter_sublist (p := fun r => decide (r.condition = cell.condition))).map _))
    have hfst : (loaded.filter fun r => r.condition = cell.condition).map
        (fun r => (r.condition, r.runIndex))
        = ((loaded.filter fun r => r.condition = cell.condition).map Run.runIndex).map
          fun i => (cell.condition, i) := by
      rw [List.map_map]
      refine List.map_congr_left fun r hr => ?_
      rw [Function.comp_apply, of_decide_eq_true (List.mem_filter.mp hr).2]
    rw [hfst] at hkeys
    exact (hperm.map _).nodup_iff.mpr (hkeys.of_map _)
  have hordered : cell.runs.Pairwise RunBefore := by
    refine runBefore_groups (pairwise_pathLe h) (fun r hr i hi => ?_) (mem_cells_iff.mp hcell)
    obtain ⟨k, hindex, -⟩ := loaded_spec hU hfl hruns hrs hfits hsorted h hr
    rw [hindex] at hi
    rw [← Option.some.inj hi]
    exact Int.natCast_nonneg k
  have hlt : (cell.runs.map fun r => (r.runIndex.getD 0).toNat).Pairwise (· < ·) := by
    rw [List.pairwise_map]
    refine (hordered.and (List.pairwise_map.mp hnodup)).imp_of_mem fun {r s} hr hs hrs' => ?_
    obtain ⟨hbefore, hne⟩ := hrs'
    obtain ⟨hrindex, -⟩ := hspec r hr
    obtain ⟨hsindex, -⟩ := hspec s hs
    rw [hrindex, hsindex] at hne
    rw [RunBefore, hrindex, hsindex] at hbefore
    rcases hbefore with hbefore | ⟨hsame, -⟩
    · exact Int.ofNat_lt.mp hbefore
    · exact absurd (congrArg some hsame) hne
  have hnumbers : cell.runs.map (fun r => (r.runIndex.getD 0).toNat)
      = recordedRuns rs runs cell.condition := by
    refine List.Pairwise.eq_of_mem_iff hlt (Outcomes.pairwise_recordedRuns rs runs _) fun k => ?_
    rw [hrs.mem_recordedRuns_iff, List.mem_map]
    constructor
    · rintro ⟨run, hrun, rfl⟩
      exact (hspec run hrun).2.1
    · intro hne
      obtain ⟨run, hrun, hcond, hindex⟩ := mem_loaded hU hfl hruns hrs hfits hsorted h hne
      exact ⟨run, hmem.mpr ⟨hrun, hcond⟩, by rw [hindex]; rfl⟩
  rw [Cell.Holds, ← hnumbers, List.forall₂_map_left_iff, List.forall₂_same]
  exact fun run hrun => ⟨(hspec run hrun).1, (hspec run hrun).2.2⟩

/-- There is a cell for every condition with a file. -/
theorem mem_conditions_iff {loaded : List (Run F)}
    (h : (sortedPaths files).mapM (CsvFile.load U fl) = .ok loaded) (cond : Str) :
    cond ∈ (groups loaded).map Prod.fst ↔ recordedRuns rs runs cond ≠ [] := by
  have hsorted : IsListing fl args out rs (sortedPaths files) :=
    (List.perm_insertionSort _ files).trans hfiles
  constructor
  · intro hmem
    obtain ⟨⟨c, as⟩, hgroup, rfl⟩ := List.mem_map.mp hmem
    have hcell : (⟨c, as⟩ : Cell F) ∈ cells (groups loaded) := mem_cells_iff.mpr hgroup
    obtain ⟨run, hrun⟩ := List.exists_mem_of_ne_nil _ ((isDataset_cells loaded).runs_ne _ hcell)
    obtain ⟨hloaded, rfl⟩ := condition_of_mem_groups hgroup hrun
    obtain ⟨k, -, hne, -⟩ := loaded_spec hU hfl hruns hrs hfits hsorted h hloaded
    exact List.ne_nil_of_mem (hrs.mem_recordedRuns_iff.mpr hne)
  · intro hne
    obtain ⟨k, hk⟩ := List.exists_mem_of_ne_nil _ hne
    obtain ⟨run, hrun, rfl, -⟩ :=
      mem_loaded hU hfl hruns hrs hfits hsorted h (hrs.mem_recordedRuns_iff.mp hk)
    obtain ⟨cell, hcell, hcond⟩ := (isDataset_cells loaded).exists_cell run hrun
    exact List.mem_map.mpr ⟨_, mem_cells_iff.mp hcell, hcond⟩

/-- **The cells come in the fixed order.** -/
theorem conditions_matrix {loaded : List (Run F)}
    (h : (sortedPaths files).mapM (CsvFile.load U fl) = .ok loaded) :
    (cells (groups loaded)).map Cell.condition
      = knownConditions.filter fun c => !(recordedRuns rs runs c).isEmpty := by
  have hmem := mem_conditions_iff hU hfl hruns hrs hfits hfiles h
  have hrecorded : ∀ c, (!(recordedRuns rs runs c).isEmpty) = true ↔
      c ∈ (groups loaded).map Prod.fst := fun c => by
    rw [hmem]
    simp
  have hknown : ∀ c ∈ (groups loaded).map Prod.fst, c ∈ knownConditions := by
    intro c hc
    obtain ⟨k, hk⟩ := List.exists_mem_of_ne_nil _ ((hmem c).mp hc)
    obtain ⟨r, hr, rfl, -⟩ := exists_outcome_of_recorded (hrs.mem_recordedRuns_iff.mp hk)
    exact mem_knownConditions (hrs.known r hr)
  obtain ⟨hgroups, others, heq, hlt, hnot⟩ := cellsOf_cells (nodup_groups loaded)
  have hcells : ∀ c, c ∈ (cells (groups loaded)).map Cell.condition ↔
      c ∈ (groups loaded).map Prod.fst := fun c => by
    have hperm := hgroups.map Prod.fst
    rw [List.map_map] at hperm
    exact hperm.mem_iff
  -- what is not in the fixed order is the one condition without a place in it
  have hothers : others
      = ["prio_noclsf".toList].filter fun c => !(recordedRuns rs runs c).isEmpty := by
    refine List.Pairwise.eq_of_mem_iff hlt
      ((List.pairwise_singleton _ _).sublist List.filter_sublist) fun c => ?_
    rw [List.mem_filter, hrecorded, List.mem_singleton]
    constructor
    · intro hc
      have hgroup : c ∈ (groups loaded).map Prod.fst := by
        rw [← hcells, heq]
        exact List.mem_append_right _ hc
      rcases List.mem_append.mp (hknown c hgroup) with hin | hin
      · exact absurd hin (hnot c hc)
      · exact ⟨List.mem_singleton.mp hin, hgroup⟩
    · rintro ⟨rfl, hgroup⟩
      rw [← hcells, heq] at hgroup
      rcases List.mem_append.mp hgroup with hin | hin
      · exact absurd (List.mem_of_mem_filter hin) (by decide)
      · exact hin
  have hfirst : (conditionOrder.filter fun c => ((groups loaded).map Prod.fst).contains c)
      = conditionOrder.filter fun c => !(recordedRuns rs runs c).isEmpty := by
    refine List.filter_congr fun c _ => ?_
    rw [Bool.eq_iff_iff, List.contains_iff_mem, hrecorded]
  rw [heq, hothers, hfirst, knownConditions, List.filter_append]

end

/-- **From the test matrix to the dataset.**  For any number of rounds, any list of conditions
(also one that names a condition twice), wherever the script stops, whatever runs received
nothing, and in whatever order the directory is listed: if what was recorded can be read back,
every file is loaded, there is a cell for every condition with a file, in the fixed order, and
it holds the runs in which something was received, by number, each with the rows that were
recorded there last. -/
theorem matrix_dataset {U : Unicode} (hU : U.Lawful) {fl : FloatOps F} (hfl : fl.Exact)
    {args : ListenerArgs} {runs : ℕ} (hruns : runs < 2 ^ 64) {conditions : List Str}
    {havePrio : Bool} {rs : List (Outcome F)} (hrs : Outcomes runs conditions havePrio rs)
    (hfits : RecordedFits args rs) (hloads : RecordedLoads fl rs) (out : Str)
    {files : List CsvFile} (hfiles : IsListing fl args out rs files) :
    ∃ cs, buildDataset U fl files = .ok cs ∧
      cs.map Cell.condition
        = (knownConditions.filter fun c => !(recordedRuns rs runs c).isEmpty) ∧
      ∀ cell ∈ cs, cell.Holds args runs rs := by
  have hload : ∀ file ∈ sortedPaths files, ∃ run : Run F, file.load U fl = .ok run :=
    fun file hfile => hrs.exists_load hU hfl hruns hfits hloads hfiles
      ((List.mem_insertionSort _).mp hfile)
  obtain ⟨loaded, hloaded⟩ := exists_mapM_eq_ok_iff.mpr hload
  refine ⟨cells (groups loaded), ?_, conditions_matrix hU hfl hruns hrs hfits hfiles hloaded,
    fun cell hcell => holds_cell hU hfl hruns hrs hfits hfiles hloaded hcell⟩
  rw [buildDataset, discover, hloaded]
  rfl

/-- Two rounds of two conditions: the second round of the second received nothing, and the
directory is listed backwards. -/
theorem matrix_dataset_two_rounds :
    let row : Row ℤ := ⟨7, 1000, 2000, 1, 0, 64, none, none⟩
    let rs : List (Outcome ℤ) :=
      [⟨"prio_clsf".toList, 1, [row]⟩, ⟨"fifo".toList, 1, [row, row]⟩,
        ⟨"prio_clsf".toList, 2, []⟩, ⟨"fifo".toList, 2, [row]⟩]
    ∃ cs, buildDataset asciiTable FloatOps.whole
        ((outDir FloatOps.whole ⟨1000000, false, false, .little⟩ rs).map fun p =>
          (⟨csvPath "runs".toList p.1, p.2⟩ : CsvFile)).reverse = .ok cs ∧
      cs.map Cell.condition = ["fifo".toList, "prio_clsf".toList] ∧
      ∀ cell ∈ cs, cell.Holds ⟨1000000, false, false, .little⟩ 2 rs := by
  intro row rs
  have hrs : Outcomes 2 ["prio_clsf".toList, "fifo".toList] true rs := ⟨by decide, by decide⟩
  -- every recorded row is the one row of the example
  have hrow : ∀ cond run, ∀ row' ∈ recorded rs cond run, row' = row := by
    refine forall_recorded fun r hr row' hrow' => ?_
    simp only [rs, List.mem_cons, List.not_mem_nil, or_false] at hr
    rcases hr with rfl | rfl | rfl | rfl
    · exact List.mem_singleton.mp hrow'
    · simpa using hrow'
    · exact absurd hrow' List.not_mem_nil
    · exact List.mem_singleton.mp hrow'
  have hfits : RecordedFits ⟨1000000, false, false, .little⟩ rs := by
    intro cond run row' hrow'
    rw [hrow cond run row' hrow']
    exact ⟨by decide, by decide, by decide, by decide, fun h => absurd h (by decide),
      fun h => absurd h (by decide)⟩
  have hloads : RecordedLoads FloatOps.whole rs := by
    intro cond run row' hrow'
    rw [hrow cond run row' hrow']
    exact ⟨by decide, by decide, by decide⟩
  obtain ⟨cs, hcs, hconditions, hholds⟩ := matrix_dataset asciiTable_lawful FloatOps.whole_exact
    (by decide) hrs hfits hloads "runs".toList (List.reverse_perm _)
  exact ⟨cs, hcs, hconditions.trans (by decide), hholds⟩

end TsPacket
