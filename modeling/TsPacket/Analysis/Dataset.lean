import Mathlib.Data.Char
import Mathlib.Data.List.Lex
import Mathlib.Data.List.Sort
import TsPacket.Analysis.Loader
import TsPacket.Analysis.Metrics
import TsPacket.Lib.OrderedDict

/-!
# The dataset

`discover` of `analysis/tsn_analysis/loader.py` and `analysis/tsn_analysis/dataset.py`: the
files of a directory, loaded in the order of their paths and filed under their conditions.

## Main definitions

* `discover` — the groups of runs.
* `Cell` — the runs of one condition, with their pooled samples.
* `buildDataset` — the cells, those of the testbed first.

## Main results

* `buildDataset_isDataset` — **if every file loads, every run is in the cell of its
  condition**, and in no other.
-/

namespace TsPacket

open OrderedDict PyText Raise

variable {F : Type}

/-! ### Groups -/

/-- A file of a results directory, with its content. -/
structure CsvFile where
  path : CsvPath
  text : List Char

/-- `load_csv` of a file. -/
def CsvFile.load (U : Unicode) (fl : FloatOps F) (file : CsvFile) : Except LoadError (Run F) :=
  loadCsv U fl file.path file.text

/-- `sorted(Path(directory).glob("*.csv"))`. -/
def sortedPaths (files : List CsvFile) : List CsvFile :=
  files.insertionSort fun a b => a.path.text ≤ b.path.text

/-- The key of `runs.sort`: a run without an index comes first. -/
def runKey (r : Run F) : ℤ := r.runIndex.getD (-1)

/-- The runs filed under their conditions, and each group sorted. -/
def groups (runs : List (Run F)) : List (Str × List (Run F)) :=
  (groupBy Run.condition runs).map fun g =>
    (g.1, g.2.insertionSort fun r s => runKey r ≤ runKey s)

/-- The first file that does not load ends it. -/
def discover (U : Unicode) (fl : FloatOps F) (files : List CsvFile) :
    Except LoadError (List (Str × List (Run F))) :=
  ((sortedPaths files).mapM (CsvFile.load U fl)).map groups

/-! ### Cells -/

/-- `CONDITION_ORDER`. -/
def conditionOrder : List Str :=
  ["fifo".toList, "fq_codel".toList, "pfifo_fast_noclsf".toList, "pfifo_fast_clsf".toList,
    "prio_clsf".toList]

/-- All runs of one condition. -/
structure Cell (F : Type) where
  condition : Str
  runs : List (Run F)

namespace Cell

variable (np : Numpy.Ops F) (cell : Cell F)

/-- `Cell.latency_ms`. -/
def latencyMs : Except Numpy.Error (List F) :=
  Numpy.concatenate (cell.runs.map Run.latencyMs)

/-- `Cell.jitter_us`. -/
def jitterUs : Except Numpy.Error (List F) :=
  Numpy.concatenate (cell.runs.map fun r => jitterValues np r.jitterUs)

/-- `Cell.n_runs`. -/
def nRuns : ℕ := cell.runs.length

end Cell

/-- `_order`. -/
def order (condition : Str) : ℕ × Str :=
  if conditionOrder.contains condition then (conditionOrder.idxOf condition, [])
  else (conditionOrder.length, condition)

/-- The order of the pairs, by their first components first. -/
def orderLe (a b : Str) : Bool :=
  (order a).1 < (order b).1 || ((order a).1 == (order b).1 && (order a).2 ≤ (order b).2)

/-- The cells of the groups, in the order of the conditions. -/
def cells (groups : List (Str × List (Run F))) : List (Cell F) :=
  (groups.insertionSort fun g h => orderLe g.1 h.1).map fun g =>
    { condition := g.1, runs := g.2 }

/-- The dictionary of the cells; each has its condition with it. -/
def buildDataset (U : Unicode) (fl : FloatOps F) (files : List CsvFile) :
    Except LoadError (List (Cell F)) :=
  (discover U fl files).map cells

/-! ### The runs of a dataset -/

/-- The cells hold the runs, each in the cell of its condition. -/
structure IsDataset (runs : List (Run F)) (cells : List (Cell F)) : Prop where
  nodup : (cells.map Cell.condition).Nodup
  runs_perm : ∀ cell ∈ cells, cell.runs.Perm (runs.filter fun r => r.condition = cell.condition)
  runs_ne : ∀ cell ∈ cells, cell.runs ≠ []
  exists_cell : ∀ r ∈ runs, ∃ cell ∈ cells, cell.condition = r.condition

/-- The order in which the files were loaded does not matter. -/
theorem IsDataset.perm {runs runs' : List (Run F)} {cells : List (Cell F)}
    (h : IsDataset runs' cells) (hperm : runs'.Perm runs) : IsDataset runs cells where
  nodup := h.nodup
  runs_perm cell hcell := (h.runs_perm cell hcell).trans (hperm.filter _)
  runs_ne := h.runs_ne
  exists_cell r hr := h.exists_cell r (hperm.mem_iff.mpr hr)

theorem mem_cells_iff {gs : List (Str × List (Run F))} {cell : Cell F} :
    cell ∈ cells gs ↔ (cell.condition, cell.runs) ∈ gs := by
  rw [cells, List.mem_map]
  constructor
  · rintro ⟨g, hg, rfl⟩
    exact (List.perm_insertionSort _ gs).mem_iff.mp hg
  · exact fun h => ⟨_, (List.perm_insertionSort _ gs).mem_iff.mpr h, rfl⟩

theorem mem_groups_iff {runs : List (Run F)} {c : Str} {rs : List (Run F)} :
    (c, rs) ∈ groups runs ↔ ∃ as, (c, as) ∈ groupBy Run.condition runs ∧
      rs = as.insertionSort fun r s => runKey r ≤ runKey s := by
  rw [groups, List.mem_map]
  constructor
  · rintro ⟨⟨c', as⟩, has, heq⟩
    cases heq
    exact ⟨as, has, rfl⟩
  · rintro ⟨as, has, rfl⟩
    exact ⟨(c, as), has, rfl⟩

theorem nodup_conditions_cells (runs : List (Run F)) :
    ((cells (groups runs)).map Cell.condition).Nodup := by
  have hperm : ((cells (groups runs)).map Cell.condition).Perm
      ((groupBy Run.condition runs).map Prod.fst) := by
    rw [cells, List.map_map]
    have hgroups : (groups runs).map Prod.fst = (groupBy Run.condition runs).map Prod.fst := by
      rw [groups, List.map_map]
      rfl
    rw [← hgroups]
    exact (List.perm_insertionSort _ (groups runs)).map Prod.fst
  exact hperm.nodup_iff.mpr (nodup_groupBy runs)

theorem isDataset_cells (runs : List (Run F)) : IsDataset runs (cells (groups runs)) where
  nodup := nodup_conditions_cells runs
  runs_perm cell hcell := by
    obtain ⟨as, has, hrs⟩ := mem_groups_iff.mp (mem_cells_iff.mp hcell)
    rw [hrs, ← (mem_groupBy_iff.mp has).2]
    exact List.perm_insertionSort _ as
  runs_ne cell hcell := by
    obtain ⟨as, has, hrs⟩ := mem_groups_iff.mp (mem_cells_iff.mp hcell)
    rw [hrs]
    intro hnil
    have hlen := (List.perm_insertionSort (fun r s : Run F => runKey r ≤ runKey s) as).length_eq
    rw [hnil] at hlen
    exact (mem_groupBy_iff.mp has).1 (List.length_eq_zero_iff.mp hlen.symm)
  exists_cell r hr := by
    have hne : (runs.filter fun s => s.condition = r.condition) ≠ [] :=
      List.ne_nil_of_mem (List.mem_filter.mpr ⟨hr, decide_eq_true rfl⟩)
    exact ⟨⟨r.condition, _⟩, mem_cells_iff.mpr (mem_groups_iff.mpr
      ⟨_, mem_groupBy_iff.mpr ⟨hne, rfl⟩, rfl⟩), rfl⟩

/-- **The dataset of files that load holds their runs**, each in the cell of its condition. -/
theorem buildDataset_isDataset {U : Unicode} {fl : FloatOps F} {files : List CsvFile}
    {runs : List (Run F)} (h : files.mapM (CsvFile.load U fl) = .ok runs) :
    ∃ cells, buildDataset U fl files = .ok cells ∧ IsDataset runs cells := by
  have hfiles : (sortedPaths files).Perm files := List.perm_insertionSort _ files
  obtain ⟨sorted, hsorted, hperm⟩ := mapM_perm hfiles h
  refine ⟨cells (groups sorted), ?_, (isDataset_cells sorted).perm hperm⟩
  rw [buildDataset, discover, hsorted]
  rfl

end TsPacket
