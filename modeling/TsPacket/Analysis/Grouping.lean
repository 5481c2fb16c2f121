import Mathlib.Data.Prod.Lex
import TsPacket.Analysis.RunNames
import TsPacket.Analysis.Summarised
import TsPacket.Lib.StableSort

/-!
# No run is lost or put in the wrong group

From the files of a directory to the tables of its summary every run keeps its place: the
groups hold the runs of all files, each under the condition in its name and in the order of
the indices; the dataset has the same groups, those of the testbed first; the summary has an
entry for every group and a comparison for every group but the baseline.

## Main definitions

* `RunBefore` — the order of the runs in a group.

## Main results

* `runBefore_groups` — a group is ordered by index, and by path where the index is the same.
* `conditions_cells` — the testbed's conditions come first, the others after them in order.
* `summarise_entries` — the entries of a summary are those of the cells.
* `dataset_keeps_runs` — **all of it, for every directory.**
-/

namespace TsPacket

open OrderedDict PyText Raise StableSort

variable {F : Type}

/-! ### The order of runs -/

/-- The path of one run does not come after that of another. -/
def PathLe (r s : Run F) : Prop :=
  ∃ p q, r.path = some p ∧ s.path = some q ∧ p.text ≤ q.text

/-- By index, those without one first; by path where the index is the same. -/
def RunBefore (r s : Run F) : Prop :=
  match r.runIndex, s.runIndex with
  | none, some _ => True
  | some _, none => False
  | none, none => PathLe r s
  | some i, some j => i < j ∨ i = j ∧ PathLe r s

/-- The sort key orders runs so, as no index is negative. -/
theorem runBefore_of_keyThen {r s : Run F} (hr : ∀ i, r.runIndex = some i → 0 ≤ i)
    (h : KeyThen runKey PathLe r s) : RunBefore r s := by
  unfold KeyThen runKey at h
  unfold RunBefore
  cases hi : r.runIndex with
  | none =>
    cases hj : s.runIndex with
    | none => simpa [hi, hj] using h
    | some j => trivial
  | some i =>
    cases hj : s.runIndex with
    | none =>
      have hpos := hr i hi
      simp only [hi, hj, Option.getD_some, Option.getD_none] at h
      rcases h with h | ⟨h, -⟩ <;> omega
    | some j => simpa [hi, hj] using h

/-! ### Groups -/

section

variable {U : Unicode} {fl : FloatOps F} {files : List CsvFile} {file : CsvFile} {r : Run F}

theorem path_of_load (h : file.load U fl = .ok r) : r.path = some file.path :=
  (Loaded.of_loadCsv h).path_eq

theorem name_of_load (h : file.load U fl = .ok r) :
    parseName U file.path.stem = .ok (r.condition, r.runIndex) :=
  (Loaded.of_loadCsv h).name

/-- No index in a name is negative. -/
theorem index_nonneg (hU : U.Lawful) (h : file.load U fl = .ok r) {i : ℤ}
    (hi : r.runIndex = some i) : 0 ≤ i := by
  have hname := name_of_load h
  rw [hi] at hname
  obtain ⟨ds, -, n, -, rfl⟩ := parseName_eq_some hU hname
  exact Int.natCast_nonneg n

/-- The runs come in the order of their paths. -/
theorem pairwise_pathLe {runs : List (Run F)}
    (h : (sortedPaths files).mapM (CsvFile.load U fl) = .ok runs) : runs.Pairwise PathLe := by
  have hsorted : (sortedPaths files).Pairwise fun a b => a.path.text ≤ b.path.text := by
    have hkey := pairwise_insertionSort_keyThen (f := fun file : CsvFile => file.path.text)
      (fun a b => Iff.rfl) (List.pairwise_of_forall (l := files) (R := fun _ _ => True)
        fun _ _ => trivial)
    exact hkey.imp fun h => h.key_le
  exact pairwise_of_mapM h hsorted fun a a' r r' hle ha ha' =>
    ⟨_, _, path_of_load ha, path_of_load ha', hle⟩

end

/-- **A group is ordered by index**, and by path where the index is the same. -/
theorem runBefore_groups {runs : List (Run F)} (hpath : runs.Pairwise PathLe)
    (hindex : ∀ r ∈ runs, ∀ i, r.runIndex = some i → 0 ≤ i) {c : Str} {rs : List (Run F)}
    (h : (c, rs) ∈ groups runs) : rs.Pairwise RunBefore := by
  obtain ⟨as, has, rfl⟩ := mem_groups_iff.mp h
  have hsub : as.Sublist runs := by
    rw [(mem_groupBy_iff.mp has).2]
    exact List.filter_sublist
  have hsorted := pairwise_insertionSort_keyThen (r := fun r s => runKey r ≤ runKey s)
    (fun r s => Iff.rfl) (hpath.sublist hsub)
  refine hsorted.imp_of_mem fun {r s} hr _ hkey => runBefore_of_keyThen (hindex r ?_) hkey
  exact hsub.subset ((List.mem_insertionSort _).mp hr)

/-- **The groups together hold all runs**, each once. -/
theorem flatMap_groups_perm (runs : List (Run F)) :
    ((groups runs).flatMap Prod.snd).Perm runs := by
  rw [groups, List.flatMap_map]
  exact (List.Perm.flatMap_left _ fun g _ => List.perm_insertionSort _ g.2).trans
    (flatMap_groupBy_perm runs)

theorem condition_of_mem_groups {runs : List (Run F)} {c : Str} {rs : List (Run F)}
    (h : (c, rs) ∈ groups runs) {r : Run F} (hr : r ∈ rs) : r ∈ runs ∧ r.condition = c := by
  obtain ⟨as, has, rfl⟩ := mem_groups_iff.mp h
  have hmem := (List.mem_insertionSort _).mp hr
  rw [(mem_groupBy_iff.mp has).2, List.mem_filter, decide_eq_true_iff] at hmem
  exact hmem

theorem nodup_groups (runs : List (Run F)) : ((groups runs).map Prod.fst).Nodup := by
  have hfst : (groups runs).map Prod.fst = (groupBy Run.condition runs).map Prod.fst := by
    simp [groups]
  rw [hfst]
  exact nodup_groupBy runs

/-! ### The order of conditions -/

theorem order_of_mem {c : Str} (h : c ∈ conditionOrder) :
    order c = (conditionOrder.idxOf c, []) := if_pos (List.contains_iff_mem.mpr h)

theorem order_of_not_mem {c : Str} (h : c ∉ conditionOrder) :
    order c = (conditionOrder.length, c) := if_neg (mt List.contains_iff_mem.mp h)

theorem orderLe_iff (a b : Str) : orderLe a b = true ↔ toLex (order a) ≤ toLex (order b) := by
  rw [Prod.Lex.toLex_le_toLex, orderLe]
  simp

/-- Conditions of the testbed come before others. -/
theorem order_lt {a b : Str} (ha : a ∈ conditionOrder) (hb : b ∉ conditionOrder) :
    toLex (order a) < toLex (order b) := by
  rw [order_of_mem ha, order_of_not_mem hb, Prod.Lex.toLex_lt_toLex]
  exact Or.inl (List.idxOf_lt_length_iff.mpr ha)

theorem order_injective : Function.Injective order := by
  intro a b h
  by_cases ha : a ∈ conditionOrder
  · by_cases hb : b ∈ conditionOrder
    · rw [order_of_mem ha, order_of_mem hb] at h
      exact (List.idxOf_inj ha).mp (Prod.mk.inj h).1
    · exact absurd (congrArg toLex h) (ne_of_lt (order_lt ha hb))
  · by_cases hb : b ∈ conditionOrder
    · exact absurd (congrArg toLex h) (ne_of_gt (order_lt hb ha))
    · rw [order_of_not_mem ha, order_of_not_mem hb] at h
      exact (Prod.mk.inj h).2

/-- The conditions of the testbed are in their order. -/
theorem conditionOrder_pairwise :
    conditionOrder.Pairwise fun a b => toLex (order a) ≤ toLex (order b) := by
  have hlt : conditionOrder.Pairwise fun a b => (order a).1 < (order b).1 := by decide
  exact hlt.imp fun h => Prod.Lex.toLex_le_toLex.mpr (Or.inl h)

/-- **A sorted list of conditions**: those of the testbed in their order, and the others
after them in alphabetical order. -/
theorem eq_known_append {conds : List Str} (hnodup : conds.Nodup)
    (hsorted : conds.Pairwise fun a b => toLex (order a) ≤ toLex (order b)) :
    ∃ others, conds = (conditionOrder.filter fun c => conds.contains c) ++ others ∧
      others.Pairwise (· < ·) ∧ ∀ c ∈ others, c ∉ conditionOrder := by
  have hothers : ∀ c ∈ conds.filter (fun c => !conditionOrder.contains c), c ∉ conditionOrder := by
    intro c hc
    simpa using (List.mem_filter.mp hc).2
  refine ⟨conds.filter fun c => !conditionOrder.contains c, ?_, ?_, hothers⟩
  · refine List.Perm.eq_of_pairwise (fun a b _ _ hab hba =>
      order_injective (toLex.injective (le_antisymm hab hba))) hsorted ?_ ?_
    · refine List.pairwise_append.mpr ⟨conditionOrder_pairwise.sublist List.filter_sublist,
        hsorted.sublist List.filter_sublist, fun a ha b hb => ?_⟩
      exact le_of_lt (order_lt (List.mem_of_mem_filter ha) (hothers b hb))
    · -- the two lists have the same members, each once
      have hknown : (conditionOrder.filter fun c => conds.contains c).Nodup :=
        List.Nodup.filter _ (by decide)
      refine (List.perm_ext_iff_of_nodup hnodup (hknown.append (hnodup.filter _)
        fun c hc hc' => hothers c hc' (List.mem_of_mem_filter hc))).mpr fun c => ?_
      by_cases hc : c ∈ conditionOrder <;> simp [hc]
  · have hboth := (hsorted.sublist (List.filter_sublist
      (p := fun c => !conditionOrder.contains c))).and (hnodup.filter _)
    refine hboth.imp_of_mem fun {a b} ha hb h => lt_of_le_of_ne ?_ h.2
    have hle := h.1
    rw [order_of_not_mem (hothers a ha), order_of_not_mem (hothers b hb),
      Prod.Lex.toLex_le_toLex] at hle
    simpa using hle

/-- **The testbed's conditions come first**, and the others after them in order. -/
theorem conditions_cells {gs : List (Str × List (Run F))} (hnodup : (gs.map Prod.fst).Nodup) :
    ∃ others, (cells gs).map Cell.condition
        = (conditionOrder.filter fun c => (gs.map Prod.fst).contains c) ++ others ∧
      others.Pairwise (· < ·) ∧ ∀ c ∈ others, c ∉ conditionOrder := by
  have hperm : ((cells gs).map Cell.condition).Perm (gs.map Prod.fst) := by
    rw [cells, List.map_map]
    exact (List.perm_insertionSort _ gs).map Prod.fst
  have hsorted : ((cells gs).map Cell.condition).Pairwise
      fun a b => toLex (order a) ≤ toLex (order b) := by
    have hkey := pairwise_insertionSort_keyThen (f := fun g => toLex (order g.1))
      (r := fun g h => orderLe g.1 h.1 = true) (fun g h => orderLe_iff g.1 h.1)
      (List.pairwise_of_forall (l := gs) (R := fun _ _ => True) fun _ _ => trivial)
    rw [cells, List.map_map, List.pairwise_map]
    exact hkey.imp fun h => h.key_le
  obtain ⟨others, heq, hlt, hnot⟩ := eq_known_append (hperm.nodup_iff.mpr hnodup) hsorted
  refine ⟨others, ?_, hlt, hnot⟩
  conv_lhs => rw [heq]
  congr 1
  refine List.filter_congr fun c _ => ?_
  rw [Bool.eq_iff_iff, List.contains_iff_mem, List.contains_iff_mem, hperm.mem_iff]

/-! ### Entries of the summary -/

/-- The entries of a summary are those of the cells: one for each, and a comparison with the
baseline for each other one. -/
structure Summary.Covers [LinearOrder F] (np : Numpy.Ops F) (args : SummaryArgs)
    (cs : List (Cell F)) (s : Summary F) : Prop where
  conditions : s.conditions = cs.map Cell.condition
  cells : List.Forall₂ (fun cell e => cellSummary np cell args.method args.ci = .ok e) cs s.cells
  comparisons : ∃ base ∈ cs, base.condition = s.baseline ∧
    List.Forall₂ (fun other d => d.condition = other.condition ∧ d.baseline = base.condition ∧
        compareCells np base other args.nBoot args.ci args.seed args.method = .ok d.metrics)
      (cs.filter fun cell => cell.condition ≠ s.baseline) s.comparisons

/-- **The entries of a summary are those of the cells.** -/
theorem summarise_entries [LinearOrder F] {np : Numpy.Ops F} {args : SummaryArgs}
    {resultsDir : Str} {cs : List (Cell F)} (hnodup : (cs.map Cell.condition).Nodup)
    {s : Summary F} (h : summarise np args resultsDir cs = .ok s) : s.Covers np args cs := by
  obtain ⟨base, hbase, h⟩ := bind_eq_ok_iff.mp h
  obtain ⟨entries, hentries, h⟩ := bind_eq_ok_iff.mp h
  obtain ⟨comparisons, hcomparisons, h⟩ := bind_eq_ok_iff.mp h
  obtain rfl := Except.ok.inj h
  obtain ⟨baseCell, hmem, rfl⟩ := List.mem_map.mp (chooseBaseline_mem hbase)
  -- names are distinct, so a lookup finds the cell it was asked for
  have hlookup : ∀ cell ∈ cs, lookupCell cs cell.condition = .ok cell :=
    fun cell hcell => lookupCell_of_mem hnodup hcell
  refine ⟨rfl, ?_, baseCell, hmem, rfl, ?_⟩
  · refine forall₂_of_mapM hentries fun cell hcell e he => ?_
    rw [cellEntry, hlookup cell hcell, ok_bind] at he
    exact mapError_eq_ok_iff.mp he
  · -- the conditions compared are those of the cells but the baseline
    have hothers : (cs.map Cell.condition).filter (· ≠ baseCell.condition)
        = (cs.filter fun cell => cell.condition ≠ baseCell.condition).map Cell.condition :=
      List.filter_map
    rw [hothers] at hcomparisons
    refine forall₂_of_mapM hcomparisons fun cell hcell d hd => ?_
    rw [comparisonEntry, hlookup baseCell hmem, hlookup cell (List.mem_of_mem_filter hcell),
      ok_bind, ok_bind] at hd
    obtain ⟨metrics, hmetrics, heq⟩ := bind_eq_ok_iff.mp hd
    obtain rfl := Except.ok.inj heq
    exact ⟨rfl, rfl, mapError_eq_ok_iff.mp hmetrics⟩

/-! ### From the files to the summary -/

/-- The groups hold the runs of the files: each once, under the condition in its name, and in
order. -/
structure GroupsOf (U : Unicode) (fl : FloatOps F) (files : List CsvFile)
    (gs : List (Str × List (Run F))) : Prop where
  runs : ∃ runs, List.Forall₂ (fun file r => file.load U fl = .ok r) files runs ∧
    (gs.flatMap Prod.snd).Perm runs
  nodup : (gs.map Prod.fst).Nodup
  condition : ∀ g ∈ gs, ∀ r ∈ g.2, ∃ file ∈ files, file.load U fl = .ok r ∧
    parseName U file.path.stem = .ok (g.1, r.runIndex)
  ordered : ∀ g ∈ gs, g.2.Pairwise RunBefore

/-- The cells hold the groups, those of the testbed first and in its order, the others after
them in alphabetical order. -/
structure CellsOf (gs : List (Str × List (Run F))) (cs : List (Cell F)) : Prop where
  groups : (cs.map fun cell => (cell.condition, cell.runs)).Perm gs
  conditions : ∃ others, cs.map Cell.condition
      = (conditionOrder.filter fun c => (gs.map Prod.fst).contains c) ++ others ∧
    others.Pairwise (· < ·) ∧ ∀ c ∈ others, c ∉ conditionOrder

theorem groupsOf_groups {U : Unicode} (hU : U.Lawful) {fl : FloatOps F} {files : List CsvFile}
    {runs : List (Run F)} (h : (sortedPaths files).mapM (CsvFile.load U fl) = .ok runs) :
    GroupsOf U fl files (groups runs) where
  runs := by
    have hfiles : files.Perm (sortedPaths files) := (List.perm_insertionSort _ files).symm
    obtain ⟨runs', hruns', hperm⟩ := mapM_perm hfiles h
    exact ⟨runs', mapM_eq_ok_iff.mp hruns', (flatMap_groups_perm runs).trans hperm.symm⟩
  nodup := nodup_groups runs
  condition g hg r hr := by
    obtain ⟨hmem, hcond⟩ := condition_of_mem_groups hg hr
    obtain ⟨file, hfile, hload⟩ := (mem_of_mapM h).mp hmem
    refine ⟨file, (List.mem_insertionSort _).mp hfile, hload, ?_⟩
    rw [← hcond]
    exact name_of_load hload
  ordered g hg := by
    refine runBefore_groups (pairwise_pathLe h) (fun r hr i hi => ?_) hg
    obtain ⟨file, -, hload⟩ := (mem_of_mapM h).mp hr
    exact index_nonneg hU hload hi

theorem cellsOf_cells {gs : List (Str × List (Run F))} (hnodup : (gs.map Prod.fst).Nodup) :
    CellsOf gs (cells gs) where
  groups := by
    rw [cells, List.map_map]
    simpa [Function.comp_def] using List.perm_insertionSort _ gs
  conditions := conditions_cells hnodup

/-- **No run is lost, duplicated or put in the wrong group.**  A directory is read exactly if
every file loads.  The groups then hold the runs of the files, the dataset holds the groups,
and any summary has one entry for each and compares each but the baseline with it once. -/
theorem dataset_keeps_runs [LinearOrder F] {U : Unicode} (hU : U.Lawful) (fl : FloatOps F)
    (np : Numpy.Ops F) (files : List CsvFile) :
    ((∃ gs : List (Str × List (Run F)), discover U fl files = .ok gs) ↔
      ∀ file ∈ files, ∃ r : Run F, file.load U fl = .ok r) ∧
    ∀ gs : List (Str × List (Run F)), discover U fl files = .ok gs → GroupsOf U fl files gs ∧
      ∃ cs, buildDataset U fl files = .ok cs ∧ CellsOf gs cs ∧
        ∀ (args : SummaryArgs) (resultsDir : Str) (s : Summary F),
          buildSummary np U fl args resultsDir files = .ok s → s.Covers np args cs := by
  constructor
  · rw [discover, exists_map_eq_ok_iff, exists_mapM_eq_ok_iff]
    exact forall_congr' fun file => by rw [sortedPaths, List.mem_insertionSort]
  · intro gs h
    obtain ⟨runs, hruns, rfl⟩ := map_eq_ok_iff.mp h
    have hgroups := groupsOf_groups hU hruns
    have hcells := cellsOf_cells hgroups.nodup
    have hdataset : buildDataset U fl files = .ok (cells (groups runs)) := by
      rw [buildDataset, h]
      rfl
    refine ⟨hgroups, cells (groups runs), hdataset, hcells, fun args resultsDir s hs => ?_⟩
    rw [buildSummary, mapError_eq_ok_iff.mpr hdataset, ok_bind] at hs
    exact summarise_entries (nodup_conditions_cells runs) hs

/-- A run without an index and run 9 come before run 10, and a condition that is not the
testbed's after those that are. -/
theorem dataset_keeps_runs_mixed :
    let text := "seq,send_ns,recv_ns,latency_ms,jitter_us,pkt_size\r\n0,1,2,1.0,0.0,64\r\n".toList
    let files : List CsvFile :=
      [⟨⟨"d/aaa_run1.csv".toList, "aaa_run1".toList⟩, text⟩,
        ⟨⟨"d/fifo_run10.csv".toList, "fifo_run10".toList⟩, text⟩,
        ⟨⟨"d/fifo_run9.csv".toList, "fifo_run9".toList⟩, text⟩,
        ⟨⟨"d/fifo.csv".toList, "fifo".toList⟩, text⟩]
    (∃ gs : List (Str × List (Run (WithTop ℚ))),
      discover asciiTable rationalFloats files = .ok gs ∧
        GroupsOf asciiTable rationalFloats files gs) ∧
      (buildDataset asciiTable rationalFloats files).map
          (fun cs => cs.map fun cell => (cell.condition, cell.runs.map Run.name))
        = .ok [("fifo".toList, ["fifo".toList, "fifo_run9".toList, "fifo_run10".toList]),
          ("aaa".toList, ["aaa_run1".toList])] := by
  intro text files
  -- the four files are the same table under different names
  have hload : ∀ file ∈ files, ∃ r : Run (WithTop ℚ),
      file.load asciiTable rationalFloats = .ok r := by
    intro file hfile
    apply (exists_map_eq_ok_iff (f := fun _ => ())).mp
    refine ⟨(), ?_⟩
    revert file
    decide +kernel
  have hkeeps := dataset_keeps_runs asciiTable_lawful rationalFloats Numpy.exact files
  obtain ⟨gs, hgs⟩ := hkeeps.1.mpr hload
  exact ⟨⟨gs, hgs, (hkeeps.2 gs hgs).1⟩, by decide +kernel⟩

end TsPacket
