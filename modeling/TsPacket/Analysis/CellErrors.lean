import TsPacket.Analysis.Columns

/-!
# Malformed files

Whatever the cells of a file hold, the loader returns a run or raises an exception.  The
command line turns a `ValueError` into an exit code; an `OverflowError` or a `csv.Error`
escapes it.  The first is raised for a cell that is an infinite float and for an integer that
does not fit the array, the second for a cell over the limit of the CSV reader, unless
something else in the file is wrong before.

## Main definitions

* `CellInt`, `CellInfinite` — what the text of an integer cell stands for.
* `Reading.Fits`, `Reading.Overflows` — the same of the cells of a column.
* `TableOverflows` — the first column that cannot be converted overflows.
* `FileEscapes` — a cell is over the limit, or the table overflows.
* `mainExit` — what `main` of `analysis/tsn_analysis/cli.py` makes of an exception.

## Main results

* `raises_toInt_iff` — an integer cell overflows if it is an infinite float.
* `raises_column_iff` — a column overflows by a cell, or by an integer too large.
* `raises_loadCsv_iff` — what escapes from loading a file.
* `load_user_error_iff` — **every file loads or is a user error**, unless a cell is over the
  limit or its table overflows.
-/

namespace TsPacket

open PyText Raise

variable {F : Type}

/-! ### The exit code -/

/-- `main` around a handler: a `ValueError` is printed, and every other exception escapes. -/
def mainExit (handler : Except LoadError ℕ) : Except LoadError ℕ :=
  match handler with
  | .ok code => .ok code
  | .error e => if e.isValueError then .ok 2 else .error e

/-- It is not a `ValueError`. -/
def Escapes (e : LoadError) : Prop := e.isValueError = false

theorem mainExit_eq_two {α : Type} {x : Except LoadError α} {e : LoadError} (h : x = .error e)
    (he : e.isValueError = true) (handler : α → Except LoadError ℕ) :
    mainExit (x >>= handler) = .ok 2 := by
  rw [h]
  exact if_pos he

/-! ### Cells -/

section

variable (U : Unicode) (fl : FloatOps F)

/-- The cell stands for an integer: by its digits if it has nothing else behind its signs,
and as a float otherwise. -/
def CellInt (v : Str) (z : ℤ) : Prop :=
  if isdigit U (lstripSigns (strip U v)) then intOf U (strip U v) = some z
  else ∃ x, fl.parse (strip U v) = some x ∧ fl.trunc x = .ok z

/-- The cell is an infinite float. -/
def CellInfinite (v : Str) : Prop :=
  isdigit U (lstripSigns (strip U v)) = false ∧
    ∃ x, fl.parse (strip U v) = some x ∧ fl.trunc x = .error .infinite

end

/-- How the cells of a column of integers are read. -/
structure Reading where
  value : Str → ℤ → Prop
  infinite : Str → Prop

/-- An integer cell, as `_to_int` reads it. -/
def intReading (U : Unicode) (fl : FloatOps F) : Reading where
  value := CellInt U fl
  infinite := CellInfinite U fl

/-- A `tos` cell that is blank stands for `-1`. -/
def tosReading (U : Unicode) (fl : FloatOps F) : Reading where
  value v z := if strip U v = [] then z = -1 else CellInt U fl v z
  infinite v := strip U v ≠ [] ∧ CellInfinite U fl v

/-- The integer fits an `int64` array. -/
def FitsInt64 (z : ℤ) : Prop := -2 ^ 63 ≤ z ∧ z < 2 ^ 63

namespace Reading

variable (R : Reading)

/-- Every cell is an integer that fits. -/
def Fits (cells : List Str) : Prop := ∀ v ∈ cells, ∃ z, R.value v z ∧ FitsInt64 z

/-- The first cell that is not an integer is infinite, or all are integers and one of them
does not fit. -/
def Overflows (cells : List Str) : Prop :=
  First (fun v => ∃ z, R.value v z) R.infinite cells ∨
    (∀ v ∈ cells, ∃ z, R.value v z) ∧ ∃ v ∈ cells, ∃ z, R.value v z ∧ ¬ FitsInt64 z

/-- The conversion `f` reads cells in this way. -/
structure Describes (f : Str → Except LoadError ℤ) : Prop where
  value : ∀ v z, f v = .ok z ↔ R.value v z
  infinite : ∀ v, Raises Escapes (f v) ↔ R.infinite v

end Reading

theorem pyInt_eq_ok_iff {U : Unicode} {v : Str} {z : ℤ} :
    pyInt U v = .ok z ↔ intOf U v = some z := by
  rw [pyInt]
  cases intOf U v with
  | none => constructor <;> intro h <;> cases h
  | some y => exact ⟨fun h => congrArg some (Except.ok.inj h), fun h => congrArg Except.ok
      (Option.some.inj h)⟩

theorem pyFloat_eq_ok_iff {fl : FloatOps F} {v : Str} {x : F} :
    pyFloat fl v = .ok x ↔ fl.parse v = some x := by
  rw [pyFloat]
  cases fl.parse v with
  | none => constructor <;> intro h <;> cases h
  | some y => exact ⟨fun h => congrArg some (Except.ok.inj h), fun h => congrArg Except.ok
      (Option.some.inj h)⟩

theorem not_raises_valueError {α : Type} {e : LoadError} (he : e.isValueError = true) :
    ¬ Raises Escapes (.error e : Except LoadError α) := by
  rw [raises_error, Escapes, he]
  exact Bool.noConfusion

/-- `int` of a text is wrong by its value only. -/
theorem not_raises_pyInt {U : Unicode} {v : Str} : ¬ Raises Escapes (pyInt U v) := by
  rw [pyInt]
  cases intOf U v with
  | none => exact not_raises_valueError rfl
  | some z => exact not_raises_ok

theorem not_raises_pyFloat {fl : FloatOps F} {v : Str} : ¬ Raises Escapes (pyFloat fl v) := by
  rw [pyFloat]
  cases fl.parse v with
  | none => exact not_raises_valueError rfl
  | some x => exact not_raises_ok

theorem toInt_eq_ok_iff {U : Unicode} {fl : FloatOps F} {v : Str} {z : ℤ} :
    toInt U fl v = .ok z ↔ CellInt U fl v z := by
  unfold toInt CellInt
  dsimp only
  split
  · exact pyInt_eq_ok_iff
  · rw [bind_eq_ok_iff]
    simp only [pyFloat_eq_ok_iff]
    refine exists_congr fun x => and_congr_right fun _ => ?_
    cases fl.trunc x with
    | ok y => exact ⟨fun h => congrArg Except.ok (Except.ok.inj h), fun h => congrArg Except.ok
        (Except.ok.inj h)⟩
    | error e => cases e <;> exact ⟨nofun, nofun⟩

/-- **An integer cell overflows** exactly if it is an infinite float. -/
theorem raises_toInt_iff {U : Unicode} {fl : FloatOps F} {v : Str} :
    Raises Escapes (toInt U fl v) ↔ CellInfinite U fl v := by
  unfold toInt CellInfinite
  dsimp only
  split
  -- a text of digits is read by `int`, which raises a `ValueError` only
  case isTrue hdigit =>
    rw [hdigit]
    exact iff_of_false not_raises_pyInt fun h => Bool.noConfusion h.1
  case isFalse hdigit =>
    rw [raises_bind_iff, or_iff_right not_raises_pyFloat,
      and_iff_right (Bool.eq_false_iff.mpr hdigit)]
    simp only [pyFloat_eq_ok_iff]
    refine exists_congr fun x => and_congr_right fun _ => ?_
    -- `int` of nan is a `ValueError`, of an infinity an `OverflowError`
    cases fl.trunc x with
    | ok y => exact iff_of_false not_raises_ok nofun
    | error e =>
      cases e with
      | notANumber => exact iff_of_false (not_raises_valueError rfl) nofun
      | infinite => exact iff_of_true (raises_error.mpr rfl) rfl

theorem intReading_describes (U : Unicode) (fl : FloatOps F) :
    (intReading U fl).Describes (toInt U fl) :=
  ⟨fun _ _ => toInt_eq_ok_iff, fun _ => raises_toInt_iff⟩

theorem tosReading_describes (U : Unicode) (fl : FloatOps F) :
    (tosReading U fl).Describes (toTos U fl) := by
  constructor
  · intro v z
    unfold toTos tosReading
    dsimp only
    -- an empty cell is -1, and nothing is read from it
    by_cases hblank : strip U v = []
    · rw [if_neg (not_not.mpr hblank), if_pos hblank]
      exact ⟨fun h => (Except.ok.inj h).symm, fun h => congrArg Except.ok h.symm⟩
    · rw [if_pos hblank, if_neg hblank]
      exact toInt_eq_ok_iff
  · intro v
    unfold toTos tosReading
    dsimp only
    by_cases hblank : strip U v = []
    · rw [if_neg (not_not.mpr hblank)]
      exact iff_of_false not_raises_ok fun h => h.1 hblank
    · rw [if_pos hblank, and_iff_right hblank]
      exact raises_toInt_iff

/-! ### Columns -/

theorem raises_int64Array_iff {zs : List ℤ} :
    Raises Escapes (int64Array zs) ↔ ∃ z ∈ zs, ¬ FitsInt64 z := by
  constructor
  · rintro ⟨e, he, -⟩
    by_contra hno
    simp only [not_exists, not_and, not_not] at hno
    rw [int64Array_ok hno] at he
    cases he
  · rintro ⟨z, hz, hout⟩
    obtain ⟨z', -, -, herror⟩ := int64Array_error hz hout
    rw [herror]
    exact raises_error.mpr rfl

namespace Reading.Describes

variable {R : Reading} {f : Str → Except LoadError ℤ} (hR : R.Describes f) {cells : List Str}
include hR

/-- A column converts exactly if every cell is an integer that fits. -/
theorem exists_column_iff :
    (∃ zs, cells.mapM f >>= int64Array = .ok zs) ↔ R.Fits cells := by
  constructor
  · rintro ⟨zs, h⟩
    obtain ⟨r, hr, hint⟩ := bind_eq_ok_iff.mp h
    -- the array takes what its cells are, and all must be in range
    obtain ⟨rfl, hrange⟩ := int64Array_eq_ok_iff.mp hint
    intro v hv
    obtain ⟨z, hvz⟩ := exists_mapM_eq_ok_iff.mp ⟨_, hr⟩ v hv
    exact ⟨z, (hR.value v z).mp hvz, hrange z ((mem_of_mapM hr).mpr ⟨v, hv, hvz⟩)⟩
  · intro hfits
    obtain ⟨zs, hzs⟩ := exists_mapM_eq_ok_iff.mpr fun v hv => by
      obtain ⟨z, hz, -⟩ := hfits v hv
      exact ⟨z, (hR.value v z).mpr hz⟩
    refine ⟨zs, bind_eq_ok_iff.mpr ⟨zs, hzs, int64Array_ok fun z hz => ?_⟩⟩
    obtain ⟨v, hv, hvz⟩ := (mem_of_mapM hzs).mp hz
    obtain ⟨z', hz', hrange⟩ := hfits v hv
    obtain rfl := eq_of_eq_ok ((hR.value v z').mpr hz') hvz
    exact hrange

/-- **A column overflows** by its first cell that is not an integer, or by an integer. -/
theorem raises_column_iff :
    Raises Escapes (cells.mapM f >>= int64Array) ↔ R.Overflows cells := by
  have hvalue : ∀ v, (∃ z, f v = .ok z) ↔ ∃ z, R.value v z := fun v =>
    exists_congr fun z => hR.value v z
  rw [raises_bind_iff, raises_mapM_iff, Overflows]
  -- a cell raises, or all are read and one is out of range
  refine or_congr (First.congr (fun v _ => hvalue v) fun v _ => hR.infinite v) ?_
  simp only [raises_int64Array_iff]
  constructor
  · rintro ⟨zs, hzs, z, hz, hout⟩
    obtain ⟨v, hv, hvz⟩ := (mem_of_mapM hzs).mp hz
    refine ⟨fun u hu => ?_, v, hv, z, (hR.value v z).mp hvz, hout⟩
    exact (hvalue u).mp (exists_mapM_eq_ok_iff.mp ⟨zs, hzs⟩ u hu)
  · rintro ⟨hall, v, hv, z, hz, hout⟩
    obtain ⟨zs, hzs⟩ := exists_mapM_eq_ok_iff.mpr fun u hu => (hvalue u).mpr (hall u hu)
    exact ⟨zs, hzs, z, (mem_of_mapM hzs).mpr ⟨v, hv, (hR.value v z).mpr hz⟩, hout⟩

end Reading.Describes

/-! ### Tables -/

/-- One conversion of the loader: when it goes through, and when it overflows. -/
structure Stage where
  fits : Prop
  overflows : Prop

/-- The texts of the rows under a name. -/
def columnCells (header : List Str) (rows : List (List Str)) (c : Str) : List Str :=
  rows.map fun cells => rowCell header cells c

section

variable (U : Unicode) (fl : FloatOps F) (header : List Str) (rows : List (List Str))

/-- A column of integers. -/
def intStage (c : Str) : Stage where
  fits := (intReading U fl).Fits (columnCells header rows c)
  overflows := (intReading U fl).Overflows (columnCells header rows c)

/-- A column of floats, of which no cell overflows. -/
def floatStage (c : Str) : Stage where
  fits := ∀ v ∈ columnCells header rows c, ∃ x, fl.parse v = some x
  overflows := False

/-- The `tos` column, if there is one. -/
def tosStage : Stage where
  fits := "tos".toList ∈ header →
    (tosReading U fl).Fits (columnCells header rows "tos".toList)
  overflows := "tos".toList ∈ header ∧
    (tosReading U fl).Overflows (columnCells header rows "tos".toList)

/-- The run index in the file name is an integer of any size. -/
def nameStage (stem : Str) : Stage where
  fits := ∀ condition k, runSuffix U stem = some (condition, k) → ∃ z, intOf U k = some z
  overflows := False

/-- The conversions of a file, in the order they are made. -/
def stages (stem : Str) : List Stage :=
  [tosStage U fl header rows, nameStage U stem,
    intStage U fl header rows "seq".toList, intStage U fl header rows "send_ns".toList,
    intStage U fl header rows "recv_ns".toList, floatStage fl header rows "latency_ms".toList,
    floatStage fl header rows "jitter_us".toList, intStage U fl header rows "pkt_size".toList]

/-- The table has rows, and the first conversion that does not go through overflows. -/
def TableOverflows (stem : Str) : Prop :=
  rows ≠ [] ∧ First Stage.fits Stage.overflows (stages U fl header rows stem)

/-- A name of the header is over the limit of the reader; or all columns are there, and a cell
is over the limit or the table overflows. -/
def FileEscapes (stem : Str) : Prop :=
  ¬ Csv.Fits header ∨
    (∀ c ∈ requiredColumns, c ∈ header) ∧
      ((∃ cells ∈ rows, ¬ Csv.Fits cells) ∨ TableOverflows U fl header rows stem)

end

namespace Stage

variable {α β : Type}

/-- The stage tells when the program returns and when it overflows. -/
structure Describes (s : Stage) (x : Except LoadError α) : Prop where
  fits : (∃ a, x = .ok a) ↔ s.fits
  overflows : Raises Escapes x ↔ s.overflows

/-- A stage, followed by others. -/
theorem Describes.raises_bind_iff {s : Stage} {x : Except LoadError α} (h : s.Describes x)
    {f : α → Except LoadError β} {ss : List Stage}
    (hf : ∀ a, Raises Escapes (f a) ↔ First Stage.fits Stage.overflows ss) :
    Raises Escapes (x >>= f) ↔ First Stage.fits Stage.overflows (s :: ss) := by
  rw [Raise.raises_bind_iff, first_cons, ← h.fits, ← h.overflows]
  simp only [hf, exists_and_right]

end Stage

section

variable {U : Unicode} {fl : FloatOps F} {header : List Str} {rows : List (List Str)}
  {c : Str}

/-- A column has the texts of the rows, however often its name is repeated. -/
theorem mem_columnsOf (hc : c ∈ header) {v : Str} :
    v ∈ columnsOf header rows c ↔ v ∈ columnCells header rows c := by
  have hne : header.count c ≠ 0 := Nat.ne_of_gt (List.count_pos_iff.mpr hc)
  rw [columnsOf_apply, columnCells, List.mem_flatMap, List.mem_map]
  refine exists_congr fun cells => and_congr_right fun _ => ?_
  rw [List.mem_replicate, and_iff_right hne]
  exact eq_comm

theorem columnsOf_eq_nil_iff (hc : c ∈ header) : columnsOf header rows c = [] ↔ rows = [] := by
  rw [← List.length_eq_zero_iff, length_columnsOf, Nat.mul_eq_zero, List.length_eq_zero_iff,
    or_iff_left (Nat.ne_of_gt (List.count_pos_iff.mpr hc))]

theorem fits_columnsOf (R : Reading) (hc : c ∈ header) :
    R.Fits (columnsOf header rows c) ↔ R.Fits (columnCells header rows c) :=
  forall_congr' fun _ => imp_congr_left (mem_columnsOf hc)

theorem overflows_columnsOf (R : Reading) (hc : c ∈ header) :
    R.Overflows (columnsOf header rows c) ↔ R.Overflows (columnCells header rows c) := by
  unfold Reading.Overflows
  simp only [mem_columnsOf hc]
  rw [columnsOf_apply, first_flatMap_replicate (List.count_pos_iff.mpr hc)]
  exact Iff.rfl

theorem intStage_describes (hc : c ∈ header) :
    (intStage U fl header rows c).Describes (ints U fl (columnsOf header rows c)) :=
  ⟨(intReading_describes U fl).exists_column_iff.trans (fits_columnsOf _ hc),
    (intReading_describes U fl).raises_column_iff.trans (overflows_columnsOf _ hc)⟩

theorem floatStage_describes (hc : c ∈ header) :
    (floatStage fl header rows c).Describes (floats fl (columnsOf header rows c)) := by
  constructor
  · rw [floats, exists_mapM_eq_ok_iff]
    simp only [mem_columnsOf hc, pyFloat_eq_ok_iff]
    exact Iff.rfl
  · rw [floats, raises_mapM_iff]
    refine iff_of_false (fun h => ?_) id
    obtain ⟨v, -, hv⟩ := h.exists_bad
    exact not_raises_pyFloat hv

theorem tosStage_describes :
    (tosStage U fl header rows).Describes (loadTos U fl header (columnsOf header rows)) := by
  have hR := tosReading_describes U fl
  rw [loadTos]
  -- no TOS column, no stage
  by_cases htos : "tos".toList ∈ header
  · rw [if_pos htos]
    constructor
    · rw [exists_map_eq_ok_iff, hR.exists_column_iff, fits_columnsOf _ htos]
      exact (imp_iff_right htos).symm
    · rw [raises_map_iff, hR.raises_column_iff, overflows_columnsOf _ htos]
      exact (and_iff_right htos).symm
  · rw [if_neg htos]
    exact ⟨iff_of_true ⟨none, rfl⟩ fun h => absurd h htos,
      iff_of_false not_raises_ok fun h => htos h.1⟩

theorem nameStage_describes (stem : Str) : (nameStage U stem).Describes (parseName U stem) := by
  unfold nameStage parseName
  cases hs : runSuffix U stem with
  -- without a run suffix no number is read
  | none => exact ⟨iff_of_true ⟨_, rfl⟩ fun _ _ h => (nomatch h), iff_of_false not_raises_ok id⟩
  | some p =>
    obtain ⟨condition, k⟩ := p
    dsimp only
    constructor
    · rw [exists_map_eq_ok_iff]
      simp only [pyInt_eq_ok_iff]
      constructor
      · rintro hint _ _ ⟨⟩
        exact hint
      · exact fun h => h condition k rfl
    · rw [raises_map_iff]
      exact iff_of_false not_raises_pyInt id

end

theorem filter_missing_eq_nil_iff {header : List Str} :
    requiredColumns.filter (· ∉ header) = [] ↔ ∀ c ∈ requiredColumns, c ∈ header := by
  rw [List.filter_eq_nil_iff]
  refine forall_congr' fun c => imp_congr_right fun _ => ?_
  rw [decide_eq_true_iff, not_not]

/-- **What escapes from loading a file**: a cell over the limit, an overflow of its table, and
nothing else. -/
theorem raises_loadCsv_iff {U : Unicode} {fl : FloatOps F} {path : CsvPath} {text : List Char} :
    Raises Escapes (loadCsv U fl path text) ↔
      FileEscapes U fl (dictReader (Csv.read text)).1 (dictReader (Csv.read text)).2
        path.stem := by
  unfold loadCsv FileEscapes TableOverflows
  generalize dictReader (Csv.read text) = table
  obtain ⟨header, rows⟩ := table
  dsimp only
  split
  -- the header itself is over the limit
  case isTrue hheader => exact iff_of_true (raises_error.mpr rfl) (Or.inl hheader)
  case isFalse hheader =>
  rw [or_iff_right hheader]
  split
  -- nothing but the header has been read
  case isTrue hmissing =>
    rw [ne_eq, filter_missing_eq_nil_iff] at hmissing
    exact iff_of_false (not_raises_valueError rfl) fun h => hmissing h.1
  case isFalse hmissing =>
  have hreq := filter_missing_eq_nil_iff.mp (not_not.mp hmissing)
  rw [and_iff_right hreq]
  split
  -- a row is over the limit
  case isTrue hcells => exact iff_of_true (raises_error.mpr rfl) (Or.inl hcells)
  case isFalse hcells =>
  rw [or_iff_right hcells]
  have hnil : columnsOf header rows "seq".toList = [] ↔ rows = [] :=
    columnsOf_eq_nil_iff (hreq _ (by decide))
  split
  case isTrue hrows =>
    exact iff_of_false (not_raises_valueError rfl) fun h => h.1 (hnil.mp hrows)
  -- the conversions, one after the other
  case isFalse hrows =>
    rw [hnil] at hrows
    rw [and_iff_right hrows]
    refine tosStage_describes.raises_bind_iff fun tos => ?_
    refine (nameStage_describes path.stem).raises_bind_iff fun name => ?_
    refine (intStage_describes (hreq _ (by decide))).raises_bind_iff fun seq => ?_
    refine (intStage_describes (hreq _ (by decide))).raises_bind_iff fun sendNs => ?_
    refine (intStage_describes (hreq _ (by decide))).raises_bind_iff fun recvNs => ?_
    refine (floatStage_describes (hreq _ (by decide))).raises_bind_iff fun latencyMs => ?_
    refine (floatStage_describes (hreq _ (by decide))).raises_bind_iff fun jitterUs => ?_
    refine (intStage_describes (hreq _ (by decide))).raises_bind_iff fun pktSize => ?_
    exact iff_of_false not_raises_ok id

/-- **A malformed file is a user error**: the loader returns a run, or raises a `ValueError`,
of which `main` makes exit code 2 whatever the command does with the run, exactly if no cell
that is read is over the limit and the table does not overflow. -/
theorem load_user_error_iff (U : Unicode) (fl : FloatOps F) (path : CsvPath)
    (text : List Char) :
    ((∃ run, loadCsv U fl path text = .ok run) ∨
        ∃ e, loadCsv U fl path text = .error e ∧ e.isValueError = true ∧
          ∀ handler, mainExit (loadCsv U fl path text >>= handler) = .ok 2) ↔
      ¬ FileEscapes U fl (dictReader (Csv.read text)).1 (dictReader (Csv.read text)).2
        path.stem := by
  rw [← raises_loadCsv_iff, not_raises_iff]
  refine or_congr_right (exists_congr fun e => and_congr_right fun he => ?_)
  rw [Escapes, Bool.not_eq_false]
  constructor
  · exact fun h => h.1
  · exact fun h => ⟨h, fun handler => mainExit_eq_two he h handler⟩

/-- A sequence number of `2 ^ 63` does not fit the array, and the exception is none that
`main` catches. -/
theorem load_error_escapes_big_seq :
    let text := ("seq,send_ns,recv_ns,latency_ms,jitter_us,pkt_size\r\n" ++
      "9223372036854775808,1,2,1.0,0.0,64\r\n").toList
    loadCsv asciiTable FloatOps.whole ⟨"fifo_run1.csv".toList, "fifo_run1".toList⟩ text
        = .error (.int64Range (2 ^ 63)) ∧
      (LoadError.int64Range (2 ^ 63)).isValueError = false ∧
      ∀ handler, mainExit (loadCsv asciiTable FloatOps.whole
          ⟨"fifo_run1.csv".toList, "fifo_run1".toList⟩ text >>= handler)
        = .error (.int64Range (2 ^ 63)) := by
  have hload : (loadCsv asciiTable FloatOps.whole
      ⟨"fifo_run1.csv".toList, "fifo_run1".toList⟩
      ("seq,send_ns,recv_ns,latency_ms,jitter_us,pkt_size\r\n" ++
        "9223372036854775808,1,2,1.0,0.0,64\r\n").toList).map (fun _ => ())
      = .error (.int64Range (2 ^ 63)) := by decide +kernel
  have herror := map_eq_error_iff.mp hload
  refine ⟨herror, rfl, fun handler => ?_⟩
  rw [herror]
  rfl

end TsPacket
