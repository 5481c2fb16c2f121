import TsPacket.Analysis.Loader
import TsPacket.Lib.Raise

/-!
# The columns of a run

A run that loads has an array for every column the loader reads.  The arrays belong to the
rows of the file, one entry a row, exactly if none of these columns stands in the header
twice: the rows are added to the columns name by name, and a name that is repeated gets its
cell twice.

## Main definitions

* `rowCell` — the text of a row under a name.
* `FromRows` — an array with one entry for every row, converted from its cell.
* `Run.Aligned` — all arrays of a run are of this kind.

## Main results

* `Loaded.of_loadCsv` — what the run a file holds consists of.
* `fromRows_iff` — an array is made of the rows one by one if its name is not repeated.
* `run_aligned_iff` — **so are all arrays of a run**, exactly if no name is repeated that is
  read.
-/

namespace TsPacket

open PyText Raise

variable {F β : Type}

/-- The text of a row under a name; a row that is too short has an empty one. -/
def rowCell (header cells : List Str) (c : Str) : Str := (dictRow header cells c).getD []

/-- The array has one entry for every row, and each is converted from the cell of its row. -/
structure FromRows (header : List Str) (rows : List (List Str)) (c : Str)
    (convert : Str → Except LoadError β) (column : List β) : Prop where
  length_eq : column.length = rows.length
  entry : ∀ (i : ℕ) (cells : List Str) (x : β), rows[i]? = some cells → column[i]? = some x →
    convert (rowCell header cells c) = .ok x

/-- Every array of the run has its entries from the rows, one by one. -/
structure Run.Aligned (U : Unicode) (fl : FloatOps F) (header : List Str)
    (rows : List (List Str)) (run : Run F) : Prop where
  seq : FromRows header rows "seq".toList (toInt U fl) run.seq
  sendNs : FromRows header rows "send_ns".toList (toInt U fl) run.sendNs
  recvNs : FromRows header rows "recv_ns".toList (toInt U fl) run.recvNs
  latencyMs : FromRows header rows "latency_ms".toList (pyFloat fl) run.latencyMs
  jitterUs : FromRows header rows "jitter_us".toList (pyFloat fl) run.jitterUs
  pktSize : FromRows header rows "pkt_size".toList (toInt U fl) run.pktSize
  tos : ∀ tos, run.tos = some tos → FromRows header rows "tos".toList (toTos U fl) tos

/-- The columns the loader reads. -/
def readColumns : List Str := requiredColumns ++ ["tos".toList]

/-! ### What a run consists of -/

/-- An `int64` array is made of integers that fit. -/
theorem int64Array_eq_ok_iff {zs r : List ℤ} :
    int64Array zs = .ok r ↔ zs = r ∧ ∀ z ∈ zs, -2 ^ 63 ≤ z ∧ z < 2 ^ 63 := by
  constructor
  · intro h
    have hrange : ∀ z ∈ zs, -2 ^ 63 ≤ z ∧ z < 2 ^ 63 := by
      intro z hz
      by_contra hout
      obtain ⟨z', -, -, herror⟩ := int64Array_error hz hout
      rw [herror] at h
      cases h
    rw [int64Array_ok hrange] at h
    exact ⟨Except.ok.inj h, hrange⟩
  · rintro ⟨rfl, hrange⟩
    exact int64Array_ok hrange

theorem ints_eq_ok_iff {U : Unicode} {fl : FloatOps F} {values : List Str} {zs : List ℤ} :
    ints U fl values = .ok zs ↔
      values.mapM (toInt U fl) = .ok zs ∧ ∀ z ∈ zs, -2 ^ 63 ≤ z ∧ z < 2 ^ 63 := by
  rw [ints, bind_eq_ok_iff]
  constructor
  · rintro ⟨r, hr, h⟩
    obtain ⟨rfl, hrange⟩ := int64Array_eq_ok_iff.mp h
    exact ⟨hr, hrange⟩
  · rintro ⟨h, hrange⟩
    exact ⟨zs, h, int64Array_eq_ok_iff.mpr ⟨rfl, hrange⟩⟩

/-- The `tos` column is there if the header has it. -/
theorem loadTos_eq_ok {U : Unicode} {fl : FloatOps F} {header : List Str}
    {columns : Str → List Str} {tos : Option (List ℤ)}
    (h : loadTos U fl header columns = .ok tos) :
    ("tos".toList ∈ header ∧ ∃ zs, tos = some zs ∧
        (columns "tos".toList).mapM (toTos U fl) = .ok zs) ∨
      ("tos".toList ∉ header ∧ tos = none) := by
  rw [loadTos] at h
  split at h
  case isFalse hmem => exact Or.inr ⟨hmem, (Except.ok.inj h).symm⟩
  case isTrue hmem =>
    obtain ⟨r, hr, rfl⟩ := map_eq_ok_iff.mp h
    obtain ⟨zs, hzs, hint⟩ := bind_eq_ok_iff.mp hr
    obtain ⟨rfl, -⟩ := int64Array_eq_ok_iff.mp hint
    exact Or.inl ⟨hmem, zs, rfl, hzs⟩

/-- What the run consists of that was loaded from a table. -/
structure Loaded (U : Unicode) (fl : FloatOps F) (path : CsvPath) (header : List Str)
    (rows : List (List Str)) (run : Run F) : Prop where
  stem : run.name = path.stem
  path_eq : run.path = some path
  required : ∀ c ∈ requiredColumns, c ∈ header
  rows_ne : columnsOf header rows "seq".toList ≠ []
  tos : loadTos U fl header (columnsOf header rows) = .ok run.tos
  name : parseName U path.stem = .ok (run.condition, run.runIndex)
  seq : ints U fl (columnsOf header rows "seq".toList) = .ok run.seq
  sendNs : ints U fl (columnsOf header rows "send_ns".toList) = .ok run.sendNs
  recvNs : ints U fl (columnsOf header rows "recv_ns".toList) = .ok run.recvNs
  latencyMs : floats fl (columnsOf header rows "latency_ms".toList) = .ok run.latencyMs
  jitterUs : floats fl (columnsOf header rows "jitter_us".toList) = .ok run.jitterUs
  pktSize : ints U fl (columnsOf header rows "pkt_size".toList) = .ok run.pktSize

theorem Loaded.of_loadCsv {U : Unicode} {fl : FloatOps F} {path : CsvPath} {text : List Char}
    {run : Run F} (h : loadCsv U fl path text = .ok run) :
    Loaded U fl path (dictReader (Csv.read text)).1 (dictReader (Csv.read text)).2 run := by
  unfold loadCsv at h
  revert h
  generalize dictReader (Csv.read text) = table
  obtain ⟨header, rows⟩ := table
  intro h
  dsimp only at h
  -- the exits before the conversions, in their order
  split at h
  case isTrue => cases h
  case isFalse =>
  split at h
  case isTrue => cases h
  case isFalse hmissing =>
  split at h
  case isTrue => cases h
  case isFalse =>
  split at h
  case isTrue => cases h
  case isFalse hrows =>
    obtain ⟨tos, htos, h⟩ := bind_eq_ok_iff.mp h
    obtain ⟨⟨condition, runIndex⟩, hname, h⟩ := bind_eq_ok_iff.mp h
    obtain ⟨seq, hseq, h⟩ := bind_eq_ok_iff.mp h
    obtain ⟨sendNs, hsend, h⟩ := bind_eq_ok_iff.mp h
    obtain ⟨recvNs, hrecv, h⟩ := bind_eq_ok_iff.mp h
    obtain ⟨latencyMs, hlatency, h⟩ := bind_eq_ok_iff.mp h
    obtain ⟨jitterUs, hjitter, h⟩ := bind_eq_ok_iff.mp h
    obtain ⟨pktSize, hsize, h⟩ := bind_eq_ok_iff.mp h
    cases h
    refine ⟨rfl, rfl, fun c hc => ?_, hrows, htos, hname, hseq, hsend, hrecv, hlatency, hjitter,
      hsize⟩
    have hnot := List.filter_eq_nil_iff.mp (not_not.mp hmissing) c hc
    simpa using hnot

/-! ### One array -/

/-- Where a name is not repeated, a column holds a cell of every row. -/
theorem columnsOf_of_count {header : List Str} {c : Str} (hcount : header.count c = 1)
    (rows : List (List Str)) :
    columnsOf header rows c = rows.map fun cells => rowCell header cells c := by
  rw [columnsOf_apply, hcount, List.map_eq_flatMap]
  rfl

theorem length_columnsOf (header : List Str) (rows : List (List Str)) (c : Str) :
    (columnsOf header rows c).length = rows.length * header.count c := by
  rw [columnsOf_apply, List.length_flatMap]
  simp

/-- **The array of a column is made of the rows one by one** exactly if its name stands in
the header once. -/
theorem fromRows_iff {header : List Str} {rows : List (List Str)} {c : Str}
    {convert : Str → Except LoadError β} {column : List β} (hne : rows ≠ [])
    (h : (columnsOf header rows c).mapM convert = .ok column) :
    FromRows header rows c convert column ↔ header.count c = 1 := by
  have hconv := mapM_eq_ok_iff.mp h
  constructor
  · -- otherwise there are too many entries, or too few
    intro hfrom
    have hlen : rows.length * header.count c = rows.length * 1 := by
      rw [← length_columnsOf, hconv.length_eq, hfrom.length_eq, Nat.mul_one]
    exact Nat.eq_of_mul_eq_mul_left (List.length_pos_iff.mpr hne) hlen
  · intro hcount
    rw [columnsOf_of_count hcount, List.forall₂_map_left_iff] at hconv
    refine ⟨hconv.length_eq.symm, fun i cells x hcells hx => ?_⟩
    obtain ⟨hi, rfl⟩ := List.getElem?_eq_some_iff.mp hcells
    obtain ⟨hj, rfl⟩ := List.getElem?_eq_some_iff.mp hx
    exact hconv.get hi hj

/-- A name of the header stands there once if it is not repeated. -/
theorem count_eq_one_iff {header : List Str} {c : Str} (hc : c ∈ header) :
    header.count c = 1 ↔ header.count c ≤ 1 := by
  have hpos := List.count_pos_iff.mpr hc
  omega

/-! ### The run -/

section

variable {U : Unicode} {fl : FloatOps F} {path : CsvPath} {header : List Str}
  {rows : List (List Str)} {run : Run F} (h : Loaded U fl path header rows run)
include h

theorem Loaded.rows_ne_nil : rows ≠ [] := by
  rintro rfl
  exact h.rows_ne rfl

/-- A required column is made of the rows one by one if its name is not repeated. -/
theorem Loaded.fromRows_iff {c : Str} {convert : Str → Except LoadError β} {column : List β}
    (hc : c ∈ requiredColumns) (hcol : (columnsOf header rows c).mapM convert = .ok column) :
    FromRows header rows c convert column ↔ header.count c ≤ 1 := by
  rw [← count_eq_one_iff (h.required c hc), TsPacket.fromRows_iff h.rows_ne_nil hcol]

end

theorem tos_fromRows_iff {U : Unicode} {fl : FloatOps F} {header : List Str}
    {rows : List (List Str)} {tos : Option (List ℤ)} (hne : rows ≠ [])
    (h : loadTos U fl header (columnsOf header rows) = .ok tos) :
    (∀ zs, tos = some zs → FromRows header rows "tos".toList (toTos U fl) zs) ↔
      header.count "tos".toList ≤ 1 := by
  rcases loadTos_eq_ok h with ⟨hmem, zs, rfl, hzs⟩ | ⟨hmem, rfl⟩
  · rw [← count_eq_one_iff hmem, ← fromRows_iff hne hzs]
    constructor
    · exact fun hall => hall zs rfl
    · rintro hfrom _ ⟨⟩
      exact hfrom
  · refine iff_of_true (fun zs hzs => by cases hzs) ?_
    rw [List.count_eq_zero_of_not_mem hmem]
    exact Nat.zero_le 1

/-- **Every array of a run that loads has one entry for each row that is not blank, converted
from that row**, exactly if no column that is read stands in the header twice. -/
theorem run_aligned_iff {U : Unicode} {fl : FloatOps F} {path : CsvPath} {text : List Char}
    {run : Run F} (h : loadCsv U fl path text = .ok run) :
    run.Aligned U fl (dictReader (Csv.read text)).1 (dictReader (Csv.read text)).2 ↔
      ∀ c ∈ readColumns, (dictReader (Csv.read text)).1.count c ≤ 1 := by
  have hloaded := Loaded.of_loadCsv h
  revert hloaded
  generalize (dictReader (Csv.read text)).1 = header
  generalize (dictReader (Csv.read text)).2 = rows
  intro hloaded
  -- each column is read from its first and its last place alike, or not
  have hseq := hloaded.fromRows_iff (by decide) (ints_eq_ok_iff.mp hloaded.seq).1
  have hsend := hloaded.fromRows_iff (by decide) (ints_eq_ok_iff.mp hloaded.sendNs).1
  have hrecv := hloaded.fromRows_iff (by decide) (ints_eq_ok_iff.mp hloaded.recvNs).1
  have hlatency := hloaded.fromRows_iff (by decide) hloaded.latencyMs
  have hjitter := hloaded.fromRows_iff (by decide) hloaded.jitterUs
  have hsize := hloaded.fromRows_iff (by decide) (ints_eq_ok_iff.mp hloaded.pktSize).1
  have htos := tos_fromRows_iff hloaded.rows_ne_nil hloaded.tos
  simp only [readColumns, requiredColumns, List.cons_append, List.nil_append,
    List.forall_mem_cons, ← hseq, ← hsend, ← hrecv, ← hlatency, ← hjitter, ← hsize, ← htos]
  constructor
  · rintro ⟨h1, h2, h3, h4, h5, h6, h7⟩
    exact ⟨h1, h2, h3, h4, h5, h6, h7, fun c hc => absurd hc List.not_mem_nil⟩
  · rintro ⟨h1, h2, h3, h4, h5, h6, h7, -⟩
    exact ⟨h1, h2, h3, h4, h5, h6, h7⟩

/-- A file with a column that nobody reads, a blank line and a row that is too short. -/
theorem run_aligned_iff_ragged :
    let text := ("jitter_us,latency_ms,seq,recv_ns,send_ns,pkt_size,x,x,tos\r\n" ++
      "0.0,1.0,0,2,1,64,a,b,184\r\n\r\n5.0,1.0,1,4,3,64,a\r\n").toList
    ∃ run, loadCsv asciiTable FloatOps.whole ⟨"fifo_run1.csv".toList, "fifo_run1".toList⟩ text
        = .ok run ∧
      run.Aligned asciiTable FloatOps.whole (dictReader (Csv.read text)).1
        (dictReader (Csv.read text)).2 := by
  have hload : (loadCsv asciiTable FloatOps.whole
      ⟨"fifo_run1.csv".toList, "fifo_run1".toList⟩
      ("jitter_us,latency_ms,seq,recv_ns,send_ns,pkt_size,x,x,tos\r\n" ++
        "0.0,1.0,0,2,1,64,a,b,184\r\n\r\n5.0,1.0,1,4,3,64,a\r\n").toList).map Run.seq
      = .ok [0, 1] := by decide +kernel
  obtain ⟨run, hrun, -⟩ := map_eq_ok_iff.mp hload
  exact ⟨run, hrun, (run_aligned_iff hrun).mpr (by decide +kernel)⟩

/-- The name `seq` stands in the header twice: of one row there are two sequence numbers and
one packet size. -/
theorem run_not_aligned_repeated_seq :
    let text := ("seq,send_ns,recv_ns,latency_ms,jitter_us,pkt_size,seq\r\n" ++
      "7,1,2,1.0,0.0,64,8\r\n").toList
    ∃ run, loadCsv asciiTable FloatOps.whole ⟨"fifo_run1.csv".toList, "fifo_run1".toList⟩ text
        = .ok run ∧ run.seq = [8, 8] ∧ run.pktSize = [64] ∧
      ¬ run.Aligned asciiTable FloatOps.whole (dictReader (Csv.read text)).1
        (dictReader (Csv.read text)).2 := by
  have hload : (loadCsv asciiTable FloatOps.whole
      ⟨"fifo_run1.csv".toList, "fifo_run1".toList⟩
      ("seq,send_ns,recv_ns,latency_ms,jitter_us,pkt_size,seq\r\n" ++
        "7,1,2,1.0,0.0,64,8\r\n").toList).map (fun run => (run.seq, run.pktSize))
      = .ok ([8, 8], [64]) := by decide +kernel
  obtain ⟨run, hrun, hcols⟩ := map_eq_ok_iff.mp hload
  obtain ⟨hseq, hsize⟩ := Prod.mk.inj hcols
  refine ⟨run, hrun, hseq, hsize, fun h => ?_⟩
  have hlen := h.seq.length_eq
  rw [hseq] at hlen
  exact absurd hlen (by decide +kernel)

end TsPacket
