import Mathlib.Data.List.Nodup
import Mathlib.Data.List.TakeWhile
import TsPacket.Lib.Csv
import TsPacket.Lib.PyText

/-!
# The loader

`load_csv` of `analysis/tsn_analysis/loader.py`: the columns of a listener CSV as arrays.
The header is the first record; every other record that is not blank is a row, and a row
that is too short has no cells for its last columns.

## Main definitions

* `parseName` — the condition and the run index in a file stem.
* `toInt`, `ints`, `floats` — the conversions of the cells.
* `dictReader`, `columnsOf` — the table, and its columns under the names of the header.
* `loadCsv` — the run a file holds, or the exception.

## Main results

* `parseName_ok` — a stem of ordinary length has a name.
* `columnsOf_of_nodup` — under distinct names a column holds the cells of one place.
* `ints_strOf` — **a column of printed integers is read as these**, if they fit the array.
-/

namespace TsPacket

open PyText

/-- A path, with its stem. -/
structure CsvPath where
  text : Str
  stem : Str

/-- The exceptions of `load_csv`. -/
inductive LoadError
  /-- `ValueError`: required columns that the header does not have. -/
  | missingColumns (path : Str) (columns : List Str)
  /-- `csv.Error`: a field is larger than the limit of the reader. -/
  | fieldLimit
  /-- `ValueError`: no data rows. -/
  | noDataRows (path : Str)
  /-- `ValueError` of `int`. -/
  | invalidInt (text : Str)
  /-- `ValueError` of `float`. -/
  | invalidFloat (text : Str)
  /-- `ValueError` of `int` of a float that is not a number. -/
  | notANumber
  /-- `OverflowError` of `int` of an infinite float. -/
  | infinite
  /-- `OverflowError`: an integer that does not fit an `int64` array. -/
  | int64Range (value : ℤ)
  deriving DecidableEq

/-- It is a `ValueError`. -/
def LoadError.isValueError : LoadError → Bool
  | .missingColumns _ _ | .noDataRows _ | .invalidInt _ | .invalidFloat _ | .notANumber => true
  | .fieldLimit | .infinite | .int64Range _ => false

/-- `REQUIRED_COLUMNS`. -/
def requiredColumns : List Str :=
  ["seq".toList, "send_ns".toList, "recv_ns".toList, "latency_ms".toList, "jitter_us".toList,
    "pkt_size".toList]

/-! ### File names -/

section

variable (U : Unicode)

/-- `_run` and digits up to the end, where one line feed may follow. -/
def runDigits (s : Str) : Option Str :=
  if "_run".toList <+: s then
    let ds := (s.drop 4).takeWhile fun c => (U.decimal c).isSome
    let rest := (s.drop 4).dropWhile fun c => (U.decimal c).isSome
    if ds ≠ [] ∧ (rest = [] ∨ rest = ['\n']) then some ds else none
  else none

/-- `^(?P<condition>.+?)_run(?P<k>\d+)$`: the shortest condition, and the digits. -/
def runSuffix : Str → Option (Str × Str)
  | [] => none
  | c :: cs =>
    if c = '\n' then none
    else
      match runDigits U cs with
      | some k => some ([c], k)
      | none => (runSuffix cs).map fun p => (c :: p.1, p.2)

/-- `int(s)`. -/
def pyInt (s : Str) : Except LoadError ℤ :=
  match intOf U s with
  | some z => .ok z
  | none => .error (.invalidInt s)

/-- The condition and the run index. -/
def parseName (stem : Str) : Except LoadError (Str × Option ℤ) :=
  match runSuffix U stem with
  | none => .ok (stem, none)
  | some (condition, k) => (pyInt U k).map fun n => (condition, some n)

end

/-! ### Cells -/

variable {F : Type}

/-- `float(s)`. -/
def pyFloat (fl : FloatOps F) (value : Str) : Except LoadError F :=
  match fl.parse value with
  | some x => .ok x
  | none => .error (.invalidFloat value)

/-- `_to_int`. -/
def toInt (U : Unicode) (fl : FloatOps F) (value : Str) : Except LoadError ℤ :=
  let v := strip U value
  if isdigit U (lstripSigns v) then pyInt U v
  else
    pyFloat fl v >>= fun x =>
      match fl.trunc x with
      | .ok z => .ok z
      | .error .notANumber => .error .notANumber
      | .error .infinite => .error .infinite

/-- `np.asarray(…, dtype=np.int64)` of integers. -/
def int64Array (zs : List ℤ) : Except LoadError (List ℤ) :=
  match zs.find? fun z => ¬ (-2 ^ 63 ≤ z ∧ z < 2 ^ 63) with
  | none => .ok zs
  | some z => .error (.int64Range z)

/-- `_ints`. -/
def ints (U : Unicode) (fl : FloatOps F) (values : List Str) : Except LoadError (List ℤ) :=
  values.mapM (toInt U fl) >>= int64Array

/-- `_floats`. -/
def floats (fl : FloatOps F) (values : List Str) : Except LoadError (List F) :=
  values.mapM (pyFloat fl)

/-- A `tos` cell, which may be empty. -/
def toTos (U : Unicode) (fl : FloatOps F) (value : Str) : Except LoadError ℤ :=
  if strip U value ≠ [] then toInt U fl value else .ok (-1)

/-! ### The table -/

/-- The header and the rows `csv.DictReader` makes of the records. -/
def dictReader (records : List (List Str)) : List Str × List (List Str) :=
  (records.head?.getD [], records.tail.filter (· ≠ []))

/-- The items of a row: a short row has `None` in its last columns.  What is beyond the
header is under a key of its own, which nobody reads. -/
def dictItems : List Str → List Str → List (Str × Option Str)
  | [], _ => []
  | k :: ks, [] => (k, none) :: dictItems ks []
  | k :: ks, v :: vs => (k, some v) :: dictItems ks vs

/-- `row[c]`: of items with one key the last counts. -/
def dictRow (header cells : List Str) (c : Str) : Option Str :=
  ((dictItems header cells).reverse.lookup c).join

/-- Appends a row to the columns, name by name. -/
def addRow (header : List Str) (columns : Str → List Str) (cells : List Str) : Str → List Str :=
  header.foldl (fun cols c =>
    Function.update cols c (cols c ++ [(dictRow header cells c).getD []])) columns

/-- The columns of a table. -/
def columnsOf (header : List Str) (rows : List (List Str)) : Str → List Str :=
  rows.foldl (addRow header) fun _ => []

/-! ### The file -/

/-- One listener CSV. -/
structure Run (F : Type) where
  name : Str
  condition : Str
  runIndex : Option ℤ
  seq : List ℤ
  sendNs : List ℤ
  recvNs : List ℤ
  latencyMs : List F
  jitterUs : List F
  pktSize : List ℤ
  tos : Option (List ℤ)
  path : Option CsvPath

/-- The `tos` column, if the file has one. -/
def loadTos (U : Unicode) (fl : FloatOps F) (header : List Str) (columns : Str → List Str) :
    Except LoadError (Option (List ℤ)) :=
  if "tos".toList ∈ header then
    ((columns "tos".toList).mapM (toTos U fl) >>= int64Array).map some
  else .ok none

/-- The run in a file of which `text` is the content.  The header is read before anything is
asked of it, and the rows once it has the columns; a blank record has no fields. -/
def loadCsv (U : Unicode) (fl : FloatOps F) (path : CsvPath) (text : List Char) :
    Except LoadError (Run F) :=
  let (header, rows) := dictReader (Csv.read text)
  let missing := requiredColumns.filter (· ∉ header)
  -- `fieldnames` reads the first record, before any column is checked
  if ¬ Csv.Fits header then .error .fieldLimit
  else if missing ≠ [] then .error (.missingColumns path.text missing)
  -- and the loop over the reader reads every other one
  else if ∃ cells ∈ rows, ¬ Csv.Fits cells then .error .fieldLimit
  else
    let columns := columnsOf header rows
    if columns "seq".toList = [] then .error (.noDataRows path.text)
    else do
      let tos ← loadTos U fl header columns
      let (condition, runIndex) ← parseName U path.stem
      let seq ← ints U fl (columns "seq".toList)
      let sendNs ← ints U fl (columns "send_ns".toList)
      let recvNs ← ints U fl (columns "recv_ns".toList)
      let latencyMs ← floats fl (columns "latency_ms".toList)
      let jitterUs ← floats fl (columns "jitter_us".toList)
      let pktSize ← ints U fl (columns "pkt_size".toList)
      return { name := path.stem, condition, runIndex, seq, sendNs, recvNs, latencyMs, jitterUs,
               pktSize, tos, path := some path }

/-! ### Names -/

theorem runDigits_spec {U : Unicode} {s k : Str} (h : runDigits U s = some k) :
    k ≠ [] ∧ (∀ c ∈ k, (U.decimal c).isSome = true) ∧ k.length ≤ s.length := by
  rw [runDigits] at h
  split at h
  case isFalse => cases h
  case isTrue =>
    dsimp only at h
    split at h
    case isFalse => cases h
    case isTrue hk =>
      rw [← Option.some.inj h]
      refine ⟨hk.1, fun c hc => ?_, ?_⟩
      · have hdec := List.mem_takeWhile_imp hc
        exact hdec
      · exact Nat.le_trans (List.takeWhile_prefix _).length_le ((s.drop_suffix 4).length_le)

theorem runSuffix_spec {U : Unicode} : ∀ {stem condition k : Str},
    runSuffix U stem = some (condition, k) →
    k ≠ [] ∧ (∀ c ∈ k, (U.decimal c).isSome = true) ∧ k.length ≤ stem.length := by
  intro stem
  induction stem with
  | nil => intro condition k h; cases h
  | cons c cs ih =>
    intro condition k h
    rw [runSuffix] at h
    split at h
    case isTrue => cases h
    case isFalse =>
      split at h
      -- the suffix starts at this character, or further on
      case h_1 k' hk' =>
        cases h
        obtain ⟨hne, hdec, hlen⟩ := runDigits_spec hk'
        exact ⟨hne, hdec, Nat.le_succ_of_le hlen⟩
      case h_2 =>
        obtain ⟨p, hp, heq⟩ := Option.map_eq_some_iff.mp h
        cases heq
        obtain ⟨hne, hdec, hlen⟩ := ih hp
        exact ⟨hne, hdec, Nat.le_succ_of_le hlen⟩

/-- A stem of ordinary length has a name. -/
theorem parseName_ok {U : Unicode} (hU : U.Lawful) {stem : Str}
    (hlen : stem.length ≤ maxStrDigits) : ∃ name, parseName U stem = .ok name := by
  rw [parseName]
  cases hs : runSuffix U stem with
  | none => exact ⟨_, rfl⟩
  | some p =>
    obtain ⟨condition, k⟩ := p
    obtain ⟨hne, hdec, hk⟩ := runSuffix_spec hs
    obtain ⟨n, hn⟩ := intOf_of_decimal hU hne hdec (Nat.le_trans hk hlen)
    refine ⟨(condition, some n), ?_⟩
    dsimp only
    rw [pyInt, hn]
    rfl

/-! ### Columns -/

theorem map_fst_dictItems : ∀ header cells : List Str,
    (dictItems header cells).map Prod.fst = header := by
  intro header
  induction header with
  | nil => intro _; rfl
  | cons k ks ih =>
    intro cells
    cases cells with
    | nil => rw [dictItems, List.map_cons, ih]
    | cons v vs => rw [dictItems, List.map_cons, ih]

theorem getElem?_dictItems : ∀ (header cells : List Str) {i : ℕ} {c : Str},
    header[i]? = some c → (dictItems header cells)[i]? = some (c, cells[i]?) := by
  intro header
  induction header with
  | nil => intro cells i c h; cases h
  | cons k ks ih =>
    intro cells i c h
    cases cells with
    | nil =>
      cases i with
      | zero => simpa [dictItems] using h
      | succ i => simpa [dictItems] using ih [] h
    | cons v vs =>
      cases i with
      | zero => simpa [dictItems] using h
      | succ i => simpa [dictItems] using ih vs h

/-- Under distinct names a row has its cells in their places. -/
theorem dictRow_of_nodup {header : List Str} (hnodup : header.Nodup) (cells : List Str)
    {i : ℕ} {c : Str} (hc : header[i]? = some c) : dictRow header cells c = cells[i]? := by
  have hmem : (c, cells[i]?) ∈ (dictItems header cells).reverse :=
    List.mem_reverse.mpr (List.mem_of_getElem? (getElem?_dictItems header cells hc))
  have hkeys : ((dictItems header cells).reverse.map Prod.fst).Nodup := by
    rw [List.map_reverse, map_fst_dictItems, List.nodup_reverse]
    exact hnodup
  -- no item before it, from the back, has the same key
  obtain ⟨l₁, l₂, hsplit⟩ := List.append_of_mem hmem
  rw [hsplit, List.map_append, List.map_cons] at hkeys
  have hnot : ∀ p ∈ l₁, c ≠ p.1 := by
    rintro p hp rfl
    exact List.disjoint_of_nodup_append hkeys (List.mem_map_of_mem hp) List.mem_cons_self
  rw [dictRow, hsplit, List.lookup_append, List.lookup_eq_none_iff.mpr fun p hp =>
    bne_iff_ne.mpr (hnot p hp)]
  simp

theorem addRow_apply (header : List Str) (columns : Str → List Str) (cells : List Str)
    (c : Str) : addRow header columns cells c
      = columns c ++ List.replicate (header.count c) ((dictRow header cells c).getD []) := by
  -- by induction on the names still to come
  have hfold : ∀ (names : List Str) (cols : Str → List Str),
      names.foldl (fun cols c =>
        Function.update cols c (cols c ++ [(dictRow header cells c).getD []])) cols c
      = cols c ++ List.replicate (names.count c) ((dictRow header cells c).getD []) := by
    intro names
    induction names with
    | nil => intro cols; simp
    | cons k ks ih =>
      intro cols
      rw [List.foldl_cons, ih]
      by_cases hk : k = c
      · subst hk
        rw [Function.update_self, List.count_cons_self, List.replicate_succ, List.append_assoc,
          List.singleton_append]
      · rw [Function.update_of_ne (Ne.symm hk), List.count_cons_of_ne hk]
  exact hfold header columns

/-- A column has a cell of every row for each time its name stands in the header. -/
theorem columnsOf_apply (header : List Str) (rows : List (List Str)) (c : Str) :
    columnsOf header rows c = rows.flatMap fun cells =>
      List.replicate (header.count c) ((dictRow header cells c).getD []) := by
  have hfold : ∀ (rows : List (List Str)) (cols : Str → List Str),
      rows.foldl (addRow header) cols c = cols c ++ rows.flatMap fun cells =>
        List.replicate (header.count c) ((dictRow header cells c).getD []) := by
    intro rows
    induction rows with
    | nil => intro cols; simp
    | cons cells rows ih =>
      intro cols
      rw [List.foldl_cons, ih, addRow_apply, List.flatMap_cons, List.append_assoc]
  rw [columnsOf, hfold, List.nil_append]

/-- Under distinct names a column holds the cells of one place. -/
theorem columnsOf_of_nodup {header : List Str} (hnodup : header.Nodup)
    (rows : List (List Str)) {i : ℕ} {c : Str} (hc : header[i]? = some c) :
    columnsOf header rows c = rows.map fun cells => cells[i]?.getD [] := by
  have hcount : header.count c = 1 :=
    List.count_eq_one_of_mem hnodup (List.mem_of_getElem? hc)
  rw [columnsOf_apply, hcount, List.map_eq_flatMap]
  refine List.flatMap_congr fun cells _ => ?_
  rw [dictRow_of_nodup hnodup cells hc]
  rfl

/-! ### Numbers -/

/-- Cells that all convert. -/
theorem mapM_map_ok {α β γ ε : Type} {f : β → Except ε γ} {g : α → β} {h : α → γ} {l : List α}
    (hf : ∀ a ∈ l, f (g a) = .ok (h a)) : (l.map g).mapM f = .ok (l.map h) :=
  mapM_map_pure hf

/-- An integer of 64 bits is far from having too many digits. -/
theorem lt_maxStrDigits {z : ℤ} (hz : z.natAbs < 2 ^ 64) : z.natAbs < 10 ^ maxStrDigits :=
  hz.trans_le two_pow_le

theorem int64Array_ok {zs : List ℤ} (h : ∀ z ∈ zs, -2 ^ 63 ≤ z ∧ z < 2 ^ 63) :
    int64Array zs = .ok zs := by
  have hnone : (zs.find? fun z => ¬ (-2 ^ 63 ≤ z ∧ z < 2 ^ 63)) = none := by
    rw [List.find?_eq_none]
    intro z hz
    simpa using h z hz
  rw [int64Array, hnone]

theorem int64Array_error {zs : List ℤ} {z : ℤ} (hz : z ∈ zs)
    (hrange : ¬ (-2 ^ 63 ≤ z ∧ z < 2 ^ 63)) :
    ∃ z' ∈ zs, ¬ (-2 ^ 63 ≤ z' ∧ z' < 2 ^ 63) ∧ int64Array zs = .error (.int64Range z') := by
  have hsome : (zs.find? fun z => ¬ (-2 ^ 63 ≤ z ∧ z < 2 ^ 63)).isSome = true := by
    rw [List.find?_isSome]
    exact ⟨z, hz, decide_eq_true hrange⟩
  obtain ⟨z', hz'⟩ := Option.isSome_iff_exists.mp hsome
  refine ⟨z', List.mem_of_find?_eq_some hz', ?_, ?_⟩
  · have hout := List.find?_some hz'
    exact of_decide_eq_true hout
  · rw [int64Array, hz']

/-- The array holds the integers it was made of. -/
theorem map_int64Array {β : Type} (zs : List ℤ) (f : List ℤ → β) :
    (int64Array zs).map f = (int64Array zs).map fun _ => f zs := by
  unfold int64Array
  split
  · rfl
  · rfl

section

variable {U : Unicode} (hU : U.Ascii) (fl : FloatOps F)
include hU

/-- An integer that was printed is read back. -/
theorem toInt_strOf {z : ℤ} (hz : z.natAbs < 10 ^ maxStrDigits) :
    toInt U fl (strOf z) = .ok z := by
  rw [toInt, strip_strOf hU, if_pos (isdigit_lstripSigns_strOf hU z), pyInt, intOf_strOf hU z hz]

theorem toTos_strOf {z : ℤ} (hz : z.natAbs < 10 ^ maxStrDigits) :
    toTos U fl (strOf z) = .ok z := by
  have hne : strip U (strOf z) ≠ [] := by
    rw [strip_strOf hU]
    cases z with
    | ofNat n => exact Nat.toDigits_ne_nil
    | negSucc n => exact List.cons_ne_nil _ _
  rw [toTos, if_pos hne, toInt_strOf hU fl hz]

variable {α : Type} {l : List α}

/-- **A column of printed integers** is read as these, if they fit the array. -/
theorem ints_strOf {z : α → ℤ} (hz : ∀ a ∈ l, (z a).natAbs < 2 ^ 64) :
    ints U fl (l.map fun a => strOf (z a)) = int64Array (l.map z) := by
  have hcells : (l.map fun a => strOf (z a)).mapM (toInt U fl) = .ok (l.map z) :=
    mapM_map_ok fun a ha => toInt_strOf hU fl (lt_maxStrDigits (hz a ha))
  rw [ints, hcells]
  rfl

theorem ints_strOf_natCast {n : α → ℕ} (hn : ∀ a ∈ l, n a < 2 ^ 63) :
    ints U fl (l.map fun a => strOf (n a)) = .ok (l.map fun a => (n a : ℤ)) := by
  have hsmall : ∀ a ∈ l, ((n a : ℤ)).natAbs < 2 ^ 64 := fun a ha =>
    Nat.lt_trans (hn a ha) (by decide)
  rw [ints_strOf hU fl hsmall, int64Array_ok]
  intro z hz
  obtain ⟨a, ha, rfl⟩ := List.mem_map.mp hz
  have hlt := hn a ha
  omega

/-- A column of printed `tos` values. -/
theorem tosColumn_strOf {t : α → ℤ} (ht : ∀ a ∈ l, -1 ≤ t a ∧ t a < 256) :
    (l.map fun a => strOf (t a)).mapM (toTos U fl) >>= int64Array = .ok (l.map t) := by
  have hcells : (l.map fun a => strOf (t a)).mapM (toTos U fl) = .ok (l.map t) := by
    refine mapM_map_ok fun a ha => toTos_strOf hU fl (lt_maxStrDigits ?_)
    have hrange := ht a ha
    omega
  rw [hcells]
  refine int64Array_ok fun z hz => ?_
  obtain ⟨a, ha, rfl⟩ := List.mem_map.mp hz
  have hrange := ht a ha
  omega

end

/-- A column of printed floats. -/
theorem floats_repr {fl : FloatOps F} (hfl : fl.Exact) {α : Type} (l : List α) (x : α → F) :
    floats fl (l.map fun a => fl.repr (x a)) = .ok (l.map x) :=
  mapM_map_ok fun a _ => by rw [pyFloat, hfl (x a)]

/-! ### The run -/

/-- A file of which everything but the send times is known to load. -/
theorem loadCsv_of_ok {U : Unicode} {fl : FloatOps F} {path : CsvPath} {text : List Char}
    {header : List Str} {rows : List (List Str)} {tos : Option (List ℤ)}
    {name : Str × Option ℤ} {seq recvNs pktSize : List ℤ} {latencyMs jitterUs : List F}
    (htable : dictReader (Csv.read text) = (header, rows))
    (hheader : Csv.Fits header) (hcells : ∀ cells ∈ rows, Csv.Fits cells)
    (hreq : ∀ c ∈ requiredColumns, c ∈ header)
    (hrows : columnsOf header rows "seq".toList ≠ [])
    (htos : loadTos U fl header (columnsOf header rows) = .ok tos)
    (hname : parseName U path.stem = .ok name)
    (hseq : ints U fl (columnsOf header rows "seq".toList) = .ok seq)
    (hrecv : ints U fl (columnsOf header rows "recv_ns".toList) = .ok recvNs)
    (hlatency : floats fl (columnsOf header rows "latency_ms".toList) = .ok latencyMs)
    (hjitter : floats fl (columnsOf header rows "jitter_us".toList) = .ok jitterUs)
    (hsize : ints U fl (columnsOf header rows "pkt_size".toList) = .ok pktSize) :
    loadCsv U fl path text
      = (ints U fl (columnsOf header rows "send_ns".toList)).map fun sendNs =>
        { name := path.stem, condition := name.1, runIndex := name.2, seq, sendNs, recvNs,
          latencyMs, jitterUs, pktSize, tos, path := some path } := by
  -- none of the checks on the table as a whole raises
  have hmissing : requiredColumns.filter (· ∉ header) = [] := by
    rw [List.filter_eq_nil_iff]
    intro c hc
    simp [hreq c hc]
  have hlarge : ¬ ∃ cells ∈ rows, ¬ Csv.Fits cells := fun ⟨cells, hmem, hno⟩ =>
    hno (hcells cells hmem)
  unfold loadCsv
  simp only [htable, hheader, hmissing, hlarge, ne_eq, not_true_eq_false, if_false, if_neg hrows,
    htos, hname, hseq, hrecv, hlatency, hjitter, hsize]
  -- `send_ns` is the one column that is left open
  cases ints U fl (columnsOf header rows "send_ns".toList) with
  | error e => rfl
  | ok sendNs => rfl

end TsPacket
