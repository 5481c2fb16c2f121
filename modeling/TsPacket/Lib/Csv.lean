import Mathlib.Data.List.Basic
import Mathlib.Data.Nat.Notation
import Mathlib.Tactic.Common

/-!
# Comma-separated values

The writer and the reader of the usual dialect: fields separated by commas, records ended
by a carriage return and a line feed, a field in double quotes when it needs them, with
every quote inside doubled.  The reader is a state machine over the characters; outside
quotes it ends a record at either newline character or at both in order.  Every text is
read as some table, and a table that was written is read back.  A reader gives up at a
record with a field over its limit; the records before it have been read by then.

## Main definitions

* `writeRow`, `write` — the writer.
* `Reader`, `Reader.step`, `read` — the reader.
* `fieldSizeLimit`, `Fits` — the limit on a field, and the records that keep to it.

## Main results

* `read_write` — **the reader undoes the writer**, for any cells.
-/

namespace Csv

/-- The text of a cell. -/
abbrev Cell := List Char

/-! ### The writer -/

/-- A character that cannot stand in a cell without quotes. -/
def special (c : Char) : Bool := c == ',' || c == '"' || c == '\r' || c == '\n'

/-- A cell with its quotes doubled. -/
def escape (s : Cell) : List Char := s.flatMap fun c => if c = '"' then ['"', '"'] else [c]

/-- A cell in quotes. -/
def quoted (s : Cell) : List Char := '"' :: escape s ++ ['"']

/-- A cell, in quotes if it needs them. -/
def writeField (s : Cell) : List Char := if s.any special then quoted s else s

/-- The cells of a record with commas between them. -/
def writeFields : List Cell → List Char
  | [] => []
  | [s] => writeField s
  | s :: fs => writeField s ++ ',' :: writeFields fs

/-- A record.  A single empty cell is quoted, to tell it from no cell at all. -/
def writeRow (fs : List Cell) : List Char :=
  (if fs = [[]] then quoted [] else writeFields fs) ++ ['\r', '\n']

/-- The records one after the other. -/
def write (rows : List (List Cell)) : List Char := rows.flatMap writeRow

/-! ### The reader -/

/-- What the reader is in the middle of. -/
inductive Mode
  | startRecord
  /-- A record ended with a carriage return, to which a line feed may belong. -/
  | afterCr
  | startField
  | inField
  | inQuoted
  /-- A quote inside a quoted field, which may end it or be doubled. -/
  | quoteInQuoted
  deriving DecidableEq

/-- The reader: the field and the record it is in, and the records before. -/
structure Reader where
  mode : Mode
  field : Cell
  fields : List Cell
  records : List (List Cell)

namespace Reader

/-- The reader before the text. -/
def init : Reader := { mode := .startRecord, field := [], fields := [], records := [] }

/-- Adds a character to the field. -/
def add (r : Reader) (m : Mode) (c : Char) : Reader :=
  { r with mode := m, field := r.field ++ [c] }

/-- Ends the field at a comma. -/
def endField (r : Reader) : Reader :=
  { r with mode := .startField, field := [], fields := r.fields ++ [r.field] }

/-- The mode after a newline character outside quotes. -/
def afterEol (c : Char) : Mode := if c = '\r' then .afterCr else .startRecord

/-- Ends the record at a newline character. -/
def endRecord (r : Reader) (c : Char) : Reader :=
  { mode := afterEol c, field := [], fields := [], records := r.records ++ [r.fields ++ [r.field]] }

/-- A newline character. -/
def isEol (c : Char) : Bool := c == '\r' || c == '\n'

/-- The first character of a field. -/
def start (r : Reader) (c : Char) : Reader :=
  if isEol c then r.endRecord c
  else if c = '"' then { r with mode := .inQuoted }
  else if c = ',' then r.endField
  else r.add .inField c

/-- The first character of a record: a newline makes an empty one. -/
def startRow (r : Reader) (c : Char) : Reader :=
  if isEol c then { r with mode := afterEol c, records := r.records ++ [[]] } else r.start c

/-- One character. -/
def step (r : Reader) (c : Char) : Reader :=
  match r.mode with
  | .startRecord => r.startRow c
  | .afterCr => if c = '\n' then { r with mode := .startRecord } else r.startRow c
  | .startField => r.start c
  | .inField =>
    if isEol c then r.endRecord c else if c = ',' then r.endField else r.add .inField c
  | .inQuoted => if c = '"' then { r with mode := .quoteInQuoted } else r.add .inQuoted c
  -- a quote inside quotes: doubled, or the end of the quoted part
  | .quoteInQuoted =>
    if c = '"' then r.add .inQuoted c
    else if c = ',' then r.endField
    else if isEol c then r.endRecord c
    else r.add .inField c

/-- The end of the text ends the record it is in. -/
def finish (r : Reader) : List (List Cell) :=
  if r.mode = .startRecord ∨ r.mode = .afterCr then r.records
  else r.records ++ [r.fields ++ [r.field]]

end Reader

/-- The table a text denotes.  A NUL is a character like any other, as it is for `csv` from
Python 3.11 on. -/
def read (text : List Char) : List (List Cell) := (text.foldl Reader.step .init).finish

/-- The most characters a field may have: `csv.field_size_limit()`. -/
def fieldSizeLimit : ℕ := 131072

/-- No field of the record is over the limit. -/
def Fits (record : List Cell) : Prop := ∀ s ∈ record, s.length ≤ fieldSizeLimit

instance (record : List Cell) : Decidable (Fits record) := List.decidableBAll _ record

/-! ### One field -/

/-- The reader holds the field `s`, not yet ended. -/
structure Holds (r : Reader) (s : Cell) (fs : List Cell) (rs : List (List Cell)) : Prop where
  field : r.field = s
  fields : r.fields = fs
  records : r.records = rs
  /-- In a field, or before an empty one. -/
  mode : r.mode = .inField ∨ r.mode = .quoteInQuoted ∨ r.mode = .startField ∨
    r.mode = .startRecord

namespace Holds

variable {r : Reader} {s : Cell} {fs : List Cell} {rs : List (List Cell)}

theorem comma (h : Holds r s fs rs) :
    r.step ',' = { mode := .startField, field := [], fields := fs ++ [s], records := rs } := by
  have hend : r.endField
      = { mode := .startField, field := [], fields := fs ++ [s], records := rs } := by
    rw [Reader.endField, h.field, h.fields, h.records]
  have heol : Reader.isEol ',' = false := rfl
  rw [← hend]
  -- a comma ends the field in every mode that holds one
  rcases h.mode with hm | hm | hm | hm <;>
    simp [Reader.step, hm, Reader.startRow, Reader.start, heol]

theorem newline (h : Holds r s fs rs) (hm : r.mode ≠ .startRecord) :
    ['\r', '\n'].foldl Reader.step r
      = { mode := .startRecord, field := [], fields := [], records := rs ++ [fs ++ [s]] } := by
  have hend : r.endRecord '\r'
      = { mode := .afterCr, field := [], fields := [], records := rs ++ [fs ++ [s]] } := by
    rw [Reader.endRecord, h.field, h.fields, h.records]
    rfl
  have heol : Reader.isEol '\r' = true := rfl
  have hcr : r.step '\r' = r.endRecord '\r' := by
    rcases h.mode with hm' | hm' | hm' | hm'
    · simp [Reader.step, hm', heol]
    · simp [Reader.step, hm', heol]
    · simp [Reader.step, hm', Reader.start, heol]
    · exact absurd hm' hm
  rw [List.foldl_cons, List.foldl_cons, List.foldl_nil, hcr, hend]
  rfl

end Holds

/-- Characters of a field without quotes. -/
theorem foldl_inField : ∀ (s : Cell) (r : Reader), r.mode = .inField →
    (∀ c ∈ s, special c = false) →
    s.foldl Reader.step r = { r with field := r.field ++ s } := by
  intro s
  induction s with
  | nil =>
    intro r _ _
    rw [List.foldl_nil, List.append_nil]
  | cons c cs ih =>
    intro r hm h
    have hc := h c List.mem_cons_self
    simp only [special, Bool.or_eq_false_iff, beq_eq_false_iff_ne] at hc
    obtain ⟨⟨⟨hcomma, -⟩, hcr⟩, hlf⟩ := hc
    have hstep : r.step c = r.add .inField c := by
      simp [Reader.step, hm, Reader.isEol, hcomma, hcr, hlf]
    rw [List.foldl_cons, hstep, ih _ rfl fun d hd => h d (List.mem_cons_of_mem c hd), Reader.add]
    simp [hm]

/-- Characters of a quoted field. -/
theorem foldl_escape : ∀ (s : Cell) (r : Reader), r.mode = .inQuoted →
    (escape s).foldl Reader.step r = { r with field := r.field ++ s } := by
  intro s
  induction s with
  | nil =>
    intro r _
    rw [escape, List.flatMap_nil, List.foldl_nil, List.append_nil]
  | cons c cs ih =>
    intro r hm
    have hrest : escape (c :: cs) = (if c = '"' then ['"', '"'] else [c]) ++ escape cs := by
      rw [escape, List.flatMap_cons, ← escape]
    have hchar : (if c = '"' then ['"', '"'] else [c]).foldl Reader.step r
        = r.add .inQuoted c := by
      by_cases hq : c = '"'
      · subst hq
        simp [Reader.step, hm, Reader.add]
      · simp [Reader.step, hm, hq]
    rw [hrest, List.foldl_append, hchar, ih _ rfl, Reader.add]
    simp [hm]

/-- The reader before the first character of a field. -/
def atField (m : Mode) (fs : List Cell) (rs : List (List Cell)) : Reader :=
  { mode := m, field := [], fields := fs, records := rs }

/-- A quoted field is held by the reader. -/
theorem foldl_quoted (s : Cell) {m : Mode} (hm : m = .startField ∨ m = .startRecord)
    (fs : List Cell) (rs : List (List Cell)) :
    (quoted s).foldl Reader.step (atField m fs rs)
      = { mode := .quoteInQuoted, field := s, fields := fs, records := rs } := by
  have hquote : (atField m fs rs).step '"' = { atField m fs rs with mode := .inQuoted } := by
    have heol : Reader.isEol '"' = false := rfl
    rcases hm with rfl | rfl <;>
      simp [atField, Reader.step, Reader.startRow, Reader.start, heol]
  rw [quoted, List.cons_append, List.foldl_cons, hquote, List.foldl_append, foldl_escape _ _ rfl]
  simp [atField, Reader.step]

/-- A written field is held by the reader; it is in a field unless the text is empty. -/
theorem foldl_writeField (s : Cell) {m : Mode} (hm : m = .startField ∨ m = .startRecord)
    (fs : List Cell) (rs : List (List Cell)) :
    Holds ((writeField s).foldl Reader.step (atField m fs rs)) s fs rs ∧
      (s ≠ [] ∨ m = .startField →
        ((writeField s).foldl Reader.step (atField m fs rs)).mode ≠ .startRecord) := by
  by_cases hspecial : s.any special
  · rw [writeField, if_pos hspecial, foldl_quoted s hm]
    exact ⟨⟨rfl, rfl, rfl, Or.inr (Or.inl rfl)⟩, fun _ => Mode.noConfusion⟩
  · -- without a special character the cell is written as it is
    rw [writeField, if_neg hspecial]
    have hplain : ∀ c ∈ s, special c = false := by
      intro c hc
      rw [← Bool.not_eq_true]
      exact fun h => hspecial (List.any_eq_true.mpr ⟨c, hc, h⟩)
    cases s with
    -- an empty cell leaves the reader where the field starts
    | nil =>
      refine ⟨⟨rfl, rfl, rfl, Or.inr (Or.inr hm)⟩, fun h => ?_⟩
      rw [List.foldl_nil, h.resolve_left (not_not.mpr rfl)]
      exact Mode.noConfusion
    | cons c cs =>
      have hc := hplain c List.mem_cons_self
      simp only [special, Bool.or_eq_false_iff, beq_eq_false_iff_ne] at hc
      obtain ⟨⟨⟨hcomma, hquote⟩, hcr⟩, hlf⟩ := hc
      have hfirst : (atField m fs rs).step c
          = { mode := .inField, field := [c], fields := fs, records := rs } := by
        rcases hm with rfl | rfl <;>
          simp [atField, Reader.step, Reader.startRow, Reader.start, Reader.add, Reader.isEol,
            hcomma, hquote, hcr, hlf]
      rw [List.foldl_cons, hfirst,
        foldl_inField cs _ rfl fun d hd => hplain d (List.mem_cons_of_mem c hd)]
      exact ⟨⟨rfl, rfl, rfl, Or.inl rfl⟩, fun _ => Mode.noConfusion⟩

/-! ### Records -/

/-- The fields of a record, and its end. -/
theorem foldl_writeFields : ∀ (cells : List Cell) (m : Mode) (fs : List Cell)
    (rs : List (List Cell)), cells ≠ [] →
    (m = .startField ∨ (m = .startRecord ∧ cells ≠ [[]])) →
    (writeFields cells ++ ['\r', '\n']).foldl Reader.step (atField m fs rs)
      = atField .startRecord [] (rs ++ [fs ++ cells]) := by
  intro cells
  induction cells with
  | nil => intro m fs rs hne _; exact absurd rfl hne
  | cons s cells ih =>
    intro m fs rs _ hm
    have hm' : m = .startField ∨ m = .startRecord := hm.imp_right And.left
    obtain ⟨hholds, hmode⟩ := foldl_writeField s hm' fs rs
    cases cells with
    | nil =>
      -- the last field: a lone empty cell would be no record yet
      rw [writeFields, List.foldl_append, hholds.newline (hmode ?_)]
      · rfl
      · rcases hm with hm | ⟨-, hne⟩
        · exact Or.inr hm
        · exact Or.inl fun hs => hne (by rw [hs])
    | cons s' cells =>
      rw [writeFields, List.append_assoc, List.foldl_append, List.cons_append, List.foldl_cons,
        hholds.comma]
      · rw [← atField, ih _ _ _ (List.cons_ne_nil _ _) (Or.inl rfl), List.append_assoc]
        rfl
      · exact List.cons_ne_nil _ _

/-- A written record is read as one. -/
theorem foldl_writeRow (cells : List Cell) (rs : List (List Cell)) :
    (writeRow cells).foldl Reader.step (atField .startRecord [] rs)
      = atField .startRecord [] (rs ++ [cells]) := by
  rw [writeRow]
  by_cases hsingle : cells = [[]]
  · rw [if_pos hsingle, List.foldl_append, foldl_quoted [] (Or.inr rfl), hsingle]
    exact Holds.newline ⟨rfl, rfl, rfl, Or.inr (Or.inl rfl)⟩ Mode.noConfusion
  · rw [if_neg hsingle]
    cases cells with
    | nil => rfl
    | cons s cells =>
      exact foldl_writeFields _ _ _ _ (List.cons_ne_nil _ _) (Or.inr ⟨rfl, hsingle⟩)

/-- **The reader undoes the writer.** -/
theorem read_write (rows : List (List Cell)) : read (write rows) = rows := by
  -- by induction on the rows, for any records read before
  have hrows : ∀ (rows : List (List Cell)) (rs : List (List Cell)),
      (write rows).foldl Reader.step (atField .startRecord [] rs)
        = atField .startRecord [] (rs ++ rows) := by
    intro rows
    induction rows with
    | nil =>
      intro rs
      rw [write, List.flatMap_nil, List.foldl_nil, List.append_nil]
    | cons row rows ih =>
      intro rs
      rw [write, List.flatMap_cons, List.foldl_append, foldl_writeRow, ← write, ih,
        List.append_assoc]
      rfl
  have hinit : Reader.init = atField .startRecord [] [] := rfl
  rw [read, hinit, hrows]
  exact if_pos (Or.inl rfl)

end Csv
