import TsPacket.Lib.PyText

/-!
# Tables between bars

A text of lines, in which a title starts a section and the rows of a table stand between bars:
the row of its headers, a rule, and the other rows.  The reader knows nothing of the writer but
this: it cuts the text into lines, a row at its bars, and takes one blank from either end of a
cell.

## Main definitions

* `row`, `rule`, `table`, `document` — the writer.
* `readRow`, `sections`, `readTables` — the reader, for which all rows of a table have one width.
* `Section.Clean` — what a section must be to be read back.

## Main results

* `readRow_row` — a row is cut into its cells.
* `cell_map` — a row is found under its name.
* `readTables_document` — **every document of clean sections is read back** as their tables.
-/

namespace PipeTable

open PyText

/-! ### The writer -/

/-- `"| " + " | ".join(cells) + " |"`. -/
def row (cells : List Str) : Str :=
  "| ".toList ++ " | ".toList.intercalate cells ++ " |".toList

/-- `"|" + "|".join("---" for _ in headers) + "|"`. -/
def rule (headers : List Str) : Str :=
  "|".toList ++ "|".toList.intercalate (headers.map fun _ => "---".toList) ++ "|".toList

/-- The lines of a table, with an empty one behind them. -/
def table (headers : List Str) (rows : List (List Str)) : List Str :=
  [row headers, rule headers] ++ rows.map row ++ [[]]

/-- A table with its title, and lines of text before it. -/
structure Section where
  title : Str
  notes : List Str := []
  headers : List Str
  rows : List (List Str)

/-- The lines of a section. -/
def Section.lines (s : Section) : List Str :=
  ("## ".toList ++ s.title) :: [] :: s.notes ++ table s.headers s.rows

/-- The lines before the first section, and the sections. -/
def document (preamble : List Str) (ss : List Section) : Str :=
  "\n".toList.intercalate (preamble ++ ss.flatMap Section.lines)

/-! ### The reader -/

/-- What a reader gets of a section. -/
structure Table where
  title : Str
  headers : List Str
  rows : List (List Str)
  deriving DecidableEq

/-- The table of a section. -/
def Section.table (s : Section) : Table := ⟨s.title, s.headers, s.rows⟩

/-- A text without a blank at its start, and one at its end. -/
def trim (s : Str) : Str :=
  let t := if s.head? = some ' ' then s.tail else s
  if t.getLast? = some ' ' then t.dropLast else t

/-- The cells of a line, if it starts and ends with a bar. -/
def readRow (line : Str) : Option (List Str) :=
  let parts := line.splitOn '|'
  if 3 ≤ parts.length ∧ parts.head? = some [] ∧ parts.getLast? = some [] then
    some (parts.tail.dropLast.map trim)
  else none

/-- The title, if the line is one. -/
def readTitle (line : Str) : Option Str :=
  if "## ".toList.isPrefixOf line then some (line.drop 3) else none

/-- The titles, each with the rows up to the next. -/
def sections : List Str → List (Str × List (List Str))
  | [] => []
  | line :: lines =>
    match readTitle line with
    | some title =>
      (title, (lines.takeWhile fun l => (readTitle l).isNone).filterMap readRow) :: sections lines
    | none => sections lines

/-- Headers, a rule of the same width, and rows of the same width. -/
def readTable (title : Str) : List (List Str) → Option Table
  | headers :: marks :: rows =>
    if marks = headers.map (fun _ => "---".toList) ∧ ∀ r ∈ rows, r.length = headers.length then
      some ⟨title, headers, rows⟩
    else none
  | _ => none

/-- The tables of a text, one for each title. -/
def readTables (text : Str) : Option (List Table) :=
  (sections (text.splitOn '\n')).mapM fun s => readTable s.1 s.2

/-! ### Rows -/

/-- A cell between its blanks. -/
def pad (cell : Str) : Str := ' ' :: cell ++ [' ']

theorem trim_pad (cell : Str) : trim (pad cell) = cell := by
  simp [trim, pad]

/-- The blanks go to the cells. -/
theorem intercalate_pad : ∀ {cells : List Str}, cells ≠ [] →
    ' ' :: (" | ".toList.intercalate cells ++ [' ']) = "|".toList.intercalate (cells.map pad) := by
  intro cells
  induction cells with
  | nil => exact fun h => absurd rfl h
  | cons cell cells ih =>
    intro _
    cases cells with
    | nil => simp [pad]
    | cons cell' cells =>
      -- the blank before a bar is the padding of the cell behind it
      have hrest := ih (List.cons_ne_nil _ _)
      rw [List.map_cons] at hrest
      rw [List.map_cons, List.map_cons, List.intercalate_cons_cons, List.intercalate_cons_cons,
        ← hrest]
      simp [pad]

/-- An empty part at the end is a separator. -/
theorem intercalate_concat_nil (sep : Str) : ∀ {parts : List Str}, parts ≠ [] →
    sep.intercalate (parts ++ [[]]) = sep.intercalate parts ++ sep := by
  intro parts
  induction parts with
  | nil => exact fun h => absurd rfl h
  | cons part parts ih =>
    intro _
    cases parts with
    | nil => simp
    | cons part' parts =>
      have hrest := ih (List.cons_ne_nil _ _)
      rw [List.cons_append] at hrest
      rw [List.cons_append, List.cons_append, List.intercalate_cons_cons,
        List.intercalate_cons_cons, hrest, List.append_assoc _ _ sep]

theorem intercalate_bars {parts : List Str} (hne : parts ≠ []) :
    "|".toList.intercalate ([] :: (parts ++ [[]]))
      = "|".toList ++ "|".toList.intercalate parts ++ "|".toList := by
  rw [List.intercalate_cons_of_ne_nil (by simp), intercalate_concat_nil _ hne]
  simp

/-- A row is its padded cells between bars. -/
theorem row_eq {cells : List Str} (hne : cells ≠ []) :
    row cells = "|".toList.intercalate ([] :: (cells.map pad ++ [[]])) := by
  rw [intercalate_bars (mt List.map_eq_nil_iff.mp hne), ← intercalate_pad hne]
  simp [row]

/-- A line between bars is cut there. -/
theorem splitOn_bars {parts : List Str} (hbar : ∀ p ∈ parts, '|' ∉ p) :
    ("|".toList.intercalate ([] :: (parts ++ [[]]))).splitOn '|' = [] :: (parts ++ [[]]) := by
  apply List.splitOn_intercalate
  · simp only [List.mem_cons, List.mem_append, List.not_mem_nil, or_false]
    rintro p (rfl | hp | rfl)
    · exact List.not_mem_nil
    · exact hbar p hp
    · exact List.not_mem_nil
  · exact List.cons_ne_nil _ _

theorem readRow_bars {parts : List Str} (hne : parts ≠ []) (hbar : ∀ p ∈ parts, '|' ∉ p) :
    readRow ("|".toList.intercalate ([] :: (parts ++ [[]]))) = some (parts.map trim) := by
  have hpos := List.length_pos_iff.mpr hne
  rw [readRow, splitOn_bars hbar, if_pos]
  · rw [List.tail_cons, List.dropLast_concat]
  · refine ⟨?_, rfl, ?_⟩
    · rw [List.length_cons, List.length_append, List.length_singleton]
      omega
    · rw [← List.cons_append, List.getLast?_concat]

/-- **A row is cut into its cells**, if there is no bar in them. -/
theorem readRow_row {cells : List Str} (hne : cells ≠ []) (hbar : ∀ c ∈ cells, '|' ∉ c) :
    readRow (row cells) = some cells := by
  rw [row_eq hne, readRow_bars (mt List.map_eq_nil_iff.mp hne), List.map_map]
  · congr 1
    exact (List.map_congr_left fun c _ => trim_pad c).trans (List.map_id _)
  · intro p hp
    obtain ⟨c, hc, rfl⟩ := List.mem_map.mp hp
    simpa [pad] using hbar c hc

theorem readRow_rule {headers : List Str} (hne : headers ≠ []) :
    readRow (rule headers) = some (headers.map fun _ => "---".toList) := by
  have hmarks : headers.map (fun _ => "---".toList) ≠ [] := mt List.map_eq_nil_iff.mp hne
  rw [rule, ← intercalate_bars hmarks, readRow_bars hmarks, List.map_map]
  · rfl
  · intro p hp
    obtain ⟨c, -, rfl⟩ := List.mem_map.mp hp
    decide

/-! ### Lines -/

theorem forall_mem_intercalate {P : Char → Prop} {sep : Str} (hsep : ∀ c ∈ sep, P c) :
    ∀ {parts : List Str}, (∀ p ∈ parts, ∀ c ∈ p, P c) → ∀ c ∈ sep.intercalate parts, P c := by
  intro parts
  induction parts with
  | nil => simp
  | cons part parts ih =>
    intro h
    rw [List.forall_mem_cons] at h
    obtain ⟨hpart, hparts⟩ := h
    cases parts with
    | nil => simpa using hpart
    | cons part' parts =>
      rw [List.intercalate_cons_cons]
      intro c hc
      -- in the first part, in a separator, or further on
      rcases List.mem_append.mp hc with hc | hc
      · rcases List.mem_append.mp hc with hc | hc
        · exact hpart c hc
        · exact hsep c hc
      · exact ih hparts c hc

theorem mem_intercalate {sep part : Str} {c : Char} (hc : c ∈ part) :
    ∀ {parts : List Str}, part ∈ parts → c ∈ sep.intercalate parts := by
  intro parts
  induction parts with
  | nil => exact fun h => absurd h List.not_mem_nil
  | cons part' parts ih =>
    intro h
    cases parts with
    | nil =>
      rw [List.mem_singleton] at h
      simpa [← h] using hc
    | cons part'' parts =>
      rw [List.intercalate_cons_cons]
      rcases List.mem_cons.mp h with rfl | h
      · exact List.mem_append_left _ (List.mem_append_left _ hc)
      · exact List.mem_append_right _ (ih h)

/-- What holds of the characters of the cells, the bars and the blanks holds of the row. -/
theorem forall_mem_row {P : Char → Prop} (hbar : P '|') (hblank : P ' ') {cells : List Str}
    (h : ∀ c ∈ cells, ∀ x ∈ c, P x) : ∀ x ∈ row cells, P x := by
  have hsep : ∀ c ∈ " | ".toList, P c := by simp [hbar, hblank]
  have hcells := forall_mem_intercalate hsep h
  intro x hx
  simp only [row, List.mem_append] at hx
  rcases hx with (hx | hx) | hx
  · revert x
    simp [hbar, hblank]
  · exact hcells x hx
  · revert x
    simp [hbar, hblank]

theorem forall_mem_rule {P : Char → Prop} (hbar : P '|') (hdash : P '-') (headers : List Str) :
    ∀ x ∈ rule headers, P x := by
  have hmarks : ∀ x ∈ "|".toList.intercalate (headers.map fun _ => "---".toList), P x := by
    refine forall_mem_intercalate (by simp [hbar]) ?_
    simp [hdash]
  intro x hx
  simp only [rule, List.mem_append] at hx
  rcases hx with (hx | hx) | hx
  · revert x
    simp [hbar]
  · exact hmarks x hx
  · revert x
    simp [hbar]

/-- What holds of the characters of the texts and the marks holds of the lines. -/
theorem forall_mem_lines {P : Char → Prop} (hmarks : ∀ c ∈ "#|- ".toList, P c) {s : Section}
    (htitle : ∀ x ∈ s.title, P x) (hnotes : ∀ l ∈ s.notes, ∀ x ∈ l, P x)
    (hcells : ∀ r ∈ s.headers :: s.rows, ∀ c ∈ r, ∀ x ∈ c, P x) :
    ∀ l ∈ s.lines, ∀ x ∈ l, P x := by
  have hbar : P '|' := hmarks _ (by decide)
  have hblank : P ' ' := hmarks _ (by decide)
  have hhash : P '#' := hmarks _ (by decide)
  have hrow : ∀ r ∈ s.headers :: s.rows, ∀ x ∈ row r, P x := fun r hr =>
    forall_mem_row hbar hblank (hcells r hr)
  intro l hl
  simp only [Section.lines, PipeTable.table, List.mem_append, List.mem_cons, List.not_mem_nil,
    or_false, List.mem_map] at hl
  -- title, blank line, notes, header, rule, rows, blank line
  rcases hl with (rfl | rfl | hl) | ((rfl | rfl) | hl) | rfl
  · have hstart : ∀ x ∈ "## ".toList, P x := by simp [hhash, hblank]
    exact List.forall_mem_append.mpr ⟨hstart, htitle⟩
  · exact fun _ hx => absurd hx List.not_mem_nil
  · exact hnotes l hl
  · exact hrow _ List.mem_cons_self
  · exact forall_mem_rule hbar (hmarks _ (by decide)) s.headers
  · obtain ⟨r, hr, rfl⟩ := hl
    exact hrow r (List.mem_cons_of_mem _ hr)
  · exact fun _ hx => absurd hx List.not_mem_nil

@[simp] theorem readTitle_title (title : Str) :
    readTitle ("## ".toList ++ title) = some title := by
  simp [readTitle]

@[simp] theorem readTitle_nil : readTitle [] = none := rfl

@[simp] theorem readRow_nil : readRow [] = none := rfl

@[simp] theorem readTitle_row (cells : List Str) : readTitle (row cells) = none := by
  simp [readTitle, row]

@[simp] theorem readTitle_rule (headers : List Str) : readTitle (rule headers) = none := by
  simp [readTitle, rule]

/-! ### Documents -/

/-- A text that can stand in a cell. -/
def Plain (s : Str) : Prop := '|' ∉ s ∧ '\n' ∉ s

instance (s : Str) : Decidable (Plain s) := inferInstanceAs (Decidable (_ ∧ _))

/-- A section that is read back: no bars and line feeds in what is written, and one width. -/
structure Section.Clean (s : Section) : Prop where
  title : '\n' ∉ s.title
  notes : ∀ l ∈ s.notes, '\n' ∉ l ∧ readTitle l = none ∧ readRow l = none
  headers : s.headers ≠ []
  cells : ∀ r ∈ s.headers :: s.rows, ∀ c ∈ r, Plain c
  width : ∀ r ∈ s.rows, r.length = s.headers.length

/-- The lines of a section behind its title. -/
def Section.body (s : Section) : List Str :=
  [] :: s.notes ++ PipeTable.table s.headers s.rows

/-- All the rows of a section, with its rule. -/
def Section.allRows (s : Section) : List (List Str) :=
  s.headers :: (s.headers.map fun _ => "---".toList) :: s.rows

namespace Section.Clean

variable {s : Section} (h : s.Clean)
include h

theorem row_ne {r : List Str} (hr : r ∈ s.rows) : r ≠ [] := by
  rw [ne_eq, ← List.length_eq_zero_iff, h.width r hr, List.length_eq_zero_iff]
  exact h.headers

theorem readTitle_body : ∀ l ∈ s.body, readTitle l = none := by
  intro l hl
  simp only [Section.body, PipeTable.table, List.mem_append, List.mem_cons, List.not_mem_nil,
    or_false, List.mem_map] at hl
  rcases hl with (rfl | hl) | ((rfl | rfl) | hl) | rfl
  · rfl
  · exact (h.notes l hl).2.1
  · exact readTitle_row _
  · exact readTitle_rule _
  · obtain ⟨r, -, rfl⟩ := hl
    exact readTitle_row r
  · rfl

theorem readRow_body : s.body.filterMap readRow = s.allRows := by
  have hnotes : s.notes.filterMap readRow = [] :=
    List.filterMap_eq_nil_iff.mpr fun l hl => (h.notes l hl).2.2
  have hheaders : readRow (row s.headers) = some s.headers :=
    readRow_row h.headers fun c hc => (h.cells _ List.mem_cons_self c hc).1
  have hrows : (s.rows.map row).filterMap readRow = s.rows := by
    rw [List.filterMap_map]
    refine (List.filterMap_congr (g := some) fun r hr => ?_).trans (List.filterMap_some)
    exact readRow_row (h.row_ne hr) fun c hc => (h.cells r (List.mem_cons_of_mem _ hr) c hc).1
  simp only [Section.body, PipeTable.table, Section.allRows, List.cons_append, List.nil_append,
    List.filterMap_cons, List.filterMap_append, readRow_nil, hnotes, hheaders, hrows,
    readRow_rule h.headers, List.filterMap_nil, List.append_nil]

theorem newline_lines : ∀ l ∈ s.lines, '\n' ∉ l := by
  intro l hl hmem
  refine forall_mem_lines (P := fun x => x ≠ '\n') (by simp) ?_ ?_ ?_ l hl _ hmem rfl
  · exact fun x hx heq => h.title (heq ▸ hx)
  · exact fun l hl x hx heq => (h.notes l hl).1 (heq ▸ hx)
  · exact fun r hr c hc x hx heq => (h.cells r hr c hc).2 (heq ▸ hx)

end Section.Clean

/-- Lines that are no titles open no section. -/
theorem sections_append {lines rest : List Str} (h : ∀ l ∈ lines, readTitle l = none) :
    sections (lines ++ rest) = sections rest := by
  induction lines with
  | nil => rfl
  | cons line lines ih =>
    rw [List.forall_mem_cons] at h
    rw [List.cons_append, sections, h.1]
    exact ih h.2

/-- A section ends where the next one starts. -/
theorem sections_section {s : Section} (h : s.Clean) {rest : List Str}
    (hrest : ∀ l ∈ rest.head?, (readTitle l).isNone = false) :
    sections (s.lines ++ rest) = (s.title, s.allRows) :: sections rest := by
  have hstop : rest.takeWhile (fun l => (readTitle l).isNone) = [] := by
    cases rest with
    | nil => rfl
    | cons l rest => rw [List.takeWhile_cons_of_neg (by rw [hrest l rfl]; exact Bool.false_ne_true)]
  have hlines : s.lines ++ rest = ("## ".toList ++ s.title) :: (s.body ++ rest) := rfl
  rw [hlines, sections, readTitle_title]
  dsimp only
  rw [List.takeWhile_append_of_pos fun l hl => by rw [h.readTitle_body l hl]; rfl, hstop,
    List.append_nil, h.readRow_body, sections_append h.readTitle_body]

theorem sections_flatMap : ∀ {ss : List Section}, (∀ s ∈ ss, s.Clean) →
    sections (ss.flatMap Section.lines) = ss.map fun s => (s.title, s.allRows) := by
  intro ss
  induction ss with
  | nil => exact fun _ => rfl
  | cons s ss ih =>
    intro h
    rw [List.forall_mem_cons] at h
    rw [List.flatMap_cons, sections_section h.1, ih h.2, List.map_cons]
    -- what follows is the title of the next section
    intro l hl
    cases ss with
    | nil => cases hl
    | cons s' ss =>
      have hhead : l = "## ".toList ++ s'.title := (Option.some.inj hl).symm
      rw [hhead, readTitle_title]
      rfl

theorem readTable_allRows {s : Section} (h : s.Clean) :
    readTable s.title s.allRows = some s.table := if_pos ⟨rfl, h.width⟩

/-- **A document is read back**: for each section its title, its headers and its rows. -/
theorem readTables_document {preamble : List Str} {ss : List Section} (hne : preamble ≠ [])
    (hpreamble : ∀ l ∈ preamble, '\n' ∉ l ∧ readTitle l = none) (hss : ∀ s ∈ ss, s.Clean) :
    readTables (document preamble ss) = some (ss.map Section.table) := by
  have hlines : (document preamble ss).splitOn '\n' = preamble ++ ss.flatMap Section.lines := by
    refine List.splitOn_intercalate '\n' ?_ (List.append_ne_nil_of_left_ne_nil hne _)
    intro l hl
    rcases List.mem_append.mp hl with hl | hl
    · exact (hpreamble l hl).1
    · obtain ⟨s, hs, hls⟩ := List.mem_flatMap.mp hl
      exact (hss s hs).newline_lines l hls
  rw [readTables, hlines, sections_append fun l hl => (hpreamble l hl).2, sections_flatMap hss]
  exact mapM_map_pure fun s hs => readTable_allRows (hss s hs)

/-! ### Looking into a table -/

/-- The cell under a header, of the first row with this name. -/
def Table.cell (t : Table) (name header : Str) : Option Str :=
  (t.rows.find? fun r => r.head? = some name).bind fun r => (t.headers.zip r).lookup header

/-- The first cells of the rows. -/
def Table.keys (t : Table) (n : ℕ) : List (List Str) := t.rows.map (List.take n)

/-- Where the rows have names of their own, a row is found under its name. -/
theorem cell_map {α : Type} {t : Table} {xs : List α} {key : α → Str} {cells : α → List Str}
    (hrows : t.rows = xs.map fun x => key x :: cells x) (hnodup : (xs.map key).Nodup) {x : α}
    (hx : x ∈ xs) (header : Str) :
    t.cell (key x) header = (t.headers.zip (key x :: cells x)).lookup header := by
  -- the keys are distinct, so the row found is the one of `x`
  have hfind : (xs.map fun x => key x :: cells x).find? (fun r => r.head? = some (key x))
      = some (key x :: cells x) := by
    clear hrows
    induction xs with
    | nil => exact absurd hx List.not_mem_nil
    | cons y ys ih =>
      rw [List.map_cons, List.nodup_cons] at hnodup
      rw [List.map_cons]
      rcases List.mem_cons.mp hx with rfl | hmem
      · exact List.find?_cons_of_pos (by simp)
      · have hne : key y ≠ key x := fun heq =>
          hnodup.1 (heq ▸ List.mem_map_of_mem hmem)
        rw [List.find?_cons_of_neg (by simpa using hne)]
        exact ih hnodup.2 hmem
  rw [Table.cell, hrows, hfind, Option.bind_some]

end PipeTable
