import TsPacket.Analysis.Columns
import TsPacket.Workload.Listener

/-!
# The CSV round trip

The listener writes what it recorded and the loader reads it: two programs with number
types of their own.  The header of a datagram holds an unsigned 64-bit time, the arrays of
the loader are signed, so a file is read back just as long as the times fit both.

## Main definitions

* `Run.Reads` — a run holds the rows that were recorded.
* `Row.Printable` — the texts of a row's floats keep to the limit of the reader.

## Main results

* `loadCsv_csvText` — what the loader makes of a file of the listener.
* `reads_of_loadCsv` — **a file of the listener that loads holds what was recorded.**
* `csv_round_trip_iff` — **the file is read back exactly when every send time is below
  `2 ^ 63`.**
-/

namespace TsPacket

open PyText Raise

variable {F : Type}

/-- The arrays of a run are the recorded columns; `tos` is there if it was recorded. -/
structure Run.Reads (run : Run F) (args : ListenerArgs) (results : List (Row F)) : Prop where
  seq : run.seq = results.map fun r => (r.seq : ℤ)
  sendNs : run.sendNs = results.map fun r => (r.sendNs : ℤ)
  recvNs : run.recvNs = results.map fun r => (r.recvNs : ℤ)
  latencyMs : run.latencyMs = results.map Row.latencyMs
  jitterUs : run.jitterUs = results.map Row.jitterUs
  pktSize : run.pktSize = results.map fun r => (r.pktSize : ℤ)
  tos_of_recorded : args.recordTos = true →
    ∃ tos, run.tos = some tos ∧ tos.map some = results.map Row.tos
  tos_of_not_recorded : args.recordTos = false → run.tos = none

/-- The texts of the floats of a row are not over the limit of the reader. -/
structure Row.Printable (fl : FloatOps F) (r : Row F) : Prop where
  latencyMs : (fl.repr r.latencyMs).length ≤ Csv.fieldSizeLimit
  jitterUs : (fl.repr r.jitterUs).length ≤ Csv.fieldSizeLimit

/-! ### The table -/

theorem fieldnames_nodup (args : ListenerArgs) : (fieldnames args).Nodup := by
  unfold fieldnames
  generalize args.recordTos = recordTos
  generalize args.kernelTs = kernelTs
  revert recordTos kernelTs
  decide

theorem required_mem_fieldnames (args : ListenerArgs) {c : Str} (hc : c ∈ requiredColumns) :
    c ∈ fieldnames args :=
  List.mem_append_left _ (List.mem_append_left _ hc)

theorem tos_mem_fieldnames (args : ListenerArgs) :
    "tos".toList ∈ fieldnames args ↔ args.recordTos = true := by
  unfold fieldnames
  generalize args.recordTos = recordTos
  generalize args.kernelTs = kernelTs
  revert recordTos kernelTs
  decide

/-- No name is over the limit of the reader. -/
theorem fits_fieldnames (args : ListenerArgs) : Csv.Fits (fieldnames args) := by
  unfold fieldnames
  generalize args.recordTos = recordTos
  generalize args.kernelTs = kernelTs
  revert recordTos kernelTs
  decide

theorem Row.printable_of_short {fl : FloatOps F} (hfl : fl.Short) (r : Row F) :
    r.Printable fl :=
  ⟨(hfl _).trans (by decide), (hfl _).trans (by decide)⟩

/-- Thirty digits are far from the limit of the reader. -/
theorem length_strOf_le_fieldSizeLimit {z : ℤ} (hz : z.natAbs < 10 ^ 29) :
    (strOf z).length ≤ Csv.fieldSizeLimit :=
  (length_strOf_le (show 0 < 29 by omega) hz).trans (by decide)

/-- No cell of a row is over the limit of the reader, if its floats are not. -/
theorem fits_rowCells {fl : FloatOps F} {args : ListenerArgs} {r : Row F}
    (hfits : RowFits args r) (hprint : r.Printable fl) : Csv.Fits (rowCells fl args r) := by
  have hseq := hfits.seq
  have hsend := hfits.sendNs
  have hrecv := hfits.recvNs
  have hsize := hfits.pktSize
  intro cell hcell
  rw [rowCells, List.append_assoc, List.mem_append, List.mem_append] at hcell
  rcases hcell with hcell | hcell | hcell
  -- the columns every file has
  · simp only [List.mem_cons, List.not_mem_nil, or_false] at hcell
    rcases hcell with rfl | rfl | rfl | rfl | rfl | rfl
    · exact length_strOf_le_fieldSizeLimit (by omega)
    · exact length_strOf_le_fieldSizeLimit (by omega)
    · exact length_strOf_le_fieldSizeLimit (by omega)
    · exact hprint.latencyMs
    · exact hprint.jitterUs
    · exact length_strOf_le_fieldSizeLimit (by omega)
  -- the TOS byte, if it was recorded
  · split at hcell
    case isFalse => exact absurd hcell List.not_mem_nil
    case isTrue htos =>
      obtain ⟨t, ht, hlo, hhi⟩ := hfits.tos htos
      rw [List.mem_singleton.mp hcell, ht]
      exact length_strOf_le_fieldSizeLimit (by omega)
  -- the timestamp of the kernel, if it was asked for
  · split at hcell
    case isFalse => exact absurd hcell List.not_mem_nil
    case isTrue hkernel =>
      obtain ⟨t, ht, hval⟩ := hfits.kernelNs hkernel
      rw [List.mem_singleton.mp hcell, ht]
      exact length_strOf_le_fieldSizeLimit hval

/-- The table that is read is the table that was written. -/
theorem dictReader_csvText (fl : FloatOps F) (args : ListenerArgs) (results : List (Row F)) :
    dictReader (Csv.read (csvText fl args results))
      = (fieldnames args, results.map (rowCells fl args)) := by
  have hrows : (results.map (rowCells fl args)).filter (· ≠ [])
      = results.map (rowCells fl args) := by
    rw [List.filter_eq_self]
    intro cells hcells
    obtain ⟨r, -, rfl⟩ := List.mem_map.mp hcells
    exact decide_eq_true (List.cons_ne_nil _ _)
  rw [csvText, Csv.read_write, dictReader, List.tail_cons, hrows]
  rfl

/-- A column is what the rows have in one place. -/
theorem columnsOf_csvText (fl : FloatOps F) (args : ListenerArgs) (results : List (Row F))
    (i : ℕ) {c : Str} {cell : Row F → Str} (hc : (fieldnames args)[i]? = some c)
    (hcell : ∀ r, (rowCells fl args r)[i]? = some (cell r)) :
    columnsOf (fieldnames args) (results.map (rowCells fl args)) c = results.map cell := by
  rw [columnsOf_of_nodup (fieldnames_nodup args) _ hc, List.map_map]
  refine List.map_congr_left fun r _ => ?_
  rw [Function.comp_apply, hcell r, Option.getD_some]

/-! ### The file -/

section

variable {U : Unicode} (hU : U.Lawful) {fl : FloatOps F} (hfl : fl.Exact)
  {args : ListenerArgs} {results : List (Row F)}
include hU

/-- The `tos` column is there if it was recorded, and holds what was recorded. -/
theorem loadTos_csvText (fl : FloatOps F) (hfits : ∀ r ∈ results, RowFits args r) :
    ∃ tos, loadTos U fl (fieldnames args)
        (columnsOf (fieldnames args) (results.map (rowCells fl args))) = .ok tos ∧
      (args.recordTos = true → ∃ ts, tos = some ts ∧ ts.map some = results.map Row.tos) ∧
      (args.recordTos = false → tos = none) := by
  unfold loadTos
  cases htos : args.recordTos with
  | false =>
    have hmem : "tos".toList ∉ fieldnames args := fun h => by
      rw [tos_mem_fieldnames, htos] at h
      cases h
    exact ⟨none, if_neg hmem, fun h => absurd h (by decide), fun _ => rfl⟩
  | true =>
    -- a recorded TOS is never missing, so no cell is empty
    have hval : ∀ r ∈ results, ∃ t, r.tos = some t ∧ TosValue t :=
      fun r hr => (hfits r hr).tos htos
    have hget : ∀ r ∈ results, r.tos = some (r.tos.getD (-1)) ∧ TosValue (r.tos.getD (-1)) := by
      intro r hr
      obtain ⟨t, ht, hrange⟩ := hval r hr
      rw [ht, Option.getD_some]
      exact ⟨rfl, hrange⟩
    have hcolumn : columnsOf (fieldnames args) (results.map (rowCells fl args)) "tos".toList
        = results.map fun r => cellOf r.tos := by
      refine columnsOf_csvText fl args results 6 ?_ fun r => ?_
      · simp only [fieldnames, htos, if_true]
        rfl
      · simp only [rowCells, htos, if_true]
        rfl
    have hcells : (results.map fun r => cellOf r.tos)
        = results.map fun r => strOf (r.tos.getD (-1)) := by
      refine List.map_congr_left fun r hr => ?_
      rw [(hget r hr).1]
      rfl
    rw [if_pos ((tos_mem_fieldnames args).mpr htos), hcolumn, hcells,
      tosColumn_strOf hU.toAscii fl fun r hr => (hget r hr).2]
    refine ⟨_, rfl, fun _ => ⟨_, rfl, ?_⟩, fun h => absurd h (by decide)⟩
    rw [List.map_map]
    exact List.map_congr_left fun r hr => (hget r hr).1.symm

include hfl

/-- What the loader makes of a file: every column but that of the send times fits. -/
theorem loadCsv_csvText {path : CsvPath} (hstem : path.stem.length ≤ maxStrDigits)
    (hne : results ≠ []) (hfits : ∀ r ∈ results, RowFits args r)
    (hprint : ∀ r ∈ results, r.Printable fl) :
    ∃ run : Run F, run.Reads args results ∧
      loadCsv U fl path (csvText fl args results)
        = (int64Array (results.map fun r => (r.sendNs : ℤ))).map fun _ => run := by
  obtain ⟨⟨condition, runIndex⟩, hname⟩ := parseName_ok hU hstem
  obtain ⟨tos, htos, hrec, hnorec⟩ := loadTos_csvText hU fl hfits
  -- the columns every file has, by their places
  have hseq := columnsOf_csvText fl args results 0
    (show (fieldnames args)[0]? = some "seq".toList from rfl) fun _ => rfl
  have hsend := columnsOf_csvText fl args results 1
    (show (fieldnames args)[1]? = some "send_ns".toList from rfl) fun _ => rfl
  have hrecv := columnsOf_csvText fl args results 2
    (show (fieldnames args)[2]? = some "recv_ns".toList from rfl) fun _ => rfl
  have hlatency := columnsOf_csvText fl args results 3
    (show (fieldnames args)[3]? = some "latency_ms".toList from rfl) fun _ => rfl
  have hjitter := columnsOf_csvText fl args results 4
    (show (fieldnames args)[4]? = some "jitter_us".toList from rfl) fun _ => rfl
  have hsize := columnsOf_csvText fl args results 5
    (show (fieldnames args)[5]? = some "pkt_size".toList from rfl) fun _ => rfl
  have hcells : ∀ cells ∈ results.map (rowCells fl args), Csv.Fits cells := by
    intro cells hmem
    obtain ⟨r, hr, rfl⟩ := List.mem_map.mp hmem
    exact fits_rowCells (hfits r hr) (hprint r hr)
  have hload := loadCsv_of_ok (dictReader_csvText fl args results) (fits_fieldnames args) hcells
    (fun c => required_mem_fieldnames args) (by rw [hseq]; simpa using hne) htos hname
    (by rw [hseq]; exact ints_strOf_natCast hU.toAscii fl fun r hr =>
      Nat.lt_trans (hfits r hr).seq (by decide))
    (by rw [hrecv]; exact ints_strOf_natCast hU.toAscii fl fun r hr => (hfits r hr).recvNs)
    (by rw [hlatency]; exact floats_repr hfl results Row.latencyMs)
    (by rw [hjitter]; exact floats_repr hfl results Row.jitterUs)
    (by rw [hsize]; exact ints_strOf_natCast hU.toAscii fl fun r hr =>
      Nat.lt_of_le_of_lt (hfits r hr).pktSize (by decide))
  have hints : ints U fl (results.map fun r => strOf (r.sendNs : ℤ))
      = int64Array (results.map fun r => (r.sendNs : ℤ)) :=
    ints_strOf hU.toAscii fl fun r hr => (hfits r hr).sendNs
  rw [hload, hsend, hints, map_int64Array]
  exact ⟨_, ⟨rfl, rfl, rfl, rfl, rfl, rfl, hrec, hnorec⟩, rfl⟩

/-- **A file that loads holds what was written.** -/
theorem reads_of_loadCsv {path : CsvPath} (hfits : ∀ r ∈ results, RowFits args r) {run : Run F}
    (h : loadCsv U fl path (csvText fl args results) = .ok run) : run.Reads args results := by
  have hloaded := Loaded.of_loadCsv h
  rw [dictReader_csvText] at hloaded
  obtain ⟨tos, htos, hrec, hnorec⟩ := loadTos_csvText hU fl hfits
  -- an integer column holds `str` of each number, which `int` reads back
  have hints : ∀ {i : ℕ} {c : Str} {n : Row F → ℕ} {zs : List ℤ},
      (fieldnames args)[i]? = some c →
      (∀ r, (rowCells fl args r)[i]? = some (strOf (n r))) → (∀ r ∈ results, n r < 2 ^ 64) →
      ints U fl (columnsOf (fieldnames args) (results.map (rowCells fl args)) c) = .ok zs →
      zs = results.map fun r => (n r : ℤ) := by
    intro i c n zs hc hcell hn hcol
    rw [columnsOf_csvText fl args results i hc hcell, ints_strOf hU.toAscii fl hn] at hcol
    exact (int64Array_eq_ok_iff.mp hcol).1.symm
  -- a float column holds `repr` of each number, which `float` reads back
  have hfloats : ∀ {i : ℕ} {c : Str} {x : Row F → F} {xs : List F},
      (fieldnames args)[i]? = some c →
      (∀ r, (rowCells fl args r)[i]? = some (fl.repr (x r))) →
      floats fl (columnsOf (fieldnames args) (results.map (rowCells fl args)) c) = .ok xs →
      xs = results.map x := by
    intro i c x xs hc hcell hcol
    rw [columnsOf_csvText fl args results i hc hcell, floats_repr hfl results x] at hcol
    exact (Except.ok.inj hcol).symm
  obtain rfl : run.tos = tos := eq_of_eq_ok hloaded.tos htos
  exact
    { seq := hints (i := 0) rfl (fun _ => rfl) (fun r hr => (hfits r hr).seq.trans (by decide))
        hloaded.seq
      sendNs := hints (i := 1) rfl (fun _ => rfl) (fun r hr => (hfits r hr).sendNs)
        hloaded.sendNs
      recvNs := hints (i := 2) rfl (fun _ => rfl)
        (fun r hr => (hfits r hr).recvNs.trans (by decide)) hloaded.recvNs
      latencyMs := hfloats (i := 3) rfl (fun _ => rfl) hloaded.latencyMs
      jitterUs := hfloats (i := 4) rfl (fun _ => rfl) hloaded.jitterUs
      pktSize := hints (i := 5) rfl (fun _ => rfl)
        (fun r hr => (hfits r hr).pktSize.trans_lt (by decide)) hloaded.pktSize
      tos_of_recorded := hrec
      tos_of_not_recorded := hnorec }

/-- **A file is read back just as long as its send times fit.** -/
theorem loadCsv_csvText_iff {path : CsvPath} (hstem : path.stem.length ≤ maxStrDigits)
    (hne : results ≠ []) (hfits : ∀ r ∈ results, RowFits args r)
    (hprint : ∀ r ∈ results, r.Printable fl) :
    (∃ run, loadCsv U fl path (csvText fl args results) = .ok run ∧ run.Reads args results) ↔
      ∀ r ∈ results, r.sendNs < 2 ^ 63 := by
  obtain ⟨run₀, hreads, hload⟩ := loadCsv_csvText hU hfl hstem hne hfits hprint
  rw [hload]
  constructor
  · rintro ⟨run, hok, -⟩ r hr
    by_contra hbig
    -- one time that does not fit makes the whole array fail
    obtain ⟨z, -, -, herror⟩ := int64Array_error
      (List.mem_map.mpr ⟨r, hr, rfl⟩ : (r.sendNs : ℤ) ∈ results.map fun r => (r.sendNs : ℤ))
      (by omega)
    rw [herror] at hok
    cases hok
  · intro hsmall
    have hrange : ∀ z ∈ results.map fun r => (r.sendNs : ℤ), -2 ^ 63 ≤ z ∧ z < 2 ^ 63 := by
      intro z hz
      obtain ⟨r, hr, rfl⟩ := List.mem_map.mp hz
      have hlt := hsmall r hr
      omega
    rw [int64Array_ok hrange]
    exact ⟨run₀, rfl, hreads⟩

/-- **The listener's CSV is read back exactly when every send time is below `2 ^ 63`.** -/
theorem csv_round_trip_iff (hshort : fl.Short) (args : ListenerArgs) {path : CsvPath}
    (hstem : path.stem.length ≤ maxStrDigits) {ms : List Received} (hne : ms ≠ [])
    (hms : ∀ m ∈ ms, m.WholeTos ∧ pktHeaderSize ≤ m.data.length ∧ m.recvNs < 2 ^ 63) :
    ∃ st text, listen fl args (ms.map .datagram) {} = some st ∧
      listenerMain fl args (ms.map .datagram) = some (some text) ∧
      ((∃ run, loadCsv U fl path text = .ok run ∧ run.Reads args st.results) ↔
        ∀ m ∈ ms, (unpackHeader m.data).2 < 2 ^ 63) := by
  obtain ⟨st, hst, hfields⟩ := listen_datagrams fl args ms {} fun m hm =>
    ⟨(hms m hm).1, (hms m hm).2.1⟩
  -- every datagram left one row with the fields it carried
  have hfields : st.results.map Row.fields = ms.map Received.fields := hfields
  have hresults : st.results ≠ [] := by
    intro hnil
    rw [hnil, List.map_nil] at hfields
    exact hne (List.map_eq_nil_iff.mp hfields.symm)
  have hfits : ∀ r ∈ st.results, RowFits args r := by
    refine listen_results fl args _ (fun m hm => ?_) hst fun r hr => absurd hr List.not_mem_nil
    obtain ⟨m', hm', heq⟩ := List.mem_map.mp hm
    cases heq
    exact (hms m hm').2.2
  -- so the bound on the rows is the bound on the headers
  have hsend : st.results.map Row.sendNs = ms.map fun m => (unpackHeader m.data).2 :=
    calc st.results.map Row.sendNs = (st.results.map Row.fields).map fun f => f.2.1 := by
          rw [List.map_map]; rfl
      _ = (ms.map Received.fields).map fun f => f.2.1 := by rw [hfields]
      _ = ms.map fun m => (unpackHeader m.data).2 := by rw [List.map_map]; rfl
  refine ⟨st, csvText fl args st.results, hst, ?_, ?_⟩
  · rw [listenerMain, hst, Option.map_some, if_neg hresults]
  · rw [loadCsv_csvText_iff hU hfl hstem hresults hfits fun r _ => r.printable_of_short hshort]
    have hmap : (∀ ns ∈ st.results.map Row.sendNs, ns < 2 ^ 63) ↔
        ∀ r ∈ st.results, r.sendNs < 2 ^ 63 := List.forall_mem_map
    rw [← hmap, hsend, List.forall_mem_map]

end

/-- A datagram with its TOS byte, in a file of all eight columns. -/
theorem csv_round_trip_iff_one :
    ∃ st text, listen FloatOps.small ⟨1000000, true, true, .little⟩
        ([⟨Bytes.beBytes 4 7 ++ Bytes.beBytes 8 1700000000000000000,
          [⟨ipprotoIp, ipTos, [184]⟩], 1700000000003000000⟩].map .datagram) {} = some st ∧
      listenerMain FloatOps.small ⟨1000000, true, true, .little⟩
        ([⟨Bytes.beBytes 4 7 ++ Bytes.beBytes 8 1700000000000000000,
          [⟨ipprotoIp, ipTos, [184]⟩], 1700000000003000000⟩].map .datagram) = some (some text) ∧
      ∃ run, loadCsv asciiTable FloatOps.small ⟨"fifo_run1.csv".toList, "fifo_run1".toList⟩ text
          = .ok run ∧ run.Reads ⟨1000000, true, true, .little⟩ st.results := by
  obtain ⟨st, text, hst, hmain, hiff⟩ := csv_round_trip_iff asciiTable_lawful
    FloatOps.small_exact FloatOps.small_short ⟨1000000, true, true, .little⟩
    (show (CsvPath.mk "fifo_run1.csv".toList "fifo_run1".toList).stem.length ≤ maxStrDigits by
      decide)
    (List.cons_ne_nil
      (⟨Bytes.beBytes 4 7 ++ Bytes.beBytes 8 1700000000000000000,
        [⟨ipprotoIp, ipTos, [184]⟩], 1700000000003000000⟩ : Received) [])
    (by
      intro m hm
      obtain rfl := List.mem_singleton.mp hm
      refine ⟨fun c hc _ _ => ?_, by decide, by decide⟩
      rw [List.mem_singleton.mp hc]
      exact List.cons_ne_nil _ _)
  exact ⟨st, text, hst, hmain, hiff.mpr (by decide)⟩

/-- A datagram that says it was sent at `2 ^ 63`: the file is written, and loading it fails
with an exception that is no `ValueError`. -/
theorem csv_round_trip_big_send :
    ∃ text, listenerMain FloatOps.whole ⟨1000000, false, false, .little⟩
        [.datagram ⟨Bytes.beBytes 4 0 ++ Bytes.beBytes 8 (2 ^ 63), [], 2 ^ 63 - 1000000⟩]
          = some (some text) ∧
      loadCsv asciiTable FloatOps.whole ⟨"fifo_run1.csv".toList, "fifo_run1".toList⟩ text
        = .error (.int64Range (2 ^ 63)) ∧
      (LoadError.int64Range (2 ^ 63)).isValueError = false := by
  -- the row is well formed, so only the `int64` array can refuse it
  have hfits : ∀ r ∈ [recordRow FloatOps.whole ⟨1000000, false, false, .little⟩ none
      (Bytes.beBytes 4 0 ++ Bytes.beBytes 8 (2 ^ 63)) none none (2 ^ 63 - 1000000)],
      RowFits ⟨1000000, false, false, .little⟩ r := by
    intro r hr
    rw [List.mem_singleton.mp hr]
    exact ⟨by decide, by decide, by decide, by decide, fun h => absurd h (by decide),
      fun h => absurd h (by decide)⟩
  obtain ⟨run, -, hload⟩ := loadCsv_csvText asciiTable_lawful FloatOps.whole_exact
    (show (CsvPath.mk "fifo_run1.csv".toList "fifo_run1".toList).stem.length ≤ maxStrDigits by
      decide)
    (List.cons_ne_nil _ _) hfits fun r hr => by
      rw [List.mem_singleton.mp hr]
      exact ⟨by decide, by decide⟩
  have hsend : (unpackHeader (Bytes.beBytes 4 0 ++ Bytes.beBytes 8 (2 ^ 63))).2 = 2 ^ 63 := by
    decide
  refine ⟨_, ?_, hload.trans ?_, rfl⟩
  · rfl
  · have herror : int64Array [((2 ^ 63 : ℕ) : ℤ)] = .error (.int64Range (2 ^ 63)) := by decide
    rw [List.map_singleton]
    simp only [recordRow, hsend]
    rw [herror]
    rfl

end TsPacket
