import TsPacket.Analysis.LatencyShift
import TsPacket.EndToEnd.TestMatrix

/-!
# Hosts whose clocks disagree

Between two hosts the latency of a packet is mixed with the offset of their clocks.  The
listener is run on the same datagrams with the clock of the sender and its own set otherwise,
and its files go through the analysis: what of the summary is other, and by how much.

## Main definitions

* `Received.Reclocked` — the same datagram, with other times.
* `Row.Reclocked` — what becomes of its row.
* `Outcome.Reclocked` — a run of the testbed under other clocks.

## Main results

* `listen_reclocked` — the listener records the same, but for the times.
* `forall₂_sortedPaths` — the two directories hold the same names.
* `clock_offset` — **all of the summary but what comes of the latencies is the same.**
* `clock_offset_exact` — **and exact latencies are shifted by the difference of the offsets.**
-/

namespace TsPacket

open OrderedDict PyText Raise StableSort

variable {F : Type}

/-! ### Datagrams -/

/-- The same control message; a timestamp may be another. -/
structure Cmsg.Reclocked (c c' : Cmsg) : Prop where
  level : c.level = c'.level
  ctype : c.ctype = c'.ctype
  length : c.cdata.length = c'.cdata.length
  cdata : c.level = ipprotoIp → c.cdata = c'.cdata

/-- The same datagram, sent and received by clocks that are off by `ds` and `dr`. -/
structure Received.Reclocked (ds dr : ℤ) (m m' : Received) : Prop where
  length : m.data.length = m'.data.length
  seq : pktHeaderSize ≤ m.data.length → (unpackHeader m'.data).1 = (unpackHeader m.data).1
  sendNs : pktHeaderSize ≤ m.data.length →
    ((unpackHeader m'.data).2 : ℤ) = (unpackHeader m.data).2 + ds
  recvNs : (m'.recvNs : ℤ) = m.recvNs + dr
  ancdata : List.Forall₂ Cmsg.Reclocked m.ancdata m'.ancdata

/-- The same event by clocks that are apart. -/
inductive ListenerEvent.Reclocked (ds dr : ℤ) : ListenerEvent → ListenerEvent → Prop
  | timeout : Reclocked ds dr .timeout .timeout
  | datagram {m m'} (h : m.Reclocked ds dr m') : Reclocked ds dr (.datagram m) (.datagram m')

/-! ### Rows -/

/-- The same row, but for the times; the latency is of a difference that is off by `d`. -/
structure Row.Reclocked (fl : FloatOps F) (d : ℤ) (r r' : Row F) : Prop where
  seq : r.seq = r'.seq
  latencyMs : ∃ z : ℤ, r.latencyMs = fl.div (fl.ofInt z) fl.e6 ∧
    r'.latencyMs = fl.div (fl.ofInt (z + d)) fl.e6
  jitterUs : r.jitterUs = r'.jitterUs
  pktSize : r.pktSize = r'.pktSize
  tos : r.tos = r'.tos

/-- Rows that are related, and the last time by the other clock. -/
structure ListenerState.Reclocked (fl : FloatOps F) (ds dr : ℤ) (st st' : ListenerState F) :
    Prop where
  results : List.Forall₂ (Row.Reclocked fl (dr - ds)) st.results st'.results
  prevRecvNs : Option.Rel (fun t t' : ℕ => (t' : ℤ) = t + dr) st.prevRecvNs st'.prevRecvNs

section

variable {fl : FloatOps F} {args : ListenerArgs} {ds dr : ℤ}

theorem recvCmsg_reclocked {c c' : Cmsg} (hc : c.Reclocked c') {acc acc' : Option ℤ × Option ℤ}
    (hacc : acc.1 = acc'.1) :
    Option.Rel (fun a a' => a.1 = a'.1) (recvCmsg args acc c) (recvCmsg args acc' c') := by
  unfold recvCmsg
  rw [← hc.level, ← hc.ctype, ← hc.length]
  split
  case isTrue htos =>
    rw [← hc.cdata htos.1]
    cases Bytes.read8 c.cdata 0 with
    | none => exact .none
    | some b => exact .some rfl
  case isFalse =>
    split
    · exact .some hacc
    · exact .some hacc

theorem foldlM_recvCmsg_reclocked {cs cs' : List Cmsg} (hcs : List.Forall₂ Cmsg.Reclocked cs cs')
    {acc acc' : Option ℤ × Option ℤ} (hacc : acc.1 = acc'.1) :
    Option.Rel (fun a a' => a.1 = a'.1) (cs.foldlM (recvCmsg args) acc)
      (cs'.foldlM (recvCmsg args) acc') := by
  induction hcs generalizing acc acc' with
  | nil => exact .some hacc
  | cons hc _ ih =>
    rw [List.foldlM_cons, List.foldlM_cons]
    exact rel_bind (recvCmsg_reclocked hc hacc) fun a a' ha => ih ha

/-- The datagram is cut at the same length, and has the same TOS byte. -/
theorem recvOne_reclocked {m m' : Received} (hm : m.Reclocked ds dr m') :
    Option.Rel (fun a a' => a.1 = m.data.take 65535 ∧ a'.1 = m'.data.take 65535 ∧ a.2.1 = a'.2.1)
      (recvOne args m.data m.ancdata) (recvOne args m'.data m'.ancdata) := by
  unfold recvOne
  split
  · exact .some ⟨rfl, rfl, rfl⟩
  · rw [Option.map_eq_bind, Option.map_eq_bind]
    exact rel_bind (foldlM_recvCmsg_reclocked hm.ancdata rfl) fun a a' ha =>
      .some ⟨rfl, rfl, ha⟩

/-- **The row of a datagram**: the offset of the receiver cancels in the jitter. -/
theorem recordRow_reclocked {m m' : Received} (hm : m.Reclocked ds dr m')
    (hlen : pktHeaderSize ≤ m.data.length) {prev prev' : Option ℕ}
    (hprev : Option.Rel (fun t t' : ℕ => (t' : ℤ) = t + dr) prev prev') (tos kts kts' : Option ℤ) :
    Row.Reclocked fl (dr - ds)
      (recordRow fl args prev (m.data.take 65535) tos kts m.recvNs)
      (recordRow fl args prev' (m'.data.take 65535) tos kts' m'.recvNs) := by
  have hn : pktHeaderSize ≤ 65535 := show 12 ≤ 65535 by omega
  unfold recordRow
  rw [unpackHeader_take _ hn, unpackHeader_take _ hn]
  refine ⟨(hm.seq hlen).symm, ⟨m.recvNs - (unpackHeader m.data).2, rfl, ?_⟩, ?_, ?_, rfl⟩
  · -- the latency, the jitter, and the size of the packet
    dsimp only
    rw [hm.recvNs, hm.sendNs hlen]
    congr 2
    omega
  · cases hprev with
    | none => rfl
    | some h =>
      dsimp only
      rw [hm.recvNs, h]
      congr 2
      omega
  · dsimp only
    rw [List.length_take, List.length_take, hm.length]

/-- **The listener records the same**, but for the times. -/
theorem listen_reclocked {evs evs' : List ListenerEvent}
    (hevs : List.Forall₂ (ListenerEvent.Reclocked ds dr) evs evs') :
    ∀ {st st' : ListenerState F}, st.Reclocked fl ds dr st' →
      Option.Rel (ListenerState.Reclocked fl ds dr) (listen fl args evs st)
        (listen fl args evs' st') := by
  -- one event after the other, both listeners in step
  induction hevs with
  | nil => exact fun hst => .some hst
  | @cons e e' evs evs' he _ ih =>
    intro st st' hst
    cases he with
    | timeout =>
      have hempty : st.results = [] ↔ st'.results = [] := by
        rw [← List.length_eq_zero_iff, ← List.length_eq_zero_iff, hst.results.length_eq]
      rw [listen, listen]
      by_cases hne : st.results = []
      · rw [if_neg (not_not.mpr hne), if_neg (not_not.mpr (hempty.mp hne))]
        exact ih hst
      · rw [if_pos hne, if_pos (mt hempty.mpr hne)]
        exact .some hst
    | @datagram m m' hm =>
      rw [listen, listen]
      refine rel_bind (recvOne_reclocked hm) ?_
      rintro ⟨data, tos, kts⟩ ⟨data', tos', kts'⟩ ⟨rfl, rfl, rfl⟩
      dsimp only
      -- the clocks do not change the size, so both take the datagram or neither does
      have hcut : (m.data.take 65535).length = (m'.data.take 65535).length := by
        rw [List.length_take, List.length_take, hm.length]
      rw [← hcut]
      by_cases hshort : (m.data.take 65535).length < pktHeaderSize
      · rw [if_pos hshort, if_pos hshort]
        exact ih hst
      · rw [if_neg hshort, if_neg hshort]
        have hlen : pktHeaderSize ≤ m.data.length := by
          rw [List.length_take] at hshort
          exact (not_lt.mp hshort).trans (Nat.min_le_right _ _)
        refine ih ⟨List.rel_append hst.results (.cons ?_ .nil), .some hm.recvNs⟩
        exact recordRow_reclocked hm hlen hst.prevRecvNs tos kts kts'

end

/-! ### Directories -/

theorem pairwise_sortedPaths (files : List CsvFile) :
    (sortedPaths files).Pairwise fun a b => a.path.text ≤ b.path.text :=
  (pairwise_insertionSort_keyThen (f := fun file : CsvFile => file.path.text) (fun _ _ => Iff.rfl)
    (List.pairwise_of_forall (l := files) (R := fun _ _ => True) fun _ _ => trivial)).imp
      fun h => h.key_le

/-- A run of the testbed, under other clocks. -/
structure Outcome.Reclocked (fl : FloatOps F) (args : ListenerArgs) (ds dr : ℤ)
    (r r' : Outcome F) : Prop where
  cond : r.cond = r'.cond
  run : r.run = r'.run
  listened : ∃ evs evs' st st', List.Forall₂ (ListenerEvent.Reclocked ds dr) evs evs' ∧
    listen fl args evs {} = some st ∧ listen fl args evs' {} = some st' ∧
    r.rows = st.results ∧ r'.rows = st'.results

section

variable {fl : FloatOps F} {args : ListenerArgs} {ds dr : ℤ}

theorem Outcome.Reclocked.rows {r r' : Outcome F} (h : r.Reclocked fl args ds dr r') :
    List.Forall₂ (Row.Reclocked fl (dr - ds)) r.rows r'.rows := by
  obtain ⟨evs, evs', st, st', hevs, hst, hst', hrows, hrows'⟩ := h.listened
  have hlisten : Option.Rel (ListenerState.Reclocked fl ds dr) (listen fl args evs {})
      (listen fl args evs' {}) := listen_reclocked hevs ⟨.nil, .none⟩
  rw [hst, hst'] at hlisten
  cases hlisten with
  | some h =>
    rw [hrows, hrows']
    exact h.results

theorem Outcome.Reclocked.rows_eq_nil_iff {r r' : Outcome F}
    (h : r.Reclocked fl args ds dr r') : r.rows = [] ↔ r'.rows = [] := by
  rw [← List.length_eq_zero_iff, ← List.length_eq_zero_iff, h.rows.length_eq]

variable {rs rs' : List (Outcome F)} (hrs : List.Forall₂ (Outcome.Reclocked fl args ds dr) rs rs')
include hrs

/-- The same files are written. -/
theorem map_fst_outDir_reclocked :
    (outDir fl args rs).map Prod.fst = (outDir fl args rs').map Prod.fst := by
  refine List.rel_foldl (P := fun d d' : List (Str × Str) => d.map Prod.fst = d'.map Prod.fst)
    (R := Outcome.Reclocked fl args ds dr) ?_ rfl hrs
  intro d d' hd r r' hr
  unfold copyResults
  by_cases hrows : r.rows = []
  · rw [if_pos hrows, if_pos (hr.rows_eq_nil_iff.mp hrows)]
    exact hd
  · rw [if_neg hrows, if_neg (mt hr.rows_eq_nil_iff.mpr hrows), map_fst_update, map_fst_update,
      hd, hr.cond, hr.run]

theorem recorded_reclocked (cond : Str) (run : ℕ) :
    List.Forall₂ (Row.Reclocked fl (dr - ds)) (recorded rs cond run) (recorded rs' cond run) := by
  refine List.rel_foldl (P := List.Forall₂ (Row.Reclocked fl (dr - ds)))
    (R := Outcome.Reclocked fl args ds dr) ?_ .nil hrs
  intro rows rows' hrows r r' hr
  have hiff : (r.cond = cond ∧ r.run = run ∧ r.rows ≠ []) ↔
      (r'.cond = cond ∧ r'.run = run ∧ r'.rows ≠ []) := by
    rw [hr.cond, hr.run, ne_eq, ne_eq, hr.rows_eq_nil_iff]
  dsimp only
  by_cases h : r.cond = cond ∧ r.run = run ∧ r.rows ≠ []
  · rw [if_pos h, if_pos (hiff.mp h)]
    exact hr.rows
  · rw [if_neg h, if_neg (mt hiff.mpr h)]
    exact hrows

/-- **The files are read in the same order**, whatever the directories are listed in. -/
theorem map_path_sortedPaths {out : Str} {files files' : List CsvFile}
    (hfiles : IsListing fl args out rs files) (hfiles' : IsListing fl args out rs' files') :
    (sortedPaths files).map CsvFile.path = (sortedPaths files').map CsvFile.path := by
  -- the names are those of the runs, which are the same
  have hpaths : ∀ {rs : List (Outcome F)} {files : List CsvFile},
      IsListing fl args out rs files →
      (files.map CsvFile.path).Perm (((outDir fl args rs).map Prod.fst).map (csvPath out)) := by
    intro rs files h
    have hperm := h.map CsvFile.path
    rw [List.map_map] at hperm
    rw [List.map_map]
    exact hperm
  have hkeys := hpaths hfiles'
  rw [← map_fst_outDir_reclocked hrs] at hkeys
  have hmem : ∀ {files : List CsvFile} {p : CsvPath},
      (files.map CsvFile.path).Perm (((outDir fl args rs).map Prod.fst).map (csvPath out)) →
      p ∈ (sortedPaths files).map CsvFile.path → ∃ stem, p = csvPath out stem := by
    intro files p hperm hp
    obtain ⟨file, hfile, rfl⟩ := List.mem_map.mp hp
    have hin := hperm.mem_iff.mp (List.mem_map_of_mem ((List.mem_insertionSort _).mp hfile))
    obtain ⟨stem, -, heq⟩ := List.mem_map.mp hin
    exact ⟨stem, heq.symm⟩
  -- and a list of different names has one order
  have hsorted : ∀ files : List CsvFile,
      ((sortedPaths files).map CsvFile.path).Pairwise fun a b => a.text ≤ b.text := fun files =>
    List.pairwise_map.mpr (pairwise_sortedPaths files)
  have hsort : ∀ files : List CsvFile, (sortedPaths files).Perm files := fun files =>
    List.perm_insertionSort _ files
  have hperm := ((hsort files).map CsvFile.path).trans ((hpaths hfiles).trans
    (hkeys.symm.trans ((hsort files').map CsvFile.path).symm))
  refine hperm.eq_of_pairwise (fun p p' hp hp' hle hle' => ?_) (hsorted files) (hsorted files')
  obtain ⟨stem, rfl⟩ := hmem (hpaths hfiles) hp
  obtain ⟨stem', rfl⟩ := hmem hkeys hp'
  have htext : out ++ '/' :: stem ++ ".csv".toList = out ++ '/' :: stem' ++ ".csv".toList :=
    le_antisymm hle hle'
  have hstem := List.append_cancel_left (List.append_cancel_right htext)
  rw [(List.cons.inj hstem).2]

end

/-! ### Loading -/

theorem name_eq_stem {U : Unicode} {fl : FloatOps F} {file : CsvFile} {run : Run F}
    (h : file.load U fl = .ok run) : run.name = file.path.stem :=
  (Loaded.of_loadCsv h).stem

section

variable {U : Unicode} (hU : U.Lawful) {fl : FloatOps F} (hfl : fl.Exact) {args : ListenerArgs}
  {runs : ℕ} (hruns : runs < 2 ^ 64) {conditions : List Str} {havePrio : Bool}
  {rs rs' : List (Outcome F)} (hrs : Outcomes runs conditions havePrio rs)
  (hrs' : Outcomes runs conditions havePrio rs') (hfits : RecordedFits args rs)
  (hfits' : RecordedFits args rs') (hloads : RecordedLoads fl rs)
  (hloads' : RecordedLoads fl rs') {ds dr : ℤ}
  (hclocks : List.Forall₂ (Outcome.Reclocked fl args ds dr) rs rs') {out : Str}
  {files files' : List CsvFile} (hfiles : IsListing fl args out rs files)
  (hfiles' : IsListing fl args out rs' files') {E : ValueRel F}
  (hE : ∀ z : ℤ, E.value (fl.div (fl.ofInt z) fl.e6) (fl.div (fl.ofInt (z + (dr - ds))) fl.e6))
include hE

theorem reads_reclocked {rows rows' : List (Row F)} (hne : rows ≠ [])
    (hrows : List.Forall₂ (Row.Reclocked fl (dr - ds)) rows rows') {run run' : Run F}
    (h : run.Reads args rows) (h' : run'.Reads args rows') (hname : run.name = run'.name)
    (hcondition : run.condition = run'.condition) (hindex : run.runIndex = run'.runIndex) :
    run.Reclocked E.Sample run' := by
  refine ⟨hname, hcondition, hindex, ?_, ⟨?_, ?_⟩, ?_, ?_⟩
  · rw [h.seq, h'.seq]
    exact map_eq_map_of_forall₂ (fun r r' hr => by rw [hr.seq]) hrows
  · rw [h.latencyMs]
    exact mt List.map_eq_nil_iff.mp hne
  · -- latency is where the offset of the clocks shows
    rw [h.latencyMs, h'.latencyMs, List.forall₂_map_left_iff, List.forall₂_map_right_iff]
    refine hrows.imp fun r r' hr => ?_
    obtain ⟨z, hz, hz'⟩ := hr.latencyMs
    rw [hz, hz']
    exact hE z
  · rw [h.jitterUs, h'.jitterUs]
    exact map_eq_map_of_forall₂ (fun r r' hr => hr.jitterUs) hrows
  · -- the TOS column is there on both sides or on none
    cases hrec : args.recordTos with
    | false => rw [h.tos_of_not_recorded hrec, h'.tos_of_not_recorded hrec]
    | true =>
      obtain ⟨tos, htos, hcol⟩ := h.tos_of_recorded hrec
      obtain ⟨tos', htos', hcol'⟩ := h'.tos_of_recorded hrec
      rw [htos, htos', Option.some_inj]
      refine List.map_injective_iff.mpr (Option.some_injective ℤ) ?_
      rw [hcol, hcol']
      exact map_eq_map_of_forall₂ (fun r r' hr => hr.tos) hrows

include hU hfl hruns hrs hrs' hfits hfits' hloads hloads' hclocks hfiles hfiles'

/-- **Two files of one name load alike.** -/
theorem load_reclocked {file file' : CsvFile} (hfile : file ∈ files) (hfile' : file' ∈ files')
    (hpath : file.path = file'.path) :
    Alike (Run.Reclocked E.Sample) (file.load U fl) (file'.load U fl) := by
  obtain ⟨run, hload⟩ := hrs.exists_load hU hfl hruns hfits hloads hfiles hfile
  obtain ⟨run', hload'⟩ := hrs'.exists_load hU hfl hruns hfits' hloads' hfiles' hfile'
  obtain ⟨cond, k, hstem, hne, hcond, hindex, hreads⟩ :=
    hrs.read_spec hU hfl hruns hfits hfiles hfile hload
  obtain ⟨cond', k', hstem', hne', hcond', hindex', hreads'⟩ :=
    hrs'.read_spec hU hfl hruns hfits' hfiles' hfile' hload'
  obtain ⟨r, hr, hrcond, -⟩ := exists_outcome_of_recorded hne
  obtain ⟨r', hr', hrcond', -⟩ := exists_outcome_of_recorded hne'
  -- the name of the file tells the condition and the number
  have hsame : runStem cond k = runStem cond' k' := by rw [← hstem, ← hstem', hpath]
  obtain ⟨rfl, rfl⟩ := runStem_inj hU (hrcond ▸ (hrs.cond_spec hr).1)
    (hrcond' ▸ (hrs'.cond_spec hr').1) hsame
  rw [hload, hload']
  refine .ok (reads_reclocked hE hne (recorded_reclocked hclocks cond k) hreads hreads' ?_ ?_ ?_)
  · rw [name_eq_stem hload, name_eq_stem hload', hpath]
  · rw [hcond, hcond']
  · rw [hindex, hindex']

/-- **The datasets of the two directories** differ in the latencies only. -/
theorem buildDataset_reclocked :
    Alike (List.Forall₂ (Cell.Reclocked E.Sample)) (buildDataset U fl files)
      (buildDataset U fl files') := by
  -- the two directories are read in the same order, file by file
  have hpaths : List.Forall₂ (fun f f' : CsvFile => f.path = f'.path) (sortedPaths files)
      (sortedPaths files') := by
    rw [← List.forall₂_map_right_iff (R := fun f p => CsvFile.path f = p),
      ← List.forall₂_map_left_iff (R := Eq)]
    rw [map_path_sortedPaths hclocks hfiles hfiles']
    exact List.forall₂_same.mpr fun _ _ => rfl
  have hmem : List.Forall₂ (fun f f' : CsvFile => f ∈ files ∧ f' ∈ files' ∧ f.path = f'.path)
      (sortedPaths files) (sortedPaths files') := by
    refine List.forall₂_iff_zip.mpr ⟨hpaths.length_eq, fun {f f'} hzip => ?_⟩
    obtain ⟨hf, hf'⟩ := List.of_mem_zip hzip
    exact ⟨(List.mem_insertionSort _).mp hf, (List.mem_insertionSort _).mp hf',
      List.forall₂_zip hpaths hzip⟩
  have hloaded : Alike (List.Forall₂ (Run.Reclocked E.Sample))
      ((sortedPaths files).mapM (CsvFile.load U fl))
      ((sortedPaths files').mapM (CsvFile.load U fl)) :=
    Alike.mapM hmem fun f f' ⟨hf, hf', hpath⟩ =>
      load_reclocked hU hfl hruns hrs hrs' hfits hfits' hloads hloads' hclocks hfiles hfiles' hE
        hf hf' hpath
  rw [buildDataset, buildDataset, discover, discover]
  refine (hloaded.map (S := fun g g' => List.Forall₂ (Cell.Reclocked E.Sample) (cells g) (cells g'))
    fun loaded loaded' h => forall₂_cells_groups h).map fun g g' h => h

/-- **The two summaries.** -/
theorem buildSummary_reclocked [LinearOrder F] {np : Numpy.Ops F} {sargs : SummaryArgs}
    {V : LatencyRel F} (hV : Transfers np sargs E.Sample V) (resultsDir : Str) :
    Alike (Summary.Related V) (buildSummary np U fl sargs resultsDir files)
      (buildSummary np U fl sargs resultsDir files') :=
  ((buildDataset_reclocked hU hfl hruns hrs hrs' hfits hfits' hloads hloads' hclocks hfiles hfiles'
    hE).mapError _).bind fun _ _ hcells => summarise_alike hV hcells resultsDir

end

/-- **The clocks show in the latencies only.**  Two directories of the same runs, measured with
clocks that are set otherwise and both fit to be read back, have the same summary but for what
comes of the latencies: the same conditions, runs and baseline, the same numbers of packets,
loss, DSCP values, jitter and comparisons of the jitter, bit for bit.  Or what stops one stops
the other. -/
theorem clock_offset [LinearOrder F] {U : Unicode} (hU : U.Lawful) {fl : FloatOps F}
    (hfl : fl.Exact) {args : ListenerArgs} {runs : ℕ} (hruns : runs < 2 ^ 64)
    {conditions : List Str} {havePrio : Bool} {rs rs' : List (Outcome F)}
    (hrs : Outcomes runs conditions havePrio rs)
    (hrs' : Outcomes runs conditions havePrio rs') (hfits : RecordedFits args rs)
    (hfits' : RecordedFits args rs') (hloads : RecordedLoads fl rs)
    (hloads' : RecordedLoads fl rs') {ds dr : ℤ}
    (hclocks : List.Forall₂ (Outcome.Reclocked fl args ds dr) rs rs') {out : Str}
    {files files' : List CsvFile} (hfiles : IsListing fl args out rs files)
    (hfiles' : IsListing fl args out rs' files') (np : Numpy.Ops F) (sargs : SummaryArgs)
    (resultsDir : Str) :
    Alike (Summary.Related (latencyRel anyValues np))
      (buildSummary np U fl sargs resultsDir files)
      (buildSummary np U fl sargs resultsDir files') :=
  buildSummary_reclocked hU hfl hruns hrs hrs' hfits hfits' hloads hloads' hclocks hfiles hfiles'
    (fun _ => trivial) (transfers_anyValues np sargs) resultsDir

/-! ### Exact latencies -/

/-- The operations on floats are those of a field. -/
structure FloatArithmetic [Field F] (fl : FloatOps F) : Prop where
  ofInt : ∀ z : ℤ, fl.ofInt z = z
  div : ∀ x y, fl.div x y = x / y
  e6 : fl.e6 = 10 ^ 6

/-- **Exact latencies are all shifted by the difference of the offsets**, and the tables with
them: least and greatest value, mean, percentiles, and the ends of every interval; deviations,
rank tests and effects stay, and the improvement is of the shifted points. -/
theorem clock_offset_exact [Field F] [LinearOrder F] [IsStrictOrderedRing F] {U : Unicode}
    (hU : U.Lawful) {fl : FloatOps F} (hfl : fl.Exact) (hfield : FloatArithmetic fl)
    {args : ListenerArgs} {runs : ℕ} (hruns : runs < 2 ^ 64) {conditions : List Str}
    {havePrio : Bool} {rs rs' : List (Outcome F)}
    (hrs : Outcomes runs conditions havePrio rs)
    (hrs' : Outcomes runs conditions havePrio rs') (hfits : RecordedFits args rs)
    (hfits' : RecordedFits args rs') (hloads : RecordedLoads fl rs)
    (hloads' : RecordedLoads fl rs') {ds dr : ℤ}
    (hclocks : List.Forall₂ (Outcome.Reclocked fl args ds dr) rs rs') {out : Str}
    {files files' : List CsvFile} (hfiles : IsListing fl args out rs files)
    (hfiles' : IsListing fl args out rs' files') {np : Numpy.Ops F} (hnp : np.Exact)
    (hstat : np.Textbook) {sargs : SummaryArgs} (hmethod : sargs.method = .linear)
    (resultsDir : Str) :
    Alike (Summary.Related (latencyRel (shiftBy (((dr - ds : ℤ) : F) / 10 ^ 6)) np))
      (buildSummary np U fl sargs resultsDir files)
      (buildSummary np U fl sargs resultsDir files') := by
  refine buildSummary_reclocked hU hfl hruns hrs hrs' hfits hfits' hloads hloads' hclocks hfiles
    hfiles' (fun z => ?_) (transfers_shiftBy hnp hstat _ hmethod) resultsDir
  show fl.div (fl.ofInt (z + (dr - ds))) fl.e6 = fl.div (fl.ofInt z) fl.e6 + _
  rw [hfield.div, hfield.div, hfield.ofInt, hfield.ofInt, hfield.e6, Int.cast_add, add_div]

/-! ### A directory -/

/-- Floats that are rational, and are written as fractions. -/
def fractionFloats : FloatOps ℚ where
  ofInt z := z
  div := (· / ·)
  zero := 0
  e3 := 10 ^ 3
  e6 := 10 ^ 6
  repr q := strOf q.num ++ '/' :: strOf q.den
  parse s := do
    let n ← wholeValue (s.takeWhile (· ≠ '/'))
    let d ← wholeValue ((s.dropWhile (· ≠ '/')).drop 1)
    some (n / d)
  trunc q := .ok (q.num.tdiv q.den)

theorem slash_not_mem_strOf (z : ℤ) : '/' ∉ strOf z := by
  have hdigits : ∀ n : ℕ, '/' ∉ Nat.toDigits 10 n := fun n h =>
    absurd (Nat.isDigit_of_mem_toDigits (by omega) (by omega) h) (by decide)
  cases z with
  | ofNat n => exact hdigits n
  | negSucc n =>
    intro h
    rcases List.mem_cons.mp h with h | h
    · exact absurd h (by decide)
    · exact hdigits (n + 1) h

theorem fractionFloats_exact : fractionFloats.Exact := by
  intro q
  have hslash : ∀ c ∈ strOf q.num, decide (c ≠ '/') = true := fun c hc =>
    decide_eq_true fun h => slash_not_mem_strOf q.num (h ▸ hc)
  have hnum : (strOf q.num ++ '/' :: strOf q.den).takeWhile (· ≠ '/') = strOf q.num := by
    rw [List.takeWhile_append_of_pos hslash, List.takeWhile_cons_of_neg (by decide),
      List.append_nil]
  have hden : ((strOf q.num ++ '/' :: strOf q.den).dropWhile (· ≠ '/')).drop 1 = strOf q.den := by
    rw [List.dropWhile_append_of_pos hslash, List.dropWhile_cons_of_neg (by decide)]
    rfl
  show (do
    let n ← wholeValue ((strOf q.num ++ '/' :: strOf q.den).takeWhile (· ≠ '/'))
    let d ← wholeValue (((strOf q.num ++ '/' :: strOf q.den).dropWhile (· ≠ '/')).drop 1)
    some ((n : ℚ) / d)) = some q
  rw [hnum, hden, wholeValue_strOf, wholeValue_strOf]
  exact congrArg some (Rat.num_div_den q)

theorem fractionFloats_arithmetic : FloatArithmetic fractionFloats :=
  ⟨fun _ => rfl, fun _ _ => rfl, rfl⟩

/-- Two datagrams, stamped and received by clocks that are off by `ds` and `dr`. -/
def skewedEvents (ds dr : ℕ) : List ListenerEvent :=
  [.datagram ⟨Bytes.beBytes 4 0 ++ Bytes.beBytes 8 (1000 + ds), [], 3000 + dr⟩,
    .datagram ⟨Bytes.beBytes 4 1 ++ Bytes.beBytes 8 (1001000 + ds), [], 1006000 + dr⟩]

/-- Packets are expected every millisecond; no TOS, no kernel time. -/
def skewedArgs : ListenerArgs := ⟨1000000, false, false, .little⟩

/-- A run in which they were received. -/
def skewedRun (ds dr : ℕ) : Outcome ℚ :=
  ⟨"fifo".toList, 1, ((listen fractionFloats skewedArgs (skewedEvents ds dr) {}).getD {}).results⟩

/-- The directory of this run. -/
def skewedFiles (ds dr : ℕ) : List CsvFile :=
  (outDir fractionFloats skewedArgs [skewedRun ds dr]).map fun p => ⟨csvPath "out".toList p.1, p.2⟩

theorem skewedRun_reclocked :
    (skewedRun 0 0).Reclocked fractionFloats skewedArgs 5000 2000 (skewedRun 5000 2000) := by
  refine ⟨rfl, rfl, skewedEvents 0 0, skewedEvents 5000 2000, _, _, ?_, rfl, rfl, rfl, rfl⟩
  refine .cons (.datagram ⟨rfl, fun _ => ?_, fun _ => ?_, ?_, .nil⟩)
    (.cons (.datagram ⟨rfl, fun _ => ?_, fun _ => ?_, ?_, .nil⟩) .nil)
  all_goals decide

theorem outcomes_skewedRun (ds dr : ℕ) : Outcomes 1 ["fifo".toList] true [skewedRun ds dr] := by
  have hmatrix : [("fifo".toList, 1)] <+: matrix 1 ["fifo".toList] true := by decide
  refine ⟨hmatrix, fun r hr => ?_⟩
  rw [List.mem_singleton.mp hr]
  rfl

/-- What the listener records of datagrams before `2 ^ 63` is in range. -/
theorem recordedFits_skewedRun {ds dr : ℕ} (hdr : dr < 10 ^ 9) :
    RecordedFits skewedArgs [skewedRun ds dr] := by
  refine forall_recorded fun r hr => ?_
  obtain rfl := List.mem_singleton.mp hr
  obtain ⟨st, hst⟩ : ∃ st, listen fractionFloats skewedArgs (skewedEvents ds dr) {} = some st :=
    ⟨_, rfl⟩
  have hrows : (skewedRun ds dr).rows = st.results := by
    rw [skewedRun, hst]
    rfl
  rw [hrows]
  refine listen_results fractionFloats skewedArgs _ (fun m hm => ?_) hst
    fun r hr => absurd hr List.not_mem_nil
  simp only [skewedEvents, List.mem_cons, List.not_mem_nil, or_false,
    ListenerEvent.datagram.injEq] at hm
  rcases hm with rfl | rfl <;> dsimp only <;> omega

theorem recordedLoads_skewedRun {ds dr : ℕ} (h : ∀ row ∈ (skewedRun ds dr).rows,
      row.sendNs < 2 ^ 63 ∧ (fractionFloats.repr row.latencyMs).length ≤ Csv.fieldSizeLimit ∧
        (fractionFloats.repr row.jitterUs).length ≤ Csv.fieldSizeLimit) :
    RecordedLoads fractionFloats [skewedRun ds dr] := by
  refine forall_recorded fun r hr row hrow => ?_
  obtain rfl := List.mem_singleton.mp hr
  exact ⟨(h row hrow).1, (h row hrow).2.1, (h row hrow).2.2⟩

theorem clock_offset_skewed :
    Alike (Summary.Related (latencyRel anyValues (exactRational [])))
      (buildSummary (exactRational []) asciiTable fractionFloats {} "out".toList (skewedFiles 0 0))
      (buildSummary (exactRational []) asciiTable fractionFloats {} "out".toList
        (skewedFiles 5000 2000)) :=
  clock_offset asciiTable_lawful fractionFloats_exact (show 1 < 2 ^ 64 by decide)
    (outcomes_skewedRun 0 0) (outcomes_skewedRun 5000 2000)
    (recordedFits_skewedRun (by decide)) (recordedFits_skewedRun (by decide))
    (recordedLoads_skewedRun (by decide +kernel)) (recordedLoads_skewedRun (by decide +kernel))
    (.cons skewedRun_reclocked .nil) (.refl _) (.refl _) (exactRational []) {} "out".toList

theorem clock_offset_exact_skewed :
    Alike (Summary.Related (latencyRel (shiftBy (((2000 - 5000 : ℤ) : ℚ) / 10 ^ 6))
        (exactRational [])))
      (buildSummary (exactRational []) asciiTable fractionFloats {} "out".toList (skewedFiles 0 0))
      (buildSummary (exactRational []) asciiTable fractionFloats {} "out".toList
        (skewedFiles 5000 2000)) :=
  clock_offset_exact asciiTable_lawful fractionFloats_exact fractionFloats_arithmetic (by decide)
    (outcomes_skewedRun 0 0) (outcomes_skewedRun 5000 2000)
    (recordedFits_skewedRun (by decide)) (recordedFits_skewedRun (by decide))
    (recordedLoads_skewedRun (by decide +kernel)) (recordedLoads_skewedRun (by decide +kernel))
    (.cons skewedRun_reclocked .nil) (.refl _) (.refl _) (exactRational_exact [])
    (exactRational_textbook []) rfl "out".toList

end TsPacket
