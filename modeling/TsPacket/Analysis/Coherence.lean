import Mathlib.Algebra.BigOperators.Ring.Finset
import TsPacket.Analysis.DscpPooling
import TsPacket.Analysis.Intervals
import TsPacket.Analysis.Summarised

/-!
# The tables of a summary

The latency, jitter, loss, DSCP and comparison tables of a summary are computed on their own,
each from the runs.  They have to tell the same story: the same packets counted everywhere,
and in a comparison the very percentiles of the tables above it.

## Main definitions

* `CellSummary.Coherent` — the tables of one condition count the same packets.
* `Comparison.Agrees` — a comparison shows the percentiles of the distributions it compares.
* `Summary.Coherent` — both, for a whole summary.

## Main results

* `cellSummary_coherent`, `compare_agrees` — one condition, one comparison.
* `summary_coherent` — **every summary of files without repeated columns is coherent**, for
  every percentile method and any arithmetic on floats.
-/

namespace TsPacket

open PyText Raise

variable {F : Type}

/-! ### What agrees -/

/-- The tables of a condition count the same packets. -/
structure CellSummary.Coherent (s : CellSummary F) : Prop where
  runs : s.runs.length = s.nRuns
  latency : s.latencyMs.n = s.nPackets
  received : s.loss.received = s.nPackets
  -- the first packet of a run has no jitter
  jitter : s.jitterUs.n + s.nRuns = s.nPackets
  unique : s.loss.received = s.loss.unique + s.loss.duplicates
  expected : s.loss.expected = s.loss.unique + s.loss.lost
  -- a run without the column is in none of the histograms
  dscp : ∀ d, s.dscp = some d → ∃ n ≤ s.nPackets, (d.dscp.map Prod.snd).sum + d.missing = n ∧
    (d.ecn.map Prod.snd).sum + d.missing = n ∧ (d.tos.map Prod.snd).sum + d.missing = n
  perRun_isSome : s.perRun.isSome = true ↔ 1 < s.nRuns
  perRun : ∀ a b, s.perRun = some (a, b) →
    (a.nRuns = s.nRuns ∧ a.perRun.length = s.nRuns) ∧ b.nRuns = s.nRuns ∧ b.perRun.length = s.nRuns

/-- A comparison shows the percentiles of the distributions it compares. -/
structure Comparison.Agrees (c : Comparison F) (q : ℚ) (base other : DistributionSummary F) :
    Prop where
  stat : c.stat = .percentile q
  nBaseline : c.nBaseline = base.n
  nProposed : c.nProposed = other.n
  baseline : base.percentiles.lookup q = some c.baseline.point
  proposed : other.percentiles.lookup q = some c.proposed.point

/-- A row of comparisons, of two entries of the summary. -/
def ConditionComparison.Agrees (d : ConditionComparison F) (base other : CellSummary F) : Prop :=
  ∃ p50 p99 jitter, d.metrics = [("latency_p50_ms".toList, p50), ("latency_p99_ms".toList, p99),
      ("jitter_p99_us".toList, jitter)] ∧
    p50.Agrees 50 base.latencyMs other.latencyMs ∧ p99.Agrees 99 base.latencyMs other.latencyMs ∧
    jitter.Agrees 99 base.jitterUs other.jitterUs

/-- The tables of a summary are of the same conditions, packets and percentiles. -/
structure Summary.Coherent (s : Summary F) : Prop where
  nodup : s.conditions.Nodup
  conditions : s.cells.map CellSummary.condition = s.conditions
  baseline : s.baseline ∈ s.conditions
  cells : ∀ e ∈ s.cells, e.Coherent
  comparisons : s.comparisons.map ConditionComparison.condition
    = s.conditions.filter (· ≠ s.baseline)
  compared : ∀ d ∈ s.comparisons, d.baseline = s.baseline ∧
    ∃ base ∈ s.cells, ∃ other ∈ s.cells, base.condition = s.baseline ∧
      other.condition = d.condition ∧ d.Agrees base other

/-! ### Percentiles -/

/-- What a traversal returned for an element is found under it. -/
theorem lookup_zip_mapM {α β ε : Type} [DecidableEq α] {f : α → Except ε β} {q : α} :
    ∀ {l : List α} {r : List β}, l.mapM f = .ok r → q ∈ l →
      ∃ y, (l.zip r).lookup q = some y ∧ f q = .ok y := by
  intro l
  induction l with
  | nil => exact fun _ hq => absurd hq List.not_mem_nil
  | cons a l ih =>
    intro r h hq
    obtain ⟨y, ys, hy, hys, rfl⟩ := List.forall₂_cons_left_iff.mp (mapM_eq_ok_iff.mp h)
    by_cases ha : q = a
    · subst ha
      exact ⟨y, by simp, hy⟩
    · obtain ⟨y', hlookup, hy'⟩ :=
        ih (mapM_eq_ok_iff.mpr hys) ((List.mem_cons.mp hq).resolve_left ha)
      refine ⟨y', ?_, hy'⟩
      rw [List.zip_cons_cons, List.lookup_cons, beq_false_of_ne ha]
      exact hlookup

theorem lookup_map_const {α β : Type} [DecidableEq α] (y : β) {q : α} {l : List α} (hq : q ∈ l) :
    (l.map fun a => (a, y)).lookup q = some y := by
  induction l with
  | nil => exact absurd hq List.not_mem_nil
  | cons a l ih =>
    rw [List.map_cons, List.lookup_cons]
    by_cases ha : q = a
    · simp [ha]
    · rw [beq_false_of_ne ha]
      exact ih ((List.mem_cons.mp hq).resolve_left ha)

section

variable {np : Numpy.Ops F} {method : Numpy.Method} {q : ℚ} {xs ys : List F}

/-- What a level shows of a sample. -/
def LevelIs (np : Numpy.Ops F) (method : Numpy.Method) (q : ℚ) (xs : List F) (y : F) : Prop :=
  if xs = [] then y = np.nan else Numpy.percentile np method q xs = .ok y

theorem levelIs_of_nil (h : xs = []) : LevelIs np method q xs np.nan := by
  rw [LevelIs, if_pos h]

theorem levelIs_of_ne {y : F} (hne : xs ≠ [])
    (h : Numpy.percentile np method q xs = .ok y) : LevelIs np method q xs y := by
  rw [LevelIs, if_neg hne]
  exact h

theorem LevelIs.unique {y y' : F} (h : LevelIs np method q xs y) (h' : LevelIs np method q xs y') :
    y = y' := by
  unfold LevelIs at h h'
  split at h
  case isTrue hnil =>
    rw [if_pos hnil] at h'
    rw [h, h']
  case isFalse hne =>
    rw [if_neg hne] at h'
    exact eq_of_eq_ok h h'

/-- The table of a distribution. -/
theorem distributionSummary_spec {levels : List ℚ} {d : DistributionSummary F}
    (h : distributionSummary np xs levels method = .ok d) :
    d.n = xs.length ∧ ∀ q ∈ levels, ∃ y, d.percentiles.lookup q = some y ∧
      LevelIs np method q xs y := by
  unfold distributionSummary at h
  split at h
  case isTrue hnil =>
    cases h
    rw [hnil]
    exact ⟨rfl, fun q hq => ⟨np.nan, lookup_map_const np.nan hq, levelIs_of_nil rfl⟩⟩
  case isFalse hne =>
    obtain ⟨pcts, hpcts, h⟩ := bind_eq_ok_iff.mp h
    obtain ⟨lo, -, h⟩ := bind_eq_ok_iff.mp h
    obtain ⟨hi, -, h⟩ := bind_eq_ok_iff.mp h
    obtain ⟨mid, -, h⟩ := bind_eq_ok_iff.mp h
    obtain rfl := Except.ok.inj h
    refine ⟨rfl, fun q hq => ?_⟩
    rw [percentiles, if_neg hne] at hpcts
    obtain ⟨y, hlookup, hy⟩ := lookup_zip_mapM hpcts hq
    exact ⟨y, hlookup, levelIs_of_ne hne hy⟩

/-- The point of an interval. -/
theorem bootstrapCi_point {nBoot : ℤ} {ci : ℚ} {seed chunk : ℕ} {b : BootstrapCI F}
    (h : bootstrapCi np xs (.percentile q) nBoot ci seed chunk method = .ok b) :
    LevelIs np method q xs b.point := by
  unfold bootstrapCi bootstrapCiOf at h
  by_cases hnil : xs = []
  · rw [if_pos (List.length_eq_zero_iff.mpr hnil)] at h
    cases h
    exact levelIs_of_nil hnil
  · rw [if_neg (mt List.length_eq_zero_iff.mp hnil)] at h
    obtain ⟨point, hpoint, h⟩ := bind_eq_ok_iff.mp h
    have hlevel : LevelIs np method q xs point := levelIs_of_ne hnil hpoint
    -- both ways out return the same point
    split at h
    case isTrue =>
      cases h
      exact hlevel
    case isFalse =>
      obtain ⟨s, -, h⟩ := bind_eq_ok_iff.mp h
      obtain ⟨boots, -, h⟩ := bind_eq_ok_iff.mp h
      obtain ⟨low, -, h⟩ := bind_eq_ok_iff.mp h
      obtain ⟨high, -, h⟩ := bind_eq_ok_iff.mp h
      cases h
      exact hlevel

/-- **A comparison shows the percentiles of the tables.** -/
theorem compare_agrees [LinearOrder F] {nBoot : ℤ} {ci : ℚ} {seed : ℕ} {c : Comparison F}
    (h : compare np xs ys (.percentile q) nBoot ci seed method = .ok c) {levels : List ℚ}
    (hq : q ∈ levels) {base other : DistributionSummary F}
    (hbase : distributionSummary np xs levels method = .ok base)
    (hother : distributionSummary np ys levels method = .ok other) : c.Agrees q base other := by
  unfold compare at h
  obtain ⟨b, hb, h⟩ := bind_eq_ok_iff.mp h
  obtain ⟨p, hp, h⟩ := bind_eq_ok_iff.mp h
  obtain rfl := Except.ok.inj h
  obtain ⟨hbn, hblevels⟩ := distributionSummary_spec hbase
  obtain ⟨hon, holevels⟩ := distributionSummary_spec hother
  obtain ⟨x, hx, hxlevel⟩ := hblevels q hq
  obtain ⟨y, hy, hylevel⟩ := holevels q hq
  refine ⟨rfl, hbn.symm, hon.symm, ?_, ?_⟩
  · rw [hx, hxlevel.unique (bootstrapCi_point hb)]
  · rw [hy, hylevel.unique (bootstrapCi_point hp)]

end

/-! ### Runs -/

/-- The columns of a run have one length. -/
structure Run.Even (r : Run F) : Prop where
  seq_ne : r.seq ≠ []
  latencyMs : r.latencyMs.length = r.seq.length
  jitterUs : r.jitterUs.length = r.seq.length
  tos : ∀ tos, r.tos = some tos → tos.length = r.seq.length

/-- A run of a file that repeats no column. -/
theorem even_of_loadCsv {U : Unicode} {fl : FloatOps F} {path : CsvPath} {text : List Char}
    {run : Run F} (h : loadCsv U fl path text = .ok run)
    (hheader : ∀ c ∈ readColumns, (dictReader (Csv.read text)).1.count c ≤ 1) : run.Even := by
  have haligned := (run_aligned_iff h).mpr hheader
  have hrows := (Loaded.of_loadCsv h).rows_ne_nil
  refine ⟨fun hnil => hrows ?_, ?_, ?_, fun tos htos => ?_⟩
  · rw [← List.length_eq_zero_iff, ← haligned.seq.length_eq, hnil, List.length_nil]
  · rw [haligned.latencyMs.length_eq, haligned.seq.length_eq]
  · rw [haligned.jitterUs.length_eq, haligned.seq.length_eq]
  · rw [(haligned.tos tos htos).length_eq, haligned.seq.length_eq]

section

variable {runs : List (Run F)} (heven : ∀ r ∈ runs, r.Even)
include heven

/-- The rows of a condition are received and have a latency. -/
theorem totalCounts_received :
    (totalCounts runs).received = ((runs.map fun r => r.latencyMs.length).sum : ℕ) := by
  simp only [totalCounts, lossCounts_received]
  rw [Nat.cast_list_sum, List.map_map]
  refine congrArg List.sum (List.map_congr_left fun r hr => ?_)
  rw [Function.comp_apply, (heven r hr).latencyMs]

/-- Every run has one value of jitter less than rows. -/
theorem sum_jitter_add_length :
    (runs.map fun r => r.jitterUs.length - 1).sum + runs.length
      = (runs.map fun r => r.latencyMs.length).sum := by
  induction runs with
  | nil => rfl
  | cons r runs ih =>
    rw [List.forall_mem_cons] at heven
    obtain ⟨hr, heven⟩ := heven
    have hpos := List.length_pos_iff.mpr hr.seq_ne
    have hih := ih heven
    rw [List.map_cons, List.map_cons, List.sum_cons, List.sum_cons, List.length_cons, hr.latencyMs,
      hr.jitterUs]
    omega

/-- The rows with a TOS column are some of the rows. -/
theorem length_flatten_tos_le :
    (runs.filterMap Run.tos).flatten.length ≤ (runs.map fun r => r.latencyMs.length).sum := by
  induction runs with
  | nil => exact Nat.le_refl 0
  | cons r runs ih =>
    rw [List.forall_mem_cons] at heven
    obtain ⟨hr, heven⟩ := heven
    have hih := ih heven
    rw [List.map_cons, List.sum_cons, List.filterMap_cons]
    cases htos : r.tos with
    | none => exact Nat.le_trans hih (Nat.le_add_left _ _)
    | some tos =>
      rw [List.flatten_cons, List.length_append, hr.tos tos htos, hr.latencyMs]
      omega

end

/-! ### One condition -/

theorem length_perRun {np : Numpy.Ops F} {runsValues : List (List F)} {stat : Statistic} {ci : ℚ}
    {method : Numpy.Method} {a : RunAggregate F}
    (h : perRunAggregate np runsValues stat ci method = .ok a) :
    a.nRuns = runsValues.length ∧ a.perRun.length = runsValues.length := by
  refine ⟨(perRunAggregate_spec h).1, ?_⟩
  obtain ⟨perRun, hperRun, h⟩ := bind_eq_ok_iff.mp h
  obtain ⟨mean, -, h⟩ := bind_eq_ok_iff.mp h
  rw [← length_of_mapM hperRun]
  dsimp only at h
  by_cases hthree : perRun.length ≥ 3
  · rw [if_pos hthree] at h
    rw [← Except.ok.inj h]
  · rw [if_neg hthree] at h
    rw [← Except.ok.inj h]

section

variable {np : Numpy.Ops F} {cell : Cell F} {method : Numpy.Method} {ci : ℚ}

/-- The entry over the runs is there for several runs. -/
theorem perRunEntry_coherent {e : Option (RunAggregate F × RunAggregate F)}
    (h : perRunEntry np cell method ci = .ok e) :
    (e.isSome = true ↔ 1 < cell.nRuns) ∧ ∀ a b, e = some (a, b) →
      (a.nRuns = cell.nRuns ∧ a.perRun.length = cell.nRuns) ∧
        b.nRuns = cell.nRuns ∧ b.perRun.length = cell.nRuns := by
  unfold perRunEntry at h
  split at h
  case isTrue hn =>
    obtain ⟨latency, hlatency, h⟩ := bind_eq_ok_iff.mp h
    obtain ⟨jitter, hjitter, h⟩ := bind_eq_ok_iff.mp h
    cases h
    refine ⟨iff_of_true rfl hn, ?_⟩
    rintro _ _ ⟨⟩
    have ha := length_perRun hlatency
    have hb := length_perRun hjitter
    rw [List.length_map] at ha hb
    exact ⟨ha, hb⟩
  case isFalse hn =>
    cases h
    exact ⟨iff_of_false Bool.false_ne_true hn, nofun⟩

/-- What the entry of a condition is made of. -/
theorem cellSummary_parts (hne : cell.runs ≠ []) {s : CellSummary F}
    (h : cellSummary np cell method ci = .ok s) :
    distributionSummary np (cell.runs.map Run.latencyMs).flatten latencyPercentiles method
        = .ok s.latencyMs ∧
      distributionSummary np (cell.runs.map fun r => jitterValues np r.jitterUs).flatten
        latencyPercentiles method = .ok s.jitterUs ∧
      perRunEntry np cell method ci = .ok s.perRun ∧ s.loss = aggregateLoss cell.runs ∧
      s.dscp = aggregateDscp cell.runs ∧ s.runs = cell.runs.map Run.name := by
  unfold cellSummary at h
  rw [latencyMs_eq hne, ok_bind, jitterUs_eq hne] at h
  obtain ⟨latency, hlatency, h⟩ := bind_eq_ok_iff.mp h
  rw [ok_bind] at h
  obtain ⟨jitter, hjitter, h⟩ := bind_eq_ok_iff.mp h
  obtain ⟨perRun, hperRun, h⟩ := bind_eq_ok_iff.mp h
  obtain rfl := Except.ok.inj h
  exact ⟨hlatency, hjitter, hperRun, rfl, rfl, rfl⟩

/-- **The tables of one condition.** -/
theorem cellSummary_coherent (hne : cell.runs ≠ []) (heven : ∀ r ∈ cell.runs, r.Even)
    (hcount : Countable cell.runs) {s : CellSummary F}
    (h : cellSummary np cell method ci = .ok s) : s.Coherent := by
  obtain ⟨-, hdesc⟩ := cellSummary_describes hne h
  obtain ⟨-, -, hperRun, hloss, hdscp, hruns⟩ := cellSummary_parts hne h
  obtain ⟨hsome, hper⟩ := perRunEntry_coherent hperRun
  have hn : s.nRuns = cell.nRuns := hdesc.nRuns
  exact
    { runs := by rw [hruns, List.length_map, hdesc.nRuns]
      latency := hdesc.latency_n.trans hdesc.nPackets.symm
      -- counts below 2^53 are exact as floats
      received := by
        rw [hloss, (aggregateLoss_exact hcount).received, totalCounts_received heven,
          hdesc.nPackets, Int.cast_natCast]
      jitter := by
        rw [hdesc.jitter_n, hdesc.nRuns, hdesc.nPackets]
        exact sum_jitter_add_length heven
      unique := by
        rw [hloss]
        exact (aggregateLoss_sums hcount).1
      expected := by
        rw [hloss]
        exact (aggregateLoss_sums hcount).2
      dscp := fun d hd => by
        rw [hdscp] at hd
        have hsums := (aggregateDscp_describes hd).sums
        refine ⟨_, ?_, hsums⟩
        rw [hdesc.nPackets]
        exact length_flatten_tos_le heven
      perRun_isSome := by rw [hn, hsome]
      perRun := by
        rw [hn]
        exact hper }

end

/-! ### The summary -/

section

variable [LinearOrder F] {np : Numpy.Ops F} {args : SummaryArgs} {cs : List (Cell F)}
  {runs : List (Run F)} (hds : IsDataset runs cs)
include hds

/-- A row of comparisons agrees with the entries of its two conditions. -/
theorem comparisonEntry_agrees {base c : Str} {d : ConditionComparison F}
    (h : comparisonEntry np args cs base c = .ok d) {b o : CellSummary F}
    (hb : cellEntry np args cs base = .ok b) (ho : cellEntry np args cs c = .ok o) :
    d.condition = c ∧ d.baseline = base ∧ d.Agrees b o := by
  obtain ⟨baseCell, hbaseCell, h⟩ := bind_eq_ok_iff.mp h
  obtain ⟨otherCell, hotherCell, h⟩ := bind_eq_ok_iff.mp h
  obtain ⟨metrics, hmetrics, h⟩ := bind_eq_ok_iff.mp h
  obtain rfl := Except.ok.inj h
  refine ⟨rfl, rfl, ?_⟩
  rw [cellEntry, hbaseCell, ok_bind, mapError_eq_ok_iff] at hb
  rw [cellEntry, hotherCell, ok_bind, mapError_eq_ok_iff] at ho
  rw [mapError_eq_ok_iff] at hmetrics
  have hbruns := hds.runs_ne _ (lookupCell_eq_ok hbaseCell).1
  have horuns := hds.runs_ne _ (lookupCell_eq_ok hotherCell).1
  obtain ⟨hblatency, hbjitter, -⟩ := cellSummary_parts hbruns hb
  obtain ⟨holatency, hojitter, -⟩ := cellSummary_parts horuns ho
  -- one metric after the other
  have hmetric : ∀ {label : Str} {sample : Sample} {q : ℚ} {xs ys : List F}
      {p : Str × Comparison F} {x y : DistributionSummary F}, baseCell.sample np sample = .ok xs →
      otherCell.sample np sample = .ok ys → q ∈ latencyPercentiles →
      distributionSummary np xs latencyPercentiles args.method = .ok x →
      distributionSummary np ys latencyPercentiles args.method = .ok y →
      (do
        let baseValues ← baseCell.sample np sample
        let otherValues ← otherCell.sample np sample
        let c ← compare np baseValues otherValues (.percentile q) args.nBoot args.ci args.seed
          args.method
        return (label, c)) = .ok p → ∃ c, p = (label, c) ∧ c.Agrees q x y := by
    intro label sample q xs ys p x y hxs hys hq hx hy hp
    rw [hxs, hys, ok_bind, ok_bind] at hp
    obtain ⟨c, hc, hp⟩ := bind_eq_ok_iff.mp hp
    exact ⟨c, (Except.ok.inj hp).symm, compare_agrees hc hq hx hy⟩
  have hblatencies : baseCell.sample np .latencyMs = .ok _ := latencyMs_eq hbruns
  have holatencies : otherCell.sample np .latencyMs = .ok _ := latencyMs_eq horuns
  have hbjitters : baseCell.sample np .jitterUs = .ok _ := jitterUs_eq hbruns
  have hojitters : otherCell.sample np .jitterUs = .ok _ := jitterUs_eq horuns
  have h50 : (50 : ℚ) ∈ latencyPercentiles := List.mem_cons_self
  have h99 : (99 : ℚ) ∈ latencyPercentiles :=
    List.mem_cons_of_mem _ (List.mem_cons_of_mem _ List.mem_cons_self)
  unfold compareCells comparisonMetrics at hmetrics
  obtain ⟨p₁, ps₁, hp₁, hps₁, rfl⟩ := List.forall₂_cons_left_iff.mp (mapM_eq_ok_iff.mp hmetrics)
  obtain ⟨p₂, ps₂, hp₂, hps₂, rfl⟩ := List.forall₂_cons_left_iff.mp hps₁
  obtain ⟨p₃, ps₃, hp₃, hps₃, rfl⟩ := List.forall₂_cons_left_iff.mp hps₂
  obtain rfl := List.forall₂_nil_left_iff.mp hps₃
  obtain ⟨p50, rfl, hp50⟩ := hmetric hblatencies holatencies h50 hblatency holatency hp₁
  obtain ⟨p99, rfl, hp99⟩ := hmetric hblatencies holatencies h99 hblatency holatency hp₂
  obtain ⟨jitter, rfl, hjitter⟩ := hmetric hbjitters hojitters h99 hbjitter hojitter hp₃
  exact ⟨p50, p99, jitter, rfl, hp50, hp99, hjitter⟩

/-- **The tables of a summary agree.** -/
theorem summarise_coherent (heven : ∀ r ∈ runs, r.Even)
    (hcount : ∀ cell ∈ cs, Countable cell.runs) {resultsDir : Str} {s : Summary F}
    (h : summarise np args resultsDir cs = .ok s) : s.Coherent := by
  obtain ⟨base, hbase, h⟩ := bind_eq_ok_iff.mp h
  obtain ⟨entries, hentries, h⟩ := bind_eq_ok_iff.mp h
  obtain ⟨comparisons, hcomparisons, h⟩ := bind_eq_ok_iff.mp h
  obtain rfl := Except.ok.inj h
  have hbasemem := chooseBaseline_mem hbase
  -- every condition has its entry, so a comparison finds the two it is about
  have hentry : ∀ c ∈ cs.map Cell.condition, ∃ e ∈ entries, cellEntry np args cs c = .ok e := by
    intro c hc
    obtain ⟨e, he⟩ := exists_mapM_eq_ok_iff.mp ⟨entries, hentries⟩ c hc
    exact ⟨e, (mem_of_mapM hentries).mpr ⟨c, hc, he⟩, he⟩
  obtain ⟨b, hb, hbentry⟩ := hentry base hbasemem
  have hcomparison : ∀ {c : Str} {d : ConditionComparison F},
      c ∈ (cs.map Cell.condition).filter (· ≠ base) →
      comparisonEntry np args cs base c = .ok d →
      d.condition = c ∧ d.baseline = base ∧ ∃ o ∈ entries, o.condition = c ∧ d.Agrees b o := by
    intro c d hc hd
    obtain ⟨o, ho, hoentry⟩ := hentry c (List.mem_of_mem_filter hc)
    obtain ⟨hcond, hbaseline, hagrees⟩ := comparisonEntry_agrees hds hd hbentry hoentry
    exact ⟨hcond, hbaseline, o, ho, (cellEntry_spec hds hoentry).1, hagrees⟩
  exact
    { nodup := hds.nodup
      conditions := (map_of_mapM hentries fun c _ e he => (cellEntry_spec hds he).1).trans
        (List.map_id _)
      baseline := hbasemem
      cells := fun e he => by
        obtain ⟨c, -, hc⟩ := (mem_of_mapM hentries).mp he
        obtain ⟨cell, hlookup, hcell⟩ := bind_eq_ok_iff.mp hc
        have hmem := (lookupCell_eq_ok hlookup).1
        exact cellSummary_coherent (hds.runs_ne cell hmem)
          (fun r hr => heven r ((hds.mem_runs_iff hmem r).mp hr).1) (hcount cell hmem)
          (mapError_eq_ok_iff.mp hcell)
      comparisons := (map_of_mapM hcomparisons fun c hc d hd =>
        (hcomparison hc hd).1).trans (List.map_id _)
      compared := fun d hd => by
        obtain ⟨c, hc, hentry⟩ := (mem_of_mapM hcomparisons).mp hd
        obtain ⟨hcond, hbaseline, o, ho, hocond, hagrees⟩ := hcomparison hc hentry
        exact ⟨hbaseline, b, hb, o, ho, (cellEntry_spec hds hbentry).1, hocond.trans hcond.symm,
          hagrees⟩ }

end

/-- **The tables of a report tell one story.**  For every directory whose files repeat no column
name and whose conditions have numbers that are not negative and fewer than `2 ^ 53` packets,
every choice of arguments and any arithmetic on latencies: if there is a summary, in it the
latency table, the loss table and the runs count the same packets of a condition, the jitter
table one less for each run, the DSCP table those with a TOS column; and every comparison shows,
with the sizes of the samples, the very percentiles that stand in the tables of the baseline and
of its condition. -/
theorem summary_coherent [LinearOrder F] {np : Numpy.Ops F} {U : Unicode} {fl : FloatOps F}
    {args : SummaryArgs} {resultsDir : Str} {files : List CsvFile}
    (hheaders : ∀ file ∈ files, ∀ c ∈ readColumns,
      (dictReader (Csv.read file.text)).1.count c ≤ 1)
    (hcount : ∀ cells, buildDataset U fl files = .ok cells → ∀ cell ∈ cells, Countable cell.runs)
    {s : Summary F} (h : buildSummary np U fl args resultsDir files = .ok s) : s.Coherent := by
  obtain ⟨cs, hcs, h⟩ := bind_eq_ok_iff.mp h
  rw [mapError_eq_ok_iff] at hcs
  have hcount := hcount cs hcs
  rw [buildDataset] at hcs
  obtain ⟨gs, hgs, rfl⟩ := map_eq_ok_iff.mp hcs
  obtain ⟨loaded, hloaded, rfl⟩ := map_eq_ok_iff.mp hgs
  refine summarise_coherent (isDataset_cells loaded) (fun r hr => ?_) hcount h
  obtain ⟨file, hfile, hload⟩ := (mem_of_mapM hloaded).mp hr
  exact even_of_loadCsv hload (hheaders file ((List.mem_insertionSort _).mp hfile))

/-- Two conditions, one of them with a TOS column. -/
theorem summary_coherent_two_conditions :
    let header := "seq,send_ns,recv_ns,latency_ms,jitter_us,pkt_size"
    let files : List CsvFile :=
      [⟨⟨"fifo_run1.csv".toList, "fifo_run1".toList⟩,
          (header ++ "\r\n0,1,2,1.0,0.0,64\r\n2,2,3,3.0,5.0,64\r\n").toList⟩,
        ⟨⟨"prio_clsf_run1.csv".toList, "prio_clsf_run1".toList⟩,
          (header ++ ",tos\r\n0,1,2,1.0,0.0,64,184\r\n1,2,3,2.0,7.0,64,-1\r\n").toList⟩]
    ∃ s, buildSummary Numpy.exact asciiTable rationalFloats { nBoot := 3 } "results".toList files
        = .ok s ∧ s.Coherent := by
  intro header files
  have hbuild : ∃ s, buildSummary Numpy.exact asciiTable rationalFloats { nBoot := 3 }
      "results".toList files = .ok s := by
    apply (exists_map_eq_ok_iff (f := fun _ => ())).mp
    exact ⟨(), by decide +kernel⟩
  -- the two files have few packets, so their counts are exact
  have hcountable : (buildDataset asciiTable rationalFloats files).map
      (fun cells => decide (∀ cell ∈ cells, Countable cell.runs)) = .ok true := by
    decide +kernel
  have hcount : ∀ cells, buildDataset asciiTable rationalFloats files = .ok cells →
      ∀ cell ∈ cells, Countable cell.runs := by
    intro cells hcells
    rw [hcells] at hcountable
    exact of_decide_eq_true (Except.ok.inj hcountable)
  obtain ⟨s, hs⟩ := hbuild
  exact ⟨s, hs, summary_coherent (by decide +kernel) hcount hs⟩

end TsPacket
