import Mathlib.Algebra.Order.Group.Unbundled.Abs
import Mathlib.Data.List.Chain
import TsPacket.Analysis.Coherence
import TsPacket.EndToEnd.ClockOffset
import TsPacket.EndToEnd.LossAccounting
import TsPacket.Workload.TalkerPacing

/-!
# What the jitter says

The listener takes the jitter of a packet against the time of the packet before it, whichever
that was.  The talker sends on a schedule that is fixed at the start, so what is not jitter of the
network is what the talker is behind its schedule, and the intervals that are missing.

## Main definitions

* `Session` — a paced talker, and a listener that hears what was delivered of it.
* `Session.Delay` — how long the packets were under way.
* `Session.Prompt`, `Session.Whole` — a machine that keeps up, and a network that loses nothing.
* `Summary.JitterWithin` — bounds on all that a summary says of the jitter.

## Main results

* `listen_timed` — the jitter of a row is of its time and of the time of the row before it.
* `jitter_of_gaps` — **whatever is lost, repeated or reordered**, the jitter of a row is that of
  the intervals between the two packets, up to the lag of the talker and the spread of the delays.
* `summarise_jitterWithin` — what bounds the jitter of the runs bounds that of the tables.
* `jitter_tables` — **the jitter tables of prompt and whole sessions** are within the lag, the
  spread, and what the two programs take the interval for.
-/

namespace TsPacket

open PyText Raise

variable {F : Type}

/-! ### The jitter column -/

/-- The jitter of a row that comes after another. -/
def JitterStep (fl : FloatOps F) (args : ListenerArgs) (r r' : Row F) : Prop :=
  r'.jitterUs = fl.div (fl.ofInt (r'.recvNs - (r.recvNs + args.expectedIntervalNs))) fl.e3

/-- The jitter of the rows is that of their receive times. -/
structure ListenerState.Timed (fl : FloatOps F) (args : ListenerArgs) (st : ListenerState F) :
    Prop where
  last : st.prevRecvNs = st.results.getLast?.map Row.recvNs
  first : ∀ row ∈ st.results.head?, row.jitterUs = fl.zero
  jitter : st.results.IsChain (JitterStep fl args)

section

variable {fl : FloatOps F} {args : ListenerArgs}

theorem ListenerState.Timed.start : ({} : ListenerState F).Timed fl args := ⟨rfl, nofun, .nil⟩

/-- One more row. -/
theorem ListenerState.Timed.next {st : ListenerState F} (h : st.Timed fl args)
    (data : List Bytes.Byte) (tos kernelNs : Option ℤ) (recvNs : ℕ) :
    ListenerState.Timed fl args
      { results := st.results ++ [recordRow fl args st.prevRecvNs data tos kernelNs recvNs]
        prevRecvNs := some recvNs } where
  last := by
    rw [List.getLast?_concat]
    rfl
  first := by
    intro row hrow
    -- the new row is the first only if there was none
    rcases List.eq_nil_or_concat st.results with hnil | ⟨rows, r, hrows⟩
    · have hprev : st.prevRecvNs = none := by rw [h.last, hnil, List.getLast?_nil, Option.map_none]
      rw [hnil, hprev] at hrow
      cases hrow
      rfl
    · rw [List.head?_append_of_ne_nil _ (by simp [hrows])] at hrow
      exact h.first row hrow
  jitter := by
    refine List.isChain_append.mpr ⟨h.jitter, .singleton _, ?_⟩
    rintro r hr _ ⟨⟩
    -- the time before is that of the last row
    have hprev : st.prevRecvNs = some r.recvNs := by
      rw [h.last, Option.mem_def.mp hr, Option.map_some]
    rw [hprev]
    rfl

/-- **The jitter of every row but the first** is of its time and of the time of the row before
it, through timeouts and short datagrams. -/
theorem listen_timed : ∀ (evs : List ListenerEvent) {st st' : ListenerState F},
    st.Timed fl args → listen fl args evs st = some st' → st'.Timed fl args := by
  intro evs
  -- one event after the other; only a datagram that is long enough is a row
  induction evs with
  | nil =>
    intro st st' hst h
    cases h
    exact hst
  | cons e evs ih =>
    intro st st' hst h
    cases e with
    | timeout =>
      rw [listen] at h
      split at h
      · cases h
        exact hst
      · exact ih hst h
    | datagram m =>
      rw [listen] at h
      obtain ⟨⟨data, tos, kernelNs⟩, -, h⟩ := Option.bind_eq_some_iff.mp h
      dsimp only at h
      split at h
      · exact ih hst h
      · exact ih (hst.next data tos kernelNs m.recvNs) h

end

/-! ### Sessions -/

/-- A paced talker, and a listener that hears what was delivered of it, in any order. -/
structure Session (fl : FloatOps F) (a : TalkerArgs) (args : ListenerArgs) where
  startMono : ℤ
  startWall : ℤ
  clock : ℕ → ℕ
  sendOk : ℕ → Bool
  driftText : ℤ → Str
  readings : List ℤ
  talker : TalkerState
  ending : TalkerEnd
  paced : talkerPaced a startMono startWall clock sendOk driftText readings = (talker, ending)
  deliveries : List (Delivery talker.run)
  listener : ListenerState F
  heard : listen fl args (deliveries.map fun d => .datagram d.received) {} = some listener

/-- The headers of a run fit. -/
theorem headers_fit {size : ℤ} {clock : ℕ → ℕ} {sendOk : ℕ → Bool} : ∀ {count : ℕ}
    {run : TalkerRun}, talkerRun size clock sendOk count = some run →
    ∀ k < count, k < 2 ^ 32 ∧ clock k < 2 ^ 64 := by
  intro count
  induction count with
  | zero => exact fun _ k hk => absurd hk (Nat.not_lt_zero k)
  | succ n ih =>
    intro run h k hk
    rw [talkerRun, List.range_succ, List.foldlM_append] at h
    obtain ⟨run', hrun', h⟩ := Option.bind_eq_some_iff.mp h
    rcases Nat.lt_succ_iff_lt_or_eq.mp hk with hlt | rfl
    · exact ih hrun' k hlt
    · rw [List.foldlM_cons] at h
      obtain ⟨run'', hsend, -⟩ := Option.bind_eq_some_iff.mp h
      obtain ⟨hdr, hpack, -⟩ := Option.bind_eq_some_iff.mp hsend
      by_contra hfit
      rw [packHeader, if_neg hfit] at hpack
      cases hpack

namespace Session

variable {fl : FloatOps F} {a : TalkerArgs} {args : ListenerArgs} (s : Session fl a args)

/-- The times that the packets were under way, from the reading of the clock at which they were
sent. -/
def Delay (lo hi : ℤ) : Prop :=
  ∀ d ∈ s.deliveries, ∀ r, s.talker.rounds[d.number]? = some r →
    lo ≤ d.received.recvNs - r.now ∧ d.received.recvNs - r.now ≤ hi

/-- The machine of the talker takes `turn` from one packet to the next, and is prompt. -/
def Prompt (turn delta : ℤ) : Prop :=
  (∀ r, s.talker.rounds[0]? = some r → r.driftNs ≤ delta) ∧
  ∀ (i : ℕ) (r r' : Round), s.talker.rounds[i]? = some r → s.talker.rounds[i + 1]? = some r' →
    r'.first ≤ r.now + turn ∧ r'.Prompt delta

/-- Nothing is lost between the first delivery and the last, nor repeated or reordered. -/
def Whole : Prop := (s.deliveries.map Delivery.number).IsChain fun k k' => k' = k + 1

theorem pacedRun : PacedRun a s.startMono s.startWall s.clock s.sendOk s.driftText s.talker :=
  (talkerPaced_paced s.paced).1

theorem length_rounds_le : s.talker.rounds.length ≤ 2 ^ 32 := by
  by_contra hlong
  have hfit := headers_fit s.pacedRun.run (2 ^ 32) (Nat.lt_of_not_le hlong)
  exact absurd hfit.1 (Nat.lt_irrefl _)

/-- What is delivered is the datagram of a round. -/
theorem sent_of_delivery (d : Delivery s.talker.run) :
    d.number < s.talker.rounds.length ∧
      d.received.data = datagram a.size s.clock d.number := by
  have hfit := headers_fit s.pacedRun.run
  obtain ⟨run, hrun, hwire, -⟩ := talkerRun_eq a.size s.clock s.sendOk _ s.length_rounds_le
    fun k hk => (hfit k hk).2
  obtain rfl := Option.some.inj (s.pacedRun.run.symm.trans hrun)
  have hsent := d.sent
  rw [hwire] at hsent
  obtain ⟨k, hk, heq⟩ := List.mem_map.mp hsent
  obtain ⟨hnumber, hdata⟩ := Prod.mk.inj heq
  subst hnumber
  exact ⟨List.mem_range.mp (List.mem_filter.mp hk).1, hdata.symm⟩

/-- **The rows are those of the deliveries**, in their order. -/
theorem rows_of_deliveries : s.listener.results.map (fun row => (row.seq, row.recvNs))
    = s.deliveries.map fun d => (d.number, d.received.recvNs) := by
  have hfit := headers_fit s.pacedRun.run
  obtain ⟨st, hst, hfields⟩ := listen_datagrams fl args (s.deliveries.map Delivery.received) {} (by
    intro m hm
    obtain ⟨d, -, rfl⟩ := List.mem_map.mp hm
    rw [(s.sent_of_delivery d).2]
    exact ⟨d.wholeTos, length_datagram a.size s.clock d.number⟩)
  rw [List.map_map] at hst hfields
  obtain rfl := Option.some.inj (s.heard.symm.trans hst)
  -- the header says what was sent
  have hpair : ∀ d : Delivery s.talker.run,
      (d.received.fields.1, d.received.fields.2.2.1) = (d.number, d.received.recvNs) := by
    intro d
    obtain ⟨hlt, hdata⟩ := s.sent_of_delivery d
    obtain ⟨hseq, hclock⟩ := hfit _ hlt
    rw [Received.fields, hdata, unpackHeader_datagram a.size hseq hclock]
  calc s.listener.results.map (fun row => (row.seq, row.recvNs))
      = (s.listener.results.map Row.fields).map fun f => (f.1, f.2.2.1) := by
        rw [List.map_map]
        rfl
    _ = (s.deliveries.map (Received.fields ∘ Delivery.received)).map fun f => (f.1, f.2.2.1) := by
        rw [hfields]
        rfl
    _ = s.deliveries.map fun d => (d.number, d.received.recvNs) := by
        rw [List.map_map]
        exact List.map_congr_left fun d _ => hpair d

/-- A row has its delivery, and the delivery its round. -/
theorem delivery_of_row {i : ℕ} {row : Row F} (hrow : s.listener.results[i]? = some row) :
    ∃ d r, s.deliveries[i]? = some d ∧ s.talker.rounds[d.number]? = some r ∧
      row.seq = d.number ∧ row.recvNs = d.received.recvNs := by
  have hplace := congrArg (fun l => l[i]?) s.rows_of_deliveries
  rw [List.getElem?_map, List.getElem?_map, hrow, Option.map_some, eq_comm,
    Option.map_eq_some_iff] at hplace
  obtain ⟨d, hd, heq⟩ := hplace
  obtain ⟨hseq, hrecv⟩ := Prod.mk.inj heq
  exact ⟨d, _, hd, List.getElem?_eq_getElem (s.sent_of_delivery d).1, hseq.symm, hrecv.symm⟩

/-- What the talker is behind, once it keeps up. -/
theorem drift_le {turn delta : ℤ} (hturn : turn ≤ a.intervalNs) (h : s.Prompt turn delta) :
    ∀ {k : ℕ} {r : Round}, s.talker.rounds[k]? = some r → r.driftNs ≤ delta := by
  intro k
  induction k with
  | zero => exact fun {r} hr => h.1 r hr
  | succ k ih =>
    intro r' hr'
    have hlt : k + 1 < s.talker.rounds.length := (List.getElem?_eq_some_iff.mp hr').1
    have hr := List.getElem?_eq_getElem (show k < s.talker.rounds.length by omega)
    obtain ⟨hfirst, hprompt⟩ := h.2 k _ r' hr hr'
    have hstep := s.pacedRun.drift_step hr hr' hfirst hprompt
    have hlast := ih hr
    exact hstep.trans (max_le (le_refl _) (by omega))

/-- The time of a row: that of its interval in the schedule, up to what the talker was behind and
the packet was under way. -/
theorem time_of_row {lag lo hi : ℤ} (hlag : ∀ r ∈ s.talker.rounds, r.driftNs ≤ lag)
    (hdelay : s.Delay lo hi) {i : ℕ} {row : Row F} (hrow : s.listener.results[i]? = some row) :
    s.startMono + row.seq * a.intervalNs + lo ≤ row.recvNs ∧
      row.recvNs ≤ s.startMono + row.seq * a.intervalNs + lag + hi := by
  obtain ⟨d, r, hd, hr, hseq, hrecv⟩ := s.delivery_of_row hrow
  obtain ⟨hlo, hhi⟩ := hdelay d (List.mem_of_getElem? hd) r hr
  have hscheduled := s.pacedRun.scheduled hr
  have hearly := (s.pacedRun.waited r (List.mem_of_getElem? hr)).le_last
  have hdrift := hlag r (List.mem_of_getElem? hr)
  rw [Round.driftNs] at hdrift
  rw [hseq, hrecv, ← hscheduled]
  constructor <;> omega

theorem timed : s.listener.Timed fl args := listen_timed _ .start s.heard

/-- The time from one row to the next, against the intervals between their packets. -/
theorem gap_bound {lag lo hi : ℤ} (hlag : ∀ r ∈ s.talker.rounds, r.driftNs ≤ lag)
    (hdelay : s.Delay lo hi) {i : ℕ} {row row' : Row F}
    (hrow : s.listener.results[i]? = some row) (hrow' : s.listener.results[i + 1]? = some row') :
    row'.jitterUs = fl.div (fl.ofInt (row'.recvNs - (row.recvNs + args.expectedIntervalNs))) fl.e3 ∧
      |(row'.recvNs - (row.recvNs + args.expectedIntervalNs) : ℤ)
          - (((row'.seq : ℤ) - row.seq) * a.intervalNs - args.expectedIntervalNs)|
        ≤ lag + (hi - lo) := by
  obtain ⟨hlo, hhi⟩ := s.time_of_row hlag hdelay hrow
  obtain ⟨hlo', hhi'⟩ := s.time_of_row hlag hdelay hrow'
  obtain ⟨hlt, hget⟩ := List.getElem?_eq_some_iff.mp hrow
  obtain ⟨hlt', hget'⟩ := List.getElem?_eq_some_iff.mp hrow'
  have hstep := List.isChain_iff_getElem.mp s.timed.jitter i hlt'
  rw [hget, hget'] at hstep
  refine ⟨hstep, ?_⟩
  rw [sub_mul, abs_le]
  constructor <;> omega

/-- The numbers of a whole session, row by row. -/
theorem seq_of_whole (hwhole : s.Whole) :
    s.listener.results.IsChain fun row row' => row'.seq = row.seq + 1 := by
  have hseq := congrArg (List.map Prod.fst) s.rows_of_deliveries
  rw [List.map_map, List.map_map] at hseq
  have hchain : (s.listener.results.map Row.seq).IsChain fun k k' => k' = k + 1 := by
    rw [show s.listener.results.map Row.seq = s.deliveries.map Delivery.number from hseq]
    exact hwhole
  exact (List.isChain_map Row.seq).mp hchain

end Session

/-- **The jitter of gaps.**  Whatever is lost, repeated or reordered on the way, and whenever the
sends fail: the rows are those of the deliveries, the first has no jitter, and the jitter of every
other row is that of the intervals between its packet and the packet of the row before it, up to
what the talker was behind its schedule and the spread of the delays. -/
theorem jitter_of_gaps {fl : FloatOps F} {a : TalkerArgs} {args : ListenerArgs}
    (s : Session fl a args) {lag lo hi : ℤ} (hlag : ∀ r ∈ s.talker.rounds, r.driftNs ≤ lag)
    (hdelay : s.Delay lo hi) :
    s.listener.results.map (fun row => (row.seq, row.recvNs))
        = s.deliveries.map (fun d => (d.number, d.received.recvNs)) ∧
      (∀ row ∈ s.listener.results.head?, row.jitterUs = fl.zero) ∧
      ∀ (i : ℕ) (row row' : Row F), s.listener.results[i]? = some row →
        s.listener.results[i + 1]? = some row' →
        ∃ z : ℤ, row'.jitterUs = fl.div (fl.ofInt z) fl.e3 ∧
          |z - (((row'.seq : ℤ) - row.seq) * a.intervalNs - args.expectedIntervalNs)|
            ≤ lag + (hi - lo) :=
  ⟨s.rows_of_deliveries, s.timed.first, fun _ _ _ hrow hrow' =>
    ⟨_, s.gap_bound hlag hdelay hrow hrow'⟩⟩

/-! ### Values in a range -/

section

variable [Field F] [LinearOrder F] {np : Numpy.Ops F} {m M : F} {xs : List F}

/-- What a summary shows lies in a set. -/
structure DistributionSummary.Within (d : DistributionSummary F) (I : Set F) : Prop where
  min : d.min ∈ I
  percentiles : ∀ p ∈ d.percentiles, p.2 ∈ I
  max : d.max ∈ I
  mean : d.mean ∈ I

/-- An interval with both ends in a set. -/
structure BootstrapCI.Within (b : BootstrapCI F) (I : Set F) : Prop where
  point : b.point ∈ I
  low : b.low ∈ I
  high : b.high ∈ I

/-- An aggregate of values in a set. -/
structure RunAggregate.Within (a : RunAggregate F) (I : Set F) : Prop where
  perRun : ∀ v ∈ a.perRun, v ∈ I
  mean : a.nRuns ≠ 0 → a.mean ∈ I

/-- All that a summary says of the jitter, where there is any. -/
structure Summary.JitterWithin (s : Summary F) (I : Set F) : Prop where
  tables : ∀ e ∈ s.cells, e.jitterUs.n ≠ 0 → e.jitterUs.Within I
  perRun : ∀ e ∈ s.cells, ∀ a b, e.perRun = some (a, b) → b.Within I
  comparisons : ∀ d ∈ s.comparisons, ∀ c, (jitterLabel, c) ∈ d.metrics →
    (c.nBaseline ≠ 0 → c.baseline.Within I) ∧ (c.nProposed ≠ 0 → c.proposed.Within I)

variable [IsStrictOrderedRing F] (hnp : np.Exact)
include hnp

theorem percentile_within (hx : ∀ x ∈ xs, x ∈ Set.Icc m M) {q : ℚ} {v : F}
    (h : Numpy.percentile np .linear q xs = .ok v) : v ∈ Set.Icc m M :=
  resolveStatistic_mem hnp (show Statistic.Inside .linear (.percentile q) from rfl) h hx

theorem distributionSummary_within (hx : ∀ x ∈ xs, x ∈ Set.Icc m M) {levels : List ℚ}
    {d : DistributionSummary F} (h : distributionSummary np xs levels .linear = .ok d)
    (hn : d.n ≠ 0) : d.Within (Set.Icc m M) := by
  have hlength := (distributionSummary_spec h).1
  have hne : xs ≠ [] := fun hnil => hn (by rw [hlength, hnil, List.length_nil])
  rw [distributionSummary, if_neg hne] at h
  obtain ⟨pcts, hpcts, h⟩ := bind_eq_ok_iff.mp h
  obtain ⟨lo, hlo, h⟩ := bind_eq_ok_iff.mp h
  obtain ⟨hi, hhi, h⟩ := bind_eq_ok_iff.mp h
  obtain ⟨mid, hmid, h⟩ := bind_eq_ok_iff.mp h
  obtain rfl := Except.ok.inj h
  have hmem : ∀ (stat : Statistic) (v : F), stat.Inside .linear →
      resolveStatistic np .linear stat xs = .ok v → v ∈ Set.Icc m M := fun _ _ hstat hv =>
    resolveStatistic_mem hnp hstat hv hx
  refine ⟨hmem .min lo trivial hlo, fun p hp => ?_, hmem .max hi trivial hhi,
    hmem .mean mid trivial hmid⟩
  rw [percentiles, if_neg hne] at hpcts
  obtain ⟨q, -, hq⟩ := (mem_of_mapM hpcts).mp (List.of_mem_zip hp).2
  exact hmem (.percentile q) p.2 rfl hq

theorem bootstrapCi_within (hne : xs ≠ []) (hx : ∀ x ∈ xs, x ∈ Set.Icc m M) {q : ℚ} {nBoot : ℤ}
    {ci : ℚ} {seed chunk : ℕ} {b : BootstrapCI F}
    (h : bootstrapCi np xs (.percentile q) nBoot ci seed chunk .linear = .ok b) :
    b.Within (Set.Icc m M) := by
  have hpoint := bootstrapCi_point h
  rw [LevelIs, if_neg hne] at hpoint
  have hstat : Statistic.Inside .linear (.percentile q) := rfl
  obtain ⟨⟨hlow, hlow'⟩, hhigh, hhigh'⟩ := bootstrapCi_inside hnp hstat hne h
  have hmin := (hx _ (hnp.min hne).1).1
  have hmax := (hx _ (hnp.max hne).1).2
  exact ⟨percentile_within hnp hx hpoint, ⟨hmin.trans hlow, hlow'.trans hmax⟩,
    hmin.trans hhigh, hhigh'.trans hmax⟩

theorem compare_within {ys : List F} (hx : ∀ x ∈ xs, x ∈ Set.Icc m M)
    (hy : ∀ y ∈ ys, y ∈ Set.Icc m M) {q : ℚ} {nBoot : ℤ} {ci : ℚ} {seed : ℕ} {c : Comparison F}
    (h : compare np xs ys (.percentile q) nBoot ci seed .linear = .ok c) :
    (c.nBaseline ≠ 0 → c.baseline.Within (Set.Icc m M)) ∧
      (c.nProposed ≠ 0 → c.proposed.Within (Set.Icc m M)) := by
  unfold compare at h
  obtain ⟨b, hb, h⟩ := bind_eq_ok_iff.mp h
  obtain ⟨p, hp, h⟩ := bind_eq_ok_iff.mp h
  obtain rfl := Except.ok.inj h
  exact ⟨fun hn => bootstrapCi_within hnp (mt List.length_eq_zero_iff.mpr hn) hx hb,
    fun hn => bootstrapCi_within hnp (mt List.length_eq_zero_iff.mpr hn) hy hp⟩

theorem perRunAggregate_within {vs : List (List F)} (hv : ∀ v ∈ vs, ∀ x ∈ v, x ∈ Set.Icc m M)
    {q ci : ℚ} {a : RunAggregate F}
    (h : perRunAggregate np vs (.percentile q) ci .linear = .ok a) : a.Within (Set.Icc m M) := by
  obtain ⟨perRun, hperRun, h⟩ := bind_eq_ok_iff.mp h
  obtain ⟨mean, hmean, h⟩ := bind_eq_ok_iff.mp h
  have hvalues : ∀ v ∈ perRun, v ∈ Set.Icc m M := by
    intro v hmem
    obtain ⟨run, hrun, hstat⟩ := (mem_of_mapM hperRun).mp hmem
    exact percentile_within hnp (hv run hrun) hstat
  have hmid : perRun.length ≠ 0 → mean ∈ Set.Icc m M := by
    intro hn
    rw [if_pos hn] at hmean
    have hinside : Statistic.Inside .linear .mean := trivial
    exact resolveStatistic_mem hnp hinside hmean hvalues
  dsimp only at h
  split at h
  all_goals
    obtain rfl := Except.ok.inj h
    exact ⟨hvalues, hmid⟩

end

/-! ### Summaries -/

/-- The jitter of the runs of a cell. -/
def Cell.JitterIn (np : Numpy.Ops F) (cell : Cell F) (I : Set F) : Prop :=
  ∀ run ∈ cell.runs, ∀ x ∈ jitterValues np run.jitterUs, x ∈ I

theorem Cell.JitterIn.pooled {np : Numpy.Ops F} {cell : Cell F} {I : Set F}
    (h : cell.JitterIn np I) :
    ∀ x ∈ (cell.runs.map fun r => jitterValues np r.jitterUs).flatten, x ∈ I := by
  intro x hx
  obtain ⟨v, hv, hxv⟩ := List.mem_flatten.mp hx
  obtain ⟨run, hrun, rfl⟩ := List.mem_map.mp hv
  exact h run hrun x hxv

section

variable [Field F] [LinearOrder F] [IsStrictOrderedRing F] {np : Numpy.Ops F} (hnp : np.Exact)
  {m M : F}
include hnp

theorem cellSummary_jitterWithin {cell : Cell F} (hne : cell.runs ≠ [])
    (hjitter : cell.JitterIn np (Set.Icc m M)) {ci : ℚ} {e : CellSummary F}
    (h : cellSummary np cell .linear ci = .ok e) :
    (e.jitterUs.n ≠ 0 → e.jitterUs.Within (Set.Icc m M)) ∧
      ∀ a b, e.perRun = some (a, b) → b.Within (Set.Icc m M) := by
  obtain ⟨-, htable, hentry, -⟩ := cellSummary_parts hne h
  refine ⟨distributionSummary_within hnp hjitter.pooled htable, fun a b hab => ?_⟩
  rw [hab] at hentry
  unfold perRunEntry at hentry
  split at hentry
  case isFalse => cases hentry
  case isTrue =>
    obtain ⟨latency, -, hentry⟩ := bind_eq_ok_iff.mp hentry
    obtain ⟨jitter, haggregate, hentry⟩ := bind_eq_ok_iff.mp hentry
    cases hentry
    exact perRunAggregate_within hnp (List.forall_mem_map.mpr hjitter) haggregate

theorem compareCells_jitterWithin {base other : Cell F} (hbne : base.runs ≠ [])
    (hone : other.runs ≠ []) (hbase : base.JitterIn np (Set.Icc m M))
    (hother : other.JitterIn np (Set.Icc m M)) {nBoot : ℤ} {ci : ℚ} {seed : ℕ}
    {metrics : List (Str × Comparison F)}
    (h : compareCells np base other nBoot ci seed .linear = .ok metrics) {c : Comparison F}
    (hc : (jitterLabel, c) ∈ metrics) :
    (c.nBaseline ≠ 0 → c.baseline.Within (Set.Icc m M)) ∧
      (c.nProposed ≠ 0 → c.proposed.Within (Set.Icc m M)) := by
  obtain ⟨metric, hmetric, hrow⟩ := (mem_of_mapM h).mp hc
  obtain ⟨xs, hxs, hrow⟩ := bind_eq_ok_iff.mp hrow
  obtain ⟨ys, hys, hrow⟩ := bind_eq_ok_iff.mp hrow
  obtain ⟨c', hcompare, hrow⟩ := bind_eq_ok_iff.mp hrow
  obtain ⟨hlabel, rfl⟩ := Prod.mk.inj (Except.ok.inj hrow)
  -- only one of the metrics has this label
  simp only [comparisonMetrics, List.mem_cons, List.not_mem_nil, or_false] at hmetric
  have h50 : "latency_p50_ms".toList ≠ jitterLabel := by decide
  have h99 : "latency_p99_ms".toList ≠ jitterLabel := by decide
  rcases hmetric with rfl | rfl | rfl
  · exact absurd hlabel h50
  · exact absurd hlabel h99
  · have hxs' : xs = _ := eq_of_eq_ok hxs (jitterUs_eq hbne)
    have hys' : ys = _ := eq_of_eq_ok hys (jitterUs_eq hone)
    rw [hxs', hys'] at hcompare
    exact compare_within hnp hbase.pooled hother.pooled hcompare

/-- **What bounds the jitter of the runs bounds the jitter of the summary.** -/
theorem summarise_jitterWithin {runs : List (Run F)} {cs : List (Cell F)}
    (hds : IsDataset runs cs) (hjitter : ∀ cell ∈ cs, cell.JitterIn np (Set.Icc m M))
    {args : SummaryArgs} (hmethod : args.method = .linear) {resultsDir : Str} {s : Summary F}
    (h : summarise np args resultsDir cs = .ok s) : s.JitterWithin (Set.Icc m M) := by
  obtain ⟨base, -, h⟩ := bind_eq_ok_iff.mp h
  obtain ⟨entries, hentries, h⟩ := bind_eq_ok_iff.mp h
  obtain ⟨comparisons, hcomparisons, h⟩ := bind_eq_ok_iff.mp h
  obtain rfl := Except.ok.inj h
  -- the table of the jitter, and that of the runs
  have hentry : ∀ e ∈ entries, (e.jitterUs.n ≠ 0 → e.jitterUs.Within (Set.Icc m M)) ∧
      ∀ a b, e.perRun = some (a, b) → b.Within (Set.Icc m M) := by
    intro e he
    obtain ⟨c, -, hc⟩ := (mem_of_mapM hentries).mp he
    obtain ⟨cell, hlookup, hcell⟩ := bind_eq_ok_iff.mp hc
    have hmem := (lookupCell_eq_ok hlookup).1
    rw [mapError_eq_ok_iff, hmethod] at hcell
    exact cellSummary_jitterWithin hnp (hds.runs_ne cell hmem) (hjitter cell hmem) hcell
  refine ⟨fun e he => (hentry e he).1, fun e he => (hentry e he).2, fun d hd c hc => ?_⟩
  -- the comparisons
  obtain ⟨cond, -, hcomparison⟩ := (mem_of_mapM hcomparisons).mp hd
  obtain ⟨baseCell, hbaseCell, hcomparison⟩ := bind_eq_ok_iff.mp hcomparison
  obtain ⟨otherCell, hotherCell, hcomparison⟩ := bind_eq_ok_iff.mp hcomparison
  obtain ⟨metrics, hmetrics, hcomparison⟩ := bind_eq_ok_iff.mp hcomparison
  obtain rfl := Except.ok.inj hcomparison
  rw [mapError_eq_ok_iff, hmethod] at hmetrics
  have hb := (lookupCell_eq_ok hbaseCell).1
  have ho := (lookupCell_eq_ok hotherCell).1
  exact compareCells_jitterWithin hnp (hds.runs_ne _ hb) (hds.runs_ne _ ho) (hjitter _ hb)
    (hjitter _ ho) hmetrics hc

end

/-! ### Prompt and whole sessions -/

section

variable [Field F] [LinearOrder F] [IsStrictOrderedRing F] {fl : FloatOps F}
  (hofInt : ∀ z : ℤ, fl.ofInt z = z) (hdiv : ∀ x y, fl.div x y = x / y) (he3 : fl.e3 = 10 ^ 3)
  {np : Numpy.Ops F} (habs : ∀ x, np.abs x = |x|) {a : TalkerArgs} {args : ListenerArgs}
  {turn delta lo hi spread : ℤ} (hturn : turn ≤ a.intervalNs) (hspread : hi - lo ≤ spread)
include hofInt hdiv he3 habs hturn hspread

/-- The jitter of the rows of a session. -/
theorem Session.jitterValues_within (s : Session fl a args) (hprompt : s.Prompt turn delta)
    (hdelay : s.Delay lo hi) (hwhole : s.Whole) :
    ∀ x ∈ jitterValues np (s.listener.results.map Row.jitterUs), x ∈ Set.Icc (0 : F)
      ((delta + spread + |a.intervalNs - args.expectedIntervalNs| : ℤ) / 10 ^ 3) := by
  -- no packet is later than a wait may overshoot
  have hlag : ∀ r ∈ s.talker.rounds, r.driftNs ≤ delta := by
    intro r hr
    obtain ⟨k, hk⟩ := List.mem_iff_getElem?.mp hr
    exact s.drift_le hturn hprompt hk
  intro x hx
  obtain ⟨y, hy, rfl⟩ := List.mem_map.mp hx
  rw [← List.map_drop] at hy
  obtain ⟨row', hrow', rfl⟩ := List.mem_map.mp hy
  obtain ⟨i, hi'⟩ := List.mem_iff_getElem?.mp hrow'
  rw [List.getElem?_drop, Nat.add_comm] at hi'
  obtain ⟨hlt, hget⟩ := List.getElem?_eq_some_iff.mp hi'
  have hrow := List.getElem?_eq_getElem (show i < s.listener.results.length by omega)
  -- the rows are of packets in their order, none missing
  have hseq := List.isChain_iff_getElem.mp (s.seq_of_whole hwhole) i hlt
  rw [hget] at hseq
  obtain ⟨hz, hbound⟩ := s.gap_bound hlag hdelay hrow hi'
  generalize (row'.recvNs - (s.listener.results[i].recvNs + args.expectedIntervalNs) : ℤ) = z
    at hz hbound
  have hone : ((row'.seq : ℤ) - s.listener.results[i].seq) = 1 := by
    rw [hseq]
    push_cast
    ring
  rw [hone, one_mul] at hbound
  -- the gap is off the interval of the talker, and that off the one expected
  have habsz : |z| ≤ delta + spread + |a.intervalNs - args.expectedIntervalNs| := by
    have hsplit := abs_add_le (z - (a.intervalNs - args.expectedIntervalNs))
      (a.intervalNs - args.expectedIntervalNs)
    rw [sub_add_cancel] at hsplit
    exact hsplit.trans (add_le_add (hbound.trans (by omega)) le_rfl)
  rw [habs, hz, hdiv, hofInt, he3, abs_div, abs_of_pos (show (0 : F) < 10 ^ 3 by positivity),
    ← Int.cast_abs]
  constructor
  · positivity
  · exact div_le_div_of_nonneg_right (Int.cast_le.mpr habsz) (by positivity)

end

/-- **The jitter tables of prompt and whole sessions.**  In the tables of a matrix of runs, each of
a talker whose machine is prompt and of a network that delivers its packets in order and loses none
in between: every percentile, mean and extreme of the jitter, every value for a single run, and
every interval of a comparison is between zero and the lag of the talker, the spread of the delays,
and the difference between the intervals that the two programs were given. -/
theorem jitter_tables [Field F] [LinearOrder F] [IsStrictOrderedRing F] {U : Unicode}
    (hU : U.Lawful) {fl : FloatOps F} (hfl : fl.Exact) (hofInt : ∀ z : ℤ, fl.ofInt z = z)
    (hdiv : ∀ x y, fl.div x y = x / y) (he3 : fl.e3 = 10 ^ 3) {np : Numpy.Ops F} (hnp : np.Exact)
    (habs : ∀ x, np.abs x = |x|) {args : ListenerArgs} {runs : ℕ} (hruns : runs < 2 ^ 64)
    {conditions : List Str} {havePrio : Bool} {rs : List (Outcome F)}
    (hrs : Outcomes runs conditions havePrio rs) (hfits : RecordedFits args rs) {a : TalkerArgs}
    {turn delta spread : ℤ}
    (hturn : turn ≤ a.intervalNs)
    (hsessions : ∀ r ∈ rs, ∃ (s : Session fl a args) (lo hi : ℤ), hi - lo ≤ spread ∧
      s.Prompt turn delta ∧ s.Delay lo hi ∧ s.Whole ∧ r.rows = s.listener.results)
    {out : Str} {files : List CsvFile} (hfiles : IsListing fl args out rs files)
    {sargs : SummaryArgs} (hmethod : sargs.method = .linear) {resultsDir : Str} {s : Summary F}
    (h : buildSummary np U fl sargs resultsDir files = .ok s) :
    s.JitterWithin (Set.Icc 0
      ((delta + spread + |a.intervalNs - args.expectedIntervalNs| : ℤ) / 10 ^ 3)) := by
  obtain ⟨cs, hcs, h⟩ := bind_eq_ok_iff.mp h
  rw [mapError_eq_ok_iff, buildDataset] at hcs
  obtain ⟨gs, hgs, rfl⟩ := map_eq_ok_iff.mp hcs
  obtain ⟨loaded, hloaded, rfl⟩ := map_eq_ok_iff.mp hgs
  have hds := isDataset_cells loaded
  have hsorted : IsListing fl args out rs (sortedPaths files) :=
    (List.perm_insertionSort _ files).trans hfiles
  -- every run of the directory is one that was recorded
  refine summarise_jitterWithin hnp hds (fun cell hcell run hrun => ?_) hmethod h
  obtain ⟨k, -, hne, hreads⟩ := loaded_spec hU hfl hruns hrs hfits hsorted hloaded
    ((hds.mem_runs_iff hcell run).mp hrun).1
  obtain ⟨r, hr, -, -, hrows⟩ := exists_outcome_of_recorded hne
  obtain ⟨session, lo, hi, hspread, hprompt, hdelay, hwhole, hresults⟩ := hsessions r hr
  rw [hreads.jitterUs, ← hrows, hresults]
  exact session.jitterValues_within hofInt hdiv he3 habs hturn hspread hprompt hdelay hwhole

/-! ### Three packets -/

/-- Three packets, a millisecond apart. -/
def promptArgs : TalkerArgs := ⟨3, 12, 1000000⟩

/-- The clock is read late after both sleeps, by 100 and by 300 ns. -/
def promptReadings : List ℤ := [0, 10000, 1000100, 1010000, 2000300]

/-- The wall clock of the sender. -/
def promptClock (k : ℕ) : ℕ := 5000 + 1000000 * k

/-- What the talker leaves behind. -/
def promptTalker : TalkerState × TalkerEnd :=
  talkerPaced promptArgs 0 5000 promptClock (fun _ => true) strOf promptReadings

/-- The rounds of the run. -/
def promptRounds : List Round :=
  [⟨0, 0, [], 0⟩, ⟨1000000, 10000, [(.sleep 790000, 1000100)], 1000100⟩,
    ⟨2000000, 1010000, [(.sleep 790000, 2000300)], 2000300⟩]

theorem rounds_promptTalker : promptTalker.1.rounds = promptRounds := by rfl

theorem wire_promptTalker : promptTalker.1.run.wire
    = [0, 1, 2].map fun k => (k, datagram 12 promptClock k) := by decide +kernel

/-- A packet of the run that is received at some time. -/
def received (k : Fin 3) (recvNs : ℕ) : Delivery promptTalker.1.run where
  number := k
  received := ⟨datagram 12 promptClock k, [], recvNs⟩
  sent := by
    rw [wire_promptTalker]
    exact List.mem_map.mpr ⟨k, by revert k; decide, rfl⟩
  wholeTos := fun _ hc => absurd hc List.not_mem_nil

/-- The listener, and what it hears of the run. -/
def promptSession (ds : List (Fin 3 × ℕ)) {st : ListenerState ℚ}
    (h : listen fractionFloats skewedArgs
      ((ds.map fun d => received d.1 d.2).map fun d => .datagram d.received) {} = some st) :
    Session fractionFloats promptArgs skewedArgs where
  startMono := 0
  startWall := 5000
  clock := promptClock
  sendOk := fun _ => true
  driftText := strOf
  readings := promptReadings
  talker := promptTalker.1
  ending := promptTalker.2
  paced := rfl
  deliveries := ds.map fun d => received d.1 d.2
  listener := st
  heard := h

theorem delay_promptSession {ds : List (Fin 3 × ℕ)} {st : ListenerState ℚ}
    (h : listen fractionFloats skewedArgs
      ((ds.map fun d => received d.1 d.2).map fun d => .datagram d.received) {} = some st)
    {lo hi : ℤ} (hds : ∀ d ∈ ds, ∀ r, promptRounds[(d.1 : ℕ)]? = some r →
      lo ≤ d.2 - r.now ∧ (d.2 : ℤ) - r.now ≤ hi) : (promptSession ds h).Delay lo hi := by
  intro d hd r hr
  obtain ⟨p, hp, rfl⟩ := List.mem_map.mp hd
  exact hds p hp r (rounds_promptTalker ▸ hr)

/-- The second packet is lost, and the last is repeated. -/
theorem jitter_of_gaps_lost :
    ∃ s : Session fractionFloats promptArgs skewedArgs,
      s.deliveries.map Delivery.number = [0, 2, 2] ∧
      ∀ (i : ℕ) (row row' : Row ℚ), s.listener.results[i]? = some row →
        s.listener.results[i + 1]? = some row' → ∃ z : ℤ, row'.jitterUs = (z : ℚ) / 10 ^ 3 ∧
          |z - (((row'.seq : ℤ) - row.seq) * 1000000 - 1000000)| ≤ 300 + (2500 - 2000) := by
  let ds : List (Fin 3 × ℕ) := [(0, 2000), (2, 2002800), (2, 2002300)]
  obtain ⟨st, hst⟩ : ∃ st, listen fractionFloats skewedArgs
      ((ds.map fun d => received d.1 d.2).map fun d => .datagram d.received) {} = some st :=
    ⟨_, rfl⟩
  have hlag : ∀ r ∈ promptTalker.1.rounds, r.driftNs ≤ 300 := by
    rw [rounds_promptTalker]
    decide
  have hdelay : (promptSession ds hst).Delay 2000 2500 := by
    refine delay_promptSession hst ?_
    decide
  exact ⟨promptSession ds hst, rfl, (jitter_of_gaps (promptSession ds hst) hlag hdelay).2.2⟩

/-- All of them, under way for 2 us and more. -/
def promptArrivals : List (Fin 3 × ℕ) := [(0, 2000), (1, 1002600), (2, 2002400)]

/-- The run as the listener records it. -/
def promptRun : Outcome ℚ :=
  ⟨"fifo".toList, 1, ((listen fractionFloats skewedArgs
    ((promptArrivals.map fun d => received d.1 d.2).map fun d => .datagram d.received) {}).getD
      {}).results⟩

theorem outcomes_promptRun : Outcomes 1 ["fifo".toList] true [promptRun] := by
  have hmatrix : [("fifo".toList, 1)] <+: matrix 1 ["fifo".toList] true := by decide
  refine ⟨hmatrix, fun r hr => ?_⟩
  rw [List.mem_singleton.mp hr]
  rfl

theorem recordedFits_promptRun : RecordedFits skewedArgs [promptRun] := by
  have hrows : ∀ row ∈ promptRun.rows,
      (row.seq < 2 ^ 32 ∧ row.sendNs < 2 ^ 64) ∧ row.recvNs < 2 ^ 63 ∧ row.pktSize ≤ 65535 := by
    decide +kernel
  refine forall_recorded fun r hr row hrow => ?_
  obtain rfl := List.mem_singleton.mp hr
  obtain ⟨⟨hseq, hsend⟩, hrecv, hsize⟩ := hrows row hrow
  exact ⟨hseq, hsend, hrecv, hsize, fun h => absurd h (by decide), fun h => absurd h (by decide)⟩

/-- The directory of this run. -/
def promptFiles : List CsvFile :=
  (outDir fractionFloats skewedArgs [promptRun]).map fun p => ⟨csvPath "out".toList p.1, p.2⟩

theorem jitter_tables_three :
    ∃ s, buildSummary (exactRational []) asciiTable fractionFloats {} "out".toList promptFiles
        = .ok s ∧
      s.JitterWithin (Set.Icc 0 (((300 + 500 + |1000000 - 1000000| : ℤ) : ℚ) / 10 ^ 3)) := by
  have hbuild : ∃ s, buildSummary (exactRational []) asciiTable fractionFloats {} "out".toList
      promptFiles = .ok s := by
    apply (exists_map_eq_ok_iff (f := fun _ => ())).mp
    exact ⟨(), by decide +kernel⟩
  obtain ⟨s, hs⟩ := hbuild
  obtain ⟨st, hst⟩ : ∃ st, listen fractionFloats skewedArgs
      ((promptArrivals.map fun d => received d.1 d.2).map fun d => .datagram d.received) {}
        = some st := ⟨_, rfl⟩
  have hrows : promptRun.rows = st.results := by
    rw [promptRun, hst]
    rfl
  -- the waits of the three rounds
  have hprompt : (promptSession promptArrivals hst).Prompt 10000 300 := by
    have hrounds : (promptSession promptArrivals hst).talker.rounds = promptRounds :=
      rounds_promptTalker
    constructor
    · intro r hr
      rw [hrounds] at hr
      cases hr
      decide
    · intro i r r' hr hr'
      rw [hrounds] at hr hr'
      rcases i with _ | _ | i
      · cases hr
        cases hr'
        exact ⟨by decide, by decide, trivial⟩
      · cases hr
        cases hr'
        exact ⟨by decide, by decide, trivial⟩
      · cases hr'
  have hdelay : (promptSession promptArrivals hst).Delay 2000 2500 := by
    refine delay_promptSession hst ?_
    decide
  have hwhole : (promptSession promptArrivals hst).Whole := by
    show List.IsChain (fun k k' => k' = k + 1) [0, 1, 2]
    decide
  refine ⟨s, hs, jitter_tables asciiTable_lawful fractionFloats_exact (fun _ => rfl)
    (fun _ _ => rfl) rfl (exactRational_exact []) (fun _ => rfl) (show 1 < 2 ^ 64 by decide)
    outcomes_promptRun recordedFits_promptRun
    (show (10000 : ℤ) ≤ promptArgs.intervalNs by decide) (fun r hr => ?_) (.refl _) rfl hs⟩
  obtain rfl := List.mem_singleton.mp hr
  exact ⟨promptSession promptArrivals hst, 2000, 2500, by decide, hprompt, hdelay, hwhole, hrows⟩

end TsPacket
