import Mathlib.Algebra.BigOperators.Ring.Finset
import Mathlib.Algebra.BigOperators.Ring.List
import Mathlib.Tactic.Linarith
import TsPacket.Analysis.Report
import TsPacket.Workload.Listener

/-!
# The loss on the console and in the report

The listener counts losses with a loop and prints them; the analysis counts them again from
the CSV, with array operations, and makes floats of the counts.  Both are compared with the
definition: a number is lost if it is at most the largest one received and never came, a row
is a duplicate if its number came before, and a row is late if a larger number came before.

## Main definitions

* `expectedMean` — the mean over the runs, weighted by what was expected of each.

## Main results

* `lateFrom_neg_one` — the loop that starts from `-1` counts the late rows.
* `listenerLoss_eq_lossCounts` — the listener prints what the analysis counts.
* `aggregateLoss_lossPct` — the percentage of a condition is that of its totals, and the mean
  of its runs, but for the roundings.
* `loss_implementations_agree` — **both are the definition**, and the totals of a condition
  add up in the same way.
-/

namespace TsPacket

open Binary64 RunningMax

variable {F : Type}

/-! ### One run -/

/-- Below no sequence number there is a maximum to start from, so the first row sets it. -/
theorem lateFrom_neg_one (seqs : List ℕ) :
    lateFrom (-1 : ℤ) (seqs.map Nat.cast) = late seqs := by
  rw [← late_natCast]
  cases seqs with
  | nil => rfl
  | cons s seqs =>
    rw [List.map_cons, late_cons, lateFrom, if_neg (by omega)]

theorem max?_eq_some {seqs : List ℕ} {top : ℕ} (hmem : top ∈ seqs) (hmax : ∀ k ∈ seqs, k ≤ top) :
    seqs.max? = some top := List.max?_eq_some_iff.mpr ⟨hmem, hmax⟩

/-- The listener prints what the analysis counts. -/
theorem listenerLoss_eq_lossCounts {seqs : List ℕ} (hne : seqs ≠ []) :
    let c := lossCounts (seqs.map (Nat.cast : ℕ → ℤ))
    listenerLoss seqs = some
      { expected := c.expected, unique := c.unique, loss := c.lost, dups := c.duplicates,
        reorders := c.reorders } := by
  obtain ⟨top, hmem, hmax⟩ := exists_top hne
  obtain ⟨hexp, -, huniq, hlost, hdup, hlate⟩ := lossCounts_natCast hmem hmax
  dsimp only
  rw [hexp, huniq, hlost, hdup, hlate, listenerLoss, max?_eq_some hmem hmax, Option.map_some,
    lateFrom_neg_one]

/-- Some number came, so not all that is expected is lost. -/
theorem lost_lt_expected {arr : List ℤ} (hne : arr ≠ []) (hnonneg : ∀ k ∈ arr, 0 ≤ k) :
    (lossCounts arr).lost + 1 ≤ (lossCounts arr).expected := by
  obtain ⟨seqs, rfl⟩ := exists_natCast hnonneg
  obtain ⟨top, hmem, hmax⟩ := exists_top (mt List.map_eq_nil_iff.mpr hne)
  obtain ⟨hexp, -, -, hlost, -, -⟩ := lossCounts_natCast hmem hmax
  have hsome : 0 < seqs.dedup.length := List.length_pos_of_mem (List.mem_dedup.mpr hmem)
  rw [hexp, hlost]
  omega

section

variable {arr : List ℤ} (hne : arr ≠ []) (hnonneg : ∀ k ∈ arr, 0 ≤ k)
include hne hnonneg

/-- The percentage of a column is that of its counts. -/
theorem lossPct_eq (hexpected : (lossCounts arr).expected < 2 ^ 53) :
    (lossSummary arr).lossPct
      = some (lossPercent (lossCounts arr).lost (lossCounts arr).expected) := by
  have hlt := lost_lt_expected hne hnonneg
  have hbounded := (bounded_of_nonneg hnonneg).lost
  have hne0 : (lossCounts arr).expected ≠ 0 := by omega
  have hlost : nearest ((lossCounts arr).lost : ℚ) = (lossCounts arr).lost :=
    nearest_intCast (by rw [abs_of_nonneg hbounded.1]; omega)
  have hexp : nearest ((lossCounts arr).expected : ℚ) = (lossCounts arr).expected :=
    nearest_intCast (by rw [abs_of_nonneg (hbounded.1.trans hbounded.2)]; omega)
  rw [lossSummary, LossCounts.summary, hlost, hexp]
  exact if_pos hne0

/-- **The percentage of a column** of numbers that the talker writes. -/
theorem lossPct_bounds (hwire : ∀ k ∈ arr, k < 2 ^ 32) :
    ∃ p, (lossSummary arr).lossPct = some p ∧ 0 ≤ p ∧ p < 100 := by
  have hlt := lost_lt_expected hne hnonneg
  have hbounded := (bounded_of_nonneg hnonneg).lost
  have hexpected : (lossCounts arr).expected ≤ 2 ^ 32 := by
    obtain ⟨seqs, rfl⟩ := exists_natCast hnonneg
    obtain ⟨top, hmem, hmax⟩ := exists_top (mt List.map_eq_nil_iff.mpr hne)
    have htop := hwire _ (List.mem_map_of_mem hmem)
    rw [(lossCounts_natCast hmem hmax).1]
    omega
  have hlost : (0 : ℚ) ≤ (lossCounts arr).lost := Int.cast_nonneg hbounded.1
  have hpos : (0 : ℚ) < (lossCounts arr).expected := Int.cast_pos.mpr (by omega)
  refine ⟨_, lossPct_eq hne hnonneg (by omega), lossPercent_nonneg hlost hpos,
    lossPercent_lt hlost hpos ?_ ?_⟩
  · have hle : ((lossCounts arr).lost : ℚ) + 1 ≤ (lossCounts arr).expected := by exact_mod_cast hlt
    linarith
  · exact_mod_cast hexpected

end

/-! ### The runs of a condition -/

/-- The mean of a value of the runs, weighted by what was expected of each. -/
def expectedMean (runs : List (Run F)) (value : Run F → ℚ) : ℚ :=
  (runs.map fun r => (lossSummary r.seq).expected * value r).sum
    / (runs.map fun r => (lossSummary r.seq).expected).sum

/-- The percentage of a run before it is rounded. -/
def Run.exactPct (r : Run F) : ℚ :=
  100 * (lossCounts r.seq).lost / (lossCounts r.seq).expected

/-- A weighted sum moves by no more than its terms do. -/
theorem abs_weighted_sub_le {ι : Type} {w f g : ι → ℚ} {ε : ℚ} :
    ∀ {xs : List ι}, (∀ x ∈ xs, 0 ≤ w x ∧ |f x - g x| ≤ ε) →
      |(xs.map fun x => w x * f x).sum - (xs.map fun x => w x * g x).sum|
        ≤ ε * (xs.map w).sum := by
  intro xs
  induction xs with
  | nil =>
    intro _
    simp
  | cons x xs ih =>
    rw [List.forall_mem_cons]
    rintro ⟨⟨hw, hx⟩, hxs⟩
    simp only [List.map_cons, List.sum_cons]
    -- one term more adds its weight times the bound
    have hterm : |w x * f x - w x * g x| ≤ ε * w x := by
      rw [← mul_sub, abs_mul, abs_of_nonneg hw, mul_comm ε]
      exact mul_le_mul_of_nonneg_left hx hw
    calc |w x * f x + (xs.map fun x => w x * f x).sum
            - (w x * g x + (xs.map fun x => w x * g x).sum)|
        = |(w x * f x - w x * g x) + ((xs.map fun x => w x * f x).sum
            - (xs.map fun x => w x * g x).sum)| := by
          congr 1
          ring
      _ ≤ ε * w x + ε * (xs.map w).sum := (abs_add_le _ _).trans (add_le_add hterm (ih hxs))
      _ = ε * (w x + (xs.map w).sum) := by ring

section

variable {runs : List (Run F)} (h : Countable runs)
include h

/-- No run expects more than all of them. -/
theorem Countable.expected_lt {r : Run F} (hr : r ∈ runs) :
    (lossCounts r.seq).expected < 2 ^ 53 := by
  have hnonneg : ∀ z ∈ runs.map fun r => (lossCounts r.seq).expected, 0 ≤ z := by
    refine List.forall_mem_map.mpr fun r hr => ?_
    have hlost := (bounded_of_nonneg (h.nonneg r hr)).lost
    exact hlost.1.trans hlost.2
  exact (List.single_le_sum hnonneg _ (List.mem_map_of_mem hr)).trans_lt h.expected

theorem Countable.expected_eq {r : Run F} (hr : r ∈ runs) :
    (lossSummary r.seq).expected = (lossCounts r.seq).expected := by
  have hlost := (bounded_of_nonneg (h.nonneg r hr)).lost
  have hlt := h.expected_lt hr
  exact nearest_intCast (by rw [abs_of_nonneg (hlost.1.trans hlost.2)]; omega)

theorem Countable.sum_expected :
    (runs.map fun r => (lossSummary r.seq).expected).sum = ((totalCounts runs).expected : ℚ) := by
  have hcongr : (runs.map fun r => (lossSummary r.seq).expected)
      = runs.map fun r => ((lossCounts r.seq).expected : ℚ) :=
    List.map_congr_left fun r hr => h.expected_eq hr
  rw [hcongr, totalCounts, Int.cast_list_sum, List.map_map]
  rfl

variable (hne : runs ≠ []) (hseq : ∀ r ∈ runs, r.seq ≠ [])
include hseq

/-- Before the roundings the mean of the percentages is the percentage of the totals. -/
theorem expectedMean_exactPct :
    expectedMean runs Run.exactPct
      = 100 * ((totalCounts runs).lost : ℚ) / (totalCounts runs).expected := by
  have hlost : (runs.map fun r => (lossSummary r.seq).expected * r.exactPct).sum
      = 100 * ((totalCounts runs).lost : ℚ) := by
    rw [totalCounts, Int.cast_list_sum, List.map_map, ← List.sum_map_mul_left]
    refine congrArg List.sum (List.map_congr_left fun r hr => ?_)
    have hlt := lost_lt_expected (hseq r hr) (h.nonneg r hr)
    have hbounded := (bounded_of_nonneg (h.nonneg r hr)).lost
    have hcast : ((lossCounts r.seq).expected : ℚ) ≠ 0 := Int.cast_ne_zero.mpr (by omega)
    rw [h.expected_eq hr, Run.exactPct, mul_div_cancel₀ _ hcast]
    rfl
  rw [expectedMean, hlost, h.sum_expected]

include hne

theorem Countable.expected_pos : 0 < (totalCounts runs).expected := by
  apply List.sum_pos
  · refine List.forall_mem_map.mpr fun r hr => ?_
    have hlt := lost_lt_expected (hseq r hr) (h.nonneg r hr)
    have hbounded := (bounded_of_nonneg (h.nonneg r hr)).lost
    omega
  · exact mt List.map_eq_nil_iff.mp hne

/-- The mean of the rounded percentages is near to it. -/
theorem abs_expectedMean_sub_le :
    |expectedMean runs (fun r => (lossSummary r.seq).lossPct.getD 0)
      - 100 * ((totalCounts runs).lost : ℚ) / (totalCounts runs).expected| ≤ 1 / 2 ^ 45 := by
  have hpos : (0 : ℚ) < (totalCounts runs).expected := Int.cast_pos.mpr (h.expected_pos hne hseq)
  have hruns : ∀ r ∈ runs, 0 ≤ (lossSummary r.seq).expected ∧
      |(lossSummary r.seq).lossPct.getD 0 - r.exactPct| ≤ 1 / 2 ^ 45 := by
    intro r hr
    have hlt := lost_lt_expected (hseq r hr) (h.nonneg r hr)
    have hbounded := (bounded_of_nonneg (h.nonneg r hr)).lost
    rw [h.expected_eq hr, lossPct_eq (hseq r hr) (h.nonneg r hr) (h.expected_lt hr),
      Option.getD_some]
    exact ⟨Int.cast_nonneg (hbounded.1.trans hbounded.2),
      abs_lossPercent_sub_le (Int.cast_nonneg hbounded.1) (Int.cast_pos.mpr (by omega))
        (Int.cast_le.mpr hbounded.2)⟩
  have hsum := abs_weighted_sub_le hruns
  rw [← expectedMean_exactPct h hseq, expectedMean, expectedMean, ← sub_div, abs_div,
    h.sum_expected, abs_of_pos hpos, div_le_iff₀ hpos]
  rwa [h.sum_expected] at hsum

/-- **The percentage of a condition** is that of its totals, and the mean of the percentages of
its runs, but for the roundings. -/
theorem aggregateLoss_lossPct :
    ∃ p, (aggregateLoss runs).lossPct = some p ∧
      |p - 100 * ((totalCounts runs).lost : ℚ) / (totalCounts runs).expected| ≤ 1 / 2 ^ 45 ∧
      |p - expectedMean runs fun r => (lossSummary r.seq).lossPct.getD 0| ≤ 1 / 2 ^ 44 := by
  have hexact := aggregateLoss_exact h
  have hpos := h.expected_pos hne hseq
  have hlost : 0 ≤ (totalCounts runs).lost ∧
      (totalCounts runs).lost ≤ (totalCounts runs).expected := by
    constructor
    · exact List.sum_nonneg (List.forall_mem_map.mpr fun r hr =>
        (bounded_of_nonneg (h.nonneg r hr)).lost.1)
    · exact List.sum_le_sum fun r hr => (bounded_of_nonneg (h.nonneg r hr)).lost.2
  -- the sums are exact, so the percentage is the one of the totals
  have hpct : (aggregateLoss runs).lossPct
      = some (lossPercent (totalCounts runs).lost (totalCounts runs).expected) := by
    rw [← hexact.lost, ← hexact.expected]
    apply if_pos
    rw [show Binary64.sum _ = _ from hexact.expected]
    exact Int.cast_ne_zero.mpr hpos.ne'
  have hnear := abs_lossPercent_sub_le (Int.cast_nonneg hlost.1 : (0 : ℚ) ≤ _)
    (Int.cast_pos.mpr hpos) (Int.cast_le.mpr hlost.2)
  refine ⟨_, hpct, hnear, ?_⟩
  -- the mean of the rounded percentages is no further off
  have hmean := abs_expectedMean_sub_le h hne hseq
  rw [abs_sub_comm] at hmean
  calc _ ≤ 1 / 2 ^ 45 + 1 / 2 ^ 45 := (abs_sub_le _ _ _).trans (add_le_add hnear hmean)
    _ = 1 / 2 ^ 44 := by norm_num

end

/-! ### Agreement -/

/-- The counts of a column are what the definitions say. -/
structure LossCounts.Defined (c : LossCounts) (seqs : List ℕ) (top : ℕ) : Prop where
  expected : c.expected = top + 1
  received : c.received = seqs.length
  unique : c.unique = seqs.toFinset.card
  lost : c.lost = (Finset.range (top + 1) \ seqs.toFinset).card
  duplicates : c.duplicates = (seqs.length : ℤ) - seqs.toFinset.card
  reorders : c.reorders = ((List.range seqs.length).countP fun i => IsLate seqs i : ℕ)
  sums : c.received = c.unique + c.duplicates ∧ c.expected = c.unique + c.lost

theorem defined_lossCounts {seqs : List ℕ} {top : ℕ} (hmem : top ∈ seqs)
    (hmax : ∀ k ∈ seqs, k ≤ top) :
    (lossCounts (seqs.map (Nat.cast : ℕ → ℤ))).Defined seqs top := by
  obtain ⟨hexp, hrecv, huniq, hlost, hdup, hlate⟩ := lossCounts_natCast hmem hmax
  have hmissing := lost_eq_card_missing hmax
  have hdistinct := length_dedup_eq_card seqs
  exact
    { expected := hexp
      received := hrecv
      unique := by rw [huniq, hdistinct]
      lost := by
        rw [hlost]
        omega
      duplicates := by rw [hdup, hdistinct]
      reorders := by rw [hlate, late_eq_countP]
      sums := lossCounts_sums _ }

/-- A run that received only these numbers. -/
def runOf (seq : List ℤ) : Run ℚ :=
  { name := [], condition := [], runIndex := none, seq := seq, sendNs := [], recvNs := [],
    latencyMs := [], jitterUs := [], pktSize := [], tos := none, path := none }

/-- **Two loss implementations agree with each other and with the definition.**  For all
sequence numbers in the order they came, the listener and the analysis have the same counts:
lost is what never came up to the largest that did, duplicates are the rows beyond the
distinct numbers, and reorders the rows behind a larger number.  Of numbers that the talker
writes the percentage is below 100, and of fewer than `2 ^ 53` rows the floats are the counts.
Of every list of runs with fewer than `2 ^ 53` packets the totals add up as those of one run,
and the percentage is the mean over the runs weighted by what was expected, but for the
roundings; without them it is that mean. -/
theorem loss_implementations_agree :
    (∀ seqs : List ℕ, seqs ≠ [] →
      let c := lossCounts (seqs.map (Nat.cast : ℕ → ℤ))
      let s := lossSummary (seqs.map (Nat.cast : ℕ → ℤ))
      listenerLoss seqs = some
        { expected := c.expected, unique := c.unique, loss := c.lost, dups := c.duplicates,
          reorders := c.reorders } ∧
      (∃ top ∈ seqs, (∀ k ∈ seqs, k ≤ top) ∧ c.Defined seqs top) ∧
      ((∀ k ∈ seqs, k < 2 ^ 32) →
        (∃ p, s.lossPct = some p ∧ 0 ≤ p ∧ p < 100) ∧
        (seqs.length < 2 ^ 53 → s.Exact c ∧ s.received = s.unique + s.duplicates ∧
          s.expected = s.unique + s.lost))) ∧
    ∀ runs : List (Run F), Countable runs →
      let t := aggregateLoss runs
      t.Exact (totalCounts runs) ∧
      (t.received = t.unique + t.duplicates ∧ t.expected = t.unique + t.lost) ∧
      (runs ≠ [] → (∀ r ∈ runs, r.seq ≠ []) →
        (∀ r ∈ runs, ∃ p, (lossSummary r.seq).lossPct = some p) ∧
        (∃ p, t.lossPct = some p ∧
          |p - 100 * ((totalCounts runs).lost : ℚ) / (totalCounts runs).expected| ≤ 1 / 2 ^ 45 ∧
          |p - expectedMean runs fun r => (lossSummary r.seq).lossPct.getD 0| ≤ 1 / 2 ^ 44) ∧
        expectedMean runs Run.exactPct
          = 100 * ((totalCounts runs).lost : ℚ) / (totalCounts runs).expected) := by
  refine ⟨fun seqs hne => ⟨listenerLoss_eq_lossCounts hne, ?_, fun hwire => ⟨?_, fun hrows => ?_⟩⟩,
    fun runs h => ⟨aggregateLoss_exact h, aggregateLoss_sums h, fun hne hseq =>
      ⟨fun r hr => ?_, aggregateLoss_lossPct h hne hseq, expectedMean_exactPct h hseq⟩⟩⟩
  · obtain ⟨top, hmem, hmax⟩ := exists_top hne
    exact ⟨top, hmem, hmax, defined_lossCounts hmem hmax⟩
  · refine lossPct_bounds (mt List.map_eq_nil_iff.mp hne) ?_ ?_
    · exact List.forall_mem_map.mpr fun k _ => Int.natCast_nonneg k
    · exact List.forall_mem_map.mpr fun k hk => by exact_mod_cast hwire k hk
  · obtain ⟨top, hmem, hmax⟩ := exists_top hne
    have htop := hwire top hmem
    -- below 2^53 every count is its own float
    have hexact : (lossSummary (seqs.map (Nat.cast : ℕ → ℤ))).Exact
        (lossCounts (seqs.map (Nat.cast : ℕ → ℤ))) := by
      apply (bounded_lossCounts seqs).exact
      · rw [(lossCounts_natCast hmem hmax).1]
        omega
      · rw [lossCounts_received, List.length_map]
        exact_mod_cast hrows
    exact ⟨hexact, hexact.sums (lossCounts_sums _)⟩
  · exact ⟨_, lossPct_eq (hseq r hr) (h.nonneg r hr) (h.expected_lt hr)⟩

/-- Of seven numbers one came twice and two came late; and of two runs one lost a packet. -/
theorem loss_implementations_agree_reordered :
    (listenerLoss [0, 3, 1, 3, 2, 6] = some
        { expected := 7, unique := 5, loss := 2, dups := 1, reorders := 2 } ∧
      (∃ p, (lossSummary [0, 3, 1, 3, 2, 6]).lossPct = some p ∧ 0 ≤ p ∧ p < 100) ∧
      (lossSummary [0, 3, 1, 3, 2, 6]).Exact (lossCounts [0, 3, 1, 3, 2, 6])) ∧
    ∃ p, (aggregateLoss [runOf [2, 1], runOf [0, 1]]).lossPct = some p ∧
      |p - 100 * 1 / 5| ≤ 1 / 2 ^ 45 := by
  obtain ⟨hagree, -, hwire⟩ :=
    (loss_implementations_agree (F := ℚ)).1 [0, 3, 1, 3, 2, 6] (by decide)
  obtain ⟨hpct, hexact⟩ := hwire (by decide)
  obtain ⟨-, -, hruns⟩ := loss_implementations_agree.2 [runOf [2, 1], runOf [0, 1]]
    ⟨by decide, by decide, by decide⟩
  obtain ⟨-, ⟨p, hp, hnear, -⟩, -⟩ := hruns (by decide) (by decide)
  exact ⟨⟨hagree, hpct, (hexact (by decide)).1⟩, p, hp, hnear⟩

/-- A run that received one number `n + 1` times. -/
theorem lossCounts_replicate (n : ℕ) :
    lossCounts (List.replicate (n + 1) 0)
      = { expected := 1, received := n + 1, unique := 1, lost := 0, duplicates := n,
          reorders := 0 } := by
  have hcast : List.replicate (n + 1) (0 : ℤ) = (List.replicate (n + 1) 0).map Nat.cast := by
    rw [List.map_replicate]
    rfl
  have hmem : 0 ∈ List.replicate (n + 1) 0 := List.mem_replicate.mpr ⟨n.succ_ne_zero, rfl⟩
  have hmax : ∀ k ∈ List.replicate (n + 1) 0, k ≤ 0 := fun k hk =>
    (List.eq_of_mem_replicate hk).le
  have hdedup : (List.replicate (n + 1) 0).dedup = [0] := List.replicate_dedup n.succ_ne_zero
  have hlate : late (List.replicate (n + 1) 0) = 0 :=
    late_of_pairwise (List.pairwise_replicate.mpr (.inr le_rfl))
  obtain ⟨hexp, hrecv, huniq, hlost, hdup, hreord⟩ := lossCounts_natCast hmem hmax
  rw [← hcast] at hexp hrecv huniq hlost hdup hreord
  rw [hdedup] at huniq hlost hdup
  rw [List.length_replicate] at hrecv hdup
  rw [hlate] at hreord
  generalize lossCounts (List.replicate (n + 1) 0) = c at *
  obtain ⟨e, r, u, l, d, o⟩ := c
  simp_all

/-- **The roundings show.**  Of a run without the first of eleven packets and a run of two the
percentage is not the mean, whether or not this is rounded; and of one packet that came
`2 ^ 53 + 1` times the received are not the unique and the repeated. -/
theorem aggregateLoss_rounded :
    let runs := [runOf [1, 2, 3, 4, 5, 6, 7, 8, 9, 10], runOf [0, 1]]
    let mean := expectedMean runs fun r => (lossSummary r.seq).lossPct.getD 0
    let many := aggregateLoss [runOf (List.replicate (2 ^ 53 + 1) 0)]
    ((aggregateLoss runs).lossPct = some (8660768514174031 / 2 ^ 50) ∧
        nearest mean = 8660768514174032 / 2 ^ 50 ∧ (aggregateLoss runs).lossPct ≠ some mean) ∧
      many.received ≠ many.unique + many.duplicates := by
  refine ⟨by decide +kernel, ?_⟩
  have hcounts := lossCounts_replicate (2 ^ 53)
  simp only [aggregateLoss, List.map_cons, List.map_nil, Binary64.sum, List.foldl_cons,
    List.foldl_nil, runOf, lossSummary, hcounts, LossCounts.summary]
  decide +kernel

end TsPacket
