import Mathlib.Data.Finset.Card
import Mathlib.Data.List.Dedup
import Mathlib.Tactic.NormNum
import Mathlib.Tactic.Positivity
import TsPacket.Lib.Binary64
import TsPacket.Lib.Histogram
import TsPacket.Lib.Numpy
import TsPacket.Lib.RunningMax

/-!
# Metrics of a run

`analysis/tsn_analysis/metrics.py`.  `loss_summary` counts in integers and makes floats of
them in the end, so the counts and the summary stand apart here.

## Main definitions

* `jitterValues` — the sizes of the jitter of a run, without its first row.
* `distributionSummary` — percentiles, extremes, mean and standard deviation of a sample.
* `lossCounts` — expected, received, unique, lost, duplicates and reorders of a column
  of sequence numbers.
* `lossSummary` — the floats of these counts, and the percentage of loss.
* `dscpDistribution` — the histograms of a column of TOS bytes.
* `CountedUnder` — a TOS byte adds one to the counts of a DSCP and an ECN value.

## Main results

* `distributionSummary_total` — every sample has a summary, with `nan` for what is undefined.
* `lossCounts_natCast` — the counts of numbers that are not negative.
* `LossCounts.Bounded.exact` — **fewer than `2 ^ 53` packets are counted exactly.**
* `abs_lossPercent_sub_le` — the percentage is the quotient but for the roundings.
* `lost_eq_card_missing` — **what is lost is the numbers below the largest that never came.**
* `countedUnder_iff` — a TOS byte is counted under its upper six and its lower two bits.
-/

namespace TsPacket

open Binary64 Histogram Raise RunningMax

/-! ### Distributions -/

section

variable {F : Type} (np : Numpy.Ops F)

/-- `LATENCY_PERCENTILES`. -/
def latencyPercentiles : List ℚ := [50, 90, 99, 999 / 10]

/-- `abs(jitter_us[1:])`. -/
def jitterValues (jitterUs : List F) : List F := (jitterUs.drop 1).map np.abs

/-- `percentile` of a list of levels. -/
def percentiles (values : List F) (qs : List ℚ) (method : Numpy.Method) :
    Except Numpy.Error (List F) :=
  if values = [] then .ok (qs.map fun _ => np.nan)
  else qs.mapM fun q => Numpy.percentile np method q values

/-- The dictionary `distribution_summary` returns, its percentiles under their levels. -/
structure DistributionSummary (F : Type) where
  n : ℕ
  min : F
  percentiles : List (ℚ × F)
  max : F
  mean : F
  std : F

/-- The summary of an empty sample. -/
def DistributionSummary.undefined (levels : List ℚ) : DistributionSummary F :=
  { n := 0
    min := np.nan
    percentiles := levels.map fun q => (q, np.nan)
    max := np.nan
    mean := np.nan
    std := np.nan }

/-- What is undefined of a small sample is `nan`. -/
structure DistributionSummary.UndefinedNan (levels : List ℚ) (s : DistributionSummary F) :
    Prop where
  empty : s.n = 0 → s = .undefined np levels
  std : s.n ≤ 1 → s.std = np.nan

/-- `distribution_summary`. -/
def distributionSummary (values : List F) (levels : List ℚ) (method : Numpy.Method) :
    Except Numpy.Error (DistributionSummary F) :=
  if values = [] then .ok (.undefined np levels)
  else do
    let pcts ← percentiles np values levels method
    let min ← Numpy.min np values
    let max ← Numpy.max np values
    let mean ← Numpy.mean np values
    return { n := values.length, min, percentiles := levels.zip pcts, max, mean,
             std := if values.length > 1 then np.std values else np.nan }

/-- `latency_summary`. -/
def latencySummary (latencyMs : List F) (method : Numpy.Method) :
    Except Numpy.Error (DistributionSummary F) :=
  distributionSummary np latencyMs latencyPercentiles method

variable {np}

theorem latencyPercentiles_range : ∀ q ∈ latencyPercentiles, 0 ≤ q ∧ q ≤ 100 := by
  decide +kernel

/-- The first row has no jitter, so a run of one row has none at all. -/
theorem length_jitterValues (jitterUs : List F) :
    (jitterValues np jitterUs).length = jitterUs.length - 1 := by
  rw [jitterValues, List.length_map, List.length_drop]

variable (np)

theorem exists_percentiles (values : List F) {qs : List ℚ} (hqs : ∀ q ∈ qs, 0 ≤ q ∧ q ≤ 100)
    (method : Numpy.Method) : ∃ pcts, percentiles np values qs method = .ok pcts := by
  rw [percentiles]
  split
  case isTrue => exact ⟨_, rfl⟩
  case isFalse hne =>
    exact exists_mapM_eq_ok_iff.mpr fun q hq =>
      Numpy.exists_percentile_eq_ok_iff.mpr ⟨hqs q hq, hne⟩

/-- **Every sample has a summary**; that of an empty one is `nan` throughout, and one value
has no standard deviation. -/
theorem distributionSummary_total (values : List F) {levels : List ℚ}
    (hlevels : ∀ q ∈ levels, 0 ≤ q ∧ q ≤ 100) (method : Numpy.Method) :
    ∃ s, distributionSummary np values levels method = .ok s ∧ s.n = values.length ∧
      s.UndefinedNan np levels := by
  by_cases hne : values = []
  · subst hne
    exact ⟨_, rfl, rfl, fun _ => rfl, fun _ => rfl⟩
  · obtain ⟨pcts, hpcts⟩ := exists_percentiles np values hlevels method
    -- a sample with a value has every figure but the deviation of one
    have hs : distributionSummary np values levels method = .ok
        { n := values.length, min := np.min values, percentiles := levels.zip pcts,
          max := np.max values, mean := np.mean values,
          std := if values.length > 1 then np.std values else np.nan } := by
      rw [distributionSummary, if_neg hne, hpcts, Numpy.min, Numpy.max, Numpy.mean,
        Numpy.nonempty_of_ne hne, Numpy.nonempty_of_ne hne, Numpy.nonempty_of_ne hne]
      rfl
    exact ⟨_, hs, rfl, fun h => absurd (List.length_eq_zero_iff.mp h) hne,
      fun h => if_neg (Nat.not_lt.mpr h)⟩

end

/-! ### Loss -/

/-- The integers that `loss_summary` counts. -/
structure LossCounts where
  expected : ℤ
  received : ℤ
  unique : ℤ
  lost : ℤ
  duplicates : ℤ
  reorders : ℤ
  deriving DecidableEq

/-- The counts of a column; those of an empty one are zero. -/
def lossCounts (arr : List ℤ) : LossCounts :=
  match arr.max? with
  -- `arr.size == 0`
  | none =>
    { expected := 0, received := 0, unique := 0, lost := 0, duplicates := 0, reorders := 0 }
  | some top =>
    let expected := top + 1
    let unique : ℤ := arr.dedup.length
    let received : ℤ := arr.length
    { expected := expected
      received := received
      unique := unique
      lost := expected - unique
      duplicates := received - unique
      reorders := late arr }

/-- The dictionary `loss_summary` returns, all of it floats; `lossPct` is `none` for `nan`. -/
structure LossSummary where
  expected : ℚ
  received : ℚ
  unique : ℚ
  lost : ℚ
  lossPct : Option ℚ
  duplicates : ℚ
  reorders : ℚ
  deriving DecidableEq

/-- `100.0 * lost / expected`, which is rounded twice. -/
def lossPercent (lost expected : ℚ) : ℚ := nearest (nearest (100 * lost) / expected)

/-- `float(...)` of every count, and the percentage. -/
def LossCounts.summary (c : LossCounts) : LossSummary where
  expected := nearest c.expected
  received := nearest c.received
  unique := nearest c.unique
  lost := nearest c.lost
  lossPct :=
    if c.expected ≠ 0 then some (lossPercent (nearest c.lost) (nearest c.expected)) else none
  duplicates := nearest c.duplicates
  reorders := nearest c.reorders

/-- `loss_summary`. -/
def lossSummary (arr : List ℤ) : LossSummary := (lossCounts arr).summary

/-- The floats of a summary are the counts. -/
structure LossSummary.Exact (s : LossSummary) (c : LossCounts) : Prop where
  expected : s.expected = c.expected
  received : s.received = c.received
  unique : s.unique = c.unique
  lost : s.lost = c.lost
  duplicates : s.duplicates = c.duplicates
  reorders : s.reorders = c.reorders

/-- Nothing is counted twice: what is unique or lost was expected, what is repeated or late
was received. -/
structure LossCounts.Bounded (c : LossCounts) : Prop where
  unique : 0 ≤ c.unique ∧ c.unique ≤ c.expected
  lost : 0 ≤ c.lost ∧ c.lost ≤ c.expected
  duplicates : 0 ≤ c.duplicates ∧ c.duplicates ≤ c.received
  reorders : 0 ≤ c.reorders ∧ c.reorders ≤ c.received

/-- **The counts of fewer than `2 ^ 53` packets are kept.** -/
theorem LossCounts.Bounded.exact {c : LossCounts} (hc : c.Bounded) (hexpected : c.expected < 2 ^ 53)
    (hreceived : c.received < 2 ^ 53) : c.summary.Exact c := by
  have hkept : ∀ {z bound : ℤ}, 0 ≤ z ∧ z ≤ bound → bound < 2 ^ 53 → nearest z = z := by
    intro z bound hz hbound
    exact nearest_intCast (by rw [abs_of_nonneg hz.1]; omega)
  exact
    { expected := hkept ⟨hc.lost.1.trans hc.lost.2, le_rfl⟩ hexpected
      received := hkept ⟨hc.reorders.1.trans hc.reorders.2, le_rfl⟩ hreceived
      unique := hkept hc.unique hexpected
      lost := hkept hc.lost hexpected
      duplicates := hkept hc.duplicates hreceived
      reorders := hkept hc.reorders hreceived }

/-- The counts add up: what is received is unique or repeated, what is expected came or is
lost. -/
theorem lossCounts_sums (arr : List ℤ) :
    (lossCounts arr).received = (lossCounts arr).unique + (lossCounts arr).duplicates ∧
      (lossCounts arr).expected = (lossCounts arr).unique + (lossCounts arr).lost := by
  unfold lossCounts
  cases arr.max? with
  | none => exact ⟨rfl, rfl⟩
  | some top =>
    dsimp only
    constructor <;> omega

/-- So do the floats, if they are the counts. -/
theorem LossSummary.Exact.sums {s : LossSummary} {c : LossCounts} (h : s.Exact c)
    (hc : c.received = c.unique + c.duplicates ∧ c.expected = c.unique + c.lost) :
    s.received = s.unique + s.duplicates ∧ s.expected = s.unique + s.lost := by
  rw [h.received, h.unique, h.duplicates, h.expected, h.lost, hc.1, hc.2, Int.cast_add,
    Int.cast_add]
  exact ⟨rfl, rfl⟩

theorem lossCounts_received (arr : List ℤ) : (lossCounts arr).received = arr.length := by
  unfold lossCounts
  cases hmax : arr.max? with
  | none =>
    rw [List.max?_eq_none_iff.mp hmax]
    rfl
  | some top => rfl

/-! ### The percentage -/

section

variable {lost expected : ℚ} (hlost : 0 ≤ lost) (hexpected : 0 < expected)
include hlost hexpected

/-- The two roundings, one after the other. -/
theorem lossPercent_bounds :
    100 * lost / expected * (1 - 1 / 2 ^ 53) ^ 2 ≤ lossPercent lost expected ∧
      lossPercent lost expected ≤ 100 * lost / expected * (1 + 1 / 2 ^ 53) ^ 2 := by
  have hnum : 0 ≤ 100 * lost := mul_nonneg (by norm_num) hlost
  -- one rounding for the product, one for the quotient
  obtain ⟨hlow, hhigh⟩ := nearest_bounds hnum
  have hquot : 0 ≤ nearest (100 * lost) / expected :=
    div_nonneg (nearest_nonneg hnum) hexpected.le
  obtain ⟨hlow', hhigh'⟩ := nearest_bounds hquot
  have hlow'' := div_le_div_of_nonneg_right hlow hexpected.le
  have hhigh'' := div_le_div_of_nonneg_right hhigh hexpected.le
  have hsub : (100 * lost - 100 * lost / 2 ^ 53) / expected
      = 100 * lost / expected * (1 - 1 / 2 ^ 53) := by ring
  have hadd : (100 * lost + 100 * lost / 2 ^ 53) / expected
      = 100 * lost / expected * (1 + 1 / 2 ^ 53) := by ring
  rw [hsub] at hlow''
  rw [hadd] at hhigh''
  rw [lossPercent]
  constructor <;> linarith

theorem lossPercent_nonneg : 0 ≤ lossPercent lost expected :=
  (mul_nonneg (div_nonneg (mul_nonneg (by norm_num) hlost) hexpected.le) (sq_nonneg _)).trans
    (lossPercent_bounds hlost hexpected).1

/-- **The percentage is within `2 ^ -45` of the quotient.** -/
theorem abs_lossPercent_sub_le (hle : lost ≤ expected) :
    |lossPercent lost expected - 100 * lost / expected| ≤ 1 / 2 ^ 45 := by
  obtain ⟨hlow, hhigh⟩ := lossPercent_bounds hlost hexpected
  have hquot : 0 ≤ 100 * lost / expected :=
    div_nonneg (mul_nonneg (by norm_num) hlost) hexpected.le
  have hhundred : 100 * lost / expected ≤ 100 := by
    rw [div_le_iff₀ hexpected]
    linarith
  rw [abs_le]
  constructor <;> nlinarith

/-- If not all of at most `2 ^ 32` packets are lost, the rounded percentage is below 100. -/
theorem lossPercent_lt (hlt : lost ≤ expected - 1) (hmax : expected ≤ 2 ^ 32) :
    lossPercent lost expected < 100 := by
  have hhigh := (lossPercent_bounds hlost hexpected).2
  have hquot : 100 * lost / expected ≤ 100 * (1 - 1 / 2 ^ 32) := by
    rw [div_le_iff₀ hexpected]
    have hone : expected / 2 ^ 32 ≤ 1 := (div_le_one (by norm_num)).mpr hmax
    linarith
  calc lossPercent lost expected ≤ 100 * lost / expected * (1 + 1 / 2 ^ 53) ^ 2 := hhigh
    _ ≤ 100 * (1 - 1 / 2 ^ 32) * (1 + 1 / 2 ^ 53) ^ 2 :=
        mul_le_mul_of_nonneg_right hquot (by positivity)
    _ < 100 := by norm_num

end

/-! ### Sequence numbers -/

/-- Casting keeps what is late. -/
theorem late_natCast (seqs : List ℕ) : late (seqs.map (Nat.cast : ℕ → ℤ)) = late seqs := by
  rw [late_eq_countP, late_eq_countP, List.length_map]
  refine List.countP_congr fun i _ => ?_
  rw [decide_eq_true_iff, decide_eq_true_iff, IsLate, IsLate]
  simp only [List.getElem?_map, Option.mem_def, Option.map_eq_some_iff]
  constructor
  · rintro ⟨j, hj, _, ⟨x, hx, rfl⟩, _, ⟨y, hy, rfl⟩, hlt⟩
    exact ⟨j, hj, x, hx, y, hy, Int.ofNat_lt.mp hlt⟩
  · rintro ⟨j, hj, x, hx, y, hy, hlt⟩
    exact ⟨j, hj, x, ⟨x, hx, rfl⟩, y, ⟨y, hy, rfl⟩, Int.ofNat_lt.mpr hlt⟩

/-- The counts of a column whose largest number is `top`. -/
theorem lossCounts_natCast {seqs : List ℕ} {top : ℕ} (hmem : top ∈ seqs)
    (hmax : ∀ k ∈ seqs, k ≤ top) :
    (lossCounts (seqs.map (Nat.cast : ℕ → ℤ))).expected = top + 1 ∧
    (lossCounts (seqs.map (Nat.cast : ℕ → ℤ))).received = seqs.length ∧
    (lossCounts (seqs.map (Nat.cast : ℕ → ℤ))).unique = seqs.dedup.length ∧
    (lossCounts (seqs.map (Nat.cast : ℕ → ℤ))).lost = top + 1 - seqs.dedup.length ∧
    (lossCounts (seqs.map (Nat.cast : ℕ → ℤ))).duplicates
      = seqs.length - seqs.dedup.length ∧
    (lossCounts (seqs.map (Nat.cast : ℕ → ℤ))).reorders = late seqs := by
  have htop : (seqs.map (Nat.cast : ℕ → ℤ)).max? = some (top : ℤ) := by
    rw [List.max?_eq_some_iff]
    refine ⟨List.mem_map_of_mem hmem, fun b hb => ?_⟩
    obtain ⟨k, hk, rfl⟩ := List.mem_map.mp hb
    exact Int.ofNat_le.mpr (hmax k hk)
  -- no two numbers meet when they are read as integers
  have hdedup : (seqs.map (Nat.cast : ℕ → ℤ)).dedup.length = seqs.dedup.length := by
    rw [List.dedup_map_of_injective Nat.cast_injective, List.length_map]
  rw [lossCounts, htop]
  dsimp only
  rw [hdedup, List.length_map, late_natCast]
  exact ⟨rfl, rfl, rfl, rfl, rfl, rfl⟩

/-- A column that is not empty has a largest number. -/
theorem exists_top {seqs : List ℕ} (hne : seqs ≠ []) :
    ∃ top ∈ seqs, ∀ k ∈ seqs, k ≤ top := by
  obtain ⟨top, htop⟩ := Option.isSome_iff_exists.mp (List.isSome_max?_of_ne_nil hne)
  exact ⟨top, List.max?_eq_some_iff.mp htop⟩

theorem length_dedup_eq_card (seqs : List ℕ) : seqs.dedup.length = seqs.toFinset.card :=
  (List.card_toFinset seqs).symm

/-- **What is lost is the numbers up to the largest that never came.** -/
theorem lost_eq_card_missing {seqs : List ℕ} {top : ℕ} (hmax : ∀ k ∈ seqs, k ≤ top) :
    seqs.dedup.length + (Finset.range (top + 1) \ seqs.toFinset).card = top + 1 := by
  have hsub : seqs.toFinset ⊆ Finset.range (top + 1) := fun k hk =>
    Finset.mem_range.mpr (Nat.lt_succ_of_le (hmax k (List.mem_toFinset.mp hk)))
  rw [length_dedup_eq_card, Nat.add_comm, Finset.card_sdiff_add_card_eq_card hsub,
    Finset.card_range]

theorem late_le_length (seqs : List ℕ) : late seqs ≤ seqs.length := by
  rw [late_eq_countP]
  exact List.countP_le_length.trans List.length_range.le

/-- The counts of numbers that are not negative. -/
theorem bounded_lossCounts (seqs : List ℕ) :
    (lossCounts (seqs.map (Nat.cast : ℕ → ℤ))).Bounded := by
  by_cases hne : seqs = []
  · subst hne
    exact ⟨⟨le_rfl, le_rfl⟩, ⟨le_rfl, le_rfl⟩, ⟨le_rfl, le_rfl⟩, ⟨le_rfl, le_rfl⟩⟩
  · obtain ⟨top, hmem, hmax⟩ := exists_top hne
    obtain ⟨hexp, hrecv, huniq, hlost, hdup, hlate⟩ := lossCounts_natCast hmem hmax
    -- what is not seen up to the largest number is what is lost
    have hmissing := lost_eq_card_missing hmax
    have hle := seqs.dedup_sublist.length_le
    have hlatele := late_le_length seqs
    constructor
    · rw [huniq, hexp]
      omega
    · rw [hlost, hexp]
      omega
    · rw [hdup, hrecv]
      omega
    · rw [hlate, hrecv]
      omega

/-! ### DSCP -/

/-- The dictionary `dscp_distribution` returns. -/
structure DscpDistribution where
  dscp : List (ℤ × ℕ)
  ecn : List (ℤ × ℕ)
  tos : List (ℤ × ℕ)
  missing : ℕ
  dominantDscp : Option ℤ
  deriving DecidableEq

/-- The histograms of a TOS column, in which `-1` stands for a missing value; `none` if the
run has no such column. -/
def dscpDistribution (tos : Option (List ℤ)) : Option DscpDistribution :=
  tos.map fun arr =>
    let valid := arr.filter fun v : ℤ => 0 ≤ v
    let dscp := uniqueCounts (valid.map fun v : ℤ => v >>> (2 : ℕ))
    -- of the values that are there the lowest two bits are the remainder by four
    let ecn := uniqueCounts (valid.map fun v : ℤ => v % 4)
    { dscp := dscp
      ecn := ecn
      tos := uniqueCounts valid
      missing := arr.length - valid.length
      dominantDscp := if valid ≠ [] then (dscp.argmax Prod.snd).map Prod.fst else none }

/-- The row with the value `t` adds one to the count of this DSCP and of this ECN value,
and to no other, whatever rows come before and after it. -/
def CountedUnder (t dscp ecn : ℤ) : Prop :=
  ∀ pre post : List ℤ, ∃ d d', dscpDistribution (some (pre ++ post)) = some d ∧
    dscpDistribution (some (pre ++ t :: post)) = some d' ∧
    (∀ k, get d'.dscp k = get d.dscp k + if k = dscp then 1 else 0) ∧
    ∀ k, get d'.ecn k = get d.ecn k + if k = ecn then 1 else 0

/-- One more element in the middle of a sample. -/
theorem count_map_insert (f : ℤ → ℤ) (pre post : List ℤ) {t : ℤ} (ht : 0 ≤ t) (k : ℤ) :
    (((pre ++ t :: post).filter fun v : ℤ => 0 ≤ v).map f).count k
      = (((pre ++ post).filter fun v : ℤ => 0 ≤ v).map f).count k + if k = f t then 1 else 0 := by
  rw [List.filter_append, List.filter_append, List.filter_cons, if_pos (decide_eq_true ht),
    List.map_append, List.map_append, List.map_cons, List.count_append, List.count_append,
    List.count_cons, ← Nat.add_assoc]
  by_cases hk : k = f t
  · rw [if_pos hk, if_pos (beq_iff_eq.mpr hk.symm)]
  · rw [if_neg hk, if_neg fun h => hk (beq_iff_eq.mp h).symm]

/-- **A TOS byte is counted under its own DSCP and ECN**, and under no other. -/
theorem countedUnder_iff {t : ℤ} (ht : 0 ≤ t) (dscp ecn : ℤ) :
    CountedUnder t dscp ecn ↔ t >>> (2 : ℕ) = dscp ∧ t % 4 = ecn := by
  constructor
  · intro h
    -- on its own it makes a histogram with one entry
    obtain ⟨d, d', hd, hd', hdscp, hecn⟩ := h [] []
    cases hd
    cases hd'
    have hdscp' := hdscp (t >>> (2 : ℕ))
    have hecn' := hecn (t % 4)
    rw [get_uniqueCounts, get_uniqueCounts, count_map_insert (fun v : ℤ => v >>> (2 : ℕ)) _ _ ht,
      if_pos rfl] at hdscp'
    rw [get_uniqueCounts, get_uniqueCounts, count_map_insert (fun v : ℤ => v % 4) _ _ ht,
      if_pos rfl] at hecn'
    constructor
    · by_contra hne
      rw [if_neg hne] at hdscp'
      omega
    · by_contra hne
      rw [if_neg hne] at hecn'
      omega
  · rintro ⟨rfl, rfl⟩ pre post
    refine ⟨_, _, rfl, rfl, fun k => ?_, fun k => ?_⟩
    · rw [get_uniqueCounts, get_uniqueCounts]
      exact count_map_insert (fun v : ℤ => v >>> (2 : ℕ)) pre post ht k
    · rw [get_uniqueCounts, get_uniqueCounts]
      exact count_map_insert (fun v : ℤ => v % 4) pre post ht k

end TsPacket
