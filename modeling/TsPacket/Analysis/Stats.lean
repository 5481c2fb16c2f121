import Mathlib.Algebra.Order.Field.Basic
import Mathlib.Algebra.Order.Ring.Rat
import Mathlib.Tactic.Linarith
import Mathlib.Tactic.NormNum
import Mathlib.Tactic.Positivity
import Mathlib.Tactic.Ring
import TsPacket.Analysis.Bootstrap
import TsPacket.Lib.PairCount

/-!
# Comparing two conditions

`analysis/tsn_analysis/stats.py`, but for the bootstrap.

## Main definitions

* `cliffsDelta` — Cliff's delta by sorting one sample and searching it.
* `compare` — two samples, compared on one statistic.
* `perRunAggregate` — the mean of a statistic over repeated runs.

## Main results

* `compare_total` — any two samples can be compared.
* `exists_perRunAggregate_iff` — runs can be aggregated if none of them is empty.
* `cliffsDelta_eq` — it is the balance of the ordered pairs.
* `cliffsDelta_spec` — **the fast computation equals the definition**, and has its
  properties.
-/

namespace TsPacket

open PairCount Raise

section

variable {α : Type} [LinearOrder α]

/-! ### Cliff's delta -/

/-- `cliffs_delta`; `none` stands for `nan`.  The order is the one `np.sort` uses, and the
quotient the one before it is rounded to a float64. -/
def cliffsDelta (a b : List α) : Option ℚ :=
  let b := b.insertionSort (· ≤ ·)
  if a.length = 0 ∨ b.length = 0 then none
  else
    let less := a.map fun x => searchLeft b x
    let greater := a.map fun x => b.length - searchRight b x
    some (((less.sum : ℚ) - greater.sum) / (a.length * b.length))

/-- The pairs in one order less those in the other, per pair. -/
def balance (a b : List α) : ℚ := ((above a b : ℚ) - below a b) / (a.length * b.length)

/-- **The insertion points in the sorted sample count the ordered pairs.** -/
theorem cliffsDelta_eq {a b : List α} (ha : a ≠ []) (hb : b ≠ []) :
    cliffsDelta a b = some (balance a b) := by
  have hperm : (b.insertionSort (· ≤ ·)).Perm b := List.perm_insertionSort _ b
  have hsorted : (b.insertionSort (· ≤ ·)).Pairwise (· ≤ ·) := List.pairwise_insertionSort _ b
  have hless : (a.map fun x => searchLeft (b.insertionSort (· ≤ ·)) x).sum = above a b := by
    rw [← sum_countP_lt]
    congr 2
    funext x
    rw [searchLeft_eq_countP hsorted, hperm.countP_eq]
  have hgreater : (a.map fun x => (b.insertionSort (· ≤ ·)).length
      - searchRight (b.insertionSort (· ≤ ·)) x).sum = below a b := by
    rw [← sum_countP_gt]
    congr 2
    funext x
    rw [length_sub_searchRight hsorted, hperm.countP_eq]
  have hsize : ¬ (a.length = 0 ∨ (b.insertionSort (· ≤ ·)).length = 0) := by
    rw [List.length_insertionSort, List.length_eq_zero_iff, List.length_eq_zero_iff]
    exact not_or.mpr ⟨ha, hb⟩
  unfold cliffsDelta balance
  dsimp only
  rw [if_neg hsize, hless, hgreater, List.length_insertionSort]

theorem balance_neg (a b : List α) : balance b a = -balance a b := by
  rw [balance, balance, above_comm a b, ← above_comm b a, mul_comm, ← neg_div, neg_sub]

theorem balance_perm {a a' b b' : List α} (ha : a'.Perm a) (hb : b'.Perm b) :
    balance a' b' = balance a b := by
  rw [balance, balance, above_perm ha hb, ← above_comm, ← above_comm, above_perm hb ha,
    ha.length_eq, hb.length_eq]

theorem balance_map {β : Type} [LinearOrder β] {f : α → β} (hf : StrictMono f) (a b : List α) :
    balance (a.map f) (b.map f) = balance a b := by
  rw [balance, balance, above_map hf, ← above_comm, ← above_comm, above_map hf, List.length_map,
    List.length_map]

theorem balance_le_one (a b : List α) : balance a b ≤ 1 := by
  have hle : above a b ≤ a.length * b.length :=
    Nat.le_trans (Nat.le_add_right _ _) (above_add_below_le a b)
  have hcast : (above a b : ℚ) ≤ a.length * b.length := by exact_mod_cast hle
  have hbelow : (0 : ℚ) ≤ below a b := Nat.cast_nonneg _
  apply div_le_one_of_le₀ (by linarith)
  positivity

theorem neg_one_le_balance (a b : List α) : -1 ≤ balance a b := by
  rw [neg_le, ← balance_neg]
  exact balance_le_one b a

/-- One is reached only when no pair is tied or in the other order. -/
theorem balance_eq_one_iff {a b : List α} (ha : a ≠ []) (hb : b ≠ []) :
    balance a b = 1 ↔ ∀ x ∈ a, ∀ y ∈ b, y < x := by
  have hpos : (0 : ℚ) < a.length * b.length := by
    have ha' := List.length_pos_iff.mpr ha
    have hb' := List.length_pos_iff.mpr hb
    positivity
  have hle := above_add_below_le a b
  rw [← above_eq_iff, balance, div_eq_one_iff_eq (ne_of_gt hpos)]
  constructor
  · intro h
    have hnat : above a b = a.length * b.length + below a b := by
      have : (above a b : ℚ) = a.length * b.length + below a b := by linarith
      exact_mod_cast this
    omega
  · intro h
    have hzero : below a b = 0 := by omega
    rw [h, hzero]
    push_cast
    ring

/-- **Fast Cliff's delta equals the definition**: the pairs with the first value larger less
those with the first value smaller, per pair.  So it is antisymmetric, does not depend on
the order of either sample or on a strictly increasing change of scale, lies between `-1`
and `1`, and is `1` exactly if every value of the first sample exceeds every one of the
second. -/
theorem cliffsDelta_spec {a b : List α} (ha : a ≠ []) (hb : b ≠ []) :
    ∃ δ : ℚ, δ = (((a ×ˢ b).countP fun p => p.2 < p.1 : ℕ)
        - ((a ×ˢ b).countP fun p => p.1 < p.2 : ℕ)) / (a.length * b.length) ∧
      cliffsDelta a b = some δ ∧
      cliffsDelta b a = some (-δ) ∧
      (∀ a' b', a'.Perm a → b'.Perm b → cliffsDelta a' b' = some δ) ∧
      (∀ (β : Type) [LinearOrder β] (f : α → β), StrictMono f →
        cliffsDelta (a.map f) (b.map f) = some δ) ∧
      (-1 ≤ δ ∧ δ ≤ 1) ∧ (δ = 1 ↔ ∀ x ∈ a, ∀ y ∈ b, y < x) := by
  refine ⟨balance a b, rfl, cliffsDelta_eq ha hb, ?_, ?_, ?_,
    ⟨neg_one_le_balance a b, balance_le_one a b⟩, balance_eq_one_iff ha hb⟩
  · rw [cliffsDelta_eq hb ha, balance_neg]
  · intro a' b' ha' hb'
    have hne : ∀ {l l' : List α}, l'.Perm l → l ≠ [] → l' ≠ [] := fun hp hl hl' =>
      hl (by rw [hl'] at hp; exact hp.nil_eq.symm)
    rw [cliffsDelta_eq (hne ha' ha) (hne hb' hb), balance_perm ha' hb']
  · intro β _ f hf
    rw [cliffsDelta_eq (mt List.map_eq_nil_iff.mp ha) (mt List.map_eq_nil_iff.mp hb),
      balance_map hf]

/-- Two samples with a tie: of six pairs four are in one order and one in the other. -/
theorem cliffsDelta_spec_tie : cliffsDelta [3, 1, 2] [2, 0] = some (1 / 2 : ℚ) ∧
    cliffsDelta [2, 0] [3, 1, 2] = some (-(1 / 2) : ℚ) := by
  obtain ⟨δ, hδ, h, hneg, -⟩ := cliffsDelta_spec (show [3, 1, 2] ≠ [] by decide)
    (show [2, 0] ≠ [] by decide)
  have hvalue : (((4 : ℕ) : ℚ) - (1 : ℕ)) / ((3 : ℕ) * (2 : ℕ)) = 1 / 2 := by norm_num
  rw [h, hneg, hδ.trans hvalue]
  exact ⟨rfl, rfl⟩

end

/-! ### Two samples -/

/-- The words of `describe_delta`. -/
inductive Effect
  | notAvailable
  | negligible
  | small
  | medium
  | large
  deriving DecidableEq

/-- `describe_delta`; the delta of an empty sample is `none`. -/
def describeDelta (delta : Option ℚ) : Effect :=
  match delta with
  | none => .notAvailable
  | some delta =>
    let d := |delta|
    if d < 147 / 1000 then .negligible
    else if d < 33 / 100 then .small
    else if d < 474 / 1000 then .medium
    else .large

variable {F : Type}

/-- `mann_whitney`: the statistic and the p-value, `nan` if a sample is empty. -/
def mannWhitney (np : Numpy.Ops F) (a b : List F) : F × F :=
  if a.length = 0 ∨ b.length = 0 then (np.nan, np.nan) else np.mannWhitney a b

/-- The dictionary `compare` returns. -/
structure Comparison (F : Type) where
  stat : Statistic
  percentileMethod : Numpy.Method
  baseline : BootstrapCI F
  proposed : BootstrapCI F
  improvementPct : F
  mannWhitneyU : F
  pValue : F
  cliffsDelta : Option ℚ
  effect : Effect
  nBaseline : ℕ
  nProposed : ℕ

/-- `chunk` of `bootstrap_ci`, which no caller sets. -/
def defaultChunk : ℕ := 200

/-- `compare`. -/
def compare [LinearOrder F] (np : Numpy.Ops F) (baselineValues proposedValues : List F)
    (stat : Statistic) (nBoot : ℤ) (ci : ℚ) (seed : ℕ) (method : Numpy.Method) :
    Except Numpy.Error (Comparison F) := do
  let b ← bootstrapCi np baselineValues stat nBoot ci seed defaultChunk method
  let p ← bootstrapCi np proposedValues stat nBoot ci (seed + 1) defaultChunk method
  -- a baseline of zero or nan has no relative improvement
  let improvement :=
    if !np.isZero b.point && !np.isNan b.point then
      np.mul (np.div (np.sub b.point p.point) (np.abs b.point)) (np.ofNat 100)
    else np.nan
  let delta := cliffsDelta baselineValues proposedValues
  return { stat, percentileMethod := method, baseline := b, proposed := p,
           improvementPct := improvement,
           mannWhitneyU := (mannWhitney np baselineValues proposedValues).1,
           pValue := (mannWhitney np baselineValues proposedValues).2,
           cliffsDelta := delta, effect := describeDelta delta,
           nBaseline := baselineValues.length, nProposed := proposedValues.length }

/-- What is undefined of a comparison with an empty sample is `nan`. -/
structure Comparison.UndefinedNan (np : Numpy.Ops F) (c : Comparison F) : Prop where
  baseline : c.nBaseline = 0 → c.baseline.point = np.nan ∧ c.baseline.low = np.nan ∧
    c.baseline.high = np.nan
  proposed : c.nProposed = 0 → c.proposed.point = np.nan ∧ c.proposed.low = np.nan ∧
    c.proposed.high = np.nan
  ranks : c.nBaseline = 0 ∨ c.nProposed = 0 → c.mannWhitneyU = np.nan ∧ c.pValue = np.nan ∧
    c.cliffsDelta = none ∧ c.effect = .notAvailable

theorem cliffsDelta_of_nil {α : Type} [LinearOrder α] {a b : List α} (h : a = [] ∨ b = []) :
    cliffsDelta a b = none := by
  unfold cliffsDelta
  dsimp only
  rw [if_pos]
  rw [List.length_insertionSort, List.length_eq_zero_iff, List.length_eq_zero_iff]
  exact h

/-- **Any two samples can be compared.** -/
theorem compare_total [LinearOrder F] (np : Numpy.Ops F) (base prop : List F)
    {stat : Statistic} (hstat : stat.InRange) (nBoot : ℤ) {ci : ℚ} (hci : -1 ≤ ci ∧ ci ≤ 1)
    (seed : ℕ) (method : Numpy.Method) :
    ∃ c, compare np base prop stat nBoot ci seed method = .ok c ∧
      (c.nBaseline = base.length ∧ c.nProposed = prop.length) ∧ c.UndefinedNan np := by
  have hchunk : 0 < defaultChunk := by decide
  obtain ⟨b, hb, hbnan⟩ := bootstrapCi_total np base hstat nBoot hci seed hchunk method
  obtain ⟨p, hp, hpnan⟩ := bootstrapCi_total np prop hstat nBoot hci (seed + 1) hchunk method
  unfold compare
  rw [hb, hp, ok_bind, ok_bind]
  refine ⟨_, rfl, ⟨rfl, rfl⟩, fun h => ?_, fun h => ?_, fun h => ?_⟩
  · rw [hbnan (List.length_eq_zero_iff.mp h)]
    exact ⟨rfl, rfl, rfl⟩
  · rw [hpnan (List.length_eq_zero_iff.mp h)]
    exact ⟨rfl, rfl, rfl⟩
  · have hranks : mannWhitney np base prop = (np.nan, np.nan) := if_pos h
    dsimp only at h ⊢
    rw [List.length_eq_zero_iff, List.length_eq_zero_iff] at h
    rw [hranks, cliffsDelta_of_nil h]
    exact ⟨rfl, rfl, rfl, rfl⟩

/-! ### Repeated runs -/

/-- The dictionary `per_run_aggregate` returns. -/
structure RunAggregate (F : Type) where
  stat : Statistic
  nRuns : ℕ
  perRun : List F
  mean : F
  std : F
  ciLow : F
  ciHigh : F
  ci : ℚ

/-- `per_run_aggregate`. -/
def perRunAggregate (np : Numpy.Ops F) (runsValues : List (List F)) (stat : Statistic) (ci : ℚ)
    (method : Numpy.Method) : Except Numpy.Error (RunAggregate F) := do
  let perRun ← runsValues.mapM (resolveStatistic np method stat)
  let n := perRun.length
  let mean ← (if n ≠ 0 then Numpy.mean np perRun else .ok np.nan)
  let std := if n > 1 then np.std perRun else np.nan
  if n ≥ 3 then
    let half := np.div (np.mul (np.tPpf (1 / 2 + ci / 2) (n - 1)) (np.std perRun))
      (np.sqrt (np.ofNat n))
    return { stat, nRuns := n, perRun, mean, std, ciLow := np.sub mean half,
             ciHigh := np.add mean half, ci }
  else return { stat, nRuns := n, perRun, mean, std, ciLow := np.nan, ciHigh := np.nan, ci }

/-- What is undefined of few runs. -/
structure RunAggregate.UndefinedNan (np : Numpy.Ops F) (a : RunAggregate F) : Prop where
  std : a.nRuns ≤ 1 → a.std = np.nan
  interval : a.nRuns < 3 → a.ciLow = np.nan ∧ a.ciHigh = np.nan

section

variable {np : Numpy.Ops F} {runsValues : List (List F)} {q ci : ℚ} {method : Numpy.Method}

theorem perRunAggregate_of_ok {stat : Statistic} {perRun : List F} (ci : ℚ)
    (h : runsValues.mapM (resolveStatistic np method stat) = .ok perRun) :
    ∃ a, perRunAggregate np runsValues stat ci method = .ok a ∧
      a.nRuns = runsValues.length ∧ a.UndefinedNan np := by
  have hlen : perRun.length = runsValues.length := (mapM_eq_ok_iff.mp h).length_eq.symm
  obtain ⟨mean, hmean⟩ : ∃ mean,
      (if perRun.length ≠ 0 then Numpy.mean np perRun else .ok np.nan) = .ok mean := by
    split
    case isTrue hne =>
      exact Numpy.exists_nonempty_eq_ok_iff.mpr (mt List.length_eq_zero_iff.mpr hne)
    case isFalse => exact ⟨_, rfl⟩
  unfold perRunAggregate
  rw [h, ok_bind]
  dsimp only
  rw [hmean, ok_bind]
  by_cases hn : perRun.length ≥ 3
  · rw [if_pos hn]
    exact ⟨_, rfl, hlen, fun h => absurd h (by dsimp only; omega),
      fun h => absurd h (by dsimp only; omega)⟩
  · rw [if_neg hn]
    exact ⟨_, rfl, hlen, fun h => if_neg (Nat.not_lt.mpr h), fun _ => ⟨rfl, rfl⟩⟩

theorem perRunAggregate_spec {stat : Statistic} {a : RunAggregate F}
    (h : perRunAggregate np runsValues stat ci method = .ok a) :
    a.nRuns = runsValues.length ∧ a.UndefinedNan np := by
  obtain ⟨perRun, hperRun, -⟩ := bind_eq_ok_iff.mp h
  obtain ⟨a', ha', hspec⟩ := perRunAggregate_of_ok ci hperRun
  obtain rfl := eq_of_eq_ok h ha'
  exact hspec

/-- **Runs can be aggregated on a percentile** exactly if none of them is empty. -/
theorem exists_perRunAggregate_iff (np : Numpy.Ops F) (runsValues : List (List F))
    (hq : 0 ≤ q ∧ q ≤ 100) (ci : ℚ) (method : Numpy.Method) :
    (∃ a, perRunAggregate np runsValues (.percentile q) ci method = .ok a) ↔
      ∀ v ∈ runsValues, v ≠ [] := by
  -- `np.percentile` raises on an empty row and on no other
  have hrow : ∀ v : List F, (∃ y, resolveStatistic np method (.percentile q) v = .ok y) ↔
      v ≠ [] := fun v => Numpy.exists_percentile_eq_ok_iff.trans (and_iff_right hq)
  constructor
  · rintro ⟨a, ha⟩ v hv
    obtain ⟨perRun, hperRun, -⟩ := bind_eq_ok_iff.mp ha
    exact (hrow v).mp (exists_mapM_eq_ok_iff.mp ⟨perRun, hperRun⟩ v hv)
  · intro h
    obtain ⟨perRun, hperRun⟩ := exists_mapM_eq_ok_iff.mpr fun v hv => (hrow v).mpr (h v hv)
    obtain ⟨a, ha, -⟩ := perRunAggregate_of_ok ci hperRun
    exact ⟨a, ha⟩

end

end TsPacket
