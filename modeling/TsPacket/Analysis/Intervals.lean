import TsPacket.Analysis.Chunking
import TsPacket.Analysis.Stats
import TsPacket.Lib.Quantile

/-!
# Ordered intervals

The interval of `bootstrap_ci` is a pair of percentiles of the statistics of the resamples, at
levels that `ci` sets as far apart as it is large; that of `per_run_aggregate` is the mean
with a quantile of Student's distribution added and taken away.  A negative `ci` is not
rejected, and changes the ends around.

Arithmetic is exact here: the values are those of any ordered field, and `Ops.Exact` says what
numpy and scipy compute on them.

## Main definitions

* `Numpy.Ops.Exact` — the operations are those of exact arithmetic.
* `MiddleEqual` — the sorted values in the middle of a sample are the same.
* `Statistic.Inside` — the statistics that are never outside the values.

## Main results

* `bootstrapCiOf_low_le_high_iff` — **when the ends of the interval are in order.**
* `bootstrapCi_inside` — the interval is inside the data.
* `perRunAggregate_ordered_iff` — when the ends are on their sides of the mean.
* `intervals_ordered_iff` — all of it.
-/

namespace Numpy

variable {F : Type} [Field F] [LinearOrder F]

/-- The operations compute exactly what they are documented to. -/
structure Ops.Exact (np : Ops F) : Prop where
  add : ∀ x y, np.add x y = x + y
  sub : ∀ x y, np.sub x y = x - y
  mul : ∀ x y, np.mul x y = x * y
  div : ∀ x y, np.div x y = x / y
  ofNat : ∀ n : ℕ, np.ofNat n = n
  sqrt_pos : ∀ {x}, 0 < x → 0 < np.sqrt x
  min : ∀ {sample}, sample ≠ [] → IsLeast {x | x ∈ sample} (np.min sample)
  max : ∀ {sample}, sample ≠ [] → IsGreatest {x | x ∈ sample} (np.max sample)
  mean : ∀ {sample}, sample ≠ [] → np.mean sample = sample.sum / sample.length
  percentile : ∀ {q sample}, 0 ≤ q → q ≤ 100 → sample ≠ [] →
    np.percentile .linear q sample = Quantile.percentile q sample
  /-- One value has no standard deviation. -/
  std_nonneg : ∀ {sample}, 2 ≤ sample.length → 0 ≤ np.std sample
  std_eq_zero_iff : ∀ {sample}, 2 ≤ sample.length →
    (np.std sample = 0 ↔ ∀ x ∈ sample, ∀ y ∈ sample, x = y)
  /-- The quantile function of Student's distribution increases through zero at one half. -/
  tPpf_half : ∀ df, np.tPpf (1 / 2) df = 0
  tPpf_lt : ∀ {df p q}, 0 < df → 0 ≤ p → p < q → q ≤ 1 → np.tPpf p df < np.tPpf q df

end Numpy

namespace TsPacket

open Raise Quantile

/-! ### What `bootstrap_ci` returns -/

section

variable {F : Type} {np : Numpy.Ops F} {stat : List F → Except Numpy.Error F} {x : List F}
  {nBoot : ℤ} {ci : ℚ} {seed chunk : ℕ} {b : BootstrapCI F}

/-- The statistics of the resamples, of which the interval is made. -/
def bootValues (np : Numpy.Ops F) (stat : List F → Except Numpy.Error F) (x : List F) (seed n : ℕ) :
    Except Numpy.Error (List F) :=
  (List.range n).mapM fun i => stat (resample np x seed (i * x.length))

theorem mem_of_mem_resample {place : ℕ} {e : F}
    (he : e ∈ resample np x seed place) : e ∈ x := by
  obtain ⟨j, hj, rfl⟩ := List.mem_map.mp he
  have hpos : 0 < x.length := Nat.zero_lt_of_lt (List.mem_range.mp hj)
  have hlt := np.draw_lt seed x.length (place + j) hpos
  rw [List.getD_eq_getElem _ _ hlt]
  exact List.getElem_mem hlt

/-- **What `bootstrap_ci` returns**, if it does: the point with itself, or with two percentiles
of the statistics of the resamples. -/
theorem bootstrapCiOf_eq_ok (hx : x ≠ [])
    (h : bootstrapCiOf np stat x nBoot ci seed chunk = .ok b) :
    (x.length = 1 ∨ nBoot ≤ 0) ∧ (∃ point, stat x = .ok point ∧ b.low = point ∧ b.high = point) ∨
      0 < nBoot ∧ x.length ≠ 1 ∧ (-1 ≤ ci ∧ ci ≤ 1) ∧
      ∃ vs, bootValues np stat x seed nBoot.toNat = .ok vs ∧ vs ≠ [] ∧
        b.low = np.percentile .linear (100 * ((1 - ci) / 2)) vs ∧
        b.high = np.percentile .linear (100 * (1 - (1 - ci) / 2)) vs := by
  unfold bootstrapCiOf at h
  rw [if_neg (mt List.length_eq_zero_iff.mp hx)] at h
  obtain ⟨point, hpoint, h⟩ := bind_eq_ok_iff.mp h
  -- of one value, or without resampling, the interval is the point
  by_cases hsmall : x.length = 1 ∨ nBoot ≤ 0
  · rw [if_pos hsmall] at h
    obtain rfl := Except.ok.inj h
    exact Or.inl ⟨hsmall, point, hpoint, rfl, rfl⟩
  · rw [if_neg hsmall] at h
    obtain ⟨s, hs, h⟩ := bind_eq_ok_iff.mp h
    have hn : 0 < nBoot := by omega
    -- the loop ends, so its step was positive
    have hchunk : 0 < chunk := by
      rcases Nat.eq_zero_or_pos chunk with rfl | hpos
      · have hstart : (bootStart nBoot.toNat : BootState F).done < nBoot.toNat := by
          dsimp only [bootStart]
          omega
        rw [bootLoop_zero_chunk np stat x seed nBoot.toNat hstart] at hs
        cases hs
      · exact hpos
    rw [bootLoop_eq_mapM np stat x seed nBoot.toNat hchunk, map_eq_ok_iff] at hs
    obtain ⟨vs, hvs, rfl⟩ := hs
    -- the array is full, so the percentiles are of all statistics
    have hlen : vs.length = nBoot.toNat := (length_of_mapM hvs).trans List.length_range
    rw [written_filled hlen, ok_bind] at h
    obtain ⟨low, hlow, h⟩ := bind_eq_ok_iff.mp h
    obtain ⟨high, hhigh, h⟩ := bind_eq_ok_iff.mp h
    obtain rfl := Except.ok.inj h
    obtain ⟨hlevel, hne, rfl⟩ := Numpy.percentile_eq_ok_iff.mp hlow
    obtain ⟨-, -, rfl⟩ := Numpy.percentile_eq_ok_iff.mp hhigh
    -- both levels are in the range
    have hci : -1 ≤ ci ∧ ci ≤ 1 := by
      constructor <;> linarith
    exact Or.inr ⟨hn, fun hone => hsmall (Or.inl hone), hci, vs, hvs, hne, rfl, rfl⟩

end

variable {F : Type} [Field F] [LinearOrder F] {np : Numpy.Ops F}

/-! ### Student's distribution -/

/-- The quantile has the sign of `ci`. -/
theorem tPpf_nonneg_iff (hnp : np.Exact) {df : ℕ} (hdf : 0 < df) {ci : ℚ} (hlo : -1 ≤ ci)
    (hhi : ci ≤ 1) : 0 ≤ np.tPpf (1 / 2 + ci / 2) df ↔ 0 ≤ ci := by
  have hhalf := hnp.tPpf_half df
  rcases lt_trichotomy ci 0 with hneg | rfl | hpos
  · have hlt := hnp.tPpf_lt hdf (p := 1 / 2 + ci / 2) (q := 1 / 2) (by linarith) (by linarith)
      (by norm_num)
    rw [hhalf] at hlt
    exact iff_of_false (not_le.mpr hlt) (not_le.mpr hneg)
  · rw [zero_div, add_zero, hhalf]
    exact iff_of_true (le_refl _) (le_refl _)
  · have hlt := hnp.tPpf_lt hdf (p := 1 / 2) (q := 1 / 2 + ci / 2) (by norm_num) (by linarith)
      (by linarith)
    rw [hhalf] at hlt
    exact iff_of_true hlt.le hpos.le

variable [IsStrictOrderedRing F]

/-! ### The ends of a bootstrap interval -/

/-- The sorted values are the same from a level as far from the least as `ci` says to one as
far from the largest. -/
def MiddleEqual (vs : List F) (ci : ℚ) : Prop :=
  orderStat vs ⌊place vs.length (100 * ((1 + ci) / 2))⌋₊
    = orderStat vs ⌈place vs.length (100 * ((1 - ci) / 2))⌉₊

/-- **When two percentiles are in order**, of which the levels are as far from the middle as
`ci` says. -/
theorem percentile_le_percentile_iff {vs : List F} (hne : vs ≠ []) {ci : ℚ}
    (hci : -1 ≤ ci ∧ ci ≤ 1) :
    percentile (100 * ((1 - ci) / 2)) vs ≤ percentile (100 * (1 - (1 - ci) / 2)) vs ↔
      0 ≤ ci ∨ MiddleEqual vs ci := by
  have hhigh : 100 * (1 - (1 - ci) / 2) = 100 * ((1 + ci) / 2) := by ring
  obtain ⟨hlo, hhi⟩ := hci
  rw [hhigh, MiddleEqual]
  by_cases hsign : 0 ≤ ci
  · refine iff_of_true (percentile_mono hne ?_ ?_) (Or.inl hsign) <;> linarith
  · rw [or_iff_right hsign]
    apply percentile_le_iff hne <;> linarith

/-- **When the ends of the interval are in order.** -/
theorem bootstrapCiOf_low_le_high_iff (hnp : np.Exact) {stat : List F → Except Numpy.Error F}
    {x : List F} (hx : x ≠ []) {nBoot : ℤ} {ci : ℚ} {seed chunk : ℕ} {b : BootstrapCI F}
    (h : bootstrapCiOf np stat x nBoot ci seed chunk = .ok b) :
    b.low ≤ b.high ↔ 0 ≤ ci ∨ x.length = 1 ∨ nBoot ≤ 0 ∨
      ∀ vs, bootValues np stat x seed nBoot.toNat = .ok vs → MiddleEqual vs ci := by
  rcases bootstrapCiOf_eq_ok hx h with ⟨hsmall, point, -, hlow, hhigh⟩ | hlarge
  · rw [hlow, hhigh]
    exact iff_of_true (le_refl _) (Or.inr (hsmall.imp id Or.inl))
  · obtain ⟨hn, hone, hci, vs, hvs, hne, hlow, hhigh⟩ := hlarge
    obtain ⟨⟨hlow0, hlow1⟩, hhigh0, hhigh1⟩ := levels_range hci
    rw [hlow, hhigh, hnp.percentile hlow0 hlow1 hne, hnp.percentile hhigh0 hhigh1 hne,
      percentile_le_percentile_iff hne hci, or_iff_right hone, or_iff_right (not_le.mpr hn)]
    apply or_congr_right
    constructor
    · intro hmid vs' hvs'
      obtain rfl := eq_of_eq_ok hvs hvs'
      exact hmid
    · exact fun hall => hall vs hvs

/-! ### The interval and the data -/

/-- The statistics that are never outside the values of a row. -/
def Statistic.Inside (method : Numpy.Method) : Statistic → Prop
  | .percentile _ => method = .linear
  | .std => False
  | _ => True

/-- Such a statistic is within the bounds of its row. -/
theorem resolveStatistic_mem (hnp : np.Exact) {method : Numpy.Method} {statistic : Statistic}
    (hstat : statistic.Inside method) {y : List F} {v m M : F}
    (h : resolveStatistic np method statistic y = .ok v) (hy : ∀ e ∈ y, m ≤ e ∧ e ≤ M) :
    m ≤ v ∧ v ≤ M := by
  -- each of the statistics lies between any bounds of the sample, the deviation apart
  cases statistic with
  | percentile q =>
    obtain rfl : method = .linear := hstat
    obtain ⟨⟨hq0, hq1⟩, hne, rfl⟩ := Numpy.percentile_eq_ok_iff.mp h
    rw [hnp.percentile hq0 hq1 hne]
    exact ⟨le_percentile hne hq0 fun e he => (hy e he).1,
      percentile_le hne hq0 fun e he => (hy e he).2⟩
  | mean =>
    obtain ⟨hne, rfl⟩ := Numpy.nonempty_eq_ok_iff.mp h
    rw [hnp.mean hne]
    exact ⟨le_mean hne fun e he => (hy e he).1, mean_le hne fun e he => (hy e he).2⟩
  | max =>
    obtain ⟨hne, rfl⟩ := Numpy.nonempty_eq_ok_iff.mp h
    exact hy _ (hnp.max hne).1
  | min =>
    obtain ⟨hne, rfl⟩ := Numpy.nonempty_eq_ok_iff.mp h
    exact hy _ (hnp.min hne).1
  | std => exact absurd hstat id

/-- **The interval is inside the data**, whatever `ci` is. -/
theorem bootstrapCi_inside (hnp : np.Exact) {method : Numpy.Method} {statistic : Statistic}
    (hstat : statistic.Inside method) {x : List F} (hx : x ≠ []) {nBoot : ℤ} {ci : ℚ}
    {seed chunk : ℕ} {b : BootstrapCI F}
    (h : bootstrapCi np x statistic nBoot ci seed chunk method = .ok b) :
    (np.min x ≤ b.low ∧ b.low ≤ np.max x) ∧ np.min x ≤ b.high ∧ b.high ≤ np.max x := by
  have hbounds : ∀ e ∈ x, np.min x ≤ e ∧ e ≤ np.max x := fun e he =>
    ⟨(hnp.min hx).2 he, (hnp.max hx).2 he⟩
  rw [bootstrapCi] at h
  rcases bootstrapCiOf_eq_ok hx h with ⟨-, point, hpoint, hlow, hhigh⟩ | hlarge
  · have hmem := resolveStatistic_mem hnp hstat hpoint hbounds
    rw [hlow, hhigh]
    exact ⟨hmem, hmem⟩
  · obtain ⟨-, -, hci, vs, hvs, hne, hlow, hhigh⟩ := hlarge
    obtain ⟨⟨hlow0, hlow1⟩, hhigh0, hhigh1⟩ := levels_range hci
    -- a resample has no values of its own
    have hvals : ∀ v ∈ vs, np.min x ≤ v ∧ v ≤ np.max x := by
      intro v hv
      obtain ⟨i, -, hi⟩ := (mem_of_mapM hvs).mp hv
      exact resolveStatistic_mem hnp hstat hi fun e he => hbounds e (mem_of_mem_resample he)
    rw [hlow, hhigh, hnp.percentile hlow0 hlow1 hne, hnp.percentile hhigh0 hhigh1 hne]
    exact ⟨⟨le_percentile hne hlow0 fun v hv => (hvals v hv).1,
        percentile_le hne hlow0 fun v hv => (hvals v hv).2⟩,
      le_percentile hne hhigh0 fun v hv => (hvals v hv).1,
      percentile_le hne hhigh0 fun v hv => (hvals v hv).2⟩

/-! ### The interval of repeated runs -/

theorem mul_div_nonneg_iff {t s r : F} (hs : 0 ≤ s) (hr : 0 < r) :
    0 ≤ t * s / r ↔ 0 ≤ t ∨ s = 0 := by
  rw [le_div_iff₀ hr, zero_mul]
  rcases lt_or_eq_of_le hs with hpos | rfl
  · rw [mul_nonneg_iff_of_pos_right hpos, or_iff_left (ne_of_gt hpos)]
  · simp

/-- **When the ends are on their sides of the mean**: where `ci` is not negative, or every run
has the same statistic. -/
theorem perRunAggregate_ordered_iff (hnp : np.Exact) {runsValues : List (List F)}
    (hn : 3 ≤ runsValues.length) {stat : Statistic} {ci : ℚ} (hlo : -1 ≤ ci) (hhi : ci ≤ 1)
    {method : Numpy.Method} {a : RunAggregate F}
    (h : perRunAggregate np runsValues stat ci method = .ok a) :
    a.ciLow ≤ a.mean ∧ a.mean ≤ a.ciHigh ↔
      0 ≤ ci ∨ ∃ v, ∀ run ∈ runsValues, resolveStatistic np method stat run = .ok v := by
  obtain ⟨perRun, hperRun, h⟩ := bind_eq_ok_iff.mp h
  have hlen : perRun.length = runsValues.length := length_of_mapM hperRun
  obtain ⟨mean, -, h⟩ := bind_eq_ok_iff.mp h
  rw [if_pos (by omega)] at h
  obtain rfl := Except.ok.inj h
  have hdf : 0 < perRun.length - 1 := by omega
  have hsqrt : 0 < np.sqrt (perRun.length : F) := hnp.sqrt_pos (Nat.cast_pos.mpr (by omega))
  have hstd := hnp.std_nonneg (show 2 ≤ perRun.length by omega)
  -- the deviation is zero exactly if the runs agree
  have hsame : (∃ v, ∀ run ∈ runsValues, resolveStatistic np method stat run = .ok v) ↔
      np.std perRun = 0 := by
    rw [hnp.std_eq_zero_iff (by omega)]
    constructor
    · rintro ⟨v, hv⟩ y hy z hz
      obtain ⟨run, hrun, hy⟩ := (mem_of_mapM hperRun).mp hy
      obtain ⟨run', hrun', hz⟩ := (mem_of_mapM hperRun).mp hz
      rw [eq_of_eq_ok hy (hv run hrun), eq_of_eq_ok hz (hv run' hrun')]
    · intro hall
      obtain ⟨v, hv⟩ := List.exists_mem_of_length_pos (l := perRun) (by omega)
      refine ⟨v, fun run hrun => ?_⟩
      obtain ⟨y, hy⟩ := exists_mapM_eq_ok_iff.mp ⟨perRun, hperRun⟩ run hrun
      rw [hy, hall y ((mem_of_mapM hperRun).mpr ⟨run, hrun, hy⟩) v hv]
  -- both ends are off the mean by the quantile times the error of the mean
  dsimp only
  rw [hnp.sub, hnp.add, hnp.div, hnp.mul, hnp.ofNat, hsame, ← tPpf_nonneg_iff hnp hdf hlo hhi,
    sub_le_self_iff, le_add_iff_nonneg_right, and_self, mul_div_nonneg_iff hstd hsqrt]

/-- **When intervals are in order.**  A bootstrap interval is, where `ci` is not negative, there
is nothing to resample, or the resamples do not differ in the middle; it is always inside the
data.  The interval of three or more runs has the mean inside, where `ci` is not negative or the
runs do not differ. -/
theorem intervals_ordered_iff (hnp : np.Exact) :
    (∀ stat x nBoot ci seed chunk b, x ≠ [] →
      bootstrapCiOf np stat x nBoot ci seed chunk = .ok b →
      (b.low ≤ b.high ↔ 0 ≤ ci ∨ x.length = 1 ∨ nBoot ≤ 0 ∨
        ∀ vs, bootValues np stat x seed nBoot.toNat = .ok vs → MiddleEqual vs ci)) ∧
    (∀ statistic method x nBoot ci seed chunk b, statistic.Inside method → x ≠ [] →
      bootstrapCi np x statistic nBoot ci seed chunk method = .ok b →
      (np.min x ≤ b.low ∧ b.low ≤ np.max x) ∧ np.min x ≤ b.high ∧ b.high ≤ np.max x) ∧
    ∀ runsValues stat ci method a, 3 ≤ runsValues.length → -1 ≤ ci → ci ≤ 1 →
      perRunAggregate np runsValues stat ci method = .ok a →
      (a.ciLow ≤ a.mean ∧ a.mean ≤ a.ciHigh ↔
        0 ≤ ci ∨ ∃ v, ∀ run ∈ runsValues, resolveStatistic np method stat run = .ok v) :=
  ⟨fun _ _ _ _ _ _ _ hx h => bootstrapCiOf_low_le_high_iff hnp hx h,
    fun _ _ _ _ _ _ _ _ hstat hx h => bootstrapCi_inside hnp hstat hx h,
    fun _ _ _ _ _ hn hlo hhi h => perRunAggregate_ordered_iff hnp hn hlo hhi h⟩

/-! ### Exact rationals -/

/-- The operations on rationals, with the stream `draws`.  Roots are exact where there is one,
the quantile function is no more than increasing, and the rank test leaves its p-value open. -/
def exactRational (draws : List ℕ) : Numpy.Ops ℚ where
  nan := 0
  isNan _ := false
  isZero x := x = 0
  ofNat n := n
  abs x := |x|
  add := (· + ·)
  sub := (· - ·)
  mul := (· * ·)
  div := (· / ·)
  sqrt := Numpy.ratSqrt
  percentile _ := Numpy.linearPercentile
  min sample := sample.min?.getD 0
  max sample := sample.max?.getD 0
  mean := Numpy.average
  std sample := Numpy.ratSqrt (Numpy.variance sample)
  draw _ n place := draws.getD place 0 % n
  draw_lt _ _ _ h := Nat.mod_lt _ h
  tPpf p _ := p - 1 / 2
  mannWhitney a b :=
    let above := (a ×ˢ b).countP fun p => p.2 < p.1
    let tied := (a ×ˢ b).countP fun p => p.1 = p.2
    ((above : ℚ) + (tied : ℚ) / 2, 1)

theorem linearPercentile_eq {q : ℚ} {l : List ℚ} (hq : q ≤ 100) (hne : l ≠ []) :
    Numpy.linearPercentile q l = percentile q l := by
  have hpos : 0 < l.length := List.length_pos_iff.mpr hne
  have hlen : (l.insertionSort (· ≤ ·)).length = l.length := List.length_insertionSort _ l
  have hplace : place l.length q ≤ l.length - 1 := by
    have hone : (1 : ℚ) ≤ l.length := Nat.one_le_cast.mpr hpos
    have hpart : q / 100 ≤ 1 := by linarith
    exact mul_le_of_le_one_left (by linarith) hpart
  have hfloor : ⌊place l.length q⌋₊ ≤ l.length - 1 := by
    apply Nat.floor_le_of_le
    rw [Nat.cast_sub hpos, Nat.cast_one]
    exact hplace
  have hindex : (q / 100 * (((l.insertionSort (· ≤ ·)).length : ℚ) - 1)).floor.toNat
      = ⌊place l.length q⌋₊ := by
    rw [hlen]
    exact Int.floor_toNat (place l.length q)
  unfold Numpy.linearPercentile percentile interpolate
  dsimp only
  rw [hindex, hlen, orderStat, orderStat, min_eq_left hfloor, Rat.cast_id]
  rcases lt_or_eq_of_le hfloor with hlt | heq
  · -- there is a value after this one
    have hin : ⌊place l.length q⌋₊ + 1 < (l.insertionSort (· ≤ ·)).length := by omega
    rw [min_eq_left hlt, List.getD_eq_getElem _ _ hin, List.getD_eq_getElem _ _ hin]
    rfl
  · -- this is the last
    have hout : (l.insertionSort (· ≤ ·)).length ≤ ⌊place l.length q⌋₊ + 1 := by omega
    rw [min_eq_right (by omega), List.getD_eq_default _ _ hout, ← heq]
    rfl

theorem ratSqrt_nonneg (x : ℚ) : 0 ≤ Numpy.ratSqrt x := by
  unfold Numpy.ratSqrt
  positivity

theorem ratSqrt_pos {x : ℚ} (hx : 0 < x) : 0 < Numpy.ratSqrt x := by
  have hnum : 0 < x.num := Rat.num_pos.mpr hx
  have hden : 0 < x.den := x.den_pos
  have hnat : 0 < x.num.toNat := by omega
  unfold Numpy.ratSqrt
  apply div_pos
  · exact Nat.cast_pos.mpr (Nat.sqrt_pos.mpr hnat)
  · exact Nat.cast_pos.mpr (Nat.sqrt_pos.mpr hden)

/-- The variance of two or more values is zero only if they are the same. -/
theorem ratSqrt_variance_eq_zero_iff {sample : List ℚ} (hlen : 2 ≤ sample.length) :
    Numpy.ratSqrt (Numpy.variance sample) = 0 ↔ ∀ x ∈ sample, ∀ y ∈ sample, x = y := by
  have hden : (0 : ℚ) < sample.length - 1 := by
    have htwo : (2 : ℚ) ≤ sample.length := by exact_mod_cast hlen
    linarith
  have hsq : ∀ d ∈ sample.map fun x => (x - Numpy.average sample) ^ 2, 0 ≤ d := by
    intro d hd
    obtain ⟨x, -, rfl⟩ := List.mem_map.mp hd
    exact sq_nonneg _
  constructor
  · intro hzero x hx y hy
    have hvar : ¬ 0 < Numpy.variance sample := fun hpos => (ratSqrt_pos hpos).ne' hzero
    have hsum : (sample.map fun x => (x - Numpy.average sample) ^ 2).sum = 0 := by
      refine le_antisymm (not_lt.mp fun hpos => hvar (div_pos hpos hden)) (List.sum_nonneg hsq)
    -- no square is over zero, so every value is the average
    have haverage : ∀ x ∈ sample, x = Numpy.average sample := by
      intro x hx
      have hx0 := List.all_zero_of_le_zero_le_of_sum_eq_zero hsq hsum (List.mem_map_of_mem hx)
      exact sub_eq_zero.mp (pow_eq_zero_iff two_ne_zero |>.mp hx0)
    rw [haverage x hx, haverage y hy]
  · intro hall
    obtain ⟨v, hv⟩ := List.exists_mem_of_length_pos (l := sample) (by omega)
    -- one value over and over
    have hrep : sample = List.replicate sample.length v :=
      List.eq_replicate_iff.mpr ⟨rfl, fun x hx => hall x hx v hv⟩
    have haverage : Numpy.average sample = v := by
      have hne : (sample.length : ℚ) ≠ 0 := by linarith
      unfold Numpy.average
      rw [hrep, List.sum_replicate, List.length_replicate, nsmul_eq_mul, mul_div_cancel_left₀ _ hne]
    have hvar : Numpy.variance sample = 0 := by
      unfold Numpy.variance
      rw [haverage, hrep]
      simp
    rw [hvar]
    simp [Numpy.ratSqrt]

theorem exactRational_exact (draws : List ℕ) : (exactRational draws).Exact where
  add _ _ := rfl
  sub _ _ := rfl
  mul _ _ := rfl
  div _ _ := rfl
  ofNat _ := rfl
  sqrt_pos hx := ratSqrt_pos hx
  -- the default of an empty sample is never taken
  min {sample} hne := by
    obtain ⟨m, hm⟩ := Option.isSome_iff_exists.mp (List.isSome_min?_of_ne_nil hne)
    have hspec := List.min?_eq_some_iff.mp hm
    have hmin : (exactRational draws).min sample = m := by
      change sample.min?.getD 0 = m
      rw [hm, Option.getD_some]
    rw [hmin]
    exact ⟨hspec.1, fun x hx => hspec.2 x hx⟩
  max {sample} hne := by
    obtain ⟨m, hm⟩ := Option.isSome_iff_exists.mp (List.isSome_max?_of_ne_nil hne)
    have hspec := List.max?_eq_some_iff.mp hm
    have hmax : (exactRational draws).max sample = m := by
      change sample.max?.getD 0 = m
      rw [hm, Option.getD_some]
    rw [hmax]
    exact ⟨hspec.1, fun x hx => hspec.2 x hx⟩
  mean _ := rfl
  percentile _ hq hne := linearPercentile_eq hq hne
  std_nonneg _ := ratSqrt_nonneg _
  std_eq_zero_iff hlen := ratSqrt_variance_eq_zero_iff hlen
  tPpf_half _ := by
    change (1 / 2 - 1 / 2 : ℚ) = 0
    norm_num
  tPpf_lt _ _ hpq _ := by
    change (_ - 1 / 2 : ℚ) < _ - 1 / 2
    linarith

/-- Two resamples of two values, and four runs, at levels that are not negative. -/
theorem intervals_ordered_nonneg :
    (∃ b, bootstrapCi (exactRational [0, 0, 1, 1]) [0, 1] .mean 2 (1 / 2) 0 200 .linear = .ok b ∧
      b.low ≤ b.high ∧ 0 ≤ b.low ∧ b.high ≤ 1) ∧
    ∃ a, perRunAggregate (exactRational []) [[0], [0], [0], [2]] .median 0 .linear = .ok a ∧
      a.ciLow ≤ a.mean ∧ a.mean ≤ a.ciHigh := by
  constructor
  · obtain ⟨hordered, hinside, -⟩ := intervals_ordered_iff (exactRational_exact [0, 0, 1, 1])
    have hreturns : ∃ b, bootstrapCi (exactRational [0, 0, 1, 1]) [0, 1] .mean 2 (1 / 2) 0 200
        .linear = .ok b := by
      have hrange : Statistic.mean.InRange := trivial
      exact (bootstrapCi_total _ _ hrange _ (by norm_num) _ (by decide) _).imp fun _ h => h.1
    obtain ⟨b, hb⟩ := hreturns
    have hends := hinside .mean .linear _ _ _ _ _ b trivial (by decide) hb
    exact ⟨b, hb, (hordered _ _ _ _ _ _ b (by decide) hb).mpr (Or.inl (by norm_num)),
      hends.1.1, hends.2.2⟩
  · obtain ⟨-, -, hruns⟩ := intervals_ordered_iff (exactRational_exact [])
    obtain ⟨a, ha⟩ := (exists_perRunAggregate_iff (exactRational []) [[0], [0], [0], [2]] (q := 50)
      (by norm_num) 0 .linear).mpr (by decide)
    exact ⟨a, ha, (hruns _ _ _ _ a (by decide) (by norm_num) (by norm_num) ha).mpr
      (Or.inl (le_refl 0))⟩

/-- Two resamples of two values, and a negative level: the ends are the wrong way around. -/
theorem negative_ci_low_gt_high :
    ∃ b, bootstrapCi (exactRational [0, 0, 1, 1]) [0, 1] .mean 2 (-1 / 2) 0 200 .linear = .ok b ∧
      b.low = 3 / 4 ∧ b.high = 1 / 4 ∧ ¬ b.low ≤ b.high := by
  have hrows : ∀ i < (2 : ℤ).toNat, resolveStatistic (exactRational [0, 0, 1, 1]) .linear .mean
      (resample (exactRational [0, 0, 1, 1]) [0, 1] 0 (i * [(0 : ℚ), 1].length))
      = .ok (i : ℚ) := by
    intro i hi
    rcases i with _ | _ | i
    · exact congrArg Except.ok (show Numpy.average [0, 0] = 0 by decide +kernel)
    · exact congrArg Except.ok (show Numpy.average [1, 1] = 1 by decide +kernel)
    · omega
  have hpoint : resolveStatistic (exactRational [0, 0, 1, 1]) .linear .mean [0, 1] = .ok (1/2) := by
    exact congrArg Except.ok (show Numpy.average [0, 1] = 1 / 2 by decide +kernel)
  rw [bootstrapCi_eq (by decide) (by decide) (by decide) hpoint hrows]
  dsimp only
  rw [Numpy.percentile_of_ne (by norm_num) (by decide),
    Numpy.percentile_of_ne (by norm_num) (by decide)]
  refine ⟨_, rfl, ?_, ?_, ?_⟩
  · decide +kernel
  · decide +kernel
  · decide +kernel

end TsPacket
