import Mathlib.Algebra.BigOperators.Group.List.Basic
import Mathlib.Algebra.Order.Archimedean.Basic
import Mathlib.Algebra.Order.BigOperators.Group.List
import Mathlib.Algebra.Order.Field.Basic
import Mathlib.Algebra.Order.Floor.Semiring
import Mathlib.Data.List.GetD
import Mathlib.Data.List.Sort
import Mathlib.Data.Rat.Cast.Order
import Mathlib.Data.Rat.Floor
import Mathlib.Tactic.Linarith
import Mathlib.Tactic.Positivity

/-!
# Quantiles

The percentile of a sample by linear interpolation between its sorted values.  A sequence of
values is continued to a function of rational places, linear between two neighbours; if the
sequence is increasing so is the function, and it is constant between two places only if the
values all around them are the same.

## Main definitions

* `interpolate` — the value of a sequence at a rational place.
* `orderStat` — the sorted values of a sample.
* `percentile` — the value at a level from 0 to 100.

## Main results

* `interpolate_mono` — interpolation keeps the order of the places.
* `interpolate_le_iff` — **and where it does not separate two places, the values there are the
  same.**
* `percentile_mono`, `percentile_le_iff` — the same for the levels of a percentile.
* `le_percentile`, `percentile_le` — a percentile is inside the sample.
* `percentile_shift`, `mean_shift` — percentiles and means move with the sample.
-/

namespace Quantile

/-! ### Levels -/

/-- The place of a level in a sample of `n` values. -/
def place (n : ℕ) (q : ℚ) : ℚ := q / 100 * (n - 1)

section

variable {n : ℕ} {q q' : ℚ}

theorem place_nonneg (hn : 0 < n) (hq : 0 ≤ q) : 0 ≤ place n q := by
  have hone : (1 : ℚ) ≤ n := Nat.one_le_cast.mpr hn
  apply mul_nonneg
  · positivity
  · linarith

theorem place_mono (hn : 0 < n) (hqq : q ≤ q') : place n q ≤ place n q' := by
  have hone : (1 : ℚ) ≤ n := Nat.one_le_cast.mpr hn
  apply mul_le_mul_of_nonneg_right <;> linarith

theorem place_length_nonneg {α : Type} {l : List α} (hne : l ≠ []) (hq : 0 ≤ q) :
    0 ≤ place l.length q := place_nonneg (List.length_pos_iff.mpr hne) hq

theorem place_length_mono {α : Type} {l : List α} (hne : l ≠ []) (hqq : q ≤ q') :
    place l.length q ≤ place l.length q' := place_mono (List.length_pos_iff.mpr hne) hqq

end

/-! ### Sorted values -/

section

variable {α : Type} [LinearOrder α] [Zero α]

/-- The sorted values of a sample; past the last there is no other. -/
def orderStat (l : List α) (i : ℕ) : α :=
  (l.insertionSort (· ≤ ·)).getD (min i (l.length - 1)) 0

theorem orderStat_mem {l : List α} (hne : l ≠ []) (i : ℕ) : orderStat l i ∈ l := by
  have hpos : 0 < l.length := List.length_pos_iff.mpr hne
  have hlt : min i (l.length - 1) < (l.insertionSort (· ≤ ·)).length := by
    rw [List.length_insertionSort]
    omega
  rw [orderStat, List.getD_eq_getElem _ _ hlt]
  exact (List.mem_insertionSort _).mp (List.getElem_mem hlt)

theorem orderStat_mono (l : List α) : Monotone (orderStat l) := by
  intro i j hij
  by_cases hne : l = []
  · subst hne
    simp [orderStat]
  · have hpos : 0 < l.length := List.length_pos_iff.mpr hne
    have hlen : (l.insertionSort (· ≤ ·)).length = l.length := List.length_insertionSort _ l
    have hi : min i (l.length - 1) < (l.insertionSort (· ≤ ·)).length := by omega
    have hj : min j (l.length - 1) < (l.insertionSort (· ≤ ·)).length := by omega
    rw [orderStat, orderStat, List.getD_eq_getElem _ _ hi, List.getD_eq_getElem _ _ hj]
    rcases lt_or_eq_of_le (min_le_min_right (l.length - 1) hij) with hlt | heq
    · exact List.pairwise_iff_getElem.mp (List.pairwise_insertionSort _ l) _ _ hi hj hlt
    · simp [heq]

end

variable {F : Type} [Field F] [LinearOrder F] [IsStrictOrderedRing F]

/-! ### Interpolation -/

/-- The value at place `t`: that at the place before it, and a part of the way to the next. -/
def interpolate (b : ℕ → F) (t : ℚ) : F :=
  b ⌊t⌋₊ + ((t - ⌊t⌋₊ : ℚ) : F) * (b (⌊t⌋₊ + 1) - b ⌊t⌋₊)

section

variable {b : ℕ → F} {s t : ℚ}

theorem fract_nonneg (ht : 0 ≤ t) : (0 : F) ≤ ((t - ⌊t⌋₊ : ℚ) : F) := by
  have hfloor := Nat.floor_le ht
  rw [Rat.cast_nonneg]
  linarith

theorem fract_lt_one (t : ℚ) : ((t - ⌊t⌋₊ : ℚ) : F) < 1 := by
  have hfloor := Nat.lt_floor_add_one t
  rw [← Rat.cast_one, Rat.cast_lt]
  linarith

variable (hb : Monotone b)
include hb

theorem step_nonneg (i : ℕ) : 0 ≤ b (i + 1) - b i := sub_nonneg.mpr (hb (Nat.le_succ i))

theorem step_pos {i : ℕ} (h : b (i + 1) - b i ≠ 0) : 0 < b (i + 1) - b i :=
  lt_of_le_of_ne (step_nonneg hb i) (Ne.symm h)

/-- The value is not less than that before it. -/
theorem le_interpolate (ht : 0 ≤ t) : b ⌊t⌋₊ ≤ interpolate b t :=
  le_add_of_nonneg_right (mul_nonneg (fract_nonneg ht) (step_nonneg hb _))

/-- The value is not more than that after it. -/
theorem interpolate_le_succ (t : ℚ) : interpolate b t ≤ b (⌊t⌋₊ + 1) := by
  have hpart := mul_le_of_le_one_left (step_nonneg hb ⌊t⌋₊) (fract_lt_one (F := F) t).le
  rw [interpolate]
  linarith

/-- It is that before it only if there is nothing to go on to. -/
theorem eq_ceil_of_interpolate_eq (h : interpolate b t = b ⌊t⌋₊) :
    b ⌈t⌉₊ = b ⌊t⌋₊ := by
  have hzero : ((t - ⌊t⌋₊ : ℚ) : F) * (b (⌊t⌋₊ + 1) - b ⌊t⌋₊) = 0 := by
    rw [interpolate] at h
    linarith
  rcases mul_eq_zero.mp hzero with hfract | hstep
  · -- the place is a whole number
    rw [Rat.cast_eq_zero, sub_eq_zero] at hfract
    rw [hfract, Nat.ceil_natCast, Nat.floor_natCast]
  · have hle : b ⌈t⌉₊ ≤ b (⌊t⌋₊ + 1) := hb (Nat.ceil_le_floor_add_one t)
    have hge : b ⌊t⌋₊ ≤ b ⌈t⌉₊ := hb (Nat.floor_le_ceil t)
    rw [sub_eq_zero] at hstep
    exact le_antisymm (hle.trans hstep.le) hge

theorem interpolate_le (ht : 0 ≤ t) : interpolate b t ≤ b ⌈t⌉₊ := by
  by_cases hceil : ⌈t⌉₊ = ⌊t⌋₊ + 1
  · rw [hceil]
    exact interpolate_le_succ hb t
  · have hfloor : t = ⌊t⌋₊ := by
      have hle := Nat.ceil_le_floor_add_one t
      have hcf : ⌈t⌉₊ ≤ ⌊t⌋₊ := by omega
      have hup : (⌈t⌉₊ : ℚ) ≤ ⌊t⌋₊ := Nat.cast_le.mpr hcf
      exact le_antisymm ((Nat.le_ceil t).trans hup) (Nat.floor_le ht)
    have hfract : (t - ⌊t⌋₊ : ℚ) = 0 := sub_eq_zero.mpr hfloor
    rw [interpolate, hfract, Rat.cast_zero, zero_mul, add_zero]
    exact hb (Nat.floor_le_ceil t)

/-- **Interpolation keeps the order of the places.** -/
theorem interpolate_mono (hs : 0 ≤ s) (hst : s ≤ t) : interpolate b s ≤ interpolate b t := by
  rcases lt_or_eq_of_le (Nat.floor_mono hst) with hlt | heq
  · calc interpolate b s
        ≤ b (⌊s⌋₊ + 1) := interpolate_le_succ hb s
      _ ≤ b ⌊t⌋₊ := hb hlt
      _ ≤ interpolate b t := le_interpolate hb (hs.trans hst)
  · have hle : ((s - ⌊s⌋₊ : ℚ) : F) ≤ ((t - ⌊s⌋₊ : ℚ) : F) := by
      rw [Rat.cast_le]
      linarith
    rw [interpolate, interpolate, ← heq]
    exact add_le_add_right (mul_le_mul_of_nonneg_right hle (step_nonneg hb _)) _

/-- It is that after it only if there was nothing to go on to. -/
theorem eq_succ_of_interpolate_eq (h : interpolate b s = b (⌊s⌋₊ + 1)) :
    b (⌊s⌋₊ + 1) = b ⌊s⌋₊ := by
  by_contra hne
  have hpart := mul_lt_of_lt_one_left (step_pos hb (sub_ne_zero.mpr hne)) (fract_lt_one (F := F) s)
  rw [interpolate] at h
  linarith

/-- Two places between the same neighbours have the same value only if these have. -/
theorem eq_succ_of_interpolate_eq_interpolate (hst : s < t) (hfloor : ⌊s⌋₊ = ⌊t⌋₊)
    (h : interpolate b s = interpolate b t) : b (⌊s⌋₊ + 1) = b ⌊s⌋₊ := by
  have hfract : ((s - ⌊s⌋₊ : ℚ) : F) < ((t - ⌊s⌋₊ : ℚ) : F) := by
    rw [Rat.cast_lt]
    linarith
  by_contra hne
  have hpart := mul_lt_mul_of_pos_right hfract (step_pos hb (sub_ne_zero.mpr hne))
  rw [interpolate, interpolate, ← hfloor] at h
  linarith

/-- **Two places have the same value** only if the values around them are the same. -/
theorem interpolate_le_iff (hs : 0 ≤ s) (hst : s < t) :
    interpolate b t ≤ interpolate b s ↔ b ⌊s⌋₊ = b ⌈t⌉₊ := by
  have ht : 0 ≤ t := hs.trans hst.le
  constructor
  · intro hle
    have heq : interpolate b s = interpolate b t := le_antisymm (interpolate_mono hb hs hst.le) hle
    rcases lt_or_eq_of_le (Nat.floor_mono hst.le) with hlt | hfloor
    · -- a whole number is between them, and both have its value
      have hnext : b (⌊s⌋₊ + 1) ≤ b ⌊t⌋₊ := hb hlt
      have hup := interpolate_le_succ hb s
      have hlow := le_interpolate hb ht
      have hstep : b (⌊s⌋₊ + 1) = b ⌊s⌋₊ := eq_succ_of_interpolate_eq hb (by linarith)
      have hceil : b ⌈t⌉₊ = b ⌊t⌋₊ := eq_ceil_of_interpolate_eq hb (by linarith)
      linarith
    · have hstep := eq_succ_of_interpolate_eq_interpolate hb hst hfloor heq
      have hceil : b ⌈t⌉₊ ≤ b (⌊s⌋₊ + 1) := by
        rw [hfloor]
        exact hb (Nat.ceil_le_floor_add_one t)
      have hge : b ⌊s⌋₊ ≤ b ⌈t⌉₊ := by
        rw [hfloor]
        exact hb (Nat.floor_le_ceil t)
      linarith
  · intro h
    calc interpolate b t
        ≤ b ⌈t⌉₊ := interpolate_le hb ht
      _ = b ⌊s⌋₊ := h.symm
      _ ≤ interpolate b s := le_interpolate hb hs

end

/-! ### Percentiles -/

/-- The percentile of a sample by linear interpolation. -/
def percentile (q : ℚ) (l : List F) : F := interpolate (orderStat l) (place l.length q)

section

variable {l : List F} {q q' : ℚ}

/-- **Of two levels the higher has the higher percentile.** -/
theorem percentile_mono (hne : l ≠ []) (hq : 0 ≤ q) (hqq : q ≤ q') :
    percentile q l ≤ percentile q' l :=
  interpolate_mono (orderStat_mono l) (place_length_nonneg hne hq) (place_length_mono hne hqq)

/-- **Two levels have the same percentile** only if the sorted values around them are the same. -/
theorem percentile_le_iff (hne : l ≠ []) (hq : 0 ≤ q) (hqq : q < q') :
    percentile q' l ≤ percentile q l ↔
      orderStat l ⌊place l.length q⌋₊ = orderStat l ⌈place l.length q'⌉₊ := by
  rcases lt_or_eq_of_le (place_length_mono hne hqq.le) with hlt | heq
  · exact interpolate_le_iff (orderStat_mono l) (place_length_nonneg hne hq) hlt
  · -- of a single value all levels are in one place
    have hone : l.length = 1 := by
      have hzero : (q' - q) * ((l.length : ℚ) - 1) = 0 := by
        rw [place, place] at heq
        linarith
      rcases mul_eq_zero.mp hzero with h | h
      · linarith
      · exact_mod_cast sub_eq_zero.mp h
    rw [percentile, percentile, heq]
    refine iff_of_true (le_refl _) ?_
    simp [orderStat, hone]

/-- **A percentile is inside the sample.** -/
theorem le_percentile (hne : l ≠ []) (hq : 0 ≤ q) {m : F} (hm : ∀ x ∈ l, m ≤ x) :
    m ≤ percentile q l :=
  (hm _ (orderStat_mem hne _)).trans
    (le_interpolate (orderStat_mono l) (place_length_nonneg hne hq))

theorem percentile_le (hne : l ≠ []) (hq : 0 ≤ q) {m : F} (hm : ∀ x ∈ l, x ≤ m) :
    percentile q l ≤ m :=
  (interpolate_le (orderStat_mono l) (place_length_nonneg hne hq)).trans
    (hm _ (orderStat_mem hne _))

end

/-! ### Means -/

theorem le_mean {l : List F} (hne : l ≠ []) {m : F} (hm : ∀ x ∈ l, m ≤ x) :
    m ≤ l.sum / l.length := by
  have hpos : (0 : F) < l.length := Nat.cast_pos.mpr (List.length_pos_iff.mpr hne)
  have hsum := List.card_nsmul_le_sum l m hm
  rw [le_div_iff₀ hpos, mul_comm, ← nsmul_eq_mul]
  exact hsum

theorem mean_le {l : List F} (hne : l ≠ []) {m : F} (hm : ∀ x ∈ l, x ≤ m) :
    l.sum / l.length ≤ m := by
  have hpos : (0 : F) < l.length := Nat.cast_pos.mpr (List.length_pos_iff.mpr hne)
  have hsum := List.sum_le_card_nsmul l m hm
  rw [div_le_iff₀ hpos, mul_comm, ← nsmul_eq_mul]
  exact hsum

/-! ### Shifts -/

section

variable {l : List F} (c : F)

theorem orderStat_shift (hne : l ≠ []) (i : ℕ) :
    orderStat (l.map (· + c)) i = orderStat l i + c := by
  have hpos : 0 < l.length := List.length_pos_iff.mpr hne
  have hlt : min i (l.length - 1) < (l.insertionSort (· ≤ ·)).length := by
    rw [List.length_insertionSort]
    omega
  have hsort : (l.map (· + c)).insertionSort (· ≤ ·) = (l.insertionSort (· ≤ ·)).map (· + c) :=
    (List.map_insertionSort (· ≤ ·) (· ≤ ·) _ _ fun x _ y _ => (add_le_add_iff_right c).symm).symm
  have hlt' : min i (l.length - 1) < ((l.insertionSort (· ≤ ·)).map (· + c)).length := by
    rw [List.length_map]
    exact hlt
  rw [orderStat, orderStat, hsort, List.length_map, List.getD_eq_getElem _ _ hlt,
    List.getD_eq_getElem _ _ hlt', List.getElem_map]

/-- **A percentile moves with the sample.** -/
theorem percentile_shift (hne : l ≠ []) (q : ℚ) :
    percentile q (l.map (· + c)) = percentile q l + c := by
  rw [percentile, percentile, interpolate, interpolate, List.length_map, orderStat_shift c hne,
    orderStat_shift c hne]
  ring

omit [LinearOrder F] [IsStrictOrderedRing F] in
theorem sum_shift (l : List F) : (l.map (· + c)).sum = l.sum + l.length * c := by
  rw [List.sum_map_add, List.map_id'', List.map_const', List.sum_replicate, nsmul_eq_mul]
  exact fun x => rfl

/-- **So does the mean.** -/
theorem mean_shift (hne : l ≠ []) :
    (l.map (· + c)).sum / ((l.map (· + c)).length : F) = l.sum / l.length + c := by
  have hlen : (l.length : F) ≠ 0 := Nat.cast_ne_zero.mpr (mt List.length_eq_zero_iff.mp hne)
  rw [sum_shift, List.length_map, add_div, mul_div_cancel_left₀ _ hlen]

end

end Quantile
