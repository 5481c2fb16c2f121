import Mathlib.Algebra.Order.BigOperators.Group.List
import Mathlib.Algebra.Order.Field.Rat
import Mathlib.Data.Int.Log
import Mathlib.Data.Rat.Floor
import Mathlib.Tactic.FieldSimp
import Mathlib.Tactic.Linarith
import Mathlib.Tactic.Ring

/-!
# Rounding to double precision

A double is a rational with a significand of 53 bits.  The exponent is not bounded here, so
nothing overflows and nothing is subnormal: the values that are rounded are counts of what a
file holds and quotients of such counts.

## Main definitions

* `roundEven` — the nearest integer, the even one of two.
* `nearest` — the nearest double.
* `sum` — the sum that adds one value after the other.

## Main results

* `nearest_intCast` — **integers of 53 bits are doubles.**
* `abs_nearest_sub_le` — every other value moves by at most one part in `2 ^ 53`.
* `sum_intCast` — a sum of integers that stays below `2 ^ 53` is exact.
-/

namespace Binary64

/-! ### The nearest integer -/

/-- The nearest integer, the even one of two. -/
def roundEven (x : ℚ) : ℤ :=
  let below := ⌊x⌋
  if x - below < 1 / 2 then below
  else if 1 / 2 < x - below then below + 1
  else if below % 2 = 0 then below
  else below + 1

theorem roundEven_intCast (z : ℤ) : roundEven z = z := by
  have hhalf : (z : ℚ) - z < 1 / 2 := by
    rw [sub_self]
    norm_num
  rw [roundEven, Int.floor_intCast]
  exact if_pos hhalf

theorem abs_roundEven_sub_le (x : ℚ) : |(roundEven x : ℚ) - x| ≤ 1 / 2 := by
  have hlow := Int.floor_le x
  have hhigh := Int.lt_floor_add_one x
  -- the floor is near when at most half is cut off, else the next integer
  have hbelow : x - ⌊x⌋ ≤ 1 / 2 → |((⌊x⌋ : ℤ) : ℚ) - x| ≤ 1 / 2 := fun h =>
    abs_le.mpr ⟨by linarith, by linarith⟩
  have habove : 1 / 2 ≤ x - ⌊x⌋ → |((⌊x⌋ + 1 : ℤ) : ℚ) - x| ≤ 1 / 2 := by
    intro h
    rw [Int.cast_add, Int.cast_one]
    exact abs_le.mpr ⟨by linarith, by linarith⟩
  rw [roundEven]
  split_ifs with hlt hgt heven
  · exact hbelow hlt.le
  · exact habove hgt.le
  · exact hbelow (not_lt.mp hgt)
  · exact habove (not_lt.mp hlt)

/-! ### The nearest double -/

/-- The distance of the doubles around `x`: the weight of the last of 53 bits. -/
def ulp (x : ℚ) : ℚ := 2 ^ (Int.log 2 |x| - 52)

/-- The nearest double, the one with an even significand of two. -/
def nearest (x : ℚ) : ℚ := roundEven (x / ulp x) * ulp x

theorem ulp_pos (x : ℚ) : 0 < ulp x := zpow_pos two_pos _

/-- What is a multiple of its last bit is a double. -/
theorem nearest_of_multiple {x : ℚ} {k : ℤ} (h : x = k * ulp x) : nearest x = x := by
  have hquot : x / ulp x = k := by
    rw [div_eq_iff (ulp_pos x).ne']
    exact h
  rw [nearest, hquot, roundEven_intCast]
  exact h.symm

@[simp]
theorem nearest_zero : nearest 0 = 0 :=
  nearest_of_multiple (k := 0) (by rw [Int.cast_zero, zero_mul])

/-- **Integers of 53 bits are doubles.** -/
theorem nearest_intCast {z : ℤ} (hz : |z| < 2 ^ 53) : nearest z = z := by
  by_cases hzero : z = 0
  · rw [hzero, Int.cast_zero, nearest_zero]
  · have habs : |(z : ℚ)| = ((z.natAbs : ℕ) : ℚ) := by
      rw [← Int.cast_abs, Int.abs_eq_natAbs, Int.cast_natCast]
    have hlog : Nat.log 2 z.natAbs < 53 := by
      apply Nat.log_lt_of_lt_pow (Int.natAbs_ne_zero.mpr hzero)
      rw [Int.abs_eq_natAbs] at hz
      omega
    -- the last bit is worth a power of two below one, so it divides the integer
    obtain ⟨j, hj⟩ : ∃ j : ℕ, Nat.log 2 z.natAbs + j = 52 := ⟨52 - Nat.log 2 z.natAbs, by omega⟩
    have hulp : ulp (z : ℚ) = ((2 : ℚ) ^ j)⁻¹ := by
      rw [ulp, habs, Int.log_natCast, ← zpow_natCast, ← zpow_neg]
      congr 1
      omega
    apply nearest_of_multiple (k := z * 2 ^ j)
    rw [hulp, Int.cast_mul, Int.cast_pow, Int.cast_ofNat]
    field_simp

/-! ### The error -/

theorem ulp_le {x : ℚ} (hx : x ≠ 0) : ulp x ≤ |x| / 2 ^ 52 := by
  have hlog : (2 : ℚ) ^ Int.log 2 |x| ≤ |x| := by
    have h := Int.zpow_log_le_self (R := ℚ) (b := 2) (by norm_num) (abs_pos.mpr hx)
    exact_mod_cast h
  have hulp : ulp x = 2 ^ Int.log 2 |x| / 2 ^ 52 := by
    rw [ulp, zpow_sub₀ two_ne_zero]
    rfl
  rw [hulp]
  exact div_le_div_of_nonneg_right hlog (by positivity)

/-- **Rounding moves a value by at most one part in `2 ^ 53`.** -/
theorem abs_nearest_sub_le (x : ℚ) : |nearest x - x| ≤ |x| / 2 ^ 53 := by
  by_cases hx : x = 0
  · rw [hx, nearest_zero, sub_self, abs_zero, zero_div]
  · have hpos := ulp_pos x
    have hround := abs_roundEven_sub_le (x / ulp x)
    -- the error is counted in units in the last place
    have hscale : nearest x - x = (roundEven (x / ulp x) - x / ulp x) * ulp x := by
      rw [sub_mul, div_mul_cancel₀ _ hpos.ne', nearest]
    calc |nearest x - x| = |(roundEven (x / ulp x) : ℚ) - x / ulp x| * ulp x := by
          rw [hscale, abs_mul, abs_of_pos hpos]
      _ ≤ 1 / 2 * ulp x := mul_le_mul_of_nonneg_right hround hpos.le
      _ ≤ 1 / 2 * (|x| / 2 ^ 52) := by
          have := ulp_le hx
          linarith
      _ = |x| / 2 ^ 53 := by ring

/-- The bounds for a value that is not negative. -/
theorem nearest_bounds {x : ℚ} (hx : 0 ≤ x) :
    x - x / 2 ^ 53 ≤ nearest x ∧ nearest x ≤ x + x / 2 ^ 53 := by
  have h := abs_nearest_sub_le x
  rw [abs_of_nonneg hx, abs_le] at h
  exact ⟨by linarith [h.1], by linarith [h.2]⟩

theorem nearest_nonneg {x : ℚ} (hx : 0 ≤ x) : 0 ≤ nearest x := by
  have h := (nearest_bounds hx).1
  have hle : x / 2 ^ 53 ≤ x := div_le_self hx (by norm_num)
  linarith

/-! ### Sums -/

/-- The sum of doubles, rounded after every one of them.  An implementation that keeps track
of what is rounded away gives the same wherever nothing is. -/
def sum (xs : List ℚ) : ℚ := xs.foldl (fun s x => nearest (s + x)) 0

theorem foldl_intCast {zs : List ℤ} (hzs : ∀ z ∈ zs, 0 ≤ z) :
    ∀ a : ℤ, 0 ≤ a → a + zs.sum < 2 ^ 53 →
      (zs.map (Int.cast : ℤ → ℚ)).foldl (fun s x => nearest (s + x)) a
        = ((a + zs.sum : ℤ) : ℚ) := by
  induction zs with
  | nil =>
    intro a _ _
    rw [List.map_nil, List.foldl_nil, List.sum_nil, add_zero]
  | cons z zs ih =>
    rw [List.forall_mem_cons] at hzs
    obtain ⟨hz, hzs⟩ := hzs
    intro a ha hlt
    have hrest : 0 ≤ zs.sum := List.sum_nonneg hzs
    rw [List.sum_cons] at hlt ⊢
    -- a partial sum is an integer below 2^53, which needs no rounding
    have hstep : nearest ((a : ℚ) + (z : ℚ)) = ((a + z : ℤ) : ℚ) := by
      rw [← Int.cast_add]
      exact nearest_intCast (by rw [abs_of_nonneg (add_nonneg ha hz)]; omega)
    rw [List.map_cons, List.foldl_cons, hstep, ih hzs (a + z) (add_nonneg ha hz) (by omega),
      add_assoc]

/-- **A sum of integers that are not negative is exact** below `2 ^ 53`. -/
theorem sum_intCast {zs : List ℤ} (hzs : ∀ z ∈ zs, 0 ≤ z) (hsum : zs.sum < 2 ^ 53) :
    sum (zs.map (Int.cast : ℤ → ℚ)) = (zs.sum : ℤ) := by
  have h := foldl_intCast hzs 0 le_rfl (by rw [zero_add]; exact hsum)
  rw [Int.cast_zero, zero_add] at h
  exact h

/-- The sum of integers made doubles first, each of them at most a term of a small sum. -/
theorem sum_nearest {ι : Type} {xs : List ι} {f g : ι → ℤ} (hf : ∀ x ∈ xs, 0 ≤ f x ∧ f x ≤ g x)
    (hsum : (xs.map g).sum < 2 ^ 53) :
    sum (xs.map fun x => nearest (f x)) = ((xs.map f).sum : ℤ) := by
  have hle : (xs.map f).sum ≤ (xs.map g).sum := List.sum_le_sum fun x hx => (hf x hx).2
  have hnonneg : ∀ z ∈ xs.map f, 0 ≤ z := List.forall_mem_map.mpr fun x hx => (hf x hx).1
  have hexact : xs.map (fun x => nearest (f x)) = (xs.map f).map (Int.cast : ℤ → ℚ) := by
    rw [List.map_map]
    refine List.map_congr_left fun x hx => nearest_intCast ?_
    have hterm := List.single_le_sum hnonneg _ (List.mem_map_of_mem (f := f) hx)
    rw [abs_of_nonneg (hf x hx).1]
    omega
  rw [hexact, sum_intCast hnonneg (by omega)]

end Binary64
