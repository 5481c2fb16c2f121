import Mathlib.Algebra.BigOperators.Group.List.Basic
import Mathlib.Algebra.Field.Rat
import Mathlib.Algebra.Order.Group.Unbundled.Abs
import Mathlib.Algebra.Order.Ring.Rat
import Mathlib.Data.List.ProdSigma
import Mathlib.Data.List.Sort
import Mathlib.Order.WithBot
import TsPacket.Lib.Raise

/-!
# Array functions that fail on nothing

The functions of an array library that a program of statistics calls, over floats that stay
abstract.  What a reduction computes is a parameter; that it has no value on an empty array,
and that a percentile has a level, is not.

## Main definitions

* `Ops` — the operations on floats, on samples, and the random generator.
* `percentile`, `min`, `max`, `mean`, `concatenate` — the functions with their checks.
* `exact` — an instance, on rationals.

## Main results

* `exists_percentile_eq_ok_iff` — a percentile needs a level and a sample.
* `concatenate_of_ne` — something is needed to concatenate.
-/

namespace Numpy

/-- The functions that have no value on an empty array. -/
inductive Reduction
  | percentile
  | min
  | max
  | mean
  | concatenate
  deriving DecidableEq

/-- Why a computation on arrays stops. -/
inductive Error
  /-- A reduction of nothing. -/
  | emptySample (f : Reduction)
  /-- A percentile outside `0..100`. -/
  | percentileRange (q : ℚ)
  /-- An array that was made without values is read before it is written. -/
  | uninitialised
  /-- A loop that does not end. -/
  | diverges
  deriving DecidableEq

/-- How a percentile between two values of the sample is chosen. -/
inductive Method
  | invertedCdf
  | averagedInvertedCdf
  | closestObservation
  | interpolatedInvertedCdf
  | hazen
  | weibull
  | linear
  | medianUnbiased
  | normalUnbiased
  | lower
  | higher
  | midpoint
  | nearest
  deriving DecidableEq

/-- The operations on floats and on samples. -/
structure Ops (F : Type) where
  nan : F
  isNan : F → Bool
  /-- `x == 0`. -/
  isZero : F → Bool
  ofNat : ℕ → F
  abs : F → F
  add : F → F → F
  sub : F → F → F
  mul : F → F → F
  div : F → F → F
  sqrt : F → F
  /-- The percentile of a sample that is not empty, for a level in `0..100`. -/
  percentile : Method → ℚ → List F → F
  /-- The least value of a sample that is not empty. -/
  min : List F → F
  max : List F → F
  mean : List F → F
  /-- The standard deviation with one degree of freedom less than values. -/
  std : List F → F
  /-- The value of a seeded generator at a place of its stream, below `n`. -/
  draw : (seed n place : ℕ) → ℕ
  draw_lt : ∀ seed n place, 0 < n → draw seed n place < n
  /-- The quantile function of Student's distribution. -/
  tPpf : ℚ → ℕ → F
  /-- The statistic and the p-value of the two-sided rank test. -/
  mannWhitney : List F → List F → F × F

variable {F : Type}

/-! ### Checked functions -/

/-- A function of a sample that is not empty. -/
def nonempty (f : Reduction) (reduce : List F → F) (sample : List F) : Except Error F :=
  if sample = [] then .error (.emptySample f) else .ok (reduce sample)

section

variable (np : Ops F)

/-- `np.percentile`: a level outside the range is refused before the sample is looked at. -/
def percentile (method : Method) (q : ℚ) (sample : List F) : Except Error F :=
  if 0 ≤ q ∧ q ≤ 100 then nonempty .percentile (np.percentile method q) sample
  else .error (.percentileRange q)

/-- `arr.min()`. -/
def min (sample : List F) : Except Error F := nonempty .min np.min sample

/-- `arr.max()`. -/
def max (sample : List F) : Except Error F := nonempty .max np.max sample

/-- `arr.mean()`, here of a sample that is not empty. -/
def mean (sample : List F) : Except Error F := nonempty .mean np.mean sample

end

/-- `np.concatenate`, which needs at least one array. -/
def concatenate (samples : List (List F)) : Except Error (List F) :=
  if samples = [] then .error (.emptySample .concatenate) else .ok samples.flatten

/-! ### When they have a value -/

@[simp] theorem nonempty_of_ne {f : Reduction} {reduce : List F → F} {sample : List F}
    (h : sample ≠ []) : nonempty f reduce sample = .ok (reduce sample) := if_neg h

@[simp] theorem concatenate_of_ne {samples : List (List F)} (h : samples ≠ []) :
    concatenate samples = .ok samples.flatten := if_neg h

theorem percentile_of_ne {np : Ops F} {method : Method} {q : ℚ} {sample : List F}
    (hq : 0 ≤ q ∧ q ≤ 100) (h : sample ≠ []) :
    percentile np method q sample = .ok (np.percentile method q sample) := by
  rw [percentile, if_pos hq, nonempty_of_ne h]

theorem exists_nonempty_eq_ok_iff {f : Reduction} {reduce : List F → F} {sample : List F} :
    (∃ x, nonempty f reduce sample = .ok x) ↔ sample ≠ [] := by
  constructor
  · rintro ⟨x, hx⟩ rfl
    cases hx
  · exact fun h => ⟨_, nonempty_of_ne h⟩

theorem nonempty_eq_ok_iff {f : Reduction} {reduce : List F → F} {sample : List F} {y : F} :
    nonempty f reduce sample = .ok y ↔ sample ≠ [] ∧ reduce sample = y := by
  by_cases h : sample = []
  · simp [nonempty, h]
  · simp [nonempty, h]

theorem percentile_eq_ok_iff {np : Ops F} {method : Method} {q : ℚ} {sample : List F} {y : F} :
    percentile np method q sample = .ok y ↔
      (0 ≤ q ∧ q ≤ 100) ∧ sample ≠ [] ∧ np.percentile method q sample = y := by
  rw [percentile]
  by_cases hq : 0 ≤ q ∧ q ≤ 100
  · rw [if_pos hq, nonempty_eq_ok_iff, and_iff_right hq]
  · simp [hq]

/-- A percentile needs a level and a sample. -/
theorem exists_percentile_eq_ok_iff {np : Ops F} {method : Method} {q : ℚ} {sample : List F} :
    (∃ x, percentile np method q sample = .ok x) ↔ (0 ≤ q ∧ q ≤ 100) ∧ sample ≠ [] := by
  rw [percentile]
  by_cases hq : 0 ≤ q ∧ q ≤ 100
  · rw [if_pos hq, exists_nonempty_eq_ok_iff, and_iff_right hq]
  · rw [if_neg hq]
    refine iff_of_false ?_ fun h => hq h.1
    rintro ⟨x, ⟨⟩⟩

/-! ### Exact arithmetic -/

/-- The percentile of a sample by linear interpolation between its sorted values. -/
def linearPercentile (q : ℚ) (sample : List ℚ) : ℚ :=
  let sorted := sample.insertionSort (· ≤ ·)
  let place := q / 100 * (sorted.length - 1)
  let i := place.floor.toNat
  let lo := sorted.getD i 0
  lo + (place - i) * (sorted.getD (i + 1) lo - lo)

/-- The arithmetic mean. -/
def average (sample : List ℚ) : ℚ := sample.sum / sample.length

/-- The square root of a rational that has one. -/
def ratSqrt (x : ℚ) : ℚ := (Nat.sqrt x.num.toNat : ℚ) / Nat.sqrt x.den

/-- The sample variance (`ddof=1`). -/
def variance (sample : List ℚ) : ℚ :=
  (sample.map fun x => (x - average sample) ^ 2).sum / (sample.length - 1)

/-- The values of a sample, if none of them is `nan`. -/
def values : List (WithTop ℚ) → Option (List ℚ)
  | [] => some []
  | ⊤ :: _ => none
  | (v : ℚ) :: xs => (values xs).map (v :: ·)

/-- A function of samples, `nan` if the sample holds one. -/
def lift (f : List ℚ → ℚ) (sample : List (WithTop ℚ)) : WithTop ℚ :=
  match values sample with
  | none => ⊤
  | some vs => (f vs : ℚ)

/-- A function of two values, `nan` if one of them is. -/
def lift₂ (f : ℚ → ℚ → ℚ) : WithTop ℚ → WithTop ℚ → WithTop ℚ
  | (x : ℚ), (y : ℚ) => (f x y : ℚ)
  | _, _ => ⊤

/-- The operations on exact rationals, with `nan` above all of them: an instance to run
programs on.  Percentiles are those of the linear method; the quantile function is no more
than increasing, and the rank test leaves its p-value open. -/
def exact : Ops (WithTop ℚ) where
  nan := ⊤
  isNan x := x = ⊤
  isZero x := x = (0 : ℚ)
  ofNat n := (n : ℚ)
  abs x := x.map fun v => |v|
  add := lift₂ (· + ·)
  sub := lift₂ (· - ·)
  mul := lift₂ (· * ·)
  div := lift₂ (· / ·)
  sqrt x := x.map ratSqrt
  percentile _ q := lift (linearPercentile q)
  min := lift fun sample => sample.min?.getD 0
  max := lift fun sample => sample.max?.getD 0
  mean := lift average
  std := lift fun sample => ratSqrt (variance sample)
  draw _ n place := place % n
  draw_lt _ _ place h := Nat.mod_lt place h
  tPpf p _ := (p - 1 / 2 : ℚ)
  mannWhitney a b :=
    let above := (a ×ˢ b).countP fun p => p.2 < p.1
    let tied := (a ×ˢ b).countP fun p => p.1 = p.2
    (((above : ℚ) + (tied : ℚ) / 2 : ℚ), ⊤)

end Numpy
