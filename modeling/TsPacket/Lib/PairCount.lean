import Mathlib.Algebra.BigOperators.Group.List.Basic
import Mathlib.Algebra.GroupWithZero.Nat
import Mathlib.Data.List.ProdSigma
import Mathlib.Data.List.Sort
import Mathlib.Order.Lattice
import Mathlib.Order.Monotone.Basic
import Mathlib.Tactic.Common

/-!
# Counting ordered pairs

How often an element of one sample exceeds one of another.  The definition counts pairs;
a program that sorts one of the samples can count by insertion points instead, and the two
agree, ties and repetitions included.

## Main definitions

* `searchLeft`, `searchRight` — the first index of a value that is not below, or above,
  the one searched for.
* `above`, `below` — how many pairs of two samples are in one order, or in the other.

## Main results

* `searchLeft_eq_countP`, `length_sub_searchRight` — in a sorted sample the insertion
  points count what is below and what is above.
* `sum_countP_lt`, `sum_countP_gt` — these counts added up are the ordered pairs.
* `above_comm`, `above_perm`, `above_map`, `above_add_below_le` — what the number of pairs
  does not depend on, and its bound.
-/

namespace PairCount

variable {α : Type}

/-! ### Counting in lists and in products -/

/-- Where a property of a sample, once lost, stays lost, the first index without it is the
number of elements that have it. -/
theorem findIdx_not_eq_countP {p : α → Bool} {b : List α}
    (hmono : b.Pairwise fun x y => p y = true → p x = true) :
    (b.findIdx fun y => !p y) = b.countP p := by
  induction b with
  | nil => rfl
  | cons y b ih =>
    obtain ⟨hhead, htail⟩ := List.pairwise_cons.mp hmono
    rw [List.findIdx_cons, List.countP_cons]
    by_cases hy : p y = true
    · rw [hy, Bool.not_true, cond_false, ih htail, if_pos rfl]
    · -- from the head on nothing has the property
      have hzero : b.countP p = 0 := List.countP_eq_zero.mpr fun z hz hpz => hy (hhead z hz hpz)
      rw [Bool.eq_false_iff.mpr hy, Bool.not_false, cond_true, hzero, if_neg Bool.false_ne_true]

/-- Pairs are counted row by row. -/
theorem countP_product (p : α × α → Bool) (a b : List α) :
    (a ×ˢ b).countP p = (a.map fun x => b.countP fun y => p (x, y)).sum := by
  induction a with
  | nil => rfl
  | cons x a ih =>
    rw [List.product_cons, List.countP_append, List.countP_map, List.map_cons, List.sum_cons, ih]
    rfl

/-- Pairs are counted column by column as well. -/
theorem countP_product_cons_right (p : α × α → Bool) (a : List α) (y : α) (b : List α) :
    (a ×ˢ (y :: b)).countP p = (a.countP fun x => p (x, y)) + (a ×ˢ b).countP p := by
  induction a with
  | nil => rfl
  | cons x a ih =>
    rw [List.product_cons, List.product_cons, List.countP_append, List.countP_append, ih,
      List.map_cons, List.countP_cons, List.countP_cons]
    omega

variable [LinearOrder α]

/-! ### Insertion points -/

/-- The first index of an element that is at least `x`. -/
def searchLeft (b : List α) (x : α) : ℕ := b.findIdx fun y => x ≤ y

/-- The first index of an element above `x`. -/
def searchRight (b : List α) (x : α) : ℕ := b.findIdx fun y => x < y

/-- **In a sorted sample the left insertion point counts what is below.** -/
theorem searchLeft_eq_countP {b : List α} (hb : b.Pairwise (· ≤ ·)) (x : α) :
    searchLeft b x = b.countP fun y => y < x := by
  have hmono : b.Pairwise fun y z => decide (z < x) = true → decide (y < x) = true :=
    hb.imp fun hyz hz => decide_eq_true (lt_of_le_of_lt hyz (of_decide_eq_true hz))
  rw [← findIdx_not_eq_countP hmono, searchLeft]
  congr 1
  funext y
  rw [← decide_not]
  exact decide_eq_decide.mpr not_lt.symm

/-- **The right insertion point counts what is not above**, so that the rest is. -/
theorem length_sub_searchRight {b : List α} (hb : b.Pairwise (· ≤ ·)) (x : α) :
    b.length - searchRight b x = b.countP fun y => x < y := by
  have hmono : b.Pairwise fun y z => decide (z ≤ x) = true → decide (y ≤ x) = true :=
    hb.imp fun hyz hz => decide_eq_true (le_trans hyz (of_decide_eq_true hz))
  have hright : searchRight b x = b.countP fun y => y ≤ x := by
    rw [← findIdx_not_eq_countP hmono, searchRight]
    congr 1
    funext y
    rw [← decide_not]
    exact decide_eq_decide.mpr not_le.symm
  have hsplit := List.length_eq_countP_add_countP (fun y => decide (y ≤ x)) (l := b)
  have hrest : (b.countP fun y => decide ¬ decide (y ≤ x) = true) = b.countP fun y => x < y := by
    apply List.countP_congr
    intro y _
    simp
  rw [hright]
  omega

/-! ### Pairs -/

/-- How many pairs of the two samples have the larger element first. -/
def above (a b : List α) : ℕ := (a ×ˢ b).countP fun p => p.2 < p.1

/-- How many pairs have the smaller element first. -/
def below (a b : List α) : ℕ := (a ×ˢ b).countP fun p => p.1 < p.2

theorem sum_countP_lt (a b : List α) :
    (a.map fun x => b.countP fun y => y < x).sum = above a b := by
  rw [above, countP_product]

theorem sum_countP_gt (a b : List α) :
    (a.map fun x => b.countP fun y => x < y).sum = below a b := by
  rw [below, countP_product]

/-- **Exchanging the samples exchanges the orders.** -/
theorem above_comm (a b : List α) : above b a = below a b := by
  rw [above, below]
  induction a with
  | nil =>
    rw [List.product_nil, List.nil_product]
    rfl
  | cons x a ih =>
    rw [countP_product_cons_right, ih, List.product_cons, List.countP_append, List.countP_map]
    rfl

/-- The order of the elements does not matter. -/
theorem above_perm {a a' b b' : List α} (ha : a'.Perm a) (hb : b'.Perm b) :
    above a' b' = above a b := by
  rw [← sum_countP_lt, ← sum_countP_lt]
  have hrow : (fun x => b'.countP fun y => decide (y < x))
      = fun x => b.countP fun y => decide (y < x) := funext fun x => hb.countP_eq _
  rw [hrow]
  exact (ha.map _).sum_eq

/-- A strictly increasing map keeps the order of a pair. -/
theorem above_map {β : Type} [LinearOrder β] {f : α → β} (hf : StrictMono f) (a b : List α) :
    above (a.map f) (b.map f) = above a b := by
  rw [← sum_countP_lt, ← sum_countP_lt, List.map_map]
  congr 2
  funext x
  rw [Function.comp_apply, List.countP_map]
  refine List.countP_congr fun y _ => ?_
  rw [Function.comp_apply, decide_eq_true_iff, decide_eq_true_iff]
  exact hf.lt_iff_lt

/-- A pair is in one order at most. -/
theorem above_add_below_le (a b : List α) : above a b + below a b ≤ a.length * b.length := by
  have hle : below a b ≤ (a ×ˢ b).countP fun p => decide ¬ decide (p.2 < p.1) = true := by
    refine List.countP_mono_left fun p _ hp => ?_
    have hlt : p.1 < p.2 := of_decide_eq_true hp
    simpa using le_of_lt hlt
  rw [← List.length_product, List.length_eq_countP_add_countP (fun p => decide (p.2 < p.1))]
  exact Nat.add_le_add_left hle _

/-- All pairs are in one order exactly if every element of the first sample exceeds every
element of the second. -/
theorem above_eq_iff (a b : List α) :
    above a b = a.length * b.length ↔ ∀ x ∈ a, ∀ y ∈ b, y < x := by
  rw [above, ← List.length_product, List.countP_eq_length]
  constructor
  · exact fun h x hx y hy => of_decide_eq_true (h (x, y) (List.mem_product.mpr ⟨hx, hy⟩))
  · rintro h ⟨x, y⟩ hp
    obtain ⟨hx, hy⟩ := List.mem_product.mp hp
    exact decide_eq_true (h x hx y hy)

end PairCount
