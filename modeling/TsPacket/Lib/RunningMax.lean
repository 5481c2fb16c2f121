import Mathlib.Data.List.Basic
import Mathlib.Order.Lattice
import Mathlib.Tactic.Common

/-!
# The running maximum of a sequence

An element of a sequence is late when a larger one came before it.  Two programs count
the late ones: a vectorised one, which compares each element with the maximum
accumulated before it (`late`), and a loop that carries the maximum (`lateFrom`).  Both
count exactly the positions that are late (`IsLate`).

## Main definitions

* `accumulate`, `late` — the running maxima, and the elements below the one before.
* `lateFrom` — the loop.
* `IsLate` — a larger element stands at an earlier position.

## Main results

* `late_cons` — the two programs agree.
* `late_eq_countP` — **what they count is the late positions.**
* `late_of_pairwise` — in a sequence in order nothing is late.
-/

namespace RunningMax

variable {α : Type} [LinearOrder α]

/-- The maxima of `m` and each prefix. -/
def scanMax : α → List α → List α
  | _, [] => []
  | m, x :: l => max m x :: scanMax (max m x) l

/-- The running maximum, element by element. -/
def accumulate : List α → List α
  | [] => []
  | x :: l => x :: scanMax x l

/-- How many elements are below the maximum of those before them. -/
def late (l : List α) : ℕ := (l.tail.zip (accumulate l).dropLast).countP fun p => p.1 < p.2

/-- The same by a loop that carries the maximum so far. -/
def lateFrom : α → List α → ℕ
  | _, [] => 0
  | m, x :: l => if x < m then lateFrom m l + 1 else lateFrom x l

/-- A larger element stands before position `i`. -/
def IsLate (l : List α) (i : ℕ) : Prop := ∃ j < i, ∃ x ∈ l[i]?, ∃ y ∈ l[j]?, x < y

instance (l : List α) (i : ℕ) : Decidable (IsLate l i) :=
  inferInstanceAs (Decidable (∃ _ < _, _))

/-- **The vectorised count is the loop's.** -/
theorem late_cons (x : α) (l : List α) : late (x :: l) = lateFrom x l := by
  rw [late, accumulate, List.tail_cons]
  induction l generalizing x with
  | nil => rfl
  | cons y l ih =>
    rw [scanMax, List.dropLast_cons_cons, List.zip_cons_cons, List.countP_cons, ih, lateFrom]
    by_cases hlt : y < x
    · rw [if_pos hlt, max_eq_left (le_of_lt hlt), if_pos (decide_eq_true hlt)]
    · rw [if_neg hlt, max_eq_right (not_lt.mp hlt), if_neg (by simp [hlt]), Nat.add_zero]

/-- An element after the history `h` is late if it is below the greatest one there. -/
theorem isLate_append_cons {h l : List α} {m x : α} (hm : m ∈ h) (hmax : ∀ y ∈ h, y ≤ m) :
    IsLate (h ++ x :: l) h.length ↔ x < m := by
  have hx : (h ++ x :: l)[h.length]? = some x := by
    rw [List.getElem?_append_right (Nat.le_refl _), Nat.sub_self]
    rfl
  constructor
  · rintro ⟨j, hj, x', hx', y, hy, hlt⟩
    rw [hx] at hx'
    obtain rfl := Option.some.inj hx'
    rw [List.getElem?_append_left hj] at hy
    exact lt_of_lt_of_le hlt (hmax y (List.mem_of_getElem? hy))
  · intro hlt
    obtain ⟨j, hj⟩ := List.getElem?_of_mem hm
    have hjlt : j < h.length := (List.getElem?_eq_some_iff.mp hj).1
    exact ⟨j, hjlt, x, hx, m, by rw [List.getElem?_append_left hjlt]; exact hj, hlt⟩

/-- The loop counts late positions, given the greatest element of what came before. -/
theorem lateFrom_eq : ∀ (l h : List α) (m : α), m ∈ h → (∀ y ∈ h, y ≤ m) →
    lateFrom m l = (List.range l.length).countP fun i => IsLate (h ++ l) (h.length + i) := by
  intro l
  induction l with
  | nil => intro h m _ _; rfl
  | cons x l ih =>
    intro h m hm hmax
    have hsplit : h ++ x :: l = (h ++ [x]) ++ l := by rw [List.append_assoc]; rfl
    -- the head joins the history, and the positions behind it move up by one
    have htail : ∀ m', m' ∈ h ++ [x] → (∀ y ∈ h ++ [x], y ≤ m') →
        lateFrom m' l = (List.range l.length).countP
          ((fun i => decide (IsLate (h ++ x :: l) (h.length + i))) ∘ Nat.succ) := by
      intro m' hm' hmax'
      rw [ih (h ++ [x]) m' hm' hmax', hsplit]
      refine List.countP_congr fun i _ => ?_
      rw [Function.comp_apply, List.length_append, List.length_singleton, Nat.add_assoc,
        Nat.add_comm 1 i]
    rw [List.length_cons, List.range_succ_eq_map, List.countP_cons, List.countP_map, Nat.add_zero,
      lateFrom]
    by_cases hlt : x < m
    · rw [if_pos hlt, if_pos (decide_eq_true ((isLate_append_cons hm hmax).mpr hlt)),
        htail m (List.mem_append_left _ hm)]
      intro y hy
      rcases List.mem_append.mp hy with hy | hy
      · exact hmax y hy
      · rw [List.mem_singleton.mp hy]
        exact le_of_lt hlt
    · have hno : ¬ IsLate (h ++ x :: l) h.length := mt (isLate_append_cons hm hmax).mp hlt
      rw [if_neg hlt, if_neg (by simp [hno]), Nat.add_zero,
        htail x (List.mem_append_right _ List.mem_cons_self)]
      intro y hy
      rcases List.mem_append.mp hy with hy | hy
      · exact le_trans (hmax y hy) (not_lt.mp hlt)
      · rw [List.mem_singleton.mp hy]

/-- **What is counted is the late positions.** -/
theorem late_eq_countP (l : List α) :
    late l = (List.range l.length).countP fun i => IsLate l i := by
  cases l with
  | nil => rfl
  | cons x l =>
    have hfirst : ¬ IsLate (x :: l) 0 := fun ⟨j, hj, _⟩ => absurd hj (Nat.not_lt_zero j)
    have hloop : lateFrom x l
        = (List.range l.length).countP fun i => IsLate ([x] ++ l) ([x].length + i) :=
      lateFrom_eq l [x] x List.mem_cons_self fun y hy => le_of_eq (List.mem_singleton.mp hy)
    rw [late_cons, hloop, show (x :: l).length = l.length + 1 from rfl, List.range_succ_eq_map,
      List.countP_cons, List.countP_map, if_neg (by simp [hfirst]), Nat.add_zero]
    refine List.countP_congr fun i _ => ?_
    rw [Function.comp_apply, List.length_singleton, Nat.add_comm]
    rfl

/-- In a sequence in order nothing is late. -/
theorem late_of_pairwise {l : List α} (h : l.Pairwise (· ≤ ·)) : late l = 0 := by
  rw [late_eq_countP, List.countP_eq_zero]
  rintro i - hlate
  obtain ⟨j, hj, x, hx, y, hy, hlt⟩ := of_decide_eq_true hlate
  obtain ⟨hi, rfl⟩ := List.getElem?_eq_some_iff.mp hx
  obtain ⟨hj', rfl⟩ := List.getElem?_eq_some_iff.mp hy
  exact absurd (List.pairwise_iff_getElem.mp h j i hj' hi hj) (not_le.mpr hlt)

end RunningMax
