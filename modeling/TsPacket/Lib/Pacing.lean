import Mathlib.Algebra.Order.Group.Defs
import Mathlib.Algebra.Order.Group.Unbundled.Basic
import Mathlib.Tactic.Abel
import Mathlib.Tactic.Common

/-!
# Paced instants

A schedule releases one instant after the other: an instant comes no earlier than the
schedule says, and the schedule then moves on by at least a period.  It may also be moved
up to the present, so that at any time it is behind by no more than a slack.  Nothing is
assumed of the instants themselves, which may stand still or go back.

## Main definitions

* `Paced` — the instants a schedule releases.

## Main results

* `Paced.nsmul_le` — the instants released since the start are a period apart on average.
* `Paced.window` — **so are those in between any two**, but for the slack.
* `le_floor_or_gain` — what is caught up at every instant adds up.
-/

namespace Pacing

variable {α : Type} [AddCommGroup α] [LinearOrder α]

/-- Instants that are released by a schedule which stands at `next`. -/
inductive Paced (period slack : α) : α → List α → Prop
  | nil (next : α) : Paced period slack next []
  | cons {next next' t : α} {ts : List α} (released : next ≤ t) (advanced : next + period ≤ next')
      (caughtUp : t - slack ≤ next') (rest : Paced period slack next' ts) :
      Paced period slack next (t :: ts)

variable {period slack next t : α} {ts : List α}

/-- After an instant the schedule goes on from where it is at most the slack behind. -/
theorem Paced.drop (h : Paced period slack next ts) {i : ℕ} (hi : ts[i]? = some t) :
    ∃ next', t - slack ≤ next' ∧ Paced period slack next' (ts.drop (i + 1)) := by
  induction h generalizing i with
  | nil next => cases hi
  | @cons next next' t' ts _ _ caughtUp rest ih =>
    cases i with
    | zero =>
      obtain rfl := Option.some.inj hi
      exact ⟨next', caughtUp, rest⟩
    | succ i => exact ih hi

variable [IsOrderedAddMonoid α]

/-- **The instants since the start** are a period apart on average. -/
theorem Paced.nsmul_le (h : Paced period slack next ts) {k : ℕ} (hk : ts[k]? = some t) :
    next + k • period ≤ t := by
  induction h generalizing k with
  | nil next => cases hk
  | @cons next next' t' ts released advanced _ _ ih =>
    cases k with
    | zero =>
      obtain rfl := Option.some.inj hk
      rw [zero_nsmul, add_zero]
      exact released
    | succ k =>
      calc next + (k + 1) • period = next + period + k • period := by
            rw [succ_nsmul']
            abel
        _ ≤ next' + k • period := add_le_add_left advanced _
        _ ≤ t := ih hk

/-- **The instants between any two** are a period apart on average, but for the slack. -/
theorem Paced.window (h : Paced period slack next ts) {i j : ℕ} {ti tj : α} (hij : i < j)
    (hi : ts[i]? = some ti) (hj : ts[j]? = some tj) :
    (j - i - 1) • period ≤ tj - ti + slack := by
  obtain ⟨next', hnext, hrest⟩ := h.drop hi
  have hplace : (ts.drop (i + 1))[j - i - 1]? = some tj := by
    rw [List.getElem?_drop, ← hj]
    congr 1
    omega
  have hle : ti - slack + (j - i - 1) • period ≤ tj :=
    le_trans (add_le_add_left hnext _) (hrest.nsmul_le hplace)
  calc (j - i - 1) • period = ti - slack + (j - i - 1) • period - (ti - slack) := by abel
    _ ≤ tj - (ti - slack) := sub_le_sub_right hle _
    _ = tj - ti + slack := by abel

/-- **Catching up.**  What is behind by no more than a floor, or by less than the instant
before, is after some instants down to the floor or has gained at every one of them. -/
theorem le_floor_or_gain {lag : ℕ → α} {floor gain : α} (hgain : 0 ≤ gain) {j : ℕ} :
    ∀ {n : ℕ}, (∀ i < n, lag (j + i + 1) ≤ max floor (lag (j + i) - gain)) →
      lag (j + n) ≤ max floor (lag j - n • gain) := by
  intro n
  induction n with
  | zero =>
    intro _
    rw [zero_nsmul, sub_zero]
    exact le_max_right _ _
  | succ n ih =>
    intro hstep
    have hprev := ih fun i hi => hstep i (Nat.lt_succ_of_lt hi)
    refine (hstep n (Nat.lt_succ_self n)).trans (max_le (le_max_left _ _) ?_)
    rcases le_max_iff.mp hprev with hfloor | hlag
    · exact ((sub_le_self _ hgain).trans hfloor).trans (le_max_left _ _)
    · calc lag (j + n) - gain ≤ lag j - n • gain - gain := sub_le_sub_right hlag _
        _ = lag j - (n + 1) • gain := by rw [succ_nsmul]; abel
        _ ≤ max floor (lag j - (n + 1) • gain) := le_max_right _ _

end Pacing
