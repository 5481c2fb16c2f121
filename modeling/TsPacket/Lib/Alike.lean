import Mathlib.Data.List.Forall2
import Mathlib.Data.List.Sort
import Mathlib.Data.Option.Basic
import TsPacket.Lib.OrderedDict
import TsPacket.Lib.Raise

/-!
# Two runs of a program on related data

What a program does with data that it only passes on does not depend on that data.  Two runs
are compared through a relation between their values: they raise the same exceptions, and
what they return is related.  Sequences and traversals keep this, and so do the list
operations that look at nothing but keys that the relation leaves alone.

## Main definitions

* `Alike R x y` — both return values that `R` relates, or both raise the same exception.

## Main results

* `Alike.bind`, `Alike.mapM` — sequences and traversals.
* `forall₂_insertionSort` — sorting by keys that are the same on both sides.
* `forall₂_groupBy` — filing under keys that are the same on both sides.
-/

namespace Raise

variable {ε ε' α α' β β' : Type}

/-- Both return related values, or both raise the same exception. -/
inductive Alike (R : α → α' → Prop) : Except ε α → Except ε α' → Prop
  | ok {a a'} (h : R a a') : Alike R (.ok a) (.ok a')
  | error (e : ε) : Alike R (.error e) (.error e)

variable {R : α → α' → Prop} {S : β → β' → Prop}

/-! ### Sequences and traversals -/

theorem Alike.of_eq {x : Except ε α} {R : α → α → Prop} (hR : ∀ a, R a a) : Alike R x x := by
  cases x with
  | ok a => exact .ok (hR a)
  | error e => exact .error e

/-- What is known of one of the values may be added. -/
theorem Alike.and_left {x : Except ε α} {x' : Except ε α'} {p : α → Prop} (h : Alike R x x')
    (hp : ∀ a, x = .ok a → p a) : Alike (fun a a' => p a ∧ R a a') x x' := by
  cases h with
  | ok h => exact .ok ⟨hp _ rfl, h⟩
  | error e => exact .error e

theorem Alike.bind {x : Except ε α} {x' : Except ε α'} {f : α → Except ε β}
    {f' : α' → Except ε β'} (h : Alike R x x') (hf : ∀ a a', R a a' → Alike S (f a) (f' a')) :
    Alike S (x >>= f) (x' >>= f') := by
  cases h with
  | ok h => exact hf _ _ h
  | error e => exact .error e

theorem Alike.map {x : Except ε α} {x' : Except ε α'} {f : α → β} {f' : α' → β'}
    (h : Alike R x x') (hf : ∀ a a', R a a' → S (f a) (f' a')) :
    Alike S (x.map f) (x'.map f') := by
  cases h with
  | ok h => exact .ok (hf _ _ h)
  | error e => exact .error e

theorem Alike.mapError {x : Except ε α} {x' : Except ε α'} (h : Alike R x x') (g : ε → ε') :
    Alike R (x.mapError g) (x'.mapError g) := by
  cases h with
  | ok h => exact .ok h
  | error e => exact .error (g e)

/-- **A traversal of related lists**, with steps that treat related elements alike. -/
theorem Alike.mapM {f : α → Except ε β} {f' : α' → Except ε β'} {l : List α} {l' : List α'}
    (hl : List.Forall₂ R l l') (hf : ∀ a a', R a a' → Alike S (f a) (f' a')) :
    Alike (List.Forall₂ S) (l.mapM f) (l'.mapM f') := by
  induction hl with
  | nil => exact .ok .nil
  | cons h _ ih =>
    rw [List.mapM_cons, List.mapM_cons]
    exact (hf _ _ h).bind fun b b' hb => ih.bind fun bs bs' hbs => .ok (.cons hb hbs)

/-- A traversal of one list by two steps. -/
theorem Alike.mapM_same {γ : Type} {f : γ → Except ε β} {f' : γ → Except ε β'} {l : List γ}
    (hf : ∀ c ∈ l, Alike S (f c) (f' c)) : Alike (List.Forall₂ S) (l.mapM f) (l.mapM f') := by
  have hl : List.Forall₂ (fun c c' => c = c' ∧ c ∈ l) l l :=
    List.forall₂_same.mpr fun c hc => ⟨rfl, hc⟩
  refine Alike.mapM hl ?_
  rintro c _ ⟨rfl, hc⟩
  exact hf c hc

/-- A sequence of programs that fail with nothing. -/
theorem rel_bind {x : Option α} {x' : Option α'} {f : α → Option β} {f' : α' → Option β'}
    (h : Option.Rel R x x') (hf : ∀ a a', R a a' → Option.Rel S (f a) (f' a')) :
    Option.Rel S (x.bind f) (x'.bind f') := by
  cases h with
  | some h => exact hf _ _ h
  | none => exact .none

/-- What is read off related elements alike is read off the lists alike. -/
theorem map_eq_map_of_forall₂ {f : α → β} {f' : α' → β} (hf : ∀ a a', R a a' → f a = f' a')
    {l : List α} {l' : List α'} (hl : List.Forall₂ R l l') : l.map f = l'.map f' := by
  induction hl with
  | nil => rfl
  | cons h _ ih => rw [List.map_cons, List.map_cons, hf _ _ h, ih]

/-! ### Sorting -/

section

variable {le : α → α → Prop} {le' : α' → α' → Prop} [DecidableRel le] [DecidableRel le']
  (hle : ∀ a a', R a a' → ∀ b b', R b b' → (le a b ↔ le' a' b'))
include hle

theorem forall₂_orderedInsert {a : α} {a' : α'} (ha : R a a') {l : List α} {l' : List α'}
    (hl : List.Forall₂ R l l') :
    List.Forall₂ R (l.orderedInsert le a) (l'.orderedInsert le' a') := by
  induction hl with
  | nil => exact .cons ha .nil
  | @cons b b' l l' hb hl ih =>
    rw [List.orderedInsert_cons, List.orderedInsert_cons]
    by_cases h : le a b
    · rw [if_pos h, if_pos ((hle a a' ha b b' hb).mp h)]
      exact .cons ha (.cons hb hl)
    · rw [if_neg h, if_neg (mt (hle a a' ha b b' hb).mpr h)]
      exact .cons hb ih

/-- **Related lists, sorted by keys that are the same on both sides**, are related. -/
theorem forall₂_insertionSort {l : List α} {l' : List α'} (hl : List.Forall₂ R l l') :
    List.Forall₂ R (l.insertionSort le) (l'.insertionSort le') := by
  induction hl with
  | nil => exact .nil
  | cons h _ ih =>
    rw [List.insertionSort_cons, List.insertionSort_cons]
    exact forall₂_orderedInsert hle h ih

end

/-! ### Filing -/

section

open OrderedDict

variable {κ : Type} [DecidableEq κ]

theorem forall₂_update {ν ν' : Type} {V : ν → ν' → Prop} {k : κ} {default : ν} {default' : ν'}
    {f : ν → ν} {f' : ν' → ν'} (hdefault : V default default')
    (hf : ∀ v v', V v v' → V (f v) (f' v')) {d : List (κ × ν)} {d' : List (κ × ν')}
    (hd : List.Forall₂ (fun p p' => p.1 = p'.1 ∧ V p.2 p'.2) d d') :
    List.Forall₂ (fun p p' => p.1 = p'.1 ∧ V p.2 p'.2) (update k default f d)
      (update k default' f' d') := by
  induction hd with
  | nil => exact .cons ⟨rfl, hf _ _ hdefault⟩ .nil
  | @cons p p' d d' hp hd ih =>
    obtain ⟨k₀, v⟩ := p
    obtain ⟨k₁, v'⟩ := p'
    obtain ⟨hk, hv⟩ := hp
    dsimp only at hk hv
    subst hk
    rw [update, update]
    -- the first entry under the key is changed on both sides
    split
    · exact .cons ⟨rfl, hf _ _ hv⟩ hd
    · exact .cons ⟨rfl, hv⟩ ih

/-- **Related lists, filed under keys that are the same on both sides**: the groups have the
same keys, and hold related lists. -/
theorem forall₂_groupBy {key : α → κ} {key' : α' → κ} (hkey : ∀ a a', R a a' → key a = key' a')
    {l : List α} {l' : List α'} (hl : List.Forall₂ R l l') :
    List.Forall₂ (fun g g' => g.1 = g'.1 ∧ List.Forall₂ R g.2 g'.2) (groupBy key l)
      (groupBy key' l') := by
  -- by induction on the lists, from any two dictionaries alike
  have hfold : ∀ {d : List (κ × List α)} {d' : List (κ × List α')},
      List.Forall₂ (fun g g' => g.1 = g'.1 ∧ List.Forall₂ R g.2 g'.2) d d' →
      List.Forall₂ (fun g g' => g.1 = g'.1 ∧ List.Forall₂ R g.2 g'.2)
        (l.foldl (fun d a => update (key a) [] (· ++ [a]) d) d)
        (l'.foldl (fun d a => update (key' a) [] (· ++ [a]) d) d') := by
    induction hl with
    | nil => exact id
    | @cons a a' l l' ha hl ih =>
      intro d d' hd
      rw [List.foldl_cons, List.foldl_cons, ← hkey a a' ha]
      apply ih
      exact forall₂_update (V := List.Forall₂ R) .nil
        (fun v v' hv => List.rel_append hv (.cons ha .nil)) hd
  exact hfold .nil

end

end Raise
