import Mathlib.Data.List.Sort

/-!
# Sorting by a key

A stable sort by a key orders a list by the key first, and keeps the order it had among
elements with the same key.

## Main definitions

* `KeyThen` — the order by a key, and by another relation where the keys are the same.

## Main results

* `pairwise_insertionSort_keyThen` — **sorting keeps the order where the keys are the same.**
-/

namespace StableSort

variable {α κ : Type} [LinearOrder κ] {f : α → κ} {R : α → α → Prop}

/-- By the key first, and by `R` where the keys are the same. -/
def KeyThen (f : α → κ) (R : α → α → Prop) (a b : α) : Prop :=
  f a < f b ∨ f a = f b ∧ R a b

theorem KeyThen.key_le {a b : α} (h : KeyThen f R a b) : f a ≤ f b := by
  rcases h with h | ⟨h, -⟩
  · exact le_of_lt h
  · exact le_of_eq h

theorem keyThen_of_le {a b : α} (h : f a ≤ f b) (hR : R a b) : KeyThen f R a b := by
  rcases lt_or_eq_of_le h with h | h
  · exact Or.inl h
  · exact Or.inr ⟨h, hR⟩

variable {r : α → α → Prop} [DecidableRel r] (hr : ∀ a b, r a b ↔ f a ≤ f b)
include hr

/-- An element goes before those that were behind it and have its f. -/
theorem pairwise_orderedInsert_keyThen {a : α} {l : List α} (ha : ∀ b ∈ l, R a b)
    (hl : l.Pairwise (KeyThen f R)) : (l.orderedInsert r a).Pairwise (KeyThen f R) := by
  induction l with
  | nil => simp
  | cons b l ih =>
    obtain ⟨hb, hl⟩ := List.pairwise_cons.mp hl
    rw [List.orderedInsert_cons]
    -- `a` goes in front only if no key before it is larger, so equal keys keep
    by_cases hab : r a b
    · rw [if_pos hab]
      refine List.pairwise_cons.mpr ⟨fun c hc => ?_, List.pairwise_cons.mpr ⟨hb, hl⟩⟩
      have hkey : f a ≤ f c := by
        rcases List.mem_cons.mp hc with rfl | hc
        · exact (hr a c).mp hab
        · exact le_trans ((hr a b).mp hab) (hb c hc).key_le
      exact keyThen_of_le hkey (ha c hc)
    · rw [if_neg hab]
      have hlt : f b < f a := not_le.mp fun h => hab ((hr a b).mpr h)
      refine List.pairwise_cons.mpr ⟨fun c hc => ?_,
        ih (fun c hc => ha c (List.mem_cons_of_mem b hc)) hl⟩
      rcases List.mem_cons.mp ((List.perm_orderedInsert r a l).mem_iff.mp hc) with rfl | hc
      · exact Or.inl hlt
      · exact hb c hc

/-- **Sorting by a key keeps the order where the keys are the same.** -/
theorem pairwise_insertionSort_keyThen {l : List α} (hl : l.Pairwise R) :
    (l.insertionSort r).Pairwise (KeyThen f R) := by
  induction l with
  | nil => simp
  | cons a l ih =>
    obtain ⟨ha, hl⟩ := List.pairwise_cons.mp hl
    rw [List.insertionSort_cons]
    refine pairwise_orderedInsert_keyThen hr (fun b hb => ?_) (ih hl)
    exact ha b ((List.mem_insertionSort r).mp hb)

end StableSort
