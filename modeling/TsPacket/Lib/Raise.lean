import Mathlib.Data.List.Forall2
import Mathlib.Data.List.Perm.Basic
import Mathlib.Tactic.Common

/-!
# Programs that may raise

A program that returns a value or raises an exception is an `Except`.  Whether a program
raises an exception of some kind, and what it returns if it does not, is read off its parts:
off both halves of a sequence, and off the elements of a list it goes through.

## Main definitions

* `Raises` — a program raises an exception of some kind.
* `First` — an element of a list is bad, and those before it are good.

## Main results

* `bind_eq_ok_iff`, `raises_bind_iff` — sequences.
* `mapM_eq_ok_iff`, `exists_mapM_eq_ok_iff`, `raises_mapM_iff` — **lists: a traversal
  returns if every element does, and raises what the first failing element raises.**
* `mapM_total` — what every step guarantees, the traversal guarantees.
* `not_raises_iff` — a program that raises nothing of one kind returns, or raises something
  of the other.
-/

namespace Raise

variable {ε α β : Type}

/-- The program raises an exception of the kind `p`. -/
def Raises (p : ε → Prop) (x : Except ε α) : Prop := ∃ e, x = .error e ∧ p e

/-- Some element of the list is `bad`, and those before it are `good`. -/
def First (good bad : α → Prop) : List α → Prop
  | [] => False
  | a :: l => bad a ∨ good a ∧ First good bad l

/-! ### The first bad element -/

section

variable {good bad : α → Prop}

theorem first_cons {a : α} {l : List α} :
    First good bad (a :: l) ↔ bad a ∨ good a ∧ First good bad l := Iff.rfl

theorem First.congr {good' bad' : α → Prop} {l : List α} (hgood : ∀ a ∈ l, good a ↔ good' a)
    (hbad : ∀ a ∈ l, bad a ↔ bad' a) : First good bad l ↔ First good' bad' l := by
  induction l with
  | nil => exact Iff.rfl
  | cons a l ih =>
    rw [List.forall_mem_cons] at hgood hbad
    rw [first_cons, first_cons, hgood.1, hbad.1, ih hgood.2 hbad.2]

theorem First.exists_bad {l : List α} (h : First good bad l) : ∃ a ∈ l, bad a := by
  induction l with
  | nil => exact absurd h id
  | cons a l ih =>
    rcases h with h | ⟨-, h⟩
    · exact ⟨a, List.mem_cons_self, h⟩
    · obtain ⟨b, hb, hbad⟩ := ih h
      exact ⟨b, List.mem_cons_of_mem a hb, hbad⟩

/-- An element that is repeated is good or bad as it was. -/
theorem first_replicate_append {n : ℕ} {a : α} {l : List α} :
    First good bad (List.replicate (n + 1) a ++ l) ↔ First good bad (a :: l) := by
  induction n with
  | zero => exact Iff.rfl
  | succ n ih =>
    rw [List.replicate_succ, List.cons_append, first_cons, ih, first_cons]
    constructor
    · rintro (h | ⟨-, h⟩)
      · exact Or.inl h
      · exact h
    · rintro (h | h)
      · exact Or.inl h
      · exact Or.inr ⟨h.1, Or.inr h⟩

theorem first_flatMap_replicate {n : ℕ} (hn : 0 < n) {g : β → α} {l : List β} :
    First good bad (l.flatMap fun b => List.replicate n (g b)) ↔ First good bad (l.map g) := by
  obtain ⟨n, rfl⟩ := Nat.exists_eq_succ_of_ne_zero (Nat.ne_of_gt hn)
  induction l with
  | nil => exact Iff.rfl
  | cons b l ih =>
    rw [List.flatMap_cons, first_replicate_append, List.map_cons, first_cons, first_cons, ih]

end

/-! ### Sequences -/

@[simp] theorem ok_bind (a : α) (f : α → Except ε β) : (.ok a : Except ε α) >>= f = f a := rfl

theorem bind_eq_ok_iff {x : Except ε α} {f : α → Except ε β} {b : β} :
    x >>= f = .ok b ↔ ∃ a, x = .ok a ∧ f a = .ok b := by
  cases x with
  | ok a => exact ⟨fun h => ⟨a, rfl, h⟩, by rintro ⟨_, ⟨⟩, h⟩; exact h⟩
  | error e => exact ⟨nofun, by rintro ⟨_, ⟨⟩, -⟩⟩

theorem mapError_eq_ok_iff {ε' : Type} {x : Except ε α} {f : ε → ε'} {a : α} :
    x.mapError f = .ok a ↔ x = .ok a := by
  cases x with
  | ok b => exact ⟨fun h => congrArg _ (Except.ok.inj h), fun h => congrArg _ (Except.ok.inj h)⟩
  | error e => exact ⟨nofun, nofun⟩

theorem map_eq_error_iff {x : Except ε α} {f : α → β} {e : ε} :
    x.map f = .error e ↔ x = .error e := by
  cases x with
  | ok a => exact ⟨nofun, nofun⟩
  | error e' => exact ⟨fun h => congrArg Except.error (Except.error.inj h), fun h =>
      congrArg Except.error (Except.error.inj h)⟩

theorem exists_map_eq_ok_iff {x : Except ε α} {f : α → β} :
    (∃ b, x.map f = .ok b) ↔ ∃ a, x = .ok a := by
  cases x with
  | ok a => exact iff_of_true ⟨f a, rfl⟩ ⟨a, rfl⟩
  | error e => exact iff_of_false (by rintro ⟨_, ⟨⟩⟩) (by rintro ⟨_, ⟨⟩⟩)

theorem exists_bind_pure_iff {x : Except ε α} {f : α → β} :
    (∃ b, (x >>= fun a => pure (f a)) = .ok b) ↔ ∃ a, x = .ok a := by
  cases x with
  | ok a => exact iff_of_true ⟨f a, rfl⟩ ⟨a, rfl⟩
  | error e => exact iff_of_false (by rintro ⟨_, ⟨⟩⟩) (by rintro ⟨_, ⟨⟩⟩)

theorem eq_of_eq_ok {x : Except ε α} {a b : α} (ha : x = .ok a) (hb : x = .ok b) : a = b :=
  Except.ok.inj (ha.symm.trans hb)

theorem map_eq_ok_iff {x : Except ε α} {f : α → β} {b : β} :
    x.map f = .ok b ↔ ∃ a, x = .ok a ∧ f a = b := by
  cases x with
  | ok a => exact ⟨fun h => ⟨a, rfl, Except.ok.inj h⟩, by rintro ⟨_, ⟨⟩, rfl⟩; rfl⟩
  | error e => exact ⟨nofun, by rintro ⟨_, ⟨⟩, -⟩⟩

variable {p : ε → Prop}

theorem raises_error {e : ε} : Raises p (.error e : Except ε α) ↔ p e :=
  ⟨by rintro ⟨_, ⟨⟩, h⟩; exact h, fun h => ⟨e, rfl, h⟩⟩

theorem not_raises_ok {a : α} : ¬ Raises p (.ok a : Except ε α) := by
  rintro ⟨_, ⟨⟩, -⟩

theorem raises_map_iff {x : Except ε α} {f : α → β} : Raises p (x.map f) ↔ Raises p x := by
  cases x with
  | ok a => exact iff_of_false not_raises_ok not_raises_ok
  | error e => exact raises_error.trans raises_error.symm

/-- A sequence raises what its first half raises, or, if that returns, its second. -/
theorem raises_bind_iff {x : Except ε α} {f : α → Except ε β} :
    Raises p (x >>= f) ↔ Raises p x ∨ ∃ a, x = .ok a ∧ Raises p (f a) := by
  cases x with
  | ok a =>
    constructor
    · exact fun h => Or.inr ⟨a, rfl, h⟩
    · rintro (h | ⟨_, ⟨⟩, h⟩)
      · exact absurd h not_raises_ok
      · exact h
  | error e =>
    constructor
    · exact fun h => Or.inl (raises_error.mpr (raises_error.mp h))
    · rintro (h | ⟨_, ⟨⟩, -⟩)
      exact raises_error.mpr (raises_error.mp h)

/-- **Nothing of one kind is raised** exactly if the program returns, or raises something of
the other kind. -/
theorem not_raises_iff {x : Except ε α} :
    ¬ Raises p x ↔ (∃ a, x = .ok a) ∨ ∃ e, x = .error e ∧ ¬ p e := by
  cases x with
  | ok a => exact iff_of_true not_raises_ok (Or.inl ⟨a, rfl⟩)
  | error e =>
    rw [raises_error]
    constructor
    · exact fun h => Or.inr ⟨e, rfl, h⟩
    · rintro (⟨_, ⟨⟩⟩ | ⟨_, ⟨⟩, h⟩)
      exact h

/-! ### Lists -/

theorem mapM_cons_eq {f : α → Except ε β} (a : α) (l : List α) :
    (a :: l).mapM f = f a >>= fun b => (l.mapM f).map (b :: ·) := by
  rw [List.mapM_cons]
  cases f a with
  | error e => rfl
  | ok b => cases l.mapM f <;> rfl

/-- If whatever fails raises one exception, a traversal succeeds everywhere or raises it. -/
theorem mapM_eq_ite {f : α → Except ε β} {g : α → β} {p : α → Prop} [DecidablePred p] {e : ε}
    {l : List α} (hf : ∀ a ∈ l, f a = if p a then .ok (g a) else .error e) :
    l.mapM f = if ∀ a ∈ l, p a then .ok (l.map g) else .error e := by
  induction l with
  | nil => rfl
  | cons a l ih =>
    obtain ⟨ha, hl⟩ := List.forall_mem_cons.mp hf
    rw [mapM_cons_eq, ha, ih hl]
    -- the first failure ends the loop, and all failures are the same one
    by_cases hpa : p a
    · by_cases hpl : ∀ a ∈ l, p a
      · rw [if_pos hpa, if_pos hpl, if_pos (List.forall_mem_cons.mpr ⟨hpa, hpl⟩)]
        rfl
      · rw [if_pos hpa, if_neg hpl, if_neg fun h => hpl (List.forall_mem_cons.mp h).2]
        rfl
    · rw [if_neg hpa, if_neg fun h => hpa (List.forall_mem_cons.mp h).1]
      rfl

/-- **A traversal returns what its elements return**, in order. -/
theorem mapM_eq_ok_iff {f : α → Except ε β} : ∀ {l : List α} {r : List β},
    l.mapM f = .ok r ↔ List.Forall₂ (fun a b => f a = .ok b) l r := by
  intro l
  induction l with
  | nil =>
    intro r
    rw [List.mapM_nil, List.forall₂_nil_left_iff]
    exact ⟨fun h => (Except.ok.inj h).symm, fun h => congrArg Except.ok h.symm⟩
  | cons a l ih =>
    intro r
    rw [mapM_cons_eq, bind_eq_ok_iff, List.forall₂_cons_left_iff]
    constructor
    · rintro ⟨b, hb, h⟩
      obtain ⟨r', hr', rfl⟩ := map_eq_ok_iff.mp h
      exact ⟨b, r', hb, ih.mp hr', rfl⟩
    · rintro ⟨b, r', hb, hr', rfl⟩
      exact ⟨b, hb, map_eq_ok_iff.mpr ⟨r', ih.mpr hr', rfl⟩⟩

theorem exists_mapM_eq_ok_iff {f : α → Except ε β} {l : List α} :
    (∃ r, l.mapM f = .ok r) ↔ ∀ a ∈ l, ∃ b, f a = .ok b := by
  induction l with
  | nil => exact iff_of_true ⟨[], rfl⟩ fun a ha => absurd ha List.not_mem_nil
  | cons a l ih =>
    rw [List.forall_mem_cons, ← ih]
    constructor
    · rintro ⟨r, h⟩
      rw [mapM_cons_eq] at h
      obtain ⟨b, hb, h⟩ := bind_eq_ok_iff.mp h
      obtain ⟨r', hr', -⟩ := map_eq_ok_iff.mp h
      exact ⟨⟨b, hb⟩, r', hr'⟩
    · rintro ⟨⟨b, hb⟩, r', hr'⟩
      exact ⟨b :: r', by rw [mapM_cons_eq, hb, hr']; rfl⟩

/-- A traversal in another order returns the same in another order. -/
theorem mapM_perm {f : α → Except ε β} {l l' : List α} (hl : l'.Perm l)
    {r : List β} (h : l.mapM f = .ok r) : ∃ r', l'.mapM f = .ok r' ∧ r'.Perm r := by
  obtain ⟨r', hr', hperm⟩ := List.perm_comp_forall₂ hl (mapM_eq_ok_iff.mp h)
  exact ⟨r', mapM_eq_ok_iff.mpr hr', hperm⟩

/-- What every step keeps of its element is kept of the list. -/
theorem map_of_mapM {γ : Type} {f : α → Except ε β} {l : List α} {r : List β}
    (h : l.mapM f = .ok r) {g : β → γ} {k : α → γ}
    (hf : ∀ a ∈ l, ∀ b, f a = .ok b → g b = k a) : r.map g = l.map k := by
  have hconv := mapM_eq_ok_iff.mp h
  clear h
  induction hconv with
  | nil => rfl
  | cons hab _ ih =>
    rw [List.forall_mem_cons] at hf
    rw [List.map_cons, List.map_cons, hf.1 _ hab, ih hf.2]

/-- What a traversal returns is what one of the elements returned. -/
theorem mem_of_mapM {f : α → Except ε β} {l : List α} {r : List β} (h : l.mapM f = .ok r)
    {b : β} : b ∈ r ↔ ∃ a ∈ l, f a = .ok b := by
  have hconv := mapM_eq_ok_iff.mp h
  clear h
  induction hconv with
  | nil => exact iff_of_false List.not_mem_nil (by rintro ⟨a, ha, -⟩; exact List.not_mem_nil ha)
  | cons hac _ ih =>
    rw [List.mem_cons, List.exists_mem_cons_iff, hac]
    exact or_congr ⟨fun h => congrArg Except.ok h.symm, fun h => (Except.ok.inj h).symm⟩ ih

/-- Element by element, what a traversal returns is what the steps say. -/
theorem forall₂_of_mapM {γ : Type} {f : γ → Except ε β} {g : α → γ} {l : List α} {r : List β}
    (h : (l.map g).mapM f = .ok r) {S : α → β → Prop}
    (hf : ∀ a ∈ l, ∀ b, f (g a) = .ok b → S a b) : List.Forall₂ S l r := by
  have hconv := List.forall₂_map_left_iff.mp (mapM_eq_ok_iff.mp h)
  clear h
  induction hconv with
  | nil => exact List.Forall₂.nil
  | cons hab _ ih =>
    rw [List.forall_mem_cons] at hf
    exact List.Forall₂.cons (hf.1 _ hab) (ih hf.2)

/-- What holds of a list pair by pair, and is kept by every step, holds of the result. -/
theorem pairwise_of_mapM {f : α → Except ε β} {l : List α} {r : List β}
    (h : l.mapM f = .ok r) {R : α → α → Prop} {S : β → β → Prop} (hl : l.Pairwise R)
    (hf : ∀ a a' b b', R a a' → f a = .ok b → f a' = .ok b' → S b b') : r.Pairwise S := by
  have hconv := mapM_eq_ok_iff.mp h
  clear h
  induction hconv with
  | nil => exact List.Pairwise.nil
  | @cons a b l r hab hlr ih =>
    obtain ⟨ha, hl⟩ := List.pairwise_cons.mp hl
    refine List.pairwise_cons.mpr ⟨fun b' hb' => ?_, ih hl⟩
    obtain ⟨a', ha', hab'⟩ := (mem_of_mapM (mapM_eq_ok_iff.mpr hlr)).mp hb'
    exact hf a a' b b' (ha a' ha') hab hab'

/-- **If every step returns something with a property, so does the traversal**: each element
of the result has it together with an element of the list. -/
theorem mapM_total {f : α → Except ε β} {l : List α} {Q : α → β → Prop}
    (hf : ∀ a ∈ l, ∃ b, f a = .ok b ∧ Q a b) :
    ∃ r, l.mapM f = .ok r ∧ (∀ b ∈ r, ∃ a ∈ l, Q a b) ∧
      ∀ (γ : Type) (g : β → γ) (k : α → γ), (∀ a b, Q a b → g b = k a) → r.map g = l.map k := by
  -- `f` has one result for each element, so it is the one promised
  have hQ : ∀ a ∈ l, ∀ b, f a = .ok b → Q a b := by
    intro a ha b hb
    obtain ⟨b', hb', hq⟩ := hf a ha
    rwa [eq_of_eq_ok hb hb']
  obtain ⟨r, hr⟩ := exists_mapM_eq_ok_iff.mpr fun a ha => by
    obtain ⟨b, hb, -⟩ := hf a ha
    exact ⟨b, hb⟩
  refine ⟨r, hr, fun b hb => ?_, fun γ g k hgk => ?_⟩
  · obtain ⟨a, ha, hab⟩ := (mem_of_mapM hr).mp hb
    exact ⟨a, ha, hQ a ha b hab⟩
  · exact map_of_mapM hr fun a ha b hb => hgk a b (hQ a ha b hb)

theorem length_of_mapM {f : α → Except ε β} {l : List α} {r : List β} (h : l.mapM f = .ok r) :
    r.length = l.length := (mapM_eq_ok_iff.mp h).length_eq.symm

/-- **A traversal in two parts**: the second starts where the first ends. -/
theorem mapM_range_add {f : ℕ → Except ε β} (m n : ℕ) :
    (List.range (m + n)).mapM f
      = (List.range m).mapM f >>= fun xs =>
          ((List.range n).mapM fun i => f (m + i)).map (xs ++ ·) := by
  rw [List.range_add, List.mapM_append, List.mapM_map]
  rfl

/-- **A traversal raises what the first element that does not return raises.** -/
theorem raises_mapM_iff {f : α → Except ε β} {l : List α} :
    Raises p (l.mapM f) ↔ First (fun a => ∃ b, f a = .ok b) (fun a => Raises p (f a)) l := by
  induction l with
  | nil => exact iff_of_false not_raises_ok id
  | cons a l ih =>
    rw [mapM_cons_eq, raises_bind_iff, first_cons, ← ih]
    simp only [raises_map_iff, exists_and_right]

end Raise
