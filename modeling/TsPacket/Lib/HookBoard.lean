import Mathlib.Data.List.Forall2
import Mathlib.Data.Set.Basic
import Mathlib.Tactic.Common

/-!
# Rows of named entries on hooks

Entries stand in rows, one row on each hook.  An entry goes to the front or to the back of a
row under a name that is not in use, and leaves it by its name; a name can stay in use after its
entry has left.  The order of a row is what counts: an entry keeps its place among those that
stay.

The entries themselves are known to a lower level, by handles.  `Represents` says that the rows
of handles are the rows of names, under a relation that gives every handle one name and every
name one handle.

## Main definitions

* `Board` — the rows and the names in use; no name stands twice.
* `Board.attach`, `Board.withdraw`, `Board.release`, `Board.clear` — what can be done.
* `Act`, `Step`, `Steps` — these as actions, one and several.
* `Represents` — rows of handles.

## Main results

* `Steps.sublist` — **entries that stay keep their order**, whatever comes and goes.
* `Steps.head` — **the head stays the head** until something goes in front of it.
* `Represents.attach`, `Represents.keep` — the same is done to the handles.
-/

namespace HookBoard

variable {η ν κ : Type*}

/-- Rows of names, with the names in use. -/
structure Board (η ν : Type*) where
  row : η → List ν
  used : Set ν
  nodup : ∀ h, (row h).Nodup
  apart : ∀ {h h' x}, x ∈ row h → x ∈ row h' → h = h'
  used_of_mem : ∀ {h x}, x ∈ row h → x ∈ used

/-! ### What can be done -/

namespace Board

/-- Nothing stands anywhere; some names are in use all the same. -/
def empty (used : Set ν) : Board η ν where
  row _ := []
  used := used
  nodup _ := List.nodup_nil
  apart h := absurd h List.not_mem_nil
  used_of_mem h := absurd h List.not_mem_nil

/-- A row with one more entry, at the front or at the back. -/
def place (front : Bool) (x : ν) (row : List ν) : List ν :=
  if front then x :: row else row ++ [x]

theorem mem_place {front : Bool} {x y : ν} {row : List ν} :
    y ∈ place front x row ↔ y = x ∨ y ∈ row := by
  cases front with
  | true => exact List.mem_cons
  | false => simp [place, or_comm]

theorem nodup_place {front : Bool} {x : ν} {row : List ν} (hrow : row.Nodup) (hx : x ∉ row) :
    (place front x row).Nodup := by
  cases front with
  | true => exact List.nodup_cons.mpr ⟨hx, hrow⟩
  | false => exact List.nodup_append.mpr ⟨hrow, List.pairwise_singleton _ x, fun y hy z hz hyz =>
      hx (List.mem_singleton.mp hz ▸ hyz ▸ hy)⟩

/-- Only some of the entries stay, and `used` are the names in use from now on. -/
def keep (b : Board η ν) (p : η → ν → Bool) (used : Set ν)
    (hused : ∀ {h x}, x ∈ b.row h → p h x → x ∈ used) : Board η ν where
  row h := (b.row h).filter (p h)
  used := used
  nodup h := (b.nodup h).filter _
  apart hx hx' := b.apart (List.mem_of_mem_filter hx) (List.mem_of_mem_filter hx')
  used_of_mem hx := hused (List.mem_of_mem_filter hx) (List.of_mem_filter hx)

section Ops

variable (b : Board η ν)

/-- A new entry under a name that is not in use. -/
def attach [DecidableEq η] (h : η) (front : Bool) (x : ν) (hx : x ∉ b.used) : Board η ν where
  row := Function.update b.row h (place front x (b.row h))
  used := insert x b.used
  nodup h' := by
    by_cases hh : h' = h
    · rw [hh, Function.update_self]
      exact nodup_place (b.nodup h) fun hmem => hx (b.used_of_mem hmem)
    · rw [Function.update_of_ne hh]
      exact b.nodup h'
  apart {h₁ h₂ y} h₁y h₂y := by
    -- the new name stands in no other row
    have hnew : ∀ {k}, y ∈ Function.update b.row h (place front x (b.row h)) k →
        (y = x ∧ k = h) ∨ y ∈ b.row k := by
      intro k hk
      by_cases hkh : k = h
      · rw [hkh, Function.update_self, mem_place] at hk
        exact hk.imp (fun hy => ⟨hy, hkh⟩) fun hy => hkh ▸ hy
      · rw [Function.update_of_ne hkh] at hk
        exact Or.inr hk
    rcases hnew h₁y with ⟨rfl, rfl⟩ | hold₁ <;> rcases hnew h₂y with ⟨heq, rfl⟩ | hold₂
    · rfl
    · exact absurd (b.used_of_mem hold₂) hx
    · exact absurd (heq ▸ b.used_of_mem hold₁) hx
    · exact b.apart hold₁ hold₂
  used_of_mem {k y} hk := by
    by_cases hkh : k = h
    · rw [hkh, Function.update_self, mem_place] at hk
      exact hk.imp id b.used_of_mem
    · rw [Function.update_of_ne hkh] at hk
      exact Or.inr (b.used_of_mem hk)

/-- An entry leaves, its name stays in use. -/
def withdraw [DecidableEq ν] (x : ν) : Board η ν :=
  b.keep (fun _ y => y ≠ x) b.used fun h _ => b.used_of_mem h

theorem mem_used_diff [DecidableEq ν] (x : ν) {h : η} {y : ν} (hy : y ∈ b.row h)
    (hyx : decide (y ≠ x)) : y ∈ b.used \ {x} :=
  ⟨b.used_of_mem hy, fun heq => of_decide_eq_true hyx heq⟩

/-- An entry leaves with its name. -/
def release [DecidableEq ν] (x : ν) : Board η ν :=
  b.keep (fun _ y => y ≠ x) (b.used \ {x}) (b.mem_used_diff x)

/-- All entries leave the hooks that are gone. -/
def clear (gone : η → Bool) : Board η ν :=
  b.keep (fun h _ => !gone h) b.used fun h _ => b.used_of_mem h

end Ops

end Board

/-! ### One action after the other -/

/-- What can be done to a board. -/
inductive Act (η ν : Type*)
  | attach (h : η) (front : Bool) (x : ν)
  | withdraw (x : ν)
  | release (x : ν)
  | clear (gone : η → Bool)

section Runs

variable [DecidableEq η] [DecidableEq ν]

/-- One action and what it leaves; only a new entry can be attached. -/
inductive Step : Board η ν → Act η ν → Board η ν → Prop
  | attach {b : Board η ν} {h : η} {front : Bool} {x : ν} (hx : x ∉ b.used) :
    Step b (.attach h front x) (b.attach h front x hx)
  | withdraw {b : Board η ν} {x : ν} : Step b (.withdraw x) (b.withdraw x)
  | release {b : Board η ν} {x : ν} : Step b (.release x) (b.release x)
  | clear {b : Board η ν} {gone : η → Bool} : Step b (.clear gone) (b.clear gone)

/-- A sequence of actions. -/
inductive Steps : Board η ν → List (Act η ν) → Board η ν → Prop
  | refl (b : Board η ν) : Steps b [] b
  | cons {b b' b'' : Board η ν} {a : Act η ν} {as : List (Act η ν)} :
    Step b a b' → Steps b' as b'' → Steps b (a :: as) b''

/-- The action takes the entry `x` off the hook `h`. -/
def Act.Removes (h : η) (x : ν) : Act η ν → Prop
  | .attach _ _ _ => False
  | .withdraw y => y = x
  | .release y => y = x
  | .clear gone => gone h = true

/-- The action puts something in front of the row at `h`. -/
def Act.Fronts (h : η) : Act η ν → Prop
  | .attach h' front _ => h' = h ∧ front = true
  | _ => False

namespace Steps

theorem append {b b' b'' : Board η ν} {as as' : List (Act η ν)} (h : Steps b as b')
    (h' : Steps b' as' b'') : Steps b (as ++ as') b'' := by
  induction h with
  | refl => exact h'
  | cons hstep _ ih => exact .cons hstep (ih h')

end Steps

/-- What a step leaves of a row: it filters it, or puts one entry at one of its ends. -/
theorem Step.row {b b' : Board η ν} {a : Act η ν} (hstep : Step b a b') (h : η) :
    (∃ p : ν → Bool, b'.row h = (b.row h).filter p ∧ ∀ x, ¬ a.Removes h x → p x = true) ∨
      ∃ front x, a = .attach h front x ∧ b'.row h = Board.place front x (b.row h) := by
  cases hstep with
  | @attach h' front x hx =>
    by_cases hh : h = h'
    · refine Or.inr ⟨front, x, by rw [hh], ?_⟩
      subst hh
      exact Function.update_self ..
    · refine Or.inl ⟨fun _ => true, ?_, fun _ _ => rfl⟩
      rw [List.filter_true]
      exact Function.update_of_ne hh ..
  | withdraw => exact Or.inl ⟨_, rfl, fun y hy => decide_eq_true fun h => hy h.symm⟩
  | release => exact Or.inl ⟨_, rfl, fun y hy => decide_eq_true fun h => hy h.symm⟩
  | @clear gone =>
    refine Or.inl ⟨_, rfl, fun y hy => ?_⟩
    rw [Bool.not_eq_true']
    exact eq_false_of_ne_true hy

namespace Steps

variable {b b' : Board η ν} {as : List (Act η ν)} {h : η}

/-- **Entries that stay keep their order.** -/
theorem sublist {xs : List ν} (hs : Steps b as b')
    (hstay : ∀ a ∈ as, ∀ x ∈ xs, ¬ a.Removes h x) (hxs : xs.Sublist (b.row h)) :
    xs.Sublist (b'.row h) := by
  induction hs with
  | refl => exact hxs
  | @cons b b₁ b₂ a as hstep _ ih =>
    refine ih (fun a' ha' => hstay a' (List.mem_cons_of_mem _ ha')) ?_
    have hkeep := hstay a List.mem_cons_self
    rcases hstep.row h with ⟨p, hrow, hp⟩ | ⟨front, x, -, hrow⟩
    · rw [hrow, ← List.filter_eq_self.mpr fun x hx => hp x (hkeep x hx)]
      exact hxs.filter p
    · rw [hrow]
      cases front with
      | true => exact hxs.trans (List.sublist_cons_self ..)
      | false => exact hxs.trans (List.sublist_append_left ..)

/-- **The head stays the head** until something goes in front of it. -/
theorem head {x : ν} (hs : Steps b as b')
    (hstay : ∀ a ∈ as, ¬ a.Removes h x ∧ ¬ a.Fronts h) (hx : (b.row h).head? = some x) :
    (b'.row h).head? = some x := by
  induction hs with
  | refl => exact hx
  | @cons b b₁ b₂ a as hstep _ ih =>
    refine ih (fun a' ha' => hstay a' (List.mem_cons_of_mem _ ha')) ?_
    obtain ⟨hkeep, hfront⟩ := hstay a List.mem_cons_self
    obtain ⟨rest, hrest⟩ : ∃ rest, b.row h = x :: rest := List.head?_eq_some_iff.mp hx
    rcases hstep.row h with ⟨p, hrow, hp⟩ | ⟨front, y, rfl, hrow⟩
    · rw [hrow, hrest, List.filter_cons_of_pos (hp x hkeep)]
      rfl
    · have hback : front = false := by simpa [Act.Fronts] using hfront
      rw [hrow, hrest, hback]
      rfl

end Steps

end Runs

/-! ### Rows of handles -/

/-- The rows of handles are the rows of names, and a handle has one name. -/
structure Represents (R : κ → ν → Prop) (rows : η → List κ) (b : Board η ν) : Prop where
  rows : ∀ h, List.Forall₂ R (rows h) (b.row h)
  name : ∀ {k x y}, R k x → R k y → x = y
  handle : ∀ {k k' x}, R k x → R k' x → k = k'

theorem mem_left_of_forall₂ {R : κ → ν → Prop} {ks : List κ} {xs : List ν}
    (h : List.Forall₂ R ks xs) {k : κ} (hk : k ∈ ks) : ∃ x ∈ xs, R k x := by
  induction h with
  | nil => exact absurd hk List.not_mem_nil
  | cons hR _ ih =>
    rcases List.mem_cons.mp hk with rfl | hk
    · exact ⟨_, List.mem_cons_self, hR⟩
    · obtain ⟨x, hx, hkx⟩ := ih hk
      exact ⟨x, List.mem_cons_of_mem _ hx, hkx⟩

namespace Represents

variable {R R' : κ → ν → Prop} {rows rows' : η → List κ} {b : Board η ν}

/-- Every handle that stands somewhere has a name. -/
theorem named (hr : Represents R rows b) {h : η} {k : κ} (hk : k ∈ rows h) :
    ∃ x ∈ b.row h, R k x := mem_left_of_forall₂ (hr.rows h) hk

/-- A handle stands in one row. -/
theorem apart (hr : Represents R rows b) {h h' : η} {k : κ} (hk : k ∈ rows h)
    (hk' : k ∈ rows h') : h = h' := by
  obtain ⟨x, hx, hR⟩ := hr.named hk
  obtain ⟨x', hx', hR'⟩ := hr.named hk'
  exact b.apart hx (hr.name hR hR' ▸ hx')

/-- A handle stands at one place of its row. -/
theorem nodup (hr : Represents R rows b) (h : η) : (rows h).Nodup := by
  have hnodup : ∀ {ks xs}, List.Forall₂ R ks xs → xs.Nodup → ks.Nodup := by
    intro ks xs hks hxs
    induction hks with
    | nil => exact List.nodup_nil
    | @cons k x ks xs hR hrest ih =>
      rw [List.nodup_cons] at hxs ⊢
      refine ⟨fun hk => ?_, ih hxs.2⟩
      obtain ⟨y, hy, hky⟩ := mem_left_of_forall₂ hrest hk
      exact hxs.1 (hr.name hR hky ▸ hy)
  exact hnodup (hr.rows h) (b.nodup h)

/-- The names of a part of a row are a part of the names. -/
theorem sublist_of_forall₂ {R : κ → ν → Prop} (hname : ∀ {k x y}, R k x → R k y → x = y)
    {ks ls : List κ} (hls : ls.Sublist ks) : ∀ {xs ys : List ν}, List.Forall₂ R ks xs →
    List.Forall₂ R ls ys → ys.Sublist xs := by
  induction hls with
  | slnil =>
    rintro xs ys (_ | _) (_ | _)
    exact .slnil
  | cons k _ ih =>
    rintro _ ys (_ | ⟨_, hks⟩) hys
    exact (ih hks hys).cons _
  | cons_cons k _ ih =>
    rintro _ _ (_ | ⟨hx, hks⟩) (_ | ⟨hy, hls⟩)
    rw [hname hy hx]
    exact (ih hks hls).cons_cons _

/-- Handles stand in the order of their names. -/
theorem sublist_iff (hr : Represents R rows b) {h : η} {ls : List κ} {ys : List ν}
    (hls : List.Forall₂ R ls ys) : ls.Sublist (rows h) ↔ ys.Sublist (b.row h) :=
  ⟨fun hsub => sublist_of_forall₂ (R := R) hr.name hsub (hr.rows h) hls,
    fun hsub => sublist_of_forall₂ (R := flip R) hr.handle hsub (hr.rows h).flip hls.flip⟩

/-- The head has the name that stands at the head. -/
theorem head_iff (hr : Represents R rows b) {h : η} {k : κ} {x : ν} (hkx : R k x) :
    (rows h).head? = some k ↔ (b.row h).head? = some x := by
  have hrow := hr.rows h
  revert hrow
  generalize rows h = ks
  generalize b.row h = xs
  rintro (_ | ⟨hR, _⟩)
  · exact ⟨fun h => absurd h.symm (Option.some_ne_none k), fun h =>
      absurd h.symm (Option.some_ne_none x)⟩
  · rw [List.head?_cons, List.head?_cons, Option.some_inj, Option.some_inj]
    exact ⟨fun hk => hr.name (hk ▸ hR) hkx, fun hx => hr.handle (hx ▸ hR) hkx⟩

/-- A filter of the handles is one of the names. -/
theorem keep (hr : Represents R rows b) {p : η → ν → Bool} {q : η → κ → Bool} {used : Set ν}
    (hused : ∀ {h x}, x ∈ b.row h → p h x → x ∈ used)
    (hpq : ∀ {h k x}, R k x → (q h k = p h x)) (hrows : ∀ h, rows' h = (rows h).filter (q h))
    (hR : ∀ {h k x}, R k x → x ∈ b.row h → p h x → R' k x)
    (hsub : ∀ {k x}, R' k x → R k x) : Represents R' rows' (b.keep p used hused) where
  rows h := by
    rw [hrows]
    change List.Forall₂ R' _ ((b.row h).filter (p h))
    -- by induction on the row, both sides keep the same places
    have hfilter : ∀ {ks xs}, List.Forall₂ R ks xs → (∀ x ∈ xs, x ∈ b.row h) →
        List.Forall₂ R' (ks.filter (q h)) (xs.filter (p h)) := by
      intro ks xs hks hmem
      induction hks with
      | nil => exact .nil
      | @cons k x ks xs hkx hrest ih =>
        have hrest' := ih fun y hy => hmem y (List.mem_cons_of_mem _ hy)
        by_cases hx : p h x = true
        · rw [List.filter_cons_of_pos hx, List.filter_cons_of_pos (hpq hkx ▸ hx)]
          exact .cons (hR hkx (hmem x List.mem_cons_self) hx) hrest'
        · rw [List.filter_cons_of_neg hx, List.filter_cons_of_neg (hpq hkx ▸ hx)]
          exact hrest'
    exact hfilter (hr.rows h) fun _ hx => hx
  name hx hy := hr.name (hsub hx) (hsub hy)
  handle hk hk' := hr.handle (hsub hk) (hsub hk')

variable [DecidableEq η]

/-- A new handle under a new name. -/
theorem attach (hr : Represents R rows b) {h : η} {front : Bool} {k : κ} {x : ν}
    (hx : x ∉ b.used) (hfresh : ∀ y, ¬ R k y) (hunused : ∀ k', ¬ R k' x)
    (hrows : rows' = Function.update rows h (Board.place front k (rows h)))
    (hR : ∀ {k' y}, R' k' y ↔ R k' y ∨ (k' = k ∧ y = x)) :
    Represents R' rows' (b.attach h front x hx) where
  rows h' := by
    have hold : ∀ g, List.Forall₂ R' (rows g) (b.row g) :=
      fun g => (hr.rows g).imp fun _ _ hky => hR.mpr (Or.inl hky)
    have hnew : R' k x := hR.mpr (Or.inr ⟨rfl, rfl⟩)
    change List.Forall₂ R' _ (Function.update b.row h (Board.place front x (b.row h)) h')
    rw [hrows]
    -- only the hook attached to gains one, in front or at the end
    by_cases hh : h' = h
    · rw [hh, Function.update_self, Function.update_self]
      cases front with
      | true => exact .cons hnew (hold h)
      | false => exact List.rel_append (hold h) (.cons hnew .nil)
    · rw [Function.update_of_ne hh, Function.update_of_ne hh]
      exact hold h'
  name {k' y z} hy hz := by
    -- old or new: the fresh name was given to nothing before
    rcases hR.mp hy with hy | ⟨rfl, rfl⟩ <;> rcases hR.mp hz with hz | ⟨hk, rfl⟩
    · exact hr.name hy hz
    · exact absurd hy (hk ▸ hfresh y)
    · exact absurd hz (hfresh z)
    · rfl
  handle {k₁ k₂ y} h₁ h₂ := by
    -- and the unused handle had no name
    rcases hR.mp h₁ with h₁ | ⟨rfl, rfl⟩ <;> rcases hR.mp h₂ with h₂ | ⟨rfl, hy⟩
    · exact hr.handle h₁ h₂
    · exact absurd h₁ (hy ▸ hunused k₁)
    · exact absurd h₂ (hunused k₂)
    · rfl

end Represents

end HookBoard
