import Mathlib.Data.List.Induction
import Mathlib.Data.List.Nodup
import Mathlib.Data.List.Perm.Basic
import Mathlib.Tactic.Common

/-!
# Dictionaries in insertion order

A dictionary that keeps its keys in the order they were first set: a list of pairs with
distinct keys.  Updating a key changes its value in place, or appends the key with a
default that is updated.  Filing the elements of a list under their keys is a loop of
updates.

## Main definitions

* `update`, `get?` — changes the value of a key, and looks it up.
* `groupBy` — the elements of a list, filed under their keys.
* `ofItems` — the dictionary of a list of items, of which a later one replaces an earlier.

## Main results

* `lookup_update`, `map_fst_update` — what an update does to the values and the keys.
* `mem_groupBy_iff` — **a group holds the elements with its key**, in their order.
* `flatMap_groupBy_perm` — no element is lost or filed twice.
* `ofItems_eq_self` — items with distinct keys are a dictionary already.
-/

namespace OrderedDict

variable {κ ν α : Type} [DecidableEq κ]

/-- `d[k] = f(d.get(k, default))`. -/
def update (k : κ) (default : ν) (f : ν → ν) : List (κ × ν) → List (κ × ν)
  | [] => [(k, f default)]
  | (k', v) :: d => if k' = k then (k', f v) :: d else (k', v) :: update k default f d

/-- The elements of the list, filed under their keys. -/
def groupBy (key : α → κ) (l : List α) : List (κ × List α) :=
  l.foldl (fun d a => update (key a) [] (· ++ [a]) d) []

/-- `{k: v for k, v in items}`. -/
def ofItems (items : List (κ × ν)) : List (κ × ν) :=
  items.foldl (fun d p => update p.1 p.2 (fun _ => p.2) d) []

/-- `d.get(k)`. -/
def get? (d : List (κ × ν)) (k : κ) : Option ν := d.lookup k

/-! ### Updates -/

variable {k : κ} {default : ν} {f : ν → ν}

theorem lookup_update (d : List (κ × ν)) (k' : κ) :
    (update k default f d).lookup k'
      = if k' = k then some (f ((d.lookup k).getD default)) else d.lookup k' := by
  induction d with
  | nil =>
    by_cases hk : k' = k
    · simp [update, hk]
    · simp [update, hk]
  | cons p d ih =>
    obtain ⟨k₀, v⟩ := p
    rw [update]
    -- the first key with this name is the one replaced
    by_cases h₀ : k₀ = k
    · subst h₀
      rw [if_pos rfl]
      by_cases hk : k' = k₀
      · simp [hk]
      · simp [hk, List.lookup_cons, beq_false_of_ne hk]
    · rw [if_neg h₀, List.lookup_cons, List.lookup_cons, List.lookup_cons, ih,
        beq_false_of_ne (Ne.symm h₀)]
      by_cases hk : k' = k₀
      · subst hk
        rw [if_neg h₀, if_neg h₀, beq_self_eq_true]
      · rw [beq_false_of_ne hk]

theorem get?_update (d : List (κ × ν)) (k' : κ) :
    get? (update k default f d) k'
      = if k' = k then some (f ((get? d k).getD default)) else get? d k' := lookup_update d k'

/-- A new key goes to the end. -/
theorem map_fst_update (d : List (κ × ν)) :
    (update k default f d).map Prod.fst
      = if k ∈ d.map Prod.fst then d.map Prod.fst else d.map Prod.fst ++ [k] := by
  induction d with
  | nil => rfl
  | cons p d ih =>
    obtain ⟨k₀, v⟩ := p
    rw [update]
    -- an old key keeps its place, a new one comes last
    by_cases h₀ : k₀ = k
    · subst h₀
      rw [if_pos rfl, List.map_cons, List.map_cons, if_pos List.mem_cons_self]
    · rw [if_neg h₀, List.map_cons, ih, List.map_cons]
      by_cases hmem : k ∈ d.map Prod.fst
      · rw [if_pos hmem, if_pos (List.mem_cons_of_mem k₀ hmem)]
      · rw [if_neg hmem, if_neg fun h => (List.mem_cons.mp h).elim (fun h => h₀ h.symm) hmem]
        rfl

/-- The keys stay distinct. -/
theorem nodup_update {d : List (κ × ν)} (hd : (d.map Prod.fst).Nodup) :
    ((update k default f d).map Prod.fst).Nodup := by
  rw [map_fst_update]
  split
  case isTrue => exact hd
  case isFalse hmem =>
    refine hd.append (List.nodup_singleton k) fun k' hk' hk => ?_
    rw [List.mem_singleton.mp hk] at hk'
    exact hmem hk'

/-- Under distinct keys an entry is what is looked up. -/
theorem mem_iff_lookup {d : List (κ × ν)} (hd : (d.map Prod.fst).Nodup) {v : ν} :
    (k, v) ∈ d ↔ d.lookup k = some v := by
  induction d with
  | nil => exact ⟨nofun, nofun⟩
  | cons p d ih =>
    obtain ⟨k₀, v₀⟩ := p
    obtain ⟨hnot, hd⟩ := List.nodup_cons.mp hd
    rw [List.mem_cons, List.lookup_cons]
    by_cases hk : k = k₀
    · subst hk
      rw [beq_self_eq_true]
      constructor
      · rintro (h | h)
        · exact congrArg some (Prod.mk.inj h).2.symm
        · exact absurd (List.mem_map_of_mem h) hnot
      · exact fun h => Or.inl (congrArg _ (Option.some.inj h).symm)
    · rw [beq_false_of_ne hk, ← ih hd]
      exact or_iff_right fun h => hk (Prod.mk.inj h).1

theorem mem_iff_get? {d : List (κ × ν)} (hd : (d.map Prod.fst).Nodup) {v : ν} :
    (k, v) ∈ d ↔ get? d k = some v := mem_iff_lookup hd

theorem update_of_not_mem {d : List (κ × ν)} (h : k ∉ d.map Prod.fst) :
    update k default f d = d ++ [(k, f default)] := by
  induction d with
  | nil => rfl
  | cons p d ih =>
    obtain ⟨k₀, v⟩ := p
    rw [List.map_cons, List.mem_cons, not_or] at h
    rw [update, if_neg (Ne.symm h.1), ih h.2]
    rfl

/-- A constant update adds no other item. -/
theorem mem_of_mem_update {v : ν} {d : List (κ × ν)} {p : κ × ν}
    (h : p ∈ update k v (fun _ => v) d) : p ∈ d ∨ p = (k, v) := by
  induction d with
  | nil => exact Or.inr (List.mem_singleton.mp h)
  | cons q d ih =>
    obtain ⟨k₀, v₀⟩ := q
    rw [update] at h
    -- the entry replaced, or one that stays
    by_cases h₀ : k₀ = k
    · subst h₀
      rw [if_pos rfl] at h
      rcases List.mem_cons.mp h with rfl | h
      · exact Or.inr rfl
      · exact Or.inl (List.mem_cons_of_mem _ h)
    · rw [if_neg h₀] at h
      rcases List.mem_cons.mp h with rfl | h
      · exact Or.inl List.mem_cons_self
      · exact (ih h).imp_left (List.mem_cons_of_mem _)

/-! ### Dictionaries of items -/

theorem ofItems_concat (items : List (κ × ν)) (p : κ × ν) :
    ofItems (items ++ [p]) = update p.1 p.2 (fun _ => p.2) (ofItems items) := by
  simp [ofItems]

theorem nodup_ofItems (items : List (κ × ν)) : ((ofItems items).map Prod.fst).Nodup := by
  induction items using List.reverseRecOn with
  | nil => exact List.nodup_nil
  | append_singleton items p ih =>
    rw [ofItems_concat]
    exact nodup_update ih

theorem mem_of_mem_ofItems {items : List (κ × ν)} {p : κ × ν} (h : p ∈ ofItems items) :
    p ∈ items := by
  induction items using List.reverseRecOn with
  | nil => exact h
  | append_singleton items q ih =>
    rw [ofItems_concat] at h
    rcases mem_of_mem_update h with h | rfl
    · exact List.mem_append_left _ (ih h)
    · simp

/-- **Items with distinct keys are a dictionary already.** -/
theorem ofItems_eq_self {items : List (κ × ν)} (h : (items.map Prod.fst).Nodup) :
    ofItems items = items := by
  induction items using List.reverseRecOn with
  | nil => rfl
  | append_singleton items p ih =>
    rw [List.map_append, List.map_singleton, List.nodup_append'] at h
    obtain ⟨hitems, -, hdisjoint⟩ := h
    have hnot : p.1 ∉ items.map Prod.fst := fun hmem => hdisjoint hmem List.mem_cons_self
    rw [ofItems_concat, ih hitems, update_of_not_mem hnot]

/-! ### Groups -/

variable {key : α → κ}

theorem groupBy_concat (l : List α) (a : α) :
    groupBy key (l ++ [a]) = update (key a) [] (· ++ [a]) (groupBy key l) := by
  rw [groupBy, List.foldl_append, ← groupBy]
  rfl

theorem nodup_groupBy (l : List α) : ((groupBy key l).map Prod.fst).Nodup := by
  induction l using List.reverseRecOn with
  | nil => exact List.nodup_nil
  | append_singleton l a ih =>
    rw [groupBy_concat]
    exact nodup_update ih

/-- What is filed under a key. -/
theorem lookup_groupBy (l : List α) (k : κ) :
    (groupBy key l).lookup k
      = if k ∈ l.map key then some (l.filter fun a => key a = k) else none := by
  induction l using List.reverseRecOn with
  | nil => rfl
  | append_singleton l a ih =>
    rw [groupBy_concat, lookup_update]
    by_cases hk : k = key a
    · subst hk
      have hmem : key a ∈ (l ++ [a]).map key :=
        List.mem_map_of_mem (List.mem_append_right l List.mem_cons_self)
      have hlast : [a].filter (fun b => decide (key b = key a)) = [a] := by simp
      rw [if_pos rfl, if_pos hmem, ih, List.filter_append, hlast]
      split
      case isTrue => rfl
      case isFalse hfirst =>
        -- the first element with this key
        have hnil : l.filter (fun b => decide (key b = key a)) = [] := by
          rw [List.filter_eq_nil_iff]
          intro b hb hkey
          exact hfirst (List.mem_map.mpr ⟨b, hb, of_decide_eq_true hkey⟩)
        rw [hnil]
        rfl
    · have hkey : ¬ key a = k := fun h => hk h.symm
      rw [if_neg hk, ih, List.map_append, List.filter_append]
      simp [hk, hkey]

/-- **A group holds the elements with its key**, in their order. -/
theorem mem_groupBy_iff {l : List α} {k : κ} {as : List α} :
    (k, as) ∈ groupBy key l ↔ as ≠ [] ∧ as = l.filter fun a => key a = k := by
  have hne : (l.filter fun a => key a = k) ≠ [] ↔ k ∈ l.map key := by
    rw [ne_eq, List.filter_eq_nil_iff, List.mem_map]
    simp
  rw [mem_iff_lookup (nodup_groupBy l), lookup_groupBy]
  by_cases hk : k ∈ l.map key
  · rw [if_pos hk, Option.some_inj]
    constructor
    · rintro rfl
      exact ⟨hne.mpr hk, rfl⟩
    · exact fun h => h.2.symm
  · rw [if_neg hk]
    refine iff_of_false nofun ?_
    rintro ⟨h, rfl⟩
    exact hk (hne.mp h)

/-- One more element goes into one group. -/
theorem flatMap_update_perm (k : κ) (a : α) (d : List (κ × List α)) :
    ((update k [] (· ++ [a]) d).flatMap Prod.snd).Perm (d.flatMap Prod.snd ++ [a]) := by
  induction d with
  | nil => simp [update]
  | cons p d ih =>
    obtain ⟨k₀, as⟩ := p
    rw [update]
    split
    -- the value moves in front of the groups behind its own
    case isTrue =>
      simp only [List.flatMap_cons, List.append_assoc]
      exact List.perm_append_comm.append_left as
    case isFalse =>
      simp only [List.flatMap_cons, List.append_assoc]
      exact ih.append_left as

/-- **The groups together hold the elements of the list**, each once. -/
theorem flatMap_groupBy_perm (l : List α) : ((groupBy key l).flatMap Prod.snd).Perm l := by
  induction l using List.reverseRecOn with
  | nil => exact List.Perm.refl []
  | append_singleton l a ih =>
    rw [groupBy_concat]
    exact (flatMap_update_perm (key a) a _).trans (ih.append_right [a])

end OrderedDict
