import Mathlib.Algebra.BigOperators.Group.List.Lemmas
import Mathlib.Algebra.GroupWithZero.Nat
import Mathlib.Data.List.Dedup
import Mathlib.Data.List.MinMax
import Mathlib.Data.List.Sort
import Mathlib.Order.Bounds.Basic
import Mathlib.Order.Lattice
import Mathlib.Tactic.Common
import TsPacket.Lib.OrderedDict

/-!
# Histograms

How often each value occurs in a sample, as the items of a dictionary.  A key that is not
there counts as zero.  A histogram may list its keys in any order: that of the values, if it
was made of the sorted sample, or that in which they came, if histograms were merged.

## Main definitions

* `uniqueCounts` — the distinct values in order, each with its count.
* `get` — the count a dictionary has for a key.
* `merge` — adds one dictionary to another.
* `HistOf` — a dictionary holds the counts of a sample, in whatever order.
* `IsMode` — no value occurs more often.

## Main results

* `get_uniqueCounts` — **the histogram of a sample holds its counts.**
* `HistOf.merge` — **merging adds the samples.**
* `HistOf.sum_filter` — the counts of some of the values are the elements with these values.
* `HistOf.argmax` — the first entry with the largest count is the first mode among the keys,
  and `argmax_uniqueCounts` the least if these are sorted.
* `find?_keys_merge` — the keys of merged histograms come in the order of the histograms.
-/

namespace Histogram

variable {α : Type} [LinearOrder α]

/-- The distinct values of a sample in order, each with the number of times it occurs. -/
def uniqueCounts (l : List α) : List (α × ℕ) :=
  (l.dedup.insertionSort (· ≤ ·)).map fun k => (k, l.count k)

/-- `d.get(k, 0)`. -/
def get (d : List (α × ℕ)) (k : α) : ℕ := (d.lookup k).getD 0

theorem lookup_map_of_mem (f : α → ℕ) {keys : List α} {k : α} (hk : k ∈ keys) :
    (keys.map fun a => (a, f a)).lookup k = some (f k) := by
  induction keys with
  | nil => cases hk
  | cons a keys ih =>
    rw [List.map_cons]
    by_cases hka : k = a
    · subst hka
      rw [List.lookup_cons_self]
    · rw [List.lookup_cons, beq_eq_false_iff_ne.mpr hka]
      exact ih ((List.mem_cons.mp hk).resolve_left hka)

theorem lookup_map_of_not_mem (f : α → ℕ) {keys : List α} {k : α} (hk : k ∉ keys) :
    (keys.map fun a => (a, f a)).lookup k = none := by
  rw [List.lookup_eq_none_iff]
  intro p hp
  obtain ⟨a, ha, rfl⟩ := List.mem_map.mp hp
  apply bne_iff_ne.mpr
  rintro rfl
  exact hk ha

/-- **The histogram of a sample holds its counts.** -/
theorem get_uniqueCounts (l : List α) (k : α) : get (uniqueCounts l) k = l.count k := by
  rw [get, uniqueCounts]
  by_cases hk : k ∈ l
  · have hkey : k ∈ l.dedup.insertionSort (· ≤ ·) :=
      (List.mem_insertionSort _).mpr (List.mem_dedup.mpr hk)
    rw [lookup_map_of_mem _ hkey, Option.getD_some]
  · have hkey : k ∉ l.dedup.insertionSort (· ≤ ·) := fun h =>
      hk (List.mem_dedup.mp ((List.mem_insertionSort _).mp h))
    rw [lookup_map_of_not_mem _ hkey, Option.getD_none, List.count_eq_zero_of_not_mem hk]

/-! ### Histograms of a sample -/

/-- The dictionary holds the counts of the sample, each value that occurs once. -/
structure HistOf (d : List (α × ℕ)) (l : List α) : Prop where
  nodup : (d.map Prod.fst).Nodup
  mem_iff : ∀ k n, (k, n) ∈ d ↔ k ∈ l ∧ n = l.count k

/-- Adds the counts of `d` to `m`, key by key. -/
def merge (m d : List (α × ℕ)) : List (α × ℕ) :=
  d.foldl (fun m p => OrderedDict.update p.1 0 (· + p.2) m) m

theorem histOf_nil : HistOf ([] : List (α × ℕ)) [] where
  nodup := List.nodup_nil
  mem_iff k n := by simp

theorem histOf_uniqueCounts (l : List α) : HistOf (uniqueCounts l) l where
  nodup := by
    have hkeys : (uniqueCounts l).map Prod.fst = l.dedup.insertionSort (· ≤ ·) := by
      simp [uniqueCounts, Function.comp_def]
    rw [hkeys]
    exact (List.perm_insertionSort _ _).nodup_iff.mpr (List.nodup_dedup l)
  mem_iff k n := by
    rw [uniqueCounts, List.mem_map]
    constructor
    · rintro ⟨k', hk', heq⟩
      obtain ⟨rfl, rfl⟩ := Prod.mk.inj heq
      exact ⟨List.mem_dedup.mp ((List.mem_insertionSort _).mp hk'), rfl⟩
    · rintro ⟨hk, rfl⟩
      exact ⟨k, (List.mem_insertionSort _).mpr (List.mem_dedup.mpr hk), rfl⟩

section

variable {d m : List (α × ℕ)} {l l' : List α}

theorem HistOf.lookup_iff (h : HistOf d l) {k : α} {n : ℕ} :
    d.lookup k = some n ↔ k ∈ l ∧ n = l.count k := by
  rw [← OrderedDict.mem_iff_lookup h.nodup, h.mem_iff]

theorem HistOf.lookup_eq_none (h : HistOf d l) {k : α} (hk : d.lookup k = none) : k ∉ l := by
  intro hmem
  have hsome := h.lookup_iff.mpr ⟨hmem, rfl⟩
  rw [hk] at hsome
  cases hsome

theorem HistOf.get_eq (h : HistOf d l) (k : α) : get d k = l.count k := by
  rw [get]
  cases hk : d.lookup k with
  | none => simp [List.count_eq_zero_of_not_mem (h.lookup_eq_none hk)]
  | some n => simp [(h.lookup_iff.mp hk).2]

theorem HistOf.mem_keys_iff (h : HistOf d l) {k : α} : k ∈ d.map Prod.fst ↔ k ∈ l := by
  constructor
  · intro hk
    obtain ⟨⟨k', n⟩, hmem, rfl⟩ := List.mem_map.mp hk
    exact ((h.mem_iff k' n).mp hmem).1
  · exact fun hk => List.mem_map_of_mem ((h.mem_iff k _).mpr ⟨hk, rfl⟩)

/-- **Two histograms of a sample are the same dictionary**, perhaps in another order. -/
theorem HistOf.perm (h : HistOf d l) (h' : HistOf m l) : d.Perm m := by
  refine (List.perm_ext_iff_of_nodup h.nodup.of_map h'.nodup.of_map).mpr ?_
  rintro ⟨k, n⟩
  rw [h.mem_iff, h'.mem_iff]

/-! ### Merging -/

theorem nodup_merge (hm : (m.map Prod.fst).Nodup) : ((merge m d).map Prod.fst).Nodup := by
  induction d generalizing m with
  | nil => exact hm
  | cons p d ih => exact ih (OrderedDict.nodup_update hm)

theorem lookup_merge (hd : (d.map Prod.fst).Nodup) (k : α) :
    (merge m d).lookup k
      = match d.lookup k with
        | none => m.lookup k
        | some n => some ((m.lookup k).getD 0 + n) := by
  induction d generalizing m with
  | nil => rfl
  | cons p d ih =>
    obtain ⟨k₀, n⟩ := p
    obtain ⟨hnot, hd⟩ := List.nodup_cons.mp hd
    have hstep : merge m ((k₀, n) :: d) = merge (OrderedDict.update k₀ 0 (· + n) m) d := rfl
    rw [hstep, ih hd, OrderedDict.lookup_update, List.lookup_cons]
    by_cases hk : k = k₀
    · subst hk
      -- the keys are distinct, so the first count is not added to again
      have hnone : d.lookup k = none := by
        rw [List.lookup_eq_none_iff]
        rintro ⟨k', n'⟩ hp
        apply bne_iff_ne.mpr
        rintro rfl
        have hkey : k ∈ d.map Prod.fst := List.mem_map_of_mem hp
        exact hnot hkey
      simp [hnone]
    · simp [beq_false_of_ne hk, hk]

/-- **Merging adds the samples.** -/
theorem HistOf.merge (hm : HistOf m l) (hd : HistOf d l') : HistOf (merge m d) (l ++ l') where
  nodup := nodup_merge hm.nodup
  mem_iff k n := by
    rw [OrderedDict.mem_iff_lookup (nodup_merge hm.nodup), lookup_merge hd.nodup,
      List.mem_append, List.count_append]
    cases hk : d.lookup k with
    | none =>
      have hnot := hd.lookup_eq_none hk
      dsimp only
      rw [hm.lookup_iff, List.count_eq_zero_of_not_mem hnot]
      simp [hnot]
    | some n' =>
      obtain ⟨hmem, rfl⟩ := hd.lookup_iff.mp hk
      have hget : (m.lookup k).getD 0 = l.count k := hm.get_eq k
      dsimp only
      rw [hget]
      simp [hmem, eq_comm]

/-- **The counts of some of the values** add up to the elements that have these values. -/
theorem HistOf.sum_filter (h : HistOf d l) (p : α → Bool) :
    ((d.filter fun e => p e.1).map Prod.snd).sum = l.countP p := by
  have hperm := ((h.perm (histOf_uniqueCounts l)).filter fun e => p e.1).map Prod.snd
  have hkeys : (((uniqueCounts l).filter fun e => p e.1).map Prod.snd)
      = ((l.dedup.insertionSort (· ≤ ·)).filter p).map fun k => l.count k := by
    rw [uniqueCounts, List.filter_map, List.map_map]
    rfl
  rw [hperm.sum_eq, hkeys, ← List.sum_map_count_dedup_filter_eq_countP p l]
  exact (((List.perm_insertionSort _ l.dedup).filter p).map _).sum_eq

/-- All counts add up to the size of the sample. -/
theorem HistOf.sum_eq (h : HistOf d l) : (d.map Prod.snd).sum = l.length := by
  have hall := h.sum_filter fun _ => true
  simpa using hall

end

/-! ### Modes -/

/-- The value occurs, and no value occurs more often. -/
def IsMode (l : List α) (k : α) : Prop := k ∈ l ∧ ∀ k' ∈ l, l.count k' ≤ l.count k

instance (l : List α) : DecidablePred (IsMode l) := fun _ => inferInstanceAs (Decidable (_ ∧ _))

theorem IsMode.of_perm {l l' : List α} {k : α} (hperm : l.Perm l') (h : IsMode l k) :
    IsMode l' k := by
  refine ⟨hperm.mem_iff.mp h.1, fun k' hk' => ?_⟩
  rw [← hperm.count_eq, ← hperm.count_eq]
  exact h.2 k' (hperm.mem_iff.mpr hk')

/-- The first element with the largest value is the first that no element exceeds. -/
theorem argmax_eq_find? {β : Type} [DecidableEq β] (f : β → ℕ) (l : List β) :
    l.argmax f = l.find? fun a => ∀ b ∈ l, f b ≤ f a := by
  cases hmax : l.argmax f with
  | none =>
    rw [List.argmax_eq_none.mp hmax]
    rfl
  | some a =>
    obtain ⟨hmem, hle, hfirst⟩ := List.argmax_eq_some_iff.mp hmax
    obtain ⟨as, bs, rfl, hnot⟩ := List.eq_append_cons_of_mem hmem
    symm
    rw [List.find?_eq_some_iff_append]
    refine ⟨decide_eq_true hle, as, bs, rfl, fun b hb => ?_⟩
    -- one that is as large does not come before it
    rw [Bool.not_eq_true', decide_eq_false_iff_not]
    intro hall
    have hplace := hfirst b (List.mem_append_left _ hb) (hall a hmem)
    rw [List.idxOf_append_of_notMem hnot, List.idxOf_append_of_mem hb,
      List.idxOf_cons_self] at hplace
    have hlt := List.idxOf_lt_length_of_mem hb
    omega

/-- **The first entry with the largest count** is the first mode among the keys. -/
theorem HistOf.argmax {d : List (α × ℕ)} {l : List α} (h : HistOf d l) :
    (d.argmax Prod.snd).map Prod.fst = (d.map Prod.fst).find? fun k => IsMode l k := by
  have hcongr : ∀ e ∈ d, decide (∀ e' ∈ d, e'.2 ≤ e.2) = decide (IsMode l e.1) := by
    rintro ⟨k, n⟩ he
    obtain ⟨hk, rfl⟩ := (h.mem_iff k n).mp he
    rw [decide_eq_decide]
    constructor
    · exact fun hall => ⟨hk, fun k' hk' => hall (k', l.count k') ((h.mem_iff k' _).mpr ⟨hk', rfl⟩)⟩
    · rintro hmode ⟨k', n'⟩ he'
      obtain ⟨hk', rfl⟩ := (h.mem_iff k' n').mp he'
      exact hmode.2 k' hk'
  rw [argmax_eq_find?, List.find?_map, ← List.head?_filter, ← List.head?_filter,
    List.filter_congr hcongr]
  rfl

/-- The keys of merged histograms are searched in the order they came in. -/
theorem find?_keys_merge (q : α → Bool) (m d : List (α × ℕ)) :
    ((merge m d).map Prod.fst).find? q = (m.map Prod.fst ++ d.map Prod.fst).find? q := by
  induction d generalizing m with
  | nil => simp [merge]
  | cons p d ih =>
    have hstep : merge m (p :: d) = merge (OrderedDict.update p.1 0 (· + p.2) m) d := rfl
    rw [hstep, ih, OrderedDict.map_fst_update, List.map_cons]
    split
    case isFalse => rw [List.append_assoc, List.singleton_append]
    case isTrue hmem =>
      -- a key that is there already is not found a second time
      rw [List.find?_append, List.find?_append, List.find?_cons]
      cases hq : q p.1 with
      | false => rfl
      | true =>
        cases hfind : (m.map Prod.fst).find? q with
        | some k => rfl
        | none =>
          have hnone := List.find?_eq_none.mp hfind p.1 hmem
          exact absurd hq hnone

/-- In a sorted list the least element of some kind is found. -/
theorem find?_eq_some_iff_least {l : List α} (h : l.Pairwise (· ≤ ·)) {q : α → Bool} {m : α} :
    l.find? q = some m ↔ m ∈ l ∧ q m = true ∧ ∀ k ∈ l, q k = true → m ≤ k := by
  have hfound : ∀ k, l.find? q = some k → k ∈ l ∧ q k = true ∧ ∀ k' ∈ l, q k' = true → k ≤ k' := by
    intro k hk
    obtain ⟨hqk, as, bs, rfl, hnot⟩ := List.find?_eq_some_iff_append.mp hk
    refine ⟨by simp, hqk, fun k' hk' hqk' => ?_⟩
    rcases List.mem_append.mp hk' with has | hbs
    · have hno := hnot k' has
      rw [hqk'] at hno
      cases hno
    · rcases List.mem_cons.mp hbs with rfl | hbs
      · exact le_refl k'
      · exact (List.pairwise_cons.mp (List.pairwise_append.mp h).2.1).1 k' hbs
  constructor
  · exact hfound m
  · rintro ⟨hm, hq, hleast⟩
    cases hfind : l.find? q with
    | none => exact absurd hq (List.find?_eq_none.mp hfind m hm)
    | some k =>
      obtain ⟨hk, hqk, hle⟩ := hfound k hfind
      exact congrArg some (le_antisymm (hle m hm hq) (hleast k hk hqk))

theorem sorted_keys_uniqueCounts (l : List α) :
    ((uniqueCounts l).map Prod.fst).Pairwise (· ≤ ·) := by
  have hkeys : (uniqueCounts l).map Prod.fst = l.dedup.insertionSort (· ≤ ·) := by
    simp [uniqueCounts, Function.comp_def]
  rw [hkeys]
  exact List.pairwise_insertionSort _ _

/-- **The first entry with the largest count of a sorted histogram** is the least mode. -/
theorem argmax_uniqueCounts {l : List α} {m : α} :
    ((uniqueCounts l).argmax Prod.snd).map Prod.fst = some m ↔ IsLeast {k | IsMode l k} m := by
  have hist := histOf_uniqueCounts l
  rw [hist.argmax, find?_eq_some_iff_least (sorted_keys_uniqueCounts l)]
  simp only [decide_eq_true_eq]
  constructor
  · rintro ⟨-, hmode, hleast⟩
    exact ⟨hmode, fun k hk => hleast k (hist.mem_keys_iff.mpr hk.1) hk⟩
  · rintro ⟨hmode, hleast⟩
    exact ⟨hist.mem_keys_iff.mpr hmode.1, hmode, fun k _ hk => hleast hk⟩

end Histogram
