import TsPacket.Analysis.Report

/-!
# DSCP values of several runs

`_aggregate_dscp` adds the histograms of the runs of a condition key by key, where
`dscp_distribution` of the pooled TOS values would count them at once.  The histograms are
the same dictionaries, but their keys are not in the same order: pooled they are sorted,
merged they stand in the order in which the runs brought them.  The most frequent value is
the first of these, so where several are equally frequent it depends on the runs.

## Main definitions

* `pooledTos` — the TOS values of all runs that have some.
* `dscps`, `ecns` — the DSCP and ECN values of a column.
* `DscpDistribution.Describes` — the histograms hold the counts of a column.

## Main results

* `aggregateDscp_describes` — the merged histograms hold the counts of the pooled column.
* `aggregateDscp_pools` — **merging is pooling**: no row is lost, and the histograms of DSCP
  and ECN values are those of the TOS values.
* `dominant_pools_iff` — **when the most frequent value does not depend on the runs.**
-/

namespace TsPacket

open Histogram

variable {F : Type}

/-! ### Columns -/

/-- The TOS values that are there. -/
def validTos (tos : List ℤ) : List ℤ := tos.filter fun v : ℤ => 0 ≤ v

/-- The DSCP values of a column, without what is missing. -/
def dscps (tos : List ℤ) : List ℤ := (validTos tos).map fun v : ℤ => v >>> (2 : ℕ)

/-- The ECN values of a column, without what is missing. -/
def ecns (tos : List ℤ) : List ℤ := (validTos tos).map fun v : ℤ => v % 4

/-- The TOS values of the runs that have some, one run after the other. -/
def pooledTos (runs : List (Run F)) : Option (List ℤ) :=
  if runs.filterMap Run.tos = [] then none else some (runs.filterMap Run.tos).flatten

theorem validTos_flatten (ts : List (List ℤ)) :
    validTos ts.flatten = (ts.map validTos).flatten := by
  rw [validTos, List.filter_flatten]
  rfl

theorem dscps_flatten (ts : List (List ℤ)) : dscps ts.flatten = (ts.map dscps).flatten := by
  rw [dscps, validTos_flatten, List.map_flatten, List.map_map]
  rfl

theorem ecns_flatten (ts : List (List ℤ)) : ecns ts.flatten = (ts.map ecns).flatten := by
  rw [ecns, validTos_flatten, List.map_flatten, List.map_map]
  rfl

/-! ### The histograms of a column -/

/-- The histograms hold the counts of the column. -/
structure DscpDistribution.Describes (d : DscpDistribution) (arr : List ℤ) : Prop where
  dscp : HistOf d.dscp (dscps arr)
  ecn : HistOf d.ecn (ecns arr)
  tos : HistOf d.tos (validTos arr)
  missing : d.missing + (validTos arr).length = arr.length

/-- The dictionary of a column. -/
def distributionOf (arr : List ℤ) : DscpDistribution := (dscpDistribution (some arr)).get rfl

theorem distributionOf_describes (arr : List ℤ) : (distributionOf arr).Describes arr where
  dscp := histOf_uniqueCounts (dscps arr)
  ecn := histOf_uniqueCounts (ecns arr)
  tos := histOf_uniqueCounts (validTos arr)
  missing := Nat.sub_add_cancel (List.length_filter_le _ arr)

/-- Only a run with a column has a dictionary. -/
theorem filterMap_dscpDistribution (runs : List (Run F)) :
    runs.filterMap (fun r => dscpDistribution r.tos)
      = (runs.filterMap Run.tos).map distributionOf := by
  rw [List.map_filterMap]
  congr 1

/-- Two dictionaries have the same items, missing values included. -/
structure DscpDistribution.SameCounts (d p : DscpDistribution) : Prop where
  dscp : d.dscp.Perm p.dscp
  ecn : d.ecn.Perm p.ecn
  tos : d.tos.Perm p.tos
  missing : d.missing = p.missing

/-- No key stands in a histogram twice. -/
structure DscpDistribution.DistinctKeys (d : DscpDistribution) : Prop where
  dscp : (d.dscp.map Prod.fst).Nodup
  ecn : (d.ecn.map Prod.fst).Nodup
  tos : (d.tos.map Prod.fst).Nodup

namespace DscpDistribution.Describes

variable {d p : DscpDistribution} {arr : List ℤ}

theorem distinctKeys (hd : d.Describes arr) : d.DistinctKeys :=
  ⟨hd.dscp.nodup, hd.ecn.nodup, hd.tos.nodup⟩

theorem sameCounts (hd : d.Describes arr) (hp : p.Describes arr) : d.SameCounts p where
  dscp := hd.dscp.perm hp.dscp
  ecn := hd.ecn.perm hp.ecn
  tos := hd.tos.perm hp.tos
  missing := by
    have h := hd.missing.trans hp.missing.symm
    omega

/-- In each histogram the counts and the missing values add up to the rows. -/
theorem sums (hd : d.Describes arr) :
    (d.dscp.map Prod.snd).sum + d.missing = arr.length ∧
      (d.ecn.map Prod.snd).sum + d.missing = arr.length ∧
      (d.tos.map Prod.snd).sum + d.missing = arr.length := by
  have h := hd.missing
  rw [hd.dscp.sum_eq, hd.ecn.sum_eq, hd.tos.sum_eq, dscps, ecns, List.length_map, List.length_map]
  omega

/-- The histograms of the DSCP and of the ECN values are those of the TOS values. -/
theorem marginals (hd : d.Describes arr) (k : ℤ) :
    get d.dscp k = ((d.tos.filter fun e : ℤ × ℕ => e.1 >>> (2 : ℕ) = k).map Prod.snd).sum ∧
      get d.ecn k = ((d.tos.filter fun e : ℤ × ℕ => e.1 % 4 = k).map Prod.snd).sum := by
  rw [hd.dscp.get_eq, hd.ecn.get_eq, hd.tos.sum_filter fun v : ℤ => v >>> (2 : ℕ) = k,
    hd.tos.sum_filter fun v : ℤ => v % 4 = k, dscps, ecns, List.count_eq_countP,
    List.count_eq_countP, List.countP_map, List.countP_map]
  constructor
  · exact List.countP_congr fun v _ => by simp
  · exact List.countP_congr fun v _ => by simp

end DscpDistribution.Describes

/-! ### Merged histograms -/

/-- Merged one after the other, histograms hold the counts of all samples. -/
theorem histOf_foldl_merge {α : Type} {field : α → List (ℤ × ℕ)} {sample : α → List ℤ} :
    ∀ {ds : List α} {m : List (ℤ × ℕ)} {l : List ℤ}, (∀ d ∈ ds, HistOf (field d) (sample d)) →
      HistOf m l → HistOf (ds.foldl (fun m d => merge m (field d)) m)
        (l ++ (ds.map sample).flatten) := by
  intro ds
  induction ds with
  | nil =>
    intro m l _ hm
    simpa using hm
  | cons d ds ih =>
    intro m l hds hm
    obtain ⟨hd, hds⟩ := List.forall_mem_cons.mp hds
    have hnext := ih hds (hm.merge hd)
    rw [List.append_assoc] at hnext
    exact hnext

/-- There is a dictionary if a run has a column. -/
theorem aggregateDscp_eq_none_iff (runs : List (Run F)) :
    aggregateDscp runs = none ↔ runs.filterMap Run.tos = [] := by
  unfold aggregateDscp
  dsimp only
  rw [filterMap_dscpDistribution]
  split
  case isTrue h => exact iff_of_true rfl (List.map_eq_nil_iff.mp h)
  case isFalse h => exact iff_of_false (by rintro ⟨⟩) (mt List.map_eq_nil_iff.mpr h)

/-- **The merged histograms hold the counts of the pooled column.** -/
theorem aggregateDscp_describes {runs : List (Run F)} {d : DscpDistribution}
    (h : aggregateDscp runs = some d) : d.Describes (runs.filterMap Run.tos).flatten := by
  unfold aggregateDscp at h
  dsimp only at h
  rw [filterMap_dscpDistribution] at h
  split at h
  case isTrue => cases h
  case isFalse =>
    obtain rfl := Option.some.inj h
    rw [List.foldl_map, List.foldl_map, List.foldl_map, List.map_map]
    refine ⟨?_, ?_, ?_, ?_⟩
    · rw [dscps_flatten]
      exact histOf_foldl_merge (fun arr _ => (distributionOf_describes arr).dscp) histOf_nil
    · rw [ecns_flatten]
      exact histOf_foldl_merge (fun arr _ => (distributionOf_describes arr).ecn) histOf_nil
    · rw [validTos_flatten]
      exact histOf_foldl_merge (fun arr _ => (distributionOf_describes arr).tos) histOf_nil
    · rw [validTos_flatten, List.length_flatten, List.length_flatten, List.map_map,
        ← List.sum_map_add]
      exact congrArg List.sum (List.map_congr_left fun arr _ =>
        (distributionOf_describes arr).missing)

theorem pooledTos_eq_none_iff (runs : List (Run F)) :
    pooledTos runs = none ↔ runs.filterMap Run.tos = [] := by
  rw [pooledTos]
  split
  case isTrue h => exact iff_of_true rfl h
  case isFalse h => exact iff_of_false (by rintro ⟨⟩) h

theorem pooledTos_eq_some {runs : List (Run F)} {arr : List ℤ} (h : pooledTos runs = some arr) :
    arr = (runs.filterMap Run.tos).flatten := by
  rw [pooledTos] at h
  split at h
  case isTrue => cases h
  case isFalse => exact (Option.some.inj h).symm

/-- **Merging the histograms of runs is pooling their rows.**  The merged dictionary has the
items of the dictionary of the pooled TOS values; in each histogram the counts and the missing
values add up to the rows; and the histograms of the DSCP and of the ECN values are those of
the TOS values.  There is none exactly if no run has a column. -/
theorem aggregateDscp_pools (runs : List (Run F)) :
    (aggregateDscp runs = none ↔ ∀ r ∈ runs, r.tos = none) ∧
    ∀ d, aggregateDscp runs = some d → ∃ arr p, pooledTos runs = some arr ∧
      dscpDistribution (some arr) = some p ∧
      (d.SameCounts p ∧ d.DistinctKeys ∧ p.DistinctKeys) ∧
      ((d.dscp.map Prod.snd).sum + d.missing = arr.length ∧
        (d.ecn.map Prod.snd).sum + d.missing = arr.length ∧
        (d.tos.map Prod.snd).sum + d.missing = arr.length) ∧
      ∀ k, get d.dscp k = ((d.tos.filter fun e : ℤ × ℕ => e.1 >>> (2 : ℕ) = k).map Prod.snd).sum ∧
        get d.ecn k = ((d.tos.filter fun e : ℤ × ℕ => e.1 % 4 = k).map Prod.snd).sum := by
  constructor
  · rw [aggregateDscp_eq_none_iff, List.filterMap_eq_nil_iff]
  · intro d h
    have hd := aggregateDscp_describes h
    cases harr : pooledTos runs with
    -- no run recorded TOS, so there is nothing to describe
    | none =>
      rw [pooledTos_eq_none_iff, ← aggregateDscp_eq_none_iff, h] at harr
      cases harr
    | some arr =>
      obtain rfl := pooledTos_eq_some harr
      have hp := distributionOf_describes (runs.filterMap Run.tos).flatten
      exact ⟨_, _, rfl, rfl, ⟨hd.sameCounts hp, hd.distinctKeys, hp.distinctKeys⟩, hd.sums,
        hd.marginals⟩

/-- A run with this TOS column, and nothing else. -/
def tosRun (tos : Option (List ℤ)) : Run ℚ where
  name := []
  condition := []
  runIndex := none
  seq := []
  sendNs := []
  recvNs := []
  latencyMs := []
  jitterUs := []
  pktSize := []
  tos := tos
  path := none

/-- Three runs, one of them without a column and one with a missing value. -/
theorem aggregateDscp_pools_missing :
    let runs := [tosRun (some [184, -1]), tosRun none, tosRun (some [0, 184])]
    ∃ d, aggregateDscp runs = some d ∧ d.dscp = [(46, 2), (0, 1)] ∧ d.missing = 1 ∧
      ∃ arr, pooledTos runs = some arr ∧ (d.dscp.map Prod.snd).sum + d.missing = arr.length := by
  refine ⟨_, rfl, by decide, by decide, ?_⟩
  obtain ⟨arr, p, harr, -, -, hsums, -⟩ := (aggregateDscp_pools
    [tosRun (some [184, -1]), tosRun none, tosRun (some [0, 184])]).2 _ rfl
  exact ⟨arr, harr, hsums.1⟩

/-! ### The most frequent value -/

/-- The most frequent DSCP value of the merged histograms, if there are any. -/
def mergedDominant (runs : List (Run F)) : Option (Option ℤ) :=
  (aggregateDscp runs).map DscpDistribution.dominantDscp

/-- The most frequent DSCP value of the pooled TOS values, if there are any. -/
def pooledDominant (runs : List (Run F)) : Option (Option ℤ) :=
  (dscpDistribution (pooledTos runs)).map DscpDistribution.dominantDscp

/-- The DSCP values of all runs. -/
def pooledDscps (runs : List (Run F)) : List ℤ := dscps (runs.filterMap Run.tos).flatten

/-- The DSCP value is one of the most frequent, and the smallest of them. -/
def IsLeastMode (runs : List (Run F)) (m : ℤ) : Prop := IsLeast {k | IsMode (pooledDscps runs) k} m

/-- The first of the DSCP values of a run, in order, that is one of the most frequent of all. -/
def firstMode (pooled arr : List ℤ) : Option ℤ :=
  ((uniqueCounts (dscps arr)).map Prod.fst).find? fun k => IsMode pooled k

/-- The keys of merged histograms are searched run by run. -/
theorem find?_keys_foldl_merge (q : ℤ → Bool) (ts : List (List ℤ)) :
    ∀ m : List (ℤ × ℕ), ((ts.foldl (fun m arr => merge m (distributionOf arr).dscp) m).map
        Prod.fst).find? q
      = (m.map Prod.fst ++ ts.flatMap fun arr => (uniqueCounts (dscps arr)).map Prod.fst).find?
          q := by
  induction ts with
  | nil => simp
  | cons arr ts ih =>
    intro m
    have hkeys : (distributionOf arr).dscp = uniqueCounts (dscps arr) := rfl
    have hmerge := find?_keys_merge q m (uniqueCounts (dscps arr))
    rw [List.foldl_cons, ih, List.find?_append, hkeys, List.flatMap_cons, ← List.append_assoc,
      List.find?_append, ← hmerge]

/-- **The dominant value of merged histograms** is the first mode of the first run with one. -/
theorem mergedDominant_eq {runs : List (Run F)} (h : runs.filterMap Run.tos ≠ []) :
    mergedDominant runs
      = some ((runs.filterMap Run.tos).findSome? (firstMode (pooledDscps runs))) := by
  cases hagg : aggregateDscp runs with
  | none => exact absurd ((aggregateDscp_eq_none_iff runs).mp hagg) h
  | some d =>
    -- the counts are those of the pooled column; only their order is the merge's
    have hist := (aggregateDscp_describes hagg).dscp
    have hdom : d.dominantDscp = (d.dscp.argmax Prod.snd).map Prod.fst ∧
        d.dscp = (runs.filterMap Run.tos).foldl
          (fun m arr => merge m (distributionOf arr).dscp) [] := by
      unfold aggregateDscp at hagg
      dsimp only at hagg
      rw [filterMap_dscpDistribution] at hagg
      split at hagg
      case isTrue => cases hagg
      case isFalse =>
        obtain rfl := Option.some.inj hagg
        refine ⟨?_, List.foldl_map⟩
        -- every packet of every run may be without TOS
        by_cases hempty : ((runs.filterMap Run.tos).map distributionOf).foldl
            (fun m d => merge m d.dscp) [] = []
        · simp [hempty]
        · exact if_pos hempty
    rw [mergedDominant, hagg, Option.map_some, hdom.1, hist.argmax, hdom.2,
      find?_keys_foldl_merge, List.map_nil, List.nil_append, List.find?_flatMap]
    rfl

/-- **The dominant value of the pooled column** is the least mode. -/
theorem pooledDominant_eq {runs : List (Run F)} (h : runs.filterMap Run.tos ≠ []) :
    ∃ o, pooledDominant runs = some o ∧ ∀ m, o = some m ↔ IsLeastMode runs m := by
  have hpooled : pooledTos runs = some (runs.filterMap Run.tos).flatten := if_neg h
  refine ⟨((uniqueCounts (pooledDscps runs)).argmax Prod.snd).map Prod.fst, ?_,
    fun m => argmax_uniqueCounts⟩
  rw [pooledDominant, hpooled]
  dsimp only [dscpDistribution, Option.map_some]
  split
  case isTrue => rfl
  case isFalse hvalid =>
    have hnil : pooledDscps runs = [] := by
      rw [pooledDscps, dscps, validTos, not_not.mp hvalid, List.map_nil]
    rw [hnil]
    rfl

/-- A run either has no mode, or the first it has is the least of all. -/
theorem firstMode_eq {runs : List (Run F)} {arr : List ℤ}
    (h : (∃ k ∈ dscps arr, IsMode (pooledDscps runs) k) → ∃ m ∈ dscps arr, IsLeastMode runs m) :
    firstMode (pooledDscps runs) arr = none ∨
      ∃ m, IsLeastMode runs m ∧ firstMode (pooledDscps runs) arr = some m := by
  have hist := histOf_uniqueCounts (dscps arr)
  cases hfirst : firstMode (pooledDscps runs) arr with
  | none => exact Or.inl rfl
  | some k =>
    obtain ⟨hk, hmode, hle⟩ := (find?_eq_some_iff_least (sorted_keys_uniqueCounts _)).mp hfirst
    obtain ⟨m, hm, hleast⟩ := h ⟨k, hist.mem_keys_iff.mp hk, of_decide_eq_true hmode⟩
    have hkm := hle m (hist.mem_keys_iff.mpr hm) (decide_eq_true hleast.1)
    have hmk := hleast.2 (of_decide_eq_true hmode)
    exact Or.inr ⟨m, hleast, congrArg some (le_antisymm hkm hmk)⟩

theorem mem_filterMap_tos {runs : List (Run F)} {arr : List ℤ} :
    arr ∈ runs.filterMap Run.tos ↔ ∃ r ∈ runs, r.tos = some arr := by
  simp

theorem mem_pooledDscps {runs : List (Run F)} {k : ℤ} :
    k ∈ pooledDscps runs ↔ ∃ r ∈ runs, ∃ arr, r.tos = some arr ∧ k ∈ dscps arr := by
  rw [pooledDscps, dscps_flatten]
  simp only [List.mem_flatten, List.mem_map, mem_filterMap_tos]
  constructor
  · rintro ⟨_, ⟨arr, ⟨r, hr, htos⟩, rfl⟩, hk⟩
    exact ⟨r, hr, arr, htos, hk⟩
  · rintro ⟨r, hr, arr, htos, hk⟩
    exact ⟨_, ⟨arr, ⟨r, hr, htos⟩, rfl⟩, hk⟩

/-- Every run with one of the most frequent values has the smallest of them. -/
def ModesAgree (runs : List (Run F)) : Prop :=
  ∀ r ∈ runs, ∀ arr, r.tos = some arr → (∃ k ∈ dscps arr, IsMode (pooledDscps runs) k) →
    ∃ m ∈ dscps arr, IsLeastMode runs m

/-! The runs in another order. -/

section

variable {runs runs' : List (Run F)} (h : runs'.Perm runs)

include h

theorem pooledDscps_perm : (pooledDscps runs').Perm (pooledDscps runs) :=
  (((h.filterMap Run.tos).flatten).filter _).map _

theorem isMode_perm {k : ℤ} :
    IsMode (pooledDscps runs') k ↔ IsMode (pooledDscps runs) k :=
  ⟨IsMode.of_perm (pooledDscps_perm h), IsMode.of_perm (pooledDscps_perm h).symm⟩

theorem isLeastMode_perm {m : ℤ} : IsLeastMode runs' m ↔ IsLeastMode runs m := by
  rw [IsLeastMode, IsLeastMode, show {k | IsMode (pooledDscps runs') k}
    = {k | IsMode (pooledDscps runs) k} from Set.ext fun k => isMode_perm h]

theorem ModesAgree.of_perm (hagree : ModesAgree runs) : ModesAgree runs' := by
  intro r hr arr htos hmode
  obtain ⟨k, hk, hmode⟩ := hmode
  obtain ⟨m, hm, hleast⟩ := hagree r (h.mem_iff.mp hr) arr htos ⟨k, hk, (isMode_perm h).mp hmode⟩
  exact ⟨m, hm, (isLeastMode_perm h).mpr hleast⟩

theorem pooledDominant_perm : pooledDominant runs' = pooledDominant runs := by
  have htos := h.filterMap Run.tos
  by_cases hnil : runs.filterMap Run.tos = []
  · rw [hnil] at htos
    rw [pooledDominant, pooledDominant, (pooledTos_eq_none_iff runs).mpr hnil,
      (pooledTos_eq_none_iff runs').mpr htos.eq_nil]
  · have hnil' : runs'.filterMap Run.tos ≠ [] := by
      intro hempty
      rw [hempty] at htos
      exact hnil htos.symm.eq_nil
    obtain ⟨o, ho, hleast⟩ := pooledDominant_eq hnil
    obtain ⟨o', ho', hleast'⟩ := pooledDominant_eq hnil'
    rw [ho, ho']
    refine congrArg some (Option.ext fun m => ?_)
    rw [hleast', hleast, isLeastMode_perm h]

end

/-- **Where the runs agree, merging finds the dominant value of the pooled column.** -/
theorem mergedDominant_eq_pooledDominant {runs : List (Run F)} (h : ModesAgree runs) :
    mergedDominant runs = pooledDominant runs := by
  by_cases hnil : runs.filterMap Run.tos = []
  · rw [mergedDominant, pooledDominant, (aggregateDscp_eq_none_iff runs).mpr hnil,
      (pooledTos_eq_none_iff runs).mpr hnil]
    rfl
  · obtain ⟨o, ho, hleast⟩ := pooledDominant_eq hnil
    rw [mergedDominant_eq hnil, ho]
    congr 1
    have hsound : ∀ k, (runs.filterMap Run.tos).findSome? (firstMode (pooledDscps runs)) = some k →
        IsLeastMode runs k := by
      intro k hk
      obtain ⟨arr, harr, hfirst⟩ := List.exists_of_findSome?_eq_some hk
      obtain ⟨r, hr, htos⟩ := mem_filterMap_tos.mp harr
      rcases firstMode_eq (h r hr arr htos) with hnone | ⟨m, hm, hsome⟩
      · rw [hnone] at hfirst
        cases hfirst
      · rw [hsome] at hfirst
        obtain rfl := Option.some.inj hfirst
        exact hm
    cases hfind : (runs.filterMap Run.tos).findSome? (firstMode (pooledDscps runs)) with
    | some k => exact ((hleast k).mpr (hsound k hfind)).symm
    | none =>
      cases o with
      | none => rfl
      | some m =>
        -- the run that holds the least mode would have been found
        obtain ⟨hmode, -⟩ := (hleast m).mp rfl
        obtain ⟨r, hr, arr, htos, hm⟩ := mem_pooledDscps.mp hmode.1
        have hnone := List.findSome?_eq_none_iff.mp hfind arr (mem_filterMap_tos.mpr ⟨r, hr, htos⟩)
        have hkey := (histOf_uniqueCounts (dscps arr)).mem_keys_iff.mpr hm
        exact absurd (decide_eq_true hmode) (List.find?_eq_none.mp hnone m hkey)

/-- **When the dominant value does not depend on the runs.**  It is that of the pooled TOS
values, and the same for every order of the runs, exactly if every run in which one of the most
frequent values occurs has the smallest of them. -/
theorem dominant_pools_iff (runs : List (Run F)) :
    (mergedDominant runs = pooledDominant runs ∧
      ∀ runs', runs'.Perm runs → mergedDominant runs' = mergedDominant runs) ↔
    ∀ r ∈ runs, ∀ arr, r.tos = some arr → (∃ k ∈ dscps arr, IsMode (pooledDscps runs) k) →
      ∃ m ∈ dscps arr, IsLeastMode runs m := by
  constructor
  · rintro ⟨hpooled, hperm⟩ r hr arr htos ⟨k, hk, hmode⟩
    -- this run may come first, and then its own first mode is reported
    obtain ⟨as, bs, rfl⟩ := List.append_of_mem hr
    have hfront : (r :: (as ++ bs)).Perm (as ++ r :: bs) := List.perm_middle.symm
    have hsame := hperm _ hfront
    have hfilter : (r :: (as ++ bs)).filterMap Run.tos = arr :: (as ++ bs).filterMap Run.tos :=
      List.filterMap_cons_some htos
    have hnil : (as ++ r :: bs).filterMap Run.tos ≠ [] :=
      List.ne_nil_of_mem (mem_filterMap_tos.mpr ⟨r, hr, htos⟩)
    obtain ⟨o, ho, hleast⟩ := pooledDominant_eq hnil
    cases hfirst : firstMode (pooledDscps (r :: (as ++ bs))) arr with
    | none =>
      have hkey := (histOf_uniqueCounts (dscps arr)).mem_keys_iff.mpr hk
      exact absurd (decide_eq_true ((isMode_perm hfront).mpr hmode))
        (List.find?_eq_none.mp hfirst k hkey)
    | some m =>
      rw [hpooled, ho, mergedDominant_eq (by simp [hfilter]), hfilter, List.findSome?_cons,
        hfirst] at hsame
      have hkey := List.mem_of_find?_eq_some hfirst
      exact ⟨m, (histOf_uniqueCounts (dscps arr)).mem_keys_iff.mp hkey,
        (hleast m).mp (Option.some.inj hsame).symm⟩
  · intro h
    have hagree : ModesAgree runs := h
    refine ⟨mergedDominant_eq_pooledDominant hagree, fun runs' hperm => ?_⟩
    rw [mergedDominant_eq_pooledDominant (hagree.of_perm hperm), pooledDominant_perm hperm,
      mergedDominant_eq_pooledDominant hagree]

/-- Two runs of one packet each: merged, the value of the run that comes first is reported, and
pooled the smaller one. -/
theorem dominant_of_tied_runs :
    let runs := [tosRun (some [0xb8]), tosRun (some [0])]
    mergedDominant runs = some (some 46) ∧ mergedDominant runs.reverse = some (some 0) ∧
      pooledDominant runs = some (some 0) ∧
      ¬(mergedDominant runs = pooledDominant runs ∧
        ∀ runs', runs'.Perm runs → mergedDominant runs' = mergedDominant runs) := by
  refine ⟨by decide, by decide, by decide, ?_⟩
  rintro ⟨h, -⟩
  exact absurd h (by decide)

end TsPacket
