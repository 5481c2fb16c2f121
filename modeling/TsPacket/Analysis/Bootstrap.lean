import Mathlib.Tactic.Linarith
import TsPacket.Lib.Numpy

/-!
# Bootstrap intervals

`resolve_statistic` and `bootstrap_ci` of `analysis/tsn_analysis/stats.py`.  The resamples
are drawn some rows at a time into an array that is made without values.  The seeded
generator is a stream of indices, so the rows a chunk holds depend on how far the stream was
read; the loop keeps in step with it, and every slot gets the statistic of its own row.

## Main definitions

* `resolveStatistic` — the statistic of a row.
* `bootStep`, `bootLoop` — a chunk of resamples, and the loop over the chunks.
* `bootstrapCiOf` — the point estimate with its interval, for a function of the caller.
* `bootstrapCi` — the same for one of the named statistics.

## Main results

* `bootLoop_filled` — from any point on the loop is a traversal of the rows that are left.
* `bootLoop_eq` — **the loop ends with every slot written**, each with the statistic of its
  row of the stream.
* `bootstrapCi_total` — every sample has an interval.
-/

namespace TsPacket

open Raise

variable {F : Type}

/-! ### Statistics -/

/-- The names `resolve_statistic` knows; `"p99"` is the percentile of 99. -/
inductive Statistic
  | percentile (q : ℚ)
  | mean
  | max
  | min
  | std
  deriving DecidableEq

/-- `"median"` is `"p50"`. -/
def Statistic.median : Statistic := .percentile 50

/-- A percentile has a level. -/
def Statistic.InRange : Statistic → Prop
  | .percentile q => 0 ≤ q ∧ q ≤ 100
  | _ => True

/-- The statistic of one row. -/
def resolveStatistic (np : Numpy.Ops F) (method : Numpy.Method) :
    Statistic → List F → Except Numpy.Error F
  | .percentile q, x => Numpy.percentile np method q x
  | .mean, x => Numpy.mean np x
  | .max, x => Numpy.max np x
  | .min, x => Numpy.min np x
  | .std, x => .ok (np.std x)

/-! ### The loop -/

/-- The variables of the loop: how many slots are written, how far the stream is read, and
the array. -/
structure BootState (F : Type) where
  done : ℕ
  drawn : ℕ
  boots : List (Option F)

/-- `boots[start : start + k] = values`. -/
def setSlice (boots : List (Option F)) (start : ℕ) (values : List F) : List (Option F) :=
  boots.take start ++ values.map some ++ boots.drop (start + values.length)

section

variable (np : Numpy.Ops F) (stat : List F → Except Numpy.Error F) (x : List F) (seed : ℕ)

/-- The row of indices at a place of the stream, and the values of the sample under them. -/
def resample (place : ℕ) : List F :=
  (List.range x.length).map fun j => x.getD (np.draw seed x.length (place + j)) np.nan

variable (nBoot chunk : ℕ)

/-- One round of the loop. -/
def bootStep (s : BootState F) : Except Numpy.Error (BootState F) := do
  let k := min chunk (nBoot - s.done)
  let rows := (List.range k).map fun i => resample np x seed (s.drawn + i * x.length)
  let values ← rows.mapM stat
  return { done := s.done + k, drawn := s.drawn + k * x.length,
           boots := setSlice s.boots s.done values }

/-- `while done < n_boot`. -/
def bootLoop : ℕ → BootState F → Except Numpy.Error (BootState F)
  | 0, _ => .error .diverges
  | fuel + 1, s =>
    if s.done < nBoot then bootStep np stat x seed nBoot chunk s >>= bootLoop fuel else .ok s

end

/-- The values of an array, of which none may be missing. -/
def written (boots : List (Option F)) : Except Numpy.Error (List F) :=
  boots.mapM fun slot =>
    match slot with
    | some v => .ok v
    | none => .error .uninitialised

/-! ### The interval -/

/-- The dictionary `bootstrap_ci` returns. -/
structure BootstrapCI (F : Type) where
  point : F
  low : F
  high : F
  ci : ℚ
  nBoot : ℤ

/-- The loop has not begun: the array has its slots, but no values. -/
def bootStart (n : ℕ) : BootState F where
  done := 0
  drawn := 0
  boots := List.replicate n none

/-- `bootstrap_ci`, where `statistic` is a function of the rows. -/
def bootstrapCiOf (np : Numpy.Ops F) (stat : List F → Except Numpy.Error F) (x : List F)
    (nBoot : ℤ) (ci : ℚ) (seed chunk : ℕ) : Except Numpy.Error (BootstrapCI F) :=
  if x.length = 0 then .ok { point := np.nan, low := np.nan, high := np.nan, ci, nBoot }
  else do
    let point ← stat x
    if x.length = 1 ∨ nBoot ≤ 0 then return { point, low := point, high := point, ci, nBoot }
    else
      let n := nBoot.toNat
      -- the generator is made here, so the stream starts with the loop
      let s ← bootLoop np stat x seed n chunk (n + 1) (bootStart n)
      let boots ← written s.boots
      let alpha := (1 - ci) / 2
      let low ← Numpy.percentile np .linear (100 * alpha) boots
      let high ← Numpy.percentile np .linear (100 * (1 - alpha)) boots
      return { point, low, high, ci, nBoot }

/-- `bootstrap_ci`, where `statistic` is the name of one. -/
def bootstrapCi (np : Numpy.Ops F) (x : List F) (statistic : Statistic) (nBoot : ℤ) (ci : ℚ)
    (seed chunk : ℕ) (method : Numpy.Method) : Except Numpy.Error (BootstrapCI F) :=
  bootstrapCiOf np (resolveStatistic np method statistic) x nBoot ci seed chunk

/-! ### What the loop leaves -/

/-- The loop with values in the first slots: the stream is read as far as their rows go. -/
def BootState.filled (n nBoot : ℕ) (vs : List F) : BootState F where
  done := vs.length
  drawn := vs.length * n
  boots := vs.map some ++ List.replicate (nBoot - vs.length) none

theorem setSlice_filled (nBoot : ℕ) (vs ws : List F) :
    setSlice (vs.map some ++ List.replicate (nBoot - vs.length) none) vs.length ws
      = (vs ++ ws).map some ++ List.replicate (nBoot - (vs ++ ws).length) none := by
  have hlen : (vs.map some).length = vs.length := List.length_map _
  rw [setSlice, List.take_left' hlen, List.drop_append, hlen, List.drop_eq_nil_of_le (by simp),
    List.nil_append, List.drop_replicate, List.map_append, List.length_append,
    Nat.add_sub_cancel_left, Nat.sub_sub]

theorem BootState.filled_append (n nBoot : ℕ) (vs ws : List F) :
    BootState.filled n nBoot (vs ++ ws)
      = { done := vs.length + ws.length
          drawn := vs.length * n + ws.length * n
          boots := setSlice (BootState.filled n nBoot vs).boots vs.length ws } := by
  dsimp only [BootState.filled]
  rw [setSlice_filled, List.length_append, Nat.add_mul]

section

variable (np : Numpy.Ops F) (stat : List F → Except Numpy.Error F) (x : List F) (seed : ℕ)

/-- The statistic of a row of the stream. -/
def rowStat (i : ℕ) : Except Numpy.Error F := stat (resample np x seed (i * x.length))

variable (nBoot chunk : ℕ)

/-- One round: the statistics of the next rows, as many as a chunk has or are left. -/
theorem bootStep_filled (vs : List F) :
    bootStep np stat x seed nBoot chunk (.filled x.length nBoot vs)
      = ((List.range (min chunk (nBoot - vs.length))).mapM fun i =>
          rowStat np stat x seed (vs.length + i)).map
        fun ws => .filled x.length nBoot (vs ++ ws) := by
  have hrow : (stat ∘ fun i => resample np x seed (vs.length * x.length + i * x.length))
      = fun i => rowStat np stat x seed (vs.length + i) := by
    funext i
    rw [rowStat, Nat.add_mul]
    rfl
  unfold bootStep
  dsimp only [BootState.filled]
  generalize min chunk (nBoot - vs.length) = k
  rw [List.mapM_map, hrow]
  cases h : (List.range k).mapM fun i => rowStat np stat x seed (vs.length + i) with
  | error e => rfl
  | ok ws =>
    obtain rfl : ws.length = k := (length_of_mapM h).trans List.length_range
    exact congrArg Except.ok (BootState.filled_append _ _ vs ws).symm

/-- The loop from any point on is a traversal of the rows that are left. -/
theorem bootLoop_filled {chunk : ℕ} (hchunk : 0 < chunk) :
    ∀ {fuel : ℕ} {vs : List F}, vs.length ≤ nBoot → nBoot - vs.length < fuel →
      bootLoop np stat x seed nBoot chunk fuel (.filled x.length nBoot vs)
        = ((List.range (nBoot - vs.length)).mapM fun i =>
            rowStat np stat x seed (vs.length + i)).map
          fun ws => .filled x.length nBoot (vs ++ ws) := by
  intro fuel
  induction fuel with
  -- the fuel covers the rows that are left, so it is never 0
  | zero => intro vs _ h; exact absurd h (Nat.not_lt_zero _)
  | succ fuel ih =>
    intro vs hle hfuel
    have hcond : (BootState.filled x.length nBoot vs).done = vs.length := rfl
    rw [bootLoop, hcond]
    by_cases hlt : vs.length < nBoot
    · -- `k` rows in this round, and `m` in the rounds after it
      obtain ⟨m, hm⟩ := Nat.le.dest (Nat.min_le_right chunk (nBoot - vs.length))
      have hpos : 0 < min chunk (nBoot - vs.length) := by omega
      rw [if_pos hlt, bootStep_filled]
      generalize min chunk (nBoot - vs.length) = k at hm hpos ⊢
      rw [← hm, mapM_range_add]
      cases h : (List.range k).mapM fun i => rowStat np stat x seed (vs.length + i) with
      | error e => rfl
      | ok ws =>
        have hlen : ws.length = k := (length_of_mapM h).trans List.length_range
        have hleft : nBoot - (vs ++ ws).length = m := by
          rw [List.length_append]
          omega
        have hrow : (fun i => rowStat np stat x seed ((vs ++ ws).length + i))
            = fun i => rowStat np stat x seed (vs.length + (k + i)) := by
          funext i
          rw [List.length_append, hlen, Nat.add_assoc]
        -- the rounds after it start behind the rows of this one
        have hrest : bootLoop np stat x seed nBoot chunk fuel (.filled x.length nBoot (vs ++ ws))
            = _ := ih (by simp; omega) (by omega)
        rw [hleft, hrow] at hrest
        refine hrest.trans ?_
        rw [ok_bind]
        cases (List.range m).mapM fun i => rowStat np stat x seed (vs.length + (k + i)) with
        | error e => rfl
        | ok us =>
          exact congrArg (fun l => Except.ok (BootState.filled _ _ l)) (List.append_assoc vs ws us)
    · have hdone : nBoot - vs.length = 0 := by omega
      rw [if_neg hlt, hdone]
      exact congrArg (fun l => Except.ok (BootState.filled _ _ l)) (List.append_nil vs).symm

end

/-- The loop after `done` slots: the stream is read as far as their rows go, and the slots
hold `v`. -/
def BootState.after (n nBoot : ℕ) (v : ℕ → F) (done : ℕ) : BootState F where
  done := done
  drawn := done * n
  boots := (List.range done).map (fun i => some (v i)) ++ List.replicate (nBoot - done) none

theorem BootState.after_eq_filled (n nBoot : ℕ) (v : ℕ → F) (done : ℕ) :
    BootState.after n nBoot v done = .filled n nBoot ((List.range done).map v) := by
  simp [BootState.after, BootState.filled, Function.comp_def]

/-- The values of the array, once every slot is written. -/
theorem written_filled {n nBoot : ℕ} {vs : List F} (h : vs.length = nBoot) :
    written (BootState.filled n nBoot vs).boots = .ok vs := by
  rw [BootState.filled, h, Nat.sub_self, List.replicate_zero, List.append_nil, written,
    mapM_eq_ok_iff, List.forall₂_map_left_iff, List.forall₂_same]
  exact fun v _ => rfl

section

variable {np : Numpy.Ops F} {stat : List F → Except Numpy.Error F} {x : List F} {seed : ℕ}
  {nBoot chunk : ℕ} {v : ℕ → F}

/-- **The loop ends with every slot written**, each with the statistic of its row of the
stream. -/
theorem bootLoop_eq (hchunk : 0 < chunk)
    (hv : ∀ i < nBoot, stat (resample np x seed (i * x.length)) = .ok (v i)) :
    ∀ {fuel done : ℕ}, done ≤ nBoot → nBoot - done < fuel →
      bootLoop np stat x seed nBoot chunk fuel (.after x.length nBoot v done)
        = .ok (.after x.length nBoot v nBoot) := by
  intro fuel done hdone hfuel
  have hlen : ((List.range done).map v).length = done := by simp
  -- the rows that remain all have a statistic
  have hrows : ((List.range (nBoot - done)).mapM fun i => rowStat np stat x seed (done + i))
      = .ok ((List.range (nBoot - done)).map fun i => v (done + i)) := by
    rw [mapM_eq_ok_iff, List.forall₂_map_right_iff, List.forall₂_same]
    intro i hi
    have hlt := List.mem_range.mp hi
    exact hv (done + i) (by omega)
  have hloop : bootLoop np stat x seed nBoot chunk fuel
      (.filled x.length nBoot ((List.range done).map v)) = _ :=
    bootLoop_filled np stat x seed nBoot hchunk (by omega) (by omega)
  -- written so far and still to come: together every row in order
  have hall : (List.range done).map v ++ (List.range (nBoot - done)).map (fun i => v (done + i))
      = (List.range nBoot).map v := by
    conv_rhs => rw [← Nat.add_sub_cancel' hdone, List.range_add, List.map_append, List.map_map]
    rfl
  rw [hlen, hrows] at hloop
  rw [BootState.after_eq_filled, hloop, BootState.after_eq_filled]
  exact congrArg (fun l => Except.ok (BootState.filled _ _ l)) hall

/-- The values of the rows, once every slot is written. -/
theorem written_after (n : ℕ) (v : ℕ → F) :
    written (BootState.after n nBoot v nBoot).boots = .ok ((List.range nBoot).map v) := by
  rw [BootState.after_eq_filled]
  exact written_filled (by simp)

theorem resample_ne_nil (np : Numpy.Ops F) (seed : ℕ) (hx : x ≠ []) (place : ℕ) :
    resample np x seed place ≠ [] := by
  rw [resample, ne_eq, List.map_eq_nil_iff, List.range_eq_nil, List.length_eq_zero_iff]
  exact hx

end

/-! ### The interval of a sample -/

/-- A statistic has a value on every sample that is not empty. -/
theorem exists_resolveStatistic (np : Numpy.Ops F) (method : Numpy.Method)
    {statistic : Statistic} (hstat : statistic.InRange) {x : List F} (hx : x ≠ []) :
    ∃ v, resolveStatistic np method statistic x = .ok v := by
  cases statistic with
  | percentile q => exact Numpy.exists_percentile_eq_ok_iff.mpr ⟨hstat, hx⟩
  | mean => exact Numpy.exists_nonempty_eq_ok_iff.mpr hx
  | max => exact Numpy.exists_nonempty_eq_ok_iff.mpr hx
  | min => exact Numpy.exists_nonempty_eq_ok_iff.mpr hx
  | std => exact ⟨_, rfl⟩

/-- The levels of a confidence interval are percentiles. -/
theorem levels_range {ci : ℚ} (hci : -1 ≤ ci ∧ ci ≤ 1) :
    (0 ≤ 100 * ((1 - ci) / 2) ∧ 100 * ((1 - ci) / 2) ≤ 100) ∧
      0 ≤ 100 * (1 - (1 - ci) / 2) ∧ 100 * (1 - (1 - ci) / 2) ≤ 100 := by
  obtain ⟨hlo, hhi⟩ := hci
  refine ⟨⟨?_, ?_⟩, ?_, ?_⟩ <;> linarith

section

variable {np : Numpy.Ops F} {x : List F} {statistic : Statistic} {nBoot : ℤ} {ci : ℚ}
  {seed chunk : ℕ} {method : Numpy.Method} {point : F}

/-- One value, or no resamples: the interval is the point. -/
theorem bootstrapCi_of_small (hx : x ≠ [])
    (hpoint : resolveStatistic np method statistic x = .ok point)
    (hsmall : x.length = 1 ∨ nBoot ≤ 0) :
    bootstrapCi np x statistic nBoot ci seed chunk method
      = .ok { point, low := point, high := point, ci, nBoot } := by
  unfold bootstrapCi bootstrapCiOf
  dsimp only
  rw [if_neg (mt List.length_eq_zero_iff.mp hx), hpoint]
  exact if_pos hsmall

/-- **The interval is between two percentiles of the statistics of the rows**, whatever the
size of a chunk. -/
theorem bootstrapCi_eq (hx : 1 < x.length) (hn : 0 < nBoot) (hchunk : 0 < chunk)
    (hpoint : resolveStatistic np method statistic x = .ok point) {v : ℕ → F}
    (hv : ∀ i < nBoot.toNat,
      resolveStatistic np method statistic (resample np x seed (i * x.length)) = .ok (v i)) :
    bootstrapCi np x statistic nBoot ci seed chunk method = (do
      let boots := (List.range nBoot.toNat).map v
      let low ← Numpy.percentile np .linear (100 * ((1 - ci) / 2)) boots
      let high ← Numpy.percentile np .linear (100 * (1 - (1 - ci) / 2)) boots
      return { point, low, high, ci, nBoot }) := by
  -- the array of `np.empty` is the state with nothing written
  have hstart : (bootStart nBoot.toNat : BootState F) = .after x.length nBoot.toNat v 0 := by
    rw [BootState.after, Nat.zero_mul]
    rfl
  have hloop : bootLoop np (resolveStatistic np method statistic) x seed nBoot.toNat chunk
      (nBoot.toNat + 1) (.after x.length nBoot.toNat v 0)
      = .ok (.after x.length nBoot.toNat v nBoot.toNat) :=
    bootLoop_eq hchunk hv (Nat.zero_le _) (Nat.lt_succ_of_le (Nat.sub_le _ _))
  have hempty : ¬ x.length = 0 := by omega
  have hlarge : ¬ (x.length = 1 ∨ nBoot ≤ 0) := by omega
  unfold bootstrapCi bootstrapCiOf
  dsimp only
  rw [if_neg hempty, hpoint, ok_bind, if_neg hlarge, hstart, hloop, ok_bind, written_after,
    ok_bind]

/-- **Every sample has an interval**, and that of an empty one is `nan`. -/
theorem bootstrapCi_total (np : Numpy.Ops F) (x : List F) (hstat : statistic.InRange)
    (nBoot : ℤ) (hci : -1 ≤ ci ∧ ci ≤ 1) (seed : ℕ) (hchunk : 0 < chunk)
    (method : Numpy.Method) :
    ∃ b, bootstrapCi np x statistic nBoot ci seed chunk method = .ok b ∧
      (x = [] → b = { point := np.nan, low := np.nan, high := np.nan, ci, nBoot }) := by
  by_cases hx : x = []
  · subst hx
    exact ⟨_, rfl, fun _ => rfl⟩
  · obtain ⟨point, hpoint⟩ := exists_resolveStatistic np method hstat hx
    by_cases hsmall : x.length = 1 ∨ nBoot ≤ 0
    · exact ⟨_, bootstrapCi_of_small hx hpoint hsmall, fun h => absurd h hx⟩
    · have hlen := mt List.length_eq_zero_iff.mp hx
      have hn : 0 < nBoot := by omega
      -- no resample of a nonempty sample is empty, so each has a statistic
      choose v hv using fun i : ℕ => exists_resolveStatistic np method hstat
        (resample_ne_nil np seed hx (i * x.length))
      have hne : (List.range nBoot.toNat).map v ≠ [] := by
        rw [ne_eq, List.map_eq_nil_iff, List.range_eq_nil]
        omega
      -- both levels lie between 0 and 100, so `np.percentile` takes them
      obtain ⟨hlow, hhigh⟩ := levels_range hci
      have hb : ∃ b, bootstrapCi np x statistic nBoot ci seed chunk method = .ok b := by
        rw [bootstrapCi_eq (by omega) hn hchunk hpoint fun i _ => hv i]
        dsimp only
        rw [Numpy.percentile_of_ne hlow hne, Numpy.percentile_of_ne hhigh hne]
        exact ⟨_, rfl⟩
      obtain ⟨b, hb⟩ := hb
      exact ⟨b, hb, fun h => absurd h hx⟩

end

end TsPacket
