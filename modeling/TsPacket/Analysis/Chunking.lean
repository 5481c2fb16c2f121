import TsPacket.Analysis.Bootstrap

/-!
# Chunks

The size of a chunk in `bootstrap_ci` says how many resamples are in memory at once.  It does
not say what they are: the loop is a traversal of the rows of the stream, of which a chunk is
a stretch, the last one perhaps a short one.  This holds of every statistic of a row, one
that raises included.

## Main definitions

* `bootWrites` — the slots that the rounds of the loop assign.

## Main results

* `bootStep_frame` — a round changes no other slots.
* `bootLoop_eq_mapM` — **the loop is a traversal of the rows**, whatever the size of a chunk.
* `bootWrites_eq` — every slot is assigned once, in order.
* `bootstrap_chunk_free` — **the interval does not depend on the size of a chunk.**
-/

namespace TsPacket

open Raise

variable {F : Type}

section

variable (np : Numpy.Ops F) (stat : List F → Except Numpy.Error F) (x : List F)
  (seed nBoot chunk : ℕ)

/-- The slots that the rounds of the loop assign, in order. -/
def bootWrites : ℕ → BootState F → List ℕ
  | 0, _ => []
  | fuel + 1, s =>
    if s.done < nBoot then
      match bootStep np stat x seed nBoot chunk s with
      | .error _ => []
      | .ok s' => List.range' s.done (s'.done - s.done) ++ bootWrites fuel s'
    else []

end

/-! ### What a round assigns -/

/-- Only the slots of the slice are assigned. -/
theorem getElem?_setSlice {boots : List (Option F)} {start : ℕ} {values : List F} {i : ℕ}
    (hstart : start ≤ boots.length) (hi : i < start ∨ start + values.length ≤ i) :
    (setSlice boots start values)[i]? = boots[i]? := by
  have htake : (boots.take start).length = start := List.length_take_of_le hstart
  rw [setSlice, List.append_assoc]
  rcases hi with hi | hi
  · rw [List.getElem?_append_left (by omega), List.getElem?_take_of_lt hi]
  · rw [List.getElem?_append_right (by omega), htake,
      List.getElem?_append_right (by simp; omega), List.length_map, List.getElem?_drop]
    congr 1
    omega

/-- **A round changes no slot but those that it is said to assign.** -/
theorem bootStep_frame {np : Numpy.Ops F} {stat : List F → Except Numpy.Error F} {x : List F}
    {seed nBoot chunk : ℕ} {s s' : BootState F} (hs : s.done ≤ s.boots.length)
    (h : bootStep np stat x seed nBoot chunk s = .ok s') {i : ℕ}
    (hi : i ∉ List.range' s.done (s'.done - s.done)) : s'.boots[i]? = s.boots[i]? := by
  obtain ⟨values, hvalues, h⟩ := bind_eq_ok_iff.mp h
  obtain rfl := Except.ok.inj h
  have hlen : values.length = min chunk (nBoot - s.done) := by
    rw [length_of_mapM hvalues, List.length_map, List.length_range]
  rw [List.mem_range'_1] at hi
  dsimp only at hi ⊢
  apply getElem?_setSlice hs
  omega

/-! ### The loop -/

theorem bootStart_eq_filled (n nBoot : ℕ) :
    (bootStart nBoot : BootState F) = .filled n nBoot [] := by
  simp [bootStart, BootState.filled]

section

variable (np : Numpy.Ops F) (stat : List F → Except Numpy.Error F) (x : List F) (seed nBoot : ℕ)

/-- **The loop is a traversal of the rows**, whatever the size of a chunk. -/
theorem bootLoop_eq_mapM {chunk : ℕ} (hchunk : 0 < chunk) :
    bootLoop np stat x seed nBoot chunk (nBoot + 1) (bootStart nBoot)
      = ((List.range nBoot).mapM (rowStat np stat x seed)).map
          fun vs => .filled x.length nBoot vs := by
  have hloop : bootLoop np stat x seed nBoot chunk (nBoot + 1) (.filled x.length nBoot []) = _ :=
    bootLoop_filled np stat x seed nBoot hchunk (Nat.zero_le _) (by simp)
  simpa [bootStart_eq_filled x.length] using hloop

/-- A loop whose chunks are empty does not end. -/
theorem bootLoop_zero_chunk : ∀ {fuel : ℕ} {s : BootState F}, s.done < nBoot →
    bootLoop np stat x seed nBoot 0 fuel s = .error .diverges := by
  intro fuel
  induction fuel with
  | zero => intro s _; rfl
  | succ fuel ih =>
    intro s hs
    rw [bootLoop, if_pos hs]
    unfold bootStep
    rw [Nat.zero_min]
    exact ih hs

/-- **The rounds assign the slots in order**, each of those that are left once. -/
theorem bootWrites_eq {chunk : ℕ} (hchunk : 0 < chunk)
    (hrow : ∀ i < nBoot, ∃ v, rowStat np stat x seed i = .ok v) :
    ∀ {fuel : ℕ} {vs : List F}, vs.length ≤ nBoot → nBoot - vs.length < fuel →
      bootWrites np stat x seed nBoot chunk fuel (.filled x.length nBoot vs)
        = List.range' vs.length (nBoot - vs.length) := by
  intro fuel
  induction fuel with
  | zero => intro vs _ h; exact absurd h (Nat.not_lt_zero _)
  | succ fuel ih =>
    intro vs hle hfuel
    have hcond : (BootState.filled x.length nBoot vs).done = vs.length := rfl
    rw [bootWrites, hcond]
    by_cases hlt : vs.length < nBoot
    · -- one round writes the next slots, in order
      obtain ⟨ws, hws⟩ := exists_mapM_eq_ok_iff.mpr
        fun i (hi : i ∈ List.range (min chunk (nBoot - vs.length))) =>
          hrow (vs.length + i) (by have := List.mem_range.mp hi; omega)
      have hlen : ws.length = min chunk (nBoot - vs.length) :=
        (length_of_mapM hws).trans List.length_range
      have happ : (vs ++ ws).length = vs.length + ws.length := List.length_append
      have hdone : (BootState.filled x.length nBoot (vs ++ ws)).done = (vs ++ ws).length := rfl
      rw [if_pos hlt, bootStep_filled, hws]
      dsimp only [Except.map]
      rw [ih (by omega) (by omega), hdone, happ, Nat.add_sub_cancel_left, List.range'_append_1]
      congr 1
      omega
    · have hzero : nBoot - vs.length = 0 := by omega
      rw [if_neg hlt, hzero, List.range'_zero]

end

/-- **The interval does not depend on the size of a chunk.**  The loop ends; it raises what the
first row raises whose statistic does; if all have one, each slot is assigned once and holds
the statistic of its row of the stream. -/
theorem bootstrap_chunk_free (np : Numpy.Ops F) (stat : List F → Except Numpy.Error F)
    (x : List F) (seed : ℕ) :
    (∀ nBoot chunk, 0 < chunk →
      (∀ e, bootLoop np stat x seed nBoot chunk (nBoot + 1) (bootStart nBoot) = .error e ↔
        ((List.range nBoot).mapM fun i => stat (resample np x seed (i * x.length))) = .error e) ∧
      ∀ v : ℕ → F, (∀ i < nBoot, stat (resample np x seed (i * x.length)) = .ok (v i)) →
        bootLoop np stat x seed nBoot chunk (nBoot + 1) (bootStart nBoot)
          = .ok { done := nBoot, drawn := nBoot * x.length,
                  boots := (List.range nBoot).map fun i => some (v i) } ∧
        bootWrites np stat x seed nBoot chunk (nBoot + 1) (bootStart nBoot) = List.range nBoot) ∧
    ∀ nBoot ci chunk chunk', 0 < chunk → 0 < chunk' →
      bootstrapCiOf np stat x nBoot ci seed chunk
        = bootstrapCiOf np stat x nBoot ci seed chunk' := by
  refine ⟨fun nBoot chunk hchunk => ⟨fun e => ?_, fun v hv => ⟨?_, ?_⟩⟩,
    fun nBoot ci chunk chunk' hchunk hchunk' => ?_⟩
  · rw [bootLoop_eq_mapM np stat x seed nBoot hchunk, map_eq_error_iff]
    rfl
  · -- the loop is the map over all rows, whatever the chunks
    have hrows : (List.range nBoot).mapM (rowStat np stat x seed)
        = .ok ((List.range nBoot).map v) := by
      rw [mapM_eq_ok_iff, List.forall₂_map_right_iff, List.forall₂_same]
      exact fun i hi => hv i (List.mem_range.mp hi)
    rw [bootLoop_eq_mapM np stat x seed nBoot hchunk, hrows]
    simp [Except.map, BootState.filled]
  · rw [bootStart_eq_filled x.length, bootWrites_eq np stat x seed nBoot hchunk
      (fun i hi => ⟨v i, hv i hi⟩) (Nat.zero_le _) (by simp), List.range_eq_range']
    rfl
  · unfold bootstrapCiOf
    simp only [bootLoop_eq_mapM np stat x seed nBoot.toNat hchunk,
      bootLoop_eq_mapM np stat x seed nBoot.toNat hchunk']

/-- Three resamples, two at a time and all at once. -/
theorem bootstrap_chunk_free_short :
    let stat := resolveStatistic Numpy.exact .linear .max
    let x : List (WithTop ℚ) := [(1 : ℚ), (5 : ℚ)]
    bootWrites Numpy.exact stat x 0 3 2 4 (bootStart 3) = [0, 1, 2] ∧
      bootstrapCiOf Numpy.exact stat x 3 (1 / 2) 0 2
        = bootstrapCiOf Numpy.exact stat x 3 (1 / 2) 0 7 := by
  have hfree := bootstrap_chunk_free Numpy.exact (resolveStatistic Numpy.exact .linear .max)
    [((1 : ℚ) : WithTop ℚ), ((5 : ℚ) : WithTop ℚ)] 0
  refine ⟨((hfree.1 3 2 (by decide)).2 (fun _ => ((5 : ℚ) : WithTop ℚ)) fun i hi => ?_).2,
    hfree.2 3 (1 / 2) 2 7 (by decide) (by decide)⟩
  rcases i with _ | _ | _ | i
  · rfl
  · rfl
  · rfl
  · omega

end TsPacket
