import TsPacket.Analysis.Chunking
import TsPacket.Analysis.Intervals
import TsPacket.Analysis.Reclocked

/-!
# Latencies under another offset of the clocks

The latency of a packet is the difference of two clocks.  If one of them is set otherwise,
every latency is shifted by the same amount: what this does to the tables, and what can be
said of the rest of them when nothing at all is known of the latencies.

## Main definitions

* `ValueRel` — what values have to do with each other, and what is computed of them.
* `Respects` — the array functions keep it.
* `latencyRel` — how it shows in the tables.

## Main results

* `transfers_of_respects` — **what the array functions keep, the tables keep.**
* `summarise_shift` — **exact latencies that are all shifted** shift the tables, and leave
  what compares them as it is.
-/

namespace Numpy

variable {F : Type} [Field F] [LinearOrder F]

/-- Of every value of a sample, how many in the pool are less, and how many are equal. -/
def ranks (pool sample : List F) : List (ℕ × ℕ) :=
  sample.map fun x => (pool.countP (· < x), pool.countP (· = x))

/-- The deviation, and a test that reads nothing off two samples but their ranks. -/
structure Ops.Textbook (np : Ops F) : Prop where
  std : ∀ {sample}, 2 ≤ sample.length → np.std sample
    = np.sqrt ((sample.map fun x => (x - sample.sum / sample.length) ^ 2).sum
      / (sample.length - 1))
  rankTest : ∃ test : List (ℕ × ℕ) → List (ℕ × ℕ) → F × F, ∀ a b,
    np.mannWhitney a b = test (ranks (a ++ b) a) (ranks (a ++ b) b)

/-- Ranks stay when all moves. -/
theorem ranks_shift [IsStrictOrderedRing F] (c : F) (pool sample : List F) :
    ranks (pool.map (· + c)) (sample.map (· + c)) = ranks pool sample := by
  unfold ranks
  rw [List.map_map]
  refine List.map_congr_left fun x _ => ?_
  simp [List.countP_map, Function.comp_def]

end Numpy

namespace TsPacket

open PyText Raise

variable {F : Type}

/-! ### Values -/

/-- What values have to do with each other, their spreads, and their ranks. -/
structure ValueRel (F : Type) where
  value : F → F → Prop
  spread : F → F → Prop
  ranks : (F × F) × Option ℚ → (F × F) × Option ℚ → Prop

section

variable (E : ValueRel F)

/-- Samples that are not empty, value by value. -/
def ValueRel.Sample (xs xs' : List F) : Prop := xs ≠ [] ∧ List.Forall₂ E.value xs xs'

/-- The functions of arrays keep it. -/
structure Respects [LinearOrder F] (np : Numpy.Ops F) (method : Numpy.Method) : Prop where
  percentile : ∀ {m q xs xs'}, m = method ∨ m = .linear → 0 ≤ q ∧ q ≤ 100 → E.Sample xs xs' →
    E.value (np.percentile m q xs) (np.percentile m q xs')
  min : ∀ {xs xs'}, E.Sample xs xs' → E.value (np.min xs) (np.min xs')
  max : ∀ {xs xs'}, E.Sample xs xs' → E.value (np.max xs) (np.max xs')
  mean : ∀ {xs xs'}, E.Sample xs xs' → E.value (np.mean xs) (np.mean xs')
  std : ∀ {xs xs'}, 2 ≤ xs.length → E.Sample xs xs' → E.spread (np.std xs) (np.std xs')
  nan : E.spread np.nan np.nan
  half : ∀ {t r s s'}, E.spread s s' →
    E.spread (np.div (np.mul t s) r) (np.div (np.mul t s') r)
  sub : ∀ {x x' h h'}, E.value x x' → E.spread h h' → E.value (np.sub x h) (np.sub x' h')
  add : ∀ {x x' h h'}, E.value x x' → E.spread h h' → E.value (np.add x h) (np.add x' h')
  ranks : ∀ {a a' b b'}, E.Sample a a' → E.Sample b b' →
    E.ranks (np.mannWhitney a b, cliffsDelta a b) (np.mannWhitney a' b', cliffsDelta a' b')

/-! ### Tables -/

/-- Two summaries of samples of one size, with values that are related. -/
structure DistributionSummary.Related (s s' : DistributionSummary F) : Prop where
  n : s.n = s'.n
  min : E.value s.min s'.min
  percentiles : List.Forall₂ (fun p p' => p.1 = p'.1 ∧ E.value p.2 p'.2) s.percentiles
    s'.percentiles
  max : E.value s.max s'.max
  mean : E.value s.mean s'.mean
  std : E.spread s.std s'.std

/-- Two intervals with ends that are related. -/
structure BootstrapCI.Related (b b' : BootstrapCI F) : Prop where
  point : E.value b.point b'.point
  low : E.value b.low b'.low
  high : E.value b.high b'.high
  ci : b.ci = b'.ci
  nBoot : b.nBoot = b'.nBoot

/-- `improvement_pct`, which the two points determine. -/
def improvementPct (np : Numpy.Ops F) (base prop : F) : F :=
  if !np.isZero base && !np.isNan base then
    np.mul (np.div (np.sub base prop) (np.abs base)) (np.ofNat 100)
  else np.nan

/-- The improvement of each is of its own points. -/
structure Comparison.Related (np : Numpy.Ops F) (c c' : Comparison F) : Prop where
  stat : c.stat = c'.stat
  percentileMethod : c.percentileMethod = c'.percentileMethod
  baseline : c.baseline.Related E c'.baseline
  proposed : c.proposed.Related E c'.proposed
  improvement : c.improvementPct = TsPacket.improvementPct np c.baseline.point c.proposed.point
  improvement' : c'.improvementPct
    = TsPacket.improvementPct np c'.baseline.point c'.proposed.point
  ranks : E.ranks ((c.mannWhitneyU, c.pValue), c.cliffsDelta)
    ((c'.mannWhitneyU, c'.pValue), c'.cliffsDelta)
  effect : c.effect = describeDelta c.cliffsDelta
  effect' : c'.effect = describeDelta c'.cliffsDelta
  nBaseline : c.nBaseline = c'.nBaseline
  nProposed : c.nProposed = c'.nProposed

/-- Fewer than three runs have no interval. -/
structure RunAggregate.Related (a a' : RunAggregate F) : Prop where
  stat : a.stat = a'.stat
  nRuns : a.nRuns = a'.nRuns
  perRun : List.Forall₂ E.value a.perRun a'.perRun
  mean : E.value a.mean a'.mean
  std : E.spread a.std a'.std
  ciLow : if a.nRuns ≥ 3 then E.value a.ciLow a'.ciLow else a.ciLow = a'.ciLow
  ciHigh : if a.nRuns ≥ 3 then E.value a.ciHigh a'.ciHigh else a.ciHigh = a'.ciHigh
  ci : a.ci = a'.ci

/-- How it shows in the tables. -/
def latencyRel (np : Numpy.Ops F) : LatencyRel F where
  distribution := DistributionSummary.Related E
  comparison := Comparison.Related E np
  aggregate := RunAggregate.Related E

end

/-! ### What is computed of related samples -/

section

variable {np : Numpy.Ops F} {E : ValueRel F}

theorem ValueRel.Sample.length_eq {xs xs' : List F} (hx : E.Sample xs xs') :
    xs.length = xs'.length := hx.2.length_eq

theorem ValueRel.Sample.right_ne {xs xs' : List F} (hx : E.Sample xs xs') : xs' ≠ [] := by
  rintro rfl
  exact hx.1 (List.forall₂_nil_right_iff.mp hx.2)

theorem ValueRel.Sample.flatten {xss xss' : List (List F)} (hne : xss ≠ [])
    (h : List.Forall₂ E.Sample xss xss') : E.Sample xss.flatten xss'.flatten := by
  constructor
  · obtain ⟨xs, xss, rfl⟩ := List.exists_cons_of_ne_nil hne
    obtain ⟨xs', xss', hx, -, rfl⟩ := List.forall₂_cons_left_iff.mp h
    exact fun hnil => hx.1 (List.append_eq_nil_iff.mp hnil).1
  · exact List.rel_flatten (h.imp fun xs xs' hx => hx.2)

/-- A function that no empty sample has. -/
theorem nonempty_alike {f : Numpy.Reduction} {reduce : List F → F}
    (hred : ∀ {xs xs'}, E.Sample xs xs' → E.value (reduce xs) (reduce xs')) {xs xs' : List F}
    (hx : List.Forall₂ E.value xs xs') :
    Alike E.value (Numpy.nonempty f reduce xs) (Numpy.nonempty f reduce xs') := by
  by_cases hne : xs = []
  · subst hne
    rw [List.forall₂_nil_left_iff.mp hx]
    exact .error _
  · have hs : E.Sample xs xs' := ⟨hne, hx⟩
    rw [Numpy.nonempty_of_ne hne, Numpy.nonempty_of_ne hs.right_ne]
    exact .ok (hred hs)

/-- Pairs of a list and of related lists. -/
theorem forall₂_zip_levels {vs vs' : List F} (h : List.Forall₂ E.value vs vs') (qs : List ℚ) :
    List.Forall₂ (fun p p' => p.1 = p'.1 ∧ E.value p.2 p'.2) (qs.zip vs) (qs.zip vs') := by
  induction h generalizing qs with
  | nil => simp
  | cons h _ ih =>
    cases qs with
    | nil => exact .nil
    | cons q qs => exact .cons ⟨rfl, h⟩ (ih qs)

theorem resample_related {xs xs' : List F} (hx : E.Sample xs xs') (seed place : ℕ) :
    E.Sample (resample np xs seed place) (resample np xs' seed place) := by
  refine ⟨resample_ne_nil np seed hx.1 place, ?_⟩
  unfold resample
  rw [← hx.length_eq, List.forall₂_map_left_iff, List.forall₂_map_right_iff]
  refine List.forall₂_same.mpr fun j _ => ?_
  have hlt := np.draw_lt seed xs.length (place + j) (List.length_pos_iff.mpr hx.1)
  have hlt' : np.draw seed xs.length (place + j) < xs'.length := by
    rw [← hx.length_eq]
    exact hlt
  rw [List.getD_eq_getElem _ _ hlt, List.getD_eq_getElem _ _ hlt']
  exact hx.2.get hlt hlt'

variable [LinearOrder F] {method : Numpy.Method} (hE : Respects E np method)
include hE

theorem percentile_alike {m : Numpy.Method} (hm : m = method ∨ m = .linear) (q : ℚ)
    {xs xs' : List F} (hx : List.Forall₂ E.value xs xs') :
    Alike E.value (Numpy.percentile np m q xs) (Numpy.percentile np m q xs') := by
  unfold Numpy.percentile
  by_cases hq : 0 ≤ q ∧ q ≤ 100
  · rw [if_pos hq, if_pos hq]
    exact nonempty_alike (fun hs => hE.percentile hm hq hs) hx
  · rw [if_neg hq, if_neg hq]
    exact .error _

/-- **The distribution of related samples.** -/
theorem distributionSummary_alike {xs xs' : List F} (hx : E.Sample xs xs') (levels : List ℚ) :
    Alike (DistributionSummary.Related E) (distributionSummary np xs levels method)
      (distributionSummary np xs' levels method) := by
  unfold distributionSummary percentiles
  rw [if_neg hx.1, if_neg hx.right_ne, if_neg hx.1, if_neg hx.right_ne]
  refine (Alike.mapM_same fun q _ => percentile_alike hE (Or.inl rfl) q hx.2).bind
    fun ps ps' hps => ?_
  refine (nonempty_alike hE.min hx.2).bind fun lo lo' hlo => ?_
  refine (nonempty_alike hE.max hx.2).bind fun hi hi' hhi => ?_
  refine (nonempty_alike hE.mean hx.2).bind fun mid mid' hmid => .ok ?_
  refine ⟨hx.length_eq, hlo, forall₂_zip_levels hps levels, hhi, hmid, ?_⟩
  dsimp only
  rw [← hx.length_eq]
  split
  case isTrue hlen => exact hE.std hlen hx
  case isFalse => exact hE.nan

/-- **The interval of related samples**, from resamples at the same places. -/
theorem bootstrapCi_alike {xs xs' : List F} (hx : E.Sample xs xs') (q : ℚ) (nBoot : ℤ) (ci : ℚ)
    (seed : ℕ) :
    Alike (BootstrapCI.Related E)
      (bootstrapCi np xs (.percentile q) nBoot ci seed defaultChunk method)
      (bootstrapCi np xs' (.percentile q) nBoot ci seed defaultChunk method) := by
  have hchunk : 0 < defaultChunk := by decide
  rw [bootstrapCi, bootstrapCi]
  unfold bootstrapCiOf
  rw [← hx.length_eq, if_neg (mt List.length_eq_zero_iff.mp hx.1),
    if_neg (mt List.length_eq_zero_iff.mp hx.1)]
  refine (percentile_alike hE (Or.inl rfl) q hx.2).bind fun point point' hpoint => ?_
  by_cases hsmall : xs.length = 1 ∨ nBoot ≤ 0
  · rw [if_pos hsmall, if_pos hsmall]
    exact .ok ⟨hpoint, hpoint, hpoint, rfl, rfl⟩
  · rw [if_neg hsmall, if_neg hsmall]
    -- the slots of the array, which are all written
    have hloop : Alike (fun s s' => List.Forall₂ (Option.Rel E.value) s.boots s'.boots)
        (bootLoop np (resolveStatistic np method (.percentile q)) xs seed nBoot.toNat defaultChunk
          (nBoot.toNat + 1) (bootStart nBoot.toNat))
        (bootLoop np (resolveStatistic np method (.percentile q)) xs' seed nBoot.toNat defaultChunk
          (nBoot.toNat + 1) (bootStart nBoot.toNat)) := by
      rw [bootLoop_eq_mapM _ _ _ _ _ hchunk, bootLoop_eq_mapM _ _ _ _ _ hchunk]
      refine (Alike.mapM_same (S := E.value) fun i _ => ?_).map fun vs vs' hvs => ?_
      · unfold rowStat
        rw [← hx.length_eq]
        exact percentile_alike hE (Or.inl rfl) q (resample_related hx seed _).2
      · unfold BootState.filled
        rw [← hvs.length_eq]
        refine List.rel_append ?_ (List.forall₂_same.mpr fun o ho => ?_)
        · rw [List.forall₂_map_left_iff, List.forall₂_map_right_iff]
          exact hvs.imp fun v v' hv => .some hv
        · rw [List.eq_of_mem_replicate ho]
          exact .none
    refine hloop.bind fun s s' hs => ?_
    have hwritten : Alike (List.Forall₂ E.value) (written s.boots) (written s'.boots) := by
      refine Alike.mapM hs fun o o' ho => ?_
      cases ho with
      | some hv => exact .ok hv
      | none => exact .error _
    refine hwritten.bind fun vs vs' hvs => ?_
    refine (percentile_alike hE (Or.inr rfl) _ hvs).bind fun lo lo' hlo => ?_
    refine (percentile_alike hE (Or.inr rfl) _ hvs).bind fun hi hi' hhi => .ok ?_
    exact ⟨hpoint, hlo, hhi, rfl, rfl⟩

theorem compare_alike {a a' b b' : List F} (ha : E.Sample a a') (hb : E.Sample b b') (q : ℚ)
    (nBoot : ℤ) (ci : ℚ) (seed : ℕ) :
    Alike (Comparison.Related E np) (compare np a b (.percentile q) nBoot ci seed method)
      (compare np a' b' (.percentile q) nBoot ci seed method) := by
  have hranks : ∀ {xs ys : List F}, xs ≠ [] → ys ≠ [] →
      mannWhitney np xs ys = np.mannWhitney xs ys := by
    intro xs ys hxs hys
    exact if_neg (not_or.mpr ⟨mt List.length_eq_zero_iff.mp hxs, mt List.length_eq_zero_iff.mp hys⟩)
  unfold compare
  refine (bootstrapCi_alike hE ha q nBoot ci seed).bind fun x x' hx => ?_
  refine (bootstrapCi_alike hE hb q nBoot ci (seed + 1)).bind fun y y' hy => .ok ?_
  refine ⟨rfl, rfl, hx, hy, rfl, rfl, ?_, rfl, rfl, ha.length_eq, hb.length_eq⟩
  dsimp only
  rw [hranks ha.1 hb.1, hranks ha.right_ne hb.right_ne]
  exact hE.ranks ha hb

theorem perRunAggregate_alike {vs vs' : List (List F)} (hne : vs ≠ [])
    (hvs : List.Forall₂ E.Sample vs vs') (q ci : ℚ) :
    Alike (RunAggregate.Related E) (perRunAggregate np vs (.percentile q) ci method)
      (perRunAggregate np vs' (.percentile q) ci method) := by
  -- the statistic of each run
  have hperRun : Alike (fun ps ps' => ps ≠ [] ∧ List.Forall₂ E.value ps ps')
      (vs.mapM (resolveStatistic np method (.percentile q)))
      (vs'.mapM (resolveStatistic np method (.percentile q))) := by
    refine (Alike.mapM hvs fun v v' hv => percentile_alike hE (Or.inl rfl) q hv.2).and_left
      fun ps hps hnil => hne ?_
    rw [← List.length_eq_zero_iff, ← length_of_mapM hps, hnil, List.length_nil]
  unfold perRunAggregate
  refine hperRun.bind fun ps ps' hps => ?_
  have hsample : E.Sample ps ps' := hps
  have hpos : ps.length ≠ 0 := mt List.length_eq_zero_iff.mp hps.1
  dsimp only
  rw [← hsample.length_eq, if_pos hpos, if_pos hpos]
  refine (nonempty_alike hE.mean hps.2).bind fun mid mid' hmid => ?_
  -- the spread, which a single run does not have
  have hstd : E.spread (if ps.length > 1 then np.std ps else np.nan)
      (if ps.length > 1 then np.std ps' else np.nan) := by
    split
    case isTrue hlen => exact hE.std hlen hsample
    case isFalse => exact hE.nan
  -- the interval, which two runs do not have
  by_cases hthree : ps.length ≥ 3
  · have hhalf := hE.std (Nat.le_of_succ_le hthree) hsample
    rw [if_pos hthree, if_pos hthree]
    refine .ok ⟨rfl, rfl, hps.2, hmid, hstd, ?_, ?_, rfl⟩
    · rw [if_pos hthree]
      exact hE.sub hmid (hE.half hhalf)
    · rw [if_pos hthree]
      exact hE.add hmid (hE.half hhalf)
  · rw [if_neg hthree, if_neg hthree]
    refine .ok ⟨rfl, rfl, hps.2, hmid, hstd, ?_, ?_, rfl⟩
    · rw [if_neg hthree]
    · rw [if_neg hthree]

/-- **What the array functions keep, the tables keep.** -/
theorem transfers_of_respects {args : SummaryArgs} (hmethod : args.method = method) :
    Transfers np args E.Sample (latencyRel E np) := by
  subst hmethod
  exact
    { length := fun hx => hx.length_eq
      flatten := fun hne h => ValueRel.Sample.flatten hne h
      distribution := fun hx => distributionSummary_alike hE hx _
      comparison := fun _ ha hb => compare_alike hE ha hb _ _ _ _
      aggregate := fun hne hvs => perRunAggregate_alike hE hne hvs _ _ }

end

/-! ### Nothing known -/

/-- Nothing is known of the values. -/
def anyValues : ValueRel F := ⟨fun _ _ => True, fun _ _ => True, fun _ _ => True⟩

theorem respects_anyValues [LinearOrder F] (np : Numpy.Ops F) (method : Numpy.Method) :
    Respects anyValues np method := by
  constructor <;> intros <;> trivial

/-- **The number of latencies is all that the rest of the tables reads off them.** -/
theorem transfers_anyValues [LinearOrder F] (np : Numpy.Ops F) (args : SummaryArgs) :
    Transfers np args anyValues.Sample (latencyRel anyValues np) :=
  transfers_of_respects (respects_anyValues np args.method) rfl

/-! ### All shifted -/

section

variable [Field F] [LinearOrder F]

/-- All values are shifted, and the rest stays. -/
def shiftBy (c : F) : ValueRel F := ⟨fun x x' => x' = x + c, Eq, Eq⟩

omit [LinearOrder F] in
theorem sample_shiftBy_iff {c : F} {xs xs' : List F} :
    (shiftBy c).Sample xs xs' ↔ xs ≠ [] ∧ xs' = xs.map (· + c) := by
  refine and_congr_right fun _ => ?_
  rw [eq_comm, ← List.forall₂_eq_eq_eq, List.forall₂_map_left_iff]
  exact ⟨fun h => h.imp fun _ _ h => h.symm, fun h => h.imp fun _ _ h => h.symm⟩

variable [IsStrictOrderedRing F] {np : Numpy.Ops F} (hnp : np.Exact) (hstat : np.Textbook)
include hstat

theorem std_shift (c : F) {xs : List F} (hlen : 2 ≤ xs.length) :
    np.std (xs.map (· + c)) = np.std xs := by
  have hne : xs ≠ [] := by
    rintro rfl
    rw [List.length_nil] at hlen
    omega
  rw [hstat.std hlen, hstat.std (by rwa [List.length_map]), Quantile.mean_shift c hne,
    List.length_map, List.map_map]
  simp [Function.comp_def]

include hnp

/-- **Exact functions of arrays move with their samples**, or stay. -/
theorem respects_shiftBy (c : F) : Respects (shiftBy c) np .linear where
  -- a percentile, an extreme and the mean move with the sample
  percentile := by
    rintro m q xs xs' (rfl | rfl) ⟨hlo, hhi⟩ hx <;>
    · obtain ⟨hne, rfl⟩ := sample_shiftBy_iff.mp hx
      have hne' : xs.map (· + c) ≠ [] := mt List.map_eq_nil_iff.mp hne
      show np.percentile .linear q (xs.map (· + c)) = np.percentile .linear q xs + c
      rw [hnp.percentile hlo hhi hne', hnp.percentile hlo hhi hne, Quantile.percentile_shift c hne]
  min := by
    intro xs xs' hx
    obtain ⟨hne, rfl⟩ := sample_shiftBy_iff.mp hx
    have hleast := hnp.min (mt List.map_eq_nil_iff.mp hne : xs.map (· + c) ≠ [])
    obtain ⟨hmem, hlow⟩ := hnp.min hne
    refine hleast.unique ⟨List.mem_map.mpr ⟨_, hmem, rfl⟩, fun y hy => ?_⟩
    obtain ⟨x, hxs, rfl⟩ := List.mem_map.mp hy
    exact add_le_add_left (hlow hxs) c
  max := by
    intro xs xs' hx
    obtain ⟨hne, rfl⟩ := sample_shiftBy_iff.mp hx
    have hgreatest := hnp.max (mt List.map_eq_nil_iff.mp hne : xs.map (· + c) ≠ [])
    obtain ⟨hmem, hhigh⟩ := hnp.max hne
    refine hgreatest.unique ⟨List.mem_map.mpr ⟨_, hmem, rfl⟩, fun y hy => ?_⟩
    obtain ⟨x, hxs, rfl⟩ := List.mem_map.mp hy
    exact add_le_add_left (hhigh hxs) c
  mean := by
    intro xs xs' hx
    obtain ⟨hne, rfl⟩ := sample_shiftBy_iff.mp hx
    show np.mean (xs.map (· + c)) = np.mean xs + c
    rw [hnp.mean (mt List.map_eq_nil_iff.mp hne), hnp.mean hne, Quantile.mean_shift c hne]
  -- the spread and the half width of an interval stay
  std := by
    intro xs xs' hlen hx
    obtain ⟨hne, rfl⟩ := sample_shiftBy_iff.mp hx
    exact (std_shift hstat c hlen).symm
  nan := rfl
  half := by
    rintro t r s s' rfl
    rfl
  -- so do the ends of an interval around a mean that moves
  sub := by
    rintro x x' h h' rfl rfl
    show np.sub (x + c) h = np.sub x h + c
    rw [hnp.sub, hnp.sub]
    ring
  add := by
    rintro x x' h h' rfl rfl
    show np.add (x + c) h = np.add x h + c
    rw [hnp.add, hnp.add]
    ring
  -- the ranks are those of the values before: adding a constant keeps the order
  ranks := by
    intro a a' b b' ha hb
    obtain ⟨hane, rfl⟩ := sample_shiftBy_iff.mp ha
    obtain ⟨hbne, rfl⟩ := sample_shiftBy_iff.mp hb
    obtain ⟨test, htest⟩ := hstat.rankTest
    have hmono : StrictMono fun x : F => x + c := fun x y hxy => add_lt_add_left hxy c
    show (np.mannWhitney a b, cliffsDelta a b) = _
    rw [htest, htest, ← List.map_append, Numpy.ranks_shift, Numpy.ranks_shift,
      cliffsDelta_eq hane hbne, cliffsDelta_eq (mt List.map_eq_nil_iff.mp hane)
      (mt List.map_eq_nil_iff.mp hbne), balance_map hmono]

theorem transfers_shiftBy (c : F) {args : SummaryArgs} (hmethod : args.method = .linear) :
    Transfers np args (shiftBy c).Sample (latencyRel (shiftBy c) np) :=
  transfers_of_respects (respects_shiftBy hnp hstat c) hmethod

end

/-! ### Exact rationals -/

theorem countP_lt_countP {α : Type} {p q : α → Bool} {l : List α} (hpq : ∀ x ∈ l, p x → q x)
    {a : α} (ha : a ∈ l) (hp : ¬ p a) (hq : q a) : l.countP p < l.countP q := by
  induction l with
  | nil => exact absurd ha List.not_mem_nil
  | cons b l ih =>
    rw [List.forall_mem_cons] at hpq
    have hle : l.countP p ≤ l.countP q := List.countP_mono_left hpq.2
    rw [List.countP_cons, List.countP_cons]
    rcases List.mem_cons.mp ha with rfl | ha
    · rw [if_neg hp, if_pos hq]
      omega
    · have hlt := ih hpq.2 ha
      by_cases hb : p b
      · rw [if_pos hb, if_pos (hpq.1 hb)]
        omega
      · rw [if_neg hb]
        omega

/-- The ranks of two values of the pool are ordered as the values are. -/
theorem countP_lt_iff {pool : List ℚ} {x y : ℚ} (hy : y ∈ pool) :
    pool.countP (· < y) < pool.countP (· < x) ↔ y < x := by
  constructor
  · intro h
    by_contra hle
    refine absurd h (not_lt.mpr (List.countP_mono_left fun z _ hz => ?_))
    exact decide_eq_true ((of_decide_eq_true hz).trans_le (not_lt.mp hle))
  · intro h
    refine countP_lt_countP (fun z _ hz => ?_) hy ?_ ?_
    · exact decide_eq_true ((of_decide_eq_true hz).trans h)
    · simp
    · exact decide_eq_true h

theorem countP_product_map {α β : Type} (f : α → β) (p : β × β → Bool) (l m : List α) :
    (l.map f ×ˢ m.map f).countP p = (l ×ˢ m).countP fun x => p (f x.1, f x.2) := by
  induction l with
  | nil => rfl
  | cons a l ih =>
    rw [List.map_cons, List.product_cons, List.product_cons, List.countP_append,
      List.countP_append, ih, List.map_map, List.countP_map, List.countP_map]
    rfl

theorem exactRational_textbook (draws : List ℕ) : (exactRational draws).Textbook where
  std _ := rfl
  rankTest := by
    refine ⟨fun r s => (((r ×ˢ s).countP fun p => p.2.1 < p.1.1 : ℕ)
      + ((r ×ˢ s).countP fun p => p.1.1 = p.2.1 : ℕ) / 2, 1), fun a b => ?_⟩
    have hmem : ∀ p ∈ a ×ˢ b, p.1 ∈ a ++ b ∧ p.2 ∈ a ++ b := fun p hp =>
      ⟨List.mem_append_left _ (List.mem_product.mp hp).1,
        List.mem_append_right _ (List.mem_product.mp hp).2⟩
    -- who is above whom, and who is tied, can be seen from the ranks
    have hlt : ((a ×ˢ b).countP fun p => p.2 < p.1)
        = (a ×ˢ b).countP fun p => (a ++ b).countP (· < p.2) < (a ++ b).countP (· < p.1) := by
      refine List.countP_congr fun p hp => ?_
      simp only [decide_eq_true_eq]
      exact (countP_lt_iff (hmem p hp).2).symm
    have htie : ((a ×ˢ b).countP fun p => p.1 = p.2)
        = (a ×ˢ b).countP fun p => (a ++ b).countP (· < p.1) = (a ++ b).countP (· < p.2) := by
      refine List.countP_congr fun p hp => ?_
      simp only [decide_eq_true_eq]
      constructor
      · intro heq
        rw [heq]
      · intro heq
        by_contra hne
        rcases lt_or_gt_of_ne hne with h | h
        · exact absurd heq ((countP_lt_iff (hmem p hp).1).mpr h).ne
        · exact absurd heq ((countP_lt_iff (hmem p hp).2).mpr h).ne'
    unfold Numpy.ranks
    dsimp only
    rw [countP_product_map, countP_product_map]
    show ((((a ×ˢ b).countP fun p => p.2 < p.1 : ℕ) : ℚ)
      + ((a ×ˢ b).countP fun p => p.1 = p.2 : ℕ) / 2, (1 : ℚ)) = _
    rw [hlt, htie]

end TsPacket
