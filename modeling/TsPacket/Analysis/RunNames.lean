import TsPacket.Analysis.Loader
import TsPacket.Lib.Raise

/-!
# The names of runs

`testbed/run.sh` copies the CSV of a run to `${cond}_run${run}.csv`, and `parse_name` of the
loader takes the stem apart again.  A condition may contain `_run` itself, or digits behind
it, but what follows the last underscore of a stem does not, so there is one way only to
take it apart.

## Main definitions

* `runStem` — the stem of the CSV of a run.
* `IsRunStem` — a stem that is a condition, `_run` and digits.

## Main results

* `runSuffix_eq_some_iff` — **the expression matches exactly these stems**, with their parts.
* `parseName_runStem` — what the name of a run is decoded to.
* `parseName_decodes` — **decoding undoes encoding**, accepts nothing else, and keeps
  different runs apart.
-/

namespace TsPacket

open PyText Raise

/-- The stem `run.sh` gives the CSV of a run. -/
def runStem (cond : Str) (run : ℕ) : Str := cond ++ "_run".toList ++ strOf run

/-- The stem is a condition, `_run` and digits. -/
structure IsRunStem (U : Unicode) (stem condition k : Str) : Prop where
  eq : stem = condition ++ "_run".toList ++ k
  condition_ne : condition ≠ []
  digits_ne : k ≠ []
  decimal : ∀ c ∈ k, (U.decimal c).isSome = true

/-! ### The parts of a stem -/

section

variable {U : Unicode} {stem condition k : Str}

theorem IsRunStem.cons (h : IsRunStem U stem condition k) (c : Char) :
    IsRunStem U (c :: stem) (c :: condition) k where
  eq := by simp [h.eq]
  condition_ne := List.cons_ne_nil c condition
  digits_ne := h.digits_ne
  decimal := h.decimal

/-- After the last underscore of a stem comes `run` and what is no underscore. -/
theorem not_mem_run_append (h_ : U.decimal '_' = none)
    (hk : ∀ c ∈ k, (U.decimal c).isSome = true) : '_' ∉ "run".toList ++ k := by
  rw [List.mem_append, not_or]
  refine ⟨by decide, fun hmem => ?_⟩
  have hdec := hk '_' hmem
  simp [h_] at hdec

/-- The last separator divides a list. -/
theorem append_cons_inj_of_not_mem {α : Type} {x : α} {l l' r r' : List α} (hr : x ∉ r)
    (hr' : x ∉ r') (h : l ++ x :: r = l' ++ x :: r') : l = l' ∧ r = r' := by
  rcases List.append_eq_append_iff.mp h with ⟨as, rfl, has⟩ | ⟨as, rfl, has⟩
  · cases as with
    | nil => simpa using has
    | cons y as => exact absurd (by simp [(List.cons.inj has).2]) hr
  · cases as with
    | nil => simpa using has.symm
    | cons y as => exact absurd (by simp [(List.cons.inj has).2]) hr'

/-- **There is one way only to take a stem apart.** -/
theorem IsRunStem.unique (h_ : U.decimal '_' = none) {condition' k' : Str}
    (h : IsRunStem U stem condition k) (h' : IsRunStem U stem condition' k') :
    condition = condition' ∧ k = k' := by
  have heq : condition ++ '_' :: ("run".toList ++ k)
      = condition' ++ '_' :: ("run".toList ++ k') := by
    simpa using h.eq.symm.trans h'.eq
  obtain ⟨hc, hk⟩ := append_cons_inj_of_not_mem (not_mem_run_append h_ h.decimal)
    (not_mem_run_append h_ h'.decimal) heq
  exact ⟨hc, List.append_cancel_left hk⟩

/-! ### The expression -/

/-- Without a line feed the digits go up to the end. -/
theorem runDigits_eq_some_iff {s : Str} (hs : '\n' ∉ s) :
    runDigits U s = some k ↔
      s = "_run".toList ++ k ∧ k ≠ [] ∧ ∀ c ∈ k, (U.decimal c).isSome = true := by
  constructor
  · intro h
    obtain ⟨hne, hdec, -⟩ := runDigits_spec h
    refine ⟨?_, hne, hdec⟩
    rw [runDigits] at h
    split at h
    case isFalse => cases h
    case isTrue hpre =>
      obtain ⟨t, rfl⟩ := hpre
      have hdrop : ("_run".toList ++ t).drop 4 = t := List.drop_left' rfl
      rw [hdrop] at h
      dsimp only at h
      split at h
      case isFalse => cases h
      case isTrue hrest =>
        have htake := List.takeWhile_append_dropWhile (p := fun c => (U.decimal c).isSome) (l := t)
        -- `$` matches at the end, or before one last newline
        rcases hrest.2 with hnil | hnewline
        · rw [hnil, List.append_nil] at htake
          rw [← Option.some.inj h, htake]
        · have hmem : '\n' ∈ t := by
            rw [← htake, hnewline]
            exact List.mem_append_right _ List.mem_cons_self
          exact absurd (List.mem_append_right _ hmem) hs
  · rintro ⟨rfl, hne, hdec⟩
    -- the digits run to the end of the text
    have hdrop : ("_run".toList ++ k).drop 4 = k := List.drop_left' rfl
    have htake : k.takeWhile (fun c => (U.decimal c).isSome) = k :=
      List.takeWhile_eq_self_iff.mpr hdec
    have hrest : k.dropWhile (fun c => (U.decimal c).isSome) = [] :=
      List.dropWhile_eq_nil_iff.mpr hdec
    rw [runDigits, if_pos (List.prefix_append _ _), hdrop]
    dsimp only
    rw [htake, hrest, if_pos ⟨hne, Or.inl rfl⟩]

/-- What the expression matches is a stem with its parts. -/
theorem isRunStem_of_runSuffix : ∀ {stem condition : Str}, '\n' ∉ stem →
    runSuffix U stem = some (condition, k) → IsRunStem U stem condition k := by
  intro stem
  induction stem with
  | nil => intro condition _ h; cases h
  | cons c cs ih =>
    intro condition hs h
    have hcs : '\n' ∉ cs := fun hmem => hs (List.mem_cons_of_mem c hmem)
    rw [runSuffix] at h
    split at h
    case isTrue => cases h
    case isFalse =>
      split at h
      case h_1 k' hk' =>
        cases h
        obtain ⟨rfl, hne, hdec⟩ := (runDigits_eq_some_iff hcs).mp hk'
        exact ⟨rfl, List.cons_ne_nil c [], hne, hdec⟩
      case h_2 =>
        obtain ⟨p, hp, heq⟩ := Option.map_eq_some_iff.mp h
        cases heq
        exact (ih hcs hp).cons c

/-- It matches every stem. -/
theorem exists_runSuffix : ∀ {stem condition : Str}, '\n' ∉ stem →
    IsRunStem U stem condition k → ∃ p, runSuffix U stem = some p := by
  intro stem
  induction stem with
  | nil =>
    intro condition _ h
    have hnil := h.eq
    simp at hnil
  | cons c cs ih =>
    intro condition hs h
    have hc : c ≠ '\n' := fun hc => hs (hc ▸ List.mem_cons_self)
    have hcs : '\n' ∉ cs := fun hmem => hs (List.mem_cons_of_mem c hmem)
    rw [runSuffix, if_neg hc]
    cases hdigits : runDigits U cs with
    | some k' => exact ⟨_, rfl⟩
    | none =>
      -- so the condition does not end here
      obtain ⟨c', rest, rfl⟩ := List.exists_cons_of_ne_nil h.condition_ne
      obtain ⟨rfl, heq⟩ := List.cons.inj h.eq
      have hrest : rest ≠ [] := by
        rintro rfl
        have hsome := (runDigits_eq_some_iff hcs).mpr ⟨heq, h.digits_ne, h.decimal⟩
        rw [hdigits] at hsome
        cases hsome
      obtain ⟨p, hp⟩ := ih hcs ⟨heq, hrest, h.digits_ne, h.decimal⟩
      exact ⟨_, by rw [hp]; rfl⟩

/-- **The expression matches exactly the stems with a run**, and gives their parts. -/
theorem runSuffix_eq_some_iff (h_ : U.decimal '_' = none) (hs : '\n' ∉ stem) :
    runSuffix U stem = some (condition, k) ↔ IsRunStem U stem condition k := by
  constructor
  · exact isRunStem_of_runSuffix hs
  · intro h
    obtain ⟨⟨condition', k'⟩, hp⟩ := exists_runSuffix hs h
    obtain ⟨rfl, rfl⟩ := h.unique h_ (isRunStem_of_runSuffix hs hp)
    exact hp

end

/-! ### Decoding -/

/-- A name that is decoded to a condition only. -/
theorem parseName_eq_none {U : Unicode} {stem c : Str} (hs : '\n' ∉ stem)
    (h : parseName U stem = .ok (c, none)) :
    c = stem ∧ ∀ condition ds, ¬ IsRunStem U stem condition ds := by
  rw [parseName] at h
  split at h
  case h_2 condition ds hsuffix =>
    obtain ⟨z, -, heq⟩ := map_eq_ok_iff.mp h
    cases heq
  case h_1 hsuffix =>
    cases h
    refine ⟨rfl, fun condition ds hstem => ?_⟩
    obtain ⟨p, hp⟩ := exists_runSuffix hs hstem
    rw [hsuffix] at hp
    cases hp

theorem not_mem_runStem {cond : Str} (hcond : '\n' ∉ cond) (run : ℕ) :
    '\n' ∉ runStem cond run := by
  rw [runStem, List.mem_append, List.mem_append, not_or, not_or]
  refine ⟨⟨hcond, by decide⟩, fun hmem => ?_⟩
  have hdigit := Nat.isDigit_of_mem_toDigits (b := 10) (n := run) (by omega) (by omega) hmem
  exact absurd hdigit (by decide)

section

variable {U : Unicode} (hU : U.Lawful)
include hU

/-- `int` of digits is what they denote. -/
theorem pyInt_of_decimal {ds : Str} {z : ℤ} (hne : ds ≠ [])
    (hdec : ∀ c ∈ ds, (U.decimal c).isSome = true) (h : pyInt U ds = .ok z) :
    ∃ n : ℕ, digits 10 U.decimal ds = some n ∧ z = n := by
  obtain ⟨n, hn⟩ := digits_of_decimal hU.toAscii hne hdec
  refine ⟨n, hn, ?_⟩
  rw [pyInt, intOf_eq_digits hU hdec, hn] at h
  split at h
  case h_2 => cases h
  case h_1 z' hz' =>
    split at hz'
    case isTrue => cases hz'
    case isFalse =>
      cases h
      exact (Option.some.inj hz').symm

/-- A name that is decoded to a condition and an index. -/
theorem parseName_eq_some {stem c : Str} {k : ℤ} (h : parseName U stem = .ok (c, some k)) :
    ∃ ds, runSuffix U stem = some (c, ds) ∧ ∃ n : ℕ, digits 10 U.decimal ds = some n ∧ k = n := by
  rw [parseName] at h
  split at h
  case h_1 => cases h
  case h_2 condition ds hsuffix =>
    obtain ⟨z, hz, heq⟩ := map_eq_ok_iff.mp h
    cases heq
    obtain ⟨hne, hdec, -⟩ := runSuffix_spec hsuffix
    exact ⟨ds, hsuffix, pyInt_of_decimal hU hne hdec hz⟩

theorem isRunStem_runStem {cond : Str} (hne : cond ≠ []) (run : ℕ) :
    IsRunStem U (runStem cond run) cond (strOf run) where
  eq := rfl
  condition_ne := hne
  digits_ne := Nat.toDigits_ne_nil
  decimal c hc := by
    rw [decimal_of_isDigit hU.toAscii (Nat.isDigit_of_mem_toDigits (by omega) (by omega) hc)]
    rfl

/-- **What the name of a run is decoded to**: its condition and its index, if that does not
have too many digits for `int`. -/
theorem parseName_runStem {cond : Str} (hne : cond ≠ []) (hcond : '\n' ∉ cond) (run : ℕ) :
    parseName U (runStem cond run)
      = if run < 10 ^ maxStrDigits then .ok (cond, some (run : ℤ))
        else .error (.invalidInt (strOf run)) := by
  have hstem := isRunStem_runStem hU hne run
  have hlen : (strOf run).length ≤ maxStrDigits ↔ run < 10 ^ maxStrDigits :=
    Nat.length_toDigits_le_iff (show 1 < 10 by omega) (show 0 < maxStrDigits by decide)
  have hdigits : digits 10 U.decimal (strOf run) = some run := digits_toDigits hU.toAscii run
  rw [parseName, (runSuffix_eq_some_iff (decimal_underscore hU.toAscii)
    (not_mem_runStem hcond run)).mpr hstem]
  dsimp only
  rw [pyInt, intOf_eq_digits hU hstem.decimal, hdigits]
  by_cases hrun : run < 10 ^ maxStrDigits
  · rw [if_pos hrun, if_neg (Nat.not_lt.mpr (hlen.mpr hrun))]
    rfl
  · rw [if_neg hrun, if_pos (Nat.lt_of_not_le fun h => hrun (hlen.mp h))]
    rfl

end

/-- **Names of runs decode to what was encoded**, as long as the index does not have more
digits than `int` reads: then it is a `ValueError`.  Conversely a name decodes to a condition
and an index only if it consists of these, and to none only if there is no way to take it
apart.  So different runs never decode to the same. -/
theorem parseName_decodes {U : Unicode} (hU : U.Lawful) :
    (∀ (cond : Str) (k : ℕ), cond ≠ [] → '\n' ∉ cond →
      parseName U (runStem cond k)
        = if k < 10 ^ maxStrDigits then .ok (cond, some (k : ℤ))
          else .error (.invalidInt (strOf k))) ∧
    (∀ (stem c : Str) (k : ℤ), '\n' ∉ stem → parseName U stem = .ok (c, some k) →
      ∃ ds, IsRunStem U stem c ds ∧ ∃ n : ℕ, digits 10 U.decimal ds = some n ∧ k = n) ∧
    (∀ stem c : Str, '\n' ∉ stem → parseName U stem = .ok (c, none) →
      c = stem ∧ ∀ condition ds, ¬ IsRunStem U stem condition ds) ∧
    ∀ (cond cond' : Str) (k k' : ℕ), cond ≠ [] → '\n' ∉ cond → cond' ≠ [] → '\n' ∉ cond' →
      ∀ p, parseName U (runStem cond k) = .ok p → parseName U (runStem cond' k') = .ok p →
        cond = cond' ∧ k = k' := by
  refine ⟨fun cond k hne hcond => parseName_runStem hU hne hcond k,
    fun stem c k hs h => ?_, fun stem c hs h => parseName_eq_none hs h,
    fun cond cond' k k' hne hcond hne' hcond' p hp hp' => ?_⟩
  · obtain ⟨ds, hds, hk⟩ := parseName_eq_some hU h
    exact ⟨ds, isRunStem_of_runSuffix hs hds, hk⟩
  · -- a name that parses is decoded to the two parts it was made of
    have hok : ∀ {cond : Str} {k : ℕ}, cond ≠ [] → '\n' ∉ cond →
        parseName U (runStem cond k) = .ok p → p = (cond, some (k : ℤ)) := by
      intro cond k hne hcond hp
      rw [parseName_runStem hU hne hcond] at hp
      split at hp
      case isFalse => cases hp
      case isTrue => exact (Except.ok.inj hp).symm
    have heq := (hok hne hcond hp).symm.trans (hok hne' hcond' hp')
    simpa using heq

/-- A condition that looks like the name of a run itself. -/
theorem parseName_decodes_nested :
    parseName asciiTable "a_run1_run2".toList = .ok ("a_run1".toList, some 2) :=
  ((parseName_decodes asciiTable_lawful).1 "a_run1".toList 2 (by decide) (by decide)).trans
    (if_pos (lt_maxStrDigits (z := 2) (by decide)))

/-- One digit more than `int` reads: the name is not decoded, but a `ValueError`. -/
theorem parseName_too_many_digits :
    parseName asciiTable (runStem "fifo".toList (10 ^ maxStrDigits))
      = .error (.invalidInt (strOf ((10 ^ maxStrDigits : ℕ) : ℤ))) := by
  rw [parseName_runStem asciiTable_lawful (by decide) (by decide), if_neg (lt_irrefl _)]

end TsPacket
