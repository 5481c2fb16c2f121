import TsPacket.Analysis.SanitizeJson
import TsPacket.Lib.JsonText

/-!
# Reading the JSON of a summary

The text that `to_json` and `write_json` of `analysis/tsn_analysis/report.py` make is read
again by `json.loads`.  What `float` makes of a text is a parameter; the text of a double is
its `repr`, of which `float` makes the double again.  So is what a decoder does with `NaN` and
the infinities (`parse_constant`), and no text gives it anything to do.

## Main definitions

* `jsonDecoder` — what `json.loads` makes of scalars.
* `ReadsRepr` — `float` undoes `repr`.

## Main results

* `loads_toJson` — **the text is ASCII and is read as the sanitized summary**, whatever is done
  with constants.
-/

namespace TsPacket

open PyText PyData JsonText Raise

variable {D N : Type}

/-- `json.loads`: `parse` is `float` of the text of a number, `constant` is `parse_constant`. -/
def jsonDecoder (U : Unicode) (parse : Str → Option (PyFloat D)) (constant : Str → Scalar D N) :
    Decoder (Scalar D N) where
  null := .none
  bool b := .bool b
  str s := .str s
  int s := (intOf U s).map .int
  float s := (parse s).map .float
  constant := constant

/-- The `repr` of a double is the text of a float, and `float` undoes it. -/
def ReadsRepr (fl : FloatTypes D N) (parse : Str → Option (PyFloat D)) : Prop :=
  ∀ d, scanNumber (fl.repr d) = some (fl.repr d, true, []) ∧
    parse (fl.repr d) = some (.finite d)

/-! ### Scalars -/

/-- A number has no characters outside ASCII. -/
theorem ascii_of_scanNumber {s : Str} {r : Str × Bool × Str} (h : scanNumber s = some r) :
    Ascii r.1 := by
  -- digits and signs
  have hdigits : ∀ s : Str, Ascii (spanDigits s).1 := fun s c hc => by
    have hle := (toNat_of_isDigit (List.mem_takeWhile_imp hc)).2
    omega
  have hsign : ∀ (signs : List Char) (s : Str), Ascii signs →
      Ascii (scanSign signs s).1 := by
    intro signs s hsigns
    cases s with
    | nil => exact ascii_nil
    | cons c s =>
      rw [scanSign]
      split
      case isTrue hc => exact ascii_cons (hsigns c (List.contains_iff_mem.mp hc)) ascii_nil
      case isFalse => exact ascii_nil
  -- the whole number: a zero, or digits
  have hint : ∀ {s : Str} {i : Str × Str}, scanInt s = some i → Ascii i.1 := by
    intro s i hi
    cases s with
    | nil => cases hi
    | cons c s =>
      rw [scanInt] at hi
      split at hi
      case isTrue hc =>
        obtain rfl := Option.some.inj hi
        exact ascii_cons (by rw [hc]; decide) ascii_nil
      case isFalse =>
        split at hi
        · cases hi
        · obtain rfl := Option.some.inj hi
          exact hdigits _
  -- the fraction: nothing, or a point and digits
  have hfraction : ∀ s : Str, Ascii (scanFraction s).1 := by
    intro s
    cases s with
    | nil => exact ascii_nil
    | cons c s =>
      rw [scanFraction]
      split
      case isTrue hc => exact ascii_cons (by rw [hc.1]; decide) (hdigits s)
      case isFalse => exact ascii_nil
  -- the exponent: nothing, or a letter, a sign and digits
  have hexponent : ∀ s : Str, Ascii (scanExponent s).1 := by
    intro s
    cases s with
    | nil => exact ascii_nil
    | cons c s =>
      rw [scanExponent]
      split
      case isTrue hc =>
        have he : c.toNat < 128 := by
          rcases hc.1 with rfl | rfl <;> decide
        exact ascii_append (ascii_cons he (hsign _ s (by decide))) (hdigits _)
      case isFalse => exact ascii_nil
  -- a number is these one after the other
  rw [scanNumber] at h
  obtain ⟨i, hi, rfl⟩ := Option.map_eq_some_iff.mp h
  exact ascii_append (ascii_append (ascii_append (hsign _ s (by decide)) (hint hi))
    (hfraction _)) (hexponent _)

/-- A text of a scalar has no characters outside ASCII. -/
theorem ascii_of_text {dec : Decoder (Scalar D N)} {x : Scalar D N} {s : Str}
    (h : dec.Text x s) : Ascii s := by
  cases h with
  | null => decide
  | true => decide
  | false => decide
  | str cs => exact ascii_quote cs
  | int hs _ => exact ascii_of_scanNumber hs
  | float hs _ => exact ascii_of_scanNumber hs

/-- What is written for an integer is a text of it. -/
theorem text_of_int {U : Unicode} (hU : U.Ascii) {fl : FloatTypes D N}
    (parse : Str → Option (PyFloat D)) (constant : Str → Scalar D N) {z : ℤ} {s : Str}
    (h : scalarText fl (.int z) = .ok s) : (jsonDecoder U parse constant).Text (.int z) s := by
  rw [scalarText] at h
  split at h
  case isTrue hz =>
    obtain rfl := Except.ok.inj h
    refine .int (scanNumber_strOf z) ?_
    show (intOf U (strOf z)).map Scalar.int = some (.int z)
    rw [intOf_strOf hU z hz]
    rfl
  case isFalse => cases h

/-- **What is written for a plain scalar is a text of it.** -/
theorem text_of_scalarText {U : Unicode} (hU : U.Ascii) {fl : FloatTypes D N}
    {parse : Str → Option (PyFloat D)} (hparse : ReadsRepr fl parse)
    (constant : Str → Scalar D N) (x : Scalar D N) (s : Str) (hx : x.Plain)
    (h : scalarText fl x = .ok s) : (jsonDecoder U parse constant).Text x s := by
  cases x with
  | int z => exact text_of_int hU parse constant h
  | bool b =>
    obtain rfl := Except.ok.inj h
    cases b with
    | true => exact .true
    | false => exact .false
  | float x =>
    cases x with
    | finite d =>
      obtain rfl := Except.ok.inj h
      refine .float (hparse d).1 ?_
      show (parse (fl.repr d)).map Scalar.float = some (.float (.finite d))
      rw [(hparse d).2]
      rfl
    | nan => cases hx
    | inf negative => cases hx
  | str cs =>
    obtain rfl := Except.ok.inj h
    exact .str cs
  | none =>
    obtain rfl := Except.ok.inj h
    exact .null
  -- the others are not plain
  | npBool b => cases hx
  | npInt z => cases hx
  | float64 x => cases hx
  | npFloat x => cases hx
  | path s => cases hx

/-! ### Summaries -/

/-- **The JSON of a summary is read back.**  Whatever was written for nested values is ASCII
and is read by `json.loads` as the values that `sanitize_json` returned, whatever the decoder
would do with `NaN` and the infinities. -/
theorem loads_toJson {U : Unicode} (hU : U.Ascii) {fl : FloatTypes D N}
    {parse : Str → Option (PyFloat D)} (hparse : ReadsRepr fl parse)
    (constant : Str → Scalar D N) {fr : JsonFrames D N} {stack : ℕ} {v : PyVal (Scalar D N)}
    {text : Str} (h : toJson fl fr stack v = .ok text) :
    Ascii text ∧ ∃ w, sanitizeJson fl fr.sanitize stack v = .ok w ∧
      loads (jsonDecoder U parse constant) text = some w := by
  obtain ⟨w, hw, h⟩ := bind_eq_ok_iff.mp h
  obtain ⟨rest, -, h⟩ := bind_eq_ok_iff.mp h
  have hplain : w.Plain Scalar.Plain := by
    rw [sanitizeJson_eq] at hw
    split at hw
    case isTrue =>
      obtain rfl := Except.ok.inj hw
      exact plain_sanitized fl v
    case isFalse => cases hw
  have hwritten : Written (jsonDecoder U parse constant).Text w text :=
    written_jsonDumps (text_of_scalarText hU hparse constant) hplain h
  exact ⟨ascii_of_written (fun _ _ => ascii_of_text) hwritten, w, hw, loads_of_written hwritten⟩

/-! ### Whole numbers -/

/-- `float` of a whole number with a zero for its fraction. -/
def parseWhole (s : Str) : Option (PyFloat {n : ℕ // n < doubleBound}) :=
  (intOf asciiTable (s.take (s.length - 2))).map fun z =>
    if h : z.toNat < doubleBound then .finite ⟨z.toNat, h⟩ else .inf false

theorem doubleBound_le : doubleBound ≤ 10 ^ maxStrDigits := by
  rw [doubleBound]
  exact (pow_le_pow_left₀ (Nat.zero_le 2) (show 2 ≤ 10 by decide) _).trans
    (pow_le_pow_right₀ (show 1 ≤ 10 by decide) (show 1024 ≤ maxStrDigits by decide))

theorem readsRepr_whole : ReadsRepr FloatTypes.whole parseWhole := by
  rintro ⟨n, hn⟩
  have hrepr : FloatTypes.whole.repr ⟨n, hn⟩ = Nat.toDigits 10 n ++ ['.', '0'] := rfl
  have hshort : (n : ℤ).natAbs < 10 ^ maxStrDigits := lt_of_lt_of_le hn doubleBound_le
  constructor
  · -- the digits are scanned up to the point, the zero behind it as the fraction
    have hsign : scanSign ['-'] (Nat.toDigits 10 n ++ ['.', '0'])
        = ([], Nat.toDigits 10 n ++ ['.', '0']) := by
      obtain ⟨c, cs, hs, hdigit, -⟩ := toDigits_eq_cons n
      have hne : c ≠ '-' := by
        rintro rfl
        exact absurd hdigit (by decide)
      simp [hs, scanSign, hne]
    have hint : scanInt (Nat.toDigits 10 n ++ ['.', '0'])
        = some (Nat.toDigits 10 n, ['.', '0']) := by
      have hdot : ∀ c ∈ ['.', '0'].head?, c.isDigit = false := by
        rintro c ⟨⟩
        rfl
      rw [scanInt_append hdot, scanInt_toDigits]
      rfl
    have htail : scanFraction ['.', '0'] = (['.', '0'], []) := by decide
    simp [hrepr, scanNumber, hsign, hint, htail, scanExponent]
  · -- and without the last two characters they are the digits again
    have htake : (Nat.toDigits 10 n ++ ['.', '0']).take
        ((Nat.toDigits 10 n ++ ['.', '0']).length - 2) = strOf n := by
      rw [List.length_append]
      exact List.take_left
    rw [hrepr, parseWhole, htake, intOf_strOf asciiTable_ascii _ hshort, Option.map_some]
    exact congrArg some (dif_pos hn)

/-- A number for a key, an array in which a value is missing, and a string with a quote and a
character outside ASCII. -/
theorem loads_toJson_nested :
    let v : PyVal (Scalar {n : ℕ // n < doubleBound} ℕ) := .dict
      [(.other "1".toList (some "1".toList), .tuple [.scalar (.npBool true), .scalar (.npInt 7)]),
        (.str "a\"é".toList, .ndarray (.list [.scalar (.float .nan)]))]
    ∃ text, toJson FloatTypes.whole .plain 20 v = .ok text ∧ Ascii text ∧
      ∃ w, sanitizeJson FloatTypes.whole JsonFrames.plain.sanitize 20 v = .ok w ∧
        loads (jsonDecoder asciiTable parseWhole fun _ => .none) text = some w := by
  intro v
  have hkeys : v.DistinctKeys :=
    .pair (by decide) (.tuple (.scalars [_, _])) (.ndarray (.list (.scalars [_])))
  have hseven : 7 < 10 ^ maxStrDigits :=
    lt_of_lt_of_le (show 7 < 2 ^ 64 by decide) two_pow_le
  have hshort : v.All Scalar.Short := by
    simp [v, PyVal.all_dict_iff, PyVal.all_tuple_iff, PyVal.all_ndarray_iff, PyVal.all_list_iff,
      PyVal.all_scalar_iff, Scalar.Short, hseven]
  have hframes : v.frames JsonFrames.plain.sanitize ≤ 20 := by
    simp [v, PyVal.frames, JsonFrames.plain]
  -- the encoder and its two containers fit as well
  have hencode : 4 + (sanitized FloatTypes.whole v).frames JsonFrames.plain.encode ≤ 20 := by
    rw [sanitized_dict (by decide)]
    simp [sanitized, PyVal.frames, JsonFrames.plain]
  obtain ⟨text, htext⟩ :=
    (exists_toJson_iff FloatTypes.whole_exact hkeys hframes).mpr ⟨hencode, hshort⟩
  exact ⟨text, htext, loads_toJson asciiTable_ascii readsRepr_whole _ htext⟩

end TsPacket
