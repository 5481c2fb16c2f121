import Mathlib.Algebra.Ring.Nat
import Mathlib.Algebra.Ring.Int.Defs
import Mathlib.Data.List.Basic
import Mathlib.Tactic.Common

/-!
# Numbers as Python text

`str(n)`, `int(s)` and `int(s, 16)`, and the string methods a program calls before it
converts.  A string is a list of characters.  Which characters outside ASCII count as
spaces or digits is a table of the interpreter, so it is a parameter (`Unicode`) that is
fixed on ASCII (`Unicode.Ascii`); `none` stands for a `ValueError`.

## Main definitions

* `strip`, `lstripSigns`, `isdigit` — the string methods.
* `strOf` — `str` of an integer.
* `intOf`, `intOf16` — `int` of a string, in base ten with its limit on the digits, and in
  base sixteen.

## Main results

* `intOf_strOf` — **`int` undoes `str`.**
* `intOf16_hexByte` — it also undoes a byte printed as `0x%02x`.
* `mapM_map_pure` — a list of texts is converted text by text.
-/

namespace PyText

/-- A string. -/
abbrev Str := List Char

/-- What the conversions ask of a character. -/
structure Unicode where
  /-- `str.isspace` of one character. -/
  isSpace : Char → Bool
  /-- `str.isdigit` of one character. -/
  isDigit : Char → Bool
  /-- The value of a decimal digit. -/
  decimal : Char → Option ℕ

/-- The characters below 128 that count as spaces. -/
def asciiSpaces : List ℕ := [9, 10, 11, 12, 13, 28, 29, 30, 31, 32]

/-- The spaces of the C locale. -/
def cSpaces : List ℕ := [9, 10, 11, 12, 13, 32]

/-- The table is the known one on ASCII. -/
structure Unicode.Ascii (U : Unicode) : Prop where
  isSpace : ∀ c : Char, c.toNat < 128 → U.isSpace c = decide (c.toNat ∈ asciiSpaces)
  isDigit : ∀ c : Char, c.toNat < 128 → U.isDigit c = c.isDigit
  decimal : ∀ c : Char, c.toNat < 128 →
    U.decimal c = if c.isDigit then some (c.toNat - 48) else none

/-- Besides, no digit is a space. -/
structure Unicode.Lawful (U : Unicode) : Prop extends U.Ascii where
  isSpace_of_decimal : ∀ c : Char, (U.decimal c).isSome = true → U.isSpace c = false

/-- A table that knows ASCII only. -/
def asciiTable : Unicode where
  isSpace c := decide (c.toNat ∈ asciiSpaces)
  isDigit c := c.isDigit
  decimal c := if c.isDigit then some (c.toNat - 48) else none

theorem asciiTable_ascii : asciiTable.Ascii := ⟨fun _ _ => rfl, fun _ _ => rfl, fun _ _ => rfl⟩

theorem toNat_of_isDigit {c : Char} (h : c.isDigit) : 48 ≤ c.toNat ∧ c.toNat ≤ 57 := by
  simp only [Char.isDigit, Bool.and_eq_true, decide_eq_true_eq] at h
  exact ⟨UInt32.le_iff_toNat_le.mp h.1, UInt32.le_iff_toNat_le.mp h.2⟩

theorem asciiTable_lawful : asciiTable.Lawful := by
  refine ⟨asciiTable_ascii, fun c hc => ?_⟩
  have hdigit : c.isDigit := by
    by_contra hno
    have hnone : asciiTable.decimal c = none := if_neg hno
    rw [hnone] at hc
    cases hc
  obtain ⟨hlo, hhi⟩ := toNat_of_isDigit hdigit
  rw [asciiTable, decide_eq_false_iff_not]
  simp only [asciiSpaces, List.mem_cons, List.not_mem_nil, or_false]
  omega

/-! ### String methods -/

/-- Text without the spaces at its ends, for a notion of space. -/
def stripOf (space : Char → Bool) (s : Str) : Str :=
  ((s.dropWhile space).reverse.dropWhile space).reverse

/-- `s.strip()`. -/
def strip (U : Unicode) (s : Str) : Str := stripOf U.isSpace s

/-- `s.lstrip("+-")`. -/
def lstripSigns (s : Str) : Str := s.dropWhile fun c => c == '+' || c == '-'

/-- `s.isdigit()`. -/
def isdigit (U : Unicode) (s : Str) : Bool := !s.isEmpty && s.all U.isDigit

theorem dropWhile_of_head {p : Char → Bool} {c : Char} {cs : Str} (h : p c = false) :
    (c :: cs).dropWhile p = c :: cs := by
  rw [List.dropWhile_cons_of_neg (by rw [h]; exact Bool.false_ne_true)]

/-- Text without spaces is stripped already. -/
theorem stripOf_of_all {space : Char → Bool} {s : Str} (h : ∀ c ∈ s, space c = false) :
    stripOf space s = s := by
  have hdrop : ∀ t : Str, (∀ c ∈ t, space c = false) → t.dropWhile space = t := by
    intro t ht
    cases t with
    | nil => rfl
    | cons c cs => exact dropWhile_of_head (ht c List.mem_cons_self)
  rw [stripOf, hdrop s h, hdrop s.reverse fun c hc => h c (List.mem_reverse.mp hc),
    List.reverse_reverse]

/-! ### Digits -/

/-- The digits after the first; single underscores may stand between two of them. -/
def digitsTail (b : ℕ) (val : Char → Option ℕ) : ℕ → Str → Option ℕ
  | acc, [] => some acc
  | acc, '_' :: c :: cs => (val c).bind fun d => digitsTail b val (acc * b + d) cs
  | acc, c :: cs => (val c).bind fun d => digitsTail b val (acc * b + d) cs

/-- The number a string of digits denotes. -/
def digits (b : ℕ) (val : Char → Option ℕ) : Str → Option ℕ
  | [] => none
  | c :: cs => (val c).bind fun d => digitsTail b val d cs

/-- Digits alone are read in order. -/
theorem digitsTail_eq {b : ℕ} {val : Char → Option ℕ} (v : Char → ℕ)
    (h_ : val '_' = none) : ∀ (s : Str) (acc : ℕ), (∀ c ∈ s, val c = some (v c)) →
      digitsTail b val acc s = some (s.foldl (fun a c => a * b + v c) acc) := by
  intro s
  induction s with
  | nil => intro acc _; rfl
  | cons c cs ih =>
    intro acc h
    have hc := h c List.mem_cons_self
    have hne : c ≠ '_' := by
      rintro rfl
      rw [h_] at hc
      cases hc
    rw [digitsTail.eq_3 _ _ _ _ _ fun c' cs' hc' _ => hne hc', hc, Option.bind_some,
      ih _ fun d hd => h d (List.mem_cons_of_mem c hd), List.foldl_cons]

theorem digits_eq {b : ℕ} {val : Char → Option ℕ} (v : Char → ℕ) (h_ : val '_' = none)
    {s : Str} (hne : s ≠ []) (h : ∀ c ∈ s, val c = some (v c)) :
    digits b val s = some (s.foldl (fun a c => a * b + v c) 0) := by
  cases s with
  | nil => exact absurd rfl hne
  | cons c cs =>
    rw [digits, h c List.mem_cons_self, Option.bind_some,
      digitsTail_eq v h_ cs _ fun d hd => h d (List.mem_cons_of_mem c hd), List.foldl_cons,
      Nat.zero_mul, Nat.zero_add]

/-- The digits of a number denote it. -/
theorem foldl_toDigits {b : ℕ} (hb : 1 < b) (v : Char → ℕ)
    (hv : ∀ d < b, v (Nat.digitChar d) = d) (n : ℕ) :
    (Nat.toDigits b n).foldl (fun a c => a * b + v c) 0 = n := by
  induction n using Nat.strongRecOn with
  | _ n ih =>
    -- the last digit is the remainder, those before it are the digits of the quotient
    rw [Nat.toDigits_eq_if hb]
    by_cases hn : n < b
    · rw [if_pos hn, List.foldl_cons, List.foldl_nil, hv n hn, Nat.zero_mul, Nat.zero_add]
    · rw [if_neg hn, List.foldl_append, ih (n / b) (Nat.div_lt_self (by omega) hb),
        List.foldl_cons, List.foldl_nil, hv _ (Nat.mod_lt n (by omega)), Nat.div_add_mod']

/-! ### Base ten -/

/-- `str(n)`. -/
def strOf : ℤ → Str
  | .ofNat n => Nat.toDigits 10 n
  | .negSucc n => '-' :: Nat.toDigits 10 (n + 1)

/-- The sign of a number, and what follows it. -/
def splitSign : Str → Bool × Str
  | '-' :: s => (true, s)
  | '+' :: s => (false, s)
  | s => (false, s)

theorem splitSign_of_isDigit {c : Char} {cs : Str} (h : c.isDigit) :
    splitSign (c :: cs) = (false, c :: cs) := by
  rw [splitSign.eq_3]
  · rintro s hs
    cases hs
    exact absurd h (by decide)
  · rintro s hs
    cases hs
    exact absurd h (by decide)

theorem splitSign_toDigits (n : ℕ) :
    splitSign (Nat.toDigits 10 n) = (false, Nat.toDigits 10 n) := by
  cases hs : Nat.toDigits 10 n with
  | nil => exact absurd hs Nat.toDigits_ne_nil
  | cons c cs =>
    have hc : c ∈ Nat.toDigits 10 n := by rw [hs]; exact List.mem_cons_self
    exact splitSign_of_isDigit (Nat.isDigit_of_mem_toDigits (by omega) (by omega) hc)

/-- `sys.get_int_max_str_digits()`. -/
def maxStrDigits : ℕ := 4300

/-- What 64 bits hold is far from having too many digits. -/
theorem two_pow_le : 2 ^ 64 ≤ 10 ^ maxStrDigits :=
  Nat.le_trans (Nat.pow_le_pow_left (show 2 ≤ 10 by omega) 64)
    (Nat.pow_le_pow_right (by omega) (show 64 ≤ maxStrDigits by decide))

/-- What `int` takes for a space: below 128 only those of the C locale. -/
def isIntSpace (U : Unicode) (c : Char) : Bool :=
  if c.toNat < 128 then decide (c.toNat ∈ cSpaces) else U.isSpace c

/-- `int(s)`. -/
def intOf (U : Unicode) (s : Str) : Option ℤ :=
  let p := splitSign (stripOf (isIntSpace U) s)
  if p.2.countP (· ≠ '_') > maxStrDigits then none
  else (digits 10 U.decimal p.2).map fun n => if p.1 then -(n : ℤ) else n

section

variable {U : Unicode} (hU : U.Ascii)
include hU

theorem decimal_underscore : U.decimal '_' = none := hU.decimal '_' (by decide)

theorem decimal_of_isDigit {c : Char} (h : c.isDigit) : U.decimal c = some (c.toNat - 48) := by
  have hhi := (toNat_of_isDigit h).2
  rw [hU.decimal c (by omega), if_pos h]

theorem isSpace_of_isDigit {c : Char} (h : c.isDigit) : U.isSpace c = false := by
  have hlo : 48 ≤ c.toNat := toNat_of_isDigit h |>.1
  have hhi : c.toNat ≤ 57 := toNat_of_isDigit h |>.2
  rw [hU.isSpace c (by omega), decide_eq_false_iff_not]
  simp only [asciiSpaces, List.mem_cons, List.not_mem_nil, or_false]
  omega

/-- `int` takes no more for a space than `strip` does. -/
theorem isIntSpace_of_isSpace {c : Char} (h : U.isSpace c = false) : isIntSpace U c = false := by
  rw [isIntSpace]
  split
  · rename_i hc
    rw [hU.isSpace c hc, decide_eq_false_iff_not] at h
    rw [decide_eq_false_iff_not]
    exact fun hmem => h (by simp only [cSpaces, asciiSpaces, List.mem_cons] at hmem ⊢; tauto)
  · exact h

/-- The digits of a number are read as that number. -/
theorem digits_toDigits (n : ℕ) : digits 10 U.decimal (Nat.toDigits 10 n) = some n := by
  rw [digits_eq (fun c => c.toNat - 48) (decimal_underscore hU) Nat.toDigits_ne_nil fun c hc =>
    decimal_of_isDigit hU (Nat.isDigit_of_mem_toDigits (by omega) (by omega) hc)]
  congr 1
  exact foldl_toDigits (by omega) _ (fun d hd => Nat.toNat_digitChar_sub_48_of_lt_ten hd) n

/-- **`int` undoes `str`**, as long as there are not too many digits. -/
theorem intOf_strOf (z : ℤ) (hz : z.natAbs < 10 ^ maxStrDigits) :
    intOf U (strOf z) = some z := by
  -- no `_` is written, so the limit counts the digits themselves
  have hcount : ∀ n : ℕ, n < 10 ^ maxStrDigits →
      ¬ (Nat.toDigits 10 n).countP (· ≠ '_') > maxStrDigits := by
    intro n hn
    have hlen := (Nat.length_toDigits_le_iff (show 1 < 10 by omega)
      (show 0 < maxStrDigits by decide)).mpr hn
    exact Nat.not_lt.mpr (Nat.le_trans List.countP_le_length hlen)
  have hdig : ∀ (n : ℕ) (c : Char), c ∈ Nat.toDigits 10 n → c.isDigit :=
    fun n c hc => Nat.isDigit_of_mem_toDigits (by omega) (by omega) hc
  cases z with
  | ofNat n =>
    have hstrip : stripOf (isIntSpace U) (Nat.toDigits 10 n) = Nat.toDigits 10 n :=
      stripOf_of_all fun c hc => isIntSpace_of_isSpace hU (isSpace_of_isDigit hU (hdig n c hc))
    rw [intOf, strOf, hstrip, splitSign_toDigits]
    dsimp only
    rw [if_neg (hcount n hz), digits_toDigits hU]
    rfl
  -- the sign is no white space either, so nothing is stripped
  | negSucc n =>
    have hstrip : stripOf (isIntSpace U) ('-' :: Nat.toDigits 10 (n + 1))
        = '-' :: Nat.toDigits 10 (n + 1) := by
      refine stripOf_of_all fun c hc => isIntSpace_of_isSpace hU ?_
      rcases List.mem_cons.mp hc with rfl | hc
      · exact (hU.isSpace '-' (by decide)).trans (by decide)
      · exact isSpace_of_isDigit hU (hdig _ c hc)
    rw [intOf, strOf, hstrip, splitSign]
    dsimp only
    rw [if_neg (hcount (n + 1) hz), digits_toDigits hU]
    rfl

end

/-- **Digits are read in order**, unless there are too many. -/
theorem intOf_eq_digits {U : Unicode} (hU : U.Lawful) {s : Str}
    (h : ∀ c ∈ s, (U.decimal c).isSome = true) :
    intOf U s = if s.length > maxStrDigits then none
      else (digits 10 U.decimal s).map fun n => (n : ℤ) := by
  -- a decimal digit is no white space, no sign and no `_`
  have hstrip : stripOf (isIntSpace U) s = s := stripOf_of_all fun c hc =>
    isIntSpace_of_isSpace hU.toAscii (hU.isSpace_of_decimal c (h c hc))
  have hsign : splitSign s = (false, s) := by
    rw [splitSign.eq_3]
    · rintro t rfl
      exact absurd (h '-' List.mem_cons_self) (by rw [hU.decimal '-' (by decide)]; decide)
    · rintro t rfl
      exact absurd (h '+' List.mem_cons_self) (by rw [hU.decimal '+' (by decide)]; decide)
  have hcount : s.countP (· ≠ '_') = s.length := by
    rw [List.countP_eq_length]
    rintro c hc
    apply decide_eq_true
    rintro rfl
    have hdec := h '_' hc
    rw [decimal_underscore hU.toAscii] at hdec
    cases hdec
  rw [intOf, hstrip, hsign]
  dsimp only
  rw [hcount]
  rfl

theorem digits_of_decimal {U : Unicode} (hU : U.Ascii) {s : Str} (hne : s ≠ [])
    (h : ∀ c ∈ s, (U.decimal c).isSome = true) : ∃ n, digits 10 U.decimal s = some n := by
  have hval : ∀ c ∈ s, U.decimal c = some ((U.decimal c).getD 0) := by
    intro c hc
    obtain ⟨d, hd⟩ := Option.isSome_iff_exists.mp (h c hc)
    rw [hd, Option.getD_some]
  exact ⟨_, digits_eq _ (decimal_underscore hU) hne hval⟩

/-- Not too many digits are an integer. -/
theorem intOf_of_decimal {U : Unicode} (hU : U.Lawful) {s : Str} (hne : s ≠ [])
    (h : ∀ c ∈ s, (U.decimal c).isSome = true) (hlen : s.length ≤ maxStrDigits) :
    ∃ n : ℕ, intOf U s = some (n : ℤ) := by
  obtain ⟨n, hn⟩ := digits_of_decimal hU.toAscii hne h
  refine ⟨n, ?_⟩
  rw [intOf_eq_digits hU h, if_neg (Nat.not_lt.mpr hlen), hn]
  rfl

/-! ### Base sixteen -/

/-- The value of a hexadecimal digit. -/
def hexValue (U : Unicode) (c : Char) : Option ℕ :=
  if 'a' ≤ c ∧ c ≤ 'f' then some (c.toNat - 87)
  else if 'A' ≤ c ∧ c ≤ 'F' then some (c.toNat - 55)
  else U.decimal c

/-- Drops a base prefix, and the underscore that may follow it. -/
def dropHexPrefix : Str → Str
  | '0' :: 'x' :: '_' :: s => s
  | '0' :: 'X' :: '_' :: s => s
  | '0' :: 'x' :: s => s
  | '0' :: 'X' :: s => s
  | s => s

/-- `int(s, 16)`. -/
def intOf16 (U : Unicode) (s : Str) : Option ℤ :=
  let p := splitSign (stripOf (isIntSpace U) s)
  (digits 16 (hexValue U) (dropHexPrefix p.2)).map fun n => if p.1 then -(n : ℤ) else n

/-- `"0x%02x" % b`. -/
def hexByte (b : BitVec 8) : Str :=
  ['0', 'x', Nat.digitChar (b.toNat / 16), Nat.digitChar (b.toNat % 16)]

theorem hexValue_of_ascii {U : Unicode} (hU : U.Ascii) {c : Char} (h : c.toNat < 128) :
    hexValue U c = hexValue asciiTable c := by
  rw [hexValue, hexValue, hU.decimal c h]
  rfl

/-- What the digits of base sixteen are. -/
theorem hexDigit_facts : ∀ d < 16, (Nat.digitChar d).toNat < 128 ∧
    decide ((Nat.digitChar d).toNat ∈ asciiSpaces) = false ∧ Nat.digitChar d ≠ '_' ∧
    hexValue asciiTable (Nat.digitChar d) = some d := by decide

/-- `int` undoes the hexadecimal text of a byte. -/
theorem intOf16_hexByte {U : Unicode} (hU : U.Ascii) (b : BitVec 8) :
    intOf16 U (hexByte b) = some (b.toNat : ℤ) := by
  have hb := b.isLt
  obtain ⟨hi, hisp, hi_, hival⟩ := hexDigit_facts (b.toNat / 16) (by omega)
  obtain ⟨lo, losp, -, loval⟩ := hexDigit_facts (b.toNat % 16) (by omega)
  -- nothing to strip, no sign, and the prefix `0x` goes
  have hstrip : stripOf (isIntSpace U) (hexByte b) = hexByte b := by
    refine stripOf_of_all fun c hc => isIntSpace_of_isSpace hU ?_
    simp only [hexByte, List.mem_cons, List.not_mem_nil, or_false] at hc
    rcases hc with rfl | rfl | rfl | rfl
    · exact (hU.isSpace '0' (by decide)).trans (by decide)
    · exact (hU.isSpace 'x' (by decide)).trans (by decide)
    · exact (hU.isSpace _ hi).trans hisp
    · exact (hU.isSpace _ lo).trans losp
  have hsign : splitSign (hexByte b) = (false, hexByte b) := splitSign_of_isDigit (by decide)
  have hbase : dropHexPrefix (hexByte b)
      = [Nat.digitChar (b.toNat / 16), Nat.digitChar (b.toNat % 16)] := by
    rw [hexByte, dropHexPrefix.eq_3]
    intro s hs
    exact hi_ (List.cons.inj hs).1
  -- the two digits left have their ASCII values
  have hval : ∀ c ∈ [Nat.digitChar (b.toNat / 16), Nat.digitChar (b.toNat % 16)],
      hexValue U c = some ((hexValue asciiTable c).getD 0) := by
    intro c hc
    simp only [List.mem_cons, List.not_mem_nil, or_false] at hc
    rcases hc with rfl | rfl
    · rw [hexValue_of_ascii hU hi, hival, Option.getD_some]
    · rw [hexValue_of_ascii hU lo, loval, Option.getD_some]
  have h_ : hexValue U '_' = none := (hexValue_of_ascii hU (by decide)).trans (by decide)
  rw [intOf16, hstrip, hsign]
  dsimp only
  rw [hbase, digits_eq _ h_ (List.cons_ne_nil _ _) hval, List.foldl_cons, List.foldl_cons,
    List.foldl_nil, hival, loval, Option.getD_some, Option.getD_some, Nat.zero_mul, Nat.zero_add,
    Nat.div_add_mod']
  rfl

/-! ### Floats -/

/-- Why `int` of a float fails. -/
inductive TruncError
  | notANumber
  | infinite

/-- The operations on floats a program uses; the numbers themselves stay abstract. -/
structure FloatOps (F : Type) where
  ofInt : ℤ → F
  div : F → F → F
  zero : F
  e3 : F
  e6 : F
  /-- `repr(x)`, which is also what a CSV writer prints. -/
  repr : F → Str
  /-- `float(s)`. -/
  parse : Str → Option F
  /-- `int(x)`. -/
  trunc : F → Except TruncError ℤ

/-- `float` undoes `repr`. -/
def FloatOps.Exact {F : Type} (fl : FloatOps F) : Prop := ∀ x, fl.parse (fl.repr x) = some x

/-- `repr` prints 24 characters at most: sign, 17 digits, point and exponent. -/
def FloatOps.Short {F : Type} (fl : FloatOps F) : Prop := ∀ x, (fl.repr x).length ≤ 24

/-! ### The text of an integer -/

/-- A number of `k` digits has as many characters, and a sign. -/
theorem length_strOf_le {k : ℕ} (hk : 0 < k) {z : ℤ} (hz : z.natAbs < 10 ^ k) :
    (strOf z).length ≤ k + 1 := by
  have hdigits : ∀ n : ℕ, n < 10 ^ k → (Nat.toDigits 10 n).length ≤ k := fun n hn =>
    (Nat.length_toDigits_le_iff (show 1 < 10 by omega) hk).mpr hn
  cases z with
  | ofNat n => exact Nat.le_succ_of_le (hdigits n hz)
  | negSucc n => exact Nat.succ_le_succ (hdigits (n + 1) hz)

section

variable {U : Unicode} (hU : U.Ascii)
include hU

theorem strip_strOf (z : ℤ) : strip U (strOf z) = strOf z := by
  have hdig : ∀ (n : ℕ) (c : Char), c ∈ Nat.toDigits 10 n → U.isSpace c = false :=
    fun n c hc => isSpace_of_isDigit hU (Nat.isDigit_of_mem_toDigits (by omega) (by omega) hc)
  refine stripOf_of_all fun c hc => ?_
  cases z with
  | ofNat n => exact hdig n c hc
  | negSucc n =>
    rcases List.mem_cons.mp hc with rfl | hc
    · exact (hU.isSpace '-' (by decide)).trans (by decide)
    · exact hdig (n + 1) c hc

/-- Without its sign it consists of digits. -/
theorem isdigit_lstripSigns_strOf (z : ℤ) : isdigit U (lstripSigns (strOf z)) = true := by
  have hdigits : ∀ n : ℕ, isdigit U (lstripSigns (Nat.toDigits 10 n)) = true := by
    intro n
    have hdig : ∀ c ∈ Nat.toDigits 10 n, c.isDigit :=
      fun c hc => Nat.isDigit_of_mem_toDigits (by omega) (by omega) hc
    cases hs : Nat.toDigits 10 n with
    | nil => exact absurd hs Nat.toDigits_ne_nil
    | cons c cs =>
      rw [hs] at hdig
      have hc := toNat_of_isDigit (hdig c List.mem_cons_self)
      -- the first character is a digit, so no sign is stripped
      have hsign : (c == '+' || c == '-') = false := by
        rw [Bool.or_eq_false_iff, beq_eq_false_iff_ne, beq_eq_false_iff_ne]
        constructor <;>
        · rintro rfl
          exact absurd hc (by decide)
      rw [lstripSigns, dropWhile_of_head hsign, isdigit, List.isEmpty_cons, Bool.not_false,
        Bool.true_and, List.all_eq_true]
      intro d hd
      have hdd := toNat_of_isDigit (hdig d hd)
      rw [hU.isDigit d (by omega)]
      exact hdig d hd
  cases z with
  | ofNat n => exact hdigits n
  -- a negative number loses its `-` and reads as its digits
  | negSucc n =>
    have hminus : lstripSigns (strOf (.negSucc n)) = lstripSigns (Nat.toDigits 10 (n + 1)) := by
      rw [strOf, lstripSigns, List.dropWhile_cons_of_pos rfl, ← lstripSigns]
    rw [hminus]
    exact hdigits (n + 1)

end

/-! ### Lists of texts -/

/-- Texts that were each made of a value are converted to the values. -/
theorem mapM_map_pure {m : Type → Type} [Monad m] [LawfulMonad m] {α β γ : Type} {f : β → m γ}
    {g : α → β} {v : α → γ} : ∀ {l : List α}, (∀ a ∈ l, f (g a) = pure (v a)) →
    (l.map g).mapM f = pure (l.map v) := by
  intro l
  induction l with
  | nil => intro _; rfl
  | cons a l ih =>
    intro h
    rw [List.map_cons, List.mapM_cons, h a List.mem_cons_self,
      ih fun b hb => h b (List.mem_cons_of_mem a hb)]
    simp

/-! ### Whole floats -/

/-- The value of the text of an integer, however long. -/
def wholeValue (s : Str) : Option ℤ :=
  let p := splitSign s
  (digits 10 asciiTable.decimal p.2).map fun n => if p.1 then -(n : ℤ) else n

theorem wholeValue_strOf (z : ℤ) : wholeValue (strOf z) = some z := by
  cases z with
  | ofNat n =>
    rw [wholeValue, strOf, splitSign_toDigits]
    dsimp only
    rw [digits_toDigits asciiTable_ascii]
    rfl
  | negSucc n =>
    rw [wholeValue, strOf, splitSign]
    dsimp only
    rw [digits_toDigits asciiTable_ascii]
    rfl

/-- The floats that are whole numbers: an instance to run programs on. -/
def FloatOps.whole : FloatOps ℤ where
  ofInt z := z
  div a b := a / b
  zero := 0
  e3 := 1000
  e6 := 1000000
  repr z := strOf z ++ ['.', '0']
  parse s :=
    match s.reverse with
    | '0' :: '.' :: t => wholeValue t.reverse
    | _ => none
  trunc z := .ok z

theorem FloatOps.whole_exact : FloatOps.whole.Exact := by
  intro z
  have hrev : (strOf z ++ ['.', '0']).reverse = '0' :: '.' :: (strOf z).reverse := by
    rw [List.reverse_append]
    rfl
  calc FloatOps.whole.parse (strOf z ++ ['.', '0'])
      = wholeValue (strOf z).reverse.reverse := by simp only [FloatOps.whole, hrev]
    _ = wholeValue (strOf z) := by rw [List.reverse_reverse]
    _ = some z := wholeValue_strOf z

/-- The whole numbers below `10 ^ 16`, which floats print in full: an instance with texts of
the length of those of floats.  What does not fit is zero. -/
def FloatOps.small : FloatOps {z : ℤ // z.natAbs < 10 ^ 16} :=
  let ofInt (z : ℤ) : {z : ℤ // z.natAbs < 10 ^ 16} :=
    if h : z.natAbs < 10 ^ 16 then ⟨z, h⟩ else ⟨0, by decide⟩
  { ofInt := ofInt
    div := fun a b => ofInt (a.1 / b.1)
    zero := ofInt 0
    e3 := ofInt 1000
    e6 := ofInt 1000000
    repr := fun z => FloatOps.whole.repr z.1
    parse := fun s => (FloatOps.whole.parse s).map ofInt
    trunc := fun z => .ok z.1 }

theorem FloatOps.small_exact : FloatOps.small.Exact := by
  intro z
  show (FloatOps.whole.parse (FloatOps.whole.repr z.1)).map _ = some z
  rw [FloatOps.whole_exact z.1, Option.map_some, dif_pos z.2]

theorem FloatOps.small_short : FloatOps.small.Short := by
  intro z
  have hlen := length_strOf_le (show 0 < 16 by omega) z.2
  show (strOf z.1 ++ ['.', '0']).length ≤ 24
  rw [List.length_append]
  exact Nat.le_trans (Nat.add_le_add_right hlen _) (by decide)

end PyText
