import Mathlib.Data.List.TakeWhile
import TsPacket.Lib.OrderedDict
import TsPacket.Lib.PyData

/-!
# JSON text

`json.loads`, and the compact form of `json.dumps`.  Blanks may stand between any two tokens,
so one value has many texts; they are described by a relation, and every one of them is read
as the value.  What a scalar is stays open: the decoder is given what to make of the text of
a number and of a string.

A string of the text is a list of characters, so a surrogate that stands alone has none.

## Main definitions

* `scanString`, `scanNumber`, `readValue`, `loads` — the reader.
* `dumps` — the writer without an indent.
* `Written` — a text of a value.

## Main results

* `scanString_quote` — **a quoted string is read back**, whatever its characters are.
* `loads_of_written` — **every text of a value is read as it.**
* `written_jsonDumps`, `written_dumps` — both writers write a text of the value.
* `ascii_of_written` — a text has no characters outside ASCII, if no scalar has.
-/

namespace JsonText

open PyText PyData Raise

variable {α β : Type}

/-! ### Reading -/

/-- The blanks between tokens. -/
def isBlank (c : Char) : Bool := c == ' ' || c == '\t' || c == '\n' || c == '\r'

/-- The text behind the blanks. -/
def skipBlanks (s : Str) : Str := s.dropWhile isBlank

/-- What the decoder makes of scalars. -/
structure Decoder (α : Type) where
  null : α
  bool : Bool → α
  str : Str → α
  /-- `int` of the text of a number without fraction and exponent. -/
  int : Str → Option α
  /-- `float` of that of another number. -/
  float : Str → Option α
  /-- `NaN`, `Infinity` or `-Infinity`. -/
  constant : Str → α

/-- The value of a hexadecimal digit. -/
def hexVal (c : Char) : Option ℕ :=
  if c.isDigit then some (c.toNat - 48)
  else if 'a' ≤ c ∧ c ≤ 'f' then some (c.toNat - 87)
  else if 'A' ≤ c ∧ c ≤ 'F' then some (c.toNat - 55)
  else none

/-- The four digits of a `\u` escape. -/
def hex4 : Str → Option (ℕ × Str)
  | a :: b :: c :: d :: s => do
    let w ← hexVal a
    let x ← hexVal b
    let y ← hexVal c
    let z ← hexVal d
    some (((w * 16 + x) * 16 + y) * 16 + z, s)
  | _ => none

/-- The character of an escape, behind the backslash. -/
def scanEscape : Str → Option (Char × Str)
  | '"' :: s => some ('"', s)
  | '\\' :: s => some ('\\', s)
  | '/' :: s => some ('/', s)
  | 'b' :: s => some ('\x08', s)
  | 'f' :: s => some ('\x0c', s)
  | 'n' :: s => some ('\n', s)
  | 'r' :: s => some ('\r', s)
  | 't' :: s => some ('\t', s)
  | 'u' :: s => do
    let (hi, s) ← hex4 s
    if 0xd800 ≤ hi ∧ hi < 0xdc00 then
      -- the first half of a surrogate pair
      match s with
      | '\\' :: 'u' :: s => do
        let (lo, s) ← hex4 s
        if 0xdc00 ≤ lo ∧ lo < 0xe000 then
          some (Char.ofNat (0x10000 + (hi - 0xd800) * 0x400 + (lo - 0xdc00)), s)
        else none
      | _ => none
    else if 0xdc00 ≤ hi ∧ hi < 0xe000 then none
    else some (Char.ofNat hi, s)
  | _ => none

/-- A string, behind its opening quote. -/
def scanString : ℕ → Str → Option (Str × Str)
  | 0, _ => none
  | _ + 1, [] => none
  | n + 1, c :: s =>
    if c = '"' then some ([], s)
    else if c = '\\' then do
      let (c, s) ← scanEscape s
      let (cs, s) ← scanString n s
      some (c :: cs, s)
    -- a control character must be escaped
    else if c < ' ' then none
    else do
      let (cs, s) ← scanString n s
      some (c :: cs, s)

/-- The digits in front of a text, and what follows them. -/
def spanDigits (s : Str) : Str × Str := (s.takeWhile Char.isDigit, s.dropWhile Char.isDigit)

/-- `0`, or digits of which the first is not zero. -/
def scanInt : Str → Option (Str × Str)
  | [] => none
  | c :: s =>
    if c = '0' then some ([c], s)
    else if (spanDigits (c :: s)).1 = [] then none
    else some (spanDigits (c :: s))

/-- A point with digits behind it, if there is one, and the rest. -/
def scanFraction : Str → Str × Str
  | [] => ([], [])
  | c :: s =>
    if c = '.' ∧ (spanDigits s).1 ≠ [] then (c :: (spanDigits s).1, (spanDigits s).2)
    else ([], c :: s)

/-- The first character, if it is one of these. -/
def scanSign (signs : List Char) : Str → Str × Str
  | [] => ([], [])
  | c :: s => if signs.contains c then ([c], s) else ([], c :: s)

/-- An exponent, if there is one, and the rest. -/
def scanExponent : Str → Str × Str
  | [] => ([], [])
  | c :: s =>
    let sign := scanSign ['+', '-'] s
    if (c = 'e' ∨ c = 'E') ∧ (spanDigits sign.2).1 ≠ [] then
      (c :: sign.1 ++ (spanDigits sign.2).1, (spanDigits sign.2).2)
    else ([], c :: s)

/-- The text of a number, whether it is that of a float, and what follows it. -/
def scanNumber (s : Str) : Option (Str × Bool × Str) :=
  let m := scanSign ['-'] s
  (scanInt m.2).map fun i =>
    let f := scanFraction i.2
    let e := scanExponent f.2
    (m.1 ++ i.1 ++ f.1 ++ e.1, f.1 ≠ [] || e.1 ≠ [], e.2)

/-- Items with commas between them, up to the closing bracket. -/
def readItems (item : Str → Option (β × Str)) (close : Char) : ℕ → Str → Option (List β × Str)
  | 0, _ => none
  | n + 1, s => do
    let (x, s) ← item s
    match skipBlanks s with
    | [] => none
    | c :: s =>
      if c = close then some ([x], s)
      else if c = ',' then do
        let (xs, s) ← readItems item close n (skipBlanks s)
        some (x :: xs, s)
      else none

/-- A container, behind its opening bracket. -/
def readContainer (item : Str → Option (β × Str)) (close : Char) (n : ℕ) (s : Str) :
    Option (List β × Str) :=
  match skipBlanks s with
  | [] => none
  | c :: s => if c = close then some ([], s) else readItems item close n (c :: s)

/-- A key with its value. -/
def readMember (value : Str → Option (PyVal α × Str)) :
    Str → Option ((PyKey × PyVal α) × Str)
  | [] => none
  | c :: s =>
    if c = '"' then do
      let (k, s) ← scanString (s.length + 1) s
      match skipBlanks s with
      | [] => none
      | c :: s =>
        if c = ':' then do
          let (v, s) ← value (skipBlanks s)
          some ((.str k, v), s)
        else none
    else none

/-- What a value that is no string and no container starts with: `null` and the like, or a
number. -/
def readScalar (dec : Decoder α) (s : Str) : Option (α × Str) :=
  if "null".toList <+: s then some (dec.null, s.drop 4)
  else if "true".toList <+: s then some (dec.bool true, s.drop 4)
  else if "false".toList <+: s then some (dec.bool false, s.drop 5)
  else
    match scanNumber s with
    | some (text, isFloat, s) =>
      (if isFloat then dec.float text else dec.int text).map fun x => (x, s)
    | none =>
      -- the constants that `json` reads beyond the format
      if "NaN".toList <+: s then some (dec.constant "NaN".toList, s.drop 3)
      else if "Infinity".toList <+: s then some (dec.constant "Infinity".toList, s.drop 8)
      else if "-Infinity".toList <+: s then some (dec.constant "-Infinity".toList, s.drop 9)
      else none

/-- The value at the start of a text, and the rest. -/
def readValue (dec : Decoder α) : ℕ → Str → Option (PyVal α × Str)
  | 0, _ => none
  | _ + 1, [] => none
  | n + 1, c :: s =>
    if c = '"' then
      (scanString (s.length + 1) s).map fun r => (.scalar (dec.str r.1), r.2)
    else if c = '\x7b' then
      (readContainer (readMember (readValue dec n)) '\x7d' n s).map fun r =>
        (.dict (OrderedDict.ofItems r.1), r.2)
    else if c = '[' then (readContainer (readValue dec n) ']' n s).map fun r => (.list r.1, r.2)
    else (readScalar dec (c :: s)).map fun r => (.scalar r.1, r.2)

/-- `json.loads`; `none` stands for a `JSONDecodeError`. -/
def loads (dec : Decoder α) (s : Str) : Option (PyVal α) := do
  let (v, s) ← readValue dec (s.length + 1) (skipBlanks s)
  if skipBlanks s = [] then some v else none

/-! ### Writing without an indent -/

/-- The items of a container between its brackets, on one line. -/
def bracketLine (left right : Char) (parts : List Str) : Str :=
  left :: List.intercalate ", ".toList parts ++ [right]

/-- `json.dumps(v)`. -/
def dumps (scalarText : α → Except JsonError Str) : PyVal α → Except JsonError Str
  | .scalar x => scalarText x
  | .dict items => do
    let parts ← items.mapM fun p => do
      let key ← keyText p.1
      let text ← dumps scalarText p.2
      return quote key ++ ": ".toList ++ text
    return bracketLine '\x7b' '\x7d' parts
  | .list items => do
    let parts ← items.mapM fun v => dumps scalarText v
    return bracketLine '[' ']' parts
  | .tuple items => do
    let parts ← items.mapM fun v => dumps scalarText v
    return bracketLine '[' ']' parts
  | .ndarray _ => .error .notSerializable
termination_by v => sizeOf v
decreasing_by
  · exact sizeOf_lt_dict (by assumption)
  all_goals decreasing_tactic

/-! ### Texts of a value -/

/-- A text of blanks. -/
def Blank (w : Str) : Prop := ∀ c ∈ w, isBlank c = true

/-- Texts between brackets, with commas and blanks between them. -/
inductive Bracketed (left right : Char) : List Str → Str → Prop
  | nil : Bracketed left right [] [left, right]
  | parts {parts : List Str} {w w' w'' : Str} : parts ≠ [] → Blank w → Blank w' → Blank w'' →
      Bracketed left right parts
        (left :: (w ++ (List.intercalate (',' :: w') parts ++ (w'' ++ [right]))))

/-- A text of a value of which the keys are strings, all different. -/
inductive Written (S : α → Str → Prop) : PyVal α → Str → Prop
  | scalar {x s} : S x s → Written S (.scalar x) s
  | dict {items keys texts s} : items.map Prod.fst = keys.map PyKey.str → keys.Nodup →
      List.Forall₂ (Written S) (items.map Prod.snd) texts →
      Bracketed '\x7b' '\x7d'
        (List.zipWith (fun k t => quote k ++ (": ".toList ++ t)) keys texts) s →
      Written S (.dict items) s
  | list {items texts s} : List.Forall₂ (Written S) items texts → Bracketed '[' ']' texts s →
      Written S (.list items) s

/-- A text of a scalar. -/
inductive Decoder.Text (dec : Decoder α) : α → Str → Prop
  | null : dec.Text dec.null "null".toList
  | true : dec.Text (dec.bool true) "true".toList
  | false : dec.Text (dec.bool false) "false".toList
  | str (cs : Str) : dec.Text (dec.str cs) (quote cs)
  | int {s : Str} {x : α} : scanNumber s = some (s, false, []) → dec.int s = some x → dec.Text x s
  | float {s : Str} {x : α} : scanNumber s = some (s, true, []) → dec.float s = some x →
      dec.Text x s

/-! ### Strings -/

theorem hexVal_digitChar : ∀ d < 16, hexVal (Nat.digitChar d) = some d := by decide

/-- The digits of an escape. -/
theorem drop_toDigits {n : ℕ} (hn : n < 0x10000) :
    (Nat.toDigits 16 (0x10000 + n)).drop 1
      = [Nat.digitChar (n / 4096), Nat.digitChar (n / 256 % 16), Nat.digitChar (n / 16 % 16),
        Nat.digitChar (n % 16)] := by
  have hstep : ∀ m, 16 ≤ m → Nat.toDigits 16 m
      = Nat.toDigits 16 (m / 16) ++ [Nat.digitChar (m % 16)] := fun m hm => by
    rw [Nat.toDigits_eq_if (by omega), if_neg (Nat.not_lt.mpr hm)]
  have hone : Nat.toDigits 16 1 = ['1'] := by decide
  have h₁ : (0x10000 + n) / 16 / 16 / 16 / 16 = 1 := by omega
  have h₂ : (0x10000 + n) / 16 / 16 / 16 % 16 = n / 4096 := by omega
  have h₃ : (0x10000 + n) / 16 / 16 % 16 = n / 256 % 16 := by omega
  have h₄ : (0x10000 + n) / 16 % 16 = n / 16 % 16 := by omega
  have h₅ : (0x10000 + n) % 16 = n % 16 := by omega
  rw [hstep _ (by omega), hstep _ (by omega), hstep _ (by omega), hstep _ (by omega), h₁, h₂, h₃,
    h₄, h₅, hone]
  rfl

/-- The digits of an escape are read back. -/
theorem hex4_drop_toDigits {n : ℕ} (hn : n < 0x10000) (s : Str) :
    hex4 ((Nat.toDigits 16 (0x10000 + n)).drop 1 ++ s) = some (n, s) := by
  have hsum : ((n / 4096 * 16 + n / 256 % 16) * 16 + n / 16 % 16) * 16 + n % 16 = n := by omega
  rw [drop_toDigits hn]
  simp only [hex4, List.cons_append, List.nil_append,
    hexVal_digitChar _ (show n / 4096 < 16 by omega),
    hexVal_digitChar _ (Nat.mod_lt _ (show 0 < 16 by omega)), Option.bind_eq_bind,
    Option.bind_some, hsum]

/-- A character is no surrogate. -/
theorem toNat_cases (c : Char) : c.toNat < 0xd800 ∨ 0xe000 ≤ c.toNat ∧ c.toNat < 0x110000 := by
  rcases c.valid with h | ⟨h, h'⟩
  · exact Or.inl h
  · exact Or.inr ⟨h, h'⟩

/-- A character that is escaped by its number is read back. -/
theorem scanEscape_hexDigits {c : Char} (hc : c.toNat < 0x10000) (s : Str) :
    scanEscape ((hexDigits c.toNat).drop 1 ++ s) = some (c, s) := by
  have hcases := toNat_cases c
  have hhi : ¬ (0xd800 ≤ c.toNat ∧ c.toNat < 0xdc00) := by omega
  have hlo : ¬ (0xdc00 ≤ c.toNat ∧ c.toNat < 0xe000) := by omega
  rw [hexDigits, List.drop_one, List.tail_cons, List.cons_append, scanEscape,
    hex4_drop_toDigits hc]
  simp only [Option.bind_eq_bind, Option.bind_some, if_neg hhi, if_neg hlo, Char.ofNat_toNat]

/-- Two surrogates are read as one character. -/
theorem scanEscape_pair {hi lo : ℕ} (hhi : 0xd800 ≤ hi ∧ hi < 0xdc00)
    (hlo : 0xdc00 ≤ lo ∧ lo < 0xe000) (s : Str) :
    scanEscape ((hexDigits hi).drop 1 ++ (hexDigits lo ++ s))
      = some (Char.ofNat (0x10000 + (hi - 0xd800) * 0x400 + (lo - 0xdc00)), s) := by
  rw [hexDigits, hexDigits, List.drop_one, List.tail_cons, List.cons_append, scanEscape,
    hex4_drop_toDigits (show hi < 0x10000 by omega)]
  simp only [Option.bind_eq_bind, Option.bind_some, if_pos hhi, List.cons_append,
    hex4_drop_toDigits (show lo < 0x10000 by omega), if_pos hlo]

/-- So is one that is escaped by a surrogate pair. -/
theorem scanEscape_surrogates {c : Char} (hc : 0x10000 ≤ c.toNat) (s : Str) :
    scanEscape ((hexDigits (0xd800 + (c.toNat - 0x10000) / 0x400)).drop 1
      ++ (hexDigits (0xdc00 + (c.toNat - 0x10000) % 0x400) ++ s)) = some (c, s) := by
  have hcases := toNat_cases c
  have hpair : ∀ hi lo : ℕ, hi = 0xd800 + (c.toNat - 0x10000) / 0x400 →
      lo = 0xdc00 + (c.toNat - 0x10000) % 0x400 →
      scanEscape ((hexDigits hi).drop 1 ++ (hexDigits lo ++ s)) = some (c, s) := by
    intro hi lo hhi hlo
    have hsum : 0x10000 + (hi - 0xd800) * 0x400 + (lo - 0xdc00) = c.toNat := by omega
    rw [scanEscape_pair (by omega) (by omega), hsum, Char.ofNat_toNat]
  exact hpair _ _ rfl rfl

/-- **A quoted character is read back.** -/
theorem scanString_quoteChar (c : Char) (n : ℕ) (s : Str) :
    scanString (n + 1) (quoteChar c ++ s)
      = (scanString n s).bind fun r => some (c :: r.1, r.2) := by
  have hescape : ∀ t : Str, scanEscape (t ++ s) = some (c, s) →
      scanString (n + 1) ('\\' :: t ++ s)
        = (scanString n s).bind fun r => some (c :: r.1, r.2) := by
    intro t ht
    rw [List.cons_append, scanString, if_neg (by decide), if_pos rfl, ht]
    rfl
  -- the characters with a letter of their own, then the others
  unfold quoteChar
  split
  · exact hescape ['"'] rfl
  · exact hescape ['\\'] rfl
  · exact hescape ['n'] rfl
  · exact hescape ['r'] rfl
  · exact hescape ['t'] rfl
  · exact hescape ['f'] rfl
  · exact hescape ['b'] rfl
  · rename_i hquote hback _ _ _ _ _
    split
    -- a printable one stands for itself
    case isTrue hprint =>
      rw [List.singleton_append, scanString, if_neg hquote, if_neg hback,
        if_neg (Char.not_lt.mpr hprint.1)]
      rfl
    case isFalse =>
      split
      -- the rest is escaped by one number, or by two
      case isTrue hsmall => exact hescape _ (scanEscape_hexDigits hsmall s)
      case isFalse hlarge =>
        have hread := scanEscape_surrogates (Nat.not_lt.mp hlarge) s
        rw [← List.append_assoc] at hread
        exact hescape _ hread

theorem quoteChar_ne_nil (c : Char) : quoteChar c ≠ [] := by
  unfold quoteChar
  split
  all_goals try exact List.cons_ne_nil _ _
  split
  · exact List.cons_ne_nil _ _
  · split <;> exact List.cons_ne_nil _ _

theorem length_le_flatMap_quoteChar (cs : Str) : cs.length ≤ (cs.flatMap quoteChar).length := by
  induction cs with
  | nil => exact Nat.le_refl 0
  | cons c cs ih =>
    have hpos := List.length_pos_iff.mpr (quoteChar_ne_nil c)
    rw [List.flatMap_cons, List.length_append, List.length_cons]
    omega

/-- **A quoted string is read back**, whatever its characters are. -/
theorem scanString_quote (cs : Str) {n : ℕ} (hn : cs.length < n) (s : Str) :
    scanString n (cs.flatMap quoteChar ++ '"' :: s) = some (cs, s) := by
  induction cs generalizing n with
  | nil =>
    obtain ⟨n, rfl⟩ := Nat.exists_eq_succ_of_ne_zero (Nat.ne_of_gt hn)
    rfl
  | cons c cs ih =>
    obtain ⟨n, rfl⟩ := Nat.exists_eq_succ_of_ne_zero (Nat.ne_of_gt (Nat.zero_lt_of_lt hn))
    rw [List.flatMap_cons, List.append_assoc, scanString_quoteChar,
      ih (Nat.lt_of_succ_lt_succ hn)]
    rfl

/-! ### Numbers -/

/-- What may stand behind a number: nothing that would go on with it. -/
def Follows (s : Str) : Prop :=
  ∀ c ∈ s.head?, c.isDigit = false ∧ c ≠ '.' ∧ c ≠ 'e' ∧ c ≠ 'E' ∧ c ≠ '+' ∧ c ≠ '-'

theorem follows_nil : Follows [] := nofun

theorem Follows.isDigit {s : Str} (h : Follows s) : ∀ c ∈ s.head?, c.isDigit = false :=
  fun c hc => (h c hc).1

theorem follows_cons {c : Char} {s : Str} (h : c.isDigit = false ∧ c ≠ '.' ∧ c ≠ 'e' ∧ c ≠ 'E' ∧
    c ≠ '+' ∧ c ≠ '-') : Follows (c :: s) := by
  rintro d ⟨⟩
  exact h

section

variable {rest : Str} (hrest : ∀ c ∈ rest.head?, c.isDigit = false)
include hrest

theorem spanDigits_append (s : Str) :
    spanDigits (s ++ rest) = ((spanDigits s).1, (spanDigits s).2 ++ rest) := by
  induction s with
  | nil =>
    cases rest with
    | nil => rfl
    | cons c cs => simp [spanDigits, hrest c rfl]
  | cons c s ih =>
    have hfst := congrArg Prod.fst ih
    have hsnd := congrArg Prod.snd ih
    dsimp only [spanDigits] at hfst hsnd ⊢
    cases hc : c.isDigit with
    | false => simp [hc]
    | true => simp [hc, hfst, hsnd]

theorem scanInt_append (s : Str) :
    scanInt (s ++ rest) = (scanInt s).map fun i => (i.1, i.2 ++ rest) := by
  cases s with
  | nil =>
    cases rest with
    | nil => rfl
    | cons c cs =>
      have hc := hrest c rfl
      have hne : c ≠ '0' := by
        rintro rfl
        exact absurd hc (by decide)
      simp [scanInt, spanDigits, hne, hc]
  | cons c s =>
    have hspan := spanDigits_append hrest (c :: s)
    rw [List.cons_append] at hspan
    rw [List.cons_append, scanInt, scanInt, hspan]
    split
    · rfl
    · dsimp only
      split <;> rfl

end

section

variable {rest : Str} (hrest : Follows rest)
include hrest

theorem scanFraction_append (s : Str) :
    scanFraction (s ++ rest) = ((scanFraction s).1, (scanFraction s).2 ++ rest) := by
  cases s with
  | nil =>
    cases rest with
    | nil => rfl
    | cons c cs =>
      obtain ⟨-, hdot, -⟩ := hrest c rfl
      simp [scanFraction, hdot]
  | cons c s =>
    rw [List.cons_append, scanFraction, scanFraction, spanDigits_append hrest.isDigit]
    dsimp only
    split <;> rfl

theorem scanSign_append {signs : List Char} (hsigns : ∀ c ∈ signs, c = '+' ∨ c = '-') (s : Str) :
    scanSign signs (s ++ rest) = ((scanSign signs s).1, (scanSign signs s).2 ++ rest) := by
  cases s with
  | nil =>
    cases rest with
    | nil => rfl
    | cons c cs =>
      obtain ⟨-, -, -, -, hplus, hminus⟩ := hrest c rfl
      have hno : c ∉ signs := fun hc => (hsigns c hc).elim hplus hminus
      simp [scanSign, hno]
  | cons c s =>
    rw [List.cons_append, scanSign, scanSign]
    split <;> rfl

theorem scanExponent_append (s : Str) :
    scanExponent (s ++ rest) = ((scanExponent s).1, (scanExponent s).2 ++ rest) := by
  cases s with
  | nil =>
    cases rest with
    | nil => rfl
    | cons c cs =>
      obtain ⟨-, -, he, hE, -, -⟩ := hrest c rfl
      simp [scanExponent, he, hE]
  | cons c s =>
    have hsigns : ∀ c ∈ ['+', '-'], c = '+' ∨ c = '-' := by simp
    have hsign := scanSign_append hrest hsigns s
    rw [List.cons_append, scanExponent, scanExponent, hsign]
    dsimp only
    rw [spanDigits_append hrest.isDigit]
    dsimp only
    split <;> rfl

/-- A number is read alike whatever follows it. -/
theorem scanNumber_append (s : Str) :
    scanNumber (s ++ rest) = (scanNumber s).map fun r => (r.1, r.2.1, r.2.2 ++ rest) := by
  unfold scanNumber
  dsimp only
  rw [scanSign_append hrest (by simp), scanInt_append hrest.isDigit, Option.map_map, Option.map_map]
  congr 1
  funext i
  dsimp only [Function.comp_apply]
  rw [scanFraction_append hrest]
  dsimp only
  rw [scanExponent_append hrest]

end

theorem spanDigits_of_all {s : Str} (h : ∀ c ∈ s, c.isDigit = true) : spanDigits s = (s, []) := by
  rw [spanDigits, List.takeWhile_eq_self_iff.mpr h, List.dropWhile_eq_nil_iff.mpr h]

/-- No number but zero is written with a zero in front. -/
theorem head_toDigits_ne_zero {n : ℕ} (hn : n ≠ 0) : ∀ s, Nat.toDigits 10 n ≠ '0' :: s := by
  induction n using Nat.strongRecOn with
  | _ n ih =>
    rw [Nat.toDigits_eq_if (by omega)]
    intro s hs
    by_cases hlt : n < 10
    · rw [if_pos hlt] at hs
      have hdigit : ∀ d < 10, d ≠ 0 → Nat.digitChar d ≠ '0' := by decide
      exact hdigit n hlt hn (List.cons.inj hs).1
    · rw [if_neg hlt] at hs
      cases hq : Nat.toDigits 10 (n / 10) with
      | nil => exact absurd hq Nat.toDigits_ne_nil
      | cons c cs =>
        rw [hq, List.cons_append] at hs
        rw [(List.cons.inj hs).1] at hq
        exact ih (n / 10) (Nat.div_lt_self (by omega) (by omega)) (by omega) cs hq

/-- The digits of a number start with one, and there is a zero in front for zero only. -/
theorem toDigits_eq_cons (n : ℕ) : ∃ c cs, Nat.toDigits 10 n = c :: cs ∧ c.isDigit = true ∧
    (c = '0' → cs = []) := by
  cases hs : Nat.toDigits 10 n with
  | nil => exact absurd hs Nat.toDigits_ne_nil
  | cons c cs =>
    refine ⟨c, cs, rfl, ?_, ?_⟩
    · exact Nat.isDigit_of_mem_toDigits (b := 10) (n := n) (by omega) (by omega)
        (by rw [hs]; exact List.mem_cons_self)
    · rintro rfl
      by_cases hn : n = 0
      · subst hn
        exact (List.cons.inj hs).2.symm
      · exact absurd hs (head_toDigits_ne_zero hn cs)

theorem scanInt_toDigits (n : ℕ) : scanInt (Nat.toDigits 10 n) = some (Nat.toDigits 10 n, []) := by
  have hdig : ∀ c ∈ Nat.toDigits 10 n, c.isDigit = true := fun c hc =>
    Nat.isDigit_of_mem_toDigits (by omega) (by omega) hc
  obtain ⟨c, cs, hs, -, hzero⟩ := toDigits_eq_cons n
  rw [hs] at hdig ⊢
  rw [scanInt, spanDigits_of_all hdig]
  by_cases hc : c = '0'
  · rw [if_pos hc, hzero hc]
  · rw [if_neg hc, if_neg (List.cons_ne_nil c cs)]

/-- **The text of an integer is read as that of an integer.** -/
theorem scanNumber_strOf (z : ℤ) : scanNumber (strOf z) = some (strOf z, false, []) := by
  cases z with
  | ofNat n =>
    have hsign : scanSign ['-'] (Nat.toDigits 10 n) = ([], Nat.toDigits 10 n) := by
      obtain ⟨c, cs, hs, hdig, -⟩ := toDigits_eq_cons n
      have hne : c ≠ '-' := by
        rintro rfl
        exact absurd hdig (by decide)
      simp [hs, scanSign, hne]
    simp [scanNumber, strOf, hsign, scanInt_toDigits, scanFraction, scanExponent]
  | negSucc n =>
    simp [scanNumber, strOf, scanSign, scanInt_toDigits, scanFraction, scanExponent]

/-! ### Blanks -/

theorem isBlank_iff {c : Char} :
    isBlank c = true ↔ c = ' ' ∨ c = '\t' ∨ c = '\n' ∨ c = '\r' := by
  simp [isBlank, or_assoc]

theorem skipBlanks_append {w : Str} (hw : Blank w) (s : Str) :
    skipBlanks (w ++ s) = skipBlanks s := by
  rw [skipBlanks, List.dropWhile_append_of_pos hw, skipBlanks]

theorem skipBlanks_cons {c : Char} (hc : isBlank c = false) (s : Str) :
    skipBlanks (c :: s) = c :: s := by
  simp [skipBlanks, hc]

theorem follows_append {w s : Str} (hw : Blank w) (hs : Follows s) : Follows (w ++ s) := by
  cases w with
  | nil => exact hs
  | cons c w =>
    refine follows_cons ?_
    rcases isBlank_iff.mp (hw c List.mem_cons_self) with rfl | rfl | rfl | rfl <;> decide

/-- The text of a value starts with no blank, and not as a bracket is closed. -/
def Starts (s : Str) : Prop := ∃ c cs, s = c :: cs ∧ isBlank c = false ∧ c ≠ ']' ∧ c ≠ '\x7d'

theorem Starts.skipBlanks {s : Str} (hs : Starts s) (rest : Str) :
    skipBlanks (s ++ rest) = s ++ rest := by
  obtain ⟨c, cs, rfl, hc, -⟩ := hs
  exact skipBlanks_cons hc _

theorem Starts.length_pos {s : Str} (hs : Starts s) : 0 < s.length := by
  obtain ⟨c, cs, rfl, -⟩ := hs
  exact Nat.succ_pos _

/-! ### Containers -/

/-- The text is read as the item. -/
def Reads (item : Str → Option (β × Str)) (part : Str) (x : β) : Prop :=
  Starts part ∧ ∀ rest, Follows rest → item (part ++ rest) = some (x, rest)

theorem length_le_length_intercalate (sep : Str) {part : Str} :
    ∀ {parts : List Str}, part ∈ parts → part.length ≤ (List.intercalate sep parts).length := by
  intro parts
  induction parts with
  | nil => exact fun h => absurd h List.not_mem_nil
  | cons a l ih =>
    intro h
    cases l with
    | nil =>
      rw [List.mem_singleton.mp h, List.intercalate_singleton]
    | cons b l =>
      rw [List.intercalate_cons_cons, List.length_append, List.length_append]
      rcases List.mem_cons.mp h with rfl | h
      · omega
      · have hle := ih h
        omega

theorem length_parts_le {sep : Str} (hsep : sep ≠ []) :
    ∀ parts : List Str, parts.length ≤ (List.intercalate sep parts).length + 1 := by
  intro parts
  have hpos := List.length_pos_iff.mpr hsep
  induction parts with
  | nil => exact Nat.zero_le _
  | cons a l ih =>
    cases l with
    | nil => exact Nat.succ_le_succ (Nat.zero_le _)
    | cons b l =>
      rw [List.intercalate_cons_cons, List.length_append, List.length_append, List.length_cons]
      omega

variable {left close : Char} {item : Str → Option (β × Str)} {parts : List Str} {xs : List β}

/-- A part of a container is shorter than it, and there are fewer parts than characters. -/
theorem Bracketed.length_le {s : Str} (h : Bracketed left close parts s) :
    parts.length + 1 ≤ s.length ∧ ∀ part ∈ parts, part.length + 2 ≤ s.length := by
  cases h with
  | nil => exact ⟨Nat.succ_le_succ (Nat.zero_le 1), fun part hp => absurd hp List.not_mem_nil⟩
  | @parts _ w w' w'' hne hw hw' hw'' =>
    have hparts := length_parts_le (List.cons_ne_nil ',' w') parts
    simp only [List.length_cons, List.length_append, List.length_nil]
    refine ⟨by omega, fun part hp => ?_⟩
    have hpart := length_le_length_intercalate (',' :: w') hp
    omega

/-- **Items with commas and blanks between them are read** one after the other. -/
theorem readItems_intercalate (hclose : isBlank close = false) (hcomma : close ≠ ',')
    (hfollows : ∀ s, Follows (close :: s)) {w w'' : Str} (hw : Blank w) (hw'' : Blank w'')
    (h : List.Forall₂ (Reads item) parts xs) (hne : parts ≠ []) {n : ℕ} (hn : parts.length ≤ n)
    (rest : Str) :
    readItems item close n (List.intercalate (',' :: w) parts ++ (w'' ++ close :: rest))
      = some (xs, rest) := by
  induction h generalizing n with
  | nil => exact absurd rfl hne
  | @cons part x parts xs hpart htail ih =>
    obtain ⟨n, rfl⟩ := Nat.exists_eq_succ_of_ne_zero (Nat.ne_of_gt (Nat.zero_lt_of_lt hn))
    cases htail with
    | nil =>
      -- the last item, and the bracket
      rw [List.intercalate_singleton, readItems, hpart.2 _ (follows_append hw'' (hfollows rest))]
      simp only [Option.bind_eq_bind, Option.bind_some, skipBlanks_append hw'',
        skipBlanks_cons hclose, if_true]
    | @cons part' x' parts' xs' hpart' htail' =>
      have hnext : List.intercalate (',' :: w) (part :: part' :: parts')
          ++ (w'' ++ close :: rest) = part ++ ',' :: (w ++ (List.intercalate (',' :: w)
            (part' :: parts') ++ (w'' ++ close :: rest))) := by
        simp [List.intercalate_cons_cons]
      have hstarts : Starts (List.intercalate (',' :: w) (part' :: parts')) := by
        obtain ⟨c, cs, rfl, hc⟩ := hpart'.1
        exact ⟨c, _, List.intercalate_cons_cons_left, hc⟩
      have hrec := ih (List.cons_ne_nil _ _) (Nat.le_of_succ_le_succ hn)
      rw [hnext, readItems, hpart.2 _ (follows_cons (by decide))]
      simp only [Option.bind_eq_bind, Option.bind_some, skipBlanks_cons (show isBlank ',' = false by
        decide), if_neg hcomma.symm, if_true, skipBlanks_append hw, hstarts.skipBlanks, hrec]

/-- **A container is read item by item.** -/
theorem readContainer_bracketed (hclose : close = ']' ∨ close = '\x7d') {s : Str}
    (hs : Bracketed left close parts s) (h : List.Forall₂ (Reads item) parts xs) {n : ℕ}
    (hn : parts.length ≤ n) (rest : Str) :
    ∃ t, s = left :: t ∧ readContainer item close n (t ++ rest) = some (xs, rest) := by
  have hblank : isBlank close = false := by
    rcases hclose with rfl | rfl <;> decide
  have hcomma : close ≠ ',' := by
    rcases hclose with rfl | rfl <;> decide
  have hfollows : ∀ s, Follows (close :: s) := by
    rcases hclose with rfl | rfl <;> exact fun s => follows_cons (by decide)
  -- an empty container closes at once, the other one has a first item that does not
  cases hs with
  | nil =>
    cases h with
    | nil =>
      refine ⟨[close], rfl, ?_⟩
      rw [List.singleton_append, readContainer, skipBlanks_cons hblank]
      exact if_pos rfl
  | @parts _ w w' w'' hne hw hw' hw'' =>
    refine ⟨_, rfl, ?_⟩
    have hitems := readItems_intercalate hblank hcomma hfollows hw' hw'' h hne hn rest
    cases h with
    | nil => exact absurd rfl hne
    | @cons part x parts xs hpart htail =>
      -- the first character of an item is no closing bracket, so the items are read
      obtain ⟨c, cs, rfl, hc, hsquare, hcurly⟩ := hpart.1
      have hne : c ≠ close := by
        rcases hclose with rfl | rfl
        · exact hsquare
        · exact hcurly
      rw [List.intercalate_cons_cons_left] at hitems ⊢
      rw [readContainer, List.append_assoc, skipBlanks_append hw, List.cons_append,
        List.cons_append, skipBlanks_cons hc]
      simp only [List.append_assoc, List.singleton_append]
      rw [if_neg hne]
      exact hitems

/-! ### Values -/

theorem head_of_scanNumber {s : Str} {r : Str × Bool × Str} (h : scanNumber s = some r) :
    ∃ c cs, s = c :: cs ∧ (c = '-' ∨ c.isDigit = true) := by
  cases s with
  | nil => cases h
  | cons c cs =>
    refine ⟨c, cs, rfl, ?_⟩
    by_contra hno
    obtain ⟨hminus, hdigit⟩ := not_or.mp hno
    have hzero : c ≠ '0' := by
      rintro rfl
      exact hdigit rfl
    rw [Bool.not_eq_true] at hdigit
    simp [scanNumber, scanSign, scanInt, spanDigits, hminus, hzero, hdigit] at h

/-- A text that is no string and no container. -/
theorem readValue_of_readScalar {dec : Decoder α} {x : α} {c : Char} {s rest : Str}
    (hc : c ≠ '"' ∧ c ≠ '\x7b' ∧ c ≠ '[') (h : readScalar dec (c :: s) = some (x, rest)) (n : ℕ) :
    readValue dec (n + 1) (c :: s) = some (.scalar x, rest) := by
  rw [readValue, if_neg hc.1, if_neg hc.2.1, if_neg hc.2.2, h]
  rfl

theorem readScalar_of_scanNumber {dec : Decoder α} {x : α} {s text rest : Str} {isFloat : Bool}
    (h : scanNumber s = some (text, isFloat, rest))
    (hx : (if isFloat then dec.float text else dec.int text) = some x) :
    readScalar dec s = some (x, rest) := by
  obtain ⟨c, cs, rfl, hc⟩ := head_of_scanNumber h
  have hne : ∀ d : Char, d.isDigit = false → d ≠ '-' → d ≠ c := by
    rintro d hd hminus rfl
    rcases hc with hc | hc
    · exact hminus hc
    · rw [hc] at hd
      cases hd
  have hprefix : ∀ (d : Char) (ds : Str), d.isDigit = false → d ≠ '-' → ¬ d :: ds <+: c :: cs :=
    fun d ds hd hminus hp => hne d hd hminus (List.cons_prefix_cons.mp hp).1
  have hnull : ¬ "null".toList <+: c :: cs := hprefix 'n' _ (by decide) (by decide)
  have htrue : ¬ "true".toList <+: c :: cs := hprefix 't' _ (by decide) (by decide)
  have hfalse : ¬ "false".toList <+: c :: cs := hprefix 'f' _ (by decide) (by decide)
  rw [readScalar, if_neg hnull, if_neg htrue, if_neg hfalse, h]
  dsimp only
  rw [hx]
  rfl

/-- **The text of a scalar is read as it.** -/
theorem reads_of_text {dec : Decoder α} {x : α} {s : Str} (h : dec.Text x s) (n : ℕ) :
    Reads (readValue dec (n + 1)) s (.scalar x) := by
  -- a number starts with a digit or a sign, and ends where the rest begins
  have hnumber : ∀ (isFloat : Bool), scanNumber s = some (s, isFloat, []) →
      (if isFloat then dec.float s else dec.int s) = some x →
      Reads (readValue dec (n + 1)) s (.scalar x) := by
    intro isFloat hs hx
    obtain ⟨c, cs, rfl, hc⟩ := head_of_scanNumber hs
    have hne : ∀ d : Char, d.isDigit = false → d ≠ '-' → c ≠ d := by
      rintro d hd hminus rfl
      rcases hc with hc | hc
      · exact hminus hc
      · rw [hc] at hd
        cases hd
    refine ⟨⟨c, cs, rfl, ?_, hne _ (by decide) (by decide), hne _ (by decide) (by decide)⟩,
      fun rest hrest => ?_⟩
    · rw [Bool.eq_false_iff]
      intro hblank
      rcases isBlank_iff.mp hblank with h | h | h | h
      all_goals exact hne _ (by decide) (by decide) h
    · have hscan := scanNumber_append hrest (c :: cs)
      rw [hs] at hscan
      exact readValue_of_readScalar ⟨hne _ (by decide) (by decide), hne _ (by decide) (by decide),
        hne _ (by decide) (by decide)⟩ (readScalar_of_scanNumber hscan hx) n
  cases h with
  | null =>
    exact ⟨⟨'n', _, rfl, by decide⟩, fun rest _ => readValue_of_readScalar (by decide) rfl n⟩
  | true =>
    exact ⟨⟨'t', _, rfl, by decide⟩, fun rest _ => readValue_of_readScalar (by decide) rfl n⟩
  | false =>
    exact ⟨⟨'f', _, rfl, by decide⟩, fun rest _ => readValue_of_readScalar (by decide) rfl n⟩
  -- the quotes end a string, and the fuel is longer than its characters
  | str cs =>
    refine ⟨⟨'"', _, rfl, by decide⟩, fun rest _ => ?_⟩
    have hlen : cs.length < (cs.flatMap quoteChar ++ '"' :: rest).length + 1 := by
      have hle := length_le_flatMap_quoteChar cs
      rw [List.length_append]
      omega
    have htext : quote cs ++ rest = '"' :: (cs.flatMap quoteChar ++ '"' :: rest) := by
      simp [quote]
    rw [htext, readValue, if_pos rfl, scanString_quote cs hlen]
    rfl
  | int hs hx => exact hnumber _ hs hx
  | float hs hx => exact hnumber _ hs hx

theorem starts_quote (cs : Str) (t : Str) : Starts (quote cs ++ t) :=
  ⟨'"', _, rfl, by decide⟩

/-- A key with its value is read. -/
theorem reads_member {dec : Decoder α} {n : ℕ} {v : PyVal α} {text : Str}
    (h : Reads (readValue dec n) text v) (k : Str) :
    Reads (readMember (readValue dec n)) (quote k ++ (": ".toList ++ text)) (.str k, v) := by
  refine ⟨starts_quote k _, fun rest hrest => ?_⟩
  have hlen : k.length
      < (k.flatMap quoteChar ++ '"' :: ':' :: ' ' :: (text ++ rest)).length + 1 := by
    have hle := length_le_flatMap_quoteChar k
    rw [List.length_append]
    omega
  have htext : quote k ++ (": ".toList ++ text) ++ rest
      = '"' :: (k.flatMap quoteChar ++ '"' :: ':' :: ' ' :: (text ++ rest)) := by
    simp [quote]
  have hskip : skipBlanks (' ' :: (text ++ rest)) = text ++ rest :=
    (skipBlanks_append (w := [' ']) (by simp [Blank, isBlank]) _).trans (h.1.skipBlanks rest)
  rw [htext, readMember, if_pos rfl, scanString_quote k hlen]
  simp only [Option.bind_eq_bind, Option.bind_some, skipBlanks_cons (show isBlank ':' = false by
    decide), if_true, hskip, h.2 rest hrest]

/-- Keys and values, with what each is read as. -/
theorem forall₂_reads_member {dec : Decoder α} {n : ℕ} : ∀ {keys : List Str} {texts : List Str}
    {items : List (PyKey × PyVal α)}, items.map Prod.fst = keys.map PyKey.str →
    List.Forall₂ (Reads (readValue dec n)) texts (items.map Prod.snd) →
    List.Forall₂ (Reads (readMember (readValue dec n)))
      (List.zipWith (fun k t => quote k ++ (": ".toList ++ t)) keys texts) items := by
  -- one member after the other
  intro keys
  induction keys with
  | nil =>
    intro texts items hkeys _
    obtain rfl := List.map_eq_nil_iff.mp hkeys
    exact .nil
  | cons k keys ih =>
    intro texts items hkeys h
    cases items with
    | nil => cases hkeys
    | cons p items =>
      obtain ⟨hk, hrest⟩ := List.cons.inj hkeys
      cases h with
      | cons hv htail =>
        obtain ⟨key, v⟩ := p
        obtain rfl : key = .str k := hk
        exact .cons (reads_member hv k) (ih hrest htail)

/-- What is related to the texts is related the other way around. -/
theorem forall₂_imp_flip {R : PyVal α → Str → Prop} {Q : Str → PyVal α → Prop} {vs : List (PyVal α)}
    {texts : List Str} (h : List.Forall₂ R vs texts)
    (hRQ : ∀ v ∈ vs, ∀ t ∈ texts, R v t → Q t v) : List.Forall₂ Q texts vs := by
  induction h with
  | nil => exact .nil
  | cons hvt _ ih =>
    exact .cons (hRQ _ List.mem_cons_self _ List.mem_cons_self hvt)
      (ih fun v hv t ht => hRQ v (List.mem_cons_of_mem _ hv) t (List.mem_cons_of_mem _ ht))

/-- A value of a dictionary is shorter than its item. -/
theorem length_le_of_mem_texts {keys texts : List Str} (hlen : keys.length = texts.length)
    {n : ℕ} (h : ∀ part ∈ List.zipWith (fun k t => quote k ++ (": ".toList ++ t)) keys texts,
      part.length ≤ n) : ∀ t ∈ texts, t.length ≤ n := by
  induction keys generalizing texts with
  | nil =>
    rw [List.length_nil] at hlen
    obtain rfl := List.length_eq_zero_iff.mp hlen.symm
    exact fun t ht => absurd ht List.not_mem_nil
  | cons k keys ih =>
    cases texts with
    | nil => cases hlen
    | cons t texts =>
      rw [List.zipWith_cons_cons, List.forall_mem_cons] at h
      refine List.forall_mem_cons.mpr ⟨?_, ih (Nat.succ.inj hlen) h.2⟩
      have hle := h.1
      simp only [List.length_append] at hle
      omega

/-- **A text of a value is read as it**, if there is a round for each of its characters. -/
theorem reads_of_written {dec : Decoder α} {v : PyVal α} : ∀ {s : Str}, Written dec.Text v s →
    ∀ {n : ℕ}, s.length ≤ n → Reads (readValue dec n) s v := by
  -- on the value; the text of a part is shorter, so that its fuel is enough
  induction v using PyVal.induct with
  | scalar x =>
    intro s h n hn
    cases h with
    | scalar hx =>
      have hpos := (reads_of_text hx 0).1.length_pos
      obtain ⟨n, rfl⟩ := Nat.exists_eq_succ_of_ne_zero (show n ≠ 0 by omega)
      exact reads_of_text hx n
  | dict items ih =>
    intro s h n hn
    cases h with
    -- the texts of the values are parts of the text of the members
    | @dict _ keys texts _ hkeys hnodup hvalues hs =>
      obtain ⟨hcount, hpart⟩ := hs.length_le
      obtain ⟨n, rfl⟩ := Nat.exists_eq_succ_of_ne_zero (show n ≠ 0 by omega)
      have hlen : keys.length = texts.length := by
        rw [← hvalues.length_eq, List.length_map, ← List.length_map PyKey.str, ← hkeys,
          List.length_map]
      have htexts := length_le_of_mem_texts hlen (n := n) fun part hp => by
        have hle := hpart part hp
        omega
      have hreads := forall₂_imp_flip hvalues fun v hv t ht hvt => by
        obtain ⟨p, hp, rfl⟩ := List.mem_map.mp hv
        exact ih p hp hvt (htexts t ht)
      -- the members are read in their order, and no key comes twice
      have hmembers := forall₂_reads_member hkeys hreads
      have hitems : OrderedDict.ofItems items = items := by
        apply OrderedDict.ofItems_eq_self
        rw [hkeys]
        exact hnodup.map fun _ _ heq => PyKey.str.inj heq
      -- how the text starts, and how it is read before any rest
      refine ⟨?_, fun rest _ => ?_⟩
      · obtain ⟨t, rfl, -⟩ := readContainer_bracketed (Or.inr rfl) hs hmembers (n := n)
          (by omega) []
        exact ⟨_, t, rfl, by decide, by decide, by decide⟩
      · obtain ⟨t, rfl, hread⟩ := readContainer_bracketed (Or.inr rfl) hs hmembers (n := n)
          (by omega) rest
        rw [List.cons_append, readValue, if_neg (by decide), if_pos rfl, hread, Option.map_some,
          hitems]
  -- a list is a dictionary without keys
  | list items ih =>
    intro s h n hn
    cases h with
    | @list _ texts _ hvalues hs =>
      obtain ⟨hcount, hpart⟩ := hs.length_le
      obtain ⟨n, rfl⟩ := Nat.exists_eq_succ_of_ne_zero (show n ≠ 0 by omega)
      have hreads := forall₂_imp_flip (Q := Reads (readValue dec n)) hvalues
        fun v hv t ht hvt => by
          have hle := hpart t ht
          exact ih v hv hvt (by omega)
      refine ⟨?_, fun rest _ => ?_⟩
      · obtain ⟨t, rfl, -⟩ := readContainer_bracketed (Or.inl rfl) hs hreads (n := n)
          (by omega) []
        exact ⟨_, t, rfl, by decide, by decide, by decide⟩
      · obtain ⟨t, rfl, hread⟩ := readContainer_bracketed (Or.inl rfl) hs hreads (n := n)
          (by omega) rest
        rw [List.cons_append, readValue, if_neg (by decide), if_neg (by decide), if_pos rfl,
          hread]
        rfl
  -- no text is that of a tuple or an array
  | tuple items _ => intro s h; cases h
  | ndarray v _ => intro s h; cases h

/-- **Every text of a value is read as it.** -/
theorem loads_of_written {dec : Decoder α} {v : PyVal α} {s : Str} (h : Written dec.Text v s) :
    loads dec s = some v := by
  obtain ⟨hstarts, hread⟩ := reads_of_written h (Nat.le_succ s.length)
  have hskip := hstarts.skipBlanks []
  have hread := hread [] follows_nil
  rw [List.append_nil] at hskip hread
  rw [loads, hskip, hread]
  rfl

/-! ### The writers -/

section

variable {P : α → Prop} {S : α → Str → Prop} {scalarText : α → Except JsonError Str}

theorem blank_newline (level : ℕ) : Blank (newline level) := by
  intro c hc
  rcases List.mem_cons.mp hc with rfl | hc
  · rfl
  · rw [List.eq_of_mem_replicate hc]
    rfl

theorem bracketed_bracket (left right : Char) (level : ℕ) (parts : List Str) :
    Bracketed left right parts (bracket left right level parts) := by
  rw [bracket]
  split
  case isTrue h =>
    rw [h]
    exact .nil
  case isFalse h =>
    have hparts := @Bracketed.parts left right _ _ _ _ h (blank_newline (level + 1))
      (blank_newline (level + 1)) (blank_newline level)
    simpa using hparts

theorem bracketed_bracketLine (left right : Char) (parts : List Str) :
    Bracketed left right parts (bracketLine left right parts) := by
  by_cases h : parts = []
  · rw [h]
    exact .nil
  · exact @Bracketed.parts left right parts [] [' '] [] h (by simp [Blank])
      (by simp [Blank, isBlank]) (by simp [Blank])

/-- The items of a dictionary of which every key is a string, one after the other. -/
theorem mapM_members {write : PyVal α → Except JsonError Str} :
    ∀ {items : List (PyKey × PyVal α)} {parts : List Str}, (∀ p ∈ items, ∃ k, p.1 = .str k) →
    (items.mapM fun p => do
        let key ← keyText p.1
        let text ← write p.2
        return quote key ++ ": ".toList ++ text) = .ok parts →
    ∃ keys texts, items.map Prod.fst = keys.map PyKey.str ∧
      List.Forall₂ (fun v t => write v = .ok t) (items.map Prod.snd) texts ∧
      parts = List.zipWith (fun k t => quote k ++ (": ".toList ++ t)) keys texts := by
  intro items
  induction items with
  | nil =>
    intro parts _ h
    obtain rfl := Except.ok.inj h
    exact ⟨[], [], rfl, .nil, rfl⟩
  | cons p items ih =>
    intro parts hkeys h
    rw [List.mapM_cons] at h
    -- the first member is its key and its text
    obtain ⟨part, hpart, h⟩ := bind_eq_ok_iff.mp h
    obtain ⟨parts', hparts', h⟩ := bind_eq_ok_iff.mp h
    obtain rfl := Except.ok.inj h
    obtain ⟨k, hk⟩ := hkeys p List.mem_cons_self
    rw [hk, keyText, ok_bind] at hpart
    obtain ⟨text, htext, hpart⟩ := bind_eq_ok_iff.mp hpart
    obtain rfl := Except.ok.inj hpart
    obtain ⟨keys, texts, hfst, hsnd, rfl⟩ :=
      ih (fun q hq => hkeys q (List.mem_cons_of_mem p hq)) hparts'
    refine ⟨k :: keys, text :: texts, ?_, .cons htext hsnd, ?_⟩
    · rw [List.map_cons, List.map_cons, hk, hfst]
    · rw [List.zipWith_cons_cons, List.append_assoc]

/-- Values that are written, as texts of them. -/
theorem forall₂_written {write : PyVal α → Except JsonError Str} {vs : List (PyVal α)}
    {texts : List Str} (h : List.Forall₂ (fun v t => write v = .ok t) vs texts)
    (hwrite : ∀ v ∈ vs, ∀ t, write v = .ok t → Written S v t) :
    List.Forall₂ (Written S) vs texts := by
  induction h with
  | nil => exact .nil
  | cons hvt _ ih =>
    exact .cons (hwrite _ List.mem_cons_self _ hvt)
      (ih fun v hv => hwrite v (List.mem_cons_of_mem _ hv))

theorem nodup_of_map_str {items : List (PyKey × PyVal α)} {keys : List Str}
    (h : (items.map Prod.fst).Nodup) (hkeys : items.map Prod.fst = keys.map PyKey.str) :
    keys.Nodup := by
  rw [hkeys] at h
  exact h.of_map _

variable (hS : ∀ x s, P x → scalarText x = .ok s → S x s)
include hS

/-- **`json.dumps` with an indent writes a text of the value.** -/
theorem written_jsonDumps {fr : Frames α} {v : PyVal α} (hv : v.Plain P) :
    ∀ {level stack : ℕ} {s : Str}, jsonDumps fr scalarText level stack v = .ok s →
      Written S v s := by
  induction hv with
  | scalar hx =>
    intro level stack s h
    rw [jsonDumps] at h
    obtain ⟨rest, -, h⟩ := bind_eq_ok_iff.mp h
    exact .scalar (hS _ s hx h)
  -- the frames that are left do not show in the text
  | dict hkeys hnodup _ ih =>
    intro level stack s h
    rw [jsonDumps] at h
    obtain ⟨rest, -, h⟩ := bind_eq_ok_iff.mp h
    obtain ⟨parts, hparts, h⟩ := bind_eq_ok_iff.mp h
    obtain rfl := Except.ok.inj h
    obtain ⟨keys, texts, hfst, hsnd, rfl⟩ := mapM_members hkeys hparts
    refine .dict hfst (nodup_of_map_str hnodup hfst) (forall₂_written hsnd fun v hv t ht => ?_)
      (bracketed_bracket _ _ level _)
    obtain ⟨p, hp, rfl⟩ := List.mem_map.mp hv
    exact ih p hp ht
  | list _ ih =>
    intro level stack s h
    rw [jsonDumps] at h
    obtain ⟨rest, -, h⟩ := bind_eq_ok_iff.mp h
    obtain ⟨parts, hparts, h⟩ := bind_eq_ok_iff.mp h
    obtain rfl := Except.ok.inj h
    exact .list (forall₂_written (mapM_eq_ok_iff.mp hparts) fun v hv t ht => ih v hv ht)
      (bracketed_bracket _ _ level _)

/-- **So does `json.dumps` without one.** -/
theorem written_dumps {v : PyVal α} (hv : v.Plain P) : ∀ {s : Str},
    dumps scalarText v = .ok s → Written S v s := by
  -- as with an indent, but the brackets stand on one line
  induction hv with
  | scalar hx =>
    intro s h
    rw [dumps] at h
    exact .scalar (hS _ s hx h)
  | dict hkeys hnodup _ ih =>
    intro s h
    rw [dumps] at h
    obtain ⟨parts, hparts, h⟩ := bind_eq_ok_iff.mp h
    obtain rfl := Except.ok.inj h
    obtain ⟨keys, texts, hfst, hsnd, rfl⟩ := mapM_members hkeys hparts
    refine .dict hfst (nodup_of_map_str hnodup hfst) (forall₂_written hsnd fun v hv t ht => ?_)
      (bracketed_bracketLine _ _ _)
    obtain ⟨p, hp, rfl⟩ := List.mem_map.mp hv
    exact ih p hp ht
  | list _ ih =>
    intro s h
    rw [dumps] at h
    obtain ⟨parts, hparts, h⟩ := bind_eq_ok_iff.mp h
    obtain rfl := Except.ok.inj h
    exact .list (forall₂_written (mapM_eq_ok_iff.mp hparts) fun v hv t ht => ih v hv ht)
      (bracketed_bracketLine _ _ _)

end

/-! ### Characters outside ASCII -/

/-- A text of ASCII characters. -/
def Ascii (s : Str) : Prop := ∀ c ∈ s, c.toNat < 128

instance (s : Str) : Decidable (Ascii s) :=
  decidable_of_iff (s.all fun c => c.toNat < 128) (by simp [Ascii])

theorem ascii_nil : Ascii [] := fun _ hc => absurd hc List.not_mem_nil

theorem ascii_cons {c : Char} {s : Str} (hc : c.toNat < 128) (hs : Ascii s) : Ascii (c :: s) :=
  List.forall_mem_cons.mpr ⟨hc, hs⟩

theorem ascii_append {s t : Str} (hs : Ascii s) (ht : Ascii t) : Ascii (s ++ t) :=
  List.forall_mem_append.mpr ⟨hs, ht⟩

theorem Blank.ascii {w : Str} (hw : Blank w) : Ascii w := by
  intro c hc
  rcases isBlank_iff.mp (hw c hc) with rfl | rfl | rfl | rfl <;> decide

theorem ascii_hexDigits {n : ℕ} (hn : n < 0x10000) : Ascii (hexDigits n) := by
  have hdigit : ∀ d < 16, (Nat.digitChar d).toNat < 128 := by decide
  rw [hexDigits, drop_toDigits hn]
  exact ascii_cons (by decide) (ascii_cons (by decide) (ascii_cons (hdigit _ (by omega))
    (ascii_cons (hdigit _ (by omega)) (ascii_cons (hdigit _ (by omega))
      (ascii_cons (hdigit _ (by omega)) ascii_nil)))))

/-- What is not printable ASCII is escaped. -/
theorem ascii_quoteChar (c : Char) : Ascii (quoteChar c) := by
  have hcases := toNat_cases c
  unfold quoteChar
  split
  iterate 7 exact ascii_cons (by decide) (ascii_cons (by decide) ascii_nil)
  split
  case isTrue hprint =>
    have hle : c.toNat ≤ 126 := hprint.2
    exact ascii_cons (by omega) ascii_nil
  case isFalse =>
    split
    case isTrue hsmall => exact ascii_hexDigits hsmall
    case isFalse hlarge =>
      exact ascii_append (ascii_hexDigits (by omega)) (ascii_hexDigits (by omega))

theorem ascii_quote (cs : Str) : Ascii (quote cs) := by
  refine ascii_append (ascii_cons (by decide) ?_) (ascii_cons (by decide) ascii_nil)
  intro c hc
  obtain ⟨d, -, hd⟩ := List.mem_flatMap.mp hc
  exact ascii_quoteChar d c hd

theorem ascii_intercalate {sep : Str} (hsep : Ascii sep) {parts : List Str}
    (h : ∀ part ∈ parts, Ascii part) : Ascii (List.intercalate sep parts) := by
  induction parts with
  | nil => exact ascii_nil
  | cons part parts ih =>
    obtain ⟨hpart, hparts⟩ := List.forall_mem_cons.mp h
    cases parts with
    | nil =>
      rw [List.intercalate_singleton]
      exact hpart
    | cons next parts =>
      rw [List.intercalate_cons_cons]
      exact ascii_append (ascii_append hpart hsep) (ih hparts)

theorem Bracketed.ascii {left right : Char} {parts : List Str} {s : Str}
    (hs : Bracketed left right parts s) (hleft : left.toNat < 128) (hright : right.toNat < 128)
    (h : ∀ part ∈ parts, Ascii part) : Ascii s := by
  cases hs with
  | nil => exact ascii_cons hleft (ascii_cons hright ascii_nil)
  | parts _ hw hw' hw'' =>
    have hsep := ascii_cons (c := ',') (by decide) hw'.ascii
    exact ascii_cons hleft (ascii_append hw.ascii (ascii_append (ascii_intercalate hsep h)
      (ascii_append hw''.ascii (ascii_cons hright ascii_nil))))

/-- **A text has no characters outside ASCII**, if no scalar has. -/
theorem ascii_of_written {S : α → Str → Prop} (hS : ∀ x s, S x s → Ascii s) {v : PyVal α} :
    ∀ {s : Str}, Written S v s → Ascii s := by
  -- what holds of the texts of values holds of a list of them
  have hmem : ∀ {vs : List (PyVal α)} {texts : List Str}, List.Forall₂ (Written S) vs texts →
      (∀ v ∈ vs, ∀ {s : Str}, Written S v s → Ascii s) → ∀ t ∈ texts, Ascii t := by
    intro vs texts h
    induction h with
    | nil => exact fun _ t ht => absurd ht List.not_mem_nil
    | cons hvt _ ih =>
      intro hvs
      obtain ⟨hv, hvs⟩ := List.forall_mem_cons.mp hvs
      exact List.forall_mem_cons.mpr ⟨hv hvt, ih hvs⟩
  induction v using PyVal.induct with
  | scalar x =>
    intro s h
    cases h with
    | scalar hx => exact hS x s hx
  | dict items ih =>
    intro s h
    cases h with
    | @dict _ keys texts _ _ _ hvalues hs =>
      have htexts := hmem hvalues fun v hv => by
        obtain ⟨p, hp, rfl⟩ := List.mem_map.mp hv
        exact ih p hp
      -- a part is a quoted key and the text of a value
      refine hs.ascii (by decide) (by decide) fun part hpart => ?_
      rw [← List.map_uncurry_zip_eq_zipWith] at hpart
      obtain ⟨⟨k, t⟩, hkt, rfl⟩ := List.mem_map.mp hpart
      exact ascii_append (ascii_quote k) (ascii_cons (by decide) (ascii_cons (by decide)
        (htexts t (List.of_mem_zip hkt).2)))
  | list items ih =>
    intro s h
    cases h with
    | list hvalues hs => exact hs.ascii (by decide) (by decide) (hmem hvalues ih)
  | tuple items _ => intro s h; cases h
  | ndarray v _ => intro s h; cases h

end JsonText
