import Mathlib.Algebra.Ring.Nat
import Mathlib.Data.List.Basic
import Mathlib.Tactic.Common
import Mathlib.Data.Nat.Notation

/-!
# Byte strings

Reads and writes at an offset of a byte string, in the two forms a verification
needs: the checked reads a program performs (`read8`, `readBe16`), which fail
outside the string, and the total reads its specification speaks of (`byteAt`,
`be16At`).  A write replaces a range (`overwrite`), a removal closes the gap
(`removeRange`); both are described byte by byte.

## Main results

* `readBe16_eq_some` — inside the string the checked read is the total one.
* `byteAt_overwrite`, `length_overwrite` — a write changes its range only.
* `byteAt_removeRange` — what stands where once a range is taken out.
* `byteAt_append_left` — reads do not see what is appended.
* `leNat_leBytes`, `beNat_beBytes` — numbers are read back from their bytes.
-/

namespace Bytes

/-- A byte. -/
abbrev Byte := BitVec 8

/-! ### Reads -/

/-- The byte at `i`; junk outside the string. -/
def byteAt (f : List Byte) (i : ℕ) : Byte := f.getD i 0

/-- The big-endian 16-bit word at `i`. -/
def be16At (f : List Byte) (i : ℕ) : BitVec 16 := byteAt f i ++ byteAt f (i + 1)

/-- The checked read of one byte. -/
def read8 (f : List Byte) (i : ℕ) : Option Byte := f[i]?

/-- The checked read of a big-endian 16-bit word. -/
def readBe16 (f : List Byte) (i : ℕ) : Option (BitVec 16) :=
  (read8 f i).bind fun a => (read8 f (i + 1)).map fun b => a ++ b

theorem byteAt_eq_getElem {f : List Byte} {i : ℕ} (h : i < f.length) : byteAt f i = f[i] := by
  rw [byteAt, List.getD_eq_getElem?_getD, List.getElem?_eq_getElem h, Option.getD_some]

theorem byteAt_of_length_le {f : List Byte} {i : ℕ} (h : f.length ≤ i) : byteAt f i = 0 := by
  rw [byteAt, List.getD_eq_getElem?_getD, List.getElem?_eq_none h, Option.getD_none]

theorem read8_eq_some {f : List Byte} {i : ℕ} (h : i < f.length) :
    read8 f i = some (byteAt f i) := by
  rw [read8, byteAt_eq_getElem h, List.getElem?_eq_getElem h]

/-- Inside the string the checked read is the total one. -/
theorem readBe16_eq_some {f : List Byte} {i : ℕ} (h : i + 2 ≤ f.length) :
    readBe16 f i = some (be16At f i) := by
  rw [readBe16, read8_eq_some (by omega), read8_eq_some (by omega)]
  rfl

/-- Two strings of one length are equal when they agree byte by byte. -/
theorem ext_byteAt {f g : List Byte} (hlen : f.length = g.length)
    (h : ∀ i, i < f.length → byteAt f i = byteAt g i) : f = g := by
  refine List.ext_getElem hlen fun i hf hg => ?_
  rw [← byteAt_eq_getElem hf, ← byteAt_eq_getElem hg]
  exact h i hf

theorem byteAt_append_left {f g : List Byte} {i : ℕ} (h : i < f.length) :
    byteAt (f ++ g) i = byteAt f i := by
  rw [byteAt_eq_getElem h, byteAt_eq_getElem (by rw [List.length_append]; omega),
    List.getElem_append_left h]

/-! ### A range -/

/-- The `n` bytes from `off` on. -/
def slice (f : List Byte) (off n : ℕ) : List Byte := (f.drop off).take n

theorem length_slice {f : List Byte} {off n : ℕ} (h : off + n ≤ f.length) :
    (slice f off n).length = n := by
  rw [slice, List.length_take, List.length_drop]
  omega

theorem byteAt_slice {f : List Byte} {off n i : ℕ} (h : off + n ≤ f.length) (hi : i < n) :
    byteAt (slice f off n) i = byteAt f (off + i) := by
  rw [byteAt_eq_getElem (by rw [length_slice h]; exact hi), byteAt_eq_getElem (by omega)]
  simp only [slice, List.getElem_take, List.getElem_drop]

/-! ### Writing a range -/

/-- The string with the range from `off` on replaced by `bs`. -/
def overwrite (f : List Byte) (off : ℕ) (bs : List Byte) : List Byte :=
  f.take off ++ bs ++ f.drop (off + bs.length)

theorem length_overwrite {f : List Byte} {off : ℕ} {bs : List Byte}
    (h : off + bs.length ≤ f.length) : (overwrite f off bs).length = f.length := by
  simp only [overwrite, List.length_append, List.length_take, List.length_drop]
  omega

/-- A write changes its range only. -/
theorem byteAt_overwrite {f : List Byte} {off : ℕ} {bs : List Byte}
    (h : off + bs.length ≤ f.length) (i : ℕ) :
    byteAt (overwrite f off bs) i =
      if off ≤ i ∧ i < off + bs.length then byteAt bs (i - off) else byteAt f i := by
  have htake : (f.take off).length = off := by rw [List.length_take]; omega
  simp only [byteAt, overwrite, List.getD_eq_getElem?_getD]
  by_cases hlo : i < off
  · rw [if_neg (by omega), List.getElem?_append_left (by rw [List.length_append, htake]; omega),
      List.getElem?_append_left (by rw [htake]; exact hlo), List.getElem?_take_of_lt hlo]
  · by_cases hhi : i < off + bs.length
    · rw [if_pos (by omega), List.getElem?_append_left (by rw [List.length_append, htake]; omega),
        List.getElem?_append_right (by rw [htake]; omega), htake]
    · rw [if_neg (by omega), List.getElem?_append_right (by rw [List.length_append, htake]; omega),
        List.getElem?_drop, List.length_append, htake]
      congr 2
      omega

theorem byteAt_overwrite_of_not_mem {f : List Byte} {off : ℕ} {bs : List Byte}
    (h : off + bs.length ≤ f.length) {i : ℕ} (hi : i < off ∨ off + bs.length ≤ i) :
    byteAt (overwrite f off bs) i = byteAt f i := by
  rw [byteAt_overwrite h, if_neg (by omega)]

/-! ### Writing one byte -/

theorem byteAt_set_of_ne {l : List Byte} {i j : ℕ} (v : Byte) (h : i ≠ j) :
    byteAt (l.set i v) j = byteAt l j := by
  rw [byteAt, byteAt, List.getD_eq_getElem?_getD, List.getD_eq_getElem?_getD,
    List.getElem?_set_ne h]

theorem byteAt_set_self {l : List Byte} {i : ℕ} (v : Byte) (h : i < l.length) :
    byteAt (l.set i v) i = v := by
  rw [byteAt_eq_getElem (by rw [List.length_set]; exact h), List.getElem_set_self]

/-! ### Removing a range -/

/-- The string with `n` bytes taken out at `off`. -/
def removeRange (f : List Byte) (off n : ℕ) : List Byte := f.take off ++ f.drop (off + n)

theorem length_removeRange {f : List Byte} {off n : ℕ} (h : off + n ≤ f.length) :
    (removeRange f off n).length = f.length - n := by
  simp only [removeRange, List.length_append, List.length_take, List.length_drop]
  omega

theorem byteAt_removeRange {f : List Byte} {off n : ℕ} (h : off + n ≤ f.length) (i : ℕ) :
    byteAt (removeRange f off n) i = if i < off then byteAt f i else byteAt f (i + n) := by
  have htake : (f.take off).length = off := by rw [List.length_take]; omega
  simp only [byteAt, removeRange, List.getD_eq_getElem?_getD]
  by_cases hlo : i < off
  · rw [if_pos hlo, List.getElem?_append_left (by rw [htake]; exact hlo),
      List.getElem?_take_of_lt hlo]
  · rw [if_neg hlo, List.getElem?_append_right (by rw [htake]; omega), List.getElem?_drop, htake]
    congr 2
    omega

/-! ### Numbers -/

/-- The `n` bytes of a number, the lowest first. -/
def leBytes : ℕ → ℕ → List Byte
  | 0, _ => []
  | n + 1, v => BitVec.ofNat 8 v :: leBytes n (v / 256)

/-- The number of a string of bytes, the lowest first. -/
def leNat (bs : List Byte) : ℕ := bs.foldr (fun b acc => b.toNat + 256 * acc) 0

/-- The `n` bytes of a number, the highest first. -/
def beBytes (n v : ℕ) : List Byte := (leBytes n v).reverse

/-- The number of a string of bytes, the highest first. -/
def beNat (bs : List Byte) : ℕ := leNat bs.reverse

theorem length_leBytes : ∀ n v : ℕ, (leBytes n v).length = n := by
  intro n
  induction n with
  | zero => intro v; rfl
  | succ n ih => intro v; rw [leBytes, List.length_cons, ih]

theorem length_beBytes (n v : ℕ) : (beBytes n v).length = n := by
  rw [beBytes, List.length_reverse, length_leBytes]

theorem leNat_leBytes : ∀ n v : ℕ, v < 256 ^ n → leNat (leBytes n v) = v := by
  intro n
  induction n with
  | zero =>
    intro v hv
    rw [Nat.pow_zero] at hv
    rw [leBytes, leNat, List.foldr_nil]
    omega
  | succ n ih =>
    intro v hv
    have hdiv : v / 256 < 256 ^ n := by
      rw [Nat.div_lt_iff_lt_mul (by omega), ← Nat.pow_succ]
      exact hv
    have hrec := ih (v / 256) hdiv
    rw [leNat] at hrec
    rw [leBytes, leNat, List.foldr_cons, hrec, BitVec.toNat_ofNat]
    omega

theorem beNat_beBytes {n v : ℕ} (hv : v < 256 ^ n) : beNat (beBytes n v) = v := by
  rw [beNat, beBytes, List.reverse_reverse, leNat_leBytes n v hv]

theorem leNat_lt : ∀ bs : List Byte, leNat bs < 256 ^ bs.length := by
  intro bs
  induction bs with
  | nil => exact Nat.one_pos
  | cons b bs ih =>
    have hb := b.isLt
    rw [leNat] at ih
    rw [leNat, List.foldr_cons, List.length_cons, Nat.pow_succ]
    omega

theorem beNat_lt (bs : List Byte) : beNat bs < 256 ^ bs.length := by
  have h := leNat_lt bs.reverse
  rw [List.length_reverse] at h
  exact h

end Bytes
