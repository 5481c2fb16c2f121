import Mathlib.Data.Nat.ModEq
import TsPacket.Lib.Bytes

/-!
# One's-complement checksums

The 16-bit one's-complement arithmetic of RFC 1071 and the incremental update of
RFC 1624.  A sum of words is folded to 16 bits by adding its carries back in
(`fold`); the fold is the residue modulo `65535`, except that a nonzero sum folds
to a nonzero word.  Whether a checksum verifies is therefore a question about
residues, while its exact bits also need the sum not to be zero: this file keeps
the two facts apart.

A word may be read in either byte order.  Swapping the bytes of a word multiplies
it by `256` modulo `65535`, which is invertible there, so an update computed in one
order is right in the other.

## Main results

* `fold_eq_iff` — two sums fold alike when they agree modulo `65535` and vanish
  together.
* `update_add_mod` — the incremental update moves the checksum by the difference of
  the words.
* `update_eq_allOnes_iff` — when it produces the all-ones word.
* `wordSum_set` — replacing a byte moves the sum by the byte's weight.
-/

namespace OnesComplement

open Bytes

/-! ### Folding carries -/

/-- At most `n` rounds of adding the carries back in. -/
def foldCarry : ℕ → ℕ → ℕ
  | 0, s => s
  | n + 1, s => if s / 65536 = 0 then s else foldCarry n (s % 65536 + s / 65536)

/-- A sum folded to 16 bits.  Every round makes the sum smaller, so `s` rounds do. -/
def fold (s : ℕ) : ℕ := foldCarry s s

theorem foldCarry_lt : ∀ n s : ℕ, s < n + 65536 → foldCarry n s < 65536 := by
  intro n
  induction n with
  | zero => intro s h; simpa [foldCarry] using h
  | succ n ih =>
    intro s h
    rw [foldCarry]
    split
    · omega
    · exact ih _ (by omega)

theorem foldCarry_mod : ∀ n s : ℕ, foldCarry n s % 65535 = s % 65535 := by
  intro n
  induction n with
  | zero => intro s; rfl
  | succ n ih =>
    intro s
    rw [foldCarry]
    split
    · rfl
    · rw [ih]; omega

theorem foldCarry_eq_zero_iff : ∀ n s : ℕ, foldCarry n s = 0 ↔ s = 0 := by
  intro n
  induction n with
  | zero => intro s; rfl
  | succ n ih =>
    intro s
    rw [foldCarry]
    split
    · rfl
    · rw [ih]; omega

theorem fold_lt (s : ℕ) : fold s < 65536 := foldCarry_lt s s (by omega)

theorem fold_mod (s : ℕ) : fold s % 65535 = s % 65535 := foldCarry_mod s s

theorem fold_eq_zero_iff (s : ℕ) : fold s = 0 ↔ s = 0 := foldCarry_eq_zero_iff s s

/-- **A fold is determined by its residue and by whether it vanishes.** -/
theorem fold_eq_iff {s x : ℕ} (hx : x < 65536) (hmod : x % 65535 = s % 65535)
    (hzero : x = 0 ↔ s = 0) : fold s = x := by
  have h1 := fold_lt s
  have h2 := fold_mod s
  have h3 := fold_eq_zero_iff s
  omega

/-- A nonzero sum folds to all ones exactly when `65535` divides it. -/
theorem fold_eq_allOnes_iff {s : ℕ} (hs : s ≠ 0) : fold s = 65535 ↔ s % 65535 = 0 := by
  have h1 := fold_lt s
  have h2 := fold_mod s
  have h3 := fold_eq_zero_iff s
  omega

/-! ### Addition and the incremental update -/

/-- One's-complement addition: a wrapped sum is smaller than its second addend. -/
def add (a b : BitVec 16) : BitVec 16 :=
  let res := a + b
  if res < b then res + 1 else res

theorem toNat_add (a b : BitVec 16) : (add a b).toNat = fold (a.toNat + b.toNat) := by
  have ha := a.isLt
  have hb := b.isLt
  have hsum : (a + b).toNat = (a.toNat + b.toNat) % 65536 := BitVec.toNat_add a b
  have hone : (a + b + 1).toNat = ((a.toNat + b.toNat) % 65536 + 1) % 65536 := by
    rw [BitVec.toNat_add, hsum]; rfl
  symm
  unfold add
  simp only [BitVec.lt_def, hsum]
  split
  · exact fold_eq_iff (by omega) (by omega) (by omega)
  · exact fold_eq_iff (by omega) (by omega) (by omega)

/-- RFC 1624, equation 3: the checksum after the word `m` became `m'`. -/
def update (hc m m' : BitVec 16) : BitVec 16 := ~~~(add (add (~~~hc) (~~~m)) m')

theorem toNat_not (a : BitVec 16) : (~~~a).toNat = 65535 - a.toNat := by
  rw [BitVec.toNat_not]

theorem toNat_update (hc m m' : BitVec 16) :
    (update hc m m').toNat
      = 65535 - fold (fold (65535 - hc.toNat + (65535 - m.toNat)) + m'.toNat) := by
  rw [update, toNat_not, toNat_add, toNat_add, toNat_not, toNat_not]

/-- **The update moves the checksum by the difference of the two words.** -/
theorem update_add_mod (hc m m' : BitVec 16) :
    ((update hc m m').toNat + m'.toNat) % 65535 = (hc.toNat + m.toNat) % 65535 := by
  have h1 := fold_mod (65535 - hc.toNat + (65535 - m.toNat))
  have h2 := fold_mod (fold (65535 - hc.toNat + (65535 - m.toNat)) + m'.toNat)
  have h3 := fold_lt (fold (65535 - hc.toNat + (65535 - m.toNat)) + m'.toNat)
  have hhc := hc.isLt
  have hm := m.isLt
  rw [toNat_update]
  omega

/-- **The update is all ones only if every addend is zero.** -/
theorem update_eq_allOnes_iff (hc m m' : BitVec 16) :
    (update hc m m').toNat = 65535 ↔ hc.toNat = 65535 ∧ m.toNat = 65535 ∧ m'.toNat = 0 := by
  have h1 := fold_eq_zero_iff (65535 - hc.toNat + (65535 - m.toNat))
  have h2 := fold_eq_zero_iff (fold (65535 - hc.toNat + (65535 - m.toNat)) + m'.toNat)
  have h3 := fold_lt (fold (65535 - hc.toNat + (65535 - m.toNat)) + m'.toNat)
  have hhc := hc.isLt
  have hm := m.isLt
  rw [toNat_update]
  omega

/-! ### Byte order -/

/-- The order in which a machine reads the two bytes of a word. -/
inductive ByteOrder
  | little
  | big
  deriving DecidableEq, Repr

/-- The word a machine reads from the bytes `a`, `b` at increasing addresses. -/
def wordOf : ByteOrder → Byte → Byte → BitVec 16
  | .little, a, b => b ++ a
  | .big, a, b => a ++ b

/-- The bytes a machine stores for a word, at increasing addresses. -/
def bytesOf : ByteOrder → BitVec 16 → List Byte
  | .little, w => [w.setWidth 8, (w >>> 8).setWidth 8]
  | .big, w => [(w >>> 8).setWidth 8, w.setWidth 8]

@[simp] theorem length_bytesOf (o : ByteOrder) (w : BitVec 16) : (bytesOf o w).length = 2 := by
  cases o <;> rfl

theorem toNat_append (a b : Byte) : (a ++ b).toNat = 256 * a.toNat + b.toNat := by
  have hb := b.isLt
  rw [BitVec.toNat_append, ← Nat.shiftLeft_add_eq_or_of_lt hb, Nat.shiftLeft_eq]
  omega

theorem setWidth_append_setWidth (w : BitVec 16) :
    ((w >>> 8).setWidth 8 ++ w.setWidth 8 : BitVec 16) = w := by
  have hw := w.isLt
  apply BitVec.eq_of_toNat_eq
  rw [toNat_append]
  simp only [BitVec.toNat_setWidth, BitVec.toNat_ushiftRight, Nat.shiftRight_eq_div_pow]
  omega

/-- What is stored is read back. -/
theorem wordOf_bytesOf (o : ByteOrder) (w : BitVec 16) :
    wordOf o (byteAt (bytesOf o w) 0) (byteAt (bytesOf o w) 1) = w := by
  cases o <;> exact setWidth_append_setWidth w

/-- A word read in either order is the big-endian one times `256` or `1`, modulo `65535`. -/
def weight : ByteOrder → ℕ
  | .little => 256
  | .big => 1

theorem toNat_wordOf_mod (o : ByteOrder) (a b : Byte) :
    (wordOf o a b).toNat % 65535 = weight o * (a ++ b).toNat % 65535 := by
  cases o with
  | little => rw [wordOf, weight, toNat_append, toNat_append]; omega
  | big => rw [wordOf, weight, one_mul]

theorem toNat_wordOf_eq_allOnes_iff (o : ByteOrder) (a b : Byte) :
    (wordOf o a b).toNat = 65535 ↔ (a ++ b).toNat = 65535 := by
  have ha := a.isLt
  have hb := b.isLt
  cases o with
  | little => rw [wordOf, toNat_append, toNat_append]; omega
  | big => rw [wordOf]

theorem coprime_weight (o : ByteOrder) : Nat.Coprime 65535 (weight o) := by
  cases o <;> decide

/-- **An update computed in one byte order is right in the other.** -/
theorem append_add_mod_of_update {o : ByteOrder} {a b x y x' y' a' b' : Byte}
    (h : wordOf o a' b' = update (wordOf o a b) (wordOf o x y) (wordOf o x' y')) :
    ((a' ++ b').toNat + (x' ++ y').toNat) % 65535 = ((a ++ b).toNat + (x ++ y).toNat) % 65535 := by
  have hu := update_add_mod (wordOf o a b) (wordOf o x y) (wordOf o x' y')
  rw [← h] at hu
  -- multiply both sides by the weight of the order, then cancel it
  have hword : ∀ p q : Byte, (wordOf o p q).toNat ≡ weight o * (p ++ q).toNat [MOD 65535] :=
    toNat_wordOf_mod o
  have hmul : weight o * ((a' ++ b').toNat + (x' ++ y').toNat)
      ≡ weight o * ((a ++ b).toNat + (x ++ y).toNat) [MOD 65535] := by
    rw [Nat.mul_add, Nat.mul_add]
    calc weight o * (a' ++ b').toNat + weight o * (x' ++ y').toNat
        ≡ (wordOf o a' b').toNat + (wordOf o x' y').toNat [MOD 65535] :=
          ((hword a' b').add (hword x' y')).symm
      _ ≡ (wordOf o a b).toNat + (wordOf o x y).toNat [MOD 65535] := hu
      _ ≡ weight o * (a ++ b).toNat + weight o * (x ++ y).toNat [MOD 65535] :=
          (hword a b).add (hword x y)
  exact Nat.ModEq.cancel_left_of_coprime (coprime_weight o) hmul

/-! ### Sums of big-endian words -/

/-- The sum of the big-endian words of a byte string, an odd last byte padded with zero. -/
def wordSum : List Byte → ℕ
  | [] => 0
  | [a] => 256 * a.toNat
  | a :: b :: l => 256 * a.toNat + b.toNat + wordSum l

/-- The weight of the byte at `i` in the sum of words. -/
def posWeight (i : ℕ) : ℕ := if i % 2 = 0 then 256 else 1

@[simp] theorem posWeight_zero : posWeight 0 = 256 := rfl

@[simp] theorem posWeight_one : posWeight 1 = 1 := rfl

theorem posWeight_add_two (i : ℕ) : posWeight (i + 2) = posWeight i := by
  unfold posWeight
  congr 2
  omega

theorem byteAt_cons_cons (a b : Byte) (l : List Byte) (i : ℕ) :
    byteAt (a :: b :: l) (i + 2) = byteAt l i := rfl

/-- **Replacing a byte moves the sum by the byte's weight.** -/
theorem wordSum_set (v : Byte) : ∀ (l : List Byte) (i : ℕ), i < l.length →
    wordSum (l.set i v) + posWeight i * (byteAt l i).toNat
      = wordSum l + posWeight i * v.toNat := by
  intro l
  induction l using wordSum.induct with
  | case1 => intro i h; simp at h
  | case2 a =>
    intro i h
    obtain rfl : i = 0 := by simpa using h
    simp only [List.set_cons_zero, wordSum, posWeight_zero, byteAt, List.getD_cons_zero]
    omega
  | case3 a b l ih =>
    intro i h
    -- a byte of the first word, or of the words after it
    rcases i with _ | _ | i
    · simp only [List.set_cons_zero, wordSum, posWeight_zero, byteAt, List.getD_cons_zero]
      omega
    · simp only [List.set_cons_zero, List.set_cons_succ, wordSum, Nat.zero_add, posWeight_one,
        byteAt, List.getD_cons_zero, List.getD_cons_succ]
      omega
    · have hi : i < l.length := by simpa using h
      rw [List.set_cons_succ, List.set_cons_succ, wordSum, wordSum, posWeight_add_two,
        byteAt_cons_cons]
      have htail := ih i hi
      omega

theorem le_wordSum (l : List Byte) : 256 * (byteAt l 0).toNat ≤ wordSum l := by
  match l with
  | [] => exact Nat.zero_le _
  | [a] => exact Nat.le_refl _
  | a :: b :: l =>
    rw [wordSum]
    have : byteAt (a :: b :: l) 0 = a := rfl
    rw [this]
    omega

/-- A string whose first byte is not zero has a nonzero sum. -/
theorem wordSum_ne_zero {l : List Byte} (h : byteAt l 0 ≠ 0) : wordSum l ≠ 0 := by
  have hle := le_wordSum l
  have hpos : (byteAt l 0).toNat ≠ 0 := fun h0 => h (BitVec.eq_of_toNat_eq h0)
  omega

/-- The big-endian word at `p`, as a number. -/
def wordAt (l : List Byte) (p : ℕ) : ℕ := (be16At l p).toNat

theorem wordAt_eq (l : List Byte) (p : ℕ) :
    wordAt l p = 256 * (byteAt l p).toNat + (byteAt l (p + 1)).toNat := toNat_append _ _

theorem wordAt_lt (l : List Byte) (p : ℕ) : wordAt l p < 65536 := (be16At l p).isLt

/-- **Replacing an aligned word moves the sum by the difference.** -/
theorem wordSum_setWord {l : List Byte} {p : ℕ} (hp : p % 2 = 0) (hlen : p + 1 < l.length)
    (v w : Byte) :
    wordSum ((l.set p v).set (p + 1) w) + wordAt l p = wordSum l + (v ++ w).toNat := by
  have h1 := wordSum_set v l p (by omega)
  have h2 := wordSum_set w (l.set p v) (p + 1) (by rw [List.length_set]; exact hlen)
  have hw0 : posWeight p = 256 := if_pos hp
  have hw1 : posWeight (p + 1) = 1 := if_neg (by omega)
  rw [hw0] at h1
  rw [hw1, byteAt_set_of_ne v (by omega)] at h2
  rw [wordAt_eq, toNat_append]
  omega

/-- Two strings that differ in an aligned word only. -/
theorem wordSum_of_agree {l l' : List Byte} {p : ℕ} (hp : p % 2 = 0) (hlen : p + 1 < l.length)
    (hlen' : l'.length = l.length)
    (hrest : ∀ i, i ≠ p → i ≠ p + 1 → byteAt l' i = byteAt l i) :
    wordSum l' + wordAt l p = wordSum l + wordAt l' p := by
  have hset : (l.set p (byteAt l' p)).set (p + 1) (byteAt l' (p + 1)) = l' := by
    refine ext_byteAt (by simp [hlen']) fun i _ => ?_
    rcases eq_or_ne i (p + 1) with rfl | h1
    · rw [byteAt_set_self _ (by rw [List.length_set]; exact hlen)]
    · rw [byteAt_set_of_ne _ (Ne.symm h1)]
      rcases eq_or_ne i p with rfl | h0
      · rw [byteAt_set_self _ (by omega)]
      · rw [byteAt_set_of_ne _ (Ne.symm h0), hrest i h0 h1]
  rw [← hset, wordSum_setWord hp hlen, hset]
  rfl

/-! ### The checksum of a string -/

/-- The checksum computed from scratch. -/
def checksum (l : List Byte) : BitVec 16 := ~~~(BitVec.ofNat 16 (fold (wordSum l)))

theorem toNat_checksum (l : List Byte) : (checksum l).toNat = 65535 - fold (wordSum l) := by
  have h := fold_lt (wordSum l)
  rw [checksum, toNat_not, BitVec.toNat_ofNat, Nat.mod_eq_of_lt h]

/-- **A checksum verifies when the sum vanishes modulo `65535`.** -/
theorem checksum_eq_zero_iff {l : List Byte} (h : wordSum l ≠ 0) :
    checksum l = 0 ↔ wordSum l % 65535 = 0 := by
  have hones := fold_eq_allOnes_iff h
  have hlt := fold_lt (wordSum l)
  have hnat := toNat_checksum l
  constructor
  · intro h0
    rw [h0, show (0 : BitVec 16).toNat = 0 from rfl] at hnat
    exact hones.mp (by omega)
  · intro h0
    apply BitVec.eq_of_toNat_eq
    rw [hnat, hones.mpr h0]
    rfl

/-- The string with the word at `q` zeroed, over which a checksum stored there is computed. -/
def zeroWord (l : List Byte) (q : ℕ) : List Byte := (l.set q 0).set (q + 1) 0

theorem wordSum_zeroWord {l : List Byte} {q : ℕ} (hq : q % 2 = 0) (hlen : q + 1 < l.length) :
    wordSum (zeroWord l q) + wordAt l q = wordSum l := wordSum_setWord hq hlen 0 0

theorem byteAt_zeroWord_of_lt {l : List Byte} {q i : ℕ} (h : i < q) :
    byteAt (zeroWord l q) i = byteAt l i := by
  rw [zeroWord, byteAt_set_of_ne _ (by omega), byteAt_set_of_ne _ (by omega)]

/-- **A string verifies when the checksum over the rest is stored in it.** -/
theorem checksum_eq_zero_of_stored {l : List Byte} {q : ℕ} (hq : q % 2 = 0)
    (hlen : q + 1 < l.length) (h0 : wordSum l ≠ 0)
    (hstored : be16At l q = checksum (zeroWord l q)) : checksum l = 0 := by
  have hsum := wordSum_zeroWord hq hlen
  have hmod := fold_mod (wordSum (zeroWord l q))
  have hlt := fold_lt (wordSum (zeroWord l q))
  have hword : wordAt l q = 65535 - fold (wordSum (zeroWord l q)) := by
    rw [wordAt, hstored, toNat_checksum]
  rw [checksum_eq_zero_iff h0]
  omega

section Update

variable {o : ByteOrder} {h h' : List Byte} {p q : ℕ}

/-- Two strings that differ in two aligned words only. -/
theorem wordSum_of_agree_two (hp : p % 2 = 0) (hq : q % 2 = 0) (hpq : p + 1 < q)
    (hlen : q + 1 < h.length) (hlen' : h'.length = h.length)
    (hrest : ∀ i, i ≠ p → i ≠ p + 1 → i ≠ q → i ≠ q + 1 → byteAt h' i = byteAt h i) :
    wordSum h' + wordAt h p + wordAt h q = wordSum h + wordAt h' p + wordAt h' q := by
  -- change the word at `p` first, the one at `q` second
  set m := (h.set p (byteAt h' p)).set (p + 1) (byteAt h' (p + 1)) with hm
  have hm1 : wordSum m + wordAt h p = wordSum h + wordAt h' p :=
    wordSum_setWord hp (by omega) _ _
  have hmlen : m.length = h.length := by rw [hm, List.length_set, List.length_set]
  have hmq : wordAt m q = wordAt h q := by
    rw [wordAt_eq, wordAt_eq, hm]
    iterate 4 rw [byteAt_set_of_ne _ (by omega)]
  have hm2 : wordSum h' + wordAt m q = wordSum m + wordAt h' q := by
    refine wordSum_of_agree hq (by omega) (by omega) fun i hiq hiq1 => ?_
    rw [hm]
    rcases eq_or_ne i (p + 1) with rfl | h1
    · rw [byteAt_set_self _ (by rw [List.length_set]; omega)]
    · rw [byteAt_set_of_ne _ (Ne.symm h1)]
      rcases eq_or_ne i p with rfl | h0
      · rw [byteAt_set_self _ (by omega)]
      · rw [byteAt_set_of_ne _ (Ne.symm h0), hrest i h0 h1 hiq hiq1]
  rw [hmq] at hm2
  omega

variable (hp : p % 2 = 0) (hq : q % 2 = 0) (hpq : p + 1 < q) (hlen : q + 1 < h.length)
  (hlen' : h'.length = h.length)
  (hrest : ∀ i, i ≠ p → i ≠ p + 1 → i ≠ q → i ≠ q + 1 → byteAt h' i = byteAt h i)
  (hup : wordOf o (byteAt h' q) (byteAt h' (q + 1))
    = update (wordOf o (byteAt h q) (byteAt h (q + 1)))
        (wordOf o (byteAt h p) (byteAt h (p + 1)))
        (wordOf o (byteAt h' p) (byteAt h' (p + 1))))
include hp hq hpq hlen hlen' hrest hup

/-- **After an incremental update the string verifies exactly if it did before.**  The
word at `p` is replaced and the checksum field at `q` updated for it. -/
theorem checksum_eq_zero_iff_of_update (h0 : wordSum h ≠ 0) (h0' : wordSum h' ≠ 0) :
    checksum h' = 0 ↔ checksum h = 0 := by
  have hsum := wordSum_of_agree_two hp hq hpq hlen hlen' hrest
  have hmod : (wordAt h' q + wordAt h' p) % 65535 = (wordAt h q + wordAt h p) % 65535 :=
    append_add_mod_of_update hup
  rw [checksum_eq_zero_iff h0, checksum_eq_zero_iff h0']
  omega

/-- **An incremental update of a checksum computed from scratch is the checksum computed
from scratch**, bit for bit: neither is ever all ones. -/
theorem eq_checksum_of_update (h0 : wordSum (zeroWord h q) ≠ 0)
    (h0' : wordSum (zeroWord h' q) ≠ 0) (hstored : be16At h q = checksum (zeroWord h q)) :
    be16At h' q = checksum (zeroWord h' q) := by
  have hsum := wordSum_of_agree_two hp hq hpq hlen hlen' hrest
  have hz : wordSum (zeroWord h q) + wordAt h q = wordSum h := wordSum_zeroWord hq hlen
  have hz' : wordSum (zeroWord h' q) + wordAt h' q = wordSum h' :=
    wordSum_zeroWord hq (by omega)
  have hmod : (wordAt h' q + wordAt h' p) % 65535 = (wordAt h q + wordAt h p) % 65535 :=
    append_add_mod_of_update hup
  have hscratch : wordAt h q = 65535 - fold (wordSum (zeroWord h q)) := by
    rw [wordAt, hstored, toNat_checksum]
  have hfold := fold_eq_zero_iff (wordSum (zeroWord h q))
  have hltz := fold_lt (wordSum (zeroWord h q))
  have hne : wordAt h q ≠ 65535 := by omega
  -- the updated field is not all ones, since the old one was not
  have hne' : wordAt h' q ≠ 65535 := by
    intro hall
    have hones := (toNat_wordOf_eq_allOnes_iff o _ _).mpr hall
    rw [hup, update_eq_allOnes_iff] at hones
    exact hne ((toNat_wordOf_eq_allOnes_iff o _ _).mp hones.1)
  have hfold' := fold_eq_zero_iff (wordSum (zeroWord h' q))
  have hmodz := fold_mod (wordSum (zeroWord h q))
  have hmodz' := fold_mod (wordSum (zeroWord h' q))
  have hlt' := fold_lt (wordSum (zeroWord h' q))
  have hlt := wordAt_lt h' q
  apply BitVec.eq_of_toNat_eq
  rw [toNat_checksum]
  change wordAt h' q = _
  omega

end Update

end OnesComplement
