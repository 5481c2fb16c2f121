import TsPacket.Bpf.Harness
import TsPacket.Bpf.Helpers
import TsPacket.Bpf.Grammar

/-!
# Rewriting the DSCP

`mark_dscp` of `bpf/src/ts_classifier.c`: the TOS byte is the low byte of the first
word of the IPv4 header, so the header checksum is updated for that word alone.  The
update happens before the byte is stored, each by a helper that may fail.

## Main definitions

* `markTos` — the TOS byte with a new DSCP and the old ECN bits.
* `markDscp` — the return value and the frame left behind.
* `ipHeader` — the bytes of the IPv4 header at an offset.

## Main results

* `markDscp_cases` — what a call can do to the frame, whatever the helpers do.
* `markDscp_of_total` — what it does when helpers do not fail in range.
* `markDscp_preserves_checksum` — **the header verifies afterwards exactly if it did
  before, and a checksum computed from scratch stays the one computed from scratch.**
-/

namespace TsPacket

open Bytes OnesComplement

/-- The TOS byte for a DSCP: the two ECN bits are kept. -/
def markTos (dscp oldTos : U8) : U8 := (dscp <<< 2) ||| (oldTos &&& 0x3)

/-- `1` if the DSCP was changed, `0` if it was right already, `-1` on failure. -/
def markDscp (K : Kernel) (f : Frame) (ipOff : ℕ) (dscp : U8) : ℤ × Frame :=
  match K.skbLoadBytes f ipOff 2 with
  | none => (-1, f)
  | some hdr =>
    let oldTos := byteAt hdr 1
    let newTos := markTos dscp oldTos
    -- nothing is written, and nothing counted
    if newTos = oldTos then (0, f)
    else
      let oldW := wordOf K.byteOrder (byteAt hdr 0) (byteAt hdr 1)
      let hdr := hdr.set 1 newTos
      let newW := wordOf K.byteOrder (byteAt hdr 0) (byteAt hdr 1)
      match K.l3CsumReplace f (ipOff + offsetofCheck) oldW newW with
      | none => (-1, f)
      | some f =>
        -- the checksum is the new one already when this store fails
        match K.skbStoreBytes f (ipOff + 1) [newTos] with
        | none => (-1, f)
        | some f => (1, f)

/-! ### The TOS byte -/

theorem shiftLeft_two_and_three : ∀ d : U8, d <<< 2 &&& 0x3 = 0#8 := by decide

theorem and_three_shiftRight_two : ∀ t : U8, (t &&& 0x3) >>> 2 = 0#8 := by decide

theorem shiftLeft_two_shiftRight_two : ∀ d : U8, d <<< 2 >>> 2 = d &&& 0x3f := by decide

theorem mask_shiftLeft_two : ∀ d : U8, (d &&& 0x3f) <<< 2 = d <<< 2 := by decide

theorem tos_split : ∀ t : U8, (t >>> 2 <<< 2) ||| (t &&& 0x3) = t := by decide

/-- The ECN bits are kept. -/
theorem markTos_ecn (dscp oldTos : U8) : markTos dscp oldTos &&& 0x3 = oldTos &&& 0x3 := by
  rw [markTos, BitVec.and_or_distrib_right, shiftLeft_two_and_three, BitVec.zero_or,
    BitVec.and_assoc, BitVec.and_self]

/-- The DSCP is the low six bits of the one asked for. -/
theorem markTos_dscp (dscp oldTos : U8) : markTos dscp oldTos >>> 2 = dscp &&& 0x3f := by
  rw [markTos, BitVec.ushiftRight_or_distrib, and_three_shiftRight_two,
    shiftLeft_two_shiftRight_two, BitVec.or_zero]

/-- Nothing changes exactly when the DSCP is right already. -/
theorem markTos_eq_iff (dscp oldTos : U8) :
    markTos dscp oldTos = oldTos ↔ oldTos >>> 2 = dscp &&& 0x3f := by
  constructor
  · intro h
    rw [← markTos_dscp dscp oldTos, h]
  · intro h
    rw [markTos, ← mask_shiftLeft_two, ← h]
    exact tos_split oldTos

/-! ### What a call does -/

/-- The first word of the header, with `tos` in its low byte, as the machine reads it. -/
def tosWord (K : Kernel) (f : Frame) (ipOff : ℕ) (tos : U8) : U16 :=
  wordOf K.byteOrder (byteAt f ipOff) tos

/-- What the call does once the two bytes are loaded. -/
theorem markDscp_eq {K : Kernel} (hK : K.Exact) {f : Frame} {o : ℕ} (dscp : U8)
    (hload : (K.skbLoadBytes f o 2).isSome) :
    markDscp K f o dscp =
      if markTos dscp (byteAt f (o + 1)) = byteAt f (o + 1) then (0, f)
      else match K.l3CsumReplace f (o + 10) (tosWord K f o (byteAt f (o + 1)))
          (tosWord K f o (markTos dscp (byteAt f (o + 1)))) with
        | none => (-1, f)
        | some f' =>
          match K.skbStoreBytes f' (o + 1) [markTos dscp (byteAt f (o + 1))] with
          | none => (-1, f')
          | some f' => (1, f') := by
  obtain ⟨hdr, hhdr⟩ := Option.isSome_iff_exists.mp hload
  obtain ⟨hfit, rfl⟩ := hK.load hhdr
  have h0 : byteAt (slice f o 2) 0 = byteAt f o := byteAt_slice hfit (by omega)
  have h1 : byteAt (slice f o 2) 1 = byteAt f (o + 1) := byteAt_slice hfit (by omega)
  have hlen : 1 < (slice f o 2).length := by rw [length_slice hfit]; omega
  unfold markDscp tosWord
  simp only [hhdr, h0, h1, byteAt_set_of_ne _ (show 1 ≠ 0 by omega), byteAt_set_self _ hlen,
    offsetofCheck]

/-- How a call ends once the checksum field has been rewritten to `bs`. -/
inductive MarkEnd (K : Kernel) (f : Frame) (o : ℕ) (tos : U8) (bs : List Byte) (r : ℤ × Frame) :
    Prop
  /-- The store fails, and the checksum field is left changed. -/
  | storeFailed (hstore : K.skbStoreBytes (overwrite f (o + 10) bs) (o + 1) [tos] = none)
      (hr : r = (-1, overwrite f (o + 10) bs))
  /-- Both fields are written. -/
  | marked (hr : r = (1, overwrite (overwrite f (o + 10) bs) (o + 1) [tos]))

/-- **What a call can do to the frame**: nothing; or the TOS byte is to change, the
checksum helper has rewritten its field, and the store fails or succeeds. -/
theorem markDscp_cases {K : Kernel} (hK : K.Exact) (f : Frame) (o : ℕ) (dscp : U8) :
    ((markDscp K f o dscp).1 ≤ 0 ∧ (markDscp K f o dscp).2 = f) ∨
    (markTos dscp (byteAt f (o + 1)) ≠ byteAt f (o + 1) ∧
      ∃ bs : List Byte, bs.length = 2 ∧ o + 12 ≤ f.length ∧
        K.l3CsumReplace f (o + 10) (tosWord K f o (byteAt f (o + 1)))
          (tosWord K f o (markTos dscp (byteAt f (o + 1)))) = some (overwrite f (o + 10) bs) ∧
        MarkEnd K f o (markTos dscp (byteAt f (o + 1))) bs (markDscp K f o dscp)) := by
  by_cases hload : (K.skbLoadBytes f o 2).isSome
  · rw [markDscp_eq hK dscp hload]
    -- the DSCP is there already: nothing is written
    by_cases htos : markTos dscp (byteAt f (o + 1)) = byteAt f (o + 1)
    · rw [if_pos htos]
      exact Or.inl ⟨le_rfl, rfl⟩
    · rw [if_neg htos]
      -- the checksum is replaced first, the byte stored only behind it
      cases hcsum : K.l3CsumReplace f (o + 10) (tosWord K f o (byteAt f (o + 1)))
          (tosWord K f o (markTos dscp (byteAt f (o + 1)))) with
      | none =>
        refine Or.inl ⟨?_, rfl⟩
        dsimp only
        omega
      | some f' =>
        obtain ⟨hfit, bs, hbs, rfl⟩ := hK.csum hcsum
        refine Or.inr ⟨htos, bs, hbs, hfit, rfl, ?_⟩
        dsimp only
        cases hstore : K.skbStoreBytes (overwrite f (o + 10) bs) (o + 1)
            [markTos dscp (byteAt f (o + 1))] with
        | none => exact .storeFailed hstore rfl
        | some f'' =>
          obtain ⟨-, rfl⟩ := hK.store hstore
          exact .marked rfl
  · -- the first two bytes cannot be loaded
    have hnone : K.skbLoadBytes f o 2 = none := by simpa using hload
    have hfail : markDscp K f o dscp = (-1, f) := by
      unfold markDscp
      rw [hnone]
    rw [hfail]
    refine Or.inl ⟨?_, rfl⟩
    dsimp only
    omega

/-- What a call does when helpers do not fail in range. -/
theorem markDscp_of_total {K : Kernel} (hK : K.Exact) (hT : K.Total) {f : Frame} {o : ℕ}
    (dscp : U8) (hfit : o + 12 ≤ f.length) (heven : o % 2 = 0) (hmax : o + 10 ≤ 0xffff) :
    (markTos dscp (byteAt f (o + 1)) = byteAt f (o + 1) ∧ markDscp K f o dscp = (0, f)) ∨
    (markTos dscp (byteAt f (o + 1)) ≠ byteAt f (o + 1) ∧
      ∃ bs : List Byte, bs.length = 2 ∧ markDscp K f o dscp =
        (1, overwrite (overwrite f (o + 10) bs) (o + 1)
          [markTos dscp (byteAt f (o + 1))])) := by
  rw [markDscp_eq hK dscp (hT.load (show o + 2 ≤ f.length by omega))]
  -- all three helpers succeed, so only the first test decides
  by_cases htos : markTos dscp (byteAt f (o + 1)) = byteAt f (o + 1)
  · exact Or.inl ⟨htos, if_pos htos⟩
  · refine Or.inr ⟨htos, ?_⟩
    rw [if_neg htos]
    obtain ⟨f', hf'⟩ := Option.isSome_iff_exists.mp (hT.csum (tosWord K f o (byteAt f (o + 1)))
      (tosWord K f o (markTos dscp (byteAt f (o + 1)))) (show o + 10 + 2 ≤ f.length by omega)
      (by omega) hmax)
    obtain ⟨hfit', bs, hbs, rfl⟩ := hK.csum hf'
    have hlen : (overwrite f (o + 10) bs).length = f.length :=
      length_overwrite (by rw [hbs]; exact hfit')
    obtain ⟨f'', hf''⟩ := Option.isSome_iff_exists.mp (hT.store
      (show o + 1 + [markTos dscp (byteAt f (o + 1))].length
        ≤ (overwrite f (o + 10) bs).length by rw [hlen, List.length_singleton]; omega))
    obtain ⟨-, rfl⟩ := hK.store hf''
    exact ⟨bs, hbs, by rw [hf']; dsimp only; rw [hf'']⟩

/-- The two writes byte by byte. -/
theorem byteAt_overwrite_tos {f : Frame} {o : ℕ} {bs : List Byte} {tos : U8}
    (hbs : bs.length = 2) (hfit : o + 12 ≤ f.length) (i : ℕ) :
    byteAt (overwrite (overwrite f (o + 10) bs) (o + 1) [tos]) i =
      if i = o + 1 then tos
      else if o + 10 ≤ i ∧ i < o + 12 then byteAt bs (i - (o + 10))
      else byteAt f i := by
  have hin : o + 10 + bs.length ≤ f.length := by omega
  have hout : o + 1 + [tos].length ≤ (overwrite f (o + 10) bs).length := by
    rw [length_overwrite hin, List.length_singleton]
    omega
  rw [byteAt_overwrite hout, byteAt_overwrite hin, List.length_singleton, hbs]
  by_cases h1 : i = o + 1
  · rw [if_pos (by omega), if_pos h1, h1, Nat.sub_self]
    rfl
  · rw [if_neg (by omega), if_neg h1]

theorem length_overwrite_tos {f : Frame} {o : ℕ} {bs : List Byte} {tos : U8}
    (hbs : bs.length = 2) (hfit : o + 12 ≤ f.length) :
    (overwrite (overwrite f (o + 10) bs) (o + 1) [tos]).length = f.length := by
  have hin : (overwrite f (o + 10) bs).length = f.length := length_overwrite (by omega)
  rw [length_overwrite (by rw [hin, List.length_singleton]; omega), hin]

/-- The frame keeps its length, and only the TOS byte and the checksum field may change. -/
theorem markDscp_frame {K : Kernel} (hK : K.Exact) (f : Frame) (o : ℕ) (dscp : U8) :
    (markDscp K f o dscp).2.length = f.length ∧
      ∀ i, i ≠ o + 1 → i ≠ o + 10 → i ≠ o + 11 →
        byteAt (markDscp K f o dscp).2 i = byteAt f i := by
  rcases markDscp_cases hK f o dscp with
    ⟨-, hf⟩ | ⟨-, bs, hbs, hfit, -, ⟨-, hf⟩ | ⟨hf⟩⟩
  · rw [hf]
    exact ⟨rfl, fun _ _ _ _ => rfl⟩
  · rw [hf]
    refine ⟨length_overwrite (by omega), fun i _ h10 h11 => ?_⟩
    exact byteAt_overwrite_of_not_mem (by omega) (by omega)
  · rw [hf]
    refine ⟨length_overwrite_tos hbs hfit, fun i h1 h10 h11 => ?_⟩
    rw [byteAt_overwrite_tos hbs hfit, if_neg h1, if_neg (by omega)]

/-- The ECN bits of the TOS byte are kept. -/
theorem markDscp_ecn {K : Kernel} (hK : K.Exact) (f : Frame) (o : ℕ) (dscp : U8) :
    byteAt (markDscp K f o dscp).2 (o + 1) &&& 0x3 = byteAt f (o + 1) &&& 0x3 := by
  rcases markDscp_cases hK f o dscp with
    ⟨-, hf⟩ | ⟨-, bs, hbs, hfit, -, ⟨-, hf⟩ | ⟨hf⟩⟩
  · rw [hf]
  · rw [hf, byteAt_overwrite_of_not_mem (by omega) (by omega)]
  · rw [hf, byteAt_overwrite_tos hbs hfit, if_pos rfl]
    exact markTos_ecn dscp _

/-- Afterwards the DSCP is the one asked for. -/
theorem markDscp_dscp {K : Kernel} (hK : K.Exact) (hT : K.Total) {f : Frame} {o : ℕ}
    (dscp : U8) (hfit : o + 12 ≤ f.length) (heven : o % 2 = 0) (hmax : o + 10 ≤ 0xffff) :
    byteAt (markDscp K f o dscp).2 (o + 1) >>> 2 = dscp &&& 0x3f := by
  rcases markDscp_of_total hK hT dscp hfit heven hmax with ⟨htos, hr⟩ | ⟨-, bs, hbs, hr⟩
  · rw [hr]
    exact (markTos_eq_iff dscp _).mp htos
  · rw [hr, byteAt_overwrite_tos hbs hfit, if_pos rfl]
    exact markTos_dscp dscp _

/-! ### The header checksum -/

/-- The bytes of the IPv4 header at `o`, options included. -/
def ipHeader (f : Frame) (o : ℕ) : List Byte := slice f o (ipIhl f o * 4)

theorem wordSum_ne_zero_of_version {h : List Byte} (hver : byteAt h 0 >>> 4 = 4) :
    wordSum h ≠ 0 := by
  refine wordSum_ne_zero fun h0 => ?_
  rw [h0] at hver
  exact absurd hver (by decide)

theorem length_ipHeader {f : Frame} {o : ℕ} (hfit : o + ipIhl f o * 4 ≤ f.length) :
    (ipHeader f o).length = ipIhl f o * 4 := length_slice hfit

theorem byteAt_ipHeader {f : Frame} {o i : ℕ} (hfit : o + ipIhl f o * 4 ≤ f.length)
    (hi : i < ipIhl f o * 4) : byteAt (ipHeader f o) i = byteAt f (o + i) :=
  byteAt_slice hfit hi

/-- The checksum field is the word at ten of the header. -/
theorem be16At_ipHeader {f : Frame} {o : ℕ} (hfit : o + ipIhl f o * 4 ≤ f.length)
    (hihl : 5 ≤ ipIhl f o) : be16At (ipHeader f o) 10 = be16At f (o + 10) := by
  rw [be16At, be16At, byteAt_ipHeader hfit (show 10 < _ by omega),
    byteAt_ipHeader hfit (show 10 + 1 < _ by omega), Nat.add_assoc]

/-- `f'` is `f` with the TOS byte and the checksum field of the header at `o` rewritten. -/
structure HeaderRewrite (f f' : Frame) (o : ℕ) (tos : U8) (bs : List Byte) : Prop where
  length : f'.length = f.length
  byte : ∀ i, byteAt f' (o + i) = if i = 1 then tos
    else if 10 ≤ i ∧ i < 12 then byteAt bs (i - 10) else byteAt f (o + i)

theorem headerRewrite_overwrite {f : Frame} {o : ℕ} {bs : List Byte} {tos : U8}
    (hbs : bs.length = 2) (hfit : o + 12 ≤ f.length) :
    HeaderRewrite f (overwrite (overwrite f (o + 10) bs) (o + 1) [tos]) o tos bs where
  length := length_overwrite_tos hbs hfit
  byte i := by
    rw [byteAt_overwrite_tos hbs hfit]
    simp only [Nat.add_left_cancel_iff, Nat.add_le_add_iff_left, Nat.add_lt_add_iff_left,
      Nat.add_sub_add_left]

namespace HeaderRewrite

variable {f f' : Frame} {o : ℕ} {tos : U8} {bs : List Byte} (h : HeaderRewrite f f' o tos bs)
include h

/-- The byte with version and header length stays, and with it the extent of the header. -/
theorem ihl : ipIhl f' o = ipIhl f o := by
  have hfirst : byteAt f' o = byteAt f o := h.byte 0
  rw [ipIhl, ipIhl, hfirst]

variable (hfit : o + ipIhl f o * 4 ≤ f.length)
include hfit

theorem fits : o + ipIhl f' o * 4 ≤ f'.length := by
  rw [h.ihl, h.length]
  exact hfit

theorem header_length : (ipHeader f' o).length = (ipHeader f o).length := by
  rw [length_ipHeader hfit, length_ipHeader (h.fits hfit), h.ihl]

theorem header_byte {i : ℕ} (hi : i < ipIhl f o * 4) :
    byteAt (ipHeader f' o) i = byteAt f' (o + i) :=
  byteAt_ipHeader (h.fits hfit) (by rw [h.ihl]; exact hi)

/-- The two headers agree outside the first word and the checksum. -/
theorem header_rest (i : ℕ) (_ : i ≠ 0) (h1 : i ≠ 0 + 1) (h10 : i ≠ 10) (h11 : i ≠ 10 + 1) :
    byteAt (ipHeader f' o) i = byteAt (ipHeader f o) i := by
  by_cases hi : i < ipIhl f o * 4
  · rw [h.header_byte hfit hi, byteAt_ipHeader hfit hi, h.byte, if_neg h1, if_neg (by omega)]
  · have hout : (ipHeader f o).length ≤ i := by
      rw [length_ipHeader hfit]
      omega
    rw [byteAt_of_length_le hout, byteAt_of_length_le (by rw [h.header_length hfit]; exact hout)]

/-- The update of the helper, seen inside the header. -/
theorem header_update {K : Kernel} (hE : K.Eqn3) (hihl : 5 ≤ ipIhl f o) (hbs : bs.length = 2)
    (hcsum : K.l3CsumReplace f (o + 10) (tosWord K f o (byteAt f (o + 1))) (tosWord K f o tos)
      = some (overwrite f (o + 10) bs)) :
    wordOf K.byteOrder (byteAt (ipHeader f' o) 10) (byteAt (ipHeader f' o) (10 + 1))
      = update (wordOf K.byteOrder (byteAt (ipHeader f o) 10) (byteAt (ipHeader f o) (10 + 1)))
        (wordOf K.byteOrder (byteAt (ipHeader f o) 0) (byteAt (ipHeader f o) (0 + 1)))
        (wordOf K.byteOrder (byteAt (ipHeader f' o) 0) (byteAt (ipHeader f' o) (0 + 1))) := by
  have hin : o + 10 + bs.length ≤ f.length := by omega
  -- of the header only the TOS byte and the checksum change
  have hbyte : ∀ i < 12, byteAt (ipHeader f o) i = byteAt f (o + i) :=
    fun i hi => byteAt_ipHeader hfit (by omega)
  have hbyte' : ∀ i < 12, byteAt (ipHeader f' o) i = byteAt f' (o + i) :=
    fun i hi => h.header_byte hfit (by omega)
  have hfield : K.field (overwrite f (o + 10) bs) (o + 10)
      = wordOf K.byteOrder (byteAt f' (o + 10)) (byteAt f' (o + (10 + 1))) := by
    rw [Kernel.field, byteAt_overwrite hin, byteAt_overwrite hin, h.byte 10, h.byte 11, hbs,
      if_pos (by omega), if_pos (by omega), Nat.sub_self, Nat.add_sub_cancel_left]
    rfl
  have hfirst : byteAt f' (o + 0) = byteAt f (o + 0) := h.byte 0
  have htos : byteAt f' (o + (0 + 1)) = tos := h.byte 1
  -- what the helper wrote is eqn. 3 for the first word
  have heqn := hE hcsum
  rw [hfield] at heqn
  rw [hbyte 10 (by omega), hbyte (10 + 1) (by omega), hbyte' 10 (by omega),
    hbyte' (10 + 1) (by omega), hbyte 0 (by omega), hbyte (0 + 1) (by omega),
    hbyte' 0 (by omega), hbyte' (0 + 1) (by omega), hfirst, htos, heqn]
  rfl

theorem header_checksum (hihl : 5 ≤ ipIhl f o) :
    be16At (ipHeader f' o) 10 = be16At f' (o + 10) :=
  be16At_ipHeader (h.fits hfit) (by rw [h.ihl]; exact hihl)

end HeaderRewrite

/-- **Marking preserves the header checksum.**  The header verifies afterwards exactly if
it did before; and where the stored checksum is the one computed over the header with the
field zeroed, so is the stored one afterwards, for any options and any DSCP. -/
theorem markDscp_preserves_checksum {K : Kernel} (hK : K.Exact) (hT : K.Total) (hE : K.Eqn3)
    (f : Frame) (o : ℕ) (dscp : U8) (h4 : Ipv4At f o)
    (hfit : o + ipIhl f o * 4 ≤ f.length) :
    (ipChecksum (ipHeader (markDscp K f o dscp).2 o) = 0 ↔ ipChecksum (ipHeader f o) = 0) ∧
    (be16At f (o + 10) = ipChecksum (zeroWord (ipHeader f o) 10) →
      be16At (markDscp K f o dscp).2 (o + 10)
        = ipChecksum (zeroWord (ipHeader (markDscp K f o dscp).2 o) 10)) := by
  have hihl := h4.ihl
  rcases markDscp_cases hK f o dscp with
    ⟨-, hf⟩ | ⟨-, bs, hbs, hlen, hcsum, ⟨hstore, -⟩ | ⟨hf⟩⟩
  · rw [hf]
    exact ⟨Iff.rfl, id⟩
  · -- the store is in range, so it does not fail
    have hsome : (K.skbStoreBytes (overwrite f (o + 10) bs) (o + 1)
        [markTos dscp (byteAt f (o + 1))]).isSome :=
      hT.store (by rw [length_overwrite (by omega), List.length_singleton]; omega)
    rw [hstore] at hsome
    cases hsome
  · rw [hf]
    have hw : HeaderRewrite f (overwrite (overwrite f (o + 10) bs) (o + 1)
        [markTos dscp (byteAt f (o + 1))]) o (markTos dscp (byteAt f (o + 1))) bs :=
      headerRewrite_overwrite hbs hlen
    generalize overwrite (overwrite f (o + 10) bs) (o + 1) [markTos dscp (byteAt f (o + 1))]
      = f' at hw ⊢
    have hup := hw.header_update hfit hE hihl hbs hcsum
    -- the version keeps both sums from being zero
    have h0 : byteAt (ipHeader f o) 0 = byteAt f o := byteAt_ipHeader hfit (by omega)
    have h0' : byteAt (ipHeader f' o) 0 = byteAt f o :=
      (hw.header_byte hfit (by omega)).trans (hw.byte 0)
    have hver : ∀ {l : List Byte}, byteAt l 0 = byteAt f o → wordSum l ≠ 0 := fun hl =>
      wordSum_ne_zero_of_version (by rw [hl]; exact h4.version)
    have hzero : ∀ {l : List Byte}, byteAt l 0 = byteAt f o → wordSum (zeroWord l 10) ≠ 0 :=
      fun hl => hver ((byteAt_zeroWord_of_lt (by omega)).trans hl)
    have hq : 10 + 1 < (ipHeader f o).length := by
      rw [length_ipHeader hfit]
      omega
    constructor
    · exact checksum_eq_zero_iff_of_update rfl rfl (by omega) hq (hw.header_length hfit)
        (hw.header_rest hfit) hup (hver h0) (hver h0')
    · intro hstored
      rw [← hw.header_checksum hfit hihl]
      exact eq_checksum_of_update rfl rfl (by omega) hq (hw.header_length hfit)
        (hw.header_rest hfit) hup (hzero h0) (hzero h0')
        ((be16At_ipHeader hfit hihl).trans hstored)

/-- Marking a datagram with EF: its header verifies before and after. -/
theorem markDscp_preserves_checksum_udpFrame :
    let f := udpFrame 6000 [] {}
    let f' := (markDscp (refKernel .little) f 14 46).2
    (ipChecksum (ipHeader f' 14) = 0 ↔ ipChecksum (ipHeader f 14) = 0) ∧
      (be16At f (14 + 10) = ipChecksum (zeroWord (ipHeader f 14) 10) →
        be16At f' (14 + 10) = ipChecksum (zeroWord (ipHeader f' 14) 10)) :=
  markDscp_preserves_checksum (refKernel_exact .little) (refKernel_total .little)
    (refKernel_eqn3 .little) (udpFrame 6000 [] {}) 14 46 (by decide) (by decide)

example : (markDscp (refKernel .little) (udpFrame 6000 [] {}) 14 46).1 = 1 := by decide

end TsPacket
