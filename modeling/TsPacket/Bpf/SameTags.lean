import TsPacket.Bpf.Grammar

/-!
# Frames with the same tags

Results about two runs compare frames that agree where the tags stand and differ behind
them.  The grammar looks at the type of the Ethernet header and at the tags to find the
payload and the outer PCP, so it finds the same in both.

## Main definitions

* `SameTags` — the second frame has the types and the tags of the first.

## Main results

* `SameTags.payloadOff`, `SameTags.innerType`, `SameTags.pcpTs` — what depends on them only.
-/

namespace TsPacket

open Bytes

theorem tagsFrom_congr {f g : Frame} : ∀ n k : ℕ,
    (∀ j, k ≤ j → j ≤ k + tagsFrom f k n → etherTypeAt g j = etherTypeAt f j) →
    tagsFrom g k n = tagsFrom f k n := by
  intro n
  induction n with
  | zero => intro k _; rfl
  | succ n ih =>
    intro k h
    have hk := h k (Nat.le_refl k) (Nat.le_add_right k _)
    rw [tagsFrom, tagsFrom, hk]
    by_cases hv : IsVlan (etherTypeAt f k)
    · rw [if_pos hv, if_pos hv]
      congr 1
      -- the types further on are those the count looks at next
      refine ih (k + 1) fun j hj hj' => h j (by omega) ?_
      rw [tagsFrom, if_pos hv]
      omega
    · rw [if_neg hv, if_neg hv]

/-- The frames agree from the type of the Ethernet header to the end of the tags of `f`. -/
def SameTags (f g : Frame) : Prop := ∀ i, 12 ≤ i → i < payloadOff f → byteAt g i = byteAt f i

/-- What is appended to whole tags does not change them. -/
theorem sameTags_append {f : Frame} (hcomp : TagsComplete f) (g : Frame) :
    SameTags f (f ++ g) := fun _ _ hi => byteAt_append_left (Nat.lt_of_lt_of_le hi hcomp)

theorem sameTags_of_take {f g : Frame}
    (h : g.take (payloadOff f) = f.take (payloadOff f)) : SameTags f g := by
  intro i _ hi
  have htake : ∀ l : Frame, byteAt (l.take (payloadOff f)) i = byteAt l i := fun l => by
    rw [byteAt, byteAt, List.getD_eq_getElem?_getD, List.getD_eq_getElem?_getD,
      List.getElem?_take_of_lt hi]
  rw [← htake g, h, htake f]

namespace SameTags

variable {f g : Frame} (h : SameTags f g)
include h

theorem etherTypeAt {k : ℕ} (hk : k ≤ TsPacket.tagCount f) :
    etherTypeAt g k = TsPacket.etherTypeAt f k := by
  have hoff : TsPacket.payloadOff f = 14 + 4 * TsPacket.tagCount f := rfl
  rw [TsPacket.etherTypeAt, TsPacket.etherTypeAt, be16At, be16At, h _ (by omega) (by omega),
    h _ (by omega) (by omega)]

theorem tagCount : tagCount g = TsPacket.tagCount f := by
  refine tagsFrom_congr 2 0 fun j _ hj => h.etherTypeAt ?_
  rw [Nat.zero_add] at hj
  exact hj

theorem payloadOff : payloadOff g = TsPacket.payloadOff f := by
  rw [TsPacket.payloadOff, TsPacket.payloadOff, h.tagCount]

theorem innerType : innerType g = TsPacket.innerType f := by
  rw [TsPacket.innerType, TsPacket.innerType, h.tagCount, h.etherTypeAt (Nat.le_refl _)]

end SameTags

variable {skb skb' : Skb}

/-- The outer PCP is in the metadata or in the first tag. -/
theorem SameTags.outerPcp (h : SameTags skb.data skb'.data)
    (hvlan : skb'.vlanPresent = skb.vlanPresent ∧ skb'.vlanTci = skb.vlanTci) :
    outerPcp skb' = TsPacket.outerPcp skb := by
  have hfirst : TsPacket.etherTypeAt skb'.data 0 = TsPacket.etherTypeAt skb.data 0 :=
    h.etherTypeAt (Nat.zero_le _)
  rw [TsPacket.outerPcp, TsPacket.outerPcp, hvlan.1, hvlan.2, hfirst]
  by_cases hv : IsVlan (TsPacket.etherTypeAt skb.data 0)
  · have hpos := (tagCount_pos_iff skb.data).mpr hv
    have hoff : TsPacket.payloadOff skb.data = 14 + 4 * TsPacket.tagCount skb.data := rfl
    have htci : be16At skb'.data 14 = be16At skb.data 14 := by
      rw [be16At, be16At, h 14 (by omega) (by omega), h 15 (by omega) (by omega)]
    rw [htci]
  · rw [if_neg hv, if_neg hv]

theorem SameTags.pcpTs (h : SameTags skb.data skb'.data)
    (hvlan : skb'.vlanPresent = skb.vlanPresent ∧ skb'.vlanTci = skb.vlanTci) :
    PcpTs skb' ↔ PcpTs skb := by
  rw [PcpTs, PcpTs, h.outerPcp hvlan]

end TsPacket
