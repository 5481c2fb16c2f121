import TsPacket.Lib.OnesComplement
import TsPacket.Bpf.Common

/-!
# The packet helpers of the kernel

`bpf_skb_load_bytes`, `bpf_l3_csum_replace` and `bpf_skb_store_bytes` are code of the
kernel, so they are a parameter: `none` stands for a negative return, which leaves the
packet as it was.  What the program relies on is stated in three separate parts, since
not every result needs all of them.

## Main definitions

* `Kernel` — the helpers, with the byte order of the machine.
* `Kernel.Exact` — a helper that succeeds reads or writes exactly the range it names.
* `Kernel.Total` — a helper fails only outside the frame, and the checksum helper also
  at an odd offset or one past `0xffff`.
* `Kernel.Eqn3` — the checksum helper performs the update of RFC 1624, equation 3.
* `refKernel` — helpers that do just this, for running the model.
-/

namespace TsPacket

open Bytes OnesComplement

/-- The helpers a program calls, and the byte order it runs in. -/
structure Kernel where
  byteOrder : ByteOrder
  /-- `bpf_skb_load_bytes(skb, off, to, len)`. -/
  skbLoadBytes : Frame → ℕ → ℕ → Option (List Byte)
  /-- `bpf_l3_csum_replace(skb, off, from, to, 2)`. -/
  l3CsumReplace : Frame → ℕ → U16 → U16 → Option Frame
  /-- `bpf_skb_store_bytes(skb, off, from, len, 0)`. -/
  skbStoreBytes : Frame → ℕ → List Byte → Option Frame

/-- The 16-bit field at `off`, as the machine reads it. -/
def Kernel.field (K : Kernel) (f : Frame) (off : ℕ) : U16 :=
  wordOf K.byteOrder (byteAt f off) (byteAt f (off + 1))

/-- Helpers touch exactly the range they are asked to. -/
structure Kernel.Exact (K : Kernel) : Prop where
  load : ∀ {f off n bs}, K.skbLoadBytes f off n = some bs →
    off + n ≤ f.length ∧ bs = slice f off n
  csum : ∀ {f off old new f'}, K.l3CsumReplace f off old new = some f' →
    off + 2 ≤ f.length ∧ ∃ bs : List Byte, bs.length = 2 ∧ f' = overwrite f off bs
  store : ∀ {f off bs f'}, K.skbStoreBytes f off bs = some f' →
    off + bs.length ≤ f.length ∧ f' = overwrite f off bs

/-- Helpers do not fail in range. -/
structure Kernel.Total (K : Kernel) : Prop where
  load : ∀ {f : Frame} {off n}, off + n ≤ f.length → (K.skbLoadBytes f off n).isSome
  csum : ∀ {f : Frame} {off} (old new), off + 2 ≤ f.length → off % 2 = 0 → off ≤ 0xffff →
    (K.l3CsumReplace f off old new).isSome
  store : ∀ {f : Frame} {off} {bs : List Byte}, off + bs.length ≤ f.length →
    (K.skbStoreBytes f off bs).isSome

/-- The checksum helper updates the stored field as RFC 1624, equation 3 says. -/
def Kernel.Eqn3 (K : Kernel) : Prop :=
  ∀ {f off old new f'}, K.l3CsumReplace f off old new = some f' →
    K.field f' off = update (K.field f off) old new

/-! ### Helpers to run the model with -/

/-- The helpers as documented. -/
def refKernel (o : ByteOrder) : Kernel where
  byteOrder := o
  skbLoadBytes f off n := if off + n ≤ f.length then some (slice f off n) else none
  l3CsumReplace f off old new :=
    if off + 2 ≤ f.length ∧ off % 2 = 0 ∧ off ≤ 0xffff then
      some (overwrite f off
        (bytesOf o (update (wordOf o (byteAt f off) (byteAt f (off + 1))) old new)))
    else none
  skbStoreBytes f off bs := if off + bs.length ≤ f.length then some (overwrite f off bs) else none

theorem refKernel_exact (o : ByteOrder) : (refKernel o).Exact where
  load := by
    intro f off n bs h
    simp only [refKernel, Option.ite_none_right_eq_some, Option.some.injEq] at h
    exact ⟨h.1, h.2.symm⟩
  csum := by
    intro f off old new f' h
    simp only [refKernel, Option.ite_none_right_eq_some, Option.some.injEq] at h
    exact ⟨h.1.1, _, length_bytesOf o _, h.2.symm⟩
  store := by
    intro f off bs f' h
    simp only [refKernel, Option.ite_none_right_eq_some, Option.some.injEq] at h
    exact ⟨h.1, h.2.symm⟩

theorem refKernel_total (o : ByteOrder) : (refKernel o).Total where
  load := by
    intro f off n h
    simp only [refKernel, if_pos h, Option.isSome_some]
  csum := by
    intro f off old new h heven hmax
    simp only [refKernel, if_pos (And.intro h (And.intro heven hmax)), Option.isSome_some]
  store := by
    intro f off bs h
    simp only [refKernel, if_pos h, Option.isSome_some]

theorem refKernel_eqn3 (o : ByteOrder) : (refKernel o).Eqn3 := by
  intro f off old new f' h
  simp only [refKernel, Option.ite_none_right_eq_some, Option.some.injEq] at h
  obtain ⟨⟨hfit, -⟩, rfl⟩ := h
  have hlen : off + (bytesOf o (update ((refKernel o).field f off) old new)).length ≤ f.length := by
    rw [length_bytesOf]; exact hfit
  change wordOf o (byteAt (overwrite f off (bytesOf o (update ((refKernel o).field f off) old new)))
      off) (byteAt (overwrite f off (bytesOf o (update ((refKernel o).field f off) old new)))
      (off + 1)) = _
  rw [byteAt_overwrite hlen, byteAt_overwrite hlen, length_bytesOf, if_pos (by omega),
    if_pos (by omega), Nat.sub_self, Nat.add_sub_cancel_left]
  exact wordOf_bytesOf o _

end TsPacket
