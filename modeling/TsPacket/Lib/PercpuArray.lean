import Mathlib.Algebra.BigOperators.Fin
import Mathlib.Algebra.BigOperators.Group.Finset.Piecewise
import Mathlib.Algebra.Order.BigOperators.Group.Finset

/-!
# Per-CPU arrays of counters

An array map with one 64-bit value per index and CPU.  A program counts on the CPU
it runs on, without atomics, and a reader adds up the CPUs.  The counters wrap, so a
total is only as good as the bound on the number of increments: `total_bumps` says
that a run of increments adds exactly its length to the totals as long as no total
reaches `2 ^ 64`.

## Main definitions

* `PercpuArray`, `PercpuArray.incr`, `PercpuArray.total` — the map, one increment, and
  the sum over the CPUs.
* `PercpuArray.bumps` — a run of increments, in any order and on any CPUs.

## Main results

* `PercpuArray.total_bumps` — **what a run of increments adds to a total.**
-/

/-- One 64-bit value per index and CPU. -/
@[ext] structure PercpuArray (ncpu entries : ℕ) where
  val : Fin ncpu → Fin entries → BitVec 64

namespace PercpuArray

variable {ncpu entries : ℕ}

/-- All values zero, as the kernel creates the map. -/
def zero (ncpu entries : ℕ) : PercpuArray ncpu entries := ⟨fun _ _ => 0⟩

/-- `(*v)++` for the value of `i` on CPU `c`. -/
def incr (a : PercpuArray ncpu entries) (c : Fin ncpu) (i : Fin entries) :
    PercpuArray ncpu entries :=
  ⟨Function.update a.val c (Function.update (a.val c) i (a.val c i + 1))⟩

/-- The sum of an index over the CPUs. -/
def total (a : PercpuArray ncpu entries) (i : Fin entries) : ℕ := ∑ c, (a.val c i).toNat

@[simp] theorem total_zero (i : Fin entries) : total (zero ncpu entries) i = 0 := by
  simp [total, zero]

theorem toNat_le_total (a : PercpuArray ncpu entries) (c : Fin ncpu) (i : Fin entries) :
    (a.val c i).toNat ≤ total a i := by
  rw [total, ← Finset.add_sum_erase _ _ (Finset.mem_univ c)]
  exact Nat.le_add_right _ _

theorem val_incr_self (a : PercpuArray ncpu entries) (c : Fin ncpu) (i : Fin entries) :
    (incr a c i).val c i = a.val c i + 1 := by simp [incr]

theorem val_incr_of_ne (a : PercpuArray ncpu entries) (c : Fin ncpu) {i j : Fin entries}
    (h : j ≠ i) (d : Fin ncpu) : (incr a c i).val d j = a.val d j := by
  rcases eq_or_ne d c with rfl | hd
  · simp [incr, h]
  · simp [incr, hd]

theorem val_incr_of_cpu_ne (a : PercpuArray ncpu entries) {c d : Fin ncpu} (h : d ≠ c)
    (i j : Fin entries) : (incr a c i).val d j = a.val d j := by simp [incr, h]

theorem total_incr_of_ne (a : PercpuArray ncpu entries) (c : Fin ncpu) {i j : Fin entries}
    (h : j ≠ i) : total (incr a c i) j = total a j := by
  refine Finset.sum_congr rfl fun d _ => ?_
  rw [val_incr_of_ne a c h]

theorem total_incr_self {a : PercpuArray ncpu entries} {c : Fin ncpu} {i : Fin entries}
    (h : (a.val c i).toNat + 1 < 2 ^ 64) : total (incr a c i) i = total a i + 1 := by
  -- below the bound the value does not wrap
  have hval : (a.val c i + 1).toNat = (a.val c i).toNat + 1 := by
    rw [BitVec.toNat_add, show (1 : BitVec 64).toNat = 1 from rfl]
    omega
  -- of the sum over the CPUs one term changes
  have hupd : (fun d => ((incr a c i).val d i).toNat)
      = Function.update (fun d => (a.val d i).toNat) c ((a.val c i).toNat + 1) := by
    funext d
    rcases eq_or_ne d c with rfl | hd
    · rw [val_incr_self, Function.update_self, hval]
    · rw [val_incr_of_cpu_ne a hd, Function.update_of_ne hd]
  have hsum : total (incr a c i) i = ∑ d, (fun d => ((incr a c i).val d i).toNat) d := rfl
  rw [hsum, hupd, Finset.sum_update_of_mem (Finset.mem_univ c), Finset.sdiff_singleton_eq_erase,
    total, ← Finset.add_sum_erase _ _ (Finset.mem_univ c)]
  omega

/-- A run of increments, each with its CPU and index. -/
def bumps (a : PercpuArray ncpu entries) (l : List (Fin ncpu × Fin entries)) :
    PercpuArray ncpu entries :=
  l.foldl (fun a p => incr a p.1 p.2) a

@[simp] theorem bumps_nil (a : PercpuArray ncpu entries) : bumps a [] = a := rfl

theorem bumps_cons (a : PercpuArray ncpu entries) (p : Fin ncpu × Fin entries)
    (l : List (Fin ncpu × Fin entries)) : bumps a (p :: l) = bumps (incr a p.1 p.2) l := rfl

theorem bumps_append (a : PercpuArray ncpu entries) (l l' : List (Fin ncpu × Fin entries)) :
    bumps a (l ++ l') = bumps (bumps a l) l' := List.foldl_append

/-- **What a run of increments adds to a total**, on whatever CPUs it ran. -/
theorem total_bumps (i : Fin entries) : ∀ (l : List (Fin ncpu × Fin entries))
    (a : PercpuArray ncpu entries), total a i + l.countP (fun p => p.2 = i) < 2 ^ 64 →
      total (bumps a l) i = total a i + l.countP (fun p => p.2 = i) := by
  intro l
  induction l with
  | nil => intro a _; simp
  | cons p l ih =>
    intro a h
    rw [List.countP_cons] at h ⊢
    rw [bumps_cons]
    rcases eq_or_ne p.2 i with hp | hp
    · subst hp
      have hcell := toNat_le_total a p.1 p.2
      have hinc : total (incr a p.1 p.2) p.2 = total a p.2 + 1 :=
        total_incr_self (by simp only [decide_true, if_true] at h; omega)
      simp only [decide_true, if_true] at h ⊢
      rw [ih _ (by rw [hinc]; omega), hinc]
      omega
    · have hinc : total (incr a p.1 p.2) i = total a i := total_incr_of_ne a p.1 (Ne.symm hp)
      simp only [hp, decide_false, Bool.false_eq_true, if_false, Nat.add_zero] at h ⊢
      rw [ih _ (by rw [hinc]; exact h), hinc]

/-- Counted from zero, a total is the number of increments. -/
theorem total_bumps_zero {i : Fin entries} {l : List (Fin ncpu × Fin entries)} {n : ℕ}
    (hn : l.countP (fun p => p.2 = i) = n) (hlt : n < 2 ^ 64) :
    total (bumps (zero ncpu entries) l) i = n := by
  have hbound : total (zero ncpu entries) i + l.countP (fun p => p.2 = i) < 2 ^ 64 := by
    rw [total_zero, Nat.zero_add, hn]
    exact hlt
  rw [total_bumps i l _ hbound, total_zero, Nat.zero_add, hn]

end PercpuArray
