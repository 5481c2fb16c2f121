import Mathlib.Data.List.Forall2
import Mathlib.Tactic.Common
import Mathlib.Data.Nat.Notation

/-!
# Chains of packet filters

Programs hooked in a row on one path: each sees the packet its predecessor left, and
the first verdict other than `next` ends the chain.  Behind the chain stands a fallback
chain, asked only when every program of the first passed the packet on.  The programs
share one state, of which each may use its own part.

Two packets that no program of the chain can tell apart (a relation each program
respects) are treated alike.  So a program put in front is invisible when it always
passes the packet on, keeps the state of the others and leaves a packet they cannot tell
from the one that came.

## Main definitions

* `Filter`, `runUntil`, `Chain.run`, `Chain.runAll` — a program, a row of them, a chain
  with its fallback, and a sequence of packets.
* `Respects` — a program does not tell related packets apart.
* `Chain.withFront` — the chain with one more program in front, and its state.

## Main results

* `Chain.run_respects` — **related packets are treated alike by a whole chain.**
* `Chain.runAll_withFront` — **a front program of that kind is invisible** to the others,
  over any sequence of packets.
-/

namespace FilterChain

variable {σ τ π ν ε : Type}

/-- A program: verdict, state and packet it leaves. -/
abbrev Filter (σ π ν : Type) := σ → π → ν × σ × π

/-- What a run of programs leaves, and how many of them ran. -/
structure Outcome (σ π ν : Type) where
  verdict : ν
  state : σ
  packet : π
  ran : ℕ
  /-- How many programs of the fallback ran. -/
  ranFallback : ℕ := 0

section Run

variable [DecidableEq ν] (next : ν)

/-- Programs in a row, up to the first verdict other than `next`. -/
def runUntil : List (Filter σ π ν) → σ → π → Outcome σ π ν
  | [], s, p => { verdict := next, state := s, packet := p, ran := 0 }
  | f :: fs, s, p =>
    let r := f s p
    if r.1 = next then
      let o := runUntil fs r.2.1 r.2.2
      { o with ran := o.ran + 1 }
    else { verdict := r.1, state := r.2.1, packet := r.2.2, ran := 1 }

/-- A chain, and the programs asked if all of it passed the packet on. -/
structure Chain (σ π ν : Type) where
  filters : List (Filter σ π ν)
  fallback : List (Filter σ π ν)

/-- One packet through a chain. -/
def Chain.run (c : Chain σ π ν) (s : σ) (p : π) : Outcome σ π ν :=
  let o := runUntil next c.filters s p
  if o.verdict = next then
    let o' := runUntil next c.fallback o.state o.packet
    { o' with ran := o.ran, ranFallback := o'.ran }
  else o

/-- Packets one after the other, each with the setting the chain depends on. -/
def Chain.runAll (c : ε → Chain σ π ν) : σ → List (ε × π) → List (Outcome σ π ν)
  | _, [] => []
  | s, (e, p) :: xs =>
    let o := (c e).run next s p
    o :: Chain.runAll c o.state xs

end Run

/-! ### Packets a program cannot tell apart -/

/-- Related packets get one verdict and one state, and stay related. -/
structure Respects (R : π → π → Prop) (f : Filter σ π ν) : Prop where
  verdict : ∀ s {p q}, R p q → (f s p).1 = (f s q).1
  state : ∀ s {p q}, R p q → (f s p).2.1 = (f s q).2.1
  packet : ∀ s {p q}, R p q → R (f s p).2.2 (f s q).2.2

/-- Two outcomes that agree on everything but related packets. -/
structure Alike (R : π → π → Prop) (o o' : Outcome σ π ν) : Prop where
  verdict : o'.verdict = o.verdict
  state : o'.state = o.state
  packet : R o.packet o'.packet
  ran : o'.ran = o.ran
  ranFallback : o'.ranFallback = o.ranFallback

section Respects

variable [DecidableEq ν] {next : ν} {R : π → π → Prop}

/-- Related packets are treated alike by programs in a row. -/
theorem runUntil_respects : ∀ (fs : List (Filter σ π ν)), (∀ f ∈ fs, Respects R f) →
    ∀ (s : σ) {p q : π}, R p q → Alike R (runUntil next fs s p) (runUntil next fs s q) := by
  intro fs
  induction fs with
  | nil => intro _ s p q h; exact ⟨rfl, rfl, h, rfl, rfl⟩
  | cons f fs ih =>
    intro hfs s p q h
    have hf := hfs f List.mem_cons_self
    have hv := hf.verdict s h
    have hs := hf.state s h
    have hp := hf.packet s h
    rw [runUntil, runUntil]
    by_cases hnext : (f s p).1 = next
    · have ho := ih (fun g hg => hfs g (List.mem_cons_of_mem f hg)) (f s p).2.1 hp
      rw [if_pos hnext, if_pos (hv ▸ hnext), ← hs]
      exact ⟨ho.verdict, ho.state, ho.packet, congrArg (· + 1) ho.ran, ho.ranFallback⟩
    · rw [if_neg hnext, if_neg (hv ▸ hnext)]
      exact ⟨hv.symm, hs.symm, hp, rfl, rfl⟩

/-- **Related packets are treated alike by a whole chain.** -/
theorem Chain.run_respects {c : Chain σ π ν} (hc : ∀ f ∈ c.filters ++ c.fallback, Respects R f)
    (s : σ) {p q : π} (h : R p q) : Alike R (c.run next s p) (c.run next s q) := by
  have ho : Alike R (runUntil next c.filters s p) (runUntil next c.filters s q) :=
    runUntil_respects _ (fun f hf => hc f (List.mem_append_left _ hf)) s h
  rw [Chain.run, Chain.run]
  by_cases hnext : (runUntil next c.filters s p).verdict = next
  · -- the fallback starts from one state and from related packets again
    have ho' : Alike R
        (runUntil next c.fallback (runUntil next c.filters s p).state
          (runUntil next c.filters s p).packet)
        (runUntil next c.fallback (runUntil next c.filters s p).state
          (runUntil next c.filters s q).packet) :=
      runUntil_respects _ (fun f hf => hc f (List.mem_append_right _ hf)) _ ho.packet
    rw [if_pos hnext, if_pos (ho.verdict.trans hnext), ho.state]
    exact ⟨ho'.verdict, ho'.state, ho'.packet, ho.ran, ho'.ran⟩
  · rw [if_neg hnext, if_neg (ho.verdict ▸ hnext)]
    exact ho

end Respects

/-! ### What every program keeps -/

section Keeps

variable [DecidableEq ν] {next : ν} (Q : π → Prop)

theorem runUntil_keeps : ∀ (fs : List (Filter σ π ν)),
    (∀ f ∈ fs, ∀ s p, Q p → Q (f s p).2.2) →
    ∀ (s : σ) {p : π}, Q p → Q (runUntil next fs s p).packet := by
  intro fs
  induction fs with
  | nil => intro _ s p h; exact h
  | cons f fs ih =>
    intro hfs s p h
    have hp := hfs f List.mem_cons_self s p h
    rw [runUntil]
    by_cases hnext : (f s p).1 = next
    · rw [if_pos hnext]
      exact ih (fun g hg => hfs g (List.mem_cons_of_mem f hg)) _ hp
    · rw [if_neg hnext]
      exact hp

/-- What every program keeps of a packet, the chain keeps. -/
theorem Chain.run_keeps {c : Chain σ π ν}
    (hc : ∀ f ∈ c.filters ++ c.fallback, ∀ s p, Q p → Q (f s p).2.2) (s : σ) {p : π} (h : Q p) :
    Q (c.run next s p).packet := by
  have ho : Q (runUntil next c.filters s p).packet :=
    runUntil_keeps Q _ (fun f hf => hc f (List.mem_append_left _ hf)) s h
  rw [Chain.run]
  split
  · exact runUntil_keeps Q _ (fun f hf => hc f (List.mem_append_right _ hf)) _ ho
  · exact ho

end Keeps

/-- What holds of every run of a chain holds along a sequence of packets. -/
theorem Chain.runAll_forall [DecidableEq ν] {next : ν} {c : ε → Chain σ π ν}
    {P : ε × π → Outcome σ π ν → Prop} (h : ∀ e s p, P (e, p) ((c e).run next s p)) :
    ∀ (xs : List (ε × π)) (s : σ), List.Forall₂ P xs (Chain.runAll next c s xs) := by
  intro xs
  induction xs with
  | nil => intro s; exact .nil
  | cons x xs ih => intro s; exact .cons (h x.1 s x.2) (ih _)

/-! ### A program in front -/

/-- A program on its own part of a larger state. -/
def lift (τ : Type) (f : Filter σ π ν) : Filter (τ × σ) π ν :=
  fun s p => let r := f s.2 p; (r.1, (s.1, r.2.1), r.2.2)

/-- The chain with one more program in front, which has a state of its own. -/
def Chain.withFront (f : Filter (τ × σ) π ν) (c : Chain σ π ν) : Chain (τ × σ) π ν where
  filters := f :: c.filters.map (lift τ)
  fallback := c.fallback.map (lift τ)

section Front

variable [DecidableEq ν] {next : ν}

/-- Lifted programs leave the rest of the state alone. -/
theorem runUntil_lift (t : τ) : ∀ (fs : List (Filter σ π ν)) (s : σ) (p : π),
    runUntil next (fs.map (lift τ)) (t, s) p =
      let o := runUntil next fs s p
      { verdict := o.verdict, state := (t, o.state), packet := o.packet, ran := o.ran,
        ranFallback := o.ranFallback } := by
  intro fs
  induction fs with
  | nil => intro s p; rfl
  | cons f fs ih =>
    intro s p
    rw [List.map_cons, runUntil, runUntil]
    by_cases hnext : (f s p).1 = next
    · rw [if_pos (show (lift τ f (t, s) p).1 = next from hnext), if_pos hnext]
      simp only [lift, ih]
    · rw [if_neg (show ¬ (lift τ f (t, s) p).1 = next from hnext), if_neg hnext]
      rfl

/-- The chain with a front program that passed the packet on, in terms of the chain alone. -/
theorem Chain.run_withFront {f : Filter (τ × σ) π ν} {c : Chain σ π ν} {s : τ × σ} {p : π}
    (hnext : (f s p).1 = next) :
    (c.withFront f).run next s p =
      let o := c.run next (f s p).2.1.2 (f s p).2.2
      { verdict := o.verdict, state := ((f s p).2.1.1, o.state), packet := o.packet,
        ran := o.ran + 1, ranFallback := o.ranFallback } := by
  have hfilters : runUntil next (c.filters.map (lift τ)) (f s p).2.1 (f s p).2.2 = _ :=
    runUntil_lift (f s p).2.1.1 c.filters (f s p).2.1.2 (f s p).2.2
  rw [Chain.run, Chain.run, Chain.withFront]
  simp only [runUntil, if_pos hnext]
  rw [hfilters]
  dsimp only
  by_cases hpass : (runUntil next c.filters (f s p).2.1.2 (f s p).2.2).verdict = next
  · rw [if_pos hpass, if_pos hpass, runUntil_lift]
  · rw [if_neg hpass, if_neg hpass]

/-- A front program the others do not notice, over any sequence of packets: for each
packet they give one verdict, they end in one state, as many of them run, and the packets
that leave are related. -/
theorem Chain.runAll_withFront (R : π → π → Prop) {c : Chain σ π ν}
    (hc : ∀ g ∈ c.filters ++ c.fallback, Respects R g) (f : ε → Filter (τ × σ) π ν)
    (hnext : ∀ e s p, (f e s p).1 = next) (hstate : ∀ e s p, (f e s p).2.1.2 = s.2)
    (hR : ∀ e s p, R p (f e s p).2.2) : ∀ (xs : List (ε × π)) (t : τ) (s : σ),
    List.Forall₂ (fun o o' => o'.verdict = o.verdict ∧ o'.state.2 = o.state ∧
        R o.packet o'.packet ∧ o'.ran = o.ran + 1 ∧ o'.ranFallback = o.ranFallback)
      (Chain.runAll next (fun _ => c) s xs)
      (Chain.runAll next (fun e => c.withFront (f e)) (t, s) xs) := by
  intro xs
  induction xs with
  | nil => intro t s; exact .nil
  | cons x xs ih =>
    obtain ⟨e, p⟩ := x
    intro t s
    have halike : Alike R (c.run next s p) (c.run next s (f e (t, s) p).2.2) :=
      Chain.run_respects hc s (hR e (t, s) p)
    rw [Chain.runAll, Chain.runAll, Chain.run_withFront (hnext e (t, s) p), hstate]
    dsimp only
    refine .cons ⟨halike.verdict, halike.state, halike.packet, by rw [halike.ran],
      halike.ranFallback⟩ ?_
    -- the next packet meets the others in the state they are in without the front program
    rw [halike.state]
    exact ih _ _

end Front

end FilterChain
