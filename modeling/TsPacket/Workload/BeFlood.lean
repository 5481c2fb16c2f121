import Mathlib.Algebra.Order.Field.Basic
import Mathlib.Algebra.Order.Ring.Rat
import Mathlib.Tactic.FieldSimp
import Mathlib.Tactic.Linarith
import Mathlib.Tactic.NormNum
import TsPacket.Lib.Pacing

/-!
# The flood

The send loop of `workload/be_flood.py`.  Every round reads the clock; a packet is tried
when the clock has reached `next_tx`, which then moves on by the interval of a packet, or
up to the clock if it would stay more than 50 ms behind.  The clock may stand still, jump
or go back, and every send may fail.

## Main definitions

* `floodRound` — one round of the loop.
* `floodRun` — the loop over the readings of the clock, and the readings at which a packet
  was tried.

## Main results

* `floodRun_paced` — the readings are released by the schedule `next_tx`.
* `floodRun_load` — **the flood never exceeds its offered load**, neither since its start
  nor between any two packets.
-/

namespace TsPacket

open Pacing

/-! ### The loop -/

/-- The variables of the loop. -/
structure FloodState where
  nextTx : ℤ
  sent : ℕ := 0
  errors : ℕ := 0

/-- What a round comes to. -/
inductive FloodRound
  /-- The deadline is reached. -/
  | stop
  /-- Too early for a packet; it may sleep for some nanoseconds. -/
  | wait (sleepNs : Option ℤ)
  /-- A packet was tried. -/
  | attempt (s : FloodState)

/-- `sock.sendto`, which may fail. -/
def floodSend (s : FloodState) (sendOk : Bool) : FloodState :=
  if sendOk then { s with sent := s.sent + 1 } else { s with errors := s.errors + 1 }

/-- One round; `now` and `sendOk` say what the clock and the socket answer in it. -/
def floodRound (perPktNs deadline : ℤ) (s : FloodState) (now : ℤ) (sendOk : Bool) :
    FloodRound :=
  if now ≥ deadline then .stop
  else if perPktNs ≠ 0 then
    if now < s.nextTx then
      let wait := s.nextTx - now
      .wait (if wait > 300000 then some (wait - 150000) else none)
    else
      let nextTx := s.nextTx + perPktNs
      -- more than 50 ms behind
      let nextTx := if now - nextTx > 50000000 then now else nextTx
      .attempt (floodSend { s with nextTx := nextTx } sendOk)
  else .attempt (floodSend s sendOk)

/-- The rounds, and the readings at which a packet was tried. -/
def floodRun (perPktNs deadline : ℤ) : FloodState → List (ℤ × Bool) → FloodState × List ℤ
  | s, [] => (s, [])
  | s, (now, sendOk) :: rounds =>
    match floodRound perPktNs deadline s now sendOk with
    | .stop => (s, [])
    | .wait _ => floodRun perPktNs deadline s rounds
    | .attempt s' =>
      let r := floodRun perPktNs deadline s' rounds
      (r.1, now :: r.2)

/-- The readings at which a packet was tried in a run that started at `t0`. -/
def floodAttempts (perPktNs t0 deadline : ℤ) (rounds : List (ℤ × Bool)) : List ℤ :=
  (floodRun perPktNs deadline { nextTx := t0 } rounds).2

/-! ### What a round does -/

theorem floodSend_nextTx (s : FloodState) (sendOk : Bool) :
    (floodSend s sendOk).nextTx = s.nextTx := by
  cases sendOk with
  | false => rfl
  | true => rfl

theorem floodSend_count (s : FloodState) (sendOk : Bool) :
    (floodSend s sendOk).sent + (floodSend s sendOk).errors = s.sent + s.errors + 1 := by
  cases sendOk with
  | false => exact (Nat.add_assoc _ _ _).symm
  | true => exact Nat.add_right_comm _ _ _

/-- A packet is tried when the schedule allows it, which then moves on, and is at most 50 ms
behind the clock. -/
theorem floodRound_attempt {perPktNs deadline now : ℤ} {s s' : FloodState} {sendOk : Bool}
    (hp : 0 < perPktNs) (h : floodRound perPktNs deadline s now sendOk = .attempt s') :
    s.nextTx ≤ now ∧ s.nextTx + perPktNs ≤ s'.nextTx ∧ now - 50000000 ≤ s'.nextTx := by
  rw [floodRound] at h
  split at h
  case isTrue => cases h
  case isFalse =>
    rw [if_pos (ne_of_gt hp)] at h
    split at h
    case isTrue => cases h
    -- due: one interval on, or 50 ms behind now, whichever is later
    case isFalse hdue =>
      obtain rfl := FloodRound.attempt.inj h
      rw [floodSend_nextTx]
      dsimp only
      refine ⟨not_lt.mp hdue, ?_, ?_⟩
      · split <;> omega
      · split <;> omega

/-- Every packet that is tried is counted. -/
theorem floodRound_count {perPktNs deadline now : ℤ} {s s' : FloodState} {sendOk : Bool}
    (h : floodRound perPktNs deadline s now sendOk = .attempt s') :
    s'.sent + s'.errors = s.sent + s.errors + 1 := by
  rw [floodRound] at h
  split at h
  case isTrue => cases h
  case isFalse =>
    split at h
    case isTrue =>
      split at h
      case isTrue => cases h
      case isFalse =>
        obtain rfl := FloodRound.attempt.inj h
        exact floodSend_count _ _
    case isFalse =>
      obtain rfl := FloodRound.attempt.inj h
      exact floodSend_count _ _

/-! ### Runs -/

/-- **The readings are released by the schedule** `next_tx`. -/
theorem floodRun_paced {perPktNs : ℤ} (hp : 0 < perPktNs) (deadline : ℤ) :
    ∀ (rounds : List (ℤ × Bool)) (s : FloodState),
      Paced perPktNs 50000000 s.nextTx (floodRun perPktNs deadline s rounds).2 := by
  intro rounds
  induction rounds with
  | nil => intro s; exact .nil s.nextTx
  | cons round rounds ih =>
    obtain ⟨now, sendOk⟩ := round
    intro s
    rw [floodRun]
    cases hround : floodRound perPktNs deadline s now sendOk with
    | stop => exact .nil s.nextTx
    -- a round that waits or stops attempts nothing
    | wait _ => exact ih s
    | attempt s' =>
      obtain ⟨hdue, hadvanced, hbehind⟩ := floodRound_attempt hp hround
      exact .cons hdue hadvanced hbehind (ih s')

/-- Every packet that was tried was sent or counted as an error. -/
theorem floodRun_count (perPktNs deadline : ℤ) : ∀ (rounds : List (ℤ × Bool)) (s : FloodState),
    (floodRun perPktNs deadline s rounds).1.sent + (floodRun perPktNs deadline s rounds).1.errors
      = s.sent + s.errors + (floodRun perPktNs deadline s rounds).2.length := by
  intro rounds
  induction rounds with
  | nil => intro s; rfl
  | cons round rounds ih =>
    obtain ⟨now, sendOk⟩ := round
    intro s
    rw [floodRun]
    cases hround : floodRound perPktNs deadline s now sendOk with
    | stop => rfl
    | wait _ => exact ih s
    | attempt s' =>
      dsimp only
      rw [ih s', floodRound_count hround, List.length_cons]
      omega

/-- The schedule in integers bounds a number of packets by a quotient. -/
theorem le_div_add_one {p d : ℤ} (hp : 0 < p) {n : ℕ} (h : ((n - 1 : ℕ) : ℤ) * p ≤ d) :
    (n : ℚ) ≤ (d : ℚ) / p + 1 := by
  have hp' : (0 : ℚ) < p := Int.cast_pos.mpr hp
  have hcast : ((n - 1 : ℕ) : ℚ) * p ≤ d := by exact_mod_cast h
  have hle : ((n - 1 : ℕ) : ℚ) ≤ d / p := (le_div_iff₀ hp').mpr hcast
  have hn : (n : ℚ) ≤ ((n - 1 : ℕ) : ℚ) + 1 := by exact_mod_cast Nat.le_add_of_sub_le le_rfl
  linarith

/-- **The flood never exceeds its offered load.**  Whatever the clock shows and whichever
sends fail: the packets tried up to a reading are at most the intervals since the start, and
one more; those after one reading and up to a later one are at most the intervals in between
with 50 ms added, and one more. -/
theorem floodRun_load {perPktNs : ℤ} (hp : 0 < perPktNs) (t0 deadline : ℤ)
    (rounds : List (ℤ × Bool)) :
    (∀ (k : ℕ) (t : ℤ), (floodAttempts perPktNs t0 deadline rounds)[k]? = some t →
      ((k + 1 : ℕ) : ℚ) ≤ ((t - t0 : ℤ) : ℚ) / perPktNs + 1) ∧
    ∀ (i j : ℕ) (ti tj : ℤ), i < j →
      (floodAttempts perPktNs t0 deadline rounds)[i]? = some ti →
      (floodAttempts perPktNs t0 deadline rounds)[j]? = some tj →
      ((j - i : ℕ) : ℚ) ≤ ((tj - ti + 50000000 : ℤ) : ℚ) / perPktNs + 1 := by
  have hpaced : Paced perPktNs 50000000 t0 (floodAttempts perPktNs t0 deadline rounds) :=
    floodRun_paced hp deadline rounds { nextTx := t0 }
  constructor
  · intro k t hk
    -- between two attempts the schedule moved on by their number
    have hle := hpaced.nsmul_le hk
    rw [nsmul_eq_mul] at hle
    exact le_div_add_one hp (le_sub_iff_add_le'.mpr hle)
  · intro i j ti tj hij hi hj
    have hle := hpaced.window hij hi hj
    rw [nsmul_eq_mul] at hle
    exact le_div_add_one hp hle

/-- A stall of a second at an interval of 10 ms: the schedule is reset, and two packets go out
at once, not a hundred. -/
theorem floodRun_load_stall :
    let rounds := (0, true) :: List.replicate 12 ((1000000000 : ℤ), true)
    floodAttempts 10000000 0 2000000000 rounds
        = [0, 1000000000, 1000000000] ∧
      ((2 - 1 : ℕ) : ℚ) ≤ ((1000000000 - 1000000000 + 50000000 : ℤ) : ℚ) / (10000000 : ℤ) + 1 :=
  ⟨by decide, (floodRun_load (show (0 : ℤ) < 10000000 by decide) 0 2000000000
    ((0, true) :: List.replicate 12 ((1000000000 : ℤ), true))).2 1 2 _ _ (by decide) (by decide)
    (by decide)⟩

end TsPacket
