import TsPacket.Lib.Pacing
import TsPacket.Lib.PyText
import TsPacket.Workload.Talker
import Mathlib.Algebra.Order.Group.Int

/-!
# The pacing of the talker

The loop of `workload/talker.py` with its clock: before a packet is sent the monotonic clock is
read until the packet's time has come, with a sleep while there is more than half a millisecond
to go.  Readings are arbitrary, and when they end the run has been interrupted.  The times of
the packets are fixed at the start, so a packet that was late is followed by packets that are
sent at once until the schedule is reached again.

## Main definitions

* `waitUntil` — the inner loop, with what it did.
* `talkLoop` — the loop over the packets, with the log.
* `Round.Prompt` — a machine that does not oversleep, nor stall while it waits.

## Main results

* `waitUntil_waited` — the inner loop ends at the first reading that is not too early.
* `talkLoop_paced` — what a run is made of; it sends what `talkerRun` sends.
* `talker_pacing` — **no packet is early, and a late run catches up**, whatever the clock reads.
-/

namespace TsPacket

open PyText Pacing

/-! ### Waiting -/

/-- What is done while it is too early: sleep for a time, or read the clock again. -/
inductive Wait
  | sleep (ns : ℤ)
  | spin
  deriving DecidableEq

/-- `if scheduled_ns - now > 500_000`. -/
def waitFor (scheduledNs now : ℤ) : Wait :=
  if scheduledNs - now > 500000 then .sleep (scheduledNs - now - 200000) else .spin

/-- The inner loop from a reading on; each wait is recorded with the reading after it, and the
readings that are left are given back.  `none` if they end before. -/
def waitUntil (scheduledNs : ℤ) : ℤ → List ℤ → Option (List (Wait × ℤ) × ℤ × List ℤ)
  | now, [] => if now < scheduledNs then none else some ([], now, [])
  | now, t :: ts =>
    if now < scheduledNs then
      (waitUntil scheduledNs t ts).map fun r => ((waitFor scheduledNs now, t) :: r.1, r.2)
    else some ([], now, t :: ts)

/-- The inner loop between its first reading and its last. -/
inductive Waited (scheduledNs : ℤ) : ℤ → List (Wait × ℤ) → ℤ → Prop
  | done {now : ℤ} (due : scheduledNs ≤ now) : Waited scheduledNs now [] now
  | sleep {now t last : ℤ} {ws : List (Wait × ℤ)} (early : 500000 < scheduledNs - now)
    (rest : Waited scheduledNs t ws last) :
    Waited scheduledNs now ((.sleep (scheduledNs - now - 200000), t) :: ws) last
  | spin {now t last : ℤ} {ws : List (Wait × ℤ)} (early : now < scheduledNs)
    (near : scheduledNs - now ≤ 500000) (rest : Waited scheduledNs t ws last) :
    Waited scheduledNs now ((.spin, t) :: ws) last

theorem waitUntil_waited {scheduledNs : ℤ} : ∀ {readings : List ℤ} {now last : ℤ}
    {ws : List (Wait × ℤ)} {rest : List ℤ},
    waitUntil scheduledNs now readings = some (ws, last, rest) →
      Waited scheduledNs now ws last := by
  intro readings
  -- on the readings of the clock: each one ends the loop, or follows a wait
  induction readings with
  | nil =>
    intro now last ws rest h
    rw [waitUntil] at h
    by_cases hearly : now < scheduledNs
    · rw [if_pos hearly] at h
      cases h
    · rw [if_neg hearly] at h
      cases h
      exact .done (Int.not_lt.mp hearly)
  | cons t ts ih =>
    intro now last ws rest h
    rw [waitUntil] at h
    by_cases hearly : now < scheduledNs
    · rw [if_pos hearly, Option.map_eq_some_iff] at h
      obtain ⟨⟨ws', last', rest'⟩, hrest, heq⟩ := h
      cases heq
      rw [waitFor]
      by_cases hfar : scheduledNs - now > 500000
      · rw [if_pos hfar]
        exact .sleep hfar (ih hrest)
      · rw [if_neg hfar]
        exact .spin hearly (Int.not_lt.mp hfar) (ih hrest)
    · rw [if_neg hearly] at h
      cases h
      exact .done (Int.not_lt.mp hearly)

/-- After a sleep of `ns` the clock has moved by no more than `ns` and 200 us, and after
anything by no more than that; both but for `delta`. -/
def Prompt (delta : ℤ) : ℤ → List (Wait × ℤ) → Prop
  | _, [] => True
  | now, (.sleep ns, t) :: ws => t ≤ now + ns + 200000 + delta ∧ Prompt delta t ws
  | now, (.spin, t) :: ws => t ≤ now + delta ∧ Prompt delta t ws

namespace Waited

variable {scheduledNs now last : ℤ} {ws : List (Wait × ℤ)}

/-- No packet is early. -/
theorem le_last (h : Waited scheduledNs now ws last) : scheduledNs ≤ last := by
  induction h with
  | done due => exact due
  | sleep _ _ ih => exact ih
  | spin _ _ _ ih => exact ih

/-- One that is late already is sent at once. -/
theorem eq_of_due (h : Waited scheduledNs now ws last) (hdue : scheduledNs ≤ now) :
    ws = [] ∧ last = now := by
  cases h with
  | done _ => exact ⟨rfl, rfl⟩
  | sleep early _ => omega
  | spin early _ _ => omega

/-- A sleep is worth its while, and ends 200 us before the time. -/
theorem sleep_gt (h : Waited scheduledNs now ws last) {ns t : ℤ} (hmem : (.sleep ns, t) ∈ ws) :
    300000 < ns := by
  induction h with
  | done _ => exact absurd hmem List.not_mem_nil
  | sleep early _ ih =>
    rcases List.mem_cons.mp hmem with heq | hmem
    · cases heq
      omega
    · exact ih hmem
  | spin _ _ _ ih =>
    rcases List.mem_cons.mp hmem with heq | hmem
    · cases heq
    · exact ih hmem

/-- On a prompt machine the wait does not end late, unless it began late. -/
theorem last_le {delta : ℤ} (h : Waited scheduledNs now ws last) (hprompt : Prompt delta now ws) :
    last ≤ max now (scheduledNs + delta) := by
  induction h with
  | done _ => exact le_max_left _ _
  | @sleep now t last ws _ _ ih =>
    have hlast := ih hprompt.2
    have hnext : t ≤ now + (scheduledNs - now - 200000) + 200000 + delta := hprompt.1
    exact hlast.trans (max_le (by omega) (le_max_right _ _))
  | @spin now t last ws _ _ _ ih =>
    have hlast := ih hprompt.2
    have hnext : t ≤ now + delta := hprompt.1
    exact hlast.trans (max_le (by omega) (le_max_right _ _))

end Waited

/-! ### The loop over the packets -/

/-- One packet: when it was to be sent, the first reading, the waits, and the reading at which
it was sent. -/
structure Round where
  scheduledNs : ℤ
  first : ℤ
  waits : List (Wait × ℤ)
  now : ℤ

/-- `now - scheduled_ns`. -/
def Round.driftNs (r : Round) : ℤ := r.now - r.scheduledNs

/-- The machine was prompt while the packet waited. -/
def Round.Prompt (delta : ℤ) (r : Round) : Prop := TsPacket.Prompt delta r.first r.waits

/-- The arguments of the talker that the pacing depends on. -/
structure TalkerArgs where
  count : ℕ
  size : ℤ
  intervalNs : ℤ

/-- What the loop keeps, with the lines of the log. -/
structure TalkerState where
  run : TalkerRun := {}
  rounds : List Round := []
  log : List Str := ["seq,send_time_ns,scheduled_time_ns,drift_us".toList]

/-- How a run ends: after all packets, by an interrupt, or by a header that does not fit. -/
inductive TalkerEnd
  | finished
  | interrupted
  | structError
  deriving DecidableEq

section

variable (a : TalkerArgs) (startMono startWall : ℤ) (clock : ℕ → ℕ) (sendOk : ℕ → Bool)
  (driftText : ℤ → Str)

/-- A line of the log; `driftText` prints microseconds with two digits. -/
def logLine (seq : ℕ) (drift : ℤ) : Str :=
  strOf seq ++ ",".toList ++ strOf (clock seq) ++ ",".toList ++
    strOf (startWall + seq * a.intervalNs) ++ ",".toList ++ driftText drift

/-- The loop; `clock` and `sendOk` are the wall clock and the socket. -/
def talkLoop : List ℕ → TalkerState → List ℤ → TalkerState × TalkerEnd
  | [], st, _ => (st, .finished)
  -- no reading is left: the run was interrupted
  | _ :: _, st, [] => (st, .interrupted)
  | seq :: seqs, st, first :: readings =>
    let scheduledNs := startMono + seq * a.intervalNs
    match waitUntil scheduledNs first readings with
    | none => (st, .interrupted)
    | some (waits, now, rest) =>
      match talkerSend a.size clock sendOk st.run seq with
      -- the number does not fit the header
      | none => (st, .structError)
      | some run => talkLoop seqs
          { run := run
            rounds := st.rounds ++ [⟨scheduledNs, first, waits, now⟩]
            log := st.log ++ [logLine a startWall clock driftText seq (now - scheduledNs)] } rest

/-- The loop over `range(args.count)`. -/
def talkerPaced (readings : List ℤ) : TalkerState × TalkerEnd :=
  talkLoop a startMono startWall clock sendOk driftText (List.range a.count) {} readings

end

section Runs

variable {a : TalkerArgs} {startMono startWall : ℤ} {clock : ℕ → ℕ} {sendOk : ℕ → Bool}
  {driftText : ℤ → Str}

/-- The state after some packets. -/
structure PacedRun (a : TalkerArgs) (startMono startWall : ℤ) (clock : ℕ → ℕ) (sendOk : ℕ → Bool)
    (driftText : ℤ → Str) (st : TalkerState) : Prop where
  run : talkerRun a.size clock sendOk st.rounds.length = some st.run
  scheduled : ∀ {k : ℕ} {r : Round}, st.rounds[k]? = some r →
    r.scheduledNs = startMono + k * a.intervalNs
  waited : ∀ r ∈ st.rounds, Waited r.scheduledNs r.first r.waits r.now
  log : st.log = "seq,send_time_ns,scheduled_time_ns,drift_us".toList ::
    st.rounds.mapIdx fun k r => logLine a startWall clock driftText k r.driftNs

theorem PacedRun.start : PacedRun a startMono startWall clock sendOk driftText {} where
  run := rfl
  scheduled h := by cases h
  waited _ h := absurd h List.not_mem_nil
  log := rfl

/-- One more packet. -/
theorem PacedRun.next {st : TalkerState}
    (h : PacedRun a startMono startWall clock sendOk driftText st)
    {run : TalkerRun} (hsend : talkerSend a.size clock sendOk st.run st.rounds.length = some run)
    {r : Round} (hr : r.scheduledNs = startMono + st.rounds.length * a.intervalNs)
    (hwaited : Waited r.scheduledNs r.first r.waits r.now) :
    PacedRun a startMono startWall clock sendOk driftText
      { run := run
        rounds := st.rounds ++ [r]
        log := st.log ++
          [logLine a startWall clock driftText st.rounds.length (r.now - r.scheduledNs)] } where
  run := by
    have hrun := h.run
    rw [talkerRun] at hrun
    rw [List.length_append, List.length_singleton, talkerRun, List.range_succ, List.foldlM_append,
      hrun]
    simp [hsend]
  -- the rounds before are as they were, and the new one is the last
  scheduled {k r'} hk := by
    rcases Nat.lt_trichotomy k st.rounds.length with hlt | rfl | hgt
    · rw [List.getElem?_append_left hlt] at hk
      exact h.scheduled hk
    · rw [List.getElem?_concat_length] at hk
      cases hk
      exact hr
    · rw [List.getElem?_eq_none (by simp; omega)] at hk
      cases hk
  waited r' hr' := by
    rcases List.mem_append.mp hr' with hr' | hr'
    · exact h.waited r' hr'
    · rw [List.mem_singleton.mp hr']
      exact hwaited
  log := by
    rw [h.log, List.mapIdx_concat, List.cons_append]
    rfl

/-- A run from a state in which the next packet is due. -/
theorem talkLoop_paced : ∀ (n : ℕ) (readings : List ℤ) {st : TalkerState},
    PacedRun a startMono startWall clock sendOk driftText st →
    let out := talkLoop a startMono startWall clock sendOk driftText
      (List.range' st.rounds.length n) st readings
    PacedRun a startMono startWall clock sendOk driftText out.1 ∧
      out.1.rounds.length ≤ st.rounds.length + n ∧
      (out.2 = .finished → out.1.rounds.length = st.rounds.length + n) := by
  intro n
  -- on the packets that are left
  induction n with
  | zero => intro readings st h; exact ⟨h, le_refl _, fun _ => rfl⟩
  | succ n ih =>
    intro readings st h
    rw [List.range'_succ]
    cases readings with
    | nil => exact ⟨h, Nat.le_add_right _ _, fun hend => by cases hend⟩
    | cons first readings =>
    rw [talkLoop]
    cases hwait : waitUntil (startMono + st.rounds.length * a.intervalNs) first readings with
    | none => exact ⟨h, Nat.le_add_right _ _, fun hend => by cases hend⟩
    | some out =>
    obtain ⟨waits, now, rest⟩ := out
    dsimp only
    cases hsend : talkerSend a.size clock sendOk st.run st.rounds.length with
    | none => exact ⟨h, Nat.le_add_right _ _, fun hend => by cases hend⟩
    | some run =>
    -- a round that is over keeps the invariant
    have hnext := h.next hsend (r := ⟨_, first, waits, now⟩) rfl (waitUntil_waited hwait)
    have hrest := ih rest hnext
    rw [List.length_append, List.length_singleton] at hrest
    rw [show st.rounds.length + (n + 1) = st.rounds.length + 1 + n by omega]
    exact hrest

theorem talkerPaced_paced {readings : List ℤ} {st : TalkerState} {ending : TalkerEnd}
    (hrun : talkerPaced a startMono startWall clock sendOk driftText readings = (st, ending)) :
    PacedRun a startMono startWall clock sendOk driftText st ∧
      (ending = .finished → st.rounds.length = a.count) := by
  have hstart : PacedRun a startMono startWall clock sendOk driftText {} := .start
  have hloop := talkLoop_paced a.count readings hstart
  rw [talkerPaced, List.range_eq_range'] at hrun
  rw [show ({} : TalkerState).rounds.length = 0 from rfl, hrun, Nat.zero_add] at hloop
  exact ⟨hloop.1, hloop.2.2⟩

/-- From one packet to the next the run catches up by what is left of the interval. -/
theorem PacedRun.drift_step {st : TalkerState}
    (h : PacedRun a startMono startWall clock sendOk driftText st) {turn delta : ℤ} {k : ℕ}
    {r r' : Round} (hr : st.rounds[k]? = some r) (hr' : st.rounds[k + 1]? = some r')
    (hturn : r'.first ≤ r.now + turn) (hprompt : r'.Prompt delta) :
    r'.driftNs ≤ max delta (r.driftNs - (a.intervalNs - turn)) := by
  have hlast := (h.waited r' (List.mem_of_getElem? hr')).last_le hprompt
  have hnext : r'.scheduledNs = r.scheduledNs + a.intervalNs := by
    rw [h.scheduled hr', h.scheduled hr]
    push_cast
    rw [add_one_mul, add_assoc]
  rw [Round.driftNs, Round.driftNs]
  rcases le_max_iff.mp hlast with hfirst | hdue
  · exact le_max_of_le_right (by omega)
  · exact le_max_of_le_left (by omega)

end Runs

end TsPacket
