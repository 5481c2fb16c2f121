import TsPacket.Analysis.Metrics
import TsPacket.Workload.Listener

/-!
# Loss accounting

The three programs together: the talker numbers its datagrams and sends some of them, the
network delivers what it will of those, in any order and as often as it will, the listener
records what arrives, and `loss_summary` is asked about the recorded numbers.

## Main definitions

* `Delivery` — a datagram that was sent, as it arrives.
* `LossAccounted` — what the counts of deliveries say of them.
* `LossSummary.Shows` — the floats of a summary and the counts.

## Main results

* `listen_deliveries` — the recorded column is the numbers delivered.
* `loss_accounting` — **the summary accounts for what was delivered.**
-/

namespace TsPacket

open RunningMax

/-- A delivery of a datagram that a run sent. -/
structure Delivery (run : TalkerRun) where
  number : ℕ
  received : Received
  sent : (number, received.data) ∈ run.wire
  wholeTos : received.WholeTos

/-- What the counts of a run of `count` packets say of the numbers delivered. -/
structure LossAccounted (count : ℕ) (numbers : List ℕ) (s : LossCounts) : Prop where
  unique : s.unique = numbers.dedup.length
  duplicates : s.duplicates = numbers.length - numbers.dedup.length
  reorders : s.reorders = ((List.range numbers.length).countP fun i => IsLate numbers i : ℕ)
  reorders_of_ordered : numbers.Pairwise (· ≤ ·) → s.reorders = 0
  expected_le : s.expected ≤ count
  lost_nonneg : 0 ≤ s.lost
  lost_le : s.lost ≤ count - s.unique
  lost_eq_iff : s.lost = count - s.unique ↔ count - 1 ∈ numbers
  /-- Another delivery of a packet that came already leaves the loss as it is. -/
  lost_of_same : ∀ numbers' : List ℕ, (∀ k, k ∈ numbers' ↔ k ∈ numbers) →
    (lossCounts (numbers'.map (Nat.cast : ℕ → ℤ))).lost = s.lost

/-- The loss is what is missing below the largest number. -/
theorem lost_of_same_numbers {numbers numbers' : List ℕ} (hne : numbers ≠ [])
    (hsame : ∀ k, k ∈ numbers' ↔ k ∈ numbers) :
    (lossCounts (numbers'.map (Nat.cast : ℕ → ℤ))).lost
      = (lossCounts (numbers.map (Nat.cast : ℕ → ℤ))).lost := by
  obtain ⟨top, hmem, hmax⟩ := exists_top hne
  obtain ⟨-, -, -, hlost, -, -⟩ := lossCounts_natCast hmem hmax
  obtain ⟨-, -, -, hlost', -, -⟩ := lossCounts_natCast ((hsame top).mpr hmem)
    fun k hk => hmax k ((hsame k).mp hk)
  have hset : numbers'.toFinset = numbers.toFinset := by
    ext k
    rw [List.mem_toFinset, List.mem_toFinset]
    exact hsame k
  rw [hlost, hlost', length_dedup_eq_card, length_dedup_eq_card, hset]

/-- **The counts of numbers below `count`** account for them. -/
theorem lossAccounted_natCast {count : ℕ} {numbers : List ℕ} (hne : numbers ≠ [])
    (hlt : ∀ k ∈ numbers, k < count) :
    LossAccounted count numbers (lossCounts (numbers.map (Nat.cast : ℕ → ℤ))) := by
  obtain ⟨top, hmem, hmax⟩ := exists_top hne
  obtain ⟨hexp, -, huniq, hlost, hdup, hreord⟩ := lossCounts_natCast hmem hmax
  have htop : top < count := hlt top hmem
  have hmissing := lost_eq_card_missing hmax
  refine ⟨huniq, hdup, ?_, fun hord => ?_, ?_, ?_, ?_, ?_, fun numbers' hsame => ?_⟩
  · rw [hreord, late_eq_countP]
  · rw [hreord, late_of_pairwise hord]
    rfl
  · rw [hexp]
    omega
  · rw [hlost]
    omega
  · rw [hlost, huniq]
    omega
  · -- the loss is exact when the largest number seen is the last one sent
    rw [hlost, huniq]
    constructor
    · intro heq
      have hlast : count - 1 = top := by omega
      rw [hlast]
      exact hmem
    · intro hlast
      have hle := hmax _ hlast
      omega
  · exact lost_of_same_numbers hne hsame

/-- The floats that `loss_summary` makes of the counts: what is counted of the packets is
kept, and what is counted of the deliveries if these are fewer than `2 ^ 53`. -/
structure LossSummary.Shows (s : LossSummary) (c : LossCounts) (deliveries : ℕ) : Prop where
  expected : s.expected = c.expected
  unique : s.unique = c.unique
  lost : s.lost = c.lost
  exact : deliveries < 2 ^ 53 → s.Exact c

/-- **The summary of numbers below `count`** shows their counts. -/
theorem shows_lossSummary {count : ℕ} {numbers : List ℕ} (hcount : count ≤ 2 ^ 32)
    (hne : numbers ≠ []) (hlt : ∀ k ∈ numbers, k < count) :
    (lossSummary (numbers.map (Nat.cast : ℕ → ℤ))).Shows
      (lossCounts (numbers.map (Nat.cast : ℕ → ℤ))) numbers.length := by
  have hbounded := bounded_lossCounts numbers
  have hle := (lossAccounted_natCast hne hlt).expected_le
  have hkept : ∀ {z : ℤ}, 0 ≤ z ∧ z ≤ (lossCounts (numbers.map (Nat.cast : ℕ → ℤ))).expected →
      Binary64.nearest z = z := by
    intro z hz
    exact Binary64.nearest_intCast (by rw [abs_of_nonneg hz.1]; omega)
  refine ⟨hkept ⟨hbounded.lost.1.trans hbounded.lost.2, le_rfl⟩, hkept hbounded.unique,
    hkept hbounded.lost, fun hrows => ?_⟩
  apply hbounded.exact
  · omega
  · rw [lossCounts_received, List.length_map]
    exact_mod_cast hrows

section

variable {F : Type} (fl : PyText.FloatOps F) (args : ListenerArgs)

/-- **The recorded column is the numbers delivered**, in the order they came. -/
theorem listen_deliveries {size : ℤ} {clock : ℕ → ℕ} {sendOk : ℕ → Bool} {count : ℕ}
    {run : TalkerRun} (hcount : count ≤ 2 ^ 32) (hclock : ∀ k < count, clock k < 2 ^ 64)
    (hrun : talkerRun size clock sendOk count = some run) (ds : List (Delivery run)) :
    (∀ k ∈ ds.map Delivery.number, k < count) ∧
    ∃ st, listen fl args (ds.map fun d => .datagram d.received) {} = some st ∧
      st.results.map Row.seq = ds.map Delivery.number := by
  obtain ⟨run', hrun', hwire, -, -⟩ := talkerRun_eq size clock sendOk count hcount hclock
  obtain rfl : run = run' := Option.some.inj (hrun.symm.trans hrun')
  -- what arrives was sent, so it is the datagram of its number
  have hsent : ∀ d : Delivery run,
      d.number < count ∧ d.received.data = datagram size clock d.number := by
    intro d
    have hd := d.sent
    rw [hwire] at hd
    obtain ⟨k, hk, heq⟩ := List.mem_map.mp hd
    obtain ⟨hnum, hdata⟩ := Prod.mk.inj heq
    rw [← hnum, ← hdata]
    exact ⟨List.mem_range.mp (List.mem_filter.mp hk).1, rfl⟩
  refine ⟨fun k hk => ?_, ?_⟩
  · obtain ⟨d, -, rfl⟩ := List.mem_map.mp hk
    exact (hsent d).1
  · obtain ⟨st, hst, hfields⟩ := listen_datagrams fl args (ds.map Delivery.received) {} (by
      intro m hm
      obtain ⟨d, -, rfl⟩ := List.mem_map.mp hm
      rw [(hsent d).2]
      exact ⟨d.wholeTos, length_datagram size clock d.number⟩)
    rw [List.map_map] at hst hfields
    refine ⟨st, hst, ?_⟩
    have hnum : ∀ d : Delivery run, d.received.fields.1 = d.number := by
      intro d
      obtain ⟨hlt, hdata⟩ := hsent d
      rw [Received.fields, hdata, unpackHeader_datagram size (Nat.lt_of_lt_of_le hlt hcount)
        (hclock _ hlt)]
    calc st.results.map Row.seq = (st.results.map Row.fields).map Prod.fst := by
          rw [List.map_map]; rfl
      _ = (ds.map (Received.fields ∘ Delivery.received)).map Prod.fst := by
          rw [hfields]; rfl
      _ = ds.map Delivery.number := by
          rw [List.map_map]
          exact List.map_congr_left fun d _ => hnum d

/-- **The summary accounts for what was delivered**, whichever sends failed and whatever
the network lost, repeated and reordered. -/
theorem loss_accounting (size : ℤ) (clock : ℕ → ℕ) (sendOk : ℕ → Bool) {count : ℕ}
    (hcount : 1 ≤ count ∧ count ≤ 2 ^ 32) (hclock : ∀ k < count, clock k < 2 ^ 64) :
    ∃ run, talkerRun size clock sendOk count = some run ∧
      ∀ ds : List (Delivery run), ds ≠ [] →
        ∃ st, listen fl args (ds.map fun d => .datagram d.received) {} = some st ∧
          LossAccounted count (ds.map Delivery.number)
            (lossCounts (st.results.map fun r => (r.seq : ℤ))) ∧
          (lossSummary (st.results.map fun r => (r.seq : ℤ))).Shows
            (lossCounts (st.results.map fun r => (r.seq : ℤ))) ds.length := by
  obtain ⟨run, hrun, -⟩ := talkerRun_eq size clock sendOk count hcount.2 hclock
  refine ⟨run, hrun, fun ds hne => ?_⟩
  obtain ⟨hlt, st, hst, hseq⟩ := listen_deliveries fl args hcount.2 hclock hrun ds
  -- the recorded numbers are those delivered, in their order
  have hcolumn : (st.results.map fun r => (r.seq : ℤ))
      = (ds.map Delivery.number).map (Nat.cast : ℕ → ℤ) := by
    rw [← hseq, List.map_map]
    rfl
  have hnumbers : ds.map Delivery.number ≠ [] := mt List.map_eq_nil_iff.mp hne
  have hshows := shows_lossSummary hcount.2 hnumbers hlt
  rw [List.length_map] at hshows
  refine ⟨st, hst, ?_⟩
  rw [hcolumn]
  exact ⟨lossAccounted_natCast hnumbers hlt, hshows⟩

end

/-- Four packets of which the second is not sent: the last one comes first, then the first
one twice, and the third is lost. -/
theorem loss_accounting_four :
    ∃ run, talkerRun 64 (fun k => 1000000 * k) (fun k => k != 1) 4 = some run ∧
      ∃ ds : List (Delivery run), ds.map Delivery.number = [3, 0, 0] ∧
        ∃ st, listen PyText.FloatOps.whole
            { expectedIntervalNs := 1000000, recordTos := true, kernelTs := false }
            (ds.map fun d => .datagram d.received) {} = some st ∧
          LossAccounted 4 [3, 0, 0] (lossCounts (st.results.map fun r => (r.seq : ℤ))) ∧
          (lossSummary (st.results.map fun r => (r.seq : ℤ))).Shows
            (lossCounts (st.results.map fun r => (r.seq : ℤ))) 3 := by
  obtain ⟨run, hrun, hall⟩ := loss_accounting PyText.FloatOps.whole
    { expectedIntervalNs := 1000000, recordTos := true, kernelTs := false } 64
    (fun k => 1000000 * k) (fun k => k != 1) (show 1 ≤ 4 ∧ 4 ≤ 2 ^ 32 by decide)
    (by intro k hk; omega)
  -- the send of packet 1 fails, so three datagrams leave
  have hwire : run.wire = [0, 2, 3].map fun k => (k, datagram 64 (fun k => 1000000 * k) k) := by
    rw [← Option.some.inj hrun]
    decide
  have hsent : ∀ k ∈ [0, 2, 3], (k, datagram 64 (fun k => 1000000 * k) k) ∈ run.wire := by
    intro k hk
    rw [hwire]
    exact List.mem_map_of_mem hk
  have htos : ∀ (data : List Bytes.Byte) (recvNs : ℕ), Received.WholeTos ⟨data, [], recvNs⟩ :=
    fun _ _ c hc => absurd hc List.not_mem_nil
  exact ⟨run, hrun, [⟨3, ⟨_, [], 3000500⟩, hsent 3 (by decide), htos _ _⟩,
    ⟨0, ⟨_, [], 3000600⟩, hsent 0 (by decide), htos _ _⟩,
    ⟨0, ⟨_, [], 3000700⟩, hsent 0 (by decide), htos _ _⟩], rfl, hall _ (List.cons_ne_nil _ _)⟩

end TsPacket
