import TsPacket.Bpf.TsClassifier

/-!
# Accounting over a run

`prio_probe` of `bpf/src/prio_probe.c`, and the run of packets through the classifier
and the probe behind it.  A packet bumps one counter for its reason, perhaps one more for
the mark, and one bucket; the configuration may change between any two packets.  Counting
a whole run is then counting the packets it saw, one predicate per counter.

## Main definitions

* `prioProbe` — the histogram of priorities.
* `NicState`, `NicEvent`, `run` — the maps of both programs, what can happen, and a
  whole run with the log of its packets.
* `Passage` — a packet with the CPU and the maps it met.

## Main results

* `step_spec` — what one packet adds to the maps.
* `run_bumps` — what a run adds, as increments in order.
* `total_counter`, `total_marked`, `total_bucket` — **a total is the number of packets
  of its kind**.
-/

namespace TsPacket

open Bytes

variable {ncpu : ℕ}

/-! ### The probe -/

/-- `PRIO_HIST_BUCKETS`: the last bucket takes every priority from 15 on. -/
abbrev prioHistBuckets : ℕ := 16

/-- The bucket of a priority. -/
def prioBucket (priority : U32) : Fin prioHistBuckets :=
  if h : priority.toNat < prioHistBuckets then ⟨priority.toNat, h⟩ else 15

/-- One run of the probe: the return value and the map.  The packet is only read. -/
def prioProbe (cpu : Fin ncpu) (prioHist : PercpuArray ncpu prioHistBuckets) (skb : Skb) :
    TcAct × PercpuArray ncpu prioHistBuckets :=
  (tcActUnspec, prioHist.incr cpu (prioBucket skb.priority))

/-! ### Runs -/

/-- The maps of the two programs. -/
structure NicState (ncpu : ℕ) where
  clsf : ClsfMaps ncpu
  prioHist : PercpuArray ncpu prioHistBuckets

/-- Both programs just loaded. -/
def NicState.init (ncpu : ℕ) : NicState ncpu where
  clsf := .init ncpu
  prioHist := .zero ncpu prioHistBuckets

/-- What can happen: a packet on a CPU, or a change of the configuration. -/
inductive NicEvent (ncpu : ℕ)
  | packet (cpu : Fin ncpu) (skb : Skb)
  | setTsConfig (cfg : TsConfig)
  | setTsUdpPort (port : U16) (present : Bool)

/-- A packet as it came, with the CPU and the maps it met. -/
structure Passage (ncpu : ℕ) where
  cpu : Fin ncpu
  maps : ClsfMaps ncpu
  skb : Skb

/-- One event: the maps it leaves, and the packet if it is one.  The probe is the next
filter, so it runs on `TC_ACT_UNSPEC`. -/
def step (K : Kernel) (st : NicState ncpu) :
    NicEvent ncpu → Option (NicState ncpu × List (Passage ncpu))
  | .packet cpu skb => do
    let (verdict, clsf, skb') ← tsClassifier K cpu st.clsf skb
    let prioHist :=
      if verdict = tcActUnspec then (prioProbe cpu st.prioHist skb').2 else st.prioHist
    some ({ clsf := clsf, prioHist := prioHist }, [⟨cpu, st.clsf, skb⟩])
  | .setTsConfig cfg => some ({ st with clsf := { st.clsf with tsConfig := some cfg } }, [])
  | .setTsUdpPort port present =>
    some ({ st with clsf := { st.clsf with
      tsUdpPorts := Function.update st.clsf.tsUdpPorts port present } }, [])

/-- A run, with its packets in order. -/
def run (K : Kernel) : NicState ncpu → List (NicEvent ncpu) →
    Option (NicState ncpu × List (Passage ncpu))
  | st, [] => some (st, [])
  | st, e :: es => do
    let (st, ps) ← step K st e
    let (st, qs) ← run K st es
    some (st, ps ++ qs)

/-- The packets of a list of events. -/
def packets (es : List (NicEvent ncpu)) : List (Fin ncpu × Skb) :=
  es.flatMap fun
    | .packet cpu skb => [(cpu, skb)]
    | _ => []

/-! ### What is counted of a packet -/

namespace Passage

variable (K : Kernel) (p : Passage ncpu)

/-- The packet the classifier lets out; as it came if there is none. -/
def out : Skb := ((tsClassifier K p.cpu p.maps p.skb).map fun r => r.2.2).getD p.skb

/-- The priority it leaves with, had it come with `priority`. -/
def outPriority (priority : U32) : U32 :=
  out K { p with skb := { p.skb with priority := priority } } |>.priority

/-- The classifier sets the priority: it leaves with the same one whichever it came with. -/
def PrioritySet : Prop := ∀ a b : U32, outPriority K p a = outPriority K p b

/-- The bytes it leaves with are not those it came with. -/
def BytesChanged : Prop := (out K p).data ≠ p.skb.data

instance : Decidable (BytesChanged K p) := inferInstanceAs (Decidable (_ ≠ _))

/-- The verdict of the parser on it. -/
def verdict : Bool × ParseResult := TsPacket.verdict p.skb p.maps.cfg p.maps.tsUdpPorts

/-- The counter it bumps. -/
def reason : TsCounter := p.verdict.2.reason

/-- The increments of `ts_counters` it causes. -/
def bumps : List (Fin ncpu × Fin cntMax) :=
  (p.cpu, p.reason.idx) ::
    if BytesChanged K p then [(p.cpu, TsCounter.dscpMarked.idx)] else []

/-- The increment of `prio_hist` it causes. -/
def histBump : Fin ncpu × Fin prioHistBuckets := (p.cpu, prioBucket (out K p).priority)

variable {K} {p}

theorem verdict_eq {ts : Bool} {pr : ParseResult}
    (hc : classify p.skb p.maps.cfg p.maps.tsUdpPorts {} = some (ts, pr)) :
    p.verdict = (ts, pr) := by
  rw [classify_eq_verdict] at hc
  exact Option.some.inj hc

theorem out_eq {r : TcAct} {maps' : ClsfMaps ncpu} {skb' : Skb}
    (hrun : tsClassifier K p.cpu p.maps p.skb = some (r, maps', skb')) : out K p = skb' := by
  rw [out, hrun]
  rfl

/-- The priority is set exactly on TS packets. -/
theorem out_priority (K : Kernel) (p : Passage ncpu) : (out K p).priority
    = if p.verdict.1 = true then tsPriority p.maps.cfg else p.skb.priority := by
  obtain ⟨ts, pr, maps', skb', hc, -, hrun, hway⟩ := tsClassifier_run K p.cpu p.maps p.skb
  rw [out_eq hrun, verdict_eq hc]
  cases ts with
  | false =>
    have hskb : skb' = p.skb := hway.skb_of_not_ts
    rw [hskb, if_neg Bool.false_ne_true]
  | true => exact hway.priority_of_ts

theorem prioritySet_iff (K : Kernel) (p : Passage ncpu) :
    PrioritySet K p ↔ p.verdict.1 = true := by
  have hout : ∀ a : U32, outPriority K p a
      = if p.verdict.1 = true then tsPriority p.maps.cfg else a :=
    fun a => out_priority K { p with skb := { p.skb with priority := a } }
  constructor
  · intro h
    by_contra hno
    have h01 := h 0 1
    rw [hout, hout, if_neg hno, if_neg hno] at h01
    exact absurd h01 (by decide)
  · intro hts a b
    rw [hout, hout, if_pos hts, if_pos hts]

instance : Decidable (PrioritySet K p) := decidable_of_iff _ (prioritySet_iff K p).symm

/-- The exit the parser took on it. -/
theorem exit (p : Passage ncpu) : Exit p.skb p.maps.cfg p.maps.tsUdpPorts p.verdict :=
  verdict_exit p.skb p.maps.cfg p.maps.tsUdpPorts

/-- The counter of the marks is never a reason. -/
theorem reason_ne_dscpMarked (p : Passage ncpu) : p.reason ≠ .dscpMarked := by
  have hexit := p.exit
  rw [reason]
  generalize p.verdict = r at hexit
  cases hexit <;> exact TsCounter.noConfusion

/-- Which reasons a TS packet has. -/
theorem ts_iff_reason (p : Passage ncpu) : p.verdict.1 = true ↔
    p.reason = .tsAvtp ∨ p.reason = .tsPcp ∨ p.reason = .tsUdp := by
  have hexit := p.exit
  rw [reason]
  generalize p.verdict = r at hexit
  cases hexit <;> simp

/-- A packet whose bytes change is TS by its PCP or its port. -/
theorem reason_of_bytesChanged (h : BytesChanged K p) :
    p.reason = .tsPcp ∨ p.reason = .tsUdp := by
  obtain ⟨ts, pr, maps', skb', hc, -, hrun, hway⟩ := tsClassifier_run K p.cpu p.maps p.skb
  rw [BytesChanged, out_eq hrun] at h
  obtain ⟨-, hoff, -⟩ := hway.data_of_ne h
  have hexit := p.exit
  rw [reason]
  rw [verdict_eq hc] at hexit ⊢
  cases ts with
  | false => exact absurd (congrArg Skb.data hway.skb_of_not_ts) h
  | true =>
    cases hexit with
    -- an AVTP frame has no IPv4 header to mark
    | avtp => exact absurd rfl hoff
    | pcp => exact Or.inl rfl
    | udp => exact Or.inr rfl

/-- What one packet does to the counters. -/
theorem tsClassifier_bumps (hK : K.Exact) (hT : K.Total) (p : Passage ncpu) :
    ∃ maps' skb', tsClassifier K p.cpu p.maps p.skb = some (tcActUnspec, maps', skb') ∧
      maps'.tsCounters = p.maps.tsCounters.bumps (bumps K p) := by
  obtain ⟨ts, pr, maps', skb', hc, hexit, hrun, hway⟩ := tsClassifier_run K p.cpu p.maps p.skb
  refine ⟨maps', skb', hrun, ?_⟩
  have hreason : p.reason = pr.reason := by rw [reason, verdict_eq hc]
  have hchanged : BytesChanged K p ↔ skb'.data ≠ p.skb.data := by
    rw [BytesChanged, out_eq hrun]
  rw [bumps, PercpuArray.bumps_cons, hreason]
  simp only [hchanged]
  cases hway with
  | passed => rw [if_neg (not_not.mpr rfl)]; rfl
  | ts hmark => rw [if_neg (not_not.mpr rfl)]; rfl
  | mark hmark hoff =>
    obtain ⟨ho, h4, -⟩ := hexit.ipOff hoff
    change pr.ipOff = _ at ho
    have hfits := h4.2.2.fits
    have hmax := payloadOff_le p.skb.data
    rw [ho]
    rcases markDscp_of_total hK hT (tsDscp p.maps.cfg) (show payloadOff p.skb.data + 12
        ≤ p.skb.data.length by omega) (payloadOff_even _) (by omega)
      with ⟨-, hr⟩ | ⟨htos, bs, hbs, hr⟩
    · rw [hr, if_neg (not_not.mpr rfl)]
      rfl
    · -- the TOS byte differs, so the frame does
      have hne : overwrite (overwrite p.skb.data (payloadOff p.skb.data + 10) bs)
          (payloadOff p.skb.data + 1) [markTos (tsDscp p.maps.cfg)
            (byteAt p.skb.data (payloadOff p.skb.data + 1))] ≠ p.skb.data := by
        intro hsame
        have hbyte := congrArg (byteAt · (payloadOff p.skb.data + 1)) hsame
        rw [byteAt_overwrite_tos hbs (by omega), if_pos rfl] at hbyte
        exact htos hbyte
      simp only [hr]
      rw [if_pos (show (1 : ℤ) > 0 by decide), if_pos hne]
      rfl

end Passage

/-! ### What a run adds -/

section

variable {K : Kernel} (hK : K.Exact) (hT : K.Total)
include hK hT

/-- What one event adds to the maps. -/
theorem step_spec (st : NicState ncpu) (e : NicEvent ncpu) :
    ∃ st' ps, step K st e = some (st', ps) ∧
      ps.map (fun p => (p.cpu, p.skb)) = packets [e] ∧
      st'.clsf.tsCounters = st.clsf.tsCounters.bumps (ps.flatMap (Passage.bumps K)) ∧
      st'.prioHist = st.prioHist.bumps (ps.map (Passage.histBump K)) := by
  cases e with
  -- the egress histogram reads the priority that the classifier left
  | packet cpu skb =>
    obtain ⟨maps', skb', hrun, hbumps⟩ :=
      Passage.tsClassifier_bumps hK hT ⟨cpu, st.clsf, skb⟩
    have hout : Passage.out K ⟨cpu, st.clsf, skb⟩ = skb' := Passage.out_eq hrun
    refine ⟨{ clsf := maps', prioHist := (prioProbe cpu st.prioHist skb').2 },
      [⟨cpu, st.clsf, skb⟩], ?_, rfl, ?_, ?_⟩
    · simp only [step, hrun, Option.bind_eq_bind, Option.bind_some, if_true]
    · rw [List.flatMap_singleton]
      exact hbumps
    · rw [List.map_singleton, Passage.histBump, hout]
      rfl
  | setTsConfig cfg => exact ⟨_, _, rfl, rfl, rfl, rfl⟩
  | setTsUdpPort port present => exact ⟨_, _, rfl, rfl, rfl, rfl⟩

/-- **What a run adds to the maps**: the increments of its packets, in order. -/
theorem run_bumps : ∀ (es : List (NicEvent ncpu)) (st : NicState ncpu),
    ∃ st' log, run K st es = some (st', log) ∧
      log.map (fun p => (p.cpu, p.skb)) = packets es ∧
      st'.clsf.tsCounters = st.clsf.tsCounters.bumps (log.flatMap (Passage.bumps K)) ∧
      st'.prioHist = st.prioHist.bumps (log.map (Passage.histBump K)) := by
  intro es
  induction es with
  | nil => intro st; exact ⟨st, [], rfl, rfl, rfl, rfl⟩
  | cons e es ih =>
    intro st
    obtain ⟨st₁, ps, hstep, hps, hc, hh⟩ := step_spec hK hT st e
    obtain ⟨st₂, qs, hrun, hqs, hc', hh'⟩ := ih st₁
    refine ⟨st₂, ps ++ qs, ?_, ?_, ?_, ?_⟩
    · simp only [run, hstep, hrun, Option.bind_eq_bind, Option.bind_some]
    · rw [List.map_append, hps, hqs, packets, packets, packets, ← List.flatMap_append,
        List.singleton_append]
    · rw [hc', hc, List.flatMap_append, PercpuArray.bumps_append]
    · rw [hh', hh, List.map_append, PercpuArray.bumps_append]

end

/-! ### Counting the log -/

namespace Passage

variable {K : Kernel}

/-- A packet bumps the counter of its reason once. -/
theorem countP_bumps_reason (p : Passage ncpu) {r : TsCounter} (hr : r ≠ .dscpMarked) :
    (bumps K p).countP (fun q => q.2 = r.idx) = if p.reason = r then 1 else 0 := by
  have hmark : (if BytesChanged K p then [(p.cpu, TsCounter.dscpMarked.idx)] else []).countP
      (fun q => q.2 = r.idx) = 0 := by
    have hne : TsCounter.dscpMarked.idx ≠ r.idx := fun h => hr (TsCounter.idx_injective h).symm
    split
    · simp [hne]
    · rfl
  rw [bumps, List.countP_cons, hmark]
  simp [TsCounter.idx_injective.eq_iff]

/-- It bumps the counter of the marks if its bytes change. -/
theorem countP_bumps_marked (p : Passage ncpu) :
    (bumps K p).countP (fun q => q.2 = TsCounter.dscpMarked.idx)
      = if BytesChanged K p then 1 else 0 := by
  have hne : p.reason.idx ≠ TsCounter.dscpMarked.idx :=
    fun h => p.reason_ne_dscpMarked (TsCounter.idx_injective h)
  rw [bumps, List.countP_cons]
  split <;> simp [hne]

end Passage

/-- Counting what each element contributes, when that is one or nothing. -/
theorem countP_flatMap_ite {α β : Type} (f : α → List β) (q : β → Bool) (P : α → Prop)
    [DecidablePred P] (h : ∀ a, (f a).countP q = if P a then 1 else 0) :
    ∀ l : List α, (l.flatMap f).countP q = l.countP (fun a => decide (P a)) := by
  intro l
  induction l with
  | nil => rfl
  | cons a l ih =>
    rw [List.flatMap_cons, List.countP_append, ih, h, List.countP_cons, Nat.add_comm]
    by_cases hp : P a <;> simp [hp]

/-- Every packet has one reason. -/
theorem length_eq_countP_reasons : ∀ log : List (Passage ncpu),
    log.countP (fun p => p.reason = .normal) + log.countP (fun p => p.reason = .tsAvtp)
      + log.countP (fun p => p.reason = .tsPcp) + log.countP (fun p => p.reason = .tsUdp)
      + log.countP (fun p => p.reason = .parseShort) = log.length := by
  intro log
  induction log with
  | nil => rfl
  | cons p log ih =>
    have hne := p.reason_ne_dscpMarked
    simp only [List.countP_cons, List.length_cons]
    cases hr : p.reason with
    | dscpMarked => exact absurd hr hne
    | normal | tsAvtp | tsPcp | tsUdp | parseShort =>
      simp only [reduceCtorEq, decide_false, decide_true, Bool.false_eq_true, if_false, if_true]
      omega

/-- The packets whose priority is set are those with a TS reason. -/
theorem countP_prioritySet (K : Kernel) : ∀ log : List (Passage ncpu),
    log.countP (fun p => p.PrioritySet K)
      = log.countP (fun p => p.reason = .tsAvtp) + log.countP (fun p => p.reason = .tsPcp)
        + log.countP (fun p => p.reason = .tsUdp) := by
  intro log
  induction log with
  | nil => rfl
  | cons p log ih =>
    simp only [List.countP_cons, ih, p.prioritySet_iff K, p.ts_iff_reason]
    cases p.reason <;> simp <;> omega

/-- The packets whose bytes change are TS, and none is AVTP. -/
theorem countP_bytesChanged_le (K : Kernel) : ∀ log : List (Passage ncpu),
    log.countP (fun p => p.BytesChanged K)
      ≤ log.countP (fun p => p.reason = .tsPcp) + log.countP (fun p => p.reason = .tsUdp) := by
  intro log
  induction log with
  | nil => exact Nat.le_refl 0
  | cons p log ih =>
    simp only [List.countP_cons]
    by_cases hch : p.BytesChanged K
    · rcases Passage.reason_of_bytesChanged hch with hr | hr
      · simp [hch, hr]
        omega
      · simp [hch, hr]
        omega
    · simp only [hch, decide_false, Bool.false_eq_true, if_false]
      omega

/-! ### Totals -/

/-- The maps of a run that started from fresh ones, with its log. -/
structure Counted (K : Kernel) (st : NicState ncpu) (log : List (Passage ncpu)) : Prop where
  counters : st.clsf.tsCounters
    = (PercpuArray.zero ncpu cntMax).bumps (log.flatMap (Passage.bumps K))
  hist : st.prioHist = (PercpuArray.zero ncpu prioHistBuckets).bumps (log.map (Passage.histBump K))
  /-- Nothing wraps. -/
  bound : log.length < 2 ^ 64

namespace Counted

variable {K : Kernel} {st : NicState ncpu} {log : List (Passage ncpu)}

/-- **The total of a reason is the number of packets that have it.** -/
theorem total_counter (h : Counted K st log) {r : TsCounter} (hr : r ≠ .dscpMarked) :
    st.clsf.tsCounters.total r.idx = log.countP (fun p => p.reason = r) := by
  have hcount : (log.flatMap (Passage.bumps K)).countP (fun q => q.2 = r.idx)
      = log.countP (fun p => p.reason = r) :=
    countP_flatMap_ite _ _ _ (fun p => p.countP_bumps_reason hr) log
  rw [h.counters]
  exact PercpuArray.total_bumps_zero hcount
    (Nat.lt_of_le_of_lt List.countP_le_length h.bound)

/-- **The total of the marks is the number of packets whose bytes changed.** -/
theorem total_marked (h : Counted K st log) :
    st.clsf.tsCounters.total TsCounter.dscpMarked.idx
      = log.countP (fun p => p.BytesChanged K) := by
  have hcount : (log.flatMap (Passage.bumps K)).countP
      (fun q => q.2 = TsCounter.dscpMarked.idx) = log.countP (fun p => p.BytesChanged K) :=
    countP_flatMap_ite _ _ _ (fun p => p.countP_bumps_marked) log
  rw [h.counters]
  exact PercpuArray.total_bumps_zero hcount
    (Nat.lt_of_le_of_lt List.countP_le_length h.bound)

/-- **The total of a bucket is the number of packets that left with its priority.** -/
theorem total_bucket (h : Counted K st log) (i : Fin prioHistBuckets) :
    st.prioHist.total i = log.countP (fun p => prioBucket (p.out K).priority = i) := by
  have hcount : (log.map (Passage.histBump K)).countP (fun q => q.2 = i)
      = log.countP (fun p => prioBucket (p.out K).priority = i) := List.countP_map
  rw [h.hist]
  exact PercpuArray.total_bumps_zero hcount
    (Nat.lt_of_le_of_lt List.countP_le_length h.bound)

/-- What a later part of the run adds to the total of a reason. -/
theorem delta_counter {st' : NicState ncpu} {log' : List (Passage ncpu)} (h : Counted K st log)
    (h' : Counted K st' (log ++ log')) {r : TsCounter} (hr : r ≠ .dscpMarked) :
    (st'.clsf.tsCounters.total r.idx : ℤ) - st.clsf.tsCounters.total r.idx
      = (log'.countP (fun p => p.reason = r) : ℤ) := by
  rw [h.total_counter hr, h'.total_counter hr, List.countP_append]
  omega

theorem delta_marked {st' : NicState ncpu} {log' : List (Passage ncpu)} (h : Counted K st log)
    (h' : Counted K st' (log ++ log')) :
    (st'.clsf.tsCounters.total TsCounter.dscpMarked.idx : ℤ)
        - st.clsf.tsCounters.total TsCounter.dscpMarked.idx
      = (log'.countP (fun p => p.BytesChanged K) : ℤ) := by
  rw [h.total_marked, h'.total_marked, List.countP_append]
  omega

theorem delta_bucket {st' : NicState ncpu} {log' : List (Passage ncpu)} (h : Counted K st log)
    (h' : Counted K st' (log ++ log')) (i : Fin prioHistBuckets) :
    (st'.prioHist.total i : ℤ) - st.prioHist.total i
      = (log'.countP (fun p => prioBucket (p.out K).priority = i) : ℤ) := by
  rw [h.total_bucket, h'.total_bucket, List.countP_append]
  omega

/-- A run goes on from counted maps. -/
theorem run (hK : K.Exact) (hT : K.Total) (h : Counted K st log) (es : List (NicEvent ncpu))
    (hlt : log.length + (packets es).length < 2 ^ 64) :
    ∃ st' log', TsPacket.run K st es = some (st', log') ∧
      log'.map (fun p => (p.cpu, p.skb)) = packets es ∧ Counted K st' (log ++ log') := by
  obtain ⟨st', log', hrun, hlog, hc, hh⟩ := run_bumps hK hT es st
  have hlen : log'.length = (packets es).length := by rw [← hlog, List.length_map]
  refine ⟨st', log', hrun, hlog, ?_, ?_, ?_⟩
  · rw [hc, h.counters, List.flatMap_append, PercpuArray.bumps_append]
  · rw [hh, h.hist, List.map_append, PercpuArray.bumps_append]
  · rw [List.length_append, hlen]
    exact hlt

theorem init (K : Kernel) (ncpu : ℕ) : Counted K (NicState.init ncpu) [] :=
  ⟨rfl, rfl, by rw [List.length_nil]; omega⟩

end Counted

/-- The buckets add up to the packets. -/
theorem sum_countP_bucket (f : Passage ncpu → Fin prioHistBuckets) :
    ∀ log : List (Passage ncpu), ∑ i, log.countP (fun p => f p = i) = log.length := by
  intro log
  induction log with
  | nil => simp
  | cons p log ih =>
    -- a packet is in exactly one bucket
    have hone : ∑ i, (if decide (f p = i) = true then 1 else 0) = 1 := by
      simp only [decide_eq_true_eq]
      rw [Finset.sum_ite_eq, if_pos (Finset.mem_univ _)]
    simp only [List.countP_cons, List.length_cons]
    rw [Finset.sum_add_distrib, ih, hone]

theorem prioBucket_six : prioBucket 6 = 6 := by decide

theorem prioBucket_zero : prioBucket 0 = 0 := by decide

/-- Where packets come with priority 0 under the default, TS packets are those in bucket 6
and all others are in bucket 0. -/
theorem prioBucket_out {K : Kernel} {p : Passage ncpu} (h0 : p.skb.priority = 0)
    (hcfg : p.maps.cfg.priority = 0) :
    prioBucket (p.out K).priority = if p.verdict.1 = true then 6 else 0 := by
  rw [p.out_priority K, h0, tsPriority, if_neg (not_not.mpr hcfg)]
  by_cases hts : p.verdict.1 = true
  · rw [if_pos hts, if_pos hts]
    exact prioBucket_six
  · rw [if_neg hts, if_neg hts]
    exact prioBucket_zero

/-- Then the histogram tells TS packets from the others. -/
theorem countP_prioBucket_out {K : Kernel} : ∀ log : List (Passage ncpu),
    (∀ p ∈ log, p.skb.priority = 0 ∧ p.maps.cfg.priority = 0) →
    log.countP (fun p => prioBucket (p.out K).priority = 6)
        = log.countP (fun p => p.reason = .tsAvtp) + log.countP (fun p => p.reason = .tsPcp)
          + log.countP (fun p => p.reason = .tsUdp) ∧
      log.countP (fun p => prioBucket (p.out K).priority = 0)
        = log.countP (fun p => p.reason = .normal)
          + log.countP (fun p => p.reason = .parseShort) := by
  intro log
  induction log with
  | nil => intro _; exact ⟨rfl, rfl⟩
  | cons p log ih =>
    intro h
    obtain ⟨h0, hcfg⟩ := h p List.mem_cons_self
    obtain ⟨h6, hz⟩ := ih fun q hq => h q (List.mem_cons_of_mem p hq)
    have hne := p.reason_ne_dscpMarked
    have hts := p.ts_iff_reason
    -- a packet falls in the bucket its reason says, 6 or 0
    simp only [List.countP_cons, h6, hz, prioBucket_out (K := K) h0 hcfg]
    cases hr : p.reason with
    -- no verdict has the reason of the marking
    | dscpMarked => exact absurd hr hne
    | normal | parseShort =>
      rw [hr] at hts
      simp only [reduceCtorEq, or_self, iff_false] at hts
      simp [hts]
      omega
    | tsAvtp | tsPcp | tsUdp =>
      rw [hr] at hts
      simp only [reduceCtorEq, or_self, or_true, true_or, iff_true] at hts
      simp [hts]
      omega

end TsPacket
