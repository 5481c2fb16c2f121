import TsPacket.Testbed.MapTexts

/-!
# The runs of the testbed

`apply_condition` and `run_one` of `testbed/run.sh`: for every condition the queue and the
filters of the bottleneck are set up anew, while the programs and their maps stay loaded from
the first run to the last.  Before and after the workload of a run the maps are read one after
the other, and what is written to its `meta.json` are the differences.  Packets pass at any time
on any CPU, also between two of the reads.

What `tc` does to the bottleneck is a parameter; of the commands only their effect on the
filters and the queues is known (`Tc.Documented`), and any of them may fail.  So may the
programs of the workload, and the script with them (`set -e`); or it waits for a listener that
does not end (`WorkloadEnd`).

## Main definitions

* `Tc`, `Machine` — the commands, and what there is between them.
* `applyCondition`, `runOne`, `runPlan` — the functions of the script, and runs in a row up to
  the first command that fails.

## Main results

* `filters_applyCondition` — **what is set up depends on the condition alone**, not on the one
  before.
-/

namespace TsPacket

open PyText PyData JsonText Bytes

/-! ### The bottleneck -/

/-- The programs that are attached at the egress. -/
inductive Program
  | clsf
  | probeOut
  deriving DecidableEq

/-- The kinds of qdiscs, with the arguments that `tc` gets. -/
inductive QdiscKind
  | tbf (rateMbps : Str) (burstKbit latencyMs : ℕ)
  | pfifo (limit : ℕ)
  | fqCodel
  | pfifoFast
  | prio (bands : ℕ)
  deriving DecidableEq

/-- A queue as it is added, at the root or below a class of another. -/
structure Qdisc where
  parent : Option (ℕ × ℕ)
  handle : ℕ
  kind : QdiscKind
  deriving DecidableEq

/-- `tc` on the bottleneck; `none` is a command that fails. -/
structure Tc (Dev : Type) where
  /-- The filters at the egress, with their `pref`. -/
  filters : Dev → List (ℕ × Program)
  /-- The queues that were added. -/
  qdiscs : Dev → List Qdisc
  filterAdd : ℕ → Program → Dev → Option Dev
  filterDel : ℕ → Dev → Option Dev
  qdiscAdd : Qdisc → Dev → Option Dev
  qdiscReplaceRoot : QdiscKind → Dev → Option Dev
  qdiscDelRoot : Dev → Option Dev

/-- A filter goes behind those of the same or a smaller `pref`. -/
def insertFilter (pref : ℕ) (prog : Program) : List (ℕ × Program) → List (ℕ × Program)
  | [] => [(pref, prog)]
  | (pref', prog') :: fs =>
    if pref' ≤ pref then (pref', prog') :: insertFilter pref prog fs
    else (pref, prog) :: (pref', prog') :: fs

/-- What the commands do when they succeed; deleting fails only if there is nothing to
delete. -/
structure Tc.Documented {Dev : Type} (tc : Tc Dev) : Prop where
  filterAdd : ∀ {pref prog d d'}, tc.filterAdd pref prog d = some d' →
    tc.filters d' = insertFilter pref prog (tc.filters d) ∧ tc.qdiscs d' = tc.qdiscs d
  filterDel : ∀ {pref d d'}, tc.filterDel pref d = some d' →
    tc.filters d' = (tc.filters d).filter (·.1 ≠ pref) ∧ tc.qdiscs d' = tc.qdiscs d
  filterDel_none : ∀ {pref d}, tc.filterDel pref d = none → ∀ f ∈ tc.filters d, f.1 ≠ pref
  qdiscAdd : ∀ {q d d'}, tc.qdiscAdd q d = some d' →
    tc.filters d' = tc.filters d ∧ tc.qdiscs d' = tc.qdiscs d ++ [q]
  qdiscReplaceRoot : ∀ {kind d d'}, tc.qdiscReplaceRoot kind d = some d' →
    tc.filters d' = tc.filters d
  qdiscDelRoot : ∀ {d d'}, tc.qdiscDelRoot d = some d' →
    tc.filters d' = tc.filters d ∧ tc.qdiscs d' = []
  qdiscDelRoot_none : ∀ {d}, tc.qdiscDelRoot d = none → tc.qdiscs d = []

section

variable {Dev : Type} (tc : Tc Dev)

/-- `detect_qdisc`. -/
def detectQdisc (kind : QdiscKind) (d : Dev) : Bool × Dev :=
  match tc.qdiscReplaceRoot kind d with
  | some d => (true, (tc.qdiscDelRoot d).getD d)
  | none => (false, d)

/-- The queue of a condition. -/
def innerQdisc (cond : Str) : Option QdiscKind :=
  if cond = "fifo".toList then some (.pfifo 1000)
  else if cond = "fq_codel".toList then some .fqCodel
  else if cond = "pfifo_fast_noclsf".toList ∨ cond = "pfifo_fast_clsf".toList then
    some .pfifoFast
  else if cond = "prio_clsf".toList ∨ cond = "prio_noclsf".toList then some (.prio 3)
  else none

/-- `*_clsf`. -/
def endsInClsf (cond : Str) : Bool := "_clsf".toList.isSuffixOf cond

/-- The queue of a condition below a `tbf`, if there is one. -/
def addQdiscs (shaper : Bool) (rateMbps : Str) (inner : QdiscKind) (d : Dev) : Option Dev :=
  if shaper then do
    let d ← tc.qdiscAdd ⟨none, 1, .tbf rateMbps 32 200⟩ d
    tc.qdiscAdd ⟨some (1, 1), 10, inner⟩ d
  else tc.qdiscAdd ⟨none, 10, inner⟩ d

/-- `apply_condition`; `shaper` says that there is a `tbf`. -/
def applyCondition (shaper : Bool) (rateMbps cond : Str) (d : Dev) : Option Dev := do
  let d := (tc.filterDel 10 d).getD d
  let d := (tc.qdiscDelRoot d).getD d
  let inner ← innerQdisc cond
  let d ← addQdiscs tc shaper rateMbps inner d
  if endsInClsf cond then tc.filterAdd 10 .clsf d else some d

end

/-! ### Packets -/

/-- A packet that crossed the first veth, or leaves through the bottleneck. -/
inductive Seen (ncpu : ℕ)
  | ingress (cpu : Fin ncpu) (skb : Skb)
  | egress (cpu : Fin ncpu) (skb : Skb)

/-- What the script works on. -/
structure Machine (Dev : Type) (ncpu : ℕ) where
  dev : Dev
  /-- The maps of the classifier and of `probe_out`. -/
  nic : NicState ncpu
  /-- The map of `probe_in`. -/
  probeIn : PercpuArray ncpu prioHistBuckets

variable {Dev D N : Type} {ncpu : ℕ}

/-- A packet at the egress: the filters in order, each behind one that returned
`TC_ACT_UNSPEC`. -/
def egress (K : Kernel) (cpu : Fin ncpu) :
    List (ℕ × Program) → NicState ncpu → Skb → Option (NicState ncpu)
  | [], nic, _ => some nic
  | (_, .clsf) :: fs, nic, skb => do
    let (verdict, clsf, skb) ← tsClassifier K cpu nic.clsf skb
    if verdict = tcActUnspec then egress K cpu fs { nic with clsf := clsf } skb
    else some { nic with clsf := clsf }
  | (_, .probeOut) :: fs, nic, skb =>
    let (verdict, prioHist) := prioProbe cpu nic.prioHist skb
    if verdict = tcActUnspec then egress K cpu fs { nic with prioHist := prioHist } skb
    else some { nic with prioHist := prioHist }

/-- The machine after a packet. -/
def pass (K : Kernel) (tc : Tc Dev) (m : Machine Dev ncpu) : Seen ncpu → Option (Machine Dev ncpu)
  | .ingress cpu skb => some { m with probeIn := (prioProbe cpu m.probeIn skb).2 }
  | .egress cpu skb =>
    (egress K cpu (tc.filters m.dev) m.nic skb).map fun nic => { m with nic := nic }

/-- The machine after packets in their order. -/
def passAll (K : Kernel) (tc : Tc Dev) (m : Machine Dev ncpu) (es : List (Seen ncpu)) :
    Option (Machine Dev ncpu) :=
  es.foldlM (pass K tc) m

/-- The packets at the ingress. -/
def ingressOf (es : List (Seen ncpu)) : List (Fin ncpu × Skb) :=
  es.filterMap fun
    | .ingress cpu skb => some (cpu, skb)
    | .egress _ _ => none

/-- The packets at the egress. -/
def egressOf (es : List (Seen ncpu)) : List (Fin ncpu × Skb) :=
  es.filterMap fun
    | .ingress _ _ => none
    | .egress cpu skb => some (cpu, skb)

/-! ### The script -/

/-- What there is besides the machine: `bpftool`, and Python with its tables and floats. -/
structure Tools (D N : Type) (ncpu : ℕ) where
  bpftool : ∀ n, PercpuArray ncpu n → List MapEntry
  table : Unicode
  floats : FloatTypes D N
  parse : Str → Option (PyFloat D)
  constant : Str → Scalar D N

/-- The variables of the script. -/
structure Settings where
  kernel : Str
  shaper : Bool
  rateMbps : Str
  floodMbps : Str
  count : Str
  intervalMs : Str

/-- Packets that pass during a run: before `apply_condition`, before the first read, between
two reads, and while the workload runs. -/
structure RunTraffic (ncpu : ℕ) where
  idle : List (Seen ncpu)
  settle : List (Seen ncpu)
  inOut : List (Seen ncpu)
  outCnt : List (Seen ncpu)
  workload : List (Seen ncpu)
  inOutAfter : List (Seen ncpu)
  outCntAfter : List (Seen ncpu)

/-- `meta.json`. -/
structure Meta (D N : Type) where
  condition : Str
  run : ℕ
  kernel : Str
  shaper : Str
  linkRateMbps : PyFloat D
  floodOfferedMbps : PyFloat D
  tsCount : ℤ
  tsIntervalMs : PyFloat D
  prioHistAfterVethIngress : NumDict
  prioHistAtNicEgress : NumDict
  tsCounters : NumDict
  flood : Option (PyVal (Scalar D N))
  sink : Option (PyVal (Scalar D N))

/-- How the commands around the workload end, which the script looks at or waits for. -/
structure WorkloadEnd where
  /-- The directory of the run is made. -/
  dirMade : Bool := true
  /-- The listener has written its file before `wait_file` gives up. -/
  listenerReady : Bool := true
  /-- `python3 -c` prints a duration for the flood. -/
  hasDuration : Bool := true
  /-- The exit status of the talker is 0. -/
  talkerOk : Bool := true
  /-- The listener ends, which it does not before it has received something. -/
  listenerEnds : Bool := true
  /-- `tc -s qdisc show` writes its file. -/
  qdiscShown : Bool := true
  /-- The statistics of the flood and of the sink are JSON, where there are any. -/
  statsLoad : Bool := true
  /-- `meta.json` is copied, and `grep` finds lines in the log of the listener. -/
  reported : Bool := true

/-- The script gets as far as `meta.json`: no command before it fails, and no wait is in vain. -/
def WorkloadEnd.Completes (w : WorkloadEnd) : Prop :=
  w.dirMade ∧ w.listenerReady ∧ w.hasDuration ∧ w.talkerOk ∧ w.listenerEnds ∧ w.qdiscShown ∧
    w.statsLoad

instance (w : WorkloadEnd) : Decidable w.Completes := inferInstanceAs (Decidable (_ ∧ _))

/-- A run of the plan, how its workload ends, and what it leaves: the statistics of the flood
and of the sink. -/
structure PlannedRun (D N : Type) (ncpu : ℕ) where
  cond : Str
  run : ℕ
  traffic : RunTraffic ncpu
  ending : WorkloadEnd
  flood : Option (PyVal (Scalar D N))
  sink : Option (PyVal (Scalar D N))

section

variable (K : Kernel) (tc : Tc Dev) (tools : Tools D N ncpu)

/-- The decoder of `json.loads`. -/
def Tools.dec : Decoder (Scalar D N) := jsonDecoder tools.table tools.parse tools.constant

/-- `read_hist`, and the reading of the counters: what the shell keeps. -/
def readMap {n : ℕ} (cmd : MapCommand) (a : PercpuArray ncpu n) : Option Str := do
  let d ← cmd.dict tools.table (tools.bpftool n a)
  let out ← printed tools.floats d
  some (substitution out)

/-- The difference of two texts, in the script that writes `meta.json`. -/
def deltaOf (after before : Str) : Option NumDict := do
  let b ← readDict tools.dec before
  let a ← readDict tools.dec after
  some (delta a b)

/-- What `run_one` reads from the maps. -/
structure Reads where
  beforeIn : Str
  beforeOut : Str
  beforeCnt : Str
  afterIn : Str
  afterOut : Str
  afterCnt : Str

/-- The reads before and after the workload. -/
def readAround (m : Machine Dev ncpu) (t : RunTraffic ncpu) :
    Option (Machine Dev ncpu × Reads) := do
  let beforeIn ← readMap tools .dumpPercpu m.probeIn
  let m ← passAll K tc m t.inOut
  let beforeOut ← readMap tools .dumpPercpu m.nic.prioHist
  let m ← passAll K tc m t.outCnt
  let beforeCnt ← readMap tools .counters m.nic.clsf.tsCounters
  -- the six readings are not atomic: packets pass between any two
  let m ← passAll K tc m t.workload
  let afterIn ← readMap tools .dumpPercpu m.probeIn
  let m ← passAll K tc m t.inOutAfter
  let afterOut ← readMap tools .dumpPercpu m.nic.prioHist
  let m ← passAll K tc m t.outCntAfter
  let afterCnt ← readMap tools .counters m.nic.clsf.tsCounters
  some (m, ⟨beforeIn, beforeOut, beforeCnt, afterIn, afterOut, afterCnt⟩)

/-- The script that writes `meta.json`. -/
def writeMeta (set : Settings) (r : PlannedRun D N ncpu) (reads : Reads) :
    Option (Meta D N) := do
  -- what is no number stops the script here
  let linkRateMbps ← tools.parse set.rateMbps
  let floodOfferedMbps ← tools.parse set.floodMbps
  let tsCount ← intOf tools.table set.count
  let tsIntervalMs ← tools.parse set.intervalMs
  let prioHistAfterVethIngress ← deltaOf tools reads.afterIn reads.beforeIn
  let prioHistAtNicEgress ← deltaOf tools reads.afterOut reads.beforeOut
  let tsCounters ← deltaOf tools reads.afterCnt reads.beforeCnt
  some
    { condition := r.cond
      run := r.run
      kernel := set.kernel
      shaper := if set.shaper then "tbf".toList else "none".toList
      linkRateMbps := linkRateMbps
      floodOfferedMbps := floodOfferedMbps
      tsCount := tsCount
      tsIntervalMs := tsIntervalMs
      prioHistAfterVethIngress := prioHistAfterVethIngress
      prioHistAtNicEgress := prioHistAtNicEgress
      tsCounters := tsCounters
      flood := r.flood
      sink := r.sink }

/-- `run_one` up to its `meta.json`; `none` stands for a command that fails, which ends the
script, and for a wait without end. -/
def runOne (set : Settings) (m : Machine Dev ncpu) (r : PlannedRun D N ncpu) :
    Option (Machine Dev ncpu × Meta D N) := do
  let m ← passAll K tc m r.traffic.idle
  let dev ← applyCondition tc set.shaper set.rateMbps r.cond m.dev
  let m ← passAll K tc { m with dev := dev } r.traffic.settle
  let (m, reads) ← readAround K tc tools m r.traffic
  -- whichever of them it is, there is no file
  if r.ending.Completes then
    let file ← writeMeta tools set r reads
    some (m, file)
  else none

/-- Runs one after the other: what was written when a command fails, or the script is done.
The last commands of a run come after its file. -/
def runPlan (set : Settings) : Machine Dev ncpu → List (PlannedRun D N ncpu) → List (Meta D N)
  | _, [] => []
  | m, r :: rs =>
    match runOne K tc tools set m r with
    | some (m, file) => file :: if r.ending.reported then runPlan set m rs else []
    | none => []

/-- The script up to its loops: whether there is a `tbf` and a `prio`, and the machine with
all programs loaded and the marking of the DSCP turned on. -/
def setup (rateMbps : Str) (dev : Dev) : Option (Machine Dev ncpu × Bool × Bool) := do
  let shaper := detectQdisc tc (.tbf rateMbps 32 100) dev
  let havePrio := detectQdisc tc (.prio 3) shaper.2
  let dev ← tc.filterAdd 20 .probeOut havePrio.2
  let val ← setTsConfig tools.table "0".toList "0".toList "1".toList
  some ({ dev := dev
          nic := { NicState.init ncpu with
            clsf := { ClsfMaps.init ncpu with tsConfig := some (TsConfig.ofBytes val) } }
          probeIn := .zero ncpu prioHistBuckets }, shaper.1, havePrio.1)

end

/-! ### What is set up -/

/-- The filters at the egress while a condition is in force. -/
def wiredFilters (clsf : Bool) : List (ℕ × Program) :=
  if clsf then [(10, .clsf), (20, .probeOut)] else [(20, .probeOut)]

/-- The queues while a condition is in force. -/
def wiredQdiscs (shaper : Bool) (rateMbps : Str) (inner : QdiscKind) : List Qdisc :=
  if shaper then [⟨none, 1, .tbf rateMbps 32 200⟩, ⟨some (1, 1), 10, inner⟩]
  else [⟨none, 10, inner⟩]

section

variable {tc : Tc Dev} (htc : tc.Documented)
include htc

/-- The probe stays where it is, whatever filter is taken away in front of it. -/
theorem filters_filterDel {clsf : Bool} {d : Dev} (hd : tc.filters d = wiredFilters clsf) :
    tc.filters ((tc.filterDel 10 d).getD d) = wiredFilters false := by
  cases hdel : tc.filterDel 10 d with
  | some d' =>
    rw [Option.getD_some, (htc.filterDel hdel).1, hd]
    cases clsf <;> rfl
  | none =>
    have hno := htc.filterDel_none hdel
    rw [Option.getD_none, hd]
    cases clsf with
    | false => rfl
    | true =>
      rw [hd] at hno
      exact absurd rfl (hno (10, .clsf) List.mem_cons_self)

theorem filters_qdiscDelRoot (d : Dev) :
    tc.filters ((tc.qdiscDelRoot d).getD d) = tc.filters d ∧
      tc.qdiscs ((tc.qdiscDelRoot d).getD d) = [] := by
  cases hdel : tc.qdiscDelRoot d with
  | some d' => exact htc.qdiscDelRoot hdel
  | none => exact ⟨rfl, htc.qdiscDelRoot_none hdel⟩

theorem qdiscs_addQdiscs {shaper : Bool} {rateMbps : Str} {inner : QdiscKind} {d d' : Dev}
    (hd : tc.qdiscs d = []) (h : addQdiscs tc shaper rateMbps inner d = some d') :
    tc.filters d' = tc.filters d ∧ tc.qdiscs d' = wiredQdiscs shaper rateMbps inner := by
  cases shaper with
  | false =>
    obtain ⟨hf, hq⟩ := htc.qdiscAdd h
    rw [hd] at hq
    exact ⟨hf, hq⟩
  | true =>
    obtain ⟨d₁, htbf, h⟩ := Option.bind_eq_some_iff.mp h
    obtain ⟨hf₁, hq₁⟩ := htc.qdiscAdd htbf
    obtain ⟨hf, hq⟩ := htc.qdiscAdd h
    rw [hq₁, hd] at hq
    exact ⟨hf.trans hf₁, hq⟩

/-- **What is set up depends on the condition alone**, not on the one before. -/
theorem filters_applyCondition {shaper clsf : Bool} {rateMbps cond : Str} {d d' : Dev}
    (hd : tc.filters d = wiredFilters clsf)
    (h : applyCondition tc shaper rateMbps cond d = some d') :
    tc.filters d' = wiredFilters (endsInClsf cond) ∧
      ∃ inner, innerQdisc cond = some inner ∧ tc.qdiscs d' = wiredQdiscs shaper rateMbps inner := by
  have hfilters := filters_filterDel htc hd
  obtain ⟨hkept, hempty⟩ := filters_qdiscDelRoot htc ((tc.filterDel 10 d).getD d)
  rw [hfilters] at hkept
  rw [applyCondition] at h
  obtain ⟨inner, hinner, h⟩ := Option.bind_eq_some_iff.mp h
  obtain ⟨d₁, hadd, h⟩ := Option.bind_eq_some_iff.mp h
  have hd₁ := qdiscs_addQdiscs htc hempty hadd
  rw [hkept] at hd₁
  -- the classifier
  cases hclsf : endsInClsf cond with
  | false =>
    rw [hclsf, if_neg Bool.false_ne_true] at h
    obtain rfl := Option.some.inj h
    exact ⟨hd₁.1, inner, hinner, hd₁.2⟩
  | true =>
    rw [hclsf, if_pos rfl] at h
    obtain ⟨hf, hq⟩ := htc.filterAdd h
    rw [hd₁.1] at hf
    rw [hd₁.2] at hq
    exact ⟨hf, inner, hinner, hq⟩

/-- Looking for a queue leaves the filters alone. -/
theorem filters_detectQdisc (kind : QdiscKind) (d : Dev) :
    tc.filters (detectQdisc tc kind d).2 = tc.filters d := by
  rw [detectQdisc]
  cases hrep : tc.qdiscReplaceRoot kind d with
  | none => rfl
  | some d' =>
    have hdel := (filters_qdiscDelRoot htc d').1
    rw [htc.qdiscReplaceRoot hrep] at hdel
    exact hdel

end

end TsPacket
