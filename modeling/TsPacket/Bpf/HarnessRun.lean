import TsPacket.Bpf.HarnessFrames
import TsPacket.Testbed.BpfMaps

/-!
# The test harness

`LoadedProg` of `bpf/tests/bpf_harness.py`: a program that is loaded once, its maps, and test
runs of built frames in between.  A test session is a list of calls; what the calls return is
told by a sheet that knows the configuration, the extra ports and a tally of reasons, and
neither bytes nor CPUs.  `bpftool` is a parameter.

## Main definitions

* `Bpftool` — the tool; `Bpftool.Documented` is what it is relied on for.
* `harnessRun`, `counters`, `setConfig`, `addTsPort` — the calls.
* `session` — a test session, and what it returns.
* `Sheet` — what is expected, by the arguments of the calls alone.

## Main results

* `Sheet.Agrees.repeated` — a test run that is repeated marks the frame once.
* `harness_session` — **a session returns what the sheet says.**
-/

namespace TsPacket

open Bytes OnesComplement PyText

variable {ncpu : ℕ}

/-! ### The tool -/

/-- The maps that are written by name. -/
inductive TsMap
  | tsConfig
  | tsUdpPorts

/-- What a write leaves in the maps. -/
def ClsfMaps.write (maps : ClsfMaps ncpu) : TsMap → List Byte → List Byte → ClsfMaps ncpu
  | .tsConfig, _, value => { maps with tsConfig := some (TsConfig.ofBytes value) }
  | .tsUdpPorts, key, _ => { maps with
      tsUdpPorts := Function.update maps.tsUdpPorts (BitVec.ofNat 16 (leNat key)) true }

/-- What a test run leaves: the fields of the printed object, two files and the maps. -/
structure TestRun (ncpu : ℕ) where
  returnValue : Option ℤ := none
  retval : Option ℤ := none
  dataOut : List Byte
  ctxOut : List Byte
  maps : ClsfMaps ncpu

/-- The commands; `none` is an exit code other than 0. -/
structure Bpftool (ncpu : ℕ) where
  /-- `prog run`, with `data_in`, `ctx_in` and `repeat`. -/
  progRun : ClsfMaps ncpu → List Byte → List Byte → ℕ → Option (TestRun ncpu)
  mapUpdate : ClsfMaps ncpu → TsMap → List Byte → List Byte → Option (ClsfMaps ncpu)
  mapDump : PercpuArray ncpu cntMax → Option (List MapEntry)

/-- `SKB_PRIORITY_OFF`. -/
def skbPriorityOff : ℕ := 32
/-- `SKB_CTX_SIZE`. -/
def skbCtxSize : ℕ := 192

/-- `n` runs of the classifier, each on the packet the one before leaves, on any CPUs. -/
inductive Repeated (K : Kernel) : ℕ → ClsfMaps ncpu → Skb → TcAct → ClsfMaps ncpu → Skb → Prop
  | one {cpu : Fin ncpu} {maps maps' : ClsfMaps ncpu} {skb skb' : Skb} {r : TcAct}
      (hrun : tsClassifier K cpu maps skb = some (r, maps', skb')) :
      Repeated K 1 maps skb r maps' skb'
  | more {cpu : Fin ncpu} {n : ℕ} {maps maps' maps'' : ClsfMaps ncpu} {skb skb' skb'' : Skb}
      {r r' : TcAct} (hrun : tsClassifier K cpu maps skb = some (r, maps', skb'))
      (hrest : Repeated K n maps' skb' r' maps'' skb'') :
      Repeated K (n + 1) maps skb r' maps'' skb''

/-- How often a test run runs; the kernel takes 0 for 1. -/
def times (rep : ℕ) : ℕ := max 1 rep

/-- The tool does what it is asked for, if it does not fail.  A test run has no tag in the
metadata, takes the priority from the context, and prints the verdict without a sign. -/
structure Bpftool.Documented (K : Kernel) (T : Bpftool ncpu) : Prop where
  progRun : ∀ {maps dataIn ctxIn rep t}, T.progRun maps dataIn ctxIn rep = some t →
    ∃ r skb', Repeated K (times rep) maps
        { data := dataIn, priority := u32At ctxIn skbPriorityOff } r t.maps skb' ∧
      (t.returnValue <|> t.retval) = some (r % 2 ^ 32) ∧
      t.dataOut = skb'.data ∧ skbPriorityOff + 4 ≤ t.ctxOut.length ∧
      u32At t.ctxOut skbPriorityOff = skb'.priority
  mapUpdate : ∀ {maps name key value maps'}, T.mapUpdate maps name key value = some maps' →
    maps' = maps.write name key value
  mapDump : ∀ {a es}, T.mapDump a = some es → Renders a es

/-- The tool does not fail. -/
structure Bpftool.Total (T : Bpftool ncpu) : Prop where
  progRun : ∀ maps dataIn ctxIn rep, (T.progRun maps dataIn ctxIn rep).isSome
  mapUpdate : ∀ maps name key value, (T.mapUpdate maps name key value).isSome
  mapDump : ∀ a, (T.mapDump a).isSome

/-! ### The calls -/

/-- `RunResult`. -/
structure RunResult where
  retval : ℤ
  dataOut : List Byte
  ctxOut : List Byte

/-- `struct.unpack_from`; `none` is the `struct.error` of a context that ends before. -/
def RunResult.priority (r : RunResult) : Option U32 :=
  if skbPriorityOff + 4 ≤ r.ctxOut.length then some (u32At r.ctxOut skbPriorityOff) else none

/-- The context a run starts with. -/
def ctxIn (ctxPriority : ℤ) : Option (List Byte) :=
  (packU32 ctxPriority).map (overwrite (List.replicate skbCtxSize 0) skbPriorityOff)

/-- `run`: the verdict gets its sign back. -/
def harnessRun (T : Bpftool ncpu) (maps : ClsfMaps ncpu) (frame : Frame) (ctxPriority : ℤ)
    (rep : ℕ) : Option (RunResult × ClsfMaps ncpu) := do
  let ctx ← ctxIn ctxPriority
  let t ← T.progRun maps frame ctx rep
  let rv ← t.returnValue <|> t.retval
  some ({ retval := if rv ≥ 2 ^ 31 then rv - 2 ^ 32 else rv
          dataOut := t.dataOut
          ctxOut := t.ctxOut }, t.maps)

/-- A dictionary from numbers to numbers. -/
abbrev IntDict := ℤ → Option ℤ

/-- `percpu_sum`. -/
def percpuSum (U : Unicode) (es : List MapEntry) : Option IntDict :=
  es.foldlM (fun out e => (dumpEntry U e).map fun p => Function.update out p.1 (some p.2))
    fun _ => none

/-- `counters`, by the keys of `CNT`. -/
def counters (U : Unicode) (T : Bpftool ncpu) (maps : ClsfMaps ncpu) : Option (TsCounter → ℤ) := do
  let es ← T.mapDump maps.tsCounters
  let raw ← percpuSum U es
  some fun k => (raw (k.idx : ℕ)).getD 0

/-- `struct.pack("<IIII", priority, dscp, flags, 0)`. -/
def packConfig (priority dscp flags : ℤ) : Option (List Byte) := do
  let val ← packU32 priority
  let val := val ++ (← packU32 dscp)
  let val := val ++ (← packU32 flags)
  return val ++ (← packU32 0)

/-- `set_config`. -/
def setConfig (T : Bpftool ncpu) (maps : ClsfMaps ncpu) (priority dscp flags : ℤ) :
    Option (ClsfMaps ncpu) := do
  let key ← packU32 0
  let value ← packConfig priority dscp flags
  T.mapUpdate maps .tsConfig key value

/-- `add_ts_port`; `none` is also the `struct.error` of a port that does not fit. -/
def addTsPort (T : Bpftool ncpu) (maps : ClsfMaps ncpu) (port : ℤ) : Option (ClsfMaps ncpu) :=
  if 0 ≤ port ∧ port < 2 ^ 16 then T.mapUpdate maps .tsUdpPorts (leBytes 2 port.toNat) [1]
  else none

/-! ### Sessions -/

/-- A frame of the builders. -/
structure TestFrame where
  tags : List Tag
  content : Content
  valid : content.Valid

/-- The bytes of the frame. -/
def TestFrame.frame (fr : TestFrame) : Frame := frameOf fr.tags fr.content

/-- A call of a test. -/
inductive HarnessCall
  | setConfig (priority dscp flags : ℤ)
  | addTsPort (port : ℤ)
  | run (fr : TestFrame) (ctxPriority : ℤ) (rep : ℕ)
  | counters

/-- What a test looks at. -/
inductive Answer
  | done
  | ran (retval : ℤ) (dataOut : List Byte) (priority : U32)
  | counted (c : TsCounter → ℤ)

/-- One call; `none` is an exception. -/
def perform (U : Unicode) (T : Bpftool ncpu) (maps : ClsfMaps ncpu) :
    HarnessCall → Option (Answer × ClsfMaps ncpu)
  | .setConfig priority dscp flags =>
    (setConfig T maps priority dscp flags).map fun maps => (.done, maps)
  | .addTsPort port => (addTsPort T maps port).map fun maps => (.done, maps)
  | .run fr ctxPriority rep => do
    let (r, maps) ← harnessRun T maps fr.frame ctxPriority rep
    let priority ← r.priority
    some (.ran r.retval r.dataOut priority, maps)
  | .counters => (counters U T maps).map fun c => (.counted c, maps)

/-- What the calls return, up to the first exception. -/
def session (U : Unicode) (T : Bpftool ncpu) : ClsfMaps ncpu → List HarnessCall → List Answer
  | _, [] => []
  | maps, c :: cs =>
    match perform U T maps c with
    | none => []
    | some (a, maps) => a :: session U T maps cs

/-- The bytes a run leaves. -/
theorem ClsfRun.data_eq {K : Kernel} {cpu : Fin ncpu} {maps : ClsfMaps ncpu} {skb : Skb}
    {pr : ParseResult} {ts : Bool} {r : ClsfMaps ncpu × Skb}
    (h : ClsfRun K cpu maps skb pr ts r) :
    r.2.data = if ts ∧ maps.cfg.flags &&& tsCfgMarkDscp ≠ 0 ∧ pr.ipOff ≠ 0 then
      (markDscp K skb.data pr.ipOff (tsDscp maps.cfg)).2 else skb.data := by
  cases h with
  | passed => exact (if_neg fun h => Bool.false_ne_true h.1).symm
  | ts hmark => exact (if_neg fun h => hmark h.2).symm
  | mark hmark hoff => exact (if_pos ⟨rfl, hmark, hoff⟩).symm

/-! ### What is expected -/

/-- The settings, and how often each counter was to be bumped. -/
structure Sheet where
  cfg : TsConfig := {}
  tsUdpPorts : U16 → Bool := fun _ => false
  tally : TsCounter → ℕ := fun _ => 0

namespace Sheet

variable (s : Sheet) (fr : TestFrame)

/-- The reason of a frame under the settings. -/
def reason : TsCounter := expected s.cfg s.tsUdpPorts fr.tags fr.content

/-- The content a frame leaves with: a mark is a TOS byte. -/
def leaves : Content :=
  if (s.reason fr).isTs ∧ s.cfg.flags &&& tsCfgMarkDscp ≠ 0 ∧ headerOff fr.tags fr.content ≠ 0 then
    fr.content.mark (tsDscp s.cfg)
  else fr.content

/-- The bytes it leaves with. -/
def dataOut : Frame := frameOf fr.tags (s.leaves fr)

/-- The priority it leaves with. -/
def priority (ctxPriority : ℤ) : U32 :=
  if (s.reason fr).isTs then tsPriority s.cfg else BitVec.ofNat 32 ctxPriority.toNat

/-- The tally after `n` runs: each has the reason, the first alone may mark. -/
def count (n : ℕ) : Sheet :=
  { s with tally := fun k => s.tally k + (if k = s.reason fr then n else 0)
      + (if k = .dscpMarked ∧ s.dataOut fr ≠ fr.frame then 1 else 0) }

/-- What a call is to return; `none` is for arguments that do not fit. -/
def call : HarnessCall → Option (Answer × Sheet)
  | .setConfig p d f =>
    if (0 ≤ p ∧ p < 2 ^ 32) ∧ (0 ≤ d ∧ d < 2 ^ 32) ∧ (0 ≤ f ∧ f < 2 ^ 32) then
      some (.done, { s with cfg := { priority := BitVec.ofNat 32 p.toNat
                                     dscp := BitVec.ofNat 32 d.toNat
                                     flags := BitVec.ofNat 32 f.toNat } })
    else none
  | .addTsPort port =>
    if 0 ≤ port ∧ port < 2 ^ 16 then
      some (.done, { s with
        tsUdpPorts := Function.update s.tsUdpPorts (BitVec.ofNat 16 port.toNat) true })
    else none
  | .run fr ctxPriority rep =>
    if 0 ≤ ctxPriority ∧ ctxPriority < 2 ^ 32 then
      some (.ran tcActUnspec (s.dataOut fr) (s.priority fr ctxPriority), s.count fr (times rep))
    else none
  | .counters => some (.counted fun k => s.tally k, s)

/-- What a session is to return. -/
def answers : Sheet → List HarnessCall → List Answer
  | _, [] => []
  | s, c :: cs =>
    match s.call c with
    | none => []
    | some (a, s) => a :: answers s cs

/-! ### A run of a built frame -/

variable {s : Sheet} {fr : TestFrame}

theorem reason_ne_dscpMarked (s : Sheet) (fr : TestFrame) : s.reason fr ≠ .dscpMarked := by
  rw [reason, expected]
  split
  · exact TsCounter.noConfusion
  split
  · exact TsCounter.noConfusion
  split
  · unfold Content.reason
    split <;> split <;> exact TsCounter.noConfusion
  · exact TsCounter.noConfusion

/-- What leaves is a content the builders take. -/
theorem valid_leaves (s : Sheet) (fr : TestFrame) : (s.leaves fr).Valid := by
  rw [leaves]
  split
  · exact Content.valid_mark fr.valid
  · exact fr.valid

/-- The frame that leaves. -/
def next (s : Sheet) (fr : TestFrame) : TestFrame :=
  { tags := fr.tags, content := s.leaves fr, valid := s.valid_leaves fr }

/-- It leaves for the same reason again. -/
theorem reason_next (s : Sheet) (fr : TestFrame) : s.reason (s.next fr) = s.reason fr := by
  simp only [reason, next]
  rw [leaves]
  split
  · rw [expected_mark]
  · rfl

/-- Nothing is left to mark in it. -/
theorem leaves_next (s : Sheet) (fr : TestFrame) : s.leaves (s.next fr) = s.leaves fr := by
  by_cases hm : (s.reason fr).isTs ∧ s.cfg.flags &&& tsCfgMarkDscp ≠ 0 ∧
      headerOff fr.tags fr.content ≠ 0
  · have hleaves : s.leaves fr = fr.content.mark (tsDscp s.cfg) := if_pos hm
    have hoff : headerOff (s.next fr).tags (s.next fr).content = headerOff fr.tags fr.content := by
      simp only [next, hleaves, headerOff_mark]
    rw [leaves, reason_next, hoff, if_pos hm]
    simp only [next, hleaves, Content.mark_mark]
  · have hleaves : s.leaves fr = fr.content := if_neg hm
    have hnext : s.next fr = fr := by
      simp only [next, hleaves]
    rw [hnext]

variable {K : Kernel} (hK : K.Exact) (hT : K.Total) (hE : K.Eqn3)

include hK hT hE in
/-- The bytes that leave are those of the frame that is built so. -/
theorem dataOut_eq (s : Sheet) (fr : TestFrame) :
    (if (s.reason fr).isTs ∧ s.cfg.flags &&& tsCfgMarkDscp ≠ 0 ∧
        headerOff fr.tags fr.content ≠ 0 then
      (markDscp K fr.frame (headerOff fr.tags fr.content) (tsDscp s.cfg)).2
    else fr.frame) = s.dataOut fr := by
  rw [dataOut, leaves]
  split
  case isTrue hm => exact markDscp_headerOff hK hT hE fr.valid hm.2.2 _
  case isFalse => rfl

/-- The sheet knows the settings and the totals. -/
structure Agrees (s : Sheet) (maps : ClsfMaps ncpu) : Prop where
  cfg : maps.cfg = s.cfg
  tsUdpPorts : maps.tsUdpPorts = s.tsUdpPorts
  tally : ∀ k, maps.tsCounters.total k.idx = s.tally k

/-- The packet a test run starts with. -/
structure Holds (fr : TestFrame) (priority : U32) (skb : Skb) : Prop where
  data : skb.data = fr.frame
  vlan : skb.vlanPresent = 0
  priority : skb.priority = priority

include hK hT hE in
/-- One run: the bytes, the priority and the counters are those of the sheet. -/
theorem Agrees.run {cpu : Fin ncpu} {maps maps' : ClsfMaps ncpu} {skb skb' : Skb} {r : TcAct}
    {prio : U32} (h : s.Agrees maps) (hskb : Holds fr prio skb)
    (hlt : ∀ k, s.tally k + 1 < 2 ^ 64)
    (hrun : tsClassifier K cpu maps skb = some (r, maps', skb')) :
    r = tcActUnspec ∧ (s.count fr 1).Agrees maps' ∧
      Holds (s.next fr) (if (s.reason fr).isTs then tsPriority s.cfg else prio) skb' := by
  obtain ⟨ts, pr, maps₁, skb₁, hclass, -, hrun₁, hway⟩ := tsClassifier_run K cpu maps skb
  obtain ⟨maps₂, skb₂, hrun₂, hbumps⟩ := Passage.tsClassifier_bumps hK hT ⟨cpu, maps, skb⟩
  obtain ⟨rfl, rfl, rfl⟩ : tcActUnspec = r ∧ maps₁ = maps' ∧ skb₁ = skb' := by
    rw [hrun₁] at hrun
    simpa using hrun
  obtain ⟨rfl, rfl⟩ : maps₁ = maps₂ ∧ skb₁ = skb₂ := by
    rw [hrun₁] at hrun₂
    simpa using hrun₂
  -- the verdict is that of the arguments
  have hverdict := verdict_frameOf fr.valid hskb.data hskb.vlan maps.cfg maps.tsUdpPorts
  have hreason : Passage.reason ⟨cpu, maps, skb⟩ = s.reason fr := by
    rw [Passage.reason, Passage.verdict, hverdict, h.cfg, h.tsUdpPorts]
    rfl
  rw [classify_eq_verdict, hverdict, h.cfg, h.tsUdpPorts] at hclass
  obtain ⟨rfl, rfl⟩ := Prod.mk.inj (Option.some.inj hclass)
  have hdata : skb₁.data = s.dataOut fr := by
    rw [hway.data_eq, h.cfg, hskb.data]
    exact dataOut_eq hK hT hE s fr
  have hchanged : Passage.BytesChanged K ⟨cpu, maps, skb⟩ ↔ s.dataOut fr ≠ fr.frame := by
    rw [Passage.BytesChanged, Passage.out_eq hrun₁, hdata, hskb.data]
  refine ⟨rfl, ⟨?_, ?_, fun k => ?_⟩, ⟨hdata, ?_, ?_⟩⟩
  · rw [ClsfMaps.cfg, hway.config.1]
    exact h.cfg
  · exact hway.config.2.trans h.tsUdpPorts
  · have htotal := PercpuArray.total_bumps k.idx (Passage.bumps K ⟨cpu, maps, skb⟩)
      maps.tsCounters
    have hk := hlt k
    rw [hbumps]
    rcases eq_or_ne k .dscpMarked with rfl | hk'
    · rw [Passage.countP_bumps_marked, h.tally] at htotal
      simp only [hchanged] at htotal
      rw [htotal (by split <;> omega), count]
      simp only [true_and, if_neg (Ne.symm (reason_ne_dscpMarked s fr)), Nat.add_zero]
    · rw [Passage.countP_bumps_reason _ hk', h.tally, hreason] at htotal
      rw [htotal (by split <;> omega), count]
      simp only [hk', false_and, if_false, Nat.add_zero, eq_comm]
  · rw [hway.vlan.1]
    exact hskb.vlan
  · have hprio := Passage.out_priority K ⟨cpu, maps, skb⟩
    rw [Passage.out_eq hrun₁, Passage.verdict, hverdict, h.cfg, h.tsUdpPorts, hskb.priority]
      at hprio
    exact hprio

/-! ### A run that is repeated -/

theorem dataOut_next (s : Sheet) (fr : TestFrame) :
    s.dataOut (s.next fr) = (s.next fr).frame := by
  rw [dataOut, leaves_next]
  rfl

/-- The runs after the first count a frame that has the DSCP. -/
theorem count_next (s : Sheet) (fr : TestFrame) (n : ℕ) :
    (s.count fr 1).count (s.next fr) n = s.count fr (n + 1) := by
  have hreason : (s.count fr 1).reason (s.next fr) = s.reason fr := reason_next s fr
  have hmark : ∀ k, ¬ (k = TsCounter.dscpMarked ∧
      (s.count fr 1).dataOut (s.next fr) ≠ (s.next fr).frame) :=
    fun k h => h.2 (dataOut_next s fr)
  simp only [count, Sheet.mk.injEq, true_and]
  funext k
  change s.tally k + _ + _ + (if k = (s.count fr 1).reason (s.next fr) then n else 0)
    + (if k = .dscpMarked ∧ (s.count fr 1).dataOut (s.next fr) ≠ (s.next fr).frame then 1 else 0)
    = _
  rw [hreason, if_neg (hmark k)]
  by_cases hk : k = s.reason fr
  · simp only [if_pos hk]
    omega
  · simp only [if_neg hk]
    omega

theorem tally_count_le (s : Sheet) (fr : TestFrame) {n : ℕ} (hn : 1 ≤ n) (k : TsCounter) :
    (s.count fr n).tally k ≤ s.tally k + n := by
  rw [count]
  dsimp only
  rcases eq_or_ne k .dscpMarked with rfl | hk
  · rw [if_neg (Ne.symm (reason_ne_dscpMarked s fr))]
    split <;> omega
  · have hmark : ¬ (k = TsCounter.dscpMarked ∧ s.dataOut fr ≠ fr.frame) := fun h => hk h.1
    rw [if_neg hmark]
    split <;> omega

include hK hT hE in
/-- **A test run that is repeated marks the frame once.** -/
theorem Agrees.repeated {n : ℕ} {fr : TestFrame} {s : Sheet} {maps maps' : ClsfMaps ncpu}
    {skb skb' : Skb} {r : TcAct} {prio : U32} (hruns : Repeated K n maps skb r maps' skb')
    (h : s.Agrees maps) (hskb : Holds fr prio skb) (hlt : ∀ k, s.tally k + n < 2 ^ 64) :
    r = tcActUnspec ∧ (s.count fr n).Agrees maps' ∧
      Holds (s.next fr) (if (s.reason fr).isTs then tsPriority s.cfg else prio) skb' := by
  induction hruns generalizing fr s prio with
  | one hrun => exact h.run hK hT hE hskb hlt hrun
  | more hrun hrest ih =>
    rename_i cpu n maps maps' maps'' skb skb' skb'' r r'
    have hle := tally_count_le s fr (Nat.le_refl 1)
    obtain ⟨-, h', hskb'⟩ := h.run hK hT hE hskb (fun k => by have := hlt k; omega) hrun
    obtain ⟨hr, h'', hskb''⟩ := ih h' hskb' fun k => by
      have := hlt k
      have := hle k
      omega
    -- a frame the program marked is classified as before
    have hreason : (s.count fr 1).reason (s.next fr) = s.reason fr := reason_next s fr
    have hnext : (s.count fr 1).next (s.next fr) = s.next fr := by
      have hleaves : (s.count fr 1).leaves (s.next fr) = s.leaves fr := leaves_next s fr
      exact (TestFrame.mk.injEq ..).mpr ⟨rfl, hleaves⟩
    rw [count_next] at h''
    rw [hreason, hnext] at hskb''
    refine ⟨hr, h'', ?_⟩
    -- the priority set by the first run is the one the rest keep
    split at hskb'' <;> split <;> first | exact hskb'' | contradiction

end Sheet

/-! ### The calls -/

/-- A word that is written is read back. -/
theorem u32At_overwrite {l : List Byte} {off : ℕ} (hoff : off ≤ l.length) {n : ℤ} (h0 : 0 ≤ n)
    (hn : n < 2 ^ 32) :
    u32At (overwrite l off (leBytes 4 n.toNat)) off = BitVec.ofNat 32 n.toNat := by
  rw [overwrite, List.append_assoc]
  exact u32At_append _ _ (by rw [List.length_take]; omega) h0 hn

theorem ctxIn_eq_some {ctxPriority : ℤ} {ctx : List Byte} (h : ctxIn ctxPriority = some ctx) :
    (0 ≤ ctxPriority ∧ ctxPriority < 2 ^ 32) ∧
      u32At ctx skbPriorityOff = BitVec.ofNat 32 ctxPriority.toNat := by
  obtain ⟨bs, hbs, rfl⟩ := Option.map_eq_some_iff.mp h
  obtain ⟨h0, hlt, rfl⟩ := packU32_eq_some hbs
  exact ⟨⟨h0, hlt⟩, u32At_overwrite (by rw [List.length_replicate]; decide) h0 hlt⟩

/-- A number of 32 bits is read back from its text. -/
theorem intOf_strOf_u32 {n : ℤ} (h0 : 0 ≤ n) (hn : n < 2 ^ 32) :
    intOf asciiTable (strOf n) = some n := by
  have hlt : n.natAbs < 2 ^ 64 := by omega
  exact intOf_strOf asciiTable_ascii n (hlt.trans_le two_pow_le)

/-- The bytes of the configuration are those the command line writes for the same numbers. -/
theorem packConfig_eq {p d f : ℤ} (hp : 0 ≤ p ∧ p < 2 ^ 32) (hd : 0 ≤ d ∧ d < 2 ^ 32)
    (hf : 0 ≤ f ∧ f < 2 ^ 32) :
    packConfig p d f = setTsConfig asciiTable (strOf p) (strOf d) (strOf f) := by
  rw [setTsConfig, intOf_strOf_u32 hp.1 hp.2, intOf_strOf_u32 hd.1 hd.2,
    intOf_strOf_u32 hf.1 hf.2]
  rfl

/-- The program reads the numbers that were given. -/
theorem ofBytes_packConfig {p d f : ℤ} {val : List Byte} (h : packConfig p d f = some val) :
    ((0 ≤ p ∧ p < 2 ^ 32) ∧ (0 ≤ d ∧ d < 2 ^ 32) ∧ (0 ≤ f ∧ f < 2 ^ 32)) ∧
      TsConfig.ofBytes val = { priority := BitVec.ofNat 32 p.toNat
                               dscp := BitVec.ofNat 32 d.toNat
                               flags := BitVec.ofNat 32 f.toNat } := by
  obtain ⟨bp, hbp, hrest⟩ := Option.bind_eq_some_iff.mp h
  obtain ⟨bd, hbd, hrest⟩ := Option.bind_eq_some_iff.mp hrest
  obtain ⟨bf, hbf, -⟩ := Option.bind_eq_some_iff.mp hrest
  obtain ⟨hp0, hp1, -⟩ := packU32_eq_some hbp
  obtain ⟨hd0, hd1, -⟩ := packU32_eq_some hbd
  obtain ⟨hf0, hf1, -⟩ := packU32_eq_some hbf
  refine ⟨⟨⟨hp0, hp1⟩, ⟨hd0, hd1⟩, ⟨hf0, hf1⟩⟩, ?_⟩
  rw [packConfig_eq ⟨hp0, hp1⟩ ⟨hd0, hd1⟩ ⟨hf0, hf1⟩] at h
  obtain ⟨p', d', f', hp', hd', hf', -, hval⟩ := ofBytes_setTsConfig h
  rw [intOf_strOf_u32 hp0 hp1] at hp'
  rw [intOf_strOf_u32 hd0 hd1] at hd'
  rw [intOf_strOf_u32 hf0 hf1] at hf'
  cases hp'
  cases hd'
  cases hf'
  exact hval

/-- Entries one after the other: the keys that are read hold their totals. -/
theorem percpuSum_fold {U : Unicode} (hU : U.Ascii) {entries : ℕ}
    (a : PercpuArray ncpu entries) {is : List (Fin entries)} {es : List MapEntry}
    (h : List.Forall₂ (RendersEntry a) is es) (out : IntDict) :
    ∃ out' : IntDict, es.foldlM (fun (out : IntDict) e => (dumpEntry U e).map fun p =>
        Function.update out p.1 (some p.2)) out = some out' ∧
      ∀ i : Fin entries, out' (i : ℕ) = if i ∈ is then some (a.total i : ℤ) else out (i : ℕ) := by
  induction h generalizing out with
  | nil => exact ⟨out, rfl, fun i => (if_neg List.not_mem_nil).symm⟩
  | cons hentry hrest ih =>
    rename_i i e is es
    obtain ⟨out', hfold, hout⟩ := ih (Function.update out (i : ℤ) (some (a.total i : ℤ)))
    refine ⟨out', ?_, fun j => ?_⟩
    · rw [List.foldlM_cons, dumpEntry_renders hU hentry]
      exact hfold
    · rw [hout j]
      by_cases hj : j = i
      · subst hj
        simp
      · have hne : ((j : ℕ) : ℤ) ≠ ((i : ℕ) : ℤ) := fun h => hj (Fin.ext (Int.ofNat_inj.mp h))
        simp [hj, Function.update_of_ne hne]

/-- **The dictionary holds the totals.** -/
theorem percpuSum_renders {U : Unicode} (hU : U.Ascii) {entries : ℕ}
    {a : PercpuArray ncpu entries} {es : List MapEntry} (h : Renders a es) :
    ∃ out, percpuSum U es = some out ∧ ∀ i : Fin entries, out (i : ℕ) = some (a.total i : ℤ) := by
  obtain ⟨out, hfold, hout⟩ := percpuSum_fold hU a h fun _ => none
  exact ⟨out, hfold, fun i => by rw [hout i, if_pos (List.mem_finRange i)]⟩

/-! ### Sessions against the sheet -/

/-- How many runs of the program a call makes. -/
def HarnessCall.runs : HarnessCall → ℕ
  | .run _ _ rep => times rep
  | _ => 0

/-- How many runs a session makes. -/
def testRuns (cs : List HarnessCall) : ℕ := (cs.map HarnessCall.runs).sum

section

variable {K : Kernel} (hK : K.Exact) (hT : K.Total) (hE : K.Eqn3) {U : Unicode} (hU : U.Ascii)
  {T : Bpftool ncpu} (hD : T.Documented K) {s : Sheet} {maps : ClsfMaps ncpu}

include hU hD

/-- A tool that does not fail answers every call with fitting arguments. -/
theorem perform_isSome (hTotal : T.Total) (maps : ClsfMaps ncpu) {c : HarnessCall}
    (hs : (s.call c).isSome) : (perform U T maps c).isSome := by
  -- every argument fits its 32-bit field, so packing succeeds
  have hpack : ∀ {n : ℤ}, 0 ≤ n ∧ n < 2 ^ 32 → packU32 n = some (leBytes 4 n.toNat) :=
    fun hn => if_pos hn
  cases c with
  | setConfig p d f =>
    rw [Sheet.call] at hs
    split at hs
    case isTrue hfit =>
      obtain ⟨hp, hd, hf⟩ := hfit
      have hvalue : (packConfig p d f).isSome := by
        rw [packConfig, hpack hp, hpack hd, hpack hf]
        rfl
      obtain ⟨value, hvalue⟩ := Option.isSome_iff_exists.mp hvalue
      have hset : setConfig T maps p d f = T.mapUpdate maps .tsConfig (leBytes 4 0) value := by
        rw [setConfig, hvalue]
        rfl
      rw [perform, hset, Option.isSome_map]
      exact hTotal.mapUpdate _ _ _ _
    case isFalse => cases hs
  | addTsPort port =>
    rw [Sheet.call] at hs
    split at hs
    case isTrue hfit =>
      rw [perform, addTsPort, if_pos hfit, Option.isSome_map]
      exact hTotal.mapUpdate _ _ _ _
    case isFalse => cases hs
  | run fr ctxPriority rep =>
    rw [Sheet.call] at hs
    split at hs
    case isTrue hfit =>
      -- the context packs, and the one that comes back holds the priority
      obtain ⟨ctx, hctx⟩ : ∃ ctx, ctxIn ctxPriority = some ctx :=
        ⟨_, congrArg (Option.map _) (hpack hfit)⟩
      obtain ⟨t, ht⟩ := Option.isSome_iff_exists.mp (hTotal.progRun maps fr.frame ctx rep)
      obtain ⟨r, skb', -, hret, -, hlen, -⟩ := hD.progRun ht
      simp only [perform, harnessRun, hctx, ht, hret, Option.bind_eq_bind, Option.bind_some,
        RunResult.priority, if_pos hlen, Option.isSome_some]
    case isFalse => cases hs
  | counters =>
    obtain ⟨es, hes⟩ := Option.isSome_iff_exists.mp (hTotal.mapDump maps.tsCounters)
    obtain ⟨out, hout, -⟩ := percpuSum_renders hU (hD.mapDump hes)
    simp only [perform, counters, hes, hout, Option.bind_eq_bind, Option.bind_some,
      Option.map_some, Option.isSome_some]

include hK hT hE

/-- **A call that returns returns what the sheet says.** -/
theorem Sheet.Agrees.call (h : s.Agrees maps) {c : HarnessCall}
    (hlt : ∀ k, s.tally k + c.runs < 2 ^ 64) {a : Answer} {maps' : ClsfMaps ncpu}
    (hcall : perform U T maps c = some (a, maps')) :
    ∃ s', s.call c = some (a, s') ∧ s'.Agrees maps' ∧ ∀ k, s'.tally k ≤ s.tally k + c.runs := by
  cases c with
  | setConfig p d f =>
    obtain ⟨maps₁, hset, heq⟩ := Option.map_eq_some_iff.mp hcall
    cases heq
    -- the key is a constant
    have hset : (packConfig p d f).bind (T.mapUpdate maps .tsConfig (leBytes 4 0)) = some maps' :=
      hset
    obtain ⟨value, hvalue, hupdate⟩ := Option.bind_eq_some_iff.mp hset
    obtain ⟨hfit, hcfg⟩ := ofBytes_packConfig hvalue
    refine ⟨_, if_pos hfit, ⟨?_, ?_, ?_⟩, fun k => Nat.le_add_right _ _⟩
    all_goals rw [hD.mapUpdate hupdate, ClsfMaps.write]
    · exact hcfg
    · exact h.tsUdpPorts
    · exact h.tally
  | addTsPort port =>
    obtain ⟨maps₁, hadd, heq⟩ := Option.map_eq_some_iff.mp hcall
    cases heq
    rw [addTsPort] at hadd
    split at hadd
    case isTrue hfit =>
      refine ⟨_, if_pos hfit, ⟨?_, ?_, ?_⟩, fun k => Nat.le_add_right _ _⟩
      all_goals rw [hD.mapUpdate hadd, ClsfMaps.write]
      · exact h.cfg
      · rw [leNat_leBytes 2 port.toNat (by omega), ← h.tsUdpPorts]
      · exact h.tally
    case isFalse => cases hadd
  | run fr ctxPriority rep =>
    obtain ⟨⟨r, maps₁⟩, hrun, hcall⟩ := Option.bind_eq_some_iff.mp hcall
    obtain ⟨priority, hpriority, heq⟩ := Option.bind_eq_some_iff.mp hcall
    cases heq
    obtain ⟨ctx, hctx, hrun⟩ := Option.bind_eq_some_iff.mp hrun
    obtain ⟨t, ht, hrun⟩ := Option.bind_eq_some_iff.mp hrun
    obtain ⟨rv, hrv, heq⟩ := Option.bind_eq_some_iff.mp hrun
    cases heq
    obtain ⟨r, skb', hruns, hret, hdata, hlen, hprio⟩ := hD.progRun ht
    obtain ⟨hfit, hread⟩ := ctxIn_eq_some hctx
    rw [hread] at hruns
    obtain ⟨rfl, hagree, hskb⟩ := h.repeated hK hT hE hruns ⟨rfl, rfl, rfl⟩ hlt
    have hpriority : priority = s.priority fr ctxPriority := by
      rw [RunResult.priority, if_pos hlen, hprio, hskb.priority] at hpriority
      exact (Option.some.inj hpriority).symm
    have hretval : (if rv ≥ 2 ^ 31 then rv - 2 ^ 32 else rv) = tcActUnspec := by
      rw [hrv] at hret
      rw [Option.some.inj hret]
      rfl
    have hdata : t.dataOut = s.dataOut fr := hdata.trans hskb.data
    refine ⟨_, ?_, hagree, Sheet.tally_count_le s fr (Nat.le_max_left _ _)⟩
    rw [Sheet.call, if_pos hfit, hpriority, hretval, hdata]
  | counters =>
    obtain ⟨c, hc, heq⟩ := Option.map_eq_some_iff.mp hcall
    cases heq
    obtain ⟨es, hes, hc⟩ := Option.bind_eq_some_iff.mp hc
    obtain ⟨out, hout, heq⟩ := Option.bind_eq_some_iff.mp hc
    cases heq
    obtain ⟨out', hout', htotal⟩ := percpuSum_renders hU (hD.mapDump hes)
    rw [hout] at hout'
    cases hout'
    refine ⟨s, ?_, h, fun k => Nat.le_add_right _ _⟩
    have hsame : (fun k : TsCounter => ((out (k.idx : ℕ)).getD 0)) = fun k => (s.tally k : ℤ) := by
      funext k
      rw [htotal k.idx, h.tally]
      rfl
    rw [hsame]
    rfl

/-- A session returns what the sheet says up to the first exception, and all of it without
one. -/
theorem Sheet.Agrees.session : ∀ (cs : List HarnessCall) {s : Sheet} {maps : ClsfMaps ncpu},
    s.Agrees maps → (∀ k, s.tally k + testRuns cs < 2 ^ 64) →
    session U T maps cs <+: s.answers cs ∧ (T.Total → session U T maps cs = s.answers cs) := by
  intro cs
  induction cs with
  | nil => intro s maps _ _; exact ⟨List.nil_prefix, fun _ => rfl⟩
  | cons c cs ih =>
    intro s maps h hlt
    have hruns : testRuns (c :: cs) = c.runs + testRuns cs := List.sum_cons
    rw [TsPacket.session]
    cases hcall : perform U T maps c with
    | none =>
      refine ⟨List.nil_prefix, fun hTotal => ?_⟩
      -- the tool does not fail, so the arguments do not fit
      cases hs : s.call c with
      | none => rw [Sheet.answers, hs]
      | some r =>
        have hsome := perform_isSome hU hD hTotal maps (show (s.call c).isSome by rw [hs]; rfl)
        rw [hcall] at hsome
        cases hsome
    | some r =>
      obtain ⟨a, maps'⟩ := r
      obtain ⟨s', hs, h', hle⟩ := h.call hK hT hE hU hD
        (fun k => by have := hlt k; omega) hcall
      rw [Sheet.answers, hs]
      obtain ⟨hpre, heq⟩ := ih h' fun k => by
        have := hlt k
        have := hle k
        omega
      exact ⟨(List.prefix_cons_inj a).mpr hpre, fun hTotal => congrArg (a :: ·) (heq hTotal)⟩

/-- **A test session returns what the sheet says.**  The program was just loaded, and fewer
than `2 ^ 64` runs are asked for, of built frames, each any number of times, on any CPUs.  The
answers up to the first exception are those of the sheet; if the tool does not fail they are
all of them.  The header a test reads of the bytes that leave verifies, and has the DSCP
exactly if the frame was to be marked. -/
theorem harness_session (cs : List HarnessCall) (hlt : testRuns cs < 2 ^ 64) :
    session U T (ClsfMaps.init ncpu) cs <+: Sheet.answers {} cs ∧
      (T.Total → session U T (ClsfMaps.init ncpu) cs = Sheet.answers {} cs) ∧
      ∀ (s : Sheet) (fr : TestFrame) (proto : U8) (payload : List Byte) (args : Ipv4Args),
        fr.content = .ipv4 proto payload args →
        parseIpv4TosAndCsumOk (s.dataOut fr) (14 + 4 * fr.tags.length)
          = (if (s.reason fr).isTs ∧ s.cfg.flags &&& tsCfgMarkDscp ≠ 0 ∧
                headerOff fr.tags fr.content ≠ 0 then
              markTos (tsDscp s.cfg) args.tos else args.tos, true) := by
  -- the empty sheet agrees with the maps as loaded
  have hinit : Sheet.Agrees {} (ClsfMaps.init ncpu) :=
    ⟨rfl, rfl, fun k => PercpuArray.total_zero k.idx⟩
  obtain ⟨hpre, heq⟩ := hinit.session hK hT hE hU hD cs fun k => by rw [Nat.zero_add]; exact hlt
  refine ⟨hpre, heq, fun s fr proto payload args hc => ?_⟩
  -- a marked header has a correct checksum, as an unmarked one has
  have hvalid := s.valid_leaves fr
  rw [Sheet.dataOut]
  rw [Sheet.leaves] at hvalid ⊢
  split at hvalid
  case isTrue hm =>
    rw [hc, Content.mark] at hvalid
    rw [if_pos hm, if_pos hm, hc, Content.mark, parse_frameOf hvalid]
  case isFalse hm =>
    rw [hc] at hvalid
    rw [if_neg hm, if_neg hm, hc, parse_frameOf hvalid]

end

/-! ### A tool to run the model with -/

/-- `n + 1` runs on one CPU. -/
def runTimes (K : Kernel) (cpu : Fin ncpu) :
    ℕ → ClsfMaps ncpu → Skb → Option (TcAct × ClsfMaps ncpu × Skb)
  | 0, maps, skb => tsClassifier K cpu maps skb
  | n + 1, maps, skb => do
    let (_, maps, skb) ← tsClassifier K cpu maps skb
    runTimes K cpu n maps skb

theorem runTimes_repeated {K : Kernel} {cpu : Fin ncpu} : ∀ {n : ℕ} {maps maps' : ClsfMaps ncpu}
    {skb skb' : Skb} {r : TcAct}, runTimes K cpu n maps skb = some (r, maps', skb') →
    Repeated K (n + 1) maps skb r maps' skb' := by
  intro n
  induction n with
  | zero => intro maps maps' skb skb' r h; exact .one h
  | succ n ih =>
    intro maps maps' skb skb' r h
    obtain ⟨⟨r₁, maps₁, skb₁⟩, hrun, hrest⟩ := Option.bind_eq_some_iff.mp h
    exact .more hrun (ih hrest)

/-- A tool that prints formatted entries and the verdict under its first name. -/
def refBpftool (K : Kernel) (cpu : Fin ncpu) : Bpftool ncpu where
  progRun maps dataIn ctxIn rep :=
    (runTimes K cpu (rep - 1) maps { data := dataIn, priority := u32At ctxIn skbPriorityOff }).map
      fun r => { returnValue := some (r.1 % 2 ^ 32)
                 dataOut := r.2.2.data
                 ctxOut := overwrite (List.replicate skbCtxSize 0) skbPriorityOff
                   (leBytes 4 r.2.2.priority.toNat)
                 maps := r.2.1 }
  mapUpdate maps name key value := some (maps.write name key value)
  mapDump a := some (bpftoolFormatted a)

theorem refBpftool_documented (K : Kernel) (cpu : Fin ncpu) : (refBpftool K cpu).Documented K where
  progRun := by
    intro maps dataIn ctxIn rep t h
    obtain ⟨⟨r, maps', skb'⟩, hrun, rfl⟩ := Option.map_eq_some_iff.mp h
    -- `repeat` of 0 or 1 is one run
    have htimes : rep - 1 + 1 = times rep := by
      rw [times]
      omega
    have hprio := skb'.priority.isLt
    refine ⟨r, skb', htimes ▸ runTimes_repeated hrun, rfl, rfl, ?_, ?_⟩
    · rw [length_overwrite (by rw [length_leBytes, List.length_replicate]; decide),
        List.length_replicate]
      decide
    · -- the priority sits at its place in the returned context
      have hread : u32At (overwrite (List.replicate skbCtxSize 0) skbPriorityOff
          (leBytes 4 ((skb'.priority.toNat : ℤ).toNat))) skbPriorityOff
          = BitVec.ofNat 32 (skb'.priority.toNat : ℤ).toNat :=
        u32At_overwrite (by rw [List.length_replicate]; decide) (by omega) (by omega)
      rw [Int.toNat_natCast, BitVec.ofNat_toNat, BitVec.setWidth_eq] at hread
      exact hread
  mapUpdate := by
    intro maps name key value maps' h
    exact (Option.some.inj h).symm
  mapDump := by
    intro a es h
    rw [← Option.some.inj h]
    exact renders_bpftoolFormatted a

/-- A session that marks a datagram with options behind a tag, run twice. -/
def markSession : List HarnessCall :=
  [.setConfig 0 34 1, .addTsPort 5001,
    .run ⟨[⟨ethP8021Q, by decide, 1, 100⟩],
      .ipv4 ipprotoUdp (udp 5001 [] 12345) { tos := 0x2a, options := [1, 1, 1, 1] },
      by decide⟩ 3 2,
    .counters]

theorem harness_session_mark :
    session asciiTable (refBpftool (refKernel .little) (0 : Fin 2)) (ClsfMaps.init 2) markSession
      <+: Sheet.answers {} markSession :=
  (harness_session (refKernel_exact .little) (refKernel_total .little) (refKernel_eqn3 .little)
    asciiTable_ascii (refBpftool_documented (refKernel .little) 0) markSession (by decide)).1

end TsPacket
