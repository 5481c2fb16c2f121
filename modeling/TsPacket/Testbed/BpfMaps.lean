import TsPacket.Lib.PyText
import TsPacket.Bpf.Accounting

/-!
# Reading and writing the maps

`testbed/bpfmaps.py` sums a per-CPU map over the CPUs from what `bpftool` prints.  The
tool itself is a parameter: an entry is printed with its value per CPU as numbers, or, for
want of type information, as the bytes of key and values (`Renders`).  In the other
direction it has the tool write the bytes of a `struct ts_config`.

## Main definitions

* `MapNum`, `MapEntry` — the entries of the parsed output.
* `dumpPercpu` — the sums, as a dictionary.
* `setTsConfig`, `TsConfig.ofBytes` — the bytes that are written, and how the program
  reads them.

## Main results

* `ofBytes_setTsConfig` — the program reads the numbers that were given.
* `dumpPercpu_renders` — **the dictionary holds the totals**, in either form.
* `accounting` — **what the dumps before and after a run say about its packets.**
-/

namespace TsPacket

open Bytes PyText

/-- A number as `bpftool` prints it: decimal, bytes in hexadecimal, or a string. -/
inductive MapNum
  | int (n : ℤ)
  | bytes (l : List Str)
  | text (s : Str)

/-- The fields of an entry; `values` holds the value per CPU. -/
structure MapFields where
  key : MapNum
  values : Option (List MapNum) := none
  value : Option MapNum := none

/-- An entry, with the same fields once more under `formatted` if types are known. -/
structure MapEntry where
  raw : MapFields
  formatted : Option MapFields := none

/-- `bytes` takes numbers below 256 only. -/
def byteOfInt (n : ℤ) : Option Byte :=
  if 0 ≤ n ∧ n < 256 then some (BitVec.ofNat 8 n.toNat) else none

/-- `_to_int`. -/
def mapToInt (U : Unicode) : MapNum → Option ℤ
  | .int n => some n
  | .bytes l =>
    (l.mapM fun b => (intOf16 U b).bind byteOfInt).map fun bs => (leNat bs : ℤ)
  | .text s => intOf U s

/-- `int(key)`; a list is a `TypeError`. -/
def keyToInt (U : Unicode) : MapNum → Option ℤ
  | .int n => some n
  | .bytes _ => none
  | .text s => intOf U s

/-- The values of an entry; a map that is not per CPU has one. -/
def MapFields.vals (e : MapFields) : List MapNum :=
  match e.values with
  | some (v :: vs) => v :: vs
  | _ => [e.value.getD (.int 0)]

/-- Key and sum of an entry. -/
def dumpEntry (U : Unicode) (e : MapEntry) : Option (ℤ × ℤ) := do
  let (key, vals) ← match e.formatted with
    | some fmt => (keyToInt U fmt.key).map fun key => (key, fmt.vals)
    | none => (mapToInt U e.raw.key).map fun key => (key, e.raw.vals)
  let nums ← vals.mapM (mapToInt U)
  some (key, nums.sum)

/-- A dictionary from strings to numbers. -/
abbrev SumDict := Str → Option ℤ

/-- The sums over the CPUs, under the decimal text of the key. -/
def dumpPercpu (U : Unicode) (es : List MapEntry) : Option SumDict :=
  es.foldlM (fun res e => (dumpEntry U e).map fun p => Function.update res (strOf p.1) (some p.2))
    fun _ => none

/-- `raw.get(str(i), 0)`. -/
def SumDict.at (res : SumDict) (i : ℕ) : ℤ := (res (strOf i)).getD 0

/-! ### Writing the configuration -/

/-- `struct.pack("<I", n)`; `none` is the `struct.error` of a number that does not fit. -/
def packU32 (n : ℤ) : Option (List Byte) :=
  if 0 ≤ n ∧ n < 2 ^ 32 then some (leBytes 4 n.toNat) else none

/-- `set_ts_config`: the bytes of the value the tool is to write. -/
def setTsConfig (U : Unicode) (priority dscp flags : Str) : Option (List Byte) := do
  let priority ← intOf U priority
  let dscp ← intOf U dscp
  let flags ← intOf U flags
  let val ← packU32 priority
  let val := val ++ (← packU32 dscp)
  let val := val ++ (← packU32 flags)
  return val ++ (← packU32 0)

/-- The `__u32` at an offset, on the little-endian machine the programs are built for. -/
def u32At (bs : List Byte) (off : ℕ) : U32 := BitVec.ofNat 32 (leNat (slice bs off 4))

/-- The map value as the program reads it. -/
def TsConfig.ofBytes (bs : List Byte) : TsConfig where
  priority := u32At bs 0
  dscp := u32At bs 4
  flags := u32At bs 8
  reserved := u32At bs 12

theorem packU32_eq_some {n : ℤ} {bs : List Byte} (h : packU32 n = some bs) :
    0 ≤ n ∧ n < 2 ^ 32 ∧ bs = leBytes 4 n.toNat := by
  rw [packU32] at h
  split at h
  case isTrue hn => exact ⟨hn.1, hn.2, (Option.some.inj h).symm⟩
  case isFalse => cases h

/-- A word between others is read as the number it was packed from. -/
theorem u32At_append (pre post : List Byte) {n : ℤ} {off : ℕ} (hoff : pre.length = off)
    (h0 : 0 ≤ n) (hn : n < 2 ^ 32) :
    u32At (pre ++ (leBytes 4 n.toNat ++ post)) off = BitVec.ofNat 32 n.toNat := by
  have hslice : slice (pre ++ (leBytes 4 n.toNat ++ post)) off 4 = leBytes 4 n.toNat := by
    rw [slice, ← hoff, List.drop_left, List.take_left' (length_leBytes 4 n.toNat)]
  rw [u32At, hslice, leNat_leBytes 4 n.toNat (by omega)]

/-- **The program reads the numbers that were given**, where they fit. -/
theorem ofBytes_setTsConfig {U : Unicode} {priority dscp flags : Str} {val : List Byte}
    (h : setTsConfig U priority dscp flags = some val) :
    ∃ p d f : ℤ, intOf U priority = some p ∧ intOf U dscp = some d ∧ intOf U flags = some f ∧
      (0 ≤ d ∧ d < 2 ^ 32) ∧
      TsConfig.ofBytes val = { priority := BitVec.ofNat 32 p.toNat
                               dscp := BitVec.ofNat 32 d.toNat
                               flags := BitVec.ofNat 32 f.toNat } := by
  obtain ⟨p, hp, h⟩ := Option.bind_eq_some_iff.mp h
  obtain ⟨d, hd, h⟩ := Option.bind_eq_some_iff.mp h
  obtain ⟨f, hf, h⟩ := Option.bind_eq_some_iff.mp h
  obtain ⟨bp, hbp, h⟩ := Option.bind_eq_some_iff.mp h
  obtain ⟨bd, hbd, h⟩ := Option.bind_eq_some_iff.mp h
  obtain ⟨bf, hbf, h⟩ := Option.bind_eq_some_iff.mp h
  obtain ⟨bz, hbz, h⟩ := Option.bind_eq_some_iff.mp h
  obtain ⟨hp0, hp1, rfl⟩ := packU32_eq_some hbp
  obtain ⟨hd0, hd1, rfl⟩ := packU32_eq_some hbd
  obtain ⟨hf0, hf1, rfl⟩ := packU32_eq_some hbf
  obtain ⟨-, -, rfl⟩ := packU32_eq_some hbz
  obtain rfl := Option.some.inj h
  refine ⟨p, d, f, hp, hd, hf, ⟨hd0, hd1⟩, ?_⟩
  -- each word stands behind those before it
  have hlen : ∀ v, (leBytes 4 v).length = 4 := length_leBytes 4
  have hp := u32At_append [] (leBytes 4 d.toNat ++ (leBytes 4 f.toNat ++ leBytes 4 0)) rfl hp0 hp1
  have hd := u32At_append (leBytes 4 p.toNat) (leBytes 4 f.toNat ++ leBytes 4 0) (hlen _) hd0 hd1
  have hf := u32At_append (leBytes 4 p.toNat ++ leBytes 4 d.toNat) (leBytes 4 0)
    (show _ = 8 by rw [List.length_append, hlen, hlen]) hf0 hf1
  have hz := u32At_append (leBytes 4 p.toNat ++ leBytes 4 d.toNat ++ leBytes 4 f.toNat) []
    (n := 0) (show _ = 12 by rw [List.length_append, List.length_append, hlen, hlen, hlen])
    (by decide) (by decide)
  simp only [List.nil_append, List.append_nil, List.append_assoc] at hp hd hf hz
  rw [TsConfig.ofBytes, List.append_assoc, List.append_assoc]
  exact congr (congr (congr (congrArg TsConfig.mk hp) hd) hf) hz

/-! ### What the tool prints -/

/-- The bytes of a value as they are printed. -/
def hexNum (n v : ℕ) : MapNum := .bytes ((leBytes n v).map hexByte)

variable {ncpu entries : ℕ}

/-- How an index of a per-CPU array is printed. -/
inductive RendersEntry (a : PercpuArray ncpu entries) (i : Fin entries) : MapEntry → Prop
  | formatted (raw : MapFields) : RendersEntry a i
      { raw := raw
        formatted := some
          { key := .int i
            values := some ((List.finRange ncpu).map fun c => .int (a.val c i).toNat) } }
  | raw (hi : (i : ℕ) < 256 ^ 4) : RendersEntry a i
      { raw :=
          { key := hexNum 4 i
            values := some ((List.finRange ncpu).map fun c => hexNum 8 (a.val c i).toNat) } }

/-- How a per-CPU array is printed: its indices in order. -/
def Renders (a : PercpuArray ncpu entries) (es : List MapEntry) : Prop :=
  List.Forall₂ (RendersEntry a) (List.finRange entries) es

/-! ### Numbers read back -/

/-- Converting a printed list element by element. -/
theorem mapM_map_eq_some {α β γ : Type} {f : β → Option γ} {g : α → β} {v : α → γ}
    (h : ∀ a, f (g a) = some (v a)) (l : List α) : (l.map g).mapM f = some (l.map v) :=
  mapM_map_pure fun a _ => h a

theorem mapToInt_hexNum {U : Unicode} (hU : U.Ascii) {n v : ℕ} (hv : v < 256 ^ n) :
    mapToInt U (hexNum n v) = some (v : ℤ) := by
  have hbyte : ∀ b : Byte, (intOf16 U (hexByte b)).bind byteOfInt = some (id b) := by
    intro b
    have hb := b.isLt
    rw [intOf16_hexByte hU, Option.bind_some, byteOfInt, if_pos (by omega), Int.toNat_natCast,
      BitVec.ofNat_toNat, BitVec.setWidth_eq]
    rfl
  rw [hexNum, mapToInt, mapM_map_eq_some hbyte, Option.map_some, List.map_id,
    leNat_leBytes n v hv]

/-- The values of an entry, whether there are CPUs or not. -/
theorem sum_vals (U : Unicode) (a : PercpuArray ncpu entries) (i : Fin entries)
    (num : Fin ncpu → MapNum)
    (hnum : ∀ c, mapToInt U (num c) = some ((a.val c i).toNat : ℤ)) (e : MapFields)
    (hvalues : e.values = some ((List.finRange ncpu).map num)) (hvalue : e.value = none) :
    (e.vals.mapM (mapToInt U)).map List.sum = some (a.total i : ℤ) := by
  have hsum : ((List.finRange ncpu).map fun c => ((a.val c i).toNat : ℤ)).sum
      = (a.total i : ℤ) := by
    rw [PercpuArray.total, Nat.cast_sum, ← List.sum_ofFn, List.ofFn_eq_map]
  cases hcpus : (List.finRange ncpu).map num with
  | nil =>
    have hempty : List.finRange ncpu = [] := List.map_eq_nil_iff.mp hcpus
    rw [hempty, List.map_nil, List.sum_nil] at hsum
    rw [MapFields.vals, hvalues, hcpus, hvalue, ← hsum]
    rfl
  | cons v vs =>
    rw [MapFields.vals, hvalues, hcpus]
    dsimp only
    rw [← hcpus, mapM_map_eq_some hnum, Option.map_some, hsum]

/-- An entry gives its index and its total. -/
theorem dumpEntry_renders {U : Unicode} (hU : U.Ascii) {a : PercpuArray ncpu entries}
    {i : Fin entries} {e : MapEntry} (h : RendersEntry a i e) :
    dumpEntry U e = some ((i : ℤ), (a.total i : ℤ)) := by
  cases h with
  | formatted raw =>
    have hsum := sum_vals U a i (fun c => .int (a.val c i).toNat) (fun c => rfl)
      { key := .int i, values := some _ } rfl rfl
    obtain ⟨nums, hnums, hs⟩ := Option.map_eq_some_iff.mp hsum
    simp only [dumpEntry, keyToInt, Option.map_some, Option.bind_eq_bind, Option.bind_some,
      hnums, hs]
  | raw hi =>
    have hsum := sum_vals U a i (fun c => hexNum 8 (a.val c i).toNat)
      (fun c => mapToInt_hexNum hU (by have := (a.val c i).isLt; omega))
      { key := hexNum 4 i, values := some _ } rfl rfl
    obtain ⟨nums, hnums, hs⟩ := Option.map_eq_some_iff.mp hsum
    simp only [dumpEntry, mapToInt_hexNum hU hi, Option.map_some, Option.bind_eq_bind,
      Option.bind_some, hnums, hs]

theorem strOf_injective {U : Unicode} (hU : U.Ascii) {m n : ℕ} (hm : m < 10 ^ maxStrDigits)
    (hn : n < 10 ^ maxStrDigits) (h : strOf (m : ℤ) = strOf (n : ℤ)) : m = n := by
  have hrt := intOf_strOf hU (m : ℤ) hm
  rw [h, intOf_strOf hU (n : ℤ) hn] at hrt
  exact (Int.ofNat_inj.mp (Option.some.inj hrt)).symm

/-- Reading entries one after the other: the keys read hold their totals, all others what
they held. -/
theorem foldlM_dump {U : Unicode} (hU : U.Ascii) (a : PercpuArray ncpu entries)
    (hent : entries ≤ 10 ^ maxStrDigits) : ∀ (is : List (Fin entries)) (es : List MapEntry)
    (res : SumDict), List.Forall₂ (RendersEntry a) is es →
    ∃ res' : SumDict, es.foldlM (fun res e => (dumpEntry U e).map fun p =>
        Function.update res (strOf p.1) (some p.2)) res = some res' ∧
      (∀ i ∈ is, res' (strOf (i : ℤ)) = some (a.total i : ℤ)) ∧
      ∀ i ∉ is, res' (strOf (i : ℤ)) = res (strOf (i : ℤ)) := by
  intro is es res h
  induction h generalizing res with
  | nil => exact ⟨res, rfl, fun i hi => absurd hi List.not_mem_nil, fun _ _ => rfl⟩
  | cons hentry hrest ih =>
    rename_i i e is es
    -- the entries that follow overwrite no key but their own
    obtain ⟨res', hfold, hin, hout⟩ :=
      ih (Function.update res (strOf (i : ℤ)) (some (a.total i : ℤ)))
    refine ⟨res', ?_, ?_, ?_⟩
    · rw [List.foldlM_cons, dumpEntry_renders hU hentry]
      exact hfold
    · intro j hj
      by_cases hmem : j ∈ is
      · exact hin j hmem
      · obtain rfl : j = i := (List.mem_cons.mp hj).resolve_right hmem
        rw [hout j hmem, Function.update_self]
    · intro j hj
      have hne : j ≠ i := fun h => hj (h ▸ List.mem_cons_self)
      have hstr : strOf (j : ℤ) ≠ strOf (i : ℤ) := fun h =>
        hne (Fin.ext (strOf_injective hU (Nat.lt_of_lt_of_le j.isLt hent)
          (Nat.lt_of_lt_of_le i.isLt hent) h))
      rw [hout j fun h => hj (List.mem_cons_of_mem i h), Function.update_of_ne hstr]

/-- **The dictionary holds the totals.** -/
theorem dumpPercpu_renders {U : Unicode} (hU : U.Ascii) {a : PercpuArray ncpu entries}
    {es : List MapEntry} (hent : entries ≤ 10 ^ maxStrDigits) (h : Renders a es) :
    ∃ res, dumpPercpu U es = some res ∧ ∀ i : Fin entries, res.at i = a.total i := by
  obtain ⟨res, hfold, hin, -⟩ := foldlM_dump hU a hent _ _ (fun _ => none) h
  refine ⟨res, hfold, fun i => ?_⟩
  rw [SumDict.at, hin i (List.mem_finRange i), Option.getD_some]

/-! ### A run between two dumps -/

/-- **What two dumps say about the packets between them.**  From loading on fewer than
`2 ^ 64` packets came, in any order, on any CPUs and with any changes of configuration;
the packets counted are those since the first dump.  Every packet has one of five
reasons; the TS ones are those whose priority was set; the marks are the packets whose
bytes changed, all TS by PCP or port; the buckets hold all packets, and, if every packet
came with priority 0 under the default priority, they tell TS from not TS. -/
theorem accounting {K : Kernel} (hK : K.Exact) (hT : K.Total) {U : Unicode} (hU : U.Ascii)
    (bpftool : ∀ n, PercpuArray ncpu n → List MapEntry)
    (hb : ∀ n (a : PercpuArray ncpu n), Renders a (bpftool n a))
    (pre es : List (NicEvent ncpu))
    (hlt : (packets pre).length + (packets es).length < 2 ^ 64) :
    ∃ st₁ log₁ st₂ log c₁ c₂ h₁ h₂,
      run K (NicState.init ncpu) pre = some (st₁, log₁) ∧ run K st₁ es = some (st₂, log) ∧
      log.map (fun p => (p.cpu, p.skb)) = packets es ∧
      dumpPercpu U (bpftool cntMax st₁.clsf.tsCounters) = some c₁ ∧
      dumpPercpu U (bpftool cntMax st₂.clsf.tsCounters) = some c₂ ∧
      dumpPercpu U (bpftool prioHistBuckets st₁.prioHist) = some h₁ ∧
      dumpPercpu U (bpftool prioHistBuckets st₂.prioHist) = some h₂ ∧
      let d := fun c : TsCounter => c₂.at c.idx - c₁.at c.idx
      let b := fun i : Fin prioHistBuckets => h₂.at i - h₁.at i
      d .normal + d .tsAvtp + d .tsPcp + d .tsUdp + d .parseShort = log.length ∧
      d .tsAvtp + d .tsPcp + d .tsUdp = log.countP (fun p => p.PrioritySet K) ∧
      d .dscpMarked = log.countP (fun p => p.BytesChanged K) ∧
      d .dscpMarked ≤ d .tsPcp + d .tsUdp ∧
      ∑ i, b i = log.length ∧
      ((∀ p ∈ log, p.skb.priority = 0 ∧ p.maps.cfg.priority = 0) →
        b 6 = d .tsAvtp + d .tsPcp + d .tsUdp ∧ b 0 = d .normal + d .parseShort) := by
  obtain ⟨st₁, log₁, hrun₁, hlog₁, hst₁⟩ := (Counted.init K ncpu).run hK hT pre
    (by rw [List.length_nil]; omega)
  rw [List.nil_append] at hst₁
  have hlen₁ : log₁.length = (packets pre).length := by rw [← hlog₁, List.length_map]
  obtain ⟨st₂, log, hrun₂, hlog, hst₂⟩ := hst₁.run hK hT es (by rw [hlen₁]; exact hlt)
  have hsmall : ∀ n : ℕ, n ≤ 16 → n ≤ 10 ^ maxStrDigits := fun n hn =>
    (show n ≤ 2 ^ 64 by omega).trans two_pow_le
  obtain ⟨c₁, hc₁, hat₁⟩ := dumpPercpu_renders hU (hsmall _ (by decide)) (hb _ st₁.clsf.tsCounters)
  obtain ⟨c₂, hc₂, hat₂⟩ := dumpPercpu_renders hU (hsmall _ (by decide)) (hb _ st₂.clsf.tsCounters)
  obtain ⟨h₁, hh₁, hhat₁⟩ := dumpPercpu_renders hU (hsmall _ (by decide)) (hb _ st₁.prioHist)
  obtain ⟨h₂, hh₂, hhat₂⟩ := dumpPercpu_renders hU (hsmall _ (by decide)) (hb _ st₂.prioHist)
  refine ⟨st₁, log₁, st₂, log, c₁, c₂, h₁, h₂, hrun₁, hrun₂, hlog, hc₁, hc₂, hh₁, hh₂, ?_⟩
  -- the deltas count the packets of `log`
  have hd : ∀ r : TsCounter, r ≠ .dscpMarked →
      c₂.at r.idx - c₁.at r.idx = (log.countP (fun p => p.reason = r) : ℤ) := by
    intro r hr
    rw [hat₁, hat₂]
    exact hst₁.delta_counter hst₂ hr
  have hm : c₂.at TsCounter.dscpMarked.idx - c₁.at TsCounter.dscpMarked.idx
      = (log.countP (fun p => p.BytesChanged K) : ℤ) := by
    rw [hat₁, hat₂]
    exact hst₁.delta_marked hst₂
  have hbk : ∀ i : Fin prioHistBuckets, h₂.at i - h₁.at i
      = (log.countP (fun p => prioBucket (p.out K).priority = i) : ℤ) := by
    intro i
    rw [hhat₁, hhat₂]
    exact hst₁.delta_bucket hst₂ i
  have hall := length_eq_countP_reasons log
  have hset := countP_prioritySet K log
  have hchg := countP_bytesChanged_le K log
  have hsum := sum_countP_bucket (fun p => prioBucket (p.out K).priority) log
  dsimp only
  rw [hd .normal TsCounter.noConfusion, hd .tsAvtp TsCounter.noConfusion,
    hd .tsPcp TsCounter.noConfusion, hd .tsUdp TsCounter.noConfusion,
    hd .parseShort TsCounter.noConfusion, hm, hset]
  refine ⟨by omega, by omega, rfl, by omega, ?_, fun hprio => ?_⟩
  · simp only [hbk]
    rw [← Nat.cast_sum, hsum]
  · obtain ⟨h6, h0⟩ := countP_prioBucket_out log hprio
    have hb6 := hbk 6
    have hb0 := hbk 0
    rw [h6] at hb6
    rw [h0] at hb0
    constructor
    · rw [hb6]
      omega
    · rw [hb0]
      omega

/-- The formatted output of the tool. -/
def bpftoolFormatted {n : ℕ} (a : PercpuArray ncpu n) : List MapEntry :=
  (List.finRange n).map fun i : Fin n =>
    { raw := { key := hexNum 4 i }
      formatted := some
        { key := .int i
          values := some ((List.finRange ncpu).map fun c => .int (a.val c i).toNat) } }

theorem renders_bpftoolFormatted {n : ℕ} (a : PercpuArray ncpu n) :
    Renders a (bpftoolFormatted a) := by
  rw [Renders, bpftoolFormatted, List.forall₂_map_right_iff]
  exact List.forall₂_same.mpr fun i _ => RendersEntry.formatted _

/-- A datagram to the default port on one CPU, one to another port on the other, with
marking turned on in between. -/
def twoPackets : List (NicEvent 2) :=
  [.packet 0 { data := udpFrame 6000 [] {} }, .setTsConfig { flags := tsCfgMarkDscp },
    .packet 1 { data := udpFrame 5000 [] {} }]

theorem accounting_two_packets :
    ∃ st₁ st₂ log c₁ c₂,
      run (refKernel .little) (NicState.init 2) [] = some (st₁, []) ∧
      run (refKernel .little) st₁ twoPackets = some (st₂, log) ∧
      dumpPercpu asciiTable (bpftoolFormatted st₁.clsf.tsCounters) = some c₁ ∧
      dumpPercpu asciiTable (bpftoolFormatted st₂.clsf.tsCounters) = some c₂ ∧
      let d := fun c : TsCounter => c₂.at c.idx - c₁.at c.idx
      d .normal + d .tsAvtp + d .tsPcp + d .tsUdp + d .parseShort = 2 := by
  obtain ⟨st₁, log₁, st₂, log, c₁, c₂, h₁, h₂, hrun₁, hrun₂, hlog, hc₁, hc₂, -, -, hall, -⟩ :=
    accounting (refKernel_exact .little) (refKernel_total .little) asciiTable_ascii
      (fun _ a => bpftoolFormatted a) (fun _ a => renders_bpftoolFormatted a) [] twoPackets
      (by decide)
  have hlen : log.length = 2 := by
    rw [← List.length_map (fun p : Passage 2 => (p.cpu, p.skb)), hlog]
    rfl
  rw [hlen] at hall
  have hnil : log₁ = [] := (Prod.mk.inj (Option.some.inj hrun₁)).2.symm
  rw [hnil] at hrun₁
  exact ⟨st₁, st₂, log, c₁, c₂, hrun₁, hrun₂, hc₁, hc₂, hall⟩

end TsPacket
