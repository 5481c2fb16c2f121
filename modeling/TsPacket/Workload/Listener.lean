import Mathlib.Algebra.Order.Ring.Int
import Mathlib.Data.List.Dedup
import TsPacket.Lib.Csv
import TsPacket.Lib.OnesComplement
import TsPacket.Lib.PyText
import TsPacket.Lib.RunningMax
import TsPacket.Workload.Talker

/-!
# The listener

`workload/listener.py` records one row per datagram that carries a whole header and
writes the rows as CSV.  What the socket delivers, with the clock read after it, is a
list of events; the list ends where the user interrupts, unless a timeout ended the loop
before.

## Main definitions

* `recvOne` — the datagram with its TOS byte and its kernel timestamp.
* `Row`, `listen` — a row of the results, and the receive loop.
* `listenerMain` — the file that is written, if anything was received.
* `listenerLoss` — the loss it prints.

## Main results

* `listen_results` — **every row comes from a datagram with a header**, so its fields fit.
* `listen_datagrams` — **without a timeout every datagram with a header has its row**, in
  order.
-/

namespace TsPacket

open Bytes PyText

/-- A control message of `recvmsg`. -/
structure Cmsg where
  level : ℕ
  ctype : ℕ
  cdata : List Byte

/-- `IPPROTO_IP`. -/
def ipprotoIp : ℕ := 0
/-- `IP_TOS`. -/
def ipTos : ℕ := 1
/-- `SOL_SOCKET`. -/
def solSocket : ℕ := 1
/-- `SCM_TIMESTAMPNS_NEW`. -/
def scmTimestampnsNew : ℕ := 64

/-- The arguments of a run, and the byte order `struct` uses for native fields. -/
structure ListenerArgs where
  expectedIntervalNs : ℤ
  recordTos : Bool
  kernelTs : Bool
  byteOrder : OnesComplement.ByteOrder := .little

/-- A signed native 64-bit field. -/
def nativeInt64 (o : OnesComplement.ByteOrder) (bs : List Byte) : ℤ :=
  (BitVec.ofNat 64 (match o with
    | .little => leNat bs
    | .big => beNat bs)).toInt

/-- One control message: the TOS byte, or the timestamp, if it is one of these.  `none`
is the `IndexError` of an empty TOS message. -/
def recvCmsg (args : ListenerArgs) (acc : Option ℤ × Option ℤ) (c : Cmsg) :
    Option (Option ℤ × Option ℤ) :=
  if c.level = ipprotoIp ∧ c.ctype = ipTos then
    (read8 c.cdata 0).map fun tos => (some (tos.toNat : ℤ), acc.2)
  else if c.level = solSocket ∧ c.ctype = scmTimestampnsNew ∧ 16 ≤ c.cdata.length then
    let sec := nativeInt64 args.byteOrder (c.cdata.take 8)
    let nsec := nativeInt64 args.byteOrder ((c.cdata.drop 8).take 8)
    some (acc.1, some (sec * 1000000000 + nsec))
  else some acc

/-- The datagram, its TOS byte and its kernel timestamp; what is not asked for is left out. -/
def recvOne (args : ListenerArgs) (data : List Byte) (ancdata : List Cmsg) :
    Option (List Byte × Option ℤ × Option ℤ) :=
  if ¬ args.recordTos ∧ ¬ args.kernelTs then some (data.take 65535, none, none)
  else
    (ancdata.foldlM (recvCmsg args) (if args.recordTos then some (-1) else none, none)).map
      fun acc => (data.take 65535, acc.1, acc.2)

variable {F : Type}

/-- A row of the results; the last two columns are there if they were asked for. -/
structure Row (F : Type) where
  seq : ℕ
  sendNs : ℕ
  recvNs : ℕ
  latencyMs : F
  jitterUs : F
  pktSize : ℕ
  tos : Option ℤ
  recvKernelNs : Option ℤ

/-- A datagram with its control messages, and what the clock shows after it. -/
structure Received where
  data : List Byte
  ancdata : List Cmsg := []
  recvNs : ℕ

/-- What the socket does: nothing within the timeout, or a datagram. -/
inductive ListenerEvent
  | timeout
  | datagram (m : Received)

/-- The variables of the loop. -/
structure ListenerState (F : Type) where
  results : List (Row F) := []
  prevRecvNs : Option ℕ := none

/-- The row of a datagram. -/
def recordRow (fl : FloatOps F) (args : ListenerArgs) (prevRecvNs : Option ℕ)
    (data : List Byte) (tos kernelNs : Option ℤ) (recvNs : ℕ) : Row F :=
  let hdr := unpackHeader data
  { seq := hdr.1
    sendNs := hdr.2
    recvNs := recvNs
    latencyMs := fl.div (fl.ofInt (recvNs - hdr.2)) fl.e6
    -- the first packet has no interval before it
    jitterUs := match prevRecvNs with
      | none => fl.zero
      | some prev => fl.div (fl.ofInt (recvNs - (prev + args.expectedIntervalNs))) fl.e3
    pktSize := data.length
    tos := if args.recordTos then tos else none
    -- -1 stands for a stamp that was asked for and did not come
    recvKernelNs := if args.kernelTs then some (kernelNs.getD (-1)) else none }

/-- The receive loop. -/
def listen (fl : FloatOps F) (args : ListenerArgs) :
    List ListenerEvent → ListenerState F → Option (ListenerState F)
  | [], st => some st
  | .timeout :: evs, st => if st.results ≠ [] then some st else listen fl args evs st
  | .datagram m :: evs, st => do
    let (data, tos, kernelNs) ← recvOne args m.data m.ancdata
    if data.length < pktHeaderSize then listen fl args evs st
    else
      let row := recordRow fl args st.prevRecvNs data tos kernelNs m.recvNs
      listen fl args evs { results := st.results ++ [row], prevRecvNs := some m.recvNs }

/-! ### The file -/

/-- The columns: the keys of the first row. -/
def fieldnames (args : ListenerArgs) : List Str :=
  ["seq".toList, "send_ns".toList, "recv_ns".toList, "latency_ms".toList, "jitter_us".toList,
    "pkt_size".toList] ++ (if args.recordTos then ["tos".toList] else [])
    ++ (if args.kernelTs then ["recv_kernel_ns".toList] else [])

/-- The text of a cell that may be `None`. -/
def cellOf : Option ℤ → Str
  | none => []
  | some z => strOf z

/-- The cells of a row, in the order of the columns. -/
def rowCells (fl : FloatOps F) (args : ListenerArgs) (r : Row F) : List Str :=
  [strOf r.seq, strOf r.sendNs, strOf r.recvNs, fl.repr r.latencyMs, fl.repr r.jitterUs,
    strOf r.pktSize] ++ (if args.recordTos then [cellOf r.tos] else [])
    ++ (if args.kernelTs then [cellOf r.recvKernelNs] else [])

/-- What `csv.DictWriter` writes. -/
def csvText (fl : FloatOps F) (args : ListenerArgs) (results : List (Row F)) : List Char :=
  Csv.write (fieldnames args :: results.map (rowCells fl args))

/-- The program: the file it writes, or none if nothing was received. -/
def listenerMain (fl : FloatOps F) (args : ListenerArgs) (evs : List ListenerEvent) :
    Option (Option (List Char)) :=
  (listen fl args evs {}).map fun st =>
    if st.results = [] then none else some (csvText fl args st.results)

/-! ### The loss it prints -/

/-- The numbers of the closing line. -/
structure ListenerLoss where
  expected : ℤ
  unique : ℤ
  loss : ℤ
  dups : ℤ
  reorders : ℤ
  deriving DecidableEq

/-- The loss over the sequence numbers in the order they came; without rows nothing is
printed. -/
def listenerLoss (seqs : List ℕ) : Option ListenerLoss :=
  seqs.max?.map fun top : ℕ =>
    let unique : ℤ := seqs.dedup.length
    let expected : ℤ := top + 1
    { expected := expected
      unique := unique
      loss := expected - unique
      dups := seqs.length - unique
      -- the loop starts with `max_seen = -1`
      reorders := RunningMax.lateFrom (-1 : ℤ) (seqs.map Nat.cast) }

/-! ### What is received -/

/-- A TOS message carries its byte. -/
def Received.WholeTos (m : Received) : Prop :=
  ∀ c ∈ m.ancdata, c.level = ipprotoIp → c.ctype = ipTos → c.cdata ≠ []

/-- The TOS value of a row: a byte, or `-1` for none. -/
def TosValue (t : ℤ) : Prop := -1 ≤ t ∧ t < 256

theorem tosValue_toNat (b : Byte) : TosValue (b.toNat : ℤ) := by
  have hb := b.isLt
  constructor <;> omega

/-- One control message: it is no error, and a TOS that was there still is. -/
theorem recvCmsg_tos {args : ListenerArgs} {acc acc' : Option ℤ × Option ℤ} {c : Cmsg}
    (h : recvCmsg args acc c = some acc') (hacc : ∃ t, acc.1 = some t ∧ TosValue t) :
    ∃ t, acc'.1 = some t ∧ TosValue t := by
  rw [recvCmsg] at h
  split at h
  · obtain ⟨b, -, rfl⟩ := Option.map_eq_some_iff.mp h
    exact ⟨_, rfl, tosValue_toNat b⟩
  · split at h
    · rw [← Option.some.inj h]
      exact hacc
    · rw [← Option.some.inj h]
      exact hacc

/-- A timestamp of the kernel, made of two 64-bit numbers. -/
def KernelValue (t : ℤ) : Prop := t.natAbs < 10 ^ 29

theorem natAbs_nativeInt64 (o : OnesComplement.ByteOrder) (bs : List Byte) :
    (nativeInt64 o bs).natAbs ≤ 2 ^ 63 := by
  unfold nativeInt64
  generalize BitVec.ofNat 64 _ = b
  have hlt := BitVec.toInt_lt (x := b)
  have hle := BitVec.le_toInt b
  omega

/-- One control message keeps a timestamp in range. -/
theorem recvCmsg_kernel {args : ListenerArgs} {acc acc' : Option ℤ × Option ℤ} {c : Cmsg}
    (h : recvCmsg args acc c = some acc') (hacc : ∀ t, acc.2 = some t → KernelValue t) :
    ∀ t, acc'.2 = some t → KernelValue t := by
  rw [recvCmsg] at h
  split at h
  · obtain ⟨b, -, rfl⟩ := Option.map_eq_some_iff.mp h
    exact hacc
  · split at h
    · rw [← Option.some.inj h]
      rintro t ⟨⟩
      have hsec := natAbs_nativeInt64 args.byteOrder (c.cdata.take 8)
      have hnsec := natAbs_nativeInt64 args.byteOrder ((c.cdata.drop 8).take 8)
      rw [KernelValue]
      omega
    · rw [← Option.some.inj h]
      exact hacc

theorem recvCmsg_isSome (args : ListenerArgs) (acc : Option ℤ × Option ℤ) {c : Cmsg}
    (hc : c.level = ipprotoIp → c.ctype = ipTos → c.cdata ≠ []) :
    ∃ acc', recvCmsg args acc c = some acc' := by
  rw [recvCmsg]
  split
  case isTrue htos =>
    have hlen : 0 < c.cdata.length := List.length_pos_iff.mpr (hc htos.1 htos.2)
    rw [read8_eq_some hlen]
    exact ⟨_, rfl⟩
  case isFalse =>
    split
    · exact ⟨_, rfl⟩
    · exact ⟨_, rfl⟩

theorem foldlM_recvCmsg_tos {args : ListenerArgs} : ∀ (cs : List Cmsg)
    {acc acc' : Option ℤ × Option ℤ}, cs.foldlM (recvCmsg args) acc = some acc' →
    (∃ t, acc.1 = some t ∧ TosValue t) → ∃ t, acc'.1 = some t ∧ TosValue t := by
  intro cs
  induction cs with
  | nil =>
    intro acc acc' h hacc
    rw [← Option.some.inj h]
    exact hacc
  | cons c cs ih =>
    intro acc acc' h hacc
    rw [List.foldlM_cons] at h
    obtain ⟨acc₁, h₁, h⟩ := Option.bind_eq_some_iff.mp h
    exact ih h (recvCmsg_tos h₁ hacc)

theorem foldlM_recvCmsg_kernel {args : ListenerArgs} : ∀ (cs : List Cmsg)
    {acc acc' : Option ℤ × Option ℤ}, cs.foldlM (recvCmsg args) acc = some acc' →
    (∀ t, acc.2 = some t → KernelValue t) → ∀ t, acc'.2 = some t → KernelValue t := by
  intro cs
  induction cs with
  | nil =>
    intro acc acc' h hacc
    rw [← Option.some.inj h]
    exact hacc
  | cons c cs ih =>
    intro acc acc' h hacc
    rw [List.foldlM_cons] at h
    obtain ⟨acc₁, h₁, h⟩ := Option.bind_eq_some_iff.mp h
    exact ih h (recvCmsg_kernel h₁ hacc)

theorem foldlM_recvCmsg_isSome (args : ListenerArgs) : ∀ (cs : List Cmsg)
    (acc : Option ℤ × Option ℤ),
    (∀ c ∈ cs, c.level = ipprotoIp → c.ctype = ipTos → c.cdata ≠ []) →
    ∃ acc', cs.foldlM (recvCmsg args) acc = some acc' := by
  intro cs
  induction cs with
  | nil => intro acc _; exact ⟨acc, rfl⟩
  | cons c cs ih =>
    intro acc h
    obtain ⟨acc₁, h₁⟩ := recvCmsg_isSome args acc (h c List.mem_cons_self)
    obtain ⟨acc', h'⟩ := ih acc₁ fun d hd => h d (List.mem_cons_of_mem c hd)
    exact ⟨acc', by rw [List.foldlM_cons, h₁]; exact h'⟩

/-- What a receive returns: the datagram, cut to the buffer, a TOS if asked for, and a
timestamp in range if there is one. -/
theorem recvOne_spec {args : ListenerArgs} {data data' : List Byte} {ancdata : List Cmsg}
    {tos kts : Option ℤ} (h : recvOne args data ancdata = some (data', tos, kts)) :
    data' = data.take 65535 ∧ (args.recordTos = true → ∃ t, tos = some t ∧ TosValue t) ∧
      ∀ t, kts = some t → KernelValue t := by
  rw [recvOne] at h
  split at h
  case isTrue hno =>
    cases h
    exact ⟨rfl, fun htos => absurd htos hno.1, nofun⟩
  case isFalse =>
    obtain ⟨acc, hacc, heq⟩ := Option.map_eq_some_iff.mp h
    cases heq
    refine ⟨rfl, fun htos => foldlM_recvCmsg_tos _ hacc ⟨-1, ?_, ?_⟩,
      foldlM_recvCmsg_kernel _ hacc nofun⟩
    · rw [if_pos htos]
    · constructor <;> omega

theorem recvOne_isSome (args : ListenerArgs) {m : Received} (hm : m.WholeTos) :
    ∃ tos kts, recvOne args m.data m.ancdata = some (m.data.take 65535, tos, kts) := by
  rw [recvOne]
  split
  · exact ⟨none, none, rfl⟩
  · obtain ⟨acc, hacc⟩ := foldlM_recvCmsg_isSome args m.ancdata
      (if args.recordTos = true then some (-1) else none, none) hm
    exact ⟨acc.1, acc.2, by rw [hacc]; rfl⟩

/-! ### The rows -/

/-- The fields of a row fit the types they were read as. -/
structure RowFits (args : ListenerArgs) (r : Row F) : Prop where
  seq : r.seq < 2 ^ 32
  sendNs : r.sendNs < 2 ^ 64
  recvNs : r.recvNs < 2 ^ 63
  pktSize : r.pktSize ≤ 65535
  tos : args.recordTos = true → ∃ t, r.tos = some t ∧ TosValue t
  kernelNs : args.kernelTs = true → ∃ t, r.recvKernelNs = some t ∧ KernelValue t

theorem recordRow_fits (fl : FloatOps F) {args : ListenerArgs} (prev : Option ℕ)
    {m : Received} {data : List Byte} {tos kts : Option ℤ} (hclock : m.recvNs < 2 ^ 63)
    (h : recvOne args m.data m.ancdata = some (data, tos, kts)) :
    RowFits args (recordRow fl args prev data tos kts m.recvNs) := by
  obtain ⟨rfl, htos, hkernel⟩ := recvOne_spec h
  refine ⟨(unpackHeader_lt _).1, (unpackHeader_lt _).2, hclock, ?_, fun hrec => ?_, fun hrec => ?_⟩
  · exact List.length_take_le 65535 m.data
  · obtain ⟨t, ht, hval⟩ := htos hrec
    exact ⟨t, (if_pos hrec).trans ht, hval⟩
  · refine ⟨kts.getD (-1), if_pos hrec, ?_⟩
    cases hkts : kts with
    | none => exact show (-1 : ℤ).natAbs < 10 ^ 29 by decide
    | some t => exact hkernel t hkts

/-- **Every row comes from a datagram with a header**, so its fields fit. -/
theorem listen_results (fl : FloatOps F) (args : ListenerArgs) : ∀ (evs : List ListenerEvent)
    {st st' : ListenerState F}, (∀ m, .datagram m ∈ evs → m.recvNs < 2 ^ 63) →
    listen fl args evs st = some st' → (∀ r ∈ st.results, RowFits args r) →
    ∀ r ∈ st'.results, RowFits args r := by
  intro evs
  -- one event after the other: a row is added, or none is
  induction evs with
  | nil =>
    intro st st' _ h hst
    rw [← Option.some.inj h]
    exact hst
  | cons e evs ih =>
    intro st st' hclock h hst
    have hclock' : ∀ m, .datagram m ∈ evs → m.recvNs < 2 ^ 63 :=
      fun m hm => hclock m (List.mem_cons_of_mem e hm)
    cases e with
    | timeout =>
      rw [listen] at h
      split at h
      · rw [← Option.some.inj h]
        exact hst
      · exact ih hclock' h hst
    | datagram m =>
      rw [listen] at h
      obtain ⟨⟨data, tos, kts⟩, hrecv, h⟩ := Option.bind_eq_some_iff.mp h
      dsimp only at h
      split at h
      · exact ih hclock' h hst
      · refine ih hclock' h fun r hr => ?_
        rcases List.mem_append.mp hr with hr | hr
        · exact hst r hr
        · rw [List.mem_singleton.mp hr]
          exact recordRow_fits fl _ (hclock m List.mem_cons_self) hrecv

/-- What a row says of its datagram. -/
def Row.fields (r : Row F) : ℕ × ℕ × ℕ × ℕ := (r.seq, r.sendNs, r.recvNs, r.pktSize)

/-- What a datagram says: its header, when it came, and its length. -/
def Received.fields (m : Received) : ℕ × ℕ × ℕ × ℕ :=
  ((unpackHeader m.data).1, (unpackHeader m.data).2, m.recvNs, (m.data.take 65535).length)

theorem recordRow_fields (fl : FloatOps F) (args : ListenerArgs) (prev : Option ℕ)
    (m : Received) (tos kts : Option ℤ) :
    (recordRow fl args prev (m.data.take 65535) tos kts m.recvNs).fields = m.fields := by
  have hhdr := unpackHeader_take m.data (show 12 ≤ 65535 by omega)
  simp only [Row.fields, recordRow, Received.fields, hhdr]

/-- **Without a timeout every datagram with a header has its row**, in order. -/
theorem listen_datagrams (fl : FloatOps F) (args : ListenerArgs) : ∀ (ms : List Received)
    (st : ListenerState F),
    (∀ m ∈ ms, m.WholeTos ∧ pktHeaderSize ≤ m.data.length) →
    ∃ st', listen fl args (ms.map .datagram) st = some st' ∧
      st'.results.map Row.fields = st.results.map Row.fields ++ ms.map Received.fields := by
  intro ms
  induction ms with
  | nil => intro st _; exact ⟨st, rfl, by rw [List.map_nil, List.append_nil]⟩
  | cons m ms ih =>
    intro st h
    obtain ⟨hm, hlen⟩ := h m List.mem_cons_self
    obtain ⟨tos, kts, hrecv⟩ := recvOne_isSome args hm
    -- the buffer is larger than a header, so a whole header is never skipped
    have hlen' : ¬ (m.data.take 65535).length < pktHeaderSize := by
      have hlen₁ : 12 ≤ m.data.length := hlen
      rw [List.length_take, Nat.not_lt]
      exact Nat.le_min.mpr ⟨show 12 ≤ 65535 by omega, hlen₁⟩
    obtain ⟨st', hrun, hfields⟩ := ih
      { results := st.results
          ++ [recordRow fl args st.prevRecvNs (m.data.take 65535) tos kts m.recvNs]
        prevRecvNs := some m.recvNs } fun m' hm' => h m' (List.mem_cons_of_mem m hm')
    refine ⟨st', ?_, ?_⟩
    · rw [List.map_cons, listen, hrecv]
      simp only [Option.bind_eq_bind, Option.bind_some, if_neg hlen']
      exact hrun
    · rw [hfields, List.map_append, List.append_assoc, List.map_singleton, recordRow_fields,
        List.map_cons, List.singleton_append]

end TsPacket
