import TsPacket.Lib.Bytes
import Mathlib.Data.List.Range

/-!
# The talker

`workload/talker.py` numbers its packets from zero and stamps each with the wall clock.
A send may fail, and the number is used up all the same.  The pacing decides when the
clock is read, which is a parameter here.

## Main definitions

* `packHeader`, `unpackHeader` — the header, `!IQ`.
* `talkerRun` — the run over `count` packets, and the datagrams that went out.

## Main results

* `unpackHeader_datagram` — the header is read back from a datagram.
* `talkerRun_eq` — **what a run sends**: the datagrams whose send did not fail, in order.
-/

namespace TsPacket

open Bytes

/-! ### The header -/

/-- `struct.calcsize("!IQ")`. -/
abbrev pktHeaderSize : ℕ := 12

/-- `struct.pack("!IQ", seq, send_time_ns)`; out of range is a `struct.error`. -/
def packHeader (seq sendTimeNs : ℕ) : Option (List Byte) :=
  if seq < 2 ^ 32 ∧ sendTimeNs < 2 ^ 64 then some (beBytes 4 seq ++ beBytes 8 sendTimeNs)
  else none

/-- `struct.unpack("!IQ", data[:12])`. -/
def unpackHeader (data : List Byte) : ℕ × ℕ :=
  (beNat (data.take 4), beNat ((data.drop 4).take 8))

theorem unpackHeader_append {seq sendTimeNs : ℕ} (hseq : seq < 2 ^ 32)
    (hns : sendTimeNs < 2 ^ 64) (rest : List Byte) :
    unpackHeader (beBytes 4 seq ++ beBytes 8 sendTimeNs ++ rest) = (seq, sendTimeNs) := by
  have h4 : (beBytes 4 seq).length = 4 := length_beBytes 4 seq
  have h8 : (beBytes 8 sendTimeNs).length = 8 := length_beBytes 8 sendTimeNs
  rw [unpackHeader, List.append_assoc, List.take_left' h4, List.drop_left' h4, List.take_left' h8,
    beNat_beBytes (show seq < 256 ^ 4 by omega), beNat_beBytes (show sendTimeNs < 256 ^ 8 by omega)]

/-- The header is read from the first twelve bytes. -/
theorem unpackHeader_take (data : List Byte) {n : ℕ} (hn : pktHeaderSize ≤ n) :
    unpackHeader (data.take n) = unpackHeader data := by
  have hn : 12 ≤ n := hn
  rw [unpackHeader, unpackHeader, List.take_take, Nat.min_eq_left (by omega), List.drop_take,
    List.take_take, Nat.min_eq_left (by omega)]

/-- The fields of a header fit their widths. -/
theorem unpackHeader_lt (data : List Byte) :
    (unpackHeader data).1 < 2 ^ 32 ∧ (unpackHeader data).2 < 2 ^ 64 := by
  have hle : ∀ (n : ℕ) (bs : List Byte), bs.length ≤ n → beNat bs < 256 ^ n := fun n bs hn =>
    Nat.lt_of_lt_of_le (beNat_lt bs) (Nat.pow_le_pow_right (by omega) hn)
  exact ⟨hle 4 _ (List.length_take_le 4 data), hle 8 _ (List.length_take_le 8 _)⟩

/-! ### The run -/

/-- The zeros that fill a packet up to `size` bytes. -/
def padding (size : ℤ) : List Byte := List.replicate (size - pktHeaderSize).toNat 0

/-- What a run counts, and what it sent: each datagram with its number. -/
structure TalkerRun where
  sent : ℕ := 0
  errors : ℕ := 0
  wire : List (ℕ × List Byte) := []

/-- One round of the loop; `clock` and `sendOk` say what the wall clock and the socket
answer in it. -/
def talkerSend (size : ℤ) (clock : ℕ → ℕ) (sendOk : ℕ → Bool) (run : TalkerRun) (seq : ℕ) :
    Option TalkerRun := do
  let hdr ← packHeader seq (clock seq)
  if sendOk seq then
    some { run with sent := run.sent + 1, wire := run.wire ++ [(seq, hdr ++ padding size)] }
  else some { run with errors := run.errors + 1 }

/-- The loop over `range(args.count)`. -/
def talkerRun (size : ℤ) (clock : ℕ → ℕ) (sendOk : ℕ → Bool) (count : ℕ) : Option TalkerRun :=
  (List.range count).foldlM (talkerSend size clock sendOk) {}

/-- The datagram of a number. -/
def datagram (size : ℤ) (clock : ℕ → ℕ) (seq : ℕ) : List Byte :=
  beBytes 4 seq ++ beBytes 8 (clock seq) ++ padding size

theorem length_datagram (size : ℤ) (clock : ℕ → ℕ) (seq : ℕ) :
    pktHeaderSize ≤ (datagram size clock seq).length := by
  rw [datagram, List.length_append, List.length_append, length_beBytes, length_beBytes]
  exact Nat.le_add_right 12 _

/-- The header is read back from a datagram. -/
theorem unpackHeader_datagram {clock : ℕ → ℕ} {seq : ℕ} (size : ℤ) (hseq : seq < 2 ^ 32)
    (hns : clock seq < 2 ^ 64) : unpackHeader (datagram size clock seq) = (seq, clock seq) :=
  unpackHeader_append hseq hns _

/-- **What a run sends**, and that it counts every attempt. -/
theorem talkerRun_eq (size : ℤ) (clock : ℕ → ℕ) (sendOk : ℕ → Bool) : ∀ count : ℕ,
    count ≤ 2 ^ 32 → (∀ k < count, clock k < 2 ^ 64) →
    ∃ run, talkerRun size clock sendOk count = some run ∧
      run.wire = ((List.range count).filter sendOk).map (fun k => (k, datagram size clock k)) ∧
      run.sent = ((List.range count).filter sendOk).length ∧ run.sent + run.errors = count := by
  intro count
  induction count with
  | zero => intro _ _; exact ⟨{}, rfl, rfl, rfl, rfl⟩
  | succ n ih =>
    intro hcount hclock
    obtain ⟨run, hrun, hwire, hsent, htotal⟩ :=
      ih (by omega) fun k hk => hclock k (Nat.lt_succ_of_lt hk)
    have hpack : packHeader n (clock n) = some (beBytes 4 n ++ beBytes 8 (clock n)) :=
      if_pos ⟨by omega, hclock n (Nat.lt_succ_self n)⟩
    -- the last number goes out, or is counted as an error and used up all the same
    rw [talkerRun] at hrun
    rw [talkerRun, List.range_succ, List.foldlM_append, hrun, List.filter_append, List.map_append]
    by_cases hok : sendOk n = true
    · refine ⟨⟨run.sent + 1, run.errors, run.wire ++ [(n, datagram size clock n)]⟩,
        ?_, ?_, ?_, ?_⟩
      · simp [talkerSend, hpack, hok, datagram]
      · simp [hwire, hok]
      · simp [hsent, hok]
      · dsimp only
        omega
    · refine ⟨⟨run.sent, run.errors + 1, run.wire⟩, ?_, ?_, ?_, ?_⟩
      · simp [talkerSend, hpack, hok]
      · simp [hwire, hok]
      · simp [hsent, hok]
      · dsimp only
        omega

end TsPacket
