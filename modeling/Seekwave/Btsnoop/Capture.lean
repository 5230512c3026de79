import Seekwave.Btsnoop.File
import Seekwave.Lib.Execution

/-!
# Captures by several threads

The socket thread and the receive threads all call `skw_btsnoop_capture`, which writes a record in seven
pieces under `btsnoop_log_lock`. This file models the calls piece by piece under any interleaving, gives
the grammar that readers of the file decode it by, and proves that decoding gives back the packets in the
order of the lock: `capture_decodes`.

The invariant (`CaptureInv`) adds the pieces that the owner of the lock has still to write to the bytes
in the file.
-/

open Memory

namespace Seekwave

/-! ## Decoding -/

/-- A record as the btsnoop grammar has it. -/
structure DecodedRecord where
  originalLength : ℕ
  includedLength : ℕ
  flags : ℕ
  drops : ℕ
  timestamp : ℕ
  data : List UInt8
deriving DecidableEq, Repr

/-- The record at the front of `b`, with the rest behind it. -/
def decodeRecord (b : List UInt8) : Option (DecodedRecord × List UInt8) :=
  if 24 ≤ b.length ∧ 24 + be32At b 4 ≤ b.length then
    some (⟨be32At b 0, be32At b 4, be32At b 8, be32At b 12, be32At b 16 * 2 ^ 32 + be32At b 20,
      (b.drop 24).take (be32At b 4)⟩, b.drop (24 + be32At b 4))
  else none

/-- At most `n` records, to the end of the bytes. -/
def decodeRecords : ℕ → List UInt8 → Option (List DecodedRecord)
  | _, [] => some []
  | 0, _ :: _ => none
  | n + 1, b@(_ :: _) => do
    let (r, rest) ← decodeRecord b
    return r :: (← decodeRecords n rest)

/-- A btsnoop file: the header and records to its end. -/
def decodeBtsnoop (b : List UInt8) : Option (List DecodedRecord) :=
  if b.take 16 = btsnoopHeader then decodeRecords b.length (b.drop 16) else none

/-- The words of a record are read back, behind those before them. -/
theorem be32At_words {ws : List ℕ} (hws : ∀ w ∈ ws, w < 2 ^ 32) (b : List UInt8) {k : ℕ} {w : ℕ}
    (hk : ws[k]? = some w) : be32At ((ws.map be32).flatten ++ b) (4 * k) = w := by
  induction ws generalizing k with
  | nil => exact absurd hk nofun
  | cons v ws ih =>
    rw [List.map_cons, List.flatten_cons, List.append_assoc]
    cases k with
    | zero =>
      obtain rfl := Option.some.inj hk
      exact be32At_be32 (hws _ List.mem_cons_self) _
    | succ k =>
      rw [be32At_append_right (by rw [length_be32]; omega), length_be32,
        show 4 * (k + 1) - 4 = 4 * k by omega]
      exact ih (fun w hw => hws w (List.mem_cons_of_mem _ hw)) hk

/-- What `skw_btsnoop_capture` writes of a record decodes to it, whatever follows. -/
theorem decodeRecord_encode {r : SnoopRecord} {timestamp : ℕ} (hlen : r.bytes.length = r.lengthHe)
    (hfits : r.lengthHe < 2 ^ 32) (hflags : r.flags < 2 ^ 32) (htime : timestamp < 2 ^ 64)
    (rest : List UInt8) :
    decodeRecord (r.encode timestamp ++ rest) =
      some (⟨r.lengthHe, r.lengthHe, r.flags, 0, timestamp, r.bytes⟩, rest) := by
  have hsplit : r.encode timestamp ++ rest = ([r.lengthHe, r.lengthHe, r.flags, 0, timestamp / 2 ^ 32,
      timestamp % 2 ^ 32].map be32).flatten ++ (r.bytes ++ rest) := by
    rw [SnoopRecord.encode, SnoopRecord.writes]
    simp only [List.flatten_cons, List.flatten_nil, List.append_nil, List.map_cons, List.map_nil,
      List.append_assoc]
  have hwords : ∀ w ∈ [r.lengthHe, r.lengthHe, r.flags, 0, timestamp / 2 ^ 32, timestamp % 2 ^ 32],
      w < 2 ^ 32 := by
    simp only [List.mem_cons, List.not_mem_nil, or_false]
    omega
  -- the words of the header are read back one by one
  have hword : ∀ k w, [r.lengthHe, r.lengthHe, r.flags, 0, timestamp / 2 ^ 32,
      timestamp % 2 ^ 32][k]? = some w → be32At (r.encode timestamp ++ rest) (4 * k) = w := by
    intro k w hk
    rw [hsplit]
    exact be32At_words hwords _ hk
  have hlength : (r.encode timestamp ++ rest).length = 24 + r.lengthHe + rest.length := by
    rw [List.length_append, r.length_encode, hlen]
  have hheader : (([r.lengthHe, r.lengthHe, r.flags, 0, timestamp / 2 ^ 32,
      timestamp % 2 ^ 32].map be32).flatten).length = 24 := rfl
  have hdata : ((r.encode timestamp ++ rest).drop 24).take r.lengthHe = r.bytes := by
    rw [hsplit, List.drop_left' hheader]
    exact List.take_left' hlen
  have hrest : (r.encode timestamp ++ rest).drop (24 + r.lengthHe) = rest := by
    exact List.drop_left' (by rw [r.length_encode, hlen])
  have htimestamp : timestamp / 2 ^ 32 * 2 ^ 32 + timestamp % 2 ^ 32 = timestamp := by omega
  rw [decodeRecord, if_pos (by rw [hword 1 _ rfl, hlength]; omega), hword 0 _ rfl, hword 1 _ rfl,
    hword 2 _ rfl, hword 3 _ rfl, hword 4 _ rfl, hword 5 _ rfl, hdata, hrest, htimestamp]

/-! ## The captures that are made -/

/-- A call of `skw_btsnoop_capture`: the bytes its pointer leads to, and the direction. -/
structure Capture where
  packet : List UInt8
  isReceived : Bool
deriving DecidableEq, Repr

/-- A packet of one of the five types, in a buffer that holds at least the declared length. -/
structure Capture.Valid (c : Capture) : Prop where
  type : byteAt c.packet 0 = hciCommandPkt ∨ byteAt c.packet 0 = hciAcldataPkt ∨
    byteAt c.packet 0 = hciScodataPkt ∨ byteAt c.packet 0 = hciEventPkt ∨
    byteAt c.packet 0 = hciIsoPkt
  length : packetLen c.packet ≤ c.packet.length

/-- What a decoded record is to say of a capture made at a time. -/
structure Capture.RecordedAs (c : Capture) (timestamp : ℕ) (r : DecodedRecord) : Prop where
  originalLength : r.originalLength = packetLen c.packet
  includedLength : r.includedLength = packetLen c.packet
  drops : r.drops = 0
  timestamp : r.timestamp = timestamp
  data : r.data = c.packet.take (packetLen c.packet)
  command : byteAt c.packet 0 = hciCommandPkt → r.flags = 2
  event : byteAt c.packet 0 = hciEventPkt → r.flags = 3
  direction : byteAt c.packet 0 = hciAcldataPkt ∨ byteAt c.packet 0 = hciScodataPkt ∨
    byteAt c.packet 0 = hciIsoPkt → r.flags = c.isReceived.toNat

/-- The bytes that a capture adds to the file. -/
def Capture.encode (c : Capture) (timestamp : ℕ) : List UInt8 :=
  (skwBtsnoopCapture c.packet c.isReceived).elim [] fun r => r.encode timestamp

/-- For each of the five types `length_he` is what the header announces. -/
theorem lengthHe_of_valid {c : Capture} (h : c.Valid) :
    lengthHe c.packet = some (packetLen c.packet) := by
  rcases h.type with ht | ht | ht | ht | ht
  · simp +decide only [lengthHe, packetLen, hdrLens, recvPayloadLen, ht, hciPreambleSizes_command,
      hciCommonDataLengthIndex, if_true, if_false, Option.some.injEq]
    omega
  · exact lengthHe_eq (.inr (.inl ht)) (by rw [ht]; decide)
  · exact lengthHe_eq (.inr (.inr (.inl ht))) (by rw [ht]; decide)
  · exact lengthHe_eq (.inl ht) (by rw [ht]; decide)
  · exact lengthHe_eq (.inr (.inr (.inr (.inr ht)))) (by rw [ht]; decide)

theorem snoopFlags_lt (packet : List UInt8) (isReceived : Bool) : snoopFlags packet isReceived < 4 := by
  have := Bool.toNat_le isReceived
  simp only [snoopFlags]
  split
  · omega
  · split <;> omega

/-- What a valid capture adds to the file decodes to a record of it. -/
theorem Capture.Valid.decode {c : Capture} (h : c.Valid) {timestamp : ℕ} (htime : timestamp < 2 ^ 64)
    (rest : List UInt8) :
    24 ≤ (c.encode timestamp).length ∧ ∃ r, c.RecordedAs timestamp r ∧
      decodeRecord (c.encode timestamp ++ rest) = some (r, rest) := by
  have hlength := lengthHe_of_valid h
  have hfits := lengthHe_lt hlength
  have htake : (c.packet.take (packetLen c.packet)).length = packetLen c.packet :=
    List.length_take_of_le h.length
  have hflags := snoopFlags_lt c.packet c.isReceived
  have hencode : c.encode timestamp = (SnoopRecord.mk (packetLen c.packet)
      (snoopFlags c.packet c.isReceived) (c.packet.take (packetLen c.packet))).encode timestamp := by
    rw [Capture.encode, skwBtsnoopCapture, hlength]
    rfl
  rw [hencode]
  refine ⟨by rw [SnoopRecord.length_encode]; omega, _, ?_,
    decodeRecord_encode htake (by show packetLen c.packet < _; omega)
      (by show snoopFlags _ _ < _; omega) htime rest⟩
  refine ⟨rfl, rfl, rfl, rfl, rfl, fun ht => ?_, fun ht => ?_, fun ht => ?_⟩
  · show snoopFlags _ _ = 2
    simp only [snoopFlags, ht, if_true]
  · show snoopFlags _ _ = 3
    simp +decide only [snoopFlags, ht, if_true, if_false]
  · show snoopFlags _ _ = _
    rcases ht with ht | ht | ht <;> simp +decide only [snoopFlags, ht, if_false]

/-- Captures, one behind the other, decode to their records. -/
theorem decodeRecords_captures (cs : List (Capture × ℕ))
    (hvalid : ∀ q ∈ cs, q.1.Valid ∧ q.2 < 2 ^ 64) {n : ℕ} (hn : cs.length ≤ n) :
    ∃ rs, decodeRecords n (cs.flatMap fun q => q.1.encode q.2) = some rs ∧
      List.Forall₂ (fun q r => q.1.RecordedAs q.2 r) cs rs := by
  induction cs generalizing n with
  | nil => exact ⟨[], by cases n <;> rfl, .nil⟩
  | cons q cs ih =>
    obtain ⟨hq, htime⟩ := hvalid q List.mem_cons_self
    obtain ⟨n, rfl⟩ : ∃ m, n = m + 1 := ⟨n - 1, by rw [List.length_cons] at hn; omega⟩
    obtain ⟨rs, hrs, hall⟩ := ih (fun p hp => hvalid p (List.mem_cons_of_mem _ hp))
      (Nat.le_of_succ_le_succ hn)
    obtain ⟨hlen, r, hr, hdec⟩ := hq.decode htime (cs.flatMap fun q => q.1.encode q.2)
    refine ⟨r :: rs, ?_, .cons hr hall⟩
    rw [List.flatMap_cons]
    generalize hb : q.1.encode q.2 ++ cs.flatMap (fun q => q.1.encode q.2) = b at hdec ⊢
    cases b with
    | nil =>
      have := congrArg List.length hb
      rw [List.length_append, List.length_nil] at this
      omega
    | cons x b =>
      rw [decodeRecords, hdec]
      simp only [Option.bind_eq_bind, Option.bind_some, hrs]
      rfl

/-- Every capture adds some bytes. -/
theorem length_le_captures (cs : List (Capture × ℕ)) (hvalid : ∀ q ∈ cs, q.1.Valid ∧ q.2 < 2 ^ 64) :
    cs.length ≤ (cs.flatMap fun q => q.1.encode q.2).length := by
  induction cs with
  | nil => exact Nat.zero_le _
  | cons q cs ih =>
    obtain ⟨hq, htime⟩ := hvalid q List.mem_cons_self
    have hrest := ih fun p hp => hvalid p (List.mem_cons_of_mem _ hp)
    have hlen := (hq.decode htime []).1
    rw [List.flatMap_cons, List.length_append, List.length_cons]
    omega

/-! ## The threads -/

/-- Where a thread stands in `skw_btsnoop_capture`, with what it has still to write. -/
inductive CapturePc
  | idle
  | locking (c : Capture)
  | writing (pending : List (List UInt8))
  | unlocking

/-- The state shared by the threads. `queue` holds the captures each of them is yet to make. -/
structure CaptureLink (τ : Type) where
  btsnoop : Btsnoop
  btsnoopLogLock : Option τ
  queue : τ → List Capture
  pc : τ → CapturePc

/-- The scheduler's choices. -/
inductive CaptureEvent (τ : Type)
  | call (i : τ)
  | lock (i : τ) (timestamp : ℕ)
  | write (i : τ)
  | below (i : τ)
  | rotate (i : τ) (errno : ℤ)
  | unlock (i : τ)

variable {τ : Type} [DecidableEq τ]

namespace CaptureLink

/-- An open file that holds just the header, and threads that have not begun. -/
def init (revLength : ℕ) (queue : τ → List Capture) : CaptureLink τ where
  btsnoop := ⟨some btsnoopHeader, true, revLength⟩
  btsnoopLogLock := none
  queue := queue
  pc := fun _ => .idle

/-- Thread `i` moves on to `next`. -/
def goto (s : CaptureLink τ) (i : τ) (next : CapturePc) : CaptureLink τ :=
  { s with pc := Function.update s.pc i next }

variable (s : CaptureLink τ) (i : τ) (next : CapturePc)

@[simp] theorem goto_pc_self : (s.goto i next).pc i = next := Function.update_self ..

@[simp] theorem goto_pc_of_ne {j : τ} (h : j ≠ i) : (s.goto i next).pc j = s.pc j :=
  Function.update_of_ne h ..

end CaptureLink

/-- The writes of a capture that has the lock, and `btsnoop_rev_length` with its length. -/
def startRecord (s : CaptureLink τ) (c : Capture) (timestamp : ℕ) : Btsnoop × CapturePc :=
  match skwBtsnoopCapture c.packet c.isReceived with
  | some r => ({ s.btsnoop with revLength := (s.btsnoop.revLength + r.lengthHe) % 2 ^ 32 },
      .writing (r.writes timestamp))
  | none => (s.btsnoop, .unlocking)

/-- `skw_btsnoop_write`. -/
def Btsnoop.write (s : Btsnoop) (data : List UInt8) : Btsnoop :=
  if s.opened = true then { s with file := some (s.file.getD [] ++ data) } else s

/-- One step of one thread, with the capture it takes the lock for. -/
inductive CaptureStep (cfg : LogConfig) :
    CaptureLink τ → CaptureEvent τ → List (τ × Capture × ℕ) → CaptureLink τ → Prop
  -- without a file to write to the call returns at once
  | call {s : CaptureLink τ} {i : τ} {c : Capture} {cs : List Capture} (hpc : s.pc i = .idle)
      (hq : s.queue i = c :: cs) :
      CaptureStep cfg s (.call i) []
        ({ s with queue := Function.update s.queue i cs }.goto i
          (if cfg.btsnoopLogEn = true ∧ s.btsnoop.opened = true then .locking c else .idle))
  | lock {s : CaptureLink τ} {i : τ} {c : Capture} {timestamp : ℕ} (hpc : s.pc i = .locking c)
      (hfree : s.btsnoopLogLock = none) (htime : timestamp < 2 ^ 64) :
      CaptureStep cfg s (.lock i timestamp) [(i, c, timestamp)]
        ({ s with
          btsnoop := (startRecord s c timestamp).1, btsnoopLogLock := some i }.goto i
          (startRecord s c timestamp).2)
  | write {s : CaptureLink τ} {i : τ} {data : List UInt8} {pending : List (List UInt8)}
      (hpc : s.pc i = .writing (data :: pending)) :
      CaptureStep cfg s (.write i) []
        ({ s with btsnoop := s.btsnoop.write data }.goto i (.writing pending))
  | below {s : CaptureLink τ} {i : τ} (hpc : s.pc i = .writing [])
      (hlimit : s.btsnoop.revLength < btsnoopLimit) :
      CaptureStep cfg s (.below i) [] (s.goto i .unlocking)
  | rotate {s : CaptureLink τ} {i : τ} (errno : ℤ) (hpc : s.pc i = .writing [])
      (hlimit : btsnoopLimit ≤ s.btsnoop.revLength) :
      CaptureStep cfg s (.rotate i errno) []
        ({ s with btsnoop := (skwBtsnoopOpen cfg errno { s.btsnoop with opened := false }).state }.goto i
          .unlocking)
  | unlock {s : CaptureLink τ} {i : τ} (hpc : s.pc i = .unlocking) :
      CaptureStep cfg s (.unlock i) [] ({ s with btsnoopLogLock := none }.goto i .idle)

/-- A run of the threads, with the captures in the order in which they took the lock. -/
abbrev CaptureRun (cfg : LogConfig) (revLength : ℕ) (queue : τ → List Capture)
    (es : List (CaptureEvent τ)) (tr : List (τ × Capture × ℕ)) (s : CaptureLink τ) : Prop :=
  Execution (CaptureStep cfg) (CaptureLink.init revLength queue) es tr s

/-! ## The file between two pieces -/

/-- What a thread has still to write. -/
def CapturePc.pending : CapturePc → List (List UInt8)
  | .writing pending => pending
  | _ => []

/-- The capture a thread has called for and not taken the lock for. -/
def CapturePc.waiting : CapturePc → List Capture
  | .locking c => [c]
  | _ => []

/-- A thread that has the lock. -/
def CapturePc.Holds : CapturePc → Prop
  | .writing _ | .unlocking => True
  | _ => False

/-- What the owner of the lock has still to write. -/
def CaptureLink.owed (s : CaptureLink τ) : List UInt8 :=
  s.btsnoopLogLock.elim [] fun i => (s.pc i).pending.flatten

/-- The captures of thread `i`. -/
def capturesOf (i : τ) (tr : List (τ × Capture × ℕ)) : List Capture :=
  (tr.filter fun q => q.1 = i).map fun q => q.2.1

/-- The file as the captures so far leave it. -/
def recorded (tr : List (τ × Capture × ℕ)) : List UInt8 :=
  btsnoopHeader ++ tr.flatMap fun q => q.2.1.encode q.2.2

/-- The bytes in the file and those still owed make up the records; only the owner of the lock is
writing; and every thread has taken its captures in order. -/
structure CaptureInv (queue : τ → List Capture) (tr : List (τ × Capture × ℕ)) (s : CaptureLink τ) :
    Prop where
  opened : s.btsnoop.opened = true
  file : ∃ content, s.btsnoop.file = some content ∧ content ++ s.owed = recorded tr
  owner : ∀ i, (s.pc i).Holds ↔ s.btsnoopLogLock = some i
  taken : ∀ i, capturesOf i tr ++ (s.pc i).waiting ++ s.queue i = queue i
  time : ∀ q ∈ tr, q.2.2 < 2 ^ 64

omit [DecidableEq τ] in
theorem recorded_concat (tr : List (τ × Capture × ℕ)) (i : τ) (c : Capture) (timestamp : ℕ) :
    recorded (tr ++ [(i, c, timestamp)]) = recorded tr ++ c.encode timestamp := by
  simp [recorded]

theorem capturesOf_concat_self (tr : List (τ × Capture × ℕ)) (i : τ) (c : Capture) (timestamp : ℕ) :
    capturesOf i (tr ++ [(i, c, timestamp)]) = capturesOf i tr ++ [c] := by
  simp [capturesOf]

theorem capturesOf_concat_of_ne (tr : List (τ × Capture × ℕ)) {i j : τ} (h : j ≠ i) (c : Capture)
    (timestamp : ℕ) : capturesOf j (tr ++ [(i, c, timestamp)]) = capturesOf j tr := by
  simp [capturesOf, Ne.symm h]

omit [DecidableEq τ] in
/-- What taking the lock sets up. -/
theorem startRecord_spec (s : CaptureLink τ) (c : Capture) (timestamp : ℕ) :
    (startRecord s c timestamp).1.file = s.btsnoop.file ∧
      (startRecord s c timestamp).1.opened = s.btsnoop.opened ∧
      (startRecord s c timestamp).2.Holds ∧ (startRecord s c timestamp).2.waiting = [] ∧
      (startRecord s c timestamp).2.pending.flatten = c.encode timestamp := by
  rw [startRecord, Capture.encode]
  rcases skwBtsnoopCapture c.packet c.isReceived with - | r
  · exact ⟨rfl, rfl, trivial, rfl, rfl⟩
  · exact ⟨rfl, rfl, trivial, rfl, rfl⟩

namespace CaptureInv

variable {queue : τ → List Capture} {tr : List (τ × Capture × ℕ)} {s : CaptureLink τ} {i : τ}

theorem start (revLength : ℕ) (queue : τ → List Capture) :
    CaptureInv queue [] (CaptureLink.init revLength queue) where
  opened := rfl
  file := ⟨btsnoopHeader, rfl, by simp [CaptureLink.owed, CaptureLink.init, recorded]⟩
  owner _ := ⟨False.elim, nofun⟩
  taken _ := rfl
  time _ h := absurd h List.not_mem_nil

/-- A step of thread `i` that leaves the file and the lock alone. -/
theorem goto (h : CaptureInv queue tr s) {t : CaptureLink τ} {next : CapturePc}
    (hsnoop : t.btsnoop = s.btsnoop) (hlock : t.btsnoopLogLock = s.btsnoopLogLock)
    (hpc : t.pc = Function.update s.pc i next) (hholds : next.Holds ↔ (s.pc i).Holds)
    (hpending : next.pending.flatten = (s.pc i).pending.flatten)
    (htaken : ∀ j, capturesOf j tr ++ (t.pc j).waiting ++ t.queue j = queue j) :
    CaptureInv queue tr t where
  opened := hsnoop ▸ h.opened
  file := by
    obtain ⟨content, hfile, howed⟩ := h.file
    refine ⟨content, hsnoop ▸ hfile, ?_⟩
    rw [← howed, CaptureLink.owed, CaptureLink.owed, hlock]
    rcases s.btsnoopLogLock with - | j
    · rfl
    · by_cases hj : j = i
      · subst hj
        show content ++ (t.pc j).pending.flatten = content ++ (s.pc j).pending.flatten
        rw [hpc, Function.update_self, hpending]
      · show content ++ (t.pc j).pending.flatten = content ++ (s.pc j).pending.flatten
        rw [hpc, Function.update_of_ne hj]
  owner j := by
    rw [hlock, ← h.owner j, hpc]
    by_cases hj : j = i
    · subst hj
      rw [Function.update_self, hholds]
    · rw [Function.update_of_ne hj]
  taken := htaken
  time := h.time

/-- A thread that has taken no capture since keeps to its order. -/
theorem taken_goto (h : CaptureInv queue tr s) {t : CaptureLink τ} {next : CapturePc} (hpc : t.pc = s.pc)
    (hqueue : t.queue = s.queue) (hwaiting : next.waiting = (s.pc i).waiting) (j : τ) :
    capturesOf j tr ++ ((t.goto i next).pc j).waiting ++ (t.goto i next).queue j = queue j := by
  have hkeep : ((t.goto i next).pc j).waiting = (s.pc j).waiting := by
    by_cases hj : j = i
    · subst hj
      rw [CaptureLink.goto_pc_self, hwaiting]
    · rw [CaptureLink.goto_pc_of_ne _ _ _ hj, hpc]
  rw [← h.taken j, hkeep]
  exact congrArg (fun q => capturesOf j tr ++ (s.pc j).waiting ++ q j) hqueue

/-- The lock is given to thread `i`, with the writes of its record. -/
theorem lock (h : CaptureInv queue tr s) {c : Capture} {timestamp : ℕ} (hpc : s.pc i = .locking c)
    (hfree : s.btsnoopLogLock = none) (htime : timestamp < 2 ^ 64) :
    CaptureInv queue (tr ++ [(i, c, timestamp)])
      ({ s with
        btsnoop := (startRecord s c timestamp).1, btsnoopLogLock := some i }.goto i
        (startRecord s c timestamp).2) where
  opened := (startRecord_spec s c timestamp).2.1.trans h.opened
  file := by
    obtain ⟨content, hfile, howed⟩ := h.file
    refine ⟨content, (startRecord_spec s c timestamp).1.trans hfile, ?_⟩
    -- before, nobody owes anything; now thread `i` owes the whole record
    have hnone : s.owed = [] := by rw [CaptureLink.owed, hfree]; rfl
    rw [hnone, List.append_nil] at howed
    show content ++ ((CaptureLink.goto _ i _).pc i).pending.flatten = _
    rw [CaptureLink.goto_pc_self, (startRecord_spec s c timestamp).2.2.2.2, howed, recorded_concat]
  owner j := by
    by_cases hj : j = i
    · subst hj
      rw [CaptureLink.goto_pc_self]
      exact iff_of_true (startRecord_spec s c timestamp).2.2.1 rfl
    · rw [CaptureLink.goto_pc_of_ne _ _ _ hj]
      refine iff_of_false (fun hholds => ?_) fun heq => hj (Option.some.inj heq).symm
      exact absurd (hfree.symm.trans ((h.owner j).mp hholds)) nofun
  taken j := by
    rw [← h.taken j]
    by_cases hj : j = i
    · subst hj
      rw [CaptureLink.goto_pc_self, (startRecord_spec s c timestamp).2.2.2.1, hpc,
        capturesOf_concat_self, List.append_nil]
      rfl
    · rw [CaptureLink.goto_pc_of_ne _ _ _ hj, capturesOf_concat_of_ne _ hj]
      rfl
  time q hq := by
    rcases List.mem_append.mp hq with hq | hq
    · exact h.time q hq
    · exact List.mem_singleton.mp hq ▸ htime

/-- The owner of the lock writes a piece. -/
theorem write (h : CaptureInv queue tr s) {data : List UInt8} {pending : List (List UInt8)}
    (hpc : s.pc i = .writing (data :: pending)) :
    CaptureInv queue tr ({ s with btsnoop := s.btsnoop.write data }.goto i (.writing pending)) := by
  have hlock : s.btsnoopLogLock = some i := (h.owner i).mp (by rw [hpc]; trivial)
  obtain ⟨content, hfile, howed⟩ := h.file
  have hwrite : s.btsnoop.write data = { s.btsnoop with file := some (content ++ data) } := by
    rw [Btsnoop.write, if_pos h.opened, hfile]
    rfl
  rw [hwrite]
  refine ⟨h.opened, ⟨content ++ data, rfl, ?_⟩, fun j => ?_,
    h.taken_goto rfl rfl (by rw [hpc]; rfl), h.time⟩
  · rw [← howed, CaptureLink.owed, CaptureLink.owed, hlock]
    show content ++ data ++ ((CaptureLink.goto _ i _).pc i).pending.flatten =
      content ++ (s.pc i).pending.flatten
    rw [CaptureLink.goto_pc_self, hpc, List.append_assoc]
    rfl
  · by_cases hj : j = i
    · subst hj
      rw [CaptureLink.goto_pc_self]
      exact iff_of_true trivial hlock
    · rw [CaptureLink.goto_pc_of_ne _ _ _ hj]
      exact h.owner j

/-- The owner of the lock, which owes nothing, gives it up. -/
theorem unlock (h : CaptureInv queue tr s) (hpc : s.pc i = .unlocking) :
    CaptureInv queue tr ({ s with btsnoopLogLock := none }.goto i .idle) := by
  have hlock : s.btsnoopLogLock = some i := (h.owner i).mp (by rw [hpc]; trivial)
  obtain ⟨content, hfile, howed⟩ := h.file
  refine ⟨h.opened, ⟨content, hfile, ?_⟩, fun j => ?_,
    h.taken_goto rfl rfl (by rw [hpc]; rfl), h.time⟩
  · rw [← howed, CaptureLink.owed, CaptureLink.owed, hlock]
    show content ++ [] = content ++ (s.pc i).pending.flatten
    rw [hpc]
    rfl
  · refine iff_of_false (fun hholds => ?_) nofun
    by_cases hj : j = i
    · subst hj
      rw [CaptureLink.goto_pc_self] at hholds
      exact hholds
    · rw [CaptureLink.goto_pc_of_ne _ _ _ hj] at hholds
      exact hj (Option.some.inj (hlock.symm.trans ((h.owner j).mp hholds))).symm

/-- **Step lemma.** Every step but a rotation keeps the invariant. -/
theorem step {cfg : LogConfig} (hen : cfg.btsnoopLogEn = true) (h : CaptureInv queue tr s)
    {e : CaptureEvent τ} {os : List (τ × Capture × ℕ)} {t : CaptureLink τ}
    (hstep : CaptureStep cfg s e os t) (hrotate : ∀ i errno, e ≠ .rotate i errno) :
    CaptureInv queue (tr ++ os) t := by
  cases hstep with
  | @call i c cs hpc hq =>
    rw [List.append_nil, if_pos ⟨hen, h.opened⟩]
    refine h.goto (i := i) rfl rfl rfl (by rw [hpc]; exact Iff.rfl) (by rw [hpc]; rfl) fun j => ?_
    rw [← h.taken j]
    -- the capture moves from the queue into the hands of its thread
    by_cases hj : j = i
    · subst hj
      rw [CaptureLink.goto_pc_self, hpc, hq]
      show _ ++ [c] ++ Function.update s.queue j cs j = _
      rw [Function.update_self]
      simp [CapturePc.waiting]
    · rw [CaptureLink.goto_pc_of_ne _ _ _ hj]
      show _ ++ _ ++ Function.update s.queue i cs j = _
      rw [Function.update_of_ne hj]
  | lock hpc hfree htime => exact h.lock hpc hfree htime
  | write hpc =>
    rw [List.append_nil]
    exact h.write hpc
  | @below i hpc hlimit =>
    rw [List.append_nil]
    exact h.goto (i := i) rfl rfl rfl (by rw [hpc]; exact Iff.rfl) (by rw [hpc]; rfl)
      (h.taken_goto rfl rfl (by rw [hpc]; rfl))
  | rotate errno hpc hlimit => exact absurd rfl (hrotate _ errno)
  | unlock hpc =>
    rw [List.append_nil]
    exact h.unlock hpc

end CaptureInv

/-- **Run lemma.** As long as no rotation is reached, the invariant holds. -/
theorem CaptureRun.inv {cfg : LogConfig} (hen : cfg.btsnoopLogEn = true) {revLength : ℕ}
    {queue : τ → List Capture} {es : List (CaptureEvent τ)} {tr : List (τ × Capture × ℕ)}
    {s : CaptureLink τ} (run : CaptureRun cfg revLength queue es tr s)
    (hrotate : ∀ i errno, .rotate i errno ∉ es) : CaptureInv queue tr s := by
  refine run.invariant (I := fun es tr s => (∀ i errno, .rotate i errno ∉ es) → CaptureInv queue tr s)
    (fun _ => .start revLength queue) ?_ hrotate
  intro es tr t e os u _ ih hstep hnot
  refine (ih fun i errno hmem => hnot i errno (List.mem_append_left _ hmem)).step hen hstep ?_
  rintro i errno rfl
  exact hnot i errno (List.mem_append_right _ (List.mem_singleton_self _))

/-- **Records decode back to the traffic.** For any captures of valid packets by any threads, in any
interleaving of their writes in which no rotation is reached, once all threads have returned the file
decodes to exactly one record for each capture, in the order of the lock, and the captures of each thread
are those it was to make, in its order. -/
theorem capture_decodes {cfg : LogConfig} (hen : cfg.btsnoopLogEn = true) {revLength : ℕ}
    {queue : τ → List Capture} (hvalid : ∀ i, ∀ c ∈ queue i, c.Valid) {es : List (CaptureEvent τ)}
    {tr : List (τ × Capture × ℕ)} {s : CaptureLink τ} (run : CaptureRun cfg revLength queue es tr s)
    (hrotate : ∀ i errno, .rotate i errno ∉ es) (hidle : ∀ i, s.pc i = .idle)
    (hdone : ∀ i, s.queue i = []) :
    (∃ content rs, s.btsnoop.file = some content ∧ decodeBtsnoop content = some rs ∧
      List.Forall₂ (fun q r => q.2.1.RecordedAs q.2.2 r) tr rs) ∧
      ∀ i, capturesOf i tr = queue i := by
  have h := run.inv hen hrotate
  have htaken : ∀ i, capturesOf i tr = queue i := by
    intro i
    rw [← h.taken i, hidle i, hdone i]
    simp [CapturePc.waiting]
  refine ⟨?_, htaken⟩
  obtain ⟨content, hfile, howed⟩ := h.file
  -- all threads have returned, so that nobody owes the file anything
  have hnone : s.owed = [] := by
    rw [CaptureLink.owed]
    rcases s.btsnoopLogLock with - | i
    · rfl
    · show (s.pc i).pending.flatten = []
      rw [hidle i]
      rfl
  rw [hnone, List.append_nil] at howed
  have hcaptures : ∀ q ∈ tr.map Prod.snd, q.1.Valid ∧ q.2 < 2 ^ 64 := by
    intro q hq
    obtain ⟨⟨i, c, timestamp⟩, hmem, rfl⟩ := List.mem_map.mp hq
    refine ⟨hvalid i c ?_, h.time _ hmem⟩
    rw [← htaken i, capturesOf]
    exact List.mem_map.mpr ⟨_, List.mem_filter.mpr ⟨hmem, by simp⟩, rfl⟩
  have hbytes : content = btsnoopHeader ++ (tr.map Prod.snd).flatMap fun q => q.1.encode q.2 := by
    rw [howed, recorded, List.flatMap_map]
  have hcount : (tr.map Prod.snd).length ≤ content.length := by
    rw [hbytes, List.length_append]
    exact Nat.le_trans (length_le_captures _ hcaptures) (Nat.le_add_left ..)
  obtain ⟨rs, hrs, hall⟩ := decodeRecords_captures (tr.map Prod.snd) hcaptures hcount
  refine ⟨content, rs, hfile, ?_, List.forall₂_map_left_iff.mp hall⟩
  have htake : content.take 16 = btsnoopHeader := by rw [hbytes]; exact List.take_left' rfl
  have hdrop : content.drop 16 = (tr.map Prod.snd).flatMap fun q => q.1.encode q.2 := by
    rw [hbytes]
    exact List.drop_left' rfl
  rw [decodeBtsnoop, if_pos htake, hdrop, hrs]

/-- The thread of the host's socket captures a command, an ACL and an ISO packet that it sends, a port
thread an event and a SCO packet that it has received. -/
def fiveCaptures : Bool → List Capture
  | false => [⟨[1, 3, 0x0C, 0], false⟩, ⟨[2, 1, 0, 2, 0, 0xAA, 0xBB], false⟩,
      ⟨[5, 1, 0, 1, 0, 0xCC], false⟩]
  | true => [⟨[4, 0x0E, 1, 0], true⟩, ⟨[3, 1, 0, 1, 0xDD], true⟩]

theorem valid_fiveCaptures : ∀ i, ∀ c ∈ fiveCaptures i, c.Valid := by
  have hvalid : ∀ i, ∀ c ∈ fiveCaptures i, (byteAt c.packet 0 = hciCommandPkt ∨
      byteAt c.packet 0 = hciAcldataPkt ∨ byteAt c.packet 0 = hciScodataPkt ∨
      byteAt c.packet 0 = hciEventPkt ∨ byteAt c.packet 0 = hciIsoPkt) ∧
      packetLen c.packet ≤ c.packet.length := by decide
  exact fun i c hc => ⟨(hvalid i c hc).1, (hvalid i c hc).2⟩

/-- Each thread calls while the other writes. -/
def fiveCapturesEvents : List (CaptureEvent Bool) :=
  [.call false, .lock false 7, .write false, .write false, .call true, .write false, .write false,
    .write false, .write false, .write false, .below false, .unlock false, .lock true 8, .write true,
    .call false, .write true, .write true, .write true, .write true, .write true, .write true,
    .below true, .unlock true, .lock false 8, .call true, .write false, .write false, .write false,
    .write false, .write false, .write false, .write false, .below false, .unlock false, .lock true 9,
    .write true, .write true, .write true, .call false, .write true, .write true, .write true,
    .write true, .below true, .unlock true, .lock false 10, .write false, .write false, .write false,
    .write false, .write false, .write false, .write false, .below false, .unlock false]

/-- The captures in the order of the lock. -/
def fiveCapturesTrace : List (Bool × Capture × ℕ) :=
  [(false, ⟨[1, 3, 0x0C, 0], false⟩, 7), (true, ⟨[4, 0x0E, 1, 0], true⟩, 8),
    (false, ⟨[2, 1, 0, 2, 0, 0xAA, 0xBB], false⟩, 8), (true, ⟨[3, 1, 0, 1, 0xDD], true⟩, 9),
    (false, ⟨[5, 1, 0, 1, 0, 0xCC], false⟩, 10)]

theorem exists_run_fiveCaptures : ∃ s,
    CaptureRun ⟨true, false, false, false⟩ 16 fiveCaptures fiveCapturesEvents fiveCapturesTrace s ∧
      (∀ i, s.pc i = .idle) ∧ ∀ i, s.queue i = [] := by
  have h : CaptureRun (τ := Bool) ⟨true, false, false, false⟩ 16 fiveCaptures
      [.call false, .lock false 7] _ _ :=
    (Execution.start.snoc (.call (i := false) rfl rfl)).snoc
      (@CaptureStep.lock _ _ _ _ false _ 7 rfl rfl (by decide))
  have h := (h.snoc (.write (i := false) rfl)).snoc (.write (i := false) rfl)
  have h := h.snoc (.call (i := true) rfl rfl)
  have h := (h.snoc (.write (i := false) rfl)).snoc (.write (i := false) rfl)
  have h := (h.snoc (.write (i := false) rfl)).snoc (.write (i := false) rfl)
  have h := (h.snoc (.write (i := false) rfl)).snoc (.below (i := false) rfl (by decide))
  have h := (h.snoc (.unlock (i := false) rfl)).snoc (@CaptureStep.lock _ _ _ _ true _ 8 rfl rfl (by decide))
  have h := (h.snoc (.write (i := true) rfl)).snoc (.call (i := false) rfl rfl)
  have h := (h.snoc (.write (i := true) rfl)).snoc (.write (i := true) rfl)
  have h := (h.snoc (.write (i := true) rfl)).snoc (.write (i := true) rfl)
  have h := (h.snoc (.write (i := true) rfl)).snoc (.write (i := true) rfl)
  have h := (h.snoc (.below (i := true) rfl (by decide))).snoc (.unlock (i := true) rfl)
  have h := h.snoc (@CaptureStep.lock _ _ _ _ false _ 8 rfl rfl (by decide))
  have h := h.snoc (.call (i := true) rfl rfl)
  have h := (h.snoc (.write (i := false) rfl)).snoc (.write (i := false) rfl)
  have h := (h.snoc (.write (i := false) rfl)).snoc (.write (i := false) rfl)
  have h := (h.snoc (.write (i := false) rfl)).snoc (.write (i := false) rfl)
  have h := (h.snoc (.write (i := false) rfl)).snoc (.below (i := false) rfl (by decide))
  have h := (h.snoc (.unlock (i := false) rfl)).snoc (@CaptureStep.lock _ _ _ _ true _ 9 rfl rfl (by decide))
  have h := (h.snoc (.write (i := true) rfl)).snoc (.write (i := true) rfl)
  have h := (h.snoc (.write (i := true) rfl)).snoc (.call (i := false) rfl rfl)
  have h := (h.snoc (.write (i := true) rfl)).snoc (.write (i := true) rfl)
  have h := (h.snoc (.write (i := true) rfl)).snoc (.write (i := true) rfl)
  have h := (h.snoc (.below (i := true) rfl (by decide))).snoc (.unlock (i := true) rfl)
  have h := h.snoc (@CaptureStep.lock _ _ _ _ false _ 10 rfl rfl (by decide))
  have h := (h.snoc (.write (i := false) rfl)).snoc (.write (i := false) rfl)
  have h := (h.snoc (.write (i := false) rfl)).snoc (.write (i := false) rfl)
  have h := (h.snoc (.write (i := false) rfl)).snoc (.write (i := false) rfl)
  have h := (h.snoc (.write (i := false) rfl)).snoc (.below (i := false) rfl (by decide))
  exact ⟨_, h.snoc (.unlock (i := false) rfl), fun i => by cases i <;> rfl, fun i => by cases i <;> rfl⟩

theorem capture_decodes_fiveCaptures : ∃ s content rs,
    CaptureRun ⟨true, false, false, false⟩ 16 fiveCaptures fiveCapturesEvents fiveCapturesTrace s ∧
      s.btsnoop.file = some content ∧ decodeBtsnoop content = some rs ∧
      rs.map (fun r => (r.timestamp, r.flags, r.data)) =
        [(7, 2, [1, 3, 0x0C, 0]), (8, 3, [4, 0x0E, 1, 0]), (8, 0, [2, 1, 0, 2, 0, 0xAA, 0xBB]),
          (9, 1, [3, 1, 0, 1, 0xDD]), (10, 0, [5, 1, 0, 1, 0, 0xCC])] ∧
      ∀ i, capturesOf i fiveCapturesTrace = fiveCaptures i := by
  obtain ⟨s, run, hidle, hdone⟩ := exists_run_fiveCaptures
  obtain ⟨⟨content, rs, hfile, hdec, hall⟩, htaken⟩ := capture_decodes rfl valid_fiveCaptures run
    (by simp [fiveCapturesEvents]) hidle hdone
  refine ⟨s, content, rs, run, hfile, hdec, ?_, htaken⟩
  obtain ⟨r₁, rs₁, h₁, hall₁, rfl⟩ := List.forall₂_cons_left_iff.mp hall
  obtain ⟨r₂, rs₂, h₂, hall₂, rfl⟩ := List.forall₂_cons_left_iff.mp hall₁
  obtain ⟨r₃, rs₃, h₃, hall₃, rfl⟩ := List.forall₂_cons_left_iff.mp hall₂
  obtain ⟨r₄, rs₄, h₄, hall₄, rfl⟩ := List.forall₂_cons_left_iff.mp hall₃
  obtain ⟨r₅, rs₅, h₅, hall₅, rfl⟩ := List.forall₂_cons_left_iff.mp hall₄
  obtain rfl := List.forall₂_nil_left_iff.mp hall₅
  simp only [List.map_cons, List.map_nil, h₁.timestamp, h₂.timestamp, h₃.timestamp, h₄.timestamp,
    h₅.timestamp, h₁.data, h₂.data, h₃.data, h₄.data, h₅.data, h₁.command rfl, h₂.event rfl,
    h₃.direction (.inl rfl), h₄.direction (.inr (.inl rfl)), h₅.direction (.inr (.inr rfl))]
  rfl

end Seekwave
