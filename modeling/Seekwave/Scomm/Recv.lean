import Seekwave.Btsnoop.Record
import Seekwave.Lib.Execution
import Seekwave.Lib.Loop

/-!
# The receive thread: reassembly of packets from the controller

`scomm_vendor_recv_scomm_thread` of `scom_vendor.c` reads from the port into `read_buffer` behind the
`last_len` bytes it still holds, and then takes packets off the front of the buffer in a
`do … while (1)` loop. `parseBody` is one pass of that loop, `RecvStep` what one `read()` and the loop
behind it do. The loop has no bound of its own, so `RecvStep` is the relation `Loop.Returns`: a read
after which the loop never ends has no step.
-/

open Memory

namespace Seekwave

/-- The size of `read_buffer`. -/
def readBufferSize : ℕ := 2056

/-- What the parse loop does with bytes at the front of the buffer, in the order it does it. -/
inductive Delivery
  | skwlogWrite (buffer : List UInt8)
  | skwBtsnoopCapture (record : Option SnoopRecord)
  | scommVendorSendToHost (portIndex : ℕ) (buffer : List UInt8)
  /-- the bytes the invalid-type branch moves over -/
  | discard (buffer : List UInt8)
deriving DecidableEq, Repr

/-- The packet types `scomm_vendor_find_valid_type` looks for. -/
def findValidAccepts (pktType : UInt8) : Bool :=
  pktType = hciEventPkt || pktType = hciAcldataPkt || pktType = hciScodataPkt ||
    pktType = hciEventSkwlog

/-- The index of the first byte of `buffer[0 .. len)` that is a valid type, `len` if there is none. -/
def scommVendorFindValidType (buffer : List UInt8) (len : ℕ) : ℕ :=
  (buffer.take len).findIdx findValidAccepts

theorem scommVendorFindValidType_le (buffer : List UInt8) (len : ℕ) :
    scommVendorFindValidType buffer len ≤ len :=
  Nat.le_trans List.findIdx_le_length (by rw [List.length_take]; exact Nat.min_le_left _ _)

/-- The variables of the parse loop. -/
structure Parse where
  readBuffer : Block readBufferSize
  revLen : ℕ
  revLe : revLen ≤ readBufferSize
  lastLen : ℕ
  lastLe : lastLen ≤ readBufferSize
  out : List Delivery

namespace Parse

/-- The bytes received and not yet consumed, `read_buffer[0 .. rev_len)`. -/
def content (st : Parse) : List UInt8 := st.readBuffer.cells.take st.revLen

/-- The bytes left in the buffer, `read_buffer[0 .. last_len)`. -/
def rest (st : Parse) : List UInt8 := st.readBuffer.cells.take st.lastLen

/-- `last_len = rev_len - len`, and the bytes behind the first `len` moved to the front. -/
def dropFront (st : Parse) (len : ℕ) : Parse :=
  have hle : st.revLen - len ≤ readBufferSize := Nat.le_trans (Nat.sub_le _ _) st.revLe
  { st with
    readBuffer := st.readBuffer.shift len (st.revLen - len) hle
    lastLen := st.revLen - len
    lastLe := hle }

/-- `last_len = rev_len`: wait for more bytes. -/
def keepAll (st : Parse) : Parse := { st with lastLen := st.revLen, lastLe := st.revLe }

/-- `rev_len = last_len`: parse the bytes that are left. -/
def resume (st : Parse) : Parse := { st with revLen := st.lastLen, revLe := st.lastLe }

def emit (st : Parse) (ds : List Delivery) : Parse := { st with out := st.out ++ ds }

end Parse

/-- Where the packet of `len` bytes at the front of the buffer goes. -/
def deliveries (buffer : List UInt8) (len : ℕ) : List Delivery :=
  if byteAt buffer 0 = hciEventSkwlog then [.skwlogWrite (buffer.take len)]
  else
    [.skwBtsnoopCapture (skwBtsnoopCapture buffer true),
      .scommVendorSendToHost 0 (buffer.take len)]

/-- One pass of the parse loop. -/
def parseBody (st : Parse) : Parse ⊕ Parse :=
  let buffer := st.readBuffer.cells
  if recvAccepts (byteAt buffer 0) then
    if hdrLens buffer ≤ st.revLen then
      if pktLen buffer ≤ st.revLen then
        let st' := (st.emit (deliveries buffer (pktLen buffer))).dropFront (pktLen buffer)
        -- another packet is looked for only behind at least four bytes
        if 4 ≤ st'.lastLen then .inl st'.resume else .inr st'
      else .inr st.keepAll
    else .inr st.keepAll
  else
    let vLen := scommVendorFindValidType buffer st.revLen
    .inr ((st.emit [.discard (buffer.take vLen)]).dropFront vLen)

/-- What the thread keeps between two reads: the buffer and `last_len`. -/
structure RecvState where
  readBuffer : Block readBufferSize
  lastLen : ℕ
  lastLe : lastLen ≤ readBufferSize

namespace RecvState

/-- `read_buffer[2056] = {0}` and `last_len = 0`. -/
def init : RecvState := ⟨Block.zero readBufferSize, 0, Nat.zero_le _⟩

/-- The bytes kept for the next read, `read_buffer[0 .. last_len)`. -/
def pending (s : RecvState) : List UInt8 := s.readBuffer.cells.take s.lastLen

theorem length_pending (s : RecvState) : s.pending.length = s.lastLen := by
  have := s.lastLe
  rw [pending, List.length_take, s.readBuffer.size]
  omega

@[simp] theorem pending_init : init.pending = [] := rfl

/-- The loop entered after `read()` has stored `chunk` behind the bytes kept:
`rev_len = bytes_read + last_len`, a `uint16_t`. -/
def received (s : RecvState) (chunk : List UInt8) (h : chunk.length ≤ readBufferSize - s.lastLen) :
    Parse where
  readBuffer := s.readBuffer.store s.lastLen chunk (by have := s.lastLe; omega)
  revLen := (chunk.length + s.lastLen) % 65536
  revLe := Nat.le_trans (Nat.mod_le _ _) (by have := s.lastLe; omega)
  lastLen := s.lastLen
  lastLe := s.lastLe
  out := []

end RecvState

/-- One turn of the thread on a readable port: `read()` returns `chunk`, at most the
`2056 - last_len` bytes asked for. A result of 0 changes nothing (`continue`). -/
inductive RecvStep : RecvState → List UInt8 → List Delivery → RecvState → Prop
  | zero (s : RecvState) : RecvStep s [] [] s
  | data (s : RecvState) (chunk : List UInt8) (hne : chunk ≠ [])
      (hfit : chunk.length ≤ readBufferSize - s.lastLen) (st : Parse)
      (h : Loop.Returns parseBody (s.received chunk hfit) st) :
      RecvStep s chunk st.out ⟨st.readBuffer, st.lastLen, st.lastLe⟩

/-- The runs of the thread from its start, over the results of its reads. -/
abbrev RecvRun : List (List UInt8) → List Delivery → RecvState → Prop :=
  Execution RecvStep .init

/-- The outcome of a turn is determined by what `read()` returns. -/
theorem RecvStep.unique ⦃s : RecvState⦄ ⦃chunk : List UInt8⦄ ⦃os : List Delivery⦄ ⦃t : RecvState⦄
    ⦃os' : List Delivery⦄ ⦃t' : RecvState⦄ (h : RecvStep s chunk os t) (h' : RecvStep s chunk os' t') :
    os = os' ∧ t = t' := by
  cases h with
  | zero =>
    cases h' with
    | zero => exact ⟨rfl, rfl⟩
    | data _ hne _ _ _ => exact absurd rfl hne
  | data _ hne _ st hret =>
    cases h' with
    | zero => exact absurd rfl hne
    | data _ _ _ st' hret' =>
      obtain rfl := hret.unique hret'
      exact ⟨rfl, rfl⟩

/-! ## The loop state by its content

What a pass does depends on the received bytes alone, not on what lies behind them in the buffer.
-/

namespace Parse

variable (st : Parse)

theorem length_content : st.content.length = st.revLen := by
  have := st.revLe
  rw [content, List.length_take, st.readBuffer.size]
  omega

@[simp] theorem content_emit (ds : List Delivery) : (st.emit ds).content = st.content := rfl

@[simp] theorem content_resume : st.resume.content = st.rest := rfl

@[simp] theorem rest_keepAll : st.keepAll.rest = st.content := rfl

/-- Dropping the front of the buffer drops the front of the received bytes. -/
theorem rest_dropFront {len : ℕ} (h : len ≤ st.revLen) :
    (st.dropFront len).rest = st.content.drop len := by
  have hrev := st.revLe
  show (st.readBuffer.shift len (st.revLen - len) (by omega)).cells.take (st.revLen - len) = _
  rw [Block.take_shift _ _ _ _ (by omega), content]
  congr 2
  omega

theorem byteAt_content {i : ℕ} (h : i < st.revLen) :
    byteAt st.readBuffer.cells i = byteAt st.content i :=
  (byteAt_take h).symm

theorem hdrLens_content (h : 0 < st.revLen) : hdrLens st.readBuffer.cells = hdrLens st.content :=
  hdrLens_eq_of_byteAt_zero (st.byteAt_content h)

/-- Once the header is in the buffer, the payload length is read off the received bytes. -/
theorem recvPayloadLen_content (hacc : recvAccepts (byteAt st.content 0))
    (hhdr : hdrLens st.content ≤ st.revLen) :
    recvPayloadLen st.readBuffer.cells = recvPayloadLen st.content :=
  recvPayloadLen_eq_of_agree hacc fun i hi => st.byteAt_content (by omega)

/-- So is `pkt_len`. -/
theorem pktLen_content (hacc : recvAccepts (byteAt st.content 0))
    (hhdr : hdrLens st.content ≤ st.revLen) : pktLen st.readBuffer.cells = pktLen st.content := by
  have hpos := hdrLens_pos st.content
  rw [pktLen, pktLen, st.recvPayloadLen_content hacc hhdr, st.hdrLens_content (by omega)]

end Parse

/-- After the read the loop works on the bytes kept, followed by the bytes read. -/
theorem RecvState.content_received (s : RecvState) (chunk : List UInt8)
    (h : chunk.length ≤ readBufferSize - s.lastLen) :
    (s.received chunk h).content = s.pending ++ chunk := by
  have hle := s.lastLe
  have hmod : (chunk.length + s.lastLen) % 65536 = chunk.length + s.lastLen :=
    Nat.mod_eq_of_lt (by rw [readBufferSize] at *; omega)
  show (s.readBuffer.store s.lastLen chunk (by omega)).cells.take ((chunk.length + s.lastLen) % 65536) = _
  rw [Block.take_store _ _ _ _ (by omega), pending]

theorem RecvState.revLen_received (s : RecvState) (chunk : List UInt8)
    (h : chunk.length ≤ readBufferSize - s.lastLen) :
    (s.received chunk h).revLen = s.lastLen + chunk.length := by
  rw [← Parse.length_content, s.content_received, List.length_append, s.length_pending]

/-! ## What one pass can do -/

/-- A pass on an incomplete packet keeps every byte and ends the loop. -/
theorem parseBody_wait {st : Parse} (hpos : 0 < st.revLen) (hacc : recvAccepts (byteAt st.content 0))
    (hwait : st.revLen < hdrLens st.content ∨ st.revLen < pktLen st.content) :
    parseBody st = .inr st.keepAll := by
  rw [parseBody, if_pos (by rw [st.byteAt_content hpos]; exact hacc), st.hdrLens_content hpos]
  by_cases hhdr : hdrLens st.content ≤ st.revLen
  · rw [if_pos hhdr, st.pktLen_content hacc hhdr, if_neg (by omega)]
  · rw [if_neg hhdr]

/-- A pass on a complete packet delivers `pkt_len` bytes, moves the rest to the front, and goes round
again when at least four bytes are left. -/
theorem parseBody_deliver {st : Parse} (hpos : 0 < st.revLen)
    (hacc : recvAccepts (byteAt st.content 0)) (hhdr : hdrLens st.content ≤ st.revLen)
    (hpkt : pktLen st.content ≤ st.revLen) :
    ∃ st' : Parse, st'.out = st.out ++ deliveries st.readBuffer.cells (pktLen st.content) ∧
      st'.lastLen = st.revLen - pktLen st.content ∧
      st'.rest = st.content.drop (pktLen st.content) ∧
      parseBody st = if 4 ≤ st'.lastLen then .inl st'.resume else .inr st' := by
  refine ⟨(st.emit (deliveries st.readBuffer.cells (pktLen st.content))).dropFront
    (pktLen st.content), rfl, rfl, Parse.rest_dropFront _ hpkt, ?_⟩
  rw [parseBody, if_pos (by rw [st.byteAt_content hpos]; exact hacc), st.hdrLens_content hpos,
    if_pos hhdr, st.pktLen_content hacc hhdr, if_pos hpkt]

/-- A pass on an invalid type byte discards up to the next type `scomm_vendor_find_valid_type` knows
and ends the loop. -/
theorem parseBody_discard {st : Parse} (hpos : 0 < st.revLen)
    (hacc : ¬ recvAccepts (byteAt st.content 0)) :
    ∃ st' : Parse, st'.out = st.out ++ [.discard (st.content.take (st.content.findIdx findValidAccepts))] ∧
      st'.rest = st.content.drop (st.content.findIdx findValidAccepts) ∧
      parseBody st = .inr st' := by
  have hle := scommVendorFindValidType_le st.readBuffer.cells st.revLen
  refine ⟨(st.emit [.discard (st.readBuffer.cells.take
    (scommVendorFindValidType st.readBuffer.cells st.revLen))]).dropFront
    (scommVendorFindValidType st.readBuffer.cells st.revLen), ?_, Parse.rest_dropFront _ hle, ?_⟩
  · show st.out ++ _ = st.out ++ [.discard (List.take _ (List.take _ _))]
    rw [List.take_take, Nat.min_eq_left (by exact hle)]
    rfl
  · rw [parseBody, if_neg (by rw [st.byteAt_content hpos]; exact hacc)]

end Seekwave
