import Seekwave.Btsnoop.Record
import Seekwave.Scomm.Port

/-!
# Host packets: `scomm_vendor_recv_rawdata`

One call reads a packet from the host's socket in three stages (type, header, payload), records it
and writes it to a port. What the `read()`s and `write()`s of the call return is given as a list for
each; a call for which the results run out has not returned.

The header and the payload are read by the same loop, `readLoop`, with their own offset and count:
every `read()` asks for the whole count again, whatever the reads before it have returned.
-/

open Memory

namespace Seekwave

/-- The size of `recvSocketBuf`. -/
def recvSocketBufSize : ℕ := 4096

/-- What a `read()` returns: an error (-1), or the bytes it has stored, none at the end of file. -/
abbrev ReadResult := Option (List UInt8)

/-- The value of the `read()`. -/
def readRet (r : ReadResult) : ℤ := r.elim (-1) fun c => c.length

/-- The value as `rev_len` holds it, an `int16_t`. -/
def revLen (r : ReadResult) : ℤ := (readRet r).bmod 65536

/-- What a call does besides reading. -/
inductive RawEvent
  /-- `write(btpw_fp, &pkt_cnts, 1)` -/
  | btpwWrite (pktCnts : UInt8)
  | skwBtsnoopCapture (record : Option SnoopRecord)
  /-- the bytes a `write()` to the port takes -/
  | portWrite (port : Port) (bytes : List UInt8)
deriving DecidableEq, Repr

/-- How a call ends. It is `blocked` where it waits for a result, or was given one its system call
cannot return: more bytes than it asked for. -/
inductive CallEnd
  | blocked
  | aborted
  | returned
deriving DecidableEq, Repr

/-! ## Reading -/

/-- How a loop of reads leaves the buffer, and the results it has not used. `failed` is an error. -/
inductive ReadLoop
  | blocked
  | failed (buf : List UInt8) (rest : List ReadResult)
  | complete (buf : List UInt8) (rest : List ReadResult)

/-- The `do … while (bytes_read < need_read_lens)` loop of the header and of the payload. -/
def readLoop (offset needReadLens : ℕ) : List ReadResult → List UInt8 → ℕ → ReadLoop
  | [], _, _ => .blocked
  | r :: rs, buf, bytesRead =>
    if needReadLens < (r.getD []).length then .blocked
    else
      let buf' := store buf (offset + bytesRead) (r.getD [])
      if revLen r < 0 then .failed buf' rs
      else
        let bytesRead' := bytesRead + (revLen r).toNat
        if bytesRead' < needReadLens then readLoop offset needReadLens rs buf' bytesRead'
        else .complete buf' rs

/-- The packet types a call accepts from the host. -/
def rawAccepts (pktType : UInt8) : Prop :=
  pktType = hciCommandPkt ∨ pktType = hciAcldataPkt ∨ pktType = hciScodataPkt ∨
    pktType = hciIsoPkt

instance (pktType : UInt8) : Decidable (rawAccepts pktType) := by
  unfold rawAccepts; infer_instance

/-- The payload length, read from the header by `pkt_type`. -/
def rawPayloadLen (b : List UInt8) : ℕ :=
  let pktType := byteAt b 0
  if pktType = hciAcldataPkt ∨ pktType = hciIsoPkt then u16At b hciCommonDataLengthIndex
  else if pktType = hciEventPkt ∨ pktType = hciEventSkwlog then
    (byteAt b hciEventDataLengthIndex).toNat
  else (byteAt b hciCommonDataLengthIndex).toNat

/-! ## Sending -/

/-- The settings a call reads. `driverState` is that of each port. -/
structure RawConfig where
  skwbtTranstype : UInt8
  skwbtuartonly : Bool
  skwbtNoSleep : Bool
  btpwFp : ℤ
  driverState : Port → Bool

/-- The globals a call changes. -/
structure RawState where
  recvSocketBuf : List UInt8
  pktCnts : UInt8

def RawState.init : RawState := ⟨List.replicate recvSocketBufSize 0, 0⟩

/-- `send_port`, by packet type and transport. -/
def sendPort (cfg : RawConfig) (pktType : UInt8) : Port :=
  if cfg.skwbtTranstype &&& skwbtTransTypeSdio ≠ 0 then
    if pktType = hciAcldataPkt then btComPortAcl
    else if pktType = hciScodataPkt then btComPortAudio
    else if pktType = hciIsoPkt then btComPortIso
    else btComPortCmdevt
  else btComPortCmdevt

/-- How the loop of writes ends, what it wrote, and the results it has not used. -/
structure WriteLoop where
  callEnd : CallEnd
  events : List RawEvent
  rest : List (Option ℕ)

/-- The loop that writes `recvSocketBuf` to an open port. A `write()` returns -1 (`none`) or the
number of bytes taken. -/
def writeLoop (port : Port) (buf : List UInt8) : List (Option ℕ) → ℕ → ℕ → WriteLoop
  | ws, _, 0 => ⟨.returned, [], ws⟩
  | [], _, _ + 1 => ⟨.blocked, [], []⟩
  | none :: ws, _, _ + 1 => ⟨.returned, [], ws⟩
  | some k :: ws, transmittedLength, length@(_ + 1) =>
    if length < k then ⟨.blocked, [], []⟩
    else
      let l := writeLoop port buf ws ((transmittedLength + k) % 65536) (length - k)
      { l with events := .portWrite port ((buf.drop transmittedLength).take k) :: l.events }

/-- How a call ends, the globals and the events then, and the results it has not used. -/
structure RawCall where
  callEnd : CallEnd
  state : RawState
  events : List RawEvent
  restReads : List ReadResult
  restWrites : List (Option ℕ)

/-- The rest of a call, once `total_len` bytes of `recvSocketBuf` make up a packet. -/
def rawSend (cfg : RawConfig) (s : RawState) (totalLen : ℕ) (restReads : List ReadResult)
    (writes : List (Option ℕ)) : RawCall :=
  let buf := s.recvSocketBuf
  let wakes := cfg.skwbtTranstype &&& skwbtTransTypeUart ≠ 0 ∧ cfg.skwbtuartonly = false ∧
    cfg.skwbtNoSleep = false ∧ 0 < cfg.btpwFp
  let port := sendPort cfg (byteAt buf 0)
  let l : WriteLoop := if cfg.driverState port = true then writeLoop port buf writes 0 totalLen
    else ⟨.returned, [], writes⟩
  { callEnd := l.callEnd
    state := { s with pktCnts := if wakes then s.pktCnts + 1 else s.pktCnts }
    events := (if wakes then [.btpwWrite s.pktCnts] else []) ++
      .skwBtsnoopCapture (skwBtsnoopCapture buf false) :: l.events
    restReads := restReads
    restWrites := l.rest }

/-- A call that ends before it sends anything. -/
def rawStop (callEnd : CallEnd) (s : RawState) (restReads : List ReadResult)
    (writes : List (Option ℕ)) : RawCall :=
  ⟨callEnd, s, [], restReads, writes⟩

/-- The rest of a call, once the header is in `recvSocketBuf`. -/
def rawPayload (cfg : RawConfig) (s : RawState) (offset : ℕ) (reads : List ReadResult)
    (writes : List (Option ℕ)) : RawCall :=
  let needReadLens := rawPayloadLen s.recvSocketBuf
  if 0 < needReadLens then
    match readLoop offset needReadLens reads s.recvSocketBuf 0 with
    | .blocked => rawStop .blocked s [] writes
    | .failed buf rest => rawStop .returned { s with recvSocketBuf := buf } rest writes
    | .complete buf rest =>
      rawSend cfg { s with recvSocketBuf := buf } ((offset + needReadLens) % 65536) rest writes
  else rawSend cfg s offset reads writes

/-- The rest of a call, once the type byte is in `recvSocketBuf`. -/
def rawHeader (cfg : RawConfig) (s : RawState) (reads : List ReadResult)
    (writes : List (Option ℕ)) : RawCall :=
  let pktType := byteAt s.recvSocketBuf 0
  if rawAccepts pktType then
    let needReadLens := hciPreambleSizes pktType
    match readLoop 1 needReadLens reads s.recvSocketBuf 0 with
    | .blocked => rawStop .blocked s [] writes
    | .failed buf rest => rawStop .returned { s with recvSocketBuf := buf } rest writes
    | .complete buf rest =>
      rawPayload cfg { s with recvSocketBuf := buf } (1 + needReadLens) rest writes
  else rawStop .aborted s reads writes

/-- `scomm_vendor_recv_rawdata`, with the results of its reads and writes. -/
def scommVendorRecvRawdata (cfg : RawConfig) (s : RawState) (reads : List ReadResult)
    (writes : List (Option ℕ)) : RawCall :=
  match reads with
  | [] => rawStop .blocked s [] writes
  | r :: rs =>
    if 1 < (r.getD []).length then rawStop .blocked s [] writes
    else
      let s' := { s with recvSocketBuf := store s.recvSocketBuf 0 (r.getD []) }
      if revLen r ≤ 0 then rawStop .returned s' rs writes
      else rawHeader cfg s' rs writes

end Seekwave
