import Seekwave.Scomm.Downlink

/-!
# The socket thread

`scomm_vendor_recv_socket_thread` waits in `epoll_wait` for the socket that the host writes to, and calls
`scomm_vendor_recv_rawdata`. Here a call is taken apart into the `read()`s, `write()`s and tests of
`driver_state` that it makes, so that the host, the other threads and `scomm_vendor_port_close` act between
any two of them.

Step by step, the thread does what the calls of `Scomm.RawData` do one after the other
(`socket_thread_refines`): `CallPc.rest` is what is left of a call, and a step of the thread takes its
beginning off.
-/

open Memory

namespace Seekwave

/-! ## A call, step by step -/

/-- Where a call of `scomm_vendor_recv_rawdata` stands: at one of its reads, at the test of its loop of
writes or at the `write()` in it, with the variables that it goes on with. -/
inductive CallPc
  | type
  | header (needReadLens bytesRead : ℕ)
  | payload (offset needReadLens bytesRead : ℕ)
  | testing (port : Port) (transmittedLength length : ℕ)
  | writing (port : Port) (transmittedLength length : ℕ)
  | returned
  | aborted
deriving DecidableEq, Repr

/-- What a step of a call leaves. -/
structure CallStep where
  raw : RawState
  pc : CallPc
  events : List RawEvent

section Steps

variable (cfg : RawConfig) (raw : RawState)

/-- `recvSocketBuf` holds a packet of `total_len` bytes. -/
def beginSend (totalLen : ℕ) : CallStep where
  raw := { raw with pktCnts := if cfg.Wakes then raw.pktCnts + 1 else raw.pktCnts }
  pc := .testing (sendPort cfg (byteAt raw.recvSocketBuf 0)) 0 totalLen
  events := (if cfg.Wakes then [.btpwWrite raw.pktCnts] else []) ++
    [.skwBtsnoopCapture (skwBtsnoopCapture raw.recvSocketBuf false)]

/-- `recvSocketBuf` holds a header, which ends at `offset`. -/
def beginPayload (offset : ℕ) : CallStep :=
  let needReadLens := rawPayloadLen raw.recvSocketBuf
  if 0 < needReadLens then ⟨raw, .payload offset needReadLens 0, []⟩ else beginSend cfg raw offset

/-- `recvSocketBuf` holds a type byte. -/
def beginHeader : CallStep :=
  let pktType := byteAt raw.recvSocketBuf 0
  if rawAccepts pktType then ⟨raw, .header (hciPreambleSizes pktType) 0, []⟩ else ⟨raw, .aborted, []⟩

/-- A `read()` of a loop, `bytes_read` bytes behind `offset`, has returned; `next` is what follows the
loop. -/
def loopRead (offset needReadLens bytesRead : ℕ) (again : ℕ → CallPc) (next : RawState → CallStep)
    (r : ReadResult) : CallStep :=
  let raw' := { raw with recvSocketBuf := store raw.recvSocketBuf (offset + bytesRead) (r.getD []) }
  if revLen r < 0 then ⟨raw', .returned, []⟩
  else if bytesRead + (revLen r).toNat < needReadLens then
    ⟨raw', again (bytesRead + (revLen r).toNat), []⟩
  else next raw'

/-- The `read()` that a call stands at has returned. -/
def CallPc.afterRead (r : ReadResult) : CallPc → CallStep
  | .type =>
    let raw' := { raw with recvSocketBuf := store raw.recvSocketBuf 0 (r.getD []) }
    if revLen r ≤ 0 then ⟨raw', .returned, []⟩ else beginHeader raw'
  | .header needReadLens bytesRead =>
    loopRead raw 1 needReadLens bytesRead (.header needReadLens)
      (fun raw' => beginPayload cfg raw' (1 + needReadLens)) r
  | .payload offset needReadLens bytesRead =>
    loopRead raw offset needReadLens bytesRead (.payload offset needReadLens)
      (fun raw' => beginSend cfg raw' ((offset + needReadLens) % 65536)) r
  | pc => ⟨raw, pc, []⟩

/-- The bytes that the `read()` asks for. -/
def CallPc.count : CallPc → Option ℕ
  | .type => some 1
  | .header needReadLens _ => some needReadLens
  | .payload _ needReadLens _ => some needReadLens
  | _ => none

end Steps

/-! ## The thread -/

/-- Where the socket thread stands: at `while(thread_running)`, in `epoll_wait`, or in a call. -/
inductive SocketPc
  | head
  | waiting
  | calling (pc : CallPc)
  | exited
deriving DecidableEq, Repr

/-- Where `scomm_vendor_port_close` stands for port 0. `joiningRecv` is all it does from the test of
`is_busying` to the `pthread_join()` of the receive thread, for which it waits there; the places behind it
are those of `scomm_vendor_socket_close`. -/
inductive SocketClosePc
  | entered
  | stopping
  | joiningRecv
  | closingHost
  | closingChip
  | joining
  | returned
deriving DecidableEq, Repr

/-- What the socket thread shares with the host and the other threads. `inbox` is what the host has written
and the thread has not read, `hostOpen` and `chipOpen` say which of `uart_fd[0]` and `uart_fd[1]` are
open, and `recvLeft` whether the receive thread of port 0 has left its loop. -/
structure SocketLink where
  raw : RawState
  threadRunning : Bool
  recvLeft : Bool
  driverState : Port → Bool
  inbox : List UInt8
  hostOpen : Bool
  chipOpen : Bool
  pc : SocketPc
  closePc : SocketClosePc

/-- The thread has been created. The buffer is that of the session before. -/
def SocketLink.start (raw : RawState) (driverState : Port → Bool) : SocketLink where
  raw := raw
  threadRunning := true
  recvLeft := false
  driverState := driverState
  inbox := []
  hostOpen := true
  chipOpen := true
  pc := .head
  closePc := .entered

/-- What a `read()` of `uart_fd[1]` for `count` bytes may return: an error, or as many bytes as it finds,
none only behind the end of what the host has written. -/
def SocketLink.CanRead (s : SocketLink) (count : ℕ) : ReadResult → Prop
  | none => True
  | some c => s.chipOpen = true ∧ c.length ≤ count ∧ c <+: s.inbox ∧
      (c = [] → s.inbox = [] ∧ s.hostOpen = false)

/-- The scheduler's choices, with the results of the system calls. -/
inductive SocketEvent
  | test
  | epollInterrupted
  /-- `epoll_wait` has returned, with an event of `uart_fd[1]` or without -/
  | epoll (ready : Bool)
  | read (r : ReadResult)
  | testDriver
  | write (ret : Option ℕ)
  | ret
  | hostWrite (bytes : List UInt8)
  | hostClose
  /-- another thread has set `driver_state` of a port -/
  | driver (port : Port) (up : Bool)
  /-- the receive thread of port 0 leaves its loop -/
  | recvLeave
  | closeCall
  | clearDriver
  | recvJoined
  | closeHost
  | closeChip
  | join
deriving DecidableEq

/-- One step of the thread, the host or `scomm_vendor_port_close`. -/
inductive SocketStep (cfg : RawConfig) : SocketLink → SocketEvent → List RawEvent → SocketLink → Prop
  | test {s : SocketLink} (hpc : s.pc = .head) :
      SocketStep cfg s .test [] { s with pc := if s.threadRunning = true then .waiting else .exited }
  | epollInterrupted {s : SocketLink} (hpc : s.pc = .waiting) :
      SocketStep cfg s .epollInterrupted []
        { s with pc := if s.threadRunning = true then .waiting else .head }
  -- an event of `signal_fd[1]`, like a timeout or an error, calls nothing
  | epoll {s : SocketLink} (ready : Bool) (hpc : s.pc = .waiting)
      (hready : ready = true → s.chipOpen = true ∧ (s.inbox ≠ [] ∨ s.hostOpen = false)) :
      SocketStep cfg s (.epoll ready) [] { s with pc := if ready = true then .calling .type else .head }
  | read {s : SocketLink} {pc : CallPc} {count : ℕ} (r : ReadResult) (hpc : s.pc = .calling pc)
      (hcount : pc.count = some count) (hr : s.CanRead count r) :
      SocketStep cfg s (.read r) (pc.afterRead cfg s.raw r).events
        { s with
          raw := (pc.afterRead cfg s.raw r).raw
          pc := .calling (pc.afterRead cfg s.raw r).pc
          inbox := s.inbox.drop (r.getD []).length }
  | testDriver {s : SocketLink} {port : Port} {transmittedLength length : ℕ}
      (hpc : s.pc = .calling (.testing port transmittedLength length)) :
      SocketStep cfg s .testDriver []
        { s with
          pc := .calling (if 0 < length ∧ s.driverState port = true then
            .writing port transmittedLength length else .returned) }
  | writeFailed {s : SocketLink} {port : Port} {transmittedLength length : ℕ}
      (hpc : s.pc = .calling (.writing port transmittedLength length)) :
      SocketStep cfg s (.write none) [] { s with pc := .calling .returned }
  | write {s : SocketLink} {port : Port} {transmittedLength length k : ℕ}
      (hpc : s.pc = .calling (.writing port transmittedLength length)) (hk : k ≤ length) :
      SocketStep cfg s (.write (some k))
        [.portWrite port ((s.raw.recvSocketBuf.drop transmittedLength).take k)]
        { s with pc := .calling (.testing port ((transmittedLength + k) % 65536) (length - k)) }
  | ret {s : SocketLink} (hpc : s.pc = .calling .returned) : SocketStep cfg s .ret [] { s with pc := .head }
  | hostWrite {s : SocketLink} (bytes : List UInt8) (hopen : s.hostOpen = true) :
      SocketStep cfg s (.hostWrite bytes) [] { s with inbox := s.inbox ++ bytes }
  | hostClose {s : SocketLink} : SocketStep cfg s .hostClose [] { s with hostOpen := false }
  -- ports are opened before port 0 is closed; a receive thread that leaves clears its port at any time
  | driver {s : SocketLink} (port : Port) (up : Bool) (hup : up = true → s.closePc = .entered) :
      SocketStep cfg s (.driver port up) []
        { s with driverState := Function.update s.driverState port up }
  | recvLeave {s : SocketLink} : SocketStep cfg s .recvLeave [] { s with recvLeft := true }
  | closeCall {s : SocketLink} (hpc : s.closePc = .entered) :
      SocketStep cfg s .closeCall [] { s with threadRunning := false, closePc := .stopping }
  | clearDriver {s : SocketLink} (hpc : s.closePc = .stopping) :
      SocketStep cfg s .clearDriver []
        { s with driverState := Function.update s.driverState 0 false, closePc := .joiningRecv }
  | recvJoined {s : SocketLink} (hpc : s.closePc = .joiningRecv) (hleft : s.recvLeft = true) :
      SocketStep cfg s .recvJoined [] { s with closePc := .closingHost }
  | closeHost {s : SocketLink} (hpc : s.closePc = .closingHost) :
      SocketStep cfg s .closeHost [] { s with hostOpen := false, closePc := .closingChip }
  | closeChip {s : SocketLink} (hpc : s.closePc = .closingChip) :
      SocketStep cfg s .closeChip [] { s with chipOpen := false, closePc := .joining }
  | join {s : SocketLink} (hpc : s.closePc = .joining) (hexit : s.pc = .exited) :
      SocketStep cfg s .join [] { s with closePc := .returned }

/-- A run from the creation of the thread, with what it has done. -/
abbrev SocketRun (cfg : RawConfig) (raw : RawState) (driverState : Port → Bool) (es : List SocketEvent)
    (os : List RawEvent) (s : SocketLink) : Prop :=
  Execution (SocketStep cfg) (.start raw driverState) es os s

/-! ## What is left of a call -/

/-- Ports that are all open. The thread's test of `driver_state` that fails is to the call what a `write()`
that fails is. -/
def RawConfig.allUp (cfg : RawConfig) : RawConfig := { cfg with driverState := fun _ => true }

/-- What is left of a call at a loop of reads; `next` is what follows the loop. -/
def loopRest (raw : RawState) (offset needReadLens bytesRead : ℕ)
    (next : RawState → List ReadResult → RawCall) (reads : List ReadResult)
    (writes : List (Option ℕ)) : RawCall :=
  match readLoop offset needReadLens reads raw.recvSocketBuf bytesRead with
  | .blocked => rawStop .blocked raw [] writes
  | .failed buf rest => rawStop .returned { raw with recvSocketBuf := buf } rest writes
  | .complete buf rest => next { raw with recvSocketBuf := buf } rest

/-- What is left of a call at the loop of writes. -/
def writeRest (raw : RawState) (port : Port) (transmittedLength length : ℕ) (reads : List ReadResult)
    (writes : List (Option ℕ)) : RawCall :=
  let l := writeLoop port raw.recvSocketBuf writes transmittedLength length
  ⟨l.callEnd, raw, l.events, reads, l.rest⟩

/-- What is left of a call, by the place where it stands and what its system calls are to return. -/
def CallPc.rest (cfg : RawConfig) (raw : RawState) (reads : List ReadResult) (writes : List (Option ℕ)) :
    CallPc → RawCall
  | .type => scommVendorRecvRawdata cfg raw reads writes
  | .header needReadLens bytesRead => loopRest raw 1 needReadLens bytesRead
      (fun raw' rest => rawPayload cfg raw' (1 + needReadLens) rest writes) reads writes
  | .payload offset needReadLens bytesRead => loopRest raw offset needReadLens bytesRead
      (fun raw' rest => rawSend cfg raw' ((offset + needReadLens) % 65536) rest writes) reads writes
  | .testing port transmittedLength length => writeRest raw port transmittedLength length reads writes
  | .writing port transmittedLength length => writeRest raw port transmittedLength length reads writes
  | .returned => rawStop .returned raw reads writes
  | .aborted => rawStop .aborted raw reads writes

/-- A call, if it has come to its end. -/
def RawCall.ended (c : RawCall) : Option RawCall := if c.callEnd = .blocked then none else some c

/-- A call that has done `os` before. -/
def RawCall.after (os : List RawEvent) (c : RawCall) : RawCall := { c with events := os ++ c.events }

/-- The end of a call that is left to do a step's rest. -/
def CallStep.rest (cfg : RawConfig) (st : CallStep) (reads : List ReadResult)
    (writes : List (Option ℕ)) : Option RawCall :=
  (st.pc.rest cfg st.raw reads writes).ended.map (RawCall.after st.events)

section Rest

variable {cfg : RawConfig} {raw : RawState} {reads : List ReadResult} {writes : List (Option ℕ)}
  {r : ReadResult}

@[simp] theorem RawCall.after_nil (c : RawCall) : c.after [] = c := rfl

theorem RawCall.after_after (os ps : List RawEvent) (c : RawCall) :
    (c.after ps).after os = c.after (os ++ ps) := by
  rw [RawCall.after, RawCall.after, RawCall.after, List.append_assoc]

theorem RawCall.ended_after (os : List RawEvent) (c : RawCall) :
    (c.after os).ended = c.ended.map (RawCall.after os) := by
  rw [RawCall.ended, RawCall.ended, RawCall.after]
  by_cases h : c.callEnd = .blocked
  · rw [if_pos h, if_pos h]
    rfl
  · rw [if_neg h, if_neg h]
    rfl

theorem CallStep.rest_of_nil {pc : CallPc} :
    (CallStep.mk raw pc []).rest cfg reads writes = (pc.rest cfg raw reads writes).ended := by
  rw [CallStep.rest]
  cases (pc.rest cfg raw reads writes).ended <;> rfl

/-- The packet is handed on: the call is left with its loop of writes. -/
theorem rest_beginSend (totalLen : ℕ) : (beginSend cfg raw totalLen).rest cfg.allUp reads writes =
    (rawSend cfg.allUp raw totalLen reads writes).ended := by
  rw [CallStep.rest, ← RawCall.ended_after]
  refine congrArg RawCall.ended ?_
  rw [RawCall.after, beginSend, List.append_assoc]
  rfl

/-- The header has been read. -/
theorem rest_beginPayload (offset : ℕ) : (beginPayload cfg raw offset).rest cfg.allUp reads writes =
    (rawPayload cfg.allUp raw offset reads writes).ended := by
  rw [beginPayload, rawPayload]
  split
  · exact CallStep.rest_of_nil
  · exact rest_beginSend offset

/-- The type byte has been read. -/
theorem rest_beginHeader : (beginHeader raw).rest cfg reads writes =
    (rawHeader cfg raw reads writes).ended := by
  rw [beginHeader, rawHeader]
  dsimp only
  split
  · exact CallStep.rest_of_nil
  · exact CallStep.rest_of_nil

/-- One read of a loop. -/
theorem rest_loopRead {offset need n : ℕ} {again : ℕ → CallPc} {begin' : RawState → CallStep}
    {next : RawState → List ReadResult → RawCall} (hfit : (r.getD []).length ≤ need)
    (hagain : ∀ m raw', (again m).rest cfg raw' reads writes =
      loopRest raw' offset need m next reads writes)
    (hnext : ∀ raw', (begin' raw').rest cfg reads writes = (next raw' reads).ended) :
    (loopRead raw offset need n again begin' r).rest cfg reads writes =
      (loopRest raw offset need n next (r :: reads) writes).ended := by
  rw [loopRead, loopRest, readLoop, if_neg (Nat.not_lt.mpr hfit)]
  by_cases herr : revLen r < 0
  · rw [if_pos herr, if_pos herr]
    exact CallStep.rest_of_nil
  · rw [if_neg herr, if_neg herr]
    by_cases hmore : n + (revLen r).toNat < need
    · rw [if_pos hmore, if_pos hmore, CallStep.rest_of_nil, hagain, loopRest]
      dsimp only
      cases readLoop offset need reads _ _ <;> rfl
    · rw [if_neg hmore, if_neg hmore]
      exact hnext _

/-- **A read takes the beginning off the rest of the call.** -/
theorem rest_afterRead {pc : CallPc} {count : ℕ} (hcount : pc.count = some count)
    (hfit : (r.getD []).length ≤ count) :
    (pc.afterRead cfg raw r).rest cfg.allUp reads writes =
      (pc.rest cfg.allUp raw (r :: reads) writes).ended := by
  cases pc with
  | type =>
    obtain rfl : 1 = count := Option.some.inj hcount
    rw [CallPc.afterRead, CallPc.rest, scommVendorRecvRawdata]
    dsimp only
    rw [if_neg (Nat.not_lt.mpr hfit)]
    split
    · exact CallStep.rest_of_nil
    · exact rest_beginHeader
  | header need n =>
    obtain rfl : need = count := Option.some.inj hcount
    exact rest_loopRead hfit (fun _ _ => rfl) fun raw' => rest_beginPayload _
  | payload offset need n =>
    obtain rfl : need = count := Option.some.inj hcount
    exact rest_loopRead hfit (fun _ _ => rfl) fun raw' => rest_beginSend _
  | testing | writing | returned | aborted => exact absurd hcount (by simp [CallPc.count])

/-- A `write()` that fails, or a port that is closed, ends the call. -/
theorem rest_write_none {port : Port} {t n : ℕ} (hn : 0 < n) :
    writeRest raw port t n reads (none :: writes) = rawStop .returned raw reads writes := by
  obtain ⟨n, rfl⟩ := Nat.exists_eq_succ_of_ne_zero (Nat.ne_of_gt hn)
  rfl

/-- A `write()` takes its bytes off the rest of the call. -/
theorem rest_write_some {port : Port} {t n k : ℕ} (hn : 0 < n) (hk : k ≤ n) :
    writeRest raw port t n reads (some k :: writes) =
      (writeRest raw port ((t + k) % 65536) (n - k) reads writes).after
        [.portWrite port ((raw.recvSocketBuf.drop t).take k)] := by
  obtain ⟨n, rfl⟩ := Nat.exists_eq_succ_of_ne_zero (Nat.ne_of_gt hn)
  rw [writeRest, writeLoop, if_neg (Nat.not_lt.mpr hk)]
  rfl

end Rest

/-! ## The thread and the calls -/

/-- What the system calls of a call return. -/
structure CallResults where
  reads : List ReadResult
  writes : List (Option ℕ)

/-- What they read. -/
def CallResults.bytes (c : CallResults) : List UInt8 := c.reads.flatMap fun r => r.getD []

/-- A call that uses all these results and returns. -/
def CallReturns (cfg : RawConfig) (raw : RawState) (c : CallResults) (os : List RawEvent) (raw' : RawState) :
    Prop :=
  scommVendorRecvRawdata cfg raw c.reads c.writes = ⟨.returned, raw', os, [], []⟩

/-- What the host has written. -/
def hostWritten (es : List SocketEvent) : List UInt8 :=
  es.flatMap fun
    | .hostWrite bytes => bytes
    | _ => []

/-- Where a call stands it has something to write. -/
def CallPc.Sound : CallPc → Prop
  | .writing _ _ length => 0 < length
  | _ => True

/-- What the thread has done since its last call has returned: it has not begun another, or `c` is what one
has been given so far, `os` what it has done, and the rest of it goes on from where the thread is. -/
def SocketPc.UnderWay (cfg : RawConfig) (before : RawState) (c : CallResults) (os : List RawEvent)
    (raw : RawState) : SocketPc → Prop
  | .calling pc => pc.Sound ∧ ∀ reads writes,
      (scommVendorRecvRawdata cfg.allUp before (c.reads ++ reads) (c.writes ++ writes)).ended =
        (CallStep.mk raw pc os).rest cfg.allUp reads writes
  | _ => c = ⟨[], []⟩ ∧ os = [] ∧ raw = before

/-- What the thread has done is what calls do one after the other, and the beginning of one more; and they
have read what the host has written, but for what is left in the socket. -/
structure Refines (cfg : RawConfig) (raw : RawState) (es : List SocketEvent) (os : List RawEvent)
    (s : SocketLink) (calls : List CallResults) (before : RawState) (c : CallResults)
    (os₁ os₂ : List RawEvent) : Prop where
  run : Execution (CallReturns cfg.allUp) raw calls os₁ before
  underWay : s.pc.UnderWay cfg before c os₂ s.raw
  events : os = os₁ ++ os₂
  bytes : calls.flatMap CallResults.bytes ++ c.bytes ++ s.inbox = hostWritten es

theorem hostWritten_append (es fs : List SocketEvent) :
    hostWritten (es ++ fs) = hostWritten es ++ hostWritten fs := List.flatMap_append

theorem RawCall.eq_of_ended {c d : RawCall} (h : c.ended = some d) : c = d := by
  rw [RawCall.ended] at h
  split at h
  · exact absurd h (by simp)
  · exact Option.some.inj h

section Refines

variable {cfg : RawConfig} {raw before : RawState} {es : List SocketEvent} {os os₁ os₂ : List RawEvent}
  {s t : SocketLink} {calls : List CallResults} {c : CallResults} {pc : CallPc}

/-- The call goes on, given results that the rest of it takes first. -/
theorem SocketPc.UnderWay.advance (h : (SocketPc.calling pc).UnderWay cfg before c os raw) {st : CallStep}
    (rs : List ReadResult) (ws : List (Option ℕ)) (hsound : st.pc.Sound)
    (hstep : ∀ reads writes, st.rest cfg.allUp reads writes =
      (pc.rest cfg.allUp raw (rs ++ reads) (ws ++ writes)).ended) :
    (SocketPc.calling st.pc).UnderWay cfg before ⟨c.reads ++ rs, c.writes ++ ws⟩ (os ++ st.events)
      st.raw := by
  refine ⟨hsound, fun reads writes => ?_⟩
  rw [List.append_assoc, List.append_assoc, h.2, CallStep.rest, ← hstep, CallStep.rest, CallStep.rest,
    Option.map_map]
  refine congrArg (fun f => Option.map f _) (funext fun d => ?_)
  exact RawCall.after_after _ _ _

/-- No step of the call: it stays where it was, and the host may have written more. -/
theorem Refines.frame (h : Refines cfg raw es os s calls before c os₁ os₂) {e : SocketEvent}
    (hpc : t.pc = s.pc) (hraw : t.raw = s.raw) (hinbox : t.inbox = s.inbox ++ hostWritten [e]) :
    Refines cfg raw (es ++ [e]) (os ++ []) t calls before c os₁ os₂ where
  run := h.run
  underWay := by rw [hpc, hraw]; exact h.underWay
  events := by rw [List.append_nil, h.events]
  bytes := by rw [hinbox, hostWritten_append, ← List.append_assoc, h.bytes]

/-- A step of the call under way. -/
theorem Refines.advance (h : Refines cfg raw es os s calls before c os₁ os₂) (hpc : s.pc = .calling pc)
    {e : SocketEvent} (st : CallStep) (rs : List ReadResult) (ws : List (Option ℕ))
    (hsound : st.pc.Sound)
    (hstep : ∀ reads writes, st.rest cfg.allUp reads writes =
      (pc.rest cfg.allUp s.raw (rs ++ reads) (ws ++ writes)).ended)
    (hnext : t.pc = .calling st.pc) (hraw : t.raw = st.raw) (he : hostWritten [e] = [])
    (hinbox : (rs.flatMap fun r => r.getD []) ++ t.inbox = s.inbox) :
    Refines cfg raw (es ++ [e]) (os ++ st.events) t calls before
      ⟨c.reads ++ rs, c.writes ++ ws⟩ os₁ (os₂ ++ st.events) where
  run := h.run
  underWay := by
    rw [hnext, hraw]
    have hhere := h.underWay
    rw [hpc] at hhere
    exact hhere.advance rs ws hsound hstep
  events := by rw [h.events, List.append_assoc]
  bytes := by
    rw [hostWritten_append, he, List.append_nil, ← h.bytes, ← hinbox, CallResults.bytes, CallResults.bytes,
      List.flatMap_append]
    simp only [List.append_assoc]

/-- The thread is between two calls. -/
theorem Refines.between (h : Refines cfg raw es os s calls before c os₁ os₂)
    (hpc : ∀ pc, s.pc ≠ .calling pc) : c = ⟨[], []⟩ ∧ os₂ = [] ∧ s.raw = before := by
  have hhere := h.underWay
  cases hs : s.pc with
  | calling pc => exact absurd hs (hpc pc)
  | head | waiting | exited =>
    rw [hs] at hhere
    exact hhere

/-- The thread goes on between two calls, or begins one. -/
theorem Refines.goto (h : Refines cfg raw es os s calls before c os₁ os₂)
    (hpc : ∀ pc, s.pc ≠ .calling pc) {e : SocketEvent} (hnext : ∀ pc, t.pc = .calling pc → pc = .type)
    (hraw : t.raw = s.raw) (hinbox : t.inbox = s.inbox) (he : hostWritten [e] = []) :
    Refines cfg raw (es ++ [e]) (os ++ []) t calls before c os₁ os₂ where
  run := h.run
  underWay := by
    obtain ⟨rfl, rfl, hbefore⟩ := h.between hpc
    rw [hraw, hbefore]
    cases ht : t.pc with
    | calling pc =>
      obtain rfl := hnext pc ht
      exact ⟨trivial, fun reads writes => (@CallStep.rest_of_nil _ _ reads writes .type).symm⟩
    | head | waiting | exited => exact ⟨rfl, rfl, rfl⟩
  events := by rw [List.append_nil, h.events]
  bytes := by rw [hostWritten_append, he, List.append_nil, hinbox, h.bytes]

/-- The call under way has returned. -/
theorem Refines.ret (h : Refines cfg raw es os s calls before c os₁ os₂)
    (hpc : s.pc = .calling .returned) {e : SocketEvent} (hnext : t.pc = .head) (hraw : t.raw = s.raw)
    (hinbox : t.inbox = s.inbox) (he : hostWritten [e] = []) :
    Refines cfg raw (es ++ [e]) (os ++ []) t (calls ++ [c]) s.raw ⟨[], []⟩ (os₁ ++ os₂) [] where
  run := by
    refine h.run.snoc ?_
    have hhere := h.underWay
    rw [hpc] at hhere
    have hend := hhere.2 [] []
    rw [List.append_nil, List.append_nil] at hend
    refine RawCall.eq_of_ended (hend.trans ?_)
    rw [CallStep.rest]
    show some (RawCall.after os₂ (rawStop .returned s.raw [] [])) = _
    rw [RawCall.after, rawStop, List.append_nil]
  underWay := by
    rw [hnext, hraw]
    exact ⟨rfl, rfl, rfl⟩
  events := by rw [h.events]
  bytes := by
    rw [hostWritten_append, he, List.append_nil, hinbox, ← h.bytes, List.flatMap_append,
      List.flatMap_singleton]
    exact congrArg (· ++ s.inbox) (List.append_nil _)

end Refines

/-! ## Every run -/

section Runs

variable {cfg : RawConfig} {raw before : RawState} {driverState : Port → Bool} {es : List SocketEvent}
  {os os₁ os₂ o : List RawEvent} {s t : SocketLink} {calls : List CallResults} {c : CallResults}

theorem readFit {count : ℕ} {r : ReadResult} (h : s.CanRead count r) :
    (r.getD []).length ≤ count ∧ (r.getD []) <+: s.inbox := by
  cases r with
  | none => exact ⟨Nat.zero_le _, List.nil_prefix⟩
  | some chunk => exact ⟨h.2.1, h.2.2.1⟩

theorem sound_loopRead {offset need n : ℕ} {again : ℕ → CallPc} {next : RawState → CallStep}
    {r : ReadResult} (hagain : ∀ m, (again m).Sound) (hnext : ∀ raw', (next raw').pc.Sound) :
    (loopRead raw offset need n again next r).pc.Sound := by
  rw [loopRead]
  split
  · exact trivial
  · split
    · exact hagain _
    · exact hnext _

theorem sound_beginPayload (raw : RawState) (offset : ℕ) : (beginPayload cfg raw offset).pc.Sound := by
  rw [beginPayload]
  split <;> exact trivial

/-- No read leads to a `write()` without a test. -/
theorem sound_afterRead {pc : CallPc} {r : ReadResult} (h : pc.Sound) :
    (pc.afterRead cfg raw r).pc.Sound := by
  cases pc with
  | type =>
    rw [CallPc.afterRead]
    split
    · exact trivial
    · rw [beginHeader]
      dsimp only
      split <;> exact trivial
  | header => exact sound_loopRead (fun _ => trivial) fun _ => sound_beginPayload _ _
  | payload => exact sound_loopRead (fun _ => trivial) fun _ => trivial
  | testing | writing | returned | aborted => exact h

/-- **Step lemma.** A step of the thread takes its beginning off the call under way, ends the call or
begins another. -/
theorem Refines.step (h : Refines cfg raw es os s calls before c os₁ os₂) {e : SocketEvent}
    (hstep : SocketStep cfg s e o t) : ∃ calls' before' c' os₁' os₂',
      Refines cfg raw (es ++ [e]) (os ++ o) t calls' before' c' os₁' os₂' := by
  cases hstep with
  | test hpc =>
    refine ⟨_, _, _, _, _, h.goto (by simp [hpc]) (fun pc hnext => ?_) rfl rfl rfl⟩
    dsimp only at hnext
    split at hnext <;> exact absurd hnext (by simp)
  | epollInterrupted hpc =>
    refine ⟨_, _, _, _, _, h.goto (by simp [hpc]) (fun pc hnext => ?_) rfl rfl rfl⟩
    dsimp only at hnext
    split at hnext <;> exact absurd hnext (by simp)
  | epoll ready hpc hready =>
    refine ⟨_, _, _, _, _, h.goto (by simp [hpc]) (fun pc hnext => ?_) rfl rfl rfl⟩
    dsimp only at hnext
    split at hnext
    · exact (SocketPc.calling.inj hnext).symm
    · exact absurd hnext (by simp)
  | @read pc count r hpc hcount hr =>
    obtain ⟨hfit, hprefix⟩ := readFit hr
    -- what is left of the call is what the bytes read leave of its loop
    have hhere := h.underWay
    rw [hpc] at hhere
    refine ⟨_, _, _, _, _, h.advance hpc _ [r] [] (sound_afterRead hhere.1) (fun reads writes => ?_) rfl rfl
      rfl ?_⟩
    · exact rest_afterRead hcount hfit
    · obtain ⟨tail, htail⟩ := hprefix
      show [r].flatMap (fun r => r.getD []) ++ s.inbox.drop (r.getD []).length = s.inbox
      rw [List.flatMap_singleton, ← htail, List.drop_left]
  | @testDriver port t n hpc =>
    by_cases hn : 0 < n
    · by_cases hup : s.driverState port = true
      · rw [if_pos ⟨hn, hup⟩]
        exact ⟨_, _, _, _, _, h.advance hpc ⟨s.raw, .writing port t n, []⟩ [] [] hn
          (fun _ _ => CallStep.rest_of_nil) rfl rfl rfl rfl⟩
      · -- to the call, the port is closed as if its `write()` failed
        rw [if_neg fun hcond => hup hcond.2]
        refine ⟨_, _, _, _, _, h.advance hpc ⟨s.raw, .returned, []⟩ [] [none] trivial
          (fun reads writes => ?_) rfl rfl rfl rfl⟩
        rw [CallStep.rest_of_nil]
        exact congrArg RawCall.ended (rest_write_none hn).symm
    · obtain rfl := Nat.eq_zero_of_not_pos hn
      rw [if_neg fun hcond => hn hcond.1]
      refine ⟨_, _, _, _, _, h.advance hpc ⟨s.raw, .returned, []⟩ [] [] trivial
          (fun reads writes => ?_) rfl rfl rfl rfl⟩
      rw [CallStep.rest_of_nil, List.nil_append, List.nil_append]
      cases writes <;> rfl
  | @writeFailed port t n hpc =>
    have hhere := h.underWay
    rw [hpc] at hhere
    refine ⟨_, _, _, _, _, h.advance hpc ⟨s.raw, .returned, []⟩ [] [none] trivial
      (fun reads writes => ?_) rfl rfl rfl rfl⟩
    rw [CallStep.rest_of_nil]
    exact congrArg RawCall.ended (rest_write_none hhere.1).symm
  | @write port t n k hpc hk =>
    have hhere := h.underWay
    rw [hpc] at hhere
    -- the write takes its bytes off the front of what is left to send
    let st : CallStep := ⟨s.raw, .testing port ((t + k) % 65536) (n - k),
      [.portWrite port ((s.raw.recvSocketBuf.drop t).take k)]⟩
    refine ⟨_, _, _, _, _, h.advance hpc st [] [some k] trivial
      (fun reads writes => ?_) rfl rfl rfl rfl⟩
    rw [CallStep.rest, ← RawCall.ended_after]
    exact congrArg RawCall.ended (rest_write_some hhere.1 hk).symm
  | ret hpc => exact ⟨_, _, _, _, _, h.ret hpc rfl rfl rfl rfl⟩
  | hostWrite bytes _ =>
    exact ⟨_, _, _, _, _, h.frame rfl rfl (by rw [hostWritten, List.flatMap_singleton])⟩
  | hostClose | driver | recvLeave | closeCall | clearDriver | recvJoined | closeHost | closeChip
  | join =>
    exact ⟨_, _, _, _, _, h.frame rfl rfl (List.append_nil _).symm⟩

/-- **The socket thread refines a sequence of calls.** In every interleaving of the thread with the host,
with threads that open and close ports and with `scomm_vendor_port_close`: what the thread has done is what
calls of `scomm_vendor_recv_rawdata` do one after the other, each with the results that its reads and
writes have returned, and the beginning of one more, whose rest goes on from where the thread is; and the
bytes they have read, followed by those left in the socket, are the bytes that the host has written. -/
theorem socket_thread_refines (run : SocketRun cfg raw driverState es os s) :
    ∃ calls before c os₁ os₂, Refines cfg raw es os s calls before c os₁ os₂ := by
  refine run.invariant (I := fun es os s => ∃ calls before c os₁ os₂,
    Refines cfg raw es os s calls before c os₁ os₂) ?_ ?_
  · exact ⟨[], raw, ⟨[], []⟩, [], [], .start, ⟨rfl, rfl, rfl⟩, rfl, rfl⟩
  · rintro es' os' u e o v - ⟨calls, before, c, os₁, os₂, h⟩ hstep
    exact h.step hstep

end Runs

/-- The host has written HCI_Reset, the thread has read its type, and `scomm_vendor_port_close` has begun. -/
theorem socket_thread_refines_reset : ∃ os s,
    SocketRun uartConfig RawState.init (fun _ => true)
      [.hostWrite hciResetCommand.bytes, .test, .epoll true, .read (some [0x01]), .closeCall] os s ∧
    ∃ calls before c os₁ os₂, Refines uartConfig RawState.init
      [.hostWrite hciResetCommand.bytes, .test, .epoll true, .read (some [0x01]), .closeCall] os s calls
        before c os₁ os₂ := by
  have h₁ : SocketRun uartConfig RawState.init (fun _ => true) [.hostWrite hciResetCommand.bytes] [] _ :=
    Execution.start.snoc (.hostWrite _ rfl)
  have h₂ := h₁.snoc (.test rfl)
  have h₃ := h₂.snoc (.epoll true rfl fun _ => ⟨rfl, .inl (by decide)⟩)
  have h₄ := h₃.snoc (@SocketStep.read _ _ _ 1 (some [0x01]) rfl rfl
    ⟨rfl, Nat.le_refl 1, by decide, fun hnil => absurd hnil (by decide)⟩)
  have h₅ := h₄.snoc (.closeCall rfl)
  exact ⟨_, _, h₅, socket_thread_refines h₅⟩

end Seekwave
