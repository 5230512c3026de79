import Seekwave.Lib.SocketPair
import Seekwave.Scomm.Uplink

/-!
# The close signal

`scomm_vendor_port_close` clears `thread_running` and writes a byte to `signal_fd[1]`; the receive
thread polls `signal_fd[1]`. What is written to one end of a socketpair arrives at the other, so the
byte waits at `signal_fd[0]`, which nobody polls: in no run of the two does the thread see the signal
(`close_signal_never_seen`). It leaves its loop by the test of `thread_running`, when a `poll()` ends
for another reason and what it has read has been handed on.
-/

namespace Seekwave

/-! ## The two threads -/

/-- Where the receive thread goes once it has handed on what it has: to another pass of the parse loop, to
the head of the outer loop with what is left in the buffer, or out of it. -/
inductive Onward
  | parse (st : Parse)
  | head (recv : RecvState)
  | exit

/-- Where the receive thread stands in `scomm_vendor_recv_scomm_thread`. -/
inductive LoopPc
  /-- at `while(scomm->thread_running)` -/
  | head
  | polling
  /-- behind the loop around `poll()` -/
  | polled
  | reading
  /-- at the head of the parse loop -/
  | parsing (st : Parse)
  | handing (work : List Delivery) (next : Onward)
  /-- in a call of `scomm_vendor_send_to_host` -/
  | sending (work : List Delivery) (next : Onward)
  | exited

/-- Where `scomm_vendor_port_close` stands. -/
inductive ClosePc
  | entered
  | stopping
  | waiting
  | signalling
  | closing
  | joining
  | returned
deriving DecidableEq, Repr

/-- `revents` of the port descriptor, by the tests made of it. -/
structure PortEvents where
  pollin : Bool
  errOrHup : Bool
deriving DecidableEq, Repr

/-- The fields of the port that the two share, and their places. `signalRevents` and `portRevents` are
`pfd[0].revents` and `pfd[1].revents`. -/
structure CloseLink where
  threadRunning : Bool
  driverState : Bool
  isBusying : Bool
  fdOpen : Bool
  recv : RecvState
  signalFd : SocketPair
  signalRevents : Bool
  portRevents : PortEvents
  loopPc : LoopPc
  closePc : ClosePc

/-- The port once its receive thread runs and nobody has begun to close it. -/
def CloseLink.init : CloseLink where
  threadRunning := true
  driverState := true
  isBusying := false
  fdOpen := true
  recv := .init
  signalFd := .empty
  signalRevents := false
  portRevents := ⟨false, false⟩
  loopPc := .head
  closePc := .entered

/-- The end the thread polls: `pfd[0].fd = scomm->signal_fd[1]`. -/
def pollEnd : SocketEnd := 1

/-- The end `scomm_vendor_port_close` writes to: `scomm->signal_fd[1]`. -/
def closeEnd : SocketEnd := 1

/-- The value of a `read()` of the port. -/
inductive PortRead
  | failed
  | zero
  | data (chunk : List UInt8)
deriving DecidableEq, Repr

/-- The scheduler's choices, with the results of the system calls. -/
inductive CloseEvent
  | test
  | pollInterrupted
  | poll (port : PortEvents)
  | handle
  | read (r : PortRead)
  /-- a pass of the parse loop -/
  | parse
  | hand
  /-- `scomm_vendor_send_to_host` waits for its lock or goes round its loop of writes -/
  | sendGoesOn
  | sent
  | onward
  | closeCall
  | clearDriver
  | notBusy
  | writeInterrupted
  | writeFailed
  | write
  | closeFd
  | join
deriving DecidableEq, Repr

/-- What the claims about a run look at. -/
inductive CloseObs
  /-- `port_close` has written its byte -/
  | closeByte
  /-- a `poll()` has returned, with `pfd[0]` readable or not -/
  | poll (signalReadable : Bool)
  /-- the thread breaks out of its loop on the exit signal -/
  | exitSignal
deriving DecidableEq, Repr

/-- The thread's way from the end of `poll()`: the exit signal, data, a hang-up, or around again. -/
def handlePoll (s : CloseLink) : CloseLink × List CloseObs :=
  if s.signalRevents = true ∧ s.threadRunning = false then
    ({ s with loopPc := .exited, isBusying := false }, [.exitSignal])
  else if s.portRevents.pollin = true then
    ({ s with loopPc := .reading, isBusying := false }, [])
  else if s.portRevents.errOrHup = true then
    ({ s with loopPc := .exited, isBusying := false, driverState := false, fdOpen := false }, [])
  else ({ s with loopPc := .head }, [])

/-- What a pass of the parse loop takes from the buffer. -/
def passWork (st : Parse) : List Delivery :=
  ((parseBody st).elim Parse.out Parse.out).drop st.out.length

/-- Where the thread goes behind a pass of the parse loop. -/
def passNext (st : Parse) : Onward :=
  match parseBody st with
  | .inl st' => .parse st'
  | .inr st' => .head ⟨st'.readBuffer, st'.lastLen, st'.lastLe⟩

/-- The thread begins to hand on the next thing of its work. -/
def handNext (d : Delivery) (work : List Delivery) (next : Onward) : LoopPc :=
  match d with
  | .scommVendorSendToHost _ _ => .sending work next
  | _ => .handing work next

/-- Where the thread goes with nothing left to hand on. -/
def goOnward (s : CloseLink) : Onward → CloseLink
  | .parse st => { s with loopPc := .parsing st }
  | .head recv => { s with loopPc := .head, recv := recv }
  | .exit => { s with loopPc := .exited, isBusying := false }

/-- One step of the receive thread of port `i` or of `scomm_vendor_port_close`. How a call of
`scomm_vendor_send_to_host` comes to its end is for `Scomm.HostLink` to say. -/
inductive CloseStep (i : Port) : CloseLink → CloseEvent → List CloseObs → CloseLink → Prop
  | test {s : CloseLink} (hpc : s.loopPc = .head) :
      CloseStep i s .test []
        (if s.threadRunning = true then { s with loopPc := .polling }
          else { s with loopPc := .exited, isBusying := false })
  -- an interrupted `poll()` leaves both `revents` as they were
  | pollInterrupted {s : CloseLink} (hpc : s.loopPc = .polling) :
      CloseStep i s .pollInterrupted []
        { s with loopPc := if s.threadRunning = true then .polling else .polled }
  | poll {s : CloseLink} (port : PortEvents) (hpc : s.loopPc = .polling) :
      CloseStep i s (.poll port) [.poll (s.signalFd.readable pollEnd)]
        { s with
          signalRevents := s.signalFd.readable pollEnd, portRevents := port, loopPc := .polled }
  | handle {s : CloseLink} (hpc : s.loopPc = .polled) :
      CloseStep i s .handle (handlePoll s).2 (handlePoll s).1
  | readFailed {s : CloseLink} (hpc : s.loopPc = .reading) :
      CloseStep i s (.read .failed) []
        { s with loopPc := .handing (errorWork i s.threadRunning) .exit, isBusying := true }
  | readZero {s : CloseLink} (hpc : s.loopPc = .reading) :
      CloseStep i s (.read .zero) []
        (if s.threadRunning = true then { s with loopPc := .head, isBusying := true }
          else { s with loopPc := .exited, isBusying := false })
  | read {s : CloseLink} {chunk : List UInt8} (hpc : s.loopPc = .reading) (hne : chunk ≠ [])
      (hfit : chunk.length ≤ readBufferSize - s.recv.lastLen) :
      CloseStep i s (.read (.data chunk)) []
        { s with loopPc := .parsing (s.recv.received chunk hfit), isBusying := true }
  -- from here to the head of the outer loop, nothing tests `thread_running` of the port
  | parse {s : CloseLink} {st : Parse} (hpc : s.loopPc = .parsing st) :
      CloseStep i s .parse [] { s with loopPc := .handing (passWork st) (passNext st) }
  | hand {s : CloseLink} {d : Delivery} {work : List Delivery} {next : Onward}
      (hpc : s.loopPc = .handing (d :: work) next) :
      CloseStep i s .hand [] { s with loopPc := handNext d work next }
  | sendGoesOn {s : CloseLink} {work : List Delivery} {next : Onward}
      (hpc : s.loopPc = .sending work next) :
      CloseStep i s .sendGoesOn [] s
  | sent {s : CloseLink} {work : List Delivery} {next : Onward}
      (hpc : s.loopPc = .sending work next) :
      CloseStep i s .sent [] { s with loopPc := .handing work next }
  | onward {s : CloseLink} {next : Onward} (hpc : s.loopPc = .handing [] next) :
      CloseStep i s .onward [] (goOnward s next)
  -- `fd` is never -1 here: the thread that closes it leaves its number in place
  | closeCall {s : CloseLink} (hpc : s.closePc = .entered) :
      CloseStep i s .closeCall [] { s with threadRunning := false, closePc := .stopping }
  | clearDriver {s : CloseLink} (hpc : s.closePc = .stopping) :
      CloseStep i s .clearDriver [] { s with driverState := false, closePc := .waiting }
  | notBusy {s : CloseLink} (hpc : s.closePc = .waiting) (hbusy : s.isBusying = false) :
      CloseStep i s .notBusy [] { s with closePc := .signalling }
  | writeInterrupted {s : CloseLink} (hpc : s.closePc = .signalling) :
      CloseStep i s .writeInterrupted [] s
  | writeFailed {s : CloseLink} (hpc : s.closePc = .signalling) :
      CloseStep i s .writeFailed [] { s with closePc := .closing }
  | write {s : CloseLink} (hpc : s.closePc = .signalling) :
      CloseStep i s .write [.closeByte]
        { s with signalFd := s.signalFd.write closeEnd [1], closePc := .closing }
  | closeFd {s : CloseLink} (hpc : s.closePc = .closing) :
      CloseStep i s .closeFd [] { s with fdOpen := false, closePc := .joining }
  | join {s : CloseLink} (hpc : s.closePc = .joining) (hexit : s.loopPc = .exited) :
      CloseStep i s .join [] { s with closePc := .returned }

/-- A run of the thread and `scomm_vendor_port_close`, with what was observed of it. -/
abbrev CloseRun (port : Port) (es : List CloseEvent) (tr : List CloseObs) (s : CloseLink) : Prop :=
  Execution (CloseStep port) .init es tr s

/-! ## What the thread sees -/

/-- The end polled has nothing to read, nor has a `poll()` said so. -/
structure Unsignalled (s : CloseLink) : Prop where
  inbox : s.signalFd.readable pollEnd = false
  revents : s.signalRevents = false

theorem unsignalled_init : Unsignalled .init := ⟨SocketPair.readable_empty _, rfl⟩

/-- Without a signal the end of `poll()` leads anywhere but to the exit branch. -/
theorem handlePoll_unsignalled {s : CloseLink} (h : Unsignalled s) :
    (handlePoll s).2 = [] ∧ Unsignalled (handlePoll s).1 := by
  have hsignal : ¬ (s.signalRevents = true ∧ s.threadRunning = false) := by
    rw [h.revents]
    simp
  rw [handlePoll, if_neg hsignal]
  split
  · exact ⟨rfl, h.inbox, h.revents⟩
  · split
    · exact ⟨rfl, h.inbox, h.revents⟩
    · exact ⟨rfl, h.inbox, h.revents⟩

theorem goOnward_unsignalled {s : CloseLink} (h : Unsignalled s) (next : Onward) :
    Unsignalled (goOnward s next) := by
  cases next with
  | parse | head | exit => exact ⟨h.inbox, h.revents⟩

variable {port : Port}

/-- **Step lemma.** No step makes the polled end readable: the close byte goes to its peer. -/
theorem CloseStep.unsignalled {s t : CloseLink} {e : CloseEvent} {os : List CloseObs}
    (hstep : CloseStep port s e os t) (h : Unsignalled s) :
    Unsignalled t ∧ .exitSignal ∉ os ∧ .poll true ∉ os := by
  cases hstep with
  | test hpc =>
    refine ⟨?_, List.not_mem_nil, List.not_mem_nil⟩
    split
    · exact ⟨h.inbox, h.revents⟩
    · exact ⟨h.inbox, h.revents⟩
  | poll port hpc =>
    rw [h.inbox]
    exact ⟨⟨h.inbox, rfl⟩, by simp, by simp⟩
  | handle hpc =>
    obtain ⟨hobs, hnext⟩ := handlePoll_unsignalled h
    rw [hobs]
    exact ⟨hnext, List.not_mem_nil, List.not_mem_nil⟩
  | readZero hpc =>
    refine ⟨?_, List.not_mem_nil, List.not_mem_nil⟩
    split
    · exact ⟨h.inbox, h.revents⟩
    · exact ⟨h.inbox, h.revents⟩
  | onward hpc => exact ⟨goOnward_unsignalled h _, List.not_mem_nil, List.not_mem_nil⟩
  | write hpc =>
    -- the byte goes to the peer of the end that the thread polls
    refine ⟨⟨?_, h.revents⟩, by simp, by simp⟩
    show (s.signalFd.write pollEnd [1]).readable pollEnd = false
    rw [SocketPair.readable_write_self]
    exact h.inbox
  | pollInterrupted | readFailed | read | parse | hand | sendGoesOn | sent | closeCall | clearDriver
  | notBusy | writeInterrupted | writeFailed | closeFd | join =>
    exact ⟨⟨h.inbox, h.revents⟩, List.not_mem_nil, List.not_mem_nil⟩

/-- **Run lemma.** In no run does a `poll()` report the signal or the thread leave on it. -/
theorem CloseRun.unsignalled {es : List CloseEvent} {tr : List CloseObs} {s : CloseLink}
    (run : CloseRun port es tr s) : Unsignalled s ∧ .exitSignal ∉ tr ∧ .poll true ∉ tr := by
  refine run.invariant (I := fun _ tr s => Unsignalled s ∧ .exitSignal ∉ tr ∧ .poll true ∉ tr)
    ⟨unsignalled_init, List.not_mem_nil, List.not_mem_nil⟩ ?_
  rintro _ tr t e os u - ⟨ht, hexit, hpoll⟩ hstep
  obtain ⟨hu, hexit', hpoll'⟩ := hstep.unsignalled ht
  exact ⟨hu, by simp [hexit, hexit'], by simp [hpoll, hpoll']⟩

/-- The signal works in what was observed of a run: the next `poll()` behind the close byte reports
`pfd[0]` readable, and the thread then leaves its loop on the signal. -/
def WakesThread (tr : List CloseObs) : Prop :=
  ∀ as b cs, tr = as ++ .closeByte :: .poll b :: cs → b = true

/-- **The close signal is never seen.** In every run in which the thread polls again once the close byte
is written, that `poll()` does not report the signal, and the thread never leaves its loop on it. -/
theorem close_signal_never_seen {es : List CloseEvent} {tr : List CloseObs} {s : CloseLink}
    (run : CloseRun port es tr s) (hnext : ∃ as b cs, tr = as ++ .closeByte :: .poll b :: cs) :
    ¬ WakesThread tr ∧ .exitSignal ∉ tr := by
  obtain ⟨-, hexit, hpoll⟩ := run.unsignalled
  refine ⟨fun hwakes => ?_, hexit⟩
  obtain ⟨as, b, cs, htr⟩ := hnext
  obtain rfl := hwakes as b cs htr
  exact hpoll (by rw [htr]; simp)

/-- The thread waits in `poll()` while the port is closed, and `poll()` times out. -/
def timeoutEvents : List CloseEvent :=
  [.test, .closeCall, .clearDriver, .notBusy, .write, .poll ⟨false, false⟩]

theorem closeRun_timeoutEvents (port : Port) :
    ∃ s, CloseRun port timeoutEvents [.closeByte, .poll false] s := by
  have h₁ : CloseRun port [.test] [] _ := Execution.start.snoc (.test rfl)
  have h₂ := h₁.snoc (.closeCall rfl)
  have h₃ := h₂.snoc (.clearDriver rfl)
  have h₄ := h₃.snoc (.notBusy rfl rfl)
  have h₅ := h₄.snoc (.write rfl)
  exact ⟨_, h₅.snoc (.poll ⟨false, false⟩ rfl)⟩

theorem close_signal_never_seen_timeout :
    ¬ WakesThread [.closeByte, .poll false] ∧ .exitSignal ∉ [CloseObs.closeByte, .poll false] := by
  obtain ⟨s, run⟩ := closeRun_timeoutEvents 0
  exact close_signal_never_seen run ⟨[], false, [], rfl⟩

/-- The byte has been written and the thread polls on: `pfd[0]` is not readable. -/
theorem close_signal_lost :
    ∃ s, CloseRun 0 timeoutEvents [.closeByte, .poll false] s ∧
      ¬ WakesThread [.closeByte, .poll false] := by
  obtain ⟨s, run⟩ := closeRun_timeoutEvents 0
  refine ⟨s, run, fun hwakes => ?_⟩
  exact absurd (hwakes [] false [] rfl) (by decide)

end Seekwave
