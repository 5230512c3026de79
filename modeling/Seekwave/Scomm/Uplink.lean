import Seekwave.Scomm.Chunking
import Seekwave.Scomm.HostLink

/-!
# From the controller's ports to the host and the logs

The receive threads of all ports together: each reads from its port and hands on what the parse loop
takes from the buffer, to the controller log, to the btsnoop capture and, under `write2host_lock`, to the
host. `RecvStep` and `HostStep` are the two halves of a thread; here they run in one system, in any
interleaving, and a `read()` of port 0 that fails puts a hardware error event behind everything else.

A run of this system is a run of `HostStep` (`Handled.host`) whose queues are what the threads were given
to deliver, so that its invariant applies. `uplink_framed` puts it together with the reassembly of each
port, and `uplink_complete` reads off what a run leaves that has nothing more to do.
-/

open Memory

namespace Seekwave

/-! ## The system -/

def hciHardwareErrorEvent : UInt8 := 0x10
def hwerrCodeCpError : UInt8 := 0x10

/-- What `scomm_vendor_send_hw_error` sends to the host. -/
def hwErrorPacket : List UInt8 := [hciEventPkt, hciHardwareErrorEvent, 0x01, hwerrCodeCpError]

/-- The receive threads. `threadRunning` is that of port 0. -/
structure Uplink where
  threadRunning : Bool
  write2hostLock : Option Port
  pc : Port → Pc
  recv : Port → RecvState
  /-- what the parse loop is yet to do with the bytes of the last read -/
  work : Port → List Delivery
  /-- the thread has left its loop -/
  left : Port → Bool

/-- What is handed on of a packet that goes to the host. -/
def Delivery.host? : Delivery → Option (List UInt8)
  | .scommVendorSendToHost _ buffer => some buffer
  | _ => none

/-- What is handed on of a packet that goes to the controller log. -/
def Delivery.log? : Delivery → Option (List UInt8)
  | .skwlogWrite buffer => some buffer
  | _ => none

/-- What is handed on to the btsnoop capture. -/
def Delivery.snoop? : Delivery → Option (Option SnoopRecord)
  | .skwBtsnoopCapture record => some record
  | _ => none

def toHost (ds : List Delivery) : List (List UInt8) := ds.filterMap Delivery.host?

def toLog (ds : List Delivery) : List (List UInt8) := ds.filterMap Delivery.log?

def toSnoop (ds : List Delivery) : List (Option SnoopRecord) := ds.filterMap Delivery.snoop?

namespace Uplink

/-- All ports are open and nothing has been read. -/
def init : Uplink where
  threadRunning := true
  write2hostLock := none
  pc _ := .idle
  recv _ := .init
  work _ := []
  left _ := false

/-- The threads as `scomm_vendor_send_to_host` sees them. -/
def hostLink (s : Uplink) : HostLink where
  threadRunning := s.threadRunning
  write2hostLock := s.write2hostLock
  queue i := toHost (s.work i)
  pc := s.pc

/-- A step inside `scomm_vendor_send_to_host`. -/
def withHost (s : Uplink) (h : HostLink) : Uplink :=
  { s with threadRunning := h.threadRunning, write2hostLock := h.write2hostLock, pc := h.pc }

/-- Thread `i` has `ds` to hand on. -/
def give (s : Uplink) (i : Port) (ds : List Delivery) : Uplink :=
  { s with work := Function.update s.work i ds }

@[simp] theorem give_work_self (s : Uplink) (i : Port) (ds : List Delivery) :
    (s.give i ds).work i = ds := Function.update_self ..

@[simp] theorem give_work_of_ne (s : Uplink) (i : Port) (ds : List Delivery) {j : Port} (h : j ≠ i) :
    (s.give i ds).work j = s.work j := Function.update_of_ne h ..

end Uplink

/-- What a thread does once a `read()` has failed: port 0 tells the host. -/
def errorWork (i : Port) (threadRunning : Bool) : List Delivery :=
  if threadRunning = true ∧ i = 0 then [.scommVendorSendToHost 0 hwErrorPacket] else []

/-- The scheduler's choices, with the results of the system calls. -/
inductive UplinkEvent
  | read (i : Port) (chunk : List UInt8)
  | readFailed (i : Port)
  /-- a hang-up of the port, or the test of its own `thread_running` -/
  | leave (i : Port)
  | deliver (i : Port)
  | host (e : HostEvent)

/-- What comes out: bytes on the host's socket, and what the two logs are given. -/
inductive UplinkOut
  | wire (byte : UInt8)
  | skwlogWrite (i : Port) (buffer : List UInt8)
  | skwBtsnoopCapture (i : Port) (record : Option SnoopRecord)

/-- One step of one thread. A thread reads again when it has handed on everything. A read behind which the
parse loop does not end has no step (`Scomm.CloseProgress` follows such a loop pass by pass). -/
inductive UplinkStep : Uplink → UplinkEvent → List UplinkOut → Uplink → Prop
  | read {s : Uplink} {i : Port} {chunk : List UInt8} {ds : List Delivery} {r : RecvState}
      (hleft : s.left i = false) (hpc : s.pc i = .idle) (hwork : s.work i = [])
      (h : RecvStep (s.recv i) chunk ds r) :
      UplinkStep s (.read i chunk) []
        ({ s with recv := Function.update s.recv i r }.give i ds)
  | readFailed {s : Uplink} {i : Port}
      (hleft : s.left i = false) (hpc : s.pc i = .idle) (hwork : s.work i = []) :
      UplinkStep s (.readFailed i) []
        ({ s with left := Function.update s.left i true }.give i (errorWork i s.threadRunning))
  | leave {s : Uplink} {i : Port}
      (hleft : s.left i = false) (hpc : s.pc i = .idle) (hwork : s.work i = []) :
      UplinkStep s (.leave i) [] { s with left := Function.update s.left i true }
  | skwlogWrite {s : Uplink} {i : Port} {buffer : List UInt8} {ds : List Delivery}
      (hpc : s.pc i = .idle) (hwork : s.work i = .skwlogWrite buffer :: ds) :
      UplinkStep s (.deliver i) [.skwlogWrite i buffer] (s.give i ds)
  | skwBtsnoopCapture {s : Uplink} {i : Port} {record : Option SnoopRecord} {ds : List Delivery}
      (hpc : s.pc i = .idle) (hwork : s.work i = .skwBtsnoopCapture record :: ds) :
      UplinkStep s (.deliver i) [.skwBtsnoopCapture i record] (s.give i ds)
  | discard {s : Uplink} {i : Port} {buffer : List UInt8} {ds : List Delivery}
      (hpc : s.pc i = .idle) (hwork : s.work i = .discard buffer :: ds) :
      UplinkStep s (.deliver i) [] (s.give i ds)
  | call {s : Uplink} {i : Port} {portIndex : ℕ} {buffer : List UInt8} {ds : List Delivery}
      (hpc : s.pc i = .idle) (hwork : s.work i = .scommVendorSendToHost portIndex buffer :: ds) :
      UplinkStep s (.host (.call i)) []
        ({ s with pc := Function.update s.pc i (.locking buffer) }.give i ds)
  -- the rest of `scomm_vendor_send_to_host`, and the moment port 0 is told to stop
  | host {s : Uplink} {e : HostEvent} {o : List UInt8} {h : HostLink} (he : ∀ i, e ≠ .call i)
      (hstep : HostStep s.hostLink e o h) :
      UplinkStep s (.host e) (o.map .wire) (s.withHost h)

/-- The runs of the receive threads. -/
abbrev UplinkRun (es : List UplinkEvent) (os : List UplinkOut) (s : Uplink) : Prop :=
  Execution UplinkStep .init es os s

/-! ## What is seen of a run -/

def UplinkEvent.host? : UplinkEvent → Option HostEvent
  | .host e => some e
  | _ => none

/-- The results of the reads of port `i`. -/
def UplinkEvent.chunk? (i : Port) : UplinkEvent → Option (List UInt8)
  | .read j chunk => if j = i then some chunk else none
  | _ => none

def UplinkOut.wire? : UplinkOut → Option UInt8
  | .wire byte => some byte
  | _ => none

def UplinkOut.log? (i : Port) : UplinkOut → Option (List UInt8)
  | .skwlogWrite j buffer => if j = i then some buffer else none
  | _ => none

def UplinkOut.snoop? (i : Port) : UplinkOut → Option (Option SnoopRecord)
  | .skwBtsnoopCapture j record => if j = i then some record else none
  | _ => none

/-- The steps of `scomm_vendor_send_to_host`. -/
def hostEvents (es : List UplinkEvent) : List HostEvent := es.filterMap UplinkEvent.host?

/-- What port `i` has read. -/
def chunksOf (i : Port) (es : List UplinkEvent) : List (List UInt8) :=
  es.filterMap (UplinkEvent.chunk? i)

/-- The bytes on the host's socket. -/
def wireOf (os : List UplinkOut) : List UInt8 := os.filterMap UplinkOut.wire?

/-- What port `i` has given the controller log. -/
def loggedBy (i : Port) (os : List UplinkOut) : List (List UInt8) := os.filterMap (UplinkOut.log? i)

/-- What port `i` has given the btsnoop capture. -/
def capturedBy (i : Port) (os : List UplinkOut) : List (Option SnoopRecord) :=
  os.filterMap (UplinkOut.snoop? i)

theorem filterMap_snoc {α β : Type*} (f : α → Option β) (as : List α) (a : α) :
    (as ++ [a]).filterMap f = as.filterMap f ++ (f a).toList := by
  rw [List.filterMap_append, List.filterMap_cons]
  cases f a <;> rfl

section Seen

variable (e : UplinkEvent) (es : List UplinkEvent) (os ps : List UplinkOut) (i : Port)

theorem hostEvents_snoc : hostEvents (es ++ [e]) = hostEvents es ++ e.host?.toList :=
  filterMap_snoc ..

theorem chunksOf_snoc : chunksOf i (es ++ [e]) = chunksOf i es ++ (e.chunk? i).toList :=
  filterMap_snoc ..

theorem wireOf_append : wireOf (os ++ ps) = wireOf os ++ wireOf ps := List.filterMap_append

theorem loggedBy_append : loggedBy i (os ++ ps) = loggedBy i os ++ loggedBy i ps :=
  List.filterMap_append

theorem capturedBy_append : capturedBy i (os ++ ps) = capturedBy i os ++ capturedBy i ps :=
  List.filterMap_append

/-- A step inside `scomm_vendor_send_to_host` puts its bytes on the wire and does nothing else. -/
theorem wireOf_map_wire (o : List UInt8) : wireOf (o.map .wire) = o := by
  rw [wireOf, List.filterMap_map]
  exact List.filterMap_some

theorem loggedBy_map_wire (o : List UInt8) : loggedBy i (o.map .wire) = [] := by
  rw [loggedBy, List.filterMap_map]
  exact List.filterMap_eq_nil_iff.mpr fun _ _ => rfl

theorem capturedBy_map_wire (o : List UInt8) : capturedBy i (o.map .wire) = [] := by
  rw [capturedBy, List.filterMap_map]
  exact List.filterMap_eq_nil_iff.mpr fun _ _ => rfl

end Seen

/-! ## A run of the host link -/

/-- The threads with more packets behind those they have to deliver. -/
def HostLink.enqueue (s : HostLink) (q : Port → List (List UInt8)) : HostLink :=
  { s with queue := fun i => s.queue i ++ q i }

/-- No step looks at the end of a queue. -/
theorem HostStep.enqueue {s t : HostLink} {e : HostEvent} {o : List UInt8} (h : HostStep s e o t)
    (q : Port → List (List UInt8)) : HostStep (s.enqueue q) e o (t.enqueue q) := by
  cases h with
  | clearRunning => exact .clearRunning
  | @call i p ps hpc hq =>
    have hnext : ({ s with queue := Function.update s.queue i ps }.goto i (.locking p)).enqueue q =
        { s.enqueue q with queue := Function.update (s.enqueue q).queue i (ps ++ q i) }.goto i
          (.locking p) := by
      have hqueue : (fun j => Function.update s.queue i ps j ++ q j) =
          Function.update (s.enqueue q).queue i (ps ++ q i) := by
        funext j
        by_cases hj : j = i
        · subst hj
          rw [Function.update_self, Function.update_self]
        · rw [Function.update_of_ne hj, Function.update_of_ne hj]
          rfl
      exact congrArg (fun queue => HostLink.mk _ _ queue _) hqueue
    rw [hnext]
    exact .call hpc (show s.queue i ++ q i = p :: (ps ++ q i) by rw [hq, List.cons_append])
  | lock hpc hfree => exact .lock hpc hfree
  | test hpc => exact .test hpc
  | interrupted hpc => exact .interrupted hpc
  | error hpc => exact .error hpc
  | wrote hpc hk => exact .wrote hpc hk
  | unlock hpc => exact .unlock hpc

/-- A run goes the same way with more packets in the queues. -/
theorem HostRun.enqueue {queue : Port → List (List UInt8)} {es : List HostEvent} {wire : List UInt8}
    {s : HostLink} (run : HostRun queue es wire s) (q : Port → List (List UInt8)) :
    HostRun (fun i => queue i ++ q i) es wire (s.enqueue q) := by
  induction run with
  | start => exact .start
  | snoc _ hstep ih => exact ih.snoc (hstep.enqueue q)

/-- Only a call takes a packet off a queue. -/
theorem HostStep.queue_eq {s t : HostLink} {e : HostEvent} {o : List UInt8} (h : HostStep s e o t)
    (he : ∀ i, e ≠ .call i) : t.queue = s.queue := by
  cases h with
  | call => exact absurd rfl (he _)
  | _ => rfl

/-- `ds` for port `i`, nothing for the others. -/
def workFor (i : Port) (ds : List Delivery) : Port → List Delivery := Function.update (fun _ => []) i ds

/-- A thread without work that is given some has that behind what it had. -/
theorem work_give {s : Uplink} {i : Port} (hwork : s.work i = []) (ds : List Delivery) (j : Port) :
    (s.give i ds).work j = s.work j ++ workFor i ds j := by
  by_cases hj : j = i
  · subst hj
    rw [hwork, workFor, Function.update_self, Uplink.give_work_self, List.nil_append]
  · rw [workFor, Function.update_of_ne hj, List.append_nil, Uplink.give_work_of_ne _ _ _ hj]

/-- A thread that takes the first thing off its work, seen through any of the projections. -/
theorem filterMap_work_cons {β : Type*} (f : Delivery → Option β) {s : Uplink} {i : Port}
    {d : Delivery} {ds : List Delivery} (hwork : s.work i = d :: ds) (j : Port) :
    (s.work j).filterMap f =
      (if j = i then (f d).toList else []) ++ ((s.give i ds).work j).filterMap f := by
  by_cases hj : j = i
  · subst hj
    rw [if_pos rfl, hwork, Uplink.give_work_self, List.filterMap_cons]
    cases f d <;> rfl
  · rw [if_neg hj, Uplink.give_work_of_ne _ _ _ hj, List.nil_append]

/-- Of the work that the threads have been given, `hist`, what is not handed on is left. -/
structure Handled (es : List UplinkEvent) (os : List UplinkOut) (s : Uplink)
    (hist : Port → List Delivery) : Prop where
  host : HostRun (fun i => toHost (hist i)) (hostEvents es) (wireOf os) s.hostLink
  log : ∀ i, loggedBy i os ++ toLog (s.work i) = toLog (hist i)
  snoop : ∀ i, capturedBy i os ++ toSnoop (s.work i) = toSnoop (hist i)

namespace Handled

variable {es : List UplinkEvent} {os : List UplinkOut} {s t : Uplink} {hist : Port → List Delivery}
  {i : Port}

/-- A thread that has handed on everything is given more. -/
theorem given (h : Handled es os s hist) {e : UplinkEvent} (he : e.host? = none)
    (hwork : s.work i = []) (ds : List Delivery) (hlink : t.hostLink = (s.give i ds).hostLink)
    (ht : t.work = (s.give i ds).work) :
    Handled (es ++ [e]) (os ++ []) t fun j => hist j ++ workFor i ds j where
  host := by
    have hqueue : (s.give i ds).hostLink = s.hostLink.enqueue fun j => toHost (workFor i ds j) := by
      have hq : (fun j => toHost ((s.give i ds).work j)) =
          fun j => toHost (s.work j) ++ toHost (workFor i ds j) := by
        funext j
        rw [work_give hwork, toHost, List.filterMap_append]
        rfl
      exact congrArg (fun queue => HostLink.mk _ _ queue _) hq
    have happend : (fun j => toHost (hist j ++ workFor i ds j)) =
        fun j => toHost (hist j) ++ toHost (workFor i ds j) := funext fun j => List.filterMap_append
    rw [hostEvents_snoc, he, List.append_nil, Option.toList_none, List.append_nil, hlink, hqueue,
      happend]
    exact h.host.enqueue _
  log j := by
    rw [List.append_nil, ht, work_give hwork, toLog, List.filterMap_append, ← List.append_assoc]
    rw [toLog, List.filterMap_append]
    exact congrArg (· ++ _) (h.log j)
  snoop j := by
    rw [List.append_nil, ht, work_give hwork, toSnoop, List.filterMap_append, ← List.append_assoc]
    rw [toSnoop, List.filterMap_append]
    exact congrArg (· ++ _) (h.snoop j)

/-- A thread hands something on that does not go to the host. -/
theorem handed (h : Handled es os s hist) {d : Delivery} {ds : List Delivery} {o : List UplinkOut}
    (hwork : s.work i = d :: ds) (hhost : d.host? = none) (hwire : wireOf o = [])
    (hlog : ∀ j, loggedBy j o = if j = i then d.log?.toList else [])
    (hsnoop : ∀ j, capturedBy j o = if j = i then d.snoop?.toList else []) :
    Handled (es ++ [.deliver i]) (os ++ o) (s.give i ds) hist where
  host := by
    have hlink : (s.give i ds).hostLink = s.hostLink := by
      have hq : (fun j => toHost ((s.give i ds).work j)) = fun j => toHost (s.work j) := by
        funext j
        have hcons := filterMap_work_cons Delivery.host? hwork j
        rw [hhost, Option.toList_none, ite_self, List.nil_append] at hcons
        exact hcons.symm
      exact congrArg (fun queue => HostLink.mk _ _ queue _) hq
    rw [hostEvents_snoc, wireOf_append, hwire, List.append_nil, hlink]
    exact (List.append_nil (hostEvents es)).symm ▸ h.host
  log j := by
    rw [loggedBy_append, hlog, ← h.log j, List.append_assoc]
    exact congrArg (loggedBy j os ++ ·) (filterMap_work_cons Delivery.log? hwork j).symm
  snoop j := by
    rw [capturedBy_append, hsnoop, ← h.snoop j, List.append_assoc]
    exact congrArg (capturedBy j os ++ ·) (filterMap_work_cons Delivery.snoop? hwork j).symm

/-- A thread enters `scomm_vendor_send_to_host`. -/
theorem called (h : Handled es os s hist) {portIndex : ℕ} {buffer : List UInt8} {ds : List Delivery}
    (hpc : s.pc i = .idle) (hwork : s.work i = .scommVendorSendToHost portIndex buffer :: ds) :
    Handled (es ++ [.host (.call i)]) (os ++ [])
      ({ s with pc := Function.update s.pc i (.locking buffer) }.give i ds) hist where
  host := by
    have hcons := filterMap_work_cons Delivery.host? hwork
    have hqueue : toHost (s.work i) = buffer :: toHost ds := by
      simpa [toHost, Delivery.host?] using hcons i
    have hq : Function.update s.hostLink.queue i (toHost ds) =
        fun j => toHost ((s.give i ds).work j) := by
      funext j
      by_cases hj : j = i
      · subst hj
        rw [Function.update_self, Uplink.give_work_self]
      · rw [Function.update_of_ne hj, Uplink.give_work_of_ne _ _ _ hj]
        rfl
    have hstep := @HostStep.call s.hostLink i buffer (toHost ds) hpc hqueue
    rw [hq] at hstep
    rw [hostEvents_snoc, List.append_nil, ← List.append_nil (wireOf os)]
    exact h.host.snoc hstep
  log j := by
    have hcons := filterMap_work_cons Delivery.log? hwork j
    simp only [Delivery.log?, Option.toList_none, ite_self, List.nil_append] at hcons
    rw [List.append_nil, ← h.log j]
    exact congrArg (loggedBy j os ++ ·) hcons.symm
  snoop j := by
    have hcons := filterMap_work_cons Delivery.snoop? hwork j
    simp only [Delivery.snoop?, Option.toList_none, ite_self, List.nil_append] at hcons
    rw [List.append_nil, ← h.snoop j]
    exact congrArg (capturedBy j os ++ ·) hcons.symm

/-- A step inside `scomm_vendor_send_to_host`. -/
theorem hosted (h : Handled es os s hist) {e : HostEvent} {o : List UInt8} {link : HostLink}
    (he : ∀ i, e ≠ .call i) (hstep : HostStep s.hostLink e o link) :
    Handled (es ++ [.host e]) (os ++ o.map .wire) (s.withHost link) hist where
  host := by
    have hlink : (s.withHost link).hostLink = link := by
      have hq : link.queue = fun i => toHost (s.work i) := hstep.queue_eq he
      show HostLink.mk _ _ (fun i => toHost (s.work i)) _ = link
      rw [← hq]
      rfl
    rw [hostEvents_snoc, wireOf_append, wireOf_map_wire, hlink]
    exact h.host.snoc hstep
  log j := by
    rw [loggedBy_append, loggedBy_map_wire, List.append_nil]
    exact h.log j
  snoop j := by
    rw [capturedBy_append, capturedBy_map_wire, List.append_nil]
    exact h.snoop j

end Handled

/-! ## What the threads are given -/

/-- What thread `i` was given are the deliveries of its reads and, for port 0, the error event of one that
has failed. -/
def Fed (es : List UplinkEvent) (s : Uplink) (i : Port) (ds : List Delivery) : Prop :=
  ∃ tr err, ds = tr ++ err ∧ RecvRun (chunksOf i es) tr (s.recv i) ∧ (s.left i = false → err = []) ∧
    (err = [] ∨ i = 0 ∧ .readFailed 0 ∈ es ∧ err = [.scommVendorSendToHost 0 hwErrorPacket])

section Fed

variable {es : List UplinkEvent} {s t : Uplink} {i : Port} {ds : List Delivery}

/-- A step that is not one of the thread's reads. -/
theorem Fed.frame (h : Fed es s i ds) {e : UplinkEvent} (hchunk : e.chunk? i = none)
    (hrecv : t.recv i = s.recv i) (hleft : t.left i = false → s.left i = false) :
    Fed (es ++ [e]) t i ds := by
  obtain ⟨tr, err, hds, hrun, hopen, herr⟩ := h
  refine ⟨tr, err, hds, ?_, fun ht => hopen (hleft ht), ?_⟩
  · rw [chunksOf_snoc, hchunk, Option.toList_none, List.append_nil, hrecv]
    exact hrun
  · exact herr.imp_right fun h => ⟨h.1, List.mem_append_left _ h.2.1, h.2.2⟩

/-- A read. -/
theorem Fed.read (h : Fed es s i ds) (hleft : s.left i = false) {chunk : List UInt8}
    {o : List Delivery} {r : RecvState} (hstep : RecvStep (s.recv i) chunk o r)
    (hrecv : t.recv i = r) : Fed (es ++ [.read i chunk]) t i (ds ++ o) := by
  obtain ⟨tr, err, rfl, hrun, hopen, -⟩ := h
  obtain rfl := hopen hleft
  refine ⟨tr ++ o, [], by simp, ?_, fun _ => rfl, .inl rfl⟩
  have hchunk : UplinkEvent.chunk? i (.read i chunk) = some chunk := if_pos rfl
  rw [chunksOf_snoc, hchunk, hrecv]
  exact hrun.snoc hstep

/-- A read that fails. -/
theorem Fed.failed (h : Fed es s i ds) (hleft : s.left i = false) (hrecv : t.recv i = s.recv i)
    (hgone : t.left i = true) (running : Bool) :
    Fed (es ++ [.readFailed i]) t i (ds ++ errorWork i running) := by
  obtain ⟨tr, err, rfl, hrun, hopen, -⟩ := h
  obtain rfl := hopen hleft
  refine ⟨tr, errorWork i running, by simp, ?_, fun ht => Bool.noConfusion (hgone.symm.trans ht), ?_⟩
  · rw [chunksOf_snoc]
    show RecvRun (chunksOf i es ++ []) tr (t.recv i)
    rw [List.append_nil, hrecv]
    exact hrun
  · rw [errorWork]
    split
    · next hport =>
      obtain ⟨-, rfl⟩ := hport
      exact .inr ⟨rfl, by simp, rfl⟩
    · exact .inl rfl

end Fed

/-- **Step lemma.** -/
theorem UplinkStep.fed {es : List UplinkEvent} {os o : List UplinkOut} {s t : Uplink} {e : UplinkEvent}
    (hstep : UplinkStep s e o t) {hist : Port → List Delivery} (h : Handled es os s hist)
    (hfed : ∀ i, Fed es s i (hist i)) :
    ∃ hist', Handled (es ++ [e]) (os ++ o) t hist' ∧ ∀ i, Fed (es ++ [e]) t i (hist' i) := by
  cases hstep with
  | @read i chunk ds r hleft hpc hwork hread =>
    -- the read is this port's own: the history of the others stays
    refine ⟨_, h.given rfl hwork ds rfl rfl, fun j => ?_⟩
    by_cases hj : j = i
    · subst hj
      rw [workFor, Function.update_self]
      exact (hfed j).read hleft hread (Function.update_self ..)
    · rw [workFor, Function.update_of_ne hj, List.append_nil]
      exact (hfed j).frame (if_neg (Ne.symm hj)) (Function.update_of_ne hj ..) id
  | @readFailed i hleft hpc hwork =>
    refine ⟨_, h.given rfl hwork (errorWork i s.threadRunning) rfl rfl, fun j => ?_⟩
    by_cases hj : j = i
    · subst hj
      rw [workFor, Function.update_self]
      refine (hfed j).failed hleft ?_ ?_ s.threadRunning
      · rfl
      · exact Function.update_self ..
    · rw [workFor, Function.update_of_ne hj, List.append_nil]
      exact (hfed j).frame rfl rfl fun ht => (Function.update_of_ne hj ..).symm.trans ht
  | @leave i hleft hpc hwork =>
    have hsame : s.give i [] = s := by
      rw [Uplink.give, Function.update_eq_self_iff.mpr hwork.symm]
    refine ⟨_, h.given rfl hwork [] (by rw [hsame]; rfl) (by rw [hsame]), fun j => ?_⟩
    · have hnil : workFor i [] j = [] := by
        by_cases hj : j = i
        · subst hj
          exact Function.update_self ..
        · exact Function.update_of_ne hj ..
      rw [hnil, List.append_nil]
      refine (hfed j).frame rfl rfl fun ht => ?_
      by_cases hj : j = i
      · subst hj
        exact hleft
      · exact (Function.update_of_ne hj ..).symm.trans ht
  | @skwlogWrite i buffer ds hpc hwork =>
    -- what is handed on was counted when it was read; only the logs grow
    refine ⟨hist, h.handed hwork rfl rfl (fun j => ?_) (fun j => ?_), fun j =>
      (hfed j).frame rfl rfl id⟩
    · by_cases hj : j = i
      · simp [loggedBy, UplinkOut.log?, Delivery.log?, hj]
      · simp [loggedBy, UplinkOut.log?, hj, Ne.symm hj]
    · simp [capturedBy, UplinkOut.snoop?, Delivery.snoop?]
  | @skwBtsnoopCapture i record ds hpc hwork =>
    refine ⟨hist, h.handed hwork rfl rfl (fun j => ?_) (fun j => ?_), fun j =>
      (hfed j).frame rfl rfl id⟩
    · simp [loggedBy, UplinkOut.log?, Delivery.log?]
    · by_cases hj : j = i
      · simp [capturedBy, UplinkOut.snoop?, Delivery.snoop?, hj]
      · simp [capturedBy, UplinkOut.snoop?, hj, Ne.symm hj]
  | @discard i buffer ds hpc hwork =>
    refine ⟨hist, h.handed hwork rfl rfl (fun j => ?_) (fun j => ?_), fun j =>
      (hfed j).frame rfl rfl id⟩
    · simp [loggedBy, Delivery.log?]
    · simp [capturedBy, Delivery.snoop?]
  | call hpc hwork => exact ⟨hist, h.called hpc hwork, fun j => (hfed j).frame rfl rfl id⟩
  | host he hhost => exact ⟨hist, h.hosted he hhost, fun j => (hfed j).frame rfl rfl id⟩

/-- **Run lemma.** -/
theorem UplinkRun.fed {es : List UplinkEvent} {os : List UplinkOut} {s : Uplink}
    (run : UplinkRun es os s) :
    ∃ hist, Handled es os s hist ∧ ∀ i, Fed es s i (hist i) := by
  refine run.invariant (I := fun es os s => ∃ hist, Handled es os s hist ∧ ∀ i, Fed es s i (hist i))
    ⟨fun _ => [], ⟨.start, fun _ => rfl, fun _ => rfl⟩, fun i => ⟨[], [], rfl, .start, fun _ => rfl, .inl rfl⟩⟩
    ?_
  rintro es os t e o u - ⟨hist, hhandled, hfed⟩ hstep
  exact hstep.fed hhandled hfed

/-! ## Packets -/

/-- The packets that go to the host. -/
def hostPackets (ps : List H4Packet) : List (List UInt8) :=
  (ps.filter fun p => byteAt p.bytes 0 ≠ hciEventSkwlog).map H4Packet.bytes

/-- The packets that go to the controller log. -/
def logPackets (ps : List H4Packet) : List (List UInt8) :=
  (ps.filter fun p => byteAt p.bytes 0 = hciEventSkwlog).map H4Packet.bytes

/-- The records of the packets that go to the host. -/
def snoopRecords (ps : List H4Packet) : List (Option SnoopRecord) :=
  (hostPackets ps).map fun bytes => some ⟨bytes.length, snoopFlags bytes true, bytes⟩

/-- Where the packets of a list are handed on to. -/
theorem handedOn_cases (ps : List H4Packet) :
    toHost (ps.flatMap handedOn) = hostPackets ps ∧ toLog (ps.flatMap handedOn) = logPackets ps ∧
      toSnoop (ps.flatMap handedOn) = snoopRecords ps := by
  induction ps with
  | nil => exact ⟨rfl, rfl, rfl⟩
  | cons p ps ih =>
    obtain ⟨hhost, hlog, hsnoop⟩ := ih
    rw [List.flatMap_cons]
    by_cases h : byteAt p.bytes 0 = hciEventSkwlog
    · rw [handedOn, if_pos h]
      have hhost' : hostPackets (p :: ps) = hostPackets ps := by simp [hostPackets, h]
      have hlog' : logPackets (p :: ps) = p.bytes :: logPackets ps := by simp [logPackets, h]
      rw [snoopRecords, hhost', hlog']
      exact ⟨hhost, congrArg (p.bytes :: ·) hlog, hsnoop⟩
    · rw [handedOn, if_neg h]
      have hhost' : hostPackets (p :: ps) = p.bytes :: hostPackets ps := by simp [hostPackets, h]
      have hlog' : logPackets (p :: ps) = logPackets ps := by simp [logPackets, h]
      rw [snoopRecords, hhost', hlog']
      exact ⟨congrArg (p.bytes :: ·) hhost, hlog, congrArg (_ :: ·) hsnoop⟩

theorem length_of_mem_hostPackets {ps : List H4Packet} {b : List UInt8} (h : b ∈ hostPackets ps) :
    b.length ≤ 2056 := by
  obtain ⟨p, -, rfl⟩ := List.mem_map.mp h
  exact p.fits

/-- After a read of a packet stream, a complete packet is left in the buffer only with fewer than four
bytes. -/
theorem recvRun_stopped {ps : List H4Packet} {chunks : List (List UInt8)} {tr : List Delivery}
    {s : RecvState} (run : RecvRun chunks tr s) (hb : chunks.flatten <+: bytesOf ps) :
    h4Framer.HasFrame s.pending → s.pending.length ≤ 3 := by
  revert hb
  refine run.invariant (I := fun is _ t => is.flatten <+: bytesOf ps →
    h4Framer.HasFrame t.pending → t.pending.length ≤ 3) (fun _ _ => Nat.zero_le 3) ?_
  intro is os t chunk o u hrun ih hstep hb
  rw [List.flatten_append, List.flatten_singleton] at hb
  have hb₀ := (List.prefix_append _ _).trans hb
  by_cases hne : chunk = []
  · subst hne
    cases hstep with
    | zero => exact ih hb₀
    | data _ hne _ _ _ => exact absurd rfl hne
  · obtain ⟨k, hk⟩ := recvRun_reassembled hrun hb₀
    obtain ⟨n, hdrained, -⟩ := hk.step hstep hne hb
    exact fun hframe => (hdrained.stopped hframe).2

/-- Of a stream that has been read to its end, at most an event without parameters is kept back. -/
theorem kept_back {ps : List H4Packet} {chunks : List (List UInt8)} {tr : List Delivery} {s : RecvState}
    (run : RecvRun chunks tr s) (hall : chunks.flatten = bytesOf ps) {k : ℕ}
    (hsplit : bytesOf (ps.take k) ++ s.pending = chunks.flatten) :
    ps.drop k = [] ∨ ∃ p, ps.drop k = [p] ∧ p.bytes.length = 3 := by
  have hpending : s.pending = bytesOf (ps.drop k) := by
    rw [hall, ← bytesOf_take_append_drop ps k] at hsplit
    exact List.append_cancel_left hsplit
  rcases hdrop : ps.drop k with - | ⟨p, qs⟩
  · exact .inl rfl
  · rw [hdrop] at hpending
    have hshort := recvRun_stopped run ⟨[], by rw [List.append_nil, hall]⟩
      (hpending ▸ hasFrame_bytesOf)
    have hp := p.three_le_length
    rw [hpending, bytesOf_cons, List.length_append] at hshort
    refine .inr ⟨p, ?_, by omega⟩
    rcases qs with - | ⟨q, qs⟩
    · rfl
    · have hq := q.three_le_length
      rw [bytesOf_cons, List.length_append] at hshort
      omega

/-! ## The system on packets -/

/-- What the threads have taken of the streams `ps`: `k i` packets of port `i`, each handed on, or about
to be, where it belongs. -/
structure Uplinked (ps : Port → List H4Packet) (k : Port → ℕ) (errors : List (List UInt8))
    (es : List UplinkEvent) (os : List UplinkOut) (s : Uplink) : Prop where
  le : ∀ i, k i ≤ (ps i).length
  /-- the bytes a port has read are its packets and what is in its buffer -/
  received : ∀ i, bytesOf ((ps i).take (k i)) ++ (s.recv i).pending = (chunksOf i es).flatten
  /-- the host's stream is made of whole packets of all ports, each port's in their order -/
  host : HostFramed (fun i => hostPackets ((ps i).take (k i)) ++ if i = 0 then errors else [])
    (hostEvents es) (wireOf os) s.hostLink
  log : ∀ i, loggedBy i os ++ toLog (s.work i) = logPackets ((ps i).take (k i))
  snoop : ∀ i, capturedBy i os ++ toSnoop (s.work i) = snoopRecords ((ps i).take (k i))
  /-- the last packet of port 0 is the error event, once a read of it has failed -/
  failed : errors = [] ∨ .readFailed 0 ∈ es ∧ errors = [hwErrorPacket]

section Runs

variable {ps : Port → List H4Packet} {es : List UplinkEvent} {os : List UplinkOut} {s : Uplink}

/-- What a thread was given, of a stream of packets. -/
theorem Fed.packets {i : Port} {ds : List Delivery} (h : Fed es s i ds)
    (hb : (chunksOf i es).flatten <+: bytesOf (ps i)) :
    ∃ k err, k ≤ (ps i).length ∧
      bytesOf ((ps i).take k) ++ (s.recv i).pending = (chunksOf i es).flatten ∧
      ds = ((ps i).take k).flatMap handedOn ++ err ∧
      (err = [] ∨ i = 0 ∧ .readFailed 0 ∈ es ∧ err = [.scommVendorSendToHost 0 hwErrorPacket]) := by
  obtain ⟨tr, err, rfl, hrun, -, herr⟩ := h
  obtain ⟨k, hk⟩ := recvRun_reassembled hrun hb
  exact ⟨k, err, hk.le, hk.split, by rw [hk.handed], herr⟩

/-- The three ways of what a thread was given. -/
theorem given_packets {ps : List H4Packet} {err : List Delivery}
    (herr : err = [] ∨ err = [.scommVendorSendToHost 0 hwErrorPacket]) :
    toHost (ps.flatMap handedOn ++ err) = hostPackets ps ++ toHost err ∧
      toLog (ps.flatMap handedOn ++ err) = logPackets ps ∧
      toSnoop (ps.flatMap handedOn ++ err) = snoopRecords ps := by
  obtain ⟨hhost, hlog, hsnoop⟩ := handedOn_cases ps
  have hnolog : toLog err = [] := by rcases herr with rfl | rfl <;> rfl
  have hnosnoop : toSnoop err = [] := by rcases herr with rfl | rfl <;> rfl
  rw [← hhost, ← hlog, ← hsnoop]
  refine ⟨List.filterMap_append, ?_, ?_⟩
  · rw [toLog, List.filterMap_append]
    exact (congrArg _ hnolog).trans (List.append_nil _)
  · rw [toSnoop, List.filterMap_append]
    exact (congrArg _ hnosnoop).trans (List.append_nil _)

/-- The system after any run, with the invariant of the host link. -/
theorem uplinked_of_run (run : UplinkRun es os s)
    (hb : ∀ i, (chunksOf i es).flatten <+: bytesOf (ps i)) :
    ∃ k errors, Uplinked ps k errors es os s ∧
      HostInv (fun i => hostPackets ((ps i).take (k i)) ++ if i = 0 then errors else [])
        (hostEvents es) (wireOf os) s.hostLink := by
  obtain ⟨hist, hhandled, hfed⟩ := run.fed
  choose k err hle hreceived hgiven herr using fun i => (hfed i).packets (hb i)
  have hshape : ∀ i, err i = [] ∨ err i = [.scommVendorSendToHost 0 hwErrorPacket] :=
    fun i => (herr i).imp_right fun h => h.2.2
  -- what port 0 hands on may end with the event of a hardware error
  have hqueue : (fun i => toHost (hist i)) =
      fun i => hostPackets ((ps i).take (k i)) ++ if i = 0 then toHost (err 0) else [] := by
    funext i
    rw [hgiven i, (given_packets (hshape i)).1]
    by_cases hi : i = 0
    · rw [if_pos hi, hi]
    · have hnil : err i = [] := (herr i).resolve_right fun h => hi h.1
      rw [if_neg hi, hnil]
      rfl
  have hrun := hhandled.host
  rw [hqueue] at hrun
  have hinv := hostInv_of_run hrun fun i p hp => by
    rcases List.mem_append.mp hp with hp | hp
    · exact length_of_mem_hostPackets hp
    · rcases hshape 0 with hnil | hone
      · rw [hnil] at hp
        split at hp <;> exact absurd hp List.not_mem_nil
      · rw [hone] at hp
        split at hp
        · obtain rfl := List.mem_singleton.mp hp
          decide
        · exact absurd hp List.not_mem_nil
  refine ⟨k, toHost (err 0), ⟨hle, hreceived, hinv.framed, fun i => ?_, fun i => ?_, ?_⟩, hinv⟩
  · rw [hhandled.log i, hgiven i, (given_packets (hshape i)).2.1]
  · rw [hhandled.snoop i, hgiven i, (given_packets (hshape i)).2.2]
  · refine (herr 0).imp (fun h => ?_) fun h => ⟨h.2.1, ?_⟩
    · rw [h]
      rfl
    · rw [h.2.2]
      rfl

/-- **From the controller to the host.** In every run of the receive threads on streams of packets, in
any interleaving, with any results of `read()` and `write()` and whenever the host's socket is closed: of
each port a number of packets has been taken, the controller log and the capture have been given theirs
in order, and the host's stream consists of the others, whole, each port's in order, up to the one being
sent or cut short. -/
theorem uplink_framed (run : UplinkRun es os s)
    (hb : ∀ i, (chunksOf i es).flatten <+: bytesOf (ps i)) :
    ∃ k errors, Uplinked ps k errors es os s := by
  obtain ⟨k, errors, h, -⟩ := uplinked_of_run run hb
  exact ⟨k, errors, h⟩

/-- Nothing is left to do. -/
structure Uplink.Quiet (s : Uplink) : Prop where
  idle : ∀ i, s.pc i = .idle
  done : ∀ i, s.work i = []

/-- Nobody holds the lock then. -/
theorem HostInv.lock_of_idle {queue : Port → List (List UInt8)} {es : List HostEvent}
    {wire : List UInt8} {s : HostLink} (h : HostInv queue es wire s) (hidle : ∀ i, s.pc i = .idle) :
    s.write2hostLock = none := by
  by_contra hlock
  obtain ⟨i, hi⟩ := Option.ne_none_iff_exists'.mp hlock
  have hheld := h.held i hi
  rw [hidle i] at hheld
  exact hheld

/-- **Nothing is lost on the way.** Where the threads have nothing left to do and the host's socket is
still open, the host's stream is a merge of the ports' packets; of a port that has been read to its end
all of them are there, but for an event without parameters at the end of its stream. -/
theorem uplink_complete (run : UplinkRun es os s)
    (hb : ∀ i, (chunksOf i es).flatten <+: bytesOf (ps i)) (hquiet : s.Quiet) (hopen : s.threadRunning = true) :
    ∃ (k : Port → ℕ) (errors : List (List UInt8)) (ts : List (Port × List UInt8)),
      (errors = [] ∨ .readFailed 0 ∈ es ∧ errors = [hwErrorPacket]) ∧ wireOf os = packets ts ∧
      ∀ i, packetsOf i ts = hostPackets ((ps i).take (k i)) ++ (if i = 0 then errors else []) ∧
        loggedBy i os = logPackets ((ps i).take (k i)) ∧
        capturedBy i os = snoopRecords ((ps i).take (k i)) ∧
        ((chunksOf i es).flatten = bytesOf (ps i) →
          (ps i).drop (k i) = [] ∨ ∃ p, (ps i).drop (k i) = [p] ∧ p.bytes.length = 3) := by
  obtain ⟨k, errors, h, hinv⟩ := uplinked_of_run run hb
  obtain ⟨hist, -, hfed⟩ := run.fed
  -- nobody is in the function, so no packet is sent in part
  have hwire : wireOf os = packets (taken (hostEvents es)) := by
    rcases hinv.free (hinv.lock_of_idle hquiet.idle) with hwhole | ⟨hstop, -⟩
    · exact hwhole
    · exact Bool.noConfusion (hstop.symm.trans hopen)
  refine ⟨k, errors, taken (hostEvents es), h.failed, hwire, fun i => ⟨?_, ?_, ?_, ?_⟩⟩
  · have horder := hinv.order i
    have hpc : s.hostLink.pc i = .idle := hquiet.idle i
    have hqueue : s.hostLink.queue i = [] := congrArg toHost (hquiet.done i)
    rw [hpc, hqueue, List.append_nil] at horder
    exact (List.append_nil _).symm.trans horder
  · have hlog := h.log i
    rw [hquiet.done i] at hlog
    exact (List.append_nil _).symm.trans hlog
  · have hsnoop := h.snoop i
    rw [hquiet.done i] at hsnoop
    exact (List.append_nil _).symm.trans hsnoop
  · obtain ⟨tr, -, -, hrun, -⟩ := hfed i
    exact fun hall => kept_back hrun hall (h.received i)

end Runs

/-! ## A run -/

/-- A thread that has read nothing yet reads one packet. -/
theorem recvStep_whole (p : H4Packet) : ∃ r, RecvStep .init p.bytes (handedOn p) r := by
  have hne : p.bytes ≠ [] := List.ne_nil_of_length_pos p.isFrame.length_pos
  have hb : bytesOf [p] = p.bytes := List.append_nil _
  have h : Reassembled [p] [] 0 [] .init := ⟨Nat.zero_le _, rfl, rfl⟩
  obtain ⟨os, r, hstep⟩ := recvStep_exists h hne p.fits (by rw [hb]; exact List.prefix_rfl)
  obtain ⟨k, hos, hdrained⟩ := @recvStep_packets [p] .init r p.bytes os hstep hne
    (by rw [hb]; exact List.prefix_rfl)
  have hk : 0 < k := by
    by_contra hzero
    obtain rfl : k = 0 := by omega
    have hrest := hdrained.split
    rw [List.take_zero, bytesOf_nil, List.nil_append, RecvState.pending_init, List.nil_append] at hrest
    have hframe : h4Framer.HasFrame r.pending := hrest ▸ ⟨_, p.isFrame, Nat.le_refl _⟩
    exact Nat.lt_irrefl 0 (hdrained.stopped hframe).1
  rw [List.take_of_length_le (Nat.succ_le_of_lt hk), List.flatMap_singleton] at hos
  exact ⟨r, hos ▸ hstep⟩

/-- The streams of two ports: an event, and a packet for the controller log. -/
def twoPorts (i : Port) : List H4Packet :=
  if i = 0 then [resetComplete]
  else if i = 1 then
    [⟨[0x07, 0xFF, 0x01, 0x00, 0x2A], by decide, by decide, by decide, by decide⟩]
  else []

/-- Port 1 logs its packet while port 0 sends the event in two pieces. -/
def twoPortsEvents : List UplinkEvent :=
  [.read 0 resetComplete.bytes, .read 1 [0x07, 0xFF, 0x01, 0x00, 0x2A], .deliver 0, .host (.call 0),
    .host (.lock 0 resetComplete.bytes), .host (.test 0), .host (.write 0 (.count 2)), .deliver 1,
    .host (.test 0), .host (.write 0 (.count 5)), .host (.test 0), .host (.unlock 0)]

theorem uplinkRun_twoPorts : ∃ os s, UplinkRun twoPortsEvents os s ∧
    (∀ i, (chunksOf i twoPortsEvents).flatten <+: bytesOf (twoPorts i)) ∧ s.Quiet ∧
    s.threadRunning = true := by
  obtain ⟨r₀, h₀⟩ := recvStep_whole resetComplete
  obtain ⟨r₁, h₁⟩ := recvStep_whole
    ⟨[0x07, 0xFF, 0x01, 0x00, 0x2A], by decide, by decide, by decide, by decide⟩
  have read : UplinkRun _ _ _ :=
    (Execution.start.snoc (.read (i := 0) rfl rfl rfl h₀)).snoc (.read (i := 1) rfl rfl rfl h₁)
  have called := (read.snoc (.skwBtsnoopCapture (i := 0) rfl rfl)).snoc (.call (i := 0) rfl rfl)
  have piece := ((called.snoc (.host (by simp) (.lock (i := 0) rfl rfl))).snoc
    (.host (by simp) (.test (i := 0) rfl))).snoc (.host (by simp) (.wrote (i := 0) (k := 2) rfl (by decide)))
  have logged := piece.snoc (.skwlogWrite (i := 1) rfl rfl)
  have sent := ((logged.snoc (.host (by simp) (.test (i := 0) rfl))).snoc
    (.host (by simp) (.wrote (i := 0) (k := 5) rfl (by decide)))).snoc (.host (by simp) (.test (i := 0) rfl))
  refine ⟨_, _, sent.snoc (.host (by simp) (.unlock (i := 0) rfl)), by decide, ⟨?_, ?_⟩, rfl⟩
  · intro i
    fin_cases i <;> rfl
  · intro i
    fin_cases i <;> rfl

theorem uplink_framed_twoPorts : ∃ os s, UplinkRun twoPortsEvents os s ∧
    ∃ k errors, Uplinked twoPorts k errors twoPortsEvents os s := by
  obtain ⟨os, s, run, hb, -⟩ := uplinkRun_twoPorts
  exact ⟨os, s, run, uplink_framed run hb⟩

theorem uplink_complete_twoPorts : ∃ os s, UplinkRun twoPortsEvents os s ∧
    ∃ (k : Port → ℕ) (errors : List (List UInt8)) (ts : List (Port × List UInt8)),
      (errors = [] ∨ .readFailed 0 ∈ twoPortsEvents ∧ errors = [hwErrorPacket]) ∧
      wireOf os = packets ts ∧
      ∀ i, packetsOf i ts =
          hostPackets ((twoPorts i).take (k i)) ++ (if i = 0 then errors else []) ∧
        loggedBy i os = logPackets ((twoPorts i).take (k i)) ∧
        capturedBy i os = snoopRecords ((twoPorts i).take (k i)) ∧
        ((chunksOf i twoPortsEvents).flatten = bytesOf (twoPorts i) → (twoPorts i).drop (k i) = [] ∨
          ∃ p, (twoPorts i).drop (k i) = [p] ∧ p.bytes.length = 3) := by
  obtain ⟨os, s, run, hb, hquiet, hopen⟩ := uplinkRun_twoPorts
  exact ⟨os, s, run, uplink_complete run hb hquiet hopen⟩

end Seekwave
