import Seekwave.Lib.Execution
import Seekwave.Scomm.Port

/-!
# The shared socket to the host

The receive threads of all ports write their packets to one stream socket, `uart_fd[1]` of port 0,
through `scomm_vendor_send_to_host`. This file models the four threads step by step, under any
interleaving, any results of `write()` and any moment at which port 0's `thread_running` is cleared,
and proves that packets never mix: `host_stream_framed`.

The invariant relates the owner of `write2host_lock`, its `transmitted_length` and `length`, and the
bytes already on the socket (`HostInv`); `HostInv.step` carries it over one step.
-/

namespace Seekwave

/-! ## The threads -/

/-- Where a receive thread stands in `scomm_vendor_send_to_host`, with its `buffer`,
`transmitted_length` and `length`. -/
inductive Pc
  | idle
  | locking (buffer : List UInt8)
  | testing (buffer : List UInt8) (transmitted length : ℕ)
  | writing (buffer : List UInt8) (transmitted length : ℕ)
  | unlocking (buffer : List UInt8)

/-- The outcomes of one `write()`: interrupted, any other error, or the number of bytes taken. -/
inductive WriteResult
  | interrupted
  | error
  | count (k : ℕ)

/-- The state shared by the receive threads. `queue` holds the packets each of them is yet to
deliver. -/
structure HostLink where
  threadRunning : Bool
  write2hostLock : Option Port
  queue : Port → List (List UInt8)
  pc : Port → Pc

/-- The scheduler's choices. -/
inductive HostEvent
  | clearRunning
  | call (i : Port)
  | lock (i : Port) (buffer : List UInt8)
  | test (i : Port)
  | write (i : Port) (ret : WriteResult)
  | unlock (i : Port)

namespace HostLink

def init (queue : Port → List (List UInt8)) : HostLink where
  threadRunning := true
  write2hostLock := none
  queue := queue
  pc := fun _ => .idle

/-- Thread `i` moves on to `next`. -/
def goto (s : HostLink) (i : Port) (next : Pc) : HostLink :=
  { s with pc := Function.update s.pc i next }

variable (s : HostLink) (i : Port) (next : Pc)

@[simp] theorem goto_pc_self : (s.goto i next).pc i = next := Function.update_self ..

@[simp] theorem goto_pc_of_ne {j : Port} (h : j ≠ i) : (s.goto i next).pc j = s.pc j :=
  Function.update_of_ne h ..

@[simp] theorem goto_threadRunning : (s.goto i next).threadRunning = s.threadRunning := rfl

@[simp] theorem goto_write2hostLock : (s.goto i next).write2hostLock = s.write2hostLock := rfl

@[simp] theorem goto_queue : (s.goto i next).queue = s.queue := rfl

end HostLink

/-- One step of one thread, with the bytes it puts on the socket. -/
inductive HostStep : HostLink → HostEvent → List UInt8 → HostLink → Prop
  | clearRunning {s : HostLink} :
      HostStep s .clearRunning [] { s with threadRunning := false }
  | call {s : HostLink} {i : Port} {p : List UInt8} {ps : List (List UInt8)}
      (hpc : s.pc i = .idle) (hq : s.queue i = p :: ps) :
      HostStep s (.call i) [] ({ s with queue := Function.update s.queue i ps }.goto i (.locking p))
  | lock {s : HostLink} {i : Port} {p : List UInt8}
      (hpc : s.pc i = .locking p) (hfree : s.write2hostLock = none) :
      HostStep s (.lock i p) []
        ({ s with write2hostLock := some i }.goto i (.testing p 0 p.length))
  | test {s : HostLink} {i : Port} {p : List UInt8} {t n : ℕ}
      (hpc : s.pc i = .testing p t n) :
      HostStep s (.test i) []
        (s.goto i (if 0 < n ∧ s.threadRunning = true then .writing p t n else .unlocking p))
  -- `RW_NO_INTR` repeats the `write()` without another look at `thread_running`
  | interrupted {s : HostLink} {i : Port} {p : List UInt8} {t n : ℕ}
      (hpc : s.pc i = .writing p t n) :
      HostStep s (.write i .interrupted) [] s
  | error {s : HostLink} {i : Port} {p : List UInt8} {t n : ℕ}
      (hpc : s.pc i = .writing p t n) :
      HostStep s (.write i .error) [] (s.goto i (.testing p t n))
  | wrote {s : HostLink} {i : Port} {p : List UInt8} {t n k : ℕ}
      (hpc : s.pc i = .writing p t n) (hk : k ≤ n) :
      HostStep s (.write i (.count k)) ((p.drop t).take k)
        (s.goto i (.testing p ((t + k) % 65536) (n - k)))
  | unlock {s : HostLink} {i : Port} {p : List UInt8}
      (hpc : s.pc i = .unlocking p) :
      HostStep s (.unlock i) [] ({ s with write2hostLock := none }.goto i .idle)

/-- A run of the receive threads that puts `wire` on the socket. -/
abbrev HostRun (queue : Port → List (List UInt8)) (es : List HostEvent) (wire : List UInt8)
    (s : HostLink) : Prop :=
  Execution HostStep (HostLink.init queue) es wire s

/-! ## What was sent, by the order of the lock -/

/-- The thread that takes the lock in an event, and the packet it takes it for. -/
def HostEvent.locked : HostEvent → Option (Port × List UInt8)
  | .lock i p => some (i, p)
  | _ => none

/-- The packets whose sender took `write2host_lock`, in that order. -/
def taken (es : List HostEvent) : List (Port × List UInt8) := es.filterMap HostEvent.locked

/-- The packets one after the other. -/
def packets (ts : List (Port × List UInt8)) : List UInt8 := (ts.map Prod.snd).flatten

/-- The packets of port `i`. -/
def packetsOf (i : Port) (ts : List (Port × List UInt8)) : List (List UInt8) :=
  (ts.filter fun q => q.1 = i).map Prod.snd

/-- The packet a thread was called with and has not taken the lock for. -/
def Pc.pending : Pc → List (List UInt8)
  | .locking p => [p]
  | _ => []

@[simp] theorem packets_append (ts us : List (Port × List UInt8)) :
    packets (ts ++ us) = packets ts ++ packets us := by
  simp [packets]

@[simp] theorem packets_singleton (q : Port × List UInt8) : packets [q] = q.2 := by
  simp [packets]

@[simp] theorem packetsOf_append (i : Port) (ts us : List (Port × List UInt8)) :
    packetsOf i (ts ++ us) = packetsOf i ts ++ packetsOf i us := by
  simp [packetsOf]

theorem packets_cons (q : Port × List UInt8) (ts : List (Port × List UInt8)) :
    packets (q :: ts) = q.2 ++ packets ts := by
  simp [packets]

theorem taken_snoc_lock (es : List HostEvent) (i : Port) (p : List UInt8) :
    taken (es ++ [.lock i p]) = taken es ++ [(i, p)] := by
  simp [taken, HostEvent.locked]

theorem taken_snoc_of_locked (es : List HostEvent) {e : HostEvent} (h : e.locked = none) :
    taken (es ++ [e]) = taken es := by
  simp [taken, h]

/-- `wire` ends inside the packet of the last lock taken, behind `t` of its bytes. -/
def Sending (ts : List (Port × List UInt8)) (wire : List UInt8) (i : Port) (p : List UInt8)
    (t : ℕ) : Prop :=
  ∃ done, ts = done ++ [(i, p)] ∧ wire = packets done ++ p.take t

/-- `wire` ends inside a packet, behind `t` of its bytes, with the packets `later` after it. -/
def CutAt (ts : List (Port × List UInt8)) (wire : List UInt8) (t : ℕ)
    (later : List (Port × List UInt8)) : Prop :=
  ∃ done i p, ts = done ++ (i, p) :: later ∧ t < p.length ∧ wire = packets done ++ p.take t

/-! ## The invariant -/

/-- Nothing is being sent: all packets are whole, or one was cut short and the threads have been
told to stop. -/
def Settled (running : Bool) (ts : List (Port × List UInt8)) (wire : List UInt8) : Prop :=
  wire = packets ts ∨ running = false ∧ ∃ t later, CutAt ts wire t later

/-- What holds of the thread that owns the lock. -/
def Holding (running : Bool) (ts : List (Port × List UInt8)) (wire : List UInt8) (i : Port) :
    Pc → Prop
  | .testing p t n => t + n = p.length ∧ p.length ≤ 2056 ∧
      (Sending ts wire i p t ∨ t = 0 ∧ running = false ∧ ∃ t' later, CutAt ts wire t' later)
  | .writing p t n => 0 < n ∧ t + n = p.length ∧ p.length ≤ 2056 ∧ Sending ts wire i p t
  | .unlocking _ => Settled running ts wire
  | _ => False

/-- The states between taking and releasing the lock. -/
def Pc.Inside : Pc → Prop
  | .idle | .locking _ => False
  | _ => True

/-- The invariant of the receive threads. -/
structure HostInv (queue : Port → List (List UInt8)) (es : List HostEvent) (wire : List UInt8)
    (s : HostLink) : Prop where
  order : ∀ i, packetsOf i (taken es) ++ (s.pc i).pending ++ s.queue i = queue i
  exclusive : ∀ i, (s.pc i).Inside → s.write2hostLock = some i
  free : s.write2hostLock = none → Settled s.threadRunning (taken es) wire
  held : ∀ i, s.write2hostLock = some i →
    Holding s.threadRunning (taken es) wire i (s.pc i)

theorem Settled.clearRunning {running : Bool} {ts : List (Port × List UInt8)} {wire : List UInt8}
    (h : Settled running ts wire) : Settled false ts wire :=
  h.imp_right fun h => ⟨rfl, h.2⟩

theorem Holding.clearRunning {running : Bool} {ts : List (Port × List UInt8)} {wire : List UInt8}
    {i : Port} {pc : Pc} (h : Holding running ts wire i pc) : Holding false ts wire i pc := by
  cases pc with
  | idle => exact h
  | locking p => exact h
  | testing p t n => exact ⟨h.1, h.2.1, h.2.2.imp_right fun h => ⟨h.1, rfl, h.2.2⟩⟩
  | writing p t n => exact h
  | unlocking p => exact Settled.clearRunning h

/-- A packet sent to its end is whole. -/
theorem Sending.whole {ts : List (Port × List UInt8)} {wire : List UInt8} {i : Port}
    {p : List UInt8} {t : ℕ} (h : Sending ts wire i p t) (ht : p.length ≤ t) :
    wire = packets ts := by
  obtain ⟨done, rfl, rfl⟩ := h
  rw [List.take_of_length_le ht, packets_append, packets_singleton]

/-- A packet that its sender leaves before its end is cut short. -/
theorem Sending.cut {ts : List (Port × List UInt8)} {wire : List UInt8} {i : Port}
    {p : List UInt8} {t : ℕ} (h : Sending ts wire i p t) (ht : t < p.length) :
    CutAt ts wire t [] := by
  obtain ⟨done, rfl, rfl⟩ := h
  exact ⟨done, i, p, rfl, ht, rfl⟩

/-- The next bytes of a packet continue it. -/
theorem Sending.wrote {ts : List (Port × List UInt8)} {wire : List UInt8} {i : Port}
    {p : List UInt8} {t : ℕ} (h : Sending ts wire i p t) (k : ℕ) :
    Sending ts (wire ++ (p.drop t).take k) i p (t + k) := by
  obtain ⟨done, rfl, rfl⟩ := h
  exact ⟨done, rfl, by rw [List.take_add, List.append_assoc]⟩

/-- Taking the lock starts a packet, or leaves the socket as it was cut. -/
theorem Settled.lock {running : Bool} {ts : List (Port × List UInt8)} {wire : List UInt8}
    (h : Settled running ts wire) (i : Port) (p : List UInt8) :
    Sending (ts ++ [(i, p)]) wire i p 0 ∨
      running = false ∧ ∃ t later, CutAt (ts ++ [(i, p)]) wire t later := by
  rcases h with rfl | ⟨hstop, t, later, done, j, q, rfl, ht, rfl⟩
  · exact .inl ⟨ts, rfl, by simp⟩
  · exact .inr ⟨hstop, t, later ++ [(i, p)], done, j, q, by simp, ht, rfl⟩

namespace HostInv

variable {queue : Port → List (List UInt8)} {es : List HostEvent} {wire : List UInt8}
  {s : HostLink} {i : Port} {p : List UInt8}

theorem init (queue : Port → List (List UInt8)) : HostInv queue [] [] (HostLink.init queue) where
  order i := by simp [taken, packetsOf, HostLink.init, Pc.pending]
  exclusive _ h := h.elim
  free _ := .inl rfl
  held _ h := absurd h (by simp [HostLink.init])

/-- The thread inside is the only one. -/
theorem not_inside_of_ne (h : HostInv queue es wire s) {j : Port}
    (hi : (s.pc i).Inside) (hj : j ≠ i) : ¬ (s.pc j).Inside := by
  intro hj'
  have := (h.exclusive i hi).symm.trans (h.exclusive j hj')
  exact hj (Option.some.inj this).symm

/-- A packet waiting for the lock came from the queue. -/
theorem mem_queue (h : HostInv queue es wire s) (hpc : s.pc i = .locking p) : p ∈ queue i := by
  rw [← h.order i, hpc]
  simp [Pc.pending]

/-- A step of the lock's owner inside the loop: the other threads are not concerned. -/
theorem goto (h : HostInv queue es wire s) {e : HostEvent} {o : List UInt8} {next : Pc}
    (hi : (s.pc i).Inside) (hnext : next.Inside) (he : e.locked = none)
    (hheld : Holding s.threadRunning (taken es) (wire ++ o) i next) :
    HostInv queue (es ++ [e]) (wire ++ o) (s.goto i next) where
  order j := by
    have hpend : ∀ pc : Pc, pc.Inside → pc.pending = [] := by
      intro pc hpc
      cases pc <;> first | rfl | exact hpc.elim
    rw [taken_snoc_of_locked es he, ← h.order j]
    by_cases hj : j = i
    · subst hj
      simp [hpend _ hi, hpend _ hnext]
    · simp [hj]
  exclusive j hj := by
    by_cases hji : j = i
    · subst hji
      exact h.exclusive j hi
    · rw [HostLink.goto_pc_of_ne _ _ _ hji] at hj
      exact h.exclusive j hj
  free hfree := by
    rw [HostLink.goto_write2hostLock, h.exclusive i hi] at hfree
    exact absurd hfree (by simp)
  held j hj := by
    rw [HostLink.goto_write2hostLock, h.exclusive i hi] at hj
    obtain rfl := Option.some.inj hj
    rw [taken_snoc_of_locked es he, HostLink.goto_pc_self]
    exact hheld

/-- A thread enters `scomm_vendor_send_to_host`. -/
theorem call (h : HostInv queue es wire s) {ps : List (List UInt8)} (hpc : s.pc i = .idle)
    (hq : s.queue i = p :: ps) :
    HostInv queue (es ++ [.call i]) wire
      ({ s with queue := Function.update s.queue i ps }.goto i (.locking p)) where
  order j := by
    rw [taken_snoc_of_locked es rfl, ← h.order j]
    by_cases hj : j = i
    · subst hj
      simp [hpc, hq, Pc.pending]
    · simp [hj, HostLink.goto]
  exclusive j hj := by
    by_cases hji : j = i
    · subst hji
      exact absurd hj (by simp [Pc.Inside])
    · exact h.exclusive j (by simpa [HostLink.goto, hji] using hj)
  free hfree := by
    rw [taken_snoc_of_locked es rfl]
    exact h.free hfree
  held j hj := by
    have hheld := h.held j hj
    have hji : j ≠ i := by
      rintro rfl
      rw [hpc] at hheld
      exact hheld
    rw [taken_snoc_of_locked es rfl]
    simpa [HostLink.goto, hji] using hheld

/-- A thread takes the free lock. -/
theorem lock (h : HostInv queue es wire s) (hlen : ∀ i, ∀ p ∈ queue i, p.length ≤ 2056)
    (hpc : s.pc i = .locking p) (hfree : s.write2hostLock = none) :
    HostInv queue (es ++ [.lock i p]) wire
      ({ s with write2hostLock := some i }.goto i (.testing p 0 p.length)) where
  order j := by
    rw [taken_snoc_lock, ← h.order j]
    by_cases hj : j = i
    · subst hj
      simp [hpc, Pc.pending, packetsOf]
    · simp [HostLink.goto, packetsOf, hj, Ne.symm hj]
  exclusive j hj := by
    by_cases hji : j = i
    · rw [hji]
      rfl
    · have hin : (s.pc j).Inside := by simpa [HostLink.goto, hji] using hj
      exact absurd (h.exclusive j hin) (by simp [hfree])
  free hnone := absurd hnone (by simp)
  held j hj := by
    obtain rfl : i = j := by simpa using hj
    rw [taken_snoc_lock, HostLink.goto_pc_self]
    refine ⟨Nat.zero_add _, hlen i p (h.mem_queue hpc), ?_⟩
    rcases (h.free hfree).lock i p with hsend | hcut
    · exact .inl hsend
    · exact .inr ⟨rfl, hcut⟩

/-- A thread gives the lock back. -/
theorem unlock (h : HostInv queue es wire s) (hpc : s.pc i = .unlocking p) :
    HostInv queue (es ++ [.unlock i]) wire
      ({ s with write2hostLock := none }.goto i .idle) where
  order j := by
    rw [taken_snoc_of_locked es rfl, ← h.order j]
    by_cases hj : j = i
    · subst hj
      simp [hpc, Pc.pending]
    · simp [HostLink.goto, hj]
  exclusive j hj := by
    have hin : (s.pc i).Inside := by rw [hpc]; exact trivial
    by_cases hji : j = i
    · subst hji
      exact absurd hj (by simp [Pc.Inside])
    · exact absurd (by simpa [HostLink.goto, hji] using hj) (h.not_inside_of_ne hin hji)
  free _ := by
    have hin : (s.pc i).Inside := by rw [hpc]; exact trivial
    have hheld := h.held i (h.exclusive i hin)
    rw [hpc] at hheld
    rw [taken_snoc_of_locked es rfl]
    exact hheld
  held j hj := absurd hj (by simp)

/-- The loop condition is tested: the owner writes on, or leaves the loop with its packet whole or
`thread_running` cleared. -/
theorem test (h : HostInv queue es wire s) {t n : ℕ} (hpc : s.pc i = .testing p t n) :
    HostInv queue (es ++ [.test i]) (wire ++ [])
      (s.goto i (if 0 < n ∧ s.threadRunning = true then .writing p t n else .unlocking p)) := by
  have hin : (s.pc i).Inside := by rw [hpc]; exact trivial
  have hheld := h.held i (h.exclusive i hin)
  rw [hpc] at hheld
  obtain ⟨htn, hle, hsend⟩ := hheld
  refine h.goto hin (by split <;> exact trivial) rfl ?_
  rw [List.append_nil]
  by_cases hcond : 0 < n ∧ s.threadRunning = true
  · rw [if_pos hcond]
    rcases hsend with hsend | ⟨-, hstop, -⟩
    · exact ⟨hcond.1, htn, hle, hsend⟩
    · exact absurd (hstop.symm.trans hcond.2) (by simp)
  · rw [if_neg hcond]
    rcases hsend with hsend | ⟨-, hstop, hcut⟩
    · by_cases hn : n = 0
      · exact .inl (hsend.whole (by omega))
      · refine .inr ⟨?_, t, [], hsend.cut (by omega)⟩
        rw [not_and, Bool.not_eq_true] at hcond
        exact hcond (by omega)
    · exact .inr ⟨hstop, hcut⟩

/-- One step of one thread keeps the invariant. -/
theorem step (h : HostInv queue es wire s) (hlen : ∀ i, ∀ p ∈ queue i, p.length ≤ 2056)
    {e : HostEvent} {o : List UInt8} {t : HostLink} (hstep : HostStep s e o t) :
    HostInv queue (es ++ [e]) (wire ++ o) t := by
  cases hstep with
  | clearRunning =>
    rw [List.append_nil]
    refine ⟨?_, h.exclusive, ?_, ?_⟩ <;> rw [taken_snoc_of_locked es rfl]
    · exact h.order
    · exact fun hfree => (h.free hfree).clearRunning
    · exact fun j hj => (h.held j hj).clearRunning
  | call hpc hq => simpa only [List.append_nil] using h.call hpc hq
  | lock hpc hfree => simpa only [List.append_nil] using h.lock hlen hpc hfree
  | test hpc => exact h.test hpc
  | @interrupted i p t n hpc =>
    rw [List.append_nil]
    refine ⟨?_, h.exclusive, ?_, ?_⟩ <;> rw [taken_snoc_of_locked es rfl]
    · exact h.order
    · exact h.free
    · exact h.held
  | @error i p t n hpc =>
    have hin : (s.pc i).Inside := by rw [hpc]; exact trivial
    have hheld := h.held i (h.exclusive i hin)
    rw [hpc] at hheld
    obtain ⟨-, htn, hle, hsend⟩ := hheld
    refine h.goto hin trivial rfl ?_
    rw [List.append_nil]
    exact ⟨htn, hle, .inl hsend⟩
  | @wrote i p t n k hpc hk =>
    have hin : (s.pc i).Inside := by rw [hpc]; exact trivial
    have hheld := h.held i (h.exclusive i hin)
    rw [hpc] at hheld
    obtain ⟨-, htn, hle, hsend⟩ := hheld
    refine h.goto hin trivial rfl ?_
    -- `transmitted_length` is 16 bits wide, and no packet is longer than the buffer
    rw [Nat.mod_eq_of_lt (by omega)]
    exact ⟨by omega, hle, .inl (hsend.wrote k)⟩
  | unlock hpc => simpa only [List.append_nil] using h.unlock hpc

end HostInv

/-- The invariant holds after every run. -/
theorem hostInv_of_run {queue : Port → List (List UInt8)} {es : List HostEvent}
    {wire : List UInt8} {s : HostLink} (run : HostRun queue es wire s)
    (hlen : ∀ i, ∀ p ∈ queue i, p.length ≤ 2056) : HostInv queue es wire s :=
  run.invariant (I := HostInv queue) (HostInv.init queue)
    fun _ _ _ _ _ _ _ h hstep => h.step hlen hstep

/-! ## Shutdown -/

/-- No thread is inside `write()`. -/
def NoneWriting (s : HostLink) : Prop := ∀ i p t n, s.pc i ≠ .writing p t n

/-- With `thread_running` cleared no thread goes on to a `write()`, and nothing is written by the
threads that are not at one. -/
theorem HostStep.stopped {s t : HostLink} {e : HostEvent} {o : List UInt8}
    (hstep : HostStep s e o t) (hstop : s.threadRunning = false) :
    t.threadRunning = false ∧ (∀ i p k n, t.pc i = .writing p k n → s.pc i = .writing p k n) ∧
      (NoneWriting s → o = []) := by
  have hgoto : ∀ {u : HostLink} {i : Port} {next : Pc}, (∀ p k n, next ≠ .writing p k n) →
      u.pc = s.pc → ∀ j p k n, (u.goto i next).pc j = .writing p k n → s.pc j = .writing p k n := by
    intro u i next hnext hpc j p k n hj
    by_cases hji : j = i
    · subst hji
      exact absurd (by simpa using hj) (hnext p k n)
    · rw [HostLink.goto_pc_of_ne _ _ _ hji, hpc] at hj
      exact hj
  cases hstep with
  | clearRunning => exact ⟨rfl, fun _ _ _ _ h => h, fun _ => rfl⟩
  | call hpc hq => exact ⟨hstop, hgoto (by simp) rfl, fun _ => rfl⟩
  | lock hpc hfree => exact ⟨hstop, hgoto (by simp) rfl, fun _ => rfl⟩
  | test hpc => exact ⟨hstop, hgoto (by simp [hstop]) rfl, fun _ => rfl⟩
  | interrupted hpc => exact ⟨hstop, fun _ _ _ _ h => h, fun _ => rfl⟩
  | error hpc => exact ⟨hstop, hgoto (by simp) rfl, fun _ => rfl⟩
  | wrote hpc hk => exact ⟨hstop, hgoto (by simp) rfl, fun hnone => absurd hpc (hnone _ _ _ _)⟩
  | unlock hpc => exact ⟨hstop, hgoto (by simp) rfl, fun _ => rfl⟩

/-- Once `thread_running` is cleared and no `write()` is under way, nothing is written any more. -/
theorem nothing_written_of_stopped {s t : HostLink} {es : List HostEvent} {o : List UInt8}
    (hstop : s.threadRunning = false) (hnone : NoneWriting s)
    (run : Execution HostStep s es o t) : o = [] := by
  refine (run.invariant (I := fun _ o t => o = [] ∧ t.threadRunning = false ∧ NoneWriting t)
    ⟨rfl, hstop, hnone⟩ ?_).1
  rintro - o t e o' u - ⟨rfl, hstop', hnone'⟩ hstep
  obtain ⟨hstop'', hkeep, hnothing⟩ := hstep.stopped hstop'
  exact ⟨hnothing hnone', hstop'', fun i p k n hpc => hnone' i p k n (hkeep i p k n hpc)⟩

/-- What the threads still write once `thread_running` is cleared. -/
theorem written_of_stopped {s t : HostLink} {es : List HostEvent} {o p : List UInt8} {i : Port}
    {k n : ℕ} (hstop : s.threadRunning = false) (hpc : s.pc i = .writing p k n)
    (honly : ∀ j q k' n', s.pc j = .writing q k' n' → j = i)
    (run : Execution HostStep s es o t) : o <+: p.drop k := by
  -- until its one `write()` has ended, the owner is where it was
  refine (run.invariant (I := fun _ o t => t.threadRunning = false ∧ o <+: p.drop k ∧
    (∀ j q k' n', t.pc j = .writing q k' n' → s.pc j = .writing q k' n') ∧
      (o = [] ∨ NoneWriting t))
    ⟨hstop, List.nil_prefix, fun _ _ _ _ h => h, .inl rfl⟩ ?_).2.1
  rintro - o t e o' u - ⟨hstop', hpre, hback, hdone⟩ hstep
  obtain ⟨hstop'', hkeep, hnothing⟩ := hstep.stopped hstop'
  have hback' : ∀ j q k' n', u.pc j = .writing q k' n' → s.pc j = .writing q k' n' :=
    fun j q k' n' hj => hback j q k' n' (hkeep j q k' n' hj)
  rcases hdone with rfl | hnone
  · by_cases ho : o' = []
    · subst ho
      exact ⟨hstop'', hpre, hback', .inl rfl⟩
    · cases hstep with
      | @wrote j q k' n' m hpc' hm =>
        have hj := hback j q k' n' hpc'
        obtain rfl := honly j q k' n' hj
        obtain ⟨rfl, rfl, rfl⟩ : p = q ∧ k = k' ∧ n = n' := by simpa [hpc] using hj
        refine ⟨hstop'', by simpa using List.take_prefix _ _, hback', .inr ?_⟩
        intro l q k' n' hl
        obtain rfl := honly l q k' n' (hback' l q k' n' hl)
        simp at hl
      | _ => exact absurd rfl ho
  · obtain rfl := hnothing hnone
    rw [List.append_nil]
    exact ⟨hstop'', hpre, hback', .inr fun j q k' n' hj => hnone j q k' n' (hkeep j q k' n' hj)⟩

/-! ## Packets never mix -/

/-- What the host sees on its socket. -/
structure HostFramed (queue : Port → List (List UInt8)) (es : List HostEvent)
    (wire : List UInt8) (s : HostLink) : Prop where
  /-- The stream is a concatenation of whole packets in the order the lock was taken, then a prefix
  of the packet whose sender holds the lock, or, after a shutdown, of one that was cut short. -/
  stream : wire = packets (taken es) ∨
    (∃ i p t, s.write2hostLock = some i ∧ Sending (taken es) wire i p t) ∨
    s.threadRunning = false ∧ ∃ t later, CutAt (taken es) wire t later
  /-- The packets of a port that took the lock, the one waiting for it and the queue make up the
  port's packets in their order. -/
  order : ∀ i, packetsOf i (taken es) ++ (s.pc i).pending ++ s.queue i = queue i
  /-- A packet whose sender is through, or that others have come after, is short only if
  `thread_running` was cleared, and then nothing follows it. -/
  cut : ∀ t later, CutAt (taken es) wire t later → later ≠ [] ∨ s.write2hostLock = none →
    s.threadRunning = false ∧ ∀ es' wire' s', Execution HostStep s es' wire' s' → wire' = []
  /-- Once `thread_running` is cleared, no more than the one `write()` under way is completed. -/
  stopped : s.threadRunning = false → ∀ es' wire' s', Execution HostStep s es' wire' s' →
    wire' = [] ∨ ∃ i p t n, s.write2hostLock = some i ∧ s.pc i = .writing p t n ∧
      wire' <+: p.drop t

/-- A packet that was cut short is not followed by a whole one. -/
theorem CutAt.ne_packets {ts : List (Port × List UInt8)} {wire : List UInt8} {t : ℕ}
    {later : List (Port × List UInt8)} (h : CutAt ts wire t later) : wire ≠ packets ts := by
  obtain ⟨done, i, p, rfl, ht, rfl⟩ := h
  intro heq
  have hlen := congrArg List.length heq
  simp only [packets_append, packets_cons, List.length_append, List.length_take] at hlen
  omega

/-- A packet that was cut short is not followed by the one being sent. -/
theorem CutAt.not_sending {ts : List (Port × List UInt8)} {wire : List UInt8} {t t' : ℕ}
    {later : List (Port × List UInt8)} {i : Port} {p : List UInt8} (h : CutAt ts wire t later)
    (hlater : later ≠ []) : ¬ Sending ts wire i p t' := by
  obtain ⟨done, j, q, rfl, ht, rfl⟩ := h
  rintro ⟨done', hts, hwire⟩
  obtain ⟨later', x, rfl⟩ := List.eq_nil_or_concat later |>.resolve_left hlater
  rw [List.concat_eq_append, ← List.cons_append, ← List.append_assoc] at hts
  obtain ⟨rfl, -⟩ := List.append_inj' hts rfl
  have hlen := congrArg List.length hwire
  simp only [packets_append, packets_cons, List.length_append, List.length_take] at hlen
  omega

namespace HostInv

variable {queue : Port → List (List UInt8)} {es : List HostEvent} {wire : List UInt8}
  {s : HostLink}

theorem stream (h : HostInv queue es wire s) : wire = packets (taken es) ∨
    (∃ i p t, s.write2hostLock = some i ∧ Sending (taken es) wire i p t) ∨
    s.threadRunning = false ∧ ∃ t later, CutAt (taken es) wire t later := by
  rcases hlock : s.write2hostLock with - | i
  · exact (h.free hlock).imp_right .inr
  · have hheld := h.held i hlock
    cases hpc : s.pc i with
    | idle => rw [hpc] at hheld; exact hheld.elim
    | locking p => rw [hpc] at hheld; exact hheld.elim
    | testing p t n =>
      rw [hpc] at hheld
      obtain ⟨-, -, hsend | ⟨-, hcut⟩⟩ := hheld
      · exact .inr (.inl ⟨i, p, t, rfl, hsend⟩)
      · exact .inr (.inr hcut)
    | writing p t n =>
      rw [hpc] at hheld
      exact .inr (.inl ⟨i, p, t, rfl, hheld.2.2.2⟩)
    | unlocking p =>
      rw [hpc] at hheld
      exact hheld.imp_right .inr

/-- Only the owner of the lock writes. -/
theorem lock_of_writing (h : HostInv queue es wire s) {i : Port} {p : List UInt8} {t n : ℕ}
    (hpc : s.pc i = .writing p t n) : s.write2hostLock = some i :=
  h.exclusive i (by rw [hpc]; exact trivial)

/-- Where a packet was left short nobody writes. -/
theorem noneWriting_of_cut (h : HostInv queue es wire s) {t : ℕ}
    {later : List (Port × List UInt8)} (hcut : CutAt (taken es) wire t later)
    (hleft : later ≠ [] ∨ s.write2hostLock = none) : NoneWriting s := by
  intro i p t' n hpc
  have hlock := h.lock_of_writing hpc
  have hheld := h.held i hlock
  rw [hpc] at hheld
  rcases hleft with hlater | hfree
  · exact hcut.not_sending hlater hheld.2.2.2
  · exact absurd (hfree.symm.trans hlock) (by simp)

theorem framed (h : HostInv queue es wire s) : HostFramed queue es wire s where
  stream := h.stream
  order := h.order
  cut t later hcut hleft := by
    have hstop : s.threadRunning = false := by
      rcases h.stream with hwhole | ⟨i, p, t', hlock, hsend⟩ | ⟨hstop, -⟩
      · exact absurd hwhole hcut.ne_packets
      · rcases hleft with hlater | hfree
        · exact absurd hsend (hcut.not_sending hlater)
        · exact absurd (hfree.symm.trans hlock) (by simp)
      · exact hstop
    exact ⟨hstop, fun _ _ _ run =>
      nothing_written_of_stopped hstop (h.noneWriting_of_cut hcut hleft) run⟩
  stopped hstop es' wire' s' run := by
    by_cases hnone : NoneWriting s
    · exact .inl (nothing_written_of_stopped hstop hnone run)
    · obtain ⟨i, p, t, n, hpc⟩ : ∃ i p t n, s.pc i = .writing p t n := by
        by_contra hno
        exact hnone fun i p t n hpc => hno ⟨i, p, t, n, hpc⟩
      have hlock := h.lock_of_writing hpc
      refine .inr ⟨i, p, t, n, hlock, hpc, written_of_stopped hstop hpc ?_ run⟩
      intro j q t' n' hj
      exact Option.some.inj ((h.lock_of_writing hj).symm.trans hlock)

end HostInv

/-- **Packets from different ports never mix on the host socket**: after any run of the receive
threads, whatever `write()` returns and whenever `thread_running` is cleared. -/
theorem host_stream_framed (queue : Port → List (List UInt8))
    (hlen : ∀ i, ∀ p ∈ queue i, p.length ≤ 2056) {es : List HostEvent} {wire : List UInt8}
    {s : HostLink} (run : HostRun queue es wire s) : HostFramed queue es wire s :=
  (hostInv_of_run run hlen).framed

/-- Two ports with an event each; the first is stopped behind its first byte, and the second sends
nothing. -/
theorem host_stream_framed_stopped : ∃ s, HostFramed
    (fun i => if i = 0 then [[0x04, 0xFF, 0x00]] else if i = 1 then [[0x04, 0x10, 0x00]] else [])
    [.call 0, .call 1, .lock 0 [0x04, 0xFF, 0x00], .test 0, .write 0 (.count 1), .clearRunning,
      .test 0, .unlock 0, .lock 1 [0x04, 0x10, 0x00], .test 1, .unlock 1] [0x04] s := by
  have hlen : ∀ i : Port, ∀ p ∈ (if i = 0 then [[0x04, 0xFF, 0x00]] else
      if i = 1 then [[0x04, 0x10, 0x00]] else [] : List (List UInt8)), p.length ≤ 2056 := by decide
  have called : HostRun (fun i => if i = 0 then [[0x04, 0xFF, 0x00]] else
      if i = 1 then [[0x04, 0x10, 0x00]] else []) _ _ _ :=
    (Execution.start.snoc (.call (i := 0) rfl rfl)).snoc (.call (i := 1) rfl rfl)
  have sent := ((called.snoc (.lock (i := 0) rfl rfl)).snoc (.test (i := 0) rfl)).snoc
    (.wrote (i := 0) (k := 1) rfl (by decide))
  have stopped := ((sent.snoc .clearRunning).snoc (.test (i := 0) rfl)).snoc (.unlock (i := 0) rfl)
  have last := ((stopped.snoc (.lock (i := 1) rfl rfl)).snoc (.test (i := 1) rfl)).snoc
    (.unlock (i := 1) rfl)
  exact ⟨_, host_stream_framed _ hlen last⟩

end Seekwave
