import Seekwave.Scomm.HostBounds
import Seekwave.Scomm.SocketThread

/-!
# `scomm_vendor_socket_close` joins the socket thread

A host that closes in the middle of a packet traps a call of `scomm_vendor_recv_rawdata`
(`Scomm.HostClose`). `scomm_vendor_socket_close` closes both ends of the socket before it waits for the
thread, and a read of a closed descriptor fails: in every interleaving of the two the thread comes to its
end, with at most one packet more (`socket_close_returns`), provided that the receive thread, for which
`scomm_vendor_port_close` waits before, leaves (`Scomm.CloseProgress`). Only a device that takes nothing can
keep it, behind another port than port 0, whose `driver_state` is still set (`socket_close_held`).
-/

namespace Seekwave

/-! ## What is left to do -/

/-- The steps of `scomm_vendor_port_close` to its end. -/
def SocketClosePc.left : SocketClosePc → ℕ
  | .entered => 6
  | .stopping => 5
  | .joiningRecv => 4
  | .closingHost => 3
  | .closingChip => 2
  | .joining => 1
  | .returned => 0

/-- The steps left at the test of the loop of writes, whose port is open or not. -/
def testLeft (up : Bool) (length : ℕ) : ℕ := if up = true then 2 * length + 3 else 3

/-- The longest way from a whole packet, from a header and from a type byte. -/
def sendLeft : ℕ := testLeft true 65535
def payloadLeft : ℕ := 65535 + sendLeft
def headerLeft : ℕ := 4 + payloadLeft

/-- The steps of a call to its end and to that of the thread. -/
def CallPc.left (driverState : Port → Bool) : CallPc → ℕ
  | .type => headerLeft + 1
  | .header needReadLens bytesRead => needReadLens - bytesRead + payloadLeft
  | .payload _ needReadLens bytesRead => needReadLens - bytesRead + sendLeft
  | .testing port _ length => testLeft (driverState port) length
  | .writing _ _ length => 2 * length + 2
  | .returned => 2
  | .aborted => 0

/-- The steps of the thread to its end, once `thread_running` is cleared. -/
def SocketPc.left (driverState : Port → Bool) : SocketPc → ℕ
  | .waiting => headerLeft + 2
  | .calling pc => pc.left driverState
  | .head => 1
  | .exited => 0

/-- What is left of both. -/
def SocketLink.left (s : SocketLink) : ℕ := s.closePc.left + s.pc.left s.driverState

/-- The packets that the thread may still take, once `thread_running` is cleared. -/
def SocketPc.packetsLeft : SocketPc → ℕ
  | .waiting | .calling .type | .calling (.header _ _) | .calling (.payload _ _ _) => 1
  | _ => 0

/-- The steps of the thread and of `scomm_vendor_port_close`. A read at the end of the file is made again. -/
def SocketEvent.steps : SocketEvent → ℕ
  | .read r => if r = some [] then 0 else 1
  | .hostWrite _ | .hostClose | .driver _ _ | .recvLeave => 0
  | _ => 1

/-! ## What holds of a call -/

/-- A loop has something left to read, or to write to a port of the transport. -/
def CallPc.Bounded (cfg : RawConfig) : CallPc → Prop
  | .header needReadLens bytesRead => bytesRead < needReadLens ∧ needReadLens ≤ 4
  | .payload _ needReadLens bytesRead => bytesRead < needReadLens ∧ needReadLens ≤ 65535
  | .testing port _ _ => ∃ pktType, port = sendPort cfg pktType
  | .writing port _ length => 0 < length ∧ ∃ pktType, port = sendPort cfg pktType
  | _ => True

/-- What a step of a call leaves is a place that is bounded, with fewer than `n` steps to its end. -/
structure CallStep.Within (cfg : RawConfig) (driverState : Port → Bool) (n : ℕ) (st : CallStep) : Prop where
  bounded : st.pc.Bounded cfg
  left : st.pc.left driverState < n
  captured : (captured st.events).length + (SocketPc.calling st.pc).packetsLeft ≤ 1

section Call

variable {cfg : RawConfig} {driverState : Port → Bool} {raw : RawState} {n : ℕ} {r : ReadResult}

theorem CallStep.Within.mono {st : CallStep} (h : st.Within cfg driverState n) {m : ℕ} (hle : n ≤ m) :
    st.Within cfg driverState m :=
  ⟨h.bounded, h.left.trans_le hle, h.captured⟩

theorem testLeft_le (up : Bool) {length : ℕ} (h : length ≤ 65535) : testLeft up length ≤ sendLeft := by
  rw [sendLeft, testLeft, testLeft, if_pos rfl]
  split <;> omega

theorem within_returned (hn : 2 < n) : (CallStep.mk raw .returned []).Within cfg driverState n :=
  ⟨trivial, hn, Nat.zero_le 1⟩

theorem captured_beginSend (totalLen : ℕ) : (captured (beginSend cfg raw totalLen).events).length = 1 := by
  rw [beginSend, captured_append]
  split <;> rfl

theorem within_beginSend {totalLen : ℕ} (h : totalLen ≤ 65535) (hn : sendLeft < n) :
    (beginSend cfg raw totalLen).Within cfg driverState n where
  bounded := ⟨_, rfl⟩
  left := (testLeft_le _ h).trans_lt hn
  captured := by
    rw [captured_beginSend]
    exact Nat.le_refl 1

theorem within_beginPayload {offset : ℕ} (h : offset ≤ 65535) (hn : payloadLeft < n) :
    (beginPayload cfg raw offset).Within cfg driverState n := by
  have hlen := rawPayloadLen_lt raw.recvSocketBuf
  rw [beginPayload]
  split
  · next hpos =>
    refine ⟨⟨hpos, by omega⟩, ?_, Nat.le_refl 1⟩
    show _ - 0 + sendLeft < n
    rw [payloadLeft] at hn
    omega
  · exact within_beginSend h (by rw [payloadLeft] at hn; omega)

theorem within_beginHeader (hn : headerLeft < n) : (beginHeader raw).Within cfg driverState n := by
  rw [beginHeader]
  split
  · next hacc =>
    obtain ⟨hpos, hle⟩ := hciPreambleSizes_of_rawAccepts hacc
    refine ⟨⟨hpos, hle⟩, ?_, Nat.le_refl 1⟩
    show _ - 0 + payloadLeft < n
    rw [headerLeft] at hn
    omega
  · exact ⟨trivial, Nat.zero_lt_of_lt hn, Nat.zero_le 1⟩

/-- A read that is no error and returns something. -/
theorem revLen_pos (hfit : (r.getD []).length < 65536) (herr : ¬ revLen r < 0) (hr : r ≠ some []) :
    0 < (revLen r).toNat := by
  cases r with
  | none => exact absurd (show revLen none < 0 by decide) herr
  | some c =>
    by_cases hc : c.length ≤ 32767
    · have hpos := List.length_pos_of_ne_nil fun hnil => hr (congrArg some hnil)
      rw [revLen_some hc]
      omega
    · exact absurd (revLen_some_neg (Nat.lt_of_not_le hc) hfit) herr

/-- A read of a loop brings it on, unless it is at the end of the file. -/
theorem within_loopRead {offset need k : ℕ} {again : ℕ → CallPc} {next : RawState → CallStep}
    (hneed : need ≤ 65535) (hfit : (r.getD []).length ≤ need) (hn : 2 < n)
    (hagain : ∀ raw' j, j < need → (if r = some [] then k ≤ j else k < j) →
      (CallStep.mk raw' (again j) []).Within cfg driverState n)
    (hnext : ∀ raw', (next raw').Within cfg driverState n) :
    (loopRead raw offset need k again next r).Within cfg driverState n := by
  rw [loopRead]
  split
  · exact within_returned hn
  · next herr =>
    split
    · next hmore =>
      refine hagain _ _ hmore ?_
      split
      · exact Nat.le_add_right _ _
      · next hr => exact Nat.lt_add_of_pos_right (revLen_pos (by omega) herr hr)
    · exact hnext _

/-- **A read brings the call on**, unless it is at the end of the file. -/
theorem within_afterRead {pc : CallPc} {count : ℕ} (hb : pc.Bounded cfg) (hcount : pc.count = some count)
    (hfit : (r.getD []).length ≤ count) :
    (pc.afterRead cfg raw r).Within cfg driverState
      (pc.left driverState + if r = some [] then 1 else 0) := by
  cases pc with
  | type =>
    refine CallStep.Within.mono (n := headerLeft + 1) ?_ (Nat.le_add_right _ _)
    rw [CallPc.afterRead]
    split
    · exact within_returned (by decide)
    · exact within_beginHeader (Nat.lt_succ_self _)
  | header need k =>
    -- each byte of the header counts one, and so does an end of the file
    obtain rfl : need = count := Option.some.inj hcount
    have hlt := hb.1
    have hle := hb.2
    have hpay : payloadLeft < need - k + payloadLeft := by omega
    refine @within_loopRead _ _ _ _ _ _ _ _ (.header need) _ (by omega) hfit ?_
      (fun raw' j hj hon => ⟨⟨hj, hle⟩, ?_, Nat.le_refl 1⟩)
      fun raw' => (within_beginPayload (by omega) hpay).mono (Nat.le_add_right _ _)
    · have hpos : 2 < payloadLeft := by decide
      show 2 < need - k + payloadLeft + _
      omega
    · simp only [CallPc.left]
      split at hon
      · next hr => rw [if_pos hr]; omega
      · next hr => rw [if_neg hr]; omega
  | payload offset need k =>
    obtain rfl : need = count := Option.some.inj hcount
    have hlt := hb.1
    have hle := hb.2
    have hsend : sendLeft < need - k + sendLeft := by omega
    refine @within_loopRead _ _ _ _ _ _ _ _ (.payload offset need) _ hle hfit ?_
      (fun raw' j hj hon => ⟨⟨hj, hle⟩, ?_, Nat.le_refl 1⟩)
      fun raw' => (within_beginSend (by omega) hsend).mono (Nat.le_add_right _ _)
    · have hpos : 2 < sendLeft := by decide
      show 2 < need - k + sendLeft + _
      omega
    · simp only [CallPc.left]
      split at hon
      · next hr => rw [if_pos hr]; omega
      · next hr => rw [if_neg hr]; omega
  | testing | writing | returned | aborted => exact absurd hcount (by simp [CallPc.count])

end Call

/-! ## What the thread and `scomm_vendor_port_close` have agreed on -/

/-- What holds by the place where `scomm_vendor_port_close` stands. -/
structure SocketInv (cfg : RawConfig) (s : SocketLink) : Prop where
  running : s.closePc.left < 6 → s.threadRunning = false
  driver : s.closePc.left < 5 → s.driverState 0 = false
  recv : s.closePc.left < 4 → s.recvLeft = true
  host : s.closePc.left < 3 → s.hostOpen = false
  chip : s.closePc.left < 2 → s.chipOpen = false
  joined : s.closePc = .returned → s.pc = .exited
  bounded : ∀ pc, s.pc = .calling pc → pc.Bounded cfg

section Invariant

variable {cfg : RawConfig} {raw : RawState} {driverState : Port → Bool} {es : List SocketEvent}
  {s t : SocketLink} {e : SocketEvent} {os o : List RawEvent}

theorem socketInv_start : SocketInv cfg (.start raw driverState) where
  running h := absurd h (Nat.lt_irrefl 6)
  driver h := absurd h (by decide : ¬ 6 < 5)
  recv h := absurd h (by decide : ¬ 6 < 4)
  host h := absurd h (by decide : ¬ 6 < 3)
  chip h := absurd h (by decide : ¬ 6 < 2)
  joined h := absurd h (by simp [SocketLink.start])
  bounded _ h := absurd h (by simp [SocketLink.start])

namespace SocketInv

/-- A step of the thread, which leaves the flags and the descriptors alone. -/
theorem thread (h : SocketInv cfg s) (hpc : s.pc ≠ .exited) (hclose : t.closePc = s.closePc)
    (hrunning : t.threadRunning = s.threadRunning) (hdriver : t.driverState = s.driverState)
    (hrecv : t.recvLeft = s.recvLeft) (hhost : t.hostOpen = s.hostOpen)
    (hchip : t.chipOpen = s.chipOpen) (hbounded : ∀ pc, t.pc = .calling pc → pc.Bounded cfg) :
    SocketInv cfg t where
  running := by rw [hclose, hrunning]; exact h.running
  driver := by rw [hclose, hdriver]; exact h.driver
  recv := by rw [hclose, hrecv]; exact h.recv
  host := by rw [hclose, hhost]; exact h.host
  chip := by rw [hclose, hchip]; exact h.chip
  joined hret := absurd (h.joined (hclose ▸ hret)) hpc
  bounded := hbounded

/-- A step of the call under way. -/
theorem call (h : SocketInv cfg s) {pc next : CallPc} (hpc : s.pc = .calling pc)
    (hnext : t.pc = .calling next) (hbounded : next.Bounded cfg) (hclose : t.closePc = s.closePc)
    (hrunning : t.threadRunning = s.threadRunning) (hdriver : t.driverState = s.driverState)
    (hrecv : t.recvLeft = s.recvLeft) (hhost : t.hostOpen = s.hostOpen)
    (hchip : t.chipOpen = s.chipOpen) : SocketInv cfg t := by
  refine h.thread (by simp [hpc]) hclose hrunning hdriver hrecv hhost hchip fun pc' hpc' => ?_
  obtain rfl := SocketPc.calling.inj (hnext.symm.trans hpc')
  exact hbounded

/-- A step of `scomm_vendor_port_close` from `p` to `q`: what holds at `q` held at `p`, or holds from here
on. -/
theorem close (h : SocketInv cfg s) {p q : SocketClosePc} (hp : s.closePc = p) (hq : t.closePc = q)
    (hrunning : q.left < 6 → p.left < 6 ∧ t.threadRunning = s.threadRunning ∨ t.threadRunning = false)
    (hdriver : q.left < 5 → p.left < 5 ∧ t.driverState = s.driverState ∨ t.driverState 0 = false)
    (hrecv : q.left < 4 → p.left < 4 ∧ t.recvLeft = s.recvLeft ∨ t.recvLeft = true)
    (hhost : q.left < 3 → p.left < 3 ∧ t.hostOpen = s.hostOpen ∨ t.hostOpen = false)
    (hchip : q.left < 2 → p.left < 2 ∧ t.chipOpen = s.chipOpen ∨ t.chipOpen = false)
    (hjoined : q = .returned → s.pc = .exited) (hpc : t.pc = s.pc) : SocketInv cfg t where
  running hlt := by
    rcases hrunning (hq ▸ hlt) with ⟨hlt', heq⟩ | hclear
    · exact heq.trans (h.running (hp ▸ hlt'))
    · exact hclear
  driver hlt := by
    rcases hdriver (hq ▸ hlt) with ⟨hlt', heq⟩ | hclear
    · exact (congrFun heq 0).trans (h.driver (hp ▸ hlt'))
    · exact hclear
  recv hlt := by
    rcases hrecv (hq ▸ hlt) with ⟨hlt', heq⟩ | hset
    · exact heq.trans (h.recv (hp ▸ hlt'))
    · exact hset
  host hlt := by
    rcases hhost (hq ▸ hlt) with ⟨hlt', heq⟩ | hclear
    · exact heq.trans (h.host (hp ▸ hlt'))
    · exact hclear
  chip hlt := by
    rcases hchip (hq ▸ hlt) with ⟨hlt', heq⟩ | hclear
    · exact heq.trans (h.chip (hp ▸ hlt'))
    · exact hclear
  joined hret := hpc.trans (hjoined (hq ▸ hret))
  bounded := by rw [hpc]; exact h.bounded

/-- **Step lemma.** -/
theorem step (h : SocketInv cfg s) (hstep : SocketStep cfg s e o t) : SocketInv cfg t := by
  cases hstep with
  | test hpc =>
    -- up to `epoll_wait()` the thread is in no call; only a readable socket begins one
    refine h.thread (by simp [hpc]) rfl rfl rfl rfl rfl rfl fun pc hnext => ?_
    dsimp only at hnext
    split at hnext <;> exact absurd hnext (by simp)
  | epollInterrupted hpc =>
    refine h.thread (by simp [hpc]) rfl rfl rfl rfl rfl rfl fun pc hnext => ?_
    dsimp only at hnext
    split at hnext <;> exact absurd hnext (by simp)
  | epoll ready hpc hready =>
    refine h.thread (by simp [hpc]) rfl rfl rfl rfl rfl rfl fun pc hnext => ?_
    dsimp only at hnext
    split at hnext
    · obtain rfl := (SocketPc.calling.inj hnext)
      trivial
    · exact absurd hnext (by simp)
  | read r hpc hcount hr =>
    exact h.call hpc rfl (@within_afterRead cfg s.driverState s.raw r _ _ (h.bounded _ hpc) hcount
      (readFit hr).1).bounded rfl rfl rfl rfl rfl rfl
  | testDriver hpc =>
    refine h.call hpc rfl ?_ rfl rfl rfl rfl rfl rfl
    split
    · next hcond => exact ⟨hcond.1, h.bounded _ hpc⟩
    · trivial
  | writeFailed hpc => exact h.call hpc rfl trivial rfl rfl rfl rfl rfl rfl
  | write hpc hk => exact h.call hpc rfl (h.bounded _ hpc).2 rfl rfl rfl rfl rfl rfl
  | ret hpc => exact h.thread (by simp [hpc]) rfl rfl rfl rfl rfl rfl (by simp)
  | hostWrite => exact ⟨h.running, h.driver, h.recv, h.host, h.chip, h.joined, h.bounded⟩
  | hostClose => exact ⟨h.running, h.driver, h.recv, fun _ => rfl, h.chip, h.joined, h.bounded⟩
  | recvLeave => exact ⟨h.running, h.driver, fun _ => rfl, h.host, h.chip, h.joined, h.bounded⟩
  | driver port up hup =>
    refine ⟨h.running, fun hlt => ?_, h.recv, h.host, h.chip, h.joined, h.bounded⟩
    show Function.update s.driverState port up 0 = false
    -- a port is opened only before `scomm_vendor_port_close` is entered
    by_cases hport : (0 : Port) = port
    · rw [← hport, Function.update_self]
      by_contra hne
      have hentered := hup (Bool.eq_true_of_not_eq_false hne)
      have hlt' : s.closePc.left < 5 := hlt
      rw [hentered] at hlt'
      exact absurd hlt' (by decide)
    · rw [Function.update_of_ne hport]
      exact h.driver hlt
  | closeCall hpc =>
    exact h.close (q := .stopping) hpc rfl (fun _ => .inr rfl) (fun hlt => absurd hlt (by decide))
      (fun hlt => absurd hlt (by decide)) (fun hlt => absurd hlt (by decide))
      (fun hlt => absurd hlt (by decide)) (by simp) rfl
  | clearDriver hpc =>
    exact h.close (q := .joiningRecv) hpc rfl (fun _ => .inl ⟨by decide, rfl⟩)
      (fun _ => .inr (Function.update_self (0 : Port) false s.driverState)) (fun hlt => absurd hlt (by decide))
      (fun hlt => absurd hlt (by decide)) (fun hlt => absurd hlt (by decide)) (by simp) rfl
  | recvJoined hpc hleft =>
    exact h.close (q := .closingHost) hpc rfl (fun _ => .inl ⟨by decide, rfl⟩)
      (fun _ => .inl ⟨by decide, rfl⟩) (fun _ => .inr hleft) (fun hlt => absurd hlt (by decide))
      (fun hlt => absurd hlt (by decide)) (by simp) rfl
  | closeHost hpc =>
    exact h.close (q := .closingChip) hpc rfl (fun _ => .inl ⟨by decide, rfl⟩)
      (fun _ => .inl ⟨by decide, rfl⟩) (fun _ => .inl ⟨by decide, rfl⟩) (fun _ => .inr rfl)
      (fun hlt => absurd hlt (by decide)) (by simp) rfl
  | closeChip hpc =>
    exact h.close (q := .joining) hpc rfl (fun _ => .inl ⟨by decide, rfl⟩)
      (fun _ => .inl ⟨by decide, rfl⟩) (fun _ => .inl ⟨by decide, rfl⟩) (fun _ => .inl ⟨by decide, rfl⟩)
      (fun _ => .inr rfl) (by simp) rfl
  | join hpc hexit =>
    exact h.close (q := .returned) hpc rfl (fun _ => .inl ⟨by decide, rfl⟩)
      (fun _ => .inl ⟨by decide, rfl⟩) (fun _ => .inl ⟨by decide, rfl⟩) (fun _ => .inl ⟨by decide, rfl⟩)
      (fun _ => .inl ⟨by decide, rfl⟩) (fun _ => hexit) rfl

end SocketInv

/-- A step of the thread or of `scomm_vendor_port_close` that brings it on; a `write()` takes something. -/
def SocketEvent.Advances (e : SocketEvent) : Prop :=
  e.steps = 1 ∧ e ≠ .write none ∧ e ≠ .write (some 0)

/-- **Nobody waits for ever.** Until `scomm_vendor_port_close` has returned, it or the thread can go on,
unless it waits for the receive thread. -/
theorem socketStep_progress (h : SocketInv cfg s) (hcall : s.closePc ≠ .entered)
    (hret : s.closePc ≠ .returned) (habort : s.pc ≠ .calling .aborted)
    (hrecv : s.closePc = .joiningRecv → s.recvLeft = true) :
    ∃ e o t, e.Advances ∧ SocketStep cfg s e o t := by
  cases hclose : s.closePc with
  | entered => exact absurd hclose hcall
  | stopping => exact ⟨.clearDriver, _, _, ⟨rfl, nofun, nofun⟩, .clearDriver hclose⟩
  | joiningRecv => exact ⟨.recvJoined, _, _, ⟨rfl, nofun, nofun⟩, .recvJoined hclose (hrecv hclose)⟩
  | closingHost => exact ⟨.closeHost, _, _, ⟨rfl, nofun, nofun⟩, .closeHost hclose⟩
  | closingChip => exact ⟨.closeChip, _, _, ⟨rfl, nofun, nofun⟩, .closeChip hclose⟩
  | returned => exact absurd hclose hret
  | joining =>
    -- both ends are closed, so that every read of the thread fails
    cases hpc : s.pc with
    | head => exact ⟨.test, _, _, ⟨rfl, nofun, nofun⟩, .test hpc⟩
    | waiting => exact ⟨.epoll false, _, _, ⟨rfl, nofun, nofun⟩, .epoll false hpc (by simp)⟩
    | exited => exact ⟨.join, _, _, ⟨rfl, nofun, nofun⟩, .join hclose hpc⟩
    | calling pc =>
      cases pc with
      | type => exact ⟨.read none, _, _, ⟨rfl, nofun, nofun⟩, .read none hpc rfl trivial⟩
      | header need k => exact ⟨.read none, _, _, ⟨rfl, nofun, nofun⟩, .read none hpc rfl trivial⟩
      | payload offset need k => exact ⟨.read none, _, _, ⟨rfl, nofun, nofun⟩, .read none hpc rfl trivial⟩
      | testing port transmitted length =>
        exact ⟨.testDriver, _, _, ⟨rfl, nofun, nofun⟩, .testDriver hpc⟩
      | writing port transmitted length =>
        have hpos := (h.bounded _ hpc).1
        refine ⟨.write (some length), _, _, ⟨rfl, nofun, fun heq => ?_⟩, .write hpc (Nat.le_refl _)⟩
        rw [Option.some.inj (SocketEvent.write.inj heq)] at hpos
        exact Nat.lt_irrefl 0 hpos
      | returned => exact ⟨.ret, _, _, ⟨rfl, nofun, nofun⟩, .ret hpc⟩
      | aborted => exact absurd hpc habort

/-- **Run lemma.** -/
theorem socketInv_of_run (run : SocketRun cfg raw driverState es os s) : SocketInv cfg s :=
  run.invariant (I := fun _ _ s => SocketInv cfg s) socketInv_start
    fun _ _ _ _ _ _ _ h hstep => h.step hstep

end Invariant

/-! ## Each step brings the two on -/

section Lower

variable {cfg : RawConfig} {s t : SocketLink} {e : SocketEvent} {o : List RawEvent}

theorem SocketEvent.steps_le (e : SocketEvent) : e.steps ≤ 1 := by
  cases e with
  | read r =>
    rw [SocketEvent.steps]
    split <;> decide
  | hostWrite | hostClose | driver | recvLeave => exact Nat.zero_le 1
  | _ => exact Nat.le_refl 1

/-- A step of the thread. -/
theorem left_thread_le (hclose : t.closePc = s.closePc)
    (hle : e.steps + t.pc.left t.driverState ≤ s.pc.left s.driverState) : e.steps + t.left ≤ s.left := by
  rw [SocketLink.left, SocketLink.left, hclose]
  omega

/-- A step of the thread from one place to another. -/
theorem left_goto_le {p q : SocketPc} (hclose : t.closePc = s.closePc) (hp : s.pc = p) (hq : t.pc = q)
    (hlt : q.left t.driverState < p.left s.driverState) : e.steps + t.left ≤ s.left := by
  have he := e.steps_le
  refine left_thread_le hclose ?_
  rw [hp, hq]
  omega

/-- A step of `scomm_vendor_port_close` from `p` to `q`. -/
theorem left_close_le {p q : SocketClosePc} (hp : s.closePc = p) (hq : t.closePc = q)
    (hlt : q.left < p.left) (hpc : t.pc = s.pc) (hdriver : t.driverState = s.driverState) :
    e.steps + t.left ≤ s.left := by
  have he := e.steps_le
  rw [SocketLink.left, SocketLink.left, hp, hq, hpc, hdriver]
  omega

theorem testLeft_pos (up : Bool) (length : ℕ) : 3 ≤ testLeft up length := by
  rw [testLeft]
  split
  · exact Nat.le_add_left _ _
  · exact Nat.le_refl 3

/-- A port that is cleared leaves no more to do than before. -/
theorem left_clear_le (pc : SocketPc) (driverState : Port → Bool) (port : Port) :
    pc.left (Function.update driverState port false) ≤ pc.left driverState := by
  cases pc with
  | calling pc =>
    cases pc with
    | testing q transmitted length =>
      show testLeft (Function.update driverState port false q) length ≤ testLeft (driverState q) length
      by_cases hq : q = port
      · rw [hq, Function.update_self, testLeft, if_neg Bool.false_ne_true]
        exact testLeft_pos _ _
      · rw [Function.update_of_ne hq]
    | _ => exact Nat.le_refl _
  | _ => exact Nat.le_refl _

/-- Without SDIO everything is sent to port 0. -/
theorem sendPort_eq_zero (hsdio : cfg.skwbtTranstype &&& skwbtTransTypeSdio = 0) (pktType : UInt8) :
    sendPort cfg pktType = 0 := by
  rw [sendPort, if_neg (not_not.mpr hsdio)]
  rfl

/-- **Step lemma.** Once `driver_state` of port 0 is cleared, every step of the thread or of
`scomm_vendor_port_close` brings it on, but for a read at the end of the file, and for a `write()` that
takes nothing, which the thread makes again if its port is another. -/
theorem SocketStep.lower (hstep : SocketStep cfg s e o t) (h : SocketInv cfg s)
    (hcall : s.closePc.left < 5)
    (hzero : e = .write (some 0) → cfg.skwbtTranstype &&& skwbtTransTypeSdio = 0) :
    e.steps + t.left ≤ s.left := by
  have hrunning : ¬ s.threadRunning = true := by
    rw [h.running (by omega)]
    exact Bool.false_ne_true
  cases hstep with
  | test hpc => exact left_goto_le (q := .exited) rfl hpc (if_neg hrunning) Nat.one_pos
  | epollInterrupted hpc =>
    exact left_goto_le (q := .head) rfl hpc (if_neg hrunning) (by decide : 1 < headerLeft + 2)
  | epoll ready hpc _ =>
    cases ready with
    | false => exact left_goto_le (q := .head) rfl hpc rfl (by decide : 1 < headerLeft + 2)
    | true => exact left_goto_le (q := .calling .type) rfl hpc rfl (Nat.lt_succ_self _)
  | read r hpc hcount hr =>
    -- a read takes its bytes off what the call has left
    have hleft := (@within_afterRead cfg s.driverState s.raw r _ _ (h.bounded _ hpc) hcount
      (readFit hr).1).left
    refine left_thread_le rfl ?_
    rw [hpc]
    show SocketEvent.steps (.read r) + CallPc.left s.driverState _ ≤ CallPc.left s.driverState _
    rw [SocketEvent.steps]
    split at hleft
    · next hnil => rw [if_pos hnil]; omega
    · next hnil => rw [if_neg hnil]; omega
  | @testDriver port transmitted length hpc =>
    by_cases hcond : 0 < length ∧ s.driverState port = true
    · refine left_goto_le rfl hpc (congrArg SocketPc.calling (if_pos hcond)) ?_
      show 2 * length + 2 < testLeft (s.driverState port) length
      rw [testLeft, if_pos hcond.2]
      omega
    · refine left_goto_le rfl hpc (congrArg SocketPc.calling (if_neg hcond)) ?_
      exact Nat.lt_of_lt_of_le (by decide : 2 < 3) (testLeft_pos _ _)
  | @writeFailed port transmitted length hpc =>
    have hpos := (h.bounded _ hpc).1
    refine left_goto_le rfl hpc rfl ?_
    show 2 < 2 * length + 2
    omega
  | @write port transmitted length k hpc hk =>
    obtain ⟨hpos, pktType, hport⟩ := h.bounded _ hpc
    refine left_goto_le rfl hpc rfl ?_
    show testLeft (s.driverState port) (length - k) < 2 * length + 2
    by_cases hk0 : k = 0
    · -- the port is port 0, which is closed
      subst hk0
      rw [hport, sendPort_eq_zero (hzero rfl), h.driver hcall, testLeft, if_neg Bool.false_ne_true]
      omega
    · rw [testLeft]
      split <;> omega
  | ret hpc => exact left_goto_le (q := .head) rfl hpc rfl (Nat.lt_succ_self 1)
  | hostWrite | hostClose | recvLeave => exact Nat.le_of_eq (Nat.zero_add _)
  | driver port up hup =>
    cases up with
    | true =>
      rw [hup rfl] at hcall
      exact absurd hcall (by decide)
    | false => exact left_thread_le rfl ((Nat.zero_add _).trans_le (left_clear_le _ _ _))
  | closeCall hpc =>
    rw [hpc] at hcall
    exact absurd hcall (by decide)
  | clearDriver hpc =>
    rw [hpc] at hcall
    exact absurd hcall (by decide)
  | recvJoined hpc _ => exact left_close_le (q := .closingHost) hpc rfl (by decide) rfl rfl
  | closeHost hpc => exact left_close_le (q := .closingChip) hpc rfl (by decide) rfl rfl
  | closeChip hpc => exact left_close_le (q := .joining) hpc rfl (by decide) rfl rfl
  | join hpc _ => exact left_close_le (q := .returned) hpc rfl (by decide) rfl rfl

/-- `scomm_vendor_port_close` goes on only. -/
theorem SocketStep.closePc_left_le (hstep : SocketStep cfg s e o t) : t.closePc.left ≤ s.closePc.left := by
  cases hstep with
  | closeCall hpc | clearDriver hpc | recvJoined hpc _ | closeHost hpc | closeChip hpc | join hpc _ =>
    rw [hpc]
    exact Nat.le_succ _
  | _ => exact Nat.le_refl _

/-- **Step lemma.** Once `thread_running` is cleared the thread takes one more packet at most. -/
theorem SocketStep.captured_le (hstep : SocketStep cfg s e o t) (h : SocketInv cfg s)
    (hcall : s.closePc.left < 5) : (captured o).length + t.pc.packetsLeft ≤ s.pc.packetsLeft := by
  have hrunning : ¬ s.threadRunning = true := by
    rw [h.running (by omega)]
    exact Bool.false_ne_true
  cases hstep with
  | test hpc =>
    rw [if_neg hrunning]
    exact Nat.zero_le _
  | epollInterrupted hpc =>
    rw [if_neg hrunning]
    exact Nat.zero_le _
  | epoll ready hpc _ =>
    rw [hpc]
    cases ready with
    | false => exact Nat.zero_le _
    | true => exact Nat.le_refl 1
  | @read pc count r hpc hcount hr =>
    have hcap := (@within_afterRead cfg s.driverState s.raw r _ _ (h.bounded _ hpc) hcount
      (readFit hr).1).captured
    have hone : (SocketPc.calling pc).packetsLeft = 1 := by
      cases pc with
      | type | header | payload => rfl
      | testing | writing | returned | aborted => exact absurd hcount (by simp [CallPc.count])
    rw [hpc, hone]
    exact hcap
  | testDriver hpc =>
    rw [hpc]
    split <;> exact Nat.zero_le _
  | writeFailed hpc | write hpc _ | ret hpc => exact Nat.zero_le _
  | _ => exact (Nat.zero_add _).le

end Lower

/-! ## Every run -/

section Runs

variable {cfg : RawConfig} {raw : RawState} {driverState : Port → Bool} {es es' : List SocketEvent}
  {s t : SocketLink} {os os' : List RawEvent}

/-- `driver_state` of port 0 has been cleared. -/
structure SocketStopped (cfg : RawConfig) (s : SocketLink) : Prop extends SocketInv cfg s where
  called : s.closePc.left < 5

theorem SocketStopped.step {e : SocketEvent} {o : List RawEvent} (h : SocketStopped cfg s)
    (hstep : SocketStep cfg s e o t) : SocketStopped cfg t where
  toSocketInv := h.toSocketInv.step hstep
  called := hstep.closePc_left_le.trans_lt h.called

/-- **Run lemma.** However the two go on, the thread takes one more packet at most. -/
theorem captured_of_stopped (h : SocketStopped cfg s) (run : Execution (SocketStep cfg) s es os t) :
    (captured os).length ≤ 1 := by
  have hrun : SocketStopped cfg t ∧ (captured os).length + t.pc.packetsLeft ≤ s.pc.packetsLeft := by
    refine run.invariant (I := fun _ os t => SocketStopped cfg t ∧
      (captured os).length + t.pc.packetsLeft ≤ s.pc.packetsLeft) ⟨h, (Nat.zero_add _).le⟩ ?_
    rintro es os t e o u - ⟨ht, hle⟩ hstep
    refine ⟨ht.step hstep, ?_⟩
    have hcap := hstep.captured_le ht.toSocketInv ht.called
    rw [captured_append, List.length_append]
    omega
  have hone : s.pc.packetsLeft ≤ 1 := by
    rw [SocketPc.packetsLeft.eq_def]
    split <;> decide
  omega

/-- **Run lemma.** Once `uart_fd[1]` is closed, no read is at the end of the file. -/
theorem no_eof_of_joining (h : SocketStopped cfg s) (hchip : s.closePc.left < 2)
    (run : Execution (SocketStep cfg) s es os t) : .read (some []) ∉ es := by
  have hrun : SocketStopped cfg t ∧ t.closePc.left < 2 ∧ .read (some []) ∉ es := by
    refine run.invariant (I := fun es _ t => SocketStopped cfg t ∧ t.closePc.left < 2 ∧
      .read (some []) ∉ es) ⟨h, hchip, List.not_mem_nil⟩ ?_
    rintro es os t e o u - ⟨ht, hlt, hnot⟩ hstep
    refine ⟨ht.step hstep, hstep.closePc_left_le.trans_lt hlt, fun hmem => ?_⟩
    rcases List.mem_append.mp hmem with hmem | hmem
    · exact hnot hmem
    · obtain rfl := List.mem_singleton.mp hmem
      cases hstep with
      | read r hpc hcount hr =>
        have hopen := hr.1
        rw [ht.chip hlt] at hopen
        exact absurd hopen Bool.false_ne_true
  exact hrun.2.2

/-- **Closing port 0 ends the socket thread.** In every interleaving of the thread with the host, the other
threads and `scomm_vendor_port_close`, from the moment `driver_state` is cleared: as long as `port_close`
has not returned, it or the thread can go on, once the receive thread has left if it is that for which
`port_close` waits, and unless a packet of no accepted type has aborted the process; the two make at most `left` steps more, reads at the end of the file aside, provided that everything is
sent to port 0 or no `write()` takes nothing; the thread takes one more packet at most, and reads no end of
file any more once `uart_fd[1]` is closed; and when `port_close` has returned, both threads have left and
nothing of the socket is open. -/
theorem socket_close_returns (run : SocketRun cfg raw driverState es os s) (hcall : s.closePc.left < 5) :
    (s.closePc ≠ .returned → s.pc ≠ .calling .aborted →
      (s.closePc = .joiningRecv → s.recvLeft = true) →
      ∃ e o t, e.Advances ∧ SocketStep cfg s e o t) ∧
    (∀ es' os' t, Execution (SocketStep cfg) s es' os' t →
      (cfg.skwbtTranstype &&& skwbtTransTypeSdio = 0 ∨ .write (some 0) ∉ es' →
        (es'.map SocketEvent.steps).sum + t.left ≤ s.left) ∧
      (captured os').length ≤ 1 ∧ (s.closePc = .joining → .read (some []) ∉ es')) ∧
    (s.closePc = .returned → s.pc = .exited ∧ s.recvLeft = true ∧ s.threadRunning = false ∧
      s.driverState 0 = false ∧ s.hostOpen = false ∧ s.chipOpen = false) := by
  have hinv := socketInv_of_run run
  have hstopped : SocketStopped cfg s := ⟨hinv, hcall⟩
  refine ⟨fun hret habort hrecv => ?_, fun es' os' t run' => ⟨fun hzero => ?_, ?_, fun hjoin => ?_⟩,
    fun hret => ?_⟩
  · refine socketStep_progress hinv (fun hentered => ?_) hret habort hrecv
    rw [hentered] at hcall
    exact absurd hcall (by decide)
  · refine (run'.budget (J := SocketStopped cfg)
      (A := fun e => e = .write (some 0) → cfg.skwbtTranstype &&& skwbtTransTypeSdio = 0)
      hstopped (fun _ _ _ _ h _ hstep => h.step hstep)
      (fun _ _ _ _ h he hstep => hstep.lower h.toSocketInv h.called he) fun e he hwrite => ?_).2
    rcases hzero with hsdio | hnone
    · exact hsdio
    · exact absurd (hwrite ▸ he) hnone
  · exact captured_of_stopped hstopped run'
  · exact no_eof_of_joining hstopped (by rw [hjoin]; decide) run'
  · have hleft : s.closePc.left = 0 := by
      rw [hret]
      rfl
    exact ⟨hinv.joined hret, hinv.recv (by omega), hinv.running (by omega), hinv.driver (by omega),
      hinv.host (by omega), hinv.chip (by omega)⟩

end Runs

/-- The host has written the type of a command and nothing behind it when port 0 is closed; the receive
thread has left. -/
def bareCommand : List SocketEvent :=
  [.hostWrite [0x01], .test, .epoll true, .read (some [0x01]), .closeCall, .clearDriver, .recvLeave]

theorem socket_close_returns_bareCommand : ∃ s,
    SocketRun uartConfig RawState.init (fun _ => true) bareCommand [] s ∧
      (s.closePc ≠ .returned → s.pc ≠ .calling .aborted →
        (s.closePc = .joiningRecv → s.recvLeft = true) →
        ∃ e o t, e.Advances ∧ SocketStep uartConfig s e o t) ∧
      ∀ es os t, Execution (SocketStep uartConfig) s es os t →
        (es.map SocketEvent.steps).sum + t.left ≤ s.left := by
  have h₁ : SocketRun uartConfig RawState.init (fun _ => true) [.hostWrite [0x01]] [] _ :=
    Execution.start.snoc (.hostWrite _ rfl)
  have h₂ := (h₁.snoc (.test rfl)).snoc (.epoll true rfl fun _ => ⟨rfl, .inl (by decide)⟩)
  have h₃ := h₂.snoc (@SocketStep.read _ _ _ 1 (some [0x01]) rfl rfl
    ⟨rfl, Nat.le_refl 1, by decide, fun hnil => absurd hnil (by decide)⟩)
  have h₄ := ((h₃.snoc (.closeCall rfl)).snoc (.clearDriver rfl)).snoc .recvLeave
  obtain ⟨hprogress, hbound, -⟩ := socket_close_returns h₄ (by decide)
  exact ⟨_, h₄, hprogress, fun es os t run => (hbound es os t run).1 (.inl (by decide))⟩

/-! ## A device that takes nothing -/

section Held

variable {cfg : RawConfig} {s s₀ : SocketLink} {es : List SocketEvent} {os : List RawEvent} {port : Port}
  {transmitted length : ℕ}

/-- The thread goes round its loop of writes, and nothing has changed. -/
theorem held_round (run : Execution (SocketStep cfg) s₀ es os s)
    (hpc : s.pc = .calling (.testing port transmitted length)) (hlength : 0 < length)
    (hup : s.driverState port = true) (htransmitted : transmitted < 65536) :
    ∃ os', Execution (SocketStep cfg) s₀ (es ++ [.testDriver] ++ [.write (some 0)]) os' s := by
  have h₁ := run.snoc (.testDriver hpc)
  rw [if_pos ⟨hlength, hup⟩] at h₁
  have h₂ := h₁.snoc (.write (k := 0) rfl (Nat.zero_le _))
  have hback : SocketPc.calling (.testing port ((transmitted + 0) % 65536) (length - 0)) = s.pc := by
    rw [hpc, Nat.add_zero, Nat.mod_eq_of_lt htransmitted, Nat.sub_zero]
  dsimp only at h₂
  rw [hback] at h₂
  exact ⟨_, h₂⟩

/-- **What closing port 0 can wait for.** As long as `driver_state` of the port that the thread writes to is
set, a device that takes nothing keeps the thread in its loop for as many rounds as there are, wherever
`scomm_vendor_port_close` stands. -/
theorem socket_close_held (run : Execution (SocketStep cfg) s₀ es os s)
    (hpc : s.pc = .calling (.testing port transmitted length)) (hlength : 0 < length)
    (hup : s.driverState port = true) (htransmitted : transmitted < 65536) (n : ℕ) :
    ∃ es' os', es'.length = 2 * n ∧ Execution (SocketStep cfg) s₀ (es ++ es') os' s := by
  induction n with
  | zero => exact ⟨[], os, rfl, by rwa [List.append_nil]⟩
  | succ n ih =>
    obtain ⟨es', os', hlen, run'⟩ := ih
    obtain ⟨os'', run''⟩ := held_round run' hpc hlength hup htransmitted
    refine ⟨es' ++ [.testDriver] ++ [.write (some 0)], os'', ?_, ?_⟩
    · rw [List.length_append, List.length_append, hlen]
      exact (Nat.mul_succ 2 n).symm
    · rwa [← List.append_assoc, ← List.append_assoc]

end Held

end Seekwave
