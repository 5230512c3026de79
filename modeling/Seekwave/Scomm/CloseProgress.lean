import Seekwave.Scomm.CloseSignal
import Seekwave.Scomm.ParseLoop

/-!
# When `scomm_vendor_port_close` returns

The close byte wakes nobody (`Scomm.CloseSignal`), and yet the receive thread comes to its end: `poll()` has
a timeout, and behind it the thread gets to the test of `thread_running`. While `port_close` waits, for
`is_busying` or in `pthread_join()`, the thread can always go on (`CloseInv.progress`), unless a call of
`scomm_vendor_send_to_host` keeps it, and each step of either lowers what is left (`CloseStep.lower`), as
long as the parse loop over what has been read ends. Where it does not, neither `thread_running` nor the
close byte stops it, and `port_close` never returns (`CloseStep.unending`).
-/

open Memory

namespace Seekwave

/-! ## Steps that bring one of the two on -/

/-- The thread is in a call of `scomm_vendor_send_to_host`. -/
def CloseLink.InHost (s : CloseLink) : Prop := ∃ work next, s.loopPc = .sending work next

/-- A step that brings the thread or `port_close` on, and that needs no call of
`scomm_vendor_send_to_host` to return. -/
def CloseEvent.Advances (e : CloseEvent) : Prop :=
  e ≠ .writeInterrupted ∧ e ≠ .sendGoesOn ∧ e ≠ .sent

theorem handNext_ne_exited (d : Delivery) (work : List Delivery) (next : Onward) :
    handNext d work next ≠ .exited := by
  cases d <;> exact nofun

/-! ## What the two have agreed on -/

/-- What holds of the port by the place where `scomm_vendor_port_close` and the thread stand. -/
structure CloseInv (s : CloseLink) : Prop where
  idle : s.loopPc = .exited → s.isBusying = false
  running : s.closePc ≠ .entered → s.threadRunning = false
  driver : s.closePc ≠ .entered → s.closePc ≠ .stopping → s.driverState = false
  fd : s.closePc = .joining ∨ s.closePc = .returned → s.fdOpen = false
  joined : s.closePc = .returned → s.loopPc = .exited

namespace CloseInv

variable {i : Port} {s t : CloseLink}

/-- A step of the thread. It leaves `thread_running` alone, and opens nothing. -/
theorem thread (h : CloseInv s) (hpc : s.loopPc ≠ .exited) (hclose : t.closePc = s.closePc)
    (hrunning : t.threadRunning = s.threadRunning) (hidle : t.loopPc = .exited → t.isBusying = false)
    (hdriver : s.driverState = false → t.driverState = false)
    (hfd : s.fdOpen = false → t.fdOpen = false) : CloseInv t where
  idle := hidle
  running hne := by rw [hrunning]; exact h.running (hclose ▸ hne)
  driver hne hne' := hdriver (h.driver (hclose ▸ hne) (hclose ▸ hne'))
  fd hjoin := hfd (h.fd (hclose ▸ hjoin))
  joined hret := absurd (h.joined (hclose ▸ hret)) hpc

/-- **Step lemma.** -/
theorem step (h : CloseInv s) {e : CloseEvent} {os : List CloseObs} (hstep : CloseStep i s e os t) :
    CloseInv t := by
  cases hstep with
  | test hpc =>
    have hne : s.loopPc ≠ .exited := by simp [hpc]
    split
    · exact h.thread hne rfl rfl (by simp) id id
    · exact h.thread hne rfl rfl (fun _ => rfl) id id
  | pollInterrupted hpc =>
    refine h.thread (by simp [hpc]) rfl rfl (fun hexit => ?_) id id
    dsimp only at hexit
    split at hexit
    · exact absurd hexit (by simp)
    · exact absurd hexit (by simp)
  | poll port hpc => exact h.thread (by simp [hpc]) rfl rfl (by simp) id id
  | handle hpc =>
    have hne : s.loopPc ≠ .exited := by simp [hpc]
    -- the signal and a hang-up of the port lead out of the loop
    rw [handlePoll]
    split
    · exact h.thread hne rfl rfl (fun _ => rfl) id id
    · split
      · exact h.thread hne rfl rfl (by simp) id id
      · split
        · exact h.thread hne rfl rfl (fun _ => rfl) (fun _ => rfl) fun _ => rfl
        · exact h.thread hne rfl rfl (by simp) id id
  | readZero hpc =>
    have hne : s.loopPc ≠ .exited := by simp [hpc]
    split
    · exact h.thread hne rfl rfl (by simp) id id
    · exact h.thread hne rfl rfl (fun _ => rfl) id id
  | readFailed hpc | read hpc _ _ | parse hpc | sent hpc =>
    exact h.thread (by simp [hpc]) rfl rfl (by simp) id id
  | hand hpc =>
    exact h.thread (by simp [hpc]) rfl rfl (fun hexit => absurd hexit (handNext_ne_exited _ _ _)) id id
  | sendGoesOn _ => exact h
  | @onward next hpc =>
    have hne : s.loopPc ≠ .exited := by simp [hpc]
    cases next with
    | parse | head => exact h.thread hne rfl rfl (by simp [goOnward]) id id
    | exit => exact h.thread hne rfl rfl (fun _ => rfl) id id
  | closeCall _ => exact ⟨h.idle, fun _ => rfl, fun _ hne => absurd rfl hne, by simp, by simp⟩
  | clearDriver hpc =>
    exact ⟨h.idle, fun _ => h.running (by simp [hpc]), fun _ _ => rfl, by simp, by simp⟩
  | notBusy hpc _ | writeFailed hpc | write hpc =>
    exact ⟨h.idle, fun _ => h.running (by simp [hpc]), fun _ _ => h.driver (by simp [hpc]) (by simp [hpc]),
      by simp, by simp⟩
  | writeInterrupted _ => exact h
  | closeFd hpc =>
    exact ⟨h.idle, fun _ => h.running (by simp [hpc]), fun _ _ => h.driver (by simp [hpc]) (by simp [hpc]),
      fun _ => rfl, by simp⟩
  | join hpc hexit =>
    exact ⟨h.idle, fun _ => h.running (by simp [hpc]), fun _ _ => h.driver (by simp [hpc]) (by simp [hpc]),
      fun _ => h.fd (.inl hpc), fun _ => hexit⟩

/-- **The thread can go on** until it has left its loop. -/
theorem thread_progress (i : Port) (s : CloseLink) (hloop : s.loopPc ≠ .exited) (hhost : ¬ s.InHost) :
    ∃ e os t, e.Advances ∧ CloseStep i s e os t := by
  cases hpc : s.loopPc with
  | head => exact ⟨.test, _, _, ⟨nofun, nofun, nofun⟩, .test hpc⟩
  | polling => exact ⟨.poll ⟨false, false⟩, _, _, ⟨nofun, nofun, nofun⟩, .poll _ hpc⟩
  | polled => exact ⟨.handle, _, _, ⟨nofun, nofun, nofun⟩, .handle hpc⟩
  | reading => exact ⟨.read .zero, _, _, ⟨nofun, nofun, nofun⟩, .readZero hpc⟩
  | parsing st => exact ⟨.parse, _, _, ⟨nofun, nofun, nofun⟩, .parse hpc⟩
  | handing work next =>
    cases work with
    | nil => exact ⟨.onward, _, _, ⟨nofun, nofun, nofun⟩, .onward hpc⟩
    | cons d work => exact ⟨.hand, _, _, ⟨nofun, nofun, nofun⟩, .hand hpc⟩
  | sending work next => exact absurd ⟨work, next, hpc⟩ hhost
  | exited => exact absurd hpc hloop

/-- **Nobody waits for ever.** Until `port_close` has returned, it or the thread can go on, unless the
thread is in a call of `scomm_vendor_send_to_host`. -/
theorem progress (h : CloseInv s) (hret : s.closePc ≠ .returned) (hhost : ¬ s.InHost) :
    ∃ e os t, e.Advances ∧ CloseStep i s e os t := by
  by_cases hloop : s.loopPc = .exited
  · -- the thread is not busy any more, and can be joined
    cases hpc : s.closePc with
    | entered => exact ⟨.closeCall, _, _, ⟨nofun, nofun, nofun⟩, .closeCall hpc⟩
    | stopping => exact ⟨.clearDriver, _, _, ⟨nofun, nofun, nofun⟩, .clearDriver hpc⟩
    | waiting => exact ⟨.notBusy, _, _, ⟨nofun, nofun, nofun⟩, .notBusy hpc (h.idle hloop)⟩
    | signalling => exact ⟨.write, _, _, ⟨nofun, nofun, nofun⟩, .write hpc⟩
    | closing => exact ⟨.closeFd, _, _, ⟨nofun, nofun, nofun⟩, .closeFd hpc⟩
    | joining => exact ⟨.join, _, _, ⟨nofun, nofun, nofun⟩, .join hpc hloop⟩
    | returned => exact absurd hpc hret
  · exact thread_progress i s hloop hhost

end CloseInv

/-- The steps of `port_close` to its end. -/
def ClosePc.left : ClosePc → ℕ
  | .entered => 6
  | .stopping => 5
  | .waiting => 4
  | .signalling => 3
  | .closing => 2
  | .joining => 1
  | .returned => 0

/-- The turns of the outer loop that are left to the thread, once `thread_running` is cleared, step by
step; handing on what has been read is none of them. -/
def LoopPc.turnsLeft : LoopPc → ℕ
  | .polling => 4
  | .polled => 3
  | .reading => 2
  | .head | .parsing _ | .handing _ _ | .sending _ _ => 1
  | .exited => 0

/-- What it takes to hand something on. -/
def handLeft : Delivery → ℕ
  | .scommVendorSendToHost _ _ => 2
  | _ => 1

/-- The steps of the thread to its end from where it goes on. A pass of the parse loop takes five, and a
loop that ends has no more passes than there are bytes. -/
def Onward.left : Onward → ℕ
  | .parse st => 5 * st.revLen + 6
  | .head _ => 1
  | .exit => 0

/-- The steps of the thread to its end, once `thread_running` is cleared, where its parse loop ends. -/
def LoopPc.left : LoopPc → ℕ
  | .polling => 5 * readBufferSize + 9
  | .polled => 5 * readBufferSize + 8
  | .reading => 5 * readBufferSize + 7
  | .parsing st => 5 * st.revLen + 6
  | .handing work next => (work.map handLeft).sum + 1 + next.left
  | .sending work next => (work.map handLeft).sum + 2 + next.left
  | .head => 1
  | .exited => 0

namespace CloseLink

variable (s : CloseLink)

/-- What is left of both, apart from handing on. -/
def turnsLeft : ℕ := s.closePc.left + s.loopPc.turnsLeft

/-- What is left of both. -/
def left : ℕ := s.closePc.left + s.loopPc.left

end CloseLink

/-- An interrupted `write()` is made again, and how often `scomm_vendor_send_to_host` goes round is not for
this thread to say. -/
def CloseEvent.steps : CloseEvent → ℕ
  | .writeInterrupted | .sendGoesOn => 0
  | _ => 1

/-- The reads of the port. -/
def CloseEvent.reads : CloseEvent → ℕ
  | .read _ => 1
  | _ => 0

/-- `thread_running` has been cleared. -/
structure Stopped (s : CloseLink) : Prop extends CloseInv s where
  called : s.closePc ≠ .entered

section Lower

variable {i : Port} {s t : CloseLink} {e : CloseEvent} {os : List CloseObs}

/-- Where the thread goes from the end of `poll()`. -/
theorem handlePoll_goes (s : CloseLink) : ∃ next : LoopPc, (handlePoll s).1.loopPc = next ∧
    (handlePoll s).1.closePc = s.closePc ∧ next.turnsLeft ≤ 2 ∧ next.left < LoopPc.polled.left := by
  rw [handlePoll]
  split
  · exact ⟨.exited, rfl, rfl, by decide, by decide⟩
  · split
    · exact ⟨.reading, rfl, rfl, by decide, by decide⟩
    · split
      · exact ⟨.exited, rfl, rfl, by decide, by decide⟩
      · exact ⟨.head, rfl, rfl, by decide, by decide⟩

/-- Where the thread goes with nothing left to hand on. -/
theorem goOnward_goes (s : CloseLink) (next : Onward) : ∃ pc : LoopPc, (goOnward s next).loopPc = pc ∧
    (goOnward s next).closePc = s.closePc ∧ pc.turnsLeft ≤ 1 ∧ pc.left = next.left := by
  cases next with
  | parse st => exact ⟨.parsing st, rfl, rfl, Nat.le_refl 1, rfl⟩
  | head recv => exact ⟨.head, rfl, rfl, Nat.le_refl 1, rfl⟩
  | exit => exact ⟨.exited, rfl, rfl, Nat.zero_le 1, rfl⟩

theorem handNext_goes (d : Delivery) (work : List Delivery) (next : Onward) :
    (handNext d work next).turnsLeft = 1 ∧
      (handNext d work next).left < (LoopPc.handing (d :: work) next).left := by
  cases d with
  | scommVendorSendToHost n buffer =>
    refine ⟨rfl, ?_⟩
    simp only [handNext, LoopPc.left, List.map_cons, List.sum_cons, handLeft]
    omega
  | _ =>
    refine ⟨rfl, ?_⟩
    simp only [handNext, LoopPc.left, List.map_cons, List.sum_cons, handLeft]
    omega

theorem Stopped.step (h : Stopped s) (hstep : CloseStep i s e os t) : Stopped t where
  toCloseInv := h.toCloseInv.step hstep
  called := by
    cases hstep with
    | test _ | readZero _ => split <;> exact h.called
    | handle _ =>
      obtain ⟨-, -, hclose, -⟩ := handlePoll_goes s
      rw [hclose]
      exact h.called
    | @onward next _ =>
      obtain ⟨-, -, hclose, -⟩ := goOnward_goes s next
      rw [hclose]
      exact h.called
    | pollInterrupted _ | poll _ _ | readFailed _ | read _ _ _ | parse _ | hand _ | sendGoesOn _
    | sent _ | writeInterrupted _ => exact h.called
    | _ => simp

/-! ### Apart from handing on -/

/-- The parse loop that the thread goes on with ends. -/
def Onward.Ends : Onward → Prop
  | .parse st => ∃ st', Loop.Returns parseBody st st'
  | _ => True

/-- The parse loop that the thread is in ends. -/
def LoopPc.Ends : LoopPc → Prop
  | .parsing st => ∃ st', Loop.Returns parseBody st st'
  | .handing _ next | .sending _ next => next.Ends
  | _ => True

/-- What a pass hands on is an event, a capture and a packet at most. -/
theorem handLeft_passWork (st : Parse) : ((passWork st).map handLeft).sum ≤ 3 := by
  have hcase {u : Parse} (h : parseBody st = .inl u ∨ parseBody st = .inr u) :
      ((u.out.drop st.out.length).map handLeft).sum ≤ 3 := by
    rcases parseBody_cases h with hhands | hout | ⟨bs, hout⟩
    · rw [hhands.out, List.drop_left, deliveries]
      split
      · exact (by decide : 1 ≤ 3)
      · exact Nat.le_refl 3
    · rw [hout, List.drop_length]
      exact Nat.zero_le 3
    · rw [hout, List.drop_left]
      exact (by decide : 1 ≤ 3)
  rw [passWork]
  cases h : parseBody st with
  | inl u => exact hcase (.inl h)
  | inr u => exact hcase (.inr h)

/-- A pass of a parse loop that ends leaves less to do. -/
theorem left_parse {st : Parse} (hends : ∃ st', Loop.Returns parseBody st st') :
    (LoopPc.handing (passWork st) (passNext st)).left < (LoopPc.parsing st).left := by
  obtain ⟨st', hret⟩ := hends
  have hwork := handLeft_passWork st
  have hnext : (passNext st).left ≤ 5 * st.revLen + 1 := by
    rw [passNext]
    cases h : parseBody st with
    | inl u =>
      have hlt := revLen_lt_of_returns hret h
      show 5 * u.revLen + 6 ≤ _
      omega
    | inr u => exact Nat.le_add_left _ _
  simp only [LoopPc.left]
  omega

theorem CloseEvent.steps_le (e : CloseEvent) : e.steps ≤ 1 := by
  rw [CloseEvent.steps.eq_def]
  split <;> decide

/-- A step of the thread from `p` towards its end. -/
theorem left_thread {p q : LoopPc} (hpc : s.loopPc = p) (hnext : t.loopPc = q)
    (hclose : t.closePc = s.closePc) (hlt : q.left < p.left) : e.steps + t.left ≤ s.left := by
  have he := e.steps_le
  rw [CloseLink.left, CloseLink.left, hclose, hpc, hnext]
  omega

/-- A step of `port_close` from `p` towards its end. -/
theorem left_close {p q : ClosePc} (hpc : s.closePc = p) (hnext : t.closePc = q)
    (hloop : t.loopPc = s.loopPc) (hlt : q.left < p.left) : e.steps + t.left ≤ s.left := by
  have he := e.steps_le
  rw [CloseLink.left, CloseLink.left, hloop, hpc, hnext]
  omega

/-- **Step lemma.** Once `thread_running` is cleared, and with a parse loop that ends, each step but a
`write()` that is made again brings the thread or `port_close` on. -/
theorem CloseStep.lower (hstep : CloseStep i s e os t) (h : Stopped s) (hends : s.loopPc.Ends) :
    e.steps + t.left ≤ s.left := by
  have hrunning : ¬ s.threadRunning = true := by
    rw [h.running h.called]
    exact Bool.false_ne_true
  cases hstep with
  | test hpc =>
    rw [if_neg hrunning]
    exact left_thread (q := .exited) hpc rfl rfl (by decide)
  | pollInterrupted hpc => exact left_thread hpc (if_neg hrunning) rfl (by decide)
  | poll port hpc => exact left_thread (q := .polled) hpc rfl rfl (by decide)
  | handle hpc =>
    obtain ⟨next, hnext, hclose, -, hlt⟩ := handlePoll_goes s
    exact left_thread hpc hnext hclose hlt
  | readFailed hpc =>
    refine left_thread (q := .handing (errorWork i s.threadRunning) .exit) hpc rfl rfl ?_
    rw [errorWork]
    split
    · exact (by decide : 3 < LoopPc.reading.left)
    · exact (by decide : 1 < LoopPc.reading.left)
  | readZero hpc =>
    rw [if_neg hrunning]
    exact left_thread (q := .exited) hpc rfl rfl (by decide)
  -- what may be in the buffer behind a read is bounded by its size
  | @read chunk hpc _ hfit =>
    have hrev := (s.recv.received chunk hfit).revLe
    refine left_thread hpc rfl rfl ?_
    simp only [LoopPc.left]
    omega
  | parse hpc =>
    rw [hpc] at hends
    exact left_thread hpc rfl rfl (left_parse hends)
  | hand hpc => exact left_thread hpc rfl rfl (handNext_goes _ _ _).2
  | sent hpc => exact left_thread hpc rfl rfl (by simp only [LoopPc.left]; omega)
  | @onward next hpc =>
    obtain ⟨pc, hnext, hclose, -, hleft⟩ := goOnward_goes s next
    refine left_thread hpc hnext hclose ?_
    rw [hleft]
    exact Nat.lt_add_of_pos_left Nat.one_pos
  -- `port_close` has been called, and each of its steps is the last of its kind
  | closeCall hpc => exact absurd hpc h.called
  | sendGoesOn _ | writeInterrupted _ => exact Nat.le_of_eq (Nat.zero_add _)
  | clearDriver hpc => exact left_close (q := .waiting) hpc rfl rfl (by decide)
  | notBusy hpc _ => exact left_close (q := .signalling) hpc rfl rfl (by decide)
  | writeFailed hpc | write hpc => exact left_close (q := .closing) hpc rfl rfl (by decide)
  | closeFd hpc => exact left_close (q := .joining) hpc rfl rfl (by decide)
  | join hpc _ => exact left_close (q := .returned) hpc rfl rfl (by decide)

end Lower

end Seekwave
