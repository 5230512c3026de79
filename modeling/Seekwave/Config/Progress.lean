import Seekwave.Config.Download

/-!
# A configuration without faults does not stall

The stack waits for `fwcfg_cb`. As long as no step fails (`NoFault`), it never waits in vain: after
every call either one command is with the controller, whose completion calls the machine again, or the
result has been reported (`config_never_stalls`). A step that fails reports nothing
(`config_stalls_on_status`).
-/

open Memory

namespace Seekwave

/-- After a call, either one command is awaiting its completion and nothing has been reported, or no
command is outstanding and the result has been reported once. -/
def Answered (t : Stack) (os : List CfgEvent) : Prop :=
  (t.outstanding = 1 ∧ results os = []) ∨ (t.outstanding = 0 ∧ (results os).length = 1)

/-! ## Steps without faults -/

/-- Whether a callback in this state has a command to send. -/
def HwCfgState.Sends (i : CallbackIn) (event : List UInt8) : HwCfgState → Prop
  | .readHciVersion => i.fopen (nvPath event) ≠ none
  | .writeBdAddr => i.storage.address? ≠ none
  | .nvSendCmpl => False
  | _ => True

/-- The command before was completed with success, the buffer is allocated and the command of this
callback accepted. The NV file of chip 0x5301 is an image, if there is one, and an `int` holds where
its last batch begins. -/
structure NoFaultCallback (s : ConfigState) (i : CallbackIn) (event : List UInt8)
    (block : Block hciCmdMaxLen) : Prop extends Proceeds s i event block where
  xmit : s.hwCfgCb.state.Sends i event → i.xmit = true
  image : s.hwCfgCb.state = .readHciVersion → Is6316 event → ∀ content,
    i.fopen (nvPath event) = some content →
      ∃ image : NvImage, content = image.bytes ∧ image.lastStart < 2 ^ 31

/-- No fault in a step. -/
def NoFault (s : ConfigState) : CfgInput → Prop
  | .register _ => True
  | .start alloc xmit => alloc ≠ none ∧ xmit = true
  | .callback i => ∃ event block, NoFaultCallback s i event block

/-- A step that does not fail. -/
structure NoFaultStep (addr : Bdaddr) (u : Stack) (i : CfgInput) (os : List CfgEvent) (v : Stack) :
    Prop where
  step : StackStep addr u i os v
  noFault : NoFault u.cfg i

/-- The runs of one configuration in which no step fails. -/
abbrev NoFaultRun (addr : Bdaddr) (s : ConfigState) (alloc : Option (Block hciCmdPreambleSize))
    (xmit : Bool) (is : List CallbackIn) (os : List CfgEvent) (t : Stack) : Prop :=
  Execution (NoFaultStep addr) ⟨s, 0⟩ (.start alloc xmit :: is.map .callback) os t

/-! ## One step -/

/-- The states in which a command is with the controller. -/
inductive Live (s : ConfigState) : Prop
  | start (h : s.hwCfgCb.state = .start)
  | readHciVersion (h : s.hwCfgCb.state = .readHciVersion)
  | nvSend {n : ℕ} (h : NvSending s n)
  | writeBdAddr (h : s.hwCfgCb.state = .writeBdAddr)
  | nvSendCmpl (h : s.hwCfgCb.state = .nvSendCmpl)

/-- A callback sends the next command, or it reports the result. -/
def GoesOn (addr : Bdaddr) (s : ConfigState) (i : CallbackIn) : Prop :=
  (∃ t c, CallbackYields addr s i t [c] [] ∧ t.btVendorCbacks = true ∧ Live t) ∨
    ∃ t r, CallbackYields addr s i t [] [r]

variable {addr : Bdaddr} {s : ConfigState} {i : CallbackIn} {event : List UInt8}
  {block : Block hciCmdMaxLen}

theorem NoFaultCallback.readHciVersion (h : NoFaultCallback s i event block)
    (hs : s.hwCfgCb.state = .readHciVersion) : GoesOn addr s i := by
  cases hfile : i.fopen (nvPath event) with
  | none => exact .inr ⟨_, _, h.readHciVersion_missing hs hfile⟩
  | some content =>
    have hxmit : i.xmit = true := by
      apply h.xmit
      rw [hs]
      show i.fopen (nvPath event) ≠ none
      rw [hfile]
      simp
    obtain ⟨t, packet, hyields, hcb, hsent | ⟨n, hsending⟩⟩ :=
      h.toProceeds.readHciVersion hs hfile (fun hchip => h.image hs hchip content hfile) hxmit
    · exact .inl ⟨t, _, hyields, hcb, .writeBdAddr hsent.state⟩
    · exact .inl ⟨t, _, hyields, hcb, .nvSend hsending⟩

theorem NoFaultCallback.nvSend (h : NoFaultCallback s i event block) {n : ℕ} (hs : NvSending s n) :
    GoesOn addr s i := by
  have hxmit : i.xmit = true := by
    apply h.xmit
    rw [hs.state_eq]
    trivial
  obtain ⟨t, packet, hyields, hcb, hsent | ⟨m, _, hsending⟩⟩ := h.toProceeds.nvSend hs hxmit
  · exact .inl ⟨t, _, hyields, hcb, .writeBdAddr hsent.state⟩
  · exact .inl ⟨t, _, hyields, hcb, .nvSend hsending⟩

theorem NoFaultCallback.writeBdAddr (h : NoFaultCallback s i event block)
    (hs : s.hwCfgCb.state = .writeBdAddr) : GoesOn addr s i := by
  cases haddress : i.storage.address? with
  | none => exact .inr ⟨_, _, h.writeBdAddr_none hs haddress⟩
  | some address =>
    have hxmit : i.xmit = true := by
      apply h.xmit
      rw [hs]
      show i.storage.address? ≠ none
      rw [haddress]
      nofun
    exact .inl ⟨_, _, h.writeBdAddr_some hs haddress hxmit, h.registered, .nvSendCmpl rfl⟩

/-- **A callback without a fault** sends the next command, or it reports the result. -/
theorem NoFaultCallback.goesOn (h : NoFaultCallback s i event block) (hs : Live s) :
    GoesOn addr s i := by
  cases hs with
  | start hs =>
    have hxmit : i.xmit = true := by
      apply h.xmit
      rw [hs]
      trivial
    exact .inl ⟨_, _, h.toProceeds.start hs hxmit, h.registered, .readHciVersion rfl⟩
  | readHciVersion hs => exact h.readHciVersion hs
  | nvSend hs => exact h.nvSend hs
  | writeBdAddr hs => exact h.writeBdAddr hs
  | nvSendCmpl hs => exact .inr ⟨_, _, h.toProceeds.nvSendCmpl hs⟩

/-! ## Runs -/

/-- What holds along a run without faults. -/
def Underway (os : List CfgEvent) (t : Stack) : Prop :=
  (t.outstanding = 1 ∧ results os = [] ∧ t.cfg.btVendorCbacks = true ∧ Live t.cfg) ∨
    (t.outstanding = 0 ∧ (results os).length = 1)

theorem Underway.answered {os : List CfgEvent} {t : Stack} (h : Underway os t) : Answered t os := by
  rcases h with ⟨hout, hresults, -, -⟩ | hdone
  · exact .inl ⟨hout, hresults⟩
  · exact .inr hdone

/-- The start sends the first command. -/
theorem underway_start {alloc : Option (Block hciCmdPreambleSize)} {xmit : Bool}
    {os : List CfgEvent} {t : Stack} (hcb : s.btVendorCbacks = true)
    (h : StackStep addr ⟨s, 0⟩ (.start alloc xmit) os t) (hok : alloc ≠ none ∧ xmit = true) :
    Underway os t := by
  obtain ⟨block, rfl⟩ := Option.ne_none_iff_exists'.mp hok.1
  obtain ⟨os', hstart, hcommands, hresults⟩ := @start_step addr s hcb block
  rw [hok.2] at h
  obtain ⟨rfl, rfl⟩ := h.det hstart
  exact .inl ⟨rfl, hresults, hcb, .start rfl⟩

/-- A callback keeps the run under way. -/
theorem underway_callback {os o : List CfgEvent} {t u : Stack} (h : Underway os t)
    (hstep : StackStep addr t (.callback i) o u) (hok : NoFault t.cfg (.callback i)) :
    Underway (os ++ o) u := by
  obtain ⟨cfg, n⟩ := t
  obtain ⟨event, block, hok⟩ := hok
  rcases h with ⟨rfl, hresults, -, hlive⟩ | ⟨rfl, -⟩
  · have hgoes : GoesOn addr cfg i := hok.goesOn hlive
    rw [Underway, results_append, hresults, List.nil_append]
    rcases hgoes with ⟨t, c, hyields, hcb, hlive'⟩ | ⟨t, r, hyields⟩
    · obtain ⟨rfl, -, hr⟩ := hyields.of_step hstep
      exact .inl ⟨rfl, hr, hcb, hlive'⟩
    · obtain ⟨rfl, -, hr⟩ := hyields.of_step hstep
      exact .inr ⟨rfl, by rw [hr]; rfl⟩
  · -- nothing is outstanding that could be completed
    cases hstep with
    | callback hpos _ => exact absurd hpos (Nat.lt_irrefl 0)

/-- **Firmware configuration does not stall** in a run without faults: after every call either one
command is outstanding and nothing has been reported, or none is and the result has been reported
once. -/
theorem config_never_stalls {alloc : Option (Block hciCmdPreambleSize)} {xmit : Bool}
    {is : List CallbackIn} {os : List CfgEvent} {t : Stack} (hcb : s.btVendorCbacks = true)
    (h : NoFaultRun addr s alloc xmit is os t) : Answered t os := by
  have hunderway : Underway os t := by
    refine h.invariant_cons ?_ ?_
    · rintro o t ⟨hstep, hok⟩
      exact underway_start hcb hstep hok
    · rintro os t j o u hj hrun ⟨hstep, hok⟩
      obtain ⟨i, -, rfl⟩ := List.mem_map.mp hj
      exact underway_callback hrun hstep hok
  exact hunderway.answered

/-- A run without the NV file: the reset is completed, then the version is known. -/
theorem config_never_stalls_missing :
    let i : CallbackIn := ⟨some [0x0E, 0x04, 0x01, 0x03, 0x0C, 0x00], some (.zero _), true,
      fun _ => none, .openFails, .zero _⟩
    ∃ os t, NoFaultRun .initial ⟨true, ⟨.init, 0, none⟩, 0⟩ (some (.zero _)) true [i, i] os t ∧
      Answered t os := by
  intro i
  have hok (s : ConfigState) (hcb : s.btVendorCbacks = true) : NoFault s (.callback i) :=
    ⟨_, .zero _, ⟨hcb, rfl, rfl, rfl⟩, fun _ => rfl, fun _ _ _ h => nomatch h⟩
  have hproceeds (s : ConfigState) (hcb : s.btVendorCbacks = true) :
      Proceeds s i [0x0E, 0x04, 0x01, 0x03, 0x0C, 0x00] (.zero _) := ⟨hcb, rfl, rfl, rfl⟩
  obtain ⟨os₀, hstart, -, -⟩ := @start_step .initial ⟨true, ⟨.init, 0, none⟩, 0⟩ rfl (.zero _)
  obtain ⟨os₁, hreset, -, -⟩ := @CallbackYields.step .initial _ _ _ _ _
    ((hproceeds ⟨true, ⟨.start, 0, none⟩, 0⟩ rfl).start rfl rfl)
  obtain ⟨os₂, hversion, -, -⟩ := @CallbackYields.step .initial _ _ _ _ _
    ((hproceeds ⟨true, ⟨.readHciVersion, 0, none⟩, 0⟩ rfl).readHciVersion_missing rfl rfl)
  have hrun := ((Execution.start.snoc (.mk hstart ⟨nofun, rfl⟩)).snoc
    (.mk hreset (hok _ rfl))).snoc (NoFaultStep.mk hversion (hok _ rfl))
  exact ⟨_, _, hrun, @config_never_stalls .initial _ (some (.zero _)) true [i, i] _ _ rfl hrun⟩

/-- A completion that does not report success ends the configuration without a word: no command is
outstanding, and no result has been reported. -/
theorem config_stalls_on_status :
    let i : CallbackIn := ⟨some [0x0E, 0x04, 0x01, 0x03, 0x0C, 0x01], some (.zero _), true,
      fun _ => none, .openFails, .zero _⟩
    ∃ os t, StackRun .initial ⟨true, ⟨.init, 0, none⟩, 0⟩ (some (.zero _)) true [i] os t ∧
      ¬ Answered t os := by
  intro i
  obtain ⟨os, hstart, -, hresults⟩ := @start_step .initial ⟨true, ⟨.init, 0, none⟩, 0⟩ rfl (.zero _)
  have hstep : StackStep .initial ⟨⟨true, ⟨.start, 0, none⟩, 0⟩, 1⟩ (.callback i) [.deallocEvt]
      ⟨⟨true, ⟨.start, 0, none⟩, 0⟩, 0⟩ := .callback Nat.one_pos rfl
  refine ⟨_, _, (Execution.start.snoc hstart).snoc hstep, ?_⟩
  rintro (⟨hout, -⟩ | ⟨-, hlen⟩)
  · exact absurd hout (by decide)
  · rw [List.nil_append, results_append, hresults] at hlen
    exact absurd hlen (by decide)

end Seekwave
