import Seekwave.Config.Cases
import Seekwave.Lib.Execution

/-!
# Callbacks and runs

What a callback does that finds no fault (`Proceeds`), one lemma for each state, and the runs of the
machine: of calls in any order (`CfgRun`), and of one configuration, in which the stack calls back once
for every command it has accepted (`StackRun`).
-/

open Memory

namespace Seekwave

/-! ## Runs -/

/-- What can be done to the machine. The stack registers its callbacks with `init` and takes them back
with `cleanup`. -/
inductive CfgInput
  | register (cbacks : Bool)
  | start (alloc : Option (Block hciCmdPreambleSize)) (xmit : Bool)
  | callback (i : CallbackIn)

def cfgResult (addr : Bdaddr) (s : ConfigState) : CfgInput → CfgResult
  | .register cbacks => ⟨{ s with btVendorCbacks := cbacks }, [], true⟩
  | .start alloc xmit => scommVendorConfigStart s alloc xmit
  | .callback i => scommVendorConfigCallback addr s i

/-- A call that returns. -/
def CfgStep (addr : Bdaddr) (s : ConfigState) (i : CfgInput) (os : List CfgEvent) (t : ConfigState) :
    Prop :=
  cfgResult addr s i = ⟨t, os, true⟩

/-- The globals as the library is loaded. -/
def ConfigState.boot : ConfigState := ⟨false, ⟨.init, 0, none⟩, 0⟩

/-- The runs of the machine, the calls in any order. -/
abbrev CfgRun (addr : Bdaddr) (is : List CfgInput) (os : List CfgEvent) (s : ConfigState) : Prop :=
  Execution (CfgStep addr) .boot is os s

/-- The machine, and the number of commands the stack has accepted and not completed. -/
structure Stack where
  cfg : ConfigState
  outstanding : ℕ

/-- A configuration is started, or a command is completed. -/
inductive StackStep (addr : Bdaddr) : Stack → CfgInput → List CfgEvent → Stack → Prop
  | start {s : Stack} {alloc : Option (Block hciCmdPreambleSize)} {xmit : Bool}
      {os : List CfgEvent} {t : ConfigState}
      (h : scommVendorConfigStart s.cfg alloc xmit = ⟨t, os, true⟩) :
      StackStep addr s (.start alloc xmit) os ⟨t, s.outstanding + (commands os).length⟩
  | callback {s : Stack} {i : CallbackIn} {os : List CfgEvent} {t : ConfigState}
      (hout : 0 < s.outstanding) (h : scommVendorConfigCallback addr s.cfg i = ⟨t, os, true⟩) :
      StackStep addr s (.callback i) os ⟨t, s.outstanding - 1 + (commands os).length⟩

/-- The runs of one configuration. -/
abbrev StackRun (addr : Bdaddr) (s : ConfigState) (alloc : Option (Block hciCmdPreambleSize))
    (xmit : Bool) (is : List CallbackIn) (os : List CfgEvent) (t : Stack) : Prop :=
  Execution (StackStep addr) ⟨s, 0⟩ (.start alloc xmit :: is.map .callback) os t

/-! ## Callbacks -/

/-- The callback comes with an event that reports success, and gets its buffer. -/
structure Proceeds (s : ConfigState) (i : CallbackIn) (event : List UInt8)
    (block : Block hciCmdMaxLen) : Prop where
  registered : s.btVendorCbacks = true
  pMem : i.pMem = some event
  status : byteAt event 5 = 0
  alloc : i.alloc = some block

section Callback

variable {addr : Bdaddr} {s t : ConfigState} {i : CallbackIn} {event : List UInt8}
  {block : Block hciCmdMaxLen}

/-- The call as the switch is entered. -/
def Call.enter (s : ConfigState) (block : Block hciCmdMaxLen) : Call :=
  ⟨s, block.cells, 0, [.alloc true, .access]⟩

theorem Proceeds.callback (h : Proceeds s i event block) :
    scommVendorConfigCallback addr s i =
      (configSwitch addr i (.enter s block)).finish (some event) := by
  have hstatus : cmdCmplStatus i.pMem = 0 := by
    rw [h.pMem]
    exact h.status
  rw [scommVendorConfigCallback, if_pos ⟨hstatus, h.registered⟩, h.pMem, h.alloc]
  rfl

/-- A switch that is left in order is followed by the event buffer's release. -/
theorem finish_done {flow : Flow} {cfg : ConfigState} {os : List CfgEvent}
    (h : flow.outcome = (.done, cfg, os)) (hcb : cfg.btVendorCbacks = true) :
    flow.finish (some event) = ⟨cfg, os ++ [.deallocEvt], true⟩ := by
  cases flow with
  | done c =>
    obtain ⟨-, rfl, rfl⟩ : FlowEnd.done = .done ∧ c.cfg = cfg ∧ c.trace = os := by
      simpa [Flow.outcome] using h
    simp [Flow.finish, hcb, Call.emit]
  | «return» c => simp [Flow.outcome] at h
  | crash c => simp [Flow.outcome] at h

/-- A `return` inside the switch releases nothing. -/
theorem finish_returned {flow : Flow} {cfg : ConfigState} {os : List CfgEvent}
    (h : flow.outcome = (.returned, cfg, os)) : flow.finish (some event) = ⟨cfg, os, true⟩ := by
  cases flow with
  | done c => simp [Flow.outcome] at h
  | «return» c =>
    obtain ⟨-, rfl, rfl⟩ : FlowEnd.returned = .returned ∧ c.cfg = cfg ∧ c.trace = os := by
      simpa [Flow.outcome] using h
    rfl
  | crash c => simp [Flow.outcome] at h

theorem state_finish (pMem : Option (List UInt8)) (flow : Flow) :
    (flow.finish pMem).state = flow.outcome.2.1 := by
  cases flow with
  | done c =>
    rw [Flow.finish]
    split <;> rfl
  | «return» c => rfl
  | crash c => rfl

/-- The events of a call are those of the switch, and the release of the event. -/
theorem exists_trace_finish (pMem : Option (List UInt8)) (flow : Flow) :
    ∃ es, (flow.finish pMem).trace = flow.outcome.2.2 ++ es ∧ (es = [] ∨ es = [.deallocEvt]) := by
  cases flow with
  | done c =>
    rw [Flow.finish]
    split
    · exact ⟨_, rfl, .inr rfl⟩
    · exact ⟨[], (List.append_nil _).symm, .inl rfl⟩
  | «return» c => exact ⟨[], (List.append_nil _).symm, .inl rfl⟩
  | crash c => exact ⟨[], (List.append_nil _).symm, .inl rfl⟩

theorem returned_finish (pMem : Option (List UInt8)) (flow : Flow) :
    (flow.finish pMem).returned = true ↔ flow.outcome.1 ≠ .crashed := by
  cases flow with
  | done c =>
    rw [Flow.finish]
    split <;> exact iff_of_true rfl nofun
  | «return» c => exact iff_of_true rfl nofun
  | crash c => exact iff_of_false nofun fun h => h rfl

/-- What the stack sees of a callback: the commands it is given and the results it is told. -/
def CallbackYields (addr : Bdaddr) (s : ConfigState) (i : CallbackIn) (t : ConfigState)
    (cs : List (ℕ × List UInt8)) (rs : List Bool) : Prop :=
  ∃ os, scommVendorConfigCallback addr s i = ⟨t, os, true⟩ ∧ commands os = cs ∧ results os = rs

/-- What the stack sees of a switch that is left in order is what stands behind its accesses to the
buffer. -/
theorem Proceeds.yields (h : Proceeds s i event block) {ps ws es : List CfgEvent}
    (hout : (configSwitch addr i (.enter s block)).outcome = (.done, t, ps ++ ws ++ es))
    (hws : ∀ w ∈ ws, w.IsUse) (hcb : t.btVendorCbacks = true) :
    CallbackYields addr s i t (commands ps ++ commands es) (results ps ++ results es) := by
  refine ⟨ps ++ ws ++ es ++ [.deallocEvt], by rw [h.callback, finish_done hout hcb], ?_, ?_⟩
  · rw [commands_append, commands_append, commands_append, commands_of_use hws, List.append_nil]
    exact List.append_nil _
  · rw [results_append, results_append, results_append, results_of_use hws, List.append_nil]
    exact List.append_nil _

/-- The reset is complete: the version is asked for. -/
theorem Proceeds.start (h : Proceeds s i event block) (hs : s.hwCfgCb.state = .start)
    (hxmit : i.xmit = true) :
    CallbackYields addr s i (s.setHwCfg { s.hwCfgCb with state := .readHciVersion })
      [(hciReadLocalVersionInfo, [0x01, 0x10, 0x00])] [] := by
  obtain ⟨ws, m, hws, -, hm, hout⟩ := @caseStart_outcome i (.enter s block)
  rw [hxmit] at hout
  rw [← hm]
  have hswitch : configSwitch addr i (.enter s block) = caseStart i (.enter s block) := by
    rw [configSwitch, show (Call.enter s block).cfg.hwCfgCb.state = .start from hs]
  exact h.yields ((congrArg Flow.outcome hswitch).trans hout) hws h.registered

/-- The version is known and there is no NV file: the failure is reported. -/
theorem Proceeds.readHciVersion_missing (h : Proceeds s i event block)
    (hs : s.hwCfgCb.state = .readHciVersion) (hfile : i.fopen (nvPath event) = none) :
    CallbackYields addr s i
      ⟨s.btVendorCbacks, ⟨.init, s.hwCfgCb.fileOffset, none⟩, keptVersion event⟩ [] [false] := by
  have hout := @caseReadHciVersion_missing addr i (.enter s block) event h.pMem hfile
  refine ⟨[.alloc true, .access, .fopen (nvPath event) false, .fwcfgCb false], ?_, rfl, rfl⟩
  rw [h.callback, configSwitch,
    show (Call.enter s block).cfg.hwCfgCb.state = .readHciVersion from hs]
  exact finish_returned hout

/-- The call as the download begins, with the NV file open. -/
def Call.opened (s : ConfigState) (block : Block hciCmdMaxLen) (event content : List UInt8) : Call :=
  { Call.enter s block with
    cfg := ⟨s.btVendorCbacks, ⟨.nvSend, 0, some (nvStream event content)⟩, keptVersion event⟩
    trace := [.alloc true, .access, .fopen (nvPath event) true] }

/-- The version is known and the NV file is there: the download begins in the same call. -/
theorem Proceeds.readHciVersion_opened (h : Proceeds s i event block)
    (hs : s.hwCfgCb.state = .readHciVersion) {content : List UInt8}
    (hfile : i.fopen (nvPath event) = some content) :
    configSwitch addr i (.enter s block) = caseNvSend addr i (.opened s block event content) := by
  rw [configSwitch, show (Call.enter s block).cfg.hwCfgCb.state = .readHciVersion from hs]
  exact caseReadHciVersion_opened h.pMem hfile

/-- The chip and the stream with which a callback executes `HW_CFG_NV_SEND`, if it does. -/
def nvTurn (s : ConfigState) (i : CallbackIn) : Option (ℕ × CFile) :=
  if cmdCmplStatus i.pMem = 0 ∧ s.btVendorCbacks = true ∧ i.alloc.isSome = true then
    match s.hwCfgCb.state with
    | .nvSend => s.hwCfgCb.nvFp.map (s.chipVersion, ·)
    | .readHciVersion => i.pMem.bind fun event =>
        (i.fopen (nvPath event)).map fun content => (keptVersion event, nvStream event content)
    | _ => none
  else none

/-- A callback that executes `HW_CFG_NV_SEND`, having done `c` before. -/
structure NvTurn (addr : Bdaddr) (s : ConfigState) (i : CallbackIn) (chip : ℕ) (f : CFile)
    (c : Call) : Prop where
  callback : scommVendorConfigCallback addr s i = (caseNvSend addr i c).finish i.pMem
  chip : c.cfg.chipVersion = chip
  file : c.cfg.hwCfgCb.nvFp = some f
  state : c.cfg.hwCfgCb.state = .nvSend
  cbacks : c.cfg.btVendorCbacks = true
  memory : 258 ≤ c.mem.length
  trace : c.trace = [.alloc true, .access] ∧ s.hwCfgCb.state = .nvSend ∨
    ∃ path, c.trace = [.alloc true, .access, .fopen path true] ∧
      s.hwCfgCb.state = .readHciVersion

variable (addr) in
theorem exists_nvTurn {chip : ℕ} {f : CFile} (h : nvTurn s i = some (chip, f)) :
    ∃ c, NvTurn addr s i chip f c := by
  rw [nvTurn] at h
  obtain ⟨hgo, h⟩ := Option.ite_none_right_eq_some.mp h
  obtain ⟨hstatus, hcb, halloc⟩ := hgo
  obtain ⟨block, halloc⟩ := Option.isSome_iff_exists.mp halloc
  have hcallback : scommVendorConfigCallback addr s i =
      (configSwitch addr i (.enter s block)).finish i.pMem := by
    rw [scommVendorConfigCallback, if_pos ⟨hstatus, hcb⟩, halloc]
    rfl
  have henter : (Call.enter s block).cfg.hwCfgCb.state = s.hwCfgCb.state := rfl
  rw [configSwitch, henter] at hcallback
  split at h
  case h_1 hstate =>
    rw [hstate] at hcallback
    obtain ⟨g, hg, hpair⟩ := Option.map_eq_some_iff.mp h
    obtain ⟨rfl, rfl⟩ := Prod.mk.inj hpair
    exact ⟨.enter s block, hcallback, rfl, hg, hstate, hcb, Nat.le_of_eq block.size.symm,
      .inl ⟨rfl, hstate⟩⟩
  -- the version event opens the file and falls through to the first block
  case h_2 hstate =>
    rw [hstate] at hcallback
    obtain ⟨event, hevent, h⟩ := Option.bind_eq_some_iff.mp h
    obtain ⟨content, hfile, hpair⟩ := Option.map_eq_some_iff.mp h
    obtain ⟨rfl, rfl⟩ := Prod.mk.inj hpair
    dsimp only at hcallback
    rw [caseReadHciVersion_opened hevent hfile] at hcallback
    exact ⟨.opened s block event content, hcallback, rfl, rfl, rfl, hcb,
      Nat.le_of_eq block.size.symm, .inr ⟨_, rfl, hstate⟩⟩
  case h_3 => cases h

/-- The completion of the one command outstanding. -/
theorem CallbackYields.step {cs : List (ℕ × List UInt8)} {rs : List Bool}
    (h : CallbackYields addr s i t cs rs) :
    ∃ os, StackStep addr ⟨s, 1⟩ (.callback i) os ⟨t, cs.length⟩ ∧ commands os = cs ∧
      results os = rs := by
  obtain ⟨os, hcall, rfl, hresults⟩ := h
  refine ⟨os, ?_, rfl, hresults⟩
  have hstep : StackStep addr ⟨s, 1⟩ (.callback i) os ⟨t, 1 - 1 + (commands os).length⟩ :=
    .callback Nat.one_pos hcall
  rwa [Nat.sub_self, Nat.zero_add] at hstep

/-- The last command is complete: success is reported. -/
theorem Proceeds.nvSendCmpl (h : Proceeds s i event block) (hs : s.hwCfgCb.state = .nvSendCmpl) :
    CallbackYields addr s i (s.setHwCfg { s.hwCfgCb with state := .init }) [] [true] := by
  refine ⟨[.alloc true, .access, .fwcfgCb true, .deallocBuf, .deallocEvt], ?_, rfl, rfl⟩
  rw [h.callback, configSwitch, show (Call.enter s block).cfg.hwCfgCb.state = .nvSendCmpl from hs]
  exact finish_done caseNvSendCmpl_outcome h.registered

/-- The download is complete: the address of the AP is written. -/
theorem Proceeds.writeBdAddr_some (h : Proceeds s i event block)
    (hs : s.hwCfgCb.state = .writeBdAddr) {address : Block bdAddrLen}
    (haddress : i.storage.address? = some address) (hxmit : i.xmit = true) :
    CallbackYields addr s i (s.setHwCfg { s.hwCfgCb with state := .nvSendCmpl })
      [(hciCmdWriteBdAddr, [0x82, 0xFC, 0x06] ++ address.cells.reverse)] [] := by
  obtain ⟨ws, m, hws, -, hm, hout⟩ := @caseWriteBdAddr_some i (.enter s block) address haddress
  rw [hxmit] at hout
  rw [← hm]
  have hswitch : configSwitch addr i (.enter s block) = caseWriteBdAddr i (.enter s block) := by
    rw [configSwitch, show (Call.enter s block).cfg.hwCfgCb.state = .writeBdAddr from hs]
  exact h.yields ((congrArg Flow.outcome hswitch).trans hout) hws h.registered

/-- The download is complete and there is no address: success is reported. -/
theorem Proceeds.writeBdAddr_none (h : Proceeds s i event block)
    (hs : s.hwCfgCb.state = .writeBdAddr) (haddress : i.storage.address? = none) :
    CallbackYields addr s i (s.setHwCfg { s.hwCfgCb with state := .init }) [] [true] := by
  obtain ⟨ws, hws, -, hout⟩ := @caseWriteBdAddr_none i (.enter s block) haddress
  have hswitch : configSwitch addr i (.enter s block) = caseWriteBdAddr i (.enter s block) := by
    rw [configSwitch, show (Call.enter s block).cfg.hwCfgCb.state = .writeBdAddr from hs]
  exact h.yields ((congrArg Flow.outcome hswitch).trans hout) hws h.registered

/-- Once a configuration is over, or only its last completion is awaited, callbacks send nothing
more. -/
theorem state_of_over (addr : Bdaddr) (i : CallbackIn)
    (hs : s.hwCfgCb.state = .init ∨ s.hwCfgCb.state = .nvSendCmpl) :
    (scommVendorConfigCallback addr s i).state.hwCfgCb.state = .init ∨
      (scommVendorConfigCallback addr s i).state.hwCfgCb.state = .nvSendCmpl := by
  rw [scommVendorConfigCallback, state_finish]
  split
  · cases i.alloc with
    | none => exact hs
    | some block =>
      rcases hs with hs | hs
      · simp only [configSwitch, hs]
        exact .inl hs
      · simp only [configSwitch, hs, caseNvSendCmpl_outcome]
        exact .inl rfl
  · exact hs

/-- Behind the download a callback does not go back to it. -/
theorem state_of_writeBdAddr (addr : Bdaddr) (i : CallbackIn) (hs : s.hwCfgCb.state = .writeBdAddr) :
    (scommVendorConfigCallback addr s i).state.hwCfgCb.state = .writeBdAddr ∨
      (scommVendorConfigCallback addr s i).state.hwCfgCb.state = .init ∨
      (scommVendorConfigCallback addr s i).state.hwCfgCb.state = .nvSendCmpl := by
  rw [scommVendorConfigCallback, state_finish]
  split
  · cases i.alloc with
    | none => exact .inl hs
    | some block =>
      have hswitch : configSwitch addr i (.enter s block) = caseWriteBdAddr i (.enter s block) := by
        rw [configSwitch, show (Call.enter s block).cfg.hwCfgCb.state = .writeBdAddr from hs]
      refine .inr ?_
      show (configSwitch addr i (.enter s block)).outcome.2.1.hwCfgCb.state = _ ∨
        (configSwitch addr i (.enter s block)).outcome.2.1.hwCfgCb.state = _
      rw [hswitch]
      cases haddress : i.storage.address? with
      | none =>
        obtain ⟨ws, -, -, hout⟩ := @caseWriteBdAddr_none i (.enter s block) haddress
        rw [hout]
        exact .inl rfl
      | some address =>
        obtain ⟨ws, m, -, -, -, hout⟩ := @caseWriteBdAddr_some i (.enter s block) address haddress
        rw [hout]
        exact .inr rfl
  · exact .inl hs

end Callback

/-! ## The start -/

/-- `scomm_vendor_config_start` that gets its buffer sends HCI_Reset. -/
theorem start_step {addr : Bdaddr} {s : ConfigState} (hcb : s.btVendorCbacks = true)
    (block : Block hciCmdPreambleSize) :
    ∃ os, StackStep addr ⟨s, 0⟩ (.start (some block) true) os ⟨s.setHwCfg ⟨.start, 0, none⟩, 1⟩ ∧
      commands os = [(hciReset, [0x03, 0x0C, 0x00])] ∧ results os = [] := by
  have hm : store (store block.cells 0 (uint16ToStream hciReset)) 2 [0] =
      store block.cells 0 [0x03, 0x0C, 0x00] := store_store block.cells [0x03, 0x0C] [0x00] 0
  have htake : (store block.cells 0 [0x03, 0x0C, 0x00]).take 3 = [0x03, 0x0C, 0x00] :=
    take_store (Nat.zero_le _) rfl
  let os : List CfgEvent := [.alloc true, .access, .write 0 (uint16ToStream hciReset), .write 2 [0],
    .xmitCb hciReset 3 (store block.cells 0 [0x03, 0x0C, 0x00]) true]
  have hstart : scommVendorConfigStart s (some block) true =
      ⟨s.setHwCfg ⟨.start, 0, none⟩, os, true⟩ := by
    simp [scommVendorConfigStart, hcb, Flow.finish, Call.store, Call.setState, Call.xmitCb,
      Call.emit, ConfigState.setHwCfg, os, hm]
  refine ⟨os, ?_, ?_, rfl⟩
  · have hone : 0 + (commands os).length = 1 := rfl
    rw [← hone]
    exact .start hstart
  · rw [← htake]
    rfl

/-! ## Determinism -/

/-- A step is determined by its input. -/
theorem StackStep.det {addr : Bdaddr} {s t u : Stack} {i : CfgInput} {os ps : List CfgEvent}
    (h : StackStep addr s i os t) (h' : StackStep addr s i ps u) : os = ps ∧ t = u := by
  cases h with
  | start h =>
    cases h' with
    | start h' =>
      rw [h] at h'
      cases h'
      exact ⟨rfl, rfl⟩
  | callback _ h =>
    cases h' with
    | callback _ h' =>
      rw [h] at h'
      cases h'
      exact ⟨rfl, rfl⟩

/-- The completion of the one command outstanding does what its callback yields. -/
theorem CallbackYields.of_step {addr : Bdaddr} {s t : ConfigState} {u : Stack} {i : CallbackIn}
    {os : List CfgEvent} {cs : List (ℕ × List UInt8)} {rs : List Bool}
    (h : CallbackYields addr s i t cs rs) (hstep : StackStep addr ⟨s, 1⟩ (.callback i) os u) :
    u = ⟨t, cs.length⟩ ∧ commands os = cs ∧ results os = rs := by
  obtain ⟨os', hstep', hcommands, hresults⟩ := h.step
  obtain ⟨rfl, rfl⟩ := hstep.det hstep'
  exact ⟨rfl, hcommands, hresults⟩

end Seekwave
