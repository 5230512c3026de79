import Seekwave.Config.Writes

/-!
# The NV file handle

`hw_cfg_cb.nv_fp` is open in `HW_CFG_NV_SEND` and null otherwise, and is closed before it is
overwritten, as long as every call of a run is one that `KeepsHandle` (`nv_handle_iff`). A start clears
the handle of a download under way; and where the end of the file, or a TLV that is cut off, has closed
it, a command refused closes it once more.
-/

open Memory

namespace Seekwave

/-- What events do to the NV file. -/
def nvEvents (os : List CfgEvent) : List (SlotEvent Unit Unit) := os.filterMap CfgEvent.nvFp?

@[simp] theorem nvEvents_append (os ps : List CfgEvent) :
    nvEvents (os ++ ps) = nvEvents os ++ nvEvents ps := List.filterMap_append

theorem nvEvents_of_none {os : List CfgEvent} (h : ∀ o ∈ os, o.nvFp? = none) : nvEvents os = [] :=
  List.filterMap_eq_nil_iff.mpr h

theorem nvEvents_of_use {ws : List CfgEvent} (h : ∀ w ∈ ws, w.IsUse) : nvEvents ws = [] := by
  refine nvEvents_of_none fun w hw => ?_
  have huse := h w hw
  cases w <;> first | rfl | exact huse.elim

theorem nvEvents_behind {ps ws es : List CfgEvent} (h : ∀ w ∈ ws, w.IsUse) :
    nvEvents (ps ++ ws ++ es) = nvEvents ps ++ nvEvents es := by
  rw [nvEvents_append, nvEvents_append, nvEvents_of_use h, List.append_nil]

/-- What `hw_cfg_cb.nv_fp` holds. -/
def ConfigState.nvHeld (s : ConfigState) : Option Unit := s.hwCfgCb.nvFp.map fun _ => ()

theorem ConfigState.nvHeld_of_none {s : ConfigState} (h : s.hwCfgCb.nvFp = none) : s.nvHeld = none := by
  rw [nvHeld, h]
  rfl

theorem ConfigState.nvHeld_of_ne {s : ConfigState} (h : s.hwCfgCb.nvFp ≠ none) :
    s.nvHeld = some () := by
  obtain ⟨f, hf⟩ := Option.ne_none_iff_exists'.mp h
  rw [nvHeld, hf]
  rfl

/-- The handle is the file opened and not closed so far, and in step with the state. -/
structure HandleInv (os : List CfgEvent) (s : ConfigState) : Prop where
  held : heldAfter () none (nvEvents os) = some s.nvHeld
  state : s.hwCfgCb.nvFp ≠ none ↔ s.hwCfgCb.state = .nvSend

/-- The call reads an event that it has not been given. -/
def MissesEvent (s : ConfigState) : CfgInput → Prop
  | .callback i => s.hwCfgCb.state = .readHciVersion ∧ i.pMem = none
  | _ => False

/-- A call keeps the handle in step, and does not close a null one. -/
structure HandleKept (addr : Bdaddr) (os : List CfgEvent) (s : ConfigState) (i : CfgInput) :
    Prop where
  inv : HandleInv (os ++ (cfgResult addr s i).trace) (cfgResult addr s i).state
  returned : (cfgResult addr s i).returned = true ∨ MissesEvent s i

/-- When a turn of the download does not close the file twice. -/
def ClosesOnce (i : CallbackIn) (chip : ℕ) (f : CFile) : Prop :=
  i.xmit = true ∨ if chip = skwChipid6316 then
      ∃ (b : List Tlv) (e : PackEnd) (tail : List UInt8), f.rest = encode b ++ tail ∧
        tlvsSize b ≤ 252 ∧ e.Stops tail (tlvsSize b) ∧ e ≠ .truncated
    else nvFileRdBlockSize ≤ f.rest.length

/-- When a call keeps the handle in step. -/
def KeepsHandle (s : ConfigState) : CfgInput → Prop
  | .register _ => True
  | .start _ _ => s.hwCfgCb.state ≠ .nvSend
  | .callback i => ∀ chip f, nvTurn s i = some (chip, f) → ClosesOnce i chip f

/-! ## Turns of the download -/

/-- How a turn leaves the file: open and being downloaded, or closed. -/
def LeavesFile (es : List (SlotEvent Unit Unit)) (s : ConfigState) : Prop :=
  es = [] ∧ s.hwCfgCb.state = .nvSend ∧ s.hwCfgCb.nvFp ≠ none ∨
    es = [.released () ()] ∧ s.hwCfgCb.state ≠ .nvSend ∧ s.hwCfgCb.nvFp = none

section Turn

variable {addr : Bdaddr} {s : ConfigState} {i : CallbackIn} {c : Call} {f : CFile} {b : List Tlv}
  {e : PackEnd} {tail : List UInt8} {chip : ℕ}

/-- The download of chip 0x5301. -/
theorem nvSend6316_file (hf : c.cfg.hwCfgCb.nvFp = some f) (hrest : f.rest = encode b ++ tail)
    (hfit : tlvsSize b ≤ 252) (hstop : e.Stops tail (tlvsSize b)) (hmem : 258 ≤ c.mem.length)
    (hop : c.mem.take 2 = uint16ToStream hciCmdSkwBtNvds) (hs : c.cfg.hwCfgCb.state = .nvSend) :
    (∃ es, nvEvents (nvSend6316 addr i c).outcome.2.2 = nvEvents c.trace ++ es ∧
      LeavesFile es (nvSend6316 addr i c).outcome.2.1) ∧
    ((nvSend6316 addr i c).outcome.1 ≠ .crashed ↔ (i.xmit = true ∨ e ≠ .truncated)) := by
  by_cases he : e = .truncated
  · subst he
    obtain ⟨ws, m, hws, hout⟩ := @nvSend6316_truncated addr i c f b tail hf hrest hfit hstop hmem
    rw [hout]
    -- the file is closed before the command, and again, as `NULL`, if the command is refused
    refine ⟨⟨[.released () ()], ?_, .inr ⟨rfl, nofun, rfl⟩⟩, ?_⟩
    · rw [nvEvents_behind hws]
      cases i.xmit <;> rfl
    · cases i.xmit <;> simp
  by_cases hb : b = []
  · subst hb
    obtain ⟨f', ws, hws, hout⟩ := @nvSend6316_empty addr i c f e hf (hrest ▸ hstop) hmem he
    rw [hout]
    refine ⟨?_, iff_of_true nofun (.inr he)⟩
    cases e with
    | truncated => exact absurd rfl he
    | full => exact ⟨[], nvEvents_behind hws, .inl ⟨rfl, hs, nofun⟩⟩
    | fileEnd => exact ⟨[.released () ()], nvEvents_behind hws, .inr ⟨rfl, nofun, rfl⟩⟩
  cases hxmit : i.xmit with
  | true =>
    obtain ⟨c', f', ws, m, -, hws, -, hout⟩ :=
      @nvSend6316_sent addr i c f b e tail hf hrest hfit hstop hmem hop he hb hxmit
    rw [hout]
    refine ⟨?_, iff_of_true nofun (.inl rfl)⟩
    cases e with
    | truncated => exact absurd rfl he
    | full => exact ⟨[], nvEvents_behind hws, .inl ⟨rfl, hs, nofun⟩⟩
    | fileEnd => exact ⟨[.released () ()], nvEvents_behind hws, .inr ⟨rfl, nofun, rfl⟩⟩
  | false =>
    obtain ⟨ws, m, hws, hout⟩ :=
      @nvSend6316_refused addr i c f b e tail hf hrest hfit hstop hmem he hb hxmit
    rw [hout]
    exact ⟨⟨[.released () ()], nvEvents_behind hws, .inr ⟨rfl, nofun, rfl⟩⟩,
      iff_of_true nofun (.inr he)⟩

/-- The download of the other chips. -/
theorem nvSendBlock_file (hf : c.cfg.hwCfgCb.nvFp = some f) (hmem : 258 ≤ c.mem.length)
    (hop : c.mem.take 2 = uint16ToStream hciCmdSkwBtNvds) (hs : c.cfg.hwCfgCb.state = .nvSend) :
    (∃ es, nvEvents (nvSendBlock addr i c).outcome.2.2 = nvEvents c.trace ++ es ∧
      LeavesFile es (nvSendBlock addr i c).outcome.2.1) ∧
    ((nvSendBlock addr i c).outcome.1 ≠ .crashed ↔
      (i.xmit = true ∨ nvFileRdBlockSize ≤ f.rest.length)) := by
  obtain ⟨ws, m, hws, -, -, hout⟩ := @nvSendBlock_outcome addr i c f hf hmem hop
  rw [hout]
  -- a short block is the last: it closes the file before the result of `xmit_cb` is tested
  by_cases hlast : f.rest.length < nvFileRdBlockSize
  · have hle : ¬ nvFileRdBlockSize ≤ f.rest.length := Nat.not_le.mpr hlast
    cases i.xmit with
    | true =>
      simp only [if_true, if_pos hlast]
      exact ⟨⟨[.released () ()], nvEvents_behind hws, .inr ⟨rfl, nofun, rfl⟩⟩,
        iff_of_true nofun (.inl trivial)⟩
    | false =>
      simp only [Bool.false_eq_true, if_false, if_pos hlast]
      exact ⟨⟨[.released () ()], nvEvents_behind hws, .inr ⟨rfl, nofun, rfl⟩⟩, by simp [hle]⟩
  · have hle := Nat.not_lt.mp hlast
    cases i.xmit with
    | true =>
      simp only [if_true, if_neg hlast]
      exact ⟨⟨[], nvEvents_behind hws, .inl ⟨rfl, hs, nofun⟩⟩, iff_of_true nofun (.inl trivial)⟩
    | false =>
      simp only [Bool.false_eq_true, if_false, if_neg hlast]
      exact ⟨⟨[.released () ()], nvEvents_behind hws, .inr ⟨rfl, nofun, rfl⟩⟩,
        iff_of_true nofun (.inr hle)⟩

/-- **A turn of the download** leaves the file open or closed, and returns if it closes it once. -/
theorem NvTurn.leaves (h : NvTurn addr s i chip f c) :
    (∃ es, nvEvents (scommVendorConfigCallback addr s i).trace = nvEvents c.trace ++ es ∧
      LeavesFile es (scommVendorConfigCallback addr s i).state) ∧
    ((scommVendorConfigCallback addr s i).returned = true ↔ ClosesOnce i chip f) := by
  let c₀ := c.store 0 (uint16ToStream hciCmdSkwBtNvds)
  have hmem : 258 ≤ c₀.mem.length := Nat.le_trans h.memory (length_le_length_store _ _ _)
  have hop : c₀.mem.take 2 = uint16ToStream hciCmdSkwBtNvds := take_store (Nat.zero_le _) rfl
  have hstore : nvEvents c₀.trace = nvEvents c.trace :=
    (nvEvents_append _ _).trans (List.append_nil _)
  obtain ⟨qs, htrace, hqs⟩ := exists_trace_finish i.pMem (caseNvSend addr i c)
  have hqs' : nvEvents qs = [] := by rcases hqs with rfl | rfl <;> rfl
  rw [h.callback, htrace, state_finish, returned_finish, nvEvents_append, hqs', List.append_nil,
    ← hstore, ClosesOnce]
  -- by the chip: TLVs in batches, or plain blocks
  by_cases hchip : chip = skwChipid6316
  · rw [caseNvSend_6316 (h.chip.trans hchip), if_pos hchip]
    obtain ⟨b, e, tail, hrest, hfit, hstop⟩ := exists_batch f.rest 0 (Nat.zero_le _)
    rw [Nat.zero_add] at hfit hstop
    obtain ⟨hfile, hreturns⟩ :=
      @nvSend6316_file addr i c₀ f b e tail h.file hrest hfit hstop hmem hop h.state
    refine ⟨hfile, fun hdone => ?_, ?_⟩
    · refine (hreturns.mp hdone).imp_right fun he => ?_
      exact ⟨b, e, tail, hrest, hfit, hstop, he⟩
    · rintro (hxmit | ⟨b, e, tail, hrest, hfit, hstop, he⟩)
      · exact hreturns.mpr (.inl hxmit)
      · obtain ⟨-, hreturns⟩ :=
          @nvSend6316_file addr i c₀ f b e tail h.file hrest hfit hstop hmem hop h.state
        exact hreturns.mpr (.inr he)
  · rw [caseNvSend_other fun h' => hchip (h.chip.symm.trans h'), if_neg hchip]
    exact @nvSendBlock_file addr i c₀ f h.file hmem hop h.state

end Turn

/-! ## Calls -/

section Calls

variable {addr : Bdaddr} {s : ConfigState} {os : List CfgEvent}

/-- A handle that is in step with the state. -/
theorem HandleInv.of_leaves {qs es : List (SlotEvent Unit Unit)} {t : ConfigState}
    (hqs : heldAfter () none qs = some (some ())) (h : LeavesFile es t) :
    heldAfter () none (qs ++ es) = some t.nvHeld ∧
      (t.hwCfgCb.nvFp ≠ none ↔ t.hwCfgCb.state = .nvSend) := by
  rcases h with ⟨rfl, hstate, hfile⟩ | ⟨rfl, hstate, hfile⟩
  · rw [t.nvHeld_of_ne hfile, List.append_nil]
    exact ⟨hqs, iff_of_true hfile hstate⟩
  · rw [t.nvHeld_of_none hfile]
    exact ⟨heldAfter_trans hqs rfl, iff_of_false (fun h => h hfile) hstate⟩

/-- A callback that does not execute `HW_CFG_NV_SEND` keeps the handle. -/
theorem HandleInv.apart (h : HandleInv os s) {i : CallbackIn} (hturn : nvTurn s i = none) :
    HandleKept addr os s (.callback i) := by
  have hapart := callback_apart addr hturn
  have hevents : nvEvents (os ++ (cfgResult addr s (.callback i)).trace) = nvEvents os := by
    rw [nvEvents_append, show nvEvents (cfgResult addr s (.callback i)).trace = [] from
      nvEvents_of_none hapart.files, List.append_nil]
  have hreturned : (cfgResult addr s (.callback i)).returned = true ∨
      MissesEvent s (.callback i) := by
    rcases hapart.returned with hdone | hmissing | ⟨hstate, hfile⟩
    · exact .inl hdone
    · exact .inr hmissing
    · exact absurd hfile (h.state.mpr hstate)
  refine ⟨?_, hreturned⟩
  rcases hapart.hwCfg with hcfg | ⟨hs, ht, hfile⟩
  · refine ⟨?_, ?_⟩
    · rw [hevents, h.held]
      exact congrArg (fun cfg : HwCfg => some (cfg.nvFp.map fun _ => ())) hcfg.symm
    · show (scommVendorConfigCallback addr s i).state.hwCfgCb.nvFp ≠ none ↔ _
      rw [hcfg]
      exact h.state.trans (by rw [← hcfg]; rfl)
  · -- the handle is null before and after the call
    have hnone : s.hwCfgCb.nvFp = none := by
      by_contra hne
      exact hs (h.state.mp hne)
    have hnone' : (cfgResult addr s (.callback i)).state.hwCfgCb.nvFp = none := by
      rcases hfile with hfile | hfile
      · exact hfile.trans hnone
      · exact hfile
    refine ⟨?_, iff_of_false (fun h => h hnone') ht⟩
    rw [hevents, h.held, s.nvHeld_of_none hnone, ConfigState.nvHeld_of_none hnone']

/-- When a turn begins the file is open, from an earlier callback or from this one. -/
theorem HandleInv.heldAfter_turn (h : HandleInv os s) {i : CallbackIn} {chip : ℕ} {f : CFile} {c : Call}
    (hc : NvTurn addr s i chip f c) :
    heldAfter () none (nvEvents os ++ nvEvents c.trace) = some (some ()) := by
  have hheld := h.held
  rcases hc.trace with ⟨htrace, hstate⟩ | ⟨path, htrace, hstate⟩
  · rw [s.nvHeld_of_ne (h.state.mpr hstate)] at hheld
    rw [htrace]
    exact heldAfter_trans hheld rfl
  · have hnone : s.hwCfgCb.nvFp = none := by
      by_contra hne
      exact absurd ((h.state.mp hne).symm.trans hstate) nofun
    rw [s.nvHeld_of_none hnone] at hheld
    rw [htrace]
    exact heldAfter_trans hheld rfl

/-- **A callback.** -/
theorem HandleInv.callback_iff (h : HandleInv os s) (i : CallbackIn) :
    HandleKept addr os s (.callback i) ↔ KeepsHandle s (.callback i) := by
  cases hturn : nvTurn s i with
  | none => exact iff_of_true (h.apart hturn) fun chip f hf => absurd (hturn.symm.trans hf) nofun
  | some turn =>
    obtain ⟨chip, f⟩ := turn
    obtain ⟨c, hc⟩ := exists_nvTurn addr hturn
    obtain ⟨⟨es, hevents, hleaves⟩, hreturned⟩ := hc.leaves
    have hopen := h.heldAfter_turn hc
    have hinv : HandleInv (os ++ (cfgResult addr s (.callback i)).trace)
        (cfgResult addr s (.callback i)).state := by
      obtain ⟨hheld, hstate⟩ := HandleInv.of_leaves hopen hleaves
      refine ⟨?_, hstate⟩
      rw [nvEvents_append, show nvEvents (cfgResult addr s (.callback i)).trace = _ from hevents,
        ← List.append_assoc]
      exact hheld
    -- a turn of the download has its event
    have hmisses : ¬ MissesEvent s (.callback i) := by
      rintro ⟨hstate, hmem⟩
      rw [nvTurn, hstate, hmem] at hturn
      simp at hturn
    have hkeeps : KeepsHandle s (.callback i) ↔ ClosesOnce i chip f := by
      constructor
      · exact fun h => h chip f hturn
      · rintro h chip' f' hturn'
        obtain ⟨rfl, rfl⟩ := Prod.mk.inj (Option.some.inj (hturn.symm.trans hturn'))
        exact h
    rw [hkeeps, ← hreturned]
    constructor
    · exact fun hkept => hkept.returned.resolve_right hmisses
    · exact fun hdone => ⟨hinv, .inl hdone⟩

/-- **A start.** -/
theorem HandleInv.start_iff (h : HandleInv os s) (alloc : Option (Block hciCmdPreambleSize))
    (xmit : Bool) : HandleKept addr os s (.start alloc xmit) ↔ KeepsHandle s (.start alloc xmit) := by
  have hstart : nvEvents (scommVendorConfigStart s alloc xmit).trace = [] ∧
      (scommVendorConfigStart s alloc xmit).state.hwCfgCb.nvFp = none ∧
      (scommVendorConfigStart s alloc xmit).state.hwCfgCb.state ≠ .nvSend ∧
      (scommVendorConfigStart s alloc xmit).returned = true := by
    by_cases hcb : s.btVendorCbacks = true
    · cases alloc <;> simp [scommVendorConfigStart, hcb, Flow.finish, Call.xmitCb, Call.emit,
        Call.setState, Call.store, nvEvents, CfgEvent.nvFp?]
    · simp [scommVendorConfigStart, hcb, Flow.finish, nvEvents]
  obtain ⟨hevents, hfile, hstate, hreturned⟩ := hstart
  have hevents' : nvEvents (os ++ (cfgResult addr s (.start alloc xmit)).trace) = nvEvents os := by
    rw [nvEvents_append, show nvEvents (cfgResult addr s (.start alloc xmit)).trace = [] from hevents,
      List.append_nil]
  have hnone := ConfigState.nvHeld_of_none hfile
  constructor
  · -- the handle is forgotten
    rintro ⟨⟨hheld, -⟩, -⟩ hs
    rw [hevents', h.held, s.nvHeld_of_ne (h.state.mpr hs),
      show (cfgResult addr s (.start alloc xmit)).state.nvHeld = none from hnone] at hheld
    cases hheld
  · intro hs
    have hs' : s.hwCfgCb.nvFp = none := by
      by_contra hne
      exact hs (h.state.mp hne)
    refine ⟨⟨?_, iff_of_false (fun h => h hfile) hstate⟩, .inl hreturned⟩
    rw [hevents', h.held, s.nvHeld_of_none hs']
    exact congrArg some hnone.symm

end Calls

/-- **In every run** the NV file handle is opened and closed in step with the state, as the calls go
and where one does not return, if and only if every call is one that keeps it. -/
theorem nv_handle_iff (addr : Bdaddr) (is : List CfgInput) :
    (∀ ks i js os s, is = ks ++ i :: js → CfgRun addr ks os s → HandleKept addr os s i) ↔
      ∀ ks i js os s, is = ks ++ i :: js → CfgRun addr ks os s → KeepsHandle s i := by
  refine Execution.attempts_iff (I := HandleInv) ?_ ?_ ?_
  · exact ⟨rfl, iff_of_false (fun h => h rfl) nofun⟩
  · intro os s i h
    cases i with
    | register cbacks =>
      have hnone : os ++ (cfgResult addr s (.register cbacks)).trace = os := List.append_nil os
      refine iff_of_true ⟨?_, .inl rfl⟩ trivial
      rw [hnone]
      exact ⟨h.held, h.state⟩
    | start alloc xmit => exact h.start_iff alloc xmit
    | callback i => exact h.callback_iff i
  · intro os s i o t _ hkept hstep
    have hinv := hkept.inv
    rw [hstep] at hinv
    exact hinv

/-- A block that is refused at the end of the file: the file is closed, and then closed again. -/
theorem nv_handle_refused :
    let i : CallbackIn := ⟨some [0x0E, 0x04, 0x01, 0x03, 0x0C, 0x00], some (.zero _), true,
      fun _ => some [], .openFails, .zero _⟩
    let is : List CfgInput := [.register true, .start (some (.zero _)) true, .callback i,
      .callback { i with xmit := false }]
    ¬ ∀ ks i js os s, is = ks ++ i :: js → CfgRun .initial ks os s → HandleKept .initial os s i := by
  intro i is hkept
  have hregister : CfgStep .initial .boot (.register true) [] ⟨true, ⟨.init, 0, none⟩, 0⟩ := rfl
  have hstart : CfgStep .initial ⟨true, ⟨.init, 0, none⟩, 0⟩ (.start (some (.zero _)) true) _
      ⟨true, ⟨.start, 0, none⟩, 0⟩ := rfl
  have hreset : CfgStep .initial ⟨true, ⟨.start, 0, none⟩, 0⟩ (.callback i) _
      ⟨true, ⟨.readHciVersion, 0, none⟩, 0⟩ := rfl
  have hrun := ((Execution.start.snoc hregister).snoc hstart).snoc hreset
  have hreturned := (hkept _ _ [] _ _ rfl hrun).returned
  have hcrash : (cfgResult .initial ⟨true, ⟨.readHciVersion, 0, none⟩, 0⟩
      (.callback { i with xmit := false })).returned = false := rfl
  rcases hreturned with hdone | hmissing
  · cases hcrash.symm.trans hdone
  · cases hmissing.2

end Seekwave
