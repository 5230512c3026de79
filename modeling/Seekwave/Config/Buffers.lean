import Seekwave.Config.Run
import Seekwave.Lib.Ownership

/-!
# Who owns the buffers of a callback

A callback allocates a command buffer and is handed an event buffer. `OwnedOnceBy` says that the first
is passed on or freed once, and not touched afterwards, and the second freed once;
`buffers_owned_once_iff` says when a callback in a reachable state does so. It does not if it has
nothing to send, if `xmit_cb` refuses a command behind which there is no error path, if the NV file is
missing or cut off, and with every block that is accepted, since it is logged behind `xmit_cb`.
-/

open Memory

namespace Seekwave

/-! ## Uses of the command buffer -/

/-- What an event does to the command buffer. `xmit_cb` takes a buffer it accepts. -/
def CfgEvent.bufUse? : CfgEvent → Option BufUse
  | .write _ _ | .access => some .use
  | .xmitCb _ _ _ ret => some (if ret then .give else .use)
  | .deallocBuf => some .free
  | _ => none

def bufUses (os : List CfgEvent) : List BufUse := os.filterMap CfgEvent.bufUse?

/-- A call passes the command buffer on or frees it once, does not touch it afterwards, and frees the
event once. -/
structure OwnedOnceBy (pMem : Option (List UInt8)) (r : CfgResult) : Prop where
  buffer : .alloc true ∈ r.trace → OwnedOnce (bufUses r.trace)
  event : pMem ≠ none → r.trace.count .deallocEvt = 1

@[simp] theorem bufUses_append (os ps : List CfgEvent) : bufUses (os ++ ps) = bufUses os ++ bufUses ps :=
  List.filterMap_append

/-- Accesses are uses. -/
theorem eq_use_of_isUse {ws : List CfgEvent} (h : ∀ w ∈ ws, w.IsUse) : ∀ u ∈ bufUses ws, u = .use := by
  intro u hu
  obtain ⟨w, hw, hwu⟩ := List.mem_filterMap.mp hu
  have hwuse := h w hw
  cases w with
  | write _ _ => exact (Option.some.inj hwu).symm
  | access => exact (Option.some.inj hwu).symm
  | _ => exact hwuse.elim

theorem deallocEvt_not_mem_of_isUse {ws : List CfgEvent} (h : ∀ w ∈ ws, w.IsUse) :
    .deallocEvt ∉ ws := fun hmem => h _ hmem

/-- The call has its buffer and has only used it so far. -/
structure Entered (os : List CfgEvent) : Prop where
  alloc : .alloc true ∈ os
  uses : ∀ u ∈ bufUses os, u = .use
  event : .deallocEvt ∉ os

section Finish

variable {pMem : Option (List UInt8)} {flow : Flow} {cfg : ConfigState} {fe : FlowEnd}
  {ps ws es : List CfgEvent}

theorem Entered.append (h : Entered ps) (hws : ∀ w ∈ ws, w.IsUse) : Entered (ps ++ ws) where
  alloc := List.mem_append_left _ h.alloc
  uses := by
    rw [bufUses_append]
    exact List.forall_mem_append.mpr ⟨h.uses, eq_use_of_isUse hws⟩
  event := by
    rw [List.mem_append, not_or]
    exact ⟨h.event, deallocEvt_not_mem_of_isUse hws⟩

/-- Who owns the buffer is decided behind its first uses, and before the release of the event. -/
theorem ownedOnce_finish (hps : Entered ps) (hout : flow.outcome.2.2 = ps ++ es) :
    OwnedOnce (bufUses (flow.finish pMem).trace) ↔ OwnedOnce (bufUses es) := by
  obtain ⟨qs, htrace, hqs⟩ := exists_trace_finish pMem flow
  have hnone : bufUses qs = [] := by rcases hqs with rfl | rfl <;> rfl
  rw [htrace, hout, bufUses_append, bufUses_append, hnone, List.append_nil, ownedOnce_append hps.uses]

theorem OwnedOnceBy.ownedOnce (h : OwnedOnceBy pMem (flow.finish pMem)) (hps : Entered ps)
    (hout : flow.outcome.2.2 = ps ++ es) : OwnedOnce (bufUses es) := by
  obtain ⟨qs, htrace, -⟩ := exists_trace_finish pMem flow
  refine (ownedOnce_finish hps hout).mp (h.buffer ?_)
  rw [htrace, hout]
  exact List.mem_append_left _ (List.mem_append_left _ hps.alloc)

/-- **A call owns its buffers once** if what it does behind its first uses does so for the command
buffer, and it comes to its end, where the event is freed. -/
theorem ownedOnceBy_iff (hps : Entered ps) (hes : .deallocEvt ∉ es)
    (hout : flow.outcome = (fe, cfg, ps ++ es)) (hcb : cfg.btVendorCbacks = true) :
    OwnedOnceBy pMem (flow.finish pMem) ↔
      OwnedOnce (bufUses es) ∧ (fe = .done ∨ pMem = none) := by
  have htrace : flow.outcome.2.2 = ps ++ es := by rw [hout]
  have hps' := List.count_eq_zero.mpr hps.event
  have hes' := List.count_eq_zero.mpr hes
  have hevent : (pMem ≠ none → (flow.finish pMem).trace.count .deallocEvt = 1) ↔
      (fe = .done ∨ pMem = none) := by
    cases pMem with
    | none => simp
    | some event =>
      -- only a call that leaves the switch frees the event
      cases flow with
      | done c =>
        obtain ⟨rfl, rfl, hc⟩ : FlowEnd.done = fe ∧ c.cfg = cfg ∧ c.trace = ps ++ es := by
          simpa [Flow.outcome] using hout
        simp [Flow.finish, hcb, Call.emit, hc, List.count_append, hps', hes']
      | «return» c =>
        obtain ⟨rfl, rfl, hc⟩ : FlowEnd.returned = fe ∧ c.cfg = cfg ∧ c.trace = ps ++ es := by
          simpa [Flow.outcome] using hout
        simp [Flow.finish, hc, List.count_append, hps', hes']
      | crash c =>
        obtain ⟨rfl, rfl, hc⟩ : FlowEnd.crashed = fe ∧ c.cfg = cfg ∧ c.trace = ps ++ es := by
          simpa [Flow.outcome] using hout
        simp [Flow.finish, hc, List.count_append, hps', hes']
  constructor
  · intro h
    exact ⟨h.ownedOnce hps htrace, hevent.mp h.event⟩
  · rintro ⟨hbuffer, hend⟩
    exact ⟨fun _ => (ownedOnce_finish hps htrace).mpr hbuffer, hevent.mpr hend⟩

end Finish

/-! ## The cases -/

/-- When a call of the download owns its buffers once. For chip 0x5301 the file has to begin with a
complete TLV that fits and must not be cut off where the batch ends, whether the command is accepted or
not. For the other chips the command must not be accepted, and the block not be the last one: a block
that is refused at the end of the file closes the file twice. -/
def NvSendOwns (i : CallbackIn) (chip : ℕ) (f : CFile) : Prop :=
  if chip = skwChipid6316 then
    ∃ (b : List Tlv) (e : PackEnd) (tail : List UInt8), b ≠ [] ∧ e ≠ .truncated ∧
      f.rest = encode b ++ tail ∧ tlvsSize b ≤ 252 ∧ e.Stops tail (tlvsSize b)
  else i.xmit = false ∧ (nvFileRdBlockSize ≤ f.rest.length ∨ i.pMem = none)

section Cases

variable {addr : Bdaddr} {i : CallbackIn} {c : Call} {f : CFile}

/-- The download of chip 0x5301. -/
theorem nvSend6316_owns (hc : Entered c.trace) (hcb : c.cfg.btVendorCbacks = true)
    (hf : c.cfg.hwCfgCb.nvFp = some f) (hmem : 258 ≤ c.mem.length)
    (hop : c.mem.take 2 = uint16ToStream hciCmdSkwBtNvds) :
    OwnedOnceBy i.pMem ((nvSend6316 addr i c).finish i.pMem) ↔
      ∃ (b : List Tlv) (e : PackEnd) (tail : List UInt8), b ≠ [] ∧ e ≠ .truncated ∧
        f.rest = encode b ++ tail ∧ tlvsSize b ≤ 252 ∧ e.Stops tail (tlvsSize b) := by
  constructor
  · intro h
    obtain ⟨b, e, tail, hrest, hfit, hstop⟩ := exists_batch f.rest 0 (Nat.zero_le _)
    rw [Nat.zero_add] at hfit hstop
    have he : e ≠ .truncated := by
      -- the buffer is freed, and written to afterwards
      rintro rfl
      obtain ⟨ws, m, hws, hout⟩ :=
        @nvSend6316_truncated addr i c f b tail hf hrest hfit hstop hmem
      have hfreed := h.ownedOnce (hc.append hws) (congrArg (·.2.2) hout)
      exact not_ownedOnce (by decide : BufUse.free ≠ .use) .use _ hfreed
    refine ⟨b, e, tail, ?_, he, hrest, hfit, hstop⟩
    -- without a TLV nothing is done with the buffer
    rintro rfl
    obtain ⟨f', ws, hws, hout⟩ := @nvSend6316_empty addr i c f e hf (hrest ▸ hstop) hmem he
    have howned := h.ownedOnce (hc.append hws) (congrArg (·.2.2) hout)
    cases e with
    | truncated => exact he rfl
    | fileEnd => exact absurd howned (by decide)
    | full => exact absurd howned (by decide)
  · rintro ⟨b, e, tail, hb, he, hrest, hfit, hstop⟩
    cases hxmit : i.xmit with
    | true =>
      obtain ⟨c', f', ws, m, -, hws, -, hout⟩ :=
        @nvSend6316_sent addr i c f b e tail hf hrest hfit hstop hmem hop he hb hxmit
      refine (ownedOnceBy_iff (hc.append hws) ?_ hout hcb).mpr ⟨?_, .inl rfl⟩
      · split <;> simp
      · split <;> exact .inl rfl
    | false =>
      obtain ⟨ws, m, hws, hout⟩ :=
        @nvSend6316_refused addr i c f b e tail hf hrest hfit hstop hmem he hb hxmit
      exact (ownedOnceBy_iff (hc.append hws) (by simp) hout hcb).mpr ⟨.inr rfl, .inl rfl⟩

/-- The download of the other chips. -/
theorem nvSendBlock_owns (hc : Entered c.trace) (hcb : c.cfg.btVendorCbacks = true)
    (hf : c.cfg.hwCfgCb.nvFp = some f) (hmem : 258 ≤ c.mem.length)
    (hop : c.mem.take 2 = uint16ToStream hciCmdSkwBtNvds) :
    OwnedOnceBy i.pMem ((nvSendBlock addr i c).finish i.pMem) ↔
      i.xmit = false ∧ (nvFileRdBlockSize ≤ f.rest.length ∨ i.pMem = none) := by
  obtain ⟨ws, m, hws, -, -, hout⟩ := @nvSendBlock_outcome addr i c f hf hmem hop
  have hps := hc.append hws
  -- the event is given to `xmit_cb`, and freed as well if that takes it or the block is the last
  cases hxmit : i.xmit with
  | true =>
    rw [if_pos hxmit] at hout
    constructor
    · intro h
      have hgiven := h.ownedOnce hps (congrArg (·.2.2) hout)
      exact absurd hgiven (not_ownedOnce (by decide : BufUse.give ≠ .use) .use _)
    · rintro ⟨h, -⟩
      cases h
  | false =>
    rw [if_neg (by simp [hxmit])] at hout
    by_cases hlast : f.rest.length < nvFileRdBlockSize
    · rw [if_pos hlast] at hout
      rw [ownedOnceBy_iff hps (by simp) hout hcb]
      constructor
      · rintro ⟨-, hdone | hnone⟩
        · cases hdone
        · exact ⟨rfl, .inr hnone⟩
      · rintro ⟨-, hle | hnone⟩
        · exact absurd hlast (Nat.not_lt.mpr hle)
        · exact ⟨.inr rfl, .inr hnone⟩
    · rw [if_neg hlast] at hout
      rw [ownedOnceBy_iff hps (by simp) hout hcb]
      constructor
      · intro _
        exact ⟨rfl, .inl (Nat.not_lt.mp hlast)⟩
      · intro _
        exact ⟨.inr rfl, .inl rfl⟩

/-- **A call of the download.** -/
theorem caseNvSend_owns (hc : Entered c.trace) (hcb : c.cfg.btVendorCbacks = true)
    (hf : c.cfg.hwCfgCb.nvFp = some f) (hmem : 258 ≤ c.mem.length) :
    OwnedOnceBy i.pMem ((caseNvSend addr i c).finish i.pMem) ↔
      NvSendOwns i c.cfg.chipVersion f := by
  have hc₀ : Entered (c.store 0 (uint16ToStream hciCmdSkwBtNvds)).trace :=
    hc.append (by simp [CfgEvent.IsUse])
  by_cases hchip : c.cfg.chipVersion = skwChipid6316
  · rw [NvSendOwns, if_pos hchip, caseNvSend_6316 hchip]
    exact nvSend6316_owns hc₀ hcb hf (Nat.le_trans hmem (length_le_length_store _ _ _))
      (take_store (Nat.zero_le _) rfl)
  · rw [NvSendOwns, if_neg hchip, caseNvSend_other hchip]
    exact nvSendBlock_owns hc₀ hcb hf (Nat.le_trans hmem (length_le_length_store _ _ _))
      (take_store (Nat.zero_le _) rfl)

end Cases

/-! ## The callback -/

/-- When a callback that gets its buffer owns its buffers once: it has to have something to do with the
command buffer, and a command that is not part of a download has to be accepted. -/
def CaseOwns (s : ConfigState) (i : CallbackIn) : Prop :=
  match s.hwCfgCb.state with
  | .start => i.xmit = true
  | .readHciVersion => ∃ event content, i.pMem = some event ∧
      i.fopen (nvPath event) = some content ∧
      NvSendOwns i (keptVersion event) (nvStream event content)
  | .nvSend => ∀ f, s.hwCfgCb.nvFp = some f → NvSendOwns i s.chipVersion f
  | .writeBdAddr => i.storage.address? = none ∨ i.xmit = true
  | .nvSendCmpl => True
  | _ => False

/-- When a callback owns its buffers once. -/
def OwnsBuffers (s : ConfigState) (i : CallbackIn) : Prop :=
  (s.btVendorCbacks = true ∨ i.pMem = none) ∧
    (cmdCmplStatus i.pMem = 0 → s.btVendorCbacks = true → i.alloc ≠ none → CaseOwns s i)

/-- In `HW_CFG_NV_SEND` the NV file is open. -/
def NvOpen (s : ConfigState) : Prop := s.hwCfgCb.state = .nvSend → s.hwCfgCb.nvFp ≠ none

section Callback

variable {addr : Bdaddr} {s : ConfigState} {i : CallbackIn} {block : Block hciCmdMaxLen}

theorem entered_enter (s : ConfigState) (block : Block hciCmdMaxLen) :
    Entered (Call.enter s block).trace :=
  ⟨by simp [Call.enter], by simp [Call.enter, bufUses, CfgEvent.bufUse?], by simp [Call.enter]⟩

theorem entered_opened (s : ConfigState) (block : Block hciCmdMaxLen) (event content : List UInt8) :
    Entered (Call.opened s block event content).trace :=
  ⟨by simp [Call.opened], by simp [Call.opened, bufUses, CfgEvent.bufUse?], by simp [Call.opened]⟩

/-- A command that is not part of a download is either accepted or lost. -/
theorem ownedOnceBy_xmitCb {pMem : Option (List UInt8)} {flow : Flow} {cfg : ConfigState}
    {ps : List CfgEvent} {opcode len : ℕ} {m : List UInt8} {ret : Bool} (hps : Entered ps)
    (hout : flow.outcome = (.done, cfg, ps ++ [.xmitCb opcode len m ret]))
    (hcb : cfg.btVendorCbacks = true) : OwnedOnceBy pMem (flow.finish pMem) ↔ ret = true := by
  rw [ownedOnceBy_iff hps (by simp) hout hcb]
  cases ret with
  | true => exact iff_of_true ⟨.inl rfl, .inl rfl⟩ rfl
  | false =>
    have hlost : ¬ OwnedOnce [.use] := by decide
    exact iff_of_false (fun h => hlost h.1) (by simp)

/-- A result reported behind which the buffer is freed. -/
theorem ownedOnceBy_fwcfgCb {pMem : Option (List UInt8)} {flow : Flow} {cfg : ConfigState}
    {ps : List CfgEvent} (hps : Entered ps)
    (hout : flow.outcome = (.done, cfg, ps ++ [.fwcfgCb true, .deallocBuf]))
    (hcb : cfg.btVendorCbacks = true) : OwnedOnceBy pMem (flow.finish pMem) :=
  (ownedOnceBy_iff hps (by simp) hout hcb).mpr ⟨.inr rfl, .inl rfl⟩

/-- A call that does not do anything with its buffer loses it. -/
theorem not_ownedOnceBy {pMem : Option (List UInt8)} {flow : Flow} {ps es : List CfgEvent}
    (hps : Entered ps) (htrace : flow.outcome.2.2 = ps ++ es) (hes : bufUses es = []) :
    ¬ OwnedOnceBy pMem (flow.finish pMem) := by
  intro h
  have howned := h.ownedOnce hps htrace
  rw [hes] at howned
  exact absurd howned (by decide)

/-- `HW_CFG_READ_HCI_VERSION` owns the buffer once if it finds the file, and the download then does. -/
theorem caseReadHciVersion_owns (hcb : s.btVendorCbacks = true) :
    OwnedOnceBy i.pMem ((caseReadHciVersion addr i (.enter s block)).finish i.pMem) ↔
      ∃ event content, i.pMem = some event ∧ i.fopen (nvPath event) = some content ∧
        NvSendOwns i (keptVersion event) (nvStream event content) := by
  have hps := entered_enter s block
  cases hevent : i.pMem with
  | none =>
    have hcrash : caseReadHciVersion addr i (.enter s block) = .crash (.enter s block) := by
      rw [caseReadHciVersion, hevent]
    rw [hcrash]
    refine iff_of_false (not_ownedOnceBy hps (List.append_nil _).symm rfl) ?_
    rintro ⟨event, content, h, -⟩
    cases h
  | some event =>
    -- without the file the case returns, and neither buffer is freed
    cases hfile : i.fopen (nvPath event) with
    | none =>
      have hout := @caseReadHciVersion_missing addr i (.enter s block) event hevent hfile
      refine iff_of_false (not_ownedOnceBy hps (congrArg (·.2.2) hout) rfl) ?_
      rintro ⟨event', content, h, hfile', -⟩
      obtain rfl := Option.some.inj h
      cases hfile.symm.trans hfile'
    | some content =>
      have hopened := @caseReadHciVersion_opened addr i (.enter s block) event content hevent hfile
      rw [hopened, ← hevent]
      refine (caseNvSend_owns (entered_opened s block event content) hcb rfl
        (Nat.le_of_eq block.size.symm)).trans ?_
      constructor
      · intro h
        exact ⟨event, content, hevent, hfile, h⟩
      · rintro ⟨event', content', hevent', hfile', h⟩
        obtain rfl := Option.some.inj (hevent.symm.trans hevent')
        obtain rfl := Option.some.inj (hfile.symm.trans hfile')
        exact h

/-- **The switch.** -/
theorem configSwitch_owns (hcb : s.btVendorCbacks = true) (hopen : NvOpen s) :
    OwnedOnceBy i.pMem ((configSwitch addr i (.enter s block)).finish i.pMem) ↔ CaseOwns s i := by
  have hps := entered_enter s block
  have hidle : ¬ OwnedOnceBy i.pMem ((Flow.done (.enter s block)).finish i.pMem) :=
    not_ownedOnceBy hps (List.append_nil _).symm rfl
  rw [configSwitch, show (Call.enter s block).cfg.hwCfgCb.state = s.hwCfgCb.state from rfl, CaseOwns]
  cases hstate : s.hwCfgCb.state with
  | start =>
    obtain ⟨ws, m, hws, -, -, hout⟩ := @caseStart_outcome i (.enter s block)
    exact ownedOnceBy_xmitCb (hps.append hws) hout hcb
  | readHciVersion => exact caseReadHciVersion_owns hcb
  | nvSend =>
    obtain ⟨f, hf⟩ := Option.ne_none_iff_exists'.mp (hopen hstate)
    refine (caseNvSend_owns hps hcb hf (Nat.le_of_eq block.size.symm)).trans ?_
    constructor
    · rintro h g hg
      obtain rfl := Option.some.inj (hf.symm.trans hg)
      exact h
    · intro h
      exact h f hf
  | writeBdAddr =>
    cases haddress : i.storage.address? with
    | none =>
      obtain ⟨ws, hws, -, hout⟩ := @caseWriteBdAddr_none i (.enter s block) haddress
      exact iff_of_true (ownedOnceBy_fwcfgCb (hps.append hws) hout hcb) (.inl rfl)
    | some address =>
      obtain ⟨ws, m, hws, -, -, hout⟩ := @caseWriteBdAddr_some i (.enter s block) address haddress
      simpa using @ownedOnceBy_xmitCb i.pMem _ _ _ _ _ _ _ (hps.append hws) hout hcb
  | nvSendCmpl =>
    have hout := @caseNvSendCmpl_outcome (.enter s block)
    exact iff_of_true (ownedOnceBy_fwcfgCb hps hout hcb) trivial
  -- the states that no command leads to free nothing
  | init => exact iff_of_false hidle id
  | writeOsType => exact iff_of_false hidle id
  | resetController => exact iff_of_false hidle id
  | initComplete => exact iff_of_false hidle id

/-- A call without a command buffer frees the event if the callbacks are registered. -/
theorem ownedOnceBy_without {pMem : Option (List UInt8)} {c : Call} (halloc : .alloc true ∉ c.trace)
    (hevent : .deallocEvt ∉ c.trace) :
    OwnedOnceBy pMem ((Flow.done c).finish pMem) ↔ c.cfg.btVendorCbacks = true ∨ pMem = none := by
  have hcount := List.count_eq_zero.mpr hevent
  have hbuffer : .alloc true ∉ ((Flow.done c).finish pMem).trace := by
    obtain ⟨es, htrace, hes⟩ := exists_trace_finish pMem (.done c)
    rw [htrace, List.mem_append, not_or]
    refine ⟨halloc, ?_⟩
    rcases hes with rfl | rfl <;> simp
  constructor
  · intro h
    by_contra hnot
    obtain ⟨hcb, hmem⟩ := not_or.mp hnot
    have hone := h.event hmem
    simp [Flow.finish, hcb, hcount] at hone
  · intro h
    refine ⟨fun hmem => absurd hmem hbuffer, fun hmem => ?_⟩
    have hcb := h.resolve_right hmem
    simp [Flow.finish, hcb, Option.isSome_iff_ne_none.mpr hmem, Call.emit, List.count_append, hcount]

/-- A callback in any state in which the NV file is open if it is downloaded. -/
theorem callback_owns (addr : Bdaddr) (i : CallbackIn) (hopen : NvOpen s) :
    OwnedOnceBy i.pMem (scommVendorConfigCallback addr s i) ↔ OwnsBuffers s i := by
  rw [scommVendorConfigCallback, OwnsBuffers]
  by_cases hgo : cmdCmplStatus i.pMem = 0 ∧ s.btVendorCbacks = true
  · rw [if_pos hgo]
    cases halloc : i.alloc with
    | none =>
      refine iff_of_true ((ownedOnceBy_without (by simp) (by simp)).mpr (.inl hgo.2)) ?_
      exact ⟨.inl hgo.2, fun _ _ h => absurd rfl h⟩
    | some block =>
      refine (configSwitch_owns hgo.2 hopen).trans ?_
      constructor
      · intro h
        exact ⟨.inl hgo.2, fun _ _ _ => h⟩
      · rintro ⟨-, h⟩
        exact h hgo.1 hgo.2 (by simp)
  · rw [if_neg hgo]
    refine (ownedOnceBy_without (by simp) (by simp)).trans ?_
    constructor
    · intro h
      exact ⟨h, fun hstatus hcb => absurd ⟨hstatus, hcb⟩ hgo⟩
    · rintro ⟨h, -⟩
      exact h

end Callback

/-! ## Reachable states -/

section Reachable

variable {addr : Bdaddr} {i : CallbackIn} {c : Call} {f : CFile} {s t : ConfigState}

/-- A state other than `HW_CFG_NV_SEND` needs no file. -/
theorem nvOpen_of_ne (h : s.hwCfgCb.state ≠ .nvSend) : NvOpen s := fun hs => absurd hs h

/-- A file that is there is open. -/
theorem nvOpen_of_some (h : s.hwCfgCb.nvFp = some f) : NvOpen s := fun _ => by
  rw [h]
  nofun

/-- The download of chip 0x5301 closes the file when it leaves `HW_CFG_NV_SEND`. -/
theorem nvSend6316_open (hf : c.cfg.hwCfgCb.nvFp = some f) (hmem : 258 ≤ c.mem.length)
    (hop : c.mem.take 2 = uint16ToStream hciCmdSkwBtNvds) :
    NvOpen (nvSend6316 addr i c).outcome.2.1 := by
  obtain ⟨b, e, tail, hrest, hfit, hstop⟩ := exists_batch f.rest 0 (Nat.zero_le _)
  rw [Nat.zero_add] at hfit hstop
  -- by the end of the batch; wherever the file is closed, the state is left too
  by_cases he : e = .truncated
  · subst he
    obtain ⟨ws, m, -, hout⟩ :=
      @nvSend6316_truncated addr i c f b tail hf hrest hfit hstop hmem
    rw [hout]
    exact nvOpen_of_ne nofun
  by_cases hb : b = []
  · subst hb
    obtain ⟨f', ws, -, hout⟩ := @nvSend6316_empty addr i c f e hf (hrest ▸ hstop) hmem he
    rw [hout]
    split
    · exact nvOpen_of_ne nofun
    · exact nvOpen_of_some rfl
  cases hxmit : i.xmit with
  | true =>
    obtain ⟨c', f', ws, m, -, -, -, hout⟩ :=
      @nvSend6316_sent addr i c f b e tail hf hrest hfit hstop hmem hop he hb hxmit
    rw [hout]
    split
    · exact nvOpen_of_ne nofun
    · exact nvOpen_of_some rfl
  | false =>
    obtain ⟨ws, m, -, hout⟩ :=
      @nvSend6316_refused addr i c f b e tail hf hrest hfit hstop hmem he hb hxmit
    rw [hout]
    exact nvOpen_of_ne nofun

/-- So does that of the other chips. -/
theorem nvSendBlock_open (hf : c.cfg.hwCfgCb.nvFp = some f) (hmem : 258 ≤ c.mem.length)
    (hop : c.mem.take 2 = uint16ToStream hciCmdSkwBtNvds) :
    NvOpen (nvSendBlock addr i c).outcome.2.1 := by
  obtain ⟨ws, m, -, -, -, hout⟩ := @nvSendBlock_outcome addr i c f hf hmem hop
  rw [hout]
  by_cases hxmit : i.xmit = true
  · rw [if_pos hxmit]
    dsimp only
    split
    · exact nvOpen_of_ne nofun
    · exact nvOpen_of_some rfl
  · rw [if_neg hxmit]
    split
    · exact nvOpen_of_ne nofun
    · exact nvOpen_of_ne nofun

theorem caseNvSend_open (hf : c.cfg.hwCfgCb.nvFp = some f) (hmem : 258 ≤ c.mem.length) :
    NvOpen (caseNvSend addr i c).outcome.2.1 := by
  by_cases hchip : c.cfg.chipVersion = skwChipid6316
  · rw [caseNvSend_6316 hchip]
    exact nvSend6316_open hf (Nat.le_trans hmem (length_le_length_store _ _ _))
      (take_store (Nat.zero_le _) rfl)
  · rw [caseNvSend_other hchip]
    exact nvSendBlock_open hf (Nat.le_trans hmem (length_le_length_store _ _ _))
      (take_store (Nat.zero_le _) rfl)

theorem configSwitch_open {block : Block hciCmdMaxLen} (hopen : NvOpen s) :
    NvOpen (configSwitch addr i (.enter s block)).outcome.2.1 := by
  have hidle : NvOpen (Flow.done (.enter s block)).outcome.2.1 := hopen
  rw [configSwitch, show (Call.enter s block).cfg.hwCfgCb.state = s.hwCfgCb.state from rfl]
  cases hstate : s.hwCfgCb.state with
  | start =>
    obtain ⟨ws, m, -, -, -, hout⟩ := @caseStart_outcome i (.enter s block)
    dsimp only
    rw [hout]
    exact nvOpen_of_ne fun h => by cases h
  | readHciVersion =>
    dsimp only
    cases hevent : i.pMem with
    | none =>
      rw [caseReadHciVersion, hevent]
      exact hopen
    | some event =>
      cases hfile : i.fopen (nvPath event) with
      | none =>
        rw [caseReadHciVersion_missing hevent hfile]
        exact nvOpen_of_ne fun h => by cases h
      | some content =>
        rw [caseReadHciVersion_opened hevent hfile]
        exact caseNvSend_open rfl (Nat.le_of_eq block.size.symm)
  | nvSend =>
    -- the state says that the file is open
    obtain ⟨f, hf⟩ := Option.ne_none_iff_exists'.mp (hopen hstate)
    exact caseNvSend_open hf (Nat.le_of_eq block.size.symm)
  | writeBdAddr =>
    dsimp only
    cases haddress : i.storage.address? with
    | none =>
      obtain ⟨ws, -, -, hout⟩ := @caseWriteBdAddr_none i (.enter s block) haddress
      rw [hout]
      exact nvOpen_of_ne fun h => by cases h
    | some address =>
      obtain ⟨ws, m, -, -, -, hout⟩ := @caseWriteBdAddr_some i (.enter s block) address haddress
      rw [hout]
      exact nvOpen_of_ne fun h => by cases h
  | nvSendCmpl =>
    dsimp only
    rw [caseNvSendCmpl_outcome]
    exact nvOpen_of_ne fun h => by cases h
  | init => exact hidle
  | writeOsType => exact hidle
  | resetController => exact hidle
  | initComplete => exact hidle

/-- Every call keeps the file open as long as it is downloaded. -/
theorem nvOpen_step {i : CfgInput} {os : List CfgEvent} (hs : NvOpen s)
    (h : CfgStep addr s i os t) : NvOpen t := by
  have ht : (cfgResult addr s i).state = t := congrArg CfgResult.state h
  rw [← ht]
  cases i with
  | register cbacks => exact hs
  | start alloc xmit =>
    simp only [cfgResult, scommVendorConfigStart, state_finish]
    split
    · cases alloc with
      | none => exact nvOpen_of_ne fun h => by cases h
      | some block => exact nvOpen_of_ne fun h => by cases h
    · exact nvOpen_of_ne fun h => by cases h
  | callback i =>
    rw [cfgResult, scommVendorConfigCallback, state_finish]
    split
    · cases i.alloc with
      | none => exact hs
      | some block => exact configSwitch_open hs
    · exact hs

/-- In every reachable state the file is open as long as it is downloaded. -/
theorem CfgRun.nvOpen {is : List CfgInput} {os : List CfgEvent} (h : CfgRun addr is os s) :
    NvOpen s := by
  refine h.invariant (I := fun _ _ s => NvOpen s) (nvOpen_of_ne nofun) ?_
  intro is os t i o u _ hopen hstep
  exact nvOpen_step hopen hstep

end Reachable

/-- **In every reachable state**, a callback passes its command buffer on or frees it once, does not
touch it afterwards, and frees the event once, if and only if `OwnsBuffers`. -/
theorem buffers_owned_once_iff {addr : Bdaddr} {is : List CfgInput} {os : List CfgEvent}
    {s : ConfigState} (h : CfgRun addr is os s) (i : CallbackIn) :
    OwnedOnceBy i.pMem (scommVendorConfigCallback addr s i) ↔ OwnsBuffers s i :=
  callback_owns addr i h.nvOpen

/-- The completion of the reset, whose callback sends the next command. -/
theorem buffers_owned_once_reset :
    let i : CallbackIn := ⟨some [0x0E, 0x04, 0x01, 0x03, 0x0C, 0x00], some (.zero _), true,
      fun _ => none, .openFails, .zero _⟩
    ∃ os s, CfgRun .initial [.register true, .start (some (.zero _)) true] os s ∧
      OwnedOnceBy i.pMem (scommVendorConfigCallback .initial s i) := by
  intro i
  have hregister : CfgStep .initial .boot (.register true) [] ⟨true, ⟨.init, 0, none⟩, 0⟩ := rfl
  have hstart : CfgStep .initial ⟨true, ⟨.init, 0, none⟩, 0⟩ (.start (some (.zero _)) true) _
      ⟨true, ⟨.start, 0, none⟩, 0⟩ := rfl
  have hrun := (Execution.start.snoc hregister).snoc hstart
  refine ⟨_, _, hrun, (buffers_owned_once_iff hrun i).mpr ⟨.inl rfl, fun _ _ _ => ?_⟩⟩
  exact (rfl : i.xmit = true)

/-- Without the NV file, the callback for the version returns at once and frees neither buffer. -/
theorem buffers_lost_missing :
    let i : CallbackIn := ⟨some [0x0E, 0x04, 0x01, 0x03, 0x0C, 0x00], some (.zero _), true,
      fun _ => none, .openFails, .zero _⟩
    ∃ os s, CfgRun .initial [.register true, .start (some (.zero _)) true, .callback i] os s ∧
      ¬ OwnedOnceBy i.pMem (scommVendorConfigCallback .initial s i) := by
  intro i
  have hregister : CfgStep .initial .boot (.register true) [] ⟨true, ⟨.init, 0, none⟩, 0⟩ := rfl
  have hstart : CfgStep .initial ⟨true, ⟨.init, 0, none⟩, 0⟩ (.start (some (.zero _)) true) _
      ⟨true, ⟨.start, 0, none⟩, 0⟩ := rfl
  have hreset : CfgStep .initial ⟨true, ⟨.start, 0, none⟩, 0⟩ (.callback i) _
      ⟨true, ⟨.readHciVersion, 0, none⟩, 0⟩ := rfl
  have hrun := ((Execution.start.snoc hregister).snoc hstart).snoc hreset
  refine ⟨_, _, hrun, fun h => ?_⟩
  obtain ⟨-, howns⟩ := (callback_owns .initial i (CfgRun.nvOpen hrun)).mp h
  obtain ⟨event, content, -, hfile, -⟩ := howns rfl rfl nofun
  exact absurd hfile nofun

end Seekwave
