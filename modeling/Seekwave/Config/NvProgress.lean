import Seekwave.Config.Faithful

/-!
# Whether an NV file makes the download progress

For chip 0x5301 and any file, every callback that executes `HW_CFG_NV_SEND` sends a part of the file
that has not been sent before, or reports a failure, if and only if each of them finds a complete TLV
that fits a command, no TLV that is cut off, and does not have to seek to a position that an `unsigned
int` does not hold (`nv_progress_iff`). The machine has no path to `fwcfg_cb` from there: with nothing
to send it returns with no command outstanding.
-/

open Memory

namespace Seekwave

/-! ## Parts of the file -/

/-- The callback `n` of a run executes `HW_CFG_NV_SEND` with the stream `f`, does `o` and leaves `u`. -/
def NvTurnAt (addr : Bdaddr) (s : ConfigState) (block : Block hciCmdPreambleSize)
    (inp : ℕ → CallbackIn) (n : ℕ) (f : CFile) (o : List CfgEvent) (u : Stack) : Prop :=
  ∃ os t chip, RunTo addr s block inp n os t ∧ nvTurn t.cfg (inp n) = some (chip, f) ∧
    StackStep addr t (.callback (inp n)) o u

/-- The position is one of those whose bytes the callback `n` has sent. -/
def SentIn (addr : Bdaddr) (s : ConfigState) (block : Block hciCmdPreambleSize)
    (inp : ℕ → CallbackIn) (n p : ℕ) : Prop :=
  ∃ f o u, NvTurnAt addr s block inp n f o u ∧ f.pos ≤ p ∧ p < f.pos + (nvdsData o).length

/-- One NVDS command is sent, which carries data from a part of the file that has not been sent, and the
download goes on or is over. -/
def SendsPart (addr : Bdaddr) (s : ConfigState) (block : Block hciCmdPreambleSize)
    (inp : ℕ → CallbackIn) (n : ℕ) (f : CFile) (o : List CfgEvent) (u : Stack) : Prop :=
  ∃ (k : UInt8) (b : List Tlv) (tail : List UInt8), b ≠ [] ∧ f.rest = encode b ++ tail ∧
    commands o = [(hciCmdSkwBtNvds, nvdsPacket k (sentBytes addr b))] ∧
    (u.cfg.hwCfgCb.state = .nvSend ∨ u.cfg.hwCfgCb.state = .writeBdAddr) ∧
    ∀ p, f.pos ≤ p → p < f.pos + tlvsSize b → ∀ m < n, ¬ SentIn addr s block inp m p

/-- If the callback `n` executes `HW_CFG_NV_SEND`, it returns, and sends a part of the file or reports
the failure. -/
def NvProgresses (addr : Bdaddr) (s : ConfigState) (block : Block hciCmdPreambleSize)
    (inp : ℕ → CallbackIn) (n : ℕ) : Prop :=
  ∀ os t chip f, RunTo addr s block inp n os t → 0 < t.outstanding →
    nvTurn t.cfg (inp n) = some (chip, f) → ∃ o u, StackStep addr t (.callback (inp n)) o u ∧
      (SendsPart addr s block inp n f o u ∨ results o = [false])

/-- The stream begins with a complete TLV that fits a command, the batch is not ended by one that is cut
off, and where the next one begins is a position below `2 ^ 32`. -/
def NvReadable (f : CFile) : Prop :=
  ∃ (b : List Tlv) (e : PackEnd) (tail : List UInt8), b ≠ [] ∧ e ≠ .truncated ∧
    f.rest = encode b ++ tail ∧ tlvsSize b ≤ 252 ∧ e.Stops tail (tlvsSize b) ∧
    (e = .full → f.pos + tlvsSize b < 2 ^ 32)

/-! ## Turns -/

section Turn

variable {addr : Bdaddr} {s t : ConfigState} {block : Block hciCmdPreambleSize}
  {inp : ℕ → CallbackIn} {i : CallbackIn} {event : List UInt8} {cells : Block hciCmdMaxLen}
  {chip n : ℕ} {f : CFile} {b : List Tlv} {e : PackEnd} {tail : List UInt8} {o : List CfgEvent}
  {t' u : Stack}

variable (addr) in
/-- A callback that proceeds and executes `HW_CFG_NV_SEND`. -/
theorem Proceeds.turn (hp : Proceeds s i event cells) (h : nvTurn s i = some (chip, f)) :
    ∃ c, NvSendCall addr s i event cells c ∧ c.cfg.chipVersion = chip ∧
      c.cfg.hwCfgCb.nvFp = some f := by
  rw [nvTurn] at h
  obtain ⟨-, h⟩ := Option.ite_none_right_eq_some.mp h
  split at h
  case h_1 hstate =>
    obtain ⟨g, hg, hpair⟩ := Option.map_eq_some_iff.mp h
    obtain ⟨rfl, rfl⟩ := Prod.mk.inj hpair
    exact ⟨_, hp.nvSendCall addr hstate, rfl, hg⟩
  case h_2 hstate =>
    obtain ⟨event', hevent, h⟩ := Option.bind_eq_some_iff.mp h
    obtain rfl : event = event' := Option.some.inj (hp.pMem.symm.trans hevent)
    obtain ⟨content, hfile, hpair⟩ := Option.map_eq_some_iff.mp h
    obtain ⟨rfl, rfl⟩ := Prod.mk.inj hpair
    exact ⟨_, hp.openedCall addr hstate hfile, rfl, rfl⟩
  case h_3 => cases h

variable (addr) in
/-- What the callback sends and leaves, if the stream begins with a batch that is not cut off. -/
theorem Proceeds.batch (hp : Proceeds s i event cells) (h : nvTurn s i = some (skwChipid6316, f))
    (hb : b ≠ []) (he : e ≠ .truncated) (hrest : f.rest = encode b ++ tail) (hfit : tlvsSize b ≤ 252)
    (hstop : e.Stops tail (tlvsSize b)) (hxmit : i.xmit = true) :
    ∃ t k, CallbackYields addr s i t [(hciCmdSkwBtNvds, nvdsPacket k (sentBytes addr b))] [] ∧
      t.btVendorCbacks = true ∧ t.chipVersion = skwChipid6316 ∧
      if e = .fileEnd then NvSent t else
        t.hwCfgCb = ⟨.nvSend, k + 1, some (f.seekBack (f.pos + tlvsSize b) 3)⟩ := by
  obtain ⟨c, hc, hchip, hf⟩ := hp.turn addr h
  have hyields := hc.batch hchip hf hrest hfit hstop he hb hxmit
  refine ⟨_, _, hyields, hc.cbacks, hchip, ?_⟩
  split
  · exact ⟨rfl, rfl⟩
  · rfl

/-- In the other states the callback does not execute `HW_CFG_NV_SEND`. -/
theorem nvTurn_of_ne (h : s.hwCfgCb.state ≠ .nvSend) (h' : s.hwCfgCb.state ≠ .readHciVersion) :
    nvTurn s i = none := by
  rw [nvTurn]
  split
  · split
    case h_1 hstate => exact absurd hstate h
    case h_2 hstate => exact absurd hstate h'
    case h_3 => rfl
  · rfl

/-- What a turn has sent. -/
theorem sentIn_iff {os : List CfgEvent} (hrun : RunTo addr s block inp n os t')
    (hturn : nvTurn t'.cfg (inp n) = some (chip, f))
    (hstep : StackStep addr t' (.callback (inp n)) o u) (p : ℕ) :
    SentIn addr s block inp n p ↔ f.pos ≤ p ∧ p < f.pos + (nvdsData o).length := by
  constructor
  · rintro ⟨g, o', u', ⟨os', v, chip', hrun', hturn', hstep'⟩, hp⟩
    obtain ⟨rfl, rfl⟩ := hrun.unique (fun _ _ _ _ _ _ h h' => h.det h') hrun'
    obtain ⟨rfl, rfl⟩ := Prod.mk.inj (Option.some.inj (hturn.symm.trans hturn'))
    obtain ⟨rfl, rfl⟩ := hstep.det hstep'
    exact hp
  · exact fun hp => ⟨f, o, u, ⟨os, t', chip, hrun, hturn, hstep⟩, hp⟩

/-- A callback that is no turn sends nothing of the file. -/
theorem not_sentIn {os : List CfgEvent} (hrun : RunTo addr s block inp n os t')
    (hturn : nvTurn t'.cfg (inp n) = none) (p : ℕ) : ¬ SentIn addr s block inp n p := by
  rintro ⟨g, o', u', ⟨os', v, chip', hrun', hturn', hstep'⟩, hp⟩
  obtain ⟨rfl, rfl⟩ := hrun.unique (fun _ _ _ _ _ _ h h' => h.det h') hrun'
  exact absurd (hturn.symm.trans hturn') nofun

end Turn

/-! ## Where a run stands -/

/-- The parts sent so far lie in front of the position of the stream, without a gap as long as an `int`
holds it. -/
structure PartsBefore (addr : Bdaddr) (s : ConfigState) (block : Block hciCmdPreambleSize)
    (inp : ℕ → CallbackIn) (n : ℕ) (f : CFile) : Prop where
  below : ∀ m < n, ∀ p, SentIn addr s block inp m p → p < f.pos
  covered : ∀ p, 4 ≤ p → p < f.pos → p < 2 ^ 31 → ∃ m < n, SentIn addr s block inp m p
  bound : f.pos < 2 ^ 32 + 3

/-- The states from which the machine does not go back to the NV file. -/
def NvOver (t : Stack) : Prop :=
  t.outstanding = 0 ∨ t.cfg.hwCfgCb.state = .writeBdAddr ∨ t.cfg.hwCfgCb.state = .init ∨
    t.cfg.hwCfgCb.state = .nvSendCmpl

/-- Where the run stands before callback `n`. -/
inductive NvPhase (addr : Bdaddr) (s : ConfigState) (block : Block hciCmdPreambleSize)
    (inp : ℕ → CallbackIn) (content : List UInt8) (n : ℕ) (t : Stack) : Prop
  | start (first : n = 0) (one : t.outstanding = 1) (cbacks : t.cfg.btVendorCbacks = true)
      (state : t.cfg.hwCfgCb.state = .start)
  | version (second : n = 1) (one : t.outstanding = 1) (cbacks : t.cfg.btVendorCbacks = true)
      (state : t.cfg.hwCfgCb.state = .readHciVersion)
  | sending {k : UInt8} {f : CFile} (one : t.outstanding = 1) (cbacks : t.cfg.btVendorCbacks = true)
      (chip : t.cfg.chipVersion = skwChipid6316) (hwCfg : t.cfg.hwCfgCb = ⟨.nvSend, k, some f⟩)
      (content : f.content = content) (parts : PartsBefore addr s block inp n f)
  | past (h : NvOver t)

/-- A configuration without faults, with any file for chip 0x5301. -/
structure Nv6316 (s : ConfigState) (inp : ℕ → CallbackIn) (content : List UInt8) : Prop where
  cbacks : s.btVendorCbacks = true
  faultFree : FaultFree inp
  version : ∃ event, (inp 1).pMem = some event ∧ Is6316 event
  file : (inp 1).fopen nvFile6316 = some content

section Runs

variable {addr : Bdaddr} {s : ConfigState} {block : Block hciCmdPreambleSize}
  {inp : ℕ → CallbackIn} {content : List UInt8} {chip n : ℕ} {f : CFile} {os o : List CfgEvent}
  {t u : Stack}

/-- The completion of one command is awaited, for chip 0x5301. -/
structure Awaits (t : Stack) (chip : ℕ) : Prop where
  one : t.outstanding = 1
  cbacks : t.cfg.btVendorCbacks = true
  chip : chip = skwChipid6316

/-- What is known of a turn. -/
structure AtTurn (addr : Bdaddr) (s : ConfigState) (block : Block hciCmdPreambleSize)
    (inp : ℕ → CallbackIn) (content : List UInt8) (n : ℕ) (t : Stack) (chip : ℕ) (f : CFile) : Prop
    extends Awaits t chip where
  content : f.content = content
  parts : PartsBefore addr s block inp n f

/-- A turn comes with the version event or in the middle of the download. -/
theorem NvPhase.atTurn (h : NvPhase addr s block inp content n t) (hnv : Nv6316 s inp content)
    (hpos : 0 < t.outstanding) (hturn : nvTurn t.cfg (inp n) = some (chip, f)) :
    AtTurn addr s block inp content n t chip f := by
  cases h with
  | start _ _ _ hstate =>
    rw [nvTurn_of_ne (by simp [hstate]) (by simp [hstate])] at hturn
    cases hturn
  | version hn hone hcb hstate =>
    subst hn
    obtain ⟨event, hevent, hchip⟩ := hnv.version
    have hpath : nvPath event = nvFile6316 := if_pos hchip
    obtain ⟨event', cells, hp⟩ := hnv.faultFree.proceeds hcb 1
    obtain rfl : event = event' := Option.some.inj (hevent.symm.trans hp.pMem)
    have hfile := hnv.file
    rw [nvTurn, hstate, hevent] at hturn
    obtain ⟨-, hturn⟩ := Option.ite_none_right_eq_some.mp hturn
    rw [Option.bind_some, hpath, hfile, Option.map_some] at hturn
    obtain ⟨rfl, rfl⟩ := Prod.mk.inj (Option.some.inj hturn)
    have hstream : nvStream event content = (CFile.fopen content).afterRead 4 := if_pos hchip
    -- nothing has been sent yet, and the four bytes that `fread` skips are not sent
    have hread : (nvStream event content).pos ≤ 4 := by
      rw [hstream]
      show 0 + ((CFile.fopen content).fread 4).length ≤ 4
      rw [CFile.length_fread]
      omega
    obtain ⟨os₀, hrun₀, -⟩ := runTo_zero addr hnv.cbacks block inp
    refine ⟨⟨hone, hcb, if_pos hchip⟩, by rw [hstream]; rfl, ⟨?_, ?_, by omega⟩⟩
    · intro m hm p hp
      obtain rfl : m = 0 := by omega
      exact absurd hp (not_sentIn hrun₀ (nvTurn_of_ne (fun h => by cases h) fun h => by cases h) p)
    · intro p hp hp'
      omega
  | @sending k g hone hcb hchip hwCfg hcontent hparts =>
    rw [nvTurn, hwCfg, hchip] at hturn
    obtain ⟨-, hturn⟩ := Option.ite_none_right_eq_some.mp hturn
    obtain ⟨rfl, rfl⟩ := Prod.mk.inj (Option.some.inj hturn)
    exact ⟨⟨hone, hcb, rfl⟩, hcontent, hparts⟩
  | past hover =>
    rcases hover with hzero | hstate | hstate | hstate
    · omega
    all_goals
      rw [nvTurn_of_ne (by simp [hstate]) (by simp [hstate])] at hturn
      cases hturn

/-- In the middle of a download every callback is a turn. -/
theorem FaultFree.nvTurn_sending (h : FaultFree inp) {cfg : ConfigState} {k : UInt8}
    (hcb : cfg.btVendorCbacks = true) (hchip : cfg.chipVersion = skwChipid6316)
    (hwCfg : cfg.hwCfgCb = ⟨.nvSend, k, some f⟩) (n : ℕ) :
    nvTurn cfg (inp n) = some (skwChipid6316, f) := by
  obtain ⟨event, cells, hp⟩ := h.proceeds hcb n
  have hstatus : cmdCmplStatus (inp n).pMem = 0 := by
    rw [hp.pMem]
    exact hp.status
  rw [nvTurn, if_pos ⟨hstatus, hcb, by rw [hp.alloc]; rfl⟩, hwCfg, hchip]
  rfl

/-- The callback with the version event is one. -/
theorem Nv6316.nvTurn_version (hnv : Nv6316 s inp content) {cfg : ConfigState}
    (hcb : cfg.btVendorCbacks = true) (hstate : cfg.hwCfgCb.state = .readHciVersion) :
    nvTurn cfg (inp 1) ≠ none := by
  obtain ⟨event, hevent, hchip⟩ := hnv.version
  obtain ⟨event', cells, hp⟩ := hnv.faultFree.proceeds hcb 1
  have hstatus : cmdCmplStatus (inp 1).pMem = 0 := by
    rw [hp.pMem]
    exact hp.status
  have hfile : (inp 1).fopen (nvPath event) = some content := by
    rw [nvPath, if_pos hchip]
    exact hnv.file
  rw [nvTurn, if_pos ⟨hstatus, hcb, by rw [hp.alloc]; rfl⟩, hstate, hevent, Option.bind_some, hfile]
  simp

/-- What a turn has sent that makes progress, and where it leaves the machine. -/
structure TurnSends (addr : Bdaddr) (f : CFile) (o : List CfgEvent) (u : Stack) (b : List Tlv)
    (e : PackEnd) : Prop where
  one : u.outstanding = 1
  cbacks : u.cfg.btVendorCbacks = true
  chip : u.cfg.chipVersion = skwChipid6316
  packet : ∃ k, commands o = [(hciCmdSkwBtNvds, nvdsPacket k (sentBytes addr b))]
  silent : results o = []
  data : (nvdsData o).length = tlvsSize b
  sent : e = .fileEnd → NvSent u.cfg
  next : e = .full → ∃ k, u.cfg.hwCfgCb = ⟨.nvSend, k, some (f.seekBack (f.pos + tlvsSize b) 3)⟩

/-- A turn that finds a batch which is not cut off sends it. -/
theorem Awaits.sends (h : Awaits t chip) (hfree : FaultFree inp)
    (hturn : nvTurn t.cfg (inp n) = some (chip, f)) {b : List Tlv} {e : PackEnd} {tail : List UInt8}
    (hb : b ≠ []) (he : e ≠ .truncated) (hrest : f.rest = encode b ++ tail) (hfit : tlvsSize b ≤ 252)
    (hstop : e.Stops tail (tlvsSize b)) :
    ∃ o u, StackStep addr t (.callback (inp n)) o u ∧ TurnSends addr f o u b e := by
  obtain ⟨event, cells, hp⟩ := hfree.proceeds h.cbacks n
  rw [h.chip] at hturn
  obtain ⟨v, k, hyields, hcb, hchip, hv⟩ :=
    hp.batch addr hturn hb he hrest hfit hstop (hfree.xmit n)
  obtain ⟨cfg, out⟩ := t
  obtain rfl : out = 1 := h.one
  obtain ⟨o, hstep, hcommands, hresults⟩ := hyields.step
  refine ⟨o, _, hstep, rfl, hcb, hchip, ⟨k, hcommands⟩, hresults, ?_, ?_, ?_⟩
  · rw [nvdsData, hcommands, ← length_sentBytes addr b]
    exact congrArg List.length (List.append_nil (sentBytes addr b))
  · rintro rfl
    rwa [if_pos rfl] at hv
  · rintro rfl
    rw [if_neg (by simp)] at hv
    exact ⟨k + 1, hv⟩

/-- **A turn that makes progress** finds a batch that is not cut off, and what it sends is new. -/
theorem Awaits.readable (h : Awaits t chip) (hfree : FaultFree inp)
    (hturn : nvTurn t.cfg (inp n) = some (chip, f))
    (hstep : StackStep addr t (.callback (inp n)) o u)
    (hprog : SendsPart addr s block inp n f o u ∨ results o = [false]) :
    ∃ (b : List Tlv) (e : PackEnd) (tail : List UInt8), b ≠ [] ∧ e ≠ .truncated ∧
      f.rest = encode b ++ tail ∧ tlvsSize b ≤ 252 ∧ e.Stops tail (tlvsSize b) ∧
      TurnSends addr f o u b e ∧ ∀ p, f.pos ≤ p → p < f.pos + tlvsSize b →
        ∀ m < n, ¬ SentIn addr s block inp m p := by
  obtain ⟨event, cells, hp⟩ := hfree.proceeds h.cbacks n
  obtain ⟨c, hc, hchip, hf⟩ := hp.turn addr hturn
  rw [h.chip] at hchip
  obtain ⟨b, e, tail, hrest, hfit, hstop⟩ := exists_batch f.rest 0 (Nat.zero_le _)
  rw [Nat.zero_add] at hfit hstop
  have htcfg : t = ⟨t.cfg, 1⟩ := by rw [← h.one]
  by_cases he : e = .truncated
  · -- what there is of the TLV is sent, and the machine is in `HW_CFG_INIT`
    subst he
    obtain ⟨v, packet, hyields, hstate⟩ := hc.truncated hchip hf hrest hfit hstop (hfree.xmit n)
    rw [htcfg] at hstep
    obtain ⟨rfl, -, hresults⟩ := hyields.of_step hstep
    rcases hprog with ⟨-, -, -, -, -, -, hsend | hwrite, -⟩ | hfalse
    · exact absurd (hstate.symm.trans hsend) nofun
    · exact absurd (hstate.symm.trans hwrite) nofun
    · exact absurd (hresults.symm.trans hfalse) nofun
  by_cases hb : b = []
  · -- nothing is sent
    have hrest' : f.rest = tail := by
      rw [hrest, hb]
      rfl
    rw [← hrest', hb] at hstop
    obtain ⟨v, hyields⟩ := hc.empty hchip hf hstop he
    rw [htcfg] at hstep
    obtain ⟨rfl, hcommands, hresults⟩ := hyields.of_step hstep
    rcases hprog with ⟨k, b', tail', -, -, hsent, -⟩ | hfalse
    · exact absurd (hcommands.symm.trans hsent) nofun
    · exact absurd (hresults.symm.trans hfalse) nofun
  obtain ⟨o', u', hstep', hsends⟩ := h.sends hfree hturn hb he hrest hfit hstop
  obtain ⟨rfl, rfl⟩ := hstep.det hstep'
  refine ⟨b, e, tail, hb, he, hrest, hfit, hstop, hsends, ?_⟩
  rcases hprog with ⟨k, b', tail', -, -, hsent, -, hnew⟩ | hfalse
  · have hsize : (nvdsData o).length = tlvsSize b' := by
      rw [nvdsData, hsent, ← length_sentBytes addr b']
      exact congrArg List.length (List.append_nil (sentBytes addr b'))
    rw [hsends.data] at hsize
    rwa [hsize]
  · exact absurd (hsends.silent.symm.trans hfalse) nofun

/-- The parts sent, with that of a turn which goes on at a position below `2 ^ 32`. -/
theorem PartsBefore.next (h : PartsBefore addr s block inp n f) {size : ℕ}
    (hsent : ∀ p, SentIn addr s block inp n p ↔ f.pos ≤ p ∧ p < f.pos + size)
    (hbound : f.pos + size < 2 ^ 32) :
    PartsBefore addr s block inp (n + 1) (f.seekBack (f.pos + size) 3) := by
  have hpos := f.pos_seekBack 3 (by omega : f.pos + size < 2 ^ 32 + 2 ^ 31)
  refine ⟨?_, ?_, by omega⟩
  · intro m hm p hp
    rcases Nat.lt_succ_iff_lt_or_eq.mp hm with hm | rfl
    · have := h.below m hm p hp
      omega
    · have := (hsent p).mp hp
      omega
  · intro p hp hlt hint
    by_cases hold : p < f.pos
    · obtain ⟨m, hm, hm'⟩ := h.covered p hp hold hint
      exact ⟨m, Nat.lt_succ_of_lt hm, hm'⟩
    · exact ⟨n, Nat.lt_succ_self n, (hsent p).mpr (by omega)⟩

/-- **A callback**, if it is a turn that finds what it can send. -/
theorem NvPhase.step (hphase : NvPhase addr s block inp content n t) (hnv : Nv6316 s inp content)
    (hrun : RunTo addr s block inp n os t)
    (hcond : ∀ chip f, nvTurn t.cfg (inp n) = some (chip, f) → NvReadable f)
    (hstep : StackStep addr t (.callback (inp n)) o u) :
    NvPhase addr s block inp content (n + 1) u := by
  have hpos : 0 < t.outstanding := by
    cases hstep with
    | callback hout _ => exact hout
  cases hturn : nvTurn t.cfg (inp n) with
  | some turn =>
    obtain ⟨chip, f⟩ := turn
    have hat := hphase.atTurn hnv hpos hturn
    obtain ⟨b, e, tail, hb, he, hrest, hfit, hstop, hbound⟩ := hcond chip f hturn
    obtain ⟨o', u', hstep', hsends⟩ := hat.sends hnv.faultFree hturn hb he hrest hfit hstop
    obtain ⟨rfl, rfl⟩ := hstep.det hstep'
    cases e with
    | truncated => exact absurd rfl he
    | fileEnd => exact .past (.inr (.inl (hsends.sent rfl).state))
    | full =>
      -- the part goes behind those sent, and the stream to where it ends
      obtain ⟨k, hwCfg⟩ := hsends.next rfl
      have hsent (p : ℕ) := sentIn_iff hrun hturn hstep p
      rw [hsends.data] at hsent
      refine .sending hsends.one hsends.cbacks hsends.chip hwCfg ?_ (hat.parts.next hsent (hbound rfl))
      rw [CFile.seekBack, CFile.content_fseek]
      exact hat.content
  | none =>
    cases hphase with
    | start hn hone hcb hstate =>
      obtain ⟨cfg, out⟩ := t
      obtain rfl : out = 1 := hone
      obtain ⟨event, cells, hp⟩ := hnv.faultFree.proceeds hcb n
      obtain ⟨rfl, -, -⟩ := (hp.start hstate (hnv.faultFree.xmit n)).of_step hstep
      exact .version (by omega) rfl hcb rfl
    | version hn hone hcb hstate =>
      -- the version event is a turn, and so is every callback of the download
      subst hn
      exact absurd hturn (hnv.nvTurn_version hcb hstate)
    | sending hone hcb hchip hwCfg hcontent hparts =>
      rw [hnv.faultFree.nvTurn_sending hcb hchip hwCfg n] at hturn
      cases hturn
    | past hover =>
      refine .past ?_
      cases hstep with
      | callback _ hcall =>
        rcases hover with hzero | hstate | hover
        · omega
        · have hnext := state_of_writeBdAddr addr (inp n) hstate
          rw [hcall] at hnext
          exact .inr hnext
        · have hnext := state_of_over addr (inp n) hover
          rw [hcall] at hnext
          exact .inr (.inr hnext)

/-- Where a run stands whose turns so far found what they could send. -/
theorem Nv6316.phase (hnv : Nv6316 s inp content) (hrun : RunTo addr s block inp n os t)
    (hcond : ∀ m < n, ∀ os t chip f, RunTo addr s block inp m os t →
      0 < t.outstanding → nvTurn t.cfg (inp m) = some (chip, f) → NvReadable f) :
    NvPhase addr s block inp content n t := by
  induction n generalizing os t with
  | zero =>
    obtain ⟨rfl, -, -⟩ := hrun.zero hnv.cbacks
    exact .start rfl rfl hnv.cbacks rfl
  | succ n ih =>
    obtain ⟨v, ps, o, hprev, hstep, rfl⟩ := hrun.succ
    have hpos : 0 < v.outstanding := by
      cases hstep with
      | callback hout _ => exact hout
    refine (ih hprev fun m hm => hcond m (Nat.lt_succ_of_lt hm)).step hnv hprev ?_ hstep
    exact fun chip f => hcond n (Nat.lt_succ_self n) ps v chip f hprev hpos

/-- A turn that can read its part of the file makes progress. -/
theorem AtTurn.progresses (h : AtTurn addr s block inp content n t chip f) (hfree : FaultFree inp)
    (hturn : nvTurn t.cfg (inp n) = some (chip, f)) (hread : NvReadable f) :
    ∃ o u, StackStep addr t (.callback (inp n)) o u ∧ SendsPart addr s block inp n f o u := by
  obtain ⟨b, e, tail, hb, he, hrest, hfit, hstop, -⟩ := hread
  obtain ⟨o, u, hstep, hsends⟩ := h.sends hfree hturn hb he hrest hfit hstop
  obtain ⟨k, hcommands⟩ := hsends.packet
  refine ⟨o, u, hstep, k, b, tail, hb, hrest, hcommands, ?_, ?_⟩
  · cases e with
    | truncated => exact absurd rfl he
    | fileEnd => exact .inr (hsends.sent rfl).state
    | full =>
      obtain ⟨k', hwCfg⟩ := hsends.next rfl
      exact .inl (by rw [hwCfg])
  · intro p hp _ m hm hsent
    have := h.parts.below m hm p hsent
    omega

/-- **The turn behind one that goes on** finds a batch that is not cut off either, and what it sends is
new as well, if all of them progress. -/
theorem TurnSends.following {b : List Tlv} (h : TurnSends addr f o t b .full) (hfree : FaultFree inp)
    (hall : ∀ m, NvProgresses addr s block inp m) (hrun : RunTo addr s block inp n os t) :
    ∃ (o' : List CfgEvent) (u : Stack) (b' : List Tlv) (e : PackEnd) (tail : List UInt8),
      StackStep addr t (.callback (inp n)) o' u ∧ b' ≠ [] ∧ e ≠ .truncated ∧
        (f.seekBack (f.pos + tlvsSize b) 3).rest = encode b' ++ tail ∧ e.Stops tail (tlvsSize b') ∧
        TurnSends addr (f.seekBack (f.pos + tlvsSize b) 3) o' u b' e ∧
        ∀ p, (f.seekBack (f.pos + tlvsSize b) 3).pos ≤ p →
          p < (f.seekBack (f.pos + tlvsSize b) 3).pos + tlvsSize b' →
            ∀ m < n, ¬ SentIn addr s block inp m p := by
  obtain ⟨k, hwCfg⟩ := h.next rfl
  have hawaits : Awaits t skwChipid6316 := ⟨h.one, h.cbacks, rfl⟩
  have hturn := hfree.nvTurn_sending h.cbacks h.chip hwCfg n
  obtain ⟨o', u, hstep, hprog⟩ := hall n _ t _ _ hrun (by rw [h.one]; omega) hturn
  obtain ⟨b', e, tail, hb, he, hrest, -, hstop, hsends, hnew⟩ :=
    hawaits.readable hfree hturn hstep hprog
  exact ⟨o', u, b', e, tail, hstep, hb, he, hrest, hstop, hsends, hnew⟩

/-- **No turn goes on behind `2 ^ 32`**, if those behind it send something new: the stream would be
sought back by `2 ^ 32`, to where everything has been sent from byte 4 on. -/
theorem AtTurn.no_wrap (h : AtTurn addr s block inp content n t chip f) (hfree : FaultFree inp)
    (hall : ∀ m, NvProgresses addr s block inp m) (hrun : RunTo addr s block inp n os t)
    (hstep : StackStep addr t (.callback (inp n)) o u) {b : List Tlv} {tail : List UInt8}
    (hsends : TurnSends addr f o u b .full) (hrest : f.rest = encode b ++ tail)
    (hfit : tlvsSize b ≤ 252) (hstop : PackEnd.full.Stops tail (tlvsSize b)) :
    f.pos + tlvsSize b < 2 ^ 32 := by
  by_contra hwrap
  have hbound := h.parts.bound
  have hlong : 3 ≤ tail.length := hstop.1
  have hlength := f.length_rest
  rw [hrest, List.length_append, length_encode] at hlength
  have hsent (p : ℕ) (hp : 4 ≤ p) (hlt : p < 2 ^ 31) : ∃ m < n, SentIn addr s block inp m p :=
    h.parts.covered p hp (by omega) hlt
  have hrun' := hrun.next hstep
  obtain ⟨o', u', b', e', tail', hstep', hb', he', hrest', hstop', hsends', hnew'⟩ :=
    hsends.following hfree hall hrun'
  generalize hg : f.seekBack (f.pos + tlvsSize b) 3 = g at *
  -- the position wraps, and the next turn reads from the beginning of the file
  have hpos : g.pos = f.pos + tlvsSize b - 2 ^ 32 := by
    have hback := f.pos_seekBack 3 (by omega : f.pos + tlvsSize b < 2 ^ 32 + 2 ^ 31)
    rw [hg] at hback
    omega
  have hsize' := three_le_tlvsSize hb'
  have hlength' := g.length_rest
  have hcontent : g.content = f.content := by
    rw [← hg, CFile.seekBack, CFile.content_fseek]
    rfl
  rw [hrest', List.length_append, length_encode, hcontent] at hlength'
  by_cases hfour : 4 < g.pos + tlvsSize b'
  · -- the turn sends a byte from 4 on, which has been sent
    obtain ⟨p, hp, hle, hlt, hint⟩ :
        ∃ p, 4 ≤ p ∧ g.pos ≤ p ∧ p < g.pos + tlvsSize b' ∧ p < 2 ^ 31 := by
      rcases Nat.le_total 4 g.pos with hle | hle
      · exact ⟨_, hle, Nat.le_refl _, by omega, by omega⟩
      · exact ⟨4, Nat.le_refl 4, hle, hfour, by omega⟩
    obtain ⟨m, hm, hm'⟩ := hsent p hp hint
    exact hnew' p hle hlt m (Nat.lt_succ_of_lt hm) hm'
  · -- a part of the header has been sent, and the next part begins in front of byte 5
    cases e' with
    | truncated => exact he' rfl
    | fileEnd =>
      have hshort : tail'.length < 3 := hstop'
      omega
    | full =>
      obtain ⟨-, -, b'', -, -, -, hb'', -, -, -, -, hnew''⟩ :=
        hsends'.following hfree hall (hrun'.next hstep')
      have hsize'' := three_le_tlvsSize hb''
      have hpos'' := g.pos_seekBack 3 (by omega : g.pos + tlvsSize b' < 2 ^ 32 + 2 ^ 31)
      obtain ⟨m, hm, hm'⟩ := hsent 4 (Nat.le_refl 4) (by omega)
      exact hnew'' 4 (by omega) (by omega) m (by omega) hm'

end Runs

/-- **A download of chip 0x5301 progresses or fails openly** in every one of its callbacks, whatever
the file holds, if and only if each of them can read its part of the file. -/
theorem nv_progress_iff {addr : Bdaddr} {s : ConfigState} {block : Block hciCmdPreambleSize}
    {inp : ℕ → CallbackIn} {event content : List UInt8} (hcb : s.btVendorCbacks = true)
    (h : FaultFree inp) (hevent : (inp 1).pMem = some event) (hchip : Is6316 event)
    (hfile : (inp 1).fopen nvFile6316 = some content) :
    (∀ n, NvProgresses addr s block inp n) ↔
      ∀ n os t chip f, RunTo addr s block inp n os t → 0 < t.outstanding →
        nvTurn t.cfg (inp n) = some (chip, f) → NvReadable f := by
  have hnv : Nv6316 s inp content := ⟨hcb, h, ⟨event, hevent, hchip⟩, hfile⟩
  constructor
  · intro hall n
    -- the turns before have read their parts, so the download is where they leave it
    induction n using Nat.strongRecOn with
    | ind n ih =>
      intro os t chip f hrun hpos hturn
      have hat := (hnv.phase hrun ih).atTurn hnv hpos hturn
      obtain ⟨o, u, hstep, hprog⟩ := hall n os t chip f hrun hpos hturn
      obtain ⟨b, e, tail, hb, he, hrest, hfit, hstop, hsends, -⟩ :=
        hat.toAwaits.readable h hturn hstep hprog
      refine ⟨b, e, tail, hb, he, hrest, hfit, hstop, ?_⟩
      rintro rfl
      exact hat.no_wrap h hall hrun hstep hsends hrest hfit hstop
  · intro hcond n os t chip f hrun hpos hturn
    have hat := (hnv.phase hrun fun m _ => hcond m).atTurn hnv hpos hturn
    obtain ⟨o, u, hstep, hsends⟩ :=
      hat.progresses h hturn (hcond n os t chip f hrun hpos hturn)
    exact ⟨o, u, hstep, .inl hsends⟩

/-- A file of three commands. -/
theorem nv_progress_full :
    let inp : ℕ → CallbackIn := fun _ => ⟨some version6316, some (.zero _), true,
      fun _ => some (fullImage 3 (by decide)).bytes, .openFails, .zero _⟩
    (∀ n, NvProgresses .initial ⟨true, ⟨.init, 0, none⟩, 0⟩ (.zero _) inp n) ↔
      ∀ n os t chip f, RunTo .initial ⟨true, ⟨.init, 0, none⟩, 0⟩ (.zero _) inp n os t →
        0 < t.outstanding → nvTurn t.cfg (inp n) = some (chip, f) → NvReadable f := by
  intro inp
  have hfree : FaultFree inp := ⟨fun _ => ⟨_, rfl, rfl⟩, fun _ => ⟨_, rfl⟩, fun _ => rfl⟩
  exact nv_progress_iff rfl hfree rfl (by decide) rfl

/-- A file with nothing behind its header: no command is sent, and nothing is reported. -/
theorem nv_progress_empty :
    let inp : ℕ → CallbackIn := fun _ => ⟨some version6316, some (.zero _), true,
      fun _ => some [0x00, 0x00, 0x00, 0x00], .openFails, .zero _⟩
    FaultFree inp ∧ Is6316 version6316 ∧
      ¬ ∀ n, NvProgresses .initial ⟨true, ⟨.init, 0, none⟩, 0⟩ (.zero _) inp n := by
  intro inp
  have hfree : FaultFree inp := ⟨fun _ => ⟨_, rfl, rfl⟩, fun _ => ⟨_, rfl⟩, fun _ => rfl⟩
  refine ⟨hfree, by decide, fun hall => ?_⟩
  obtain ⟨os, t, hrun, hstate, hcb, -⟩ :=
    @FaultFree.version .initial ⟨true, ⟨.init, 0, none⟩, 0⟩ (.zero _) inp hfree rfl
  have hturn : nvTurn t (inp 1) =
      some (skwChipid6316, nvStream version6316 [0x00, 0x00, 0x00, 0x00]) := by
    rw [nvTurn, if_pos ⟨rfl, hcb, rfl⟩, hstate]
    rfl
  obtain ⟨o, u, hstep, hprog⟩ := hall 1 os ⟨t, 1⟩ _ _ hrun Nat.one_pos hturn
  have hawaits : Awaits ⟨t, 1⟩ skwChipid6316 := ⟨rfl, hcb, rfl⟩
  obtain ⟨b, e, tail, hb, -, hrest, -⟩ := hawaits.readable hfree hturn hstep hprog
  have hlen := congrArg List.length hrest
  rw [List.length_append, length_encode,
    show (nvStream version6316 [0x00, 0x00, 0x00, 0x00]).rest.length = 0 from rfl] at hlen
  have hsize := three_le_tlvsSize hb
  omega

end Seekwave
