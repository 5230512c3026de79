import Seekwave.Config.Download

/-!
# A configuration without faults finishes

With every allocation, file, command and status in order (`FaultFree`), the run comes to its end: the
commands are HCI_Reset, HCI_Read_Local_Version_Information, the NVDS commands of the download and,
if the application processor has an address, the one that writes it; then success is reported
(`config_finishes`). The proof extends a run of some length, state by state.
-/

open Memory

namespace Seekwave

/-! ## Runs without faults -/

/-- What the callbacks find, the first with `inp 0` and so on: every one an event that reports success,
a buffer, and a stack that accepts its command. -/
structure FaultFree (inp : ℕ → CallbackIn) : Prop where
  pMem (k : ℕ) : ∃ event, (inp k).pMem = some event ∧ byteAt event 5 = 0
  alloc (k : ℕ) : ∃ block, (inp k).alloc = some block
  xmit (k : ℕ) : (inp k).xmit = true

/-- The run of `n` callbacks. -/
abbrev RunTo (addr : Bdaddr) (s : ConfigState) (block : Block hciCmdPreambleSize)
    (inp : ℕ → CallbackIn) (n : ℕ) (os : List CfgEvent) (t : Stack) : Prop :=
  StackRun addr s (some block) true ((List.range n).map inp) os t

section Runs

variable {addr : Bdaddr} {s t : ConfigState} {block : Block hciCmdPreambleSize}
  {inp : ℕ → CallbackIn} {n : ℕ} {os : List CfgEvent}

/-- In a run without faults every callback proceeds. -/
theorem FaultFree.proceeds (h : FaultFree inp) (hcb : s.btVendorCbacks = true) (n : ℕ) :
    ∃ event block, Proceeds s (inp n) event block := by
  obtain ⟨event, hmem, hstatus⟩ := h.pMem n
  obtain ⟨block, halloc⟩ := h.alloc n
  exact ⟨event, block, hcb, hmem, hstatus, halloc⟩

/-- The run before the first callback. -/
theorem runTo_zero (addr : Bdaddr) (hcb : s.btVendorCbacks = true)
    (block : Block hciCmdPreambleSize) (inp : ℕ → CallbackIn) :
    ∃ os, RunTo addr s block inp 0 os ⟨s.setHwCfg ⟨.start, 0, none⟩, 1⟩ ∧
      commands os = [(hciReset, [0x03, 0x0C, 0x00])] ∧ results os = [] := by
  obtain ⟨os, hstep, hcommands, hresults⟩ := start_step hcb block
  exact ⟨_, Execution.start.snoc hstep, hcommands, hresults⟩

/-- A run with one more callback. -/
theorem RunTo.next {t u : Stack} {o : List CfgEvent} (h : RunTo addr s block inp n os t)
    (hstep : StackStep addr t (.callback (inp n)) o u) : RunTo addr s block inp (n + 1) (os ++ o) u := by
  rw [RunTo, StackRun, List.range_succ, List.map_append, List.map_append, ← List.cons_append]
  exact h.snoc hstep

/-- A run goes on with the callback of the command outstanding. -/
theorem CallbackYields.run {u : ConfigState} {cs : List (ℕ × List UInt8)} {rs : List Bool}
    (h : CallbackYields addr t (inp n) u cs rs) (hrun : RunTo addr s block inp n os ⟨t, 1⟩) :
    ∃ ps, RunTo addr s block inp (n + 1) (os ++ ps) ⟨u, cs.length⟩ ∧ commands ps = cs ∧
      results ps = rs := by
  obtain ⟨ps, hstep, hcommands, hresults⟩ := h.step
  exact ⟨ps, hrun.next hstep, hcommands, hresults⟩

/-- The last callback of a run. -/
theorem RunTo.succ {u : Stack} (h : RunTo addr s block inp (n + 1) os u) :
    ∃ v ps o, RunTo addr s block inp n ps v ∧ StackStep addr v (.callback (inp n)) o u ∧
      os = ps ++ o := by
  rw [RunTo, StackRun, List.range_succ, List.map_append, List.map_append, ← List.cons_append] at h
  exact h.last

/-- The run before the first callback is the start. -/
theorem RunTo.zero {u : Stack} (h : RunTo addr s block inp 0 os u) (hcb : s.btVendorCbacks = true) :
    u = ⟨s.setHwCfg ⟨.start, 0, none⟩, 1⟩ ∧ commands os = [(hciReset, [0x03, 0x0C, 0x00])] ∧
      results os = [] := by
  obtain ⟨v, ps, o, hrun, hstep, rfl⟩ := @Execution.last _ _ _ _ _ _ [] _ _ h
  obtain ⟨rfl, rfl⟩ := hrun.eq_of_nil
  obtain ⟨os', hstep', hcommands, hresults⟩ := @start_step addr s hcb block
  obtain ⟨rfl, rfl⟩ := hstep.det hstep'
  exact ⟨rfl, hcommands, hresults⟩

end Runs

/-! ## The phases of a run -/

/-- NVDS commands. -/
def nvdsCommands (packets : List (List UInt8)) : List (ℕ × List UInt8) :=
  packets.map fun packet => (hciCmdSkwBtNvds, packet)

/-- The command that writes the address of the AP, if there is one. -/
def bdAddrCommand (storage : VendorStorage) : List (ℕ × List UInt8) :=
  match storage.address? with
  | none => []
  | some address => [(hciCmdWriteBdAddr, [0x82, 0xFC, 0x06] ++ address.cells.reverse)]

/-- What a run has done that is over. -/
structure Finished (storage : VendorStorage) (os : List CfgEvent) (t : Stack) : Prop where
  outstanding : t.outstanding = 0
  state : t.cfg.hwCfgCb.state = .init
  nvFp : t.cfg.hwCfgCb.nvFp = none
  /-- one or more NVDS commands between the first two commands and the address -/
  sent : ∃ packets, packets ≠ [] ∧ commands os =
    [(hciReset, [0x03, 0x0C, 0x00]), (hciReadLocalVersionInfo, [0x01, 0x10, 0x00])] ++
      nvdsCommands packets ++ bdAddrCommand storage
  /-- success is reported once, behind all commands -/
  reported : ∃ os₁ os₂, os = os₁ ++ os₂ ∧ results os₁ = [] ∧ commands os₂ = [] ∧
    results os₂ = [true]

section Phases

variable {addr : Bdaddr} {s t : ConfigState} {block : Block hciCmdPreambleSize}
  {inp : ℕ → CallbackIn} {n : ℕ} {os : List CfgEvent}

/-- **The download comes to its end.** -/
theorem FaultFree.download (h : FaultFree inp) {k : ℕ} (hs : NvSending t k)
    (hcb : t.btVendorCbacks = true) (hrun : RunTo addr s block inp n os ⟨t, 1⟩) :
    ∃ m ps u packets, RunTo addr s block inp m (os ++ ps) ⟨u, 1⟩ ∧
      commands ps = nvdsCommands packets ∧ results ps = [] ∧
      u.btVendorCbacks = true ∧ NvSent u := by
  induction k using Nat.strongRecOn generalizing t n os with
  | ind k ih =>
    obtain ⟨event, block', hproceeds⟩ := h.proceeds hcb n
    obtain ⟨u, packet, hyields, hcb', hu⟩ := hproceeds.nvSend hs (h.xmit n)
    obtain ⟨ps, hrun', hcommands, hresults⟩ := hyields.run hrun
    rcases hu with hsent | ⟨m, hm, hsending⟩
    · exact ⟨n + 1, ps, u, [packet], hrun', hcommands, hresults, hcb', hsent⟩
    · obtain ⟨m', ps', u', packets, hrun'', hcommands', hresults', hcb'', hsent⟩ :=
        ih m hm hsending hcb' hrun'
      refine ⟨m', ps ++ ps', u', packet :: packets, ?_, ?_, ?_, hcb'', hsent⟩
      · rwa [← List.append_assoc]
      · rw [commands_append, hcommands, hcommands']
        rfl
      · rw [results_append, hresults, hresults']
        rfl

/-- Behind the download the address is written, if there is one, and success reported. -/
theorem FaultFree.writeBdAddr (h : FaultFree inp) {storage : VendorStorage}
    (hstorage : ∀ k, (inp k).storage = storage) (hs : NvSent t) (hcb : t.btVendorCbacks = true)
    (hrun : RunTo addr s block inp n os ⟨t, 1⟩) :
    ∃ m ps₁ ps₂ u, RunTo addr s block inp m (os ++ ps₁ ++ ps₂) ⟨u, 0⟩ ∧
      u.hwCfgCb.state = .init ∧ u.hwCfgCb.nvFp = none ∧ commands ps₁ = bdAddrCommand storage ∧
      results ps₁ = [] ∧ commands ps₂ = [] ∧ results ps₂ = [true] := by
  obtain ⟨event, block', hproceeds⟩ := h.proceeds hcb n
  cases haddress : storage.address? with
  | none =>
    obtain ⟨ps, hrun', hcommands, hresults⟩ :=
      (hproceeds.writeBdAddr_none hs.state (by rw [hstorage, haddress])).run hrun
    refine ⟨n + 1, [], ps, t.setHwCfg { t.hwCfgCb with state := .init }, ?_, rfl, hs.nvFp, ?_, rfl, hcommands, hresults⟩
    · rwa [List.append_nil]
    · rw [bdAddrCommand, haddress]
      rfl
  | some address =>
    obtain ⟨ps, hrun', hcommands, hresults⟩ :=
      (hproceeds.writeBdAddr_some hs.state (by rw [hstorage, haddress]) (h.xmit n)).run hrun
    obtain ⟨event', block'', hproceeds'⟩ := h.proceeds
      (show (t.setHwCfg { t.hwCfgCb with state := .nvSendCmpl }).btVendorCbacks = true from hcb)
      (n + 1)
    obtain ⟨ps', hrun'', hcommands', hresults'⟩ := (hproceeds'.nvSendCmpl rfl).run hrun'
    refine ⟨n + 2, ps, ps', _, hrun'', rfl, hs.nvFp, ?_, hresults, hcommands', hresults'⟩
    rw [bdAddrCommand, haddress, hcommands]

/-- The first callback asks for the version. -/
theorem FaultFree.version (h : FaultFree inp) (hcb : s.btVendorCbacks = true) :
    ∃ os t, RunTo addr s block inp 1 os ⟨t, 1⟩ ∧ t.hwCfgCb.state = .readHciVersion ∧
      t.btVendorCbacks = true ∧ commands os = [(hciReset, [0x03, 0x0C, 0x00]),
        (hciReadLocalVersionInfo, [0x01, 0x10, 0x00])] ∧ results os = [] := by
  obtain ⟨os₀, hrun₀, hcommands₀, hresults₀⟩ := runTo_zero addr hcb block inp
  obtain ⟨event, block', hproceeds⟩ := h.proceeds
    (show (s.setHwCfg ⟨.start, 0, none⟩).btVendorCbacks = true from hcb) 0
  obtain ⟨os₁, hrun₁, hcommands₁, hresults₁⟩ := (hproceeds.start rfl (h.xmit 0)).run hrun₀
  refine ⟨_, _, hrun₁, rfl, hcb, ?_, ?_⟩
  · rw [commands_append, hcommands₀, hcommands₁]
    rfl
  · rw [results_append, hresults₀, hresults₁]
    rfl

/-- The second callback sends the first command of the download. -/
theorem FaultFree.opened (h : FaultFree inp) (hcb : s.btVendorCbacks = true)
    {event content : List UInt8} (hevent : (inp 1).pMem = some event)
    (hfile : (inp 1).fopen (nvPath event) = some content)
    (himage : Is6316 event → ∃ image : NvImage, content = image.bytes ∧ image.lastStart < 2 ^ 31) :
    ∃ os t packet, RunTo addr s block inp 2 os ⟨t, 1⟩ ∧ commands os =
        [(hciReset, [0x03, 0x0C, 0x00]), (hciReadLocalVersionInfo, [0x01, 0x10, 0x00]),
          (hciCmdSkwBtNvds, packet)] ∧
      results os = [] ∧ t.btVendorCbacks = true ∧ (NvSent t ∨ ∃ k, NvSending t k) := by
  obtain ⟨os, t, hrun, hstate, hcb', hcommands, hresults⟩ := h.version hcb
  obtain ⟨event', block', hproceeds⟩ := h.proceeds hcb' 1
  obtain rfl : event = event' := Option.some.inj (hevent.symm.trans hproceeds.pMem)
  obtain ⟨u, packet, hyields, hcb'', hu⟩ :=
    hproceeds.readHciVersion hstate hfile himage (h.xmit 1)
  obtain ⟨ps, hrun', hcommands', hresults'⟩ := hyields.run hrun
  refine ⟨_, u, packet, hrun', ?_, ?_, hcb'', hu⟩
  · rw [commands_append, hcommands, hcommands']
    rfl
  · rw [results_append, hresults, hresults']
    rfl

end Phases

/-! ## Images of TLVs that fill a command -/

/-- A TLV of 252 bytes, whose parameter reads as TLVs that do not fit a command. -/
def fullTlv : Tlv := ⟨0x02, 0x00, List.replicate 249 0xFF, by rw [List.length_replicate]; omega⟩

/-- `n` of them behind a header. -/
def fullImage (n : ℕ) (h : n ≠ 0) : NvImage where
  header := .zero 4
  tlvs := List.replicate n fullTlv
  nonempty := by rwa [ne_eq, List.replicate_eq_nil_iff]
  fits := by
    intro t ht
    rw [List.eq_of_mem_replicate ht]
    exact Nat.le_of_eq List.length_replicate

theorem size_fullTlv : fullTlv.size = 252 :=
  congrArg (· + 3) (List.length_replicate : (List.replicate 249 (0xFF : UInt8)).length = 249)

theorem tlvsSize_replicate_fullTlv (m : ℕ) : tlvsSize (List.replicate m fullTlv) = 252 * m := by
  induction m with
  | zero => rfl
  | succ m ih =>
    rw [List.replicate_succ, tlvsSize_cons, size_fullTlv, ih]
    omega

/-- Nothing fits behind one of them. -/
theorem fill_replicate_fullTlv (m : ℕ) :
    Greedy.fill Tlv.size 252 fullTlv.size (List.replicate m fullTlv) =
      ([], List.replicate m fullTlv) := by
  cases m with
  | zero => rfl
  | succ m => rw [List.replicate_succ, Greedy.fill, if_neg (by rw [size_fullTlv]; omega)]

/-- Every one of them is a batch of its own. -/
theorem lastBatch_replicate_fullTlv (m : ℕ) :
    lastBatch (List.replicate (m + 1) fullTlv) = 252 * m := by
  have hothers (m : ℕ) : nvOthers fullTlv (List.replicate m fullTlv) = List.replicate m fullTlv :=
    congrArg Prod.snd (fill_replicate_fullTlv m)
  have hbatch (m : ℕ) : nvBatch fullTlv (List.replicate m fullTlv) = [fullTlv] :=
    congrArg (fullTlv :: Prod.fst ·) (fill_replicate_fullTlv m)
  induction m with
  | zero => exact lastBatch_of_nil (hothers 0)
  | succ m ih =>
    have hne : nvOthers fullTlv (List.replicate (m + 1) fullTlv) ≠ [] := by
      rw [hothers, List.replicate_succ]
      exact List.cons_ne_nil _ _
    have hsize : tlvsSize [fullTlv] = 252 := tlvsSize_replicate_fullTlv 1
    rw [List.replicate_succ, lastBatch_cons hne, hothers, hbatch, ih, hsize]
    omega

/-- Where the last of them begins. -/
theorem lastStart_fullImage {n : ℕ} (h : n ≠ 0) : (fullImage n h).lastStart = 4 + 252 * (n - 1) := by
  obtain ⟨m, rfl⟩ := Nat.exists_eq_succ_of_ne_zero h
  exact congrArg (4 + ·) (lastBatch_replicate_fullTlv m)

/-- A version event of chip 0x5301. -/
def version6316 : List UInt8 :=
  [0x0E, 0x0C, 0x01, 0x01, 0x10, 0x00, 0x0A, 0x01, 0x53, 0x0A, 0x00, 0x00, 0x00, 0x00]

/-! ## The run -/

/-- **A configuration without faults finishes**, as long as an `int` holds where the last batch of an
NV image begins: the run ends after some number of callbacks, and has then done what `Finished`
says. -/
theorem config_finishes {addr : Bdaddr} {s : ConfigState} {block : Block hciCmdPreambleSize}
    {inp : ℕ → CallbackIn} {event content : List UInt8} {storage : VendorStorage}
    (hcb : s.btVendorCbacks = true) (h : FaultFree inp) (hevent : (inp 1).pMem = some event)
    (hfile : (inp 1).fopen (nvPath event) = some content)
    (himage : Is6316 event → ∃ image : NvImage, content = image.bytes ∧ image.lastStart < 2 ^ 31)
    (hstorage : ∀ k, (inp k).storage = storage) :
    ∃ n os t, RunTo addr s block inp n os t ∧ Finished storage os t := by
  obtain ⟨os, t, packet, hrun, hcommands, hresults, hcb', ht⟩ :=
    @FaultFree.opened addr s block inp h hcb event content hevent hfile himage
  -- the rest of the download
  obtain ⟨n, ps, u, packets, hrun', hcommands', hresults', hcb'', hsent⟩ :
      ∃ n ps u packets, RunTo addr s block inp n (os ++ ps) ⟨u, 1⟩ ∧
        commands ps = nvdsCommands packets ∧ results ps = [] ∧ u.btVendorCbacks = true ∧
        NvSent u := by
    rcases ht with hsent | ⟨k, hsending⟩
    · exact ⟨2, [], t, [], by rwa [List.append_nil], rfl, rfl, hcb', hsent⟩
    · exact h.download hsending hcb' hrun
  obtain ⟨m, qs₁, qs₂, v, hrun'', hstate, hnvFp, hq₁, hr₁, hq₂, hr₂⟩ :=
    h.writeBdAddr hstorage hsent hcb'' hrun'
  refine ⟨m, _, _, hrun'', rfl, hstate, hnvFp, ⟨packet :: packets, List.cons_ne_nil _ _, ?_⟩,
    os ++ ps ++ qs₁, qs₂, rfl, ?_, hq₂, hr₂⟩
  · rw [commands_append, commands_append, commands_append, hcommands, hcommands', hq₁, hq₂,
      List.append_nil]
    rfl
  · rw [results_append, results_append, hresults, hresults', hr₁]
    rfl

/-- An image of three commands, and an address. -/
theorem config_finishes_full :
    let address : VendorStorage := .data ⟨[0x01, 0x02, 0x03, 0x04, 0x05, 0x06], rfl⟩
    let inp : ℕ → CallbackIn := fun _ => ⟨some version6316, some (.zero _), true,
      fun _ => some (fullImage 3 (by decide)).bytes, address, .zero _⟩
    ∃ n os t, RunTo .initial ⟨true, ⟨.init, 0, none⟩, 0⟩ (.zero _) inp n os t ∧
      Finished address os t := by
  intro address inp
  refine config_finishes rfl ⟨fun _ => ⟨_, rfl, rfl⟩, fun _ => ⟨_, rfl⟩, fun _ => rfl⟩ rfl rfl ?_
    fun _ => rfl
  intro _
  exact ⟨_, rfl, by rw [lastStart_fullImage]; omega⟩

/-! ## An image that no `int` can index -/

/-- What stands behind `m` of the TLVs. -/
theorem drop_fullImage {m n : ℕ} (h : n ≠ 0) (hm : m ≤ n) :
    (fullImage n h).bytes.drop (4 + 252 * m) = encode (List.replicate (n - m) fullTlv) := by
  have hsplit : List.replicate n fullTlv =
      List.replicate m fullTlv ++ List.replicate (n - m) fullTlv := by
    rw [List.replicate_append_replicate, Nat.add_sub_cancel' hm]
  have hlen : (fullImage n h).header.cells.length = 4 := (fullImage n h).header.size
  rw [NvImage.bytes, ← List.drop_drop, List.drop_left' hlen]
  show (encode (List.replicate n fullTlv)).drop _ = _
  rw [hsplit, encode_append, List.drop_left']
  rw [length_encode, tlvsSize_replicate_fullTlv]

/-- Another of the TLVs does not fit behind one. -/
theorem full_stops_replicate {m : ℕ} (hm : m ≠ 0) :
    PackEnd.full.Stops (encode (List.replicate m fullTlv)) (tlvsSize [fullTlv]) := by
  obtain ⟨m, rfl⟩ := Nat.exists_eq_succ_of_ne_zero hm
  have hsize : tlvsSize [fullTlv] = 252 := by
    rw [tlvsSize_cons, size_fullTlv]
    rfl
  rw [List.replicate_succ, encode_cons, hsize]
  constructor
  · rw [List.length_append, fullTlv.length_bytes, size_fullTlv]
    omega
  · omega

/-- The states of a run with this image: all its TLVs so far have been sent, and an `int` holds where
the next one begins; or the header of the one where it does not has been skipped. -/
inductive FullPhase {n : ℕ} (h : n ≠ 0) (s : ConfigState) : Prop
  | start (state : s.hwCfgCb.state = .start)
  | version (state : s.hwCfgCb.state = .readHciVersion)
  | sending {k : UInt8} {f : CFile} {m : ℕ} (chip : s.chipVersion = skwChipid6316)
      (hwCfg : s.hwCfgCb = ⟨.nvSend, k, some f⟩) (content : f.content = (fullImage n h).bytes)
      (pos : f.pos = 4 + 252 * m) (seekable : 4 + 252 * m < 2 ^ 31)
  | skipped {k : UInt8} {f : CFile} {m : ℕ} (chip : s.chipVersion = skwChipid6316)
      (hwCfg : s.hwCfgCb = ⟨.nvSend, k, some f⟩) (content : f.content = (fullImage n h).bytes)
      (pos : f.pos = 4 + 252 * m + 3) (left : m < n)

section Full

variable {addr : Bdaddr} {s : ConfigState} {i : CallbackIn} {event : List UInt8}
  {block : Block hciCmdMaxLen} {c : Call} {n : ℕ} {h : n ≠ 0}

/-- A call that sends one of the TLVs. -/
theorem NvSendCall.fullTlv (hcall : NvSendCall addr s i event block c) {k : UInt8} {f : CFile} {m : ℕ}
    (hchip : c.cfg.chipVersion = skwChipid6316) (hwCfg : c.cfg.hwCfgCb = ⟨.nvSend, k, some f⟩)
    (hcontent : f.content = (fullImage n h).bytes) (hpos : f.pos = 4 + 252 * m)
    (hm : 4 + 252 * m < 2 ^ 31) (hn : 2 ^ 31 ≤ 4 + 252 * (n - 1)) (hxmit : i.xmit = true) :
    ∃ t c, CallbackYields addr s i t [c] [] ∧ t.btVendorCbacks = true ∧ FullPhase h t := by
  have hsize : tlvsSize [Seekwave.fullTlv] = 252 := tlvsSize_replicate_fullTlv 1
  have hrest : f.rest = encode [Seekwave.fullTlv] ++
      encode (List.replicate (n - (m + 1)) Seekwave.fullTlv) := by
    rw [CFile.rest, hcontent, hpos, drop_fullImage h (by omega), ← encode_append,
      show n - m = n - (m + 1) + 1 by omega, List.replicate_succ]
    rfl
  have hyields := hcall.batch hchip (by rw [hwCfg]) hrest (by omega)
    (full_stops_replicate (by omega)) (by simp) (List.cons_ne_nil _ _) hxmit
  simp only [reduceCtorEq, if_false] at hyields
  refine ⟨_, _, hyields, hcall.cbacks, ?_⟩
  have hnext : f.pos + tlvsSize [Seekwave.fullTlv] = 4 + 252 * (m + 1) := by omega
  rw [hnext]
  by_cases hseek : 4 + 252 * (m + 1) < 2 ^ 31
  · rw [f.seekBack_of_lt 3 hseek]
    exact .sending (m := m + 1) hchip rfl hcontent rfl hseek
  · rw [f.seekBack_of_le 3 (by omega) (by omega)]
    exact .skipped (m := m + 1) hchip rfl hcontent rfl (by omega)

/-- Behind a header that has been skipped nothing fits a command. -/
theorem full_stops_skipped {f : CFile} {m : ℕ} (hcontent : f.content = (fullImage n h).bytes)
    (hpos : f.pos = 4 + 252 * m + 3) (hm : m < n) : PackEnd.full.Stops f.rest 0 := by
  have hrest : f.rest = List.replicate 249 0xFF ++
      encode (List.replicate (n - (m + 1)) Seekwave.fullTlv) := by
    rw [CFile.rest, hcontent, hpos, ← List.drop_drop, drop_fullImage h (by omega),
      show n - m = n - (m + 1) + 1 by omega, List.replicate_succ]
    rfl
  rw [hrest]
  constructor
  · rw [List.length_append, List.length_replicate]
    omega
  · rw [byteAt_append_left (by rw [List.length_replicate]; omega)]
    decide

/-- **A callback with this image** sends a command and does not report anything, or does neither. -/
theorem FullPhase.step (hs : FullPhase h s) (hp : Proceeds s i event block) (hn : 2 ^ 31 ≤ 4 + 252 * (n - 1))
    (hchip : Is6316 event) (hfile : i.fopen (nvPath event) = some (fullImage n h).bytes)
    (hxmit : i.xmit = true) :
    (∃ t, CallbackYields addr s i t [] []) ∨
      ∃ t c, CallbackYields addr s i t [c] [] ∧ t.btVendorCbacks = true ∧ FullPhase h t := by
  cases hs with
  | start hstate => exact .inr ⟨_, _, hp.start hstate hxmit, hp.registered, .version rfl⟩
  | version hstate =>
    have hstream : nvStream event (fullImage n h).bytes =
        (CFile.fopen (fullImage n h).bytes).afterRead 4 := if_pos hchip
    have hlen : 4 ≤ (CFile.fopen (fullImage n h).bytes).rest.length := by
      rw [CFile.rest_fopen, NvImage.bytes, List.length_append, (fullImage n h).header.size]
      omega
    refine .inr ((hp.openedCall addr hstate hfile).fullTlv (if_pos hchip)
      (show _ = HwCfg.mk .nvSend 0 (some _) from rfl) ?_ ?_ (by omega : 4 + 252 * 0 < 2 ^ 31) hn hxmit)
    · rw [hstream]
      rfl
    · rw [hstream, ((CFile.fopen (fullImage n h).bytes).afterRead_of_le 4 hlen).1]
      rfl
  | sending hchip hwCfg hcontent hpos hm =>
    have hcall := hp.nvSendCall addr (by rw [hwCfg])
    exact .inr (hcall.fullTlv hchip hwCfg hcontent hpos hm hn hxmit)
  | skipped hchip hwCfg hcontent hpos hm =>
    have hcall := hp.nvSendCall addr (by rw [hwCfg])
    exact .inl (hcall.empty hchip (show s.hwCfgCb.nvFp = some _ by rw [hwCfg])
      (full_stops_skipped hcontent hpos hm) (by simp))

/-- A run with this image never reports anything. -/
theorem full_reports_nothing (hp : ∀ s, s.btVendorCbacks = true → Proceeds s i event block)
    (hn : 2 ^ 31 ≤ 4 + 252 * (n - 1)) (hchip : Is6316 event)
    (hfile : i.fopen (nvPath event) = some (fullImage n h).bytes) (hxmit : i.xmit = true)
    {start : Block hciCmdPreambleSize} (hcb : s.btVendorCbacks = true) (k : ℕ) (os : List CfgEvent)
    (u : Stack) (hrun : RunTo addr s start (fun _ => i) k os u) :
    results os = [] ∧ (u.outstanding = 0 ∨
      u.outstanding = 1 ∧ u.cfg.btVendorCbacks = true ∧ FullPhase h u.cfg) := by
  induction k generalizing os u with
  | zero =>
    obtain ⟨rfl, -, hresults⟩ := hrun.zero hcb
    exact ⟨hresults, .inr ⟨rfl, hcb, .start rfl⟩⟩
  | succ k ih =>
    obtain ⟨⟨t, out⟩, ps, o, hprev, hstep, rfl⟩ := hrun.succ
    obtain ⟨hresults, hout | ⟨hout, hcb', hphase⟩⟩ := ih ps _ hprev
    · cases hstep with
      | callback hpos _ => exact absurd hpos (by rw [hout]; exact Nat.lt_irrefl 0)
    · obtain rfl : out = 1 := hout
      rw [results_append, hresults, List.nil_append]
      rcases hphase.step (hp t hcb') hn hchip hfile hxmit with ⟨t', hyields⟩ | ⟨t', c, hyields, hcb'', ht⟩
      · obtain ⟨rfl, -, hr⟩ := hyields.of_step hstep
        exact ⟨hr, .inl rfl⟩
      · obtain ⟨rfl, -, hr⟩ := hyields.of_step hstep
        exact ⟨hr, .inr ⟨rfl, hcb'', ht⟩⟩

end Full

/-- An image of 2 GiB is not downloaded: where its last TLV begins takes the sign bit of an `int`, the
machine does not seek back to it, and reads on behind its header; nothing fits a command there, nothing
is sent, and success is never reported. -/
theorem config_stalls_full :
    let inp : ℕ → CallbackIn := fun _ => ⟨some version6316, some (.zero _), true,
      fun _ => some (fullImage 8521762 (by decide)).bytes, .openFails, .zero _⟩
    FaultFree inp ∧ Is6316 version6316 ∧
      ¬ ∃ n os t, RunTo .initial ⟨true, ⟨.init, 0, none⟩, 0⟩ (.zero _) inp n os t ∧
        Finished .openFails os t := by
  intro inp
  refine ⟨⟨fun _ => ⟨_, rfl, rfl⟩, fun _ => ⟨_, rfl⟩, fun _ => rfl⟩, by decide, ?_⟩
  rintro ⟨n, os, t, hrun, hfinished⟩
  obtain ⟨hresults, -⟩ := full_reports_nothing
    (fun s hcb => ⟨hcb, rfl, rfl, rfl⟩ : ∀ s : ConfigState, s.btVendorCbacks = true →
      Proceeds s (inp 0) version6316 (.zero _))
    (by omega : 2 ^ 31 ≤ 4 + 252 * (8521762 - 1)) (by decide) rfl rfl rfl n os t hrun
  obtain ⟨os₁, os₂, rfl, -, -, hreported⟩ := hfinished.reported
  rw [results_append, hreported] at hresults
  simp at hresults

end Seekwave
