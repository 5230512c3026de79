import Seekwave.Config.Run

/-!
# The NV download

A download sends the NV file in one command a callback. For chip 0x5301 each command takes the TLVs
that fit (`DownloadAt.step`), as long as an `int` holds where every batch begins; for the other chips
it takes a block, whatever the file holds. `NvSending` is the state of either, with a bound on the
commands still to come.
-/

open Memory

namespace Seekwave

/-! ## NV images -/

/-- The batches in which TLVs are sent. -/
def nvBatches (ts : List Tlv) : List (List Tlv) := Greedy.batches Tlv.size 252 ts

/-- How far into the TLVs the last batch begins. -/
def lastBatch (ts : List Tlv) : ℕ := tlvsSize (nvBatches ts).dropLast.flatten

/-- An NV file for chip 0x5301: a header and complete TLVs, each of which fits a command. -/
structure NvImage where
  header : Block 4
  tlvs : List Tlv
  nonempty : tlvs ≠ []
  fits : ∀ t ∈ tlvs, t.nvParam.length ≤ 249

namespace NvImage

variable (image : NvImage)

/-- The bytes of the file. -/
def bytes : List UInt8 := image.header.cells ++ encode image.tlvs

/-- Where in the file the last batch begins. -/
def lastStart : ℕ := 4 + lastBatch image.tlvs

end NvImage

/-! ## Streams of TLVs -/

/-- The items in front that fit one command. -/
def nvBatch (x : Tlv) (xs : List Tlv) : List Tlv := x :: (Greedy.fill Tlv.size 252 x.size xs).1

/-- The items behind them. -/
def nvOthers (x : Tlv) (xs : List Tlv) : List Tlv := (Greedy.fill Tlv.size 252 x.size xs).2

theorem nvBatches_cons (x : Tlv) (xs : List Tlv) :
    nvBatches (x :: xs) = nvBatch x xs :: nvBatches (nvOthers x xs) := Greedy.batches_cons x xs

theorem nvBatch_append (x : Tlv) (xs : List Tlv) : nvBatch x xs ++ nvOthers x xs = x :: xs := by
  rw [nvBatch, nvOthers, List.cons_append, Greedy.fill_append]

theorem length_nvOthers_lt (x : Tlv) (xs : List Tlv) : (nvOthers x xs).length < (x :: xs).length :=
  Nat.lt_succ_of_le (Greedy.length_fill_le _ _)

theorem tlvsSize_nvBatch_le {x : Tlv} {xs : List Tlv} (h : x.size ≤ 252) :
    tlvsSize (nvBatch x xs) ≤ 252 := by
  rw [nvBatch, tlvsSize_cons]
  exact Greedy.total_fill_le h

/-- The last batch begins behind the first one, unless that is the last. -/
theorem lastBatch_cons {x : Tlv} {xs : List Tlv} (h : nvOthers x xs ≠ []) :
    lastBatch (x :: xs) = tlvsSize (nvBatch x xs) + lastBatch (nvOthers x xs) := by
  have hne : nvBatches (nvOthers x xs) ≠ [] := by
    intro hnil
    have := @Greedy.flatten_batches _ Tlv.size 252 (nvOthers x xs)
    rw [show Greedy.batches Tlv.size 252 (nvOthers x xs) = [] from hnil] at this
    exact h this.symm
  rw [lastBatch, nvBatches_cons, List.dropLast_cons_of_ne_nil hne, List.flatten_cons, tlvsSize,
    Greedy.total_append]
  rfl

/-- A batch that is the only one begins at once. -/
theorem lastBatch_of_nil {x : Tlv} {xs : List Tlv} (h : nvOthers x xs = []) :
    lastBatch (x :: xs) = 0 := by
  rw [lastBatch, nvBatches_cons, h, nvBatches, Greedy.batches_nil]
  rfl

/-- The TLVs still to be sent are what the stream has left, and an `int` holds where each batch of
them begins. -/
structure Download (f : CFile) (ts : List Tlv) : Prop where
  rest : f.rest = encode ts
  fits : ∀ t ∈ ts, t.size ≤ 252
  seekable : f.pos + lastBatch ts < 2 ^ 31

/-- An image is a stream of TLVs behind its header. -/
theorem NvImage.download {image : NvImage} (h : image.lastStart < 2 ^ 31) :
    Download ((CFile.fopen image.bytes).afterRead 4) image.tlvs where
  rest := CFile.rest_afterRead_of_append _ 4 (CFile.rest_fopen image.bytes) image.header.size
  fits := by
    intro t ht
    have := image.fits t ht
    rw [Tlv.size]
    omega
  seekable := by
    have hlen : 4 ≤ (CFile.fopen image.bytes).rest.length := by
      rw [CFile.rest_fopen, NvImage.bytes, List.length_append, image.header.size]
      omega
    rw [((CFile.fopen image.bytes).afterRead_of_le 4 hlen).1]
    have : (CFile.fopen image.bytes).pos = 0 := rfl
    rw [NvImage.lastStart] at h
    omega

/-- What stops a batch: the end of the file, or the first of the other TLVs. -/
theorem stops_nvBatch (x : Tlv) (xs : List Tlv) :
    (if nvOthers x xs = [] then PackEnd.fileEnd else .full).Stops (encode (nvOthers x xs))
      (tlvsSize (nvBatch x xs)) := by
  cases hothers : nvOthers x xs with
  | nil => exact Nat.zero_lt_succ 2
  | cons y ys =>
    have hlt := Greedy.lt_of_fill hothers
    have hhead : byteAt (y.bytes ++ encode ys) 2 = byteAt y.header 2 := rfl
    have hsize : y.size = y.nvParam.length + 3 := rfl
    have htotal : tlvsSize (Greedy.fill Tlv.size 252 x.size xs).1 =
      Greedy.total Tlv.size (Greedy.fill Tlv.size 252 x.size xs).1 := rfl
    rw [if_neg (List.cons_ne_nil _ _), encode_cons]
    constructor
    · rw [List.length_append, y.length_bytes]
      omega
    · rw [hhead, y.paramLen_header, nvBatch, tlvsSize_cons]
      omega

/-- The stream behind a batch. -/
theorem Download.next {f : CFile} {x : Tlv} {xs : List Tlv} (h : Download f (x :: xs))
    (hothers : nvOthers x xs ≠ []) :
    f.pos + tlvsSize (nvBatch x xs) < 2 ^ 31 ∧
      Download (f.moveTo (f.pos + tlvsSize (nvBatch x xs))) (nvOthers x xs) := by
  have hseek := h.seekable
  have hsplit := nvBatch_append x xs
  rw [lastBatch_cons hothers] at hseek
  refine ⟨by omega, ?_, ?_, ?_⟩
  · rw [f.rest_moveTo_add, h.rest, ← hsplit, encode_append, ← length_encode, List.drop_left]
  · intro t ht
    exact h.fits t (hsplit ▸ List.mem_append_right _ ht)
  · show f.pos + _ + _ < _
    omega

/-! ## Calls that send -/

/-- The callback goes on as `HW_CFG_NV_SEND`, having done `c` so far. -/
structure NvSendCall (addr : Bdaddr) (s : ConfigState) (i : CallbackIn) (event : List UInt8)
    (block : Block hciCmdMaxLen) (c : Call) : Prop extends Proceeds s i event block where
  switch : configSwitch addr i (.enter s block) = caseNvSend addr i c
  cbacks : c.cfg.btVendorCbacks = true
  silent : commands c.trace = [] ∧ results c.trace = []
  state : c.cfg.hwCfgCb.state = .nvSend
  memory : 258 ≤ c.mem.length

section Callback

variable {addr : Bdaddr} {s : ConfigState} {i : CallbackIn} {event : List UInt8}
  {block : Block hciCmdMaxLen}

variable (addr) in
/-- In `HW_CFG_NV_SEND` the callback begins with the switch. -/
theorem Proceeds.nvSendCall (h : Proceeds s i event block) (hs : s.hwCfgCb.state = .nvSend) :
    NvSendCall addr s i event block (.enter s block) where
  toProceeds := h
  switch := by rw [configSwitch, show (Call.enter s block).cfg.hwCfgCb.state = .nvSend from hs]
  cbacks := h.registered
  silent := ⟨rfl, rfl⟩
  state := hs
  memory := Nat.le_of_eq block.size.symm

variable (addr) in
/-- In `HW_CFG_READ_HCI_VERSION` it opens the file first. -/
theorem Proceeds.openedCall (h : Proceeds s i event block)
    (hs : s.hwCfgCb.state = .readHciVersion) {content : List UInt8}
    (hfile : i.fopen (nvPath event) = some content) :
    NvSendCall addr s i event block (.opened s block event content) where
  toProceeds := h
  switch := h.readHciVersion_opened hs hfile
  cbacks := h.registered
  silent := ⟨rfl, rfl⟩
  state := rfl
  memory := Nat.le_of_eq block.size.symm

variable {c : Call} {f : CFile} {b : List Tlv} {e : PackEnd} {tail : List UInt8}

/-- What the stack sees of a download step that is left in order. -/
theorem NvSendCall.yields (h : NvSendCall addr s i event block c) {t : ConfigState}
    {ws es : List CfgEvent} (hout : (caseNvSend addr i c).outcome =
      (.done, t, (c.store 0 (uint16ToStream hciCmdSkwBtNvds)).trace ++ ws ++ es))
    (hws : ∀ w ∈ ws, w.IsUse) (hcb : t.btVendorCbacks = true) :
    CallbackYields addr s i t (commands es) (results es) := by
  have hwrite : ∀ w ∈ [.write 0 (uint16ToStream hciCmdSkwBtNvds)] ++ ws, w.IsUse :=
    List.forall_mem_append.mpr ⟨by simp [CfgEvent.IsUse], hws⟩
  rw [show (c.store 0 _).trace = c.trace ++ [.write 0 _] from rfl, List.append_assoc c.trace] at hout
  have := h.toProceeds.yields ((congrArg Flow.outcome h.switch).trans hout) hwrite hcb
  rwa [h.silent.1, h.silent.2] at this

/-- **One command of chip 0x5301.** A batch of TLVs is sent; then the file is closed, at its end, or
sought back to the TLV that did not fit. -/
theorem NvSendCall.batch (h : NvSendCall addr s i event block c)
    (hchip : c.cfg.chipVersion = skwChipid6316) (hf : c.cfg.hwCfgCb.nvFp = some f)
    (hrest : f.rest = encode b ++ tail) (hfit : tlvsSize b ≤ 252)
    (hstop : e.Stops tail (tlvsSize b)) (he : e ≠ .truncated) (hb : b ≠ [])
    (hxmit : i.xmit = true) :
    CallbackYields addr s i
      (c.cfg.setHwCfg (if e = .fileEnd then ⟨.writeBdAddr, c.cfg.hwCfgCb.fileOffset + 1, none⟩
        else ⟨.nvSend, c.cfg.hwCfgCb.fileOffset + 1, some (f.seekBack (f.pos + tlvsSize b) 3)⟩))
      [(hciCmdSkwBtNvds, nvdsPacket c.cfg.hwCfgCb.fileOffset (sentBytes addr b))] [] := by
  let c₀ := c.store 0 (uint16ToStream hciCmdSkwBtNvds)
  have hop : c₀.mem.take 2 = uint16ToStream hciCmdSkwBtNvds := take_store (Nat.zero_le _) rfl
  obtain ⟨c', f', ws, m, hpacked, hws, hm, hout⟩ := @nvSend6316_sent addr i c₀ f b e tail hf hrest
    hfit hstop (Nat.le_trans h.memory (length_le_length_store _ _ _)) hop he hb hxmit
  rw [← caseNvSend_6316 hchip, show c₀.cfg = c.cfg from rfl, h.state] at hout
  have hm' : m.take (tlvsSize b + 5) = nvdsPacket c.cfg.hwCfgCb.fileOffset (sentBytes addr b) := hm
  rw [← hm']
  cases e with
  | truncated => exact absurd rfl he
  | fileEnd =>
    simp only [if_true] at hout ⊢
    exact h.yields hout hws h.cbacks
  | full =>
    simp only [reduceCtorEq, if_false] at hout ⊢
    -- the file goes back to the TLV that did not fit
    rw [← hpacked.full rfl]
    exact h.yields hout hws h.cbacks

/-- Nothing fits, or there is nothing left: nothing is sent. -/
theorem NvSendCall.empty (h : NvSendCall addr s i event block c)
    (hchip : c.cfg.chipVersion = skwChipid6316) (hf : c.cfg.hwCfgCb.nvFp = some f)
    (hstop : e.Stops f.rest 0) (he : e ≠ .truncated) :
    ∃ t, CallbackYields addr s i t [] [] := by
  let c₀ := c.store 0 (uint16ToStream hciCmdSkwBtNvds)
  obtain ⟨f', ws, hws, hout⟩ := @nvSend6316_empty addr i c₀ f e hf hstop
    (Nat.le_trans h.memory (length_le_length_store _ _ _)) he
  rw [← caseNvSend_6316 hchip] at hout
  have hyields := h.yields hout hws h.cbacks
  cases e with
  | truncated => exact absurd rfl he
  | fileEnd => exact ⟨_, hyields⟩
  | full => exact ⟨_, hyields⟩

/-- A TLV that the file does not hold in full: a command goes out all the same, from the buffer that has
been freed, and the configuration is over. -/
theorem NvSendCall.truncated (h : NvSendCall addr s i event block c)
    (hchip : c.cfg.chipVersion = skwChipid6316) (hf : c.cfg.hwCfgCb.nvFp = some f)
    (hrest : f.rest = encode b ++ tail) (hfit : tlvsSize b ≤ 252)
    (hstop : PackEnd.truncated.Stops tail (tlvsSize b)) (hxmit : i.xmit = true) :
    ∃ t packet, CallbackYields addr s i t [(hciCmdSkwBtNvds, packet)] [] ∧
      t.hwCfgCb.state = .init := by
  let c₀ := c.store 0 (uint16ToStream hciCmdSkwBtNvds)
  obtain ⟨ws, m, hws, hout⟩ := @nvSend6316_truncated addr i c₀ f b tail hf hrest hfit hstop
    (Nat.le_trans h.memory (length_le_length_store _ _ _))
  rw [← caseNvSend_6316 hchip, if_pos hxmit, if_pos hxmit, hxmit] at hout
  exact ⟨_, _, h.yields hout hws h.cbacks, rfl⟩

/-- **One command of the other chips.** A block is sent, and the file closed behind the last one. -/
theorem NvSendCall.blocks (h : NvSendCall addr s i event block c)
    (hchip : c.cfg.chipVersion ≠ skwChipid6316) (hf : c.cfg.hwCfgCb.nvFp = some f)
    (hxmit : i.xmit = true) :
    CallbackYields addr s i
      (c.cfg.setHwCfg (if f.rest.length < nvFileRdBlockSize then
          ⟨.writeBdAddr, c.cfg.hwCfgCb.fileOffset + 1, none⟩
        else ⟨.nvSend, c.cfg.hwCfgCb.fileOffset + 1, some (f.afterRead nvFileRdBlockSize)⟩))
      [(hciCmdSkwBtNvds, nvdsPacket c.cfg.hwCfgCb.fileOffset
        (patchedBlock addr c.cfg.hwCfgCb.fileOffset (f.fread nvFileRdBlockSize)))] [] := by
  let c₀ := c.store 0 (uint16ToStream hciCmdSkwBtNvds)
  obtain ⟨ws, m, hws, -, hm, hout⟩ := @nvSendBlock_outcome addr i c₀ f hf
    (Nat.le_trans h.memory (length_le_length_store _ _ _)) (take_store (Nat.zero_le _) rfl)
  rw [if_pos hxmit, ← caseNvSend_other hchip, show c₀.cfg = c.cfg from rfl, h.state] at hout
  have hm' : m.take ((f.fread nvFileRdBlockSize).length + 5) = nvdsPacket c.cfg.hwCfgCb.fileOffset
    (patchedBlock addr c.cfg.hwCfgCb.fileOffset (f.fread nvFileRdBlockSize)) := hm
  rw [← hm']
  by_cases hlast : f.rest.length < nvFileRdBlockSize
  · simp only [if_pos hlast] at hout ⊢
    exact h.yields hout hws h.cbacks
  · simp only [if_neg hlast] at hout ⊢
    exact h.yields hout hws h.cbacks

/-! ## Downloads of TLVs -/

/-- The machine has still to send TLVs, the next command with index `k`; or it has sent them all. -/
inductive DownloadAt (s : ConfigState) (k : UInt8) : List Tlv → Prop
  | sending {x : Tlv} {xs : List Tlv} {f : CFile} (chip : s.chipVersion = skwChipid6316)
      (hwCfg : s.hwCfgCb = ⟨.nvSend, k, some f⟩) (download : Download f (x :: xs)) :
      DownloadAt s k (x :: xs)
  | sent (hwCfg : s.hwCfgCb = ⟨.writeBdAddr, k, none⟩) : DownloadAt s k []

theorem DownloadAt.state_eq {k : UInt8} {x : Tlv} {xs : List Tlv} (h : DownloadAt s k (x :: xs)) :
    s.hwCfgCb.state = .nvSend := by
  cases h with
  | sending _ hwCfg _ => rw [hwCfg]

/-- **One step of a download of TLVs**: the TLVs in front that fit are sent. -/
theorem NvSendCall.tlvs (h : NvSendCall addr s i event block c) {k : UInt8} {x : Tlv}
    {xs : List Tlv} (hat : DownloadAt c.cfg k (x :: xs)) (hxmit : i.xmit = true) :
    ∃ t, CallbackYields addr s i t
        [(hciCmdSkwBtNvds, nvdsPacket k (sentBytes addr (nvBatch x xs)))] [] ∧
      t.btVendorCbacks = true ∧ DownloadAt t (k + 1) (nvOthers x xs) := by
  cases hat with
  | @sending _ _ f hchip hwCfg hd =>
  have hrest : f.rest = encode (nvBatch x xs) ++ encode (nvOthers x xs) := by
    rw [hd.rest, ← encode_append, nvBatch_append]
  have hne : (if nvOthers x xs = [] then PackEnd.fileEnd else .full) ≠ .truncated := by
    split <;> nofun
  have hyields := h.batch hchip (by rw [hwCfg]) hrest
    (tlvsSize_nvBatch_le (hd.fits x (List.mem_cons_self ..))) (stops_nvBatch x xs) hne
    (List.cons_ne_nil _ _) hxmit
  rw [hwCfg] at hyields
  refine ⟨_, hyields, h.cbacks, ?_⟩
  -- a batch with the last TLV ends the download
  by_cases hothers : nvOthers x xs = []
  · simp only [if_pos hothers, if_true]
    rw [hothers]
    exact .sent rfl
  · obtain ⟨hseek, hnext⟩ := hd.next hothers
    simp only [if_neg hothers, reduceCtorEq, if_false]
    rw [f.seekBack_of_lt 3 hseek]
    obtain ⟨y, ys, hcons⟩ := List.exists_cons_of_ne_nil hothers
    rw [hcons] at hnext ⊢
    exact .sending hchip rfl hnext

/-- The download of an image begins with all of its TLVs. -/
theorem downloadAt_opened {image : NvImage} (hchip : Is6316 event)
    (hseek : image.lastStart < 2 ^ 31) {x : Tlv} {xs : List Tlv} (htlvs : image.tlvs = x :: xs) :
    DownloadAt (Call.opened s block event image.bytes).cfg 0 (x :: xs) := by
  have hstream : nvStream event image.bytes = (CFile.fopen image.bytes).afterRead 4 := if_pos hchip
  refine .sending (if_pos hchip) rfl ?_
  rw [hstream, ← htlvs]
  exact NvImage.download hseek

/-! ## Downloads of either kind -/

/-- The machine is in the middle of a download, with at most `n` commands to come. -/
inductive NvSending (s : ConfigState) : ℕ → Prop
  | tlvs {k : UInt8} {ts : List Tlv} (hts : ts ≠ []) (h : DownloadAt s k ts) : NvSending s ts.length
  | blocks {f : CFile} (chip : s.chipVersion ≠ skwChipid6316) (state : s.hwCfgCb.state = .nvSend)
      (file : s.hwCfgCb.nvFp = some f) : NvSending s (f.rest.length + 1)

/-- The machine has downloaded the file and closed it. -/
structure NvSent (s : ConfigState) : Prop where
  state : s.hwCfgCb.state = .writeBdAddr
  nvFp : s.hwCfgCb.nvFp = none

theorem NvSending.state_eq {n : ℕ} (h : NvSending s n) : s.hwCfgCb.state = .nvSend := by
  cases h with
  | tlvs hts h =>
    obtain ⟨x, xs, rfl⟩ := List.exists_cons_of_ne_nil hts
    exact h.state_eq
  | blocks _ hstate _ => exact hstate

theorem DownloadAt.sent_or_sending {k : UInt8} {ts : List Tlv} (h : DownloadAt s k ts) :
    NvSent s ∨ NvSending s ts.length := by
  cases h with
  | sent hwCfg => exact .inl ⟨by rw [hwCfg], by rw [hwCfg]⟩
  | sending hchip hwCfg hd => exact .inr (.tlvs (List.cons_ne_nil _ _) (.sending hchip hwCfg hd))

/-- **One step of a download**: one command is sent, and the end is nearer. -/
theorem NvSendCall.sends (h : NvSendCall addr s i event block c) {n : ℕ} (hs : NvSending c.cfg n)
    (hxmit : i.xmit = true) :
    ∃ t packet, CallbackYields addr s i t [(hciCmdSkwBtNvds, packet)] [] ∧
      t.btVendorCbacks = true ∧ (NvSent t ∨ ∃ m < n, NvSending t m) := by
  cases hs with
  | @tlvs k ts hts hat =>
    obtain ⟨x, xs, rfl⟩ := List.exists_cons_of_ne_nil hts
    obtain ⟨t, hyields, hcb, ht⟩ := h.tlvs hat hxmit
    refine ⟨t, _, hyields, hcb, ?_⟩
    rcases ht.sent_or_sending with hsent | hsending
    · exact .inl hsent
    · exact .inr ⟨_, length_nvOthers_lt x xs, hsending⟩
  | @blocks f hchip _ hf =>
    refine ⟨_, _, h.blocks hchip hf hxmit, h.cbacks, ?_⟩
    by_cases hlast : f.rest.length < nvFileRdBlockSize
    · rw [if_pos hlast]
      exact .inl ⟨rfl, rfl⟩
    · rw [if_neg hlast]
      refine .inr ⟨_, ?_, .blocks hchip rfl rfl⟩
      have hsize : nvFileRdBlockSize = 252 := rfl
      rw [f.rest_afterRead, List.length_drop]
      omega

/-- A callback in the middle of a download. -/
theorem Proceeds.nvSend (h : Proceeds s i event block) {n : ℕ} (hs : NvSending s n)
    (hxmit : i.xmit = true) :
    ∃ t packet, CallbackYields addr s i t [(hciCmdSkwBtNvds, packet)] [] ∧
      t.btVendorCbacks = true ∧ (NvSent t ∨ ∃ m < n, NvSending t m) :=
  (h.nvSendCall addr hs.state_eq).sends hs hxmit

/-- The callback that opens the NV file. For chip 0x5301 the file has to be an image. -/
theorem Proceeds.readHciVersion (h : Proceeds s i event block)
    (hs : s.hwCfgCb.state = .readHciVersion) {content : List UInt8}
    (hfile : i.fopen (nvPath event) = some content)
    (himage : Is6316 event → ∃ image : NvImage, content = image.bytes ∧ image.lastStart < 2 ^ 31)
    (hxmit : i.xmit = true) :
    ∃ t packet, CallbackYields addr s i t [(hciCmdSkwBtNvds, packet)] [] ∧
      t.btVendorCbacks = true ∧ (NvSent t ∨ ∃ n, NvSending t n) := by
  have hsending : ∃ n, NvSending (Call.opened s block event content).cfg n := by
    by_cases hchip : Is6316 event
    · obtain ⟨image, rfl, hseek⟩ := himage hchip
      obtain ⟨x, xs, htlvs⟩ := List.exists_cons_of_ne_nil image.nonempty
      exact ⟨_, .tlvs (List.cons_ne_nil _ _) (downloadAt_opened hchip hseek htlvs)⟩
    · have hkept : keptVersion event ≠ skwChipid6316 := by
        rw [keptVersion, if_neg hchip]
        decide
      exact ⟨_, .blocks hkept rfl rfl⟩
  obtain ⟨n, hn⟩ := hsending
  obtain ⟨t, packet, hyields, hcb, ht⟩ := (h.openedCall addr hs hfile).sends hn hxmit
  refine ⟨t, packet, hyields, hcb, ht.imp_right ?_⟩
  rintro ⟨m, -, hm⟩
  exact ⟨m, hm⟩

end Callback

end Seekwave
