import Seekwave.Config.Faithful

/-!
# The download of the other chips is faithful

Any file is sent in blocks of 252 bytes, with `bdaddr_lap` and one bit of it changed on the way
(`FaithfulBlocks`), as long as a byte counts the commands (`blocks_faithful`). The block that is
patched is chosen by that byte, so a longer file would be patched more than once.
-/

open Memory

namespace Seekwave

/-- The file as it is sent: `bdaddr_lap` from byte 7 on, and a bit set in byte 314. -/
def patchedFile (addr : Bdaddr) (content : List UInt8) : List UInt8 :=
  content.mapIdx fun j b =>
    if addr.valid = true ∧ 7 ≤ j ∧ j < 10 then byteAt addr.lap.cells (j - 7)
    else if j = 314 then b ||| 0x80 else b

/-- Block `k` of a file, clipped to its end. -/
def fileBlock (content : List UInt8) (k : ℕ) : List UInt8 :=
  (content.drop (nvFileRdBlockSize * k)).take nvFileRdBlockSize

/-- The commands carry the file in blocks. -/
structure FaithfulBlocks (addr : Bdaddr) (content : List UInt8) (packets : List (List UInt8)) :
    Prop where
  /-- the `k`-th command has index `k`, and carries the `k`-th block -/
  packet : ∀ k (h : k < packets.length),
    packets[k] = nvdsPacket (UInt8.ofNat k) (fileBlock (patchedFile addr content) k)
  index : ∀ k < packets.length, (UInt8.ofNat k).toNat = k
  /-- the last command is the first one with fewer than 252 bytes -/
  last : ∀ k < packets.length,
    ((fileBlock (patchedFile addr content) k).length < nvFileRdBlockSize ↔ k + 1 = packets.length)
  nonempty : packets ≠ []
  /-- one behind the other, the data is that of the file -/
  data : packets.flatMap (·.drop 5) = patchedFile addr content

/-- The download of a file comes to its end, and was faithful. -/
def DownloadsBlocks (addr : Bdaddr) (s : ConfigState) (block : Block hciCmdPreambleSize)
    (inp : ℕ → CallbackIn) (content : List UInt8) : Prop :=
  ∃ n os t packets, RunTo addr s block inp n os ⟨t, 1⟩ ∧ NvSent t ∧ commands os =
    [(hciReset, [0x03, 0x0C, 0x00]), (hciReadLocalVersionInfo, [0x01, 0x10, 0x00])] ++
      nvdsCommands packets ∧ FaithfulBlocks addr content packets

/-! ## Blocks of a file -/

section File

variable {addr : Bdaddr} {content : List UInt8} {k : ℕ}

theorem length_patchedFile (addr : Bdaddr) (content : List UInt8) :
    (patchedFile addr content).length = content.length := List.length_mapIdx

theorem length_fileBlock (content : List UInt8) (k : ℕ) :
    (fileBlock content k).length = min 252 (content.length - 252 * k) := by
  rw [fileBlock, List.length_take, List.length_drop, nvFileRdBlockSize]

/-- The first blocks of a file, one behind the other. -/
theorem flatMap_fileBlock (content : List UInt8) (n : ℕ) :
    (List.range n).flatMap (fileBlock content) = content.take (252 * n) := by
  induction n with
  | zero => rfl
  | succ n ih =>
    rw [List.range_succ, List.flatMap_append, ih, List.flatMap_singleton, fileBlock,
      nvFileRdBlockSize, Nat.mul_succ, List.take_add]

/-- The patches of a block are those of the file. -/
theorem patchedBlock_fileBlock (addr : Bdaddr) (content : List UInt8) (hk : k < 256) :
    patchedBlock addr (UInt8.ofNat k) (fileBlock content k) =
      fileBlock (patchedFile addr content) k := by
  have hindex : (UInt8.ofNat k).toNat = k := UInt8.toNat_ofNat_of_lt' hk
  have hzero : UInt8.ofNat k = 0 ↔ k = 0 := by
    rw [← UInt8.toNat_inj, hindex]
    rfl
  have hone : UInt8.ofNat k = 1 ↔ k = 1 := by
    rw [← UInt8.toNat_inj, hindex]
    rfl
  -- byte `j` of the block is byte `252 * k + j` of the file, so that the patches meet the same bytes
  apply List.ext_getElem?
  intro j
  rw [patchedBlock, fileBlock, fileBlock, List.getElem?_mapIdx]
  by_cases hj : j < nvFileRdBlockSize
  · rw [List.getElem?_take_of_lt hj, List.getElem?_take_of_lt hj, List.getElem?_drop,
      List.getElem?_drop, patchedFile, List.getElem?_mapIdx]
    have hsize : nvFileRdBlockSize = 252 := rfl
    congr 1
    funext b
    have hlap : (UInt8.ofNat k = 0 ∧ addr.valid = true ∧ 7 ≤ j ∧ j < 10) ↔ (addr.valid = true ∧
        7 ≤ nvFileRdBlockSize * k + j ∧ nvFileRdBlockSize * k + j < 10) := by
      rw [hzero, hsize]
      constructor
      · rintro ⟨rfl, hvalid, hj⟩
        exact ⟨hvalid, by omega⟩
      · rintro ⟨hvalid, hj⟩
        exact ⟨by omega, hvalid, by omega⟩
    have hbit : (UInt8.ofNat k = 1 ∧ j = 62) ↔ nvFileRdBlockSize * k + j = 314 := by
      rw [hone, hsize]
      omega
    simp only [hlap, hbit]
    by_cases hpatch : addr.valid = true ∧
        7 ≤ nvFileRdBlockSize * k + j ∧ nvFileRdBlockSize * k + j < 10
    · have hk₀ : k = 0 := by
        obtain ⟨-, hfirst⟩ := hpatch
        rw [hsize] at hfirst
        omega
      rw [if_pos hpatch, if_pos hpatch, hk₀, Nat.mul_zero, Nat.zero_add]
    · rw [if_neg hpatch, if_neg hpatch]
  · rw [List.getElem?_eq_none, List.getElem?_eq_none]
    · rfl
    all_goals
      rw [List.length_take]
      omega

/-- The commands for the blocks of a file. -/
def blockPackets (addr : Bdaddr) (content : List UInt8) (ks : List ℕ) : List (List UInt8) :=
  ks.map fun k => nvdsPacket (UInt8.ofNat k) (fileBlock (patchedFile addr content) k)

/-- The commands for all the blocks of a file carry it. -/
theorem faithfulBlocks_range (addr : Bdaddr) (h : content.length < 252 * 256) :
    FaithfulBlocks addr content
      (blockPackets addr content (List.range (content.length / 252 + 1))) where
  packet := by
    intro k hk
    simp only [blockPackets, List.getElem_map, List.getElem_range]
  index := by
    intro k hk
    rw [blockPackets, List.length_map, List.length_range] at hk
    exact UInt8.toNat_ofNat_of_lt' (Nat.lt_of_lt_of_le hk (by rw [UInt8.size]; omega))
  last := by
    intro k hk
    rw [blockPackets, List.length_map, List.length_range] at hk ⊢
    rw [length_fileBlock, length_patchedFile, nvFileRdBlockSize]
    omega
  nonempty := by simp [blockPackets]
  data := by
    rw [blockPackets, List.flatMap_map]
    simp only [drop_nvdsPacket]
    rw [flatMap_fileBlock, List.take_of_length_le]
    rw [length_patchedFile]
    omega

end File

/-! ## Runs -/

/-- The machine has still to send block `k` of a file and those behind it. -/
structure BlocksAt (content : List UInt8) (k : ℕ) (s : ConfigState) : Prop where
  chip : s.chipVersion ≠ skwChipid6316
  hwCfg : ∃ f, s.hwCfgCb = ⟨.nvSend, UInt8.ofNat k, some f⟩ ∧ f.content = content ∧ f.pos = 252 * k
  inside : 252 * k ≤ content.length

section Runs

variable {addr : Bdaddr} {s t : ConfigState} {i : CallbackIn} {event : List UInt8}
  {block : Block hciCmdMaxLen} {start : Block hciCmdPreambleSize} {inp : ℕ → CallbackIn} {c : Call}
  {content : List UInt8} {k n : ℕ} {os : List CfgEvent}

/-- **A block is sent.** The next one follows, unless the file ends in this one. -/
theorem NvSendCall.fileBlock (h : NvSendCall addr s i event block c) (hat : BlocksAt content k c.cfg)
    (hlen : content.length < 252 * 256) (hxmit : i.xmit = true) :
    ∃ t, CallbackYields addr s i t
        (nvdsCommands (blockPackets addr content [k])) [] ∧ t.btVendorCbacks = true ∧
      ((content.length / 252 = k ∧ NvSent t) ∨ (k < content.length / 252 ∧ BlocksAt content (k + 1) t)) := by
  obtain ⟨f, hwCfg, hcontent, hpos⟩ := hat.hwCfg
  have hinside := hat.inside
  have hfile : c.cfg.hwCfgCb.nvFp = some f := by rw [hwCfg]
  have hfread : f.fread nvFileRdBlockSize = Seekwave.fileBlock content k := by
    rw [CFile.fread, CFile.rest, hcontent, hpos]
    rfl
  have hrest : f.rest.length = content.length - 252 * k := by
    rw [f.length_rest, hcontent, hpos]
  have hsize : nvFileRdBlockSize = 252 := rfl
  have hyields := h.blocks hat.chip hfile hxmit
  rw [hfread, hwCfg, patchedBlock_fileBlock addr content (by omega)] at hyields
  refine ⟨_, hyields, h.cbacks, ?_⟩
  by_cases hlast : f.rest.length < nvFileRdBlockSize
  · rw [if_pos hlast]
    exact .inl ⟨by omega, rfl, rfl⟩
  · rw [if_neg hlast]
    refine .inr ⟨by omega, hat.chip, ⟨f.afterRead nvFileRdBlockSize, ?_, hcontent, ?_⟩, by omega⟩
    · exact congrArg (HwCfg.mk .nvSend · (some (f.afterRead nvFileRdBlockSize)))
        (UInt8.ofNat_add k 1).symm
    · rw [(f.afterRead_of_le _ (Nat.not_lt.mp hlast)).1, hpos, hsize]
      omega

/-- **The blocks are sent one after the other**, each in a callback of its own. -/
theorem FaultFree.blocks (h : FaultFree inp) (hat : BlocksAt content k t)
    (hlen : content.length < 252 * 256) (hcb : t.btVendorCbacks = true)
    (hrun : RunTo addr s start inp n os ⟨t, 1⟩) :
    ∃ m ps u, RunTo addr s start inp m (os ++ ps) ⟨u, 1⟩ ∧ commands ps = nvdsCommands
        (blockPackets addr content (List.range' k (content.length / 252 + 1 - k))) ∧ NvSent u := by
  -- induction on the number of blocks behind this one
  induction hd : content.length / 252 - k using Nat.strongRecOn generalizing k t n os with
  | ind d ih =>
    obtain ⟨event, block', hproceeds⟩ := h.proceeds hcb n
    obtain ⟨f, hwCfg, -, -⟩ := hat.hwCfg
    obtain ⟨u, hyields, hcb', hu⟩ :=
      (hproceeds.nvSendCall addr (by rw [hwCfg])).fileBlock hat hlen (h.xmit n)
    obtain ⟨ps, hrun', hcommands, -⟩ := hyields.run hrun
    rcases hu with ⟨hk, hsent⟩ | ⟨hk, hnext⟩
    · -- this is the last one
      refine ⟨n + 1, ps, u, hrun', ?_, hsent⟩
      rw [hcommands, hk, Nat.add_sub_cancel_left]
      rfl
    · obtain ⟨m, ps', v, hrun'', hcommands', hsent⟩ :=
        ih _ (by omega) hnext hcb' hrun' rfl
      refine ⟨m, ps ++ ps', v, by rwa [← List.append_assoc], ?_, hsent⟩
      rw [commands_append, hcommands, hcommands',
        show content.length / 252 + 1 - k = content.length / 252 + 1 - (k + 1) + 1 by omega,
        List.range'_succ]
      rfl

/-- **The download of the other chips is faithful**: any file that takes at most 256 commands is sent
in blocks. -/
theorem blocks_faithful (hcb : s.btVendorCbacks = true) (h : FaultFree inp)
    (hevent : (inp 1).pMem = some event) (hchip : ¬ Is6316 event)
    (hfile : (inp 1).fopen nvFile6160 = some content) (hlen : content.length < 252 * 256) :
    DownloadsBlocks addr s start inp content := by
  obtain ⟨os, t, hrun, hstate, hcb', hcommands, -⟩ := h.version hcb
  obtain ⟨event', block', hproceeds⟩ := h.proceeds hcb' 1
  obtain rfl : event = event' := Option.some.inj (hevent.symm.trans hproceeds.pMem)
  have hpath : nvPath event = nvFile6160 := if_neg hchip
  have hat : BlocksAt content 0 (Call.opened t block' event content).cfg := by
    refine ⟨?_, ⟨CFile.fopen content, ?_, rfl, rfl⟩, Nat.zero_le _⟩
    · show keptVersion event ≠ _
      rw [keptVersion, if_neg hchip]
      decide
    · show HwCfg.mk _ _ (some (nvStream event content)) = _
      rw [nvStream, if_neg hchip]
      rfl
  -- the first block, sent by the callback that opens the file
  obtain ⟨u, hyields, hcb'', hu⟩ :=
    (hproceeds.openedCall addr hstate (hpath ▸ hfile)).fileBlock hat hlen (h.xmit 1)
  obtain ⟨ps, hrun', hcommands', -⟩ := hyields.run hrun
  have hfaithful := @faithfulBlocks_range content addr hlen
  rcases hu with ⟨hk, hsent⟩ | ⟨hk, hnext⟩
  · rw [hk] at hfaithful
    refine ⟨2, _, u, _, hrun', hsent, ?_, hfaithful⟩
    rw [commands_append, hcommands, hcommands']
    rfl
  · -- the other blocks
    obtain ⟨m, qs, v, hrun'', hcommands'', hsent⟩ := h.blocks hnext hlen hcb'' hrun'
    refine ⟨m, _, v, _, hrun'', hsent, ?_, hfaithful⟩
    rw [commands_append, commands_append, hcommands, hcommands', hcommands'', List.range_eq_range',
      List.range'_succ, Nat.add_sub_cancel]
    rfl

end Runs

/-- A file of two blocks. -/
theorem blocks_faithful_two :
    let inp : ℕ → CallbackIn := fun _ => ⟨some [0x0E, 0x0C, 0x01, 0x01, 0x10, 0x00, 0x0A, 0x17, 0x00],
      some (.zero _), true, fun _ => some (List.replicate 300 0), .openFails, .zero _⟩
    DownloadsBlocks .initial ⟨true, ⟨.init, 0, none⟩, 0⟩ (.zero _) inp (List.replicate 300 0) := by
  intro inp
  have hfree : FaultFree inp := ⟨fun _ => ⟨_, rfl, rfl⟩, fun _ => ⟨_, rfl⟩, fun _ => rfl⟩
  refine blocks_faithful rfl hfree rfl (by decide) rfl ?_
  rw [List.length_replicate]
  omega

end Seekwave
