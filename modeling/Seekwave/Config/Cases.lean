import Seekwave.Config.Pack

/-!
# What the cases of the switch do

For each case, the command it sends, the state it leaves behind and the events it adds, for all results
of its calls to the outside. The runs of the machine are derived from these lemmas alone.
-/

open Memory

namespace Seekwave

/-! ## Commands -/

/-- An NVDS command. -/
def nvdsPacket (index : UInt8) (data : List UInt8) : List UInt8 :=
  uint16ToStream hciCmdSkwBtNvds ++
    [UInt8.ofNat (data.length + 2), index, UInt8.ofNat data.length] ++ data

/-- Opcode and bytes of a command that `xmit_cb` has accepted. -/
def CfgEvent.command? : CfgEvent → Option (ℕ × List UInt8)
  | .xmitCb opcode len bytes true => some (opcode, bytes.take len)
  | _ => none

/-- The commands sent. -/
def commands (os : List CfgEvent) : List (ℕ × List UInt8) := os.filterMap CfgEvent.command?

/-- The results reported to the stack. -/
def results (os : List CfgEvent) : List Bool :=
  os.filterMap fun
    | .fwcfgCb success => some success
    | _ => none

theorem commands_append (os ps : List CfgEvent) :
    commands (os ++ ps) = commands os ++ commands ps := List.filterMap_append

theorem results_append (os ps : List CfgEvent) : results (os ++ ps) = results os ++ results ps :=
  List.filterMap_append

/-- Accesses to the buffer send nothing. -/
theorem commands_of_use {ws : List CfgEvent} (h : ∀ w ∈ ws, w.IsUse) : commands ws = [] := by
  refine List.filterMap_eq_nil_iff.mpr fun w hw => ?_
  have := h w hw
  cases w <;> first | rfl | exact this.elim

/-- Accesses to the buffer report nothing. -/
theorem results_of_use {ws : List CfgEvent} (h : ∀ w ∈ ws, w.IsUse) : results ws = [] := by
  refine List.filterMap_eq_nil_iff.mpr fun w hw => ?_
  have := h w hw
  cases w <;> first | rfl | exact this.elim

/-! ## The end of a download step -/

section Statements

variable {c : Call}

/-- The header of an NVDS command in front of its data. -/
theorem store_nvdsHeader (m : List UInt8) (x y z : UInt8) (h : 5 ≤ m.length) :
    store (store (store m 2 [x]) 3 [y]) 4 [z] = m.take 2 ++ [x, y, z] ++ m.drop 5 := by
  rw [show store (store m 2 [x]) 3 [y] = store m 2 [x, y] from store_store m [x] [y] 2,
    show store (store m 2 [x, y]) 4 [z] = store m 2 [x, y, z] from store_store m [x, y] [z] 2,
    store_of_le (by omega)]
  rfl

/-- The accesses that complete the header of an NVDS command with `n` data bytes. -/
def nvdsWrites (n : ℕ) (index : UInt8) : List CfgEvent :=
  [.write 2 [UInt8.ofNat (n + 2)], .write 3 [index], .write 4 [UInt8.ofNat n], .access]

theorem isUse_nvdsWrites (n : ℕ) (index : UInt8) : ∀ w ∈ nvdsWrites n index, w.IsUse := by
  simp [nvdsWrites, CfgEvent.IsUse]

/-- **The command of a batch.** The opcode is the one that the buffer holds already. -/
theorem xmitNvds_spec {n : ℕ} (hmem : 5 + n ≤ c.mem.length) (ret : Bool) :
    ∃ m, m.length = c.mem.length ∧
      m.take (n + 5) = c.mem.take 2 ++ [UInt8.ofNat (n + 2), c.cfg.hwCfgCb.fileOffset, UInt8.ofNat n] ++
        (c.mem.drop 5).take n ∧
      c.xmitNvds n ret = { c.nextFileOffset with
        mem := m
        len := n + 5
        trace := c.trace ++ nvdsWrites n c.cfg.hwCfgCb.fileOffset ++
          [.xmitCb hciCmdSkwBtNvds (n + 5) m ret] } := by
  have htwo : (c.mem.take 2).length = 2 := List.length_take_of_le (by omega)
  have hm := store_nvdsHeader c.mem (UInt8.ofNat (n + 2)) c.cfg.hwCfgCb.fileOffset (UInt8.ofNat n)
    (by omega)
  refine ⟨c.mem.take 2 ++ [UInt8.ofNat (n + 2), c.cfg.hwCfgCb.fileOffset, UInt8.ofNat n] ++
    c.mem.drop 5, ?_, ?_, ?_⟩
  · simp only [List.length_append, List.length_take, List.length_drop, List.length_cons,
      List.length_nil]
    omega
  · have hheader : (c.mem.take 2 ++
        [UInt8.ofNat (n + 2), c.cfg.hwCfgCb.fileOffset, UInt8.ofNat n]).length = 5 := by
      rw [List.length_append, htwo]
      rfl
    rw [Nat.add_comm, ← hheader]
    exact List.take_length_add_append n
  · rw [← hm]
    simp only [Call.xmitNvds, Call.xmitCb, Call.emit, Call.store, Call.setLen, Call.nextFileOffset,
      nvdsWrites, List.append_assoc, List.cons_append, List.nil_append]

/-- The command, where the buffer holds the opcode of NVDS commands. -/
theorem xmitNvds_packet {n : ℕ} (hmem : 5 + n ≤ c.mem.length)
    (hop : c.mem.take 2 = uint16ToStream hciCmdSkwBtNvds) (ret : Bool) :
    ∃ m, m.length = c.mem.length ∧
      m.take (n + 5) = nvdsPacket c.cfg.hwCfgCb.fileOffset ((c.mem.drop 5).take n) ∧
      c.xmitNvds n ret = { c.nextFileOffset with
        mem := m
        len := n + 5
        trace := c.trace ++ nvdsWrites n c.cfg.hwCfgCb.fileOffset ++
          [.xmitCb hciCmdSkwBtNvds (n + 5) m ret] } := by
  obtain ⟨m, hlen, hm, hxmit⟩ := xmitNvds_spec hmem ret
  have hdata : ((c.mem.drop 5).take n).length = n := by
    rw [List.length_take, List.length_drop]
    omega
  refine ⟨m, hlen, ?_, hxmit⟩
  rw [hm, hop, nvdsPacket, hdata]

end Statements

/-! ## The download of chip 0x5301 -/

/-- How a statement is left. -/
inductive FlowEnd
  | done
  | returned
  | crashed

/-- How a statement is left, the globals and the events then. -/
def Flow.outcome : Flow → FlowEnd × ConfigState × List CfgEvent
  | .done c => (.done, c.cfg, c.trace)
  | .return c => (.returned, c.cfg, c.trace)
  | .crash c => (.crashed, c.cfg, c.trace)

/-- `hw_cfg_cb` replaced. -/
def ConfigState.setHwCfg (s : ConfigState) (h : HwCfg) : ConfigState := { s with hwCfgCb := h }

/-- The call as the packing loop leaves it, with the file it read. -/
structure Call.PackedTo (addr : Bdaddr) (b : List Tlv) (e : PackEnd) (f f' : CFile)
    (c c' : Call) : Prop where
  cfg : c'.cfg = (c.setFile (some f')).cfg
  trace : ∃ ws, c'.trace = c.trace ++ ws ∧ ∀ w ∈ ws, w.IsUse
  memLe : c.mem.length ≤ c'.mem.length
  opcode : c'.mem.take 2 = c.mem.take 2
  data : (c'.mem.drop 5).take (tlvsSize b) = sentBytes addr b
  content : f'.content = f.content
  full : e = .full → f' = f.seekBack (f.pos + tlvsSize b) 3

section Download

variable {addr : Bdaddr} {i : CallbackIn} {c : Call} {f : CFile} {b : List Tlv} {e : PackEnd}
  {tail : List UInt8}

variable (addr i) in
/-- What follows the packing loop. -/
theorem nvSend6316_packed (hf : c.cfg.hwCfgCb.nvFp = some f) (hrest : f.rest = encode b ++ tail)
    (hfit : tlvsSize b ≤ 252) (hstop : e.Stops tail (tlvsSize b)) (hmem : 258 ≤ c.mem.length) :
    ∃ c' f', c.PackedTo addr b e f f' c' ∧
      c'.trace = c.trace ++ batchWrites addr 5 b ++ e.writes (5 + tlvsSize b) tail ∧
      nvSend6316 addr i c =
      (if e = .truncated then c'.scommVendorInitErr i.freed else .done c').bind fun c =>
        if 0 < tlvsSize b + (if e = .truncated then 3 else 0) then
          if i.xmit = false then
            (c.xmitNvds (tlvsSize b + if e = .truncated then 3 else 0) i.xmit).scommVendorInitErr i.freed
          else
            (c.xmitNvds (tlvsSize b + if e = .truncated then 3 else 0) i.xmit).endOfFile
              (e = .fileEnd)
        else c.endOfFile (e = .fileEnd) := by
  obtain ⟨p, hpack, hp, hwrites⟩ := @pack_batch addr ⟨c, f, 0⟩ b tail e hrest (by simpa using hfit)
    (by simpa using hstop) hmem
  obtain ⟨ws, htrace, hws⟩ := hp.call.trace
  have htotal : p.totalLen = tlvsSize b + if e = .truncated then 3 else 0 := by
    simpa using hp.total
  have hmem5 := hp.call.mem
  have hdata := congrArg (List.drop 5) hp.mem
  simp only [Nat.add_zero] at hmem5 hdata
  -- the stream comes back to its place in the state; the rest is read off the loop
  refine ⟨p.call.setFile (some p.file), p.file, {
    cfg := ?_
    trace := ⟨ws, htrace, hws⟩
    memLe := hp.call.memLe
    opcode := ?_
    data := ?_
    content := hp.content
    full := hp.full }, hwrites, ?_⟩
  · show (p.call.setFile (some p.file)).cfg = _
    rw [Call.setFile, Call.setFile, hp.call.cfg]
  · have := congrArg (List.take 2) hmem5
    rwa [List.take_take, List.take_take] at this
  · rw [List.drop_take, Nat.add_sub_cancel_left] at hdata
    show (p.call.mem.drop 5).take _ = _
    rw [hdata]
    exact List.drop_left' (by rw [List.length_take]; omega)
  · rw [nvSend6316, hf]
    simp only [hpack, htotal]

/-- The error helper behind the packing loop frees the buffer and closes the file. -/
theorem Call.PackedTo.scommVendorInitErr {f' : CFile} {c' : Call}
    (h : c.PackedTo addr b e f f' c') (freed : Block hciCmdMaxLen) :
    c'.scommVendorInitErr freed = .done { c' with
      cfg := c.cfg.setHwCfg ⟨.init, c.cfg.hwCfgCb.fileOffset, none⟩
      mem := freed.cells
      trace := c'.trace ++ [.deallocBuf, .fclose] } := by
  simp [Call.scommVendorInitErr, h.cfg, Call.setFile, ConfigState.setHwCfg, Call.closeNv,
    Call.setState, Call.emit, Call.deallocBuf]

/-- A command accepted: the machine goes on with the file, or closes it at its end. -/
theorem nvSend6316_sent (hf : c.cfg.hwCfgCb.nvFp = some f) (hrest : f.rest = encode b ++ tail)
    (hfit : tlvsSize b ≤ 252) (hstop : e.Stops tail (tlvsSize b)) (hmem : 258 ≤ c.mem.length)
    (hop : c.mem.take 2 = uint16ToStream hciCmdSkwBtNvds) (he : e ≠ .truncated) (hb : b ≠ [])
    (hxmit : i.xmit = true) :
    ∃ c' f' ws m, c.PackedTo addr b e f f' c' ∧ (∀ w ∈ ws, w.IsUse) ∧
      m.take (tlvsSize b + 5) = nvdsPacket c.cfg.hwCfgCb.fileOffset (sentBytes addr b) ∧
      (nvSend6316 addr i c).outcome = (.done,
        c.cfg.setHwCfg (if e = .fileEnd then ⟨.writeBdAddr, c.cfg.hwCfgCb.fileOffset + 1, none⟩
          else ⟨c.cfg.hwCfgCb.state, c.cfg.hwCfgCb.fileOffset + 1, some f'⟩),
        c.trace ++ ws ++ .xmitCb hciCmdSkwBtNvds (tlvsSize b + 5) m true ::
          if e = .fileEnd then [.fclose] else []) := by
  obtain ⟨c', f', hpacked, -, hflow⟩ :=
    nvSend6316_packed addr i hf hrest hfit hstop hmem
  obtain ⟨ws, htrace, hws⟩ := hpacked.trace
  have hmemLe := hpacked.memLe
  obtain ⟨m, -, hm, hsent⟩ :=
    @xmitNvds_packet c' (tlvsSize b) (by omega) (hpacked.opcode.trans hop) true
  have hpos := three_le_tlvsSize hb
  have hcfg := hpacked.cfg
  have hoff : c'.cfg.hwCfgCb.fileOffset = c.cfg.hwCfgCb.fileOffset := by rw [hcfg]; rfl
  rw [hpacked.data, hoff] at hm
  refine ⟨c', f', ws ++ nvdsWrites (tlvsSize b) c'.cfg.hwCfgCb.fileOffset, m, hpacked,
    List.forall_mem_append.mpr ⟨hws, isUse_nvdsWrites _ _⟩, hm, ?_⟩
  · rw [hflow, if_neg he, if_neg he, Nat.add_zero, hxmit, Flow.bind_done, if_pos (by omega),
      if_neg (by simp), hsent, htrace]
    -- a batch that ends with the file closes it; a full one is gone on with
    cases e with
    | truncated => exact absurd rfl he
    | full => simp [Call.endOfFile, Call.nextFileOffset, Flow.outcome, hcfg, Call.setFile,
        ConfigState.setHwCfg]
    | fileEnd => simp [Call.endOfFile, Call.nextFileOffset, Flow.outcome, hcfg, Call.setFile,
        ConfigState.setHwCfg, Call.closeNv, Call.setState, Call.emit]

/-- A command refused: `scomm_vendor_init_err` frees the buffer and closes the file. -/
theorem nvSend6316_refused (hf : c.cfg.hwCfgCb.nvFp = some f) (hrest : f.rest = encode b ++ tail)
    (hfit : tlvsSize b ≤ 252) (hstop : e.Stops tail (tlvsSize b)) (hmem : 258 ≤ c.mem.length)
    (he : e ≠ .truncated) (hb : b ≠ []) (hxmit : i.xmit = false) :
    ∃ ws m, (∀ w ∈ ws, w.IsUse) ∧ (nvSend6316 addr i c).outcome = (.done,
      c.cfg.setHwCfg ⟨.init, c.cfg.hwCfgCb.fileOffset + 1, none⟩,
      c.trace ++ ws ++ [.xmitCb hciCmdSkwBtNvds (tlvsSize b + 5) m false, .deallocBuf, .fclose]) := by
  obtain ⟨c', f', hpacked, -, hflow⟩ :=
    nvSend6316_packed addr i hf hrest hfit hstop hmem
  obtain ⟨ws, htrace, hws⟩ := hpacked.trace
  have hmemLe := hpacked.memLe
  obtain ⟨m, -, -, hsent⟩ := @xmitNvds_spec c' (tlvsSize b) (by omega) false
  have hpos := three_le_tlvsSize hb
  have hcfg := hpacked.cfg
  refine ⟨ws ++ nvdsWrites (tlvsSize b) c'.cfg.hwCfgCb.fileOffset, m,
    List.forall_mem_append.mpr ⟨hws, isUse_nvdsWrites _ _⟩, ?_⟩
  · rw [hflow, if_neg he, if_neg he, Nat.add_zero, hxmit, Flow.bind_done, if_pos (by omega),
      if_pos rfl, hsent, htrace]
    simp [Call.scommVendorInitErr, Call.deallocBuf, Call.nextFileOffset, Flow.outcome, hcfg,
      Call.setFile, ConfigState.setHwCfg, Call.closeNv, Call.setState, Call.emit]

/-- Nothing packed: nothing is sent, and the buffer is neither sent nor freed. -/
theorem nvSend6316_empty (hf : c.cfg.hwCfgCb.nvFp = some f) (hstop : e.Stops f.rest 0)
    (hmem : 258 ≤ c.mem.length) (he : e ≠ .truncated) :
    ∃ f' ws, (∀ w ∈ ws, w.IsUse) ∧ (nvSend6316 addr i c).outcome = (.done,
      c.cfg.setHwCfg (if e = .fileEnd then ⟨.writeBdAddr, c.cfg.hwCfgCb.fileOffset, none⟩
        else ⟨c.cfg.hwCfgCb.state, c.cfg.hwCfgCb.fileOffset, some f'⟩),
      c.trace ++ ws ++ if e = .fileEnd then [.fclose] else []) := by
  obtain ⟨c', f', hpacked, -, hflow⟩ :=
    @nvSend6316_packed addr i c f [] e f.rest hf rfl (by simp) hstop hmem
  obtain ⟨ws, htrace, hws⟩ := hpacked.trace
  have hcfg := hpacked.cfg
  refine ⟨f', ws, hws, ?_⟩
  rw [hflow, if_neg he, if_neg he, Flow.bind_done, if_neg (by simp)]
  cases e with
  | truncated => exact absurd rfl he
  | full => simp [Call.endOfFile, Flow.outcome, hcfg, Call.setFile, ConfigState.setHwCfg, htrace]
  | fileEnd => simp [Call.endOfFile, Flow.outcome, hcfg, Call.setFile, ConfigState.setHwCfg,
      Call.closeNv, Call.setState, Call.emit, htrace]

/-- A TLV cut off: the buffer is freed, and gone on with all the same. -/
theorem nvSend6316_truncated (hf : c.cfg.hwCfgCb.nvFp = some f) (hrest : f.rest = encode b ++ tail)
    (hfit : tlvsSize b ≤ 252) (hstop : PackEnd.truncated.Stops tail (tlvsSize b))
    (hmem : 258 ≤ c.mem.length) :
    ∃ ws m, (∀ w ∈ ws, w.IsUse) ∧ (nvSend6316 addr i c).outcome =
      (if i.xmit = true then .done else .crashed,
        c.cfg.setHwCfg ⟨.init, c.cfg.hwCfgCb.fileOffset + 1, none⟩,
        c.trace ++ ws ++ .deallocBuf :: .fclose ::
          (nvdsWrites (tlvsSize b + 3) c.cfg.hwCfgCb.fileOffset ++
            .xmitCb hciCmdSkwBtNvds (tlvsSize b + 3 + 5) m i.xmit ::
              if i.xmit = true then [] else [.deallocBuf])) := by
  obtain ⟨c', f', hpacked, -, hflow⟩ :=
    nvSend6316_packed addr i hf hrest hfit hstop hmem
  obtain ⟨ws, htrace, hws⟩ := hpacked.trace
  have hlong : tlvsSize b + 3 ≤ 252 := by
    obtain ⟨-, hle, -⟩ := hstop
    omega
  have hfreed : i.freed.cells.length = 258 := i.freed.size
  obtain ⟨m, -, -, hsent⟩ := @xmitNvds_spec { c' with
    cfg := c.cfg.setHwCfg ⟨.init, c.cfg.hwCfgCb.fileOffset, none⟩
    mem := i.freed.cells
    trace := c'.trace ++ [.deallocBuf, .fclose] } (tlvsSize b + 3)
    (show 5 + (tlvsSize b + 3) ≤ i.freed.cells.length by omega) i.xmit
  refine ⟨ws, m, hws, ?_⟩
  rw [hflow, if_pos rfl, if_pos rfl, hpacked.scommVendorInitErr, Flow.bind_done, if_pos (by omega),
    hsent, htrace]
  -- `fclose` is called again if the command is refused, with the pointer cleared
  cases i.xmit <;> simp [Call.scommVendorInitErr, Call.deallocBuf, Call.nextFileOffset, Flow.outcome,
    ConfigState.setHwCfg, Call.closeNv, Call.setState, Call.emit, Call.endOfFile]

end Download

/-! ## The download of the other chips -/

section Block

variable {addr : Bdaddr} {i : CallbackIn} {c : Call} {f : CFile}

/-- A block as it is sent, with `bdaddr_lap` in the first and a bit set in the second. -/
def patchedBlock (addr : Bdaddr) (index : UInt8) (block : List UInt8) : List UInt8 :=
  block.mapIdx fun j b =>
    if index = 0 ∧ addr.valid = true ∧ 7 ≤ j ∧ j < 10 then byteAt addr.lap.cells (j - 7)
    else if index = 1 ∧ j = 62 then b ||| 0x80 else b

theorem length_patchedBlock (addr : Bdaddr) (index : UInt8) (block : List UInt8) :
    (patchedBlock addr index block).length = block.length := List.length_mapIdx

/-- A byte stands behind the header. -/
theorem byteAt_of_take {m a data : List UInt8} {n j : ℕ} (hm : m.take n = a ++ data)
    (hj : j < data.length) (hn : a.length + j < n) : byteAt m (a.length + j) = data[j] := by
  rw [← byteAt_take hn, hm, byteAt, List.getD_eq_getElem?_getD,
    List.getElem?_append_right (Nat.le_add_right ..), Nat.add_sub_cancel_left,
    List.getElem?_eq_getElem hj, Option.getD_some]

/-- All blocks but these two are left as they are. -/
theorem patchedBlock_of_ne {index : UInt8} (hfirst : ¬ (index = 0 ∧ addr.valid = true))
    (hsecond : index ≠ 1) (block : List UInt8) : patchedBlock addr index block = block := by
  refine List.ext_getElem? fun j => ?_
  have hpatch (b : UInt8) : (if index = 0 ∧ addr.valid = true ∧ 7 ≤ j ∧ j < 10 then
      byteAt addr.lap.cells (j - 7) else if index = 1 ∧ j = 62 then b ||| 0x80 else b) = b := by
    rw [if_neg (by rintro ⟨h, hvalid, -⟩; exact hfirst ⟨h, hvalid⟩),
      if_neg (by rintro ⟨h, -⟩; exact hsecond h)]
  rw [patchedBlock, List.getElem?_mapIdx]
  simp only [hpatch, Option.map_id']

section Patch

variable {m a data : List UInt8} {n : ℕ}

/-- The first block with `bdaddr_lap` stored into it. -/
theorem take_store_lap (hm : m.take n = a ++ data) (ha : a.length = 5)
    (hn : n = a.length + data.length) (hle : n ≤ m.length) (hvalid : addr.valid = true) :
    (store m 12 addr.lap.cells).take n = a ++ patchedBlock addr 0 data := by
  have hlap := addr.lap.size
  have hone : ¬ (0 : UInt8) = 1 := by decide
  rw [take_store_mapIdx hm hn hle (by omega), patchedBlock]
  congr 2
  funext j b
  by_cases hj : 7 ≤ j ∧ j < 10
  · rw [if_pos (by omega), if_pos ⟨rfl, hvalid, hj⟩, byteAt]
    congr 1
    omega
  · rw [if_neg (by omega), if_neg (by rintro ⟨-, -, h⟩; exact hj h),
      if_neg (by rintro ⟨h, -⟩; exact hone h)]

/-- The second block with the top bit of its byte 62 set. -/
theorem take_store_bit (hm : m.take n = a ++ data) (ha : a.length = 5)
    (hn : n = a.length + data.length) (hle : n ≤ m.length) :
    (store m 67 [byteAt m 67 ||| 0x80]).take n = a ++ patchedBlock addr 1 data := by
  have hzero : ¬ (1 : UInt8) = 0 := by decide
  rw [take_store_mapIdx hm hn hle (by omega), patchedBlock]
  congr 1
  refine List.ext_getElem? fun j => ?_
  rw [List.getElem?_mapIdx, List.getElem?_mapIdx]
  -- byte 67 of the packet is byte 62 of the block
  by_cases hj : j = 62 ∧ j < data.length
  · obtain ⟨rfl, hj⟩ := hj
    have hbyte := byteAt_of_take hm hj (by omega)
    rw [ha] at hbyte
    rw [List.getElem?_eq_getElem hj, ← hbyte]
    simp [ha]
  · cases hget : data[j]? with
    | none => rfl
    | some b =>
      have hlt := (List.getElem?_eq_some_iff.mp hget).1
      have hne : j ≠ 62 := fun h => hj ⟨h, hlt⟩
      have hout : ¬ (67 ≤ a.length + j ∧ a.length + j < 67 + [byteAt m 67 ||| 0x80].length) := by
        rw [List.length_singleton]
        omega
      simp only [Option.map_some]
      rw [if_neg hout, if_neg (by rintro ⟨h, -⟩; exact hzero h),
        if_neg (by rintro ⟨-, h⟩; exact hne h)]

/-- **Patching a block** behind a header of five bytes. -/
theorem patchBlock_spec (c : Call) (addr : Bdaddr) (hm : c.mem.take n = a ++ data)
    (ha : a.length = 5) (hn : n = a.length + data.length) (hle : n ≤ c.mem.length) :
    ∃ ws m, (∀ w ∈ ws, w.IsUse) ∧ (∀ w ∈ ws, w.Inside) ∧ c.mem.length ≤ m.length ∧
      m.take n = a ++ patchedBlock addr c.cfg.hwCfgCb.fileOffset data ∧
      c.patchBlock addr = { c with mem := m, trace := c.trace ++ ws } := by
  have hnone (h : patchedBlock addr c.cfg.hwCfgCb.fileOffset data = data) :
      ∃ ws m, (∀ w ∈ ws, w.IsUse) ∧ (∀ w ∈ ws, w.Inside) ∧ c.mem.length ≤ m.length ∧
        m.take n = a ++ patchedBlock addr c.cfg.hwCfgCb.fileOffset data ∧
        c = { c with mem := m, trace := c.trace ++ ws } :=
    ⟨[], c.mem, nofun, nofun, Nat.le_refl _, by rw [hm, h], by rw [List.append_nil]⟩
  rw [Call.patchBlock, Call.skwAddrGet]
  -- the first block takes the address, if there is one, and the second the bit
  by_cases hfirst : c.cfg.hwCfgCb.fileOffset = 0
  · rw [if_pos hfirst]
    by_cases hvalid : addr.valid = true
    · have hlap := addr.lap.size
      rw [if_pos hvalid, Seekwave.skwAddrGet, if_pos hvalid, hfirst]
      exact ⟨[.write 12 addr.lap.cells], store c.mem 12 addr.lap.cells, by simp [CfgEvent.IsUse],
        by simp [CfgEvent.Inside, hlap, hciCmdMaxLen], length_le_length_store _ _ _,
        take_store_lap hm ha hn hle hvalid, rfl⟩
    · rw [if_neg hvalid]
      refine hnone (patchedBlock_of_ne (fun h => hvalid h.2) ?_ data)
      rw [hfirst]
      decide
  · rw [if_neg hfirst]
    by_cases hsecond : c.cfg.hwCfgCb.fileOffset = 1
    · rw [if_pos hsecond, hsecond]
      exact ⟨[.write 67 [byteAt c.mem 67 ||| 0x80]], store c.mem 67 [byteAt c.mem 67 ||| 0x80],
        by simp [CfgEvent.IsUse], by simp [CfgEvent.Inside, hciCmdMaxLen],
        length_le_length_store _ _ _, take_store_bit hm ha hn hle, rfl⟩
    · rw [if_neg hsecond]
      exact hnone (patchedBlock_of_ne (fun h => hfirst h.1) hsecond data)

end Patch

/-- A block is the last one if the file has fewer bytes left than it asks for. -/
theorem lastBlock_iff (f : CFile) :
    ((f.fread nvFileRdBlockSize).length < nvFileRdBlockSize ∨
      (f.fread nvFileRdBlockSize).length = 0 ∨ (f.afterRead nvFileRdBlockSize).eof = true) ↔
      f.rest.length < nvFileRdBlockSize := by
  have hlen := f.length_fread nvFileRdBlockSize
  have hsize : nvFileRdBlockSize = 252 := rfl
  constructor
  · rintro (h | h | h)
    · omega
    · omega
    · by_contra hle
      rw [(f.afterRead_of_le _ (Nat.not_lt.mp hle)).2] at h
      rw [f.rest_of_eof h, List.length_nil] at hle
      omega
  · intro h
    exact .inl (by omega)

/-- The command of a block, before it is patched. -/
theorem take_store_block {m block : List UInt8} {n : ℕ} {x y z : UInt8} (hn : n = block.length + 5)
    (hmem : n ≤ m.length) (hop : m.take 2 = uint16ToStream hciCmdSkwBtNvds) :
    (store (store (store (store m 5 block) 2 [x]) 3 [y]) 4 [z]).take n =
      uint16ToStream hciCmdSkwBtNvds ++ [x, y, z] ++ block := by
  have hmemLe := length_le_length_store m block 5
  have htake : (store m 5 block).take n = m.take 5 ++ block := take_store (by omega) (by omega)
  have hdrop : ((store m 5 block).drop 5).take block.length = block := by
    rw [hn, Nat.add_comm] at htake
    rw [← Nat.add_sub_cancel_left 5 block.length, ← List.drop_take, htake]
    exact List.drop_left' (by rw [List.length_take]; omega)
  have htwo : (store m 5 block).take 2 = uint16ToStream hciCmdSkwBtNvds := by
    rw [take_store_of_le (by omega) (by omega), hop]
  rw [store_nvdsHeader _ _ _ _ (by omega), htwo, hn, Nat.add_comm]
  exact (@List.take_length_add_append UInt8 (uint16ToStream hciCmdSkwBtNvds ++ [x, y, z])
    ((store m 5 block).drop 5) block.length).trans (congrArg _ hdrop)

/-- The call with a block and its header in the command buffer. -/
def Call.storeBlock (c : Call) (f : CFile) : Call :=
  let block := f.fread nvFileRdBlockSize
  let c := (c.setFile (some (f.afterRead nvFileRdBlockSize))).store 5 block
  (((c.store 2 [UInt8.ofNat (block.length + 2)]).store 3 [c.cfg.hwCfgCb.fileOffset]).store 4
    [UInt8.ofNat block.length]).setLen (block.length + 2 + 3)

/-- A call that has a block in the command buffer, before it is patched. -/
structure Call.BlockStored (f : CFile) (c c' : Call) : Prop where
  cfg : c'.cfg = (c.setFile (some (f.afterRead nvFileRdBlockSize))).cfg
  len : c'.len = (f.fread nvFileRdBlockSize).length + 5
  command : c'.mem.take ((f.fread nvFileRdBlockSize).length + 5) =
    uint16ToStream hciCmdSkwBtNvds ++ [UInt8.ofNat ((f.fread nvFileRdBlockSize).length + 2),
      c.cfg.hwCfgCb.fileOffset, UInt8.ofNat (f.fread nvFileRdBlockSize).length] ++
        f.fread nvFileRdBlockSize
  trace : ∃ ws, c'.trace = c.trace ++ ws ∧ (∀ w ∈ ws, w.IsUse) ∧ ∀ w ∈ ws, w.Inside

theorem blockStored_storeBlock (hmem : 258 ≤ c.mem.length)
    (hop : c.mem.take 2 = uint16ToStream hciCmdSkwBtNvds) (f : CFile) :
    c.BlockStored f (c.storeBlock f) where
  cfg := rfl
  len := rfl
  command := by
    have hblock := f.length_fread nvFileRdBlockSize
    have hsize : nvFileRdBlockSize = 252 := rfl
    have hlong : (f.fread nvFileRdBlockSize).length + 5 ≤ c.mem.length := by omega
    exact take_store_block rfl hlong hop
  trace := by
    have hblock := f.length_fread nvFileRdBlockSize
    have hsize : nvFileRdBlockSize = 252 := rfl
    simp only [Call.storeBlock, Call.setLen, Call.store, Call.setFile, List.append_assoc,
      List.cons_append, List.nil_append]
    refine ⟨_, rfl, by simp [CfgEvent.IsUse], ?_⟩
    simp only [List.forall_mem_cons, CfgEvent.Inside, List.length_singleton, hciCmdMaxLen]
    exact ⟨by omega, by omega, by omega, by omega, trivial, nofun⟩

/-- **A block.** The command is sent and then logged; behind the last block the file is closed. -/
theorem nvSendBlock_outcome (hf : c.cfg.hwCfgCb.nvFp = some f) (hmem : 258 ≤ c.mem.length)
    (hop : c.mem.take 2 = uint16ToStream hciCmdSkwBtNvds) :
    ∃ ws m, (∀ w ∈ ws, w.IsUse) ∧ (∀ w ∈ ws, w.Inside) ∧
      m.take ((f.fread nvFileRdBlockSize).length + 5) = nvdsPacket c.cfg.hwCfgCb.fileOffset
        (patchedBlock addr c.cfg.hwCfgCb.fileOffset (f.fread nvFileRdBlockSize)) ∧
      (nvSendBlock addr i c).outcome =
      if i.xmit = true then
        (.done, c.cfg.setHwCfg (if f.rest.length < nvFileRdBlockSize then
            ⟨.writeBdAddr, c.cfg.hwCfgCb.fileOffset + 1, none⟩
          else ⟨c.cfg.hwCfgCb.state, c.cfg.hwCfgCb.fileOffset + 1,
            some (f.afterRead nvFileRdBlockSize)⟩),
          c.trace ++ ws ++ .xmitCb hciCmdSkwBtNvds ((f.fread nvFileRdBlockSize).length + 5) m true ::
            .access :: if f.rest.length < nvFileRdBlockSize then [.fclose] else [])
      else if f.rest.length < nvFileRdBlockSize then
        (.crashed, c.cfg.setHwCfg ⟨.init, c.cfg.hwCfgCb.fileOffset + 1, none⟩,
          c.trace ++ ws ++ [.xmitCb hciCmdSkwBtNvds ((f.fread nvFileRdBlockSize).length + 5) m false,
            .access, .fclose, .deallocBuf])
      else
        (.done, c.cfg.setHwCfg ⟨.init, c.cfg.hwCfgCb.fileOffset + 1, none⟩,
          c.trace ++ ws ++ [.xmitCb hciCmdSkwBtNvds ((f.fread nvFileRdBlockSize).length + 5) m false,
            .access, .deallocBuf, .fclose]) := by
  have hstored := blockStored_storeBlock hmem hop f
  obtain ⟨ws', htrace', hws', hinside'⟩ := hstored.trace
  have hoff : (c.storeBlock f).cfg.hwCfgCb.fileOffset = c.cfg.hwCfgCb.fileOffset := by
    rw [hstored.cfg]
    rfl
  have hlong : (f.fread nvFileRdBlockSize).length + 5 ≤ (c.storeBlock f).mem.length := by
    have htake := congrArg List.length hstored.command
    rw [List.length_take, List.length_append,
      show (uint16ToStream hciCmdSkwBtNvds ++ [_, _, _] : List UInt8).length = 5 from rfl] at htake
    omega
  obtain ⟨ws, m, hws, hinside, -, hm, hpatch⟩ :=
    patchBlock_spec (c.storeBlock f) addr hstored.command rfl (Nat.add_comm ..) hlong
  rw [hoff] at hm
  refine ⟨ws' ++ ws, m, List.forall_mem_append.mpr ⟨hws', hws⟩,
    List.forall_mem_append.mpr ⟨hinside', hinside⟩, ?_, ?_⟩
  · rw [hm, nvdsPacket, length_patchedBlock]
  · have hsend : nvSendBlock addr i c =
        ((((((c.storeBlock f).patchBlock addr).xmitCb hciCmdSkwBtNvds i.xmit).emit
          .access).nextFileOffset).endOfFile (f.rest.length < nvFileRdBlockSize)).bind fun c =>
            if i.xmit = false then c.scommVendorInitErr i.freed else .done c := by
      rw [nvSendBlock, hf]
      simp only [lastBlock_iff]
      rfl
    rw [hsend, hpatch]
    -- four ends: the command is accepted or not, and the block is the last one or not
    cases i.xmit
    all_goals
      by_cases hlast : f.rest.length < nvFileRdBlockSize
      all_goals
        simp [hlast, Call.endOfFile, Call.xmitCb, Call.emit, Call.nextFileOffset, Call.setState,
          Call.closeNv, Call.scommVendorInitErr, Call.deallocBuf, Call.setFile, Flow.outcome,
          ConfigState.setHwCfg, htrace', hstored.len, hstored.cfg]

end Block

/-! ## The other cases -/

section Cases

variable {addr : Bdaddr} {i : CallbackIn} {c : Call}

/-- `HW_CFG_START` sends HCI_Read_Local_Version_Information. -/
theorem caseStart_outcome :
    ∃ ws m, (∀ w ∈ ws, w.IsUse) ∧ (∀ w ∈ ws, w.Inside) ∧ m.take 3 = [0x01, 0x10, 0x00] ∧
      (caseStart i c).outcome = (.done,
        c.cfg.setHwCfg { c.cfg.hwCfgCb with state := .readHciVersion },
        c.trace ++ ws ++ [.xmitCb hciReadLocalVersionInfo 3 m i.xmit]) := by
  refine ⟨[.write 0 (uint16ToStream hciReadLocalVersionInfo), .write 2 [0], .access],
    store c.mem 0 [0x01, 0x10, 0x00], by simp [CfgEvent.IsUse],
    by simp [CfgEvent.Inside, uint16ToStream, hciCmdMaxLen], take_store (Nat.zero_le _) rfl, ?_⟩
  have hm : store (store c.mem 0 (uint16ToStream hciReadLocalVersionInfo)) 2 [0] =
      store c.mem 0 [0x01, 0x10, 0x00] := store_store c.mem [0x01, 0x10] [0x00] 0
  simp [caseStart, Call.xmitCb, Call.emit, Call.store, Call.setLen, Call.setState, Flow.outcome,
    ConfigState.setHwCfg, hm]

/-- `HW_CFG_NV_SEND_CMPL` reports success and frees the buffer. -/
theorem caseNvSendCmpl_outcome :
    (caseNvSendCmpl c).outcome = (.done, c.cfg.setHwCfg { c.cfg.hwCfgCb with state := .init },
      c.trace ++ [.fwcfgCb true, .deallocBuf]) := by
  simp [caseNvSendCmpl, Call.emit, Call.setState, Flow.outcome, ConfigState.setHwCfg]

/-- `HW_CFG_WRITE_BD_ADDR` sends the address of the AP with its bytes reversed. -/
theorem caseWriteBdAddr_some {address : Block bdAddrLen} (h : i.storage.address? = some address) :
    ∃ ws m, (∀ w ∈ ws, w.IsUse) ∧ (∀ w ∈ ws, w.Inside) ∧
      m.take 9 = [0x82, 0xFC, 0x06] ++ address.cells.reverse ∧
      (caseWriteBdAddr i c).outcome = (.done,
        c.cfg.setHwCfg { c.cfg.hwCfgCb with state := .nvSendCmpl },
        c.trace ++ ws ++ [.xmitCb hciCmdWriteBdAddr 9 m i.xmit]) := by
  have haddr := skwAddrFromAp_of_address h
  have hm : store (store (store c.mem 0 (uint16ToStream hciCmdWriteBdAddr)) 2 [6]) 3
      address.cells.reverse = store c.mem 0 ([0x82, 0xFC, 0x06] ++ address.cells.reverse) := by
    rw [show store (store c.mem 0 (uint16ToStream hciCmdWriteBdAddr)) 2 [6] =
      store c.mem 0 [0x82, 0xFC, 0x06] from store_store c.mem [0x82, 0xFC] [0x06] 0]
    exact store_store c.mem [0x82, 0xFC, 0x06] address.cells.reverse 0
  refine ⟨[.write 0 (uint16ToStream hciCmdWriteBdAddr), .write 2 [6], .access,
    .write 3 address.cells.reverse], _, by simp [CfgEvent.IsUse],
    by simp [CfgEvent.Inside, uint16ToStream, hciCmdMaxLen, address.size, bdAddrLen],
    @take_store c.mem ([0x82, 0xFC, 0x06] ++ address.cells.reverse) 0 (Nat.zero_le _) 9 ?_, ?_⟩
  · rw [List.length_append, List.length_reverse, address.size]
    rfl
  · simp [caseWriteBdAddr, haddr, Call.xmitCb, Call.emit, Call.store, Call.setLen, Call.setState,
      Flow.outcome, ConfigState.setHwCfg, hm]

/-- Without an address it falls through. -/
theorem caseWriteBdAddr_none (h : i.storage.address? = none) :
    ∃ ws, (∀ w ∈ ws, w.IsUse) ∧ (∀ w ∈ ws, w.Inside) ∧ (caseWriteBdAddr i c).outcome = (.done,
      c.cfg.setHwCfg { c.cfg.hwCfgCb with state := .init },
      c.trace ++ ws ++ [.fwcfgCb true, .deallocBuf]) := by
  refine ⟨[.write 0 (uint16ToStream hciCmdWriteBdAddr), .write 2 [6], .access,
    .write 3 (skwAddrFromAp i.storage).2], by simp [CfgEvent.IsUse],
    by simp [CfgEvent.Inside, uint16ToStream, hciCmdMaxLen, length_skwAddrFromAp, bdAddrLen], ?_⟩
  simp [caseWriteBdAddr, skwAddrFromAp_of_none h, caseNvSendCmpl_outcome, Call.store, Call.setLen]

/-- `HW_CFG_NV_SEND` for chip 0x5301. -/
theorem caseNvSend_6316 (hchip : c.cfg.chipVersion = skwChipid6316) :
    caseNvSend addr i c = nvSend6316 addr i (c.store 0 (uint16ToStream hciCmdSkwBtNvds)) := by
  rw [caseNvSend]
  exact if_pos hchip

/-- `HW_CFG_NV_SEND` for the other chips. -/
theorem caseNvSend_other (hchip : c.cfg.chipVersion ≠ skwChipid6316) :
    caseNvSend addr i c = nvSendBlock addr i (c.store 0 (uint16ToStream hciCmdSkwBtNvds)) := by
  rw [caseNvSend]
  exact if_neg hchip

/-- Whether the version event reports chip 0x5301. -/
def Is6316 (event : List UInt8) : Prop := u16At event 7 = skwChipid6316

instance (event : List UInt8) : Decidable (Is6316 event) := by unfold Is6316; infer_instance

/-- The NV file of the chip that the event reports. -/
def nvPath (event : List UInt8) : String := if Is6316 event then nvFile6316 else nvFile6160

/-- The chip version kept for the event. -/
def keptVersion (event : List UInt8) : ℕ := if Is6316 event then skwChipid6316 else skwChipid6160

/-- The stream the download reads, behind the header if there is one. -/
def nvStream (event content : List UInt8) : CFile :=
  if Is6316 event then (CFile.fopen content).afterRead 4 else CFile.fopen content

/-- `HW_CFG_READ_HCI_VERSION` without its NV file reports the failure and returns at once. -/
theorem caseReadHciVersion_missing {event : List UInt8} (hevent : i.pMem = some event)
    (hfile : i.fopen (nvPath event) = none) :
    (caseReadHciVersion addr i c).outcome = (.returned,
      ⟨c.cfg.btVendorCbacks, ⟨.init, c.cfg.hwCfgCb.fileOffset, none⟩, keptVersion event⟩,
      c.trace ++ [.fopen (nvPath event) false, .fwcfgCb false]) := by
  by_cases hchip : Is6316 event
  all_goals
    simp only [nvPath, keptVersion, hchip, if_true, if_false] at hfile ⊢
    rw [Is6316] at hchip
    simp [caseReadHciVersion, hevent, hchip, hfile, Flow.outcome, Call.emit, Call.setFile,
      Call.setState]

/-- With the file opened it goes on as `HW_CFG_NV_SEND`. -/
theorem caseReadHciVersion_opened {event content : List UInt8} (hevent : i.pMem = some event)
    (hfile : i.fopen (nvPath event) = some content) :
    caseReadHciVersion addr i c = caseNvSend addr i { c with
      cfg := ⟨c.cfg.btVendorCbacks, ⟨.nvSend, 0, some (nvStream event content)⟩, keptVersion event⟩
      trace := c.trace ++ [.fopen (nvPath event) true] } := by
  by_cases hchip : Is6316 event
  all_goals
    simp only [nvPath, keptVersion, nvStream, hchip, if_true, if_false] at hfile ⊢
    rw [Is6316] at hchip
    simp [caseReadHciVersion, hevent, hchip, hfile, Call.emit, Call.setFile]

end Cases

end Seekwave
