import Seekwave.Config.Address
import Seekwave.Lib.Loop
import Seekwave.Lib.Stdio

/-!
# The configuration machine of `scom_vendor.c`

`scomm_vendor_config_start` and `scomm_vendor_config_callback`, one definition for each case of the
switch. What a call does to the outside (the command buffer it allocates, the callbacks into the
stack, the files) is recorded as a list of events in the order it happens; the results of `alloc`,
`xmit_cb`, `fopen` and the storage driver are inputs.

`fread` and `fclose` of a null `FILE *`, and the event buffer read where there is none, do not return:
the call then ends as `Flow.crash`.
-/

open Memory

namespace Seekwave

/-! ## State, inputs and events -/

/-- The states of `hw_cfg_cb`. -/
inductive HwCfgState
  | init
  | start
  | writeOsType
  | readHciVersion
  | nvSend
  | nvSendCmpl
  | writeBdAddr
  | resetController
  | initComplete
deriving DecidableEq, Repr

/-- `hw_cfg_cb`. -/
structure HwCfg where
  state : HwCfgState
  fileOffset : UInt8
  nvFp : Option CFile
deriving DecidableEq, Repr

/-- The globals of the machine: whether `bt_vendor_cbacks` is registered, `hw_cfg_cb` and
`chip_version`. -/
structure ConfigState where
  btVendorCbacks : Bool
  hwCfgCb : HwCfg
  chipVersion : ℕ

/-- `HCI_CMD_MAX_LEN`, the size of the memory behind the header of a command buffer. -/
def hciCmdMaxLen : ℕ := 258

/-- `HCI_CMD_PREAMBLE_SIZE`. -/
def hciCmdPreambleSize : ℕ := 3

def nvFileRdBlockSize : ℕ := 252

def nvTagBdAddr : UInt8 := 0x01

def skwChipid6316 : ℕ := 0x5301
def skwChipid6160 : ℕ := 0x0017

def hciReset : ℕ := 0x0C03
def hciReadLocalVersionInfo : ℕ := 0x1001
def hciCmdSkwBtNvds : ℕ := 0xFC80
def hciCmdWriteBdAddr : ℕ := 0xFC82

def nvFile6316 : String := "/vendor/etc/bluetooth/sv6316.nvbin"
def nvFile6160 : String := "/vendor/etc/bluetooth/sv6160.nvbin"

/-- What a call of the machine does. -/
inductive CfgEvent
  /-- `alloc` of the command buffer `p_buf` -/
  | alloc (ok : Bool)
  /-- bytes stored behind the header of `p_buf`, at an offset -/
  | write (off : ℕ) (bytes : List UInt8)
  /-- any other access to `p_buf` -/
  | access
  /-- `xmit_cb` of `p_buf`: its opcode argument, `p_buf->len`, the bytes behind the header, the result -/
  | xmitCb (opcode len : ℕ) (bytes : List UInt8) (ret : Bool)
  | deallocBuf
  /-- `dealloc` of the event buffer -/
  | deallocEvt
  | fwcfgCb (success : Bool)
  | fopen (path : String) (ok : Bool)
  | fclose
deriving DecidableEq, Repr

/-- What one callback finds: the event `p_mem` (the bytes behind its header), and the results of its
calls to the outside. Memory that is allocated holds any bytes, and so does the memory of `p_buf` once
`dealloc` has been given it (`freed`). -/
structure CallbackIn where
  pMem : Option (List UInt8)
  alloc : Option (Block hciCmdMaxLen)
  xmit : Bool
  fopen : String → Option (List UInt8)
  storage : VendorStorage
  freed : Block hciCmdMaxLen

/-! ## Statements -/

/-- A call under way: the globals, the memory behind the header of `p_buf`, `p_buf->len`, and the
events so far. -/
structure Call where
  cfg : ConfigState
  mem : List UInt8
  len : ℕ
  trace : List CfgEvent

/-- How a statement is left. -/
inductive Flow
  | done (c : Call)
  | return (c : Call)
  | crash (c : Call)

/-- The statement behind one that was not the last. -/
def Flow.bind : Flow → (Call → Flow) → Flow
  | .done c, k => k c
  | .return c, _ => .return c
  | .crash c, _ => .crash c

@[simp] theorem Flow.bind_done (c : Call) (k : Call → Flow) : (Flow.done c).bind k = k c := rfl

@[simp] theorem Flow.bind_crash (c : Call) (k : Call → Flow) : (Flow.crash c).bind k = .crash c := rfl

/-- `UINT16_TO_STREAM`. -/
def uint16ToStream (n : ℕ) : List UInt8 := [UInt8.ofNat n, UInt8.ofNat (n / 256)]

namespace Call

variable (c : Call)

def emit (e : CfgEvent) : Call := { c with trace := c.trace ++ [e] }

def store (off : ℕ) (bs : List UInt8) : Call :=
  { c with mem := Memory.store c.mem off bs, trace := c.trace ++ [.write off bs] }

def setLen (n : ℕ) : Call := { c with len := n, trace := c.trace ++ [.access] }

def setState (s : HwCfgState) : Call :=
  { c with cfg.hwCfgCb.state := s }

def setFile (f : Option CFile) : Call :=
  { c with cfg.hwCfgCb.nvFp := f }

def nextFileOffset : Call :=
  { c with cfg.hwCfgCb.fileOffset := c.cfg.hwCfgCb.fileOffset + 1 }

def xmitCb (opcode : ℕ) (ret : Bool) : Call := c.emit (.xmitCb opcode c.len c.mem ret)

/-- `fclose(hw_cfg_cb.nv_fp)`, and the pointer is cleared. -/
def closeNv : Flow :=
  match c.cfg.hwCfgCb.nvFp with
  | none => .crash c
  | some _ => .done ((c.emit .fclose).setFile none)

/-- `dealloc` of `p_buf`, whose memory holds `freed` from then on. -/
def deallocBuf (freed : Block hciCmdMaxLen) : Call := { c.emit .deallocBuf with mem := freed.cells }

/-- `scomm_vendor_init_err`. -/
def scommVendorInitErr (freed : Block hciCmdMaxLen) : Flow :=
  ((c.setState .init).deallocBuf freed).closeNv

/-- `skw_addr_get` to an offset of the buffer. -/
def skwAddrGet (addr : Bdaddr) (off : ℕ) : Call :=
  if addr.valid = true then c.store off (Seekwave.skwAddrGet addr) else c

end Call

/-! ## The NV download of chip 0x5301 -/

/-- The variables of the packing loop. -/
structure Packer where
  call : Call
  file : CFile
  totalLen : ℕ

/-- How the packing loop is left: at the end of the file, with a TLV that does not fit any more, or
with one that the file does not hold in full. -/
inductive PackEnd
  | fileEnd
  | full
  | truncated
deriving DecidableEq, Repr

/-- One pass of the packing loop. `param_buf` is at offset 5 of the buffer. -/
def packBody (addr : Bdaddr) (p : Packer) : Packer ⊕ (PackEnd × Packer) :=
  -- `file_ptr` is an `int`
  let filePtr := toInt32 p.file.ftell
  let tmpBuffer := p.file.fread 3
  let file := p.file.afterRead 3
  if tmpBuffer.length < 3 ∨ file.eof = true then .inr (.fileEnd, { p with file := file })
  else
    let call := p.call.store (5 + p.totalLen) tmpBuffer
    let nvParamLen := (byteAt tmpBuffer 2).toNat
    let nvTag := byteAt tmpBuffer 0
    if 252 < nvParamLen + p.totalLen + 3 then
      .inr (.full, { p with call := call, file := file.fseek filePtr })
    else
      let totalLen := p.totalLen + 3
      if 0 < nvParamLen then
        let param := file.fread nvParamLen
        let file := file.afterRead nvParamLen
        let call := call.store (5 + totalLen) param
        if param.length < nvParamLen then .inr (.truncated, ⟨call, file, totalLen⟩)
        else
          let call := if nvTag = nvTagBdAddr then call.skwAddrGet addr (5 + totalLen + 3) else call
          .inl ⟨call, file, totalLen + param.length⟩
      else .inl ⟨call, file, totalLen⟩

/-- A pass that is not the last one packs at least three bytes. -/
theorem packBody_decreases (addr : Bdaddr) (p p' : Packer) (h : packBody addr p = .inl p') :
    252 - p'.totalLen < 252 - p.totalLen := by
  simp only [packBody] at h
  split at h
  · simp at h
  · split at h
    · simp at h
    · split at h
      · split at h
        · simp at h
        · obtain rfl := Sum.inl.inj h
          show 252 - (p.totalLen + 3 + _) < _
          omega
      · obtain rfl := Sum.inl.inj h
        show 252 - (p.totalLen + 3) < _
        omega

/-- The `while(1)` loop. -/
def pack (addr : Bdaddr) (p : Packer) : PackEnd × Packer :=
  Loop.run (packBody addr) (fun p => 252 - p.totalLen) (packBody_decreases addr) p

/-- The command with `n` data bytes is completed and sent; `ptr` is at offset 2 of the buffer. -/
def Call.xmitNvds (c : Call) (n : ℕ) (ret : Bool) : Call :=
  (((((c.store 2 [UInt8.ofNat (n + 2)]).store 3 [c.cfg.hwCfgCb.fileOffset]).store 4
    [UInt8.ofNat n]).setLen (n + 2 + 3)).xmitCb hciCmdSkwBtNvds ret).nextFileOffset

/-- The end of the download. -/
def Call.endOfFile (c : Call) (fileEnd : Bool) : Flow :=
  if fileEnd = true then (c.setState .writeBdAddr).closeNv else .done c

/-- `HW_CFG_NV_SEND` for chip 0x5301. -/
def nvSend6316 (addr : Bdaddr) (i : CallbackIn) (c : Call) : Flow :=
  match c.cfg.hwCfgCb.nvFp with
  | none => .crash c
  | some f =>
    let (packEnd, p) := pack addr ⟨c, f, 0⟩
    let c := p.call.setFile (some p.file)
    -- the `break` behind the error leaves the loop only
    let packed := if packEnd = .truncated then c.scommVendorInitErr i.freed else .done c
    packed.bind fun c =>
      if 0 < p.totalLen then
        let c := c.xmitNvds p.totalLen i.xmit
        if i.xmit = false then c.scommVendorInitErr i.freed else c.endOfFile (packEnd = .fileEnd)
      else c.endOfFile (packEnd = .fileEnd)

/-! ## The NV download of the other chips -/

/-- The patches of the first two blocks. -/
def Call.patchBlock (c : Call) (addr : Bdaddr) : Call :=
  if c.cfg.hwCfgCb.fileOffset = 0 then c.skwAddrGet addr (5 + 7)
  else if c.cfg.hwCfgCb.fileOffset = 1 then c.store (5 + 62) [byteAt c.mem (5 + 62) ||| 0x80]
  else c

/-- `HW_CFG_NV_SEND` for the other chips. -/
def nvSendBlock (addr : Bdaddr) (i : CallbackIn) (c : Call) : Flow :=
  match c.cfg.hwCfgCb.nvFp with
  | none => .crash c
  | some f =>
    let block := f.fread nvFileRdBlockSize
    let f := f.afterRead nvFileRdBlockSize
    let len := block.length
    let c := (c.setFile (some f)).store 5 block
    let c := (((c.store 2 [UInt8.ofNat (len + 2)]).store 3 [c.cfg.hwCfgCb.fileOffset]).store 4
      [UInt8.ofNat len]).setLen (len + 2 + 3)
    let c := (c.patchBlock addr).xmitCb hciCmdSkwBtNvds i.xmit
    -- `p_buf->len` and `ptr[0]` are logged
    let c := (c.emit .access).nextFileOffset
    (c.endOfFile (len < nvFileRdBlockSize ∨ len = 0 ∨ f.eof = true)).bind fun c =>
      if i.xmit = false then c.scommVendorInitErr i.freed else .done c

/-! ## The cases of the switch -/

/-- `HW_CFG_START`. -/
def caseStart (i : CallbackIn) (c : Call) : Flow :=
  let c := ((c.store 0 (uint16ToStream hciReadLocalVersionInfo)).store 2 [0]).setLen 3
  .done ((c.xmitCb hciReadLocalVersionInfo i.xmit).setState .readHciVersion)

/-- `HW_CFG_NV_SEND`. -/
def caseNvSend (addr : Bdaddr) (i : CallbackIn) (c : Call) : Flow :=
  let c := c.store 0 (uint16ToStream hciCmdSkwBtNvds)
  if c.cfg.chipVersion = skwChipid6316 then nvSend6316 addr i c else nvSendBlock addr i c

/-- `HW_CFG_READ_HCI_VERSION`, which falls through to `HW_CFG_NV_SEND`. -/
def caseReadHciVersion (addr : Bdaddr) (i : CallbackIn) (c : Call) : Flow :=
  match i.pMem with
  | none => .crash c
  | some event =>
    let is6316 : Bool := u16At event 7 = skwChipid6316
    let path := if is6316 then nvFile6316 else nvFile6160
    let c := { c with cfg.chipVersion := if is6316 then skwChipid6316 else skwChipid6160 }
    match i.fopen path with
    | none =>
      .return ((((c.emit (.fopen path false)).setFile none).emit (.fwcfgCb false)).setState .init)
    | some content =>
      let f := CFile.fopen content
      let c := (c.emit (.fopen path true)).setFile (some (if is6316 then f.afterRead 4 else f))
      caseNvSend addr i
        { c with cfg.hwCfgCb.fileOffset := 0, cfg.hwCfgCb.state := .nvSend }

/-- `HW_CFG_NV_SEND_CMPL`. -/
def caseNvSendCmpl (c : Call) : Flow :=
  .done (((c.emit (.fwcfgCb true)).emit .deallocBuf).setState .init)

/-- `HW_CFG_WRITE_BD_ADDR`, which falls through to `HW_CFG_NV_SEND_CMPL` without an address. -/
def caseWriteBdAddr (i : CallbackIn) (c : Call) : Flow :=
  let c := ((c.store 0 (uint16ToStream hciCmdWriteBdAddr)).store 2 [6]).setLen (3 + 6)
  let (fromAp, bdAddr) := skwAddrFromAp i.storage
  let c := c.store 3 bdAddr
  if fromAp = true then .done ((c.xmitCb hciCmdWriteBdAddr i.xmit).setState .nvSendCmpl)
  else caseNvSendCmpl c

/-- The switch over `hw_cfg_cb.state`. -/
def configSwitch (addr : Bdaddr) (i : CallbackIn) (c : Call) : Flow :=
  match c.cfg.hwCfgCb.state with
  | .start => caseStart i c
  | .readHciVersion => caseReadHciVersion addr i c
  | .nvSend => caseNvSend addr i c
  | .writeBdAddr => caseWriteBdAddr i c
  | .nvSendCmpl => caseNvSendCmpl c
  | _ => .done c

/-! ## The calls -/

/-- The globals after a call, what it did, and whether it returned. -/
structure CfgResult where
  state : ConfigState
  trace : List CfgEvent
  returned : Bool

/-- The status in a Command Complete event. -/
def cmdCmplStatus (pMem : Option (List UInt8)) : UInt8 := pMem.elim 0 fun event => byteAt event 5

/-- The end of a callback, where the event buffer is freed. -/
def Flow.finish (pMem : Option (List UInt8)) : Flow → CfgResult
  | .done c =>
    let c := if c.cfg.btVendorCbacks = true ∧ pMem.isSome = true then c.emit .deallocEvt else c
    ⟨c.cfg, c.trace, true⟩
  | .return c => ⟨c.cfg, c.trace, true⟩
  | .crash c => ⟨c.cfg, c.trace, false⟩

/-- `scomm_vendor_config_callback`. -/
def scommVendorConfigCallback (addr : Bdaddr) (s : ConfigState) (i : CallbackIn) : CfgResult :=
  Flow.finish i.pMem <|
    if cmdCmplStatus i.pMem = 0 ∧ s.btVendorCbacks = true then
      match i.alloc with
      | none => .done ⟨s, [], 0, [.alloc false]⟩
      | some block => configSwitch addr i ⟨s, block.cells, 0, [.alloc true, .access]⟩
    else .done ⟨s, [], 0, []⟩

/-- `scomm_vendor_config_start`, with the results of `alloc` and `xmit_cb`. -/
def scommVendorConfigStart (s : ConfigState) (alloc : Option (Block hciCmdPreambleSize))
    (xmit : Bool) : CfgResult :=
  let s := { s with hwCfgCb := ⟨.init, 0, none⟩ }
  Flow.finish none <|
    if s.btVendorCbacks = true then
      match alloc with
      | none => .done ⟨s, [], 0, [.alloc false]⟩
      | some block =>
        let c : Call := ⟨s, block.cells, 3, [.alloc true, .access]⟩
        let c := (c.store 0 (uint16ToStream hciReset)).store 2 [0]
        .done ((c.setState .start).xmitCb hciReset xmit)
    else .done ⟨s, [], 0, []⟩

end Seekwave
