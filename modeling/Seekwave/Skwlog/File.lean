import Seekwave.Lib.Framing
import Seekwave.Lib.Memory
import Seekwave.Lib.Stdio

/-!
# The controller log file

`skw_log.c`: when `skwlog.log` is opened, renamed away, appended to or given a header. The model keeps
the file that is found under this path; a file renamed away is not looked at again. Every call of the
file system succeeds, and `open()` returns a descriptor that the tests `fd > 0` and `skwlog_fp > 0`
take for one.

`SkwlogOk` relates the file to `skwlog_rev_length`: the count is the file's size up to the header, which
keeps the size inside an `int` and makes the rotation find a file to rename.
-/

open Memory

namespace Seekwave

/-! ## The format -/

/-- `"skwcplog\\0\\1\\0\\2\\0\\0\\x3\\xEA"`. -/
def skwcplogHeader : List UInt8 :=
  [0x73, 0x6b, 0x77, 0x63, 0x70, 0x6c, 0x6f, 0x67, 0, 1, 0, 2, 0, 0, 0x03, 0xEA]

/-- Whole SKWLOG packets: `0x07`, `0xFF`, a 16-bit length and as many bytes. -/
def skwlogFramer : Framer UInt8 where
  frameLen b :=
    if 4 ≤ b.length ∧ byteAt b 0 = 0x07 ∧ byteAt b 1 = 0xFF then some (4 + u16At b 2) else none
  stable := by
    intro b n c h
    split at h
    · next hb =>
      rw [if_pos (by rw [List.length_append, byteAt_append_left (by omega),
        byteAt_append_left (by omega)]; exact ⟨by omega, hb.2⟩), u16At_append_left (by omega)]
      exact h
    · exact absurd h nofun
  pos := by
    intro b n h
    split at h
    · obtain rfl := Option.some.inj h
      omega
    · exact absurd h nofun

theorem frameLen_skwlogFramer (b : List UInt8) : skwlogFramer.frameLen b =
    if 4 ≤ b.length ∧ byteAt b 0 = 0x07 ∧ byteAt b 1 = 0xFF then some (4 + u16At b 2) else none := rfl

/-- The file is a header with whole packets behind it. -/
abbrev IsSkwlog (content : List UInt8) : Prop := skwlogFramer.IsLog skwcplogHeader content

theorem length_le_of_isFrame {p : List UInt8} (h : skwlogFramer.IsFrame p) : p.length ≤ 65539 := by
  have := u16At_lt p 2
  rw [Framer.IsFrame, frameLen_skwlogFramer] at h
  split at h
  · have := Option.some.inj h
    omega
  · exact absurd h nofun

/-- No packet begins where a header does. -/
theorem not_hasFrame_header (bs : List UInt8) : ¬ skwlogFramer.HasFrame (skwcplogHeader ++ bs) := by
  rintro ⟨n, hn, -⟩
  have hfirst : byteAt (skwcplogHeader ++ bs) 0 ≠ 0x07 := by
    rw [byteAt_append_left (by decide)]
    decide
  rw [frameLen_skwlogFramer, if_neg (fun h => hfirst h.2.1)] at hn
  exact absurd hn nofun

/-! ## The functions -/

/-- The settings of `skwbt.conf` that the log files depend on. -/
structure LogConfig where
  btsnoopLogEn : Bool
  btcpLogEn : Bool
  btsnoopSaveLog : Bool
  skwlogSlice : Bool
deriving DecidableEq, Repr

/-- What `localtime` gives of the time. -/
structure LocalTime where
  sec : UInt8
  min : UInt8
  hour : UInt8
  mday : UInt8
deriving DecidableEq, Repr

/-- The file `skwlog.log`, whether `skwlog_fp` is open on it, and `skwlog_rev_length`. -/
structure Skwlog where
  file : Option (List UInt8)
  opened : Bool
  revLength : ℕ
deriving DecidableEq, Repr

/-- No file, and nothing opened. -/
def Skwlog.initial : Skwlog := ⟨none, false, 0⟩

/-- `open` with `O_CREAT | O_APPEND`, and the header if `new_file` is set by then. -/
def Skwlog.openAppend (s : Skwlog) (newFile : Bool) : Skwlog :=
  let content := s.file.getD []
  { s with
    file := some (if newFile = true then content ++ skwcplogHeader else content), opened := true }

/-- `skwlog_open`. A `rename` leaves no file behind. -/
def skwlogOpen (cfg : LogConfig) (newFile : Bool) (s : Skwlog) : Skwlog :=
  if cfg.btcpLogEn = true then
    match s.file with
    | some content =>
      let fileZie := toInt32 content.length
      let newFile' := newFile || decide (fileZie = 0)
      if cfg.skwlogSlice = true then
        if newFile = true then { s with file := none }.openAppend newFile'
        else { s with revLength := (fileZie % 2 ^ 32).toNat }.openAppend newFile'
      else if 16 + 12 < fileZie then { s with file := none }.openAppend newFile'
      else s.openAppend newFile'
    | none => s.openAppend true
  else s

/-- The size at which the log is rotated, 1.5 GB. -/
def skwlogLimit : ℕ := 1536 * 1024 * 1024

/-- `skwlog_write`. -/
def skwlogWrite (cfg : LogConfig) (buffer : List UInt8) (s : Skwlog) : Skwlog :=
  if s.opened = true then
    let s' := { s with
      file := some (s.file.getD [] ++ buffer)
      revLength := (s.revLength + buffer.length) % 2 ^ 32 }
    if skwlogLimit ≤ s'.revLength then
      skwlogOpen cfg true { s' with opened := false, revLength := 0 }
    else s'
  else s

/-- The packet that `skwlog_print_current_time` writes. -/
def timePacket (now : LocalTime) : List UInt8 :=
  [0x07, 0xFF, 0x08, 0x00, 0x01, 0xD0, 0x55, 0x55, now.sec, now.min, now.hour, now.mday]

def skwlogPrintCurrentTime (cfg : LogConfig) (now : LocalTime) (s : Skwlog) : Skwlog :=
  skwlogWrite cfg (timePacket now) s

/-- `skwlog_reopen`. -/
def skwlogReopen (cfg : LogConfig) (newFile : Bool) (now : LocalTime) (s : Skwlog) : Skwlog :=
  let s' := skwlogOpen cfg newFile { s with opened := false, revLength := 0 }
  if s'.opened = true then skwlogPrintCurrentTime cfg now s' else s'

/-- `skwlog_init`. -/
def skwlogInit (cfg : LogConfig) (now : LocalTime) (s : Skwlog) : Skwlog :=
  let s' := { s with opened := false, revLength := 0 }
  if cfg.btcpLogEn = true ∧ (cfg.btsnoopSaveLog = false ∨ cfg.skwlogSlice = false) then
    let s'' := skwlogOpen cfg true s'
    if s''.opened = true then skwlogPrintCurrentTime cfg now s'' else s''
  else s'

/-- `skwlog_close`. -/
def skwlogClose (s : Skwlog) : Skwlog := { s with opened := false, revLength := 0 }

/-! ## What keeps the format -/

/-- While an operation runs: the file has the format and its size, and, when opened, `skwlog_rev_length`
counts it up to the header. -/
structure SkwlogMid (s : Skwlog) : Prop where
  log : ∀ content, s.file = some content → IsSkwlog content
  size : ∀ content, s.file = some content → content.length ≤ skwlogLimit + 16
  counted : s.opened = true → ∃ content, s.file = some content ∧ s.revLength ≤ content.length ∧
    content.length ≤ s.revLength + 16

/-- Between operations: the count is below the limit too. -/
structure SkwlogOk (s : Skwlog) : Prop extends SkwlogMid s where
  below : s.opened = true → s.revLength < skwlogLimit

/-- Opening `skwlog.log` for a new log finds no file, or one that is renamed away. -/
def Renames (cfg : LogConfig) (s : Skwlog) : Prop :=
  ∀ content, s.file = some content → cfg.skwlogSlice = true ∨ 28 < toInt32 content.length

/-- Nothing opened, and no file too large. -/
theorem skwlogOk_of_closed {s : Skwlog} (hclosed : s.opened = false)
    (hlog : ∀ content, s.file = some content → IsSkwlog content)
    (hsize : ∀ content, s.file = some content → content.length ≤ skwlogLimit + 16) : SkwlogOk s where
  log := hlog
  size := hsize
  counted h := Bool.noConfusion (hclosed.symm.trans h)
  below h := Bool.noConfusion (hclosed.symm.trans h)

/-- A new log. -/
theorem skwlogOpen_new {cfg : LogConfig} {s : Skwlog} (hen : cfg.btcpLogEn = true)
    (hren : Renames cfg s) :
    skwlogOpen cfg true s = { s with file := some skwcplogHeader, opened := true } := by
  rw [skwlogOpen, if_pos hen]
  rcases hfile : s.file with - | content
  · rw [Skwlog.openAppend, hfile]
    rfl
  · rcases hren content hfile with hslice | hsize
    · simp only [hslice, if_true]
      rfl
    · have hsize' : (16 + 12 : ℤ) < toInt32 content.length := hsize
      simp only [if_true, if_pos hsize']
      split <;> rfl

/-- The file of a new log. -/
theorem skwlogMid_new {s : Skwlog} (hrev : s.revLength = 0) :
    SkwlogMid { s with file := some skwcplogHeader, opened := true } where
  log content h := Option.some.inj h ▸ Framer.isLog_header ..
  size content h := by
    obtain rfl := Option.some.inj h
    exact Nat.le_add_left ..
  counted _ := ⟨_, rfl, by show s.revLength ≤ _; omega, by show _ ≤ s.revLength + 16; rw [hrev]; decide⟩

/-- **Writing a whole packet** keeps the format: the log is rotated before its size outgrows an `int`. -/
theorem skwlogWrite_ok {cfg : LogConfig} {s : Skwlog} {p : List UInt8} (h : SkwlogMid s)
    (hen : s.opened = true → cfg.btcpLogEn = true) (hp : skwlogFramer.IsFrame p) :
    SkwlogOk (skwlogWrite cfg p s) := by
  have hplen := length_le_of_isFrame hp
  have hlimit : skwlogLimit = 1610612736 := rfl
  rw [skwlogWrite]
  by_cases hop : s.opened = true
  · obtain ⟨content, hfile, hge, hle⟩ := h.counted hop
    have hsize := h.size content hfile
    have hlog : IsSkwlog (content ++ p) := (h.log content hfile).append hp
    have hlen : (content ++ p).length = content.length + p.length := List.length_append
    have hmod : (s.revLength + p.length) % 2 ^ 32 = s.revLength + p.length :=
      Nat.mod_eq_of_lt (by omega)
    rw [if_pos hop, hfile, Option.getD_some, hmod]
    by_cases hfull : skwlogLimit ≤ s.revLength + p.length
    · -- the log has reached its limit, so opening it again renames it away
      have hren : Renames cfg ⟨some (content ++ p), false, 0⟩ := by
        intro content' hc
        obtain rfl := Option.some.inj hc
        refine .inr ?_
        rw [toInt32_of_lt (by omega)]
        omega
      rw [if_pos hfull, skwlogOpen_new (hen hop) hren]
      exact ⟨skwlogMid_new rfl, fun _ => by show 0 < skwlogLimit; omega⟩
    · rw [if_neg hfull]
      refine ⟨⟨fun c hc => ?_, fun c hc => ?_, fun _ => ⟨_, rfl, ?_, ?_⟩⟩, fun _ => ?_⟩
      · exact Option.some.inj hc ▸ hlog
      · obtain rfl := Option.some.inj hc
        omega
      · show s.revLength + p.length ≤ _
        omega
      · show _ ≤ s.revLength + p.length + 16
        omega
      · show s.revLength + p.length < skwlogLimit
        omega
  · rw [if_neg hop]
    exact ⟨h, fun hop' => absurd hop' hop⟩

theorem isFrame_timePacket (now : LocalTime) : skwlogFramer.IsFrame (timePacket now) := rfl

/-- Opening a new log and printing the time. -/
theorem skwlog_new_ok {cfg : LogConfig} {s : Skwlog} (now : LocalTime) (hen : cfg.btcpLogEn = true)
    (hrev : s.revLength = 0) (hren : Renames cfg s) :
    SkwlogOk (skwlogPrintCurrentTime cfg now (skwlogOpen cfg true s)) := by
  rw [skwlogOpen_new hen hren]
  exact skwlogWrite_ok (skwlogMid_new hrev) (fun _ => hen) (isFrame_timePacket now)

/-- **Reopening.** With slices, as `skw_btsnoop_open` calls it, a new log begins a file of its own and
an old one is appended to without a header. -/
theorem skwlogReopen_ok {cfg : LogConfig} {s : Skwlog} (newFile : Bool) (now : LocalTime)
    (h : SkwlogOk s) (hslice : cfg.skwlogSlice = true) : SkwlogOk (skwlogReopen cfg newFile now s) := by
  have hclosed : SkwlogOk { s with opened := false, revLength := 0 } :=
    skwlogOk_of_closed rfl h.log h.size
  have hren : Renames cfg { s with opened := false, revLength := 0 } := fun _ _ => .inl hslice
  rw [skwlogReopen]
  by_cases hen : cfg.btcpLogEn = true
  · cases newFile with
    | true =>
      rw [if_pos (by rw [skwlogOpen_new hen hren])]
      exact skwlog_new_ok now hen rfl hren
    | false =>
      rcases hfile : s.file with - | content
      · have hopen : skwlogOpen cfg false ⟨none, false, 0⟩ = ⟨some skwcplogHeader, true, 0⟩ := by
          rw [skwlogOpen, if_pos hen]
          rfl
        rw [hopen, if_pos rfl]
        exact skwlogWrite_ok (skwlogMid_new (s := ⟨none, false, 0⟩) rfl) (fun _ => hen)
          (isFrame_timePacket now)
      · -- an old log is counted from its size, which an `int` holds
        have hlog := h.log content hfile
        have hsize := h.size content hfile
        have hge : 16 ≤ content.length := hlog.length_le
        have hlimit : skwlogLimit = 1610612736 := rfl
        have hint : toInt32 content.length = content.length := toInt32_of_lt (by omega)
        have hopen : skwlogOpen cfg false ⟨some content, false, 0⟩ =
            ⟨some content, true, content.length⟩ := by
          have hne : ¬ toInt32 content.length = 0 := by omega
          have hrev : (toInt32 content.length % 2 ^ 32).toNat = content.length := by omega
          rw [skwlogOpen, if_pos hen]
          simp only [hslice, if_true, Bool.false_or, decide_eq_false hne, hrev, Skwlog.openAppend]
          rfl
        rw [hopen, if_pos rfl]
        refine skwlogWrite_ok ⟨fun c hc => ?_, fun c hc => ?_, fun _ => ⟨content, rfl, ?_, ?_⟩⟩
          (fun _ => hen) (isFrame_timePacket now)
        · exact Option.some.inj hc ▸ hlog
        · exact Option.some.inj hc ▸ hsize
        · exact Nat.le_refl _
        · exact Nat.le_add_right _ _
  · have hsame : skwlogOpen cfg newFile { s with opened := false, revLength := 0 } =
        { s with opened := false, revLength := 0 } := by rw [skwlogOpen, if_neg hen]
    rw [hsame, if_neg nofun]
    exact hclosed

/-- **Starting a session** keeps the format if a file that is opened for a new log is renamed away. -/
theorem skwlogInit_ok {cfg : LogConfig} {s : Skwlog} (now : LocalTime) (h : SkwlogOk s)
    (hren : cfg.btcpLogEn = true → Renames cfg s) : SkwlogOk (skwlogInit cfg now s) := by
  rw [skwlogInit]
  split
  · next hen =>
    have hren' : Renames cfg { s with opened := false, revLength := 0 } := hren hen.1
    rw [if_pos (by rw [skwlogOpen_new hen.1 hren'])]
    exact skwlog_new_ok now hen.1 rfl hren'
  · exact skwlogOk_of_closed rfl h.log h.size

theorem skwlogClose_ok {s : Skwlog} (h : SkwlogOk s) : SkwlogOk (skwlogClose s) :=
  skwlogOk_of_closed rfl h.log h.size

/-! ## When the log is open -/

theorem opened_skwlogOpen {cfg : LogConfig} {newFile : Bool} {s : Skwlog}
    (hop : (skwlogOpen cfg newFile s).opened = true) : cfg.btcpLogEn = true ∨ s.opened = true := by
  by_cases hen : cfg.btcpLogEn = true
  · exact .inl hen
  · rw [skwlogOpen, if_neg hen] at hop
    exact .inr hop

theorem opened_skwlogWrite {cfg : LogConfig} {buffer : List UInt8} {s : Skwlog}
    (hop : (skwlogWrite cfg buffer s).opened = true) : s.opened = true := by
  rw [skwlogWrite] at hop
  split at hop
  · assumption
  · exact hop

theorem opened_skwlogReopen {cfg : LogConfig} {newFile : Bool} {now : LocalTime} {s : Skwlog}
    (hop : (skwlogReopen cfg newFile now s).opened = true) : cfg.btcpLogEn = true := by
  have hopen : (skwlogOpen cfg newFile { s with opened := false, revLength := 0 }).opened = true := by
    rw [skwlogReopen] at hop
    split at hop
    · assumption
    · exact hop
  exact (opened_skwlogOpen hopen).resolve_right nofun

theorem opened_skwlogInit {cfg : LogConfig} {now : LocalTime} {s : Skwlog}
    (hop : (skwlogInit cfg now s).opened = true) : cfg.btcpLogEn = true := by
  rw [skwlogInit] at hop
  split at hop
  · next hen => exact hen.1
  · exact absurd hop nofun

/-- A session that appends to a log it takes for a new one puts a second header into it. -/
theorem skwlogInit_not_renamed {cfg : LogConfig} {s : Skwlog} (now : LocalTime) {content : List UInt8}
    (hen : cfg.btcpLogEn = true) (hslice : cfg.skwlogSlice = false) (hfile : s.file = some content)
    (hsize : toInt32 content.length ≤ 28) :
    (skwlogInit cfg now s).file = some (content ++ (skwcplogHeader ++ timePacket now)) := by
  have hnot : ¬ (16 + 12 : ℤ) < toInt32 content.length := Int.not_lt.mpr hsize
  have hopen : skwlogOpen cfg true ⟨some content, false, 0⟩ =
      ⟨some (content ++ skwcplogHeader), true, 0⟩ := by
    rw [skwlogOpen, if_pos hen]
    simp only [hslice, if_neg hnot, Bool.true_or, Skwlog.openAppend, Option.getD_some, if_true]
    rfl
  have hwrite : (skwlogWrite cfg (timePacket now) ⟨some (content ++ skwcplogHeader), true, 0⟩).file =
      some (content ++ skwcplogHeader ++ timePacket now) := rfl
  rw [skwlogInit, if_pos ⟨hen, .inr hslice⟩, hfile, hopen, if_pos rfl, skwlogPrintCurrentTime, hwrite,
    List.append_assoc]

end Seekwave
