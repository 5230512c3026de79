import Seekwave.Lib.Threads
import Seekwave.Logs.Sessions

/-!
# The log files and the threads that write them

The receive threads and the thread of the host's socket call `skw_btsnoop_capture` and `skwlog_write` at
the same time. `btsnoop_log_lock` and `skwlog_lock` keep them apart, but both functions look at the file
descriptor before they take their lock, `skw_btsnoop_capture` may call `skwlog_reopen` under its own lock,
and that gives up `skwlog_lock` between the header of a new log and the packet with the time.

Here the two functions, and what they call, are pieces of code that make one access at a time. What the
lock sections do is one operation each of the model of whole calls (`captureLocked`, `skwlogLocked`), and
`logs_serialized` says that a run of any threads is these operations one after the other.
-/

open Memory Threads

namespace Seekwave

/-! ## Locks and operations -/

inductive LogLock
  | btsnoop
  | skwlog
deriving DecidableEq, Repr

instance : Finite LogLock :=
  Finite.of_injective (fun m => decide (m = .btsnoop)) fun m m' h => by cases m <;> cases m' <;> simp_all

/-- What a lock protects. -/
@[reducible] def LogObject : LogLock → Type
  | .btsnoop => Btsnoop
  | .skwlog => Skwlog

/-- A call, with the time and the value of `errno` that it meets. A packet to capture lies in memory up to
the length computed for it; the controller log is given whole packets. -/
inductive LogCall
  | capture (timestamp : ℕ) (packet : List UInt8) (isReceived : Bool) (now : LocalTime) (errno : ℤ)
      (hmem : ∀ n, lengthHe packet = some n → n ≤ packet.length)
  | skwlogWrite (buffer : List UInt8) (hpacket : skwlogFramer.IsFrame buffer)

/-- A section under `btsnoop_log_lock`. -/
structure SnoopOp where
  timestamp : ℕ
  packet : List UInt8
  isReceived : Bool
  now : LocalTime
  errno : ℤ
  hmem : ∀ n, lengthHe packet = some n → n ≤ packet.length

/-- A section under `skwlog_lock`. -/
inductive SkwlogOp
  | reopen (newFile : Bool)
  | printTime (now : LocalTime)
  | write (buffer : List UInt8) (hpacket : skwlogFramer.IsFrame buffer)

@[reducible] def LogOp : LogLock → Type
  | .btsnoop => SnoopOp
  | .skwlog => SkwlogOp

abbrev LogCode := Code LogObject LogOp

/-- The call that an operation is part of, where there is one operation for the call. -/
def callOf : ∀ m, LogOp m → Option LogCall
  | .btsnoop, (op : SnoopOp) =>
    some (.capture op.timestamp op.packet op.isReceived op.now op.errno op.hmem)
  | .skwlog, (.write buffer hpacket : SkwlogOp) => some (.skwlogWrite buffer hpacket)
  | .skwlog, (.reopen _ : SkwlogOp) => none
  | .skwlog, (.printTime _ : SkwlogOp) => none

/-! ## The functions, one access at a time -/

section Functions

variable (cfg : LogConfig)

/-- The end of `skwlog_open`: `open` with `O_CREAT | O_APPEND`, and the header. -/
def skwlogOpenAppendCode (newFile : Bool) (k : LogCode) : LogCode :=
  .write .skwlog (fun s : Skwlog => { s with file := some (s.file.getD []), opened := true }) <|
    if newFile = true then
      .write .skwlog (fun s : Skwlog => { s with file := some (s.file.getD [] ++ skwcplogHeader) }) k
    else k

/-- `skwlog_open`. -/
def skwlogOpenCode (newFile : Bool) (k : LogCode) : LogCode :=
  if cfg.btcpLogEn = true then
    .read .skwlog fun s : Skwlog =>
      match s.file with
      | some content =>
        let fileZie := toInt32 content.length
        let newFile' := newFile || decide (fileZie = 0)
        if cfg.skwlogSlice = true then
          if newFile = true then
            .write .skwlog (fun s : Skwlog => { s with file := none }) (skwlogOpenAppendCode newFile' k)
          else
            .write .skwlog (fun s : Skwlog => { s with revLength := (fileZie % 2 ^ 32).toNat })
              (skwlogOpenAppendCode newFile' k)
        else if 16 + 12 < fileZie then
          .write .skwlog (fun s : Skwlog => { s with file := none }) (skwlogOpenAppendCode newFile' k)
        else skwlogOpenAppendCode newFile' k
      | none => skwlogOpenAppendCode true k
  else k

/-- `write(skwlog_fp, buffer, length)`, which fails on the descriptor `-1`. -/
def skwlogAppend (buffer : List UInt8) (s : Skwlog) : Skwlog :=
  if s.opened = true then { s with file := some (s.file.getD [] ++ buffer) } else s

/-- `skwlog_write`, as the operation `op`. -/
def skwlogWriteCode (op : SkwlogOp) (buffer : List UInt8) (k : LogCode) : LogCode :=
  -- `skwlog_fp > 0` is tested without the lock
  .read .skwlog fun s : Skwlog =>
    if s.opened = true then
      .lock .skwlog op <|
      .write .skwlog (skwlogAppend buffer) <|
      .write .skwlog (fun s : Skwlog => { s with revLength := (s.revLength + buffer.length) % 2 ^ 32 }) <|
      .read .skwlog fun s : Skwlog =>
        if skwlogLimit ≤ s.revLength then
          .write .skwlog (fun s : Skwlog => { s with revLength := 0 }) <|
          .write .skwlog (fun s : Skwlog => { s with opened := false }) <|
          skwlogOpenCode cfg true <| .unlock .skwlog k
        else .unlock .skwlog k
    else k

def skwlogPrintCurrentTimeCode (now : LocalTime) (k : LogCode) : LogCode :=
  skwlogWriteCode cfg (.printTime now) (timePacket now) k

/-- `skwlog_reopen`. A descriptor that is closed stays in `skwlog_fp` up to the next `open`. -/
def skwlogReopenCode (newFile : Bool) (now : LocalTime) (k : LogCode) : LogCode :=
  .lock .skwlog (.reopen newFile : SkwlogOp) <|
  .write .skwlog (fun s : Skwlog => { s with revLength := 0 }) <|
  skwlogOpenCode cfg newFile <|
  .unlock .skwlog <|
  .read .skwlog fun s : Skwlog =>
    if s.opened = true then skwlogPrintCurrentTimeCode cfg now k else k

/-- The end of `skw_btsnoop_open`: `open` with `O_CREAT | O_APPEND`, and the header. -/
def snoopOpenAppendCode (newFile : Bool) (k : LogCode) : LogCode :=
  .write .btsnoop (fun s : Btsnoop => { s with file := some (s.file.getD []), opened := true }) <|
    if newFile = true then
      .write .btsnoop (fun s : Btsnoop => { s with file := some (s.file.getD [] ++ btsnoopHeader) }) k
    else k

/-- `skw_btsnoop_open`. -/
def skwBtsnoopOpenCode (errno : ℤ) (now : LocalTime) (k : LogCode) : LogCode :=
  .write .btsnoop (fun s : Btsnoop => { s with revLength := 0 }) <|
  .read .btsnoop fun s : Btsnoop =>
    if s.opened = true ∨ cfg.btsnoopLogEn = false then k
    else if cfg.btsnoopSaveLog = true then
      .read .btsnoop fun s : Btsnoop =>
        match s.file with
        | some content =>
          let fileZie := toInt32 content.length
          if cfg.skwlogSlice = true then
            if (btsnoopLimit : ℤ) < fileZie then
              .write .btsnoop (fun s : Btsnoop => { s with file := none }) <|
                if errno ≠ enoent then k
                else skwlogReopenCode cfg true now (snoopOpenAppendCode true k)
            else
              let newFile := decide (fileZie ≤ 16)
              .write .btsnoop (fun s : Btsnoop => { s with revLength := (fileZie % 2 ^ 32).toNat }) <|
              skwlogReopenCode cfg newFile now (snoopOpenAppendCode newFile k)
          else if 16 < fileZie then
            .write .btsnoop (fun s : Btsnoop => { s with file := none }) (snoopOpenAppendCode true k)
          else snoopOpenAppendCode true k
        | none =>
          if cfg.skwlogSlice = true then skwlogReopenCode cfg true now (snoopOpenAppendCode true k)
          else snoopOpenAppendCode true k
    else
      .write .btsnoop (fun s : Btsnoop => { s with file := none }) (snoopOpenAppendCode true k)

/-- `skw_btsnoop_write`. -/
def skwBtsnoopWrite (data : List UInt8) (s : Btsnoop) : Btsnoop :=
  if s.opened = true then { s with file := some (s.file.getD [] ++ data) } else s

/-- The calls of `skw_btsnoop_write` for one record. -/
def snoopWritesCode : List (List UInt8) → LogCode → LogCode
  | [], k => k
  | data :: rest, k => .write .btsnoop (skwBtsnoopWrite data) (snoopWritesCode rest k)

/-- `skw_btsnoop_capture`. -/
def skwBtsnoopCaptureCode (op : SnoopOp) : LogCode :=
  -- `hci_btsnoop_fd == -1` is tested without the lock
  .read .btsnoop fun s : Btsnoop =>
    if cfg.btsnoopLogEn = true ∧ s.opened = true then
      .lock .btsnoop op <|
        match skwBtsnoopCapture op.packet op.isReceived with
        | some r =>
          .write .btsnoop
            (fun s : Btsnoop => { s with revLength := (s.revLength + r.lengthHe) % 2 ^ 32 }) <|
          snoopWritesCode (r.writes op.timestamp) <|
          .read .btsnoop fun s : Btsnoop =>
            if btsnoopLimit ≤ s.revLength then
              .write .btsnoop (fun s : Btsnoop => { s with opened := false }) <|
              skwBtsnoopOpenCode cfg op.errno op.now <| .unlock .btsnoop .ret
            else .unlock .btsnoop .ret
        | none => .unlock .btsnoop .ret
    else .ret

/-- What a call does. -/
def LogCall.code : LogCall → LogCode
  | .capture timestamp packet isReceived now errno hmem =>
    skwBtsnoopCaptureCode cfg ⟨timestamp, packet, isReceived, now, errno, hmem⟩
  | .skwlogWrite buffer hpacket => skwlogWriteCode cfg (.write buffer hpacket) buffer .ret

/-! ## What the lock sections do -/

/-- The file with a record more, if it is open; the length counts anyway. -/
def Btsnoop.record (s : Btsnoop) (r : SnoopRecord) (timestamp : ℕ) : Btsnoop :=
  skwBtsnoopWrite (r.encode timestamp) { s with revLength := (s.revLength + r.lengthHe) % 2 ^ 32 }

/-- What `skw_btsnoop_capture` does under its lock. -/
def captureLocked (op : SnoopOp) (s : Btsnoop) : Btsnoop :=
  match skwBtsnoopCapture op.packet op.isReceived with
  | some r => (btsnoopRotate cfg op.errno (s.record r op.timestamp)).state
  | none => s

/-- What `skwlog_write` does under its lock. -/
def skwlogWriteLocked (buffer : List UInt8) (s : Skwlog) : Skwlog :=
  let s₁ := skwlogAppend buffer s
  let s₂ := { s₁ with revLength := (s₁.revLength + buffer.length) % 2 ^ 32 }
  if skwlogLimit ≤ s₂.revLength then skwlogOpen cfg true { s₂ with opened := false, revLength := 0 }
  else s₂

/-- What is done under `skwlog_lock`. -/
def skwlogLocked : SkwlogOp → Skwlog → Skwlog
  | .reopen newFile, s => skwlogOpen cfg newFile { s with opened := false, revLength := 0 }
  | .printTime now, s => skwlogWriteLocked cfg (timePacket now) s
  | .write buffer _, s => skwlogWriteLocked cfg buffer s

/-- On an open file, this is what a whole call does. -/
theorem captureLocked_eq {op : SnoopOp} {s : Btsnoop} (hen : cfg.btsnoopLogEn = true)
    (hop : s.opened = true) : captureLocked cfg op s =
      (skwBtsnoopCaptureFile cfg op.errno op.timestamp op.packet op.isReceived s).state := by
  unfold captureLocked skwBtsnoopCaptureFile
  rw [if_pos ⟨hen, hop⟩]
  rcases skwBtsnoopCapture op.packet op.isReceived with - | r
  · rfl
  · have hrecord : s.record r op.timestamp = s.append r op.timestamp := by
      unfold Btsnoop.record Btsnoop.append skwBtsnoopWrite
      rw [if_pos hop]
    dsimp only
    rw [hrecord]

theorem skwlogWriteLocked_eq {buffer : List UInt8} {s : Skwlog} (hop : s.opened = true) :
    skwlogWriteLocked cfg buffer s = skwlogWrite cfg buffer s := by
  unfold skwlogWriteLocked skwlogWrite skwlogAppend
  rw [if_pos hop, if_pos hop]

/-- Where the controller log is written, `skwlog_open` opens it. -/
theorem opened_of_skwlogOpen {newFile : Bool} {s : Skwlog} (hen : cfg.btcpLogEn = true) :
    (skwlogOpen cfg newFile s).opened = true := by
  unfold skwlogOpen
  rw [if_pos hen]
  rcases s.file with - | content
  · rfl
  · dsimp only
    split
    · split <;> rfl
    · split <;> rfl

/-- An open log stays open: what is closed for a rotation is opened again. -/
theorem opened_of_skwlogWrite {buffer : List UInt8} {s : Skwlog} (hen : cfg.btcpLogEn = true)
    (hop : s.opened = true) : (skwlogWrite cfg buffer s).opened = true := by
  unfold skwlogWrite
  rw [if_pos hop]
  dsimp only
  split
  · exact opened_of_skwlogOpen cfg hen
  · exact hop

theorem opened_of_skwlogReopen {newFile : Bool} {now : LocalTime} {s : Skwlog}
    (hen : cfg.btcpLogEn = true) : (skwlogReopen cfg newFile now s).opened = true := by
  unfold skwlogReopen
  have hop := @opened_of_skwlogOpen cfg newFile { s with opened := false, revLength := 0 } hen
  dsimp only
  rw [if_pos hop]
  exact opened_of_skwlogWrite cfg hen hop

/-- It does not look at a descriptor that it will replace. -/
theorem skwlogOpen_closed {newFile : Bool} {s : Skwlog}
    (h : cfg.btcpLogEn = true ∨ s.opened = false) :
    skwlogOpen cfg newFile { s with opened := false } = skwlogOpen cfg newFile s := by
  obtain ⟨file, opened, revLength⟩ := s
  by_cases hen : cfg.btcpLogEn = true
  · unfold skwlogOpen
    rw [if_pos hen, if_pos hen]
    rcases file with - | content
    · rfl
    · dsimp only
      split
      · split <;> rfl
      · split <;> rfl
  · obtain rfl : opened = false := h.resolve_left hen
    rfl

/-- With slices, opening keeps the format. -/
theorem skwlogOpen_mid {newFile : Bool} {s : Skwlog} (h : SkwlogMid s) (hrev : s.revLength = 0)
    (hslice : cfg.skwlogSlice = true) : SkwlogMid (skwlogOpen cfg newFile s) := by
  by_cases hen : cfg.btcpLogEn = true
  · have hren : Renames cfg s := fun _ _ => .inl hslice
    -- a new log is its header
    cases newFile with
    | true =>
      rw [skwlogOpen_new hen hren]
      exact skwlogMid_new hrev
    | false =>
      rcases hfile : s.file with - | content
      · have hopen : skwlogOpen cfg false s = { s with file := some skwcplogHeader, opened := true } := by
          unfold skwlogOpen
          rw [if_pos hen, hfile]
          unfold Skwlog.openAppend
          rw [hfile]
          rfl
        rw [hopen]
        exact skwlogMid_new hrev
      · have hlog := h.log content hfile
        have hsize := h.size content hfile
        have hge : 16 ≤ content.length := hlog.length_le
        have hlimit : skwlogLimit = 1610612736 := rfl
        have hint : toInt32 content.length = content.length := toInt32_of_lt (by omega)
        have hne : ¬ toInt32 content.length = 0 := by omega
        have hcount : (toInt32 content.length % 2 ^ 32).toNat = content.length := by omega
        -- an old log is appended to, and its size is the count
        have hopen : skwlogOpen cfg false s = ⟨some content, true, content.length⟩ := by
          unfold skwlogOpen
          rw [if_pos hen, hfile]
          simp only [hslice, if_true, Bool.false_or, decide_eq_false hne, hcount, Skwlog.openAppend, hfile]
          rfl
        rw [hopen]
        refine ⟨fun c hc => ?_, fun c hc => ?_, fun _ => ⟨content, rfl, Nat.le_refl _, Nat.le_add_right _ _⟩⟩
        · exact Option.some.inj hc ▸ hlog
        · exact Option.some.inj hc ▸ hsize
  · unfold skwlogOpen
    rwa [if_neg hen]

end Functions

/-! ## Each call by itself -/

/-- What a session has when its threads begin: the controller log is open only if it is written, and with
slices it has been opened with the btsnoop file. -/
structure LogsOpened (cfg : LogConfig) (b : Btsnoop) (c : Skwlog) : Prop where
  enabled : c.opened = true → cfg.btcpLogEn = true
  reopened : cfg.btcpLogEn = true → cfg.skwlogSlice = true → cfg.btsnoopSaveLog = true →
    b.opened = true → c.opened = true

/-- The operations, for threads that begin with the files as in `b` and `c`. A file that is not open then
stays so, and the controller log keeps the format. -/
def logSpec (cfg : LogConfig) (b : Btsnoop) (c : Skwlog) : Spec LogObject LogOp where
  apply
    | .btsnoop => captureLocked cfg
    | .skwlog => skwlogLocked cfg
  inv
    | .btsnoop => fun _ => True
    | .skwlog => fun s : Skwlog => s.opened = c.opened ∧ (SkwlogMid c → SkwlogMid s)
  seen
    | .btsnoop => fun s : Btsnoop => b.opened = false → s.opened = false
    | .skwlog => fun s : Skwlog => c.opened = false → s.opened = false
  rank
    | .btsnoop => 0
    | .skwlog => 1

section Ok

variable {cfg : LogConfig} {b : Btsnoop} {c : Skwlog} {k : LogCode}
  {h : ∀ m, Option (LogObject m × LogObject m)}

theorem seen_skwlog (hopen : c.opened = true) (s : Skwlog) : (logSpec cfg b c).seen .skwlog s :=
  fun hclosed => absurd (hopen.symm.trans hclosed) (by simp)

theorem seen_btsnoop (hopen : b.opened = true) (s : Btsnoop) : (logSpec cfg b c).seen .btsnoop s :=
  fun hclosed => absurd (hopen.symm.trans hclosed) (by simp)

/-- `skwlog_lock` may be taken by whoever does not hold it. -/
theorem rank_skwlog (hm : h .skwlog = none) (m : LogLock) (hheld : h m ≠ none) :
    (logSpec cfg b c).rank m < (logSpec cfg b c).rank .skwlog := by
  cases m with
  | btsnoop => exact Nat.zero_lt_one
  | skwlog => exact absurd hm hheld

theorem ok_skwlogOpenAppendCode {newFile : Bool} {w v : Skwlog} (hopen : c.opened = true)
    (hk : k.Ok (logSpec cfg b c) (hold h .skwlog w (v.openAppend newFile))) :
    (skwlogOpenAppendCode newFile k).Ok (logSpec cfg b c) (hold h .skwlog w v) := by
  refine ok_write (seen_skwlog hopen _) ?_
  cases newFile with
  | true => exact ok_write (seen_skwlog hopen _) hk
  | false => exact hk

theorem ok_skwlogOpenCode {newFile : Bool} {w v : Skwlog} (hopen : cfg.btcpLogEn = true → c.opened = true)
    (hk : k.Ok (logSpec cfg b c) (hold h .skwlog w (skwlogOpen cfg newFile v))) :
    (skwlogOpenCode cfg newFile k).Ok (logSpec cfg b c) (hold h .skwlog w v) := by
  obtain ⟨file, opened, revLength⟩ := v
  unfold skwlogOpenCode
  unfold skwlogOpen at hk
  -- the lock is held, so that the code sees the state that the operation has got to
  by_cases hen : cfg.btcpLogEn = true
  · have hopen' := hopen hen
    rw [if_pos hen] at hk ⊢
    refine ok_read ?_
    rcases file with - | content
    · exact ok_skwlogOpenAppendCode hopen' hk
    · dsimp only at hk ⊢
      generalize toInt32 content.length = size at hk ⊢
      by_cases hslice : cfg.skwlogSlice = true
      · rw [if_pos hslice] at hk ⊢
        by_cases hnew : newFile = true
        · rw [if_pos hnew] at hk ⊢
          exact ok_write (seen_skwlog hopen' _) (ok_skwlogOpenAppendCode hopen' hk)
        · rw [if_neg hnew] at hk ⊢
          exact ok_write (seen_skwlog hopen' _) (ok_skwlogOpenAppendCode hopen' hk)
      · rw [if_neg hslice] at hk ⊢
        by_cases hlong : 16 + 12 < size
        · rw [if_pos hlong] at hk ⊢
          exact ok_write (seen_skwlog hopen' _) (ok_skwlogOpenAppendCode hopen' hk)
        · rw [if_neg hlong] at hk ⊢
          exact ok_skwlogOpenAppendCode hopen' hk
  · rw [if_neg hen] at hk ⊢
    exact hk

/-- What `skwlog_write` leaves under its lock. -/
theorem inv_skwlogWriteLocked (hstart : LogsOpened cfg b c) {buffer : List UInt8}
    (hpacket : skwlogFramer.IsFrame buffer) (hopen : c.opened = true) {v : Skwlog}
    (hv : (logSpec cfg b c).inv .skwlog v) :
    (logSpec cfg b c).inv .skwlog (skwlogWriteLocked cfg buffer v) := by
  obtain ⟨hopened, hmid⟩ := hv
  have hen := hstart.enabled hopen
  have hop : v.opened = true := hopened.trans hopen
  rw [skwlogWriteLocked_eq cfg hop]
  refine ⟨?_, fun hc => (skwlogWrite_ok (hmid hc) (fun _ => hen) hpacket).toSkwlogMid⟩
  rw [hopen]
  exact opened_of_skwlogWrite cfg hen hop

theorem ok_skwlogWriteCode (hstart : LogsOpened cfg b c) {op : SkwlogOp} {buffer : List UInt8}
    (hpacket : skwlogFramer.IsFrame buffer) (hop : skwlogLocked cfg op = skwlogWriteLocked cfg buffer)
    (hm : h .skwlog = none) (hk : k.Ok (logSpec cfg b c) h) :
    (skwlogWriteCode cfg op buffer k).Ok (logSpec cfg b c) h := by
  refine ok_peek hm fun (s : Skwlog) hseen => ?_
  by_cases hopened : s.opened = true
  · -- an open log is seen only where it has been open from the start
    have hopen : c.opened = true := by
      by_contra hclosed
      exact absurd (hopened.symm.trans (hseen (Bool.eq_false_iff.mpr hclosed))) (by simp)
    rw [if_pos hopened]
    refine ok_lock (rank_skwlog hm) fun (v : Skwlog) hv _ => ?_
    have hinv := inv_skwlogWriteLocked hstart hpacket hopen hv
    have htarget : (logSpec cfg b c).apply .skwlog op v = skwlogWriteLocked cfg buffer v := congrFun hop v
    rw [htarget]
    -- the packet and its length; then the limit decides whether the log is opened anew
    refine ok_write (seen_skwlog hopen _) (ok_write (seen_skwlog hopen _) (ok_read ?_))
    generalize hres : skwlogWriteLocked cfg buffer v = res at hinv ⊢
    unfold skwlogWriteLocked at hres
    dsimp only at hres ⊢
    split
    · next hfull =>
      rw [if_pos hfull] at hres
      refine ok_write (seen_skwlog hopen _) (ok_write (seen_skwlog hopen _) ?_)
      refine ok_skwlogOpenCode (fun _ => hopen) ?_
      rw [← hres] at hinv ⊢
      exact ok_unlock hm hinv hk
    · next hfull =>
      rw [if_neg hfull] at hres
      rw [← hres] at hinv ⊢
      exact ok_unlock hm hinv hk
  · rw [if_neg hopened]
    exact hk

theorem ok_skwlogReopenCode (hstart : LogsOpened cfg b c) {newFile : Bool} {now : LocalTime}
    (hslice : cfg.skwlogSlice = true) (hopen : cfg.btcpLogEn = true → c.opened = true)
    (hm : h .skwlog = none) (hk : k.Ok (logSpec cfg b c) h) :
    (skwlogReopenCode cfg newFile now k).Ok (logSpec cfg b c) h := by
  refine ok_lock (rank_skwlog hm) fun (v : Skwlog) hv hseen => ?_
  obtain ⟨hopened, hmid⟩ := hv
  refine ok_write hseen (ok_skwlogOpenCode hopen ?_)
  -- the stale descriptor is replaced, or there is none
  have hstale : cfg.btcpLogEn = true ∨ v.opened = false := by
    by_contra hboth
    obtain ⟨hen, hop⟩ := not_or.mp hboth
    rw [Bool.not_eq_false] at hop
    exact hen (hstart.enabled (hopened.symm.trans hop))
  have htarget : (logSpec cfg b c).apply .skwlog (.reopen newFile : SkwlogOp) v =
      skwlogOpen cfg newFile { v with revLength := 0 } := by
    show skwlogOpen cfg newFile { v with opened := false, revLength := 0 } = _
    exact skwlogOpen_closed cfg (s := { v with revLength := 0 }) hstale
  rw [htarget]
  -- the lock is free here for a moment, and has a log in order under it
  refine ok_unlock hm ⟨?_, fun hc => ?_⟩ ?_
  · by_cases hen : cfg.btcpLogEn = true
    · rw [hopen hen]
      exact opened_of_skwlogOpen cfg hen
    · unfold skwlogOpen
      rw [if_neg hen]
      exact hopened
  · have hclosed : SkwlogMid { v with opened := false, revLength := 0 } :=
      ⟨(hmid hc).log, (hmid hc).size, fun hop => absurd hop (by simp)⟩
    rw [← skwlogOpen_closed cfg (s := { v with revLength := 0 }) hstale]
    exact skwlogOpen_mid cfg hclosed rfl hslice
  · refine ok_peek hm fun (s : Skwlog) _ => ?_
    split
    · exact ok_skwlogWriteCode hstart (isFrame_timePacket now) rfl hm hk
    · exact hk

theorem ok_snoopOpenAppendCode {newFile : Bool} {w v : Btsnoop} (reopen : Option Bool)
    (hopen : b.opened = true)
    (hk : k.Ok (logSpec cfg b c) (hold h .btsnoop w (v.openAppend newFile reopen).state)) :
    (snoopOpenAppendCode newFile k).Ok (logSpec cfg b c) (hold h .btsnoop w v) := by
  refine ok_write (seen_btsnoop hopen _) ?_
  cases newFile with
  | true => exact ok_write (seen_btsnoop hopen _) hk
  | false => exact hk

theorem ok_skwBtsnoopOpenCode (hstart : LogsOpened cfg b c) {errno : ℤ} {now : LocalTime} {w v : Btsnoop}
    (hopen : b.opened = true) (hm : h .skwlog = none)
    (hk : k.Ok (logSpec cfg b c) (hold h .btsnoop w (skwBtsnoopOpen cfg errno v).state)) :
    (skwBtsnoopOpenCode cfg errno now k).Ok (logSpec cfg b c) (hold h .btsnoop w v) := by
  have hseen : ∀ s : Btsnoop, (logSpec cfg b c).seen .btsnoop s := seen_btsnoop hopen
  have hfree : ∀ s : Btsnoop, hold h .btsnoop w s .skwlog = none :=
    fun s => (Function.update_of_ne (by simp) _ _).trans hm
  obtain ⟨file, opened, revLength⟩ := v
  unfold skwBtsnoopOpenCode
  unfold skwBtsnoopOpen at hk
  dsimp only at hk
  refine ok_write (hseen _) (ok_read ?_)
  dsimp only
  -- branch by branch, the code and the operation look at the same values: the lock is held
  by_cases hskip : opened = true ∨ cfg.btsnoopLogEn = false
  · rw [if_pos hskip] at hk ⊢
    exact hk
  · rw [if_neg hskip] at hk ⊢
    by_cases hsave : cfg.btsnoopSaveLog = true
    · rw [if_pos hsave] at hk ⊢
      refine ok_read ?_
      rcases file with - | content
      · dsimp only at hk ⊢
        by_cases hslice : cfg.skwlogSlice = true
        · rw [if_pos hslice]
          have hreopen := fun hen => hstart.reopened hen hslice hsave hopen
          exact ok_skwlogReopenCode hstart hslice hreopen (hfree _) (ok_snoopOpenAppendCode _ hopen hk)
        · rw [if_neg hslice]
          exact ok_snoopOpenAppendCode _ hopen hk
      · dsimp only at hk ⊢
        generalize toInt32 content.length = size at hk ⊢
        by_cases hslice : cfg.skwlogSlice = true
        · rw [if_pos hslice] at hk ⊢
          have hreopen := fun hen => hstart.reopened hen hslice hsave hopen
          by_cases hlarge : (btsnoopLimit : ℤ) < size
          · rw [if_pos hlarge] at hk ⊢
            refine ok_write (hseen _) ?_
            -- the early return leaves the file closed, in the code as in the operation
            by_cases herrno : errno ≠ enoent
            · rw [if_pos herrno] at hk ⊢
              exact hk
            · rw [if_neg herrno] at hk ⊢
              exact ok_skwlogReopenCode hstart hslice hreopen (hfree _) (ok_snoopOpenAppendCode _ hopen hk)
          · rw [if_neg hlarge] at hk ⊢
            refine ok_write (hseen _) ?_
            exact ok_skwlogReopenCode hstart hslice hreopen (hfree _) (ok_snoopOpenAppendCode _ hopen hk)
        · rw [if_neg hslice] at hk ⊢
          by_cases hlong : 16 < size
          · rw [if_pos hlong] at hk ⊢
            exact ok_write (hseen _) (ok_snoopOpenAppendCode _ hopen hk)
          · rw [if_neg hlong] at hk ⊢
            exact ok_snoopOpenAppendCode _ hopen hk
    · rw [if_neg hsave] at hk ⊢
      exact ok_write (hseen _) (ok_snoopOpenAppendCode _ hopen hk)

/-- Two writes make the same of the file as one. -/
theorem skwBtsnoopWrite_append (data rest : List UInt8) (s : Btsnoop) :
    skwBtsnoopWrite rest (skwBtsnoopWrite data s) = skwBtsnoopWrite (data ++ rest) s := by
  by_cases hop : s.opened = true
  · unfold skwBtsnoopWrite
    rw [if_pos hop, if_pos hop, if_pos hop]
    dsimp only
    rw [Option.getD_some, List.append_assoc]
  · unfold skwBtsnoopWrite
    rw [if_neg hop, if_neg hop, if_neg hop]

theorem ok_snoopWritesCode {writes : List (List UInt8)} {w v : Btsnoop} (hopen : b.opened = true)
    (hne : writes ≠ [])
    (hk : k.Ok (logSpec cfg b c) (hold h .btsnoop w (skwBtsnoopWrite writes.flatten v))) :
    (snoopWritesCode writes k).Ok (logSpec cfg b c) (hold h .btsnoop w v) := by
  induction writes generalizing v with
  | nil => exact absurd rfl hne
  | cons data rest ih =>
    refine ok_write (seen_btsnoop hopen _) ?_
    rw [List.flatten_cons, ← skwBtsnoopWrite_append] at hk
    cases rest with
    | nil =>
      rw [skwBtsnoopWrite_append, List.flatten_nil, List.append_nil] at hk
      exact hk
    | cons next rest => exact ih (List.cons_ne_nil _ _) hk

theorem ok_skwBtsnoopCaptureCode (hstart : LogsOpened cfg b c) (op : SnoopOp) :
    (skwBtsnoopCaptureCode cfg op).Ok (logSpec cfg b c) fun _ => none := by
  refine ok_peek rfl fun (s : Btsnoop) hseen => ?_
  by_cases henopen : cfg.btsnoopLogEn = true ∧ s.opened = true
  · -- an open file is seen only where it has been open from the start
    have hopen : b.opened = true := by
      by_contra hclosed
      exact absurd (henopen.2.symm.trans (hseen (Bool.eq_false_iff.mpr hclosed))) (by simp)
    rw [if_pos henopen]
    refine ok_lock (fun m hm => absurd rfl hm) fun (v : Btsnoop) _ _ => ?_
    have htarget : (logSpec cfg b c).apply .btsnoop op v = captureLocked cfg op v := rfl
    rw [htarget]
    have hdone : (Code.ret : LogCode).Ok (logSpec cfg b c) fun _ => none := fun m => rfl
    unfold captureLocked
    rcases skwBtsnoopCapture op.packet op.isReceived with - | r
    · exact ok_unlock rfl trivial hdone
    · refine ok_write (seen_btsnoop hopen _) (ok_snoopWritesCode hopen (List.cons_ne_nil _ _) ?_)
      -- the length is counted and the record is in the file
      have hrecord : skwBtsnoopWrite (r.writes op.timestamp).flatten
          { v with revLength := (v.revLength + r.lengthHe) % 2 ^ 32 } = v.record r op.timestamp := rfl
      dsimp only
      rw [hrecord]
      generalize v.record r op.timestamp = s
      unfold btsnoopRotate
      refine ok_read ?_
      by_cases hfull : btsnoopLimit ≤ s.revLength
      · rw [if_pos hfull, if_pos hfull]
        refine ok_write (seen_btsnoop hopen _) ?_
        refine ok_skwBtsnoopOpenCode (h := fun _ => none) hstart hopen rfl ?_
        exact ok_unlock (m := .btsnoop) rfl trivial hdone
      · rw [if_neg hfull, if_neg hfull]
        exact ok_unlock (m := .btsnoop) rfl trivial hdone
  · rw [if_neg henopen]
    exact fun m => rfl

/-- What every call does by itself is right. -/
theorem ok_code (hstart : LogsOpened cfg b c) (call : LogCall) :
    (call.code cfg).Ok (logSpec cfg b c) fun _ => none := by
  cases call with
  | capture timestamp packet isReceived now errno hmem => exact ok_skwBtsnoopCaptureCode hstart _
  | skwlogWrite buffer hpacket => exact ok_skwlogWriteCode hstart hpacket rfl rfl fun m => rfl

end Ok

/-! ## How long a call takes, and what it performs -/

section Calls

variable (cfg : LogConfig) {k : LogCode} {n : ℕ} {calls rest : List LogCall}

theorem within_skwlogOpenAppendCode (newFile : Bool) (hk : k.Within n) :
    (skwlogOpenAppendCode newFile k).Within (n + 2) := by
  refine within_write ?_
  split
  · exact within_write hk
  · exact hk.mono (Nat.le_succ n)

theorem within_skwlogOpenCode (newFile : Bool) (hk : k.Within n) :
    (skwlogOpenCode cfg newFile k).Within (n + 4) := by
  have hopen := fun newFile => within_skwlogOpenAppendCode newFile hk
  unfold skwlogOpenCode
  split
  · refine within_read fun (s : Skwlog) => ?_
    rcases s.file with - | content
    · exact (hopen _).mono (Nat.le_succ _)
    · dsimp only
      generalize toInt32 content.length = size
      split
      · split
        · exact within_write (hopen _)
        · exact within_write (hopen _)
      · split
        · exact within_write (hopen _)
        · exact (hopen _).mono (Nat.le_succ _)
  · exact hk.mono (Nat.le_add_right n 4)

theorem within_skwlogWriteCode (op : SkwlogOp) (buffer : List UInt8) (hk : k.Within n) :
    (skwlogWriteCode cfg op buffer k).Within (n + 12) := by
  refine within_read fun (s : Skwlog) => ?_
  split
  · refine within_lock (within_write (within_write (within_read fun (s : Skwlog) => ?_)))
    split
    · exact within_write (within_write (within_skwlogOpenCode cfg true (within_unlock hk)))
    · exact (within_unlock hk).mono (by omega)
  · exact hk.mono (by omega)

theorem within_skwlogReopenCode (newFile : Bool) (now : LocalTime) (hk : k.Within n) :
    (skwlogReopenCode cfg newFile now k).Within (n + 20) := by
  refine within_lock (within_write (within_skwlogOpenCode cfg newFile (within_unlock ?_)))
  refine within_read fun (s : Skwlog) => ?_
  split
  · exact within_skwlogWriteCode cfg _ _ hk
  · exact hk.mono (by omega)

theorem within_snoopOpenAppendCode (newFile : Bool) (hk : k.Within n) :
    (snoopOpenAppendCode newFile k).Within (n + 2) := by
  refine within_write ?_
  split
  · exact within_write hk
  · exact hk.mono (Nat.le_succ n)

theorem within_skwBtsnoopOpenCode (errno : ℤ) (now : LocalTime) (hk : k.Within n) :
    (skwBtsnoopOpenCode cfg errno now k).Within (n + 26) := by
  have hopen := fun newFile => within_snoopOpenAppendCode newFile hk
  have hreopen := fun newFile newFile' => within_skwlogReopenCode cfg newFile now (hopen newFile')
  refine within_write (within_read fun (s : Btsnoop) => ?_)
  -- 26 steps on the longest way: the file is renamed, and both logs are opened
  split
  · exact hk.mono (by omega)
  · split
    · refine within_read fun (s : Btsnoop) => ?_
      rcases s.file with - | content
      · dsimp only
        split
        · exact (hreopen _ _).mono (by omega)
        · exact (hopen _).mono (by omega)
      · dsimp only
        generalize toInt32 content.length = size
        split
        · split
          · refine within_write ?_
            split
            · exact hk.mono (by omega)
            · exact hreopen _ _
          · exact within_write (hreopen _ _)
        · split
          · exact (within_write (hopen _)).mono (by omega)
          · exact (hopen _).mono (by omega)
    · exact (within_write (hopen _)).mono (by omega)

theorem within_snoopWritesCode (writes : List (List UInt8)) (hk : k.Within n) :
    (snoopWritesCode writes k).Within (n + writes.length) := by
  induction writes with
  | nil => exact hk
  | cons data rest ih => exact within_write ih

/-- The longest call is a capture that rotates both files. -/
theorem within_code (call : LogCall) : (call.code cfg).Within 39 := by
  have hret : (Code.ret : LogCode).Within 0 := trivial
  cases call with
  | capture timestamp packet isReceived now errno hmem =>
    show (skwBtsnoopCaptureCode cfg _).Within 39
    refine within_read (n := 38) fun (s : Btsnoop) => ?_
    split
    · refine within_lock (n := 37) ?_
      split
      · next r _ =>
        refine within_write (n := 36) ?_
        refine within_snoopWritesCode (r.writes timestamp) (n := 29) ?_
        refine within_read (n := 28) fun (s : Btsnoop) => ?_
        split
        · exact within_write (within_skwBtsnoopOpenCode cfg errno now (within_unlock hret))
        · exact (within_unlock hret).mono (by omega)
      · exact (within_unlock hret).mono (by omega)
    · trivial
  | skwlogWrite buffer hpacket => exact (within_skwlogWriteCode cfg _ buffer hret).mono (by omega)

theorem observes_skwlogOpenAppendCode (newFile : Bool) (hk : k.Observes callOf calls) :
    (skwlogOpenAppendCode newFile k).Observes callOf calls := by
  unfold skwlogOpenAppendCode Code.Observes
  split
  · exact hk
  · exact hk

theorem observes_skwlogOpenCode (newFile : Bool) (hk : k.Observes callOf calls) :
    (skwlogOpenCode cfg newFile k).Observes callOf calls := by
  have hopen := fun newFile => observes_skwlogOpenAppendCode newFile hk
  unfold skwlogOpenCode
  split
  · intro (s : Skwlog)
    dsimp only
    rcases s.file with - | content
    · exact hopen _
    · dsimp only
      generalize toInt32 content.length = size
      split
      · split
        · exact hopen _
        · exact hopen _
      · split
        · exact hopen _
        · exact hopen _
  · exact hk

theorem observes_skwlogWriteCode {op : SkwlogOp} {buffer : List UInt8}
    (hlock : ∀ k : LogCode, k.Observes callOf rest →
      (Code.lock .skwlog op k : LogCode).Observes callOf calls)
    (hk : k.Observes callOf rest) (hk' : k.Observes callOf calls) :
    (skwlogWriteCode cfg op buffer k).Observes callOf calls := by
  -- without a file the call performs nothing, and `k` has all of `calls` left
  intro (s : Skwlog)
  dsimp only
  split
  · refine hlock _ fun (s : Skwlog) => ?_
    dsimp only
    split
    · exact observes_skwlogOpenCode cfg true hk
    · exact hk
  · exact hk'

theorem observes_skwlogReopenCode (newFile : Bool) (now : LocalTime) (hk : k.Observes callOf calls) :
    (skwlogReopenCode cfg newFile now k).Observes callOf calls := by
  refine observes_lock_none rfl (observes_skwlogOpenCode cfg newFile fun (s : Skwlog) => ?_)
  dsimp only
  split
  · exact observes_skwlogWriteCode cfg (fun _ => observes_lock_none rfl) hk hk
  · exact hk

theorem observes_snoopOpenAppendCode (newFile : Bool) (hk : k.Observes callOf calls) :
    (snoopOpenAppendCode newFile k).Observes callOf calls := by
  unfold snoopOpenAppendCode Code.Observes
  split
  · exact hk
  · exact hk

theorem observes_skwBtsnoopOpenCode (errno : ℤ) (now : LocalTime) (hk : k.Observes callOf calls) :
    (skwBtsnoopOpenCode cfg errno now k).Observes callOf calls := by
  have hopen := fun newFile => observes_snoopOpenAppendCode newFile hk
  have hreopen := fun newFile newFile' => observes_skwlogReopenCode cfg newFile now (hopen newFile')
  intro (s : Btsnoop)
  dsimp only
  split
  · exact hk
  · split
    · intro (s : Btsnoop)
      dsimp only
      rcases s.file with - | content
      · dsimp only
        split
        · exact hreopen _ _
        · exact hopen _
      · dsimp only
        generalize toInt32 content.length = size
        split
        · split
          · unfold Code.Observes
            split
            · exact hk
            · exact hreopen _ _
          · exact hreopen _ _
        · split
          · exact hopen _
          · exact hopen _
    · exact hopen _

theorem observes_snoopWritesCode (writes : List (List UInt8)) (hk : k.Observes callOf calls) :
    (snoopWritesCode writes k).Observes callOf calls := by
  induction writes with
  | nil => exact hk
  | cons data rest ih => exact ih

/-- A call performs itself, if anything. -/
theorem observes_code (call : LogCall) : (call.code cfg).Observes callOf [call] := by
  cases call with
  | capture timestamp packet isReceived now errno hmem =>
    intro (s : Btsnoop)
    dsimp only
    split
    · refine observes_lock_some rfl ?_
      split
      · refine observes_snoopWritesCode _ fun (s : Btsnoop) => ?_
        dsimp only
        split
        · exact observes_skwBtsnoopOpenCode cfg errno now trivial
        · trivial
      · trivial
    · trivial
  | skwlogWrite buffer hpacket =>
    exact observes_skwlogWriteCode cfg (fun _ => observes_lock_some rfl) trivial trivial

end Calls

/-! ## Runs -/

/-- The files of a session, for its threads. -/
def logObjects (s : LogState) : ∀ m, LogObject m
  | .btsnoop => s.btsnoop
  | .skwlog => s.skwlog

/-- `skw_btsnoop_open` reopens the controller log before it opens a file in slices. -/
theorem exists_skwlogReopen {cfg : LogConfig} {errno : ℤ} {s : Btsnoop} (hsave : cfg.btsnoopSaveLog = true)
    (hslice : cfg.skwlogSlice = true) (hclosed : s.opened = false)
    (hop : (skwBtsnoopOpen cfg errno s).state.opened = true) :
    ∃ newFile, (skwBtsnoopOpen cfg errno s).skwlogReopen = some newFile := by
  obtain ⟨file, opened, revLength⟩ := s
  unfold skwBtsnoopOpen at hop ⊢
  dsimp only at hclosed hop ⊢
  by_cases hskip : opened = true ∨ cfg.btsnoopLogEn = false
  · rw [if_pos hskip] at hop
    exact absurd (hclosed.symm.trans hop) (by simp)
  · rw [if_neg hskip, if_pos hsave] at hop ⊢
    rcases file with - | content
    · exact ⟨true, if_pos hslice⟩
    · dsimp only at hop ⊢
      generalize toInt32 content.length = size at hop ⊢
      rw [if_pos hslice] at hop ⊢
      -- a full file leads here only past the test of `errno`
      by_cases hlarge : (btsnoopLimit : ℤ) < size
      · rw [if_pos hlarge] at hop ⊢
        by_cases herrno : errno ≠ enoent
        · rw [if_pos herrno] at hop
          exact absurd (hclosed.symm.trans hop) (by simp)
        · rw [if_neg herrno]
          exact ⟨true, rfl⟩
      · rw [if_neg hlarge]
        exact ⟨_, rfl⟩

/-- **Step lemma.** A session has its controller log open when it writes both files in slices. -/
theorem logsOpened_step {s t : LogState} {e : LogEvent} {os : List (List UInt8 × Bool)}
    (hsnoop : SnoopSession s) (hskwlog : SkwlogSession s)
    (h : ∀ cfg, s.session = some cfg → LogsOpened cfg s.btsnoop s.skwlog) (hstep : LogStep s e os t)
    (cfg : LogConfig) (hsome : t.session = some cfg) : LogsOpened cfg t.btsnoop t.skwlog := by
  have henabled : t.skwlog.opened = true → cfg.btcpLogEn = true := by
    intro hop
    obtain ⟨cfg', hsome', hen⟩ := hskwlog.step hstep hop
    obtain rfl := Option.some.inj (hsome.symm.trans hsome')
    exact hen
  refine ⟨henabled, fun hen hslice hsave hop => ?_⟩
  cases hstep with
  | init cfg' now errno hnone =>
    obtain rfl := Option.some.inj hsome
    have hclosed : s.btsnoop.opened = false := by
      rw [Bool.eq_false_iff]
      intro hopen
      obtain ⟨cfg', hsome', -⟩ := hsnoop.enabled hopen
      exact absurd (hnone.symm.trans hsome') (by simp)
    have hop' : (initBtsnoop cfg' errno s.btsnoop).state.opened = true := hop
    have hcall : ∃ newFile, (initBtsnoop cfg' errno s.btsnoop).skwlogReopen = some newFile := by
      unfold initBtsnoop at hop' ⊢
      by_cases hlog : cfg'.btsnoopLogEn = true
      · rw [if_pos hlog] at hop' ⊢
        exact exists_skwlogReopen hsave hslice hclosed hop'
      · rw [if_neg hlog] at hop'
        exact absurd (hclosed.symm.trans hop') (by simp)
    obtain ⟨newFile, hcall⟩ := hcall
    show (reopened cfg' now (initBtsnoop cfg' errno s.btsnoop).skwlogReopen _).opened = true
    rw [hcall]
    exact opened_of_skwlogReopen cfg' hen
  | capture timestamp packet isReceived now errno hsome' hmem =>
    obtain rfl := Option.some.inj (hsome.symm.trans hsome')
    have hbefore := (h cfg hsome).reopened hen hslice hsave
      (opened_skwBtsnoopCaptureFile hsnoop.exists_file hop).1
    show (reopened cfg now (skwBtsnoopCaptureFile cfg errno timestamp packet isReceived
      s.btsnoop).skwlogReopen s.skwlog).opened = true
    rcases (skwBtsnoopCaptureFile cfg errno timestamp packet isReceived s.btsnoop).skwlogReopen
      with - | newFile
    · exact hbefore
    · exact opened_of_skwlogReopen cfg hen
  | skwlogWrite buffer hsome' hpacket =>
    obtain rfl := Option.some.inj (hsome.symm.trans hsome')
    exact opened_of_skwlogWrite cfg hen ((h cfg hsome).reopened hen hslice hsave hop)
  | cleanup hsome' => exact absurd hsome (by simp)

/-- So it is after every run of sessions. -/
theorem logsOpened_of_run {es : List LogEvent} {tr : List (List UInt8 × Bool)} {s : LogState}
    {cfg : LogConfig} (run : LogRun es tr s) (hsome : s.session = some cfg) :
    LogsOpened cfg s.btsnoop s.skwlog := by
  have hinv : SnoopSession s ∧ SkwlogSession s ∧
      ∀ cfg, s.session = some cfg → LogsOpened cfg s.btsnoop s.skwlog := by
    clear hsome
    induction run with
    | start =>
      refine ⟨⟨fun hop => absurd hop (by simp [LogState.initial, Btsnoop.initial]),
        fun hop => absurd hop (by simp [LogState.initial, Btsnoop.initial])⟩,
        fun hop => absurd hop (by simp [LogState.initial, Skwlog.initial]), fun cfg hcfg => ?_⟩
      exact absurd hcfg (by simp [LogState.initial])
    | snoc _ hstep ih =>
      obtain ⟨hsnoop, hskwlog, hopened⟩ := ih
      exact ⟨hsnoop.step hstep, hskwlog.step hstep, logsOpened_step hsnoop hskwlog hopened hstep⟩
  exact hinv.2.2 cfg hsome

section Main

variable {es₀ : List LogEvent} {tr₀ : List (List UInt8 × Bool)} {s₀ : LogState} {cfg : LogConfig}
  {ι : Type} [DecidableEq ι] {es : List (PoolEvent ι LogCall)} {out : List (Performed LogOp ι)}
  {s : Pool LogObject LogOp ι}

/-- The operations `out` of the threads of a session, one after the other. -/
abbrev logReplay (cfg : LogConfig) (s₀ : LogState) (out : List (Performed LogOp ι)) :
    ∀ m, LogObject m := replay (logSpec cfg s₀.btsnoop s₀.skwlog) (logObjects s₀) out

/-- The invariant of the threads of a session. -/
theorem serial_of_run (hstart : LogsOpened cfg s₀.btsnoop s₀.skwlog)
    (run : PoolRun (LogCall.code cfg) (logObjects s₀) es out s) :
    Serial (logSpec cfg s₀.btsnoop s₀.skwlog) s (logReplay cfg s₀ out) := by
  refine serial run (ok_code hstart) (fun m => ?_) fun m => ?_
  · cases m with
    | btsnoop => trivial
    | skwlog => exact ⟨rfl, fun hmid => hmid⟩
  · cases m with
    | btsnoop => exact fun hclosed => hclosed
    | skwlog => exact fun hclosed => hclosed

/-- **The threads of a session write the log files one after the other.** However the calls of any
threads interleave, access by access, whenever one of the two locks is free, its file is as if the lock
sections begun so far had been whole operations, one after the other. What a thread has performed are its
calls, each at most once and in their order. -/
theorem logs_serialized (run₀ : LogRun es₀ tr₀ s₀) (hsome : s₀.session = some cfg)
    (run : PoolRun (LogCall.code cfg) (logObjects s₀) es out s) :
    (∀ m, s.owner m = none → s.object m = logReplay cfg s₀ out m) ∧
      ∀ i, (observed callOf i out).Sublist (callsOf i es) := by
  have hserial := serial_of_run (logsOpened_of_run run₀ hsome) run
  exact ⟨fun m hfree => (hserial.free m hfree).1, observed_sublist run (observes_code cfg)⟩

/-- A session that keeps both logs, in slices. -/
def slicesConfig : LogConfig := ⟨true, true, true, true⟩

/-- What its `init` makes of no files. -/
def slicesState : LogState where
  session := some slicesConfig
  btsnoop := ⟨some btsnoopHeader, true, 0⟩
  skwlog := ⟨some (skwcplogHeader ++ timePacket ⟨0, 0, 0, 1⟩), true, 12⟩

theorem logRun_slicesState : ∃ tr₀, LogRun [.init slicesConfig ⟨0, 0, 0, 1⟩ 0] tr₀ slicesState :=
  ⟨_, Execution.start.snoc (.init slicesConfig ⟨0, 0, 0, 1⟩ 0 rfl)⟩

/-- `length_he` of the event that `captureEvent` records. -/
theorem lengthHe_event (n : ℕ) (h : lengthHe [0x04, 0x13, 0x00] = some n) :
    n ≤ [(0x04 : UInt8), 0x13, 0x00].length := by
  have hthree : lengthHe [0x04, 0x13, 0x00] = some 3 := by decide
  exact Nat.le_of_eq (Option.some.inj (h.symm.trans hthree))

def captureEvent : LogCall := .capture 0 [0x04, 0x13, 0x00] true ⟨0, 0, 0, 1⟩ 0 lengthHe_event

/-- A packet of the controller log. -/
def logPacket : List UInt8 := [0x07, 0xFF, 0x01, 0x00, 0x2A]

/-- Two threads find the btsnoop file open. The second captures its event first, and writes a packet to the
controller log while the first captures the other. -/
def threeCalls : List (PoolEvent Bool LogCall) :=
  [.call false captureEvent, .call true captureEvent] ++
    [false, true, true, true, true, true, true, true, true, true, true, true, true].map .step ++
    [.call true (.skwlogWrite logPacket rfl)] ++
    [false, true, false, true, true, false, true, true, false, true, false, false, false, false, false,
      false, false].map .step

def eventOp : SnoopOp := ⟨0, [0x04, 0x13, 0x00], true, ⟨0, 0, 0, 1⟩, 0, lengthHe_event⟩

/-- Its lock sections. -/
def threeSections : List (Performed LogOp Bool) :=
  [⟨true, .btsnoop, eventOp⟩, ⟨false, .btsnoop, eventOp⟩, ⟨true, .skwlog, .write logPacket rfl⟩]

/-- All three calls come to their end. -/
theorem exists_run_threeCalls : ∃ s : Pool LogObject LogOp Bool,
    PoolRun (LogCall.code slicesConfig) (logObjects slicesState) threeCalls threeSections s ∧
      (∀ m, s.owner m = none) ∧
      (s.object .skwlog : Skwlog).file =
        some (skwcplogHeader ++ timePacket ⟨0, 0, 0, 1⟩ ++ logPacket) ∧
      (s.object .btsnoop : Btsnoop).file =
        some (btsnoopHeader ++ be32 3 ++ be32 3 ++ be32 3 ++ be32 0 ++ be32 0 ++ be32 0 ++
          [0x04, 0x13, 0x00] ++ be32 3 ++ be32 3 ++ be32 3 ++ be32 0 ++ be32 0 ++ be32 0 ++
          [0x04, 0x13, 0x00]) := by
  have h := Execution.start.snoc (@PoolStep.call _ _ _ _ _ _ _ (LogCall.code slicesConfig)
    (Pool.start (logObjects slicesState)) false captureEvent rfl)
  have h := h.snoc (.call (i := true) captureEvent rfl)
  have h := (h.snoc (.read (i := false) rfl)).snoc (.read (i := true) rfl)
  -- the second thread's capture
  have h := (h.snoc (.lock (i := true) rfl rfl)).snoc (.write (i := true) rfl)
  have h := (h.snoc (.write (i := true) rfl)).snoc (.write (i := true) rfl)
  have h := (h.snoc (.write (i := true) rfl)).snoc (.write (i := true) rfl)
  have h := (h.snoc (.write (i := true) rfl)).snoc (.write (i := true) rfl)
  have h := (h.snoc (.write (i := true) rfl)).snoc (.read (i := true) rfl)
  have h := h.snoc (.unlock (i := true) rfl rfl)
  -- its packet, between the accesses of the first thread's capture
  have h := h.snoc (.call (i := true) (.skwlogWrite logPacket rfl) rfl)
  have h := (h.snoc (.lock (i := false) rfl rfl)).snoc (.read (i := true) rfl)
  have h := (h.snoc (.write (i := false) rfl)).snoc (.lock (i := true) rfl rfl)
  have h := (h.snoc (.write (i := true) rfl)).snoc (.write (i := false) rfl)
  have h := (h.snoc (.write (i := true) rfl)).snoc (.read (i := true) rfl)
  have h := (h.snoc (.write (i := false) rfl)).snoc (.unlock (i := true) rfl rfl)
  -- the rest of that capture
  have h := (h.snoc (.write (i := false) rfl)).snoc (.write (i := false) rfl)
  have h := (h.snoc (.write (i := false) rfl)).snoc (.write (i := false) rfl)
  have h := (h.snoc (.write (i := false) rfl)).snoc (.read (i := false) rfl)
  exact ⟨_, h.snoc (.unlock (i := false) rfl rfl), fun m => by cases m <;> rfl, rfl, rfl⟩

theorem logs_serialized_threeCalls : ∃ s : Pool LogObject LogOp Bool,
    PoolRun (LogCall.code slicesConfig) (logObjects slicesState) threeCalls threeSections s ∧
      (∀ m, s.object m = logReplay slicesConfig slicesState threeSections m) ∧
        ∀ i, (observed callOf i threeSections).Sublist (callsOf i threeCalls) := by
  obtain ⟨tr₀, run₀⟩ := logRun_slicesState
  obtain ⟨s, run, hfree, -⟩ := exists_run_threeCalls
  obtain ⟨hobject, hcalls⟩ := logs_serialized run₀ rfl run
  exact ⟨s, run, fun m => hobject m (hfree m), hcalls⟩

/-- **The log files never hang the threads.** As long as a thread is in a call, some thread can make a
step, and a thread makes at most 39 steps for each of its calls. -/
theorem logs_never_deadlock (run₀ : LogRun es₀ tr₀ s₀) (hsome : s₀.session = some cfg)
    (run : PoolRun (LogCall.code cfg) (logObjects s₀) es out s) :
    (∀ i, s.code i ≠ .ret → ∃ j o t, PoolStep (LogCall.code cfg) s (.step j) o t) ∧
      ∀ i, stepsOf i es ≤ 39 * (callsOf i es).length := by
  have hserial := serial_of_run (logsOpened_of_run run₀ hsome) run
  exact ⟨fun i hret => hserial.exists_step (LogCall.code cfg) hret, stepsOf_le run (within_code cfg)⟩

/-- The events of two threads that find the file open, where one of them takes the lock. -/
def twoCaptures : List (PoolEvent Bool LogCall) :=
  [.call false captureEvent, .call true captureEvent, .step false, .step true, .step true]

theorem exists_run_twoCaptures : ∃ out s,
    PoolRun (LogCall.code slicesConfig) (logObjects slicesState) twoCaptures out s := by
  have h₁ := Execution.start.snoc (@PoolStep.call _ _ _ _ _ _ _ (LogCall.code slicesConfig)
    (Pool.start (logObjects slicesState)) false captureEvent rfl)
  have h₂ := h₁.snoc (.call (i := true) captureEvent rfl)
  have h₃ := h₂.snoc (.read (i := false) rfl)
  have h₄ := h₃.snoc (.read (i := true) rfl)
  exact ⟨_, _, h₄.snoc (.lock (i := true) rfl rfl)⟩

theorem logs_never_deadlock_twoCaptures : ∃ out s,
    PoolRun (LogCall.code slicesConfig) (logObjects slicesState) twoCaptures out s ∧
      (∀ i, s.code i ≠ .ret → ∃ j o t, PoolStep (LogCall.code slicesConfig) s (.step j) o t) ∧
        ∀ i, stepsOf i twoCaptures ≤ 39 * (callsOf i twoCaptures).length := by
  obtain ⟨tr₀, run₀⟩ := logRun_slicesState
  obtain ⟨out, s, run⟩ := exists_run_twoCaptures
  exact ⟨out, s, run, logs_never_deadlock run₀ rfl run⟩

/-! ## The format of the files -/

/-- A record leaves the format as it is. -/
theorem BtsnoopOk.record {b : Btsnoop} {op : SnoopOp} {r : SnoopRecord} (h : BtsnoopOk b)
    (hr : skwBtsnoopCapture op.packet op.isReceived = some r) : BtsnoopOk (b.record r op.timestamp) := by
  by_cases hop : b.opened = true
  · have happ := h.append hop op.timestamp hr op.hmem
    unfold Btsnoop.append at happ
    unfold Btsnoop.record skwBtsnoopWrite
    rwa [if_pos hop]
  · unfold Btsnoop.record skwBtsnoopWrite
    rw [if_neg hop]
    exact ⟨h.log, fun hop' => absurd hop' hop⟩

/-- A capture that rotates the file finds a saved log longer than its header. -/
def CaptureOk (cfg : LogConfig) (op : SnoopOp) (b : Btsnoop) : Prop :=
  ∀ r, skwBtsnoopCapture op.packet op.isReceived = some r →
    btsnoopLimit ≤ (b.record r op.timestamp).revLength → SavedOk cfg (b.record r op.timestamp)

theorem captureLocked_ok {b : Btsnoop} {op : SnoopOp} (h : BtsnoopOk b) (hop : CaptureOk cfg op b) :
    BtsnoopOk (captureLocked cfg op b) := by
  unfold captureLocked
  rcases hr : skwBtsnoopCapture op.packet op.isReceived with - | r
  · exact h
  · have hrecord := h.record hr
    have hsaved := hop r hr
    dsimp only
    generalize b.record r op.timestamp = b' at hrecord hsaved ⊢
    unfold btsnoopRotate
    by_cases hfull : btsnoopLimit ≤ b'.revLength
    · rw [if_pos hfull]
      have hclosed : BtsnoopOk { b' with opened := false } := ⟨hrecord.log, fun hop => absurd hop (by simp)⟩
      by_cases hen : cfg.btsnoopLogEn = true
      · exact ((skwBtsnoopOpen_ok_iff op.errno hclosed rfl hen).mpr (hsaved hfull)).1
      · unfold skwBtsnoopOpen
        dsimp only
        rw [if_pos (.inr (Bool.eq_false_iff.mpr hen))]
        exact ⟨hrecord.log, fun hop => absurd hop (by simp)⟩
    · rw [if_neg hfull]
      exact hrecord

omit [DecidableEq ι] in
/-- The operations one after the other keep the format of the btsnoop file. -/
theorem btsnoopOk_logReplay (h : BtsnoopOk s₀.btsnoop)
    (hout : ∀ out₁ (i : ι) (op : SnoopOp) out₂, out = out₁ ++ ⟨i, .btsnoop, op⟩ :: out₂ →
      CaptureOk cfg op (logReplay cfg s₀ out₁ .btsnoop)) :
    BtsnoopOk (logReplay cfg s₀ out .btsnoop) := by
  induction out using List.reverseRecOn with
  | nil => exact h
  | append_singleton out p ih =>
    have hbefore := ih fun out₁ i op out₂ heq => hout out₁ i op (out₂ ++ [p]) (by simp [heq])
    obtain ⟨i, m, op⟩ := p
    unfold logReplay at hbefore ⊢
    rw [replay_append, replay_one]
    cases m with
    | btsnoop =>
      rw [Function.update_self]
      exact captureLocked_ok hbefore (hout out i op [] rfl)
    | skwlog =>
      rw [Function.update_of_ne (by simp)]
      exact hbefore

/-- Sessions that meet their condition leave the controller log in order. -/
theorem skwlogOk_of_run (run₀ : LogRun es₀ tr₀ s₀)
    (hok : ∀ is e js os t, es₀ = is ++ e :: js → LogRun is os t → SkwlogStepOk t e) :
    SkwlogOk s₀.skwlog := by
  have hinv : SkwlogOk s₀.skwlog ∧ SkwlogSession s₀ := by
    refine run₀.of_attempts (I := fun _ s => SkwlogOk s.skwlog ∧ SkwlogSession s)
      (G := fun _ s e => SkwlogStepOk s e) ?_ ?_ ?_
    · exact ⟨skwlogOk_of_closed rfl (by simp [LogState.initial, Skwlog.initial])
        (by simp [LogState.initial, Skwlog.initial]),
        fun hop => absurd hop (by simp [LogState.initial, Skwlog.initial])⟩
    · intro os t e o u ht hcond hstep
      exact ⟨skwlogStep_ok ht.1 ht.2 hstep hcond, ht.2.step hstep⟩
    · intro is e js os t hes hrun _
      exact hok is e js os t hes hrun
  exact hinv.1

/-- **The log files stay parseable under the threads.** After sessions that have kept the formats, and
however the threads of the running one interleave: whenever `skwlog_lock` is free, `skwlog.log` is a header
with whole packets behind it, of at most 1.5 GB and a header; whenever `btsnoop_log_lock` is, the btsnoop
file is a header with whole records, provided that no capture has rotated a saved log whose size in an
`int` was no more than a header. -/
theorem logs_parseable_threads (run₀ : LogRun es₀ tr₀ s₀) (hsome : s₀.session = some cfg)
    (hsnoop : ∀ is e js os t, es₀ = is ++ e :: js → LogRun is os t → SnoopStepOk t e)
    (hskwlog : ∀ is e js os t, es₀ = is ++ e :: js → LogRun is os t → SkwlogStepOk t e)
    (run : PoolRun (LogCall.code cfg) (logObjects s₀) es out s) :
    (s.owner .skwlog = none → ∀ content, (s.object .skwlog : Skwlog).file = some content →
        IsSkwlog content ∧ content.length ≤ skwlogLimit + 16) ∧
      ((∀ out₁ (i : ι) (op : SnoopOp) out₂, out = out₁ ++ ⟨i, .btsnoop, op⟩ :: out₂ →
          CaptureOk cfg op (logReplay cfg s₀ out₁ .btsnoop)) →
        s.owner .btsnoop = none → ∀ content, (s.object .btsnoop : Btsnoop).file = some content →
          IsBtsnoop content) := by
  have hserial := serial_of_run (logsOpened_of_run run₀ hsome) run
  constructor
  · intro hfree content hfile
    -- a free lock leaves what whole calls, one after another, have written
    obtain ⟨hobject, hinv⟩ := hserial.free .skwlog hfree
    have hmid : SkwlogMid (s.object .skwlog) := by
      rw [hobject]
      exact hinv.2 (skwlogOk_of_run run₀ hskwlog).toSkwlogMid
    exact ⟨hmid.log content hfile, hmid.size content hfile⟩
  · intro hout hfree content hfile
    have hparse := ((btsnoop_parseable_iff run₀).mpr hsnoop es₀ [] tr₀ s₀ (by simp) run₀).1
    have hsession : SnoopSession s₀ := by
      refine run₀.of_attempts (I := fun _ s => SnoopSession s) (G := fun _ _ _ => True) ?_ ?_ ?_
      · exact ⟨fun hop => absurd hop (by simp [LogState.initial, Btsnoop.initial]),
          fun hop => absurd hop (by simp [LogState.initial, Btsnoop.initial])⟩
      · exact fun os t e o u ht _ hstep => ht.step hstep
      · exact fun _ _ _ _ _ _ _ _ => trivial
    have hok : BtsnoopOk (logReplay cfg s₀ out .btsnoop) :=
      btsnoopOk_logReplay ⟨hparse, hsession.exists_file⟩ hout
    rw [(hserial.free .btsnoop hfree).1] at hfile
    exact hok.log content hfile

/-- A session that has met no file of an earlier one meets the conditions. -/
theorem firstSession_ok {cfg : LogConfig} {now : LocalTime} {errno : ℤ} {is js : List LogEvent}
    {e : LogEvent} {os : List (List UInt8 × Bool)} {t : LogState}
    (hes : [LogEvent.init cfg now errno] = is ++ e :: js) (hrun : LogRun is os t) :
    SnoopStepOk t e ∧ SkwlogStepOk t e := by
  rcases is with - | ⟨e', is⟩
  · obtain ⟨rfl, -⟩ := List.cons.inj hes
    obtain ⟨rfl, rfl⟩ := hrun.eq_of_nil
    exact ⟨fun _ _ content hfile => absurd hfile (by simp [LogState.initial, Btsnoop.initial]),
      fun _ _ content hfile => absurd hfile (by simp [LogState.initial, Skwlog.initial])⟩
  · exact absurd (List.cons.inj hes).2 (by simp)

/-- A btsnoop file far from its limit is not rotated. -/
theorem captureOk_eventOp {cfg : LogConfig} {b : Btsnoop} (h : b.revLength + 3 < btsnoopLimit) :
    CaptureOk cfg eventOp b := by
  intro r hr hfull
  have hthree : r.lengthHe = 3 := by
    have hevent : (skwBtsnoopCapture eventOp.packet eventOp.isReceived).map SnoopRecord.lengthHe =
        some 3 := by decide
    rw [hr] at hevent
    exact Option.some.inj hevent
  have hrev : (b.record r eventOp.timestamp).revLength = (b.revLength + 3) % 2 ^ 32 := by
    rw [Btsnoop.record, skwBtsnoopWrite, ← hthree]
    split <;> rfl
  rw [hrev, btsnoopLimit] at hfull
  rw [btsnoopLimit] at h
  omega

theorem captureOk_threeSections (out₁ : List (Performed LogOp Bool)) (i : Bool) (op : SnoopOp)
    (out₂ : List (Performed LogOp Bool)) (hout : threeSections = out₁ ++ ⟨i, .btsnoop, op⟩ :: out₂) :
    CaptureOk slicesConfig op (logReplay slicesConfig slicesState out₁ .btsnoop) := by
  rcases out₁ with - | ⟨p, - | ⟨q, - | ⟨r, out₁⟩⟩⟩
  · obtain ⟨hfirst, -⟩ := List.cons.inj hout
    cases hfirst
    exact captureOk_eventOp (by decide)
  · obtain ⟨hfirst, hrest⟩ := List.cons.inj hout
    obtain ⟨hsecond, -⟩ := List.cons.inj hrest
    cases hfirst
    cases hsecond
    exact captureOk_eventOp (by decide)
  · obtain ⟨-, hrest⟩ := List.cons.inj hout
    obtain ⟨-, hrest⟩ := List.cons.inj hrest
    obtain ⟨hthird, -⟩ := List.cons.inj hrest
    cases hthird
  · simp [threeSections] at hout

theorem logs_parseable_threads_threeCalls : ∃ s : Pool LogObject LogOp Bool,
    PoolRun (LogCall.code slicesConfig) (logObjects slicesState) threeCalls threeSections s ∧
      (∃ content, (s.object .skwlog : Skwlog).file = some content ∧ IsSkwlog content ∧
        content.length ≤ skwlogLimit + 16) ∧
      ∃ content, (s.object .btsnoop : Btsnoop).file = some content ∧ IsBtsnoop content := by
  obtain ⟨tr₀, run₀⟩ := logRun_slicesState
  obtain ⟨s, run, hfree, hskwlog, hsnoop⟩ := exists_run_threeCalls
  obtain ⟨hlog, hcaptures⟩ := logs_parseable_threads run₀ rfl
    (fun _ _ _ _ _ hes hrun => (firstSession_ok hes hrun).1)
    (fun _ _ _ _ _ hes hrun => (firstSession_ok hes hrun).2) run
  exact ⟨s, run, ⟨_, hskwlog, hlog (hfree .skwlog) _ hskwlog⟩,
    _, hsnoop, hcaptures captureOk_threeSections (hfree .btsnoop) _ hsnoop⟩

end Main

end Seekwave
