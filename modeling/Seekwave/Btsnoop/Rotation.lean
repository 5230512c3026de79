import Seekwave.Btsnoop.File

/-!
# Rotating the btsnoop file

`skw_btsnoop_open` with the file under the `.last` name, which the rotation of `skw_btsnoop_capture`
replaces. It takes `errno` for the result of a `rename` that has succeeded, and returns without a file
unless `errno` happens to be `ENOENT`: `btsnoop_rotation_iff` says exactly when logging goes on.
-/

open Memory

namespace Seekwave

/-! ## The files -/

/-- The file at `skw_btsnoop_path`, and what is in the file under the `.last` name. -/
structure SnoopFiles where
  log : Btsnoop
  last : Option (List UInt8)
deriving DecidableEq, Repr

/-- `errno` after `remove` of the file under the `.last` name: a file that is there is removed, which
leaves `errno`, or it is not, with the error `failure`. -/
def errnoOfRemove (failure : Option ℤ) (errno : ℤ) : Option (List UInt8) → ℤ
  | none => enoent
  | some _ => failure.getD errno

theorem errnoOfRemove_eq_enoent {failure : Option ℤ} {errno : ℤ} {last : Option (List UInt8)} :
    errnoOfRemove failure errno last = enoent ↔ last = none ∨ failure.getD errno = enoent := by
  cases last with
  | none => exact iff_of_true rfl (.inl rfl)
  | some _ => exact ⟨.inr, fun h => h.resolve_left nofun⟩

/-- The file that `skw_btsnoop_open` renames to the `.last` name. -/
def renamedToLast (cfg : LogConfig) (s : Btsnoop) : Option (List UInt8) :=
  if s.opened = true ∨ cfg.btsnoopLogEn = false then none
  else if cfg.btsnoopSaveLog = true then
    if cfg.skwlogSlice = true then
      s.file.filter fun content => decide ((btsnoopLimit : ℤ) < toInt32 content.length)
    else none
  else s.file

/-- `skw_btsnoop_open`. What `remove` leaves in `errno` is read in the branch that has called it only. -/
def skwBtsnoopOpenFiles (cfg : LogConfig) (errno : ℤ) (failure : Option ℤ) (s : SnoopFiles) :
    SnoopFiles where
  log := (skwBtsnoopOpen cfg (errnoOfRemove failure errno s.last) s.log).state
  last := (renamedToLast cfg s.log).or s.last

/-- `skw_btsnoop_capture` of the packet at the front of `packet`. -/
def skwBtsnoopCaptureFiles (cfg : LogConfig) (errno : ℤ) (failure : Option ℤ) (timestamp : ℕ)
    (packet : List UInt8) (isReceived : Bool) (s : SnoopFiles) : SnoopFiles :=
  if cfg.btsnoopLogEn = true ∧ s.log.opened = true then
    match skwBtsnoopCapture packet isReceived with
    | some r =>
      let t := { s with log := s.log.append r timestamp }
      if btsnoopLimit ≤ t.log.revLength then
        skwBtsnoopOpenFiles cfg errno failure { t with log := { t.log with opened := false } }
      else t
    | none => s
  else s

/-- The file at `skw_btsnoop_path` is the one of `skwBtsnoopCaptureFile`, with the `errno` that `remove`
leaves. -/
theorem log_skwBtsnoopCaptureFiles (cfg : LogConfig) (errno : ℤ) (failure : Option ℤ) (timestamp : ℕ)
    (packet : List UInt8) (isReceived : Bool) (s : SnoopFiles) :
    (skwBtsnoopCaptureFiles cfg errno failure timestamp packet isReceived s).log =
      (skwBtsnoopCaptureFile cfg (errnoOfRemove failure errno s.last) timestamp packet isReceived
        s.log).state := by
  rw [skwBtsnoopCaptureFiles, skwBtsnoopCaptureFile]
  split
  · rcases skwBtsnoopCapture packet isReceived with - | r
    · rfl
    · dsimp only
      rw [btsnoopRotate]
      split <;> rfl
  · rfl

/-! ## Opening a file in slices -/

section Slices

variable {cfg : LogConfig} {s : Btsnoop} {content : List UInt8}

/-- A file above the limit is renamed, and a new one opened if `errno` is `ENOENT`. -/
theorem skwBtsnoopOpen_large (errno : ℤ) (hen : cfg.btsnoopLogEn = true)
    (hsave : cfg.btsnoopSaveLog = true) (hslice : cfg.skwlogSlice = true) (hclosed : s.opened = false)
    (hfile : s.file = some content) (hlarge : (btsnoopLimit : ℤ) < toInt32 content.length) :
    skwBtsnoopOpen cfg errno s =
      if errno ≠ enoent then ⟨⟨none, false, 0⟩, none, none⟩
      else ⟨⟨some btsnoopHeader, true, 0⟩, some true, some ([], true)⟩ := by
  have hskip : ¬ (s.opened = true ∨ cfg.btsnoopLogEn = false) := by simp [hclosed, hen]
  rw [skwBtsnoopOpen, if_neg hskip, if_pos hsave]
  simp only [hfile, hslice, if_true, if_pos hlarge, hclosed]
  rfl

/-- A file up to the limit is appended to, and `btsnoop_rev_length` starts at its size. -/
theorem skwBtsnoopOpen_small (errno : ℤ) (hen : cfg.btsnoopLogEn = true)
    (hsave : cfg.btsnoopSaveLog = true) (hslice : cfg.skwlogSlice = true) (hclosed : s.opened = false)
    (hfile : s.file = some content) (hsmall : ¬ (btsnoopLimit : ℤ) < toInt32 content.length) :
    skwBtsnoopOpen cfg errno s =
      Btsnoop.openAppend ⟨some content, false, (toInt32 content.length % 2 ^ 32).toNat⟩
        (decide (toInt32 content.length ≤ 16)) (some (decide (toInt32 content.length ≤ 16))) := by
  have hskip : ¬ (s.opened = true ∨ cfg.btsnoopLogEn = false) := by simp [hclosed, hen]
  rw [skwBtsnoopOpen, if_neg hskip, if_pos hsave]
  simp only [hfile, hslice, if_true, if_neg hsmall, hclosed]

/-- Without a file, a new one is opened. -/
theorem skwBtsnoopOpen_missing (errno : ℤ) (hen : cfg.btsnoopLogEn = true)
    (hsave : cfg.btsnoopSaveLog = true) (hclosed : s.opened = false) (hfile : s.file = none) :
    (skwBtsnoopOpen cfg errno s).state = ⟨some btsnoopHeader, true, 0⟩ ∧
      (skwBtsnoopOpen cfg errno s).opening = some ([], true) := by
  have hskip : ¬ (s.opened = true ∨ cfg.btsnoopLogEn = false) := by simp [hclosed, hen]
  rw [skwBtsnoopOpen, if_neg hskip, if_pos hsave]
  simp only [hfile]
  exact ⟨rfl, rfl⟩

end Slices

/-! ## The rotation -/

/-- Logging goes on in a new file, and the full one is kept under the `.last` name. -/
structure Rotated (full : List UInt8) (t : SnoopFiles) : Prop where
  opened : t.log.opened = true
  file : t.log.file = some btsnoopHeader
  revLength : t.log.revLength = 0
  last : t.last = some full

/-- A stale `errno` makes `skw_btsnoop_open` return once it has renamed the file. -/
theorem log_skwBtsnoopOpenFiles_stale {cfg : LogConfig} {errno : ℤ} {failure : Option ℤ}
    {s : SnoopFiles} {full : List UInt8} (hen : cfg.btsnoopLogEn = true)
    (hsave : cfg.btsnoopSaveLog = true) (hslice : cfg.skwlogSlice = true)
    (hclosed : s.log.opened = false) (hfile : s.log.file = some full)
    (hlarge : (btsnoopLimit : ℤ) < toInt32 full.length)
    (herrno : errnoOfRemove failure errno s.last ≠ enoent) :
    (skwBtsnoopOpenFiles cfg errno failure s).log = ⟨none, false, 0⟩ := by
  unfold skwBtsnoopOpenFiles
  rw [skwBtsnoopOpen_large _ hen hsave hslice hclosed hfile hlarge, if_pos herrno]

/-- `skw_btsnoop_open` of a file that is closed to be rotated. -/
theorem rotated_skwBtsnoopOpenFiles_iff {cfg : LogConfig} {errno : ℤ} {failure : Option ℤ}
    {s : SnoopFiles} {full : List UInt8} (hen : cfg.btsnoopLogEn = true)
    (hsave : cfg.btsnoopSaveLog = true) (hslice : cfg.skwlogSlice = true)
    (hclosed : s.log.opened = false) (hfile : s.log.file = some full) (hlong : 16 < full.length) :
    Rotated full (skwBtsnoopOpenFiles cfg errno failure s) ↔
      (s.last = none ∨ failure.getD errno = enoent) ∧
        (btsnoopLimit : ℤ) < toInt32 full.length := by
  have hskip : ¬ (s.log.opened = true ∨ cfg.btsnoopLogEn = false) := by simp [hclosed, hen]
  rw [← errnoOfRemove_eq_enoent]
  by_cases hlarge : (btsnoopLimit : ℤ) < toInt32 full.length
  · -- the full file is renamed; whether a new one is opened is for `errno` to say
    have hrenamed : renamedToLast cfg s.log = some full := by
      rw [renamedToLast, if_neg hskip, if_pos hsave, if_pos hslice, hfile]
      exact Option.filter_some_pos (decide_eq_true hlarge)
    by_cases herrno : errnoOfRemove failure errno s.last = enoent
    · have hopen := skwBtsnoopOpen_large (errnoOfRemove failure errno s.last) hen hsave hslice
        hclosed hfile hlarge
      rw [if_neg (not_not.mpr herrno)] at hopen
      refine iff_of_true ⟨?_, ?_, ?_, ?_⟩ ⟨herrno, hlarge⟩
      · rw [skwBtsnoopOpenFiles, hopen]
      · rw [skwBtsnoopOpenFiles, hopen]
      · rw [skwBtsnoopOpenFiles, hopen]
      · rw [skwBtsnoopOpenFiles, hrenamed]
        rfl
    · -- the early return leaves no file
      refine iff_of_false (fun h => ?_) fun h => herrno h.1
      have hno := h.opened
      rw [log_skwBtsnoopOpenFiles_stale hen hsave hslice hclosed hfile hlarge herrno] at hno
      exact absurd hno nofun
  · -- the full file is opened again
    refine iff_of_false (fun h => ?_) fun h => hlarge h.2
    have hopen := skwBtsnoopOpen_small (errnoOfRemove failure errno s.last) hen hsave hslice hclosed
      hfile hlarge
    have hnew := h.file
    rw [skwBtsnoopOpenFiles, hopen] at hnew
    have hlen := congrArg List.length (Option.some.inj hnew)
    have hheader : btsnoopHeader.length = 16 := rfl
    split at hlen
    · rw [List.length_append, Option.getD_some] at hlen
      omega
    · rw [Option.getD_some] at hlen
      omega

/-- A capture that reaches the limit. -/
theorem skwBtsnoopCaptureFiles_full {cfg : LogConfig} {errno : ℤ} {failure : Option ℤ} {timestamp : ℕ}
    {packet : List UInt8} {isReceived : Bool} {s : SnoopFiles} {r : SnoopRecord}
    (hen : cfg.btsnoopLogEn = true) (hop : s.log.opened = true)
    (hr : skwBtsnoopCapture packet isReceived = some r)
    (hfull : btsnoopLimit ≤ (s.log.append r timestamp).revLength) :
    skwBtsnoopCaptureFiles cfg errno failure timestamp packet isReceived s =
      skwBtsnoopOpenFiles cfg errno failure
        ⟨{ s.log.append r timestamp with opened := false }, s.last⟩ := by
  rw [skwBtsnoopCaptureFiles, if_pos ⟨hen, hop⟩, hr]
  exact if_pos hfull

/-- **The rotation keeps logging, exactly when.** A capture with slices that makes `btsnoop_rev_length`
reach the limit leaves a new file open, with nothing but its header, and the full one under the `.last`
name, if and only if `errno` is `ENOENT` when the file is renamed (because `remove` has found no older
one, or by chance) and the size of the full file, in an `int`, is above the limit. -/
theorem btsnoop_rotation_iff {cfg : LogConfig} {errno : ℤ} {failure : Option ℤ} {timestamp : ℕ}
    {packet : List UInt8} {isReceived : Bool} {s : SnoopFiles} {r : SnoopRecord}
    (hen : cfg.btsnoopLogEn = true) (hsave : cfg.btsnoopSaveLog = true)
    (hslice : cfg.skwlogSlice = true) (hop : s.log.opened = true)
    (hr : skwBtsnoopCapture packet isReceived = some r)
    (hfull : btsnoopLimit ≤ (s.log.append r timestamp).revLength) :
    Rotated (s.log.file.getD [] ++ r.encode timestamp)
        (skwBtsnoopCaptureFiles cfg errno failure timestamp packet isReceived s) ↔
      (s.last = none ∨ failure.getD errno = enoent) ∧
        (btsnoopLimit : ℤ) < toInt32 ((s.log.file.getD []).length + (24 + r.bytes.length) : ℕ) := by
  have hlen : (s.log.file.getD [] ++ r.encode timestamp).length =
      (s.log.file.getD []).length + (24 + r.bytes.length) := by
    rw [List.length_append, r.length_encode]
  rw [skwBtsnoopCaptureFiles_full hen hop hr hfull]
  have h := @rotated_skwBtsnoopOpenFiles_iff cfg errno failure
    ⟨{ s.log.append r timestamp with opened := false }, s.last⟩ _ hen hsave hslice rfl rfl
    (by rw [hlen]; omega)
  rwa [hlen] at h

/-- Settings with slices. -/
def slicingConfig : LogConfig := ⟨true, false, true, true⟩

/-- A log of 1 GB that `skw_btsnoop_open` has found, and the file under the `.last` name. -/
def fullLog (last : Option (List UInt8)) : SnoopFiles :=
  ⟨⟨some (List.replicate btsnoopLimit 0), true, btsnoopLimit⟩, last⟩

/-- An event without parameters. -/
def shortEvent : List UInt8 := [4, 0, 0]

/-- The record of `shortEvent`. -/
def shortRecord : SnoopRecord := ⟨3, 3, shortEvent⟩

theorem skwBtsnoopCapture_shortEvent : skwBtsnoopCapture shortEvent true = some shortRecord := rfl

/-- The log with one event more is above the limit. -/
theorem limit_lt_fullLog (last : Option (List UInt8)) :
    (btsnoopLimit : ℤ) < toInt32 (((fullLog last).log.file.getD []).length +
      (24 + shortRecord.bytes.length) : ℕ) := by
  have hlen : ((fullLog last).log.file.getD []).length = 1073741824 := List.length_replicate
  rw [hlen, toInt32_of_lt (by decide)]
  decide

theorem btsnoop_rotation_first : Rotated
    ((fullLog none).log.file.getD [] ++ shortRecord.encode 0)
    (skwBtsnoopCaptureFiles slicingConfig 11 none 0 shortEvent true (fullLog none)) :=
  (btsnoop_rotation_iff rfl rfl rfl rfl skwBtsnoopCapture_shortEvent (by decide)).mpr
    ⟨.inl rfl, limit_lt_fullLog none⟩

/-- With an older file under the `.last` name and `EAGAIN` in `errno`, the rotation ends the log. -/
theorem btsnoop_rotation_stops :
    btsnoopLimit ≤ ((fullLog (some [])).log.append shortRecord 0).revLength ∧
      (skwBtsnoopCaptureFiles slicingConfig 11 none 0 shortEvent true (fullLog (some []))).log =
        ⟨none, false, 0⟩ := by
  have hfull : btsnoopLimit ≤ ((fullLog (some [])).log.append shortRecord 0).revLength := by decide
  refine ⟨hfull, ?_⟩
  rw [skwBtsnoopCaptureFiles_full rfl rfl skwBtsnoopCapture_shortEvent hfull]
  refine log_skwBtsnoopOpenFiles_stale rfl rfl rfl rfl rfl ?_ (by decide)
  rw [List.length_append, SnoopRecord.length_encode]
  exact limit_lt_fullLog _

end Seekwave
