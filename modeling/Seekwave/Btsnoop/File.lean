import Seekwave.Btsnoop.Record
import Seekwave.Skwlog.File

/-!
# The btsnoop file

`skw_btsnoop.c`: the format of the file, and when the file at `skw_btsnoop_path` is opened, renamed away,
appended to or given a header. As for `skwlog.log`, every call of the file system succeeds and a file
renamed away is not looked at again. `skw_btsnoop_open` also reopens the controller log; the model gives
the argument of that call (`SnoopOpened.skwlogReopen`).
-/

open Memory

namespace Seekwave

/-! ## The format -/

/-- `"btsnoop\\0\\0\\0\\0\\1\\0\\0\\x3\\xea"`. -/
def btsnoopHeader : List UInt8 :=
  [0x62, 0x74, 0x73, 0x6e, 0x6f, 0x6f, 0x70, 0, 0, 0, 0, 1, 0, 0, 0x03, 0xea]

/-- What is behind a record does not change its length. -/
theorem btsnoopFrame_stable {b : List UInt8} {n : ℕ} (c : List UInt8)
    (h : (if 24 ≤ b.length then some (24 + be32At b 4) else none) = some n) :
    (if 24 ≤ (b ++ c).length then some (24 + be32At (b ++ c) 4) else none) = some n := by
  split at h
  · next hb =>
    rw [if_pos (by rw [List.length_append]; omega), be32At_append_left (by omega)]
    exact h
  · cases h

theorem btsnoopFrame_pos {b : List UInt8} {n : ℕ}
    (h : (if 24 ≤ b.length then some (24 + be32At b 4) else none) = some n) : 0 < n := by
  split at h
  · obtain rfl := Option.some.inj h
    omega
  · cases h

/-- Whole records: 24 bytes, the included length in the second word, and as many bytes of packet. -/
def btsnoopFramer : Framer UInt8 where
  frameLen b := if 24 ≤ b.length then some (24 + be32At b 4) else none
  stable := @btsnoopFrame_stable
  pos := @btsnoopFrame_pos

theorem frameLen_btsnoopFramer (b : List UInt8) :
    btsnoopFramer.frameLen b = if 24 ≤ b.length then some (24 + be32At b 4) else none := rfl

/-- The file is a header with whole records behind it. -/
abbrev IsBtsnoop (content : List UInt8) : Prop := btsnoopFramer.IsLog btsnoopHeader content

/-- The writes of one record: length, length, flags, drops, the timestamp in two words, the packet. -/
def SnoopRecord.writes (r : SnoopRecord) (timestamp : ℕ) : List (List UInt8) :=
  [be32 r.lengthHe, be32 r.lengthHe, be32 r.flags, be32 0, be32 (timestamp / 2 ^ 32),
    be32 (timestamp % 2 ^ 32), r.bytes]

/-- The bytes of one record in the file. -/
def SnoopRecord.encode (r : SnoopRecord) (timestamp : ℕ) : List UInt8 := (r.writes timestamp).flatten

theorem SnoopRecord.length_encode (r : SnoopRecord) (timestamp : ℕ) :
    (r.encode timestamp).length = 24 + r.bytes.length := by
  simp only [encode, writes, List.flatten_cons, List.length_append, length_be32, List.flatten_nil,
    List.length_nil]
  omega

/-- A record whose length fits a word is a whole record of the file. -/
theorem SnoopRecord.isFrame_encode {r : SnoopRecord} (timestamp : ℕ)
    (hlen : r.bytes.length = r.lengthHe) (hfits : r.lengthHe < 2 ^ 32) :
    btsnoopFramer.IsFrame (r.encode timestamp) := by
  have hword : be32At (r.encode timestamp) 4 = r.lengthHe :=
    be32At_append hfits (be32 r.lengthHe) _ rfl
  rw [Framer.IsFrame, frameLen_btsnoopFramer, r.length_encode, if_pos (by omega), hword, hlen]

/-- A header that comes alone is not the beginning of a record. -/
theorem not_hasFrame_btsnoopHeader : ¬ btsnoopFramer.HasFrame btsnoopHeader := by
  rintro ⟨n, hn, -⟩
  rw [frameLen_btsnoopFramer, if_neg (by decide)] at hn
  cases hn

/-- `length_he` is at most that of an ACL or ISO packet with a payload of 65535 bytes. -/
theorem lengthHe_le {packet : List UInt8} {n : ℕ} (h : lengthHe packet = some n) : n ≤ 65540 := by
  have h₂ := (byteAt packet 2).toNat_lt
  have h₃ := (byteAt packet 3).toNat_lt
  have h₄ := (byteAt packet 4).toNat_lt
  simp only [lengthHe] at h
  repeat' split at h
  all_goals
    first
      | rw [Option.some.injEq] at h
        omega
      | cases h

/-- `length_he` fits seventeen bits. -/
theorem lengthHe_lt {packet : List UInt8} {n : ℕ} (h : lengthHe packet = some n) : n < 2 ^ 17 :=
  Nat.lt_of_le_of_lt (lengthHe_le h) (by decide)

/-! ## The functions -/

/-- The file at `skw_btsnoop_path`, whether `hci_btsnoop_fd` is open on it, and `btsnoop_rev_length`. -/
structure Btsnoop where
  file : Option (List UInt8)
  opened : Bool
  revLength : ℕ
deriving DecidableEq, Repr

/-- No file, and nothing opened. -/
def Btsnoop.initial : Btsnoop := ⟨none, false, 0⟩

/-- What a call leaves: the state, the argument of a call of `skwlog_reopen` it has made, and, if it has
opened the file, what was in the file and whether it has written a header. -/
structure SnoopOpened where
  state : Btsnoop
  skwlogReopen : Option Bool
  opening : Option (List UInt8 × Bool)
deriving DecidableEq, Repr

/-- `open` with `O_CREAT | O_APPEND`, and the header if `new_file` is set. -/
def Btsnoop.openAppend (s : Btsnoop) (newFile : Bool) (reopen : Option Bool) : SnoopOpened :=
  let content := s.file.getD []
  { state := { s with
      file := some (if newFile = true then content ++ btsnoopHeader else content), opened := true }
    skwlogReopen := reopen
    opening := some (content, newFile) }

/-- `ENOENT`. -/
def enoent : ℤ := 2

/-- The size at which the file is rotated, 1 GB. -/
def btsnoopLimit : ℕ := 1024 * 1024 * 1024

/-- `skw_btsnoop_open`, with the value of `errno`, which a `rename` that succeeds does not set. -/
def skwBtsnoopOpen (cfg : LogConfig) (errno : ℤ) (s : Btsnoop) : SnoopOpened :=
  let s := { s with revLength := 0 }
  if s.opened = true ∨ cfg.btsnoopLogEn = false then ⟨s, none, none⟩
  else if cfg.btsnoopSaveLog = true then
    match s.file with
    | some content =>
      let fileZie := toInt32 content.length
      if cfg.skwlogSlice = true then
        if (btsnoopLimit : ℤ) < fileZie then
          let s := { s with file := none }
          if errno ≠ enoent then ⟨s, none, none⟩ else s.openAppend true (some true)
        else
          let newFile := decide (fileZie ≤ 16)
          { s with revLength := (fileZie % 2 ^ 32).toNat }.openAppend newFile (some newFile)
      else if 16 < fileZie then { s with file := none }.openAppend true none
      else s.openAppend true none
    | none => s.openAppend true (if cfg.skwlogSlice = true then some true else none)
  else { s with file := none }.openAppend true none

/-- `skw_btsnoop_close`. -/
def skwBtsnoopClose (s : Btsnoop) : Btsnoop := { s with opened := false }

/-- The rest of `skw_btsnoop_capture`, once its record is in the file. -/
def btsnoopRotate (cfg : LogConfig) (errno : ℤ) (s : Btsnoop) : SnoopOpened :=
  if btsnoopLimit ≤ s.revLength then skwBtsnoopOpen cfg errno { s with opened := false }
  else ⟨s, none, none⟩

/-- The file with a record more. -/
def Btsnoop.append (s : Btsnoop) (r : SnoopRecord) (timestamp : ℕ) : Btsnoop :=
  { s with
    file := some (s.file.getD [] ++ r.encode timestamp)
    revLength := (s.revLength + r.lengthHe) % 2 ^ 32 }

/-- `skw_btsnoop_capture` of the packet at the front of `packet`. -/
def skwBtsnoopCaptureFile (cfg : LogConfig) (errno : ℤ) (timestamp : ℕ) (packet : List UInt8)
    (isReceived : Bool) (s : Btsnoop) : SnoopOpened :=
  if cfg.btsnoopLogEn = true ∧ s.opened = true then
    match skwBtsnoopCapture packet isReceived with
    | some r => btsnoopRotate cfg errno (s.append r timestamp)
    | none => ⟨s, none, none⟩
  else ⟨s, none, none⟩

/-! ## What keeps the format -/

/-- Between operations: the file has the format, and there is one if it is open. -/
structure BtsnoopOk (s : Btsnoop) : Prop where
  log : ∀ content, s.file = some content → IsBtsnoop content
  exists_file : s.opened = true → ∃ content, s.file = some content

/-- In the mode that saves the log, a file that `skw_btsnoop_open` finds is longer than its header, by
its size in an `int`. -/
def SavedOk (cfg : LogConfig) (s : Btsnoop) : Prop :=
  cfg.btsnoopSaveLog = true → ∀ content, s.file = some content → 16 < toInt32 content.length

/-- A header is written exactly into an empty or new file. -/
def HeaderOk (o : SnoopOpened) : Prop :=
  ∀ content header, o.opening = some (content, header) → (header = true ↔ content = [])

/-- A new file. -/
theorem openAppend_new {s : Btsnoop} (hnone : s.file = none) (reopen : Option Bool) :
    BtsnoopOk (s.openAppend true reopen).state ∧ HeaderOk (s.openAppend true reopen) := by
  refine ⟨⟨fun content h => ?_, fun _ => ⟨_, rfl⟩⟩, fun content header h => ?_⟩
  · have hfile : some (s.file.getD [] ++ btsnoopHeader) = some content := h
    rw [hnone] at hfile
    exact Option.some.inj hfile ▸ Framer.isLog_header ..
  · obtain ⟨rfl, rfl⟩ := Prod.mk.inj (Option.some.inj h)
    rw [hnone]
    exact iff_of_true rfl rfl

/-- A file that has the format, opened without a header. -/
theorem openAppend_old {s : Btsnoop} {content : List UInt8} (hfile : s.file = some content)
    (hlog : IsBtsnoop content) (reopen : Option Bool) :
    BtsnoopOk (s.openAppend false reopen).state ∧ HeaderOk (s.openAppend false reopen) := by
  have hne : content ≠ [] := by
    rintro rfl
    exact absurd hlog.length_le (by decide)
  refine ⟨⟨fun c h => ?_, fun _ => ⟨_, rfl⟩⟩, fun c header h => ?_⟩
  · have hsame : some (s.file.getD []) = some c := h
    rw [hfile] at hsame
    exact Option.some.inj hsame ▸ hlog
  · obtain ⟨rfl, rfl⟩ := Prod.mk.inj (Option.some.inj h)
    rw [hfile]
    exact iff_of_false (by simp) hne

/-- A file that has the format, opened with a header. -/
theorem openAppend_twice {s : Btsnoop} {content : List UInt8} (hfile : s.file = some content)
    (hlog : IsBtsnoop content) (reopen : Option Bool) :
    ¬ BtsnoopOk (s.openAppend true reopen).state := by
  intro h
  refine hlog.not_append not_hasFrame_btsnoopHeader (by decide) (h.log _ ?_)
  show some (s.file.getD [] ++ btsnoopHeader) = _
  rw [hfile]
  rfl

/-- **Opening, exactly when.** From a file that has the format, `skw_btsnoop_open` leaves one, with a
header written exactly into an empty or new file, if and only if a saved log is longer than its
header. -/
theorem skwBtsnoopOpen_ok_iff {cfg : LogConfig} {s : Btsnoop} (errno : ℤ) (h : BtsnoopOk s)
    (hclosed : s.opened = false) (hen : cfg.btsnoopLogEn = true) :
    BtsnoopOk (skwBtsnoopOpen cfg errno s).state ∧ HeaderOk (skwBtsnoopOpen cfg errno s) ↔
      SavedOk cfg s := by
  have hskip : ¬ (s.opened = true ∨ cfg.btsnoopLogEn = false) := by simp [hclosed, hen]
  have hmissing : BtsnoopOk ⟨none, s.opened, 0⟩ := by
    refine ⟨fun content hfile => ?_, fun hop => ?_⟩
    · cases hfile
    · cases hclosed.symm.trans hop
  rw [skwBtsnoopOpen, if_neg hskip, SavedOk]
  by_cases hsave : cfg.btsnoopSaveLog = true
  · rw [if_pos hsave]
    rcases hfile : s.file with - | content
    · exact iff_of_true (openAppend_new rfl _) (by simp)
    · have hlog := h.log content hfile
      have hcond : (cfg.btsnoopSaveLog = true → ∀ c, some content = some c →
          16 < toInt32 c.length) ↔ 16 < toInt32 content.length :=
        ⟨fun hc => hc hsave _ rfl, fun hc _ _ heq => Option.some.inj heq ▸ hc⟩
      rw [hcond]
      dsimp only
      by_cases hlong : 16 < toInt32 content.length
      · -- a saved log that is longer than its header is renamed away, or goes on
        refine iff_of_true ?_ hlong
        by_cases hslice : cfg.skwlogSlice = true
        · rw [if_pos hslice]
          split
          · split
            · exact ⟨hmissing, by simp [HeaderOk]⟩
            · exact openAppend_new rfl _
          · rw [decide_eq_false (Int.not_le.mpr hlong)]
            exact openAppend_old rfl hlog _
        · rw [if_neg hslice, if_pos hlong]
          exact openAppend_new rfl _
      · -- a second header is put behind the first
        refine iff_of_false (fun hok => ?_) hlong
        by_cases hslice : cfg.skwlogSlice = true
        · rw [if_pos hslice, if_neg (by rw [btsnoopLimit]; omega),
            decide_eq_true (Int.not_lt.mp hlong)] at hok
          exact openAppend_twice rfl hlog _ hok.1
        · rw [if_neg hslice, if_neg hlong] at hok
          exact openAppend_twice rfl hlog _ hok.1
  · rw [if_neg hsave]
    exact iff_of_true (openAppend_new rfl _) fun hsave' => absurd hsave' hsave

/-- A record more keeps the format. -/
theorem BtsnoopOk.append {s : Btsnoop} {packet : List UInt8} {isReceived : Bool} {r : SnoopRecord}
    (h : BtsnoopOk s) (hop : s.opened = true) (timestamp : ℕ)
    (hr : skwBtsnoopCapture packet isReceived = some r)
    (hmem : ∀ n, lengthHe packet = some n → n ≤ packet.length) : BtsnoopOk (s.append r timestamp) := by
  obtain ⟨content, hfile⟩ := h.exists_file hop
  obtain ⟨n, hn, rfl⟩ := Option.map_eq_some_iff.mp hr
  have hlt := lengthHe_lt hn
  have hlen : (packet.take n).length = n := List.length_take_of_le (hmem n hn)
  have hframe := SnoopRecord.isFrame_encode (r := ⟨n, snoopFlags packet isReceived, packet.take n⟩)
    timestamp hlen (by show n < 2 ^ 32; omega)
  refine ⟨fun c hc => ?_, fun _ => ⟨_, rfl⟩⟩
  have hc' : some (s.file.getD [] ++ _) = some c := hc
  rw [hfile] at hc'
  exact Option.some.inj hc' ▸ (h.log content hfile).append hframe

end Seekwave
