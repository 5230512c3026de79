import Seekwave.Btsnoop.File
import Seekwave.Lib.Execution

/-!
# The log files over driver sessions

`init` and `cleanup` of `bt_vendor_skw.c` as far as the two log files go, with the captures and the writes
to the controller log in between, over any number of sessions with settings of their own.

A log to which a session has added nothing but what opening it writes is the dangerous one: the next
session takes it for new and puts a second header behind the first. `btsnoop_parseable_iff` and
`skwlog_parseable_iff` say exactly which sessions do so.
-/

open Memory

namespace Seekwave

/-! ## Sessions -/

/-- The two log files, and the settings of the session that is running. -/
structure LogState where
  session : Option LogConfig
  btsnoop : Btsnoop
  skwlog : Skwlog

/-- Before the first session. -/
def LogState.initial : LogState := ⟨none, .initial, .initial⟩

/-- The operations on the log files, with the settings read by `init`, the time, and the value of
`errno`. -/
inductive LogEvent
  | init (cfg : LogConfig) (now : LocalTime) (errno : ℤ)
  | capture (timestamp : ℕ) (packet : List UInt8) (isReceived : Bool) (now : LocalTime) (errno : ℤ)
  | skwlogWrite (buffer : List UInt8)
  | cleanup

/-- The controller log after the call of `skwlog_reopen` that an operation on the other file makes. -/
def reopened (cfg : LogConfig) (now : LocalTime) (call : Option Bool) (k : Skwlog) : Skwlog :=
  call.elim k fun newFile => skwlogReopen cfg newFile now k

/-- The state after an operation on the btsnoop file. -/
def LogState.after (s : LogState) (cfg : LogConfig) (now : LocalTime) (o : SnoopOpened) : LogState :=
  { s with btsnoop := o.state, skwlog := reopened cfg now o.skwlogReopen s.skwlog }

/-- `init` opens the btsnoop file if it is to be written. -/
def initBtsnoop (cfg : LogConfig) (errno : ℤ) (s : Btsnoop) : SnoopOpened :=
  if cfg.btsnoopLogEn = true then skwBtsnoopOpen cfg errno s else ⟨s, none, none⟩

/-- One operation, with the openings of the btsnoop file it makes: what was in the file, and whether a
header was written. A packet to capture lies in memory up to the length computed for it; the controller
log is given whole packets. -/
inductive LogStep : LogState → LogEvent → List (List UInt8 × Bool) → LogState → Prop
  | init {s : LogState} (cfg : LogConfig) (now : LocalTime) (errno : ℤ) (hnone : s.session = none) :
      LogStep s (.init cfg now errno) (initBtsnoop cfg errno s.btsnoop).opening.toList
        ({ s with session := some cfg, skwlog := skwlogInit cfg now s.skwlog }.after cfg now
          (initBtsnoop cfg errno s.btsnoop))
  | capture {s : LogState} {cfg : LogConfig} (timestamp : ℕ) (packet : List UInt8) (isReceived : Bool)
      (now : LocalTime) (errno : ℤ) (hsome : s.session = some cfg)
      (hmem : ∀ n, lengthHe packet = some n → n ≤ packet.length) :
      LogStep s (.capture timestamp packet isReceived now errno)
        (skwBtsnoopCaptureFile cfg errno timestamp packet isReceived s.btsnoop).opening.toList
        (s.after cfg now (skwBtsnoopCaptureFile cfg errno timestamp packet isReceived s.btsnoop))
  | skwlogWrite {s : LogState} {cfg : LogConfig} (buffer : List UInt8) (hsome : s.session = some cfg)
      (hpacket : skwlogFramer.IsFrame buffer) :
      LogStep s (.skwlogWrite buffer) [] { s with skwlog := skwlogWrite cfg buffer s.skwlog }
  | cleanup {s : LogState} {cfg : LogConfig} (hsome : s.session = some cfg) :
      LogStep s .cleanup []
        { session := none
          btsnoop := if cfg.btsnoopLogEn = true then skwBtsnoopClose s.btsnoop else s.btsnoop
          skwlog := skwlogClose s.skwlog }

/-- The runs from no existing file, with the openings of the btsnoop file on the way. -/
abbrev LogRun : List LogEvent → List (List UInt8 × Bool) → LogState → Prop :=
  Execution LogStep .initial

theorem LogStep.det ⦃s : LogState⦄ ⦃e : LogEvent⦄ ⦃os : List (List UInt8 × Bool)⦄ ⦃t : LogState⦄
    ⦃os' : List (List UInt8 × Bool)⦄ ⦃t' : LogState⦄ (h : LogStep s e os t) (h' : LogStep s e os' t') :
    os = os' ∧ t = t' := by
  cases h with
  | init _ _ _ _ => cases h'; exact ⟨rfl, rfl⟩
  | capture _ _ _ _ _ hsome _ =>
    cases h' with
    | capture _ _ _ _ _ hsome' _ =>
      obtain rfl := Option.some.inj (hsome.symm.trans hsome')
      exact ⟨rfl, rfl⟩
  | skwlogWrite _ hsome _ =>
    cases h' with
    | skwlogWrite _ hsome' _ =>
      obtain rfl := Option.some.inj (hsome.symm.trans hsome')
      exact ⟨rfl, rfl⟩
  | cleanup hsome =>
    cases h' with
    | cleanup hsome' =>
      obtain rfl := Option.some.inj (hsome.symm.trans hsome')
      exact ⟨rfl, rfl⟩

/-! ## The btsnoop file -/

/-- `skw_btsnoop_open` leaves a file if it is asked with one or closed. -/
theorem exists_file_skwBtsnoopOpen {cfg : LogConfig} {errno : ℤ} {s : Btsnoop}
    (h : s.opened = true → ∃ content, s.file = some content) :
    (skwBtsnoopOpen cfg errno s).state.opened = true →
      ∃ content, (skwBtsnoopOpen cfg errno s).state.file = some content := by
  rw [skwBtsnoopOpen]
  split
  · exact h
  · next hskip =>
    have hclosed : ¬ s.opened = true := fun hop => hskip (.inl hop)
    split
    · rcases hfile : s.file with - | content
      · exact fun _ => ⟨_, rfl⟩
      · dsimp only
        split
        · split
          · split
            · exact fun hop => absurd hop hclosed
            · exact fun _ => ⟨_, rfl⟩
          · exact fun _ => ⟨_, rfl⟩
        · split
          · exact fun _ => ⟨_, rfl⟩
          · exact fun _ => ⟨_, rfl⟩
    · exact fun _ => ⟨_, rfl⟩

/-- What every run keeps of the btsnoop file, whatever its content: when it is open, there is a file and
the session logs to it. -/
structure SnoopSession (s : LogState) : Prop where
  exists_file : s.btsnoop.opened = true → ∃ content, s.btsnoop.file = some content
  enabled : s.btsnoop.opened = true → ∃ cfg, s.session = some cfg ∧ cfg.btsnoopLogEn = true

/-- The condition on an operation that opens the btsnoop file: a saved log it finds is longer than its
header, by its size in an `int`. `init` opens the file, and so does a capture that makes
`btsnoop_rev_length` reach 1 GB. -/
def SnoopStepOk (s : LogState) : LogEvent → Prop
  | .init cfg _ _ => cfg.btsnoopLogEn = true → SavedOk cfg s.btsnoop
  | .capture timestamp packet isReceived _ _ => ∀ cfg r, s.session = some cfg →
      s.btsnoop.opened = true → skwBtsnoopCapture packet isReceived = some r →
      btsnoopLimit ≤ (s.btsnoop.append r timestamp).revLength →
      SavedOk cfg (s.btsnoop.append r timestamp)
  | .skwlogWrite _ | .cleanup => True

/-- The openings of a call are right exactly if they all are. -/
theorem headerOk_iff (o : SnoopOpened) :
    HeaderOk o ↔ ∀ x ∈ o.opening.toList, x.2 = true ↔ x.1 = [] := by
  rw [HeaderOk]
  rcases o.opening with - | ⟨content, header⟩
  · simp
  · constructor
    · intro h x hx
      obtain rfl := List.mem_singleton.mp hx
      exact h _ _ rfl
    · intro h c b heq
      obtain ⟨rfl, rfl⟩ := Prod.mk.inj (Option.some.inj heq)
      exact h _ (List.mem_singleton_self _)

/-- A call that does not open the file. -/
theorem headerOk_of_none {o : SnoopOpened} (h : o.opening = none) : HeaderOk o :=
  fun _ _ heq => absurd (h.symm.trans heq) nofun

/-- A capture keeps the format exactly if the rotation that may follow it finds a file it can handle. -/
theorem skwBtsnoopCaptureFile_ok_iff {s : LogState} {cfg : LogConfig} {timestamp : ℕ}
    {packet : List UInt8} {isReceived : Bool} {now : LocalTime} {errno : ℤ} (h : BtsnoopOk s.btsnoop)
    (hs : SnoopSession s) (hsome : s.session = some cfg)
    (hmem : ∀ n, lengthHe packet = some n → n ≤ packet.length) :
    BtsnoopOk (skwBtsnoopCaptureFile cfg errno timestamp packet isReceived s.btsnoop).state ∧
        HeaderOk (skwBtsnoopCaptureFile cfg errno timestamp packet isReceived s.btsnoop) ↔
      SnoopStepOk s (.capture timestamp packet isReceived now errno) := by
  have hcond : ∀ r, skwBtsnoopCapture packet isReceived = some r →
      (SnoopStepOk s (.capture timestamp packet isReceived now errno) ↔
        (s.btsnoop.opened = true → btsnoopLimit ≤ (s.btsnoop.append r timestamp).revLength →
          SavedOk cfg (s.btsnoop.append r timestamp))) := by
    intro r hr
    refine ⟨fun hok hop hfull => hok cfg r hsome hop hr hfull, fun hok cfg' r' hs' hop hr' hfull => ?_⟩
    obtain rfl := Option.some.inj (hsome.symm.trans hs')
    obtain rfl := Option.some.inj (hr.symm.trans hr')
    exact hok hop hfull
  rw [skwBtsnoopCaptureFile]
  by_cases hop : s.btsnoop.opened = true
  · obtain ⟨cfg', hsome', hen⟩ := hs.enabled hop
    obtain rfl := Option.some.inj (hsome.symm.trans hsome')
    rw [if_pos ⟨hen, hop⟩]
    rcases hr : skwBtsnoopCapture packet isReceived with - | r
    · exact iff_of_true ⟨h, headerOk_of_none rfl⟩ fun _ _ _ _ hr' => absurd (hr.symm.trans hr') nofun
    · rw [hcond r hr]
      dsimp only
      rw [btsnoopRotate]
      have happ := h.append hop timestamp hr hmem
      -- only a capture that reaches the limit opens the file again
      by_cases hfull : btsnoopLimit ≤ (s.btsnoop.append r timestamp).revLength
      · rw [if_pos hfull]
        have hclosed : BtsnoopOk { s.btsnoop.append r timestamp with opened := false } :=
          ⟨happ.log, nofun⟩
        rw [skwBtsnoopOpen_ok_iff errno hclosed rfl hen]
        exact ⟨fun hok _ _ => hok, fun hok => hok hop hfull⟩
      · rw [if_neg hfull]
        exact iff_of_true ⟨happ, headerOk_of_none rfl⟩ fun _ hfull' => absurd hfull' hfull
  · rw [if_neg fun hboth => hop hboth.2]
    exact iff_of_true ⟨h, headerOk_of_none rfl⟩ fun _ _ _ hop' => absurd hop' hop

/-- What a capture leaves open was open before, and is a file. -/
theorem opened_skwBtsnoopCaptureFile {cfg : LogConfig} {errno : ℤ} {timestamp : ℕ}
    {packet : List UInt8} {isReceived : Bool} {s : Btsnoop}
    (h : s.opened = true → ∃ content, s.file = some content)
    (hop : (skwBtsnoopCaptureFile cfg errno timestamp packet isReceived s).state.opened = true) :
    s.opened = true ∧ ∃ content,
      (skwBtsnoopCaptureFile cfg errno timestamp packet isReceived s).state.file = some content := by
  rw [skwBtsnoopCaptureFile] at hop ⊢
  split at hop
  · next hen =>
    rw [if_pos hen]
    refine ⟨hen.2, ?_⟩
    rcases hr : skwBtsnoopCapture packet isReceived with - | r
    · exact h hen.2
    · rw [hr] at hop
      dsimp only at hop ⊢
      rw [btsnoopRotate] at hop ⊢
      split at hop
      · next hfull =>
        rw [if_pos hfull]
        exact exists_file_skwBtsnoopOpen nofun hop
      · next hfull =>
        rw [if_neg hfull]
        exact ⟨_, rfl⟩
  · next hen =>
    rw [if_neg hen]
    exact ⟨hop, h hop⟩

/-- **Step lemma.** Every operation keeps `SnoopSession`. -/
theorem SnoopSession.step {s t : LogState} {e : LogEvent} {os : List (List UInt8 × Bool)}
    (h : SnoopSession s) (hstep : LogStep s e os t) : SnoopSession t := by
  cases hstep with
  | init cfg now errno hnone =>
    -- between sessions the file is closed
    have hclosed : ¬ s.btsnoop.opened = true := by
      intro hop
      obtain ⟨cfg', hsome, -⟩ := h.enabled hop
      exact absurd (hnone.symm.trans hsome) nofun
    by_cases hen : cfg.btsnoopLogEn = true
    · refine ⟨fun hop => ?_, fun _ => ⟨cfg, rfl, hen⟩⟩
      show ∃ content, (initBtsnoop cfg errno s.btsnoop).state.file = some content
      have hop' : (initBtsnoop cfg errno s.btsnoop).state.opened = true := hop
      rw [initBtsnoop, if_pos hen] at hop' ⊢
      exact exists_file_skwBtsnoopOpen h.exists_file hop'
    · have hstate : (initBtsnoop cfg errno s.btsnoop).state = s.btsnoop := by
        rw [initBtsnoop, if_neg hen]
      have hclosed' : ¬ (initBtsnoop cfg errno s.btsnoop).state.opened = true := by rwa [hstate]
      exact ⟨fun hop => absurd hop hclosed', fun hop => absurd hop hclosed'⟩
  | capture timestamp packet isReceived now errno hsome hmem =>
    exact ⟨fun hop => (opened_skwBtsnoopCaptureFile h.exists_file hop).2,
      fun hop => h.enabled (opened_skwBtsnoopCaptureFile h.exists_file hop).1⟩
  | skwlogWrite buffer hsome hpacket => exact ⟨h.exists_file, h.enabled⟩
  | @cleanup cfg hsome =>
    have hclosed : ¬ (if cfg.btsnoopLogEn = true then skwBtsnoopClose s.btsnoop
        else s.btsnoop).opened = true := by
      by_cases hen : cfg.btsnoopLogEn = true
      · rw [if_pos hen]
        exact nofun
      · rw [if_neg hen]
        intro hop
        obtain ⟨cfg', hsome', hen'⟩ := h.enabled hop
        obtain rfl := Option.some.inj (hsome.symm.trans hsome')
        exact hen hen'
    exact ⟨fun hop => absurd hop hclosed, fun hop => absurd hop hclosed⟩

/-- The btsnoop file, if there is one, has the format. -/
def SnoopParseable (s : LogState) : Prop := ∀ content, s.btsnoop.file = some content → IsBtsnoop content

/-- **Step lemma.** An operation keeps the format, with headers written exactly into empty or new files,
if and only if it meets its condition. -/
theorem snoopStep_iff {s t : LogState} {e : LogEvent} {os : List (List UInt8 × Bool)}
    (hs : SnoopSession s) (hlog : SnoopParseable s) (hstep : LogStep s e os t) :
    (SnoopParseable t ∧ ∀ x ∈ os, x.2 = true ↔ x.1 = []) ↔ SnoopStepOk s e := by
  have hok : BtsnoopOk s.btsnoop := ⟨hlog, hs.exists_file⟩
  have ht := hs.step hstep
  have hparse : SnoopParseable t ↔ BtsnoopOk t.btsnoop :=
    ⟨fun h => ⟨h, ht.exists_file⟩, fun h => h.log⟩
  rw [hparse]
  -- only `init` and a capture that rotates open the file
  cases hstep with
  | init cfg now errno hnone =>
    have hclosed : s.btsnoop.opened = false := by
      rw [Bool.eq_false_iff]
      intro hop
      obtain ⟨cfg', hsome, -⟩ := hs.enabled hop
      exact absurd (hnone.symm.trans hsome) nofun
    show BtsnoopOk (initBtsnoop cfg errno s.btsnoop).state ∧ _ ↔
      (cfg.btsnoopLogEn = true → SavedOk cfg s.btsnoop)
    rw [← headerOk_iff, initBtsnoop]
    by_cases hen : cfg.btsnoopLogEn = true
    · rw [if_pos hen, skwBtsnoopOpen_ok_iff errno hok hclosed hen]
      exact ⟨fun h _ => h, fun h => h hen⟩
    · rw [if_neg hen]
      exact iff_of_true ⟨hok, headerOk_of_none rfl⟩ fun hen' => absurd hen' hen
  | capture timestamp packet isReceived now errno hsome hmem =>
    rw [← headerOk_iff]
    exact skwBtsnoopCaptureFile_ok_iff hok hs hsome hmem
  | skwlogWrite buffer hsome hpacket => exact iff_of_true ⟨hok, by simp⟩ trivial
  | @cleanup cfg hsome =>
    refine iff_of_true ⟨⟨fun content hfile => hlog content ?_, ht.exists_file⟩, by simp⟩ trivial
    by_cases hen : cfg.btsnoopLogEn = true
    · rwa [if_pos hen] at hfile
    · rwa [if_neg hen] at hfile

/-- **The btsnoop file stays parseable, exactly when.** Over any sessions with any settings, from no
existing file, the file is a header with whole records behind it at all times between operations, and a
header is written exactly into an empty or new file, if and only if no operation opens a saved log that
is no longer than its header or whose size does not fit an `int`. -/
theorem btsnoop_parseable_iff {es : List LogEvent} {tr : List (List UInt8 × Bool)} {s : LogState}
    (run : LogRun es tr s) :
    (∀ is js os t, es = is ++ js → LogRun is os t →
        SnoopParseable t ∧ ∀ x ∈ os, x.2 = true ↔ x.1 = []) ↔
      ∀ is e js os t, es = is ++ e :: js → LogRun is os t → SnoopStepOk t e :=
  run.always_iff LogStep.det ⟨nofun, nofun⟩ nofun
    (fun _ _ _ _ hs hlog hstep => snoopStep_iff hs hlog hstep)
    fun _ _ _ _ hs _ hstep _ => hs.step hstep

/-- A session that saves the btsnoop log and keeps no controller log. -/
def savingConfig : LogConfig := ⟨true, false, true, false⟩

/-- Two sessions without a capture. -/
def idleSessions (cfg : LogConfig) : List LogEvent :=
  [.init cfg ⟨0, 0, 0, 1⟩ 0, .cleanup, .init cfg ⟨0, 0, 0, 1⟩ 0]

theorem logRun_idleSessions (cfg : LogConfig) : ∃ tr s, LogRun (idleSessions cfg) tr s := by
  have h₁ : LogRun [.init cfg ⟨0, 0, 0, 1⟩ 0] _ _ := Execution.start.snoc (.init cfg ⟨0, 0, 0, 1⟩ 0 rfl)
  have h₂ := h₁.snoc (.cleanup rfl)
  exact ⟨_, _, h₂.snoc (.init cfg ⟨0, 0, 0, 1⟩ 0 rfl)⟩

theorem btsnoop_parseable_iff_idle : ∃ tr s, LogRun (idleSessions savingConfig) tr s ∧
    ((∀ is js os t, idleSessions savingConfig = is ++ js → LogRun is os t →
        SnoopParseable t ∧ ∀ x ∈ os, x.2 = true ↔ x.1 = []) ↔
      ∀ is e js os t, idleSessions savingConfig = is ++ e :: js → LogRun is os t →
        SnoopStepOk t e) := by
  obtain ⟨tr, s, run⟩ := logRun_idleSessions savingConfig
  exact ⟨tr, s, run, btsnoop_parseable_iff run⟩

/-- The file left by the second of two sessions without a capture is two headers. -/
theorem btsnoop_header_twice : ∃ tr s, LogRun (idleSessions savingConfig) tr s ∧ ¬ SnoopParseable s := by
  have h₁ : LogRun [.init savingConfig ⟨0, 0, 0, 1⟩ 0] _ _ :=
    Execution.start.snoc (.init savingConfig ⟨0, 0, 0, 1⟩ 0 rfl)
  have h₂ := h₁.snoc (.cleanup rfl)
  refine ⟨_, _, h₂.snoc (.init savingConfig ⟨0, 0, 0, 1⟩ 0 rfl), fun hparse => ?_⟩
  have hlog : IsBtsnoop (btsnoopHeader ++ btsnoopHeader) := hparse _ (by decide)
  exact (Framer.isLog_header btsnoopFramer btsnoopHeader).not_append not_hasFrame_btsnoopHeader
    (by decide) hlog

/-! ## The controller log -/

/-- Only a session with slices has `skw_btsnoop_open` reopen the controller log. -/
theorem slice_of_skwlogReopen {cfg : LogConfig} {errno : ℤ} {s : Btsnoop} {b : Bool}
    (h : (skwBtsnoopOpen cfg errno s).skwlogReopen = some b) : cfg.skwlogSlice = true := by
  rcases hslice : cfg.skwlogSlice with - | -
  · have hnone : (skwBtsnoopOpen cfg errno s).skwlogReopen = none := by
      rw [skwBtsnoopOpen, hslice]
      split
      · rfl
      · split
        · rcases hfile : s.file with - | content
          · rfl
          · dsimp only
            rw [if_neg (by simp)]
            split <;> rfl
        · rfl
    cases hnone.symm.trans h
  · rfl

/-- So it is for the call that a capture makes. -/
theorem slice_of_capture {cfg : LogConfig} {errno : ℤ} {timestamp : ℕ} {packet : List UInt8}
    {isReceived : Bool} {s : Btsnoop} {b : Bool}
    (h : (skwBtsnoopCaptureFile cfg errno timestamp packet isReceived s).skwlogReopen = some b) :
    cfg.skwlogSlice = true := by
  rw [skwBtsnoopCaptureFile] at h
  split at h
  · rcases hr : skwBtsnoopCapture packet isReceived with - | r
    · rw [hr] at h
      exact absurd h nofun
    · rw [hr] at h
      dsimp only at h
      rw [btsnoopRotate] at h
      split at h
      · exact slice_of_skwlogReopen h
      · exact absurd h nofun
  · exact absurd h nofun

theorem slice_of_initBtsnoop {cfg : LogConfig} {errno : ℤ} {s : Btsnoop} {b : Bool}
    (h : (initBtsnoop cfg errno s).skwlogReopen = some b) : cfg.skwlogSlice = true := by
  rw [initBtsnoop] at h
  split at h
  · exact slice_of_skwlogReopen h
  · exact absurd h nofun

theorem reopened_ok {cfg : LogConfig} {k : Skwlog} {call : Option Bool} (now : LocalTime)
    (h : SkwlogOk k) (hslice : ∀ b, call = some b → cfg.skwlogSlice = true) :
    SkwlogOk (reopened cfg now call k) := by
  rcases call with - | newFile
  · exact h
  · exact skwlogReopen_ok newFile now h (hslice newFile rfl)

theorem opened_reopened {cfg : LogConfig} {now : LocalTime} {call : Option Bool} {k : Skwlog}
    (hop : (reopened cfg now call k).opened = true) : k.opened = true ∨ cfg.btcpLogEn = true := by
  rcases call with - | newFile
  · exact .inl hop
  · exact .inr (opened_skwlogReopen hop)

/-- The controller log is open only in a session that writes it. -/
def SkwlogSession (s : LogState) : Prop :=
  s.skwlog.opened = true → ∃ cfg, s.session = some cfg ∧ cfg.btcpLogEn = true

theorem SkwlogSession.step {s t : LogState} {e : LogEvent} {os : List (List UInt8 × Bool)}
    (h : SkwlogSession s) (hstep : LogStep s e os t) : SkwlogSession t := by
  cases hstep with
  | init cfg now errno hnone =>
    exact fun hop => ⟨cfg, rfl, (opened_reopened hop).elim opened_skwlogInit id⟩
  | @capture cfg timestamp packet isReceived now errno hsome hmem =>
    exact fun hop => (opened_reopened hop).elim h fun hen => ⟨cfg, hsome, hen⟩
  | skwlogWrite buffer hsome hpacket => exact fun hop => h (opened_skwlogWrite hop)
  | cleanup hsome => exact nofun

/-- The condition on `init`: without slices, a `skwlog.log` it finds holds more than what opening a log
writes, 28 bytes. -/
def SkwlogStepOk (s : LogState) : LogEvent → Prop
  | .init cfg _ _ => cfg.btcpLogEn = true → cfg.skwlogSlice = false →
      ∀ content, s.skwlog.file = some content → 28 < content.length
  | .capture .. | .skwlogWrite _ | .cleanup => True

/-- The controller log, if there is a file, has the format. -/
def SkwlogParseable (s : LogState) : Prop := ∀ content, s.skwlog.file = some content → IsSkwlog content

/-- **Step lemma.** An operation that meets its condition keeps the controller log in order. -/
theorem skwlogStep_ok {s t : LogState} {e : LogEvent} {os : List (List UInt8 × Bool)}
    (hok : SkwlogOk s.skwlog) (hs : SkwlogSession s) (hstep : LogStep s e os t)
    (hcond : SkwlogStepOk s e) : SkwlogOk t.skwlog := by
  cases hstep with
  | init cfg now errno hnone =>
    refine reopened_ok now (skwlogInit_ok now hok fun hen content hfile => ?_)
      fun b hb => slice_of_initBtsnoop hb
    by_cases hslice : cfg.skwlogSlice = true
    · exact .inl hslice
    · have hlt := hcond hen (Bool.eq_false_iff.mpr hslice) content hfile
      have hsize := hok.size content hfile
      have hlimit : skwlogLimit = 1610612736 := rfl
      rw [toInt32_of_lt (by omega)]
      exact .inr (by omega)
  | capture timestamp packet isReceived now errno hsome hmem =>
    exact reopened_ok now hok fun b hb => slice_of_capture hb
  | @skwlogWrite cfg buffer hsome hpacket =>
    refine skwlogWrite_ok hok.toSkwlogMid (fun hop => ?_) hpacket
    obtain ⟨cfg', hsome', hen⟩ := hs hop
    obtain rfl := Option.some.inj (hsome.symm.trans hsome')
    exact hen
  | cleanup hsome => exact skwlogClose_ok hok

/-- **Step lemma.** An `init` that does not meet its condition spoils the controller log. -/
theorem skwlogStep_not_ok {s t : LogState} {e : LogEvent} {os : List (List UInt8 × Bool)}
    (hok : SkwlogOk s.skwlog) (hstep : LogStep s e os t) (hparse : SkwlogParseable t) :
    SkwlogStepOk s e := by
  cases hstep with
  | init cfg now errno hnone =>
    intro hen hslice content hfile
    by_contra hle
    have hint : toInt32 content.length = content.length := toInt32_of_lt (by omega)
    have hspoilt := skwlogInit_not_renamed now hen hslice hfile (by omega)
    have hcall : (initBtsnoop cfg errno s.btsnoop).skwlogReopen = none := by
      rcases h : (initBtsnoop cfg errno s.btsnoop).skwlogReopen with - | b
      · rfl
      · exact absurd ((slice_of_initBtsnoop h).symm.trans hslice) nofun
    have hlog : IsSkwlog (content ++ (skwcplogHeader ++ timePacket now)) := by
      refine hparse _ ?_
      show (reopened cfg now (initBtsnoop cfg errno s.btsnoop).skwlogReopen
        (skwlogInit cfg now s.skwlog)).file = _
      rw [hcall]
      exact hspoilt
    exact (hok.log content hfile).not_append (not_hasFrame_header _) (List.cons_ne_nil _ _) hlog
  | capture | skwlogWrite | cleanup => trivial

/-- **The controller log stays parseable, exactly when.** Over any sessions with any settings, from no
existing file, `skwlog.log` is a header with whole packets behind it at all times between operations if
and only if no session without slices begins with a log of 28 bytes or less. -/
theorem skwlog_parseable_iff {es : List LogEvent} {tr : List (List UInt8 × Bool)} {s : LogState}
    (run : LogRun es tr s) :
    (∀ is js os t, es = is ++ js → LogRun is os t → SkwlogParseable t) ↔
      ∀ is e js os t, es = is ++ e :: js → LogRun is os t → SkwlogStepOk t e := by
  have hstart : SkwlogOk LogState.initial.skwlog := skwlogOk_of_closed rfl nofun nofun
  refine run.always_state_iff (J := fun t => SkwlogOk t.skwlog ∧ SkwlogSession t) LogStep.det
    ⟨hstart, nofun⟩ nofun (fun t e o u ht _ hstep => ?_) fun t e o u ht _ hstep hcond =>
      ⟨skwlogStep_ok ht.1 ht.2 hstep hcond, ht.2.step hstep⟩
  exact ⟨fun hparse => skwlogStep_not_ok ht.1 hstep hparse,
    fun hcond => (skwlogStep_ok ht.1 ht.2 hstep hcond).log⟩

/-- A session that keeps a controller log without slices, and no btsnoop log. -/
def unslicedConfig : LogConfig := ⟨false, true, false, false⟩

theorem skwlog_parseable_iff_idle : ∃ tr s, LogRun (idleSessions unslicedConfig) tr s ∧
    ((∀ is js os t, idleSessions unslicedConfig = is ++ js → LogRun is os t → SkwlogParseable t) ↔
      ∀ is e js os t, idleSessions unslicedConfig = is ++ e :: js → LogRun is os t →
        SkwlogStepOk t e) := by
  obtain ⟨tr, s, run⟩ := logRun_idleSessions unslicedConfig
  exact ⟨tr, s, run, skwlog_parseable_iff run⟩

/-- The log left by the second of two sessions without a packet has two headers. -/
theorem skwlog_header_twice : ∃ tr s, LogRun (idleSessions unslicedConfig) tr s ∧ ¬ SkwlogParseable s := by
  have h₁ : LogRun [.init unslicedConfig ⟨0, 0, 0, 1⟩ 0] _ _ :=
    Execution.start.snoc (.init unslicedConfig ⟨0, 0, 0, 1⟩ 0 rfl)
  have h₂ := h₁.snoc (.cleanup rfl)
  refine ⟨_, _, h₂.snoc (.init unslicedConfig ⟨0, 0, 0, 1⟩ 0 rfl), fun hparse => ?_⟩
  have hlog : IsSkwlog (skwcplogHeader ++ timePacket ⟨0, 0, 0, 1⟩ ++
      (skwcplogHeader ++ timePacket ⟨0, 0, 0, 1⟩)) := hparse _ (by decide)
  have hfirst : IsSkwlog (skwcplogHeader ++ timePacket ⟨0, 0, 0, 1⟩) :=
    (Framer.isLog_header skwlogFramer skwcplogHeader).append (isFrame_timePacket _)
  exact hfirst.not_append (not_hasFrame_header _) (List.cons_ne_nil _ _) hlog

end Seekwave
