import Seekwave.Logs.Sessions

/-!
# The size of the controller log

`skwlog_write` rotates `skwlog.log` by `skwlog_rev_length`, which counts whole packets and leaves out only
what opening the file has put into it. Unlike the btsnoop file (`Logs.Limit`), the log is therefore bounded
whatever the sessions and their settings, also where a session has spoilt its format: `skwlog_size_lt`.
-/

open Memory

namespace Seekwave

/-- While an operation runs: the file is not much larger than the limit, and, when opened, up to a log of 28
bytes and a header behind it, than the count. -/
structure SkwlogFits (s : Skwlog) : Prop where
  bounded : ∀ content, s.file = some content → content.length < skwlogLimit + 44
  counted : s.opened = true → ∃ content, s.file = some content ∧ s.revLength ≤ content.length ∧
    content.length ≤ s.revLength + 44

/-- Between operations: the count is below the limit too. -/
structure SkwlogBounded (s : Skwlog) : Prop extends SkwlogFits s where
  below : s.opened = true → s.revLength < skwlogLimit

theorem skwlogBounded_of_closed {s : Skwlog} (hclosed : s.opened = false)
    (hbounded : ∀ content, s.file = some content → content.length < skwlogLimit + 44) :
    SkwlogBounded s where
  bounded := hbounded
  counted hop := absurd (hclosed.symm.trans hop) (by simp)
  below hop := absurd (hclosed.symm.trans hop) (by simp)

/-- A file of at most 28 bytes, opened with a count of nothing. -/
theorem skwlogFits_openAppend {s : Skwlog} (newFile : Bool) (hrev : s.revLength = 0)
    (hshort : ∀ content, s.file = some content → content.length ≤ 28) :
    SkwlogFits (s.openAppend newFile) := by
  have hlength : (s.file.getD []).length ≤ 28 := by
    rcases hfile : s.file with - | content
    · exact Nat.zero_le _
    · exact hshort content hfile
  have hheader : skwcplogHeader.length = 16 := by decide
  have hlimit : skwlogLimit = 1610612736 := rfl
  have hopened : ∃ content, (s.openAppend newFile).file = some content ∧ content.length ≤ 44 := by
    refine ⟨_, rfl, ?_⟩
    split
    · rw [List.length_append]
      omega
    · omega
  obtain ⟨content, hfile, hle⟩ := hopened
  constructor
  · intro content' hfile'
    obtain rfl := Option.some.inj (hfile.symm.trans hfile')
    omega
  · intro _
    refine ⟨content, hfile, ?_, ?_⟩
    · show s.revLength ≤ _
      omega
    · show _ ≤ s.revLength + 44
      omega

/-- **Opening.** From a file within the bound, `skwlog_open` leaves one, counted up to 44 bytes. -/
theorem skwlogFits_skwlogOpen {cfg : LogConfig} {s : Skwlog} (newFile : Bool)
    (hen : cfg.btcpLogEn = true) (hrev : s.revLength = 0)
    (hbounded : ∀ content, s.file = some content → content.length < skwlogLimit + 44) :
    SkwlogFits (skwlogOpen cfg newFile s) := by
  obtain ⟨file, opened, revLength⟩ := s
  obtain rfl : revLength = 0 := hrev
  have hnone := fun newFile' => skwlogFits_openAppend (s := ⟨none, opened, 0⟩) newFile' rfl
    (fun content hfile => absurd hfile (by simp))
  unfold skwlogOpen
  rw [if_pos hen]
  rcases file with - | content
  · exact hnone true
  · have hlt : content.length < skwlogLimit + 44 := hbounded content rfl
    have hlimit : skwlogLimit = 1610612736 := rfl
    have hint : toInt32 content.length = content.length := toInt32_of_lt (by omega)
    dsimp only
    rw [hint]
    split
    · split
      · exact hnone _
      · -- the count begins with the size of the file, which gets a header only if it is empty
        have hcount : ((content.length : ℤ) % 2 ^ 32).toNat = content.length := by omega
        rw [hcount]
        by_cases hempty : (content.length : ℤ) = 0
        · have hzero : content.length = 0 := by omega
          rw [hzero]
          exact skwlogFits_openAppend _ rfl fun c hc => by
            obtain rfl := Option.some.inj hc
            omega
        · have hnew : newFile = false := by simp_all
          rw [decide_eq_false hempty, hnew]
          refine ⟨fun c hc => ?_, fun _ => ⟨content, rfl, Nat.le_refl _, Nat.le_add_right _ _⟩⟩
          obtain rfl := Option.some.inj hc
          exact hlt
    · split
      · exact hnone _
      · -- a file that is not renamed away is short
        exact skwlogFits_openAppend _ rfl fun c hc => by
          obtain rfl := Option.some.inj hc
          omega

/-- **Writing.** A packet keeps the file within the bound, rotated or not. -/
theorem skwlogBounded_skwlogWrite {cfg : LogConfig} {s : Skwlog} {p : List UInt8} (h : SkwlogFits s)
    (hen : s.opened = true → cfg.btcpLogEn = true) (hp : p.length ≤ 65539) :
    SkwlogBounded (skwlogWrite cfg p s) := by
  have hlimit : skwlogLimit = 1610612736 := rfl
  unfold skwlogWrite
  by_cases hop : s.opened = true
  · obtain ⟨content, hfile, hge, hle⟩ := h.counted hop
    have hlt := h.bounded content hfile
    have hlength : (content ++ p).length = content.length + p.length := List.length_append
    have hmod : (s.revLength + p.length) % 2 ^ 32 = s.revLength + p.length :=
      Nat.mod_eq_of_lt (by omega)
    rw [if_pos hop, hfile, Option.getD_some, hmod]
    by_cases hfull : skwlogLimit ≤ s.revLength + p.length
    · -- the full file is renamed away
      have hren : Renames cfg ⟨some (content ++ p), false, 0⟩ := by
        intro content' hc
        obtain rfl := Option.some.inj hc
        refine .inr ?_
        rw [toInt32_of_lt (by omega)]
        omega
      rw [if_pos hfull, skwlogOpen_new (hen hop) hren]
      have hfits := skwlogFits_openAppend (s := ⟨none, false, 0⟩) true rfl
        fun c hc => absurd hc (by simp)
      exact ⟨hfits, fun _ => by show 0 < skwlogLimit; omega⟩
    · rw [if_neg hfull]
      refine ⟨⟨fun c hc => ?_, fun _ => ⟨content ++ p, rfl, ?_, ?_⟩⟩, fun _ => Nat.lt_of_not_le hfull⟩
      · obtain rfl := Option.some.inj hc
        omega
      · show s.revLength + p.length ≤ _
        omega
      · show _ ≤ s.revLength + p.length + 44
        omega
  · rw [if_neg hop]
    exact ⟨h, fun hop' => absurd hop' hop⟩

/-- Opening and printing the time. -/
theorem skwlogBounded_opened {cfg : LogConfig} {s : Skwlog} (newFile : Bool) (now : LocalTime)
    (hclosed : s.opened = false) (hrev : s.revLength = 0)
    (hbounded : ∀ content, s.file = some content → content.length < skwlogLimit + 44) :
    SkwlogBounded (if (skwlogOpen cfg newFile s).opened = true then
      skwlogPrintCurrentTime cfg now (skwlogOpen cfg newFile s) else skwlogOpen cfg newFile s) := by
  by_cases hen : cfg.btcpLogEn = true
  · have hfits := skwlogFits_skwlogOpen newFile hen hrev hbounded
    split
    · exact skwlogBounded_skwlogWrite hfits (fun _ => hen) (by show (12 : ℕ) ≤ _; omega)
    · next hop => exact ⟨hfits, fun hop' => absurd hop' hop⟩
  · have hsame : skwlogOpen cfg newFile s = s := by
      unfold skwlogOpen
      rw [if_neg hen]
    rw [hsame, if_neg (by simp [hclosed])]
    exact skwlogBounded_of_closed hclosed hbounded

theorem skwlogBounded_reopened {cfg : LogConfig} {now : LocalTime} {call : Option Bool} {k : Skwlog}
    (h : SkwlogBounded k) : SkwlogBounded (reopened cfg now call k) := by
  rcases call with - | newFile
  · exact h
  · exact skwlogBounded_opened newFile now rfl rfl h.bounded

/-- **Step lemma.** Every operation keeps the bound. -/
theorem SkwlogBounded.step {s t : LogState} {e : LogEvent} {os : List (List UInt8 × Bool)}
    (h : SkwlogBounded s.skwlog) (hs : SkwlogSession s) (hstep : LogStep s e os t) :
    SkwlogBounded t.skwlog := by
  cases hstep with
  | init cfg now errno hnone =>
    refine skwlogBounded_reopened ?_
    unfold skwlogInit
    dsimp only
    split
    · exact skwlogBounded_opened true now rfl rfl h.bounded
    · exact skwlogBounded_of_closed rfl h.bounded
  | capture timestamp packet isReceived now errno hsome hmem => exact skwlogBounded_reopened h
  | @skwlogWrite cfg buffer hsome hpacket =>
    refine skwlogBounded_skwlogWrite h.toSkwlogFits (fun hop => ?_) (length_le_of_isFrame hpacket)
    obtain ⟨cfg', hsome', hen⟩ := hs hop
    obtain rfl := Option.some.inj (hsome.symm.trans hsome')
    exact hen
  | cleanup hsome => exact skwlogBounded_of_closed rfl h.bounded

/-- **The controller log is bounded.** Over any sessions with any settings, from no existing file,
`skwlog.log` is at all times between operations less than 44 bytes above 1.5 GB, so that its size is the
same in an `int`; and while it is open, `skwlog_rev_length` is below 1.5 GB and counts all but 44 bytes of
it at most. -/
theorem skwlog_size_lt {es : List LogEvent} {tr : List (List UInt8 × Bool)} {s : LogState}
    (run : LogRun es tr s) {content : List UInt8} (hfile : s.skwlog.file = some content) :
    content.length < skwlogLimit + 44 ∧ toInt32 content.length = content.length ∧
      (s.skwlog.opened = true → s.skwlog.revLength < skwlogLimit ∧
        s.skwlog.revLength ≤ content.length ∧ content.length ≤ s.skwlog.revLength + 44) := by
  have hinv : SkwlogBounded s.skwlog ∧ SkwlogSession s := by
    clear hfile
    induction run with
    | start =>
      refine ⟨skwlogBounded_of_closed rfl fun content hfile => ?_, fun hop => ?_⟩
      · exact absurd hfile (by simp [LogState.initial, Skwlog.initial])
      · exact absurd hop (by simp [LogState.initial, Skwlog.initial])
    | snoc _ hstep ih => exact ⟨ih.1.step ih.2 hstep, ih.2.step hstep⟩
  have hlt := hinv.1.bounded content hfile
  have hlimit : skwlogLimit = 1610612736 := rfl
  refine ⟨hlt, toInt32_of_lt (by omega), fun hop => ?_⟩
  obtain ⟨content', hfile', hge, hle⟩ := hinv.1.counted hop
  obtain rfl := Option.some.inj (hfile.symm.trans hfile')
  exact ⟨hinv.1.below hop, hge, hle⟩

/-- The log with two headers, of which 44 bytes are not counted. -/
theorem skwlog_size_lt_idle : ∃ tr s content, LogRun (idleSessions unslicedConfig) tr s ∧
    s.skwlog.file = some content ∧ content.length < skwlogLimit + 44 ∧
      toInt32 content.length = content.length ∧
        (s.skwlog.opened = true → s.skwlog.revLength < skwlogLimit ∧
          s.skwlog.revLength ≤ content.length ∧ content.length ≤ s.skwlog.revLength + 44) := by
  have h₁ : LogRun [.init unslicedConfig ⟨0, 0, 0, 1⟩ 0] _ _ :=
    Execution.start.snoc (.init unslicedConfig ⟨0, 0, 0, 1⟩ 0 rfl)
  have h₂ := (h₁.snoc (.cleanup rfl)).snoc (.init unslicedConfig ⟨0, 0, 0, 1⟩ 0 rfl)
  exact ⟨_, _, _, h₂, by rfl, skwlog_size_lt h₂ (by rfl)⟩

end Seekwave
