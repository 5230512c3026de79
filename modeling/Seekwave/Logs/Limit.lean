import Seekwave.Btsnoop.Rotation
import Seekwave.Logs.Sessions

/-!
# The size of the btsnoop file

`skw_btsnoop_capture` rotates the file by `btsnoop_rev_length`, which starts at the size of the file that
`skw_btsnoop_open` finds and grows by the lengths of the packets. The header of a new file and the 24
bytes in front of each packet are not counted: `SnoopCounted` says that the size of the file is the count
and these, and `snoop_size_iff` from it when the limit bounds the file.
-/

open Memory

namespace Seekwave

/-! ## What is not counted -/

/-- 24 bytes and the longest packet that a header can announce. -/
def snoopRecordMax : ℕ := 24 + 65540

/-- An operation of a session that writes the btsnoop file in slices. -/
def LogEvent.Sliced : LogEvent → Prop
  | .init cfg _ _ => cfg.btsnoopSaveLog = true ∧ cfg.skwlogSlice = true
  | _ => True

/-- The record that an operation puts into the btsnoop file. -/
def snoopRecord (s : LogState) : LogEvent → Option SnoopRecord
  | .capture _ packet isReceived _ _ =>
    if s.btsnoop.opened = true then skwBtsnoopCapture packet isReceived else none
  | _ => none

/-- What an opening of the file leaves uncounted, of `m` before it: a header it has written. -/
def afterOpening (m : ℕ) : Option (List UInt8 × Bool) → ℕ
  | some (_, header) => if header = true then 16 else 0
  | none => m

/-- The bytes of the btsnoop file that `btsnoop_rev_length` leaves out, `m` before an operation with the
openings `os`: the header of a file opened as a new one, and 24 bytes for each record since. -/
def uncounted (s : LogState) (e : LogEvent) (os : List (List UInt8 × Bool)) (m : ℕ) : ℕ :=
  afterOpening (if (snoopRecord s e).isSome = true then m + 24 else m) os.head?

/-- A step of a session in slices, with the bytes left out. -/
def CountedStep (s : LogState × ℕ) (e : LogEvent) (os : List (List UInt8 × Bool))
    (t : LogState × ℕ) : Prop :=
  LogStep s.1 e os t.1 ∧ e.Sliced ∧ t.2 = uncounted s.1 e os s.2

/-- The runs in slices from no existing file, with the bytes left out. -/
abbrev CountedRun : List LogEvent → List (List UInt8 × Bool) → LogState × ℕ → Prop :=
  Execution CountedStep (.initial, 0)

theorem CountedRun.logRun {es : List LogEvent} {os : List (List UInt8 × Bool)} {s : LogState × ℕ}
    (run : CountedRun es os s) : LogRun es os s.1 := by
  induction run with
  | start => exact .start
  | snoc _ hstep ih => exact ih.snoc hstep.1

theorem CountedStep.det ⦃s : LogState × ℕ⦄ ⦃e : LogEvent⦄ ⦃os : List (List UInt8 × Bool)⦄
    ⦃t : LogState × ℕ⦄ ⦃os' : List (List UInt8 × Bool)⦄ ⦃t' : LogState × ℕ⦄ (h : CountedStep s e os t)
    (h' : CountedStep s e os' t') : os = os' ∧ t = t' := by
  obtain ⟨rfl, hstate⟩ := h.1.det h'.1
  exact ⟨rfl, Prod.ext hstate (h.2.2.trans h'.2.2.symm)⟩

theorem exists_countedRun {es : List LogEvent} {os : List (List UInt8 × Bool)} {s : LogState}
    (run : LogRun es os s) (hsliced : ∀ e ∈ es, e.Sliced) : ∃ m, CountedRun es os (s, m) := by
  induction run with
  | start => exact ⟨0, .start⟩
  | @snoc is os t u e o hrun hstep ih =>
    obtain ⟨m, hm⟩ := ih fun e he => hsliced e (List.mem_append_left _ he)
    exact ⟨uncounted t e o m,
      hm.snoc ⟨hstep, hsliced e (List.mem_append_right _ (List.mem_singleton_self e)), rfl⟩⟩

/-! ## The size of the file -/

/-- The size of the file is what is counted and what is not. -/
structure SnoopFits (s : Btsnoop) (m : ℕ) : Prop where
  size : s.opened = true → ∃ content, s.file = some content ∧ content.length = s.revLength + m
  revLength : s.opened = true → s.revLength ≤ btsnoopLimit
  bounded : ∀ content, s.file = some content → content.length ≤ btsnoopLimit + snoopRecordMax

/-- The invariant of the runs in slices. -/
structure SnoopCounted (s : LogState) (m : ℕ) : Prop extends SnoopSession s, SnoopFits s.btsnoop m where
  sliced : ∀ cfg, s.session = some cfg → cfg.btsnoopSaveLog = true ∧ cfg.skwlogSlice = true

/-- A file of a size within the bound has that size in an `int`. -/
theorem toInt32_of_bounded {content : List UInt8}
    (h : content.length ≤ btsnoopLimit + snoopRecordMax) :
    toInt32 content.length = content.length :=
  toInt32_of_lt (Nat.lt_of_le_of_lt h (by decide))

theorem SnoopFits.of_closed {s : Btsnoop} {m : ℕ} (hclosed : s.opened = false)
    (hbounded : ∀ content, s.file = some content →
      content.length ≤ btsnoopLimit + snoopRecordMax) : SnoopFits s m where
  size hop := Bool.noConfusion (hclosed.symm.trans hop)
  revLength hop := Bool.noConfusion (hclosed.symm.trans hop)
  bounded := hbounded

/-- A new file is its header. -/
theorem snoopFits_new : SnoopFits ⟨some btsnoopHeader, true, 0⟩ 16 where
  size _ := ⟨btsnoopHeader, rfl, rfl⟩
  revLength _ := Nat.zero_le _
  bounded content h := by
    obtain rfl := Option.some.inj h
    decide

/-- **Opening.** From a file within the bound, `skw_btsnoop_open` starts `btsnoop_rev_length` at the size
of what it finds. -/
theorem snoopFits_skwBtsnoopOpen {cfg : LogConfig} {s : Btsnoop} (errno : ℤ) (m : ℕ)
    (hen : cfg.btsnoopLogEn = true) (hsave : cfg.btsnoopSaveLog = true)
    (hslice : cfg.skwlogSlice = true) (hclosed : s.opened = false)
    (hbounded : ∀ content, s.file = some content →
      content.length ≤ btsnoopLimit + snoopRecordMax) :
    SnoopFits (skwBtsnoopOpen cfg errno s).state
      (afterOpening m (skwBtsnoopOpen cfg errno s).opening) := by
  rcases hfile : s.file with - | content
  · obtain ⟨hstate, hopening⟩ := skwBtsnoopOpen_missing errno hen hsave hclosed hfile
    rw [hstate, hopening]
    exact snoopFits_new
  · have hsize := hbounded content hfile
    have hint := toInt32_of_bounded hsize
    by_cases hlarge : (btsnoopLimit : ℤ) < toInt32 content.length
    · -- the file is renamed, and a new one is begun unless `errno` holds back
      rw [skwBtsnoopOpen_large errno hen hsave hslice hclosed hfile hlarge]
      split
      · exact SnoopFits.of_closed rfl nofun
      · exact snoopFits_new
    · have hlimit : btsnoopLimit = 1073741824 := rfl
      rw [skwBtsnoopOpen_small errno hen hsave hslice hclosed hfile hlarge]
      rw [hint] at hlarge ⊢
      have hrev : ((content.length : ℤ) % 2 ^ 32).toNat = content.length := by omega
      have hheader : btsnoopHeader.length = 16 := rfl
      have hmax : 16 ≤ snoopRecordMax := by decide
      rw [hrev]
      -- a file no longer than a header gets one behind it, which `btsnoop_rev_length` does not count
      by_cases hshort : (content.length : ℤ) ≤ 16
      · rw [decide_eq_true hshort]
        refine ⟨fun _ => ⟨content ++ btsnoopHeader, rfl, List.length_append⟩, fun _ => ?_, ?_⟩
        · show content.length ≤ btsnoopLimit
          omega
        · intro c hc
          obtain rfl := Option.some.inj hc
          show (content ++ btsnoopHeader).length ≤ _
          rw [List.length_append]
          omega
      · rw [decide_eq_false hshort]
        refine ⟨fun _ => ⟨content, rfl, rfl⟩, fun _ => ?_, ?_⟩
        · show content.length ≤ btsnoopLimit
          omega
        · exact fun c hc => hbounded c (hfile.trans hc)

/-! ## Captures -/

/-- A capture records a packet if the file is open and the packet has a type that is recorded. -/
theorem snoopRecord_capture {s : LogState} {timestamp : ℕ} {packet : List UInt8} {isReceived : Bool}
    {now : LocalTime} {errno : ℤ} {r : SnoopRecord} :
    snoopRecord s (.capture timestamp packet isReceived now errno) = some r ↔
      s.btsnoop.opened = true ∧ skwBtsnoopCapture packet isReceived = some r := by
  rw [snoopRecord]
  split
  · next hop => exact (and_iff_right hop).symm
  · next hop => exact iff_of_false nofun fun h => hop h.1

/-- The length and the bytes of a record. -/
theorem length_bytes_le {packet : List UInt8} {isReceived : Bool} {r : SnoopRecord}
    (hr : skwBtsnoopCapture packet isReceived = some r) :
    r.lengthHe ≤ 65540 ∧ r.bytes.length ≤ r.lengthHe ∧
      ((∀ n, lengthHe packet = some n → n ≤ packet.length) → r.bytes.length = r.lengthHe) := by
  obtain ⟨n, hn, rfl⟩ := Option.map_eq_some_iff.mp hr
  exact ⟨lengthHe_le hn, List.length_take_le _ _, fun hmem => List.length_take_of_le (hmem n hn)⟩

/-- The file with a record more. -/
theorem SnoopFits.length_append {s : Btsnoop} {m timestamp : ℕ} {r : SnoopRecord}
    {content : List UInt8} (h : SnoopFits s m) (hop : s.opened = true)
    (hfile : (s.append r timestamp).file = some content) :
    content.length = s.revLength + m + (24 + r.bytes.length) := by
  obtain ⟨before, hbefore, hsize⟩ := h.size hop
  have hcontent : some (s.file.getD [] ++ r.encode timestamp) = some content := hfile
  rw [hbefore, Option.getD_some] at hcontent
  rw [← Option.some.inj hcontent, List.length_append, r.length_encode, hsize]

/-- The condition on an operation that records a packet: the file is not above the limit before it. -/
def SnoopRoom (s : LogState) (m : ℕ) (e : LogEvent) : Prop :=
  ∀ r, snoopRecord s e = some r → s.btsnoop.revLength + m ≤ btsnoopLimit

/-- **A record more.** With room for it, the file stays within the bound, rotated or not. -/
theorem SnoopFits.rotate {cfg : LogConfig} {s : Btsnoop} {m timestamp : ℕ} {r : SnoopRecord}
    (errno : ℤ) (h : SnoopFits s m) (hen : cfg.btsnoopLogEn = true)
    (hsave : cfg.btsnoopSaveLog = true) (hslice : cfg.skwlogSlice = true) (hop : s.opened = true)
    (hlen : r.bytes.length = r.lengthHe) (hmax : r.lengthHe ≤ 65540)
    (hroom : s.revLength + m ≤ btsnoopLimit) :
    SnoopFits (btsnoopRotate cfg errno (s.append r timestamp)).state
      (afterOpening (m + 24) (btsnoopRotate cfg errno (s.append r timestamp)).opening) := by
  have hlimit : btsnoopLimit = 1073741824 := rfl
  have hrecord : snoopRecordMax = 24 + 65540 := rfl
  have hbounded : ∀ content, (s.append r timestamp).file = some content →
      content.length ≤ btsnoopLimit + snoopRecordMax := by
    intro content hfile
    have hsize := h.length_append hop hfile
    omega
  rw [btsnoopRotate]
  split
  · exact snoopFits_skwBtsnoopOpen errno (m + 24) hen hsave hslice rfl hbounded
  · next hfull =>
    have hrev : (s.append r timestamp).revLength = s.revLength + r.lengthHe :=
      Nat.mod_eq_of_lt (by omega)
    refine ⟨fun _ => ⟨_, rfl, ?_⟩, fun _ => Nat.le_of_not_le hfull, hbounded⟩
    -- the file has grown by 24 bytes more than the counter
    rw [h.length_append hop rfl, hrev]
    show _ = _ + (m + 24)
    omega

/-! ## Runs -/

section Steps

variable {s t : LogState} {m m' : ℕ} {e : LogEvent} {os : List (List UInt8 × Bool)}

/-- What a capture does when it records its packet. -/
theorem skwBtsnoopCaptureFile_some {cfg : LogConfig} {errno : ℤ} {timestamp : ℕ} {packet : List UInt8}
    {isReceived : Bool} {b : Btsnoop} {r : SnoopRecord} (hen : cfg.btsnoopLogEn = true)
    (hop : b.opened = true) (hr : skwBtsnoopCapture packet isReceived = some r) :
    skwBtsnoopCaptureFile cfg errno timestamp packet isReceived b =
      btsnoopRotate cfg errno (b.append r timestamp) := by
  rw [skwBtsnoopCaptureFile, if_pos ⟨hen, hop⟩, hr]

/-- A capture that records nothing does nothing to the file. -/
theorem skwBtsnoopCaptureFile_none {cfg : LogConfig} {errno : ℤ} {timestamp : ℕ} {packet : List UInt8}
    {isReceived : Bool} {now : LocalTime}
    (hr : snoopRecord s (.capture timestamp packet isReceived now errno) = none) :
    skwBtsnoopCaptureFile cfg errno timestamp packet isReceived s.btsnoop = ⟨s.btsnoop, none, none⟩ := by
  rw [skwBtsnoopCaptureFile]
  split
  · next h =>
    rw [snoopRecord, if_pos h.2] at hr
    rw [hr]
  · rfl

/-- Nothing is open before `init`. -/
theorem SnoopSession.closed (h : SnoopSession s) (hnone : s.session = none) :
    s.btsnoop.opened = false := by
  rw [Bool.eq_false_iff]
  intro hop
  obtain ⟨cfg, hsome, -⟩ := h.enabled hop
  exact absurd (hnone.symm.trans hsome) nofun

/-- **Step lemma.** An operation with room for its record keeps the invariant. -/
theorem SnoopCounted.step (h : SnoopCounted s m) (hroom : SnoopRoom s m e)
    (hstep : CountedStep (s, m) e os (t, m')) : SnoopCounted t m' := by
  obtain ⟨hstep, hsliced, hm⟩ := hstep
  have hsession := h.toSnoopSession.step hstep
  obtain rfl : m' = uncounted s e os m := hm
  cases hstep with
  | init cfg now errno hnone =>
    refine ⟨hsession, ?_, fun cfg' hcfg => Option.some.inj hcfg ▸ hsliced⟩
    show SnoopFits (initBtsnoop cfg errno s.btsnoop).state
      (afterOpening m (initBtsnoop cfg errno s.btsnoop).opening.toList.head?)
    rw [Option.head?_toList, initBtsnoop]
    have hclosed := h.toSnoopSession.closed hnone
    by_cases hen : cfg.btsnoopLogEn = true
    · rw [if_pos hen]
      exact snoopFits_skwBtsnoopOpen errno m hen hsliced.1 hsliced.2 hclosed h.bounded
    · rw [if_neg hen]
      exact .of_closed hclosed h.bounded
  | @capture cfg timestamp packet isReceived now errno hsome hmem =>
    refine ⟨hsession, ?_, h.sliced⟩
    show SnoopFits (skwBtsnoopCaptureFile cfg errno timestamp packet isReceived s.btsnoop).state
      (uncounted _ _ _ m)
    rw [uncounted, Option.head?_toList]
    rcases hr : snoopRecord s (.capture timestamp packet isReceived now errno) with - | r
    · rw [skwBtsnoopCaptureFile_none hr]
      exact h.toSnoopFits
    · obtain ⟨hop, hpacket⟩ := snoopRecord_capture.mp hr
      obtain ⟨cfg', hsome', hen⟩ := h.enabled hop
      obtain rfl := Option.some.inj (hsome.symm.trans hsome')
      obtain ⟨hsave, hslice⟩ := h.sliced cfg hsome
      obtain ⟨hmax, -, hlen⟩ := length_bytes_le hpacket
      rw [skwBtsnoopCaptureFile_some hen hop hpacket]
      exact h.toSnoopFits.rotate errno hen hsave hslice hop (hlen hmem) hmax (hroom r hr)
  | skwlogWrite buffer hsome hpacket => exact ⟨hsession, h.toSnoopFits, h.sliced⟩
  | @cleanup cfg hsome =>
    -- the file is closed, and stays where it is
    have hfile : (if cfg.btsnoopLogEn = true then skwBtsnoopClose s.btsnoop
        else s.btsnoop).file = s.btsnoop.file := by split <;> rfl
    refine ⟨hsession, .of_closed ?_ fun content hc => h.bounded content (hfile.symm.trans hc), by simp⟩
    rw [Bool.eq_false_iff]
    intro hop
    obtain ⟨cfg', hnone, -⟩ := hsession.enabled hop
    cases hnone

/-- What an operation sees of the size of the btsnoop file: `init` reads the size of the file that it
finds, and a capture makes the file larger by its record. -/
def SnoopSizes (s : LogState) : LogEvent → Prop
  | .init cfg _ _ => cfg.btsnoopLogEn = true → ∀ content, s.btsnoop.file = some content →
      toInt32 content.length = content.length
  | .capture timestamp packet isReceived now errno => ∀ r content,
      snoopRecord s (.capture timestamp packet isReceived now errno) = some r →
      (s.btsnoop.append r timestamp).file = some content →
      content.length ≤ btsnoopLimit + (24 + r.bytes.length) ∧
        toInt32 content.length = content.length
  | .skwlogWrite _ | .cleanup => True

/-- An operation sees sizes within the bound exactly if there is room for its record. -/
theorem SnoopCounted.sizes_iff (h : SnoopCounted s m) : SnoopSizes s e ↔ SnoopRoom s m e := by
  cases e with
  | init cfg now errno =>
    exact iff_of_true (fun _ content hc => toInt32_of_bounded (h.bounded content hc)) nofun
  | capture timestamp packet isReceived now errno =>
    constructor
    · intro hsizes r hr
      obtain ⟨hop, -⟩ := snoopRecord_capture.mp hr
      have hle := (hsizes r _ hr rfl).1
      rw [h.toSnoopFits.length_append hop rfl] at hle
      omega
    · intro hroom r content hr hfile
      obtain ⟨hop, hpacket⟩ := snoopRecord_capture.mp hr
      obtain ⟨hmax, hlen, -⟩ := length_bytes_le hpacket
      have hroom' := hroom r hr
      have hsize := h.toSnoopFits.length_append hop hfile
      have hrecord : snoopRecordMax = 24 + 65540 := rfl
      exact ⟨by omega, toInt32_of_bounded (by omega)⟩
  | skwlogWrite buffer => exact iff_of_true trivial nofun
  | cleanup => exact iff_of_true trivial nofun

end Steps

theorem snoopCounted_initial : SnoopCounted .initial 0 :=
  ⟨⟨nofun, nofun⟩, .of_closed rfl nofun, nofun⟩

/-- The limit bounds the btsnoop file: between operations it is at most 1 GB and a record, with the
record that a capture adds it is at most 1 GB and that record, and its size is the same in an `int`. -/
structure SnoopSizeBounded (es : List LogEvent) : Prop where
  between : ∀ is js os t, es = is ++ js → LogRun is os t → ∀ content,
    t.btsnoop.file = some content → content.length ≤ btsnoopLimit + snoopRecordMax
  within : ∀ is e js os t, es = is ++ e :: js → LogRun is os t → SnoopSizes t e

/-- **The limit bounds the file, exactly when.** In sessions with slices, from no existing file, the
btsnoop file never exceeds the limit by more than a record if and only if every packet recorded finds
`btsnoop_rev_length`, with the header of the file and the 24 bytes of each record since it was opened,
not above the limit. -/
theorem snoop_size_iff {es : List LogEvent} (hsliced : ∀ e ∈ es, e.Sliced) :
    SnoopSizeBounded es ↔ ∀ is e js os t m, es = is ++ e :: js → CountedRun is os (t, m) →
      SnoopRoom t m e := by
  let I : List (List UInt8 × Bool) → LogState × ℕ → Prop := fun _ s => SnoopCounted s.1 s.2
  let G : List (List UInt8 × Bool) → LogState × ℕ → LogEvent → Prop := fun _ s e => SnoopSizes s.1 e
  have hiff : ∀ ⦃os s e⦄, I os s → (G os s e ↔ SnoopRoom s.1 s.2 e) := fun _ _ _ h => h.sizes_iff
  have hnext : ∀ ⦃os s e o t⦄, I os s → G os s e → CountedStep s e o t → I (os ++ o) t :=
    fun _ _ _ _ _ h hsizes hstep => h.step (h.sizes_iff.mp hsizes) hstep
  -- a tally can be added to every run in slices
  have hruns : ∀ is js os t, es = is ++ js → LogRun is os t → ∃ m, CountedRun is os (t, m) :=
    fun is js os t hes run =>
      exists_countedRun run fun e he => hsliced e (hes ▸ List.mem_append_left _ he)
  have hattempts := @Execution.attempts_iff _ _ _ CountedStep (.initial, 0) es I G
    (fun s e => SnoopRoom s.1 s.2 e) snoopCounted_initial hiff hnext
  constructor
  · intro h is e js os t m hes run
    refine hattempts.mp ?_ is e js os (t, m) hes run
    exact fun is e js os s hes run => h.within is e js os s.1 hes (CountedRun.logRun run)
  · intro hroom
    have hsizes := hattempts.mpr fun is e js os s => hroom is e js os s.1 s.2
    constructor
    · intro is js os t hes run
      obtain ⟨m, hm⟩ := hruns is js os t hes run
      have hcounted : I os (t, m) := hm.of_attempts snoopCounted_initial hnext
        fun ks e js' os' s his run' _ => hsizes ks e (js' ++ js) os' s (by simp [hes, his]) run'
      exact hcounted.bounded
    · intro is e js os t hes run
      obtain ⟨m, hm⟩ := hruns is (e :: js) os t hes run
      exact hsizes is e js os (t, m) hes hm

/-- A session that captures `n` events without parameters. -/
def shortEvents (n : ℕ) : List LogEvent :=
  .init slicingConfig ⟨0, 0, 0, 1⟩ 0 ::
    List.replicate n (.capture 0 shortEvent true ⟨0, 0, 0, 1⟩ 0)

theorem sliced_shortEvents (n : ℕ) : ∀ e ∈ shortEvents n, e.Sliced := by
  intro e he
  rcases List.mem_cons.mp he with rfl | he
  · exact ⟨rfl, rfl⟩
  · obtain rfl := List.eq_of_mem_replicate he
    trivial

/-- Each event counts for 3 bytes and adds 27 to the file. -/
theorem exists_countedRun_shortEvents {n : ℕ} (h : 3 * n < btsnoopLimit) :
    ∃ os s content, CountedRun (shortEvents n) os (s, 16 + 24 * n) ∧ s.session = some slicingConfig ∧
      s.btsnoop = ⟨some content, true, 3 * n⟩ ∧ content.length = 16 + 27 * n := by
  induction n with
  | zero =>
    have hrun : CountedRun (shortEvents 0) _ (_, 16 + 24 * 0) :=
      Execution.start.snoc ⟨.init slicingConfig ⟨0, 0, 0, 1⟩ 0 rfl, ⟨rfl, rfl⟩, rfl⟩
    exact ⟨_, _, btsnoopHeader, hrun, rfl, rfl, rfl⟩
  | succ n ih =>
    obtain ⟨os, s, content, hrun, hsome, hstate, hlen⟩ := ih (by omega)
    have hrev : (3 * n + 3) % 2 ^ 32 = 3 * (n + 1) := by
      have hlimit : btsnoopLimit = 1073741824 := rfl
      omega
    have happend : Btsnoop.append ⟨some content, true, 3 * n⟩ shortRecord 0 =
        ⟨some (content ++ shortRecord.encode 0), true, (3 * n + 3) % 2 ^ 32⟩ := rfl
    have hcapture : skwBtsnoopCaptureFile slicingConfig 0 0 shortEvent true s.btsnoop =
        ⟨⟨some (content ++ shortRecord.encode 0), true, 3 * (n + 1)⟩, none, none⟩ := by
      rw [hstate, skwBtsnoopCaptureFile_some rfl rfl skwBtsnoopCapture_shortEvent, happend, hrev,
        btsnoopRotate, if_neg (Nat.not_le.mpr h)]
    have huncounted : 16 + 24 * (n + 1) = uncounted s (.capture 0 shortEvent true ⟨0, 0, 0, 1⟩ 0)
        (skwBtsnoopCaptureFile slicingConfig 0 0 shortEvent true s.btsnoop).opening.toList
        (16 + 24 * n) := by
      rw [hcapture, uncounted, snoopRecord, hstate, if_pos rfl, skwBtsnoopCapture_shortEvent]
      rfl
    have hstep := hrun.snoc (u := (_, 16 + 24 * (n + 1)))
      ⟨.capture 0 shortEvent true ⟨0, 0, 0, 1⟩ 0 hsome (by decide), trivial, huncounted⟩
    have hevents : shortEvents n ++ [.capture 0 shortEvent true ⟨0, 0, 0, 1⟩ 0] =
        shortEvents (n + 1) := by
      rw [shortEvents, shortEvents, List.replicate_succ', List.cons_append]
    rw [hevents] at hstep
    refine ⟨_, _, content ++ shortRecord.encode 0, hstep, hsome, congrArg SnoopOpened.state hcapture, ?_⟩
    rw [List.length_append, SnoopRecord.length_encode, hlen]
    show 16 + 27 * n + (24 + 3) = 16 + 27 * (n + 1)
    omega

/-- As long as the file itself is within the limit, every event finds room. -/
theorem snoopRoom_shortEvents {n : ℕ} (h : 16 + 27 * n ≤ btsnoopLimit) {is js : List LogEvent}
    {e : LogEvent} {os : List (List UInt8 × Bool)} {t : LogState} {m : ℕ}
    (hes : shortEvents n = is ++ e :: js) (run : CountedRun is os (t, m)) : SnoopRoom t m e := by
  rcases is with - | ⟨e', is⟩
  · obtain ⟨rfl, -⟩ := List.cons.inj hes
    exact nofun
  · obtain ⟨rfl, hrest⟩ := List.cons.inj hes
    obtain ⟨hcount, his, -⟩ := List.append_eq_replicate_iff.mp hrest.symm
    rw [List.length_cons] at hcount
    -- so far there have been `is.length` of the events
    obtain ⟨os', s, content, hrun, -, hstate, -⟩ :=
      exists_countedRun_shortEvents (n := is.length) (by omega)
    rw [shortEvents, ← his] at hrun
    obtain ⟨-, heq⟩ := run.unique CountedStep.det hrun
    obtain ⟨rfl, rfl⟩ := Prod.mk.inj heq
    intro r _
    rw [hstate]
    show 3 * is.length + (16 + 24 * is.length) ≤ btsnoopLimit
    omega

/-- A thousand events make a file within the limit. -/
theorem snoop_size_iff_shortEvents : (∃ os s content, LogRun (shortEvents 1000) os s ∧
    s.btsnoop.file = some content ∧ content.length = 27016) ∧ SnoopSizeBounded (shortEvents 1000) := by
  constructor
  · obtain ⟨os, s, content, hrun, -, hstate, hlen⟩ :=
      exists_countedRun_shortEvents (n := 1000) (by decide)
    exact ⟨os, s, content, hrun.logRun, by rw [hstate], hlen⟩
  · exact (snoop_size_iff (sliced_shortEvents 1000)).mpr
      fun is e js os t m hes run => snoopRoom_shortEvents (by decide) hes run

/-- Eighty million events make a file whose size is another one in an `int`. -/
theorem snoop_size_unbounded : ∃ os s content, LogRun (shortEvents 80000000) os s ∧
    s.btsnoop.file = some content ∧ btsnoopLimit + snoopRecordMax < content.length ∧
      toInt32 content.length ≠ content.length := by
  obtain ⟨os, s, content, hrun, -, hstate, hlen⟩ :=
    exists_countedRun_shortEvents (n := 80000000) (by decide)
  refine ⟨os, s, content, hrun.logRun, by rw [hstate], ?_, ?_⟩
  · rw [hlen]
    decide
  · have hneg := toInt32_neg (n := content.length) (by rw [hlen]; decide) (by rw [hlen]; decide)
    omega

end Seekwave
