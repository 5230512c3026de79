import Seekwave.Scomm.HostFraming

/-!
# What a call reads of the host's stream, and where to

`rawReads` are the `read()`s of a call of `scomm_vendor_recv_rawdata`, each with its place in
`recvSocketBuf` and the count it asks for. The count of the payload is a 16-bit field of the header that
nothing checks, and it is asked for again behind the bytes of a short read: `host_reads_inside_iff` says
exactly when all the reads stay inside the buffer.
-/

open Memory

namespace Seekwave

/-! ## The reads of a call -/

/-- A `read()`: the place in `recvSocketBuf`, the count asked for, and what it returns. -/
structure ReadCall where
  pos : ℕ
  count : ℕ
  result : ReadResult
deriving DecidableEq, Repr

/-- A `read()` returns no more bytes than it is asked for. -/
def ReadCall.Possible (c : ReadCall) : Prop := (c.result.getD []).length ≤ c.count

instance (c : ReadCall) : Decidable c.Possible := by unfold ReadCall.Possible; infer_instance

/-- The reads of the loop of the header and of the payload. -/
def readLoopCalls (offset needReadLens : ℕ) : List ReadResult → ℕ → List ReadCall
  | [], _ => []
  | r :: rs, bytesRead =>
    ⟨offset + bytesRead, needReadLens, r⟩ ::
      if needReadLens < (r.getD []).length ∨ revLen r < 0 then []
      else
        let bytesRead' := bytesRead + (revLen r).toNat
        if bytesRead' < needReadLens then readLoopCalls offset needReadLens rs bytesRead' else []

/-- The reads of the payload, once the header is in `buf`. -/
def payloadReads (buf : List UInt8) (offset : ℕ) (reads : List ReadResult) : List ReadCall :=
  let needReadLens := rawPayloadLen buf
  if 0 < needReadLens then readLoopCalls offset needReadLens reads 0 else []

/-- The reads of the header and the payload, once the type byte is in `buf`. -/
def headerReads (buf : List UInt8) (reads : List ReadResult) : List ReadCall :=
  let pktType := byteAt buf 0
  if rawAccepts pktType then
    let needReadLens := hciPreambleSizes pktType
    readLoopCalls 1 needReadLens reads 0 ++
      match readLoop 1 needReadLens reads buf 0 with
      | .complete buf' rest => payloadReads buf' (1 + needReadLens) rest
      | _ => []
  else []

/-- The reads of a call of `scomm_vendor_recv_rawdata`, with what they return. -/
def rawReads (buf : List UInt8) : List ReadResult → List ReadCall
  | [] => []
  | r :: rs =>
    ⟨0, 1, r⟩ ::
      if 1 < (r.getD []).length ∨ revLen r ≤ 0 then []
      else headerReads (store buf 0 (r.getD [])) rs

/-- What reads leave in the buffer. -/
def stored (buf : List UInt8) (cs : List ReadCall) : List UInt8 :=
  cs.foldl (fun m c => store m c.pos (c.result.getD [])) buf

theorem stored_append (buf : List UInt8) (cs ds : List ReadCall) :
    stored buf (cs ++ ds) = stored (stored buf cs) ds := List.foldl_append

/-- A loop that ends has made its reads, in their order, and stored what they returned. -/
theorem readLoop_calls {offset need : ℕ} {rs rest : List ReadResult} {buf buf' : List UInt8} {n : ℕ}
    (h : readLoop offset need rs buf n = .complete buf' rest ∨
      readLoop offset need rs buf n = .failed buf' rest) :
    rs = (readLoopCalls offset need rs n).map ReadCall.result ++ rest ∧
      buf' = stored buf (readLoopCalls offset need rs n) := by
  induction rs generalizing buf n with
  | nil => rcases h with h | h <;> cases h
  | cons r rs ih =>
    rw [readLoop] at h
    rw [readLoopCalls]
    -- a result longer than was asked for is none that `read` gives
    by_cases hlong : need < (r.getD []).length
    · rw [if_pos hlong] at h
      rcases h with h | h <;> cases h
    · rw [if_neg hlong] at h
      by_cases hfail : revLen r < 0
      · rw [if_pos (.inr hfail)]
        rw [if_pos hfail] at h
        rcases h with h | h
        · cases h
        · obtain ⟨rfl, rfl⟩ := ReadLoop.failed.inj h
          exact ⟨rfl, rfl⟩
      · rw [if_neg (not_or.mpr ⟨hlong, hfail⟩)]
        rw [if_neg hfail] at h
        dsimp only at h ⊢
        split at h
        · next hlt =>
          obtain ⟨hrs, hbuf⟩ := ih h
          rw [if_pos hlt]
          exact ⟨congrArg (r :: ·) hrs, hbuf⟩
        · next hge =>
          rw [if_neg hge]
          rcases h with h | h
          · obtain ⟨rfl, rfl⟩ := ReadLoop.complete.inj h
            exact ⟨rfl, rfl⟩
          · cases h

section Calls

variable {cfg : RawConfig} {s : RawState} {reads : List ReadResult} {writes : List (Option ℕ)}

/-- The reads that a call has made and those left to it, and the buffer it leaves. -/
def MadeReads (buf : List UInt8) (reads : List ReadResult) (cs : List ReadCall) (c : RawCall) : Prop :=
  reads = cs.map ReadCall.result ++ c.restReads ∧ c.state.recvSocketBuf = stored buf cs

theorem madeReads_rawSend (totalLen : ℕ) :
    MadeReads s.recvSocketBuf reads [] (rawSend cfg s totalLen reads writes) := ⟨rfl, rfl⟩

/-- The payload stage makes the reads of `payloadReads`. -/
theorem madeReads_rawPayload {offset : ℕ}
    (h : (rawPayload cfg s offset reads writes).callEnd ≠ .blocked) :
    MadeReads s.recvSocketBuf reads (payloadReads s.recvSocketBuf offset reads)
      (rawPayload cfg s offset reads writes) := by
  rw [rawPayload] at h ⊢
  rw [payloadReads]
  split at h
  · next hpos =>
    rw [if_pos hpos, if_pos hpos]
    split at h
    · exact absurd rfl h
    · next hloop =>
      exact readLoop_calls (.inr hloop)
    · next hloop =>
      exact readLoop_calls (.inl hloop)
  · next hzero =>
    rw [if_neg hzero, if_neg hzero]
    exact madeReads_rawSend offset

/-- The header stage makes the reads of `headerReads`. -/
theorem madeReads_rawHeader (h : (rawHeader cfg s reads writes).callEnd ≠ .blocked) :
    MadeReads s.recvSocketBuf reads (headerReads s.recvSocketBuf reads)
      (rawHeader cfg s reads writes) := by
  rw [rawHeader] at h ⊢
  rw [headerReads]
  dsimp only at h ⊢
  split at h
  · next hacc =>
    rw [if_pos hacc, if_pos hacc]
    split at h
    · exact absurd rfl h
    · next hloop =>
      obtain ⟨hreads, hbuf⟩ := readLoop_calls (.inr hloop)
      rw [hloop, List.append_nil]
      exact ⟨hreads, hbuf⟩
    · next buf rest hloop =>
      obtain ⟨hreads, hbuf⟩ := readLoop_calls (.inl hloop)
      obtain ⟨hrest, hstate⟩ := madeReads_rawPayload h
      rw [hloop]
      refine ⟨?_, ?_⟩
      · rw [List.map_append, List.append_assoc, ← hrest]
        exact hreads
      · rw [stored_append, ← hbuf]
        exact hstate
  · next hacc =>
    rw [if_neg hacc, if_neg hacc]
    exact ⟨rfl, rfl⟩

/-- **The reads of the call.** A call that is not left waiting has made the reads of `rawReads`, one
after the other, and the buffer holds what they have stored. -/
theorem madeReads_scommVendorRecvRawdata
    (h : (scommVendorRecvRawdata cfg s reads writes).callEnd ≠ .blocked) :
    MadeReads s.recvSocketBuf reads (rawReads s.recvSocketBuf reads)
      (scommVendorRecvRawdata cfg s reads writes) := by
  rcases reads with - | ⟨r, rs⟩
  · exact absurd rfl h
  · rw [scommVendorRecvRawdata] at h ⊢
    rw [rawReads]
    by_cases hlong : 1 < (r.getD []).length
    · rw [if_pos hlong] at h
      exact absurd rfl h
    · rw [if_neg hlong] at h ⊢
      by_cases hend : revLen r ≤ 0
      · rw [if_pos hend, if_pos (.inr hend)]
        exact ⟨rfl, rfl⟩
      · rw [if_neg hend] at h ⊢
        rw [if_neg (not_or.mpr ⟨hlong, hend⟩)]
        obtain ⟨hrest, hstate⟩ := madeReads_rawHeader h
        exact ⟨congrArg (r :: ·) hrest, hstate⟩

end Calls

/-! ## The reads of a loop -/

section Loops

variable {offset need n : ℕ} {rs : List ReadResult}

theorem readLoopCalls_fits {c : List UInt8} (hc : FitsRead need c) (rs : List ReadResult) :
    readLoopCalls offset need (some c :: rs) n =
      ⟨offset + n, need, some c⟩ ::
        if n + c.length < need then readLoopCalls offset need rs (n + c.length) else [] := by
  have hlen := revLen_some hc.2
  have hle := hc.1
  simp only [readLoopCalls, Option.getD_some, hlen, Int.toNat_natCast]
  rw [if_neg (by omega)]

/-- Any other read is the last of its loop. -/
theorem readLoopCalls_unfit {r : ReadResult} (hneed : need < 65536)
    (hr : ∀ c, r = some c → ¬ FitsRead need c) (rs : List ReadResult) :
    readLoopCalls offset need (r :: rs) n = [⟨offset + n, need, r⟩] := by
  rw [readLoopCalls, if_pos (unfit_read hneed hr)]

/-- **The reads of a loop.** Each is made behind reads that fit and leave bytes missing. -/
theorem mem_readLoopCalls_iff (hneed : need < 65536) (hn : n < need) {x : ReadCall} :
    x ∈ readLoopCalls offset need rs n ↔ ∃ (ps : List (List UInt8)) (r : ReadResult) (qs : List ReadResult),
      rs = ps.map some ++ r :: qs ∧ (∀ p ∈ ps, FitsRead need p) ∧
        n + ps.flatten.length < need ∧ x = ⟨offset + n + ps.flatten.length, need, r⟩ := by
  induction rs generalizing n with
  | nil => simp [readLoopCalls]
  | cons r rs ih =>
    by_cases hr : ∃ c, r = some c ∧ FitsRead need c
    · obtain ⟨c, rfl, hc⟩ := hr
      rw [readLoopCalls_fits hc, List.mem_cons]
      constructor
      · rintro (rfl | hx)
        · exact ⟨[], some c, rs, rfl, nofun, hn, rfl⟩
        · split at hx
          · next hlt =>
            obtain ⟨ps, r, qs, rfl, hps, hsum, rfl⟩ := (ih hlt).mp hx
            refine ⟨c :: ps, r, qs, rfl, List.forall_mem_cons.mpr ⟨hc, hps⟩, ?_, ?_⟩
            · rw [List.flatten_cons, List.length_append]
              omega
            · rw [List.flatten_cons, List.length_append, Nat.add_assoc, Nat.add_assoc, Nat.add_assoc]
          · exact absurd hx List.not_mem_nil
      · rintro ⟨ps, r, qs, hrs, hps, hsum, rfl⟩
        rcases ps with - | ⟨p, ps⟩
        · obtain ⟨rfl, -⟩ := List.cons.inj hrs
          exact .inl rfl
        · rw [List.map_cons, List.cons_append] at hrs
          obtain ⟨hpc, rfl⟩ := List.cons.inj hrs
          obtain rfl := Option.some.inj hpc
          rw [List.flatten_cons, List.length_append] at hsum
          have hlt : n + c.length < need := by omega
          refine .inr ?_
          rw [if_pos hlt]
          refine (ih hlt).mpr ⟨ps, r, qs, rfl, fun p hp => hps p (List.mem_cons_of_mem _ hp),
            by omega, ?_⟩
          rw [List.flatten_cons, List.length_append, Nat.add_assoc, Nat.add_assoc, Nat.add_assoc]
    · have hunfit : ∀ c, r = some c → ¬ FitsRead need c := fun c hrc hc => hr ⟨c, hrc, hc⟩
      -- nothing is read behind it
      rw [readLoopCalls_unfit hneed hunfit, List.mem_singleton]
      constructor
      · rintro rfl
        exact ⟨[], r, rs, rfl, nofun, hn, rfl⟩
      · rintro ⟨ps, r', qs, hrs, hps, hsum, rfl⟩
        rcases ps with - | ⟨p, ps⟩
        · obtain ⟨rfl, -⟩ := List.cons.inj hrs
          rfl
        · rw [List.map_cons, List.cons_append] at hrs
          exact absurd (hps p List.mem_cons_self) (hunfit p (List.cons.inj hrs).1)

end Loops

/-! ## Reads inside the buffer -/

/-- A read asks for bytes of `recvSocketBuf` only, and `rev_len` holds what it returns. -/
structure ReadCall.Inside (c : ReadCall) : Prop where
  buffer : c.pos + c.count ≤ recvSocketBufSize
  revLen : revLen c.result = readRet c.result

/-- When the payload is read inside the buffer: behind the header and the bytes that the reads of the
payload have returned so far, there is still room for as many bytes as the header announces. -/
def PayloadInside (reads : List ReadResult) : Prop :=
  ∀ (x : UInt8) (hs ps : List (List UInt8)) (r : ReadResult) (qs : List ReadResult),
    reads = some [x] :: (hs.map some ++ (ps.map some ++ r :: qs)) → rawAccepts x →
    Completes (hciPreambleSizes x) hs → ps.flatten.length < rawPayloadLen (x :: hs.flatten) →
      1 + hciPreambleSizes x + ps.flatten.length + rawPayloadLen (x :: hs.flatten) ≤ recvSocketBufSize

theorem rawPayloadLen_lt (b : List UInt8) : rawPayloadLen b < 65536 := by
  have hword := u16At_lt b hciCommonDataLengthIndex
  have hevent := (byteAt b hciEventDataLengthIndex).toNat_lt
  have hbyte := (byteAt b hciCommonDataLengthIndex).toNat_lt
  rw [rawPayloadLen]
  repeat' split
  all_goals omega

/-- `rev_len` holds an error and any number of bytes up to 32767. -/
theorem revLen_eq {r : ReadResult} (h : (r.getD []).length ≤ 32767) : revLen r = readRet r := by
  rcases r with - | c
  · exact revLen_none
  · exact revLen_some h

/-- A read that asks for bytes of the buffer only returns what `rev_len` holds. -/
theorem ReadCall.Possible.inside {c : ReadCall} (h : c.Possible)
    (hbuffer : c.pos + c.count ≤ recvSocketBufSize) : c.Inside where
  buffer := hbuffer
  revLen := revLen_eq (Nat.le_trans h (Nat.le_trans (Nat.le_add_left _ _)
    (Nat.le_trans hbuffer (by decide))))

section Stages

variable {offset need n : ℕ} {x : UInt8} {buf : List UInt8} {hs : List (List UInt8)}
  {rs rest reads : List ReadResult} {c : ReadCall}

/-- Possible reads of a loop that asks for few enough bytes fit, up to the one that ends the loop. -/
theorem fitsRead_of_possible (hneed : need ≤ 32767) (hlast : n + hs.dropLast.flatten.length < need)
    (hpossible : ∀ c ∈ readLoopCalls offset need (hs.map some ++ rest) n, c.Possible) :
    ∀ d ∈ hs, FitsRead need d := by
  induction hs generalizing n with
  | nil => exact nofun
  | cons d hs ih =>
    have hd : FitsRead need d := by
      have hle : d.length ≤ need := hpossible ⟨offset + n, need, some d⟩ List.mem_cons_self
      exact ⟨hle, Nat.le_trans hle hneed⟩
    refine List.forall_mem_cons.mpr ⟨hd, ?_⟩
    rcases hs with - | ⟨a, hs⟩
    · exact nofun
    · rw [List.dropLast_cons_of_ne_nil (List.cons_ne_nil _ _), List.flatten_cons,
        List.length_append] at hlast
      refine ih (n := n + d.length) (by omega) fun c hc => hpossible c ?_
      rw [List.map_cons, List.cons_append, readLoopCalls_fits hd, if_pos (by omega)]
      exact List.mem_cons_of_mem _ hc

/-- The reads behind a type byte: those of the header, and those of the payload if the header ends. -/
theorem mem_headerReads_iff (hacc : rawAccepts x) :
    c ∈ headerReads (store buf 0 [x]) rs ↔ c ∈ readLoopCalls 1 (hciPreambleSizes x) rs 0 ∨
      ∃ hs rest, rs = List.map some hs ++ rest ∧ (∀ d ∈ hs, FitsRead (hciPreambleSizes x) d) ∧
        Completes (hciPreambleSizes x) hs ∧ 0 < rawPayloadLen (x :: hs.flatten) ∧
        c ∈ readLoopCalls (1 + hciPreambleSizes x) (rawPayloadLen (x :: hs.flatten)) rest 0 := by
  obtain ⟨hpos, hle⟩ := hciPreambleSizes_of_rawAccepts hacc
  rw [headerReads]
  dsimp only
  rw [byteAt_store_cons, if_pos hacc, List.mem_append]
  refine or_congr_right ⟨fun h => ?_, ?_⟩
  · split at h
    · next buf' rest hloop =>
      obtain ⟨hs, rfl, hfits, hlast, hreach, rfl⟩ :=
        (readLoop_complete_iff (by omega) hpos).mp hloop
      rw [Nat.zero_add] at hlast hreach
      rw [Nat.add_zero, store_cons, payloadReads, rawPayloadLen_store hacc hreach] at h
      split at h
      · next hpay => exact ⟨hs, rest, rfl, hfits, ⟨hlast, hreach⟩, hpay, h⟩
      · exact absurd h List.not_mem_nil
    · exact absurd h List.not_mem_nil
  · rintro ⟨hs, rest, rfl, hfits, ⟨hlast, hreach⟩, hpay, h⟩
    have hloop : readLoop 1 (hciPreambleSizes x) (hs.map some ++ rest) (store buf 0 [x]) 0 =
        .complete (store buf 0 (x :: hs.flatten)) rest := by
      rw [readLoop_complete_of hpos hfits (by rwa [Nat.zero_add]) (by rwa [Nat.zero_add]),
        Nat.add_zero, store_cons]
    rw [hloop]
    dsimp only
    rwa [payloadReads, rawPayloadLen_store hacc hreach, if_pos hpay]

/-- The reads of a call: that of the type, and those behind it if it gives an accepted type. -/
theorem mem_rawReads_iff : c ∈ rawReads buf reads ↔
    (∃ r rs, reads = r :: rs ∧ c = ⟨0, 1, r⟩) ∨
      ∃ x rs, reads = some [x] :: rs ∧ rawAccepts x ∧ c ∈ headerReads (store buf 0 [x]) rs := by
  rcases reads with - | ⟨r, rs⟩
  · simp [rawReads]
  · rw [rawReads, List.mem_cons]
    refine or_congr ⟨fun h => ⟨r, rs, rfl, h⟩, ?_⟩ ⟨fun h => ?_, ?_⟩
    · rintro ⟨r', rs', heq, rfl⟩
      obtain ⟨rfl, -⟩ := List.cons.inj heq
      rfl
    · split at h
      · exact absurd h List.not_mem_nil
      · next hgo =>
        obtain ⟨hlong, hend⟩ := not_or.mp hgo
        obtain ⟨x, rfl⟩ : ∃ x, r = some [x] := by
          rcases r with - | d
          · exact absurd (by rw [revLen_none]; decide) hend
          · rw [Option.getD_some] at hlong
            have hrev := @revLen_some d (by omega)
            obtain ⟨x, rfl⟩ := List.length_eq_one_iff.mp (show d.length = 1 by omega)
            exact ⟨x, rfl⟩
        refine ⟨x, rs, rfl, ?_, h⟩
        by_contra hacc
        rw [Option.getD_some, headerReads] at h
        dsimp only at h
        rw [byteAt_store_cons, if_neg hacc] at h
        exact absurd h List.not_mem_nil
    · rintro ⟨x, rs', heq, -, h⟩
      obtain ⟨rfl, rfl⟩ := List.cons.inj heq
      have hrev : revLen (some [x]) = 1 := @revLen_some [x] (by simp)
      have hone : ¬ 1 < ((some [x] : ReadResult).getD []).length := Nat.lt_irrefl 1
      rwa [hrev, if_neg (not_or.mpr ⟨hone, by decide⟩)]

end Stages

/-- **Reads inside the buffer, exactly when.** For any bytes the host writes and any results that the
reads of a call can return, every read asks for bytes of `recvSocketBuf` only, and `rev_len` holds what
it returns, if and only if at every read of the payload there is room for the whole count. -/
theorem host_reads_inside_iff {buf : List UInt8} {reads : List ReadResult}
    (hpossible : ∀ c ∈ rawReads buf reads, c.Possible) :
    (∀ c ∈ rawReads buf reads, c.Inside) ↔ PayloadInside reads := by
  have hbuf : recvSocketBufSize = 4096 := rfl
  constructor
  · intro hinside x hs ps r qs hreads hacc hcomplete hsum
    obtain ⟨hpos, hle⟩ := hciPreambleSizes_of_rawAccepts hacc
    have hin : ∀ c ∈ headerReads (store buf 0 [x]) (hs.map some ++ (ps.map some ++ r :: qs)),
        c ∈ rawReads buf reads := fun c hc => mem_rawReads_iff.mpr (.inr ⟨x, _, hreads, hacc, hc⟩)
    have hfits : ∀ d ∈ hs, FitsRead (hciPreambleSizes x) d :=
      @fitsRead_of_possible 1 _ 0 hs _ (by omega) (by rw [Nat.zero_add]; exact hcomplete.1)
        fun c hc => hpossible c (hin c ((mem_headerReads_iff hacc).mpr (.inl hc)))
    have hpayload : ∀ c ∈ readLoopCalls (1 + hciPreambleSizes x) (rawPayloadLen (x :: hs.flatten))
        (ps.map some ++ r :: qs) 0, c ∈ rawReads buf reads := fun c hc =>
      hin c ((mem_headerReads_iff hacc).mpr (.inr ⟨hs, _, rfl, hfits, hcomplete, by omega, hc⟩))
    -- the first read of the payload bounds its count, so that the pieces of it fit `rev_len`
    have hcount : rawPayloadLen (x :: hs.flatten) ≤ recvSocketBufSize := by
      rcases ps with - | ⟨p, ps⟩
      · have hfirst := (hinside _ (hpayload _ List.mem_cons_self)).buffer
        dsimp only at hfirst
        omega
      · have hfirst := (hinside _ (hpayload _ List.mem_cons_self)).buffer
        dsimp only at hfirst
        omega
    have hps : ∀ d ∈ ps, FitsRead (rawPayloadLen (x :: hs.flatten)) d := by
      refine @fitsRead_of_possible (1 + hciPreambleSizes x) _ 0 ps (r :: qs) (by omega) ?_
        fun c hc => hpossible c (hpayload c hc)
      obtain ⟨tail, htail⟩ := List.dropLast_prefix ps
      have hdrop := congrArg (fun l => l.flatten.length) htail
      simp only [List.flatten_append, List.length_append] at hdrop
      omega
    have hlast := (hinside _ (hpayload _ ((mem_readLoopCalls_iff (by omega) (by omega)).mpr
      ⟨ps, r, qs, rfl, hps, by omega, rfl⟩))).buffer
    dsimp only at hlast
    omega
  · intro hroom c hc
    refine (hpossible c hc).inside ?_
    rcases mem_rawReads_iff.mp hc with ⟨r, rs, -, rfl⟩ | ⟨x, rs, rfl, hacc, hc⟩
    · show 0 + 1 ≤ recvSocketBufSize
      decide
    · obtain ⟨hpos, hle⟩ := hciPreambleSizes_of_rawAccepts hacc
      rcases (mem_headerReads_iff hacc).mp hc with hc | ⟨hs, rest, rfl, -, hcomplete, hpay, hc⟩
      · obtain ⟨ps, r, qs, -, -, hsum, rfl⟩ := (mem_readLoopCalls_iff (by omega) hpos).mp hc
        dsimp only
        omega
      · obtain ⟨ps, r, qs, rfl, -, hsum, rfl⟩ :=
          (mem_readLoopCalls_iff (rawPayloadLen_lt _) hpay).mp hc
        have hfit := hroom x hs ps r qs rfl hacc hcomplete (by omega)
        dsimp only
        omega

/-- A command of three parameters, its payload in two pieces. -/
def pieceReads : List ReadResult :=
  [some [0x01], some [0x03, 0x0C, 0x03], some [0x00], some [0x00, 0x00]]

/-- An ACL packet that announces 4093 bytes of payload. -/
def longReads : List ReadResult :=
  [some [0x02], some [0x00, 0x00, 0xFD, 0x0F], some [0x00]]

theorem host_reads_inside_pieces : PayloadInside pieceReads := by
  have hpossible : ∀ c ∈ rawReads RawState.init.recvSocketBuf pieceReads, c.Possible := by decide
  have hbuffer : ∀ c ∈ rawReads RawState.init.recvSocketBuf pieceReads,
      c.pos + c.count ≤ recvSocketBufSize := by decide
  exact (host_reads_inside_iff hpossible).mp fun c hc => (hpossible c hc).inside (hbuffer c hc)

/-- The read of that payload asks for a byte beyond the buffer. -/
theorem host_reads_outside : ∃ c ∈ rawReads RawState.init.recvSocketBuf longReads,
    c.Possible ∧ recvSocketBufSize < c.pos + c.count := by
  refine ⟨⟨5, 4093, some [0x00]⟩, ?_, ?_, ?_⟩ <;> decide

end Seekwave
