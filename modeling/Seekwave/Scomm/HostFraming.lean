import Seekwave.Lib.Execution
import Seekwave.Lib.Stages
import Seekwave.Scomm.RawData

/-!
# Framing of the host's byte stream

The host writes packets to the socket back to back, and each call of `scomm_vendor_recv_rawdata` is
meant to consume one of them. The loops for the header and the payload ask for the whole count again
after a short read, so that they can take bytes of the next packet as well:
`rawdata_framing_exact_iff` says that the framing is exact if and only if no such read returns more
than is missing.
-/

open Memory

namespace Seekwave

/-! ## Host packets and calls without faults -/

/-- A well-formed packet from the host: an accepted type, exactly the bytes its header announces, and
no more than `recvSocketBuf` holds. -/
structure HostPacket where
  bytes : List UInt8
  accepted : rawAccepts (byteAt bytes 0)
  header : hdrLens bytes ≤ bytes.length
  total : bytes.length = hdrLens bytes + rawPayloadLen bytes
  fits : bytes.length ≤ recvSocketBufSize

/-- The type byte of a packet. -/
def HostPacket.pktType (p : HostPacket) : UInt8 := byteAt p.bytes 0

/-- What the system calls of one call return: each `read()` at least a byte, and each `write()` the
number of bytes taken. -/
structure HostCall where
  chunks : List (List UInt8)
  nonempty : ∀ chunk ∈ chunks, chunk ≠ []
  counts : List ℕ

/-- A call that uses all these results and returns. -/
def RawStep (cfg : RawConfig) (s : RawState) (c : HostCall) (os : List RawEvent) (t : RawState) :
    Prop :=
  scommVendorRecvRawdata cfg s (c.chunks.map some) (c.counts.map some) = ⟨.returned, t, os, [], []⟩

/-- The bytes written to a port. -/
def written (port : Port) (os : List RawEvent) : List UInt8 :=
  os.flatMap fun
    | .portWrite q bytes => if q = port then bytes else []
    | _ => []

/-- A call consumes exactly the bytes of `p` and writes exactly those to the port it selects. -/
def Forwards (cfg : RawConfig) (p : HostPacket) (c : HostCall) (os : List RawEvent) : Prop :=
  c.chunks.flatten = p.bytes ∧
    ∀ port, written port os = if port = sendPort cfg p.pktType then p.bytes else []

/-- No read of the header or of the payload returns more than is missing of it. -/
def HostCall.NoOverRead (c : HostCall) (p : HostPacket) : Prop :=
  NoOverReads [hciPreambleSizes p.pktType, rawPayloadLen p.bytes] c.chunks.tail

/-! ## The header -/

/-- Bytes that agree on a whole header announce the same payload. -/
theorem rawPayloadLen_eq_of_agree {b c : List UInt8} (hacc : rawAccepts (byteAt b 0))
    (hbyte : ∀ i < hdrLens b, byteAt c i = byteAt b i) : rawPayloadLen c = rawPayloadLen b := by
  have h0 : byteAt c 0 = byteAt b 0 := hbyte 0 (hdrLens_pos b)
  rcases hacc with h | h | h | h
  all_goals
    simp only [hdrLens, h, hciPreambleSizes_command, hciPreambleSizes_acldata,
      hciPreambleSizes_scodata, hciPreambleSizes_iso] at hbyte
    simp +decide [rawPayloadLen, h0, h, u16At, hbyte, hciCommonDataLengthIndex]

/-- The preamble of an accepted type is not empty, and no longer than four bytes. -/
theorem hciPreambleSizes_of_rawAccepts {pktType : UInt8} (hacc : rawAccepts pktType) :
    0 < hciPreambleSizes pktType ∧ hciPreambleSizes pktType ≤ 4 := by
  rcases hacc with h | h | h | h <;> rw [h] <;> decide

/-- Bytes that begin with a whole header announce what the header does. -/
theorem rawPayloadLen_append {b c : List UInt8} (hacc : rawAccepts (byteAt b 0))
    (hhdr : hdrLens b ≤ b.length) : rawPayloadLen (b ++ c) = rawPayloadLen b :=
  rawPayloadLen_eq_of_agree hacc fun _ hi => byteAt_append_left (Nat.lt_of_lt_of_le hi hhdr)

/-! ## The loops -/

/-- A read that returns bytes is no error, as long as their number fits `rev_len`. -/
theorem revLen_some {chunk : List UInt8} (h : chunk.length ≤ 32767) :
    revLen (some chunk) = chunk.length := by
  show Int.bmod chunk.length 65536 = chunk.length
  rw [Int.bmod_def]
  split <;> omega

/-- A read of more bytes than `rev_len` holds is taken for an error. -/
theorem revLen_some_neg {chunk : List UInt8} (h : 32767 < chunk.length) (h' : chunk.length < 65536) :
    revLen (some chunk) < 0 := by
  show Int.bmod chunk.length 65536 < 0
  rw [Int.bmod_def]
  split <;> omega

theorem revLen_none : revLen none = -1 := by decide

/-- The bytes of a read that is possible and whose count `rev_len` holds. -/
def FitsRead (need : ℕ) (c : List UInt8) : Prop := c.length ≤ need ∧ c.length ≤ 32767

section Loops

variable {offset need n : ℕ} {cs hs qs : List (List UInt8)} {buf buf' : List UInt8}
  {rs rest : List ReadResult}

/-- A read that fits takes the loop on, or to its end. -/
theorem readLoop_fits {c : List UInt8} (hc : FitsRead need c) (rs : List ReadResult) :
    readLoop offset need (some c :: rs) buf n =
      if n + c.length < need then
        readLoop offset need rs (store buf (offset + n) c) (n + c.length)
      else .complete (store buf (offset + n) c) rs := by
  have hlen := revLen_some hc.2
  have hle := hc.1
  simp only [readLoop, Option.getD_some, hlen, Int.toNat_natCast]
  rw [if_neg (by omega), if_neg (by omega)]

/-- Any other read is impossible, or an error. -/
theorem unfit_read {r : ReadResult} (hneed : need < 65536) (hr : ∀ c, r = some c → ¬ FitsRead need c) :
    need < (r.getD []).length ∨ revLen r < 0 := by
  rcases r with - | c
  · exact .inr (by rw [revLen_none]; decide)
  · have hunfit := hr c rfl
    rw [FitsRead] at hunfit
    rw [Option.getD_some]
    by_cases hlong : need < c.length
    · exact .inl hlong
    · exact .inr (revLen_some_neg (by omega) (by omega))

/-- A read that does not fit does not complete the loop. -/
theorem readLoop_unfit {r : ReadResult} (hneed : need < 65536)
    (hr : ∀ c, r = some c → ¬ FitsRead need c) (rs : List ReadResult) :
    readLoop offset need (r :: rs) buf n =
      if need < (r.getD []).length then .blocked
      else .failed (store buf (offset + n) (r.getD [])) rs := by
  rw [readLoop]
  by_cases hlong : need < (r.getD []).length
  · rw [if_pos hlong, if_pos hlong]
  · rw [if_neg hlong, if_neg hlong]
    exact if_pos ((unfit_read hneed hr).resolve_left hlong)

/-- **The ends of a loop.** It takes reads that fit until bytes are missing and there is no further
read, or until one does not fit, or until the stage is complete. -/
theorem readLoop_ends (hneed : need < 65536) (hn : n < need) (rs : List ReadResult)
    (buf : List UInt8) :
    (∃ cs : List (List UInt8), rs = cs.map some ∧ (∀ c ∈ cs, FitsRead need c) ∧
        n + cs.flatten.length < need ∧ readLoop offset need rs buf n = .blocked) ∨
      (∃ (ps : List (List UInt8)) (r : ReadResult) (qs : List ReadResult),
        rs = ps.map some ++ r :: qs ∧ (∀ p ∈ ps, FitsRead need p) ∧ n + ps.flatten.length < need ∧
        (∀ c, r = some c → ¬ FitsRead need c) ∧ ∃ buf', readLoop offset need rs buf n =
          if need < (r.getD []).length then .blocked else .failed buf' qs) ∨
      ∃ (hs : List (List UInt8)) (rest : List ReadResult), rs = hs.map some ++ rest ∧
        (∀ c ∈ hs, FitsRead need c) ∧ n + hs.dropLast.flatten.length < need ∧
        need ≤ n + hs.flatten.length ∧
        readLoop offset need rs buf n = .complete (store buf (offset + n) hs.flatten) rest := by
  -- induction on the reads, with any number of bytes there when the next one is made
  induction rs generalizing buf n with
  | nil => exact .inl ⟨[], rfl, nofun, hn, rfl⟩
  | cons r rs ih =>
    by_cases hr : ∃ c, r = some c ∧ FitsRead need c
    · obtain ⟨c, rfl, hc⟩ := hr
      rw [readLoop_fits hc]
      by_cases hlt : n + c.length < need
      · rw [if_pos hlt]
        rcases ih hlt (store buf (offset + n) c) with ⟨cs, rfl, hfits, hsum, hloop⟩ |
          ⟨ps, r, qs, rfl, hfits, hsum, hunfit, hloop⟩ | ⟨hs, rest, rfl, hfits, hlast, hreach, hloop⟩
        · refine .inl ⟨c :: cs, rfl, List.forall_mem_cons.mpr ⟨hc, hfits⟩, ?_, hloop⟩
          rw [List.flatten_cons, List.length_append]
          omega
        · refine .inr (.inl ⟨c :: ps, r, qs, rfl, List.forall_mem_cons.mpr ⟨hc, hfits⟩, ?_, hunfit,
            hloop⟩)
          rw [List.flatten_cons, List.length_append]
          omega
        · refine .inr (.inr ⟨c :: hs, rest, rfl, List.forall_mem_cons.mpr ⟨hc, hfits⟩, ?_, ?_, ?_⟩)
          · rcases hs with - | ⟨a, hs⟩
            · exact hn
            · rw [List.dropLast_cons_of_ne_nil (List.cons_ne_nil _ _), List.flatten_cons,
                List.length_append]
              omega
          · rw [List.flatten_cons, List.length_append]
            omega
          · rw [hloop, ← Nat.add_assoc, store_store, List.flatten_cons]
      · rw [if_neg hlt]
        refine .inr (.inr ⟨[c], rs, rfl, List.forall_mem_singleton.mpr hc, hn, ?_, ?_⟩)
        · rw [List.flatten_singleton]
          omega
        · rw [List.flatten_singleton]
    · have hunfit : ∀ c, r = some c → ¬ FitsRead need c := fun c hrc hc => hr ⟨c, hrc, hc⟩
      exact .inr (.inl ⟨[], r, rs, rfl, nofun, hn, hunfit, _, readLoop_unfit hneed hunfit rs⟩)

/-- The first reads that fit and make up the stage complete the loop. -/
theorem readLoop_complete_of (hn : n < need) (hfits : ∀ c ∈ hs, FitsRead need c)
    (hlast : n + hs.dropLast.flatten.length < need) (hreach : need ≤ n + hs.flatten.length)
    (rest : List ReadResult) :
    readLoop offset need (hs.map some ++ rest) buf n =
      .complete (store buf (offset + n) hs.flatten) rest := by
  induction hs generalizing buf n with
  | nil =>
    rw [List.flatten_nil, List.length_nil] at hreach
    omega
  | cons c hs ih =>
    obtain ⟨hc, hfits⟩ := List.forall_mem_cons.mp hfits
    rw [List.flatten_cons, List.length_append] at hreach
    rw [List.map_cons, List.cons_append, readLoop_fits hc]
    rcases hs with - | ⟨a, hs⟩
    · rw [List.flatten_nil, List.length_nil] at hreach
      rw [if_neg (by omega), List.flatten_singleton]
      rfl
    · rw [List.dropLast_cons_of_ne_nil (List.cons_ne_nil _ _), List.flatten_cons,
        List.length_append] at hlast
      rw [if_pos (by omega), ih (by omega) hfits (by omega) (by omega), ← Nat.add_assoc, store_store]
      rfl

/-- **The end of a loop.** It completes with the first reads that fit and make up the stage. -/
theorem readLoop_complete_iff (hneed : need < 65536) (hn : n < need) :
    readLoop offset need rs buf n = .complete buf' rest ↔ ∃ hs : List (List UInt8),
      rs = hs.map some ++ rest ∧ (∀ c ∈ hs, FitsRead need c) ∧
        n + hs.dropLast.flatten.length < need ∧ need ≤ n + hs.flatten.length ∧
        buf' = store buf (offset + n) hs.flatten := by
  constructor
  · intro h
    rcases @readLoop_ends offset need n hneed hn rs buf with ⟨cs, -, -, -, hloop⟩ |
      ⟨ps, r, qs, -, -, -, -, buf', hloop⟩ | ⟨hs, rest', rfl, hfits, hlast, hreach, hloop⟩
    · exact absurd (h.symm.trans hloop) nofun
    · rw [h] at hloop
      split at hloop <;> exact absurd hloop nofun
    · obtain ⟨rfl, rfl⟩ := ReadLoop.complete.inj (h.symm.trans hloop)
      exact ⟨hs, rfl, hfits, hlast, hreach, rfl⟩
  · rintro ⟨hs, rfl, hfits, hlast, hreach, rfl⟩
    exact readLoop_complete_of hn hfits hlast hreach rest

theorem map_some_eq_append {cs hs : List (List UInt8)} (h : cs.map some = hs.map some ++ rest) :
    ∃ qs, cs = hs ++ qs ∧ rest = qs.map some := by
  obtain ⟨ks, qs, rfl, hks, rfl⟩ := List.map_eq_append_iff.mp h
  obtain rfl : ks = hs := List.map_injective_iff.mpr (fun _ _ => Option.some.inj) hks
  exact ⟨qs, rfl, rfl⟩

/-- The loop stores the pieces of one stage one behind the other. -/
theorem readLoop_complete (hneed : need ≤ 32767) (hn : n < need)
    (h : readLoop offset need (cs.map some) buf n = .complete buf' rest) :
    ∃ hs qs, cs = hs ++ qs ∧ rest = qs.map some ∧ n + hs.dropLast.flatten.length < need ∧
      need ≤ n + hs.flatten.length ∧ buf' = store buf (offset + n) hs.flatten := by
  obtain ⟨hs, hcs, -, hlast, hreach, hbuf⟩ := (readLoop_complete_iff (by omega) hn).mp h
  obtain ⟨qs, rfl, rfl⟩ := map_some_eq_append hcs
  exact ⟨hs, qs, rfl, rfl, hlast, hreach, hbuf⟩

/-- Reads that return bytes do not fail. -/
theorem readLoop_ne_failed (hneed : need ≤ 32767) (hn : n < need) :
    readLoop offset need (cs.map some) buf n ≠ .failed buf' rest := by
  intro h
  rcases @readLoop_ends offset need n (by omega) hn (cs.map some) buf with ⟨-, -, -, -, hloop⟩ |
    ⟨ps, r, qs, hcs, -, -, hunfit, buf', hloop⟩ | ⟨hs, rest', -, -, -, -, hloop⟩
  · exact absurd (h.symm.trans hloop) nofun
  · obtain ⟨es, rfl, hes⟩ := map_some_eq_append hcs
    obtain ⟨c, es, rfl, rfl, rfl⟩ := List.map_eq_cons_iff.mp hes.symm
    have hlong : need < ((some c : ReadResult).getD []).length := by
      have hfits := hunfit c rfl
      rw [FitsRead] at hfits
      rw [Option.getD_some]
      omega
    rw [if_pos hlong] at hloop
    exact absurd (h.symm.trans hloop) nofun
  · exact absurd (h.symm.trans hloop) nofun

/-- Pieces that end with the stage complete the loop. -/
theorem readLoop_exact (hneed : need ≤ 32767) (hn : n < need) (hne : ∀ c ∈ hs, c ≠ [])
    (hlen : n + hs.flatten.length = need) (rs : List ReadResult) :
    readLoop offset need (hs.map some ++ rs) buf n =
      .complete (store buf (offset + n) hs.flatten) rs := by
  refine readLoop_complete_of hn (fun c hc => ?_) ?_ (Nat.le_of_eq hlen.symm) rs
  · have hle := (List.sublist_flatten_of_mem hc).length_le
    exact ⟨by omega, by omega⟩
  · rcases List.eq_nil_or_concat hs with rfl | ⟨is, c, rfl⟩
    · exact hn
    · rw [List.concat_eq_append] at hlen hne ⊢
      have hpos := List.length_pos_of_ne_nil (hne c (by simp))
      rw [List.flatten_append, List.length_append, List.flatten_singleton] at hlen
      rw [List.dropLast_concat]
      omega

/-- The loop of writes sends the bytes from `transmitted_length` on, all to its port. -/
theorem written_writeLoop {port q : Port} {ws : List ℕ} {t : ℕ} (ht : t + n ≤ 65535)
    (h : (writeLoop port buf (ws.map some) t n).callEnd = .returned) :
    written q (writeLoop port buf (ws.map some) t n).events =
      if q = port then (buf.drop t).take n else [] := by
  induction ws generalizing t n with
  | nil =>
    rcases n with - | n
    · simp [writeLoop, written]
    · exact absurd h (by simp [writeLoop])
  | cons k ws ih =>
    rcases n with - | n
    · simp [writeLoop, written]
    · rw [List.map_cons, writeLoop] at h ⊢
      split at h
      · exact absurd h (by simp)
      · next hk =>
        rw [Nat.mod_eq_of_lt (by omega)] at h
        have hrest := ih (by omega) h
        have hsplit : (buf.drop t).take (n + 1) =
            (buf.drop t).take k ++ (buf.drop (t + k)).take (n + 1 - k) := by
          rw [← List.drop_drop, ← List.take_add]
          congr 1
          omega
        rw [if_neg hk, Nat.mod_eq_of_lt (by omega)]
        simp only [written, List.flatMap_cons] at hrest ⊢
        rw [hrest, hsplit]
        by_cases hq : q = port
        · subst hq
          simp
        · simp [hq, Ne.symm hq]

/-- Partial writes that add up to the packet complete the loop. -/
theorem writeLoop_returned {port : Port} {ws : List ℕ} {t : ℕ} (hsum : ws.sum = n)
    (hlast : ws.getLast? ≠ some 0) :
    (writeLoop port buf (ws.map some) t n).callEnd = .returned ∧
      (writeLoop port buf (ws.map some) t n).rest = [] := by
  induction ws generalizing t n with
  | nil =>
    obtain rfl : n = 0 := by simpa using hsum.symm
    exact ⟨rfl, rfl⟩
  | cons k ws ih =>
    rcases n with - | n
    · -- the last of numbers that add up to zero would be zero
      have hzero : ∀ a ∈ k :: ws, a = 0 := List.sum_eq_zero_iff_forall_eq_nat.mp hsum
      have hlast0 := hzero _ (List.getLast_mem (by simp))
      exact absurd (by rw [List.getLast?_eq_getLast_of_ne_nil (by simp), hlast0]) hlast
    · rw [List.sum_cons] at hsum
      have hlast' : ws.getLast? ≠ some 0 := by
        rcases ws with - | ⟨a, ws⟩
        · simp
        · rwa [List.getLast?_cons_cons] at hlast
      rw [List.map_cons, writeLoop, if_neg (by omega)]
      exact ih (by omega) hlast'

end Loops

/-! ## One call -/

section Call

variable {cfg : RawConfig} {s t : RawState} {c : HostCall} {os : List RawEvent} {p : HostPacket}

/-- What is sent, once the packet is in the buffer. -/
theorem written_rawSend {totalLen : ℕ} {rest : List ReadResult} {counts : List ℕ}
    (hlen : totalLen ≤ 65535)
    (hopen : cfg.driverState (sendPort cfg (byteAt s.recvSocketBuf 0)) = true)
    (h : rawSend cfg s totalLen rest (counts.map some) = ⟨.returned, t, os, [], []⟩) (port : Port) :
    written port os =
      if port = sendPort cfg (byteAt s.recvSocketBuf 0) then s.recvSocketBuf.take totalLen
      else [] := by
  rw [rawSend, if_pos hopen] at h
  injection h with hend _ hos _ _
  subst hos
  have hloop := @written_writeLoop totalLen s.recvSocketBuf _ port counts 0 (by omega) hend
  rw [List.drop_zero] at hloop
  rw [← hloop, written, List.flatMap_append, List.flatMap_cons]
  split <;> simp [written]

/-- A single byte stored at the front of the buffer, and what follows it behind. -/
theorem store_cons (m : List UInt8) (x : UInt8) (bs : List UInt8) :
    store (store m 0 [x]) 1 bs = store m 0 (x :: bs) := store_store m [x] bs 0

theorem byteAt_store_cons (m : List UInt8) (x : UInt8) (bs : List UInt8) :
    byteAt (store m 0 (x :: bs)) 0 = x := rfl

/-- The bytes stored at the front of a memory stand before the rest of it. -/
theorem store_zero (m bs : List UInt8) : store m 0 bs = bs ++ m.drop bs.length := by
  rw [store_of_le (Nat.zero_le _), List.take_zero, List.nil_append, Nat.zero_add]

/-- The buffer announces what the header read into it does. -/
theorem rawPayloadLen_store {x : UInt8} {bs : List UInt8} (hacc : rawAccepts x)
    (hhdr : hciPreambleSizes x ≤ bs.length) (m : List UInt8) :
    rawPayloadLen (store m 0 (x :: bs)) = rawPayloadLen (x :: bs) := by
  rw [store_zero]
  exact rawPayloadLen_append hacc (Nat.succ_le_succ hhdr)

/-- The type byte is read. -/
theorem scommVendorRecvRawdata_type (x : UInt8) (reads : List ReadResult)
    (writes : List (Option ℕ)) :
    scommVendorRecvRawdata cfg s (some [x] :: reads) writes =
      rawHeader cfg { s with recvSocketBuf := store s.recvSocketBuf 0 [x] } reads writes := by
  have hrev : revLen (some [x]) = 1 := @revLen_some [x] (by simp)
  rw [scommVendorRecvRawdata, if_neg (by simp), hrev, if_neg (by decide), Option.getD_some]

/-- **The header stage.** A call that returns has read an accepted type byte and the pieces of a
header. -/
theorem rawStep_header (h : RawStep cfg s c os t) :
    ∃ x hs qs, c.chunks = [x] :: (hs ++ qs) ∧ rawAccepts x ∧ Completes (hciPreambleSizes x) hs ∧
      rawPayload cfg { s with recvSocketBuf := store s.recvSocketBuf 0 (x :: hs.flatten) }
        (1 + hciPreambleSizes x) (qs.map some) (c.counts.map some) = ⟨.returned, t, os, [], []⟩ := by
  obtain ⟨chunks, hne, counts⟩ := c
  simp only [RawStep] at h hne ⊢
  rcases chunks with - | ⟨d, cs⟩
  · exact absurd (congrArg RawCall.callEnd h) (by simp [scommVendorRecvRawdata, rawStop])
  · by_cases hd : 1 < d.length
    · rw [List.map_cons, scommVendorRecvRawdata, if_pos (by simpa using hd)] at h
      exact absurd (congrArg RawCall.callEnd h) (by simp [rawStop])
    · obtain ⟨x, rfl⟩ : ∃ x, d = [x] := by
        have := List.length_pos_of_ne_nil (hne d (by simp))
        exact List.length_eq_one_iff.mp (by omega)
      rw [List.map_cons, scommVendorRecvRawdata_type, rawHeader, byteAt_store_cons] at h
      by_cases hacc : rawAccepts x
      · have hpre := hciPreambleSizes_of_rawAccepts hacc
        rw [if_pos hacc] at h
        dsimp only at h
        split at h
        · exact absurd (congrArg RawCall.callEnd h) (by simp [rawStop])
        · next hloop => exact absurd hloop (readLoop_ne_failed (by omega) (by omega))
        · next buf rest hloop =>
          obtain ⟨hs, qs, rfl, rfl, hlast, hreach, rfl⟩ :=
            readLoop_complete (by omega) (by omega) hloop
          rw [Nat.zero_add] at hlast hreach
          rw [Nat.add_zero, store_cons] at h
          exact ⟨x, hs, qs, rfl, hacc, ⟨hlast, hreach⟩, h⟩
      · rw [if_neg hacc] at h
        exact absurd (congrArg RawCall.callEnd h) (by simp [rawStop])

/-- **The payload stage.** It reads the pieces of the payload the header announces, and sends what
then is in the buffer. -/
theorem rawPayload_returned {x : UInt8} {hs qs : List (List UInt8)} {counts : List ℕ}
    (h : rawPayload cfg { s with recvSocketBuf := store s.recvSocketBuf 0 (x :: hs.flatten) }
      (1 + hciPreambleSizes x) (qs.map some) (counts.map some) = ⟨.returned, t, os, [], []⟩)
    (hacc : rawAccepts x) (hhdr : hciPreambleSizes x ≤ hs.flatten.length)
    (hfit : rawPayloadLen (x :: hs.flatten) ≤ 32767) :
    (rawPayloadLen (x :: hs.flatten) = 0 ∧ qs = [] ∨
      Completes (rawPayloadLen (x :: hs.flatten)) qs) ∧
    (hs.flatten.length = hciPreambleSizes x →
      rawSend cfg { s with
          recvSocketBuf := store s.recvSocketBuf 0 (x :: (hs.flatten ++ qs.flatten)) }
        (1 + hciPreambleSizes x + rawPayloadLen (x :: hs.flatten)) [] (counts.map some) =
          ⟨.returned, t, os, [], []⟩) := by
  have hpre := hciPreambleSizes_of_rawAccepts hacc
  simp only [rawPayload, rawPayloadLen_store hacc hhdr] at h
  split at h
  · next hpos =>
    split at h
    · exact absurd (congrArg RawCall.callEnd h) (by simp [rawStop])
    · next hloop => exact absurd hloop (readLoop_ne_failed hfit hpos)
    · next buf rest hloop =>
      obtain ⟨ks, ls, rfl, rfl, hlast, hreach, rfl⟩ := readLoop_complete hfit hpos hloop
      -- the call has used up its reads, so that nothing lies behind the payload
      have hls : ls = [] := by
        have hrest := congrArg RawCall.restReads h
        rw [rawSend] at hrest
        exact List.map_eq_nil_iff.mp hrest
      subst hls
      rw [List.append_nil, Nat.mod_eq_of_lt (by omega)] at *
      rw [Nat.zero_add] at hlast hreach
      refine ⟨.inr ⟨hlast, hreach⟩, fun hexact => ?_⟩
      -- a header read exactly lets the payload be stored right behind it
      have hstore : store (store s.recvSocketBuf 0 (x :: hs.flatten)) (1 + hciPreambleSizes x)
          ks.flatten = store s.recvSocketBuf 0 (x :: (hs.flatten ++ ks.flatten)) := by
        rw [← List.cons_append, ← store_store, List.length_cons, hexact, Nat.zero_add, Nat.add_comm]
      rwa [Nat.add_zero, hstore] at h
  · next hzero =>
    have hqs : qs = [] := by
      have hrest := congrArg RawCall.restReads h
      rw [rawSend] at hrest
      exact List.map_eq_nil_iff.mp hrest
    subst hqs
    have hz : rawPayloadLen (x :: hs.flatten) = 0 := by omega
    refine ⟨.inl ⟨hz, rfl⟩, fun _ => ?_⟩
    rw [hz, Nat.add_zero, List.flatten_nil, List.append_nil]
    exact h

/-- Pieces that end with the header and with the payload are read as such. -/
theorem rawHeader_exact {x : UInt8} {hs qs : List (List UInt8)} (hacc : rawAccepts x)
    (hne : ∀ c ∈ hs ++ qs, c ≠ []) (hhs : hs.flatten.length = hciPreambleSizes x)
    (hqs : qs.flatten.length = rawPayloadLen (x :: hs.flatten))
    (hfit : rawPayloadLen (x :: hs.flatten) ≤ 32767) (writes : List (Option ℕ)) :
    rawHeader cfg { s with recvSocketBuf := store s.recvSocketBuf 0 [x] } ((hs ++ qs).map some)
        writes =
      rawSend cfg { s with
          recvSocketBuf := store s.recvSocketBuf 0 (x :: (hs.flatten ++ qs.flatten)) }
        (1 + hs.flatten.length + qs.flatten.length) [] writes := by
  have hpre := hciPreambleSizes_of_rawAccepts hacc
  have hheader := @readLoop_exact 1 _ 0 hs (store s.recvSocketBuf 0 [x]) (by omega) hpre.1
    (fun c hc => hne c (List.mem_append_left _ hc)) (by omega) (qs.map some)
  rw [Nat.add_zero, store_cons] at hheader
  rw [rawHeader, byteAt_store_cons, if_pos hacc, List.map_append]
  simp only [hheader, rawPayload, rawPayloadLen_store hacc (Nat.le_of_eq hhs.symm)]
  by_cases hzero : rawPayloadLen (x :: hs.flatten) = 0
  · -- no payload is announced, and the pieces are not empty
    have hnil : qs = [] := by
      rcases qs with - | ⟨q, qs⟩
      · rfl
      · have := List.length_pos_of_ne_nil (hne q (by simp))
        rw [List.flatten_cons, List.length_append] at hqs
        omega
    subst hnil
    rw [if_neg (by omega), List.flatten_nil, List.append_nil, List.length_nil, hhs]
    rfl
  · -- the two stores are one store of header and payload
    have hpayload := @readLoop_exact (1 + hciPreambleSizes x) _ 0 qs
      (store s.recvSocketBuf 0 (x :: hs.flatten)) hfit (by omega)
      (fun c hc => hne c (List.mem_append_right _ hc)) (by omega) []
    have hstore := store_store s.recvSocketBuf (x :: hs.flatten) qs.flatten 0
    rw [Nat.zero_add, List.length_cons, Nat.add_comm, hhs] at hstore
    rw [List.append_nil, Nat.add_zero, hstore] at hpayload
    rw [if_pos (by omega), hpayload]
    dsimp only
    rw [Nat.mod_eq_of_lt (by omega), hhs, hqs]
    rfl

/-- What is sent returns once the writes add up to the packet. -/
theorem rawSend_returned (cfg : RawConfig) (s : RawState) {totalLen : ℕ} {counts : List ℕ} (hsum : counts.sum = totalLen)
    (hlast : counts.getLast? ≠ some 0)
    (hopen : cfg.driverState (sendPort cfg (byteAt s.recvSocketBuf 0)) = true) :
    ∃ t os, rawSend cfg s totalLen [] (counts.map some) = ⟨.returned, t, os, [], []⟩ := by
  rw [rawSend, if_pos hopen]
  obtain ⟨hend, hrest⟩ := @writeLoop_returned totalLen s.recvSocketBuf
    (sendPort cfg (byteAt s.recvSocketBuf 0)) counts 0 hsum hlast
  rw [hend, hrest]
  exact ⟨_, _, rfl⟩

/-- Bytes that stand at the front of a stream that begins with `p` announce the payload of `p`, once
they hold its header. -/
theorem rawPayloadLen_of_prefix {b tail : List UInt8} (hb : b <+: p.bytes ++ tail)
    (hhdr : hdrLens p.bytes ≤ b.length) : rawPayloadLen b = rawPayloadLen p.bytes := by
  refine rawPayloadLen_eq_of_agree p.accepted fun i hi => ?_
  obtain ⟨rest, hrest⟩ := hb
  have hp := p.header
  rw [← @byteAt_append_left b rest i (by omega), hrest, byteAt_append_left (by omega)]

/-- **One call of a run.** Where the stream goes on with `p`, a call that returns consumes exactly
the bytes of `p` if and only if it does not read over; and then it sends exactly these. -/
theorem rawStep_forwards_iff (h : RawStep cfg s c os t) {tail : List UInt8}
    (hstream : c.chunks.flatten <+: p.bytes ++ tail)
    (hopen : cfg.driverState (sendPort cfg p.pktType) = true) :
    Forwards cfg p c os ↔ c.NoOverRead p := by
  obtain ⟨x, hs, qs, hchunks, hacc, hhdr, hpay⟩ := rawStep_header h
  have hp := p.header
  have htotal := p.total
  have hfits := p.fits
  rw [recvSocketBufSize] at hfits
  have hflat : c.chunks.flatten = x :: (hs.flatten ++ qs.flatten) := by simp [hchunks]
  have hne : ∀ c ∈ hs ++ qs, c ≠ [] := by
    intro d hd
    exact c.nonempty d (by rw [hchunks]; exact List.mem_cons_of_mem _ hd)
  -- the type byte and the header are those of `p`
  have hx : x = p.pktType := by
    obtain ⟨rest, hrest⟩ := hstream
    have := congrArg (fun l => byteAt l 0) hrest
    rw [hflat] at this
    simp only [byteAt_append_left (Nat.lt_of_lt_of_le (hdrLens_pos _) hp)] at this
    exact this
  have hlens : hdrLens p.bytes = hciPreambleSizes x + 1 := by rw [hx]; rfl
  have hneed : rawPayloadLen (x :: hs.flatten) = rawPayloadLen p.bytes := by
    refine rawPayloadLen_of_prefix (List.IsPrefix.trans ?_ hstream)
      (by rw [hlens]; exact Nat.succ_le_succ hhdr.2)
    rw [hflat]
    exact ⟨qs.flatten, rfl⟩
  have hpieces : c.chunks.flatten.length = 1 + hs.flatten.length + qs.flatten.length := by
    rw [hflat, List.length_cons, List.length_append]
    omega
  obtain ⟨hqs, hsend⟩ := rawPayload_returned hpay hacc hhdr.2 (by omega)
  rw [hneed] at hqs hsend
  have hover : c.NoOverRead p ↔
      hs.flatten.length = hciPreambleSizes x ∧ qs.flatten.length = rawPayloadLen p.bytes := by
    rw [HostCall.NoOverRead, hchunks, List.tail_cons, ← hx, noOverReads_cons_iff hhdr hne]
    rcases hqs with ⟨hzero, rfl⟩ | hqs
    · rw [hzero]
      exact and_congr_right fun _ => iff_of_true (noOverReads_zero _) rfl
    · rw [noOverReads_singleton_iff hqs fun c hc => hne c (List.mem_append_right _ hc)]
  have hreach : rawPayloadLen p.bytes ≤ qs.flatten.length := by
    rcases hqs with ⟨hzero, -⟩ | hqs
    · exact hzero ▸ Nat.zero_le _
    · exact hqs.2
  rw [hover]
  constructor
  · rintro ⟨hexact, -⟩
    have := hhdr.2
    rw [hexact] at hpieces
    constructor <;> omega
  · rintro ⟨hlen, hlen'⟩
    have hexact : c.chunks.flatten = p.bytes :=
      (List.prefix_of_prefix_length_le hstream (List.prefix_append _ _) (by omega)).eq_of_length
        (by omega)
    refine ⟨hexact, fun port => ?_⟩
    have hstore : store s.recvSocketBuf 0 (x :: (hs.flatten ++ qs.flatten)) =
        p.bytes ++ s.recvSocketBuf.drop p.bytes.length := by
      rw [← hflat, hexact, store_zero]
    have hsend := hsend hlen
    rw [hstore] at hsend
    have htype : byteAt (p.bytes ++ s.recvSocketBuf.drop p.bytes.length) 0 = p.pktType :=
      byteAt_append_left (Nat.lt_of_lt_of_le (hdrLens_pos _) hp)
    rw [written_rawSend (by omega) (by simpa only [htype] using hopen) hsend port]
    simp only [htype]
    rw [List.take_left' (by omega)]

end Call

/-! ## Runs of calls -/

/-- The calls of the socket thread, one after the other. -/
abbrev RawRun (cfg : RawConfig) (s : RawState) (calls : List HostCall) (os : List RawEvent)
    (t : RawState) : Prop :=
  Execution (RawStep cfg) s calls os t

/-- The bytes a list of calls has read. -/
def bytesRead (calls : List HostCall) : List UInt8 := calls.flatMap fun c => c.chunks.flatten

/-- The bytes of host packets written back to back. -/
def hostBytes (ps : List HostPacket) : List UInt8 := ps.flatMap HostPacket.bytes

theorem bytesRead_append (cs ds : List HostCall) :
    bytesRead (cs ++ ds) = bytesRead cs ++ bytesRead ds :=
  List.flatMap_append

theorem hostBytes_append (ps qs : List HostPacket) :
    hostBytes (ps ++ qs) = hostBytes ps ++ hostBytes qs :=
  List.flatMap_append

section Runs

variable {cfg : RawConfig} {s t u : RawState} {calls is js : List HostCall} {c : HostCall}
  {os : List RawEvent} {ps : List HostPacket}

/-- Where the calls so far have consumed a packet each, the next one begins with a packet. -/
theorem next_packet (hb : bytesRead (is ++ c :: js) <+: hostBytes ps)
    (hread : bytesRead is = hostBytes (ps.take is.length)) (hne : c.chunks.flatten ≠ []) :
    ∃ p, ps[is.length]? = some p ∧
      c.chunks.flatten <+: p.bytes ++ hostBytes (ps.drop (is.length + 1)) := by
  rw [← List.take_append_drop is.length ps, hostBytes_append, bytesRead_append, hread] at hb
  have hc := (List.prefix_append_right_inj _).mp hb
  rw [bytesRead, List.flatMap_cons] at hc
  have hc := (List.prefix_append _ _).trans hc
  rcases hdrop : ps.drop is.length with - | ⟨p, qs⟩
  · rw [hdrop] at hc
    exact absurd (List.prefix_nil.mp hc) hne
  · rw [hdrop] at hc
    have hget : ps[is.length]? = some p := by
      rw [← Nat.add_zero is.length, ← List.getElem?_drop, hdrop]
      rfl
    have hqs : ps.drop (is.length + 1) = qs := by
      rw [← List.drop_drop, hdrop]
      rfl
    exact ⟨p, hget, hqs ▸ hc⟩

/-- A call that returns has read something. -/
theorem chunks_ne_nil (h : RawStep cfg s c os t) : c.chunks.flatten ≠ [] := by
  obtain ⟨x, hs, qs, hchunks, -⟩ := rawStep_header h
  simp [hchunks]

/-- As long as no call reads over, each of them consumes a packet. -/
theorem bytesRead_of_noOverRead (run : RawRun cfg s is os t)
    (hopen : ∀ p ∈ ps, cfg.driverState (sendPort cfg p.pktType) = true)
    (hb : bytesRead is <+: hostBytes ps)
    (hcond : ∀ is' c js p, is = is' ++ c :: js → ps[is'.length]? = some p → c.NoOverRead p) :
    bytesRead is = hostBytes (ps.take is.length) := by
  induction is using List.reverseRecOn generalizing os t with
  | nil => rfl
  | append_singleton is c ih =>
    obtain ⟨t', os', o, run', hstep, -⟩ := run.last
    have hb' : bytesRead is <+: hostBytes ps := by
      rw [bytesRead_append] at hb
      exact (List.prefix_append _ _).trans hb
    have hread := ih run' hb' fun is' d js p his hp =>
      hcond is' d (js ++ [c]) p (by rw [his]; simp) hp
    obtain ⟨p, hp, hstream⟩ := next_packet hb hread (chunks_ne_nil hstep)
    have hfwd := (rawStep_forwards_iff hstep hstream (hopen p (List.mem_of_getElem? hp))).mpr
      (hcond is c [] p rfl hp)
    have hc : bytesRead [c] = hostBytes [p] := by simpa [bytesRead, hostBytes] using hfwd.1
    rw [List.length_append, List.length_singleton, List.take_add_one, hp, bytesRead_append, hread,
      hc, hostBytes_append]
    rfl

/-- A call returns for every packet that comes in without an over-read, whatever the partial
writes. -/
theorem rawStep_exists {p : HostPacket} (hone : c.chunks.head?.map List.length = some 1)
    (hflat : c.chunks.flatten = p.bytes) (hover : c.NoOverRead p)
    (hsum : c.counts.sum = p.bytes.length) (hlast : c.counts.getLast? ≠ some 0)
    (hopen : cfg.driverState (sendPort cfg p.pktType) = true) :
    ∃ o u, RawStep cfg s c o u := by
  obtain ⟨chunks, hne, counts⟩ := c
  simp only [RawStep, HostCall.NoOverRead] at hone hflat hover hsum hlast hne ⊢
  have hp := p.header
  have htotal := p.total
  have hfits := p.fits
  have hpre := hciPreambleSizes_of_rawAccepts p.accepted
  rw [recvSocketBufSize] at hfits
  have hlens : hdrLens p.bytes = hciPreambleSizes p.pktType + 1 := rfl
  obtain ⟨x, cs, rfl⟩ : ∃ x cs, chunks = [x] :: cs := by
    rcases chunks with - | ⟨d, cs⟩
    · simp at hone
    · obtain ⟨x, rfl⟩ := List.length_eq_one_iff.mp (by simpa using hone)
      exact ⟨x, cs, rfl⟩
  have hbytes : x :: cs.flatten = p.bytes := by simpa using hflat
  have hlen : p.bytes.length = cs.flatten.length + 1 := by rw [← hbytes, List.length_cons]
  -- the pieces behind the type byte are those of the header and those of the payload
  obtain ⟨hs, qs, rfl, hhs⟩ := hover.1.exists_split (by rw [List.tail_cons]; omega)
  rw [List.flatten_append, List.length_append] at hlen
  have hqs : qs.flatten.length = rawPayloadLen p.bytes := by omega
  have hx : byteAt p.bytes 0 = x := by
    rw [← hbytes]
    rfl
  have hacc : rawAccepts x := hx ▸ p.accepted
  have hflat' : x :: (hs.flatten ++ qs.flatten) = p.bytes := by
    rw [← hbytes, List.flatten_append]
  have hneed : rawPayloadLen (x :: hs.flatten) = rawPayloadLen p.bytes := by
    have hprefix : x :: hs.flatten <+: p.bytes ++ [] := by
      rw [List.append_nil, ← hflat']
      exact ⟨qs.flatten, rfl⟩
    exact rawPayloadLen_of_prefix hprefix (by rw [hlens, ← hhs]; exact Nat.le_refl _)
  have hsum' : counts.sum = 1 + hs.flatten.length + qs.flatten.length := by omega
  rw [List.map_cons, scommVendorRecvRawdata_type, rawHeader_exact hacc
    (fun c hc => hne c (List.mem_cons_of_mem _ hc)) (by rw [hhs, HostPacket.pktType, hx])
    (by omega) (by omega)]
  obtain ⟨t, os, hsend⟩ := rawSend_returned cfg
    { s with recvSocketBuf := store s.recvSocketBuf 0 (x :: (hs.flatten ++ qs.flatten)) } hsum' hlast
    (by rw [byteAt_store_cons, ← hx]; exact hopen)
  exact ⟨os, t, hsend⟩

/-- **Host-to-controller framing.** For any host packets and any calls that return, with any results
of their reads and writes, to open ports: each call consumes exactly one packet and sends exactly
that to its port, if and only if no read of a header or payload returns more than is missing of it.
And where none does, the call for the next packet returns once its bytes have been read and
written. -/
theorem rawdata_framing_exact_iff (ps : List HostPacket)
    (hopen : ∀ p ∈ ps, cfg.driverState (sendPort cfg p.pktType) = true)
    (run : RawRun cfg s calls os t) (hb : bytesRead calls <+: hostBytes ps) :
    ((∀ is c js os t o u, calls = is ++ c :: js → RawRun cfg s is os t → RawStep cfg t c o u →
        ∃ p, ps[is.length]? = some p ∧ Forwards cfg p c o) ↔
      ∀ is c js p, calls = is ++ c :: js → ps[is.length]? = some p → c.NoOverRead p) ∧
    ∀ c, ∀ p ∈ ps, c.chunks.head?.map List.length = some 1 → c.chunks.flatten = p.bytes →
      c.NoOverRead p → c.counts.sum = p.bytes.length → c.counts.getLast? ≠ some 0 →
      ∃ o u, RawStep cfg t c o u := by
  refine ⟨⟨fun hexact is c js p hcalls hp => ?_, fun hcond is c js os t o u hcalls run₀ hstep => ?_⟩,
    fun c p hp hone hflat hover hsum hlast =>
      rawStep_exists hone hflat hover hsum hlast (hopen p hp)⟩
  · rw [hcalls, ← List.singleton_append, ← List.append_assoc] at run
    obtain ⟨_, _, _, run₁, -, -⟩ := run.split
    obtain ⟨t, os, o, run₀, hstep, -⟩ := run₁.last
    obtain ⟨q, hq, hfwd⟩ := hexact is c js os t o _ hcalls run₀ hstep
    obtain rfl : q = p := Option.some.inj (hq.symm.trans hp)
    have hstream : c.chunks.flatten <+: q.bytes ++ [] := hfwd.1 ▸ List.prefix_append _ []
    exact (rawStep_forwards_iff hstep hstream (hopen q (List.mem_of_getElem? hp))).mp hfwd
  · subst hcalls
    have hb₀ : bytesRead is <+: hostBytes ps := by
      rw [bytesRead_append] at hb
      exact (List.prefix_append _ _).trans hb
    have hread := bytesRead_of_noOverRead run₀ hopen hb₀ fun is' d ks p his hp =>
      hcond is' d (ks ++ c :: js) p (by rw [his]; simp) hp
    obtain ⟨p, hp, hstream⟩ := next_packet hb hread (chunks_ne_nil hstep)
    exact ⟨p, hp, (rawStep_forwards_iff hstep hstream (hopen p (List.mem_of_getElem? hp))).mpr
      (hcond is c js p rfl hp)⟩

end Runs

/-- The HCI_Reset command. -/
def hciResetCommand : HostPacket where
  bytes := [0x01, 0x03, 0x0C, 0x00]
  accepted := by decide
  header := by decide
  total := by decide
  fits := by decide

/-- Every port open, everything sent to port 0. -/
def uartConfig : RawConfig where
  skwbtTranstype := skwbtTransTypeUart
  skwbtuartonly := true
  skwbtNoSleep := false
  btpwFp := -1
  driverState _ := true

/-- The header comes in two pieces, each no longer than what is missing. -/
def splitCall : HostCall where
  chunks := [[0x01], [0x03], [0x0C, 0x00]]
  nonempty := by decide
  counts := [1, 0, 3]

/-- The second piece of the header goes on into the next packet. -/
def overreadCall : HostCall where
  chunks := [[0x01], [0x03], [0x0C, 0x00, 0x01]]
  nonempty := by decide
  counts := [4]

theorem splitCall_noOverRead : splitCall.NoOverRead hciResetCommand := by
  have hsplit : Completes 3 [[0x03], [(0x0C : UInt8), 0x00]] := by constructor <;> decide
  refine (@noOverReads_cons_iff UInt8 3 _ [] [0] hsplit (by decide)).mpr ⟨rfl, noOverReads_zero _⟩

/-- Two commands, the first of them read in pieces that end with its header. -/
theorem rawdata_framing_exact_iff_reset :
    ∃ os t, Forwards uartConfig hciResetCommand splitCall os ∧
      RawRun uartConfig RawState.init [splitCall] os t := by
  have run₀ : RawRun uartConfig RawState.init [] [] RawState.init := .start
  obtain ⟨os, t, hstep⟩ := (rawdata_framing_exact_iff [hciResetCommand, hciResetCommand]
    (fun _ _ => rfl) run₀ (by decide)).2 splitCall hciResetCommand (by simp) rfl rfl splitCall_noOverRead rfl (by decide)
  have run : RawRun uartConfig RawState.init ([] ++ [splitCall]) ([] ++ os) t := .snoc .start hstep
  obtain ⟨p, hp, hfwd⟩ := (rawdata_framing_exact_iff [hciResetCommand, hciResetCommand]
    (fun _ _ => rfl) run (by decide)).1.mpr
    (fun is c js p his hp => by
      rcases is with - | ⟨d, is⟩
      · obtain ⟨rfl, -⟩ : splitCall = c ∧ [] = js := by simpa using his
        obtain rfl : hciResetCommand = p := by simpa using hp
        exact splitCall_noOverRead
      · simp at his) [] splitCall [] [] RawState.init os t rfl .start hstep
  obtain rfl : hciResetCommand = p := by simpa using hp
  exact ⟨os, t, hfwd, run⟩

/-- The first call for two HCI_Reset commands returns with the type byte of the second consumed. -/
theorem rawdata_reads_over : ∃ os t,
    RawRun uartConfig RawState.init [overreadCall] os t ∧
      bytesRead [overreadCall] <+: hostBytes [hciResetCommand, hciResetCommand] ∧
      ¬ Forwards uartConfig hciResetCommand overreadCall os := by
  have hloop (m : List UInt8) : readLoop 1 (hciPreambleSizes 0x01)
      [some [0x03], some [0x0C, 0x00, 0x01]] (store m 0 [0x01]) 0 =
        .complete (store m 0 [0x01, 0x03, 0x0C, 0x00, 0x01]) [] := by
    have hfirst : FitsRead (hciPreambleSizes 0x01) [0x03] := by constructor <;> decide
    have hsecond : FitsRead (hciPreambleSizes 0x01) [0x0C, 0x00, 0x01] := by constructor <;> decide
    rw [readLoop_fits hfirst, if_pos (by decide), readLoop_fits hsecond, if_neg (by decide),
      Nat.add_zero, store_cons]
    exact congrArg (ReadLoop.complete · []) (store_store m [0x01, 0x03] [0x0C, 0x00, 0x01] 0)
  have hneed (m : List UInt8) : rawPayloadLen (store m 0 [0x01, 0x03, 0x0C, 0x00, 0x01]) = 0 :=
    rawPayloadLen_store (by decide) (by decide) m
  obtain ⟨t, os, hsend⟩ := @rawSend_returned uartConfig
    ⟨store RawState.init.recvSocketBuf 0 [0x01, 0x03, 0x0C, 0x00, 0x01], 0⟩ 4 [4] rfl (by decide) rfl
  have hstep : RawStep uartConfig RawState.init overreadCall os t := by
    refine Eq.trans ?_ hsend
    show scommVendorRecvRawdata _ _ (some [0x01] :: [some [0x03], some [0x0C, 0x00, 0x01]]) _ = _
    rw [scommVendorRecvRawdata_type, rawHeader, byteAt_store_cons, if_pos (by decide)]
    simp only [hloop, rawPayload, hneed]
    rw [if_neg (Nat.lt_irrefl 0)]
    rfl
  have run : RawRun uartConfig RawState.init ([] ++ [overreadCall]) ([] ++ os) t :=
    .snoc .start hstep
  exact ⟨os, t, run, by decide, fun h => absurd h.1 (by decide)⟩

end Seekwave
