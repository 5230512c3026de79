import Seekwave.Scomm.HostBounds

/-!
# A host that closes in the middle of a packet

Once the host has closed the socket, every `read()` returns 0. The loops of the header and of the payload
take that for a read of no bytes and go on: `host_close_iff` says from which packets that are cut off a
call of `scomm_vendor_recv_rawdata` returns, and `Trapped` is what becomes of the others.
-/

open Memory

namespace Seekwave

/-- Bytes from the host that form one packet, of any length. -/
structure IsHostPacket (b : List UInt8) : Prop where
  accepted : rawAccepts (byteAt b 0)
  header : hdrLens b ≤ b.length
  total : b.length = hdrLens b + rawPayloadLen b

/-- What the reads of a call return if the host closes after `pieces`, the first `n` reads from then on
included. -/
def closedReads (pieces : List (List UInt8)) (n : ℕ) : List ReadResult :=
  (pieces ++ List.replicate n []).map some

theorem flatten_closed (cs : List (List UInt8)) (n : ℕ) :
    (cs ++ List.replicate n []).flatten = cs.flatten := by
  rw [List.flatten_append, List.flatten_replicate_nil, List.append_nil]

/-- A piece with bytes is among those that the host has written. -/
theorem mem_of_mem_closed {cs : List (List UInt8)} {n : ℕ} {c : List UInt8}
    (hc : c ∈ cs ++ List.replicate n []) (hpos : 0 < c.length) : c ∈ cs := by
  refine (List.mem_append.mp hc).resolve_right fun h => ?_
  rw [(List.mem_replicate.mp h).2] at hpos
  exact absurd hpos (Nat.lt_irrefl 0)

/-! ## How a loop ends -/

section Loops

variable {offset need n : ℕ} {cs : List (List UInt8)} {buf : List UInt8}

/-- **The three ends of a loop**, if its reads are possible ones: it waits for bytes that are missing, it
takes a long read for an error, or it completes. -/
theorem readLoop_cases (hneed : need < 65536) (hn : n < need)
    (hpossible : ∀ c ∈ readLoopCalls offset need (cs.map some) n, c.Possible) :
    (readLoop offset need (cs.map some) buf n = .blocked ∧ (∀ c ∈ cs, c.length ≤ 32767) ∧
        n + cs.flatten.length < need) ∨
      (∃ buf' rest, readLoop offset need (cs.map some) buf n = .failed buf' rest ∧
        ∃ c ∈ cs, 32767 < c.length ∧ c.length ≤ need) ∨
      ∃ hs qs, cs = hs ++ qs ∧ n + hs.dropLast.flatten.length < need ∧
        need ≤ n + hs.flatten.length ∧ (∀ c ∈ hs, FitsRead need c) ∧
        readLoop offset need (cs.map some) buf n =
          .complete (store buf (offset + n) hs.flatten) (qs.map some) := by
  rcases @readLoop_ends offset need n hneed hn (cs.map some) buf with ⟨ps, hcs, hfits, hsum, hloop⟩ |
    ⟨ps, r, rest, hcs, hfits, hsum, hunfit, buf', hloop⟩ |
    ⟨hs, rest, hcs, hfits, hlast, hreach, hloop⟩
  · obtain ⟨qs, rfl, hqs⟩ := @map_some_eq_append [] cs ps (by rw [hcs, List.append_nil])
    obtain rfl := List.map_eq_nil_iff.mp hqs.symm
    rw [List.append_nil] at hloop ⊢
    exact .inl ⟨hloop, fun c hc => (hfits c hc).2, hsum⟩
  · -- a possible read that does not fit is longer than `rev_len` holds
    have hle : (r.getD []).length ≤ need :=
      hpossible _ ((mem_readLoopCalls_iff hneed hn).mpr ⟨ps, r, rest, hcs, hfits, hsum, rfl⟩)
    obtain ⟨qs, rfl, hqs⟩ := map_some_eq_append hcs
    obtain ⟨c, qs, rfl, rfl, rfl⟩ := List.map_eq_cons_iff.mp hqs.symm
    rw [if_neg (Nat.not_lt.mpr hle)] at hloop
    have hlong : ¬ c.length ≤ 32767 := fun hc => hunfit c rfl ⟨hle, hc⟩
    exact .inr (.inl ⟨buf', _, hloop, c, List.mem_append_right _ List.mem_cons_self,
      Nat.lt_of_not_le hlong, hle⟩)
  · obtain ⟨qs, rfl, rfl⟩ := map_some_eq_append hcs
    exact .inr (.inr ⟨hs, qs, rfl, hlast, hreach, hfits, hloop⟩)

end Loops

/-! ## How a call ends -/

/-- Every read of the call returns no more than it is asked for, however long it goes on. -/
def PossibleReads (buf : List UInt8) (pieces : List (List UInt8)) : Prop :=
  ∀ n, ∀ c ∈ rawReads buf (closedReads pieces n), c.Possible

/-- When a call returns although the host closes: it has been given nothing, or a read of more bytes
than `rev_len` holds, or the whole packet, its header not read over. -/
def ReturnsOnClose (b : List UInt8) (pieces : List (List UInt8)) : Prop :=
  pieces = [] ∨ (∃ c ∈ pieces, 32767 < c.length) ∨
    pieces.flatten = b ∧ NoOverRead (hciPreambleSizes (byteAt b 0)) pieces.tail

/-- The writes of a packet come back. -/
def WritesReturn (b : List UInt8) (writes : List (Option ℕ)) : Prop :=
  ∀ port buf, (writeLoop port buf writes 0 (b.length % 65536)).callEnd = .returned

theorem callEnd_rawSend {cfg : RawConfig} {s : RawState} {b : List UInt8} {rest : List ReadResult}
    {writes : List (Option ℕ)} (hwrites : WritesReturn b writes) :
    (rawSend cfg s (b.length % 65536) rest writes).callEnd = .returned := by
  unfold rawSend
  dsimp only
  split
  · exact hwrites _ _
  · rfl

section Call

variable {cfg : RawConfig} {s : RawState} {x : UInt8} {b : List UInt8} {cs : List (List UInt8)}
  {writes : List (Option ℕ)} {n : ℕ}

/-- What the reads of a call are, once the header has come to its end. -/
structure HeaderRead (x : UInt8) (b : List UInt8) (cs hs qs : List (List UInt8)) (n : ℕ) : Prop where
  split : cs ++ List.replicate n [] = hs ++ qs
  fits : ∀ c ∈ hs, FitsRead (hciPreambleSizes x) c
  completes : Completes (hciPreambleSizes x) hs
  payload : rawPayloadLen (x :: hs.flatten) = rawPayloadLen b
  flatten : cs.flatten = hs.flatten ++ qs.flatten
  total : b.length = 1 + hciPreambleSizes x + rawPayloadLen b

/-- Whether a call returns is decided by what the payload is given. -/
theorem HeaderRead.returns_iff {hs qs : List (List UInt8)} (h : HeaderRead x b cs hs qs n)
    (hx : byteAt b 0 = x) (hb : x :: cs.flatten <+: b) :
    ReturnsOnClose b ([x] :: cs) ↔ (∃ c ∈ qs, 32767 < c.length) ∨
      rawPayloadLen b ≤ qs.flatten.length := by
  have hle := hb.length_le
  have hreach := h.completes.2
  have htotal := h.total
  rw [List.length_cons, h.flatten, List.length_append] at hle
  constructor
  · rintro (hnil | ⟨c, hc, hlong⟩ | ⟨hwhole, hover⟩)
    · exact absurd hnil nofun
    · -- a long piece is none of the header
      rcases List.mem_cons.mp hc with rfl | hc
      · rw [List.length_singleton] at hlong
        exact absurd hlong (by decide)
      · have hc' : c ∈ hs ++ qs := h.split ▸ List.mem_append_left _ hc
        refine .inl ⟨c, (List.mem_append.mp hc').resolve_left fun hhs => ?_, hlong⟩
        exact absurd (h.fits c hhs).2 (Nat.not_le.mpr hlong)
    · refine .inr ?_
      have hlen := congrArg List.length hwhole
      have hflat : ([x] :: cs).flatten = x :: cs.flatten := rfl
      rw [hflat, List.length_cons, h.flatten, List.length_append] at hlen
      have hexact : hs.flatten.length = hciPreambleSizes x := by
        rw [hx] at hover
        exact h.completes.length_eq_iff.mpr (h.split ▸ hover.append_nils n)
      omega
  · rintro (⟨c, hc, hlong⟩ | hwhole)
    · refine .inr (.inl ⟨c, List.mem_cons_of_mem _ ?_, hlong⟩)
      exact mem_of_mem_closed (h.split ▸ List.mem_append_right _ hc) (by omega)
    · -- the whole packet is there, so the reads of the header took no byte of the payload
      have hexact : hs.flatten.length = hciPreambleSizes x := by omega
      refine .inr (.inr ⟨hb.eq_of_length ?_, ?_⟩)
      · rw [List.length_cons, h.flatten, List.length_append]
        omega
      · rw [hx]
        have hover : NoOverRead (hciPreambleSizes x) (hs ++ qs) :=
          h.completes.length_eq_iff.mp hexact
        rw [← h.split] at hover
        exact hover.of_append

/-- A call that has read the type byte, with pieces that are too short and none of them long. -/
theorem not_returnsOnClose (hlen : 1 + cs.flatten.length < b.length)
    (hall : ∀ c ∈ cs, c.length ≤ 32767) : ¬ ReturnsOnClose b ([x] :: cs) := by
  rintro (hnil | ⟨c, hc, hlong⟩ | ⟨hwhole, -⟩)
  · exact absurd hnil nofun
  · rcases List.mem_cons.mp hc with rfl | hc
    · rw [List.length_singleton] at hlong
      exact absurd hlong (by decide)
    · exact absurd (hall c hc) (Nat.not_le.mpr hlong)
  · have hflat : ([x] :: cs).flatten = x :: cs.flatten := rfl
    rw [← hwhole, hflat, List.length_cons] at hlen
    omega

/-- **The header of a packet that is cut off.** The loop waits for the rest of the header, or goes on to
the payload. -/
theorem header_onClose (hpacket : IsHostPacket b) (hx : byteAt b 0 = x) (hb : x :: cs.flatten <+: b)
    (hpossible : PossibleReads s.recvSocketBuf ([x] :: cs)) :
    ((scommVendorRecvRawdata cfg s (closedReads ([x] :: cs) n) writes).callEnd = .blocked ∧
        ¬ ReturnsOnClose b ([x] :: cs)) ∨
      ∃ hs qs, HeaderRead x b cs hs qs n ∧
        scommVendorRecvRawdata cfg s (closedReads ([x] :: cs) n) writes =
          rawPayload cfg { s with recvSocketBuf := store s.recvSocketBuf 0 (x :: hs.flatten) }
            (1 + hciPreambleSizes x) (qs.map some) writes ∧
        (0 < rawPayloadLen b → ∀ c ∈ readLoopCalls (1 + hciPreambleSizes x) (rawPayloadLen b)
          (qs.map some) 0, c.Possible) := by
  have hacc : rawAccepts x := hx ▸ hpacket.accepted
  obtain ⟨hpos, hle⟩ := hciPreambleSizes_of_rawAccepts hacc
  have htotal : b.length = 1 + hciPreambleSizes x + rawPayloadLen b := by
    rw [hpacket.total, hdrLens, hx, Nat.add_comm 1]
  have hreads : closedReads ([x] :: cs) n = some [x] :: (cs ++ List.replicate n []).map some := rfl
  have hin : ∀ c ∈ headerReads (store s.recvSocketBuf 0 [x])
      ((cs ++ List.replicate n []).map some), c.Possible := fun c hc =>
    hpossible n c (mem_rawReads_iff.mpr (.inr ⟨x, _, hreads, hacc, hc⟩))
  rw [hreads, scommVendorRecvRawdata_type, rawHeader]
  dsimp only
  rw [byteAt_store_cons, if_pos hacc]
  have hcases := @readLoop_cases 1 _ 0 (cs ++ List.replicate n []) (store s.recvSocketBuf 0 [x])
    (by omega) hpos fun c hc => hin c ((mem_headerReads_iff hacc).mpr (.inl hc))
  simp only [Nat.zero_add, flatten_closed] at hcases
  rcases hcases with ⟨hloop, hall, hsum⟩ | ⟨buf', rest, -, c, -, hlong, hshort⟩ |
    ⟨hs, qs, hsplit, hlast, hreach, hfits, hloop⟩
  · -- bytes of the header are missing, and no further read returns any
    rw [hloop]
    exact .inl ⟨rfl, not_returnsOnClose (by omega) fun c hc => hall c (List.mem_append_left _ hc)⟩
  · -- a header is too short for a read that `rev_len` does not hold
    omega
  · -- the header is complete: what it announces is what the packet has
    rw [hloop, Nat.add_zero, store_cons]
    have hflat : cs.flatten = hs.flatten ++ qs.flatten := by
      rw [← flatten_closed cs n, hsplit, List.flatten_append]
    have hpay : rawPayloadLen (x :: hs.flatten) = rawPayloadLen b := by
      obtain ⟨tail, rfl⟩ := hb
      rw [hflat, ← List.cons_append, List.append_assoc]
      exact (@rawPayloadLen_append (x :: hs.flatten) _ hacc (Nat.succ_le_succ hreach)).symm
    refine .inr ⟨hs, qs, ⟨hsplit, hfits, ⟨hlast, hreach⟩, hpay, hflat, htotal⟩, rfl, ?_⟩
    intro hpaypos c hc
    rw [hsplit, List.map_append] at hin
    refine hin c ((mem_headerReads_iff hacc).mpr (.inr
      ⟨hs, qs.map some, rfl, hfits, ⟨hlast, hreach⟩, by rwa [hpay], by rwa [hpay]⟩))

/-- **The end of a call on a packet that is cut off.** It returns, or waits in one of its loops for
ever. -/
theorem callEnd_onClose (hpacket : IsHostPacket b) (hx : byteAt b 0 = x) (hb : x :: cs.flatten <+: b)
    (hpossible : PossibleReads s.recvSocketBuf ([x] :: cs)) (hwrites : WritesReturn b writes) :
    (scommVendorRecvRawdata cfg s (closedReads ([x] :: cs) n) writes).callEnd = .returned ∧
        ReturnsOnClose b ([x] :: cs) ∨
      (scommVendorRecvRawdata cfg s (closedReads ([x] :: cs) n) writes).callEnd = .blocked ∧
        ¬ ReturnsOnClose b ([x] :: cs) := by
  rcases @header_onClose cfg s x b cs writes n hpacket hx hb hpossible with
    hstuck | ⟨hs, qs, h, hcall, hpay⟩
  · exact .inr hstuck
  rw [hcall, rawPayload, rawPayloadLen_store (hx ▸ hpacket.accepted) h.completes.2, h.payload,
    h.returns_iff hx hb]
  dsimp only
  by_cases hpos : 0 < rawPayloadLen b
  · rw [if_pos hpos]
    rcases @readLoop_cases (1 + hciPreambleSizes x) _ 0 qs
      (store s.recvSocketBuf 0 (x :: hs.flatten)) (rawPayloadLen_lt b) hpos (hpay hpos) with
      ⟨hloop, hall, hsum⟩ | ⟨buf', rest, hloop, c, hc, hlong, -⟩ | ⟨ks, ls, rfl, -, hreach, -, hloop⟩
    · -- bytes of the payload are missing
      rw [hloop]
      refine .inr ⟨rfl, ?_⟩
      rintro (⟨c, hc, hlong⟩ | hwhole)
      · exact absurd (hall c hc) (Nat.not_le.mpr hlong)
      · omega
    · -- a long read is taken for an error, which ends the call
      rw [hloop]
      exact .inl ⟨rfl, .inl ⟨c, hc, hlong⟩⟩
    · rw [hloop]
      dsimp only
      rw [← h.total]
      refine .inl ⟨callEnd_rawSend hwrites, .inr ?_⟩
      rw [List.flatten_append, List.length_append]
      omega
  · -- there is no payload to wait for
    rw [if_neg hpos]
    have htotal := h.total
    have hle := (hciPreambleSizes_of_rawAccepts (hx ▸ hpacket.accepted)).2
    have hmod : 1 + hciPreambleSizes x = b.length % 65536 := by omega
    rw [hmod]
    exact .inl ⟨callEnd_rawSend hwrites, .inr (by omega)⟩

end Call

/-- A call that never comes back, however many reads return 0. -/
def Trapped (cfg : RawConfig) (s : RawState) (pieces : List (List UInt8)) (writes : List (Option ℕ)) :
    Prop :=
  ∀ n, (scommVendorRecvRawdata cfg s (closedReads pieces n) writes).callEnd = .blocked

/-- **A host that closes mid-packet, exactly when the call returns.** For any packet, of which any prefix
has been delivered in any pieces before `read()` returns 0 for ever: the call returns if and only if it
has been given nothing, a read of more than 32767 bytes, or the whole packet with its header not read
over; otherwise it is trapped. -/
theorem host_close_iff {cfg : RawConfig} {s : RawState} {b : List UInt8} {pieces : List (List UInt8)}
    {writes : List (Option ℕ)} (hpacket : IsHostPacket b) (hdelivered : pieces.flatten <+: b)
    (hne : ∀ c ∈ pieces, c ≠ []) (hpossible : PossibleReads s.recvSocketBuf pieces)
    (hwrites : WritesReturn b writes) :
    ((∃ n, (scommVendorRecvRawdata cfg s (closedReads pieces n) writes).callEnd = .returned) ↔
        ReturnsOnClose b pieces) ∧
      (¬ ReturnsOnClose b pieces → Trapped cfg s pieces writes) := by
  rcases pieces with - | ⟨c, cs⟩
  · exact ⟨iff_of_true ⟨1, rfl⟩ (.inl rfl), fun h => absurd (.inl rfl) h⟩
  obtain ⟨x, rfl⟩ : ∃ x, c = [x] := by
    have hle : c.length ≤ 1 :=
      hpossible 0 ⟨0, 1, some c⟩ (mem_rawReads_iff.mpr (.inl ⟨some c, _, rfl, rfl⟩))
    have hpos := List.length_pos_of_ne_nil (hne c List.mem_cons_self)
    exact List.length_eq_one_iff.mp (by omega)
  have hb : x :: cs.flatten <+: b := hdelivered
  have hx : byteAt b 0 = x := by
    obtain ⟨tail, rfl⟩ := hb
    rfl
  have hend := fun n => @callEnd_onClose cfg s x b cs writes n hpacket hx hb hpossible hwrites
  refine ⟨⟨?_, fun h => ⟨0, ?_⟩⟩, fun h n => ?_⟩
  · rintro ⟨n, hn⟩
    rcases hend n with ⟨-, h⟩ | ⟨hstuck, -⟩
    · exact h
    · exact absurd (hn.symm.trans hstuck) nofun
  · rcases hend 0 with ⟨hret, -⟩ | ⟨-, hnot⟩
    · exact hret
    · exact absurd h hnot
  · rcases hend n with ⟨-, hret⟩ | ⟨hstuck, -⟩
    · exact absurd hret h
    · exact hstuck

/-- Every read asks for a byte at least. -/
theorem result_mem_of_mem_rawReads {buf : List UInt8} {reads : List ReadResult} {c : ReadCall}
    (hc : c ∈ rawReads buf reads) : c.result ∈ reads ∧ 0 < c.count := by
  rcases mem_rawReads_iff.mp hc with ⟨r, rs, rfl, rfl⟩ | ⟨x, rs, rfl, hacc, hc⟩
  · exact ⟨List.mem_cons_self, Nat.one_pos⟩
  · obtain ⟨hpos, hle⟩ := hciPreambleSizes_of_rawAccepts hacc
    rcases (mem_headerReads_iff hacc).mp hc with hc | ⟨hs, rest, rfl, -, -, hpay, hc⟩
    · obtain ⟨ps, r, qs, rfl, -, -, rfl⟩ := (mem_readLoopCalls_iff (by omega) hpos).mp hc
      exact ⟨by simp, hpos⟩
    · obtain ⟨ps, r, qs, rfl, -, -, rfl⟩ :=
        (mem_readLoopCalls_iff (rawPayloadLen_lt _) hpay).mp hc
      exact ⟨by simp, hpay⟩

/-- Bytes that come one by one. -/
theorem possibleReads_of_short {buf : List UInt8} {pieces : List (List UInt8)}
    (h : ∀ c ∈ pieces, c.length ≤ 1) : PossibleReads buf pieces := by
  intro n c hc
  obtain ⟨hmem, hpos⟩ := result_mem_of_mem_rawReads hc
  obtain ⟨d, hd, hres⟩ := List.mem_map.mp hmem
  rw [ReadCall.Possible, ← hres, Option.getD_some]
  rcases List.mem_append.mp hd with hd | hd
  · exact Nat.le_trans (h d hd) hpos
  · rw [(List.mem_replicate.mp hd).2]
    exact Nat.zero_le _

/-- HCI_Reset. -/
theorem isHostPacket_reset : IsHostPacket [0x01, 0x03, 0x0C, 0x00] where
  accepted := by decide
  header := by decide
  total := by decide

theorem writesReturn_none (b : List UInt8) : WritesReturn b [none] := by
  intro port buf
  cases b.length % 65536 <;> rfl

theorem host_close_iff_reset :
    ∃ n, (scommVendorRecvRawdata uartConfig RawState.init
      (closedReads [[0x01], [0x03], [0x0C], [0x00]] n) [none]).callEnd = .returned := by
  have hpacket : IsHostPacket [[0x01], [0x03], [0x0C], [0x00]].flatten := isHostPacket_reset
  refine (host_close_iff hpacket (List.prefix_refl _) (by decide) (possibleReads_of_short (by decide))
    (writesReturn_none _)).1.mpr (.inr (.inr ⟨rfl, ?_⟩))
  have hcompletes : Completes 3 [[0x03], [0x0C], [(0x00 : UInt8)]] := by constructor <;> decide
  have hover := (@Completes.length_eq_iff _ _ _ [] hcompletes).mp rfl
  rwa [List.append_nil] at hover

/-- Reads of no bytes do not end a loop. -/
theorem readLoop_closed {offset need k : ℕ} {buf : List UInt8} (n : ℕ) (hk : k < need) :
    readLoop offset need ((List.replicate n []).map some) buf k = .blocked := by
  induction n generalizing buf with
  | zero => rfl
  | succ n ih =>
    have hfits : FitsRead need [] := ⟨Nat.zero_le _, Nat.zero_le _⟩
    rw [List.replicate_succ, List.map_cons, readLoop_fits hfits, List.length_nil, Nat.add_zero,
      if_pos hk]
    exact ih

/-- The host closes after two bytes of HCI_Reset. -/
theorem host_close_trapped :
    [[0x01], [0x03]].flatten <+: [0x01, 0x03, 0x0C, (0x00 : UInt8)] ∧
      PossibleReads RawState.init.recvSocketBuf [[0x01], [0x03]] ∧
      ∀ writes, Trapped uartConfig RawState.init [[0x01], [0x03]] writes := by
  refine ⟨by decide, possibleReads_of_short (by decide), fun writes n => ?_⟩
  have hreads : closedReads [[0x01], [0x03]] n =
      some [0x01] :: some [0x03] :: (List.replicate n []).map some := rfl
  have hfits : FitsRead (hciPreambleSizes 0x01) [0x03] := by constructor <;> decide
  rw [hreads, scommVendorRecvRawdata_type, rawHeader]
  dsimp only
  rw [byteAt_store_cons, if_pos (by decide), readLoop_fits hfits, if_pos (by decide),
    readLoop_closed n (by decide)]
  rfl

end Seekwave
