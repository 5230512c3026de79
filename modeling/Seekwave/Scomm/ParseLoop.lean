import Seekwave.Scomm.Wedge

/-!
# The parse loop on arbitrary bytes

`pkt_len` is a `uint16_t`, and so is the sum of the declared payload length and `hdr_lens`: a header
that declares 65532 bytes or more can announce a packet of no bytes, or of a few. This file says what
becomes of the loop on any content of `read_buffer`, in terms of the offsets at which it looks for a
packet (`PacketStart`): it ends unless a packet of exactly 65536 bytes is announced at one of them
(`parse_loop_ends_iff`), and it hands on what was announced unless the announced length does not fit
sixteen bits (`parse_lengths_agree_iff`).
-/

open Memory

namespace Seekwave

/-! ## Where the loop looks for packets -/

/-- A complete header of an accepted type at the front of `b`. -/
def HasHeader (b : List UInt8) : Prop := recvAccepts (byteAt b 0) ∧ hdrLens b ≤ b.length

/-- The offsets of the received bytes `b` at which the loop looks for a packet: the front, and the end
of a packet with at least four bytes behind it. -/
inductive PacketStart (b : List UInt8) : ℕ → Prop
  | front : PacketStart b 0
  | next {i : ℕ} (hi : PacketStart b i) (hhdr : HasHeader (b.drop i))
      (hleft : pktLen (b.drop i) + 4 ≤ (b.drop i).length) : PacketStart b (i + pktLen (b.drop i))

theorem pktLen_eq (b : List UInt8) : pktLen b = packetLen b % 65536 := by
  rw [pktLen, packetLen, Nat.add_comm]

/-- A sum that wraps announces less than its own header. -/
theorem pktLen_lt_hdrLens {b : List UInt8} (hacc : recvAccepts (byteAt b 0))
    (hwrap : 65536 ≤ packetLen b) : pktLen b < hdrLens b ∧ pktLen b + 65536 = packetLen b := by
  have hhdr := hdrLens_le_five hacc
  have hpay : recvPayloadLen b < 65536 := by
    have h₁ := u16At_lt b hciCommonDataLengthIndex
    have h₂ := u16At_lt b hciSkwlogDataLengthIndex
    have h₃ := (byteAt b hciEventDataLengthIndex).toNat_lt
    have h₄ := (byteAt b hciCommonDataLengthIndex).toNat_lt
    simp only [recvPayloadLen]
    split
    · exact h₁
    · split
      · omega
      · split <;> omega
  rw [pktLen_eq]
  rw [packetLen] at hwrap ⊢
  omega

/-- Only a header of four bytes or more can announce a packet of no bytes. -/
theorem four_le_hdrLens_of_pktLen_eq_zero {b : List UInt8} (hacc : recvAccepts (byteAt b 0))
    (hzero : pktLen b = 0) : 4 ≤ hdrLens b := by
  by_contra hlt
  have hevent := eq_hciEventPkt_of_hdrLens hacc (by omega)
  have hpay : recvPayloadLen b < 256 := by
    simp +decide only [recvPayloadLen, hevent, if_true, if_false]
    exact (byteAt b hciEventDataLengthIndex).toNat_lt
  have hpos := hdrLens_pos b
  rw [pktLen_eq, packetLen] at hzero
  omega

/-! ## The passes of the loop -/

/-- What a pass that hands on a packet finds and does. -/
structure HandsOn (st u : Parse) : Prop where
  header : HasHeader st.content
  fits : pktLen st.content ≤ st.revLen
  out : u.out = st.out ++ deliveries st.readBuffer.cells (pktLen st.content)

/-- Without received bytes the loop is left at once. -/
theorem parseBody_of_empty {st : Parse} (hzero : st.revLen = 0) :
    ∃ u, parseBody st = .inr u ∧ (u.out = st.out ∨ ∃ bs, u.out = st.out ++ [.discard bs]) := by
  have hhdr : ¬ hdrLens st.readBuffer.cells ≤ st.revLen := by
    have := hdrLens_pos st.readBuffer.cells
    omega
  by_cases hacc : recvAccepts (byteAt st.readBuffer.cells 0)
  · exact ⟨st.keepAll, by rw [parseBody, if_pos hacc, if_neg hhdr], .inl rfl⟩
  · exact ⟨_, by rw [parseBody, if_neg hacc], .inr ⟨_, rfl⟩⟩

/-- Every pass hands on the packet at the front, or it leaves the loop, having discarded bytes or
nothing. -/
theorem parseBody_cases {st u : Parse} (h : parseBody st = .inl u ∨ parseBody st = .inr u) :
    HandsOn st u ∨ u.out = st.out ∨ ∃ bs, u.out = st.out ++ [.discard bs] := by
  rcases Nat.eq_zero_or_pos st.revLen with hzero | hpos
  · obtain ⟨s, hbody, hout⟩ := parseBody_of_empty hzero
    rw [hbody] at h
    obtain rfl := Sum.inr.inj (h.resolve_left (by simp))
    exact .inr hout
  by_cases hacc : recvAccepts (byteAt st.content 0)
  · by_cases hwait : st.revLen < hdrLens st.content ∨ st.revLen < pktLen st.content
    · rw [parseBody_wait hpos hacc hwait] at h
      obtain rfl := Sum.inr.inj (h.resolve_left (by simp))
      exact .inr (.inl rfl)
    · rw [not_or, Nat.not_lt, Nat.not_lt] at hwait
      obtain ⟨s, hout, -, -, hbody⟩ := parseBody_deliver hpos hacc hwait.1 hwait.2
      have hu : u.out = s.out := by
        rw [hbody] at h
        rcases h with h | h <;> split at h <;> cases h <;> rfl
      exact .inl ⟨⟨hacc, by rw [st.length_content]; exact hwait.1⟩, hwait.2, hu.trans hout⟩
  · obtain ⟨s, hout, -, hbody⟩ := parseBody_discard hpos hacc
    rw [hbody] at h
    obtain rfl := Sum.inr.inj (h.resolve_left (by simp))
    exact .inr (.inr ⟨_, hout⟩)

/-- A pass goes round again behind a packet with at least four bytes after it. -/
theorem parseBody_again {st u : Parse} (h : parseBody st = .inl u) :
    HasHeader st.content ∧ pktLen st.content + 4 ≤ st.revLen ∧
      u.content = st.content.drop (pktLen st.content) ∧
      u.revLen = st.revLen - pktLen st.content := by
  rcases Nat.eq_zero_or_pos st.revLen with hzero | hpos
  · obtain ⟨s, hbody, -⟩ := parseBody_of_empty hzero
    rw [hbody] at h
    cases h
  by_cases hacc : recvAccepts (byteAt st.content 0)
  · by_cases hwait : st.revLen < hdrLens st.content ∨ st.revLen < pktLen st.content
    · rw [parseBody_wait hpos hacc hwait] at h
      cases h
    · rw [not_or, Nat.not_lt, Nat.not_lt] at hwait
      obtain ⟨s, -, hlast, hrest, hbody⟩ := parseBody_deliver hpos hacc hwait.1 hwait.2
      rw [hbody] at h
      split at h
      · obtain rfl := Sum.inl.inj h
        exact ⟨⟨hacc, by rw [st.length_content]; exact hwait.1⟩, by omega, hrest, hlast⟩
      · cases h
  · obtain ⟨s, -, -, hbody⟩ := parseBody_discard hpos hacc
    rw [hbody] at h
    cases h

/-- A loop that ends goes round again with fewer bytes. -/
theorem revLen_lt_of_returns {st u st' : Parse} (hret : Loop.Returns parseBody st st')
    (hbody : parseBody st = .inl u) : u.revLen < st.revLen := by
  obtain ⟨hhdr, hleft, -, hrev⟩ := parseBody_again hbody
  have hne : pktLen st.content ≠ 0 := by
    intro hzero
    have hfour := four_le_hdrLens_of_pktLen_eq_zero hhdr.1 hzero
    have hle : hdrLens st.content ≤ st.revLen := by rw [← st.length_content]; exact hhdr.2
    exact Parse.not_returns_of_pktLen_eq_zero hhdr.1 hle (by omega) hzero st' hret
  omega

/-- Behind a packet with at least four bytes after it the loop does go round again. -/
theorem exists_parseBody_again {st : Parse} (hhdr : HasHeader st.content)
    (hleft : pktLen st.content + 4 ≤ st.revLen) : ∃ u, parseBody st = .inl u := by
  obtain ⟨s, -, hlast, -, hbody⟩ := @parseBody_deliver st (by omega) hhdr.1
    (by rw [← st.length_content]; exact hhdr.2) (by omega)
  exact ⟨s.resume, by rw [hbody, if_pos (by omega)]⟩

/-- The passes of the loop look at the received bytes from the offsets of `PacketStart` on. -/
theorem packetStart_of_passes {st s : Parse} (h : Loop.Passes parseBody st s) :
    ∃ i, PacketStart st.content i ∧ s.content = st.content.drop i := by
  induction h with
  | start => exact ⟨0, .front, rfl⟩
  | again _ hbody ih =>
    obtain ⟨i, hi, hcontent⟩ := ih
    obtain ⟨hhdr, hleft, hrest, -⟩ := parseBody_again hbody
    rw [← Parse.length_content] at hleft
    rw [hcontent] at hhdr hleft hrest
    exact ⟨_, hi.next hhdr hleft, by rw [hrest, List.drop_drop]⟩

/-- Each offset of `PacketStart` has its pass. -/
theorem passes_of_packetStart {st : Parse} {i : ℕ} (h : PacketStart st.content i) :
    ∃ s, Loop.Passes parseBody st s ∧ s.content = st.content.drop i := by
  induction h with
  | front => exact ⟨st, .start, rfl⟩
  | next _ hhdr hleft ih =>
    obtain ⟨s, hs, hcontent⟩ := ih
    rw [← hcontent] at hhdr hleft
    rw [s.length_content] at hleft
    obtain ⟨u, hbody⟩ := exists_parseBody_again hhdr hleft
    obtain ⟨-, -, hrest, -⟩ := parseBody_again hbody
    exact ⟨u, hs.again hbody, by rw [hrest, hcontent, List.drop_drop]⟩

/-! ## Termination -/

/-- **The loop ends, exactly when.** On any content of `read_buffer` and any `rev_len`, the loop ends
and lowers `rev_len` whenever it goes round again if and only if no header it looks at announces a
packet of exactly 65536 bytes. -/
theorem parse_loop_ends_iff (st : Parse) :
    ((∃ st', Loop.Returns parseBody st st') ∧
      ∀ s u, Loop.Passes parseBody st s → parseBody s = .inl u → u.revLen < s.revLen) ↔
      ∀ i, PacketStart st.content i → HasHeader (st.content.drop i) →
        packetLen (st.content.drop i) ≠ 65536 := by
  constructor
  · rintro ⟨⟨st', hret⟩, -⟩ i hi hhdr hlen
    obtain ⟨s, hs, hcontent⟩ := passes_of_packetStart hi
    rw [← hcontent] at hhdr hlen
    -- 65536 wraps to 0 in the `uint16_t`
    have hzero : pktLen s.content = 0 := by rw [pktLen_eq, hlen]
    have hfour := four_le_hdrLens_of_pktLen_eq_zero hhdr.1 hzero
    have hle : hdrLens s.content ≤ s.revLen := by rw [← s.length_content]; exact hhdr.2
    exact Parse.not_returns_of_pktLen_eq_zero hhdr.1 hle (by omega) hzero st' (hs.returns hret)
  · intro hcond
    have hdec : ∀ s u, Loop.Passes parseBody st s → parseBody s = .inl u →
        u.revLen < s.revLen := by
      intro s u hs hbody
      obtain ⟨i, hi, hcontent⟩ := packetStart_of_passes hs
      obtain ⟨hhdr, hleft, -, hrev⟩ := parseBody_again hbody
      have hne : pktLen s.content ≠ 0 := by
        intro hzero
        have hnot : packetLen s.content ≠ 65536 := hcontent ▸ hcond i hi (hcontent ▸ hhdr)
        -- a length above 65536 wraps to one shorter than the header, but not to 0
        rcases Nat.lt_or_ge (packetLen s.content) 65536 with hlt | hge
        · rw [pktLen_eq, Nat.mod_eq_of_lt hlt, packetLen] at hzero
          have := hdrLens_pos s.content
          omega
        · have := (pktLen_lt_hdrLens hhdr.1 hge).2
          omega
      omega
    exact ⟨Loop.exists_returns_of_passes Parse.revLen hdec, hdec⟩

/-- The header of an ACL packet that declares 65531 bytes of payload, received alone. -/
def emptyAcl : Parse := RecvState.init.received [0x02, 0x00, 0x00, 0xFB, 0xFF] (by decide)

theorem content_emptyAcl : emptyAcl.content = [0x02, 0x00, 0x00, 0xFB, 0xFF] :=
  RecvState.init.content_received ..

theorem revLen_emptyAcl : emptyAcl.revLen = 5 := rfl

/-- `pkt_len` is 0: the loop goes round for ever on the same five bytes. -/
theorem parse_loop_never_ends :
    0 < emptyAcl.revLen ∧ ¬ ∃ st', Loop.Returns parseBody emptyAcl st' := by
  refine ⟨by rw [revLen_emptyAcl]; decide, ?_⟩
  rintro ⟨st', hret⟩
  have hacc : recvAccepts (byteAt emptyAcl.content 0) := by rw [content_emptyAcl]; decide
  exact Parse.not_returns_of_pktLen_eq_zero hacc (by rw [content_emptyAcl, revLen_emptyAcl]; decide)
    (by rw [revLen_emptyAcl]; decide) (by rw [content_emptyAcl]; decide) st' hret

/-! ## Lengths -/

/-- A delivery of a packet of `n` bytes, out of `revLen` received: exactly these bytes are handed on,
and exactly these are recorded. -/
def Delivery.Agrees (n revLen : ℕ) : Delivery → Prop
  | .skwlogWrite bs => bs.length = n ∧ n ≤ revLen
  | .skwBtsnoopCapture record => ∃ flags bs, record = some ⟨n, flags, bs⟩ ∧ bs.length = n
  | .scommVendorSendToHost _ bs => bs.length = n ∧ n ≤ revLen
  | .discard _ => True

/-- What a pass hands on agrees with the header as long as the announced length does not wrap. -/
theorem agrees_deliveries {st : Parse} (hhdr : HasHeader st.content)
    (hfits : pktLen st.content ≤ st.revLen) (hlen : packetLen st.content < 65536) {d : Delivery}
    (hd : d ∈ deliveries st.readBuffer.cells (pktLen st.content)) :
    d.Agrees (packetLen st.content) st.revLen := by
  have heq : pktLen st.content = packetLen st.content := by rw [pktLen_eq, Nat.mod_eq_of_lt hlen]
  rw [heq] at hd hfits
  have hle : hdrLens st.content ≤ st.revLen := by rw [← st.length_content]; exact hhdr.2
  have hpos := hdrLens_pos st.content
  have hcells : (st.readBuffer.cells.take (packetLen st.content)).length = packetLen st.content := by
    have := st.revLe
    rw [List.length_take, st.readBuffer.size]
    omega
  rw [deliveries] at hd
  split at hd
  · obtain rfl := List.mem_singleton.mp hd
    exact ⟨hcells, hfits⟩
  · next hlog =>
    have hcap : lengthHe st.readBuffer.cells = some (packetLen st.content) := by
      rw [lengthHe_eq (by rw [st.byteAt_content (by omega)]; exact hhdr.1) hlog,
        st.hdrLens_content (by omega), st.recvPayloadLen_content hhdr.1 hle, packetLen]
    rcases List.mem_pair.mp hd with rfl | rfl
    · exact ⟨_, _, by rw [skwBtsnoopCapture, hcap, Option.map_some], hcells⟩
    · exact ⟨hcells, hfits⟩

/-- A pass on a header that announces 65536 bytes or more hands on a fragment of them. -/
theorem exists_not_agrees {st : Parse} (hhdr : HasHeader st.content)
    (hwrap : 65536 ≤ packetLen st.content) :
    ∃ u ds, (parseBody st = .inl u ∨ parseBody st = .inr u) ∧ u.out = st.out ++ ds ∧
      ¬ ∀ d ∈ ds, d.Agrees (packetLen st.content) st.revLen := by
  obtain ⟨hlt, hsum⟩ := pktLen_lt_hdrLens hhdr.1 hwrap
  have hle : hdrLens st.content ≤ st.revLen := by rw [← st.length_content]; exact hhdr.2
  obtain ⟨t, hout, -, -, hbody⟩ := @parseBody_deliver st (by omega) hhdr.1 hle (by omega)
  have hnot : ¬ ∀ d ∈ deliveries st.readBuffer.cells (pktLen st.content),
      d.Agrees (packetLen st.content) st.revLen := by
    intro hagree
    rw [deliveries] at hagree
    -- the bytes handed on are fewer than announced, and more than were received are announced
    split at hagree
    · have := (hagree _ (List.mem_singleton_self _)).2
      have := st.revLe
      rw [readBufferSize] at this
      omega
    · have := (hagree _ (List.mem_cons_of_mem _ (List.mem_singleton_self _))).2
      have := st.revLe
      rw [readBufferSize] at this
      omega
  by_cases hfour : 4 ≤ t.lastLen
  · exact ⟨t.resume, _, .inl (by rw [hbody, if_pos hfour]), hout, hnot⟩
  · exact ⟨t, _, .inr (by rw [hbody, if_neg hfour]), hout, hnot⟩

/-- **Lengths agree, exactly when.** On any content of `read_buffer` and any `rev_len`, everything a
pass of the loop hands on or records has the length that the header announces in exact arithmetic if
and only if no header the loop looks at announces 65536 bytes or more. -/
theorem parse_lengths_agree_iff (st : Parse) :
    (∀ s u ds, Loop.Passes parseBody st s → parseBody s = .inl u ∨ parseBody s = .inr u →
      u.out = s.out ++ ds → ∀ d ∈ ds, d.Agrees (packetLen s.content) s.revLen) ↔
      ∀ i, PacketStart st.content i → HasHeader (st.content.drop i) →
        packetLen (st.content.drop i) < 65536 := by
  constructor
  · intro hagree i hi hhdr
    obtain ⟨s, hs, hcontent⟩ := passes_of_packetStart hi
    rw [← hcontent] at hhdr ⊢
    by_contra hge
    obtain ⟨u, ds, hbody, hout, hnot⟩ := exists_not_agrees hhdr (Nat.not_lt.mp hge)
    exact hnot (hagree s u ds hs hbody hout)
  · intro hcond s u ds hs hbody hout d hd
    rcases parseBody_cases hbody with hon | hsame | ⟨bs, hdisc⟩
    · have hds : ds = deliveries s.readBuffer.cells (pktLen s.content) :=
        List.append_cancel_left (hout.symm.trans hon.out)
      obtain ⟨i, hi, hcontent⟩ := packetStart_of_passes hs
      have hlt : packetLen s.content < 65536 := hcontent ▸ hcond i hi (hcontent ▸ hon.header)
      exact agrees_deliveries hon.header hon.fits hlt (hds ▸ hd)
    · have hnil : ds = [] := List.append_cancel_left ((hout.symm.trans hsame).trans (by simp))
      rw [hnil] at hd
      exact absurd hd List.not_mem_nil
    · have hds : ds = [.discard bs] := List.append_cancel_left (hout.symm.trans hdisc)
      obtain rfl := List.mem_singleton.mp (hds ▸ hd)
      trivial

/-- The header of an ACL packet that declares 65533 bytes of payload, received alone. -/
def fragmentAcl : Parse := RecvState.init.received [0x02, 0x00, 0x00, 0xFD, 0xFF] (by decide)

theorem content_fragmentAcl : fragmentAcl.content = [0x02, 0x00, 0x00, 0xFD, 0xFF] :=
  RecvState.init.content_received ..

/-- Of the 65538 bytes announced, `pkt_len` counts two: the host is sent two bytes, and the record is
made of 65538. -/
theorem parse_lengths_disagree :
    ¬ ∀ s u ds, Loop.Passes parseBody fragmentAcl s →
      parseBody s = .inl u ∨ parseBody s = .inr u → u.out = s.out ++ ds →
      ∀ d ∈ ds, d.Agrees (packetLen s.content) s.revLen := by
  intro hagree
  have hhdr : HasHeader fragmentAcl.content := by
    rw [content_fragmentAcl, HasHeader]
    decide
  have hwrap : 65536 ≤ packetLen fragmentAcl.content := by
    rw [content_fragmentAcl]
    decide
  obtain ⟨u, ds, hbody, hout, hnot⟩ := exists_not_agrees hhdr hwrap
  exact hnot (hagree _ u ds .start hbody hout)

end Seekwave
