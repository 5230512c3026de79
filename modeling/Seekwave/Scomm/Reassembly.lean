import Seekwave.Scomm.Recv

/-!
# Reassembly of a stream of packets

For a controller that sends well-formed packets only. `parse_packets` follows the parse loop over the
packets at the front of the received bytes; `recvRun_reassembled` carries the alignment of the buffer
on a packet boundary through a whole run of reads.

The loop looks for another packet only behind at least four bytes, but the smallest packet, an event
without parameters, has three. `Drained.looked` and `Drained.stopped` keep track of where that
matters.
-/

open Memory

namespace Seekwave

/-- The byte stream of a list of packets. -/
def bytesOf (ps : List H4Packet) : List UInt8 := ps.flatMap H4Packet.bytes

@[simp] theorem bytesOf_nil : bytesOf [] = [] := rfl

@[simp] theorem bytesOf_cons (p : H4Packet) (ps : List H4Packet) :
    bytesOf (p :: ps) = p.bytes ++ bytesOf ps := rfl

@[simp] theorem bytesOf_append (ps qs : List H4Packet) :
    bytesOf (ps ++ qs) = bytesOf ps ++ bytesOf qs := List.flatMap_append

theorem bytesOf_take_append_drop (ps : List H4Packet) (k : ℕ) :
    bytesOf (ps.take k) ++ bytesOf (ps.drop k) = bytesOf ps := by
  rw [← bytesOf_append, List.take_append_drop]

/-- Where the thread is to hand a packet: controller log data to the log writer only, everything else
to the snoop capture and to the host only. -/
def handedOn (p : H4Packet) : List Delivery :=
  if byteAt p.bytes 0 = hciEventSkwlog then [.skwlogWrite p.bytes]
  else
    [.skwBtsnoopCapture (some ⟨p.bytes.length, snoopFlags p.bytes true, p.bytes⟩),
      .scommVendorSendToHost 0 p.bytes]

/-- A complete packet at the front of the buffer goes where it is to go, byte for byte. -/
theorem deliveries_packet (p : H4Packet) (c : List UInt8) :
    deliveries (p.bytes ++ c) p.bytes.length = handedOn p := by
  have h0 : byteAt (p.bytes ++ c) 0 = byteAt p.bytes 0 := byteAt_append_left p.isFrame.length_pos
  by_cases hlog : byteAt p.bytes 0 = hciEventSkwlog
  · rw [deliveries, if_pos (h0.trans hlog), handedOn, if_pos hlog, List.take_left]
  · rw [deliveries, if_neg (by rw [h0]; exact hlog), handedOn, if_neg hlog, List.take_left,
      skwBtsnoopCapture_append p hlog]

/-! ## The parse loop over packets -/

/-- What the parse loop has done with the bytes `b`, a beginning of the stream of `ps`, when it is
left with `rest`: the first `k` packets are gone. -/
structure Drained (ps : List H4Packet) (b : List UInt8) (k : ℕ) (rest : List UInt8) : Prop where
  le : k ≤ ps.length
  split : bytesOf (ps.take k) ++ rest = b
  /-- every packet but the first was taken from at least four bytes -/
  looked : ∀ i, 0 < i → i < k → (bytesOf (ps.take i)).length + 4 ≤ b.length
  /-- a complete packet is left behind only with fewer than four bytes -/
  stopped : h4Framer.HasFrame rest → 0 < k ∧ rest.length ≤ 3

/-- A beginning of a packet's bytes with the type byte in it shows the type. -/
private theorem byteAt_zero_of_prefix {p : H4Packet} {b c : List UInt8} (hb : b <+: p.bytes ++ c)
    (hpos : 0 < b.length) : byteAt b 0 = byteAt p.bytes 0 := by
  obtain ⟨d, hd⟩ := hb
  rw [← @byteAt_append_left b d 0 hpos, hd, byteAt_append_left p.isFrame.length_pos]

/-- One packet more in front, taken from what leaves at least four bytes. -/
theorem Drained.cons {ps : List H4Packet} {b rest : List UInt8} {k : ℕ} (h : Drained ps b k rest)
    (hfour : 4 ≤ b.length) (p : H4Packet) : Drained (p :: ps) (p.bytes ++ b) (k + 1) rest where
  le := Nat.succ_le_succ h.le
  split := by rw [List.take_succ_cons, bytesOf_cons, List.append_assoc, h.split]
  looked i hi hik := by
    obtain ⟨i, rfl⟩ := Nat.exists_eq_succ_of_ne_zero (by omega : i ≠ 0)
    rw [Nat.succ_eq_add_one, List.take_succ_cons, bytesOf_cons, List.length_append,
      List.length_append]
    by_cases hi0 : i = 0
    · subst hi0
      simp only [List.take_zero, bytesOf_nil, List.length_nil]
      omega
    · have := h.looked i (by omega) (by omega)
      omega
  stopped hframe := ⟨Nat.succ_pos _, (h.stopped hframe).2⟩

/-- A packet that is cut short does not show its header, or announces more than is there. -/
theorem waits_of_incomplete (p : H4Packet) {b : List UInt8} (hpre : b <+: p.bytes)
    (hpos : 0 < b.length) (hlt : b.length < p.bytes.length) :
    b.length < hdrLens b ∨ b.length < pktLen b := by
  obtain ⟨d, hd⟩ := hpre
  have h0 : byteAt b 0 = byteAt p.bytes 0 := by rw [← hd, byteAt_append_left hpos]
  have hacc : recvAccepts (byteAt b 0) := h0 ▸ p.accepted
  have hhdr : hdrLens b = hdrLens p.bytes := hdrLens_eq_of_byteAt_zero h0
  by_cases hvisible : hdrLens b ≤ b.length
  · have hpkt := p.pktLen_append []
    have hpay := recvPayloadLen_append hacc hvisible d
    rw [List.append_nil] at hpkt
    rw [hd] at hpay
    right
    rw [pktLen, hhdr, ← hpay, ← pktLen, hpkt]
    exact hlt
  · exact Or.inl (by omega)

/-- **The parse loop on packets.** On a non-empty beginning of a packet stream the loop ends, having
handed on the packets it took off the front and nothing else. -/
theorem parse_packets (ps : List H4Packet) (st : Parse) (hpos : 0 < st.revLen)
    (hb : st.content <+: bytesOf ps) :
    ∃ k st', Loop.Returns parseBody st st' ∧ st'.out = st.out ++ (ps.take k).flatMap handedOn ∧
      Drained ps st.content k st'.rest := by
  have hlen := st.length_content
  induction ps generalizing st with
  | nil =>
    have := hb.length_le
    rw [bytesOf_nil, List.length_nil] at this
    omega
  | cons p ps ih =>
    rw [bytesOf_cons] at hb
    have h0 := byteAt_zero_of_prefix hb (by omega)
    have hacc : recvAccepts (byteAt st.content 0) := h0 ▸ p.accepted
    have hhdr : hdrLens st.content = hdrLens p.bytes := hdrLens_eq_of_byteAt_zero h0
    by_cases hcomplete : p.bytes.length ≤ st.revLen
    · -- the first packet is complete
      obtain ⟨b, hcontent⟩ : p.bytes <+: st.content :=
        List.prefix_of_prefix_length_le (List.prefix_append _ _) hb (by omega)
      have hpkt : pktLen st.content = p.bytes.length := by rw [← hcontent, p.pktLen_append]
      obtain ⟨st₁, hout, hlast, hrest, hbody⟩ := parseBody_deliver hpos hacc
        (by have := p.header; omega) (by omega)
      have hcells : st.readBuffer.cells = p.bytes ++ (b ++ st.readBuffer.cells.drop st.revLen) := by
        rw [← List.append_assoc, hcontent, Parse.content, List.take_append_drop]
      rw [hpkt, ← hcontent, List.drop_left] at hrest
      rw [hpkt, hcells, deliveries_packet] at hout
      have hblen : b.length = st₁.lastLen := by
        have := congrArg List.length hcontent
        rw [List.length_append] at this
        omega
      by_cases hfour : 4 ≤ st₁.lastLen
      · -- four bytes or more are left: another pass
        rw [if_pos hfour] at hbody
        have hb₁ : st₁.resume.content <+: bytesOf ps := by
          rw [Parse.content_resume, hrest]
          exact (List.prefix_append_right_inj _).mp (hcontent ▸ hb)
        obtain ⟨k, st', hret, hout', hdrained⟩ :=
          ih st₁.resume (by show 0 < st₁.lastLen; omega) hb₁ st₁.resume.length_content
        rw [Parse.content_resume, hrest] at hdrained
        refine ⟨k + 1, st', .again hbody hret, ?_, hcontent ▸ hdrained.cons (by omega) p⟩
        rw [hout']
        show st₁.out ++ _ = _
        rw [hout, List.take_succ_cons, List.flatMap_cons, List.append_assoc]
      · -- fewer than four bytes are left: the loop ends here
        rw [if_neg hfour] at hbody
        refine ⟨1, st₁, .leave hbody, by simpa using hout, by simp, ?_, by omega, ?_⟩
        · simp [hrest, hcontent]
        · exact fun _ => ⟨Nat.one_pos, by rw [hrest]; omega⟩
    · -- the first packet is incomplete
      have hpre : st.content <+: p.bytes :=
        List.prefix_of_prefix_length_le hb (List.prefix_append _ _) (by omega)
      have hlt : st.content.length < p.bytes.length := by omega
      have hwait := waits_of_incomplete p hpre (by omega) hlt
      rw [hlen] at hwait
      refine ⟨0, st.keepAll, .leave (parseBody_wait hpos hacc hwait), by simp [Parse.keepAll],
        Nat.zero_le _, by simp, by omega, fun hframe => ?_⟩
      rw [Parse.rest_keepAll] at hframe
      exact absurd hframe (p.isFrame.not_hasFrame_of_lt hpre hlt)

/-! ## Runs of reads -/

/-- One read of a packet stream: from `pending`, a beginning of the stream of `ps`, on. -/
theorem recvStep_packets {ps : List H4Packet} {s t : RecvState} {chunk : List UInt8}
    {tr : List Delivery} (h : RecvStep s chunk tr t) (hne : chunk ≠ [])
    (hb : s.pending ++ chunk <+: bytesOf ps) :
    ∃ k, tr = (ps.take k).flatMap handedOn ∧ Drained ps (s.pending ++ chunk) k t.pending := by
  cases h with
  | zero => exact absurd rfl hne
  | data _ _ hfit st hret =>
    have hchunk := List.length_pos_iff.mpr hne
    have hcontent := s.content_received chunk hfit
    obtain ⟨k, st', hret', hout, hdrained⟩ := parse_packets ps (s.received chunk hfit)
      (by rw [s.revLen_received]; omega) (by rw [hcontent]; exact hb)
    obtain rfl := hret.unique hret'
    exact ⟨k, by simpa [RecvState.received] using hout, hcontent ▸ hdrained⟩

/-- After some reads of the stream of `ps`: the first `k` packets handed on, the rest of the received
bytes in the buffer. -/
structure Reassembled (ps : List H4Packet) (received : List UInt8) (k : ℕ) (tr : List Delivery)
    (s : RecvState) : Prop where
  le : k ≤ ps.length
  handed : tr = (ps.take k).flatMap handedOn
  split : bytesOf (ps.take k) ++ s.pending = received

namespace Reassembled

variable {ps : List H4Packet} {received chunk : List UInt8} {k : ℕ} {tr os : List Delivery}
  {s t : RecvState}

/-- What is in the buffer begins the packets not yet handed on. -/
theorem pending_prefix (h : Reassembled ps received k tr s)
    (hb : received ++ chunk <+: bytesOf ps) : s.pending ++ chunk <+: bytesOf (ps.drop k) := by
  rw [← h.split, ← bytesOf_take_append_drop ps k, List.append_assoc] at hb
  exact (List.prefix_append_right_inj _).mp hb

/-- **Step lemma.** A read hands on the next packets. -/
theorem step (h : Reassembled ps received k tr s) (hstep : RecvStep s chunk os t) (hne : chunk ≠ [])
    (hb : received ++ chunk <+: bytesOf ps) :
    ∃ n, Drained (ps.drop k) (s.pending ++ chunk) n t.pending ∧
      Reassembled ps (received ++ chunk) (k + n) (tr ++ os) t := by
  obtain ⟨n, hos, hdrained⟩ := recvStep_packets hstep hne (h.pending_prefix hb)
  have hle := h.le
  have hn := hdrained.le
  rw [List.length_drop] at hn
  refine ⟨n, hdrained, by omega, ?_, ?_⟩
  · rw [h.handed, hos, ← List.flatMap_append, ← List.take_add]
  · rw [List.take_add, bytesOf_append, List.append_assoc, hdrained.split, ← List.append_assoc, h.split]

end Reassembled

/-- **Run lemma.** Every run of reads of a packet stream leaves it reassembled. -/
theorem recvRun_reassembled {ps : List H4Packet} {chunks : List (List UInt8)} {tr : List Delivery}
    {s : RecvState} (run : RecvRun chunks tr s) (hb : chunks.flatten <+: bytesOf ps) :
    ∃ k, Reassembled ps chunks.flatten k tr s := by
  revert hb
  refine run.invariant (I := fun is os t => is.flatten <+: bytesOf ps →
    ∃ k, Reassembled ps is.flatten k os t) ?_ ?_
  · exact fun _ => ⟨0, Nat.zero_le _, by simp, by simp⟩
  · intro is os t chunk o u _ ih hstep hb
    rw [List.flatten_append, List.flatten_singleton] at hb ⊢
    obtain ⟨k, hk⟩ := ih ((List.prefix_append _ _).trans hb)
    by_cases hne : chunk = []
    · subst hne
      cases hstep with
      | zero => exact ⟨k, by simpa using hk⟩
      | data _ hne _ _ _ => exact absurd rfl hne
    · obtain ⟨n, -, h⟩ := hk.step hstep hne hb
      exact ⟨k + n, h⟩

end Seekwave
