import Seekwave.Scomm.Reassembly

/-!
# What is delivered, and how the stream was cut into reads

`recv_reassembly_exact`: however `read()` cuts a stream of packets, what has been handed on is a prefix
of the packets and the buffer holds the rest of the received bytes.

Whether the buffer can begin with a complete packet when the thread goes back to `poll()` depends on
the cut. The loop goes round again only if `last_len >= 4`, although an event without parameters is a
complete packet of three bytes. `recv_no_packet_waits_iff` gives the exact condition: no read of four
bytes or more may end with such an event.
-/

open Memory

namespace Seekwave

variable {ps : List H4Packet} {chunks : List (List UInt8)} {tr : List Delivery} {s : RecvState}

/-- After any reads of a packet stream, the next read is processed too. -/
theorem recvStep_exists {received chunk : List UInt8} {k : ℕ}
    (h : Reassembled ps received k tr s) (hne : chunk ≠ [])
    (hfit : chunk.length ≤ readBufferSize - s.lastLen) (hb : received ++ chunk <+: bytesOf ps) :
    ∃ os t, RecvStep s chunk os t := by
  have hchunk := List.length_pos_iff.mpr hne
  obtain ⟨_, st, hret, -⟩ := parse_packets (ps.drop k) (s.received chunk hfit)
    (by rw [s.revLen_received]; omega) (by rw [s.content_received]; exact h.pending_prefix hb)
  exact ⟨_, _, .data s chunk hne hfit st hret⟩

/-- **Reassembly.** Take any packets, and any reads of their bytes so far. What the thread has done is
to hand on the first `k` packets, each to where it belongs and byte for byte; these packets and the
`last_len` bytes in the buffer are all the bytes received; and the next read of the stream, of any
size that fits, is processed as well. -/
theorem recv_reassembly_exact (ps : List H4Packet) (run : RecvRun chunks tr s)
    (hb : chunks.flatten <+: bytesOf ps) :
    (∃ k ≤ ps.length, tr = (ps.take k).flatMap handedOn ∧
      bytesOf (ps.take k) ++ s.pending = chunks.flatten) ∧
    ∀ chunk, chunk ≠ [] → chunk.length ≤ readBufferSize - s.lastLen →
      chunks.flatten ++ chunk <+: bytesOf ps → ∃ os t, RecvStep s chunk os t := by
  obtain ⟨k, h⟩ := recvRun_reassembled run hb
  exact ⟨⟨k, h.le, h.handed, h.split⟩, fun _ hne hfit hnext => recvStep_exists h hne hfit hnext⟩

/-- The Command Complete event of HCI_Reset. -/
def resetComplete : H4Packet where
  bytes := [0x04, 0x0E, 0x04, 0x01, 0x03, 0x0C, 0x00]
  accepted := by decide
  header := by decide
  total := by decide
  fits := by decide

/-- A vendor event without parameters. -/
def bareEvent : H4Packet where
  bytes := [0x04, 0xFF, 0x00]
  accepted := by decide
  header := by decide
  total := by decide
  fits := by decide

/-- Reads of packets that start a run can be made. -/
theorem recvRun_single {c : List UInt8} (hne : c ≠ []) (hfit : c.length ≤ readBufferSize)
    (hb : c <+: bytesOf ps) : ∃ os t, RecvRun [c] os t := by
  have h : Reassembled ps [] 0 [] .init := ⟨Nat.zero_le _, by simp, by simp⟩
  obtain ⟨os, t, hstep⟩ := recvStep_exists h hne hfit hb
  exact ⟨_, t, Execution.start.snoc hstep⟩

theorem recv_reassembly_exact_events :
    ∃ tr s, RecvRun [resetComplete.bytes ++ [0x04]] tr s ∧
      ∃ k ≤ 2, tr = ([resetComplete, bareEvent].take k).flatMap handedOn ∧
        bytesOf ([resetComplete, bareEvent].take k) ++ s.pending = resetComplete.bytes ++ [0x04] := by
  have hb : resetComplete.bytes ++ [0x04] <+: bytesOf [resetComplete, bareEvent] := by decide
  obtain ⟨tr, s, run⟩ := recvRun_single (by decide) (by decide) hb
  exact ⟨tr, s, run, by simpa using (recv_reassembly_exact [resetComplete, bareEvent] run hb).1⟩

/-! ## Packets left in the buffer -/

/-- No read of four bytes or more ends where a packet of three bytes ends: an event without
parameters. -/
def NoTrailingEvent (ps : List H4Packet) (chunks : List (List UInt8)) : Prop :=
  ∀ is c js, chunks = is ++ c :: js → 4 ≤ c.length → ∀ qs p, qs ++ [p] <+: ps →
    p.bytes.length = 3 → (is ++ [c]).flatten ≠ bytesOf (qs ++ [p])

theorem NoTrailingEvent.of_append {is js : List (List UInt8)}
    (h : NoTrailingEvent ps (is ++ js)) : NoTrailingEvent ps is := by
  rintro is' c js' rfl
  exact h is' c (js' ++ js) (by simp)

/-- The packets handed on are frames. -/
theorem isFrame_of_mem_map {ps : List H4Packet} :
    ∀ b ∈ ps.map H4Packet.bytes, h4Framer.IsFrame b := by
  intro b hb
  obtain ⟨p, -, rfl⟩ := List.mem_map.mp hb
  exact p.isFrame

theorem bytesOf_eq_flatten (ps : List H4Packet) : bytesOf ps = (ps.map H4Packet.bytes).flatten :=
  List.flatMap_def

/-- A non-empty beginning of `ps`, in bytes, has a complete packet at its front. -/
theorem hasFrame_bytesOf {p : H4Packet} {ps : List H4Packet} : h4Framer.HasFrame (bytesOf (p :: ps)) :=
  p.isFrame.hasFrame_append _

/-- A complete packet at the front of at most three bytes of a packet stream is all of them, an event
without parameters. -/
theorem eq_bytes_of_hasFrame {p : H4Packet} {b c : List UInt8} (hframe : h4Framer.HasFrame b)
    (hlen : b.length ≤ 3) (hb : b <+: p.bytes ++ c) : b = p.bytes := by
  obtain ⟨n, hn, hle⟩ := hframe
  obtain ⟨d, hd⟩ := hb
  have hframe := h4Framer.stable d hn
  rw [hd, p.isFrame.frameLen_append] at hframe
  obtain rfl := Option.some.inj hframe
  have hthree := p.three_le_length
  exact (List.append_inj hd (by omega)).1

/-- The last read of a run, from a state with the first `k` packets handed on. -/
private theorem last_read {is : List (List UInt8)} {c : List UInt8} {os : List Delivery}
    {t : RecvState} (run : RecvRun (is ++ [c]) os t) (hne : c ≠ [])
    (hb : (is ++ [c]).flatten <+: bytesOf ps) :
    ∃ s₀ os₀ k n, RecvRun is os₀ s₀ ∧ Reassembled ps is.flatten k os₀ s₀ ∧
      Drained (ps.drop k) (s₀.pending ++ c) n t.pending ∧
      Reassembled ps (is ++ [c]).flatten (k + n) os t := by
  obtain ⟨s₀, os₀, o, run₀, hstep, rfl⟩ := run.last
  rw [List.flatten_append, List.flatten_singleton] at hb ⊢
  obtain ⟨k, hk⟩ := recvRun_reassembled run₀ ((List.prefix_append _ _).trans hb)
  obtain ⟨n, hdrained, h⟩ := hk.step hstep hne hb
  exact ⟨s₀, os₀, k, n, run₀, hk, hdrained, h⟩

/-- The last of the packets up to a place is the last of those from an earlier place on. -/
private theorem take_drop_concat {k m : ℕ} {qs : List H4Packet} {p : H4Packet}
    (hle : k + (m + 1) ≤ ps.length) (h : ps.take (k + (m + 1)) = qs ++ [p]) :
    (ps.drop k).take (m + 1) = (ps.drop k).take m ++ [p] := by
  have hlen : qs.length = k + m := by
    have := congrArg List.length h
    rw [List.length_take, List.length_append, List.length_singleton] at this
    omega
  have hget := congrArg (fun l => l[k + m]?) h
  simp only [List.getElem?_take, ← hlen] at hget
  rw [List.take_add_one, List.getElem?_drop, ← hlen]
  congr 1
  simpa using (by simpa using hget : _ ∧ _).2

/-- A read of four bytes or more that ends with an event without parameters leaves it in the
buffer. -/
theorem hasFrame_of_trailing_event {is : List (List UInt8)} {c : List UInt8} {os : List Delivery}
    {t : RecvState} {qs : List H4Packet} {p : H4Packet} (run : RecvRun (is ++ [c]) os t)
    (hc : 4 ≤ c.length) (hqs : qs ++ [p] <+: ps) (hp : p.bytes.length = 3)
    (heq : (is ++ [c]).flatten = bytesOf (qs ++ [p])) : h4Framer.HasFrame t.pending := by
  have hb : (is ++ [c]).flatten <+: bytesOf ps := by
    obtain ⟨r, rfl⟩ := hqs
    exact heq ▸ (bytesOf_append (qs ++ [p]) r ▸ List.prefix_append _ _)
  obtain ⟨s₀, os₀, k, n, -, hk, hdrained, h⟩ :=
    last_read run (List.ne_nil_of_length_pos (by omega)) hb
  have hsplit := h.split
  have hqlen := hqs.length_le
  -- the packets handed on are among the first `qs ++ [p]`
  have hpre : ps.take (k + n) <+: ps := List.take_prefix _ _
  have hle : k + n ≤ (qs ++ [p]).length := by
    have hpref : (ps.take (k + n)).map H4Packet.bytes <+: (qs ++ [p]).map H4Packet.bytes :=
      Framer.prefix_of_flatten isFrame_of_mem_map isFrame_of_mem_map
        (by rw [← bytesOf_eq_flatten, ← bytesOf_eq_flatten, ← heq]; exact ⟨_, hsplit⟩)
    have := hpref.length_le
    rw [List.length_map, List.length_map, List.length_take] at this
    have := h.le
    omega
  obtain ⟨r, hr⟩ : ps.take (k + n) <+: qs ++ [p] :=
    List.prefix_of_prefix_length_le hpre hqs (by rw [List.length_take]; omega)
  have hpending : t.pending = bytesOf r := by
    rw [heq, ← hr, bytesOf_append] at hsplit
    exact List.append_cancel_left hsplit
  rcases r with - | ⟨q, r⟩
  · -- otherwise `p` was the last packet taken, from three bytes only
    exfalso
    rw [List.append_nil] at hr
    have hblen : (s₀.pending ++ c).length = (bytesOf ((ps.drop k).take n)).length := by
      rw [← hdrained.split, hpending, bytesOf_nil, List.append_nil]
    rw [List.length_append] at hblen
    have hn : 0 < n := by
      rcases Nat.eq_zero_or_pos n with rfl | hn
      · rw [List.take_zero, bytesOf_nil, List.length_nil] at hblen
        omega
      · exact hn
    obtain ⟨m, rfl⟩ := Nat.exists_eq_succ_of_ne_zero (by omega : n ≠ 0)
    rw [take_drop_concat h.le hr, bytesOf_append, List.length_append] at hblen
    simp only [bytesOf_cons, bytesOf_nil, List.append_nil, hp] at hblen
    rcases Nat.eq_zero_or_pos m with rfl | hm
    · simp only [List.take_zero, bytesOf_nil, List.length_nil] at hblen
      omega
    · have := hdrained.looked m hm (Nat.lt_succ_self m)
      rw [List.length_append] at this
      omega
  · exact hpending ▸ hasFrame_bytesOf

/-- A read that meets the condition, from a buffer without a complete packet, leaves none. -/
theorem not_hasFrame_of_read {is : List (List UInt8)} {c : List UInt8} {os : List Delivery}
    {t : RecvState} (run : RecvRun (is ++ [c]) os t) (hne : c ≠ [])
    (hb : (is ++ [c]).flatten <+: bytesOf ps) (hcond : NoTrailingEvent ps (is ++ [c]))
    (hbefore : ∀ os₀ s₀, RecvRun is os₀ s₀ → ¬ h4Framer.HasFrame s₀.pending) :
    ¬ h4Framer.HasFrame t.pending := by
  intro hframe
  obtain ⟨s₀, os₀, k, n, run₀, hk, hdrained, h⟩ := last_read run hne hb
  obtain ⟨hn, hlen⟩ := hdrained.stopped hframe
  have hle := hdrained.le
  rw [List.length_drop] at hle
  -- the packet left behind is an event of three bytes, and the reads so far end with it
  have hpre : t.pending <+: bytesOf (ps.drop (k + n)) := by
    rw [← List.append_nil t.pending]
    exact h.pending_prefix (by rwa [List.append_nil])
  rcases hps : ps.drop (k + n) with - | ⟨p, r⟩
  · rw [hps] at hpre
    obtain ⟨m, hm, hm'⟩ := hframe
    have := h4Framer.pos hm
    have := hpre.length_le
    rw [bytesOf_nil, List.length_nil] at this
    omega
  · rw [hps, bytesOf_cons] at hpre
    have hp := eq_bytes_of_hasFrame hframe hlen hpre
    have hthree : p.bytes.length = 3 := by
      have := p.three_le_length
      rw [hp] at hlen
      omega
    have htake : ps.take (k + n) ++ [p] <+: ps :=
      ⟨r, by rw [List.append_assoc, List.singleton_append, ← hps, List.take_append_drop]⟩
    have heq : (is ++ [c]).flatten = bytesOf (ps.take (k + n) ++ [p]) := by
      rw [← h.split, bytesOf_append, bytesOf_cons, bytesOf_nil, List.append_nil, hp]
    have hshort : c.length < 4 := by
      by_contra hc
      exact hcond is c [] rfl (by omega) _ _ htake hthree heq
    -- so the first packet taken was already complete before this read
    refine hbefore os₀ s₀ run₀ ?_
    have hsplit := congrArg List.length hdrained.split
    rcases hdrop : ps.drop k with - | ⟨q, r'⟩
    · have := congrArg List.length hdrop
      rw [List.length_drop, List.length_nil] at this
      omega
    · obtain ⟨m, rfl⟩ := Nat.exists_eq_succ_of_ne_zero (by omega : n ≠ 0)
      have hbytes := hdrained.split
      rw [hdrop, Nat.succ_eq_add_one, List.take_succ_cons, bytesOf_cons] at hsplit hbytes
      rw [hp] at hsplit
      simp only [List.length_append, hthree] at hsplit
      obtain ⟨d, hd⟩ : q.bytes <+: s₀.pending := by
        have hq : q.bytes <+: s₀.pending ++ c := by
          rw [← hbytes, List.append_assoc]
          exact List.prefix_append _ _
        exact List.prefix_of_prefix_length_le hq (List.prefix_append _ _) (by omega)
      exact hd ▸ q.isFrame.hasFrame_append d

/-- **No packet waits, exactly when.** Over the reads of a packet stream, the buffer never begins with
a complete packet when the thread goes back to `poll()` if and only if no read of four bytes or more
ends with an event without parameters. Between runs that meet the condition, what has been delivered
depends on the bytes received only. -/
theorem recv_no_packet_waits_iff (ps : List H4Packet) (run : RecvRun chunks tr s)
    (hb : chunks.flatten <+: bytesOf ps) :
    ((∀ is js os t, chunks = is ++ js → RecvRun is os t → ¬ h4Framer.HasFrame t.pending) ↔
      NoTrailingEvent ps chunks) ∧
    ∀ chunks' tr' s', RecvRun chunks' tr' s' → chunks'.flatten = chunks.flatten →
      NoTrailingEvent ps chunks → NoTrailingEvent ps chunks' → tr' = tr ∧ s'.pending = s.pending := by
  -- induction on the reads: what one leaves waiting depends on what was left before it
  have hnone : ∀ {is : List (List UInt8)} {os : List Delivery} {t : RecvState}, RecvRun is os t →
      is.flatten <+: bytesOf ps → NoTrailingEvent ps is → ¬ h4Framer.HasFrame t.pending := by
    intro is os t run hb hcond
    induction is using List.reverseRecOn generalizing os t with
    | nil =>
      obtain ⟨-, rfl⟩ := run.eq_of_nil
      rw [RecvState.pending_init]
      exact Framer.not_hasFrame_nil
    | append_singleton is c ih =>
      have hb₀ : is.flatten <+: bytesOf ps := by
        rw [List.flatten_append] at hb
        exact (List.prefix_append _ _).trans hb
      by_cases hne : c = []
      · obtain ⟨s₀, os₀, o, run₀, hstep, -⟩ := run.last
        subst hne
        cases hstep with
        | zero => exact ih run₀ hb₀ hcond.of_append
        | data _ hne _ _ _ => exact absurd rfl hne
      · exact not_hasFrame_of_read run hne hb hcond fun os₀ s₀ run₀ => ih run₀ hb₀ hcond.of_append
  refine ⟨⟨?_, ?_⟩, ?_⟩
  · -- an event without parameters at the end of a read is left waiting there
    intro hnever is c js hchunks hc qs p hqs hp heq
    rw [hchunks, ← List.singleton_append, ← List.append_assoc] at run
    obtain ⟨t, os, _, run₁, -, -⟩ := run.split
    exact hnever (is ++ [c]) js os t (by simpa using hchunks) run₁
      (hasFrame_of_trailing_event run₁ hc hqs hp heq)
  · rintro hcond is js os t rfl run₁
    rw [List.flatten_append] at hb
    exact hnone run₁ ((List.prefix_append _ _).trans hb) hcond.of_append
  · -- no packet waits on either side, so both have taken the same packets off the front
    intro chunks' tr' s' run' hsame hcond hcond'
    obtain ⟨k, hk⟩ := recvRun_reassembled run hb
    obtain ⟨k', hk'⟩ := recvRun_reassembled run' (hsame ▸ hb)
    have hsplit := hk'.split.trans (hsame.trans hk.split.symm)
    rw [bytesOf_eq_flatten, bytesOf_eq_flatten] at hsplit
    obtain ⟨hps, hpending⟩ := Framer.flatten_unique isFrame_of_mem_map isFrame_of_mem_map
      (hnone run' (hsame ▸ hb) hcond') (hnone run hb hcond) hsplit
    refine ⟨?_, hpending⟩
    have hlen : (ps.take k').length = (ps.take k).length := by
      have := congrArg List.length hps
      rwa [List.length_map, List.length_map] at this
    have htake : ps.take k' = ps.take k :=
      List.IsPrefix.eq_of_length
        (List.prefix_of_prefix_length_le (List.take_prefix _ _) (List.take_prefix _ _)
          (Nat.le_of_eq hlen)) hlen
    rw [hk'.handed, hk.handed, htake]

theorem recv_no_packet_waits_iff_events :
    ∃ tr s, RecvRun [resetComplete.bytes ++ [0x04]] tr s ∧
      ((∀ is js os t, [resetComplete.bytes ++ [0x04]] = is ++ js → RecvRun is os t →
        ¬ h4Framer.HasFrame t.pending) ↔
        NoTrailingEvent [resetComplete, bareEvent] [resetComplete.bytes ++ [0x04]]) := by
  have hb : resetComplete.bytes ++ [0x04] <+: bytesOf [resetComplete, bareEvent] := by decide
  obtain ⟨tr, s, run⟩ := recvRun_single (by decide) (by decide) hb
  exact ⟨tr, s, run, (recv_no_packet_waits_iff [resetComplete, bareEvent] run (by simpa using hb)).1⟩

/-- One read returns a Command Complete event and an event without parameters: the second one stays in
the buffer. -/
theorem recv_packet_waits :
    ∃ tr s, RecvRun [resetComplete.bytes ++ bareEvent.bytes] tr s ∧
      h4Framer.HasFrame s.pending := by
  have hb : resetComplete.bytes ++ bareEvent.bytes <+: bytesOf [resetComplete, bareEvent] := by decide
  obtain ⟨tr, s, run⟩ := recvRun_single (by decide) (by decide) hb
  have hend : [resetComplete] ++ [bareEvent] <+: [resetComplete, bareEvent] := List.prefix_refl _
  have run' : RecvRun ([] ++ [resetComplete.bytes ++ bareEvent.bytes]) tr s := run
  exact ⟨tr, s, run, hasFrame_of_trailing_event run' (by decide) hend rfl (by decide)⟩

end Seekwave
