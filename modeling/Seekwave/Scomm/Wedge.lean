import Seekwave.Scomm.Chunking

/-!
# When the receive buffer wedges

The loop keeps an incomplete packet whole and waits for the rest of it, whatever length the header
declares. A packet longer than the buffer can never be completed: once 2056 bytes of it have been
received, `read()` is asked for no bytes, returns 0, and the thread goes on polling for ever
(`recvStep_of_full`). `recv_buffer_never_full_iff` says exactly which reads lead there, for any bytes
from the controller.
-/

open Memory

namespace Seekwave

/-- A full buffer that begins with a packet of an accepted type whose `pkt_len` the buffer cannot
hold. -/
def Overlong (b : List UInt8) : Prop :=
  b.length = readBufferSize ∧ recvAccepts (byteAt b 0) ∧ readBufferSize < pktLen b

/-- The header of an accepted type is at most five bytes. -/
theorem hdrLens_le_five {b : List UInt8} (hacc : recvAccepts (byteAt b 0)) : hdrLens b ≤ 5 := by
  rcases hacc with h | h | h | h | h <;> rw [hdrLens, h] <;> decide

/-- An invalid type byte is discarded itself. -/
theorem findIdx_findValidAccepts_pos {b : List UInt8} (hacc : ¬ recvAccepts (byteAt b 0))
    (hpos : 0 < b.length) : 0 < b.findIdx findValidAccepts := by
  rcases b with - | ⟨x, b⟩
  · exact absurd hpos (Nat.lt_irrefl 0)
  · have hx : findValidAccepts x = false := by
      simp only [byteAt, List.getD_cons_zero, recvAccepts, not_or] at hacc
      simp [findValidAccepts, hacc]
    rw [List.findIdx_cons, hx]
    exact Nat.succ_pos _

/-! ## The bytes kept by the parse loop -/

namespace Parse

theorem length_rest (st : Parse) : st.rest.length = st.lastLen := by
  have := st.lastLe
  rw [rest, List.length_take, st.readBuffer.size]
  omega

/-- The loop never keeps more bytes than it was entered with. -/
theorem lastLen_le_of_returns {st st' : Parse} (h : Loop.Returns parseBody st st')
    (hpos : 0 < st.revLen) : st'.lastLen ≤ st.revLen := by
  refine h.invariant (I := fun s => 0 < s.revLen ∧ s.revLen ≤ st.revLen)
    (Q := fun r => r.lastLen ≤ st.revLen) ⟨hpos, Nat.le_refl _⟩ ?_ ?_
  all_goals
    rintro s r ⟨hs, hle⟩ hbody
    by_cases hacc : recvAccepts (byteAt s.content 0)
    · -- a pass keeps all there is, or takes a packet off it
      by_cases hwait : s.revLen < hdrLens s.content ∨ s.revLen < pktLen s.content
      · rw [parseBody_wait hs hacc hwait] at hbody
        cases hbody
        try exact hle
      · rw [not_or, Nat.not_lt, Nat.not_lt] at hwait
        obtain ⟨s', -, hlast, -, hs'⟩ := parseBody_deliver hs hacc hwait.1 hwait.2
        rw [hs'] at hbody
        split at hbody <;> cases hbody
        first
          | exact ⟨by show 0 < s'.lastLen; omega, by show s'.lastLen ≤ _; omega⟩
          | omega
    · obtain ⟨s', -, hrest, hs'⟩ := parseBody_discard hs hacc
      rw [hs'] at hbody
      cases hbody
      try
        have := congrArg List.length hrest
        rw [List.length_drop, s.length_content, length_rest] at this
        omega

/-- A packet of length 0, which only a wrapped `pkt_len` announces, keeps the loop going for ever. -/
theorem not_returns_of_pktLen_eq_zero {st : Parse} (hacc : recvAccepts (byteAt st.content 0))
    (hhdr : hdrLens st.content ≤ st.revLen) (hfour : 4 ≤ st.revLen) (hzero : pktLen st.content = 0)
    (st' : Parse) : ¬ Loop.Returns parseBody st st' := by
  refine Loop.not_returns (I := fun s => s.revLen = st.revLen ∧ s.content = st.content) ?_ ⟨rfl, rfl⟩ _
  rintro s ⟨hrev, hcontent⟩
  obtain ⟨s', -, hlast, hrest, hbody⟩ := @parseBody_deliver s (by omega)
    (by rw [hcontent]; exact hacc) (by rw [hcontent]; omega) (by rw [hcontent]; omega)
  rw [hcontent, hzero] at hlast hrest
  rw [if_pos (by omega)] at hbody
  exact ⟨s'.resume, hbody, by show s'.lastLen = _; omega, by rw [content_resume, hrest, List.drop_zero]⟩

/-- From a full buffer the loop keeps every byte exactly if the packet at its front cannot fit. -/
theorem lastLen_eq_iff_of_returns {st st' : Parse} (h : Loop.Returns parseBody st st')
    (hfull : st.revLen = readBufferSize) :
    st'.lastLen = readBufferSize ↔
      recvAccepts (byteAt st.content 0) ∧ readBufferSize < pktLen st.content := by
  have hsize : readBufferSize = 2056 := rfl
  have hpos : 0 < st.revLen := by omega
  by_cases hacc : recvAccepts (byteAt st.content 0)
  · have hhdr := hdrLens_le_five hacc
    by_cases hover : readBufferSize < pktLen st.content
    · have hret := Loop.Returns.leave (parseBody_wait hpos hacc (Or.inr (by omega)))
      obtain rfl := h.unique hret
      exact iff_of_true hfull ⟨hacc, hover⟩
    · refine iff_of_false ?_ fun hboth => hover hboth.2
      -- a packet that fits is taken off, unless its length has wrapped to 0
      by_cases hzero : pktLen st.content = 0
      · exact absurd h (not_returns_of_pktLen_eq_zero hacc (by omega) (by omega) hzero st')
      · obtain ⟨s', -, hlast, -, hbody⟩ := parseBody_deliver hpos hacc (by omega) (by omega)
        split at hbody
        · cases h with
          | leave hb => exact absurd (hbody.symm.trans hb) (by simp)
          | again hb hret =>
            obtain rfl := Sum.inl.inj (hbody.symm.trans hb)
            have : st'.lastLen ≤ s'.lastLen :=
              lastLen_le_of_returns hret (by show 0 < s'.lastLen; omega)
            omega
        · obtain rfl := h.unique (.leave hbody)
          omega
  · refine iff_of_false ?_ fun hboth => hacc hboth.1
    obtain ⟨s', -, hrest, hbody⟩ := parseBody_discard hpos hacc
    obtain rfl := h.unique (.leave hbody)
    have hidx := findIdx_findValidAccepts_pos hacc (by rw [st.length_content]; exact hpos)
    have := congrArg List.length hrest
    rw [List.length_drop, st.length_content, length_rest] at this
    omega

end Parse

/-! ## Runs on any bytes -/

/-- A full buffer stays as it is: every further read returns 0. -/
theorem recvStep_of_full {s t : RecvState} {c : List UInt8} {os : List Delivery}
    (h : RecvStep s c os t) (hfull : s.lastLen = readBufferSize) : c = [] ∧ os = [] ∧ t = s := by
  cases h with
  | zero => exact ⟨rfl, rfl, rfl⟩
  | data _ hne hfit _ _ =>
    have := List.length_pos_iff.mpr hne
    omega

/-- **Step lemma.** A read with data leaves the buffer full exactly if it fills it behind the header of
a packet that cannot fit. -/
theorem recvStep_full_iff {s t : RecvState} {c : List UInt8} {os : List Delivery}
    (h : RecvStep s c os t) (hne : c ≠ []) :
    t.lastLen = readBufferSize ↔ Overlong (s.pending ++ c) := by
  cases h with
  | zero => exact absurd rfl hne
  | data _ _ hfit st hret =>
    have hpos := List.length_pos_iff.mpr hne
    have hrev := s.revLen_received c hfit
    have hle := s.lastLe
    rw [Overlong, ← s.content_received c hfit, Parse.length_content]
    by_cases hfull : (s.received c hfit).revLen = readBufferSize
    · rw [and_iff_right hfull]
      exact Parse.lastLen_eq_iff_of_returns hret hfull
    · have := Parse.lastLen_le_of_returns hret (by omega)
      exact iff_of_false (by show st.lastLen ≠ _; omega) fun hover => hfull hover.1

/-- So it is of any read into a buffer that is not full. -/
theorem recvStep_lt_iff {s t : RecvState} {c : List UInt8} {os : List Delivery}
    (h : RecvStep s c os t) (hlt : s.lastLen < readBufferSize) :
    t.lastLen < readBufferSize ↔ ¬ Overlong (s.pending ++ c) := by
  by_cases hne : c = []
  · subst hne
    cases h with
    | zero =>
      refine iff_of_true hlt fun hover => ?_
      have hlen := hover.1
      rw [List.append_nil, s.length_pending] at hlen
      omega
    | data _ hne _ _ _ => exact absurd rfl hne
  · rw [← recvStep_full_iff h hne]
    have hle := t.lastLe
    omega

/-- **The buffer never fills up, exactly when.** For any bytes from the controller and any reads, the
thread always calls `read()` with `last_len` below 2056 if and only if no read fills the buffer behind
the header of a packet whose `pkt_len` exceeds it. -/
theorem recv_buffer_never_full_iff {chunks : List (List UInt8)} {tr : List Delivery} {s : RecvState}
    (run : RecvRun chunks tr s) :
    (∀ is js os t, chunks = is ++ js → RecvRun is os t → t.lastLen < readBufferSize) ↔
      ∀ is c js os t, chunks = is ++ c :: js → RecvRun is os t → ¬ Overlong (t.pending ++ c) :=
  run.always_state_iff RecvStep.unique (J := fun _ => True) trivial (by decide)
    (fun _ _ _ _ _ hlt hstep => recvStep_lt_iff hstep hlt) fun _ _ _ _ _ _ _ _ => trivial

/-- The beginning of an ACL packet with 4095 bytes of payload, as much as the buffer holds. -/
def oversizedAcl : List UInt8 := [0x02, 0x00, 0x00, 0xFF, 0x0F] ++ List.replicate 2051 0

theorem overlong_oversizedAcl : Overlong oversizedAcl :=
  ⟨by rw [oversizedAcl, List.length_append, List.length_replicate]; rfl, Or.inr (Or.inl rfl), by
    rw [show pktLen oversizedAcl = 4100 from rfl]; decide⟩

/-- The thread reads it in one piece and waits for more. -/
theorem recvRun_oversizedAcl : ∃ tr s, RecvRun [oversizedAcl] tr s := by
  have hlen := overlong_oversizedAcl.1
  have hfit : oversizedAcl.length ≤ readBufferSize - RecvState.init.lastLen := Nat.le_of_eq hlen
  have hcontent := RecvState.init.content_received oversizedAcl hfit
  have hrev := RecvState.init.revLen_received oversizedAcl hfit
  rw [RecvState.pending_init, List.nil_append] at hcontent
  rw [hlen, show RecvState.init.lastLen = 0 from rfl, Nat.zero_add] at hrev
  have hbody := parseBody_wait (by rw [hrev]; decide)
    (by rw [hcontent]; exact overlong_oversizedAcl.2.1)
    (Or.inr (by rw [hcontent, hrev]; exact overlong_oversizedAcl.2.2))
  have hne : oversizedAcl ≠ [] := List.ne_nil_of_length_pos (by rw [hlen]; decide)
  exact ⟨_, _, Execution.start.snoc (.data _ _ hne hfit _ (.leave hbody))⟩

theorem recv_buffer_never_full_iff_oversizedAcl :
    ∃ tr s, RecvRun [oversizedAcl] tr s ∧
      ((∀ is js os t, [oversizedAcl] = is ++ js → RecvRun is os t → t.lastLen < readBufferSize) ↔
        ∀ is c js os t, [oversizedAcl] = is ++ c :: js → RecvRun is os t →
          ¬ Overlong (t.pending ++ c)) := by
  obtain ⟨tr, s, run⟩ := recvRun_oversizedAcl
  exact ⟨tr, s, run, recv_buffer_never_full_iff run⟩

/-- One read of 2056 bytes that begin an ACL packet with 4095 bytes of payload: `last_len` is 2056. -/
theorem recv_buffer_wedged : ∃ tr s, RecvRun [oversizedAcl] tr s ∧ s.lastLen = readBufferSize := by
  obtain ⟨tr, s, run⟩ := recvRun_oversizedAcl
  have run' : RecvRun ([] ++ [oversizedAcl]) tr s := run
  obtain ⟨t, os, o, run₀, hstep, -⟩ := run'.last
  obtain ⟨-, rfl⟩ := run₀.eq_of_nil
  refine ⟨tr, s, run, (recvStep_full_iff hstep ?_).mpr ?_⟩
  · exact List.ne_nil_of_length_pos (by rw [overlong_oversizedAcl.1]; decide)
  · rw [RecvState.pending_init, List.nil_append]
    exact overlong_oversizedAcl

end Seekwave
