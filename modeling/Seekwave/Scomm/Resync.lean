import Seekwave.Scomm.Wedge

/-!
# Resynchronisation behind garbage

On an invalid type byte the thread discards bytes up to the next type that
`scomm_vendor_find_valid_type` knows. The parser itself also takes ISO packets, which
`scomm_vendor_find_valid_type` does not look for. `resync_exact_iff`: exactly the garbage in front of a
packet stream is discarded, unless the stream begins with an ISO packet and a read that begins in the
garbage goes on into it.
-/

open Memory

namespace Seekwave

/-- The bytes thrown away on the way. -/
def discarded (tr : List Delivery) : List UInt8 :=
  tr.flatMap fun
    | .discard b => b
    | _ => []

/-- What was handed on, bytes thrown away left out. -/
def handedOver (tr : List Delivery) : List Delivery :=
  tr.filter fun
    | .discard _ => false
    | _ => true

@[simp] theorem discarded_append (tr os : List Delivery) :
    discarded (tr ++ os) = discarded tr ++ discarded os := List.flatMap_append

@[simp] theorem handedOver_append (tr os : List Delivery) :
    handedOver (tr ++ os) = handedOver tr ++ handedOver os := List.filter_append _ _

@[simp] theorem discarded_discard (b : List UInt8) : discarded [.discard b] = b :=
  List.append_nil b

@[simp] theorem handedOver_discard (b : List UInt8) : handedOver [.discard b] = [] := rfl

theorem discarded_handedOn (p : H4Packet) : discarded (handedOn p) = [] := by
  unfold handedOn
  split <;> rfl

theorem handedOver_handedOn (p : H4Packet) : handedOver (handedOn p) = handedOn p := by
  unfold handedOn
  split <;> rfl

/-- Nothing is thrown away of packets handed on. -/
theorem discarded_flatMap_handedOn (ps : List H4Packet) : discarded (ps.flatMap handedOn) = [] := by
  induction ps with
  | nil => rfl
  | cons p ps ih => rw [List.flatMap_cons, discarded_append, discarded_handedOn, ih, List.append_nil]

theorem handedOver_flatMap_handedOn (ps : List H4Packet) :
    handedOver (ps.flatMap handedOn) = ps.flatMap handedOn := by
  induction ps with
  | nil => rfl
  | cons p ps ih => rw [List.flatMap_cons, handedOver_append, handedOver_handedOn, ih]

/-! ## The two type tests -/

/-- The two type tests differ on ISO packets only. -/
theorem recvAccepts_iff (t : UInt8) :
    recvAccepts t ↔ findValidAccepts t = true ∨ t = hciIsoPkt := by
  simp only [recvAccepts, findValidAccepts, Bool.or_eq_true, decide_eq_true_eq]
  tauto

theorem not_findValidAccepts_iso : findValidAccepts hciIsoPkt = false := rfl

/-- In garbage alone nothing is found. -/
theorem findIdx_garbage {g : List UInt8} (hg : ∀ x ∈ g, ¬ recvAccepts x) :
    g.findIdx findValidAccepts = g.length :=
  List.findIdx_eq_length_of_false fun x hx => by
    have := hg x hx
    rw [recvAccepts_iff, not_or] at this
    simpa using this.1

/-- In garbage followed by bytes of a packet, what is found depends on the packet's type. -/
theorem findIdx_garbage_append {g b : List UInt8} (hg : ∀ x ∈ g, ¬ recvAccepts x) :
    (g ++ b).findIdx findValidAccepts = g.length + b.findIdx findValidAccepts := by
  rw [List.findIdx_append, findIdx_garbage hg, if_neg (Nat.lt_irrefl _), Nat.add_comm]

/-! ## Runs through garbage into packets -/

/-- A read onto an empty buffer that begins with an invalid byte discards up to the next type
`scomm_vendor_find_valid_type` knows and keeps the rest. -/
theorem recvStep_garbage {s t : RecvState} {c : List UInt8} {os : List Delivery}
    (h : RecvStep s c os t) (hne : c ≠ []) (hempty : s.pending = [])
    (hacc : ¬ recvAccepts (byteAt c 0)) :
    os = [.discard (c.take (c.findIdx findValidAccepts))] ∧
      t.pending = c.drop (c.findIdx findValidAccepts) := by
  cases h with
  | zero => exact absurd rfl hne
  | data _ _ hfit st hret =>
    have hpos := List.length_pos_iff.mpr hne
    have hcontent := s.content_received c hfit
    rw [hempty, List.nil_append] at hcontent
    have hrev := s.revLen_received c hfit
    obtain ⟨st', hout, hrest, hbody⟩ := parseBody_discard (by rw [hrev]; omega)
      (by rw [hcontent]; exact hacc)
    obtain rfl := hret.unique (.leave hbody)
    rw [hcontent] at hout hrest
    exact ⟨by simpa [RecvState.received] using hout, hrest⟩

/-- Garbage `g` in front of the packets `ps`, after reads that returned `received`: what was discarded
is the garbage received, and the first `k` packets were handed on. -/
structure Resynced (g : List UInt8) (ps : List H4Packet) (received : List UInt8) (k : ℕ)
    (tr : List Delivery) (s : RecvState) : Prop where
  le : k ≤ ps.length
  garbage : discarded tr = received.take g.length
  handed : handedOver tr = (ps.take k).flatMap handedOn
  split : bytesOf (ps.take k) ++ s.pending = received.drop g.length

/-- No read that begins in the garbage goes on into a first packet that is an ISO packet. -/
def NoIsoCrossing (g : List UInt8) (ps : List H4Packet) (chunks : List (List UInt8)) : Prop :=
  ∀ p qs, ps = p :: qs → byteAt p.bytes 0 = hciIsoPkt →
    ∀ is c js, chunks = is ++ c :: js → is.flatten.length < g.length →
      (is ++ [c]).flatten.length ≤ g.length

theorem NoIsoCrossing.of_append {g : List UInt8} {ps : List H4Packet} {is js : List (List UInt8)}
    (h : NoIsoCrossing g ps (is ++ js)) : NoIsoCrossing g ps is := by
  rintro p qs hps hiso is' c js' rfl
  exact h p qs hps hiso is' c (js' ++ js) (by simp)

section Runs

variable {g : List UInt8} {ps : List H4Packet} {received c : List UInt8} {k : ℕ}
  {tr os : List Delivery} {s t : RecvState}

/-- While there is garbage to come nothing has been handed on and nothing is kept. -/
theorem Resynced.empty (h : Resynced g ps received k tr s) (hlt : received.length ≤ g.length) :
    k = 0 ∧ s.pending = [] := by
  have hsplit := h.split
  rw [List.drop_eq_nil_of_le hlt, List.append_eq_nil_iff] at hsplit
  refine ⟨?_, hsplit.2⟩
  by_contra hk
  have hle := h.le
  rcases ps with - | ⟨p, ps⟩
  · exact hk (Nat.le_zero.mp hle)
  · obtain ⟨k, rfl⟩ := Nat.exists_eq_succ_of_ne_zero hk
    have := congrArg List.length hsplit.1
    rw [Nat.succ_eq_add_one, List.take_succ_cons, bytesOf_cons, List.length_append,
      List.length_nil] at this
    have := p.isFrame.length_pos
    omega

/-- What is left of garbage and packets behind bytes that end in the garbage. -/
private theorem prefix_drop_garbage (hb : received ++ c <+: g ++ bytesOf ps)
    (hlt : received.length ≤ g.length) :
    received = g.take received.length ∧ c <+: g.drop received.length ++ bytesOf ps := by
  have hpre : received <+: g :=
    List.prefix_of_prefix_length_le ((List.prefix_append _ _).trans hb) (List.prefix_append _ _) hlt
  have htake := List.prefix_iff_eq_take.mp hpre
  refine ⟨htake, (List.prefix_append_right_inj received).mp ?_⟩
  rw [← List.append_assoc]
  conv => rhs; rw [htake, List.length_take, Nat.min_eq_left hlt, List.take_append_drop]
  exact hb

/-- A read once the garbage is over is a read of packets. -/
theorem Resynced.step_packets (h : Resynced g ps received k tr s) (hstep : RecvStep s c os t)
    (hne : c ≠ []) (hb : received ++ c <+: g ++ bytesOf ps) (hge : g.length ≤ received.length) :
    ∃ n, Resynced g ps (received ++ c) n (tr ++ os) t := by
  obtain ⟨r, rfl⟩ : g <+: received :=
    List.prefix_of_prefix_length_le (List.prefix_append _ _) ((List.prefix_append _ _).trans hb) hge
  have hsplit := h.split
  have hgarbage := h.garbage
  rw [List.drop_left] at hsplit
  rw [List.take_left] at hgarbage
  rw [List.append_assoc] at hb ⊢
  have hre : Reassembled ps r k ((ps.take k).flatMap handedOn) s := ⟨h.le, rfl, hsplit⟩
  obtain ⟨n, -, hre'⟩ := hre.step hstep hne ((List.prefix_append_right_inj g).mp hb)
  have hnone : discarded os = [] := by
    have := congrArg discarded hre'.handed
    rwa [discarded_append, discarded_flatMap_handedOn, discarded_flatMap_handedOn,
      List.nil_append] at this
  have hall : (ps.take k).flatMap handedOn ++ handedOver os = (ps.take (k + n)).flatMap handedOn := by
    have := congrArg handedOver hre'.handed
    rwa [handedOver_append, handedOver_flatMap_handedOn, handedOver_flatMap_handedOn] at this
  refine ⟨k + n, hre'.le, ?_, ?_, ?_⟩
  · rw [discarded_append, hgarbage, hnone, List.append_nil, List.take_left]
  · rw [handedOver_append, h.handed, hall]
  · rw [List.drop_left, hre'.split]

/-- A read that begins in the garbage discards it, and with it the bytes of a first packet only as far
as `scomm_vendor_find_valid_type` does not know the packet's type. -/
theorem Resynced.step_garbage (h : Resynced g ps received k tr s) (hstep : RecvStep s c os t)
    (hne : c ≠ []) (hg : ∀ x ∈ g, ¬ recvAccepts x) (hb : received ++ c <+: g ++ bytesOf ps)
    (hlt : received.length < g.length) :
    (c.length ≤ g.length - received.length ∧ os = [.discard c] ∧ t.pending = []) ∨
    ∃ d, received ++ c = g ++ d ∧ d ≠ [] ∧ d <+: bytesOf ps ∧
      os = [.discard (g.drop received.length ++ d.take (d.findIdx findValidAccepts))] ∧
      t.pending = d.drop (d.findIdx findValidAccepts) := by
  obtain ⟨-, hempty⟩ := h.empty (by omega)
  obtain ⟨htake, hc⟩ := prefix_drop_garbage hb (by omega)
  have hcpos := List.length_pos_iff.mpr hne
  have hg' : ∀ x ∈ g.drop received.length, ¬ recvAccepts x := fun x hx => hg x (List.mem_of_mem_drop hx)
  have hlen : (g.drop received.length).length = g.length - received.length := List.length_drop
  -- the read begins with a byte of the garbage, which no packet begins with
  have hacc : ¬ recvAccepts (byteAt c 0) := by
    obtain ⟨e, he⟩ := hc
    rw [← @byteAt_append_left c e 0 hcpos, he, byteAt_append_left (by omega)]
    rcases hdrop : g.drop received.length with - | ⟨x, xs⟩
    · rw [hdrop, List.length_nil] at hlen
      omega
    · exact hg' x (by simp [hdrop])
  obtain ⟨hos, hpending⟩ := recvStep_garbage hstep hne hempty hacc
  by_cases hle : c.length ≤ g.length - received.length
  · left
    have hcg : c <+: g.drop received.length :=
      List.prefix_of_prefix_length_le hc (List.prefix_append _ _) (by omega)
    have hidx : c.findIdx findValidAccepts = c.length := findIdx_garbage fun x hx => hg' x (hcg.mem hx)
    rw [hidx, List.take_length] at hos
    rw [hidx, List.drop_length] at hpending
    exact ⟨hle, hos, hpending⟩
  · right
    -- the read goes beyond the garbage: `d` is its part of the packets
    obtain ⟨d, rfl⟩ : g.drop received.length <+: c :=
      List.prefix_of_prefix_length_le (List.prefix_append _ _) hc (by omega)
    rw [List.length_append] at hle
    rw [findIdx_garbage_append hg', List.take_length_add_append] at hos
    rw [findIdx_garbage_append hg', List.drop_length_add_append] at hpending
    refine ⟨d, ?_, List.ne_nil_of_length_pos (by omega), (List.prefix_append_right_inj _).mp hc, hos,
      hpending⟩
    rw [← List.append_assoc]
    conv => lhs; arg 1; arg 1; rw [htake]
    rw [List.take_append_drop]

/-- The type byte of a packet that is not an ISO packet is found at once. -/
theorem findIdx_packet {p : H4Packet} {qs : List H4Packet} {d : List UInt8} (hd : d ≠ [])
    (hpre : d <+: bytesOf (p :: qs)) (hiso : byteAt p.bytes 0 ≠ hciIsoPkt) :
    d.findIdx findValidAccepts = 0 := by
  obtain ⟨x, d, rfl⟩ := List.exists_cons_of_ne_nil hd
  obtain ⟨e, he⟩ := hpre
  have hx : x = byteAt p.bytes 0 := by
    have := congrArg (fun l => byteAt l 0) he
    rwa [bytesOf_cons, byteAt_append_left p.isFrame.length_pos] at this
  have hfound := ((recvAccepts_iff x).mp (hx ▸ p.accepted)).resolve_right (hx ▸ hiso)
  rw [List.findIdx_cons, hfound]
  rfl

/-- **Step lemma.** A read that meets the condition keeps the thread in step. -/
theorem Resynced.step (h : Resynced g ps received k tr s) (hstep : RecvStep s c os t) (hne : c ≠ [])
    (hg : ∀ x ∈ g, ¬ recvAccepts x) (hb : received ++ c <+: g ++ bytesOf ps)
    (hcond : ∀ p qs, ps = p :: qs → byteAt p.bytes 0 = hciIsoPkt → received.length < g.length →
      (received ++ c).length ≤ g.length) :
    ∃ n, Resynced g ps (received ++ c) n (tr ++ os) t := by
  by_cases hlt : received.length < g.length
  · obtain ⟨rfl, hempty⟩ := h.empty (by omega)
    have htr : discarded tr = received := by rw [h.garbage, List.take_of_length_le (by omega)]
    have hover : handedOver tr = [] := by rw [h.handed]; simp
    rcases h.step_garbage hstep hne hg hb hlt with ⟨hle, rfl, hpending⟩ | ⟨d, heq, hd, hpre, rfl, hpending⟩
    · -- the read ends in the garbage
      refine ⟨0, Nat.zero_le _, ?_, ?_, ?_⟩
      · rw [discarded_append, htr, List.take_of_length_le (by rw [List.length_append]; omega)]
        rw [discarded_discard]
      · rw [handedOver_append, hover, handedOver_discard, List.take_zero]
        rfl
      · rw [List.take_zero, bytesOf_nil, hpending,
          List.drop_eq_nil_of_le (by rw [List.length_append]; omega), List.append_nil]
    · have hdpos := List.length_pos_iff.mpr hd
      rcases ps with - | ⟨p, qs⟩
      · exact absurd (List.prefix_nil.mp hpre) hd
      · -- the first packet is not an ISO packet, so its type byte is found
        have hiso : byteAt p.bytes 0 ≠ hciIsoPkt := by
          intro hiso
          have := hcond p qs rfl hiso hlt
          rw [heq, List.length_append] at this
          omega
        have hidx := findIdx_packet hd hpre hiso
        rw [hidx, List.take_zero, List.append_nil]
        rw [hidx, List.drop_zero] at hpending
        refine ⟨0, Nat.zero_le _, ?_, ?_, ?_⟩
        · rw [discarded_append, htr, heq, List.take_left]
          obtain ⟨htake, -⟩ := prefix_drop_garbage hb (by omega)
          rw [discarded_discard]
          conv => lhs; arg 1; rw [htake]
          exact List.take_append_drop _ _
        · rw [handedOver_append, hover, handedOver_discard, List.take_zero]
          rfl
        · rw [List.take_zero, bytesOf_nil, hpending, heq, List.drop_left, List.nil_append]
  · exact h.step_packets hstep hne hb (by omega)

/-- **Run lemma.** Runs that meet the condition keep the thread in step. -/
theorem recvRun_resynced {chunks : List (List UInt8)} (hg : ∀ x ∈ g, ¬ recvAccepts x)
    (run : RecvRun chunks tr s) (hb : chunks.flatten <+: g ++ bytesOf ps)
    (hcond : NoIsoCrossing g ps chunks) : ∃ k, Resynced g ps chunks.flatten k tr s := by
  revert hb hcond
  refine run.invariant (I := fun is os t => is.flatten <+: g ++ bytesOf ps → NoIsoCrossing g ps is →
    ∃ k, Resynced g ps is.flatten k os t) ?_ ?_
  · exact fun _ _ => ⟨0, Nat.zero_le _, by simp [discarded], by simp [handedOver], by simp⟩
  · intro is os t chunk o u _ ih hstep hb hcond
    rw [List.flatten_append, List.flatten_singleton] at hb ⊢
    obtain ⟨k, hk⟩ := ih ((List.prefix_append _ _).trans hb) hcond.of_append
    by_cases hne : chunk = []
    · subst hne
      cases hstep with
      | zero => exact ⟨k, by simpa using hk⟩
      | data _ hne _ _ _ => exact absurd rfl hne
    · refine hk.step hstep hne hg hb fun p qs hps hiso hlt => ?_
      have := hcond p qs hps hiso is chunk [] rfl hlt
      rwa [List.flatten_append, List.flatten_singleton] at this

end Runs

/-- **Resynchronisation, exactly when.** In front of a packet stream, the bytes discarded are at all
times exactly the garbage received, and the packets handed on the first ones of the stream, if and
only if no read that begins in the garbage goes on into a first packet that is an ISO packet. -/
theorem resync_exact_iff (g : List UInt8) (hg : ∀ x ∈ g, ¬ recvAccepts x) (ps : List H4Packet)
    {chunks : List (List UInt8)} {tr : List Delivery} {s : RecvState} (run : RecvRun chunks tr s)
    (hb : chunks.flatten <+: g ++ bytesOf ps) :
    (∀ is js os t, chunks = is ++ js → RecvRun is os t →
      discarded os = is.flatten.take g.length ∧
        ∃ k ≤ ps.length, handedOver os = (ps.take k).flatMap handedOn) ↔
    NoIsoCrossing g ps chunks := by
  constructor
  · rintro hexact p qs rfl hiso is c js rfl hlt
    by_contra hcross
    have hb₁ : (is ++ [c]).flatten <+: g ++ bytesOf (p :: qs) := by
      rw [← List.singleton_append, ← List.append_assoc, List.flatten_append] at hb
      exact (List.prefix_append _ _).trans hb
    rw [← List.singleton_append, ← List.append_assoc] at run
    obtain ⟨t, os, _, run₁, -, -⟩ := run.split
    have hdisc := (hexact (is ++ [c]) js os t (by simp) run₁).1
    obtain ⟨t₀, os₀, o, run₀, hstep, rfl⟩ := run₁.last
    rw [List.flatten_append, List.flatten_singleton] at hb₁ hdisc hcross
    -- up to this read the garbage was not over, so the thread was in step
    have hcond₀ : NoIsoCrossing g (p :: qs) is := by
      rintro p' qs' - - is' c' js' rfl -
      rw [List.flatten_append, List.flatten_cons, List.length_append, List.length_append] at hlt
      rw [List.flatten_append, List.flatten_singleton, List.length_append]
      omega
    obtain ⟨k, hk⟩ := recvRun_resynced hg run₀ ((List.prefix_append _ _).trans hb₁) hcond₀
    have hne : c ≠ [] := by
      rintro rfl
      rw [List.append_nil] at hcross
      omega
    rw [discarded_append, hk.garbage, List.take_of_length_le (by omega)] at hdisc
    have hlen := congrArg List.length hdisc
    rw [List.length_append, List.length_take] at hlen
    rcases hk.step_garbage hstep hne hg hb₁ hlt with ⟨hle, -, -⟩ | ⟨d, heq, hd, hpre, rfl, -⟩
    · rw [List.length_append] at hcross
      omega
    · -- the ISO type byte is discarded as well
      have hidx : 0 < d.findIdx findValidAccepts := by
        obtain ⟨x, d, rfl⟩ := List.exists_cons_of_ne_nil hd
        obtain ⟨e, he⟩ := hpre
        have hx : x = hciIsoPkt := by
          have := congrArg (fun l => byteAt l 0) he
          rwa [bytesOf_cons, byteAt_append_left p.isFrame.length_pos, hiso] at this
        rw [List.findIdx_cons, hx, not_findValidAccepts_iso]
        exact Nat.succ_pos _
      have hdpos := List.length_pos_iff.mpr hd
      simp only [discarded_discard, List.length_append, List.length_drop, List.length_take] at hlen
      omega
  · rintro hcond is js os t rfl run₁
    rw [List.flatten_append] at hb
    obtain ⟨k, hk⟩ := recvRun_resynced hg run₁ ((List.prefix_append _ _).trans hb) hcond.of_append
    exact ⟨hk.garbage, k, hk.le, hk.handed⟩

/-- A first read that begins with an invalid byte is processed. -/
theorem recvRun_invalid {c : List UInt8} (hne : c ≠ []) (hfit : c.length ≤ readBufferSize)
    (hacc : ¬ recvAccepts (byteAt c 0)) : ∃ os t, RecvRun [c] os t := by
  have hpos := List.length_pos_iff.mpr hne
  have hfit' : c.length ≤ readBufferSize - RecvState.init.lastLen := hfit
  have hcontent := RecvState.init.content_received c hfit'
  have hrev := RecvState.init.revLen_received c hfit'
  rw [RecvState.pending_init, List.nil_append] at hcontent
  obtain ⟨st, -, -, hbody⟩ := parseBody_discard (by rw [hrev]; omega) (by rw [hcontent]; exact hacc)
  exact ⟨_, _, Execution.start.snoc (.data _ _ hne hfit' st (.leave hbody))⟩

theorem resync_exact_iff_event :
    ∃ tr s, RecvRun [0x00 :: resetComplete.bytes] tr s ∧
      ((∀ is js os t, [0x00 :: resetComplete.bytes] = is ++ js → RecvRun is os t →
        discarded os = is.flatten.take 1 ∧
          ∃ k ≤ 1, handedOver os = ([resetComplete].take k).flatMap handedOn) ↔
        NoIsoCrossing [0x00] [resetComplete] [0x00 :: resetComplete.bytes]) := by
  obtain ⟨tr, s, run⟩ := @recvRun_invalid (0x00 :: resetComplete.bytes) (by decide) (by decide)
    (by decide)
  have hgarbage : ∀ x ∈ [(0x00 : UInt8)], ¬ recvAccepts x := by
    intro x hx
    rw [List.mem_singleton.mp hx]
    decide
  exact ⟨tr, s, run, resync_exact_iff [0x00] hgarbage [resetComplete] run (List.prefix_refl _)⟩

/-- An ISO packet with two bytes of payload. -/
def isoPacket : H4Packet where
  bytes := [0x05, 0x01, 0x00, 0x02, 0x00, 0xAA, 0x04]
  accepted := by decide
  header := by decide
  total := by decide
  fits := by decide

/-- One read returns a garbage byte and an ISO packet: the first three bytes of the packet are
discarded with the garbage. -/
theorem resync_discards_iso :
    ∃ tr s, RecvRun [0x00 :: isoPacket.bytes] tr s ∧ discarded tr = [0x00, 0x05, 0x01, 0x00] := by
  obtain ⟨tr, s, run⟩ := @recvRun_invalid (0x00 :: isoPacket.bytes) (by decide) (by decide) (by decide)
  have run' : RecvRun ([] ++ [0x00 :: isoPacket.bytes]) tr s := run
  obtain ⟨t, os, o, run₀, hstep, rfl⟩ := run'.last
  obtain ⟨rfl, rfl⟩ := run₀.eq_of_nil
  obtain ⟨rfl, -⟩ := recvStep_garbage hstep (by decide) rfl (by decide)
  exact ⟨_, s, run, by decide⟩

end Seekwave
