import Mathlib

/-!
# Self-delimiting frames in a stream

A `Framer` says how long the frame at the front of some symbols is, as soon as the symbols show it;
more symbols behind do not change the answer. A list that is exactly as long as its own front
announces is a frame. A stream of frames is cut into frames in one way only: a concatenation of
frames that begins another one is a prefix of it frame by frame (`Framer.prefix_of_flatten`), and the
whole frames in front of an incomplete rest are determined by the symbols (`Framer.flatten_unique`).
A log is a header with whole frames behind it (`Framer.IsLog`).
-/

/-- The announced length of the frame at the front of a list of symbols, once it can be told. -/
structure Framer (β : Type*) where
  frameLen : List β → Option ℕ
  stable : ∀ {xs : List β} {n : ℕ} (ys : List β), frameLen xs = some n →
    frameLen (xs ++ ys) = some n
  pos : ∀ {xs : List β} {n : ℕ}, frameLen xs = some n → 0 < n

namespace Framer

variable {β : Type*} (F : Framer β)

/-- A list as long as its front announces. -/
def IsFrame (p : List β) : Prop := F.frameLen p = some p.length

/-- A list with a whole frame at its front. -/
def HasFrame (xs : List β) : Prop := ∃ n, F.frameLen xs = some n ∧ n ≤ xs.length

variable {F} {p q xs ys : List β} {ps qs : List (List β)}

theorem IsFrame.frameLen_append (hp : F.IsFrame p) (xs : List β) :
    F.frameLen (p ++ xs) = some p.length :=
  F.stable xs hp

theorem IsFrame.length_pos (hp : F.IsFrame p) : 0 < p.length := F.pos hp

theorem IsFrame.hasFrame_append (hp : F.IsFrame p) (xs : List β) : F.HasFrame (p ++ xs) :=
  ⟨p.length, hp.frameLen_append xs, by simp⟩

theorem not_hasFrame_nil : ¬ F.HasFrame [] := by
  rintro ⟨n, hn, hle⟩
  exact Nat.not_lt.mpr hle (F.pos hn)

/-- A frame that is cut short does not begin with a whole one. -/
theorem IsFrame.not_hasFrame_of_lt (hp : F.IsFrame p) (hpre : xs <+: p)
    (hlt : xs.length < p.length) : ¬ F.HasFrame xs := by
  rintro ⟨n, hn, hle⟩
  obtain ⟨ys, rfl⟩ := hpre
  obtain rfl := Option.some.inj ((F.stable ys hn).symm.trans hp)
  omega

/-- A whole frame at the front of a longer list is there in any longer list. -/
theorem HasFrame.append (h : F.HasFrame xs) (ys : List β) : F.HasFrame (xs ++ ys) := by
  obtain ⟨n, hn, hle⟩ := h
  exact ⟨n, F.stable ys hn, by rw [List.length_append]; omega⟩

/-- Two streams that agree and begin with a frame each begin with the same frame. -/
theorem IsFrame.append_inj (hp : F.IsFrame p) (hq : F.IsFrame q) (h : p ++ xs = q ++ ys) :
    p = q ∧ xs = ys := by
  have hlen : p.length = q.length := by
    have := hp.frameLen_append xs
    rw [h, hq.frameLen_append ys] at this
    exact (Option.some.inj this).symm
  exact List.append_inj h hlen

/-- **Unique framing of a prefix.** Frames whose concatenation begins a concatenation of frames are
the first of those frames. -/
theorem prefix_of_flatten (hps : ∀ p ∈ ps, F.IsFrame p) (hqs : ∀ q ∈ qs, F.IsFrame q)
    (h : ps.flatten <+: qs.flatten) : ps <+: qs := by
  induction ps generalizing qs with
  | nil => exact List.nil_prefix
  | cons p ps ih =>
    have hp := hps p (by simp)
    obtain ⟨rest, hrest⟩ := h
    rw [List.flatten_cons, List.append_assoc] at hrest
    cases qs with
    | nil =>
      have := congrArg List.length hrest
      simp only [List.length_append, List.flatten_nil, List.length_nil] at this
      exact absurd hp.length_pos (by omega)
    | cons q qs =>
      rw [List.flatten_cons] at hrest
      obtain ⟨rfl, htail⟩ := hp.append_inj (hqs q (by simp)) hrest
      have := ih (fun r hr => hps r (by simp [hr])) (fun r hr => hqs r (by simp [hr])) ⟨rest, htail⟩
      exact List.cons_prefix_cons.mpr ⟨rfl, this⟩

/-- **Unique framing of a stream.** The whole frames in front of a rest without a whole frame at its
front, and that rest, are determined by the symbols. -/
theorem flatten_unique (hps : ∀ p ∈ ps, F.IsFrame p) (hqs : ∀ q ∈ qs, F.IsFrame q)
    (hxs : ¬ F.HasFrame xs) (hys : ¬ F.HasFrame ys) (h : ps.flatten ++ xs = qs.flatten ++ ys) :
    ps = qs ∧ xs = ys := by
  induction ps generalizing qs with
  | nil =>
    cases qs with
    | nil => exact ⟨rfl, by simpa using h⟩
    | cons q qs =>
      rw [List.flatten_nil, List.nil_append, List.flatten_cons, List.append_assoc] at h
      exact absurd (h ▸ (hqs q (by simp)).hasFrame_append _) hxs
  | cons p ps ih =>
    have hp := hps p (by simp)
    rw [List.flatten_cons, List.append_assoc] at h
    cases qs with
    | nil =>
      rw [List.flatten_nil, List.nil_append] at h
      exact absurd (h ▸ hp.hasFrame_append _) hys
    | cons q qs =>
      rw [List.flatten_cons, List.append_assoc] at h
      obtain ⟨rfl, htail⟩ := hp.append_inj (hqs q (by simp)) h
      obtain ⟨rfl, rfl⟩ := ih (fun r hr => hps r (by simp [hr])) (fun r hr => hqs r (by simp [hr])) htail
      exact ⟨rfl, rfl⟩

/-! ## Logs

A log is a header followed by whole frames.
-/

variable (F) in
/-- The header `hdr`, and whole frames behind it. -/
def IsLog (hdr xs : List β) : Prop := ∃ ps : List (List β), (∀ p ∈ ps, F.IsFrame p) ∧ xs = hdr ++ ps.flatten

variable {hdr : List β}

variable (F hdr) in
/-- The header alone is a log. -/
theorem isLog_header : F.IsLog hdr hdr := ⟨[], by simp, by simp⟩

/-- A frame more makes a log. -/
theorem IsLog.append (h : F.IsLog hdr xs) (hp : F.IsFrame p) : F.IsLog hdr (xs ++ p) := by
  obtain ⟨ps, hps, rfl⟩ := h
  refine ⟨ps ++ [p], ?_, by simp⟩
  intro q hq
  rcases List.mem_append.mp hq with hq | hq
  · exact hps q hq
  · exact List.mem_singleton.mp hq ▸ hp

theorem IsLog.length_le (h : F.IsLog hdr xs) : hdr.length ≤ xs.length := by
  obtain ⟨ps, -, rfl⟩ := h
  rw [List.length_append]
  omega

/-- Symbols that do not begin with a whole frame spoil a log. -/
theorem IsLog.not_append (h : F.IsLog hdr xs) (hys : ¬ F.HasFrame ys) (hne : ys ≠ []) :
    ¬ F.IsLog hdr (xs ++ ys) := by
  rintro ⟨qs, hqs, heq⟩
  obtain ⟨ps, hps, rfl⟩ := h
  rw [List.append_assoc] at heq
  have hcancel : ps.flatten ++ ys = qs.flatten ++ [] := by
    rw [List.append_nil]
    exact List.append_cancel_left heq
  exact hne (flatten_unique hps hqs hys not_hasFrame_nil hcancel).2

end Framer
