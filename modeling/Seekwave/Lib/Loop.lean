import Mathlib

/-!
# Loops of an imperative program

A loop is given by its body, a function that turns the loop state into either another state to go
round with (`Sum.inl`) or the value the loop is left with (`Sum.inr`). `Loop.Returns` is the
big-step meaning, which says nothing of a loop that goes round for ever; `Loop.iterate` runs a
bounded number of passes; `Loop.run` is the total function of a loop with a decreasing measure.

The rules are the usual ones: `Returns.invariant` (partial correctness from a loop invariant),
`exists_returns` (termination from a measure under an invariant) and `not_returns` (divergence from an
invariant that forbids leaving). `Loop.Passes` are the states a loop goes round with, whether it ends or
not.
-/

namespace Loop

variable {σ ρ : Type*}

/-- The loop with the given body, entered at `s`, is left with `r`. -/
inductive Returns (body : σ → σ ⊕ ρ) : σ → ρ → Prop
  | leave {s : σ} {r : ρ} : body s = .inr r → Returns body s r
  | again {s s' : σ} {r : ρ} : body s = .inl s' → Returns body s' r → Returns body s r

/-- At most `n` passes of the loop; `none` when it has not been left by then. -/
def iterate (body : σ → σ ⊕ ρ) : ℕ → σ → Option ρ
  | 0, _ => none
  | n + 1, s =>
    match body s with
    | .inr r => some r
    | .inl s' => iterate body n s'

variable {body : σ → σ ⊕ ρ}

/-- The passes of a bounded run are passes of the loop. -/
theorem returns_of_iterate {n : ℕ} {s : σ} {r : ρ} (h : iterate body n s = some r) :
    Returns body s r := by
  induction n generalizing s with
  | zero => simp [iterate] at h
  | succ n ih =>
    rw [iterate] at h
    cases hb : body s with
    | inr r' =>
      rw [hb] at h
      obtain rfl : r' = r := Option.some.inj h
      exact .leave hb
    | inl s' =>
      rw [hb] at h
      exact .again hb (ih h)

/-- A loop is left with at most one value. -/
theorem Returns.unique {s : σ} {r r' : ρ} (h : Returns body s r) (h' : Returns body s r') :
    r = r' := by
  induction h with
  | leave hb =>
    cases h' with
    | leave hb' => exact Sum.inr.inj (hb.symm.trans hb')
    | again hb' _ => exact absurd (hb.symm.trans hb') (by simp)
  | again hb _ ih =>
    cases h' with
    | leave hb' => exact absurd (hb.symm.trans hb') (by simp)
    | again hb' h' =>
      obtain rfl := Sum.inl.inj (hb.symm.trans hb')
      exact ih h'

/-- **Invariant rule.** What every further pass keeps, and what leaving turns into `Q`, gives `Q`
of the value the loop is left with. -/
theorem Returns.invariant {I : σ → Prop} {Q : ρ → Prop} {s : σ} {r : ρ}
    (h : Returns body s r) (hs : I s)
    (again : ∀ s s', I s → body s = .inl s' → I s')
    (leave : ∀ s r, I s → body s = .inr r → Q r) : Q r := by
  induction h with
  | leave hb => exact leave _ _ hs hb
  | again hb _ ih => exact ih (again _ _ hs hb)

/-- **Termination rule.** A measure that every further pass lowers, under an invariant that every
further pass keeps, makes the loop end. -/
theorem exists_returns (I : σ → Prop) (μ : σ → ℕ)
    (again : ∀ s s', I s → body s = .inl s' → I s' ∧ μ s' < μ s) {s : σ} (hs : I s) :
    ∃ r, Returns body s r := by
  induction hn : μ s using Nat.strongRecOn generalizing s with
  | ind n ih =>
    cases hb : body s with
    | inr r => exact ⟨r, .leave hb⟩
    | inl s' =>
      obtain ⟨hs', hlt⟩ := again s s' hs hb
      obtain ⟨r, hr⟩ := ih (μ s') (hn ▸ hlt) hs' rfl
      exact ⟨r, .again hb hr⟩

/-- **Divergence rule.** From a state with a property that always leads to another pass and is kept by
it, the loop is never left. -/
theorem not_returns {I : σ → Prop} (again : ∀ s, I s → ∃ s', body s = .inl s' ∧ I s') {s : σ}
    (hs : I s) (r : ρ) : ¬ Returns body s r := by
  intro h
  induction h with
  | leave hb =>
    obtain ⟨s', hb', -⟩ := again _ hs
    exact absurd (hb.symm.trans hb') (by simp)
  | again hb _ ih =>
    obtain ⟨s', hb', hs'⟩ := again _ hs
    obtain rfl := Sum.inl.inj (hb.symm.trans hb')
    exact ih hs'

/-! ## The passes of a loop -/

/-- `t` is a state that the loop entered at `s` goes round with. -/
inductive Passes (body : σ → σ ⊕ ρ) (s : σ) : σ → Prop
  | start : Passes body s s
  | again {t u : σ} : Passes body s t → body t = .inl u → Passes body s u

/-- A loop that ends is left from every one of its passes, with the same value. -/
theorem Passes.returns {s t : σ} {r : ρ} (h : Passes body s t) (hret : Returns body s r) :
    Returns body t r := by
  induction h with
  | start => exact hret
  | again _ hb ih =>
    cases ih with
    | leave hb' => exact absurd (hb.symm.trans hb') (by simp)
    | again hb' hret' =>
      obtain rfl := Sum.inl.inj (hb.symm.trans hb')
      exact hret'

/-- What holds at the start and is kept by every pass that goes round again holds in every pass. -/
theorem Passes.invariant {I : σ → Prop} {s t : σ} (h : Passes body s t) (hs : I s)
    (again : ∀ t u, I t → body t = .inl u → I u) : I t := by
  induction h with
  | start => exact hs
  | again _ hb ih => exact again _ _ ih hb

/-- A loop each of whose passes lowers a measure ends. -/
theorem exists_returns_of_passes (μ : σ → ℕ) {s : σ}
    (dec : ∀ t u, Passes body s t → body t = .inl u → μ u < μ t) : ∃ r, Returns body s r :=
  exists_returns (Passes body s) μ (fun t u ht hb => ⟨ht.again hb, dec t u ht hb⟩) .start

/-! ## Loops with a measure -/

section Measured

variable (body) (μ : σ → ℕ) (dec : ∀ s s', body s = .inl s' → μ s' < μ s)

/-- The passes of a measured loop, counted down by a bound on the measure. -/
def runAux : (n : ℕ) → (s : σ) → μ s < n → ρ
  | 0, _, h => absurd h (Nat.not_lt_zero _)
  | n + 1, s, h =>
    match hb : body s with
    | .inr r => r
    | .inl s' => runAux n s' (by have := dec s s' hb; omega)

/-- The value a measured loop is left with. -/
def run (s : σ) : ρ :=
  runAux body μ dec (μ s + 1) s (Nat.lt_succ_self _)

theorem returns_runAux (n : ℕ) (s : σ) (h : μ s < n) :
    Returns body s (runAux body μ dec n s h) := by
  induction n generalizing s with
  | zero => exact absurd h (Nat.not_lt_zero _)
  | succ n ih =>
    rw [runAux]
    split
    · next r hb => exact .leave hb
    · next s' hb => exact .again hb (ih s' _)

/-- `run` is the big-step meaning of the loop. -/
theorem returns_run (s : σ) : Returns body s (run body μ dec s) :=
  returns_runAux body μ dec _ s _

/-- `run` computes whatever value the loop can be left with. -/
theorem run_eq_of_returns {s : σ} {r : ρ} (h : Returns body s r) : run body μ dec s = r :=
  (returns_run body μ dec s).unique h

end Measured

end Loop
