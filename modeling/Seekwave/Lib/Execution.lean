import Mathlib

/-!
# Executions of a step relation with inputs and outputs

`Execution step s is os t`: from `s`, taking the inputs `is` one after the other, the system can
produce the outputs `os` and be in `t`. An execution grows at its end, so that a fact about a whole
run follows from the fact about the run so far and one more step (`Execution.invariant`). For a
deterministic system, `Execution.always_iff` turns a condition on single steps into one on whole runs.
-/

variable {σ ι ω : Type*}

/-- The runs of a step relation, with the inputs taken and the outputs produced on the way. -/
inductive Execution (step : σ → ι → List ω → σ → Prop) (s : σ) :
    List ι → List ω → σ → Prop
  | start : Execution step s [] [] s
  | snoc {is : List ι} {os : List ω} {t u : σ} {i : ι} {o : List ω} :
      Execution step s is os t → step t i o u → Execution step s (is ++ [i]) (os ++ o) u

namespace Execution

variable {step : σ → ι → List ω → σ → Prop} {s t u : σ} {is js : List ι} {os ps : List ω}

/-- **Invariant rule.** What holds at the start and is kept by every step, told of the inputs and
outputs so far, holds after every run. -/
theorem invariant {I : List ι → List ω → σ → Prop} (h : Execution step s is os t)
    (start : I [] [] s)
    (next : ∀ is os t i o u, Execution step s is os t → I is os t → step t i o u →
      I (is ++ [i]) (os ++ o) u) :
    I is os t := by
  induction h with
  | start => exact start
  | snoc hrun hstep ih => exact next _ _ _ _ _ _ hrun ih hstep

/-- Only the empty run takes no input. -/
theorem eq_of_nil (h : Execution step s [] os t) : os = [] ∧ t = s := by
  generalize hks : ([] : List ι) = ks at h
  cases h with
  | start => exact ⟨rfl, rfl⟩
  | snoc _ _ => simp at hks

/-- The last step of a run that took a last input. -/
theorem last {i : ι} (h : Execution step s (is ++ [i]) os u) :
    ∃ t os₁ o, Execution step s is os₁ t ∧ step t i o u ∧ os = os₁ ++ o := by
  generalize hks : is ++ [i] = ks at h
  cases h with
  | start => simp at hks
  | snoc hrun hstep =>
    obtain ⟨rfl, hi⟩ := List.append_inj' hks rfl
    obtain rfl : i = _ := by simpa using hi
    exact ⟨_, _, _, hrun, hstep, rfl⟩

/-- **Invariant rule for runs that begin with a step of their own.** -/
theorem invariant_cons {I : List ω → σ → Prop} {i : ι} (h : Execution step s (i :: is) os t)
    (start : ∀ o t, step s i o t → I o t)
    (next : ∀ os t j o u, j ∈ is → I os t → step t j o u → I (os ++ o) u) : I os t := by
  induction is using List.reverseRecOn generalizing os t with
  | nil =>
    obtain ⟨t', os', o, hrun, hstep, rfl⟩ := @last _ _ _ step s t [] os i h
    obtain ⟨rfl, rfl⟩ := hrun.eq_of_nil
    exact start o t hstep
  | append_singleton js j ih =>
    rw [← List.cons_append] at h
    obtain ⟨t', os', o, hrun, hstep, rfl⟩ := h.last
    refine next os' t' j o t (List.mem_append_right _ (List.mem_singleton_self j)) ?_ hstep
    exact ih hrun fun os t k o u hk => next os t k o u (List.mem_append_left _ hk)

/-- **Budget rule.** Where every step that may be taken costs no more than it lowers the rank, under an
invariant, the steps of a run cost no more than the rank at its start. -/
theorem budget {J : σ → Prop} {A : ι → Prop} {c : ι → ℕ} {r : σ → ℕ} (h : Execution step s is os t)
    (hJ : J s) (hkeep : ∀ ⦃t i o u⦄, J t → A i → step t i o u → J u)
    (hlower : ∀ ⦃t i o u⦄, J t → A i → step t i o u → c i + r u ≤ r t) (hA : ∀ i ∈ is, A i) :
    J t ∧ (is.map c).sum + r t ≤ r s := by
  induction h with
  | start => exact ⟨hJ, by simp⟩
  | snoc _ hstep ih =>
    obtain ⟨ht, hbound⟩ := ih fun i hi => hA i (List.mem_append_left _ hi)
    have hi := hA _ (List.mem_append_right _ (List.mem_singleton_self _))
    have hstep' := hlower ht hi hstep
    refine ⟨hkeep ht hi hstep, ?_⟩
    rw [List.map_append, List.sum_append, List.map_singleton, List.sum_singleton]
    omega

/-- A run is cut in two wherever its inputs are. -/
theorem split (h : Execution step s (is ++ js) os u) :
    ∃ t os₁ os₂, Execution step s is os₁ t ∧ Execution step t js os₂ u ∧ os = os₁ ++ os₂ := by
  induction js using List.reverseRecOn generalizing os u with
  | nil => exact ⟨u, os, [], by simpa using h, .start, by simp⟩
  | append_singleton js j ih =>
    rw [← List.append_assoc] at h
    obtain ⟨t', os', o, hrun, hstep, rfl⟩ := h.last
    obtain ⟨t, os₁, os₂, h₁, h₂, rfl⟩ := ih hrun
    exact ⟨t, os₁, _, h₁, h₂.snoc hstep, by simp⟩

/-- A run of a deterministic system is determined by its inputs. -/
theorem unique (det : ∀ ⦃s i o t o' t'⦄, step s i o t → step s i o' t' → o = o' ∧ t = t')
    {os' : List ω} {t' : σ} (h : Execution step s is os t) (h' : Execution step s is os' t') :
    os = os' ∧ t = t' := by
  induction is using List.reverseRecOn generalizing os os' t t' with
  | nil =>
    obtain ⟨rfl, rfl⟩ := h.eq_of_nil
    obtain ⟨rfl, rfl⟩ := h'.eq_of_nil
    exact ⟨rfl, rfl⟩
  | append_singleton is i ih =>
    obtain ⟨u, os₀, o, hrun, hstep, rfl⟩ := h.last
    obtain ⟨u', os₀', o', hrun', hstep', rfl⟩ := h'.last
    obtain ⟨rfl, rfl⟩ := ih hrun hrun'
    obtain ⟨rfl, rfl⟩ := det hstep hstep'
    exact ⟨rfl, rfl⟩

/-- **Condition rule.** Let `C` say of a step, from the state before it, whether it keeps the property
`Q` of states and yields outputs with the property `P` only, under an auxiliary invariant `J` that such
steps keep. Then `Q` and `P` hold throughout a run exactly if all of its steps meet `C`. -/
theorem always_iff (det : ∀ ⦃s i o t o' t'⦄, step s i o t → step s i o' t' → o = o' ∧ t = t')
    {J Q : σ → Prop} {P : ω → Prop} {C : σ → ι → Prop} (hJ : J s) (hQ : Q s)
    (hiff : ∀ ⦃t i o u⦄, J t → Q t → step t i o u → ((Q u ∧ ∀ x ∈ o, P x) ↔ C t i))
    (hkeep : ∀ ⦃t i o u⦄, J t → Q t → step t i o u → C t i → J u) (h : Execution step s is os t) :
    (∀ ks js os t, is = ks ++ js → Execution step s ks os t → Q t ∧ ∀ x ∈ os, P x) ↔
      ∀ ks i js os t, is = ks ++ i :: js → Execution step s ks os t → C t i := by
  -- where every step meets `C`, the invariant and both properties hold
  have hgood : ∀ ks js os t, is = ks ++ js → Execution step s ks os t →
      (∀ ks' i js' os t, ks = ks' ++ i :: js' → Execution step s ks' os t → C t i) →
        J t ∧ Q t ∧ ∀ x ∈ os, P x := by
    intro ks
    induction ks using List.reverseRecOn with
    | nil =>
      rintro js os t - hrun -
      obtain ⟨rfl, rfl⟩ := hrun.eq_of_nil
      exact ⟨hJ, hQ, by simp⟩
    | append_singleton ks i ih =>
      intro js os t his hrun hcond
      obtain ⟨u, os₀, o, hrun₀, hstep, rfl⟩ := hrun.last
      obtain ⟨hJu, hQu, hPu⟩ := ih (i :: js) os₀ u (by simp [his]) hrun₀
        fun ks' j js' os t hks => hcond ks' j (js' ++ [i]) os t (by simp [hks])
      have hC := hcond ks i [] os₀ u (by simp) hrun₀
      obtain ⟨hQt, hPo⟩ := (hiff hJu hQu hstep).mpr hC
      refine ⟨hkeep hJu hQu hstep hC, hQt, fun x hx => ?_⟩
      exact (List.mem_append.mp hx).elim (hPu x) (hPo x)
  constructor
  · intro hall ks i js os t his hrun
    induction hn : ks.length using Nat.strongRecOn generalizing ks i js os t with
    | ind n ih =>
      obtain ⟨hJt, hQt, -⟩ := hgood ks (i :: js) os t his hrun fun ks' j js' os' t' hks hrun' =>
        ih ks'.length (by rw [← hn, hks, List.length_append, List.length_cons]; omega) ks' j
          (js' ++ i :: js) os' t' (by simp [his, hks]) hrun' rfl
      -- the run goes on from `t` with the input `i`
      have his' : is = (ks ++ [i]) ++ js := by simp [his]
      rw [his'] at h
      obtain ⟨u, os₁, os₂, hrun₁, -, -⟩ := h.split
      obtain ⟨t', os₀, o, hrun₀, hstep, rfl⟩ := hrun₁.last
      obtain ⟨rfl, rfl⟩ := hrun.unique det hrun₀
      obtain ⟨hQu, hPu⟩ := hall (ks ++ [i]) js _ u his' hrun₁
      exact (hiff hJt hQt hstep).mp ⟨hQu, fun x hx => hPu x (List.mem_append_right _ hx)⟩
  · intro hcond ks js os t his hrun
    exact (hgood ks js os t his hrun fun ks' i js' os' t' hks hrun' =>
      hcond ks' i (js' ++ js) os' t' (by simp [his, hks]) hrun').2

/-- Where all attempts of a run were good, or were as long as the invariant held, the invariant holds. -/
theorem of_attempts {I : List ω → σ → Prop} {G : List ω → σ → ι → Prop} (hI : I [] s)
    (hnext : ∀ ⦃os t i o u⦄, I os t → G os t i → step t i o u → I (os ++ o) u)
    (h : Execution step s is os t)
    (hgood : ∀ ks i js os t, is = ks ++ i :: js → Execution step s ks os t → I os t → G os t i) :
    I os t := by
  induction h with
  | start => exact hI
  | @snoc is os t u i o hrun hstep ih =>
    have ht := ih fun ks j js os t his => hgood ks j (js ++ [i]) os t (by simp [his])
    exact hnext ht (hgood is i [] os t rfl hrun ht) hstep

/-- **Condition rule for attempted steps.** Let `G` say of the history of a run and an input whether
the attempt to take it is good, whether or not there is such a step, and let good steps keep `I`. If
`C` is what makes an attempt good where `I` holds, all attempts of a run are good exactly if all meet
`C`. -/
theorem attempts_iff {I : List ω → σ → Prop} {G : List ω → σ → ι → Prop} {C : σ → ι → Prop}
    (hI : I [] s) (hiff : ∀ ⦃os t i⦄, I os t → (G os t i ↔ C t i))
    (hnext : ∀ ⦃os t i o u⦄, I os t → G os t i → step t i o u → I (os ++ o) u) :
    (∀ ks i js os t, is = ks ++ i :: js → Execution step s ks os t → G os t i) ↔
      ∀ ks i js os t, is = ks ++ i :: js → Execution step s ks os t → C t i := by
  constructor
  · intro hall ks i js os t his hrun
    refine (hiff (hrun.of_attempts hI hnext ?_)).mp (hall ks i js os t his hrun)
    intro ks' j js' os' t' hks hrun' _
    exact hall ks' j (js' ++ i :: js) os' t' (by simp [his, hks]) hrun'
  · intro hcond ks i js os t his hrun
    refine (hiff (hrun.of_attempts hI hnext ?_)).mpr (hcond ks i js os t his hrun)
    intro ks' j js' os' t' hks hrun' ht'
    exact (hiff ht').mpr (hcond ks' j (js' ++ i :: js) os' t' (by simp [his, hks]) hrun')

/-- The condition rule for a property of states. -/
theorem always_state_iff
    (det : ∀ ⦃s i o t o' t'⦄, step s i o t → step s i o' t' → o = o' ∧ t = t') {J Q : σ → Prop}
    {C : σ → ι → Prop} (hJ : J s) (hQ : Q s)
    (hiff : ∀ ⦃t i o u⦄, J t → Q t → step t i o u → (Q u ↔ C t i))
    (hkeep : ∀ ⦃t i o u⦄, J t → Q t → step t i o u → C t i → J u) (h : Execution step s is os t) :
    (∀ ks js os t, is = ks ++ js → Execution step s ks os t → Q t) ↔
      ∀ ks i js os t, is = ks ++ i :: js → Execution step s ks os t → C t i := by
  have hstep : ∀ ⦃t i o u⦄, J t → Q t → step t i o u → ((Q u ∧ ∀ x ∈ o, True) ↔ C t i) := by
    intro t i o u hJt hQt hstep
    rw [← hiff hJt hQt hstep]
    exact and_iff_left fun _ _ => trivial
  rw [← h.always_iff det hJ hQ hstep hkeep]
  constructor
  · exact fun hall ks js os t his hrun => ⟨hall ks js os t his hrun, fun _ _ => trivial⟩
  · exact fun hall ks js os t his hrun => (hall ks js os t his hrun).1

/-- The condition rule for a property of outputs, with an invariant that every step keeps. -/
theorem always_output_iff
    (det : ∀ ⦃s i o t o' t'⦄, step s i o t → step s i o' t' → o = o' ∧ t = t') {J : σ → Prop}
    {P : ω → Prop} {C : σ → ι → Prop} (hJ : J s)
    (hiff : ∀ ⦃t i o u⦄, J t → step t i o u → ((∀ x ∈ o, P x) ↔ C t i))
    (hkeep : ∀ ⦃t i o u⦄, J t → step t i o u → J u) (h : Execution step s is os t) :
    (∀ x ∈ os, P x) ↔ ∀ ks i js os t, is = ks ++ i :: js → Execution step s ks os t → C t i := by
  have hstep : ∀ ⦃t i o u⦄, J t → True → step t i o u → ((True ∧ ∀ x ∈ o, P x) ↔ C t i) := by
    intro t i o u hJt _ hstep
    rw [← hiff hJt hstep]
    exact and_iff_right trivial
  rw [← h.always_iff det (Q := fun _ => True) hJ trivial hstep fun _ _ _ _ hJt _ hnext _ =>
    hkeep hJt hnext]
  constructor
  · intro hall ks js os' t' his hrun
    refine ⟨trivial, fun x hx => hall x ?_⟩
    rw [his] at h
    obtain ⟨u, os₁, os₂, hrun₁, -, rfl⟩ := h.split
    obtain ⟨rfl, -⟩ := hrun.unique det hrun₁
    exact List.mem_append_left _ hx
  · exact fun hall => (hall is [] os t (List.append_nil is).symm h).2

end Execution
