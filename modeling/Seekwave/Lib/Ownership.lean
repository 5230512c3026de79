import Mathlib

/-!
# One owner for a buffer

What a caller does with a buffer of its own is a list of `BufUse`s; `owner` says who owns the buffer
afterwards. A buffer is `OwnedOnce` if the caller has handed it over or freed it, once, and has not
touched it since (`ownedOnce_iff`).
-/

/-- What is done with a buffer. -/
inductive BufUse
  | use
  /-- handed over to another owner -/
  | give
  | free
deriving DecidableEq, Repr

/-- Who owns a buffer; `misused` once somebody has touched it who did not. -/
inductive Owner
  | caller
  | given
  | freed
  | misused
deriving DecidableEq, Repr

namespace Owner

def step : Owner → BufUse → Owner
  | caller, .use => caller
  | caller, .give => given
  | caller, .free => freed
  | _, _ => misused

/-- The owner of a buffer that was the caller's at first. -/
def after (us : List BufUse) : Owner := us.foldl step caller

theorem after_append (us vs : List BufUse) : after (us ++ vs) = vs.foldl step (after us) :=
  List.foldl_append

/-- Using the buffer leaves it with the caller. -/
theorem after_of_use {us : List BufUse} (h : ∀ u ∈ us, u = .use) : after us = caller := by
  induction us using List.reverseRecOn with
  | nil => rfl
  | append_singleton us u ih =>
    obtain ⟨hus, hu⟩ := List.forall_mem_append.mp h
    rw [after_append, ih hus, hu u (List.mem_singleton_self u)]
    rfl

/-- Once the buffer is not the caller's any more, every further touch is a misuse. -/
theorem foldl_step_of_ne {o : Owner} (h : o ≠ caller) (u : BufUse) (us : List BufUse) :
    (u :: us).foldl step o = misused := by
  induction us generalizing o u with
  | nil => cases o <;> first | exact absurd rfl h | rfl
  | cons v us ih =>
    have hstep : step o u = misused := by cases o <;> first | exact absurd rfl h | rfl
    rw [List.foldl_cons, hstep]
    exact ih (o := misused) nofun v

end Owner

/-- The buffer has been handed over or freed once, and not been touched since. -/
def OwnedOnce (us : List BufUse) : Prop := Owner.after us = .given ∨ Owner.after us = .freed

instance (us : List BufUse) : Decidable (OwnedOnce us) := by unfold OwnedOnce; infer_instance

/-- Using the buffer first changes nothing about who owns it in the end. -/
theorem ownedOnce_append {us : List BufUse} (h : ∀ u ∈ us, u = .use) (vs : List BufUse) :
    OwnedOnce (us ++ vs) ↔ OwnedOnce vs := by
  rw [OwnedOnce, OwnedOnce, Owner.after_append, Owner.after_of_use h, Owner.after]

/-- A buffer handed over or freed is not to be touched again. -/
theorem not_ownedOnce {u : BufUse} (hu : u ≠ .use) (v : BufUse) (us : List BufUse) :
    ¬ OwnedOnce (u :: v :: us) := by
  have hstep : Owner.step .caller u ≠ .caller := by
    cases u <;> first | exact absurd rfl hu | nofun
  have hmisused : Owner.after (u :: v :: us) = .misused := Owner.foldl_step_of_ne hstep v us
  rw [OwnedOnce, hmisused]
  decide

/-- **A buffer has one owner** if it is used, then handed over or freed, and nothing else. -/
theorem ownedOnce_iff (us : List BufUse) :
    OwnedOnce us ↔ ∃ ws u, us = ws ++ [u] ∧ (∀ w ∈ ws, w = .use) ∧ u ≠ .use := by
  constructor
  · intro h
    induction us with
    | nil => exact absurd h (by decide)
    | cons u us ih =>
      by_cases hu : u = .use
      · subst hu
        obtain ⟨ws, v, rfl, hws, hv⟩ := ih ((@ownedOnce_append [.use] (by simp) us).mp h)
        exact ⟨.use :: ws, v, rfl, List.forall_mem_cons.mpr ⟨rfl, hws⟩, hv⟩
      · cases us with
        | nil => exact ⟨[], u, rfl, nofun, hu⟩
        | cons v us => exact absurd h (not_ownedOnce hu v us)
  · rintro ⟨ws, u, rfl, hws, hu⟩
    rw [ownedOnce_append hws]
    cases u with
    | use => exact absurd rfl hu
    | give => exact .inl rfl
    | free => exact .inr rfl
