import Mathlib

/-!
# Slots that hold one resource at a time

A program keeps the resources it has acquired in named slots. From the trace of what it acquires and
releases, `heldAfter` works out what a slot holds, and fails where the slot is misused: a resource is put
over another, or one is released that the slot does not hold. What a trace without misuse guarantees is
`acquired_between` and `released_of_heldAfter`.
-/

/-- What is done with the resource of a slot. -/
inductive SlotEvent (κ δ : Type*)
  | acquired (k : κ) (d : δ)
  | released (k : κ) (d : δ)
deriving DecidableEq, Repr

namespace SlotEvent

variable {κ ι δ : Type*}

def slot : SlotEvent κ δ → κ
  | acquired k _ => k
  | released k _ => k

/-- The same event on a slot of a larger program. -/
def map (f : ι → κ) : SlotEvent ι δ → SlotEvent κ δ
  | acquired k d => acquired (f k) d
  | released k d => released (f k) d

@[simp] theorem map_acquired (f : ι → κ) (k : ι) (d : δ) :
    (acquired k d).map f = acquired (f k) d := rfl

@[simp] theorem map_released (f : ι → κ) (k : ι) (d : δ) :
    (released k d).map f = released (f k) d := rfl

@[simp] theorem slot_map (f : ι → κ) (e : SlotEvent ι δ) : (e.map f).slot = f e.slot := by
  cases e <;> rfl

variable [DecidableEq κ] [DecidableEq ι] [DecidableEq δ]

/-- What slot `k` holds after an event, if it is not misused. -/
def use (k : κ) (held : Option δ) : SlotEvent κ δ → Option (Option δ)
  | acquired k' d => if k' = k then (if held = none then some (some d) else none) else some held
  | released k' d => if k' = k then (if held = some d then some none else none) else some held

end SlotEvent

open SlotEvent

variable {κ ι δ : Type*} [DecidableEq κ] [DecidableEq ι] [DecidableEq δ]

/-- What slot `k`, which held `held`, holds after the events, if it is not misused. -/
def heldAfter (k : κ) (held : Option δ) (es : List (SlotEvent κ δ)) : Option (Option δ) :=
  es.foldlM (use k) held

@[simp] theorem heldAfter_nil (k : κ) (held : Option δ) : heldAfter k held [] = some held := rfl

theorem heldAfter_cons (k : κ) (held : Option δ) (e : SlotEvent κ δ) (es : List (SlotEvent κ δ)) :
    heldAfter k held (e :: es) = (use k held e).bind fun held' => heldAfter k held' es := rfl

theorem heldAfter_append (k : κ) (held : Option δ) (es fs : List (SlotEvent κ δ)) :
    heldAfter k held (es ++ fs) = (heldAfter k held es).bind fun held' => heldAfter k held' fs := by
  rw [heldAfter, List.foldlM_append]
  rfl

/-- Two traces, one behind the other. -/
theorem heldAfter_trans {k : κ} {h₀ h₁ h₂ : Option δ} {es fs : List (SlotEvent κ δ)}
    (hes : heldAfter k h₀ es = some h₁) (hfs : heldAfter k h₁ fs = some h₂) :
    heldAfter k h₀ (es ++ fs) = some h₂ := by
  rw [heldAfter_append, hes]
  exact hfs

/-- Events on other slots do not matter. -/
theorem heldAfter_of_ne {k : κ} (held : Option δ) {es : List (SlotEvent κ δ)}
    (h : ∀ e ∈ es, e.slot ≠ k) : heldAfter k held es = some held := by
  induction es with
  | nil => rfl
  | cons e es ih =>
    obtain ⟨he, hes⟩ := List.forall_mem_cons.mp h
    have huse : use k held e = some held := by
      cases e <;> exact if_neg he
    rw [heldAfter_cons, huse]
    exact ih hes

/-- A slot of a part of the program goes through the events of that part. -/
theorem heldAfter_map {f : ι → κ} (hf : Function.Injective f) (k : ι) (held : Option δ)
    (es : List (SlotEvent ι δ)) : heldAfter (f k) held (es.map (.map f)) = heldAfter k held es := by
  induction es generalizing held with
  | nil => rfl
  | cons e es ih =>
    have huse : use (f k) held (e.map f) = use k held e := by
      cases e <;> simp only [SlotEvent.map, use, hf.eq_iff]
    rw [List.map_cons, heldAfter_cons, heldAfter_cons, huse]
    simp only [ih]

/-- The traces of several parts, one behind the other, each with slots of its own. -/
def indexed : ℕ → List (List (SlotEvent κ δ)) → List (SlotEvent (ℕ × κ) δ)
  | _, [] => []
  | n, es :: ess => es.map (.map (Prod.mk n)) ++ indexed (n + 1) ess

omit [DecidableEq κ] [DecidableEq δ] in
theorem le_of_mem_indexed {n : ℕ} {ess : List (List (SlotEvent κ δ))} {e : SlotEvent (ℕ × κ) δ}
    (he : e ∈ indexed n ess) : n ≤ e.slot.1 := by
  induction ess generalizing n with
  | nil => exact absurd he List.not_mem_nil
  | cons es ess ih =>
    rcases List.mem_append.mp he with he | he
    · obtain ⟨e', -, rfl⟩ := List.mem_map.mp he
      rw [slot_map]
    · exact Nat.le_of_succ_le (ih he)

/-- Each part finds its slots empty, and nobody else touches them. -/
theorem heldAfter_indexed (n i : ℕ) (k : κ) (ess : List (List (SlotEvent κ δ))) :
    heldAfter (n + i, k) none (indexed n ess) = ess[i]?.elim (some none) (heldAfter k none) := by
  induction ess generalizing n i with
  | nil => rfl
  | cons es ess ih =>
    rw [indexed, heldAfter_append]
    rcases i with - | i
    · have hrest : ∀ held, heldAfter (n, k) held (indexed (n + 1) ess) = some held := fun held =>
        heldAfter_of_ne held fun e he heq => by
          have hle := le_of_mem_indexed he
          rw [heq] at hle
          omega
      rw [Nat.add_zero, heldAfter_map (Prod.mk_right_injective n)]
      simp [hrest]
    · have hfirst : heldAfter (n + (i + 1), k) none (es.map (.map (Prod.mk n))) = some (none : Option δ) := by
        refine heldAfter_of_ne _ fun e he heq => ?_
        obtain ⟨e', -, rfl⟩ := List.mem_map.mp he
        rw [slot_map] at heq
        have hfst := congrArg Prod.fst heq
        dsimp only at hfst
        omega
      rw [hfirst, Option.bind_some, show n + (i + 1) = n + 1 + i by omega, ih]
      rfl

/-! ## What a trace without misuse guarantees -/

/-- A slot that holds nothing is acquired before it is released. -/
theorem acquired_of_released {k : κ} {d : δ} {held : Option δ} {es fs : List (SlotEvent κ δ)}
    (h : heldAfter k none (es ++ released k d :: fs) = some held) :
    ∃ d', acquired k d' ∈ es := by
  induction es with
  | nil =>
    rw [List.nil_append, heldAfter_cons] at h
    simp [use] at h
  | cons e es ih =>
    by_cases he : e.slot = k
    · cases e with
      | acquired k' d' =>
        obtain rfl : k' = k := he
        exact ⟨d', List.mem_cons_self⟩
      | released k' d' =>
        obtain rfl : k' = k := he
        rw [List.cons_append, heldAfter_cons] at h
        simp [use] at h
    · have huse : use k none e = some (none : Option δ) := by cases e <;> exact if_neg he
      rw [List.cons_append, heldAfter_cons, huse] at h
      obtain ⟨d', hmem⟩ := ih h
      exact ⟨d', List.mem_cons_of_mem _ hmem⟩

/-- After a release without misuse the slot holds nothing. -/
theorem heldAfter_released {k : κ} {d : δ} {held held' : Option δ} {es : List (SlotEvent κ δ)}
    (h : heldAfter k held (released k d :: es) = some held') :
    heldAfter k none es = some held' := by
  rw [heldAfter_cons] at h
  by_cases hd : held = some d
  · rwa [show use k held (released k d) = some none by simp [use, hd]] at h
  · rw [show use k held (released k d) = none by simp [use, hd]] at h
    exact absurd h nofun

/-- **No double release.** Between two releases of a slot it is acquired. -/
theorem acquired_between {k : κ} {d d' : δ} {held held' : Option δ}
    {es₁ es₂ es₃ : List (SlotEvent κ δ)}
    (h : heldAfter k held (es₁ ++ released k d :: es₂ ++ released k d' :: es₃) = some held') :
    ∃ d'', acquired k d'' ∈ es₂ := by
  rw [List.append_assoc, heldAfter_append, List.cons_append] at h
  obtain ⟨held₁, -, h⟩ := Option.bind_eq_some_iff.mp h
  exact acquired_of_released (heldAfter_released h)

/-- What a slot holds is released before it holds nothing. -/
theorem mem_of_heldAfter {k : κ} {d : δ} {es : List (SlotEvent κ δ)}
    (h : heldAfter k (some d) es = some none) : released k d ∈ es := by
  induction es with
  | nil => exact absurd h nofun
  | cons e es ih =>
    by_cases he : e.slot = k
    · cases e with
      | acquired k' d' =>
        obtain rfl : k' = k := he
        rw [heldAfter_cons] at h
        simp [use] at h
      | released k' d' =>
        obtain rfl : k' = k := he
        rw [heldAfter_cons] at h
        by_cases hd : d = d'
        · exact hd ▸ List.mem_cons_self
        · simp [use, hd] at h
    · have huse : use k (some d) e = some (some d) := by cases e <;> exact if_neg he
      rw [heldAfter_cons, huse] at h
      exact List.mem_cons_of_mem _ (ih h)

/-- **No leak.** Where a slot holds nothing in the end, whatever it has acquired is released. -/
theorem released_of_heldAfter {k : κ} {d : δ} {held : Option δ} {es₁ es₂ : List (SlotEvent κ δ)}
    (h : heldAfter k held (es₁ ++ acquired k d :: es₂) = some none) : released k d ∈ es₂ := by
  rw [heldAfter_append] at h
  obtain ⟨held₁, -, h⟩ := Option.bind_eq_some_iff.mp h
  rw [heldAfter_cons] at h
  obtain ⟨held₂, huse, h⟩ := Option.bind_eq_some_iff.mp h
  by_cases hheld : held₁ = none
  · rw [show use k held₁ (acquired k d) = some (some d) by simp [use, hheld]] at huse
    obtain rfl := Option.some.inj huse
    exact mem_of_heldAfter h
  · rw [show use k held₁ (acquired k d) = none by simp [use, hheld]] at huse
    exact absurd huse nofun

/-! ## Traces -/

/-- No resource is released again unless its slot has acquired one since. -/
def ReleasedOnce {κ δ : Type*} (es : List (SlotEvent κ δ)) : Prop :=
  ∀ k d d' es₁ es₂ es₃, es = es₁ ++ released k d :: es₂ ++ released k d' :: es₃ →
    ∃ d'', acquired k d'' ∈ es₂

/-- Every resource acquired is released after. -/
def AllReleased {κ δ : Type*} (es : List (SlotEvent κ δ)) : Prop :=
  ∀ k d es₁ es₂, es = es₁ ++ acquired k d :: es₂ → released k d ∈ es₂

/-- A trace that misuses no slot releases nothing twice. -/
theorem releasedOnce_of_heldAfter {es : List (SlotEvent κ δ)}
    (h : ∀ k, ∃ held, heldAfter k none es = some held) : ReleasedOnce es := by
  rintro k d d' es₁ es₂ es₃ rfl
  obtain ⟨held, hheld⟩ := h k
  exact acquired_between hheld

/-- If all slots are empty in the end, nothing is left over. -/
theorem allReleased_of_heldAfter {es : List (SlotEvent κ δ)}
    (h : ∀ k, heldAfter k none es = some none) : AllReleased es := by
  rintro k d es₁ es₂ rfl
  exact released_of_heldAfter (h k)
