import Mathlib

/-!
# Reading in stages

A reader takes pieces of a stream until it has as many items as the stage needs, and goes on with the
next stage. `Completes need cs`: the pieces `cs` are those of one stage. `NoOverRead need cs`: no
piece taken in the stage goes beyond what is missing. Without an over-read, a stage ends exactly
where it should (`Completes.length_eq_iff`).
-/

variable {α : Type*} {need : ℕ} {cs hs qs : List (List α)}

/-- The pieces of one stage: only the last one reaches `need` items. -/
def Completes (need : ℕ) (cs : List (List α)) : Prop :=
  cs.dropLast.flatten.length < need ∧ need ≤ cs.flatten.length

/-- A piece taken where items are missing is no longer than they are. -/
def NoOverRead (need : ℕ) (cs : List (List α)) : Prop :=
  ∀ hs c, hs ++ [c] <+: cs → hs.flatten.length < need → (hs ++ [c]).flatten.length ≤ need

/-- No stage is read over, the pieces of a stage being those behind the ones that make up the stage
before it. -/
def NoOverReads : List ℕ → List (List α) → Prop
  | [], _ => True
  | need :: needs, cs => NoOverRead need cs ∧
      ∀ hs qs, cs = hs ++ qs → hs.flatten.length = need → NoOverReads needs qs

theorem NoOverRead.of_append (h : NoOverRead need (hs ++ qs)) : NoOverRead need hs :=
  fun is c hpre => h is c (hpre.trans (List.prefix_append _ _))

/-- Empty pieces read over nothing. -/
theorem NoOverRead.append_nils (h : NoOverRead need hs) (n : ℕ) :
    NoOverRead need (hs ++ List.replicate n []) := by
  rintro is c ⟨ks, hks⟩ hlt
  rcases List.append_eq_append_iff.mp hks with ⟨as, rfl, -⟩ | ⟨bs, hbs, htail⟩
  · exact h is c (List.prefix_append _ _) hlt
  · rcases List.eq_nil_or_concat bs with rfl | ⟨bs, b, rfl⟩
    · rw [List.append_nil] at hbs
      exact h is c (hbs ▸ List.prefix_refl _) hlt
    · rw [List.concat_eq_append] at hbs htail
      rw [← List.append_assoc] at hbs
      obtain ⟨-, hcb⟩ := List.append_inj' hbs rfl
      obtain rfl : c = b := by simpa using hcb
      have hmem : c ∈ List.replicate n [] := htail ▸ by simp
      rw [(List.mem_replicate.mp hmem).2, List.flatten_append, List.length_append]
      exact Nat.le_of_lt hlt

/-- A stage needs exactly its items if and only if it is not read over. -/
theorem Completes.length_eq_iff (h : Completes need hs) :
    hs.flatten.length = need ↔ NoOverRead need (hs ++ qs) := by
  constructor
  · intro hlen is c hpre hlt
    obtain ⟨ks, hks⟩ := hpre
    rcases List.append_eq_append_iff.mp hks with ⟨as, rfl, -⟩ | ⟨bs, hbs, -⟩
    · rw [List.flatten_append, List.length_append] at hlen
      omega
    · -- the pieces of the stage are among those before `c`
      rcases List.eq_nil_or_concat bs with rfl | ⟨bs, b, rfl⟩
      · rw [List.append_nil] at hbs
        exact Nat.le_of_eq (hbs ▸ hlen)
      · rw [List.concat_eq_append, ← List.append_assoc] at hbs
        obtain ⟨rfl, -⟩ := List.append_inj' hbs rfl
        rw [List.flatten_append, List.length_append] at hlt
        omega
  · intro hover
    rcases List.eq_nil_or_concat hs with rfl | ⟨is, c, rfl⟩
    · have := h.1
      have := h.2
      simp at *
      omega
    · rw [List.concat_eq_append] at h hover ⊢
      have hlt := h.1
      rw [List.dropLast_concat] at hlt
      exact Nat.le_antisymm (hover.of_append is c (List.prefix_refl _) hlt) h.2

/-- Where enough items are read without an over-read, some pieces make up the stage. -/
theorem NoOverRead.exists_split (h : NoOverRead need cs) (hle : need ≤ cs.flatten.length) :
    ∃ hs qs, cs = hs ++ qs ∧ hs.flatten.length = need := by
  induction cs using List.reverseRecOn with
  | nil => exact ⟨[], [], rfl, Nat.le_antisymm (Nat.zero_le _) hle⟩
  | append_singleton is c ih =>
    by_cases hlt : is.flatten.length < need
    · exact ⟨is ++ [c], [], (List.append_nil _).symm,
        Nat.le_antisymm (h is c (List.prefix_refl _) hlt) hle⟩
    · obtain ⟨hs, qs, rfl, hlen⟩ := ih h.of_append (by omega)
      exact ⟨hs, qs ++ [c], by rw [List.append_assoc], hlen⟩

/-- With no empty piece there is one way only to divide the pieces at a given item. -/
theorem append_inj_of_flatten_length {hs' qs' : List (List α)} (hne : ∀ c ∈ hs ++ qs, c ≠ [])
    (h : hs ++ qs = hs' ++ qs') (hlen : hs.flatten.length = hs'.flatten.length) :
    hs = hs' ∧ qs = qs' := by
  rcases List.append_eq_append_iff.mp h with ⟨as, rfl, rfl⟩ | ⟨bs, rfl, rfl⟩
  · have has : as.flatten = [] := by
      rw [List.flatten_append, List.length_append] at hlen
      exact List.eq_nil_of_length_eq_zero (by omega)
    rcases as with - | ⟨a, as⟩
    · simp
    · exact absurd (List.append_eq_nil_iff.mp has).1 (hne a (by simp))
  · have hbs : bs.flatten = [] := by
      rw [List.flatten_append, List.length_append] at hlen
      exact List.eq_nil_of_length_eq_zero (by omega)
    rcases bs with - | ⟨b, bs⟩
    · simp
    · exact absurd (List.append_eq_nil_iff.mp hbs).1 (hne b (by simp))

/-- **The first stage of several.** Nothing is read over if and only if the first stage needs exactly
its items and none of the later ones is read over. -/
theorem noOverReads_cons_iff {needs : List ℕ} (h : Completes need hs)
    (hne : ∀ c ∈ hs ++ qs, c ≠ []) :
    NoOverReads (need :: needs) (hs ++ qs) ↔ hs.flatten.length = need ∧ NoOverReads needs qs := by
  constructor
  · rintro ⟨hover, hlater⟩
    have hlen := h.length_eq_iff.mpr hover
    exact ⟨hlen, hlater hs qs rfl hlen⟩
  · rintro ⟨hlen, hlater⟩
    refine ⟨h.length_eq_iff.mp hlen, fun hs' qs' heq hlen' => ?_⟩
    obtain ⟨-, rfl⟩ := append_inj_of_flatten_length hne heq (hlen.trans hlen'.symm)
    exact hlater

/-- The last stage. -/
theorem noOverReads_singleton_iff (h : Completes need hs) (hne : ∀ c ∈ hs, c ≠ []) :
    NoOverReads [need] hs ↔ hs.flatten.length = need := by
  have hiff := @noOverReads_cons_iff _ _ hs [] [] h (by simpa using hne)
  rw [List.append_nil] at hiff
  exact hiff.trans (and_iff_left trivial)

/-- A stage that needs nothing is not read over. -/
theorem noOverReads_zero (cs : List (List α)) : NoOverReads [0] cs :=
  ⟨fun _ _ _ h => absurd h (Nat.not_lt_zero _), fun _ _ _ _ => trivial⟩
