import Seekwave.Lib.Loop

/-!
# Walking the set bits of a word

A loop that goes through a mask bit by bit isolates the lowest set bit by `((x - 1) ^^^ x) + 1 >>> 1`,
does something with it, and clears it by `x &&& (x - 1)`, all of it in the wrapping arithmetic of a word
of `w` bits. This module has the loop for a translation of single bits whose results are OR-ed together,
and its meaning: as many passes as the mask has set bits, and the OR of the translations of these bits.

The sequence that isolates the lowest bit wraps at the highest one: `((x - 1) ^^^ x) + 1` is `0` when
that bit is the only one that is set. The walk is then the OR over the bits only for a translation that
does not tell `0` from the highest bit.
-/

namespace BitWalk

variable {w v : ℕ}

/-- The positions of the set bits of a word. -/
def bits (x : BitVec w) : Finset ℕ :=
  (Finset.range w).filter fun i => x.getLsbD i

/-- The OR of the words that `g` gives for the positions in `s`. -/
def orOver (s : Finset ℕ) (g : ℕ → BitVec v) : BitVec v :=
  s.fold (· ||| ·) 0#v g

@[simp] theorem mem_bits {x : BitVec w} {i : ℕ} : i ∈ bits x ↔ x.getLsbD i = true := by
  rw [bits, Finset.mem_filter, Finset.mem_range, and_iff_right_iff_imp]
  exact BitVec.lt_of_getLsbD

/-- A word is the set of its bits. -/
theorem eq_of_bits_eq {x y : BitVec w} (h : bits x = bits y) : x = y := by
  refine BitVec.eq_of_getLsbD_eq fun i _ => ?_
  have hi : i ∈ bits x ↔ i ∈ bits y := by rw [h]
  rw [mem_bits, mem_bits] at hi
  exact Bool.eq_iff_iff.mpr hi

@[simp] theorem bits_zero : bits 0#w = ∅ := by
  ext i
  simp

@[simp] theorem bits_or (x y : BitVec w) : bits (x ||| y) = bits x ∪ bits y := by
  ext i
  simp

@[simp] theorem bits_and (x y : BitVec w) : bits (x &&& y) = bits x ∩ bits y := by
  ext i
  simp

theorem bits_twoPow {b : ℕ} (hb : b < w) : bits (BitVec.twoPow w b) = {b} := by
  ext i
  simp [BitVec.getLsbD_twoPow, hb, eq_comm]

/-! ## The OR of a family -/

@[simp] theorem orOver_empty (g : ℕ → BitVec v) : orOver ∅ g = 0#v := rfl

@[simp] theorem orOver_singleton (b : ℕ) (g : ℕ → BitVec v) : orOver {b} g = g b := by
  rw [orOver, Finset.fold_singleton]
  simp

theorem orOver_insert (b : ℕ) (s : Finset ℕ) (g : ℕ → BitVec v) :
    orOver (insert b s) g = g b ||| orOver s g :=
  Finset.fold_insert_idem

theorem orOver_congr {s : Finset ℕ} {g g' : ℕ → BitVec v} (h : ∀ b ∈ s, g b = g' b) :
    orOver s g = orOver s g' :=
  Finset.fold_congr h

/-- The bits of the OR are the bits of the members. -/
theorem mem_bits_orOver {s : Finset ℕ} {g : ℕ → BitVec v} {i : ℕ} :
    i ∈ bits (orOver s g) ↔ ∃ b ∈ s, i ∈ bits (g b) := by
  induction s using Finset.induction_on with
  | empty => simp
  | insert a s _ ih =>
    rw [orOver_insert, bits_or, Finset.mem_union, ih]
    simp [or_and_right, exists_or]

theorem orOver_union (s s' : Finset ℕ) (g : ℕ → BitVec v) :
    orOver (s ∪ s') g = orOver s g ||| orOver s' g := by
  refine eq_of_bits_eq (Finset.ext fun i => ?_)
  rw [bits_or, Finset.mem_union, mem_bits_orOver, mem_bits_orOver, mem_bits_orOver]
  simp [or_and_right, exists_or]

/-- Members that are `0` may be left out. -/
theorem orOver_filter (s : Finset ℕ) (p : ℕ → Prop) [DecidablePred p] {g : ℕ → BitVec v}
    (h : ∀ b ∈ s, ¬ p b → g b = 0#v) : orOver (s.filter p) g = orOver s g := by
  refine eq_of_bits_eq (Finset.ext fun i => ?_)
  rw [mem_bits_orOver, mem_bits_orOver]
  constructor
  · rintro ⟨b, hb, hi⟩
    exact ⟨b, (Finset.mem_filter.mp hb).1, hi⟩
  · rintro ⟨b, hb, hi⟩
    by_cases hp : p b
    · exact ⟨b, Finset.mem_filter.mpr ⟨hb, hp⟩, hi⟩
    · rw [h b hb hp, bits_zero] at hi
      exact absurd hi (Finset.notMem_empty i)

/-- A function that takes ORs to ORs can be taken into the family. -/
theorem map_orOver {f : BitVec w → BitVec v} (h0 : f 0#w = 0#v) (hor : ∀ x y, f (x ||| y) = f x ||| f y)
    (s : Finset ℕ) (g : ℕ → BitVec w) : f (orOver s g) = orOver s fun b => f (g b) := by
  induction s using Finset.induction_on with
  | empty => exact h0
  | insert a s _ ih => rw [orOver_insert, hor, ih, orOver_insert]

/-! ## The lowest set bit -/

/-- Every positive number is an odd multiple of a power of two. -/
theorem exists_lowest_bit {n : ℕ} (hn : n ≠ 0) : ∃ b q, n = 2 ^ (b + 1) * q + 2 ^ b := by
  induction n using Nat.strongRecOn with
  | ind n ih =>
    have hdiv := Nat.div_add_mod n 2
    rcases Nat.mod_two_eq_zero_or_one n with hmod | hmod
    · obtain ⟨b, q, hbq⟩ := ih (n / 2) (by omega) (by omega)
      refine ⟨b + 1, q, ?_⟩
      have htwice : n = n / 2 * 2 := by omega
      rw [htwice, hbq, Nat.add_mul, Nat.mul_right_comm, ← Nat.pow_succ, ← Nat.pow_succ]
    · exact ⟨0, n / 2, by rw [Nat.zero_add, Nat.pow_one, Nat.pow_zero]; omega⟩

section Lowest

variable {x : BitVec w} {b q : ℕ} (hx : x.toNat = 2 ^ (b + 1) * q + 2 ^ b)
include hx

theorem lowest_lt : b < w := by
  have hlt : 2 ^ b < 2 ^ w := lt_of_le_of_lt (Nat.le_add_left _ _) (hx ▸ x.isLt)
  exact (Nat.pow_lt_pow_iff_right (by omega)).mp hlt

/-- One less clears the lowest bit and sets the bits under it. -/
theorem toNat_sub_one : (x - 1#w).toNat = 2 ^ (b + 1) * q + (2 ^ b - 1) := by
  have hw : 0 < w := by have := lowest_lt hx; omega
  have hpos := Nat.one_le_two_pow (n := b)
  have hone : 1#w ≤ x := by
    rw [BitVec.le_def, hx, BitVec.toNat_one hw]
    omega
  rw [BitVec.toNat_sub_of_le hone, hx, BitVec.toNat_one hw]
  omega

theorem getLsbD_lowest (i : ℕ) :
    x.getLsbD i = if i < b + 1 then decide (i = b) else q.testBit (i - (b + 1)) := by
  have hlt : 2 ^ b < 2 ^ (b + 1) := Nat.pow_lt_pow_right (by omega) (by omega)
  rw [BitVec.getLsbD, hx, Nat.testBit_two_pow_mul_add _ hlt, Nat.testBit_two_pow]
  simp only [eq_comm]

theorem getLsbD_sub_one (i : ℕ) :
    (x - 1#w).getLsbD i = if i < b + 1 then decide (i < b) else q.testBit (i - (b + 1)) := by
  have hlt : 2 ^ b < 2 ^ (b + 1) := Nat.pow_lt_pow_right (by omega) (by omega)
  rw [BitVec.getLsbD, toNat_sub_one hx, Nat.testBit_two_pow_mul_add _ (by omega),
    Nat.testBit_two_pow_sub_one]

/-- `x &&& (x - 1)` clears the lowest bit. -/
theorem bits_and_sub_one : bits (x &&& (x - 1#w)) = (bits x).erase b := by
  ext i
  rw [mem_bits, Finset.mem_erase, mem_bits, BitVec.getLsbD_and, getLsbD_lowest hx, getLsbD_sub_one hx]
  split
  · simp
    omega
  · simp
    omega

theorem lowest_mem_bits : b ∈ bits x := by
  rw [mem_bits, getLsbD_lowest hx]
  simp

/-- `(x - 1) ^^^ x` is the lowest bit and all under it. -/
theorem toNat_sub_one_xor : ((x - 1#w) ^^^ x).toNat = 2 ^ (b + 1) - 1 := by
  refine Nat.eq_of_testBit_eq fun i => ?_
  rw [BitVec.testBit_toNat, BitVec.getLsbD_xor, getLsbD_lowest hx, getLsbD_sub_one hx,
    Nat.testBit_two_pow_sub_one]
  split
  · grind
  · simp [*]

/-- What the walk takes for the lowest bit: that bit, except that the highest one has wrapped to `0`. -/
theorem isolate_eq :
    (((x - 1#w) ^^^ x) + 1#w) >>> 1 = if b + 1 < w then BitVec.twoPow w b else 0#w := by
  have hb := lowest_lt hx
  have hone := Nat.one_le_two_pow (n := b + 1)
  refine BitVec.eq_of_toNat_eq ?_
  rw [BitVec.toNat_ushiftRight, BitVec.toNat_add, toNat_sub_one_xor hx,
    BitVec.toNat_one (by omega), Nat.sub_add_cancel hone, Nat.shiftRight_eq_div_pow, Nat.pow_one]
  split
  · next h =>
    rw [Nat.mod_eq_of_lt (Nat.pow_lt_pow_right (by omega) h), BitVec.toNat_twoPow_of_lt hb, Nat.pow_succ]
    omega
  · next h =>
    obtain rfl : b + 1 = w := by omega
    rw [Nat.mod_self]
    rfl

end Lowest

/-- **The lowest bit.** A nonzero word has one, `x &&& (x - 1)` clears it, and the walk isolates it or,
when it is the highest bit of all, has wrapped to `0`. -/
theorem exists_lowest {x : BitVec w} (hx : x ≠ 0#w) :
    ∃ b ∈ bits x, bits (x &&& (x - 1#w)) = (bits x).erase b ∧
      (((x - 1#w) ^^^ x) + 1#w) >>> 1 = if b + 1 < w then BitVec.twoPow w b else 0#w := by
  obtain ⟨b, q, hbq⟩ := exists_lowest_bit (n := x.toNat) fun h => hx (BitVec.eq_of_toNat_eq h)
  exact ⟨b, lowest_mem_bits hbq, bits_and_sub_one hbq, isolate_eq hbq⟩

theorem and_sub_one_lt {x : BitVec w} (hx : x ≠ 0#w) : (x &&& (x - 1#w)).toNat < x.toNat := by
  obtain ⟨b, q, hbq⟩ := exists_lowest_bit (n := x.toNat) fun h => hx (BitVec.eq_of_toNat_eq h)
  have hle : (x &&& (x - 1#w)).toNat ≤ (x - 1#w).toNat := Nat.and_le_right
  have hpos := Nat.one_le_two_pow (n := b)
  rw [toNat_sub_one hbq] at hle
  omega

/-! ## The walk -/

section Walk

variable (t : BitVec w → Option (BitVec v))

/-- One pass: the lowest bit is isolated and translated, a valid translation is OR-ed to the result, and
the bit is cleared. -/
def pass : BitVec w × BitVec v → (BitVec w × BitVec v) ⊕ BitVec v
  | (x, acc) =>
    if x = 0#w then .inr acc
    else
      let tmp := x - 1#w
      let acc' :=
        match t (((tmp ^^^ x) + 1#w) >>> 1) with
        | some y => acc ||| y
        | none => acc
      .inl (x &&& tmp, acc')

theorem pass_dec (s s' : BitVec w × BitVec v) (h : pass t s = .inl s') : s'.1.toNat < s.1.toNat := by
  obtain ⟨x, acc⟩ := s
  rw [pass] at h
  split at h
  · exact absurd h (by simp)
  · next hx =>
    obtain rfl := Sum.inl.inj h
    exact and_sub_one_lt hx

/-- The walk: the loop entered at the mask, with nothing in the result. -/
def walk (x : BitVec w) : BitVec v :=
  Loop.run (pass t) (fun s => s.1.toNat) (pass_dec t) (x, 0#v)

/-- What a bit contributes to the result: its translation, nothing when that is not valid. -/
def contribution (b : ℕ) : BitVec v :=
  (t (BitVec.twoPow w b)).getD 0#v

variable {t}

theorem pass_zero (acc : BitVec v) : pass t (0#w, acc) = .inr acc := by
  rw [pass, if_pos rfl]

theorem pass_of_ne_zero (htop : t 0#w = t (BitVec.twoPow w (w - 1))) {x : BitVec w} (hx : x ≠ 0#w)
    (acc : BitVec v) :
    ∃ b ∈ bits x, ∃ x', bits x' = (bits x).erase b ∧
      pass t (x, acc) = .inl (x', acc ||| contribution t b) := by
  obtain ⟨b, hb, hclear, hiso⟩ := exists_lowest hx
  have hbw : b < w := BitVec.lt_of_getLsbD (mem_bits.mp hb)
  have ht : t ((((x - 1#w) ^^^ x) + 1#w) >>> 1) = t (BitVec.twoPow w b) := by
    rw [hiso]
    split
    · rfl
    · next h =>
      obtain rfl : b = w - 1 := by omega
      exact htop
  refine ⟨b, hb, _, hclear, ?_⟩
  rw [pass, if_neg hx]
  dsimp only
  rw [ht, contribution]
  cases t (BitVec.twoPow w b) <;> simp

/-- **Passes of the walk.** From any mask the loop is left after one pass for each set bit, with the OR
of what these bits contribute. -/
theorem iterate_pass (htop : t 0#w = t (BitVec.twoPow w (w - 1))) (n : ℕ) (x : BitVec w)
    (acc : BitVec v) :
    Loop.iterate (pass t) n (x, acc) =
      if (bits x).card < n then some (acc ||| orOver (bits x) (contribution t)) else none := by
  induction n generalizing x acc with
  | zero => rfl
  | succ n ih =>
    rw [Loop.iterate]
    by_cases hx : x = 0#w
    · subst hx
      rw [pass_zero]
      simp
    · obtain ⟨b, hb, x', hx', hpass⟩ := pass_of_ne_zero htop hx acc
      have hcard : (bits x).card = (bits x').card + 1 := by
        rw [hx', Finset.card_erase_add_one hb]
      have hor : orOver (bits x) (contribution t) =
          contribution t b ||| orOver (bits x') (contribution t) := by
        rw [← orOver_insert, hx', Finset.insert_erase hb]
      rw [hpass]
      dsimp only
      rw [ih, hcard, hor, BitVec.or_assoc]
      simp

/-- **Value of the walk.** The OR, over the set bits, of what they contribute. -/
theorem walk_eq (htop : t 0#w = t (BitVec.twoPow w (w - 1))) (x : BitVec w) :
    walk t x = orOver (bits x) (contribution t) := by
  have h := iterate_pass htop ((bits x).card + 1) x 0#v
  rw [if_pos (Nat.lt_succ_self _), BitVec.zero_or] at h
  exact Loop.run_eq_of_returns _ _ _ (Loop.returns_of_iterate h)

theorem walk_zero (htop : t 0#w = t (BitVec.twoPow w (w - 1))) : walk t 0#w = 0#v := by
  rw [walk_eq htop, bits_zero, orOver_empty]

/-- **The walk is additive.** The OR of two masks goes to the OR of the results. -/
theorem walk_or (htop : t 0#w = t (BitVec.twoPow w (w - 1))) (x y : BitVec w) :
    walk t (x ||| y) = walk t x ||| walk t y := by
  rw [walk_eq htop, walk_eq htop, walk_eq htop, bits_or, orOver_union]

theorem walk_twoPow (htop : t 0#w = t (BitVec.twoPow w (w - 1))) {b : ℕ} (hb : b < w) :
    walk t (BitVec.twoPow w b) = contribution t b := by
  rw [walk_eq htop, bits_twoPow hb, orOver_singleton]

end Walk

end BitWalk
