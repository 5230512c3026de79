import Mathlib

/-!
# Failures in a row

`streak` counts the failures behind the last success of a history. A counter that starts at zero, is reset
by a success, and starts anew when it exceeds `limit`, is the streak modulo `limit + 1`: it starts anew at
every `limit + 1`st failure in a row.
-/

/-- The failures (`false`) since the last success. -/
def streak (history : List Bool) : ℕ := (history.reverse.takeWhile fun ok => !ok).length

@[simp] theorem streak_nil : streak [] = 0 := rfl

@[simp] theorem streak_success (history : List Bool) : streak (history ++ [true]) = 0 := by
  simp [streak]

@[simp] theorem streak_failure (history : List Bool) :
    streak (history ++ [false]) = streak history + 1 := by
  simp [streak]

section Counter

variable {limit counter n : ℕ}

/-- The counter starts anew at the multiples of `limit + 1`. -/
theorem counter_next (h : counter = n % (limit + 1)) :
    (if limit < counter + 1 then 0 else counter + 1) = (n + 1) % (limit + 1) := by
  have hlt : counter < limit + 1 := h ▸ Nat.mod_lt n (Nat.succ_pos limit)
  rw [← Nat.mod_add_mod, ← h]
  by_cases hlimit : limit < counter + 1
  · rw [if_pos hlimit, show counter + 1 = limit + 1 by omega, Nat.mod_self]
  · rw [if_neg hlimit, Nat.mod_eq_of_lt (by omega)]

/-- The counter exceeds its limit at these. -/
theorem exceeds_iff (h : counter = n % (limit + 1)) : limit < counter + 1 ↔ (n + 1) % (limit + 1) = 0 := by
  rw [← counter_next h]
  constructor
  · exact fun hlimit => if_pos hlimit
  · intro hzero
    by_contra hlimit
    rw [if_neg hlimit] at hzero
    exact absurd hzero (Nat.succ_ne_zero counter)

end Counter
