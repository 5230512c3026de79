import Mathlib

/-!
# Copies into an array of entries

An array has entries of `size` bytes each. `touched size cs` are the entries in which the copies `cs`
store a byte, whether they are entries of the array or lie behind it. Copies that begin with an entry
write as many entries as they `cover` (`mem_touched_iff_of_aligned`).
-/

namespace Entries

/-- Bytes copied to an offset in bytes from the beginning of the array. -/
structure Copy where
  off : ℕ
  bytes : List UInt8
deriving DecidableEq, Repr

variable {α : Type*} {size n i k : ℕ}

/-- How many entries the first `n` bytes of an array cover, the last one perhaps in part. -/
def cover (size n : ℕ) : ℕ := (n + size - 1) / size

theorem lt_cover_iff (hsize : 0 < size) : i < cover size n ↔ size * i < n := by
  rw [cover, Nat.lt_iff_add_one_le, Nat.le_div_iff_mul_le hsize, Nat.add_one_mul, Nat.mul_comm i]
  omega

theorem cover_le_iff (hsize : 0 < size) : cover size n ≤ k ↔ n ≤ size * k := by
  rw [← Nat.not_lt, lt_cover_iff hsize, Nat.not_lt]

/-- The entries in which copies store a byte. -/
def touched (size : ℕ) (cs : List Copy) : Finset ℕ :=
  (cs.flatMap fun c => (List.range c.bytes.length).map fun j => (c.off + j) / size).toFinset

theorem mem_touched {cs : List Copy} :
    i ∈ touched size cs ↔ ∃ c ∈ cs, ∃ j < c.bytes.length, (c.off + j) / size = i := by
  simp only [touched, List.mem_toFinset, List.mem_flatMap, List.mem_map, List.mem_range]

theorem not_mem_touched_nil : i ∉ touched size [] := List.not_mem_nil

theorem mem_touched_append {cs ds : List Copy} :
    i ∈ touched size (cs ++ ds) ↔ i ∈ touched size cs ∨ i ∈ touched size ds := by
  rw [touched, List.flatMap_append, List.toFinset_append, Finset.mem_union]
  rfl

/-- A copy that begins with an entry writes the entries that it covers from there on. -/
theorem mem_touched_aligned (hsize : 0 < size) {bytes : List UInt8} :
    i ∈ touched size [⟨size * k, bytes⟩] ↔ k ≤ i ∧ i < k + cover size bytes.length := by
  rw [mem_touched]
  constructor
  · rintro ⟨c, hc, j, hj, rfl⟩
    obtain rfl := List.mem_singleton.mp hc
    rw [Nat.mul_add_div hsize]
    refine ⟨Nat.le_add_right _ _, Nat.add_lt_add_left ((lt_cover_iff hsize).mpr ?_) k⟩
    exact Nat.lt_of_le_of_lt (Nat.mul_div_le j size) hj
  · rintro ⟨hle, hlt⟩
    obtain ⟨d, rfl⟩ := Nat.exists_eq_add_of_le hle
    have hd := (lt_cover_iff hsize).mp (Nat.lt_of_add_lt_add_left hlt)
    refine ⟨_, List.mem_singleton_self _, size * d, hd, ?_⟩
    rw [← Nat.mul_add, Nat.mul_div_cancel_left _ hsize]

/-! ## The most of several counts -/

/-- The greatest of the counts of the items of a list, zero if there is none. -/
def most (f : α → ℕ) (l : List α) : ℕ := (l.map f).foldr max 0

variable {f : α → ℕ} {l : List α}

theorem lt_most_iff : n < most f l ↔ ∃ a ∈ l, n < f a := by
  induction l with
  | nil => simp [most]
  | cons a l ih =>
    rw [most, List.map_cons, List.foldr_cons, lt_max_iff]
    exact (or_congr_right ih).trans (List.exists_mem_cons_iff (n < f ·) a l).symm

theorem most_le_iff : most f l ≤ n ↔ ∀ a ∈ l, f a ≤ n := by
  rw [← Nat.not_lt, lt_most_iff]
  simp

/-- Entries written from the beginning of the array on are as many as the most of their counts. -/
theorem card_touched {cs : List Copy} (h : ∀ i, i ∈ touched size cs ↔ ∃ a ∈ l, i < f a) :
    (touched size cs).card = most f l := by
  have hset : touched size cs = Finset.range (most f l) := by
    ext i
    rw [h, Finset.mem_range, lt_most_iff]
  rw [hset, Finset.card_range]

end Entries
