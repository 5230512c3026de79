import Mathlib

/-!
# Byte memory

`store m off bs` writes `bs` into the memory `m` at offset `off`. A memory is a list of cells; a
store beyond its end lengthens it, the gap filled with zero cells, so that a store is always defined
and reads back (`load_store`). A `Block n` is a memory of exactly `n` cells, whose stores come with
the proof that they stay inside.
-/

namespace Memory

/-- Overwrite the cells of `m` from offset `off` on with `bs`. -/
def store (m : List UInt8) (off : ℕ) (bs : List UInt8) : List UInt8 :=
  (m ++ List.replicate (off - m.length) 0).take off ++ bs ++ m.drop (off + bs.length)

/-- The `n` cells of `m` from offset `off` on (fewer at the end of the memory). -/
def load (m : List UInt8) (off n : ℕ) : List UInt8 := (m.drop off).take n

/-- The cell of `m` at index `i`, zero outside of the memory. -/
def byteAt (m : List UInt8) (i : ℕ) : UInt8 := m.getD i 0

/-- The little-endian 16-bit value at index `i` of `m`. -/
def u16At (m : List UInt8) (i : ℕ) : ℕ := (byteAt m i).toNat + 256 * (byteAt m (i + 1)).toNat

theorem u16At_lt (m : List UInt8) (i : ℕ) : u16At m i < 65536 := by
  have h₀ := (byteAt m i).toNat_lt
  have h₁ := (byteAt m (i + 1)).toNat_lt
  simp only [u16At]
  omega

variable {m bs : List UInt8} {off : ℕ}

theorem length_store_of_le (h : off + bs.length ≤ m.length) : (store m off bs).length = m.length := by
  simp only [store, List.length_append, List.length_take, List.length_replicate, List.length_drop]
  omega

/-- Up to the end of a store inside the memory: the old cells before it, then the bytes stored. -/
theorem take_store (h : off ≤ m.length) {k : ℕ} (hk : k = off + bs.length) :
    (store m off bs).take k = m.take off ++ bs := by
  have hgap : off - m.length = 0 := by omega
  have hlen : (m.take off).length = off := by rw [List.length_take]; omega
  rw [store, hgap, List.replicate_zero, List.append_nil]
  exact List.take_left' (by rw [List.length_append, hlen, hk])

/-- A store that begins inside the memory leaves no gap. -/
theorem store_of_le (h : off ≤ m.length) :
    store m off bs = m.take off ++ bs ++ m.drop (off + bs.length) := by
  rw [store, Nat.sub_eq_zero_of_le h, List.replicate_zero, List.append_nil]

/-- A store never shortens the memory. -/
theorem length_le_length_store (m bs : List UInt8) (off : ℕ) :
    m.length ≤ (store m off bs).length := by
  simp only [store, List.length_append, List.length_take, List.length_replicate, List.length_drop]
  omega

/-- A cell after a store. -/
theorem getElem?_store {i : ℕ} (hi : i < m.length) :
    (store m off bs)[i]? = if off ≤ i ∧ i < off + bs.length then bs[i - off]? else m[i]? := by
  have hlen : ((m ++ List.replicate (off - m.length) 0).take off).length = off := by
    simp only [List.length_take, List.length_append, List.length_replicate]
    omega
  rw [store, List.append_assoc]
  by_cases hbefore : i < off
  · rw [if_neg (by omega), List.getElem?_append_left (by omega), List.getElem?_take_of_lt hbefore,
      List.getElem?_append_left hi]
  · rw [List.getElem?_append_right (by omega), hlen]
    by_cases hin : i - off < bs.length
    · rw [if_pos (by omega), List.getElem?_append_left hin]
    · rw [if_neg (by omega), List.getElem?_append_right (by omega), List.getElem?_drop]
      congr 1
      omega

/-- A store leaves the cells before it alone. -/
theorem take_store_of_le {k : ℕ} (hk : k ≤ off) (h : k ≤ m.length) :
    (store m off bs).take k = m.take k := by
  apply List.ext_getElem?
  intro i
  by_cases hi : i < k
  · rw [List.getElem?_take_of_lt hi, List.getElem?_take_of_lt hi, getElem?_store (by omega),
      if_neg (by omega)]
  · have := length_le_length_store m bs off
    rw [List.getElem?_eq_none (by rw [List.length_take]; omega),
      List.getElem?_eq_none (by rw [List.length_take]; omega)]

/-- A store behind `a`, seen in the `data` that stands there. -/
theorem take_store_mapIdx {a data : List UInt8} {n : ℕ} (hm : m.take n = a ++ data)
    (hn : n = a.length + data.length) (hle : n ≤ m.length) (hoff : a.length ≤ off) :
    (store m off bs).take n = a ++ data.mapIdx fun j b =>
      if off ≤ a.length + j ∧ a.length + j < off + bs.length then bs.getD (a.length + j - off) 0
      else b := by
  apply List.ext_getElem?
  intro i
  by_cases hi : i < n
  · have hcell : m[i]? = (a ++ data)[i]? := by rw [← hm, List.getElem?_take_of_lt hi]
    rw [List.getElem?_take_of_lt hi, getElem?_store (by omega), hcell]
    by_cases hia : i < a.length
    · rw [if_neg (by omega), List.getElem?_append_left hia, List.getElem?_append_left hia]
    · have hget : data[i - a.length]? = some data[i - a.length] := List.getElem?_eq_getElem (by omega)
      rw [List.getElem?_append_right (by omega), List.getElem?_append_right (by omega),
        List.getElem?_mapIdx, hget, Option.map_some, Nat.add_sub_cancel' (by omega)]
      by_cases hstored : off ≤ i ∧ i < off + bs.length
      · rw [if_pos hstored, if_pos hstored, List.getD_eq_getElem?_getD,
          List.getElem?_eq_getElem (by omega), Option.getD_some]
      · rw [if_neg hstored, if_neg hstored]
  · rw [List.getElem?_eq_none, List.getElem?_eq_none]
    · rw [List.length_append, List.length_mapIdx]
      omega
    · rw [List.length_take]
      omega

/-- Two stores one behind the other are one. -/
theorem store_store (m a b : List UInt8) (off : ℕ) :
    store (store m off a) (off + a.length) b = store m off (a ++ b) := by
  have hlen : ((m ++ List.replicate (off - m.length) 0).take off ++ a).length = off + a.length := by
    simp only [List.length_append, List.length_take, List.length_replicate]
    omega
  have hle : off + a.length ≤ (store m off a).length := by
    rw [store, List.length_append, hlen]
    omega
  have htake : (store m off a).take (off + a.length) =
      (m ++ List.replicate (off - m.length) 0).take off ++ a := List.take_left' hlen
  have hdrop : (store m off a).drop (off + a.length + b.length) =
      m.drop (off + (a ++ b).length) := by
    rw [← List.drop_drop, store, List.drop_left' hlen, List.drop_drop, List.length_append]
    congr 1
    omega
  rw [store_of_le hle, htake, hdrop, store, List.append_assoc _ a b]

theorem byteAt_take {i k : ℕ} (h : i < k) : byteAt (m.take k) i = byteAt m i := by
  simp [byteAt, List.getD_eq_getElem?_getD, h]

theorem byteAt_append_left {i : ℕ} (h : i < m.length) : byteAt (m ++ bs) i = byteAt m i := by
  simp [byteAt, List.getD_eq_getElem?_getD, List.getElem?_append_left h]

theorem u16At_append_left {i : ℕ} (h : i + 1 < m.length) : u16At (m ++ bs) i = u16At m i := by
  simp only [u16At, byteAt_append_left h, byteAt_append_left (Nat.lt_of_succ_lt h)]

/-! ## Big-endian words -/

/-- The four bytes of a 32-bit word, the most significant one first. -/
def be32 (n : ℕ) : List UInt8 :=
  [.ofNat (n / 2 ^ 24), .ofNat (n / 2 ^ 16), .ofNat (n / 2 ^ 8), .ofNat n]

/-- The big-endian 32-bit value at index `i` of `m`. -/
def be32At (m : List UInt8) (i : ℕ) : ℕ :=
  (byteAt m i).toNat * 2 ^ 24 + (byteAt m (i + 1)).toNat * 2 ^ 16 +
    (byteAt m (i + 2)).toNat * 2 ^ 8 + (byteAt m (i + 3)).toNat

@[simp] theorem length_be32 (n : ℕ) : (be32 n).length = 4 := rfl

/-- Behind `a`, the indices begin again. -/
theorem be32At_append_right {i : ℕ} {a b : List UInt8} (h : a.length ≤ i) :
    be32At (a ++ b) i = be32At b (i - a.length) := by
  have hbyte : ∀ j, byteAt (a ++ b) (i + j) = byteAt b (i - a.length + j) := by
    intro j
    simp only [byteAt, List.getD_eq_getElem?_getD]
    rw [List.getElem?_append_right (by omega)]
    congr 2
    omega
  have h₀ := hbyte 0
  rw [Nat.add_zero, Nat.add_zero] at h₀
  rw [be32At, be32At, h₀, hbyte 1, hbyte 2, hbyte 3]

/-- The word at the front is read back. -/
theorem be32At_be32 {n : ℕ} (hn : n < 2 ^ 32) (b : List UInt8) : be32At (be32 n ++ b) 0 = n := by
  simp only [be32At, be32, byteAt, List.cons_append, List.getD_cons_zero, List.getD_cons_succ,
    UInt8.toNat_ofNat']
  omega

/-- A word is read back behind the bytes before it. -/
theorem be32At_append {n i : ℕ} (hn : n < 2 ^ 32) (a b : List UInt8) (ha : a.length = i) :
    be32At (a ++ (be32 n ++ b)) i = n := by
  rw [be32At_append_right (Nat.le_of_eq ha), ha, Nat.sub_self, be32At_be32 hn]

theorem be32At_append_left {i : ℕ} (h : i + 3 < m.length) : be32At (m ++ bs) i = be32At m i := by
  simp only [be32At, byteAt_append_left h, byteAt_append_left (Nat.lt_of_succ_lt h),
    byteAt_append_left (Nat.lt_of_succ_lt (Nat.lt_of_succ_lt h)),
    byteAt_append_left (Nat.lt_of_succ_lt (Nat.lt_of_succ_lt (Nat.lt_of_succ_lt h)))]

/-! ## Strings -/

/-- The string at the front of `m`, up to its terminating zero. -/
def cstr (m : List UInt8) : List UInt8 := m.takeWhile (· ≠ 0)

/-- `strcpy` of the string at the front of `src`. -/
def strcpy (dst src : List UInt8) : List UInt8 := store dst 0 (cstr src ++ [0])

/-- The string copied is read back. -/
theorem cstr_strcpy (dst src : List UInt8) : cstr (strcpy dst src) = cstr src := by
  have hstore : strcpy dst src = cstr src ++ 0 :: dst.drop (cstr src ++ [0]).length := by
    rw [strcpy, store_of_le (Nat.zero_le _), List.take_zero, List.nil_append, Nat.zero_add,
      List.append_assoc]
    rfl
  have hall : ∀ x ∈ cstr src, decide (x ≠ 0) = true :=
    List.all_eq_true.mp List.all_takeWhile
  rw [hstore, cstr, List.takeWhile_append_of_pos hall, List.takeWhile_cons_of_neg (by decide),
    List.append_nil]

/-- A memory of exactly `n` cells. -/
structure Block (n : ℕ) where
  cells : List UInt8
  size : cells.length = n
deriving DecidableEq, Repr

namespace Block

variable {n : ℕ}

/-- A block of zero cells, as `= {0}` initialises it. -/
def zero (n : ℕ) : Block n := ⟨List.replicate n 0, List.length_replicate⟩

/-- A store that stays inside of the block. -/
def store (b : Block n) (off : ℕ) (bs : List UInt8) (h : off + bs.length ≤ n) : Block n :=
  ⟨Memory.store b.cells off bs, by rw [length_store_of_le (by rw [b.size]; exact h), b.size]⟩

/-- Move the `k` cells from offset `src` on to the front of the block. -/
def shift (b : Block n) (src k : ℕ) (h : k ≤ n) : Block n :=
  b.store 0 (load b.cells src k) (by simp only [load, List.length_take]; omega)

theorem take_store (b : Block n) (off : ℕ) (bs : List UInt8) (h : off + bs.length ≤ n) {k : ℕ}
    (hk : k = off + bs.length) : (b.store off bs h).cells.take k = b.cells.take off ++ bs :=
  Memory.take_store (by rw [b.size]; omega) hk

/-- The cells moved are the first ones of the block afterwards. -/
theorem take_shift (b : Block n) (src k : ℕ) (h : k ≤ n) (hsrc : src + k ≤ n) :
    (b.shift src k h).cells.take k = (b.cells.take (src + k)).drop src := by
  have hlen : (load b.cells src k).length = k := by
    simp only [load, List.length_take, List.length_drop, b.size]
    omega
  rw [shift, take_store _ _ _ _ (by omega), List.take_zero, List.nil_append, load, List.drop_take]
  congr 1
  omega

end Block

end Memory
