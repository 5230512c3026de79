import Mathlib

/-!
# Reading files through stdio

A `CFile` is a stream opened for reading: the bytes of the file, the position and the end-of-file
indicator. `fread` reads as many bytes as are left of those asked for and sets the indicator if they
are fewer; `fseek` moves the position and clears it, and fails for a negative position. `rest` is what
the stream has still to give: the operations are described by what they do to it.
-/

/-- A value converted to a 32-bit `int`. -/
def toInt32 (x : ℤ) : ℤ := x.bmod (2 ^ 32)

theorem toInt32_of_lt {n : ℕ} (h : n < 2 ^ 31) : toInt32 n = n := by
  rw [toInt32, Int.bmod_def]
  split <;> omega

/-- A 32-bit `int` does not hold what needs its sign bit. -/
theorem toInt32_neg {n : ℕ} (h : 2 ^ 31 ≤ n) (h' : n < 2 ^ 32) : toInt32 n < 0 := by
  rw [toInt32, Int.bmod_def]
  split <;> omega

/-- A stream opened for reading. The indicator is set at the end of the file only. -/
@[ext] structure CFile where
  content : List UInt8
  pos : ℕ
  eof : Bool
  atEnd : eof = true → content.length ≤ pos
deriving DecidableEq, Repr

namespace CFile

/-- A stream at the beginning of a file. -/
def fopen (content : List UInt8) : CFile := ⟨content, 0, false, nofun⟩

variable (f : CFile) (n : ℕ)

/-- The bytes not yet read. -/
def rest : List UInt8 := f.content.drop f.pos

/-- The bytes that `fread` of `n` bytes stores. -/
def fread : List UInt8 := f.rest.take n

theorem length_rest : f.rest.length = f.content.length - f.pos := List.length_drop

theorem length_fread : (f.fread n).length = min n f.rest.length := List.length_take

/-- The stream after `fread` of `n` bytes. -/
def afterRead : CFile where
  content := f.content
  pos := f.pos + (f.fread n).length
  eof := f.eof || decide ((f.fread n).length < n)
  atEnd := by
    intro h
    have hlen := f.length_fread n
    have hrest := f.length_rest
    rcases Bool.or_eq_true_iff.mp h with heof | hshort
    · have := f.atEnd heof
      omega
    · have := of_decide_eq_true hshort
      omega

/-- The value of `ftell`, a `long`. -/
def ftell : ℤ := f.pos

/-- The stream at another position, the indicator cleared. -/
def moveTo (pos : ℕ) : CFile := ⟨f.content, pos, false, nofun⟩

/-- `fseek` from the beginning of the file. -/
def fseek (offset : ℤ) : CFile := if offset < 0 then f else f.moveTo offset.toNat

@[simp] theorem rest_fopen (content : List UInt8) : (fopen content).rest = content := rfl

@[simp] theorem content_afterRead : (f.afterRead n).content = f.content := rfl

@[simp] theorem content_fseek (offset : ℤ) : (f.fseek offset).content = f.content := by
  rw [fseek]
  split <;> rfl

/-- Moving on takes bytes off the rest. -/
theorem rest_moveTo_add : (f.moveTo (f.pos + n)).rest = f.rest.drop n := by
  show f.content.drop (f.pos + n) = (f.content.drop f.pos).drop n
  rw [List.drop_drop]

/-- With the indicator set there is nothing left to read. -/
theorem rest_of_eof (h : f.eof = true) : f.rest = [] := List.drop_eq_nil_of_le (f.atEnd h)

theorem fread_of_append {a b : List UInt8} (h : f.rest = a ++ b) (ha : a.length = n) :
    f.fread n = a := by
  rw [fread, h]
  exact List.take_left' ha

/-- Reading takes bytes off the rest. -/
theorem rest_afterRead : (f.afterRead n).rest = f.rest.drop n := by
  show f.content.drop (f.pos + (f.fread n).length) = (f.content.drop f.pos).drop n
  rw [← List.drop_drop, length_fread, rest]
  rcases Nat.le_total n (f.content.drop f.pos).length with h | h
  · rw [Nat.min_eq_left h]
  · rw [Nat.min_eq_right h, List.drop_length, List.drop_eq_nil_of_le h]

theorem rest_afterRead_of_append {a b : List UInt8} (h : f.rest = a ++ b) (ha : a.length = n) :
    (f.afterRead n).rest = b := by
  rw [rest_afterRead, h]
  exact List.drop_left' ha

/-- A read that finds all its bytes moves on by as many and leaves the indicator as it was. -/
theorem afterRead_of_le (h : n ≤ f.rest.length) :
    (f.afterRead n).pos = f.pos + n ∧ (f.afterRead n).eof = f.eof := by
  have hlen := f.length_fread n
  rw [Nat.min_eq_left h] at hlen
  exact ⟨congrArg (f.pos + ·) hlen, by simp [afterRead, hlen]⟩

/-! ## Positions kept in an `int` -/

theorem fseek_toInt32 {n : ℕ} (h : n < 2 ^ 31) : f.fseek (toInt32 n) = f.moveTo n := by
  rw [toInt32_of_lt h, fseek, if_neg (by omega)]
  rfl

/-- Seeking back to `n`, kept in an `int`, after a read of `k` bytes. -/
def seekBack (n k : ℕ) : CFile := (f.moveTo (n + k)).fseek (toInt32 n)

theorem seekBack_of_lt {n : ℕ} (k : ℕ) (h : n < 2 ^ 31) : f.seekBack n k = f.moveTo n := by
  rw [seekBack, fseek_toInt32 _ h]
  rfl

/-- A position that takes the sign bit is not sought. -/
theorem seekBack_of_le {n : ℕ} (k : ℕ) (h : 2 ^ 31 ≤ n) (h' : n < 2 ^ 32) :
    f.seekBack n k = f.moveTo (n + k) := by
  rw [seekBack, fseek, if_pos (toInt32_neg h h')]

/-- A position beyond the range of an unsigned `int` is sought modulo `2 ^ 32`. -/
theorem seekBack_of_wrap {n : ℕ} (k : ℕ) (h : 2 ^ 32 ≤ n) (h' : n < 2 ^ 32 + 2 ^ 31) :
    f.seekBack n k = f.moveTo (n - 2 ^ 32) := by
  have hwrap : toInt32 n = toInt32 ((n - 2 ^ 32 : ℕ) : ℤ) := by
    rw [toInt32, toInt32, Int.ofNat_sub h]
    exact (Int.sub_bmod_right ..).symm
  rw [seekBack, hwrap, fseek_toInt32 _ (by omega)]
  rfl

/-- Where seeking back leaves the stream. -/
theorem pos_seekBack {n : ℕ} (k : ℕ) (h : n < 2 ^ 32 + 2 ^ 31) :
    (n < 2 ^ 31 ∧ (f.seekBack n k).pos = n) ∨
    (2 ^ 31 ≤ n ∧ n < 2 ^ 32 ∧ (f.seekBack n k).pos = n + k) ∨
    (2 ^ 32 ≤ n ∧ (f.seekBack n k).pos + 2 ^ 32 = n) := by
  rcases Nat.lt_or_ge n (2 ^ 31) with hlt | hge
  · exact .inl ⟨hlt, by rw [f.seekBack_of_lt k hlt]; rfl⟩
  · rcases Nat.lt_or_ge n (2 ^ 32) with hlt' | hge'
    · exact .inr (.inl ⟨hge, hlt', by rw [f.seekBack_of_le k hge hlt']; rfl⟩)
    · refine .inr (.inr ⟨hge', ?_⟩)
      rw [f.seekBack_of_wrap k hge' h]
      exact Nat.sub_add_cancel hge'

end CFile
