import Mathlib

/-!
# Reading a file line by line

`fgets` reads up to a newline, which it keeps, but no more bytes than it has room for; `lines` are the
results of its successive calls, up to the end of the file. A line of the text that is too long comes in
several pieces. What is made of the pieces one by one is described by what it makes of the lines of the
text, if these are short (`filterMap_lines`), and at the beginning of a line of the text the file can be
taken apart (`lines_append`).
-/

namespace Lines

/-- `'\n'`. -/
def newline : UInt8 := 0x0a

/-- The bytes that `fgets` stores before the terminator, with room for so many of them, of what is left
of a file; none at its end. -/
def fgets : ℕ → List UInt8 → List UInt8
  | 0, _ => []
  | _ + 1, [] => []
  | room + 1, c :: rest => if c = newline then [c] else c :: fgets room rest

/-- The results of at most `fuel` calls of `fgets`. -/
def linesAux (room : ℕ) : (fuel : ℕ) → List UInt8 → List (List UInt8)
  | 0, _ => []
  | fuel + 1, rest =>
    if rest = [] then []
    else fgets room rest :: linesAux room fuel (rest.drop (fgets room rest).length)

/-- What successive calls of `fgets` return of a file. Each takes a byte at least. -/
def lines (room : ℕ) (content : List UInt8) : List (List UInt8) :=
  linesAux room content.length content

variable {room : ℕ} {pre post l : List UInt8}

/-! ## One call -/

theorem length_fgets_le (room : ℕ) (rest : List UInt8) : (fgets room rest).length ≤ rest.length := by
  induction room generalizing rest with
  | zero => exact Nat.zero_le _
  | succ room ih =>
    cases rest with
    | nil => exact Nat.le_refl _
    | cons c rest =>
      rw [fgets]
      split
      · simp
      · simpa using ih rest

theorem length_fgets_pos (hroom : 0 < room) {rest : List UInt8} (hrest : rest ≠ []) :
    0 < (fgets room rest).length := by
  obtain ⟨room, rfl⟩ := Nat.exists_eq_succ_of_ne_zero (Nat.pos_iff_ne_zero.mp hroom)
  obtain ⟨c, rest, rfl⟩ := List.exists_cons_of_ne_nil hrest
  rw [fgets]
  split <;> simp

/-- What `fgets` stores is no longer than its room. -/
theorem length_fgets_le_room (room : ℕ) (rest : List UInt8) : (fgets room rest).length ≤ room := by
  induction room generalizing rest with
  | zero => exact Nat.zero_le _
  | succ room ih =>
    cases rest with
    | nil => exact Nat.zero_le _
    | cons c rest =>
      rw [fgets]
      split
      · simp
      · simpa using ih rest

/-- A call does not look behind the first newline, or behind its room. -/
theorem fgets_append (h : newline ∈ pre ∨ room ≤ pre.length) (post : List UInt8) :
    fgets room (pre ++ post) = fgets room pre := by
  induction room generalizing pre with
  | zero => rfl
  | succ room ih =>
    cases pre with
    | nil => exact absurd h (by simp)
    | cons c pre =>
      rw [List.cons_append, fgets, fgets]
      split
      · rfl
      · next hc =>
        rw [ih]
        exact h.imp (fun h => (List.mem_cons.mp h).resolve_left (Ne.symm hc)) Nat.le_of_succ_le_succ

/-- A line that there is room for is read with its newline. -/
theorem fgets_line (hl : newline ∉ l) (hroom : l.length < room) (rest : List UInt8) :
    fgets room (l ++ newline :: rest) = l ++ [newline] := by
  induction l generalizing room with
  | nil =>
    obtain ⟨room, rfl⟩ := Nat.exists_eq_succ_of_ne_zero (Nat.pos_iff_ne_zero.mp hroom)
    rw [List.nil_append, fgets, if_pos rfl, List.nil_append]
  | cons c l ih =>
    obtain ⟨room, rfl⟩ := Nat.exists_eq_succ_of_ne_zero (Nat.ne_zero_of_lt hroom)
    have hc : c ≠ newline := fun h => hl (h ▸ List.mem_cons_self)
    rw [List.cons_append, fgets, if_neg hc,
      ih (fun h => hl (List.mem_cons_of_mem c h)) (Nat.lt_of_succ_lt_succ hroom), List.cons_append]

/-- The last line is read as it is. -/
theorem fgets_last (hl : newline ∉ l) (hroom : l.length ≤ room) : fgets room l = l := by
  induction l generalizing room with
  | nil => cases room <;> rfl
  | cons c l ih =>
    obtain ⟨room, rfl⟩ := Nat.exists_eq_succ_of_ne_zero (Nat.ne_zero_of_lt hroom)
    have hc : c ≠ newline := fun h => hl (h ▸ List.mem_cons_self)
    rw [fgets, if_neg hc, ih (fun h => hl (List.mem_cons_of_mem c h)) (Nat.le_of_succ_le_succ hroom)]

/-! ## All calls -/

@[simp] theorem lines_nil : lines room [] = [] := rfl

theorem linesAux_of_le (hroom : 0 < room) {fuel fuel' : ℕ} {rest : List UInt8}
    (h : rest.length ≤ fuel) (h' : rest.length ≤ fuel') :
    linesAux room fuel rest = linesAux room fuel' rest := by
  induction fuel generalizing fuel' rest with
  | zero =>
    obtain rfl := List.length_eq_zero_iff.mp (Nat.le_zero.mp h)
    cases fuel' <;> rfl
  | succ fuel ih =>
    by_cases hrest : rest = []
    · subst hrest
      cases fuel' <;> rfl
    · have hpos := length_fgets_pos hroom hrest
      have hne := List.length_pos_iff.mpr hrest
      obtain ⟨fuel', rfl⟩ := Nat.exists_eq_succ_of_ne_zero (by omega : fuel' ≠ 0)
      rw [linesAux, linesAux, if_neg hrest, if_neg hrest, ih]
      · rw [List.length_drop]
        omega
      · rw [List.length_drop]
        omega

/-- The first call, and those after it. -/
theorem lines_of_ne_nil (hroom : 0 < room) {rest : List UInt8} (hrest : rest ≠ []) :
    lines room rest = fgets room rest :: lines room (rest.drop (fgets room rest).length) := by
  have hpos := length_fgets_pos hroom hrest
  have hne := List.length_pos_iff.mpr hrest
  obtain ⟨n, hn⟩ := Nat.exists_eq_succ_of_ne_zero (by omega : rest.length ≠ 0)
  rw [lines, hn, linesAux, if_neg hrest, lines]
  congr 1
  refine linesAux_of_le hroom ?_ (Nat.le_refl _)
  rw [List.length_drop]
  omega

/-- No call returns more than its room. -/
theorem length_le_of_mem_lines (hroom : 0 < room) {content s : List UInt8} (hs : s ∈ lines room content) :
    s.length ≤ room := by
  induction hn : content.length using Nat.strongRecOn generalizing content with
  | ind n ih =>
    by_cases hne : content = []
    · rw [hne, lines_nil] at hs
      exact absurd hs List.not_mem_nil
    · have hpos := length_fgets_pos hroom hne
      have hle := length_fgets_le room content
      rw [lines_of_ne_nil hroom hne] at hs
      rcases List.mem_cons.mp hs with rfl | hs
      · exact length_fgets_le_room room content
      · refine ih _ ?_ hs rfl
        rw [List.length_drop]
        omega

/-- `pre` ends where a line of the text ends. -/
def EndsLine (pre : List UInt8) : Prop := pre = [] ∨ pre.getLast? = some newline

theorem EndsLine.mem (h : EndsLine pre) (hne : pre ≠ []) : newline ∈ pre :=
  List.mem_of_getLast? (h.resolve_left hne)

theorem EndsLine.drop (h : EndsLine pre) (n : ℕ) : EndsLine (pre.drop n) := by
  by_cases hn : pre.length ≤ n
  · exact .inl (List.drop_eq_nil_of_le hn)
  · rcases h with rfl | h
    · exact absurd (Nat.zero_le n) hn
    · refine .inr ?_
      rw [List.getLast?_drop, if_neg hn, h]

/-- **Taking a file apart.** At the beginning of a line of the text the file can be cut in two. -/
theorem lines_append (hroom : 0 < room) (hpre : EndsLine pre) (post : List UInt8) :
    lines room (pre ++ post) = lines room pre ++ lines room post := by
  induction hn : pre.length using Nat.strongRecOn generalizing pre with
  | ind n ih =>
    by_cases hne : pre = []
    · subst hne
      rfl
    · have hpos := length_fgets_pos hroom hne
      have hle := length_fgets_le room pre
      have hlt : (pre.drop (fgets room pre).length).length < n := by
        rw [List.length_drop]
        omega
      rw [lines_of_ne_nil hroom (List.append_ne_nil_of_left_ne_nil hne post),
        lines_of_ne_nil hroom hne, fgets_append (.inl (hpre.mem hne)), List.drop_append_of_le_length hle,
        ih _ hlt (hpre.drop _) rfl, List.cons_append]

theorem lines_line (hl : newline ∉ l) (hroom : l.length < room) (rest : List UInt8) :
    lines room (l ++ newline :: rest) = (l ++ [newline]) :: lines room rest := by
  have hne : l ++ newline :: rest ≠ [] := List.append_ne_nil_of_right_ne_nil l (List.cons_ne_nil _ _)
  have happ : l ++ newline :: rest = l ++ [newline] ++ rest := by simp
  rw [lines_of_ne_nil (by omega) hne, fgets_line hl hroom, happ, List.drop_left]

theorem lines_last (hl : newline ∉ l) (hroom : l.length ≤ room) (hne : l ≠ []) :
    lines room l = [l] := by
  have hpos := List.length_pos_iff.mpr hne
  rw [lines_of_ne_nil (by omega) hne, fgets_last hl hroom, List.drop_length, lines_nil]

/-! ## What is made of the lines -/

section Read

variable {β : Type*} {f : List UInt8 → Option β}

/-- **Short lines.** What is made of the results of `fgets`, the newline and empty lines being of no
account, is what is made of the lines of the text. -/
theorem filterMap_lines (hnil : f [] = none) (hnl : ∀ l, f (l ++ [newline]) = f l)
    {content : List UInt8} (hshort : ∀ l ∈ content.splitOn newline, l.length < room) :
    (lines room content).filterMap f = (content.splitOn newline).filterMap f := by
  induction hn : content.length using Nat.strongRecOn generalizing content with
  | ind n ih =>
    by_cases hmem : newline ∈ content
    · obtain ⟨l, rest, rfl, hl⟩ := List.eq_append_cons_of_mem hmem
      rw [List.splitOn_append_cons_self_of_not_mem hl] at hshort ⊢
      have hrest : rest.length < n := by
        rw [← hn, List.length_append, List.length_cons]
        omega
      rw [lines_line hl (hshort l List.mem_cons_self), List.filterMap_cons, List.filterMap_cons, hnl,
        ih _ hrest (fun l' hl' => hshort l' (List.mem_cons_of_mem l hl')) rfl]
    · rw [List.splitOn_eq_singleton hmem] at hshort ⊢
      by_cases hne : content = []
      · subst hne
        rw [lines_nil, List.filterMap_nil, List.filterMap_cons, hnil, List.filterMap_nil]
      · rw [lines_last hmem (Nat.le_of_lt (hshort _ List.mem_cons_self)) hne]

/-- A newline behind the last line is of no account. -/
theorem filterMap_lines_newline (hroom : 0 < room) (hnil : f [] = none)
    (hnl : ∀ l, f (l ++ [newline]) = f l) (content : List UInt8) :
    (lines room (content ++ [newline])).filterMap f = (lines room content).filterMap f := by
  induction hn : content.length using Nat.strongRecOn generalizing content with
  | ind n ih =>
    by_cases hne : content = []
    · subst hne
      rw [lines_line List.not_mem_nil hroom, List.filterMap_cons, hnl, hnil]
    by_cases hlong : newline ∈ content ∨ room ≤ content.length
    · have hpos := length_fgets_pos hroom hne
      have hle := length_fgets_le room content
      have hlt : (content.drop (fgets room content).length).length < n := by
        rw [List.length_drop]
        omega
      rw [lines_of_ne_nil hroom (List.append_ne_nil_of_left_ne_nil hne _), lines_of_ne_nil hroom hne,
        fgets_append hlong, List.drop_append_of_le_length hle, List.filterMap_cons,
        List.filterMap_cons, ih _ hlt _ rfl]
    · obtain ⟨hmem, hlen⟩ := not_or.mp hlong
      rw [lines_line hmem (by omega), lines_last hmem (by omega) hne, List.filterMap_cons,
        List.filterMap_cons, hnl]
      rfl

end Read

end Lines
