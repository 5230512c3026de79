import Seekwave.Lib.CString
import Seekwave.Vendor.Conf

/-!
# A line of the configuration in its buffer

Both loaders of `skwbt.conf` read a line into `char line[1024]` and work on it there: `trim` moves the
pointer and writes a terminator, the separator is overwritten by another, and the key is trimmed once
more, for each name it is compared with. `trimInPlace` and `scanLine` are these passes over the buffer;
`scans` says that they find what `confLine` makes of the string.
-/

open Memory

namespace Seekwave

/-- `trim`, of the string at `str`: the buffer it leaves, and the pointer it returns. -/
def trimInPlace (line : List UInt8) (str : ℕ) : List UInt8 × ℕ :=
  let str := Loop.run (skipPass isspace line) (line.length - ·) (skipPass_dec rfl) str
  if byteAt line str = 0 then (line, str)
  else
    let endStr := Loop.run (backPass isspace line str) id (backPass_dec str)
      (str + (strAt line str).length - 1)
    (terminate line (endStr + 1), str)

/-- What the loaders find in the buffer: nothing, no separator, or the key and the value at two pointers.
The buffer is given as it is left. -/
inductive LineScan
  | skipped (line : List UInt8)
  | noSeparator (line : List UInt8)
  | entry (line : List UInt8) (linePtr split : ℕ)

/-- The part of the two loops before the keys. -/
def scanLine (line : List UInt8) : LineScan :=
  let (line, linePtr) := trimInPlace line 0
  if byteAt line linePtr = 0 ∨ byteAt line linePtr = 0x23 ∨ byteAt line linePtr = 0x5b then
    .skipped line
  else
    match strchr line linePtr 0x3d with
    | none => .noSeparator line
    | some split => .entry (terminate line split) linePtr (split + 1)

/-! ## Trimming -/

theorem trim_eq_rdropWhile (str : List UInt8) : trim str = (str.dropWhile isspace).rdropWhile isspace :=
  rfl

/-- A trimmed string does not begin with a space. -/
theorem isspace_head_trim {str : List UInt8} (h : trim str ≠ []) : isspace ((trim str).head h) = false := by
  have hpre : trim str <+: str.dropWhile isspace := List.rdropWhile_prefix isspace _
  have hne : str.dropWhile isspace ≠ [] := fun h' => h (List.prefix_nil.mp (h' ▸ hpre))
  rw [hpre.head h]
  exact List.head_dropWhile_not isspace hne

theorem dropWhile_trim (str : List UInt8) : (trim str).dropWhile isspace = trim str := by
  cases h : trim str with
  | nil => rfl
  | cons c t =>
    have hc := @isspace_head_trim str (by rw [h]; exact List.cons_ne_nil c t)
    simp only [h, List.head_cons] at hc
    rw [List.dropWhile_cons_of_neg (by simp [hc])]

/-- Trimming is done once and for all, even with the spaces before the string left in place. -/
theorem trim_takeWhile_append (str : List UInt8) : trim (str.takeWhile isspace ++ trim str) = trim str := by
  have hspaces : ∀ c ∈ str.takeWhile isspace, isspace c = true := List.all_eq_true.mp List.all_takeWhile
  rw [trim_eq_rdropWhile (_ ++ _), List.dropWhile_append_of_pos hspaces, dropWhile_trim,
    trim_eq_rdropWhile str, List.rdropWhile_idempotent]

theorem length_trim_le (str : List UInt8) : (trim str).length ≤ str.length := by
  rw [trim_eq_rdropWhile]
  exact (List.rdropWhile_prefix _ _).length_le.trans (List.dropWhile_suffix _).length_le

theorem trim_eq_nil_iff {str : List UInt8} : trim str = [] ↔ str.dropWhile isspace = [] := by
  constructor
  · intro h
    by_contra hne
    have hspace := List.rdropWhile_eq_nil_iff.mp h _ (List.head_mem hne)
    rw [List.head_dropWhile_not isspace hne] at hspace
    exact absurd hspace (by decide)
  · intro h
    rw [trim_eq_rdropWhile, h]
    rfl

section InPlace

variable (line : List UInt8) (str : ℕ)

/-- Where `trim` points to. -/
theorem trimInPlace_snd :
    (trimInPlace line str).2 = str + ((strAt line str).takeWhile isspace).length := by
  have hskip := Loop.run_eq_of_returns _ (line.length - ·) (skipPass_dec rfl)
    (@returns_skipPass line isspace rfl str)
  rw [trimInPlace, hskip]
  dsimp only
  split <;> rfl

/-- `trim` leaves the memory as it is, or writes one terminator, behind the trimmed string. -/
theorem trimInPlace_fst :
    (trimInPlace line str).1 = if trim (strAt line str) = [] then line
      else terminate line (str + ((strAt line str).takeWhile isspace).length +
        (trim (strAt line str)).length) := by
  have hskip := Loop.run_eq_of_returns _ (line.length - ·) (skipPass_dec rfl)
    (@returns_skipPass line isspace rfl str)
  generalize hs : strAt line str = s at hskip ⊢
  have hstr : strAt line (str + (s.takeWhile isspace).length) = s.dropWhile isspace := by
    rw [strAt_add (by rw [hs]; exact (List.takeWhile_sublist isspace).length_le), hs]
    calc s.drop (s.takeWhile isspace).length
        = (s.takeWhile isspace ++ s.dropWhile isspace).drop (s.takeWhile isspace).length := by
          rw [List.takeWhile_append_dropWhile]
      _ = s.dropWhile isspace := List.drop_left
  have hempty : byteAt line (str + (s.takeWhile isspace).length) = 0 ↔ trim s = [] := by
    rw [← strAt_eq_nil_iff, hstr, trim_eq_nil_iff]
  rw [trimInPlace, hskip]
  dsimp only
  by_cases hnil : trim s = []
  · rw [if_pos (hempty.mpr hnil), if_pos hnil]
  · have hne : s.dropWhile isspace ≠ [] := fun h => hnil (trim_eq_nil_iff.mpr h)
    have hpos : 0 < (trim s).length := List.length_pos_iff.mpr hnil
    have hback := Loop.run_eq_of_returns _ id (backPass_dec _)
      (@returns_backPass line (str + (s.takeWhile isspace).length) isspace _ hne
        (List.head_dropWhile_not isspace hne) fun i hi => by
          have hcell := @byteAt_strAt line (str + (s.takeWhile isspace).length) i (by rwa [hstr])
          simpa only [hstr] using hcell.1)
    rw [if_neg fun h => hnil (hempty.mp h), if_neg hnil, hstr, hback, ← trim_eq_rdropWhile]
    dsimp only
    congr 1
    omega

/-- **Trimming in place.** The string at the old pointer keeps the spaces before it and is trimmed
behind them. -/
theorem strAt_trimInPlace :
    strAt (trimInPlace line str).1 str =
      (strAt line str).takeWhile isspace ++ trim (strAt line str) := by
  have hsplit := @List.takeWhile_append_dropWhile _ isspace (strAt line str)
  rw [trimInPlace_fst]
  generalize hs : strAt line str = s at hsplit ⊢
  by_cases hnil : trim s = []
  · rw [if_pos hnil, hs, hnil, List.append_nil]
    rwa [trim_eq_nil_iff.mp hnil, List.append_nil, eq_comm] at hsplit
  · obtain ⟨rest, hrest⟩ : trim s <+: s.dropWhile isspace := List.rdropWhile_prefix isspace _
    have hlen := congrArg List.length hsplit
    rw [← hrest, List.length_append, List.length_append] at hlen
    rw [if_neg hnil, strAt_terminate (by omega) (by rw [hs]; omega), hs, Nat.add_assoc,
      Nat.add_sub_cancel_left, ← List.length_append]
    have heq : s = s.takeWhile isspace ++ trim s ++ rest := by
      rw [List.append_assoc, hrest, hsplit]
    calc s.take (s.takeWhile isspace ++ trim s).length
        = (s.takeWhile isspace ++ trim s ++ rest).take (s.takeWhile isspace ++ trim s).length :=
          congrArg (List.take _) heq
      _ = s.takeWhile isspace ++ trim s := List.take_left

/-- The string that `trim` returns. -/
theorem strAt_trimInPlace_snd :
    strAt (trimInPlace line str).1 (trimInPlace line str).2 = trim (strAt line str) := by
  have h := strAt_trimInPlace line str
  rw [trimInPlace_snd, strAt_add (by rw [h, List.length_append]; omega), h, List.drop_left]

/-- A string behind that is left alone. -/
theorem strAt_trimInPlace_of_lt {r : ℕ} (hr : str + (strAt line str).length < r) :
    strAt (trimInPlace line str).1 r = strAt line r := by
  have h := congrArg List.length (@List.takeWhile_append_dropWhile _ isspace (strAt line str))
  have hle : (trim (strAt line str)).length ≤ ((strAt line str).dropWhile isspace).length :=
    (List.rdropWhile_prefix isspace _).length_le
  rw [List.length_append] at h
  rw [trimInPlace_fst]
  split
  · rfl
  · exact strAt_terminate_of_lt (by omega)

end InPlace

/-! ## Scanning -/

/-- A key and a value in the buffer, at the pointers that the branches of the loaders trim. -/
structure Holds (line : List UInt8) (linePtr split : ℕ) (key value : List UInt8) : Prop where
  key : trim (strAt line linePtr) = key
  value : trim (strAt line split) = value
  before : linePtr + (strAt line linePtr).length < split

/-- What is found in the buffer is what the line holds. -/
inductive Scans : LineScan → ConfLine → Prop
  | skipped (line : List UInt8) : Scans (.skipped line) .skipped
  | noSeparator (line : List UInt8) : Scans (.noSeparator line) .noSeparator
  | entry {line : List UInt8} {linePtr split : ℕ} {key value : List UInt8}
      (h : Holds line linePtr split key value) : Scans (.entry line linePtr split) (.entry key value)

/-- Trimming the key shows the key, and leaves both as they were, for the next comparison. -/
theorem Holds.trim_key {line : List UInt8} {linePtr split : ℕ} {key value : List UInt8}
    (h : Holds line linePtr split key value) :
    strAt (trimInPlace line linePtr).1 (trimInPlace line linePtr).2 = key ∧
      Holds (trimInPlace line linePtr).1 linePtr split key value := by
  have hkey := strAt_trimInPlace line linePtr
  refine ⟨(strAt_trimInPlace_snd line linePtr).trans h.key, ?_, ?_, ?_⟩
  · rw [hkey, trim_takeWhile_append, h.key]
  · rw [strAt_trimInPlace_of_lt line linePtr h.before, h.value]
  · have hsplit := congrArg List.length (@List.takeWhile_append_dropWhile _ isspace (strAt line linePtr))
    have hle : (trim (strAt line linePtr)).length ≤ ((strAt line linePtr).dropWhile isspace).length :=
      (List.rdropWhile_prefix isspace _).length_le
    have := h.before
    rw [hkey, List.length_append]
    rw [List.length_append] at hsplit
    omega

/-- Trimming the value shows the value. -/
theorem Holds.trim_value {line : List UInt8} {linePtr split : ℕ} {key value : List UInt8}
    (h : Holds line linePtr split key value) :
    strAt (trimInPlace line split).1 (trimInPlace line split).2 = value :=
  (strAt_trimInPlace_snd line split).trans h.value

/-- **Scanning a line in place** finds what the line holds. -/
theorem scans (line : List UInt8) : Scans (scanLine line) (confLine (strAt line 0)) := by
  have ht := strAt_trimInPlace_snd line 0
  rw [scanLine, confLine]
  generalize trim (strAt line 0) = t at ht ⊢
  generalize trimInPlace line 0 = p at ht ⊢
  obtain ⟨line, linePtr⟩ := p
  dsimp only at ht ⊢
  -- a line is skipped by its first byte, which the trimmed text begins with
  have hskip : (byteAt line linePtr = 0 ∨ byteAt line linePtr = 0x23 ∨ byteAt line linePtr = 0x5b) ↔
      (t = [] ∨ t.head? = some 0x23 ∨ t.head? = some 0x5b) := by
    rw [← strAt_eq_nil_iff, byteAt_eq_head?, ht]
    cases t <;> simp
  by_cases h : t = [] ∨ t.head? = some 0x23 ∨ t.head? = some 0x5b
  · rw [if_pos (hskip.mpr h), if_pos h]
    exact .skipped line
  rw [if_neg (fun h' => h (hskip.mp h')), if_neg h, List.span_eq_takeWhile_dropWhile]
  cases hchr : strchr line linePtr 0x3d with
  | none =>
    have hmem : (0x3d : UInt8) ∉ t := ht ▸ strchr_eq_none_iff.mp hchr
    have hdrop : t.dropWhile (· ≠ 0x3d) = [] := by
      rw [List.dropWhile_eq_nil_iff]
      exact fun c hc => decide_eq_true (ne_of_mem_of_not_mem hc hmem)
    rw [hdrop]
    exact .noSeparator line
  | some split =>
    obtain ⟨pre, post, heq, hpre, rfl⟩ := strchr_eq_some_iff.mp hchr
    -- the separator becomes the terminator of the key, and the value lies behind it
    have hcut : strAt (terminate line (linePtr + pre.length)) linePtr = pre := by
      rw [strAt_terminate (by omega) (by rw [heq, List.length_append]; omega), heq,
        Nat.add_sub_cancel_left, List.take_left]
    have hrest : strAt (terminate line (linePtr + pre.length)) (linePtr + pre.length + 1) = post := by
      rw [strAt_terminate_of_lt (by omega), Nat.add_assoc,
        strAt_add (by rw [heq, List.length_append, List.length_cons]; omega), heq,
        ← List.drop_drop, List.drop_left]
      rfl
    rw [← ht, heq, takeWhile_ne_append hpre, dropWhile_ne_append hpre]
    exact .entry ⟨by rw [hcut], by rw [hrest], by rw [hcut]; omega⟩

/-- The value of a line has no terminator in it. -/
theorem cstr_value {s key value : List UInt8} (h : confLine (cstr s) = .entry key value) :
    cstr value = value := by
  have hscan := scans (store [] 0 (s ++ [0]))
  rw [strAt_store_zero, h] at hscan
  generalize scanLine (store [] 0 (s ++ [0])) = sc at hscan
  cases hscan with
  | entry hholds =>
    rw [← hholds.trim_value]
    exact cstr_strAt ..

/-- The value is shorter than the line, by the `=` at least. -/
theorem length_value_lt {line key value : List UInt8} (h : confLine line = .entry key value) :
    value.length < line.length := by
  rw [confLine] at h
  split at h
  · cases h
  · rw [List.span_eq_takeWhile_dropWhile] at h
    cases hdrop : (trim line).dropWhile (· ≠ 0x3d) with
    | nil =>
      rw [hdrop] at h
      cases h
    | cons c split =>
      rw [hdrop] at h
      obtain ⟨-, rfl⟩ := ConfLine.entry.inj h
      have hsplit := (List.dropWhile_suffix (l := trim line) (· ≠ 0x3d)).length_le
      rw [hdrop, List.length_cons] at hsplit
      have hvalue := length_trim_le split
      have hline := length_trim_le line
      omega

/-! ## Lines of the text -/

/-- What a loader makes of a string that `fgets` returns, if anything. -/
def confEntry (line : List UInt8) : Option ConfLine :=
  if confLine (cstr line) = .skipped then none else some (confLine (cstr line))

/-- A space behind a string is trimmed away. -/
theorem trim_append_space {c : UInt8} (hc : isspace c = true) (str : List UInt8) :
    trim (str ++ [c]) = trim str := by
  rw [trim_eq_rdropWhile, trim_eq_rdropWhile, List.dropWhile_append]
  split
  · next h =>
    rw [List.isEmpty_iff.mp h, List.dropWhile_cons_of_pos hc]
    rfl
  · exact List.rdropWhile_concat_pos _ _ _ hc

theorem confLine_congr {line line' : List UInt8} (h : trim line = trim line') :
    confLine line = confLine line' := by
  rw [confLine, confLine, h]

/-- The newline at the end of a line is of no account. -/
theorem confEntry_append_newline (line : List UInt8) : confEntry (line ++ [0x0a]) = confEntry line := by
  have hcstr : trim (cstr (line ++ [0x0a])) = trim (cstr line) := by
    rw [cstr, List.takeWhile_append]
    split
    · next h =>
      have hall : cstr line = line := (List.takeWhile_sublist _).eq_of_length h
      have hend : ([0x0a] : List UInt8).takeWhile (· ≠ 0) = [0x0a] := rfl
      rw [hend, trim_append_space rfl, hall]
    · rfl
  rw [confEntry, confEntry, confLine_congr hcstr]

theorem confEntry_nil : confEntry [] = none := rfl

/-- A blank line, a comment or a section. -/
def Skipped (line : List UInt8) : Prop :=
  trim line = [] ∨ (trim line).head? = some 0x23 ∨ (trim line).head? = some 0x5b

instance (line : List UInt8) : Decidable (Skipped line) := inferInstanceAs (Decidable (_ ∨ _ ∨ _))

/-- The text before the first `=`, trimmed. -/
def keyOf (line : List UInt8) : List UInt8 := trim (line.takeWhile (· ≠ 0x3d))

/-- The text behind the first `=`, trimmed. -/
def valueOf (line : List UInt8) : List UInt8 := trim ((line.dropWhile (· ≠ 0x3d)).drop 1)

theorem confLine_of_skipped {line : List UInt8} (h : Skipped line) : confLine line = .skipped := by
  rw [confLine]
  exact if_pos h

/-- The spaces before a string are trimmed away. -/
theorem trim_dropWhile (str : List UInt8) : trim (str.dropWhile isspace) = trim str := by
  rw [trim_eq_rdropWhile, trim_eq_rdropWhile, List.dropWhile_idempotent]

/-- The spaces behind a string are trimmed away. -/
theorem trim_rdropWhile (str : List UInt8) : trim (str.rdropWhile isspace) = trim str := by
  induction str using List.reverseRecOn with
  | nil => rfl
  | append_singleton str c ih =>
    cases hc : isspace c with
    | true => rw [List.rdropWhile_concat_pos _ _ _ hc, ih, trim_append_space hc]
    | false => rw [List.rdropWhile_concat_neg _ _ _ (by simp [hc])]

theorem rdropWhile_append_cons {c : UInt8} (hc : isspace c = false) (pre post : List UInt8) :
    (pre ++ c :: post).rdropWhile isspace = pre ++ c :: post.rdropWhile isspace := by
  induction post using List.reverseRecOn with
  | nil => exact List.rdropWhile_concat_neg _ _ _ (by simp [hc])
  | append_singleton post d ih =>
    rw [← List.cons_append, ← List.append_assoc]
    cases hd : isspace d with
    | true => rw [List.rdropWhile_concat_pos _ _ _ hd, List.rdropWhile_concat_pos _ _ _ hd, ih]
    | false =>
      rw [List.rdropWhile_concat_neg _ _ _ (by simp [hd]), List.rdropWhile_concat_neg _ _ _ (by simp [hd]),
        List.append_assoc, List.cons_append]

/-- Around a byte that is not a space, both sides are trimmed on their own. -/
theorem trim_append_cons {c : UInt8} (hc : isspace c = false) (pre post : List UInt8) :
    trim (pre ++ c :: post) = pre.dropWhile isspace ++ c :: post.rdropWhile isspace := by
  have hfront : (pre ++ c :: post).dropWhile isspace = pre.dropWhile isspace ++ c :: post := by
    rw [List.dropWhile_append]
    split
    · next h => rw [List.isEmpty_iff.mp h, List.dropWhile_cons_of_neg (by simp [hc]), List.nil_append]
    · rfl
  rw [trim_eq_rdropWhile, hfront, rdropWhile_append_cons hc]

/-- **The grammar of a line.** A line with a separator has the texts on its sides for key and value. -/
theorem confLine_of_separator {line : List UInt8} (h : ¬ Skipped line) (hsep : 0x3d ∈ line) :
    confLine line = .entry (keyOf line) (valueOf line) := by
  obtain ⟨pre, post, rfl, hpre⟩ := List.eq_append_cons_of_mem hsep
  have hpre' : (0x3d : UInt8) ∉ pre.dropWhile isspace := fun hmem =>
    hpre ((List.dropWhile_sublist isspace).mem hmem)
  rw [Skipped] at h
  rw [confLine, if_neg h, trim_append_cons rfl, List.span_eq_takeWhile_dropWhile, takeWhile_ne_append hpre',
    dropWhile_ne_append hpre', keyOf, valueOf, takeWhile_ne_append hpre, dropWhile_ne_append hpre]
  dsimp only
  rw [trim_dropWhile, trim_rdropWhile, List.drop_one, List.tail_cons]

end Seekwave
