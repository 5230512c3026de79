import Seekwave.Lib.Loop
import Seekwave.Lib.Memory

/-!
# Strings in memory

A pointer is an index of the memory, and `strAt m p` the string that it points to. Writing a terminator
cuts the strings in whose range it is, and leaves those alone that begin behind it. `skipPass` and
`backPass` are the bodies of the two loops that trim a string in place: the first moves a pointer over
the bytes of a class, the second moves one back from the end, not beyond the beginning.
-/

namespace Memory

/-- The string at `p`. -/
def strAt (m : List UInt8) (p : ℕ) : List UInt8 := cstr (m.drop p)

/-- `*p = '\0'`. -/
def terminate (m : List UInt8) (p : ℕ) : List UInt8 := store m p [0]

/-- `strchr`, for a byte other than the terminator. -/
def strchr (m : List UInt8) (p : ℕ) (c : UInt8) : Option ℕ :=
  if c ∈ strAt m p then some (p + ((strAt m p).takeWhile (· ≠ c)).length) else none

variable {m : List UInt8} {p q : ℕ}

theorem cstr_strAt (m : List UInt8) (p : ℕ) : cstr (strAt m p) = strAt m p :=
  List.takeWhile_idem

/-- A string from its first byte on. -/
theorem strAt_step (m : List UInt8) (p : ℕ) :
    strAt m p = if byteAt m p = 0 then [] else byteAt m p :: strAt m (p + 1) := by
  rw [strAt, byteAt, List.getD_eq_getElem?_getD]
  by_cases hp : p < m.length
  · rw [List.drop_eq_getElem_cons hp, List.getElem?_eq_getElem hp, Option.getD_some, cstr,
      List.takeWhile_cons, strAt, cstr]
    split <;> simp_all
  · rw [List.drop_eq_nil_of_le (by omega), List.getElem?_eq_none (by omega)]
    rfl

/-- A string is its bytes and the terminator behind them. -/
theorem strAt_eq_iff {s : List UInt8} :
    strAt m p = s ↔ (∀ i (h : i < s.length), byteAt m (p + i) = s[i] ∧ s[i] ≠ 0) ∧
      byteAt m (p + s.length) = 0 := by
  induction s generalizing p with
  | nil =>
    rw [strAt_step]
    simp
  | cons c s ih =>
    have hsplit : strAt m p = c :: s ↔ (byteAt m p = c ∧ c ≠ 0) ∧ strAt m (p + 1) = s := by
      rw [strAt_step]
      split
      · next h => simp [h, eq_comm]
      · next h =>
        rw [List.cons.injEq]
        exact and_congr_left fun _ => ⟨fun hc => ⟨hc, hc ▸ h⟩, And.left⟩
    rw [hsplit, ih]
    have hcell : ∀ i, p + 1 + i = p + (i + 1) := fun i => by omega
    constructor
    · rintro ⟨h0, hs, hend⟩
      refine ⟨fun i hi => ?_, hcell s.length ▸ hend⟩
      cases i with
      | zero => exact h0
      | succ i => exact hcell i ▸ hs i (by simpa using hi)
    · rintro ⟨hs, hend⟩
      refine ⟨hs 0 (by simp), fun i hi => ?_, (hcell s.length).symm ▸ hend⟩
      exact (hcell i).symm ▸ hs (i + 1) (by simpa using hi)

theorem byteAt_strAt {i : ℕ} (hi : i < (strAt m p).length) :
    byteAt m (p + i) = (strAt m p)[i] ∧ (strAt m p)[i] ≠ 0 :=
  (strAt_eq_iff.mp rfl).1 i hi

theorem byteAt_strAt_length (m : List UInt8) (p : ℕ) : byteAt m (p + (strAt m p).length) = 0 :=
  (strAt_eq_iff.mp rfl).2

theorem strAt_eq_nil_iff : strAt m p = [] ↔ byteAt m p = 0 := by
  rw [strAt_eq_iff]
  simp

/-- The first byte, which is the terminator for the empty string. -/
theorem byteAt_eq_head? (m : List UInt8) (p : ℕ) : byteAt m p = (strAt m p).head?.getD 0 := by
  rw [strAt_step]
  split
  · next h => rw [h]; rfl
  · rfl

/-- A string from a later byte on. -/
theorem strAt_add {k : ℕ} (hk : k ≤ (strAt m p).length) : strAt m (p + k) = (strAt m p).drop k := by
  rw [strAt_eq_iff]
  refine ⟨fun i hi => ?_, ?_⟩
  · rw [List.length_drop] at hi
    rw [List.getElem_drop, Nat.add_assoc]
    exact byteAt_strAt (by omega)
  · rw [List.length_drop, Nat.add_assoc, Nat.add_sub_cancel' hk]
    exact byteAt_strAt_length m p

/-- A cell after one was stored. -/
theorem byteAt_store_singleton (m : List UInt8) (q : ℕ) (b : UInt8) (i : ℕ) :
    byteAt (store m q [b]) i = if i = q then b else byteAt m i := by
  have hcells : store m q [b] = (m ++ List.replicate (q - m.length) 0).take q ++ b :: m.drop (q + 1) := by
    rw [store, List.append_assoc]
    rfl
  have hlen : ((m ++ List.replicate (q - m.length) 0).take q).length = q := by
    rw [List.length_take, List.length_append, List.length_replicate]
    omega
  rw [byteAt, byteAt, List.getD_eq_getElem?_getD, List.getD_eq_getElem?_getD, hcells]
  rcases Nat.lt_trichotomy i q with hlt | rfl | hgt
  · rw [List.getElem?_append_left (by omega), List.getElem?_take_of_lt hlt, if_neg (by omega)]
    by_cases hi : i < m.length
    · rw [List.getElem?_append_left hi]
    · rw [List.getElem?_append_right (by omega), List.getElem?_replicate_of_lt (by omega),
        List.getElem?_eq_none (by omega)]
      rfl
  · rw [List.getElem?_append_right (by omega), hlen, if_pos rfl, Nat.sub_self]
    rfl
  · have hi : i - q = i - q - 1 + 1 := by omega
    rw [List.getElem?_append_right (by omega), hlen, if_neg (by omega), hi, List.getElem?_cons_succ,
      List.getElem?_drop]
    congr 2
    omega

theorem byteAt_terminate (m : List UInt8) (q i : ℕ) :
    byteAt (terminate m q) i = if i = q then 0 else byteAt m i :=
  byteAt_store_singleton m q 0 i

/-- **Cutting a string.** A terminator within a string leaves what is before it. -/
theorem strAt_terminate (hpq : p ≤ q) (hq : q ≤ p + (strAt m p).length) :
    strAt (terminate m q) p = (strAt m p).take (q - p) := by
  have hlen : ((strAt m p).take (q - p)).length = q - p := by
    rw [List.length_take]
    omega
  rw [strAt_eq_iff]
  refine ⟨fun i hi => ?_, ?_⟩
  · rw [byteAt_terminate, if_neg (by omega), List.getElem_take]
    exact byteAt_strAt (by omega)
  · rw [byteAt_terminate, if_pos (by omega)]

/-- A string behind the terminator is left as it is. -/
theorem strAt_terminate_of_lt (h : q < p) : strAt (terminate m q) p = strAt m p := by
  rw [strAt_eq_iff]
  refine ⟨fun i hi => ?_, ?_⟩
  · rw [byteAt_terminate, if_neg (by omega)]
    exact byteAt_strAt hi
  · rw [byteAt_terminate, if_neg (by omega)]
    exact byteAt_strAt_length m p

theorem cstr_cstr (s : List UInt8) : cstr (cstr s) = cstr s := List.takeWhile_idem

theorem zero_notMem_cstr (s : List UInt8) : 0 ∉ cstr s := by
  intro h
  simpa using List.mem_takeWhile_imp h

/-- Bytes without a terminator are a string together with what follows them. -/
theorem cstr_append_of_notMem {s : List UInt8} (h : 0 ∉ s) (rest : List UInt8) :
    cstr (s ++ rest) = s ++ cstr rest :=
  List.takeWhile_append_of_pos fun _ hc => decide_eq_true (ne_of_mem_of_not_mem hc h)

theorem cstr_of_notMem {s : List UInt8} (h : 0 ∉ s) : cstr s = s :=
  List.takeWhile_eq_self_iff.mpr fun _ hc => decide_eq_true (ne_of_mem_of_not_mem hc h)

/-- A string ends with its first terminator. -/
theorem cstr_append_zero (s rest : List UInt8) : cstr (s ++ 0 :: rest) = cstr s := by
  induction s with
  | nil => rfl
  | cons c s ih =>
    rw [cstr, cstr, List.cons_append, List.takeWhile_cons, List.takeWhile_cons]
    split
    · exact congrArg (c :: ·) ih
    · rfl

/-- The string that is stored at the front, with its terminator behind it. -/
theorem strAt_store_zero (m s : List UInt8) : strAt (store m 0 (s ++ [0])) 0 = cstr s := by
  rw [strAt, List.drop_zero, store_of_le (Nat.zero_le _), List.take_zero, List.nil_append,
    List.append_assoc, List.singleton_append, cstr_append_zero]

/-! ## Searching -/

theorem takeWhile_ne_append {c : UInt8} {pre : List UInt8} (h : c ∉ pre) (post : List UInt8) :
    (pre ++ c :: post).takeWhile (· ≠ c) = pre := by
  have hpre : ∀ a ∈ pre, decide (a ≠ c) = true := fun a ha => decide_eq_true (ne_of_mem_of_not_mem ha h)
  rw [List.takeWhile_append_of_pos hpre, List.takeWhile_cons_of_neg (by simp), List.append_nil]

theorem dropWhile_ne_append {c : UInt8} {pre : List UInt8} (h : c ∉ pre) (post : List UInt8) :
    (pre ++ c :: post).dropWhile (· ≠ c) = c :: post := by
  have hsplit := @List.takeWhile_append_dropWhile _ (fun a => decide (a ≠ c)) (pre ++ c :: post)
  rw [takeWhile_ne_append h] at hsplit
  exact List.append_cancel_left hsplit

/-- `strchr` finds the first byte of its kind: the string is cut there, and the rest begins behind it. -/
theorem strchr_eq_some_iff {c : UInt8} {r : ℕ} :
    strchr m p c = some r ↔ ∃ pre post, strAt m p = pre ++ c :: post ∧ c ∉ pre ∧ r = p + pre.length := by
  rw [strchr]
  constructor
  · intro h
    split at h
    · next hc =>
      obtain ⟨pre, post, heq, hpre⟩ := List.eq_append_cons_of_mem hc
      refine ⟨pre, post, heq, hpre, ?_⟩
      rw [← Option.some.inj h, heq, takeWhile_ne_append hpre]
    · exact absurd h nofun
  · rintro ⟨pre, post, heq, hpre, rfl⟩
    have hc : c ∈ strAt m p := by
      rw [heq]
      simp
    rw [if_pos hc, heq, takeWhile_ne_append hpre]

theorem strchr_eq_none_iff {c : UInt8} : strchr m p c = none ↔ c ∉ strAt m p := by
  rw [strchr]
  split <;> simp_all

/-! ## The loops of a trim -/

section Trim

variable (space : UInt8 → Bool)

/-- One pass of `while (space(*str)) ++str`. -/
def skipPass (m : List UInt8) (str : ℕ) : ℕ ⊕ ℕ :=
  if space (byteAt m str) = true then .inl (str + 1) else .inr str

/-- One pass of `while (end > str && space(*end)) --end`. -/
def backPass (m : List UInt8) (str last : ℕ) : ℕ ⊕ ℕ :=
  if str < last ∧ space (byteAt m last) = true then .inl (last - 1) else .inr last

variable {space}

/-- The terminator, and whatever is behind the memory, ends the first loop. -/
theorem skipPass_dec (h0 : space 0 = false) (str str' : ℕ) (h : skipPass space m str = .inl str') :
    m.length - str' < m.length - str := by
  rw [skipPass] at h
  split at h
  · next hspace =>
    obtain rfl := Sum.inl.inj h
    have hlt : str < m.length := by
      by_contra hge
      rw [byteAt, List.getD_eq_getElem?_getD, List.getElem?_eq_none (by omega), Option.getD_none,
        h0] at hspace
      exact absurd hspace (by decide)
    omega
  · cases h

theorem backPass_dec (str last last' : ℕ) (h : backPass space m str last = .inl last') :
    last' < last := by
  rw [backPass] at h
  split at h
  · obtain rfl := Sum.inl.inj h
    omega
  · exact absurd h nofun

/-- The first loop stops at the first byte of the string that is of another class. -/
theorem returns_skipPass (h0 : space 0 = false) (p : ℕ) :
    Loop.Returns (skipPass space m) p (p + ((strAt m p).takeWhile space).length) := by
  induction hs : strAt m p generalizing p with
  | nil =>
    refine .leave ?_
    rw [skipPass, strAt_eq_nil_iff.mp hs, h0]
    rfl
  | cons c s ih =>
    have hc : byteAt m p = c := by rw [byteAt_eq_head?, hs]; rfl
    have hnext : strAt m (p + 1) = s := by
      rw [strAt_add (by rw [hs, List.length_cons]; omega), hs]
      rfl
    rw [List.takeWhile_cons]
    cases hspace : space c with
    | true =>
      have hlen : p + (c :: s.takeWhile space).length = p + 1 + (s.takeWhile space).length := by
        rw [List.length_cons]
        omega
      rw [if_pos rfl, hlen]
      exact .again (by rw [skipPass, hc, if_pos hspace]) (ih (p + 1) hnext)
    | false =>
      refine .leave ?_
      rw [skipPass, hc, hspace]
      rfl

/-- The second loop stops at the last byte of the string that is of another class, or at the first of
all, which is. -/
theorem returns_backPass {t : List UInt8} (ht : t ≠ []) (hhead : space (t.head ht) = false)
    (hcells : ∀ i (h : i < t.length), byteAt m (p + i) = t[i]) :
    Loop.Returns (backPass space m p) (p + t.length - 1) (p + (t.rdropWhile space).length - 1) := by
  induction t using List.reverseRecOn with
  | nil => exact absurd rfl ht
  | append_singleton t c ih =>
    have hlen : p + (t ++ [c]).length - 1 = p + t.length := by
      rw [List.length_append, List.length_singleton]
      omega
    have hc : byteAt m (p + t.length) = c := by
      rw [hcells t.length (by simp)]
      simp
    rw [hlen]
    by_cases hnil : t = []
    · subst hnil
      have hspace : space c = false := hhead
      rw [List.rdropWhile_concat_neg _ _ _ (by simp [hspace])]
      exact .leave (by rw [backPass, if_neg (by simp)]; rfl)
    · have hpos := List.length_pos_iff.mpr hnil
      cases hspace : space c with
      | true =>
        rw [List.rdropWhile_concat_pos _ _ _ hspace]
        refine .again ?_ (ih hnil ?_ fun i hi => ?_)
        · rw [backPass, if_pos ⟨by omega, by rw [hc, hspace]⟩]
        · rwa [List.head_append_of_ne_nil hnil] at hhead
        · rw [hcells i (by rw [List.length_append]; omega), List.getElem_append_left hi]
      | false =>
        rw [List.rdropWhile_concat_neg _ _ _ (by simp [hspace]), hlen]
        exact .leave (by rw [backPass, if_neg (by simp [hc, hspace])])

end Trim

/-! ## Dropping the first byte -/

/-- One pass of `while (s[i] != '\0') { s[i] = s[i + 1]; i++; }`. -/
def shiftPass : List UInt8 × ℕ → (List UInt8 × ℕ) ⊕ List UInt8
  | (m, i) => if byteAt m i = 0 then .inr m else .inl (store m i [byteAt m (i + 1)], i + 1)

theorem lt_length_of_byteAt {i : ℕ} (h : byteAt m i ≠ 0) : i < m.length := by
  by_contra hge
  rw [byteAt, List.getD_eq_getElem?_getD, List.getElem?_eq_none (by omega)] at h
  exact h rfl

theorem shiftPass_dec (s s' : List UInt8 × ℕ) (h : shiftPass s = .inl s') :
    s'.1.length - s'.2 < s.1.length - s.2 := by
  obtain ⟨m, i⟩ := s
  rw [shiftPass] at h
  split at h
  · exact absurd h nofun
  · next hne =>
    obtain rfl := Sum.inl.inj h
    have hlt := lt_length_of_byteAt hne
    have hlen : (store m i [byteAt m (i + 1)]).length = m.length := length_store_of_le hlt
    dsimp only
    omega

/-- The loop drops the first byte of the string at `i`, and leaves the cells before it alone. -/
theorem returns_shiftPass (m : List UInt8) (i : ℕ) :
    ∃ m', Loop.Returns shiftPass (m, i) m' ∧ strAt m' i = (strAt m i).tail ∧
      ∀ j < i, byteAt m' j = byteAt m j := by
  induction hs : strAt m i generalizing m i with
  | nil =>
    have h0 := strAt_eq_nil_iff.mp hs
    exact ⟨m, .leave (by rw [shiftPass, if_pos h0]), hs, fun _ _ => rfl⟩
  | cons c s ih =>
    have hc : byteAt m i ≠ 0 := by
      rw [Ne, ← strAt_eq_nil_iff, hs]
      exact List.cons_ne_nil c s
    have hnext : strAt m (i + 1) = s := by
      rw [strAt_add (by rw [hs, List.length_cons]; omega), hs]
      rfl
    have hstored : strAt (store m i [byteAt m (i + 1)]) (i + 1) = s := by
      rw [← hnext, strAt_eq_iff]
      refine ⟨fun j hj => ?_, ?_⟩
      · rw [byteAt_store_singleton, if_neg (by omega)]
        exact byteAt_strAt hj
      · rw [byteAt_store_singleton, if_neg (by omega)]
        exact byteAt_strAt_length m (i + 1)
    obtain ⟨m', hret, htail, hbefore⟩ := ih _ _ hstored
    refine ⟨m', .again (by rw [shiftPass, if_neg hc]) hret, ?_, fun j hj => ?_⟩
    · -- the cell at `i` holds the byte that followed it
      rw [List.tail_cons, ← hnext, strAt_step, hbefore i (Nat.lt_succ_self i), byteAt_store_singleton,
        if_pos rfl, htail, strAt_step m (i + 1)]
      split
      · rfl
      · next hne =>
        rw [← hnext, strAt_step m (i + 1), if_neg hne, List.tail_cons]
    · rw [hbefore j (by omega), byteAt_store_singleton, if_neg (by omega)]

end Memory
