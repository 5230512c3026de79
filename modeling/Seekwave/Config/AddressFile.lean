import Seekwave.Config.Address
import Seekwave.Lib.Execution
import Seekwave.Vendor.Conf

/-!
# The generated address and its file

`skw_addr_gen_init` keeps the part of the Bluetooth address that it makes up in `skwbdaddr.txt`, in the
directory of the btsnoop file, so that a device has the same address in every session.
`addresses_agree` says what that comes to over any number of sessions, whatever `rand()` gives: an address
that was stored is given by every session, and of those before it was stored none gives another. A file that
was left too short is never repaired: it is made up with the initial bytes.
-/

open Memory

namespace Seekwave

/-! ## The directory -/

/-- `(ch == '/') || (ch == '\\')` -/
def isSeparator (ch : UInt8) : Bool := ch = 0x2f || ch = 0x5c

/-- The loop `for (int i = size - 1; i > 0; i--)`, from `i` on: where it breaks. -/
def lastSeparator (path : List UInt8) : ℕ → Option ℕ
  | 0 => none
  | i + 1 => if isSeparator (byteAt path (i + 1)) then some (i + 1) else lastSeparator path i

/-- `basepath`, from `skw_btsnoop_path`. -/
def basepath (path : List UInt8) : List UInt8 :=
  (lastSeparator path (path.length - 1)).elim [] fun i => path.take i

/-- `filepath`, which is shorter than `PATH_MAX` as `skw_btsnoop_path` is. -/
def addrFilepath (path : List UInt8) : List UInt8 := basepath path ++ chars "/skwbdaddr.txt"

/-- The loop passes what is no separator. -/
theorem lastSeparator_skip {path : List UInt8} {i k : ℕ}
    (h : ∀ j, i < j → j ≤ i + k → isSeparator (byteAt path j) = false) :
    lastSeparator path (i + k) = lastSeparator path i := by
  induction k with
  | zero => rfl
  | succ k ih =>
    have hlast := h (i + k + 1) (by omega) (Nat.le_refl _)
    rw [← Nat.add_assoc, lastSeparator, hlast]
    exact ih fun j hj hle => h j hj (by omega)

/-- **The directory of a file.** It is what stands before the last separator, unless that is the first
character. -/
theorem basepath_append {dir base : List UInt8} {sep : UInt8} (hdir : dir ≠ [])
    (hsep : isSeparator sep = true) (hbase : ∀ b ∈ base, isSeparator b = false) :
    basepath (dir ++ sep :: base) = dir := by
  obtain ⟨n, hn⟩ : ∃ n, dir.length = n + 1 := ⟨dir.length - 1, by
    have := List.length_pos_of_ne_nil hdir
    omega⟩
  have hlen : (dir ++ sep :: base).length - 1 = n + 1 + base.length := by
    rw [List.length_append, List.length_cons]
    omega
  have hskip : ∀ j, n + 1 < j → j ≤ n + 1 + base.length →
      isSeparator (byteAt (dir ++ sep :: base) j) = false := by
    intro j hj hle
    obtain ⟨m, rfl⟩ : ∃ m, j = dir.length + (m + 1) := ⟨j - dir.length - 1, by omega⟩
    have hm : m < base.length := by omega
    have hbyte : byteAt (dir ++ sep :: base) (dir.length + (m + 1)) = base[m] := by
      rw [byteAt, List.getD_append_right _ _ _ _ (Nat.le_add_right _ _)]
      simp [hm]
    rw [hbyte]
    exact hbase _ (List.getElem_mem hm)
  have hat : byteAt (dir ++ sep :: base) (n + 1) = sep := by
    rw [byteAt, ← hn, List.getD_append_right _ _ _ _ (Nat.le_refl _)]
    simp
  rw [basepath, hlen, lastSeparator_skip hskip, lastSeparator, hat, hsep, if_pos rfl, Option.elim_some,
    ← hn, List.take_left]

/-- Without a separator behind the first character it is the root. -/
theorem basepath_eq_nil {path : List UInt8} (h : ∀ b ∈ path.tail, isSeparator b = false) :
    basepath path = [] := by
  have hskip : lastSeparator path (0 + (path.length - 1)) = lastSeparator path 0 := by
    refine lastSeparator_skip fun j hj hle => ?_
    obtain ⟨m, rfl⟩ : ∃ m, j = m + 1 := ⟨j - 1, by omega⟩
    cases path with
    | nil => exact absurd hle (by simp)
    | cons x xs =>
      have hm : m < xs.length := by
        rw [List.length_cons] at hle
        omega
      have hbyte : byteAt (x :: xs) (m + 1) = xs[m] := by simp [byteAt, hm]
      rw [hbyte]
      exact h _ (List.getElem_mem hm)
  rw [Nat.zero_add] at hskip
  rw [basepath, hskip]
  rfl

/-! ## The address -/

/-- The files there are. -/
abbrev Files := List UInt8 → Option (List UInt8)

/-- What the calls of `skw_addr_gen_init` return: `openRead` and `openWrite` are whether the file may be
read, and created; `rand` are the bytes taken of `rand()`, and `written` is how many of them reach the
file. -/
structure AddrResults where
  skwBtsnoopPath : List UInt8
  openRead : Bool
  openWrite : Bool
  rand : Block 3
  written : ℕ

theorem length_take_three (content : List UInt8) : 0 + (content.take 3).length ≤ 3 := by
  rw [Nat.zero_add]
  exact List.length_take_le 3 content

/-- `fread(bdaddr_lap, 3, 1, fp)`. A file that is too short leaves the rest as it was. -/
def freadLap (lap : Block 3) (content : List UInt8) : Block 3 :=
  lap.store 0 (content.take 3) (length_take_three content)

/-- `skw_addr_gen_init`. -/
def skwAddrGenInit (files : Files) (addr : Bdaddr) (r : AddrResults) : Files × Bdaddr :=
  let filepath := addrFilepath r.skwBtsnoopPath
  match if r.openRead then files filepath else none with
  | some content => (files, { addr with lap := freadLap addr.lap content })
  | none =>
    if r.openWrite then
      (Function.update files filepath (some (r.rand.cells.take r.written)), { addr with lap := r.rand })
    else (files, { addr with valid := false })

/-- What happens to the address: the process is started anew, or `init` is called in it. -/
inductive AddrEvent
  | start
  | init (r : AddrResults)

/-- One of them. What is given out is what `skw_addr_get` writes until the next. -/
inductive AddrStep : Files × Bdaddr → AddrEvent → List (List UInt8) → Files × Bdaddr → Prop
  | start {files : Files} {addr : Bdaddr} : AddrStep (files, addr) .start [] (files, .initial)
  | init {files : Files} {addr : Bdaddr} (r : AddrResults) :
      AddrStep (files, addr) (.init r) [skwAddrGet (skwAddrGenInit files addr r).2]
        (skwAddrGenInit files addr r)

/-- Sessions one after the other, from the start of a process. -/
abbrev AddrRun (files : Files) (es : List AddrEvent) (os : List (List UInt8)) (s : Files × Bdaddr) :
    Prop :=
  Execution AddrStep (files, .initial) es os s

/-- The calls find their file at `filepath`, may read it if it is there, and write it whole if they create
it. -/
def FindsFile (filepath : List UInt8) (es : List AddrEvent) : Prop :=
  ∀ r, .init r ∈ es → addrFilepath r.skwBtsnoopPath = filepath ∧ r.openRead = true ∧ 3 ≤ r.written

/-- What a file with this content makes of the address. -/
def storedLap (content : List UInt8) : List UInt8 :=
  content.take 3 ++ Bdaddr.initial.lap.cells.drop content.length

section Lap

variable {files : Files} {addr : Bdaddr} {r : AddrResults} {content : List UInt8}

theorem cells_freadLap (lap : Block 3) (content : List UInt8) :
    (freadLap lap content).cells = content.take 3 ++ lap.cells.drop (content.take 3).length := by
  show store lap.cells 0 (content.take 3) = _
  rw [store_of_le (Nat.zero_le _), List.take_zero, List.nil_append, Nat.zero_add]

/-- Reading the file a second time changes nothing. -/
theorem cells_freadLap_initial (content : List UInt8) :
    (freadLap Bdaddr.initial.lap content).cells = storedLap content := by
  rw [cells_freadLap, storedLap, List.length_take]
  by_cases hlen : 3 ≤ content.length
  · rw [Nat.min_eq_left hlen, List.drop_of_length_le (by rw [Bdaddr.initial.lap.size]),
      List.drop_of_length_le (by rw [Bdaddr.initial.lap.size]; exact hlen)]
  · rw [Nat.min_eq_right (by omega)]

theorem cells_freadLap_of_stored {lap : Block 3}
    (h : lap = Bdaddr.initial.lap ∨ lap.cells = storedLap content) :
    (freadLap lap content).cells = storedLap content := by
  rcases h with rfl | h
  · exact cells_freadLap_initial content
  · rw [cells_freadLap, h, storedLap, List.drop_left]

/-- The file is read, if it is there and may be. -/
theorem skwAddrGenInit_read (hopen : r.openRead = true)
    (hfile : files (addrFilepath r.skwBtsnoopPath) = some content) :
    skwAddrGenInit files addr r = (files, { addr with lap := freadLap addr.lap content }) := by
  rw [skwAddrGenInit, hopen]
  simp only [if_true, hfile]

/-- Without a file one is created, or the address is given up. -/
theorem skwAddrGenInit_create (hopen : r.openRead = true)
    (hfile : files (addrFilepath r.skwBtsnoopPath) = none) :
    skwAddrGenInit files addr r =
      if r.openWrite then
        (Function.update files (addrFilepath r.skwBtsnoopPath) (some (r.rand.cells.take r.written)),
          { addr with lap := r.rand })
      else (files, { addr with valid := false }) := by
  rw [skwAddrGenInit, hopen]
  simp only [if_true, hfile]

end Lap

/-! ## Sessions -/

section Sessions

variable {filepath : List UInt8} {files : Files} {es : List AddrEvent} {os : List (List UInt8)}
  {s : Files × Bdaddr}

/-- The file is there, and the address is the initial one or that of the file. -/
structure AddrStored (filepath content : List UInt8) (os : List (List UInt8)) (s : Files × Bdaddr) : Prop where
  file : s.1 filepath = some content
  valid : s.2.valid = true
  lap : s.2.lap = Bdaddr.initial.lap ∨ s.2.lap.cells = storedLap content
  given : ∀ o ∈ os, o = storedLap content

theorem AddrStored.step {content : List UInt8} {os o : List (List UInt8)} {s t : Files × Bdaddr} {e : AddrEvent}
    (h : AddrStored filepath content os s) (hstep : AddrStep s e o t) (he : FindsFile filepath [e]) :
    AddrStored filepath content (os ++ o) t := by
  cases hstep with
  | start =>
    rw [List.append_nil]
    exact ⟨h.file, rfl, .inl rfl, h.given⟩
  | init r =>
    obtain ⟨hpath, hopen, -⟩ := he r (List.mem_singleton_self _)
    rw [skwAddrGenInit_read hopen (by rw [hpath]; exact h.file)]
    have hlap := cells_freadLap_of_stored h.lap
    refine ⟨h.file, h.valid, .inr hlap, fun o ho => ?_⟩
    rcases List.mem_append.mp ho with ho | ho
    · exact h.given o ho
    · rw [List.mem_singleton.mp ho, skwAddrGet, if_pos h.valid]
      exact hlap

theorem findsFile_append {es fs : List AddrEvent} :
    FindsFile filepath (es ++ fs) ↔ FindsFile filepath es ∧ FindsFile filepath fs := by
  constructor
  · exact fun h => ⟨fun r hr => h r (List.mem_append_left _ hr), fun r hr => h r (List.mem_append_right _ hr)⟩
  · rintro ⟨hes, hfs⟩ r hr
    exact (List.mem_append.mp hr).elim (hes r) (hfs r)

/-- The file is not there yet and no address is given, or it is and its address is the only one. -/
def AddrUnique (filepath : List UInt8) (os : List (List UInt8)) (s : Files × Bdaddr) : Prop :=
  (s.1 filepath = none ∧ ∀ o ∈ os, o = []) ∨
    ∃ content, 3 ≤ content.length ∧ s.1 filepath = some content ∧ ∀ o ∈ os, o = [] ∨ o = content.take 3

theorem AddrUnique.step {os o : List (List UInt8)} {s t : Files × Bdaddr} {e : AddrEvent}
    (h : AddrUnique filepath os s) (hstep : AddrStep s e o t) (he : FindsFile filepath [e]) :
    AddrUnique filepath (os ++ o) t := by
  cases hstep with
  | start =>
    rw [List.append_nil]
    exact h
  | @init files addr r =>
    obtain ⟨hpath, hopen, hwritten⟩ := he r (List.mem_singleton_self _)
    rcases h with ⟨hfile, hgiven⟩ | ⟨content, hlen, hfile, hgiven⟩
    · -- the file has not been there, and this session may create it
      have hfile : files filepath = none := hfile
      rw [skwAddrGenInit_create hopen (by rw [hpath]; exact hfile), hpath]
      by_cases hwrite : r.openWrite = true
      · -- the file is created with the bytes that are given out
        rw [if_pos hwrite]
        have hcells : r.rand.cells.take r.written = r.rand.cells :=
          List.take_of_length_le (by rw [r.rand.size]; exact hwritten)
        refine .inr ⟨r.rand.cells, Nat.le_of_eq r.rand.size.symm, ?_, fun o ho => ?_⟩
        · rw [hcells]
          exact Function.update_self ..
        · rcases List.mem_append.mp ho with ho | ho
          · exact .inl (hgiven o ho)
          · rw [List.mem_singleton.mp ho, skwAddrGet, List.take_of_length_le (Nat.le_of_eq r.rand.size)]
            split
            · exact .inr rfl
            · exact .inl rfl
      · rw [if_neg hwrite]
        refine .inl ⟨hfile, fun o ho => ?_⟩
        rcases List.mem_append.mp ho with ho | ho
        · exact hgiven o ho
        · rw [List.mem_singleton.mp ho]
          rfl
    · -- the file is there, and its first three bytes are given
      have hfile : files filepath = some content := hfile
      rw [skwAddrGenInit_read hopen (by rw [hpath]; exact hfile)]
      refine .inr ⟨content, hlen, hfile, fun o ho => ?_⟩
      rcases List.mem_append.mp ho with ho | ho
      · exact hgiven o ho
      · rw [List.mem_singleton.mp ho, skwAddrGet]
        split
        · right
          rw [cells_freadLap, List.length_take, Nat.min_eq_left hlen,
            List.drop_of_length_le (Nat.le_of_eq addr.lap.size), List.append_nil]
        · exact .inl rfl

/-- **One address for a device.** Over any sessions, each of a process of its own or not, in which the file
can be read when it is there and is written whole when it is created: if it was there at first, every
session gives the address in it, the bytes that it is short of being the initial ones, and leaves it alone;
if it was not, no two sessions give different addresses, whatever `rand()` yields and however often the file
could not be created. -/
theorem addresses_agree (run : AddrRun files es os s) (hfind : FindsFile filepath es) :
    (∀ content, files filepath = some content →
      s.1 filepath = some content ∧ ∀ o ∈ os, o = storedLap content) ∧
    (files filepath = none → ∃ address : List UInt8, address.length = 3 ∧ ∀ o ∈ os, o = [] ∨ o = address) := by
  constructor
  · intro content hfile
    have hstored := run.invariant
      (I := fun es os s => FindsFile filepath es → AddrStored filepath content os s)
      (fun _ => ⟨hfile, rfl, .inl rfl, fun o ho => absurd ho List.not_mem_nil⟩)
      (fun es os s e o t _ ih hstep h =>
        (ih (findsFile_append.mp h).1).step hstep (findsFile_append.mp h).2) hfind
    exact ⟨hstored.file, hstored.given⟩
  · intro hfile
    have hunique := run.invariant (I := fun es os s => FindsFile filepath es → AddrUnique filepath os s)
      (fun _ => .inl ⟨hfile, fun o ho => absurd ho List.not_mem_nil⟩)
      (fun es os s e o t _ ih hstep h =>
        (ih (findsFile_append.mp h).1).step hstep (findsFile_append.mp h).2) hfind
    rcases hunique with ⟨-, hgiven⟩ | ⟨content, hlen, -, hgiven⟩
    · exact ⟨[0, 0, 0], rfl, fun o ho => .inl (hgiven o ho)⟩
    · exact ⟨content.take 3, List.length_take_of_le hlen, hgiven⟩

end Sessions

/-- The path of the btsnoop file, and the bytes of two sessions. -/
def addrResults (rand : Block 3) : AddrResults := ⟨chars "/data/hci.cfa", true, true, rand, 3⟩

/-- Two sessions, the first of which makes up an address. -/
theorem addresses_agree_twoSessions : ∃ os s,
    AddrRun (fun _ => none) [.init (addrResults ⟨[1, 2, 3], rfl⟩), .start,
      .init (addrResults ⟨[4, 5, 6], rfl⟩)] os s ∧ os = [[1, 2, 3], [1, 2, 3]] ∧
    ∃ address : List UInt8, address.length = 3 ∧ ∀ o ∈ os, o = [] ∨ o = address := by
  have h₁ := (@Execution.start _ _ _ AddrStep ((fun _ => none : Files), Bdaddr.initial)).snoc
    (.init (addrResults ⟨[1, 2, 3], rfl⟩))
  have h₂ := h₁.snoc .start
  have h₃ := h₂.snoc (.init (addrResults ⟨[4, 5, 6], rfl⟩))
  refine ⟨_, _, h₃, by decide, (@addresses_agree (chars "/data/skwbdaddr.txt") _ _ _ _ h₃ ?_).2 rfl⟩
  intro r hr
  simp only [List.mem_append, List.mem_singleton, List.not_mem_nil, false_or, reduceCtorEq, or_false,
    AddrEvent.init.injEq] at hr
  rcases hr with rfl | rfl
  · exact ⟨by decide, rfl, Nat.le_refl 3⟩
  · exact ⟨by decide, rfl, Nat.le_refl 3⟩

end Seekwave
