import Seekwave.Vendor.DeviceNodes

/-!
# The settings of the configuration

`load_skwbt_stack_conf` compares the key of each line with eight names, one after the other, and assigns
the global of the one it finds. Four of the flags are set to what the value says; three are assigned only
where the value is the opposite of their initial value, and a later line does not undo that.
`lastWins_iff` says, for each setting, for which files the last line gives its value.
-/

open Lines Memory

namespace Seekwave

/-- The globals that `load_skwbt_stack_conf` sets. -/
structure StackGlobals where
  btsnoopLogEn : Bool
  skwBtsnoopPath : List UInt8
  btsnoopSaveLog : Bool
  btcpLogEn : Bool
  skwlogSlice : Bool
  skwdriverlogEn : Bool
  skwbtuartonly : Bool
  skwbtNoSleep : Bool
deriving DecidableEq, Repr

/-- The globals of a program that starts. -/
def StackGlobals.initial : StackGlobals :=
  ⟨false, List.replicate 1024 0, false, false, false, true, true, false⟩

/-- The settings, in the order of the branches. -/
inductive Setting
  | skwBtsnoopDump
  | btSnoopFileName
  | btSnoopSaveLog
  | skwBtcplog
  | skwLogSlice
  | skwBtDrvlog
  | skwBtUartOnly
  | skwBtNoSleep
deriving DecidableEq, Repr

/-- A branch that assigns `TRUE` for the value `true`, and `FALSE` for any other. -/
def assignBoth (value : List UInt8) (set : Bool → StackGlobals) : StackGlobals :=
  if value = chars "true" then set true else set false

/-- A branch that assigns for one value only. -/
def assignFor (word value : List UInt8) (g set : StackGlobals) : StackGlobals :=
  if value = word then set else g

namespace Setting

def key : Setting → List UInt8
  | skwBtsnoopDump => chars "SkwBtsnoopDump"
  | btSnoopFileName => chars "BtSnoopFileName"
  | btSnoopSaveLog => chars "BtSnoopSaveLog"
  | skwBtcplog => chars "SkwBtcplog"
  | skwLogSlice => chars "SkwLogSlice"
  | skwBtDrvlog => chars "SkwBtDrvlog"
  | skwBtUartOnly => chars "SkwBtUartOnly"
  | skwBtNoSleep => chars "SkwBtNoSleep"

/-- The branch of a setting. `sprintf` of a string copies it. -/
def assign (g : StackGlobals) (value : List UInt8) : Setting → StackGlobals
  | skwBtsnoopDump => assignBoth value fun b => { g with btsnoopLogEn := b }
  | btSnoopFileName => { g with skwBtsnoopPath := strcpy g.skwBtsnoopPath value }
  | btSnoopSaveLog => assignBoth value fun b => { g with btsnoopSaveLog := b }
  | skwBtcplog => assignBoth value fun b => { g with btcpLogEn := b }
  | skwLogSlice => assignBoth value fun b => { g with skwlogSlice := b }
  | skwBtDrvlog => assignFor (chars "false") value g { g with skwdriverlogEn := false }
  | skwBtUartOnly => assignFor (chars "false") value g { g with skwbtuartonly := false }
  | skwBtNoSleep => assignFor (chars "true") value g { g with skwbtNoSleep := true }

end Setting

def settings : List Setting :=
  [.skwBtsnoopDump, .btSnoopFileName, .btSnoopSaveLog, .skwBtcplog, .skwLogSlice, .skwBtDrvlog,
    .skwBtUartOnly, .skwBtNoSleep]

/-! ## The loader -/

/-- The chain of branches over a line in the buffer, which trims the key anew for each name. -/
def runBranches (linePtr split : ℕ) :
    List Setting → List UInt8 → StackGlobals → List UInt8 × StackGlobals
  | [], line, g => (line, g)
  | s :: rest, line, g =>
    let (line, key) := trimInPlace line linePtr
    if strAt line key = s.key then
      let (line, value) := trimInPlace line split
      (line, s.assign g (strAt line value))
    else runBranches linePtr split rest line g

/-- The loop, over what `fgets` returns, with the buffer `line`. -/
def stackLines : List (List UInt8) → List UInt8 → StackGlobals → StackGlobals
  | [], _, g => g
  | s :: ss, line, g =>
    match scanLine (store line 0 (s ++ [0])) with
    | .skipped line => stackLines ss line g
    | .noSeparator line => stackLines ss line g
    | .entry line linePtr split =>
      let (line, g) := runBranches linePtr split settings line g
      stackLines ss line g

/-- `load_skwbt_stack_conf`, for a file with the given content, if it can be opened, on the memory
`line`. -/
def loadSkwbtStackConf (file : Option (List UInt8)) (line : List UInt8) (g : StackGlobals) : StackGlobals :=
  match file with
  | none => g
  | some content => stackLines (lines lineRoom content) line g

/-! ## The loader on what the lines hold -/

/-- What a line does to the globals. -/
def applyEntry (g : StackGlobals) : ConfLine → StackGlobals
  | .entry key value =>
    match settings.find? fun s => s.key = key with
    | some s => s.assign g value
    | none => g
  | _ => g

/-- The chain of branches takes the first name that is the key. -/
theorem runBranches_eq {line : List UInt8} {linePtr split : ℕ} {key value : List UInt8}
    (hholds : Holds line linePtr split key value) (ss : List Setting) (g : StackGlobals) :
    (runBranches linePtr split ss line g).2 = match ss.find? fun s => s.key = key with
      | some s => s.assign g value
      | none => g := by
  induction ss generalizing line with
  | nil => rfl
  | cons s ss ih =>
    obtain ⟨hkey, hholds'⟩ := hholds.trim_key
    rw [runBranches]
    dsimp only
    rw [hkey]
    by_cases h : key = s.key
    · have hfind : (s :: ss).find? (fun s => s.key = key) = some s :=
        List.find?_cons_of_pos (decide_eq_true h.symm)
      rw [if_pos h, hholds'.trim_value, hfind]
    · have hfind : (s :: ss).find? (fun s => s.key = key) = ss.find? fun s => s.key = key :=
        List.find?_cons_of_neg (by simpa using Ne.symm h)
      rw [if_neg h, ih hholds', hfind]

/-- **The loader, line by line.** Each line is applied to the globals by what it holds. -/
theorem stackLines_eq (ss : List (List UInt8)) (line : List UInt8) (g : StackGlobals) :
    stackLines ss line g = (confLines ss).foldl applyEntry g := by
  induction ss generalizing line g with
  | nil => rfl
  | cons s ss ih =>
    have hscan := scans (store line 0 (s ++ [0]))
    rw [strAt_store_zero] at hscan
    rw [stackLines, confLines_cons, List.foldl_cons]
    generalize scanLine (store line 0 (s ++ [0])) = sc at hscan ⊢
    generalize confLine (cstr s) = cl at hscan ⊢
    cases hscan with
    | skipped line => exact ih line g
    | noSeparator line => exact ih line g
    | entry hholds =>
      dsimp only
      rw [ih, runBranches_eq hholds]
      rfl

/-! ## One setting -/

/-- What a global holds. -/
inductive SettingValue
  | flag (b : Bool)
  | path (name : List UInt8)
deriving DecidableEq, Repr

/-- The three kinds of branches. -/
inductive BranchKind
  | path
  | both
  | single (b : Bool)
deriving DecidableEq, Repr

/-- The word for a flag. -/
def word (b : Bool) : List UInt8 := if b then chars "true" else chars "false"

namespace Setting

/-- The global of a setting. -/
def global (g : StackGlobals) : Setting → SettingValue
  | skwBtsnoopDump => .flag g.btsnoopLogEn
  | btSnoopFileName => .path (strAt g.skwBtsnoopPath 0)
  | btSnoopSaveLog => .flag g.btsnoopSaveLog
  | skwBtcplog => .flag g.btcpLogEn
  | skwLogSlice => .flag g.skwlogSlice
  | skwBtDrvlog => .flag g.skwdriverlogEn
  | skwBtUartOnly => .flag g.skwbtuartonly
  | skwBtNoSleep => .flag g.skwbtNoSleep

/-- What the branch of a setting assigns: the path, both outcomes of a flag, or one. -/
def kind : Setting → BranchKind
  | btSnoopFileName => .path
  | skwBtDrvlog => .single false
  | skwBtUartOnly => .single false
  | skwBtNoSleep => .single true
  | _ => .both

end Setting

namespace BranchKind

/-- What a branch of the kind makes of its global. -/
def step (value : List UInt8) (cur : SettingValue) : BranchKind → SettingValue
  | path => .path (cstr value)
  | both => .flag (value = chars "true")
  | single b => if value = word b then .flag b else cur

/-- What a line gives for a setting of the kind: a path is any text, a flag is `true` or `false`. -/
def given (value : List UInt8) : BranchKind → Option SettingValue
  | path => some (.path (cstr value))
  | _ => if value = word true then some (.flag true)
    else if value = word false then some (.flag false)
    else none

end BranchKind

/-- A branch sets its own global. -/
theorem Setting.global_assign_self (s : Setting) (g : StackGlobals) (value : List UInt8) :
    s.global (s.assign g value) = s.kind.step value (s.global g) := by
  cases s with
  | btSnoopFileName => exact congrArg SettingValue.path (cstr_strcpy _ _)
  | _ =>
    simp only [global, assign, assignBoth, assignFor, kind, BranchKind.step, word]
    split <;> simp_all

/-- A branch leaves the other globals alone. -/
theorem Setting.global_assign_of_ne {s s' : Setting} (h : s' ≠ s) (g : StackGlobals) (value : List UInt8) :
    s.global (s'.assign g value) = s.global g := by
  cases s' <;> simp only [assign, assignBoth, assignFor]
  all_goals
    try split
    all_goals cases s <;> first | rfl | exact absurd rfl h

theorem find?_settings (s : Setting) : settings.find? (fun s' => s'.key = s.key) = some s := by
  cases s <;> decide

/-- The value that a line has for a setting. -/
def valueFor (s : Setting) : ConfLine → Option (List UInt8)
  | .entry key value => if key = s.key then some value else none
  | _ => none

/-- The values that the lines have for a setting. -/
def valuesOf (s : Setting) (es : List ConfLine) : List (List UInt8) := es.filterMap (valueFor s)

/-- A line changes the global of its own setting only. -/
theorem global_applyEntry (s : Setting) (g : StackGlobals) (e : ConfLine) :
    s.global (applyEntry g e) =
      ((valueFor s e).map fun value => s.kind.step value (s.global g)).getD (s.global g) := by
  cases e with
  | skipped => rfl
  | noSeparator => rfl
  | entry key value =>
    rw [valueFor]
    by_cases h : key = s.key
    · subst h
      rw [if_pos rfl, applyEntry, find?_settings]
      exact s.global_assign_self g value
    · rw [if_neg h, applyEntry]
      split
      · next s' hs' =>
        have hkey : s'.key = key := by simpa using List.find?_some hs'
        have hne : s' ≠ s := by
          rintro rfl
          exact h hkey.symm
        exact Setting.global_assign_of_ne hne g value
      · rfl

/-- **One setting.** Its global is made of the values for its key alone. -/
theorem global_foldl (s : Setting) (es : List ConfLine) (g : StackGlobals) :
    s.global (es.foldl applyEntry g) =
      (valuesOf s es).foldl (fun cur value => s.kind.step value cur) (s.global g) := by
  induction es generalizing g with
  | nil => rfl
  | cons e es ih =>
    rw [List.foldl_cons, ih, global_applyEntry, valuesOf, valuesOf, List.filterMap_cons]
    cases valueFor s e <;> rfl

/-- **A value fits.** What a line has for a setting is a string without a terminator in it, and with one
behind it `skw_btsnoop_path` has room for it. -/
theorem value_fits {s : Setting} {content value : List UInt8}
    (h : value ∈ valuesOf s (confLines (lines lineRoom content))) :
    cstr value = value ∧ value.length + 1 ≤ 1024 := by
  obtain ⟨e, he, hvalue⟩ := List.mem_filterMap.mp h
  obtain ⟨l, hl, rfl⟩ := List.mem_map.mp he
  cases hconf : confLine (cstr l) with
  | skipped =>
    rw [hconf] at hvalue
    cases hvalue
  | noSeparator =>
    rw [hconf] at hvalue
    cases hvalue
  | entry key value' =>
    rw [hconf, valueFor] at hvalue
    split at hvalue
    · obtain rfl := Option.some.inj hvalue
      have hlt := length_value_lt hconf
      have hcstr := (List.takeWhile_prefix (l := l) (· ≠ 0)).length_le
      have hroom : l.length ≤ 1023 := length_le_of_mem_lines (Nat.succ_pos 1022) hl
      refine ⟨cstr_value hconf, ?_⟩
      rw [cstr] at hlt
      omega
    · cases hvalue

/-! ## The last line -/

/-- The value that the last of the values gives. -/
def lastGiven (k : BranchKind) (values : List (List UInt8)) : Option SettingValue :=
  (values.filterMap fun value => k.given value).getLast?

/-- When the last value given is what a branch of the kind leaves, from `cur`: always for the path; for a
flag with both outcomes, if no other text follows a last `true`; for a flag with one, if that is the last
value, or none of the values is it and the flag was already as the last one says. -/
def LastHolds (values : List (List UInt8)) (cur : SettingValue) : BranchKind → Prop
  | .path => True
  | .both => lastGiven .both values = some (.flag true) → values.getLast? = some (word true)
  | .single b => ∀ v, lastGiven (.single b) values = some v →
      v = .flag b ∨ word b ∉ values ∧ cur = v

theorem word_inj {b b' : Bool} : word b = word b' ↔ b = b' := by
  cases b <;> cases b' <;> decide

/-- A flag is given by its word. -/
theorem given_eq_some_iff {k : BranchKind} (hk : k ≠ .path) {value : List UInt8} {v : SettingValue} :
    k.given value = some v ↔ ∃ b, v = .flag b ∧ value = word b := by
  have hgiven : k.given value = if value = word true then some (.flag true)
      else if value = word false then some (.flag false) else none := by
    cases k <;> first | rfl | exact absurd rfl hk
  rw [hgiven]
  constructor
  · intro h
    split at h
    · next ht => exact ⟨true, (Option.some.inj h).symm, ht⟩
    · split at h
      · next hf => exact ⟨false, (Option.some.inj h).symm, hf⟩
      · exact absurd h nofun
  · rintro ⟨b, rfl, rfl⟩
    cases b <;> decide

theorem given_word (b : Bool) : BranchKind.both.given (word b) = some (.flag b) :=
  (@given_eq_some_iff .both nofun (word b) (.flag b)).mpr ⟨b, rfl, rfl⟩

theorem given_eq_none {value : List UInt8} (htrue : value ≠ word true) (hfalse : value ≠ word false) :
    BranchKind.both.given value = none := by
  rw [BranchKind.given, if_neg htrue, if_neg hfalse]
  exact nofun

/-- The last value, if it is one for a flag, or the last of the others. -/
theorem lastGiven_concat (k : BranchKind) (init : List (List UInt8)) (value : List UInt8) :
    lastGiven k (init ++ [value]) = (k.given value).or (lastGiven k init) := by
  rw [lastGiven, lastGiven, List.filterMap_append]
  cases h : k.given value <;> simp [h]

/-- What is given last is given by one of the values. -/
theorem exists_of_lastGiven {k : BranchKind} {values : List (List UInt8)} {v : SettingValue}
    (hv : lastGiven k values = some v) : ∃ value ∈ values, k.given value = some v :=
  List.mem_filterMap.mp (List.mem_of_getLast? hv)

theorem lastGiven_flag {k : BranchKind} (hk : k ≠ .path) {values : List (List UInt8)} {v : SettingValue}
    (hv : lastGiven k values = some v) : ∃ b, v = .flag b := by
  obtain ⟨value, -, hgiven⟩ := exists_of_lastGiven hv
  obtain ⟨b, hb, -⟩ := (given_eq_some_iff hk).mp hgiven
  exact ⟨b, hb⟩

/-- A branch with both outcomes keeps nothing of what came before. -/
theorem foldl_both_concat (init : List (List UInt8)) (value : List UInt8) (cur : SettingValue) :
    (init ++ [value]).foldl (fun cur value => BranchKind.both.step value cur) cur =
      .flag (value = word true) := by
  rw [List.foldl_append]
  rfl

/-- A branch with one outcome leaves it if its word is among the values. -/
theorem foldl_single (b : Bool) (values : List (List UInt8)) (cur : SettingValue) :
    values.foldl (fun cur value => (BranchKind.single b).step value cur) cur =
      if word b ∈ values then .flag b else cur := by
  induction values generalizing cur with
  | nil => rfl
  | cons value values ih =>
    rw [List.foldl_cons, ih, BranchKind.step]
    by_cases h : word b ∈ values
    · rw [if_pos h, if_pos (List.mem_cons_of_mem value h)]
    · rw [if_neg h]
      by_cases hv : value = word b
      · rw [if_pos hv, if_pos (hv ▸ List.mem_cons_self)]
      · rw [if_neg hv, if_neg (by simp [h, Ne.symm hv])]

/-- The path is always what the last value gives. -/
theorem foldl_path {values : List (List UInt8)} {cur v : SettingValue} (hv : lastGiven .path values = some v) :
    values.foldl (fun cur value => BranchKind.path.step value cur) cur = v := by
  rcases List.eq_nil_or_concat values with rfl | ⟨init, value, rfl⟩
  · exact absurd hv nofun
  · rw [List.concat_eq_append, lastGiven_concat] at hv
    rw [List.concat_eq_append, List.foldl_append]
    exact Option.some.inj hv

/-- A flag with both outcomes is what the last value is, so `false` unless that is `true`. -/
theorem foldl_both_iff (values : List (List UInt8)) (cur : SettingValue) :
    (∀ v, lastGiven .both values = some v →
        values.foldl (fun cur value => BranchKind.both.step value cur) cur = v) ↔
      LastHolds values cur .both := by
  rcases List.eq_nil_or_concat values with rfl | ⟨init, value, rfl⟩
  · exact iff_of_true (fun v hv => absurd hv nofun) fun hv => absurd hv nofun
  · have hlast : (init ++ [value]).getLast? = some value := by simp
    rw [List.concat_eq_append, foldl_both_concat, LastHolds, lastGiven_concat, hlast]
    by_cases htrue : value = word true
    · subst htrue
      simp [given_word]
    by_cases hfalse : value = word false
    · subst hfalse
      simp [given_word, word_inj]
    · -- no text for a flag: the branch leaves `FALSE`, whatever came before
      rw [given_eq_none htrue hfalse, Option.none_or]
      constructor
      · intro h hv
        have hflag := h _ hv
        simp [htrue] at hflag
      · intro h v hv
        obtain ⟨b, rfl⟩ := lastGiven_flag (by nofun) hv
        cases b with
        | false => simp [htrue]
        | true => exact absurd (Option.some.inj (h hv)) htrue

/-- A flag with one outcome is that if it is among the values, and else what it was. -/
theorem foldl_single_iff (b : Bool) (values : List (List UInt8)) (cur : SettingValue) :
    (∀ v, lastGiven (.single b) values = some v →
        values.foldl (fun cur value => (BranchKind.single b).step value cur) cur = v) ↔
      LastHolds values cur (.single b) := by
  rw [foldl_single, LastHolds]
  refine forall₂_congr fun v hv => ?_
  by_cases hb : word b ∈ values
  · rw [if_pos hb]
    simp [hb, eq_comm]
  · have hne : v ≠ .flag b := by
      rintro rfl
      obtain ⟨value, hvalue, hgiven⟩ := exists_of_lastGiven hv
      obtain ⟨b', hb', rfl⟩ := (given_eq_some_iff (by nofun)).mp hgiven
      obtain rfl := SettingValue.flag.inj hb'
      exact hb hvalue
    rw [if_neg hb]
    simp [hb, hne]

/-- **The last value wins, exactly when.** What a branch of any kind makes of a list of values is what the
last of them gives if and only if `LastHolds`. -/
theorem foldl_step_iff (k : BranchKind) (values : List (List UInt8)) (cur : SettingValue) :
    (∀ v, lastGiven k values = some v → values.foldl (fun cur value => k.step value cur) cur = v) ↔
      LastHolds values cur k := by
  cases k with
  | path => exact iff_of_true (fun v hv => foldl_path hv) trivial
  | both => exact foldl_both_iff values cur
  | single b => exact foldl_single_iff b values cur

/-- **The last line of a setting wins, exactly when.** For any file, any setting and any globals before,
the global of the setting is left with what the last line gives that has a value for it if and only if
the values of the setting are as `LastHolds` says. -/
theorem lastWins_iff (s : Setting) (content line : List UInt8) (g : StackGlobals) :
    (∀ v, lastGiven s.kind (valuesOf s (confLines (lines lineRoom content))) = some v →
        s.global (loadSkwbtStackConf (some content) line g) = v) ↔
      LastHolds (valuesOf s (confLines (lines lineRoom content))) (s.global g) s.kind := by
  rw [loadSkwbtStackConf, stackLines_eq, global_foldl]
  exact foldl_step_iff s.kind _ _

/-- `SkwBtNoSleep` is left `TRUE` by a first line, though the last says `false`. -/
theorem noSleep_sticks : ¬ ∀ (s : Setting) (content line : List UInt8) (g : StackGlobals) (v : SettingValue),
    lastGiven s.kind (valuesOf s (confLines (lines lineRoom content))) = some v →
      s.global (loadSkwbtStackConf (some content) line g) = v := by
  intro h
  have hlast := h .skwBtNoSleep (chars "SkwBtNoSleep=true\nSkwBtNoSleep=false\n") [] .initial (.flag false)
    (by decide)
  rw [loadSkwbtStackConf, stackLines_eq, global_foldl] at hlast
  exact absurd hlast (by decide)

/-! ## The flag of the interface -/

/-- Only a line that says `false` changes `skwbtuartonly`. -/
theorem skwbtuartonly_applyEntry (g : StackGlobals) (e : ConfLine) :
    (applyEntry g e).skwbtuartonly =
      if e = .entry (chars "SkwBtUartOnly") (chars "false") then false else g.skwbtuartonly := by
  refine SettingValue.flag.inj ((global_applyEntry .skwBtUartOnly g e).trans ?_)
  cases e with
  | skipped => rfl
  | noSeparator => rfl
  | entry key value =>
    rw [valueFor, Setting.key]
    by_cases hkey : key = chars "SkwBtUartOnly"
    · by_cases hvalue : value = chars "false"
      · subst hkey hvalue
        rfl
      · have hne : ConfLine.entry key value ≠ .entry (chars "SkwBtUartOnly") (chars "false") :=
          fun h => hvalue (ConfLine.entry.inj h).2
        rw [if_pos hkey, if_neg hne]
        exact if_neg hvalue
    · have hne : ConfLine.entry key value ≠ .entry (chars "SkwBtUartOnly") (chars "false") :=
        fun h => hkey (ConfLine.entry.inj h).1
      rw [if_neg hkey, if_neg hne]
      rfl

/-- The `skwbtuartonly` that the vendor interface works with is the one of this loader. -/
theorem loadSkwbtStackConf_uartonly (content line : List UInt8) (g : StackGlobals) :
    (loadSkwbtStackConf (some content) line g).skwbtuartonly =
      loadSkwbtuartonly (some ((lines lineRoom content).map cstr)) g.skwbtuartonly := by
  rw [loadSkwbtStackConf, stackLines_eq, confLines, loadSkwbtuartonly, Option.getD_some]
  induction lines lineRoom content generalizing g with
  | nil => rfl
  | cons s ss ih =>
    rw [List.map_cons, List.map_cons, List.foldl_cons, List.foldl_cons, ih, skwbtuartonly_applyEntry]

end Seekwave
