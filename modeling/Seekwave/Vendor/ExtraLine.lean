import Seekwave.Vendor.StackConf

/-!
# A line without a separator

Both loaders meet a line that is neither blank, a comment nor a section, and has no `=`.
`load_skwbt_stack_conf` goes on with the next line. `load_skwbt_conf` closes the file and returns: the
nodes behind the line are lost, and the transport is not assigned. `insertLine_unchanged_iff` compares a
file with the same file with such a line put in, and says when the loaders do not tell them apart.
-/

open Lines Memory

namespace Seekwave

/-- What the lines of a file hold, apart from those that both loaders skip. -/
def entries (content : List UInt8) : List ConfLine := (lines lineRoom content).filterMap confEntry

/-! ## The lines of the longer file -/

/-- A line that is malformed. -/
structure Malformed (line : List UInt8) : Prop where
  oneLine : newline ∉ line
  short : line.length < lineRoom
  noSeparator : 0x3d ∉ line
  notSkipped : ¬ Skipped line

/-- The file with the line put in between `pre` and `post`. -/
inductive LineInserted (line : List UInt8) : (pre post content' : List UInt8) → Prop
  /-- at the beginning of a line of the text -/
  | between {pre : List UInt8} (hpre : EndsLine pre) (post : List UInt8) :
    LineInserted line pre post (pre ++ (line ++ newline :: post))
  /-- as the last line, without a newline of its own -/
  | atEnd {pre : List UInt8} (hpre : EndsLine pre) : LineInserted line pre [] (pre ++ line)
  /-- behind a last line that had no newline -/
  | afterNewline {pre content' : List UInt8} (h : LineInserted line (pre ++ [newline]) [] content') :
    LineInserted line pre [] content'

theorem lineRoom_pos : 0 < lineRoom := Nat.succ_pos 1022

theorem entries_append {pre : List UInt8} (hpre : EndsLine pre) (post : List UInt8) :
    entries (pre ++ post) = entries pre ++ entries post := by
  rw [entries, lines_append lineRoom_pos hpre, List.filterMap_append]
  rfl

theorem entries_newline (content : List UInt8) : entries (content ++ [newline]) = entries content :=
  filterMap_lines_newline lineRoom_pos confEntry_nil confEntry_append_newline content

/-- What the line holds, in a file of its own. -/
theorem entries_line {line : List UInt8} (hline : Malformed line) :
    entries line = (confEntry line).toList := by
  by_cases hne : line = []
  · rw [hne]
    rfl
  · rw [entries, lines_last hline.oneLine (Nat.le_of_lt hline.short) hne]
    cases h : confEntry line <;> simp [h]

theorem entries_line_append {line : List UInt8} (hline : Malformed line) (post : List UInt8) :
    entries (line ++ newline :: post) = (confEntry line).toList ++ entries post := by
  rw [entries, lines_line hline.oneLine hline.short, List.filterMap_cons,
    show confEntry (line ++ [newline]) = confEntry line from confEntry_append_newline line]
  cases confEntry line <;> rfl

/-- **The longer file.** It has what the line holds between what the two parts of the file hold. -/
theorem LineInserted.entries_eq {line pre post content' : List UInt8} (hline : Malformed line)
    (h : LineInserted line pre post content') :
    entries (pre ++ post) = entries pre ++ entries post ∧
      entries content' = entries pre ++ ((confEntry line).toList ++ entries post) := by
  induction h with
  | between hpre post =>
    rw [entries_append hpre, entries_append hpre, entries_line_append hline]
    exact ⟨rfl, rfl⟩
  | atEnd hpre =>
    rw [entries_append hpre, entries_append hpre, entries_line hline]
    exact ⟨rfl, by rw [show entries [] = [] from rfl, List.append_nil]⟩
  | @afterNewline pre _ _ ih =>
    rw [entries_newline] at ih
    refine ⟨?_, ih.2⟩
    rw [List.append_nil, show entries [] = [] from rfl, List.append_nil]

theorem mem_of_mem_trim {c : UInt8} {str : List UInt8} (h : c ∈ trim str) : c ∈ str := by
  rw [trim_eq_rdropWhile] at h
  exact (List.dropWhile_suffix _).subset ((List.rdropWhile_prefix _ _).subset h)

/-- A line that has no `=` is skipped, or has no separator. -/
theorem confLine_of_not_mem {line : List UInt8} (hsep : 0x3d ∉ line) :
    confLine line = .skipped ∨ confLine line = .noSeparator := by
  have hdrop : (trim line).dropWhile (· ≠ 0x3d) = [] := by
    rw [List.dropWhile_eq_nil_iff]
    intro c hc
    exact decide_eq_true (ne_of_mem_of_not_mem (mem_of_mem_trim hc) hsep)
  rw [confLine]
  split
  · exact .inl rfl
  · rw [List.span_eq_takeWhile_dropWhile, hdrop]
    exact .inr rfl

/-- A malformed line is skipped if its string is, which a terminator within the line can make blank. -/
theorem Malformed.confEntry_eq {line : List UInt8} (hline : Malformed line) :
    confEntry line = none ∨ confEntry line = some .noSeparator := by
  have hnot : (0x3d : UInt8) ∉ cstr line := fun h =>
    hline.noSeparator ((List.takeWhile_prefix _).subset h)
  rw [confEntry]
  rcases confLine_of_not_mem hnot with h | h
  · exact .inl (if_pos h)
  · rw [h]
    exact .inr rfl

/-! ## The loader of the settings -/

theorem foldl_entries (content : List UInt8) (g : StackGlobals) :
    (entries content).foldl applyEntry g = (confLines (lines lineRoom content)).foldl applyEntry g := by
  rw [entries]
  induction lines lineRoom content generalizing g with
  | nil => rfl
  | cons s ss ih =>
    rw [confLines_cons, List.filterMap_cons, confEntry, List.foldl_cons, ← ih]
    cases confLine (cstr s) with
    | skipped => rfl
    | noSeparator => rfl
    | entry key value => rfl

/-- **The settings.** The line makes no difference to them. -/
theorem loadSkwbtStackConf_inserted {line pre post content' : List UInt8} (hline : Malformed line)
    (hins : LineInserted line pre post content') (buf buf' : List UInt8) (g : StackGlobals) :
    loadSkwbtStackConf (some content') buf' g = loadSkwbtStackConf (some (pre ++ post)) buf g := by
  obtain ⟨hold, hnew⟩ := hins.entries_eq hline
  rw [loadSkwbtStackConf, loadSkwbtStackConf, stackLines_eq, stackLines_eq, ← foldl_entries,
    ← foldl_entries, hold, hnew]
  rcases hline.confEntry_eq with h | h
  · rw [h]
    rfl
  · -- `applyEntry` of a line without a separator changes nothing
    rw [h, List.foldl_append, List.foldl_append, List.foldl_append]
    rfl

/-! ## The loader of the nodes -/

/-- What `load_skwbt_conf` has set: the names of the ports, and the transport with the UART in it; `none`
if it ran out of the tables. -/
def nodesSeen (run : NodesRun NodeTables) : Option ((Port → List UInt8) × UInt8) :=
  run.final.map fun g => (rowStrings g.portName, g.skwbtTranstype)

instance (k : ℕ) (vs : List (List UInt8)) : Decidable (NodesFit k vs) :=
  decidable_of_iff (k + vs.length ≤ btComPortSize ∧ ∀ v ∈ vs, v.length < deviceNodeMaxLen)
    ⟨fun h => ⟨h.1, h.2⟩, fun h => ⟨h.rows, h.names⟩⟩

/-- The same, made of what the lines hold. -/
def nodesLeft (es : List ConfLine) (transtype : UInt8) : Option ((Port → List UInt8) × UInt8) :=
  if NodesFit 0 (nodeValues es) then
    some ((confOf es).portName, (confOf es).transtype.getD transtype)
  else none

theorem nodesLeft_congr {es es' : List ConfLine} (hvals : nodeValues es = nodeValues es')
    (hc : complete es = complete es') (transtype : UInt8) :
    nodesLeft es transtype = nodesLeft es' transtype := by
  rw [nodesLeft, nodesLeft, confOf, confOf, hvals, hc]

theorem nodesSeen_load (content buf : List UInt8) (g : NodeTables) :
    nodesSeen (loadSkwbtConfBytes (some content) buf g.scommVendorInit) =
      nodesLeft (entries content) g.skwbtTranstype := by
  obtain ⟨hvals, hc⟩ := nodeValues_filterMap (lines lineRoom content)
  rw [entries, nodesLeft_congr hvals hc, nodesLeft, nodesSeen]
  split
  · next hfits =>
    obtain ⟨g', hfinal, -, hport, htype⟩ := loadSkwbtConfBytes_of_fits content buf g.scommVendorInit hfits
    rw [hfinal, Option.map_some, htype, hport fun _ => rfl]
    rfl
  · next hfits =>
    rw [(loadSkwbtConfBytes_of_not_fits content buf g.scommVendorInit hfits).1]
    rfl

section Append

variable {es : List ConfLine} (es' : List ConfLine)

theorem complete_append : complete (es ++ es') = (complete es && complete es') := by
  rw [complete, complete, complete, ← Bool.decide_and, decide_eq_decide, List.mem_append, not_or]

theorem nodeValues_append (hc : complete es = true) :
    nodeValues (es ++ es') = nodeValues es ++ nodeValues es' := by
  induction es with
  | nil => rfl
  | cons e es ih =>
    cases e with
    | skipped =>
      rw [complete_skipped] at hc
      exact ih hc
    | noSeparator => exact absurd hc (by simp [complete])
    | entry key value =>
      rw [complete_entry] at hc
      rw [List.cons_append, nodeValues, nodeValues, ih hc]
      split <;> rfl

/-- Behind a line without a separator there are no nodes. -/
theorem nodeValues_append_of_not_complete (hc : complete es = false) :
    nodeValues (es ++ es') = nodeValues es := by
  induction es with
  | nil => exact absurd hc nofun
  | cons e es ih =>
    cases e with
    | skipped =>
      rw [complete_skipped] at hc
      exact ih hc
    | noSeparator => rfl
    | entry key value =>
      rw [complete_entry] at hc
      rw [List.cons_append, nodeValues, nodeValues, ih hc]

end Append

/-! ## Nodes behind the line -/

/-- Empty nodes behind others are not seen. -/
theorem getD_append_of_empty {vs vs' : List (List UInt8)} (hempty : ∀ v ∈ vs', v = []) (i : ℕ) :
    (vs ++ vs')[i]?.getD [] = vs[i]?.getD [] := by
  rw [List.getElem?_append]
  split
  · rfl
  · next h =>
    rw [List.getElem?_eq_none (Nat.le_of_not_lt h)]
    cases hv : vs'[i - vs.length]? with
    | none => rfl
    | some v => exact hempty v (List.mem_of_getElem? hv)

/-- **More nodes.** They leave the names as they are exactly if they are empty. -/
theorem nodeNames_append_eq_iff {vs vs' : List (List UInt8)}
    (hrows : (vs ++ vs').length ≤ btComPortSize) :
    (nodeNames 0 vs fun _ => []) = (nodeNames 0 (vs ++ vs') fun _ => []) ↔ ∀ v ∈ vs', v = [] := by
  constructor
  · intro h v hv
    obtain ⟨j, hj, rfl⟩ := List.getElem_of_mem hv
    rw [List.length_append] at hrows
    have hp := congrFun h ⟨vs.length + j, by omega⟩
    rw [nodeNames_zero, nodeNames_zero, List.getElem?_eq_none (Nat.le_add_right _ _),
      List.getElem?_append_right (Nat.le_add_right _ _), Nat.add_sub_cancel_left,
      List.getElem?_eq_getElem hj] at hp
    exact hp.symm
  · intro hempty
    funext p
    rw [nodeNames_zero, nodeNames_zero, getD_append_of_empty hempty]

/-- Another name for the first port. -/
theorem update_nodeNames (v name : List UInt8) (vs : List (List UInt8)) :
    Function.update (nodeNames 0 (v :: vs) fun _ => []) 0 name = nodeNames 0 (name :: vs) fun _ => [] := by
  funext p
  by_cases hp : p = 0
  · subst hp
    rw [Function.update_self, nodeNames_zero]
    rfl
  · obtain ⟨i, hi⟩ := Nat.exists_eq_succ_of_ne_zero fun h => hp (Fin.ext h)
    rw [Function.update_of_ne hp, nodeNames_zero, nodeNames_zero, hi]
    rfl

/-- **A UART.** Its port goes without the `?`, so that the nodes before leave the names as they are exactly
if there are none, and the first of those behind is the `?` alone. -/
theorem nodeNames_uart_iff {vs vs' : List (List UInt8)} (hrows : (vs ++ vs').length ≤ btComPortSize)
    (hmark : uartNode (vs ++ vs')) :
    (nodeNames 0 vs fun _ => []) =
        Function.update (nodeNames 0 (vs ++ vs') fun _ => []) 0
          (nodeNames 0 (vs ++ vs') (fun _ => []) 0).tail ↔
      vs = [] ∧ ∃ ws, vs' = [0x3f] :: ws ∧ ∀ v ∈ ws, v = [] := by
  cases vs with
  | cons v vs =>
    refine iff_of_false (fun h => ?_) fun h => absurd h.1 nofun
    have hfirst : v = v.tail := by
      have hzero := congrFun h 0
      rw [Function.update_self, nodeNames_zero, nodeNames_zero] at hzero
      exact hzero
    cases v with
    | nil => exact absurd hmark nofun
    | cons c cs => exact absurd hfirst (by simp)
  | nil =>
    cases vs' with
    | nil => exact absurd hmark nofun
    | cons v ws =>
      obtain ⟨rest, rfl⟩ := List.head?_eq_some_iff.mp hmark
      have htail : (nodeNames 0 ((0x3f :: rest) :: ws) (fun _ => []) 0).tail = rest := by
        rw [nodeNames_zero]
        rfl
      rw [List.nil_append, htail, update_nodeNames]
      refine (@nodeNames_append_eq_iff [] (rest :: ws) hrows).trans ?_
      simp

/-- The lines behind set nothing that those before have not: `load_skwbt_conf` may stop between them. -/
inductive SetsNothing (before after : List ConfLine) (transtype : UInt8) : Prop
  /-- there are empty nodes only, up to another line without a separator -/
  | cut (hend : complete after = false) (hempty : ∀ v ∈ nodeValues after, v = [])
  /-- there are empty nodes only, up to the end of the file, and the transport was H4 already -/
  | h4 (hend : complete after = true) (hempty : ∀ v ∈ nodeValues after, v = [])
    (hfirst : ¬ uartNode (nodeValues before)) (htype : transtype = skwbtTransTypeH4)
  /-- the first node of the file is a lone `?`, and the transport was H4 with a UART already -/
  | uart (hend : complete after = true) (vs : List (List UInt8)) (hbefore : nodeValues before = [])
    (hafter : nodeValues after = [0x3f] :: vs) (hempty : ∀ v ∈ vs, v = [])
    (htype : transtype = skwbtTransTypeH4 ||| skwbtTransTypeUart)

/-- The names and the transport without the lines behind are those with them exactly if they set
nothing. -/
theorem confOf_append_iff {before after : List ConfLine} (transtype : UInt8)
    (hbefore : complete before = true)
    (hrows : (nodeValues before ++ nodeValues after).length ≤ btComPortSize) :
    ((nodeNames 0 (nodeValues before) fun _ => []) = (confOf (before ++ after)).portName ∧
      transtype = (confOf (before ++ after)).transtype.getD transtype) ↔
      SetsNothing before after transtype := by
  have hvals := nodeValues_append after hbefore
  have hc := @complete_append before after
  rw [hbefore, Bool.true_and] at hc
  cases hend : complete after with
  | false =>
    rw [hend] at hc
    -- the file is cut off in a line, so the transport stays as it was
    rw [confOf, hc, if_neg Bool.false_ne_true, hvals]
    dsimp only
    rw [nodeNames_append_eq_iff hrows]
    constructor
    · rintro ⟨hempty, -⟩
      exact .cut hend hempty
    · rintro (⟨-, hempty⟩ | ⟨hend', -⟩ | ⟨hend', -⟩)
      · exact ⟨hempty, rfl⟩
      · exact absurd (hend.symm.trans hend') Bool.false_ne_true
      · exact absurd (hend.symm.trans hend') Bool.false_ne_true
  | true =>
    rw [hend] at hc
    rw [confOf_of_complete hc, hvals]
    -- the first node tells whether the names are those of a UART
    by_cases hmark : uartNode (nodeValues before ++ nodeValues after)
    · rw [if_pos hmark]
      dsimp only
      rw [nodeNames_uart_iff hrows hmark]
      constructor
      · rintro ⟨⟨hnone, ws, hafter, hempty⟩, htype⟩
        exact .uart hend ws hnone hafter hempty htype
      · rintro (⟨hend', -⟩ | ⟨-, hempty, hfirst, -⟩ | ⟨-, ws, hnone, hafter, hempty, htype⟩)
        · exact absurd (hend'.symm.trans hend) Bool.false_ne_true
        · rw [uartNode, getD_append_of_empty hempty] at hmark
          exact absurd hmark hfirst
        · exact ⟨⟨hnone, ws, hafter, hempty⟩, htype⟩
    · rw [if_neg hmark]
      dsimp only
      rw [nodeNames_append_eq_iff hrows]
      constructor
      · rintro ⟨hempty, htype⟩
        rw [uartNode, getD_append_of_empty hempty] at hmark
        exact .h4 hend hempty hmark htype
      · rintro (⟨hend', -⟩ | ⟨-, hempty, -, htype⟩ | ⟨-, vs, hnone, hafter, -⟩)
        · exact absurd (hend'.symm.trans hend) Bool.false_ne_true
        · exact ⟨hempty, htype⟩
        · rw [hnone, hafter] at hmark
          exact absurd rfl hmark

theorem NodesFit.of_append {vs vs' : List (List UInt8)} (h : NodesFit 0 (vs ++ vs')) : NodesFit 0 vs where
  rows := by
    have hrows := h.rows
    rw [List.length_append] at hrows
    omega
  names v hv := h.names v (List.mem_append_left vs' hv)

/-- **The line and the nodes.** -/
theorem nodesLeft_insert_iff (before after : List ConfLine) (transtype : UInt8) :
    nodesLeft (before ++ .noSeparator :: after) transtype = nodesLeft (before ++ after) transtype ↔
      complete before = false ∨ ¬ NodesFit 0 (nodeValues before) ∨
        NodesFit 0 (nodeValues before ++ nodeValues after) ∧ SetsNothing before after transtype := by
  cases hbefore : complete before with
  | false =>
    -- another line has ended the loop before
    refine iff_of_true (nodesLeft_congr ?_ ?_ transtype) (.inl rfl)
    · rw [nodeValues_append_of_not_complete _ hbefore, nodeValues_append_of_not_complete _ hbefore]
    · rw [complete_append, complete_append, hbefore, Bool.false_and, Bool.false_and]
  | true =>
    have hvals := nodeValues_append after hbefore
    have hvals' : nodeValues (before ++ .noSeparator :: after) = nodeValues before := by
      rw [nodeValues_append _ hbefore, nodeValues, List.append_nil]
    have hc' : complete (before ++ .noSeparator :: after) = false := by
      rw [complete_append, hbefore]
      simp [complete]
    rw [nodesLeft, nodesLeft, hvals, hvals']
    by_cases hfits : NodesFit 0 (nodeValues before)
    · by_cases hall : NodesFit 0 (nodeValues before ++ nodeValues after)
      · have hrows := hall.rows
        rw [Nat.zero_add] at hrows
        rw [if_pos hfits, if_pos hall, Option.some_inj, Prod.mk.injEq, confOf, hc',
          if_neg Bool.false_ne_true, hvals']
        refine (confOf_append_iff transtype hbefore hrows).trans ?_
        simp [hfits, hall]
      · rw [if_pos hfits, if_neg hall]
        simp [hfits, hall]
    · rw [if_neg hfits, if_neg fun hall => hfits hall.of_append]
      simp [hfits]

/-! ## Both loaders -/

/-- What both loaders have set, called as `init` calls them, each with a buffer of its own. -/
def loadBoth (content : List UInt8) (bufs : List UInt8 × List UInt8) (g : NodeTables) (s : StackGlobals) :
    Option ((Port → List UInt8) × UInt8) × StackGlobals :=
  (nodesSeen (loadSkwbtConfBytes (some content) bufs.1 g.scommVendorInit),
    loadSkwbtStackConf (some content) bufs.2 s)

/-- **A malformed line makes no difference, exactly when.** The settings are the same with it. The nodes
are the same if and only if its string is blank to the loaders, or the loop had ended before, at another
such line or outside of the tables, or what is behind it fits the tables and sets nothing. -/
theorem insertLine_unchanged_iff {line pre post content' : List UInt8} (hline : Malformed line)
    (hins : LineInserted line pre post content') (bufs bufs' : List UInt8 × List UInt8) (g : NodeTables)
    (s : StackGlobals) :
    loadBoth content' bufs' g s = loadBoth (pre ++ post) bufs g s ↔
      confEntry line = none ∨ complete (entries pre) = false ∨ ¬ NodesFit 0 (nodeValues (entries pre)) ∨
        NodesFit 0 (nodeValues (entries pre) ++ nodeValues (entries post)) ∧
          SetsNothing (entries pre) (entries post) g.skwbtTranstype := by
  have hsettings := loadSkwbtStackConf_inserted hline hins bufs.2 bufs'.2 s
  obtain ⟨hold, hnew⟩ := hins.entries_eq hline
  rw [loadBoth, loadBoth, Prod.mk.injEq, and_iff_left hsettings, nodesSeen_load, nodesSeen_load, hold, hnew]
  rcases hline.confEntry_eq with h | h
  · rw [h]
    exact iff_of_true rfl (.inl rfl)
  · rw [h]
    refine (nodesLeft_insert_iff _ _ _).trans ?_
    simp

theorem malformed_junk : Malformed (chars "junk") where
  oneLine := by decide
  short := by decide
  noSeparator := by decide
  notSkipped := by decide

/-- Behind another such line, it makes none. -/
theorem insertLine_unchanged_second :
    loadBoth (chars "oops\nBtDeviceNode=a\n" ++ chars "junk") ([], []) .initial .initial =
      loadBoth (chars "oops\nBtDeviceNode=a\n" ++ []) ([], []) .initial .initial :=
  (insertLine_unchanged_iff malformed_junk (.atEnd (.inr (by decide))) _ _ _ _).mpr
    (.inr (.inl (by decide)))

/-- In front of the one node, the transport is not assigned. -/
theorem junk_loses_node : ¬ ∀ (line pre post content' : List UInt8) (bufs bufs' : List UInt8 × List UInt8)
    (g : NodeTables) (s : StackGlobals), Malformed line → LineInserted line pre post content' →
      loadBoth content' bufs' g s = loadBoth (pre ++ post) bufs g s := by
  intro h
  have hfst := congrArg Prod.fst (h (chars "junk") [] (chars "BtDeviceNode=a\n") _ ([], []) ([], [])
    .initial .initial malformed_junk (.between (.inl rfl) _))
  rw [loadBoth, loadBoth, nodesSeen_load, nodesSeen_load] at hfst
  have htype := congrArg (Option.map Prod.snd) hfst
  exact absurd htype (by decide)

end Seekwave
