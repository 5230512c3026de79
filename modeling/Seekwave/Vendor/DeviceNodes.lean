import Seekwave.Lib.Lines
import Seekwave.Vendor.ConfBuffer

/-!
# The device nodes of the configuration

`load_skwbt_conf` as it works on memory: it reads the lines of the file into its buffer, copies each value
of `BtDeviceNode` into the next row of `skwbt_device_node` with `strcpy`, and from there into the name of
the port with `memcpy`. Nothing bounds the row, or the length of the value. The stores into both tables
are kept in a list; the run ends where a store leaves its row.

`loadSkwbtConfBytes_refines` connects this to `loadSkwbtConf`, which works on lists of characters.
`load_agrees` gives the result for a file that is well formed, by its lines alone, and
`load_inside_iff` says for which files all stores are inside.
-/

open Lines Memory

namespace Seekwave

/-! ## The tables -/

/-- `O_RDWR`. -/
def oRdwr : ℕ := 2

/-- What `fgets(line, sizeof(line), fp)` has room for. -/
def lineRoom : ℕ := 1023

/-- `skwbt_device_node`, and the `port_name` of the entries of `scomm_vnd`. -/
inductive NodeTable
  | skwbtDeviceNode
  | portName
deriving DecidableEq, Repr

/-- A store of so many bytes into a row of a table, from its front on. -/
structure NodeStore where
  table : NodeTable
  row : ℕ
  bytes : ℕ
deriving DecidableEq, Repr

/-- The store is inside of the table, and of the row. -/
def NodeStore.Inside (s : NodeStore) : Prop := s.row < btComPortSize ∧ s.bytes ≤ deviceNodeMaxLen

/-- The globals that `load_skwbt_conf` sets, the rows as memories. -/
structure NodeTables where
  skwbtDeviceNode : Port → List UInt8
  portName : Port → List UInt8
  mode : Port → ℕ
  skwbtTranstype : UInt8

/-- A row after `memset`. -/
def emptyRow : List UInt8 := List.replicate deviceNodeMaxLen 0

/-- `scomm_vendor_init`. -/
def NodeTables.scommVendorInit (g : NodeTables) : NodeTables :=
  { g with portName := fun _ => emptyRow, mode := fun _ => oRdwr }

/-- `scomm_vendor_set_port_name`. -/
def NodeTables.scommVendorSetPortName (g : NodeTables) (portIndex : Port) (portName : List UInt8)
    (mode : ℕ) : NodeTables :=
  { g with
    portName := Function.update g.portName portIndex (store emptyRow 0 (strAt portName 0))
    mode := Function.update g.mode portIndex mode }

/-- The stores of `scomm_vendor_set_port_name`: `memset`, then `memcpy`. -/
def setPortNameStores (portIndex : ℕ) (portName : List UInt8) : List NodeStore :=
  [⟨.portName, portIndex, deviceNodeMaxLen⟩, ⟨.portName, portIndex, (strAt portName 0).length⟩]

/-- The stores of a run, and what it leaves; `none` where the last store has left its row. -/
structure NodesRun (α : Type) where
  stores : List NodeStore
  final : Option α

/-- The run goes on with what it leaves. -/
def NodesRun.andThen {α β : Type} (run : NodesRun α) (next : α → NodesRun β) : NodesRun β :=
  match run.final with
  | none => ⟨run.stores, none⟩
  | some a => ⟨run.stores ++ (next a).stores, (next a).final⟩

/-! ## The loader -/

theorem row_lt {portIndex : ℕ} {value : List UInt8}
    (h : portIndex < btComPortSize ∧ value.length < deviceNodeMaxLen) : portIndex < btComPortSize := h.1

/-- The branch of the loop for a value of `BtDeviceNode`. -/
def storeNode (g : NodeTables) (portIndex : ℕ) (value : List UInt8) : NodesRun NodeTables :=
  if h : portIndex < btComPortSize ∧ value.length < deviceNodeMaxLen then
    let row := strcpy (g.skwbtDeviceNode ⟨portIndex, row_lt h⟩) value
    let g := { g with skwbtDeviceNode := Function.update g.skwbtDeviceNode ⟨portIndex, row_lt h⟩ row }
    ⟨⟨.skwbtDeviceNode, portIndex, value.length + 1⟩ :: setPortNameStores portIndex row,
      some (g.scommVendorSetPortName ⟨portIndex, row_lt h⟩ row oRdwr)⟩
  else ⟨[⟨.skwbtDeviceNode, portIndex, value.length + 1⟩], none⟩

/-- The loop, over what `fgets` returns, with the buffer `line` and `port_index`. It leaves the tables,
and whether it came to the end of the file. -/
def nodeLines : List (List UInt8) → List UInt8 → ℕ → NodeTables → NodesRun (NodeTables × Bool)
  | [], _, _, g => ⟨[], some (g, true)⟩
  | s :: ss, line, portIndex, g =>
    match scanLine (store line 0 (s ++ [0])) with
    | .skipped line => nodeLines ss line portIndex g
    | .noSeparator _ => ⟨[], some (g, false)⟩
    | .entry line linePtr split =>
      let (line, key) := trimInPlace line linePtr
      if strAt line key = chars "BtDeviceNode" then
        let (line, value) := trimInPlace line split
        (storeNode g portIndex (strAt line value)).andThen (nodeLines ss line (portIndex + 1))
      else nodeLines ss line portIndex g

/-- What `load_skwbt_conf` does at the end of the file: a `?` before the first node makes it a UART. -/
def finishNodes (g : NodeTables) : NodesRun NodeTables :=
  let g := { g with skwbtTranstype := skwbtTransTypeH4 }
  let row := g.skwbtDeviceNode 0
  if byteAt row 0 = 0x3f then
    let row' := Loop.run shiftPass (fun s => s.1.length - s.2) shiftPass_dec (row, 0)
    let g := { g with skwbtDeviceNode := Function.update g.skwbtDeviceNode 0 row' }
    let g := g.scommVendorSetPortName 0 row' oRdwr
    ⟨⟨.skwbtDeviceNode, 0, (strAt row 0).length⟩ :: setPortNameStores 0 row',
      some { g with skwbtTranstype := g.skwbtTranstype ||| skwbtTransTypeUart }⟩
  else ⟨[], some g⟩

/-- `load_skwbt_conf`, for a file with the given content, if it can be opened, on the memory `line`. -/
def loadSkwbtConfBytes (file : Option (List UInt8)) (line : List UInt8) (g : NodeTables) :
    NodesRun NodeTables :=
  let g := { g with skwbtDeviceNode := fun _ => emptyRow }
  match file with
  | none =>
    ⟨[⟨.skwbtDeviceNode, 0, (chars "/dev/ttyS0").length + 1⟩],
      some { g with
        skwbtDeviceNode := Function.update g.skwbtDeviceNode 0
          (strcpy (g.skwbtDeviceNode 0) (chars "/dev/ttyS0")) }⟩
  | some content =>
    (nodeLines (lines lineRoom content) line btComPortCmdevt g).andThen fun (g, complete) =>
      if complete = true then finishNodes g else ⟨[], some g⟩

/-! ## What the lines hold -/

/-- What the lines that `fgets` returns hold. -/
def confLines (ss : List (List UInt8)) : List ConfLine := ss.map fun s => confLine (cstr s)

/-- The values of `BtDeviceNode`, up to a line without a separator. -/
def nodeValues : List ConfLine → List (List UInt8)
  | [] => []
  | .skipped :: es => nodeValues es
  | .noSeparator :: _ => []
  | .entry key value :: es =>
    if key = chars "BtDeviceNode" then value :: nodeValues es else nodeValues es

/-- The nodes fit the tables, from row `k` on. -/
structure NodesFit (k : ℕ) (vs : List (List UInt8)) : Prop where
  rows : k + vs.length ≤ btComPortSize
  names : ∀ v ∈ vs, v.length < deviceNodeMaxLen

/-- The names of the ports, when the nodes have been stored from row `k` on. -/
def nodeNames (k : ℕ) (vs : List (List UInt8)) (old : Port → List UInt8) : Port → List UInt8 :=
  fun p => if k ≤ p.val then vs.getD (p.val - k) (old p) else old p

/-- The strings in the rows of a table. -/
def rowStrings (rows : Port → List UInt8) : Port → List UInt8 := fun p => strAt (rows p) 0

theorem nodesFit_cons {k : ℕ} {v : List UInt8} {vs : List (List UInt8)} :
    NodesFit k (v :: vs) ↔
      (k < btComPortSize ∧ v.length < deviceNodeMaxLen) ∧ NodesFit (k + 1) vs := by
  constructor
  · rintro ⟨hrows, hnames⟩
    rw [List.length_cons] at hrows
    exact ⟨⟨by omega, hnames v List.mem_cons_self⟩, by omega,
      fun v' hv' => hnames v' (List.mem_cons_of_mem v hv')⟩
  · rintro ⟨⟨_, hv⟩, hrows, hnames⟩
    refine ⟨by rw [List.length_cons]; omega, fun v' hv' => ?_⟩
    rcases List.mem_cons.mp hv' with rfl | hv'
    · exact hv
    · exact hnames v' hv'

theorem nodeNames_nil (k : ℕ) (old : Port → List UInt8) : nodeNames k [] old = old := by
  funext p
  rw [nodeNames]
  split <;> rfl

/-- The first node goes into row `k`. -/
theorem nodeNames_cons {k : ℕ} (hk : k < btComPortSize) (v : List UInt8) (vs : List (List UInt8))
    (old : Port → List UInt8) :
    nodeNames k (v :: vs) old = nodeNames (k + 1) vs (Function.update old ⟨k, hk⟩ v) := by
  funext p
  rw [nodeNames, nodeNames]
  rcases Nat.lt_trichotomy p.val k with hlt | heq | hgt
  · have hne : p ≠ ⟨k, hk⟩ := fun h => by simp [h] at hlt
    rw [if_neg (by omega), if_neg (by omega), Function.update_of_ne hne]
  · obtain rfl : p = ⟨k, hk⟩ := Fin.ext heq
    rw [if_pos (Nat.le_refl k), if_neg (Nat.not_succ_le_self k), Nat.sub_self, Function.update_self]
    rfl
  · have hne : p ≠ ⟨k, hk⟩ := fun h => by simp [h] at hgt
    have hsub : p.val - k = p.val - (k + 1) + 1 := by omega
    rw [if_pos (by omega), if_pos (by omega), Function.update_of_ne hne, hsub, List.getD_cons_succ]

/-! ## Rows -/

theorem strAt_strcpy (row src : List UInt8) : strAt (strcpy row src) 0 = cstr src :=
  cstr_strcpy row src

/-- `memcpy` of a name that is shorter than the row leaves a terminator of `memset` behind it. -/
theorem strAt_store_emptyRow {name : List UInt8} (hlen : name.length < deviceNodeMaxLen) :
    strAt (store emptyRow 0 name) 0 = cstr name := by
  have hrest : emptyRow.drop name.length = 0 :: emptyRow.drop (name.length + 1) := by
    rw [emptyRow, List.drop_eq_getElem_cons (by simpa using hlen), List.getElem_replicate]
  rw [strAt, List.drop_zero, store_of_le (Nat.zero_le _), List.take_zero, List.nil_append, Nat.zero_add,
    hrest, cstr_append_zero]

theorem rowStrings_update (rows : Port → List UInt8) (p : Port) (row : List UInt8) :
    rowStrings (Function.update rows p row) = Function.update (rowStrings rows) p (strAt row 0) := by
  funext q
  by_cases h : q = p
  · subst h
    rw [rowStrings, Function.update_self, Function.update_self]
  · rw [rowStrings, Function.update_of_ne h, Function.update_of_ne h, rowStrings]

/-- `scomm_vendor_set_port_name`, of a row whose string is short. -/
theorem rowStrings_setPortName (g : NodeTables) (p : Port) {row : List UInt8} (mode : ℕ)
    (hlen : (strAt row 0).length < deviceNodeMaxLen) :
    rowStrings (g.scommVendorSetPortName p row mode).portName =
        Function.update (rowStrings g.portName) p (strAt row 0) ∧
      ∀ s ∈ setPortNameStores p row, s.Inside := by
  constructor
  · show rowStrings (Function.update _ _ _) = _
    rw [rowStrings_update, strAt_store_emptyRow hlen, cstr_strAt]
  · intro s hs
    rw [setPortNameStores, List.mem_cons, List.mem_singleton] at hs
    rcases hs with rfl | rfl
    · exact ⟨p.isLt, Nat.le_refl _⟩
    · exact ⟨p.isLt, Nat.le_of_lt hlen⟩

/-- A node that fits is stored, in both tables. -/
theorem storeNode_of_fits (g : NodeTables) {k : ℕ} {value : List UInt8} (hcstr : cstr value = value)
    (hk : k < btComPortSize) (hlen : value.length < deviceNodeMaxLen) :
    ∃ g', (storeNode g k value).final = some g' ∧
      (∀ s ∈ (storeNode g k value).stores, s.Inside) ∧
      rowStrings g'.skwbtDeviceNode = Function.update (rowStrings g.skwbtDeviceNode) ⟨k, hk⟩ value ∧
      rowStrings g'.portName = Function.update (rowStrings g.portName) ⟨k, hk⟩ value ∧
      g'.skwbtTranstype = g.skwbtTranstype := by
  rw [storeNode, dif_pos ⟨hk, hlen⟩]
  dsimp only
  have hrow := (strAt_strcpy (g.skwbtDeviceNode ⟨k, hk⟩) value).trans hcstr
  generalize strcpy (g.skwbtDeviceNode ⟨k, hk⟩) value = row at hrow ⊢
  obtain ⟨hport, hstores⟩ := rowStrings_setPortName
    { g with skwbtDeviceNode := Function.update g.skwbtDeviceNode ⟨k, hk⟩ row } ⟨k, hk⟩ oRdwr
    (hrow ▸ hlen)
  refine ⟨_, rfl, fun s hs => ?_, ?_, hport.trans (by rw [hrow]), rfl⟩
  · rcases List.mem_cons.mp hs with rfl | hs
    · exact ⟨hk, hlen⟩
    · exact hstores s hs
  · show rowStrings (Function.update _ _ _) = _
    rw [rowStrings_update, hrow]

/-- A node that does not fit ends the run with a store outside. -/
theorem storeNode_of_not_fits (g : NodeTables) {k : ℕ} {value : List UInt8}
    (h : ¬ (k < btComPortSize ∧ value.length < deviceNodeMaxLen)) :
    (storeNode g k value).final = none ∧ ∃ s ∈ (storeNode g k value).stores, ¬ s.Inside := by
  rw [storeNode, dif_neg h]
  exact ⟨rfl, _, List.mem_singleton_self _, h⟩

/-! ## The loop -/

section AndThen

variable {α β : Type} {run : NodesRun α} (next : α → NodesRun β)

theorem NodesRun.andThen_of_some {a : α} (h : run.final = some a) :
    run.andThen next = ⟨run.stores ++ (next a).stores, (next a).final⟩ := by
  rw [andThen, h]

theorem NodesRun.andThen_of_none (h : run.final = none) : run.andThen next = ⟨run.stores, none⟩ := by
  rw [andThen, h]

end AndThen

/-- One pass of the loop over a line, by what the line holds. -/
theorem nodeLines_cons (s : List UInt8) (ss : List (List UInt8)) (line : List UInt8) (k : ℕ)
    (g : NodeTables) :
    (confLine (cstr s) = .noSeparator ∧ nodeLines (s :: ss) line k g = ⟨[], some (g, false)⟩) ∨
    (∃ line', nodeValues (confLine (cstr s) :: confLines ss) = nodeValues (confLines ss) ∧
      confLine (cstr s) ≠ .noSeparator ∧ nodeLines (s :: ss) line k g = nodeLines ss line' k g) ∨
    ∃ value line', confLine (cstr s) = .entry (chars "BtDeviceNode") value ∧ cstr value = value ∧
      nodeLines (s :: ss) line k g = (storeNode g k value).andThen (nodeLines ss line' (k + 1)) := by
  have hscan := scans (store line 0 (s ++ [0]))
  rw [strAt_store_zero] at hscan
  rw [nodeLines]
  generalize scanLine (store line 0 (s ++ [0])) = sc at hscan ⊢
  generalize confLine (cstr s) = cl at hscan ⊢
  cases hscan with
  | skipped line' => exact .inr (.inl ⟨line', rfl, nofun, rfl⟩)
  | noSeparator line => exact .inl ⟨rfl, rfl⟩
  | @entry line linePtr split key value hholds =>
    obtain ⟨hkey, hholds'⟩ := hholds.trim_key
    dsimp only
    rw [hkey]
    by_cases hnode : key = chars "BtDeviceNode"
    · have hvalue := hholds'.trim_value
      have hcstr := cstr_strAt (trimInPlace (trimInPlace line linePtr).1 split).1
        (trimInPlace (trimInPlace line linePtr).1 split).2
      rw [if_pos hnode, hvalue]
      rw [hvalue] at hcstr
      exact .inr (.inr ⟨value, _, by rw [hnode], hcstr, rfl⟩)
    · rw [if_neg hnode]
      refine .inr (.inl ⟨_, ?_, nofun, rfl⟩)
      rw [nodeValues, if_neg hnode]

/-- Whether the loop comes to the end of the file. -/
def complete (es : List ConfLine) : Bool := decide (.noSeparator ∉ es)

theorem confLines_cons (s : List UInt8) (ss : List (List UInt8)) :
    confLines (s :: ss) = confLine (cstr s) :: confLines ss := rfl

theorem complete_cons {e : ConfLine} (h : e ≠ .noSeparator) (es : List ConfLine) :
    complete (e :: es) = complete es := by
  rw [complete, complete, decide_eq_decide, List.mem_cons, not_or]
  exact and_iff_right h.symm

theorem complete_skipped (es : List ConfLine) : complete (.skipped :: es) = complete es :=
  @complete_cons .skipped nofun es

theorem complete_entry (key value : List UInt8) (es : List ConfLine) :
    complete (.entry key value :: es) = complete es :=
  @complete_cons (.entry key value) nofun es

theorem nodeValues_cons_node (value : List UInt8) (es : List ConfLine) :
    nodeValues (.entry (chars "BtDeviceNode") value :: es) = value :: nodeValues es :=
  if_pos rfl

/-- **The loop, when the nodes fit.** All stores are inside, and the names of both tables are the values
of the lines. -/
theorem nodeLines_of_fits (ss : List (List UInt8)) (line : List UInt8) {k : ℕ} (g : NodeTables)
    (hfits : NodesFit k (nodeValues (confLines ss))) :
    ∃ g', (nodeLines ss line k g).final = some (g', complete (confLines ss)) ∧
      (∀ s ∈ (nodeLines ss line k g).stores, s.Inside) ∧
      rowStrings g'.skwbtDeviceNode =
        nodeNames k (nodeValues (confLines ss)) (rowStrings g.skwbtDeviceNode) ∧
      rowStrings g'.portName = nodeNames k (nodeValues (confLines ss)) (rowStrings g.portName) ∧
      g'.skwbtTranstype = g.skwbtTranstype := by
  induction ss generalizing line k g with
  | nil => exact ⟨g, rfl, nofun, (nodeNames_nil ..).symm, (nodeNames_nil ..).symm, rfl⟩
  | cons s ss ih =>
    rw [confLines_cons] at hfits ⊢
    rcases nodeLines_cons s ss line k g with ⟨hsep, hrun⟩ | ⟨line', hvals, hsep, hrun⟩ |
      ⟨value, line', hnode, hcstr, hrun⟩
    · -- a line without a separator ends the loop, and the nodes behind it are not read
      rw [hrun, hsep]
      exact ⟨g, by simp [complete], nofun, (nodeNames_nil ..).symm, (nodeNames_nil ..).symm, rfl⟩
    · rw [hvals] at hfits
      rw [hrun, hvals, complete_cons hsep]
      exact ih line' g hfits
    · -- the first node fits, so it is stored inside, and the rest from the next row on
      rw [hnode, nodeValues_cons_node] at hfits
      obtain ⟨⟨hk, hlen⟩, hfits⟩ := nodesFit_cons.mp hfits
      obtain ⟨g₁, hfinal, hstores, hdev, hport, htype⟩ := storeNode_of_fits g hcstr hk hlen
      obtain ⟨g', hfinal', hstores', hdev', hport', htype'⟩ := ih line' g₁ hfits
      rw [NodesRun.andThen_of_some _ hfinal] at hrun
      rw [hrun, hnode, complete_entry, nodeValues_cons_node]
      refine ⟨g', hfinal', fun s hs => ?_, ?_, ?_, htype'.trans htype⟩
      · exact (List.mem_append.mp hs).elim (hstores s) (hstores' s)
      · rw [hdev', hdev, nodeNames_cons hk]
      · rw [hport', hport, nodeNames_cons hk]

/-- **The loop, when they do not fit.** It ends with a store outside. -/
theorem nodeLines_of_not_fits (ss : List (List UInt8)) (line : List UInt8) {k : ℕ}
    (hk : k ≤ btComPortSize) (g : NodeTables) (hfits : ¬ NodesFit k (nodeValues (confLines ss))) :
    (nodeLines ss line k g).final = none ∧ ∃ s ∈ (nodeLines ss line k g).stores, ¬ s.Inside := by
  have hnil : NodesFit k [] := ⟨hk, nofun⟩
  induction ss generalizing line k g with
  | nil => exact absurd hnil hfits
  | cons s ss ih =>
    rw [confLines_cons] at hfits
    rcases nodeLines_cons s ss line k g with ⟨hsep, hrun⟩ | ⟨line', hvals, hsep, hrun⟩ |
      ⟨value, line', hnode, hcstr, hrun⟩
    · rw [hsep] at hfits
      exact absurd hnil hfits
    · rw [hvals] at hfits
      rw [hrun]
      exact ih line' hk g hfits hnil
    · rw [hnode, nodeValues_cons_node, nodesFit_cons, not_and_or] at hfits
      -- either this node is the one that does not fit, or a later one
      by_cases hstore : k < btComPortSize ∧ value.length < deviceNodeMaxLen
      · obtain ⟨g₁, hfinal, -⟩ := storeNode_of_fits g hcstr hstore.1 hstore.2
        rw [NodesRun.andThen_of_some _ hfinal] at hrun
        obtain ⟨hnone, s', hs', hout⟩ := ih line' hstore.1 g₁
          (hfits.resolve_left (not_not_intro hstore)) ⟨hstore.1, nofun⟩
        rw [hrun]
        exact ⟨hnone, s', List.mem_append_right _ hs', hout⟩
      · obtain ⟨hnone, hout⟩ := storeNode_of_not_fits g hstore
        rw [NodesRun.andThen_of_none _ hnone] at hrun
        rw [hrun]
        exact ⟨rfl, hout⟩

/-! ## The end of the file -/

/-- `load_skwbt_conf` at the end of the file, when the first row has a string that is not too long. -/
theorem finishNodes_spec (g : NodeTables) (hlen : (rowStrings g.skwbtDeviceNode 0).length < deviceNodeMaxLen) :
    ∃ g', (finishNodes g).final = some g' ∧ (∀ s ∈ (finishNodes g).stores, s.Inside) ∧
      (rowStrings g'.portName =
        if (rowStrings g.skwbtDeviceNode 0).head? = some 0x3f then
          Function.update (rowStrings g.portName) 0 (rowStrings g.skwbtDeviceNode 0).tail
        else rowStrings g.portName) ∧
      g'.skwbtTranstype =
        if (rowStrings g.skwbtDeviceNode 0).head? = some 0x3f then skwbtTransTypeH4 ||| skwbtTransTypeUart
        else skwbtTransTypeH4 := by
  have hmark : byteAt (g.skwbtDeviceNode 0) 0 = 0x3f ↔
      (rowStrings g.skwbtDeviceNode 0).head? = some 0x3f := by
    rw [byteAt_eq_head?, rowStrings]
    cases strAt (g.skwbtDeviceNode 0) 0 <;> simp
  rw [finishNodes]
  dsimp only
  by_cases h : (rowStrings g.skwbtDeviceNode 0).head? = some 0x3f
  · obtain ⟨row', hret, hrow', -⟩ := returns_shiftPass (g.skwbtDeviceNode 0) 0
    -- the question mark is shifted out of the first row in place
    have htail : strAt row' 0 = (rowStrings g.skwbtDeviceNode 0).tail := hrow'
    have hle : (strAt row' 0).length < deviceNodeMaxLen := by
      rw [htail, List.length_tail]
      omega
    rw [if_pos (hmark.mpr h), if_pos h, if_pos h, Loop.run_eq_of_returns _ _ _ hret]
    obtain ⟨hport, hstores⟩ := rowStrings_setPortName
      { g with
        skwbtTranstype := skwbtTransTypeH4
        skwbtDeviceNode := Function.update g.skwbtDeviceNode 0 row' } 0 oRdwr hle
    refine ⟨_, rfl, fun s hs => ?_, hport.trans (by rw [htail]), rfl⟩
    rcases List.mem_cons.mp hs with rfl | hs
    · exact ⟨Nat.zero_lt_succ 3, Nat.le_of_lt hlen⟩
    · exact hstores s hs
  · rw [if_neg (fun h' => h (hmark.mp h')), if_neg h, if_neg h]
    exact ⟨_, rfl, nofun, rfl, rfl⟩

/-- What the lines make of the ports and of the transport, when the nodes fit. -/
def confOf (es : List ConfLine) : SkwbtConf :=
  let names := nodeNames 0 (nodeValues es) fun _ => []
  if complete es = true then
    if (names 0).head? = some 0x3f then
      ⟨Function.update names 0 (names 0).tail, some (skwbtTransTypeH4 ||| skwbtTransTypeUart)⟩
    else ⟨names, some skwbtTransTypeH4⟩
  else ⟨names, none⟩

/-- The first node is not too long. -/
theorem NodesFit.length_first {vs : List (List UInt8)} (h : NodesFit 0 vs) (p : Port) :
    (nodeNames 0 vs (fun _ => []) p).length < deviceNodeMaxLen := by
  rw [nodeNames, if_pos (Nat.zero_le _), List.getD_eq_getElem?_getD]
  cases hv : vs[p.val - 0]? with
  | none => decide
  | some v => exact h.names v (List.mem_of_getElem? hv)

section Load

variable (content line : List UInt8) (g : NodeTables)

/-- **The loader, when the nodes fit.** It stays inside of the tables; the names of ports that had none,
and the transport, are made of the lines. -/
theorem loadSkwbtConfBytes_of_fits
    (hfits : NodesFit 0 (nodeValues (confLines (lines lineRoom content)))) :
    ∃ g', (loadSkwbtConfBytes (some content) line g).final = some g' ∧
      (∀ s ∈ (loadSkwbtConfBytes (some content) line g).stores, s.Inside) ∧
      ((∀ p, rowStrings g.portName p = []) →
        rowStrings g'.portName = (confOf (confLines (lines lineRoom content))).portName) ∧
      g'.skwbtTranstype =
        (confOf (confLines (lines lineRoom content))).transtype.getD g.skwbtTranstype := by
  obtain ⟨g₁, hfinal, hstores, hdev, hport, htype⟩ :=
    nodeLines_of_fits (lines lineRoom content) line { g with skwbtDeviceNode := fun _ => emptyRow } hfits
  have hload : loadSkwbtConfBytes (some content) line g = _ := NodesRun.andThen_of_some _ hfinal
  have hempty : rowStrings (fun _ : Port => emptyRow) = fun _ => [] := rfl
  rw [hempty] at hdev
  rw [hload, confOf]
  dsimp only at htype ⊢
  by_cases hc : complete (confLines (lines lineRoom content)) = true
  · have hlen := hfits.length_first 0
    rw [← hdev] at hlen
    obtain ⟨g', hfinal', hstores', hport', htype'⟩ := finishNodes_spec g₁ hlen
    rw [hdev] at hport' htype'
    rw [if_pos hc, if_pos hc]
    refine ⟨g', hfinal', fun s hs => ?_, fun hnone => ?_, ?_⟩
    · exact (List.mem_append.mp hs).elim (hstores s) (hstores' s)
    · have hnames : rowStrings g.portName = fun _ => [] := funext hnone
      rw [hport', hport, hnames]
      split <;> rfl
    · rw [htype']
      split <;> rfl
  · rw [if_neg hc, if_neg hc]
    refine ⟨g₁, rfl, fun s hs => ?_, fun hnone => ?_, htype⟩
    · exact (List.mem_append.mp hs).elim (hstores s) nofun
    · have hnames : rowStrings g.portName = fun _ => [] := funext hnone
      rw [hport, hnames]

/-- **The loader, when they do not fit.** It ends with a store outside. -/
theorem loadSkwbtConfBytes_of_not_fits
    (hfits : ¬ NodesFit 0 (nodeValues (confLines (lines lineRoom content)))) :
    (loadSkwbtConfBytes (some content) line g).final = none ∧
      ∃ s ∈ (loadSkwbtConfBytes (some content) line g).stores, ¬ s.Inside := by
  obtain ⟨hnone, hout⟩ := nodeLines_of_not_fits (lines lineRoom content) line (Nat.zero_le _)
    { g with skwbtDeviceNode := fun _ => emptyRow } hfits
  have hload : loadSkwbtConfBytes (some content) line g = _ := NodesRun.andThen_of_none _ hnone
  rw [hload]
  exact ⟨rfl, hout⟩

/-- **No overrun, exactly when.** For any content of the file, every store of the loader is in a row of
the tables and fits it, terminator included, if and only if there are no more nodes than ports, and all
of them shorter than a row, up to a line without a separator. -/
theorem load_inside_iff :
    (∀ s ∈ (loadSkwbtConfBytes (some content) line g).stores, s.Inside) ↔
      (nodeValues (confLines (lines lineRoom content))).length ≤ btComPortSize ∧
        ∀ v ∈ nodeValues (confLines (lines lineRoom content)), v.length < deviceNodeMaxLen := by
  have hiff : NodesFit 0 (nodeValues (confLines (lines lineRoom content))) ↔
      (nodeValues (confLines (lines lineRoom content))).length ≤ btComPortSize ∧
        ∀ v ∈ nodeValues (confLines (lines lineRoom content)), v.length < deviceNodeMaxLen :=
    ⟨fun h => ⟨by simpa using h.rows, h.names⟩, fun h => ⟨by simpa using h.1, h.2⟩⟩
  rw [← hiff]
  constructor
  · intro hinside
    by_contra hfits
    obtain ⟨-, s, hs, hout⟩ := loadSkwbtConfBytes_of_not_fits content line g hfits
    exact hout (hinside s hs)
  · intro hfits
    obtain ⟨-, -, hinside, -⟩ := loadSkwbtConfBytes_of_fits content line g hfits
    exact hinside

end Load

/-- Five nodes overrun the four rows, whatever was in memory. -/
theorem load_five_nodes_outside : ¬ ∀ (content line : List UInt8) (g : NodeTables),
    ∀ s ∈ (loadSkwbtConfBytes (some content) line g).stores, s.Inside := by
  intro h
  have hfits : ¬ NodesFit 0 (nodeValues (confLines (lines lineRoom
      (List.replicate 5 (chars "BtDeviceNode=a\n")).flatten))) := by
    intro hfits
    exact absurd hfits.rows (by decide)
  obtain ⟨-, s, hs, hout⟩ := loadSkwbtConfBytes_of_not_fits _ [] ⟨fun _ => [], fun _ => [], fun _ => 0, 0⟩
    hfits
  exact hout (h _ _ _ s hs)

/-! ## The loader on lists of characters -/

/-- `scanDeviceNodes`, when the nodes fit. -/
theorem scanDeviceNodes_of_fits {ls : List (List UInt8)} {k : ℕ} {nodes : Port → List UInt8}
    (hfits : NodesFit k (nodeValues (ls.map confLine))) :
    scanDeviceNodes ls k nodes =
      some ⟨nodeNames k (nodeValues (ls.map confLine)) nodes, complete (ls.map confLine)⟩ := by
  induction ls generalizing k nodes with
  | nil =>
    rw [List.map_nil, nodeValues, nodeNames_nil]
    rfl
  | cons l ls ih =>
    rw [List.map_cons] at hfits ⊢
    rw [scanDeviceNodes]
    cases hl : confLine l with
    | skipped =>
      rw [hl] at hfits
      rw [complete_skipped]
      exact ih hfits
    | noSeparator =>
      rw [nodeValues, nodeNames_nil]
      simp [complete]
    | entry key value =>
      rw [hl] at hfits
      dsimp only
      rw [complete_entry]
      by_cases hkey : key = chars "BtDeviceNode"
      · rw [hkey, nodeValues_cons_node] at hfits
        obtain ⟨hstore, hfits⟩ := nodesFit_cons.mp hfits
        rw [if_pos hkey, dif_pos hstore, ih hfits, hkey, nodeValues_cons_node, nodeNames_cons hstore.1]
      · rw [nodeValues, if_neg hkey] at hfits ⊢
        rw [if_neg hkey]
        exact ih hfits

/-- `scanDeviceNodes`, when they do not fit. -/
theorem scanDeviceNodes_of_not_fits {ls : List (List UInt8)} {k : ℕ} (hk : k ≤ btComPortSize)
    {nodes : Port → List UInt8} (hfits : ¬ NodesFit k (nodeValues (ls.map confLine))) :
    scanDeviceNodes ls k nodes = none := by
  have hnil : NodesFit k [] := ⟨hk, nofun⟩
  induction ls generalizing k nodes with
  | nil => exact absurd hnil hfits
  | cons l ls ih =>
    rw [List.map_cons] at hfits
    rw [scanDeviceNodes]
    cases hl : confLine l with
    | skipped =>
      rw [hl] at hfits
      exact ih hk hfits hnil
    | noSeparator =>
      rw [hl] at hfits
      exact absurd hnil hfits
    | entry key value =>
      rw [hl] at hfits
      dsimp only
      by_cases hkey : key = chars "BtDeviceNode"
      · rw [hkey, nodeValues_cons_node, nodesFit_cons, not_and_or] at hfits
        rw [if_pos hkey]
        split
        · next hstore =>
          exact ih hstore.1 (hfits.resolve_left (not_not_intro hstore)) ⟨hstore.1, nofun⟩
        · rfl
      · rw [nodeValues, if_neg hkey] at hfits
        rw [if_neg hkey]
        exact ih hk hfits hnil

theorem loadSkwbtConf_of_fits {ls : List (List UInt8)} (hfits : NodesFit 0 (nodeValues (ls.map confLine))) :
    loadSkwbtConf (some ls) = some (confOf (ls.map confLine)) := by
  rw [loadSkwbtConf, scanDeviceNodes_of_fits hfits, Option.map_some]
  rfl

/-- **Refinement.** On memory in which no port has a name, `load_skwbt_conf` leaves the names and the
transport of `loadSkwbtConf`, and runs into a store outside where that has no result. -/
theorem loadSkwbtConfBytes_refines (content line : List UInt8) (g : NodeTables)
    (hnone : ∀ p, rowStrings g.portName p = []) :
    (∃ g' conf, (loadSkwbtConfBytes (some content) line g).final = some g' ∧
      loadSkwbtConf (some ((lines lineRoom content).map cstr)) = some conf ∧
      rowStrings g'.portName = conf.portName ∧
      g'.skwbtTranstype = conf.transtype.getD g.skwbtTranstype) ∨
    ((loadSkwbtConfBytes (some content) line g).final = none ∧
      loadSkwbtConf (some ((lines lineRoom content).map cstr)) = none) := by
  have hmap : ((lines lineRoom content).map cstr).map confLine = confLines (lines lineRoom content) := by
    rw [confLines, List.map_map]
    rfl
  by_cases hfits : NodesFit 0 (nodeValues (confLines (lines lineRoom content)))
  · obtain ⟨g', hfinal, -, hport, htype⟩ := loadSkwbtConfBytes_of_fits content line g hfits
    refine .inl ⟨g', _, hfinal, loadSkwbtConf_of_fits (hmap.symm ▸ hfits), ?_, ?_⟩
    · rw [hport hnone, hmap]
    · rw [htype, hmap]
  · refine .inr ⟨(loadSkwbtConfBytes_of_not_fits content line g hfits).1, ?_⟩
    rw [loadSkwbtConf, scanDeviceNodes_of_not_fits (Nat.zero_le _) (hmap.symm ▸ hfits)]
    rfl

/-! ## Files that are well formed -/

theorem nodeValues_filterMap (ss : List (List UInt8)) :
    nodeValues (ss.filterMap confEntry) = nodeValues (confLines ss) ∧
      complete (ss.filterMap confEntry) = complete (confLines ss) := by
  induction ss with
  | nil => exact ⟨rfl, rfl⟩
  | cons s ss ih =>
    rw [confLines_cons, List.filterMap_cons, confEntry]
    cases hs : confLine (cstr s) with
    | skipped =>
      rw [if_pos rfl, complete_skipped]
      exact ih
    | noSeparator =>
      rw [if_neg (by simp)]
      exact ⟨rfl, by simp [complete]⟩
    | entry key value =>
      rw [if_neg (by simp), complete_entry, complete_entry, nodeValues, nodeValues, ih.1]
      exact ⟨rfl, ih.2⟩

theorem filterMap_confEntry {content : List UInt8}
    (hshort : ∀ l ∈ content.splitOn newline, l.length < lineRoom) :
    (lines lineRoom content).filterMap confEntry = (content.splitOn newline).filterMap confEntry :=
  filterMap_lines confEntry_nil confEntry_append_newline hshort

/-- The value of a line of the text whose key is `BtDeviceNode`. -/
def nodeOf (line : List UInt8) : Option (List UInt8) :=
  if ¬ Skipped line ∧ keyOf line = chars "BtDeviceNode" then some (valueOf line) else none

/-- A file that is well formed, by the lines of its text: they are short and have no terminator in them,
all but blank lines, comments and sections have a separator, and the nodes fit the tables. -/
structure WellFormed (content : List UInt8) : Prop where
  short : ∀ l ∈ content.splitOn newline, l.length < 1023
  noNul : ∀ l ∈ content.splitOn newline, 0 ∉ l
  separated : ∀ l ∈ content.splitOn newline, ¬ Skipped l → 0x3d ∈ l
  ports : ((content.splitOn newline).filterMap nodeOf).length ≤ btComPortSize
  names : ∀ v ∈ (content.splitOn newline).filterMap nodeOf, v.length < deviceNodeMaxLen

/-- What well-formed lines hold: no line is without a separator, and the nodes are those of the text. -/
theorem nodeValues_of_separated {ls : List (List UInt8)} (hnul : ∀ l ∈ ls, (0 : UInt8) ∉ l)
    (hsep : ∀ l ∈ ls, ¬ Skipped l → 0x3d ∈ l) :
    nodeValues (ls.filterMap confEntry) = ls.filterMap nodeOf ∧
      complete (ls.filterMap confEntry) = true := by
  induction ls with
  | nil => exact ⟨rfl, rfl⟩
  | cons l ls ih =>
    obtain ⟨ihvals, ihcomp⟩ := ih (fun l' h => hnul l' (List.mem_cons_of_mem l h))
      fun l' h => hsep l' (List.mem_cons_of_mem l h)
    have hcstr : cstr l = l := cstr_of_notMem (hnul l List.mem_cons_self)
    rw [List.filterMap_cons, List.filterMap_cons, confEntry, hcstr, nodeOf]
    by_cases hskip : Skipped l
    · rw [confLine_of_skipped hskip, if_pos rfl, if_neg fun h => h.1 hskip]
      exact ⟨ihvals, ihcomp⟩
    · rw [confLine_of_separator hskip (hsep l List.mem_cons_self hskip), if_neg (by simp)]
      dsimp only
      rw [complete_entry, nodeValues, ihvals]
      refine ⟨?_, ihcomp⟩
      by_cases hkey : keyOf l = chars "BtDeviceNode"
      · rw [if_pos hkey, if_pos ⟨hskip, hkey⟩]
      · rw [if_neg hkey, if_neg fun h => hkey h.2]

theorem nodeNames_zero (vs : List (List UInt8)) (p : Port) :
    nodeNames 0 vs (fun _ => []) p = vs[p.val]?.getD [] := by
  rw [nodeNames, if_pos (Nat.zero_le _), List.getD_eq_getElem?_getD, Nat.sub_zero]

/-- The first node begins with `?`. -/
def uartNode (vs : List (List UInt8)) : Prop := (vs[0]?.getD []).head? = some 0x3f

instance (vs : List (List UInt8)) : Decidable (uartNode vs) := inferInstanceAs (Decidable (_ = _))

/-- What the lines make, when the loop has come to the end of the file. -/
theorem confOf_of_complete {es : List ConfLine} (hc : complete es = true) :
    confOf es =
      let names := nodeNames 0 (nodeValues es) fun _ => []
      if uartNode (nodeValues es) then
        ⟨Function.update names 0 (names 0).tail, some (skwbtTransTypeH4 ||| skwbtTransTypeUart)⟩
      else ⟨names, some skwbtTransTypeH4⟩ := by
  have hfirst : (nodeNames 0 (nodeValues es) (fun _ => []) 0).head? = some 0x3f ↔
      uartNode (nodeValues es) := by
    rw [nodeNames_zero, uartNode]
    rfl
  rw [confOf, if_pos hc]
  by_cases hmark : uartNode (nodeValues es)
  · rw [if_pos (hfirst.mpr hmark), if_pos hmark]
  · rw [if_neg fun h => hmark (hfirst.mp h), if_neg hmark]

/-- The names of the ports, when the loop has come to the end of the file. -/
theorem portName_confOf {es : List ConfLine} (hc : complete es = true) (p : Port) :
    (confOf es).portName p = match (nodeValues es)[p.val]? with
      | none => []
      | some value => if p = 0 ∧ value.head? = some 0x3f then value.tail else value := by
  rw [confOf_of_complete hc]
  by_cases hmark : uartNode (nodeValues es)
  · rw [if_pos hmark]
    dsimp only
    -- only the first name loses the question mark
    by_cases hp : p = 0
    · subst hp
      rw [Function.update_self, nodeNames_zero]
      cases hv : (nodeValues es)[(0 : Port).val]? with
      | none => rfl
      | some value =>
        rw [uartNode, show (nodeValues es)[0]? = some value from hv] at hmark
        exact (if_pos ⟨rfl, hmark⟩).symm
    · rw [Function.update_of_ne hp, nodeNames_zero]
      cases (nodeValues es)[p.val]? with
      | none => rfl
      | some value => exact (if_neg fun h => hp h.1).symm
  · rw [if_neg hmark]
    dsimp only
    rw [nodeNames_zero]
    cases hv : (nodeValues es)[p.val]? with
    | none => rfl
    | some value =>
      refine (if_neg ?_).symm
      rintro ⟨rfl, hhead⟩
      rw [uartNode, show (nodeValues es)[0]? = some value from hv] at hmark
      exact hmark hhead

/-- The transport, when the loop has come to the end of the file. -/
theorem transtype_confOf {es : List ConfLine} (hc : complete es = true) :
    (confOf es).transtype = some (if uartNode (nodeValues es) then skwbtTransTypeH4 ||| skwbtTransTypeUart
      else skwbtTransTypeH4) := by
  rw [confOf_of_complete hc]
  by_cases hmark : uartNode (nodeValues es)
  · rw [if_pos hmark, if_pos hmark]
  · rw [if_neg hmark, if_neg hmark]

/-- **The loader agrees with the grammar.** For a file that is well formed, run when no port has a name,
`load_skwbt_conf` gives port `i` the `i`-th node of the text, the other ports none, and sets the transport
to H4, and to UART as well exactly if the first node begins with `?`, which its port goes without. -/
theorem load_agrees {content : List UInt8} (hconf : WellFormed content) (line : List UInt8)
    (g : NodeTables) :
    ∃ g', (loadSkwbtConfBytes (some content) line g.scommVendorInit).final = some g' ∧
      (∀ p : Port, strAt (g'.portName p) 0 =
        match ((content.splitOn newline).filterMap nodeOf)[p.val]? with
        | none => []
        | some value => if p = 0 ∧ value.head? = some 0x3f then value.tail else value) ∧
      g'.skwbtTranstype =
        if uartNode ((content.splitOn newline).filterMap nodeOf) then skwbtTransTypeH4 ||| skwbtTransTypeUart
        else skwbtTransTypeH4 := by
  have hlines := nodeValues_filterMap (lines lineRoom content)
  obtain ⟨hvals, hcomp⟩ := nodeValues_of_separated hconf.noNul hconf.separated
  rw [filterMap_confEntry hconf.short, hvals, hcomp] at hlines
  obtain ⟨hvals', hcomp'⟩ := hlines
  have hfits : NodesFit 0 (nodeValues (confLines (lines lineRoom content))) :=
    hvals' ▸ ⟨by rw [Nat.zero_add]; exact hconf.ports, hconf.names⟩
  obtain ⟨g', hfinal, -, hport, htype⟩ := loadSkwbtConfBytes_of_fits content line g.scommVendorInit hfits
  refine ⟨g', hfinal, fun p => ?_, ?_⟩
  · rw [hvals', ← portName_confOf hcomp'.symm, ← hport fun _ => rfl]
    rfl
  · rw [htype, transtype_confOf hcomp'.symm, hvals', Option.getD_some]

/-- A file with a comment, two nodes, the first of them a UART, and no newline at its end. -/
def uartConf : List UInt8 := chars "# nodes\nBtDeviceNode = ?/dev/ttyS0\nBtDeviceNode=a=b"

theorem wellFormed_uartConf : WellFormed uartConf where
  short := by decide
  noNul := by decide
  separated := by decide
  ports := by decide
  names := by decide

/-- The tables of a program that starts. -/
def NodeTables.initial : NodeTables := ⟨fun _ => emptyRow, fun _ => emptyRow, fun _ => 0, 0⟩

theorem load_agrees_uartConf :
    ∃ g', (loadSkwbtConfBytes (some uartConf) [] NodeTables.initial.scommVendorInit).final = some g' ∧
      strAt (g'.portName 0) 0 = chars "/dev/ttyS0" ∧ strAt (g'.portName 1) 0 = chars "a=b" ∧
      strAt (g'.portName 2) 0 = [] ∧ g'.skwbtTranstype = 0x11 := by
  obtain ⟨g', hfinal, hport, htype⟩ := load_agrees wellFormed_uartConf [] .initial
  refine ⟨g', hfinal, (hport 0).trans ?_, (hport 1).trans ?_, (hport 2).trans ?_, htype.trans ?_⟩
  · decide
  · decide
  · decide
  · decide

end Seekwave
