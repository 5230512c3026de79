import Seekwave.Wlan.Interfaces

/-!
# The bounds of the interface table

`GetInterfacesCommand::parser` stores each message of the kernel in the entry `index`, which it then
counts up, and `skw_wifi_get_ifaces` copies as many entries as it has counted. Nothing compares the count
with `SKW_NR_IFACE`, the length of all three tables. The writes of both loops are listed beside them
(`parserWrites`, `copyWrites`), each with the entry and the bytes that `strcpy` puts into its name;
`dump_inside_iff` says which dumps keep them inside.
-/

open Memory

namespace Seekwave

/-- A write to an entry of a table, with the bytes that `strcpy` stores in its name, terminator
included. -/
structure EntryWrite where
  entry : ℕ
  nameBytes : ℕ
deriving DecidableEq, Repr

/-- The bytes that `strcpy` stores. -/
def strcpyBytes (src : List UInt8) : ℕ := (cstr src).length + 1

/-- What one call of the parser writes. One of the two indices is assigned in any case. -/
def parserWrite (cmd : GetInterfacesCommand) (attr : IfaceAttrs) : EntryWrite :=
  ⟨cmd.index, attr.ifname.elim 0 strcpyBytes⟩

/-- What the parser writes for the messages of a dump. -/
def parserWrites : GetInterfacesCommand → List IfaceAttrs → List EntryWrite
  | _, [] => []
  | cmd, attr :: dump => parserWrite cmd attr :: parserWrites (cmd.parser attr) dump

/-- What the loop of `skw_wifi_get_ifaces` writes, in `interfaces` and in `interface_handle`. -/
def copyWrites (cmd : GetInterfacesCommand) : List EntryWrite :=
  (List.range cmd.index).map fun i => ⟨i, strcpyBytes (cmd.ifaces i).name⟩

/-- The command when the dump has been received, on the stack memory `mem`. -/
def afterDump (mem : ℕ → InterfaceInfo) (dump : List IfaceAttrs) : GetInterfacesCommand :=
  dump.foldl .parser (.new mem)

/-- A dump stays inside the tables: the parser writes entries below `SKW_NR_IFACE`, the count is at most
that, and the copy writes entries below the count. No name overruns its field, and what is not written
stays as it was. -/
structure DumpInside (mem : ℕ → InterfaceInfo) (dump : List IfaceAttrs) (hal : HalInfo) (r : WifiError)
    (hal' : HalInfo) : Prop where
  parser : ∀ w ∈ parserWrites (.new mem) dump, w.entry < skwNrIface ∧ w.nameBytes ≤ ifnamsiz + 1
  count : r = .success → hal'.nrInterfaces ≤ skwNrIface
  copy : ∀ w ∈ copyWrites (afterDump mem dump),
    w.entry < hal'.nrInterfaces ∧ w.nameBytes ≤ ifnamsiz + 1
  unparsed : ∀ i, (∀ w ∈ parserWrites (.new mem) dump, w.entry ≠ i) →
    (afterDump mem dump).ifaces i = (GetInterfacesCommand.new mem).ifaces i
  uncopied : ∀ i, (∀ w ∈ copyWrites (afterDump mem dump), w.entry ≠ i) →
    hal'.interfaces i = hal.clear.interfaces i ∧ hal'.interfaceHandle i = hal.interfaceHandle i

/-- The name that a message leaves in its entry: its own, or what the entry held. -/
def nameAfter (mem : ℕ → InterfaceInfo) (i : ℕ) (attr : IfaceAttrs) : List UInt8 :=
  attr.ifname.getD (Function.update mem 0 .zero i).name

/-- When a dump stays inside: each message has an index, there are no more of them than the tables have
entries, and no name is longer than its field. -/
structure DumpFits (mem : ℕ → InterfaceInfo) (dump : List IfaceAttrs) : Prop where
  index : ∀ attr ∈ dump, attr.Indexed
  atMost : dump.length ≤ skwNrIface
  name : ∀ i attr, dump[i]? = some attr → (cstr (nameAfter mem i attr)).length ≤ ifnamsiz

/-! ## The writes of a dump -/

/-- The parser touches no entry but the one it is listed with. -/
theorem parser_ifaces_of_ne {cmd : GetInterfacesCommand} {attr : IfaceAttrs} {i : ℕ}
    (h : (parserWrite cmd attr).entry ≠ i) : (cmd.parser attr).ifaces i = cmd.ifaces i :=
  Function.update_of_ne h.symm _ _

/-- A dump leaves the entries alone that the parser does not write. -/
theorem foldl_parser_ifaces {cmd : GetInterfacesCommand} {dump : List IfaceAttrs} {i : ℕ}
    (h : ∀ w ∈ parserWrites cmd dump, w.entry ≠ i) : (dump.foldl .parser cmd).ifaces i = cmd.ifaces i := by
  induction dump generalizing cmd with
  | nil => rfl
  | cons attr dump ih =>
    rw [List.foldl_cons, ih fun w hw => h w (List.mem_cons_of_mem _ hw),
      parser_ifaces_of_ne (h _ List.mem_cons_self)]

/-- The writes are one for each message, from `index` on. -/
theorem mem_parserWrites {cmd : GetInterfacesCommand} {dump : List IfaceAttrs} {w : EntryWrite} :
    w ∈ parserWrites cmd dump ↔ ∃ i attr, dump[i]? = some attr ∧
      w = ⟨cmd.index + i, attr.ifname.elim 0 strcpyBytes⟩ := by
  induction dump generalizing cmd with
  | nil => simp [parserWrites]
  | cons attr dump ih =>
    rw [parserWrites, List.mem_cons, ih]
    constructor
    · rintro (rfl | ⟨i, attr', hattr, rfl⟩)
      · exact ⟨0, attr, rfl, rfl⟩
      · refine ⟨i + 1, attr', hattr, ?_⟩
        rw [GetInterfacesCommand.parser, Nat.add_right_comm, Nat.add_assoc]
    · rintro ⟨i, attr', hattr, rfl⟩
      cases i with
      | zero =>
        obtain rfl := Option.some.inj hattr
        exact .inl rfl
      | succ i =>
        refine .inr ⟨i, attr', hattr, ?_⟩
        rw [GetInterfacesCommand.parser, Nat.add_right_comm, Nat.add_assoc]

theorem index_afterDump (mem : ℕ → InterfaceInfo) (dump : List IfaceAttrs) :
    (afterDump mem dump).index = dump.length :=
  (ifaces_after_dump mem dump).1

/-- The name of an entry, as the copy finds it. -/
theorem cstr_name_afterDump (mem : ℕ → InterfaceInfo) {dump : List IfaceAttrs} {i : ℕ}
    {attr : IfaceAttrs} (hattr : dump[i]? = some attr) :
    cstr ((afterDump mem dump).ifaces i).name = cstr (nameAfter mem i attr) := by
  rw [afterDump, (ifaces_after_dump mem dump).2, hattr]
  show cstr (parseEntry _ attr).name = _
  rw [nameAfter]
  cases hname : attr.ifname with
  | none =>
    simp only [parseEntry, hname, Option.getD_none]
    cases attr.ifindex <;> rfl
  | some ifname => exact cstr_parseEntry _ hname

/-- The copy writes one entry for each message. -/
theorem mem_copyWrites {mem : ℕ → InterfaceInfo} {dump : List IfaceAttrs} {w : EntryWrite} :
    w ∈ copyWrites (afterDump mem dump) ↔
      ∃ i attr, dump[i]? = some attr ∧ w = ⟨i, strcpyBytes (nameAfter mem i attr)⟩ := by
  rw [copyWrites, index_afterDump, List.mem_map]
  constructor
  · rintro ⟨i, hi, rfl⟩
    have hattr := List.getElem?_eq_getElem (List.mem_range.mp hi)
    refine ⟨i, _, hattr, ?_⟩
    rw [strcpyBytes, cstr_name_afterDump mem hattr, strcpyBytes]
  · rintro ⟨i, attr, hattr, rfl⟩
    refine ⟨i, List.mem_range.mpr (List.getElem?_eq_some_iff.mp hattr).1, ?_⟩
    rw [strcpyBytes, cstr_name_afterDump mem hattr, strcpyBytes]

/-- The copying loop sets the handles up to its bound. -/
theorem interfaceHandle_foldl_copyIface (handle n : ℕ) (cmd : GetInterfacesCommand) (hal : HalInfo)
    {i : ℕ} (hi : n ≤ i) :
    ((List.range n).foldl (copyIface handle cmd) hal).interfaceHandle i = hal.interfaceHandle i := by
  induction n with
  | zero => rfl
  | succ n ih =>
    rw [List.range_succ, List.foldl_append, List.foldl_cons, List.foldl_nil, copyIface]
    show Function.update _ n _ i = _
    rw [Function.update_of_ne (by omega), ih (by omega)]

/-- The table of a dump, behind the entries that the copy writes. -/
theorem tableOf_of_le (handle : ℕ) (hal : HalInfo) (mem : ℕ → InterfaceInfo) {dump : List IfaceAttrs}
    {i : ℕ} (hi : dump.length ≤ i) :
    (tableOf handle hal mem dump).interfaces i = hal.clear.interfaces i ∧
      (tableOf handle hal mem dump).interfaceHandle i = hal.interfaceHandle i := by
  refine ⟨interfaces_tableOf_of_le handle hal mem hi, ?_⟩
  rw [tableOf, copyIfaces, interfaceHandle_foldl_copyIface _ _ _ _ (by rwa [← index_afterDump mem] at hi)]
  rfl

/-! ## The dumps that stay inside -/

/-- The writes of the parser are inside exactly if the dump is short and its names are. -/
theorem parserWrites_inside_iff {mem : ℕ → InterfaceInfo} {dump : List IfaceAttrs} :
    (∀ w ∈ parserWrites (.new mem) dump, w.entry < skwNrIface ∧ w.nameBytes ≤ ifnamsiz + 1) ↔
      dump.length ≤ skwNrIface ∧ ∀ attr ∈ dump, attr.ifname.elim 0 strcpyBytes ≤ ifnamsiz + 1 := by
  have hindex : (GetInterfacesCommand.new mem).index = 0 := rfl
  constructor
  · intro h
    constructor
    · by_contra hlong
      have hattr := List.getElem?_eq_getElem (show skwNrIface < dump.length by omega)
      have hlt := (h _ (mem_parserWrites.mpr ⟨_, _, hattr, rfl⟩)).1
      rw [hindex, Nat.zero_add] at hlt
      exact Nat.lt_irrefl _ hlt
    · intro attr hattr
      obtain ⟨i, hi⟩ := List.mem_iff_getElem?.mp hattr
      exact (h _ (mem_parserWrites.mpr ⟨i, attr, hi, rfl⟩)).2
  · rintro ⟨hmax, hname⟩ w hw
    obtain ⟨i, attr, hattr, rfl⟩ := mem_parserWrites.mp hw
    have hlt := (List.getElem?_eq_some_iff.mp hattr).1
    exact ⟨by rw [hindex]; dsimp only; omega, hname attr (List.mem_of_getElem? hattr)⟩

/-- For a dump that has messages. -/
theorem dumpInside_tableOf_iff (handle : ℕ) (hal : HalInfo) (mem : ℕ → InterfaceInfo)
    {dump : List IfaceAttrs} (hindex : ∀ attr ∈ dump, attr.Indexed) :
    DumpInside mem dump hal .success (tableOf handle hal mem dump) ↔ DumpFits mem dump := by
  have hnr := nrInterfaces_tableOf handle hal mem dump
  constructor
  · intro h
    refine ⟨hindex, hnr ▸ h.count rfl, fun i attr hattr => ?_⟩
    exact Nat.le_of_succ_le_succ (h.copy _ (mem_copyWrites.mpr ⟨i, attr, hattr, rfl⟩)).2
  · intro h
    refine ⟨parserWrites_inside_iff.mpr ⟨h.atMost, fun attr hattr => ?_⟩, fun _ => hnr ▸ h.atMost,
      fun w hw => ?_, fun i hi => foldl_parser_ifaces hi, fun i hi => ?_⟩
    · obtain ⟨i, hi⟩ := List.mem_iff_getElem?.mp hattr
      have hname := h.name i attr hi
      rw [nameAfter] at hname
      cases hifname : attr.ifname with
      | none => exact Nat.zero_le _
      | some ifname =>
        rw [hifname] at hname
        exact Nat.succ_le_succ hname
    · obtain ⟨i, attr, hattr, rfl⟩ := mem_copyWrites.mp hw
      refine ⟨?_, Nat.succ_le_succ (h.name i attr hattr)⟩
      rw [hnr]
      exact (List.getElem?_eq_some_iff.mp hattr).1
    · refine tableOf_of_le handle hal mem ?_
      by_contra hlt
      have hattr := List.getElem?_eq_getElem (show i < dump.length by omega)
      exact hi _ (mem_copyWrites.mpr ⟨i, _, hattr, rfl⟩) rfl

/-- A dump without messages writes nothing. -/
theorem dumpInside_nil (mem : ℕ → InterfaceInfo) (hal : HalInfo) :
    DumpInside mem [] hal .unknown hal.clear where
  parser _ hw := absurd hw List.not_mem_nil
  count h := nomatch h
  copy _ hw := absurd hw List.not_mem_nil
  unparsed _ _ := rfl
  uncopied _ _ := ⟨rfl, rfl⟩

section Runs

variable {μ : Type} {L : Libnl μ IfaceAttrs} {k kEnd : L.Sock} {before : List (List μ)} {last : List μ}
variable {term : Terminator}

/-- **A dump stays inside the tables, exactly when.** For any number of messages of the kernel, whatever
ends them, `skw_wifi_get_ifaces` returns and stays inside the tables if and only if each message has an
index, there are no more messages than entries, and no name is longer than its field. -/
theorem dump_inside_iff (handle : ℕ) (hal : HalInfo) (mem : ℕ → InterfaceInfo)
    (hsent : 0 < (L.sendAutoComplete k).1)
    (hdel : L.Delivers (L.sendAutoComplete k).2 (replyCalls before last term) kEnd) :
    (∃ r hal', SkwWifiGetIfaces L true k mem handle hal r hal' kEnd ∧
        DumpInside mem ((before.flatten ++ last).map L.nlaParse) hal r hal') ↔
      DumpFits mem ((before.flatten ++ last).map L.nlaParse) := by
  have hrun := @skwWifiGetIfaces_reply μ L k kEnd before last handle hal mem term hsent hdel _ rfl
  generalize (before.flatten ++ last).map L.nlaParse = dump at hrun ⊢
  by_cases hindex : ∀ attr ∈ dump, attr.Indexed
  · by_cases hnil : dump = []
    · subst hnil
      have hfits : DumpFits mem [] := ⟨hindex, Nat.zero_le _, fun i attr h => by simp at h⟩
      exact iff_of_true ⟨_, _, (hrun _ _ _).mpr ⟨hindex, rfl⟩, dumpInside_nil mem hal⟩ hfits
    · rw [← dumpInside_tableOf_iff handle hal mem hindex]
      constructor
      · rintro ⟨r, hal', hget, hinside⟩
        have heq := ((hrun _ _ _).mp hget).2
        rw [if_neg hnil] at heq
        obtain ⟨rfl, rfl, -⟩ := heq
        exact hinside
      · intro hinside
        exact ⟨_, _, (hrun _ _ _).mpr ⟨hindex, (if_neg hnil).symm⟩, hinside⟩
  · -- the parser reads through a null pointer, and nothing returns
    refine iff_of_false ?_ fun hfits => hindex hfits.index
    rintro ⟨r, hal', hget, -⟩
    exact hindex ((hrun _ _ _).mp hget).1

end Runs

theorem dump_inside_iff_oneIface :
    (∃ r hal', SkwWifiGetIfaces (queueNl IfaceAttrs) true (replyCalls [] oneIface .finish) dirtyStack 1
        .initial r hal' [] ∧ DumpInside dirtyStack oneIface .initial r hal') ↔
      DumpFits dirtyStack oneIface :=
  @dump_inside_iff IfaceAttrs (queueNl IfaceAttrs) (replyCalls [] oneIface .finish) [] [] oneIface
    .finish 1 .initial dirtyStack (by decide) (queueNl_delivers _)

/-- A dump of nine interfaces with an `IFINDEX` and a name each. -/
def nineIfaces : List IfaceAttrs := List.replicate 9 ⟨some 3, none, some [0x77, 0x30, 0x00]⟩

/-- The ninth message is stored behind the array of the parser, and the count and the copy follow. -/
theorem nineIfaces_overrun :
    ∃ hal', SkwWifiGetIfaces (queueNl IfaceAttrs) true (replyCalls [] nineIfaces .finish) dirtyStack 1
        .initial .success hal' [] ∧
      (∃ w ∈ parserWrites (.new dirtyStack) nineIfaces, w.entry = skwNrIface) ∧
      hal'.nrInterfaces = 9 ∧
      ∃ w ∈ copyWrites (afterDump dirtyStack nineIfaces), w.entry = skwNrIface := by
  have hrun := @skwWifiGetIfaces_reply IfaceAttrs (queueNl IfaceAttrs) (replyCalls [] nineIfaces .finish)
    [] [] nineIfaces 1 .initial dirtyStack .finish (by decide) (queueNl_delivers _) nineIfaces
    (List.map_id _)
  refine ⟨_, (hrun _ _ _).mpr ⟨by decide, rfl⟩, by decide, nrInterfaces_tableOf .., by decide⟩

end Seekwave
