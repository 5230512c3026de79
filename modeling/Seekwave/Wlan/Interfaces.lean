import Seekwave.Lib.Memory
import Seekwave.Wlan.Command

/-!
# The interface table of the Wi-Fi HAL

`skw_wifi_get_ifaces` of `main.cpp` asks the kernel for its interfaces and copies what the parser of
`GetInterfacesCommand` has stored into `hal->interfaces`. Of each entry the parser sets one of
`iface_idx` and `wdev_idx`, and the constructor has cleared the first entry only: from the second one
on, the index the kernel did not give is what the stack held before. `ifaces_reflect_iff` says for which
dumps the table depends on the kernel alone.

The commands built for an interface choose between its two indices by whether `wdev_idx` is zero
(`ifaceAttr`), so that a left-over value there changes whom they address.
-/

open Memory

namespace Seekwave

/-! ## The table -/

/-- `SKW_NR_IFACE`. -/
def skwNrIface : ℕ := 8

/-- `IFNAMSIZ`. -/
def ifnamsiz : ℕ := 16

/-- `interface_info`. The two indices are kept as 32-bit words, and a pointer as its address. -/
structure InterfaceInfo where
  ifaceIdx : UInt32
  wdevIdx : UInt32
  halHandle : ℕ
  name : List UInt8
deriving DecidableEq, Repr

/-- An entry cleared by `memset`. -/
def InterfaceInfo.zero : InterfaceInfo := ⟨0, 0, 0, List.replicate (ifnamsiz + 1) 0⟩

/-- The attributes that the parser of `GetInterfacesCommand` looks at: a `u32`, a `u64` and a string. -/
structure IfaceAttrs where
  ifindex : Option UInt32
  wdev : Option UInt64
  ifname : Option (List UInt8)
deriving DecidableEq, Repr

/-- A message that says which interface it is about. -/
def IfaceAttrs.Indexed (attr : IfaceAttrs) : Prop := attr.ifindex.isSome ∨ attr.wdev.isSome

instance (attr : IfaceAttrs) : Decidable attr.Indexed := by unfold IfaceAttrs.Indexed; infer_instance

/-- The fields of `GetInterfacesCommand`: `ifaces` is the memory from the array on, entry by entry. -/
structure GetInterfacesCommand where
  index : ℕ
  ifaces : ℕ → InterfaceInfo
  /-- `nla_get_u32` has been given a null pointer, which ends the process -/
  crashed : Bool

/-- The constructor, on the stack memory `mem`: `memset(ifaces, 0x0, sizeof(interface_info))`. -/
def GetInterfacesCommand.new (mem : ℕ → InterfaceInfo) : GetInterfacesCommand :=
  ⟨0, Function.update mem 0 .zero, false⟩

/-- What the parser stores in the entry of a message. `nla_get_u32` of a `u64` gives its low half. -/
def parseEntry (e : InterfaceInfo) (attr : IfaceAttrs) : InterfaceInfo :=
  let e' := match attr.ifindex with
    | some ifindex => { e with ifaceIdx := ifindex }
    | none => { e with wdevIdx := (attr.wdev.map UInt64.toUInt32).getD e.wdevIdx }
  match attr.ifname with
  | some ifname => { e' with name := strcpy e'.name ifname }
  | none => e'

/-- `GetInterfacesCommand::parser`. -/
def GetInterfacesCommand.parser (cmd : GetInterfacesCommand) (attr : IfaceAttrs) :
    GetInterfacesCommand :=
  ⟨cmd.index + 1, Function.update cmd.ifaces cmd.index (parseEntry (cmd.ifaces cmd.index) attr),
    cmd.crashed || decide ¬ attr.Indexed⟩

/-- The part of `hal_info` that `skw_wifi_get_ifaces` writes. `interfaceHandle i` is the entry that
`interface_handle[i]` points to. -/
structure HalInfo where
  nrInterfaces : ℕ
  interfaces : ℕ → InterfaceInfo
  interfaceHandle : ℕ → Option ℕ

/-- `memset(hal->interfaces, 0x0, sizeof(hal->interfaces))`. -/
def HalInfo.clear (hal : HalInfo) : HalInfo :=
  { hal with interfaces := fun i => if i < skwNrIface then .zero else hal.interfaces i }

/-- What the loop of `skw_wifi_get_ifaces` makes of one entry. -/
def copyEntry (handle : ℕ) (e src : InterfaceInfo) : InterfaceInfo where
  ifaceIdx := src.ifaceIdx
  wdevIdx := src.wdevIdx
  halHandle := handle
  name := strcpy e.name src.name

/-- One pass of the loop of `skw_wifi_get_ifaces`. -/
def copyIface (handle : ℕ) (cmd : GetInterfacesCommand) (hal : HalInfo) (i : ℕ) : HalInfo :=
  { hal with
    interfaces := Function.update hal.interfaces i
      (copyEntry handle (hal.interfaces i) (cmd.ifaces i))
    interfaceHandle := Function.update hal.interfaceHandle i (some i) }

/-- The loop over the `nr_interfaces` entries. -/
def copyIfaces (handle : ℕ) (cmd : GetInterfacesCommand) (hal : HalInfo) : HalInfo :=
  (List.range cmd.index).foldl (copyIface handle cmd) { hal with nrInterfaces := cmd.index }

variable {μ : Type}

/-- `skw_wifi_get_ifaces`, on the stack memory `mem`. The result of `send` is not looked at. A message
without an index ends the process in the parser. -/
inductive SkwWifiGetIfaces (L : Libnl μ IfaceAttrs) (cbAlloc : Bool) (k : L.Sock)
    (mem : ℕ → InterfaceInfo) (handle : ℕ) (hal : HalInfo) : WifiError → HalInfo → L.Sock → Prop
  | none {r : WifiError} {cmd : GetInterfacesCommand} {k' : L.Sock}
      (hsend : SendMsg L .parser cbAlloc k (.new mem) r cmd k') (halive : cmd.crashed = false)
      (h : cmd.index = 0) :
      SkwWifiGetIfaces L cbAlloc k mem handle hal .unknown hal.clear k'
  | some {r : WifiError} {cmd : GetInterfacesCommand} {k' : L.Sock}
      (hsend : SendMsg L .parser cbAlloc k (.new mem) r cmd k') (halive : cmd.crashed = false)
      (h : cmd.index ≠ 0) :
      SkwWifiGetIfaces L cbAlloc k mem handle hal .success (copyIfaces handle cmd hal.clear) k'

/-! ## Commands for an interface -/

def ouiGoogle : UInt32 := 0x001A11

def skwVcmdGetChannels : UInt32 := 0x1009
def skwVcmdSetCountry : UInt32 := 0x100E
def skwVcmdGetVersion : UInt32 := 0x1403
def skwVcmdGetRingBuffersStatus : UInt32 := 0x1404
def skwVcmdGetLoggerFeatures : UInt32 := 0x1406
def skwVcmdGetApfCapabilities : UInt32 := 0x1800
def skwVcmdGetUsableChans : UInt32 := 0x2000

def skwAttrBand : ℕ := 20

/-- An attribute that a command puts in its message. -/
inductive NlAttr
  | wdev (value : UInt32)
  | ifindex (value : UInt32)
  | vendorId (value : UInt32)
  | vendorSubcmd (value : UInt32)
  /-- `NL80211_ATTR_VENDOR_DATA` with a `u32`, a string, or bytes in it -/
  | vendorU32 (type : ℕ) (value : UInt32)
  | vendorString (type : ℕ) (value : List UInt8)
  | vendorData (data : List UInt8)
deriving DecidableEq, Repr

/-- The interface that a command is for. -/
def ifaceAttr (iface : InterfaceInfo) : NlAttr :=
  if iface.wdevIdx ≠ 0 then .wdev iface.wdevIdx else .ifindex iface.ifaceIdx

/-- The vendor command of a message. -/
def vendorAttrs (subcmd : UInt32) : List NlAttr := [.vendorId ouiGoogle, .vendorSubcmd subcmd]

namespace Build

variable (iface : InterfaceInfo)

def getValidChannelsCommand (band : UInt32) : List NlAttr :=
  ifaceAttr iface :: vendorAttrs skwVcmdGetChannels ++ [.vendorU32 skwAttrBand band]

def setCountryCodeCommand (country : List UInt8) : List NlAttr :=
  vendorAttrs skwVcmdSetCountry ++ [ifaceAttr iface, .vendorString 5 country]

def getVersionCommand (subcmd : ℕ) : List NlAttr :=
  vendorAttrs skwVcmdGetVersion ++ [ifaceAttr iface, .vendorU32 subcmd 0]

def getRingBuffStatus : List NlAttr :=
  vendorAttrs skwVcmdGetRingBuffersStatus ++ [ifaceAttr iface]

def getLoggerFeature : List NlAttr := vendorAttrs skwVcmdGetLoggerFeatures ++ [ifaceAttr iface]

def getPacketFilterCapa : List NlAttr := vendorAttrs skwVcmdGetApfCapabilities ++ [ifaceAttr iface]

def getUsableChannels (info : List UInt8) : List NlAttr :=
  ifaceAttr iface :: vendorAttrs skwVcmdGetUsableChans ++ [.vendorData info]

end Build

/-- The commands that are built for an interface, with the parameter of their `build`. -/
inductive IfaceCommand
  | getValidChannelsCommand (band : UInt32)
  | setCountryCodeCommand (country : List UInt8)
  | getVersionCommand (subcmd : ℕ)
  | getRingBuffStatus
  | getLoggerFeature
  | getPacketFilterCapa
  | getUsableChannels (info : List UInt8)
deriving DecidableEq, Repr

def IfaceCommand.build (iface : InterfaceInfo) : IfaceCommand → List NlAttr
  | .getValidChannelsCommand band => Build.getValidChannelsCommand iface band
  | .setCountryCodeCommand country => Build.setCountryCodeCommand iface country
  | .getVersionCommand subcmd => Build.getVersionCommand iface subcmd
  | .getRingBuffStatus => Build.getRingBuffStatus iface
  | .getLoggerFeature => Build.getLoggerFeature iface
  | .getPacketFilterCapa => Build.getPacketFilterCapa iface
  | .getUsableChannels info => Build.getUsableChannels iface info

/-- Every command names its interface by `IFINDEX` exactly if `wdev_idx` is zero. -/
theorem IfaceCommand.build_ifindex_iff (iface : InterfaceInfo) (c : IfaceCommand) :
    (∃ v, .ifindex v ∈ c.build iface) ↔ iface.wdevIdx = 0 := by
  have hattr : (∃ v, NlAttr.ifindex v = ifaceAttr iface) ↔ iface.wdevIdx = 0 := by
    by_cases h : iface.wdevIdx = 0
    · simp [ifaceAttr, h]
    · simp [ifaceAttr, h]
  rw [← hattr]
  cases c <;>
    simp [IfaceCommand.build, Build.getValidChannelsCommand, Build.setCountryCodeCommand,
      Build.getVersionCommand, Build.getRingBuffStatus, Build.getLoggerFeature,
      Build.getPacketFilterCapa, Build.getUsableChannels, vendorAttrs]

/-! ## What the parser and the copy leave -/

/-- The parser fills the entries one after the other, each from its own message, and no other. -/
theorem ifaces_after_dump (mem : ℕ → InterfaceInfo) (dump : List IfaceAttrs) :
    (dump.foldl GetInterfacesCommand.parser (.new mem)).index = dump.length ∧
      ∀ i, (dump.foldl GetInterfacesCommand.parser (.new mem)).ifaces i =
        dump[i]?.elim (Function.update mem 0 .zero i) (parseEntry (Function.update mem 0 .zero i)) := by
  induction dump using List.reverseRecOn with
  | nil => exact ⟨rfl, fun _ => rfl⟩
  | append_singleton dump attr ih =>
    obtain ⟨hindex, hifaces⟩ := ih
    rw [List.foldl_append, List.foldl_cons, List.foldl_nil, GetInterfacesCommand.parser, hindex]
    refine ⟨by simp, fun i => ?_⟩
    show Function.update _ dump.length _ i = _
    rcases Nat.lt_trichotomy i dump.length with hlt | rfl | hgt
    · rw [Function.update_of_ne (Nat.ne_of_lt hlt), hifaces, List.getElem?_append_left hlt]
    · rw [Function.update_self, hifaces, List.getElem?_concat_length, List.getElem?_eq_none (by simp)]
      rfl
    · rw [Function.update_of_ne (by omega), hifaces, List.getElem?_eq_none (by omega),
        List.getElem?_eq_none (by rw [List.length_append, List.length_singleton]; omega)]

/-- The parser gets through a dump exactly if each of its messages has an index. -/
theorem crashed_after_dump (mem : ℕ → InterfaceInfo) (dump : List IfaceAttrs) :
    (dump.foldl GetInterfacesCommand.parser (.new mem)).crashed = false ↔ ∀ attr ∈ dump, attr.Indexed := by
  induction dump using List.reverseRecOn with
  | nil => exact iff_of_true rfl fun _ h => absurd h List.not_mem_nil
  | append_singleton dump attr ih =>
    rw [List.foldl_append, List.foldl_cons, List.foldl_nil, GetInterfacesCommand.parser,
      List.forall_mem_append, ← ih, List.forall_mem_singleton, Bool.or_eq_false_iff,
      decide_eq_false_iff_not, not_not]

/-- The copying loop sets the entries up to its bound. -/
theorem interfaces_foldl_copyIface (handle n : ℕ) (cmd : GetInterfacesCommand) (hal : HalInfo) :
    ((List.range n).foldl (copyIface handle cmd) hal).nrInterfaces = hal.nrInterfaces ∧
      ∀ i, ((List.range n).foldl (copyIface handle cmd) hal).interfaces i =
        if i < n then copyEntry handle (hal.interfaces i) (cmd.ifaces i) else hal.interfaces i := by
  induction n with
  | zero => exact ⟨rfl, fun i => by rw [if_neg (Nat.not_lt_zero i)]; rfl⟩
  | succ n ih =>
    obtain ⟨hnr, hentry⟩ := ih
    rw [List.range_succ, List.foldl_append, List.foldl_cons, List.foldl_nil, copyIface]
    refine ⟨hnr, fun i => ?_⟩
    show Function.update _ n _ i = _
    rcases Nat.lt_trichotomy i n with hlt | rfl | hgt
    · rw [Function.update_of_ne (Nat.ne_of_lt hlt), hentry, if_pos hlt, if_pos (by omega)]
    · rw [Function.update_self, hentry, if_neg (Nat.lt_irrefl i), if_pos (by omega)]
    · rw [Function.update_of_ne (by omega), hentry, if_neg (by omega), if_neg (by omega)]

/-- The table made of a dump, on the stack memory `mem`. -/
def tableOf (handle : ℕ) (hal : HalInfo) (mem : ℕ → InterfaceInfo) (dump : List IfaceAttrs) : HalInfo :=
  copyIfaces handle (dump.foldl GetInterfacesCommand.parser (.new mem)) hal.clear

/-- The entries of the table, each by its message and the left-over memory of its entry. -/
theorem interfaces_tableOf (handle : ℕ) (hal : HalInfo) (mem : ℕ → InterfaceInfo)
    {dump : List IfaceAttrs} (hmax : dump.length ≤ skwNrIface) {i : ℕ} {attr : IfaceAttrs}
    (hattr : dump[i]? = some attr) :
    (tableOf handle hal mem dump).interfaces i =
      copyEntry handle .zero (parseEntry (Function.update mem 0 .zero i) attr) := by
  obtain ⟨hindex, hifaces⟩ := ifaces_after_dump mem dump
  have hlt : i < dump.length := (List.getElem?_eq_some_iff.mp hattr).1
  rw [tableOf, copyIfaces, (interfaces_foldl_copyIface ..).2, hindex, if_pos hlt, hifaces, hattr]
  congr 1
  show (if i < skwNrIface then _ else _) = _
  rw [if_pos (by omega)]

theorem nrInterfaces_tableOf (handle : ℕ) (hal : HalInfo) (mem : ℕ → InterfaceInfo)
    (dump : List IfaceAttrs) : (tableOf handle hal mem dump).nrInterfaces = dump.length := by
  rw [tableOf, copyIfaces, (interfaces_foldl_copyIface ..).1]
  exact (ifaces_after_dump mem dump).1

/-- Behind the entries of the dump the table does not depend on the stack. -/
theorem interfaces_tableOf_of_le (handle : ℕ) (hal : HalInfo) (mem : ℕ → InterfaceInfo)
    {dump : List IfaceAttrs} {i : ℕ} (hi : dump.length ≤ i) :
    (tableOf handle hal mem dump).interfaces i = hal.clear.interfaces i := by
  rw [tableOf, copyIfaces, (interfaces_foldl_copyIface ..).2, (ifaces_after_dump mem dump).1,
    if_neg (Nat.not_lt.mpr hi)]

/-! ## What the table is to hold -/

/-- A dump of the kernel: each message has a name that fits, and an index. -/
structure IfaceDump (dump : List IfaceAttrs) : Prop where
  nonempty : dump ≠ []
  atMost : dump.length ≤ skwNrIface
  name : ∀ attr ∈ dump, ∃ ifname, attr.ifname = some ifname ∧ (cstr ifname).length < ifnamsiz
  index : ∀ attr ∈ dump, attr.Indexed

/-- The entry of a message: its name, the index it gives, and zero for the other. -/
structure EntryOf (attr : IfaceAttrs) (e : InterfaceInfo) : Prop where
  name : attr.ifname.map cstr = some (cstr e.name)
  ifindex : ∀ v, attr.ifindex = some v → e.ifaceIdx = v ∧ e.wdevIdx = 0
  wdev : attr.ifindex = none → e.ifaceIdx = 0 ∧ attr.wdev.map UInt64.toNat = some e.wdevIdx.toNat

/-- The table reflects a dump: one entry for each message, in order, and each command built for an
entry names it by `IFINDEX` exactly if its message did. -/
structure Reflects (dump : List IfaceAttrs) (hal : HalInfo) : Prop where
  count : hal.nrInterfaces = dump.length
  entry : ∀ i attr, dump[i]? = some attr → EntryOf attr (hal.interfaces i)
  address : ∀ i attr, dump[i]? = some attr → ∀ c : IfaceCommand,
    (∃ v, .ifindex v ∈ c.build (hal.interfaces i)) ↔ attr.ifindex.isSome

/-- An interface that has no `IFINDEX` has a `WDEV` that the 32 bits of `wdev_idx` hold, not zero. -/
def WdevFits (attr : IfaceAttrs) : Prop :=
  attr.ifindex = none → ∃ w, attr.wdev = some w ∧ 0 < w.toNat ∧ w.toNat < 2 ^ 32

/-- The index that the parser does not set is zero in the entry before. -/
def Clean (attr : IfaceAttrs) (e : InterfaceInfo) : Prop :=
  if attr.ifindex.isSome then e.wdevIdx = 0 else e.ifaceIdx = 0

/-! ## When it does -/

theorem cstr_parseEntry (e : InterfaceInfo) {attr : IfaceAttrs} {ifname : List UInt8}
    (h : attr.ifname = some ifname) : cstr (parseEntry e attr).name = cstr ifname := by
  simp only [parseEntry, h, cstr_strcpy]

theorem parseEntry_of_ifindex (e : InterfaceInfo) {attr : IfaceAttrs} {v : UInt32}
    (h : attr.ifindex = some v) :
    (parseEntry e attr).ifaceIdx = v ∧ (parseEntry e attr).wdevIdx = e.wdevIdx := by
  simp only [parseEntry, h]
  cases attr.ifname <;> exact ⟨rfl, rfl⟩

theorem parseEntry_of_wdev (e : InterfaceInfo) {attr : IfaceAttrs} {w : UInt64}
    (h : attr.ifindex = none) (hw : attr.wdev = some w) :
    (parseEntry e attr).ifaceIdx = e.ifaceIdx ∧ (parseEntry e attr).wdevIdx = w.toUInt32 := by
  simp only [parseEntry, h, hw]
  cases attr.ifname <;> exact ⟨rfl, rfl⟩

/-- The low half of a `u64` is all of it, and not zero, exactly if the value fits and is not zero. -/
theorem toUInt32_fits_iff (w : UInt64) :
    (w.toNat = w.toUInt32.toNat ∧ w.toUInt32 ≠ 0) ↔ 0 < w.toNat ∧ w.toNat < 2 ^ 32 := by
  have hlow : w.toUInt32.toNat = w.toNat % 2 ^ 32 := UInt64.toNat_toUInt32 w
  have hzero : w.toUInt32 = 0 ↔ w.toUInt32.toNat = 0 := by rw [← UInt32.toNat_inj]; rfl
  rw [Ne, hzero, hlow]
  omega

/-- A `WDEV` that an interface is named by fits exactly if its low half is all of it, and not zero. -/
theorem wdevFits_iff {attr : IfaceAttrs} {w : UInt64} (h : attr.ifindex = none)
    (hw : attr.wdev = some w) :
    WdevFits attr ↔ w.toNat = w.toUInt32.toNat ∧ w.toUInt32 ≠ 0 := by
  rw [toUInt32_fits_iff, WdevFits, hw]
  constructor
  · intro hfits
    obtain ⟨w', hw', hfits⟩ := hfits h
    rwa [Option.some.inj hw']
  · exact fun hfits _ => ⟨w, rfl, hfits⟩

/-- The name of a message is that of its entry. -/
theorem cstr_copyEntry (handle : ℕ) (e : InterfaceInfo) {attr : IfaceAttrs} {ifname : List UInt8}
    (h : attr.ifname = some ifname) :
    attr.ifname.map cstr = some (cstr (copyEntry handle .zero (parseEntry e attr)).name) := by
  rw [h, copyEntry, cstr_strcpy, cstr_parseEntry e h]
  rfl

/-- The entry of a message with an `IFINDEX`. -/
theorem entryOf_ifindex_iff (handle : ℕ) (e : InterfaceInfo) {attr : IfaceAttrs}
    {ifname : List UInt8} {v : UInt32} (hname : attr.ifname = some ifname)
    (h : attr.ifindex = some v) :
    EntryOf attr (copyEntry handle .zero (parseEntry e attr)) ↔ e.wdevIdx = 0 := by
  obtain ⟨hiface, hwdev⟩ := parseEntry_of_ifindex e h
  constructor
  · intro hentry
    exact hwdev.symm.trans (hentry.ifindex v h).2
  · intro hzero
    refine ⟨cstr_copyEntry handle e hname, fun v' hv => ?_, fun hnone => ?_⟩
    · obtain rfl := Option.some.inj (h.symm.trans hv)
      exact ⟨hiface, hwdev.trans hzero⟩
    · exact absurd (h.symm.trans hnone) nofun

/-- The entry of a message with a `WDEV` only, of which the low half is kept. -/
theorem entryOf_wdev_iff (handle : ℕ) (e : InterfaceInfo) {attr : IfaceAttrs} {ifname : List UInt8}
    {w : UInt64} (hname : attr.ifname = some ifname) (h : attr.ifindex = none)
    (hw : attr.wdev = some w) :
    EntryOf attr (copyEntry handle .zero (parseEntry e attr)) ↔
      e.ifaceIdx = 0 ∧ w.toNat = w.toUInt32.toNat := by
  obtain ⟨hiface, hwdev⟩ := parseEntry_of_wdev e h hw
  constructor
  · intro hentry
    obtain ⟨hzero, hmap⟩ := hentry.wdev h
    rw [hw] at hmap
    refine ⟨hiface.symm.trans hzero, ?_⟩
    rw [← hwdev]
    exact Option.some.inj hmap
  · rintro ⟨hzero, heq⟩
    refine ⟨cstr_copyEntry handle e hname, fun v hv => ?_, fun _ => ⟨hiface.trans hzero, ?_⟩⟩
    · exact absurd (h.symm.trans hv) nofun
    · rw [hw, Option.map_some, heq, ← hwdev]
      rfl

/-- One entry is right exactly if nothing was left over in it and its `WDEV`, if it needs it, fits. -/
theorem entryOf_iff (handle : ℕ) (e : InterfaceInfo) {attr : IfaceAttrs}
    (hname : ∃ ifname, attr.ifname = some ifname ∧ (cstr ifname).length < ifnamsiz)
    (hindex : attr.Indexed) :
    (EntryOf attr (copyEntry handle .zero (parseEntry e attr)) ∧
      ∀ c : IfaceCommand, (∃ v, .ifindex v ∈ c.build (copyEntry handle .zero (parseEntry e attr))) ↔
        attr.ifindex.isSome) ↔
      Clean attr e ∧ WdevFits attr := by
  obtain ⟨ifname, hifname, -⟩ := hname
  have haddress : (∀ c : IfaceCommand,
      (∃ v, .ifindex v ∈ c.build (copyEntry handle .zero (parseEntry e attr))) ↔
        attr.ifindex.isSome) ↔ ((parseEntry e attr).wdevIdx = 0 ↔ attr.ifindex.isSome) :=
    ⟨fun h => (IfaceCommand.build_ifindex_iff _ .getLoggerFeature).symm.trans (h .getLoggerFeature),
      fun h c => (c.build_ifindex_iff _).trans h⟩
  rw [haddress]
  rcases hix : attr.ifindex with - | v
  · obtain ⟨w, hw⟩ := Option.isSome_iff_exists.mp (hindex.resolve_left (by rw [hix]; decide))
    have haddr : ((parseEntry e attr).wdevIdx = 0 ↔ (none : Option UInt32).isSome = true) ↔
        w.toUInt32 ≠ 0 := by
      rw [(parseEntry_of_wdev e hix hw).2]
      simp
    have hclean : Clean attr e ↔ e.ifaceIdx = 0 := by rw [Clean, if_neg (by rw [hix]; decide)]
    rw [haddr, hclean, entryOf_wdev_iff handle e hifname hix hw, wdevFits_iff hix hw, and_assoc]
  · have hfits : WdevFits attr := fun h => absurd (hix.symm.trans h) nofun
    have haddr : ((parseEntry e attr).wdevIdx = 0 ↔ (some v).isSome = true) ↔ e.wdevIdx = 0 := by
      rw [(parseEntry_of_ifindex e hix).2]
      simp
    have hclean : Clean attr e ↔ e.wdevIdx = 0 := by rw [Clean, if_pos (by rw [hix]; rfl)]
    rw [haddr, hclean, entryOf_ifindex_iff handle e hifname hix, and_iff_left hfits, and_self_iff]

/-- **One run.** On one stack memory the table reflects the dump exactly if no entry has anything left
over where its message has no index. -/
theorem reflects_tableOf_iff (handle : ℕ) (hal : HalInfo) (mem : ℕ → InterfaceInfo)
    {dump : List IfaceAttrs} (hdump : IfaceDump dump) :
    Reflects dump (tableOf handle hal mem dump) ↔
      ∀ i attr, dump[i]? = some attr →
        Clean attr (Function.update mem 0 .zero i) ∧ WdevFits attr := by
  have hiff : ∀ i attr, dump[i]? = some attr →
      ((EntryOf attr ((tableOf handle hal mem dump).interfaces i) ∧ ∀ c : IfaceCommand,
        (∃ v, .ifindex v ∈ c.build ((tableOf handle hal mem dump).interfaces i)) ↔
          attr.ifindex.isSome) ↔ Clean attr (Function.update mem 0 .zero i) ∧ WdevFits attr) := by
    intro i attr hattr
    have hmem : attr ∈ dump := List.mem_of_getElem? hattr
    rw [interfaces_tableOf handle hal mem hdump.atMost hattr]
    exact entryOf_iff handle _ (hdump.name attr hmem) (hdump.index attr hmem)
  constructor
  · intro h i attr hattr
    exact (hiff i attr hattr).mp ⟨h.entry i attr hattr, h.address i attr hattr⟩
  · intro h
    exact ⟨nrInterfaces_tableOf .., fun i attr hattr => ((hiff i attr hattr).mpr (h i attr hattr)).1,
      fun i attr hattr => ((hiff i attr hattr).mpr (h i attr hattr)).2⟩

variable {L : Libnl μ IfaceAttrs} {k kEnd : L.Sock} {before : List (List μ)} {last : List μ}

/-- What `skw_wifi_get_ifaces` makes of the messages of a reply, however it ends. -/
theorem skwWifiGetIfaces_reply (handle : ℕ) (hal : HalInfo) (mem : ℕ → InterfaceInfo)
    {term : Terminator} (hsent : 0 < (L.sendAutoComplete k).1)
    (hdel : L.Delivers (L.sendAutoComplete k).2 (replyCalls before last term) kEnd)
    {dump : List IfaceAttrs} (hdump : (before.flatten ++ last).map L.nlaParse = dump) (r : WifiError)
    (hal' : HalInfo) (k' : L.Sock) :
    SkwWifiGetIfaces L true k mem handle hal r hal' k' ↔
      (∀ attr ∈ dump, attr.Indexed) ∧
        (r, hal', k') = if dump = [] then (.unknown, hal.clear, kEnd)
          else (.success, tableOf handle hal mem dump, kEnd) := by
  have hsend := @sendMsg_of_delivers μ IfaceAttrs GetInterfacesCommand L .parser k kEnd (.new mem)
    before last term hsent hdel
  have hparsed : parsed L GetInterfacesCommand.parser (.new mem) (before.flatten ++ last) =
      dump.foldl GetInterfacesCommand.parser (.new mem) := by
    rw [parsed, ← hdump, List.foldl_map]
  -- `index` counts the messages, so only an empty dump leaves it 0
  have hindex : (dump.foldl GetInterfacesCommand.parser (.new mem)).index = 0 ↔ dump = [] := by
    rw [(ifaces_after_dump mem dump).1, List.length_eq_zero_iff]
  rw [hparsed] at hsend
  rw [← crashed_after_dump mem dump]
  constructor
  · intro h
    cases h with
    | none hsend' halive hzero =>
      obtain ⟨-, rfl, rfl⟩ := hsend'.unique hsend
      rw [if_pos (hindex.mp hzero)]
      exact ⟨halive, rfl⟩
    | some hsend' halive hpos =>
      obtain ⟨-, rfl, rfl⟩ := hsend'.unique hsend
      rw [if_neg fun h => hpos (hindex.mpr h)]
      exact ⟨halive, rfl⟩
  · rintro ⟨halive, heq⟩
    split at heq
    · next h =>
      cases heq
      exact .none hsend halive (hindex.mpr h)
    · next h =>
      cases heq
      exact .some hsend halive fun hzero => h (hindex.mp hzero)

/-- What `skw_wifi_get_ifaces` makes of a dump. -/
theorem skwWifiGetIfaces_iff (handle : ℕ) (hal : HalInfo) (mem : ℕ → InterfaceInfo)
    (hsent : 0 < (L.sendAutoComplete k).1)
    (hdel : L.Delivers (L.sendAutoComplete k).2 (replyCalls before last .finish) kEnd)
    (hdump : IfaceDump ((before.flatten ++ last).map L.nlaParse)) (r : WifiError) (hal' : HalInfo)
    (k' : L.Sock) :
    SkwWifiGetIfaces L true k mem handle hal r hal' k' ↔
      r = .success ∧ hal' = tableOf handle hal mem ((before.flatten ++ last).map L.nlaParse) ∧
        k' = kEnd := by
  rw [skwWifiGetIfaces_reply handle hal mem hsent hdel rfl, if_neg hdump.nonempty, Prod.mk.injEq,
    Prod.mk.injEq, and_iff_right hdump.index]

/-- Stack memory with something left over in every entry. -/
def dirtyStack : ℕ → InterfaceInfo := fun _ => ⟨1, 1, 0, List.replicate (ifnamsiz + 1) 1⟩

/-- **The interface table, exactly when.** For any dump of the kernel, the table reflects the dump on
every stack memory, and is the same on any two, if and only if the dump has a single message, whose
`WDEV`, should it have no `IFINDEX`, fits `wdev_idx`. -/
theorem ifaces_reflect_iff (handle : ℕ) (hal : HalInfo) (hsent : 0 < (L.sendAutoComplete k).1)
    (hdel : L.Delivers (L.sendAutoComplete k).2 (replyCalls before last .finish) kEnd)
    (hdump : IfaceDump ((before.flatten ++ last).map L.nlaParse)) :
    ((∀ mem, ∃ hal', SkwWifiGetIfaces L true k mem handle hal .success hal' kEnd ∧
        Reflects ((before.flatten ++ last).map L.nlaParse) hal') ∧
      ∀ mem₁ mem₂ r₁ r₂ hal₁ hal₂ k₁ k₂, SkwWifiGetIfaces L true k mem₁ handle hal r₁ hal₁ k₁ →
        SkwWifiGetIfaces L true k mem₂ handle hal r₂ hal₂ k₂ → hal₁.interfaces = hal₂.interfaces) ↔
      ((before.flatten ++ last).map L.nlaParse).length = 1 ∧
        ∀ attr ∈ (before.flatten ++ last).map L.nlaParse, WdevFits attr := by
  have hget := fun mem => @skwWifiGetIfaces_iff μ L k kEnd before last handle hal mem hsent hdel hdump
  generalize hd : (before.flatten ++ last).map L.nlaParse = dump at hdump hget ⊢
  have hpos : 0 < dump.length := List.length_pos_iff.mpr hdump.nonempty
  constructor
  · rintro ⟨hall, -⟩
    have hreflects : ∀ mem, Reflects dump (tableOf handle hal mem dump) := by
      intro mem
      obtain ⟨hal', hrun, hreflects⟩ := hall mem
      obtain ⟨-, rfl, -⟩ := (hget mem _ _ _).mp hrun
      exact hreflects
    have hentries := (reflects_tableOf_iff handle hal dirtyStack hdump).mp (hreflects dirtyStack)
    refine ⟨?_, fun attr hmem => ?_⟩
    · -- the second entry has something left over in either index
      by_contra hlen
      have hlt : 1 < dump.length := by omega
      have hclean := (hentries 1 dump[1] (List.getElem?_eq_getElem hlt)).1
      rw [Function.update_of_ne (by decide), Clean, dirtyStack] at hclean
      split at hclean
      · exact absurd hclean (by decide)
      · exact absurd hclean (by decide)
    · obtain ⟨i, hi⟩ := List.mem_iff_getElem?.mp hmem
      exact (hentries i attr hi).2
  · -- a single message fills the first entry, which is cleared before
    rintro ⟨hlen, hfits⟩
    have hfirst : ∀ {i attr}, dump[i]? = some attr → i = 0 := by
      intro i attr hattr
      have := (List.getElem?_eq_some_iff.mp hattr).1
      omega
    refine ⟨fun mem => ⟨_, (hget mem _ _ _).mpr ⟨rfl, rfl, rfl⟩, ?_⟩, ?_⟩
    · refine (reflects_tableOf_iff handle hal mem hdump).mpr fun i attr hattr => ⟨?_, ?_⟩
      · rw [hfirst hattr, Function.update_self, Clean]
        split <;> rfl
      · exact hfits attr (List.mem_of_getElem? hattr)
    · intro mem₁ mem₂ r₁ r₂ hal₁ hal₂ k₁ k₂ h₁ h₂
      obtain ⟨-, rfl, -⟩ := (hget mem₁ _ _ _).mp h₁
      obtain ⟨-, rfl, -⟩ := (hget mem₂ _ _ _).mp h₂
      funext i
      rcases Nat.lt_or_ge i dump.length with hlt | hge
      · obtain ⟨attr, hattr⟩ : ∃ attr, dump[i]? = some attr := ⟨_, List.getElem?_eq_getElem hlt⟩
        rw [interfaces_tableOf handle hal mem₁ hdump.atMost hattr,
          interfaces_tableOf handle hal mem₂ hdump.atMost hattr, hfirst hattr, Function.update_self,
          Function.update_self]
      · rw [interfaces_tableOf_of_le handle hal mem₁ hge, interfaces_tableOf_of_le handle hal mem₂ hge]

/-- A HAL that has not looked for its interfaces. -/
def HalInfo.initial : HalInfo := ⟨0, fun _ => .zero, fun _ => none⟩

/-- A dump of one interface with an `IFINDEX`. -/
def oneIface : List IfaceAttrs := [⟨some 3, none, some [0x77, 0x30, 0x00]⟩]

/-- A dump of two interfaces with an `IFINDEX` each. -/
def twoIfaces : List IfaceAttrs :=
  [⟨some 3, none, some [0x77, 0x30, 0x00]⟩, ⟨some 4, none, some [0x70, 0x30, 0x00]⟩]

theorem ifaceDump_oneIface : IfaceDump oneIface where
  nonempty := List.cons_ne_nil _ _
  atMost := by decide
  name := by
    intro attr hattr
    obtain rfl := List.mem_singleton.mp hattr
    exact ⟨_, rfl, by decide⟩
  index := by decide

theorem ifaceDump_twoIfaces : IfaceDump twoIfaces where
  nonempty := List.cons_ne_nil _ _
  atMost := by decide
  name := by
    intro attr hattr
    rcases List.mem_pair.mp hattr with rfl | rfl
    · exact ⟨_, rfl, by decide⟩
    · exact ⟨_, rfl, by decide⟩
  index := by decide

theorem ifaces_reflect_iff_oneIface :
    ((∀ mem, ∃ hal', SkwWifiGetIfaces (queueNl IfaceAttrs) true (replyCalls [] oneIface .finish) mem 1
        .initial .success hal' [] ∧ Reflects oneIface hal') ∧
      ∀ mem₁ mem₂ r₁ r₂ hal₁ hal₂ k₁ k₂,
        SkwWifiGetIfaces (queueNl IfaceAttrs) true (replyCalls [] oneIface .finish) mem₁ 1 .initial r₁
          hal₁ k₁ →
        SkwWifiGetIfaces (queueNl IfaceAttrs) true (replyCalls [] oneIface .finish) mem₂ 1 .initial r₂
          hal₂ k₂ → hal₁.interfaces = hal₂.interfaces) ↔
      oneIface.length = 1 ∧ ∀ attr ∈ oneIface, WdevFits attr :=
  @ifaces_reflect_iff IfaceAttrs (queueNl IfaceAttrs) (replyCalls [] oneIface .finish) [] [] oneIface 1
    .initial (by decide) (queueNl_delivers _) ifaceDump_oneIface

/-- Of two interfaces the second keeps the `wdev_idx` that the stack held, and is addressed by it. -/
theorem ifaces_keep_stack :
    ∃ hal', SkwWifiGetIfaces (queueNl IfaceAttrs) true (replyCalls [] twoIfaces .finish) dirtyStack 1
        .initial .success hal' [] ∧ ¬ Reflects twoIfaces hal' ∧
      ifaceAttr (hal'.interfaces 1) = .wdev 1 := by
  have hget := @skwWifiGetIfaces_iff IfaceAttrs (queueNl IfaceAttrs) (replyCalls [] twoIfaces .finish)
    [] [] twoIfaces 1 .initial dirtyStack (by decide) (queueNl_delivers _) ifaceDump_twoIfaces
  refine ⟨_, (hget _ _ _).mpr ⟨rfl, rfl, rfl⟩, fun h => ?_, by decide⟩
  exact absurd ((h.entry 1 _ rfl).ifindex 4 rfl).2 (by decide)

end Seekwave
