import Seekwave.Lib.CString
import Seekwave.Wlan.Interfaces

/-!
# The strings that the Wi-Fi HAL returns

`skw_wifi_get_firmware_version` and `skw_wifi_get_driver_version` of `main.cpp` copy a version twice, by
`strncpy`: the parser from the message to the buffer of the command, and they from there to the buffer of
the caller. `strncpy` leaves a full buffer without a terminator. The second copy then goes on behind the
first buffer, and `version_returned_iff` says which versions the caller gets.

`skw_wifi_get_iface_name` copies a name from the interface table. The indices in the table may be left
over from the stack, the names never are (`iface_names_returned_iff`).
-/

open Memory

namespace Seekwave

/-! ## The functions -/

/-- The `n` bytes that `strncpy(dst, src, n)` stores. -/
def strncpy (src : List UInt8) (n : ℕ) : List UInt8 :=
  (cstr src).take n ++ List.replicate (n - (cstr src).length) 0

@[simp] theorem length_strncpy (src : List UInt8) (n : ℕ) : (strncpy src n).length = n := by
  rw [strncpy, List.length_append, List.length_take, List.length_replicate]
  omega

/-- `SKW_BUFF_SIZE`. -/
def skwBuffSize : ℕ := 256

/-- The field of `GetVersionCommand`. -/
structure GetVersionCommand where
  buff : Block skwBuffSize

/-- The constructor, which clears the buffer. -/
def GetVersionCommand.new : GetVersionCommand := ⟨⟨List.replicate skwBuffSize 0, List.length_replicate⟩⟩

/-- `GetVersionCommand::parser`, given the memory from the payload of `NL80211_ATTR_VENDOR_DATA` on. -/
def GetVersionCommand.parser (cmd : GetVersionCommand) : Option (List UInt8) → GetVersionCommand
  | some data => ⟨⟨strncpy data skwBuffSize, length_strncpy data skwBuffSize⟩⟩
  | none => cmd

section Functions

variable {μ : Type} (L : Libnl μ (Option (List UInt8))) (cbAlloc : Bool) (k : L.Sock) (bufferSize : ℕ)

/-- `skw_wifi_get_firmware_version`. `behind` is the memory behind the buffer of the command, and `buffer`
the memory from the caller's buffer on. -/
inductive SkwWifiGetFirmwareVersion (behind buffer : List UInt8) :
    WifiError → List UInt8 → L.Sock → Prop
  | mk {err : WifiError} {cmd : GetVersionCommand} {k' : L.Sock}
      (hsend : SendMsg L .parser cbAlloc k .new err cmd k') :
      SkwWifiGetFirmwareVersion behind buffer err
        (store buffer 0 (strncpy (cmd.buff.cells ++ behind) bufferSize)) k'

/-- `skw_wifi_get_driver_version`, which copies what a successful command has. -/
inductive SkwWifiGetDriverVersion (behind buffer : List UInt8) :
    WifiError → List UInt8 → L.Sock → Prop
  | success {cmd : GetVersionCommand} {k' : L.Sock}
      (hsend : SendMsg L .parser cbAlloc k .new .success cmd k') :
      SkwWifiGetDriverVersion behind buffer .success
        (store buffer 0 (strncpy (cmd.buff.cells ++ behind) bufferSize)) k'
  | failed {err : WifiError} {cmd : GetVersionCommand} {k' : L.Sock}
      (hsend : SendMsg L .parser cbAlloc k .new err cmd k') (herr : err ≠ .success) :
      SkwWifiGetDriverVersion behind buffer err buffer k'

end Functions

/-- `skw_wifi_get_iface_name`, on the memory `name` of the caller. -/
def skwWifiGetIfaceName (iface : InterfaceInfo) (name : List UInt8) (size : ℕ) : List UInt8 :=
  store name 0 (strncpy iface.name size)

/-! ## What they are to return -/

/-- The version that the driver gives last, none being the empty one. -/
def versionOf (payloads : List (List UInt8)) : List UInt8 := (payloads.getLast?.map cstr).getD []

/-- A buffer of this size holds the string, with its terminator. -/
structure HoldsString (text : List UInt8) (bufferSize : ℕ) (buffer : List UInt8) : Prop where
  string : cstr buffer = text
  fits : text.length < bufferSize

/-- A function returns the version in the caller's buffer, whatever was in it and lies behind the buffer
of the command. -/
def ReturnsVersion {Sock : Type} (version : List UInt8) (bufferSize : ℕ)
    (get : List UInt8 → List UInt8 → WifiError → List UInt8 → Sock → Prop) : Prop :=
  ∀ behind buffer err buffer' k', bufferSize ≤ buffer.length → get behind buffer err buffer' k' →
    err = .success ∧ HoldsString version bufferSize buffer'

/-! ## Copies -/

theorem strncpy_cstr (src : List UInt8) (n : ℕ) : strncpy (cstr src) n = strncpy src n := by
  rw [strncpy, cstr_cstr, strncpy]

theorem replicate_succ_of_lt {a b : ℕ} (h : a < b) :
    List.replicate (b - a) (0 : UInt8) = 0 :: List.replicate (b - a - 1) 0 := by
  rw [← List.replicate_succ, Nat.sub_add_cancel (Nat.sub_pos_of_lt h)]

/-- A string that is shorter than the buffer is copied with its terminator. -/
theorem cstr_strncpy_of_lt {src : List UInt8} {n : ℕ} (h : (cstr src).length < n) (rest : List UInt8) :
    cstr (strncpy src n ++ rest) = cstr src := by
  rw [strncpy, List.take_of_length_le (Nat.le_of_lt h), replicate_succ_of_lt h, List.append_assoc,
    List.cons_append, cstr_append_zero, cstr_cstr]

/-- Any other is copied without one, and the string in memory goes on behind the buffer. -/
theorem cstr_strncpy_of_le {src : List UInt8} {n : ℕ} (h : n ≤ (cstr src).length) (rest : List UInt8) :
    cstr (strncpy src n ++ rest) = (cstr src).take n ++ cstr rest := by
  rw [strncpy, Nat.sub_eq_zero_of_le h, List.replicate_zero, List.append_nil]
  exact cstr_append_of_notMem (fun hmem => zero_notMem_cstr src (List.mem_of_mem_take hmem)) rest

/-- The copy to the caller holds the string exactly if it is what is copied, and fits. -/
theorem holdsString_store_iff {text src buffer : List UInt8} {bufferSize : ℕ} :
    HoldsString text bufferSize (store buffer 0 (strncpy src bufferSize)) ↔
      cstr src = text ∧ text.length < bufferSize := by
  have hstore : store buffer 0 (strncpy src bufferSize) =
      strncpy src bufferSize ++ buffer.drop bufferSize := by
    rw [store_of_le (Nat.zero_le _), List.take_zero, List.nil_append, Nat.zero_add, length_strncpy]
  rw [hstore]
  by_cases hshort : (cstr src).length < bufferSize
  · have hcopy := cstr_strncpy_of_lt hshort (buffer.drop bufferSize)
    exact ⟨fun h => ⟨hcopy.symm.trans h.string, h.fits⟩, fun h => ⟨hcopy.trans h.1, h.2⟩⟩
  · have hcopy := cstr_strncpy_of_le (Nat.not_lt.mp hshort) (buffer.drop bufferSize)
    constructor
    · -- the string in memory is longer than the buffer
      intro h
      have hlen := congrArg List.length (hcopy.symm.trans h.string)
      rw [List.length_append, List.length_take] at hlen
      have hfits := h.fits
      omega
    · rintro ⟨rfl, hfits⟩
      exact absurd hfits hshort

/-- The buffer of the command holds what the driver gives last. -/
theorem buff_of_payloads (payloads : List (List UInt8)) :
    (payloads.foldl (fun cmd data => GetVersionCommand.parser cmd (some data)) .new).buff.cells =
      strncpy (versionOf payloads) skwBuffSize := by
  induction payloads using List.reverseRecOn with
  | nil => rfl
  | append_singleton payloads data _ =>
    rw [List.foldl_append, List.foldl_cons, List.foldl_nil, versionOf, List.getLast?_concat,
      Option.map_some, Option.getD_some, strncpy_cstr]
    rfl

/-- What is copied from there is the version, whatever lies behind, exactly if the buffer has room for its
terminator. -/
theorem forall_behind_iff {version : List UInt8} (hversion : 0 ∉ version) :
    (∀ behind, cstr (strncpy version skwBuffSize ++ behind) = version) ↔ version.length < skwBuffSize := by
  have hcstr : cstr version = version := cstr_of_notMem hversion
  constructor
  · intro h
    by_contra hlong
    have hle : skwBuffSize ≤ (cstr version).length := by rw [hcstr]; exact Nat.not_lt.mp hlong
    -- two versions that differ in what lies behind
    have hnone := (cstr_strncpy_of_le hle []).symm.trans (h [])
    have hone := (cstr_strncpy_of_le hle [1]).symm.trans (h [1])
    have hbehind : cstr [] = cstr [1] := List.append_cancel_left (hnone.trans hone.symm)
    exact absurd hbehind (by decide)
  · intro h behind
    rw [cstr_strncpy_of_lt (by rwa [hcstr]), hcstr]

section Replies

variable {μ : Type} {L : Libnl μ (Option (List UInt8))} {k kEnd : L.Sock} {before : List (List μ)}
  {last : List μ} {term : Terminator}

/-- A command that was sent has the version of the reply, and is reported a success. -/
theorem exists_sendMsg_version (hsent : 0 < (L.sendAutoComplete k).1)
    (hdel : L.Delivers (L.sendAutoComplete k).2 (replyCalls before last term) kEnd) :
    ∃ cmd, SendMsg L GetVersionCommand.parser true k .new .success cmd kEnd ∧
      cmd.buff.cells =
        strncpy (versionOf ((before.flatten ++ last).filterMap L.nlaParse)) skwBuffSize := by
  refine ⟨_, sendMsg_of_delivers _ hsent hdel, ?_⟩
  rw [← buff_of_payloads, List.foldl_filterMap]
  unfold parsed
  congr 3
  funext cmd msg
  cases L.nlaParse msg <;> rfl

/-- What a copy from such a command returns. -/
theorem returnsVersion_iff {get : List UInt8 → List UInt8 → WifiError → List UInt8 → L.Sock → Prop}
    {cells version : List UInt8} {bufferSize : ℕ} (hcells : cells = strncpy version skwBuffSize)
    (hversion : 0 ∉ version)
    (hget : ∀ behind buffer err buffer' k', get behind buffer err buffer' k' ↔
      err = .success ∧ buffer' = store buffer 0 (strncpy (cells ++ behind) bufferSize) ∧ k' = kEnd) :
    ReturnsVersion version bufferSize get ↔
      version.length < bufferSize ∧ version.length < skwBuffSize := by
  rw [← forall_behind_iff hversion, ← hcells]
  constructor
  · intro h
    have hholds : ∀ behind, cstr (cells ++ behind) = version ∧ version.length < bufferSize := by
      intro behind
      have hbuffer : bufferSize ≤ (List.replicate bufferSize (0 : UInt8)).length := by simp
      rw [← holdsString_store_iff]
      exact (h behind _ _ _ _ hbuffer ((hget ..).mpr ⟨rfl, rfl, rfl⟩)).2
    exact ⟨(hholds []).2, fun behind => (hholds behind).1⟩
  · rintro ⟨hfits, hbehind⟩ behind buffer err buffer' k' hbuffer hcall
    obtain ⟨rfl, rfl, -⟩ := (hget ..).mp hcall
    exact ⟨rfl, holdsString_store_iff.mpr ⟨hbehind behind, hfits⟩⟩

/-- **A version is returned, exactly when.** For any reply of the kernel, whatever ends it, both functions
return the version that the driver has given if and only if it is shorter than the caller's buffer and
than that of the command. -/
theorem version_returned_iff (hsent : 0 < (L.sendAutoComplete k).1)
    (hdel : L.Delivers (L.sendAutoComplete k).2 (replyCalls before last term) kEnd)
    {version : List UInt8} (hversion : version = versionOf ((before.flatten ++ last).filterMap L.nlaParse))
    (bufferSize : ℕ) :
    (ReturnsVersion version bufferSize (SkwWifiGetFirmwareVersion L true k bufferSize) ↔
        version.length < bufferSize ∧ version.length < skwBuffSize) ∧
      (ReturnsVersion version bufferSize (SkwWifiGetDriverVersion L true k bufferSize) ↔
        version.length < bufferSize ∧ version.length < skwBuffSize) := by
  obtain ⟨cmd, hsend, hcells⟩ := exists_sendMsg_version hsent hdel
  rw [← hversion] at hcells
  have hzero : 0 ∉ version := by
    rw [hversion, versionOf]
    rcases ((before.flatten ++ last).filterMap L.nlaParse).getLast? with - | data
    · exact List.not_mem_nil
    · exact zero_notMem_cstr data
  -- both functions copy the buffer of the command, whatever lies behind it
  have hfirmware : ∀ behind buffer err buffer' k',
      SkwWifiGetFirmwareVersion L true k bufferSize behind buffer err buffer' k' ↔ err = .success ∧
        buffer' = store buffer 0 (strncpy (cmd.buff.cells ++ behind) bufferSize) ∧ k' = kEnd := by
    intro behind buffer err buffer' k'
    constructor
    · rintro ⟨hsend'⟩
      obtain ⟨rfl, rfl, rfl⟩ := hsend'.unique hsend
      exact ⟨rfl, rfl, rfl⟩
    · rintro ⟨rfl, rfl, rfl⟩
      exact .mk hsend
  have hdriver : ∀ behind buffer err buffer' k',
      SkwWifiGetDriverVersion L true k bufferSize behind buffer err buffer' k' ↔ err = .success ∧
        buffer' = store buffer 0 (strncpy (cmd.buff.cells ++ behind) bufferSize) ∧ k' = kEnd := by
    intro behind buffer err buffer' k'
    constructor
    · intro h
      cases h with
      | success hsend' =>
        obtain ⟨-, rfl, rfl⟩ := hsend'.unique hsend
        exact ⟨rfl, rfl, rfl⟩
      | failed hsend' herr => exact absurd (hsend'.unique hsend).1 herr
    · rintro ⟨rfl, rfl, rfl⟩
      exact .success hsend
  exact ⟨returnsVersion_iff hcells hzero hfirmware, returnsVersion_iff hcells hzero hdriver⟩

/-- A version with its terminator and what is behind it in the message. -/
def versionReply : List (List (NlReply (Option (List UInt8)))) :=
  replyCalls [] [some [0x31, 0x2e, 0x30, 0, 0xff]] .ack

theorem version_returned_iff_short :
    (ReturnsVersion [0x31, 0x2e, 0x30] 16
        (SkwWifiGetFirmwareVersion (queueNl (Option (List UInt8))) true versionReply 16) ↔
        3 < 16 ∧ 3 < skwBuffSize) ∧
      (ReturnsVersion [0x31, 0x2e, 0x30] 16
        (SkwWifiGetDriverVersion (queueNl (Option (List UInt8))) true versionReply 16) ↔
        3 < 16 ∧ 3 < skwBuffSize) :=
  @version_returned_iff _ (queueNl (Option (List UInt8))) versionReply [] []
    [some [0x31, 0x2e, 0x30, 0, 0xff]] .ack (by decide) (queueNl_delivers _) _ (by decide) 16

/-- A command that could not be sent: of the caller's buffer the one function makes the empty string, and
the other nothing. -/
theorem version_not_sent (hsent : (L.sendAutoComplete k).1 < 0) {bufferSize : ℕ} (hsize : 0 < bufferSize)
    {behind buffer buffer' : List UInt8} {err : WifiError} {k' : L.Sock} :
    (SkwWifiGetFirmwareVersion L true k bufferSize behind buffer err buffer' k' →
        err = .unknown ∧ HoldsString [] bufferSize buffer') ∧
      (SkwWifiGetDriverVersion L true k bufferSize behind buffer err buffer' k' →
        err = .unknown ∧ buffer' = buffer) := by
  have hsend := @sendMsg_of_neg _ _ _ L GetVersionCommand.parser k .new hsent
  constructor
  · rintro ⟨hsend'⟩
    obtain ⟨rfl, rfl, -⟩ := hsend'.unique hsend
    exact ⟨rfl, holdsString_store_iff.mpr ⟨rfl, hsize⟩⟩
  · intro h
    cases h with
    | success hsend' => exact absurd (hsend'.unique hsend).1 (by decide)
    | failed hsend' _ => exact ⟨(hsend'.unique hsend).1, rfl⟩

end Replies

/-! ## Names -/

/-- The handle of an entry that was copied is the entry. -/
theorem interfaceHandle_copied (handle : ℕ) (cmd : GetInterfacesCommand) (hal : HalInfo) {i n : ℕ}
    (hi : i < n) : ((List.range n).foldl (copyIface handle cmd) hal).interfaceHandle i = some i := by
  induction n with
  | zero => exact absurd hi (Nat.not_lt_zero i)
  | succ n ih =>
    rw [List.range_succ, List.foldl_append, List.foldl_cons, List.foldl_nil, copyIface]
    show Function.update _ n _ i = _
    rcases Nat.lt_succ_iff_lt_or_eq.mp hi with hlt | rfl
    · rw [Function.update_of_ne (Nat.ne_of_lt hlt), ih hlt]
    · rw [Function.update_self]

section Names

variable {μ : Type} {L : Libnl μ IfaceAttrs} {k kEnd : L.Sock} {before : List (List μ)} {last : List μ}

/-- **The names of the interfaces, exactly when.** For any dump of the kernel, whatever was on the stack,
`skw_wifi_get_iface_name` returns for each handle the name in its message if and only if it is shorter
than the caller's buffer. -/
theorem iface_names_returned_iff (handle : ℕ) (hal : HalInfo) (mem : ℕ → InterfaceInfo)
    (hsent : 0 < (L.sendAutoComplete k).1)
    (hdel : L.Delivers (L.sendAutoComplete k).2 (replyCalls before last .finish) kEnd)
    (hdump : IfaceDump ((before.flatten ++ last).map L.nlaParse)) {r : WifiError} {hal' : HalInfo}
    {k' : L.Sock} (hget : SkwWifiGetIfaces L true k mem handle hal r hal' k') (i : ℕ) {attr : IfaceAttrs}
    {ifname : List UInt8} (hattr : ((before.flatten ++ last).map L.nlaParse)[i]? = some attr)
    (hname : attr.ifname = some ifname) :
    ∃ j, hal'.interfaceHandle i = some j ∧ ∀ name size,
      HoldsString (cstr ifname) size (skwWifiGetIfaceName (hal'.interfaces j) name size) ↔
        (cstr ifname).length < size := by
  obtain ⟨-, rfl, -⟩ := (skwWifiGetIfaces_iff handle hal mem hsent hdel hdump ..).mp hget
  generalize (before.flatten ++ last).map L.nlaParse = dump at hdump hattr ⊢
  have hlt : i < dump.length := (List.getElem?_eq_some_iff.mp hattr).1
  refine ⟨i, ?_, fun name size => ?_⟩
  · rw [tableOf, copyIfaces, (ifaces_after_dump mem dump).1]
    exact interfaceHandle_copied _ _ _ hlt
  · have hentry := cstr_copyEntry handle (Function.update mem 0 .zero i) hname
    rw [hname, Option.map_some] at hentry
    rw [skwWifiGetIfaceName, holdsString_store_iff, interfaces_tableOf handle hal mem hdump.atMost hattr]
    exact and_iff_right (Option.some.inj hentry).symm

theorem iface_names_returned_iff_oneIface :
    ∃ r hal' k', SkwWifiGetIfaces (queueNl IfaceAttrs) true (replyCalls [] oneIface .finish) dirtyStack 1
        .initial r hal' k' ∧
      ∃ j, hal'.interfaceHandle 0 = some j ∧ ∀ name size,
        HoldsString [0x77, 0x30] size (skwWifiGetIfaceName (hal'.interfaces j) name size) ↔ 2 < size := by
  have hdel := @queueNl_delivers IfaceAttrs (replyCalls [] oneIface .finish)
  have hget := (@skwWifiGetIfaces_iff _ (queueNl IfaceAttrs) _ _ [] oneIface 1 .initial dirtyStack (by decide)
    hdel ifaceDump_oneIface _ _ _).mpr ⟨rfl, rfl, rfl⟩
  exact ⟨_, _, _, hget, @iface_names_returned_iff _ (queueNl IfaceAttrs) _ _ [] oneIface 1 .initial dirtyStack
    (by decide) hdel ifaceDump_oneIface _ _ _ hget 0 _ _ rfl rfl⟩

end Names

end Seekwave
