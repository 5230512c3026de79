import Seekwave.Lib.Entries
import Seekwave.Lib.Memory
import Seekwave.Lib.Stdio
import Seekwave.Wlan.Command

/-!
# Vendor replies of the Wi-Fi driver

`GetValidChannelsCommand` and `GetRingBuffStatus` of `main.cpp` copy what the driver replies into arrays
of the caller. The first copies a list of channels as it comes, with `max_channels` at hand and not
looked at, and reports the number that another attribute gives; the second has cleared the caller's
capacity before it sends the command, and counts anew in each message. `vendor_replies_iff` says which
replies leave both within the arrays, with the right count.

A reply is the list of its messages, each with the attributes of its vendor data in order
(`nla_for_each_attr` is libnl's). The sizes of the entries and `nla_get_u32`, which reads four bytes
whatever the length of the payload, are parameters.
-/

open Entries Memory

namespace Seekwave

/-! ## The two commands -/

/-- An attribute of the vendor data: `nla_type`, and the payload. -/
structure VendorAttr where
  type : ℕ
  data : List UInt8
deriving DecidableEq, Repr

/-- The attributes in `NL80211_ATTR_VENDOR_DATA`, if the message has it. -/
abbrev VendorMsg := Option (List VendorAttr)

def skwAttrRingBuffersStatus : ℕ := 13
def skwAttrNrChannels : ℕ := 36
def skwAttrValidChannels : ℕ := 37

/-- `GetValidChannelsCommand`, with what it has copied into the caller's array. -/
structure GetValidChannelsCommand where
  maxChannels : ℕ
  nrChannels : ℤ
  copies : List Copy

/-- The constructor. It clears the array, of `max_channels` entries. -/
def GetValidChannelsCommand.new (maxChannels : ℕ) : GetValidChannelsCommand := ⟨maxChannels, 0, []⟩

section Channels

variable (nlaGetU32 : VendorAttr → UInt32)

/-- One attribute of the loop of `GetValidChannelsCommand::parser`. -/
def GetValidChannelsCommand.attr (cmd : GetValidChannelsCommand) (nla : VendorAttr) :
    GetValidChannelsCommand :=
  if nla.type = skwAttrNrChannels then { cmd with nrChannels := toInt32 (nlaGetU32 nla).toNat }
  else if nla.type = skwAttrValidChannels then { cmd with copies := cmd.copies ++ [⟨0, nla.data⟩] }
  else cmd

/-- `GetValidChannelsCommand::parser`. -/
def GetValidChannelsCommand.parser (cmd : GetValidChannelsCommand) (msg : VendorMsg) :
    GetValidChannelsCommand :=
  match msg with
  | none => cmd
  | some attrs => attrs.foldl (attr nlaGetU32) cmd

/-- `skw_wifi_get_valid_channels`: its result, `*num_channels`, and the copies into `channels`. -/
inductive SkwWifiGetValidChannels {μ : Type} (L : Libnl μ VendorMsg) (cbAlloc : Bool) (k : L.Sock)
    (maxChannels : ℕ) : WifiError → ℤ → List Copy → L.Sock → Prop
  | mk {err : WifiError} {cmd : GetValidChannelsCommand} {k' : L.Sock}
      (hsend : SendMsg L (.parser nlaGetU32) cbAlloc k (.new maxChannels) err cmd k') :
      SkwWifiGetValidChannels L cbAlloc k maxChannels err cmd.nrChannels cmd.copies k'

end Channels

/-- `GetRingBuffStatus`: `*num`, and what it has copied into the caller's array. -/
structure GetRingBuffStatus where
  num : ℕ
  copies : List Copy

/-- The constructor: `*num_rings = 0`, whatever the caller has put there. -/
def GetRingBuffStatus.new (_numRings : ℕ) : GetRingBuffStatus := ⟨0, []⟩

section Rings

variable (statusSize : ℕ)

/-- One attribute of the loop of `GetRingBuffStatus::parser`, with `i`. The number in
`SKW_ATTR_NUM_RING_BUFFERS` is compared with `*num` for a message of the log only. -/
def GetRingBuffStatus.attr (p : ℕ × GetRingBuffStatus) (nla : VendorAttr) : ℕ × GetRingBuffStatus :=
  if nla.type = skwAttrRingBuffersStatus ∧ nla.data.length = statusSize then
    (p.1 + 1, ⟨p.1 + 1, p.2.copies ++ [⟨statusSize * p.1, nla.data⟩]⟩)
  else p

/-- `GetRingBuffStatus::parser`. -/
def GetRingBuffStatus.parser (cmd : GetRingBuffStatus) (msg : VendorMsg) : GetRingBuffStatus :=
  match msg with
  | none => cmd
  | some attrs => (attrs.foldl (attr statusSize) (0, cmd)).2

/-- `skw_wifi_get_ring_buffers_status`, with the value of `*num_rings` on entry: its result,
`*num_rings`, and the copies into `status`. The result of `send` is not looked at. -/
inductive SkwWifiGetRingBuffersStatus {μ : Type} (L : Libnl μ VendorMsg) (cbAlloc : Bool) (k : L.Sock)
    (numRings : ℕ) : WifiError → ℕ → List Copy → L.Sock → Prop
  | mk {err : WifiError} {cmd : GetRingBuffStatus} {k' : L.Sock}
      (hsend : SendMsg L (.parser statusSize) cbAlloc k (.new numRings) err cmd k') :
      SkwWifiGetRingBuffersStatus L cbAlloc k numRings .success cmd.num cmd.copies k'

end Rings

/-- What a reply leaves is right for a caller whose array has `cap` entries: no entry behind the array
is written, and the number reported is at most `cap` and that of the entries written. -/
structure ReplyFits (size cap : ℕ) (copies : List Copy) (reported : ℤ) : Prop where
  inside : ∀ i ∈ touched size copies, i < cap
  atMost : reported ≤ cap
  exact : reported = (touched size copies).card

/-! ## Channels -/

/-- The attributes of a reply, message by message. -/
def attrsOf (msgs : List VendorMsg) : List VendorAttr := msgs.flatMap (·.getD [])

/-- The lists of channels among the attributes. -/
def channelLists (attrs : List VendorAttr) : List VendorAttr :=
  attrs.filter (·.type = skwAttrValidChannels)

section Channels

variable (nlaGetU32 : VendorAttr → UInt32)

/-- The last number of channels that the attributes give, `n` if there is none. -/
def lastNrChannels (n : ℤ) (attrs : List VendorAttr) : ℤ :=
  attrs.foldl (fun n nla =>
    if nla.type = skwAttrNrChannels then toInt32 (nlaGetU32 nla).toNat else n) n

/-- When a reply fits the array of channels: every list is at most as long as the array, and the last
number given is that of the entries that the longest list covers. -/
structure ChannelsFit (size maxChannels : ℕ) (msgs : List VendorMsg) : Prop where
  fits : ∀ nla ∈ channelLists (attrsOf msgs), nla.data.length ≤ size * maxChannels
  count : lastNrChannels nlaGetU32 0 (attrsOf msgs) =
    most (fun nla => cover size nla.data.length) (channelLists (attrsOf msgs))

theorem lastNrChannels_cons (n : ℤ) (nla : VendorAttr) (attrs : List VendorAttr) :
    lastNrChannels nlaGetU32 n (nla :: attrs) = lastNrChannels nlaGetU32
      (if nla.type = skwAttrNrChannels then toInt32 (nlaGetU32 nla).toNat else n) attrs := rfl

/-- What the loop of the parser does. -/
theorem foldl_attr_channels (cmd : GetValidChannelsCommand) (attrs : List VendorAttr) :
    attrs.foldl (GetValidChannelsCommand.attr nlaGetU32) cmd =
      { cmd with
        nrChannels := lastNrChannels nlaGetU32 cmd.nrChannels attrs
        copies := cmd.copies ++ (channelLists attrs).map fun nla => ⟨0, nla.data⟩ } := by
  induction attrs generalizing cmd with
  | nil =>
    rw [channelLists, List.filter_nil, List.map_nil, List.append_nil]
    rfl
  | cons nla attrs ih =>
    rw [List.foldl_cons, ih, GetValidChannelsCommand.attr, lastNrChannels_cons]
    by_cases hlist : nla.type = skwAttrValidChannels
    · have hnr : ¬ nla.type = skwAttrNrChannels := by rw [hlist]; decide
      have hlists : channelLists (nla :: attrs) = nla :: channelLists attrs :=
        List.filter_cons_of_pos (decide_eq_true hlist)
      rw [if_neg hnr, if_neg hnr, if_pos hlist, hlists, List.map_cons]
      simp only [List.append_assoc, List.singleton_append]
    · have hlists : channelLists (nla :: attrs) = channelLists attrs :=
        List.filter_cons_of_neg (by simpa using hlist)
      rw [if_neg hlist, hlists]
      by_cases hnr : nla.type = skwAttrNrChannels
      · rw [if_pos hnr, if_pos hnr]
      · rw [if_neg hnr, if_neg hnr]

/-- What the parser makes of the messages of a reply. -/
theorem foldl_parser_channels (cmd : GetValidChannelsCommand) (msgs : List VendorMsg) :
    msgs.foldl (GetValidChannelsCommand.parser nlaGetU32) cmd =
      (attrsOf msgs).foldl (GetValidChannelsCommand.attr nlaGetU32) cmd := by
  induction msgs generalizing cmd with
  | nil => rfl
  | cons msg msgs ih =>
    have hparser : cmd.parser nlaGetU32 msg = (msg.getD []).foldl (.attr nlaGetU32) cmd := by
      cases msg <;> rfl
    have hattrs : attrsOf (msg :: msgs) = msg.getD [] ++ attrsOf msgs := List.flatMap_cons ..
    rw [List.foldl_cons, ih, hparser, hattrs, List.foldl_append]

/-- The entries of the array of channels that copies of lists write. -/
theorem mem_touched_channels {size i : ℕ} (hsize : 0 < size) (lists : List VendorAttr) :
    i ∈ touched size (lists.map fun nla => ⟨0, nla.data⟩) ↔
      ∃ nla ∈ lists, i < cover size nla.data.length := by
  induction lists with
  | nil => simp [touched]
  | cons nla lists ih =>
    have hfirst := @mem_touched_aligned size i 0 hsize nla.data
    rw [Nat.mul_zero, Nat.zero_add] at hfirst
    rw [List.map_cons, ← List.singleton_append, mem_touched_append, hfirst, ih,
      List.exists_mem_cons_iff]
    exact or_congr_left (and_iff_right (Nat.zero_le i))

/-- **Channels.** The copies and the number that a reply leaves are right if and only if it fits. -/
theorem replyFits_channels_iff {size maxChannels : ℕ} (hsize : 0 < size) (msgs : List VendorMsg) :
    ReplyFits size maxChannels
        (msgs.foldl (.parser nlaGetU32) (GetValidChannelsCommand.new maxChannels)).copies
        (msgs.foldl (.parser nlaGetU32) (GetValidChannelsCommand.new maxChannels)).nrChannels ↔
      ChannelsFit nlaGetU32 size maxChannels msgs := by
  rw [foldl_parser_channels, foldl_attr_channels]
  let lists := channelLists (attrsOf msgs)
  have htouched : ∀ i, i ∈ touched size ([] ++ lists.map fun nla => ⟨0, nla.data⟩) ↔
      ∃ nla ∈ lists, i < cover size nla.data.length := fun i => mem_touched_channels hsize lists
  have hcard := card_touched htouched
  constructor
  · rintro ⟨hinside, -, hexact⟩
    refine ⟨fun nla hnla => ?_, hexact.trans (congrArg Nat.cast hcard)⟩
    -- the first entry behind the array would be written
    by_contra hlong
    have hover := (lt_cover_iff hsize).mpr (Nat.lt_of_not_le hlong)
    exact Nat.lt_irrefl _ (hinside maxChannels ((htouched _).mpr ⟨nla, hnla, hover⟩))
  · rintro ⟨hfits, hcount⟩
    refine ⟨fun i hi => ?_, ?_, hcount.trans (congrArg Nat.cast hcard.symm)⟩
    · obtain ⟨nla, hnla, hlt⟩ := (htouched i).mp hi
      exact Nat.lt_of_lt_of_le hlt ((cover_le_iff hsize).mpr (hfits nla hnla))
    · show lastNrChannels nlaGetU32 0 (attrsOf msgs) ≤ _
      rw [hcount]
      exact_mod_cast most_le_iff.mpr fun nla hnla => (cover_le_iff hsize).mpr (hfits nla hnla)

end Channels

/-! ## Ring buffers -/

section Rings

variable (statusSize : ℕ)

/-- The attributes of a message that have a status of the right size. -/
def statuses (attrs : List VendorAttr) : List VendorAttr :=
  attrs.filter fun nla => nla.type = skwAttrRingBuffersStatus ∧ nla.data.length = statusSize

/-- How many there are in a message. -/
def nrStatuses (msg : VendorMsg) : ℕ := (statuses statusSize (msg.getD [])).length

/-- How many there are in the last message that has any, `n` if there is none. -/
def lastNrStatuses (n : ℕ) (msgs : List VendorMsg) : ℕ :=
  msgs.foldl (fun n msg => if nrStatuses statusSize msg = 0 then n else nrStatuses statusSize msg) n

/-- When a reply fits the array of statuses: no message has more of them than the array has entries, or
than the last message that has any. -/
structure StatusesFit (numRings : ℕ) (msgs : List VendorMsg) : Prop where
  fits : ∀ msg ∈ msgs, nrStatuses statusSize msg ≤ numRings
  count : ∀ msg ∈ msgs, nrStatuses statusSize msg ≤ lastNrStatuses statusSize 0 msgs

/-- The copies of statuses, from entry `i` on. -/
def statusCopies (i : ℕ) (nlas : List VendorAttr) : List Copy :=
  nlas.mapIdx fun j nla => ⟨statusSize * (i + j), nla.data⟩

theorem statusCopies_cons (i : ℕ) (nla : VendorAttr) (nlas : List VendorAttr) :
    statusCopies statusSize i (nla :: nlas) =
      ⟨statusSize * i, nla.data⟩ :: statusCopies statusSize (i + 1) nlas := by
  simp only [statusCopies, List.mapIdx_cons, Nat.add_zero, Nat.add_assoc, Nat.add_comm 1]

/-- What the loop of the parser does. -/
theorem foldl_attr_rings (i : ℕ) (cmd : GetRingBuffStatus) (attrs : List VendorAttr) :
    attrs.foldl (GetRingBuffStatus.attr statusSize) (i, cmd) =
      (i + (statuses statusSize attrs).length,
        ⟨if (statuses statusSize attrs).length = 0 then cmd.num
          else i + (statuses statusSize attrs).length,
        cmd.copies ++ statusCopies statusSize i (statuses statusSize attrs)⟩) := by
  induction attrs generalizing i cmd with
  | nil =>
    rw [statuses, List.filter_nil, statusCopies, List.mapIdx_nil, List.append_nil]
    rfl
  | cons nla attrs ih =>
    rw [List.foldl_cons, GetRingBuffStatus.attr]
    by_cases hst : nla.type = skwAttrRingBuffersStatus ∧ nla.data.length = statusSize
    · have hcons : statuses statusSize (nla :: attrs) = nla :: statuses statusSize attrs :=
        List.filter_cons_of_pos (decide_eq_true hst)
      rw [if_pos hst, ih, hcons, statusCopies_cons, List.length_cons]
      refine Prod.ext (by dsimp only; omega) ?_
      dsimp only
      rw [if_neg (Nat.succ_ne_zero _), List.append_assoc, List.singleton_append]
      congr 1
      split <;> omega
    · have hcons : statuses statusSize (nla :: attrs) = statuses statusSize attrs :=
        List.filter_cons_of_neg (by simpa using hst)
      rw [if_neg hst, ih, hcons]

/-- What the parser makes of a message. -/
theorem parser_rings (cmd : GetRingBuffStatus) (msg : VendorMsg) :
    cmd.parser statusSize msg =
      ⟨if nrStatuses statusSize msg = 0 then cmd.num else nrStatuses statusSize msg,
        cmd.copies ++ statusCopies statusSize 0 (statuses statusSize (msg.getD []))⟩ := by
  cases msg with
  | none =>
    show cmd = ⟨cmd.num, cmd.copies ++ []⟩
    rw [List.append_nil]
  | some attrs =>
    show (attrs.foldl (GetRingBuffStatus.attr statusSize) (0, cmd)).2 = _
    rw [foldl_attr_rings, Nat.zero_add]
    rfl

/-- What the parser makes of the messages of a reply: each begins again with the first entry. -/
theorem foldl_parser_rings (cmd : GetRingBuffStatus) (msgs : List VendorMsg) :
    msgs.foldl (GetRingBuffStatus.parser statusSize) cmd =
      ⟨lastNrStatuses statusSize cmd.num msgs, cmd.copies ++
        msgs.flatMap fun msg => statusCopies statusSize 0 (statuses statusSize (msg.getD []))⟩ := by
  induction msgs generalizing cmd with
  | nil =>
    rw [List.flatMap_nil, List.append_nil]
    rfl
  | cons msg msgs ih =>
    rw [List.foldl_cons, ih, parser_rings, List.flatMap_cons, List.append_assoc]
    rfl

variable {statusSize}

/-- Statuses are copied into entries of their own, one behind the other. -/
theorem mem_touched_statusCopies {i k : ℕ} (hsize : 0 < statusSize) {nlas : List VendorAttr}
    (hlen : ∀ nla ∈ nlas, nla.data.length = statusSize) :
    i ∈ touched statusSize (statusCopies statusSize k nlas) ↔ k ≤ i ∧ i < k + nlas.length := by
  induction nlas generalizing k with
  | nil =>
    exact iff_of_false not_mem_touched_nil (by rw [List.length_nil]; omega)
  | cons nla nlas ih =>
    have hcover : cover statusSize nla.data.length = 1 := by
      rw [hlen nla List.mem_cons_self, cover, Nat.add_sub_assoc hsize, Nat.add_div_left _ hsize,
        Nat.div_eq_of_lt (Nat.sub_lt hsize Nat.one_pos)]
    rw [statusCopies_cons, ← List.singleton_append, mem_touched_append, mem_touched_aligned hsize,
      ih fun d hd => hlen d (List.mem_cons_of_mem _ hd), hcover, List.length_cons]
    omega

/-- The entries that a reply writes. -/
theorem mem_touched_rings {i : ℕ} (hsize : 0 < statusSize) (msgs : List VendorMsg) :
    i ∈ touched statusSize
        (msgs.flatMap fun msg => statusCopies statusSize 0 (statuses statusSize (msg.getD []))) ↔
      ∃ msg ∈ msgs, i < nrStatuses statusSize msg := by
  induction msgs with
  | nil => simp [touched]
  | cons msg msgs ih =>
    have hlen : ∀ nla ∈ statuses statusSize (msg.getD []), nla.data.length = statusSize :=
      fun nla hnla => (of_decide_eq_true (List.mem_filter.mp hnla).2).2
    have hfirst := @mem_touched_statusCopies statusSize i 0 hsize _ hlen
    rw [Nat.zero_add] at hfirst
    rw [List.flatMap_cons, mem_touched_append, hfirst, ih, List.exists_mem_cons_iff]
    exact or_congr_left (and_iff_right (Nat.zero_le i))

theorem lastNrStatuses_le_most (msgs : List VendorMsg) :
    lastNrStatuses statusSize 0 msgs ≤ most (nrStatuses statusSize) msgs := by
  induction msgs using List.reverseRecOn with
  | nil => exact Nat.le_refl 0
  | append_singleton msgs msg ih =>
    have hlast : lastNrStatuses statusSize 0 (msgs ++ [msg]) =
        if nrStatuses statusSize msg = 0 then lastNrStatuses statusSize 0 msgs
        else nrStatuses statusSize msg := List.foldl_append
    have hall := most_le_iff.mp (Nat.le_refl (most (nrStatuses statusSize) (msgs ++ [msg])))
    rw [hlast]
    split
    · exact Nat.le_trans ih (most_le_iff.mpr fun m hm => hall m (List.mem_append_left _ hm))
    · exact hall msg (List.mem_append_right _ (List.mem_singleton_self msg))

/-- **Ring buffers.** The copies and the number that a reply leaves are right if and only if it fits. -/
theorem replyFits_rings_iff {numRings : ℕ} (hsize : 0 < statusSize) (msgs : List VendorMsg) :
    ReplyFits statusSize numRings
        (msgs.foldl (.parser statusSize) (GetRingBuffStatus.new numRings)).copies
        (msgs.foldl (.parser statusSize) (GetRingBuffStatus.new numRings)).num ↔
      StatusesFit statusSize numRings msgs := by
  rw [foldl_parser_rings]
  have htouched : ∀ i, i ∈ touched statusSize ([] ++ msgs.flatMap fun msg =>
      statusCopies statusSize 0 (statuses statusSize (msg.getD []))) ↔
        ∃ msg ∈ msgs, i < nrStatuses statusSize msg := fun i => mem_touched_rings hsize msgs
  have hcard := card_touched htouched
  have hle := @lastNrStatuses_le_most statusSize msgs
  constructor
  · rintro ⟨hinside, -, hexact⟩
    refine ⟨fun msg hmsg => ?_, fun msg hmsg => ?_⟩
    · by_contra hmany
      exact Nat.lt_irrefl _
        (hinside numRings ((htouched _).mpr ⟨msg, hmsg, Nat.lt_of_not_le hmany⟩))
    · have hmost : lastNrStatuses statusSize 0 msgs = most (nrStatuses statusSize) msgs :=
        (Int.natCast_inj.mp hexact).trans hcard
      exact hmost ▸ most_le_iff.mp (Nat.le_refl _) msg hmsg
  · rintro ⟨hfits, hcount⟩
    have hmost : lastNrStatuses statusSize 0 msgs = most (nrStatuses statusSize) msgs :=
      Nat.le_antisymm hle (most_le_iff.mpr hcount)
    refine ⟨fun i hi => ?_, ?_, ?_⟩
    · obtain ⟨msg, hmsg, hlt⟩ := (htouched i).mp hi
      exact Nat.lt_of_lt_of_le hlt (hfits msg hmsg)
    · -- the number reported is that of the largest message, which fits
      show ((lastNrStatuses statusSize 0 msgs : ℕ) : ℤ) ≤ numRings
      exact_mod_cast hmost ▸ most_le_iff.mpr hfits
    · exact congrArg Nat.cast (hmost.trans hcard.symm)

end Rings

/-! ## Replies -/

section Replies

variable {μ : Type} {L : Libnl μ VendorMsg} {k kEnd k' : L.Sock} {before : List (List μ)}
  {last : List μ} {term : Terminator} {err : WifiError} {copies : List Copy}

/-- The messages of a reply, as libnl parses them. -/
def replyMsgs (L : Libnl μ VendorMsg) (before : List (List μ)) (last : List μ) : List VendorMsg :=
  (before.flatten ++ last).map L.nlaParse

theorem parsed_eq {κ : Type} (parser : κ → VendorMsg → κ) (cmd : κ) (data : List μ) :
    parsed L parser cmd data = (data.map L.nlaParse).foldl parser cmd := List.foldl_map.symm

/-- What a command leaves that was sent and answered. -/
theorem sendMsg_reply_iff {κ : Type} {parser : κ → VendorMsg → κ} {cmd cmd' : κ}
    (hsent : 0 < (L.sendAutoComplete k).1)
    (hdel : L.Delivers (L.sendAutoComplete k).2 (replyCalls before last term) kEnd) :
    SendMsg L parser true k cmd err cmd' k' ↔
      err = .success ∧ cmd' = (replyMsgs L before last).foldl parser cmd ∧ k' = kEnd := by
  have hreply := @sendMsg_of_delivers _ _ _ L parser k kEnd cmd before last term hsent hdel
  rw [parsed_eq] at hreply
  constructor
  · exact fun h => h.unique hreply
  · rintro ⟨rfl, rfl, rfl⟩
    exact hreply

/-- What `skw_wifi_get_valid_channels` leaves is what its parser makes of the reply. -/
theorem skwWifiGetValidChannels_iff {nlaGetU32 : VendorAttr → UInt32} {maxChannels : ℕ} {num : ℤ}
    (hsent : 0 < (L.sendAutoComplete k).1)
    (hdel : L.Delivers (L.sendAutoComplete k).2 (replyCalls before last term) kEnd) :
    SkwWifiGetValidChannels nlaGetU32 L true k maxChannels err num copies k' ↔
      err = .success ∧ ∃ cmd, cmd = (replyMsgs L before last).foldl (.parser nlaGetU32)
        (GetValidChannelsCommand.new maxChannels) ∧ num = cmd.nrChannels ∧ copies = cmd.copies ∧
          k' = kEnd := by
  constructor
  · rintro ⟨hsend⟩
    obtain ⟨rfl, rfl, rfl⟩ := (sendMsg_reply_iff hsent hdel).mp hsend
    exact ⟨rfl, _, rfl, rfl, rfl, rfl⟩
  · rintro ⟨rfl, cmd, rfl, rfl, rfl, rfl⟩
    exact .mk ((sendMsg_reply_iff hsent hdel).mpr ⟨rfl, rfl, rfl⟩)

/-- What `skw_wifi_get_ring_buffers_status` leaves is what its parser makes of the reply. -/
theorem skwWifiGetRingBuffersStatus_iff {statusSize numRings num : ℕ}
    (hsent : 0 < (L.sendAutoComplete k).1)
    (hdel : L.Delivers (L.sendAutoComplete k).2 (replyCalls before last term) kEnd) :
    SkwWifiGetRingBuffersStatus statusSize L true k numRings err num copies k' ↔
      err = .success ∧ ∃ cmd, cmd = (replyMsgs L before last).foldl (.parser statusSize)
        (GetRingBuffStatus.new numRings) ∧ num = cmd.num ∧ copies = cmd.copies ∧ k' = kEnd := by
  constructor
  · rintro ⟨hsend⟩
    obtain ⟨-, rfl, rfl⟩ := (sendMsg_reply_iff hsent hdel).mp hsend
    exact ⟨rfl, _, rfl, rfl, rfl, rfl⟩
  · rintro ⟨rfl, cmd, rfl, rfl, rfl, rfl⟩
    exact .mk ((sendMsg_reply_iff hsent hdel).mpr ⟨rfl, rfl, rfl⟩)

end Replies

/-- **Vendor replies stay inside the caller's arrays, exactly when.** For any reply of the driver, in any
number of messages: the channels written and the number of them reported are right for an array of
`max_channels` if and only if every list fits the array and the last number given is that of the entries
the longest list covers; the statuses written and the number reported are right for the value of
`*num_rings` on entry if and only if no message has more statuses than that, or than the last message
with any. -/
theorem vendor_replies_iff {μ : Type} (L : Libnl μ VendorMsg) (nlaGetU32 : VendorAttr → UInt32)
    {channelSize statusSize : ℕ} (hchannel : 0 < channelSize) (hstatus : 0 < statusSize)
    {k kEnd : L.Sock} {before : List (List μ)} {last : List μ} {term : Terminator}
    (hsent : 0 < (L.sendAutoComplete k).1)
    (hdel : L.Delivers (L.sendAutoComplete k).2 (replyCalls before last term) kEnd) :
    (∀ maxChannels err num copies k',
        SkwWifiGetValidChannels nlaGetU32 L true k maxChannels err num copies k' →
          (ReplyFits channelSize maxChannels copies num ↔
            ChannelsFit nlaGetU32 channelSize maxChannels (replyMsgs L before last))) ∧
      ∀ numRings err num copies k',
        SkwWifiGetRingBuffersStatus statusSize L true k numRings err num copies k' →
          (ReplyFits statusSize numRings copies num ↔
            StatusesFit statusSize numRings (replyMsgs L before last)) := by
  constructor
  · intro maxChannels err num copies k' h
    obtain ⟨-, cmd, rfl, rfl, rfl, -⟩ := (skwWifiGetValidChannels_iff hsent hdel).mp h
    exact replyFits_channels_iff nlaGetU32 hchannel _
  · intro numRings err num copies k' h
    obtain ⟨-, cmd, rfl, rfl, rfl, -⟩ := (skwWifiGetRingBuffersStatus_iff hsent hdel).mp h
    exact replyFits_rings_iff hstatus _

/-- `nla_get_u32` of a payload of four bytes. -/
def nlaGetU32Le (nla : VendorAttr) : UInt32 :=
  .ofNat (u16At nla.data 0 + 65536 * u16At nla.data 2)

/-- Two channels, 2412 and 2417 MHz, their number, and the status of a ring buffer. -/
def driverReply : VendorMsg :=
  some [⟨skwAttrValidChannels, [0x6C, 0x09, 0, 0, 0x71, 0x09, 0, 0]⟩,
    ⟨skwAttrNrChannels, [2, 0, 0, 0]⟩, ⟨skwAttrRingBuffersStatus, List.replicate 60 0⟩]

theorem nrStatuses_driverReply : nrStatuses 60 driverReply = 1 := by decide +kernel

/-- The calls that this message answers come back. -/
theorem exists_driverReply_calls (maxChannels numRings : ℕ) :
    (∃ num copies, SkwWifiGetValidChannels nlaGetU32Le (queueNl VendorMsg) true
      (replyCalls [] [driverReply] .ack) maxChannels .success num copies []) ∧
    ∃ num copies, SkwWifiGetRingBuffersStatus 60 (queueNl VendorMsg) true
      (replyCalls [] [driverReply] .ack) numRings .success num copies [] := by
  have hdel := queueNl_delivers (replyCalls [] [driverReply] .ack)
  exact ⟨⟨_, _, (skwWifiGetValidChannels_iff (by decide) hdel).mpr ⟨rfl, _, rfl, rfl, rfl, rfl⟩⟩,
    _, _, (skwWifiGetRingBuffersStatus_iff (by decide) hdel).mpr ⟨rfl, _, rfl, rfl, rfl, rfl⟩⟩

theorem vendor_replies_inside :
    (∃ num copies, SkwWifiGetValidChannels nlaGetU32Le (queueNl VendorMsg) true
        (replyCalls [] [driverReply] .ack) 2 .success num copies [] ∧ ReplyFits 4 2 copies num) ∧
      ∃ num copies, SkwWifiGetRingBuffersStatus 60 (queueNl VendorMsg) true
        (replyCalls [] [driverReply] .ack) 1 .success num copies [] ∧ ReplyFits 60 1 copies num := by
  obtain ⟨hchannels, hrings⟩ := @vendor_replies_iff _ (queueNl VendorMsg) nlaGetU32Le 4 60
    (by decide) (by decide) (replyCalls [] [driverReply] .ack) [] [] [driverReply] .ack (by decide)
    (queueNl_delivers _)
  obtain ⟨⟨n, cs, hcall₁⟩, m, ds, hcall₂⟩ := exists_driverReply_calls 2 1
  have hlast : lastNrStatuses 60 0 [driverReply] = 1 := nrStatuses_driverReply
  refine ⟨⟨n, cs, hcall₁, (hchannels _ _ _ _ _ hcall₁).mpr ?_⟩,
    m, ds, hcall₂, (hrings _ _ _ _ _ hcall₂).mpr ?_⟩
  · constructor <;> decide
  · exact ⟨List.forall_mem_singleton.mpr (Nat.le_of_eq nrStatuses_driverReply),
      List.forall_mem_singleton.mpr (Nat.le_of_eq (nrStatuses_driverReply.trans hlast.symm))⟩

/-- The same reply goes beyond an array of one channel, and beyond an array of no statuses. -/
theorem vendor_replies_outside :
    (∃ num copies, SkwWifiGetValidChannels nlaGetU32Le (queueNl VendorMsg) true
        (replyCalls [] [driverReply] .ack) 1 .success num copies [] ∧
        num = 2 ∧ 1 ∈ touched 4 copies) ∧
      ∃ num copies, SkwWifiGetRingBuffersStatus 60 (queueNl VendorMsg) true
        (replyCalls [] [driverReply] .ack) 0 .success num copies [] ∧ 0 ∈ touched 60 copies := by
  obtain ⟨⟨n, cs, hcall₁⟩, m, ds, hcall₂⟩ := exists_driverReply_calls 1 0
  have hdel := queueNl_delivers (replyCalls [] [driverReply] .ack)
  refine ⟨⟨n, cs, hcall₁, ?_⟩, m, ds, hcall₂, ?_⟩
  · obtain ⟨-, cmd, rfl, rfl, rfl, -⟩ := (skwWifiGetValidChannels_iff (by decide) hdel).mp hcall₁
    rw [foldl_parser_channels, foldl_attr_channels]
    exact ⟨by decide, (mem_touched_channels (by decide) _).mpr ⟨_, List.mem_cons_self, by decide⟩⟩
  · obtain ⟨-, cmd, rfl, rfl, rfl, -⟩ := (skwWifiGetRingBuffersStatus_iff (by decide) hdel).mp hcall₂
    rw [foldl_parser_rings]
    exact (mem_touched_rings (by decide) _).mpr ⟨driverReply, List.mem_cons_self,
      Nat.lt_of_lt_of_eq Nat.one_pos nrStatuses_driverReply.symm⟩

end Seekwave
