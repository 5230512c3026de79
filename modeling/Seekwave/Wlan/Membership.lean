import Seekwave.Lib.CString
import Seekwave.Lib.Execution
import Seekwave.Lib.Stdio
import Seekwave.Wlan.Command

/-!
# The groups of the event socket

`skw_wifi_event_init` of `main.cpp` joins four multicast groups of nl80211, one after the other:
`skw_add_membership` asks the generic netlink controller for the family, and `GetMulticastId` finds the
number of the group in the reply. The queries go out on the event socket itself, whose sequence check is
on: from the first group on, an event that is multicast on it before a later reply makes `nl_recvmsgs`
fail, and the process crashes (`not_skwGetMulticastId_of_failed`). The calls do their work where none does
(`event_groups_joined`).

The parser compares names by `strncmp` over the length of the attribute. The kernel puts the terminator
in the attribute too, and so whole names are compared (`strncmpEq_append_zero`).
-/

open Memory

namespace Seekwave

/-! ## The command -/

/-- The attributes of a group that the parser looks at: `CTRL_ATTR_MCAST_GRP_NAME`, with all the bytes of
the attribute, and `CTRL_ATTR_MCAST_GRP_ID`. -/
structure McastGroup where
  name : Option (List UInt8)
  id : Option UInt32
deriving DecidableEq, Repr

/-- `strncmp(s, t, n) == 0`. -/
def StrncmpEq (s t : List UInt8) (n : ℕ) : Prop := (cstr s).take n = (cstr t).take n

instance (s t : List UInt8) (n : ℕ) : Decidable (StrncmpEq s t n) := by unfold StrncmpEq; infer_instance

/-- The fields of `GetMulticastId`. -/
structure GetMulticastId where
  group : List UInt8
  mId : ℤ
deriving DecidableEq, Repr

namespace GetMulticastId

/-- The command once it has been built for a group. -/
def new (group : List UInt8) : GetMulticastId := ⟨group, -1⟩

/-- The loop of the parser over the nested attributes. -/
def eachNested (cmd : GetMulticastId) : List McastGroup → GetMulticastId
  | [] => cmd
  | mcgrp :: rest =>
    match mcgrp.name, mcgrp.id with
    | some name, some id =>
      if StrncmpEq name cmd.group name.length then { cmd with mId := toInt32 id.toNat }
      else eachNested cmd rest
    | _, _ => eachNested cmd rest

/-- `GetMulticastId::parser`, given `CTRL_ATTR_MCAST_GROUPS`. -/
def parser (cmd : GetMulticastId) : Option (List McastGroup) → GetMulticastId
  | none => cmd
  | some groups => cmd.eachNested groups

end GetMulticastId

/-- What the memberships use of libnl besides commands. `genl_ctrl_resolve` gives the number of the
controller, for the header of the query. -/
structure NlGroups {μ : Type} (L : Libnl μ (Option (List McastGroup))) where
  genlCtrlResolve : L.Sock → ℤ × L.Sock
  nlSocketAddMembership : L.Sock → ℤ → ℤ × L.Sock

section Calls

variable {μ : Type} {L : Libnl μ (Option (List McastGroup))} (N : NlGroups L)

/-- `skw_get_multicast_id`, where there is memory for the callbacks. The result of `send` is not looked
at. -/
inductive SkwGetMulticastId (k : L.Sock) (group : List UInt8) : ℤ → L.Sock → Prop
  | mk {r : WifiError} {cmd : GetMulticastId} {k' : L.Sock}
      (hsend : SendMsg L .parser true (N.genlCtrlResolve k).2 (.new group) r cmd k') :
      SkwGetMulticastId k group cmd.mId k'

/-- Whether a query goes out. -/
def NlGroups.querySent (k : L.Sock) : Bool :=
  decide (0 < (L.sendAutoComplete (N.genlCtrlResolve k).2).1)

/-- What a call of `skw_add_membership` has come to: whether its query went out, and the number of the
group that it asked libnl to join. -/
structure Joining where
  sent : Bool
  joined : Option ℤ
deriving DecidableEq, Repr

/-- `skw_add_membership` for a group. -/
inductive SkwAddMembership : L.Sock → List UInt8 → List Joining → L.Sock → Prop
  | notFound {k k' : L.Sock} {group : List UInt8} {id : ℤ}
      (hget : SkwGetMulticastId N k group id k') (hid : id < 0) :
      SkwAddMembership k group [⟨N.querySent k, none⟩] k'
  | found {k k' : L.Sock} {group : List UInt8} {id : ℤ}
      (hget : SkwGetMulticastId N k group id k') (hid : 0 ≤ id) :
      SkwAddMembership k group [⟨N.querySent k, some id⟩] (N.nlSocketAddMembership k' id).2

/-- Calls of `skw_add_membership`, one after the other. -/
abbrev MembershipRun := Execution (SkwAddMembership N)

end Calls

/-- The groups that `skw_wifi_event_init` joins: `scan`, `mlme`, `vendor` and `regulatory`. -/
def eventGroups : List (List UInt8) :=
  [[0x73, 0x63, 0x61, 0x6e], [0x6d, 0x6c, 0x6d, 0x65], [0x76, 0x65, 0x6e, 0x64, 0x6f, 0x72],
    [0x72, 0x65, 0x67, 0x75, 0x6c, 0x61, 0x74, 0x6f, 0x72, 0x79]]

/-! ## What the kernel has -/

/-- A family of the kernel: its groups, by the names they have and their numbers. -/
structure McastFamily where
  groups : List (List UInt8 × UInt32)
  name : ∀ g ∈ groups, 0 ∉ g.1
  number : ∀ g ∈ groups, g.2.toNat < 2 ^ 31

namespace McastFamily

variable (family : McastFamily)

/-- The number of the group of this name. -/
def numberOf (group : List UInt8) : Option ℤ := (family.groups.lookup group).map fun id => (id.toNat : ℤ)

/-- The groups as they are in a message: each has its name, with the terminator, and its number. -/
def attrs : List McastGroup := family.groups.map fun g => ⟨some (g.1 ++ [0]), some g.2⟩

/-- The controller answers a query that goes out, and no call of `nl_recvmsgs` fails before the reply is at
its end: among the data of the reply one message has groups, those of the family. -/
def AnsweredBy {μ : Type} (L : Libnl μ (Option (List McastGroup))) : Prop :=
  ∀ k, 0 < (L.sendAutoComplete k).1 → ∃ before last term kEnd,
    L.Delivers (L.sendAutoComplete k).2 (replyCalls before last term) kEnd ∧
      (before.flatten ++ last).filterMap L.nlaParse = [family.attrs]

end McastFamily

/-! ## One group -/

/-- Up to its terminator a name is compared as a whole. -/
theorem strncmpEq_append_zero {name group : List UInt8} (hname : 0 ∉ name) (hgroup : 0 ∉ group) :
    StrncmpEq (name ++ [0]) group (name ++ [0]).length ↔ name = group := by
  unfold StrncmpEq
  rw [cstr_append_zero, cstr_of_notMem hname, cstr_of_notMem hgroup, List.length_append,
    List.length_singleton, List.take_of_length_le (Nat.le_succ _)]
  constructor
  · intro h
    have hlen := congrArg List.length h
    rw [List.length_take] at hlen
    rw [h, List.take_of_length_le (by omega)]
  · rintro rfl
    exact (List.take_of_length_le (Nat.le_succ _)).symm

/-- The loop of the parser finds the number, and leaves the command alone where there is none. -/
theorem eachNested_attrs (family : McastFamily) {cmd : GetMulticastId} (hgroup : 0 ∉ cmd.group) :
    cmd.eachNested family.attrs = { cmd with mId := (family.numberOf cmd.group).getD cmd.mId } := by
  obtain ⟨groups, hname, hnumber⟩ := family
  unfold McastFamily.attrs McastFamily.numberOf
  dsimp only
  induction groups with
  | nil => rfl
  | cons g groups ih =>
    obtain ⟨name, id⟩ := g
    have hnames := List.forall_mem_cons.mp hname
    have hnumbers := List.forall_mem_cons.mp hnumber
    rw [List.map_cons, GetMulticastId.eachNested]
    dsimp only
    by_cases heq : name = cmd.group
    · rw [if_pos ((strncmpEq_append_zero hnames.1 hgroup).mpr heq), heq, List.lookup_cons_self,
        toInt32_of_lt hnumbers.1]
      rfl
    · rw [if_neg (mt (strncmpEq_append_zero hnames.1 hgroup).mp heq), ih hnames.2 hnumbers.2,
        List.lookup_cons, beq_false_of_ne (Ne.symm heq)]

section Runs

variable {μ : Type} {L : Libnl μ (Option (List McastGroup))} {N : NlGroups L} {family : McastFamily}

/-- Whatever else comes in with the groups, the parser has seen them. -/
theorem parsed_groups {data : List μ} (hdata : data.filterMap L.nlaParse = [family.attrs])
    {cmd : GetMulticastId} (hgroup : 0 ∉ cmd.group) :
    parsed L .parser cmd data = { cmd with mId := (family.numberOf cmd.group).getD cmd.mId } := by
  have hfold : parsed L .parser cmd data =
      (data.filterMap L.nlaParse).foldl GetMulticastId.eachNested cmd := by
    rw [List.foldl_filterMap]
    unfold parsed
    congr 1
    funext c msg
    cases L.nlaParse msg <;> rfl
  rw [hfold, hdata, List.foldl_cons, List.foldl_nil, eachNested_attrs family hgroup]

/-- A query comes to an end, with the number of the group where it went out. -/
theorem exists_sendMsg (hanswer : family.AnsweredBy L) {group : List UInt8} (hgroup : 0 ∉ group)
    (k : L.Sock) : ∃ r k',
      SendMsg L GetMulticastId.parser true (N.genlCtrlResolve k).2 (.new group) r
        ⟨group, if N.querySent k = true then (family.numberOf group).getD (-1) else -1⟩ k' := by
  unfold NlGroups.querySent
  generalize (N.genlCtrlResolve k).2 = k₀
  by_cases hsent : 0 < (L.sendAutoComplete k₀).1
  · obtain ⟨before, last, term, kEnd, hdel, hdata⟩ := hanswer k₀ hsent
    have hparsed : parsed L GetMulticastId.parser (.new group) (before.flatten ++ last) =
        ⟨group, (family.numberOf group).getD (-1)⟩ := parsed_groups hdata hgroup
    have hsend : SendMsg L GetMulticastId.parser true k₀ (.new group) .success _ kEnd :=
      sendMsg_of_delivers _ hsent hdel
    rw [hparsed] at hsend
    rw [if_pos (decide_eq_true hsent)]
    exact ⟨_, _, hsend⟩
  · rw [if_neg (by rwa [decide_eq_true_eq])]
    exact ⟨_, _, .sent rfl _ _ (.leave (if_neg hsent))⟩

/-- `skw_get_multicast_id` returns the number of the group, or -1. -/
theorem SkwGetMulticastId.eq (hanswer : family.AnsweredBy L) {group : List UInt8} (hgroup : 0 ∉ group)
    {k k' : L.Sock} {id : ℤ} (h : SkwGetMulticastId N k group id k') :
    id = if N.querySent k = true then (family.numberOf group).getD (-1) else -1 := by
  obtain ⟨hsend⟩ := h
  obtain ⟨r, k₁, hsend'⟩ := exists_sendMsg (N := N) hanswer hgroup k
  rw [(hsend.unique hsend').2.1]

/-- Where an event comes in before the reply is at its end, and its sequence number makes the call of
`nl_recvmsgs` fail, `skw_get_multicast_id` does not return. -/
theorem not_skwGetMulticastId_of_failed {k k' kEnd : L.Sock} (hsent : N.querySent k = true)
    {before : List (List μ × Bool)} {last : List μ × Bool} {term : Terminator}
    (hrecv : L.ReceivesAll (L.sendAutoComplete (N.genlCtrlResolve k).2).2 (recvCalls before last term)
      kEnd) (hfailed : ∃ c ∈ before ++ [last], c.2 = true) (group : List UInt8) (id : ℤ) :
    ¬ SkwGetMulticastId N k group id k' := by
  rintro ⟨hsend⟩
  have hcrash : SendCrashes L GetMulticastId.parser (N.genlCtrlResolve k).2 (.new group) :=
    crashes_of_failed hrecv hfailed (of_decide_eq_true hsent) _
  exact hcrash.not_sendMsg hsend

/-- The numbers of a family are no error codes. -/
theorem McastFamily.numberOf_nonneg {group : List UInt8} {id : ℤ} (h : family.numberOf group = some id) :
    0 ≤ id := by
  obtain ⟨n, -, rfl⟩ := Option.map_eq_some_iff.mp h
  exact Int.natCast_nonneg _

/-- What a call of `skw_add_membership` is to do: join the group, if it could ask for it. -/
def JoinsRight (family : McastFamily) (group : List UInt8) (o : Joining) : Prop :=
  o.joined = if o.sent = true then family.numberOf group else none

/-- **Step lemma.** -/
theorem SkwAddMembership.joinsRight (hanswer : family.AnsweredBy L) {group : List UInt8}
    (hgroup : 0 ∉ group) {k k' : L.Sock} {os : List Joining} (h : SkwAddMembership N k group os k') :
    List.Forall₂ (JoinsRight family) [group] os := by
  -- a negative number means that the family names no such group
  cases h with
  | notFound hget hid =>
    refine .cons ?_ .nil
    have heq := hget.eq hanswer hgroup
    unfold JoinsRight
    dsimp only
    split
    · next hsent =>
      rw [if_pos hsent] at heq
      cases hnumber : family.numberOf _ with
      | none => rfl
      | some id =>
        rw [hnumber, Option.getD_some] at heq
        exact absurd (McastFamily.numberOf_nonneg hnumber) (heq ▸ Int.not_le.mpr hid)
    · rfl
  | found hget hid =>
    refine .cons ?_ .nil
    have heq := hget.eq hanswer hgroup
    unfold JoinsRight
    dsimp only
    split
    · next hsent =>
      rw [if_pos hsent] at heq
      cases hnumber : family.numberOf _ with
      | none =>
        rw [hnumber, Option.getD_none] at heq
        omega
      | some id =>
        rw [hnumber, Option.getD_some] at heq
        rw [heq]
    · next hsent =>
      rw [if_neg hsent] at heq
      omega

theorem exists_skwAddMembership (hanswer : family.AnsweredBy L) {group : List UInt8}
    (hgroup : 0 ∉ group) (k : L.Sock) : ∃ os k', SkwAddMembership N k group os k' := by
  obtain ⟨r, k', hsend⟩ := exists_sendMsg (N := N) hanswer hgroup k
  have hget := SkwGetMulticastId.mk hsend
  rcases Int.lt_or_le
    (if N.querySent k = true then (family.numberOf group).getD (-1) else -1) 0 with hid | hid
  · exact ⟨_, _, .notFound hget hid⟩
  · exact ⟨_, _, .found hget hid⟩

/-- The calls for any groups all return. -/
theorem exists_membershipRun (hanswer : family.AnsweredBy L) {groups : List (List UInt8)}
    (hgroups : ∀ group ∈ groups, 0 ∉ group) (k : L.Sock) : ∃ os k', MembershipRun N k groups os k' := by
  induction groups using List.reverseRecOn with
  | nil => exact ⟨_, _, .start⟩
  | append_singleton groups group ih =>
    obtain ⟨os, k₁, hrun⟩ := ih fun g hg => hgroups g (List.mem_append_left _ hg)
    obtain ⟨o, k', hstep⟩ := exists_skwAddMembership (N := N) hanswer
      (hgroups group (List.mem_append_right _ (List.mem_singleton_self group))) k₁
    exact ⟨_, _, hrun.snoc hstep⟩

/-- **Run lemma.** Each of the calls has joined its group. -/
theorem joinsRight_of_run (hanswer : family.AnsweredBy L) {groups : List (List UInt8)}
    (hgroups : ∀ group ∈ groups, 0 ∉ group) {k k' : L.Sock} {os : List Joining}
    (run : MembershipRun N k groups os k') : List.Forall₂ (JoinsRight family) groups os := by
  induction run with
  | start => exact .nil
  | snoc _ hstep ih =>
    have hleft := ih fun g hg => hgroups g (List.mem_append_left _ hg)
    have hright := hstep.joinsRight hanswer
      (hgroups _ (List.mem_append_right _ (List.mem_singleton_self _)))
    exact List.rel_append hleft hright

/-- **The event socket joins its groups.** Where the controller answers, and nothing comes in on the socket
before the reply, the four calls of `skw_wifi_event_init` all return, and each of them joins the group of
exactly its name, by its number, if its query went out and the kernel has the group, and no group
otherwise. -/
theorem event_groups_joined (hanswer : family.AnsweredBy L) (k : L.Sock) :
    (∃ os k', MembershipRun N k eventGroups os k') ∧
      ∀ os k', MembershipRun N k eventGroups os k' → List.Forall₂ (JoinsRight family) eventGroups os := by
  have hgroups : ∀ group ∈ eventGroups, 0 ∉ group := by decide
  exact ⟨exists_membershipRun hanswer hgroups k, fun _ _ => joinsRight_of_run hanswer hgroups⟩

/-- Some groups of nl80211: `config`, which is not joined, and two that are. -/
def nl80211Family : McastFamily where
  groups := [([0x63, 0x6f, 0x6e, 0x66, 0x69, 0x67], 2), ([0x73, 0x63, 0x61, 0x6e], 3),
    ([0x6d, 0x6c, 0x6d, 0x65], 5)]
  name := by decide
  number := by decide

/-- A libnl that answers every query with the groups of `nl80211Family`, a message without groups before
them. -/
def nl80211Nl : Libnl (Option (List McastGroup)) (Option (List McastGroup)) :=
  { queueNl (Option (List McastGroup)) with
    sendAutoComplete := fun _ => (16, replyCalls [[none]] [some nl80211Family.attrs] .ack) }

def nl80211Groups : NlGroups nl80211Nl := ⟨fun k => (16, k), fun k _ => (0, k)⟩

theorem nl80211Family_answeredBy : nl80211Family.AnsweredBy nl80211Nl := by
  intro k _
  have hgood : (0 : ℤ) < 0 ↔ false = true := iff_of_false (Int.lt_irrefl 0) Bool.false_ne_true
  refine ⟨[[none]], [some nl80211Family.attrs], .ack, [], ?_, rfl⟩
  exact ⟨_, fun _ _ _ => ⟨0, rfl, hgood⟩, _, fun _ _ _ => ⟨0, rfl, hgood⟩, rfl⟩

theorem event_groups_joined_nl80211 :
    (∃ os k', MembershipRun nl80211Groups [] eventGroups os k') ∧
      ∀ os k', MembershipRun nl80211Groups [] eventGroups os k' →
        List.Forall₂ (JoinsRight nl80211Family) eventGroups os :=
  event_groups_joined nl80211Family_answeredBy []

end Runs

end Seekwave
