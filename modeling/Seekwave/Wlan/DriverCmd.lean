import Seekwave.Lib.Execution
import Seekwave.Lib.Memory
import Seekwave.Lib.Streak
import Seekwave.Vendor.Conf

/-!
# Private commands of `wpa_supplicant`

`wpa_driver_nl80211_driver_cmd` answers three commands itself and hands all others to the driver by an
`ioctl()`, in the caller's buffer. It counts the failures of these in `drv_errors`, which all interfaces
share, and reports the driver hung when there are too many in a row: `driver_hangs_iff` says of every run of
commands when. `driver_cmd_buffer` says what the buffer holds of a reply, and when the command itself fits
in it.

`DRV_NUMBER_SEQUENTIAL_ERRORS` is a parameter, as the header that defines it belongs to `wpa_supplicant`.
-/

open Memory

namespace Seekwave

/-! ## Strings -/

/-- `tolower` of the C locale. -/
def tolower (c : UInt8) : UInt8 := if 0x41 ≤ c && c ≤ 0x5a then c + 0x20 else c

/-- `os_strcasecmp(s, t) == 0`. -/
def StrcaseEq (s t : List UInt8) : Prop := s.map tolower = t.map tolower

/-- `os_strncasecmp(s, t, n) == 0`. -/
def StrncaseEq (s t : List UInt8) (n : ℕ) : Prop := (s.map tolower).take n = (t.map tolower).take n

instance (s t : List UInt8) : Decidable (StrcaseEq s t) := by unfold StrcaseEq; infer_instance

instance (s t : List UInt8) (n : ℕ) : Decidable (StrncaseEq s t n) := by
  unfold StrncaseEq; infer_instance

/-! ## Interfaces -/

/-- `struct i802_bss`, with `bss->drv` as a number. -/
structure I802Bss where
  drv : ℕ
  ifindex : ℤ
  wdevId : ℕ
  ifname : List UInt8

/-- The interfaces of `wpa_supplicant`, and how they point to each other: `drv->ctx`, `wpa_s->parent` and
`wpa_s->drv_priv`. -/
structure WpaInterfaces where
  bss : ℕ → I802Bss
  ctx : ℕ → Option ℕ
  parent : ℕ → Option ℕ
  drvPriv : ℕ → Option ℕ

/-- The interface that a command for `priv` goes to: a dedicated P2P interface has no net device, and its
parent takes the command, if that has an interface at all. -/
def WpaInterfaces.reroute (W : WpaInterfaces) (priv : ℕ) : Option ℕ :=
  if (W.bss priv).ifindex ≤ 0 ∧ 0 < (W.bss priv).wdevId then
    match (W.ctx (W.bss priv).drv).bind W.parent with
    | some parent => W.drvPriv parent
    | none => some priv
  else some priv

/-! ## Commands -/

/-- `REGDOM_TYPE_*`, as far as they are used. -/
inductive RegdomType
  | country
  | unknown
deriving DecidableEq, Repr

/-- What comes behind `WPA_EVENT_DRIVER_STATE`. -/
inductive DriverState
  | stopped
  | started
  | hanged
deriving DecidableEq, Repr

/-- What a command does besides writing to the buffer. -/
inductive DriverEvent
  | linuxSetIfaceFlags (ifname : List UInt8) (devUp : Bool)
  | wpaMsg (drv : ℕ) (state : DriverState)
  | osMemcpy (bytes : List UInt8)
  | ioctl (ifrName : List UInt8) (totalLen : ℕ)
  | channelListChanged (drv : ℕ) (type : RegdomType) (alpha2 : UInt8 × UInt8)
deriving DecidableEq, Repr

/-- A call, with what the functions it uses return: `linux_get_ifhwaddr` and the address, and `ioctl` and
the memory at `buf` then. `buf` is the caller's buffer, `buf_len` bytes. -/
structure DriverCall where
  priv : ℕ
  cmd : List UInt8
  terminated : 0 ∉ cmd
  buf : List UInt8
  linuxGetIfhwaddr : ℤ × (Fin 6 → UInt8)
  ioctl : ℤ × List UInt8

/-- `IFNAMSIZ`, the size of `ifr_name`. -/
def ifrNameSize : ℕ := 16

/-- `%02x` of a byte. -/
def hexByte (b : UInt8) : List UInt8 :=
  [b / 16, b % 16].map fun d => if d < 10 then 0x30 + d else 0x57 + d

/-- `"Macaddr = " MACSTR "\n"` -/
def macaddrText (macaddr : Fin 6 → UInt8) : List UInt8 :=
  chars "Macaddr = " ++ [0x3a].intercalate ((List.ofFn macaddr).map hexByte) ++ [0x0a]

/-- `os_snprintf(buf, buf_len, …)` of a text: what fits, and its end. -/
def osSnprintf (buf text : List UInt8) : List UInt8 :=
  if buf = [] then [] else store buf 0 (text.take (buf.length - 1) ++ [0])

/-- `wpa_driver_send_hang_msg`, with `drv_errors`. -/
def wpaDriverSendHangMsg (drvNumberSequentialErrors drv drvErrors : ℕ) : ℕ × List DriverEvent :=
  if drvNumberSequentialErrors < drvErrors + 1 then (0, [.wpaMsg drv .hanged]) else (drvErrors + 1, [])

/-- `wpa_driver_notify_country_change`. The string's end is read as a 0 byte. -/
def wpaDriverNotifyCountryChange (drv : ℕ) (cmd : List UInt8) : List DriverEvent :=
  if StrncaseEq cmd (chars "COUNTRY") 7 ∨ StrncaseEq cmd (chars "SETBAND") 7 then
    if StrncaseEq cmd (chars "COUNTRY") 7 then
      [.channelListChanged drv .country
        (if 9 < cmd.length then (byteAt cmd 8, byteAt cmd 9) else (0, 0))]
    else [.channelListChanged drv .unknown (0, 0)]
  else []

/-- The commands whose reply is a text in the buffer. -/
def RepliesText (cmd : List UInt8) : Prop :=
  StrcaseEq cmd (chars "LINKSPEED") ∨ StrcaseEq cmd (chars "RSSI") ∨ StrcaseEq cmd (chars "GETBAND") ∨
    StrncaseEq cmd (chars "WLS_BATCHING") 12

instance (cmd : List UInt8) : Decidable (RepliesText cmd) := by unfold RepliesText; infer_instance

/-- What a call returns, and leaves in the buffer and in `drv_errors`. -/
structure DriverReply where
  ret : ℤ
  buf : List UInt8
  drvErrors : ℕ
  events : List DriverEvent

/-- The `ioctl()` of a command, and what follows from its value. -/
def privateCommand (drvNumberSequentialErrors drvErrors : ℕ) (bss : I802Bss) (c : DriverCall) :
    DriverReply :=
  let issued : List DriverEvent :=
    [.osMemcpy (c.cmd ++ [0]), .ioctl (bss.ifname.take (ifrNameSize - 1)) c.buf.length]
  if c.ioctl.1 < 0 then
    let hang := wpaDriverSendHangMsg drvNumberSequentialErrors bss.drv drvErrors
    ⟨c.ioctl.1, c.ioctl.2, hang.1, issued ++ hang.2⟩
  else
    ⟨if RepliesText c.cmd then (cstr c.ioctl.2).length else 0, c.ioctl.2, 0,
      issued ++ wpaDriverNotifyCountryChange bss.drv c.cmd⟩

/-- `wpa_driver_nl80211_driver_cmd`. -/
def wpaDriverNl80211DriverCmd (W : WpaInterfaces) (drvNumberSequentialErrors drvErrors : ℕ)
    (c : DriverCall) : DriverReply :=
  match W.reroute c.priv with
  | none => ⟨-1, c.buf, drvErrors, []⟩
  | some priv =>
    let bss := W.bss priv
    if StrcaseEq c.cmd (chars "STOP") then
      ⟨0, c.buf, drvErrors, [.linuxSetIfaceFlags bss.ifname false, .wpaMsg bss.drv .stopped]⟩
    else if StrcaseEq c.cmd (chars "START") then
      ⟨0, c.buf, drvErrors, [.linuxSetIfaceFlags bss.ifname true, .wpaMsg bss.drv .started]⟩
    else if StrcaseEq c.cmd (chars "MACADDR") then
      if c.linuxGetIfhwaddr.1 ≠ 0 then ⟨c.linuxGetIfhwaddr.1, c.buf, drvErrors, []⟩
      else
        ⟨(macaddrText c.linuxGetIfhwaddr.2).length, osSnprintf c.buf (macaddrText c.linuxGetIfhwaddr.2),
          drvErrors, []⟩
    else privateCommand drvNumberSequentialErrors drvErrors bss c

/-! ## Commands by kind -/

/-- The commands that are not handed to the driver. -/
def AnswersItself (cmd : List UInt8) : Prop :=
  StrcaseEq cmd (chars "STOP") ∨ StrcaseEq cmd (chars "START") ∨ StrcaseEq cmd (chars "MACADDR")

instance (cmd : List UInt8) : Decidable (AnswersItself cmd) := by unfold AnswersItself; infer_instance

/-- Whether the `ioctl()` of a call succeeds, if the call makes one. -/
def DriverCall.outcome (W : WpaInterfaces) (c : DriverCall) : Option Bool :=
  if (W.reroute c.priv).isSome ∧ ¬ AnswersItself c.cmd then some (decide (0 ≤ c.ioctl.1)) else none

/-- The outcomes of the calls of a run that make an `ioctl()`. -/
def outcomes (W : WpaInterfaces) (cs : List DriverCall) : List Bool := cs.filterMap (·.outcome W)

section Calls

variable {W : WpaInterfaces} {limit drvErrors : ℕ} {c : DriverCall}

/-- A change of country is the only thing that is notified. -/
theorem mem_notify {drv : ℕ} {cmd : List UInt8} {e : DriverEvent}
    (he : e ∈ wpaDriverNotifyCountryChange drv cmd) : ∃ type alpha2, e = .channelListChanged drv type alpha2 := by
  rw [wpaDriverNotifyCountryChange] at he
  split at he
  · split at he
    · exact ⟨_, _, List.mem_singleton.mp he⟩
    · exact ⟨_, _, List.mem_singleton.mp he⟩
  · exact absurd he List.not_mem_nil

theorem wpaMsg_notMem_notify (drv drv' : ℕ) (cmd : List UInt8) (state : DriverState) :
    .wpaMsg drv' state ∉ wpaDriverNotifyCountryChange drv cmd := by
  intro he
  obtain ⟨type, alpha2, heq⟩ := mem_notify he
  cases heq

theorem osMemcpy_notMem_notify (drv : ℕ) (cmd bytes : List UInt8) :
    .osMemcpy bytes ∉ wpaDriverNotifyCountryChange drv cmd := by
  intro he
  obtain ⟨type, alpha2, heq⟩ := mem_notify he
  cases heq

/-- The call asks for the address of its interface, and gets it. -/
def AsksMacaddr (W : WpaInterfaces) (c : DriverCall) : Prop :=
  (W.reroute c.priv).isSome ∧ StrcaseEq c.cmd (chars "MACADDR") ∧ c.linuxGetIfhwaddr.1 = 0

theorem not_strcaseEq_of_macaddr {cmd : List UInt8} (h : StrcaseEq cmd (chars "MACADDR")) :
    ¬ StrcaseEq cmd (chars "STOP") ∧ ¬ StrcaseEq cmd (chars "START") := by
  constructor
  · intro h'
    exact absurd (h.symm.trans h') (by decide)
  · intro h'
    exact absurd (h.symm.trans h') (by decide)

/-- What a call comes to: it stays without effect on the buffer and on `drv_errors`, or it prints an
address, or it is handed to the driver. -/
inductive DriverCase (W : WpaInterfaces) (limit drvErrors : ℕ) (c : DriverCall) : DriverReply → Prop
  | answered {ret : ℤ} {events : List DriverEvent} (hout : c.outcome W = none) (hmac : ¬ AsksMacaddr W c)
      (hret : ret ≤ 0 ∨ ret = c.linuxGetIfhwaddr.1)
      (hevents : ∀ e ∈ events, (∃ ifname devUp, e = .linuxSetIfaceFlags ifname devUp) ∨
        ∃ drv state, state ≠ .hanged ∧ e = .wpaMsg drv state) :
      DriverCase W limit drvErrors c ⟨ret, c.buf, drvErrors, events⟩
  | macaddr (hout : c.outcome W = none) (hmac : AsksMacaddr W c) :
      DriverCase W limit drvErrors c ⟨(macaddrText c.linuxGetIfhwaddr.2).length,
        osSnprintf c.buf (macaddrText c.linuxGetIfhwaddr.2), drvErrors, []⟩
  | issued (priv : ℕ) (hroute : W.reroute c.priv = some priv) (hself : ¬ AnswersItself c.cmd)
      (hout : c.outcome W = some (decide (0 ≤ c.ioctl.1))) :
      DriverCase W limit drvErrors c (privateCommand limit drvErrors (W.bss priv) c)

theorem driverCmd_case (W : WpaInterfaces) (limit drvErrors : ℕ) (c : DriverCall) :
    DriverCase W limit drvErrors c (wpaDriverNl80211DriverCmd W limit drvErrors c) := by
  rw [wpaDriverNl80211DriverCmd]
  rcases hroute : W.reroute c.priv with - | priv
  · have hnone : (W.reroute c.priv).isSome = false := by rw [hroute]; rfl
    exact .answered (if_neg (by simp [hnone])) (by simp [AsksMacaddr, hnone]) (.inl (by decide)) (by simp)
  dsimp only
  -- STOP, START and MACADDR are answered without an `ioctl()`
  have hself : AnswersItself c.cmd → c.outcome W = none := fun h => if_neg fun hand => hand.2 h
  split
  · next hstop =>
    refine .answered (hself (.inl hstop)) (fun h => (not_strcaseEq_of_macaddr h.2.1).1 hstop)
      (.inl (Int.le_refl 0)) fun e he => ?_
    rcases List.mem_pair.mp he with rfl | rfl
    · exact .inl ⟨_, _, rfl⟩
    · exact .inr ⟨_, _, by decide, rfl⟩
  · split
    · next hstart =>
      refine .answered (hself (.inr (.inl hstart))) (fun h => (not_strcaseEq_of_macaddr h.2.1).2 hstart)
        (.inl (Int.le_refl 0)) fun e he => ?_
      rcases List.mem_pair.mp he with rfl | rfl
      · exact .inl ⟨_, _, rfl⟩
      · exact .inr ⟨_, _, by decide, rfl⟩
    · split
      · next hmac =>
        split
        · next hfail => exact .answered (hself (.inr (.inr hmac))) (fun h => hfail h.2.2) (.inr rfl) (by simp)
        · next hok =>
          exact .macaddr (hself (.inr (.inr hmac))) ⟨by rw [hroute]; rfl, hmac, not_not.mp hok⟩
      · next hstop hstart hmac =>
        have hnot : ¬ AnswersItself c.cmd := by
          rintro (h | h | h)
          · exact hstop h
          · exact hstart h
          · exact hmac h
        exact .issued priv hroute hnot (if_pos ⟨by rw [hroute]; rfl, hnot⟩)

/-- **One command.** It counts by the outcome of its `ioctl()`, and reports a hang of its driver if it has
failed once too often. -/
theorem driverCmd_counts (W : WpaInterfaces) (limit drvErrors : ℕ) (c : DriverCall) :
    (wpaDriverNl80211DriverCmd W limit drvErrors c).drvErrors = (match c.outcome W with
      | none => drvErrors
      | some true => 0
      | some false => if limit < drvErrors + 1 then 0 else drvErrors + 1) ∧
    ∀ drv, .wpaMsg drv .hanged ∈ (wpaDriverNl80211DriverCmd W limit drvErrors c).events ↔
      c.outcome W = some false ∧ limit < drvErrors + 1 ∧
        (W.reroute c.priv).map (fun priv => (W.bss priv).drv) = some drv := by
  have hcase := driverCmd_case W limit drvErrors c
  generalize wpaDriverNl80211DriverCmd W limit drvErrors c = r at hcase ⊢
  cases hcase with
  | answered hout _ _ hevents =>
    rw [hout]
    refine ⟨rfl, fun drv => iff_of_false (fun he => ?_) (by simp)⟩
    rcases hevents _ he with ⟨_, _, heq⟩ | ⟨_, state, hstate, heq⟩
    · cases heq
    · obtain ⟨-, rfl⟩ := DriverEvent.wpaMsg.inj heq
      exact hstate rfl
  | macaddr hout _ =>
    rw [hout]
    exact ⟨rfl, fun drv => iff_of_false List.not_mem_nil (by simp)⟩
  | issued priv hroute _ hout =>
    rw [hout, hroute, privateCommand]
    dsimp only
    by_cases hfail : c.ioctl.1 < 0
    · rw [if_pos hfail, decide_eq_false (by omega), wpaDriverSendHangMsg]
      by_cases hlimit : limit < drvErrors + 1
      · simp [hlimit, eq_comm]
      · simp [hlimit]
    · rw [if_neg hfail, decide_eq_true (by omega)]
      simp [wpaMsg_notMem_notify]

end Calls

/-! ## Runs of commands -/

/-- A command, with `drv_errors` before and after. -/
def DriverStep (W : WpaInterfaces) (limit : ℕ) (drvErrors : ℕ) (c : DriverCall) (os : List DriverEvent)
    (drvErrors' : ℕ) : Prop :=
  (wpaDriverNl80211DriverCmd W limit drvErrors c).events = os ∧
    (wpaDriverNl80211DriverCmd W limit drvErrors c).drvErrors = drvErrors'

/-- Commands one after the other, for any interfaces. -/
abbrev DriverRun (W : WpaInterfaces) (limit : ℕ) (cs : List DriverCall) (os : List DriverEvent)
    (drvErrors : ℕ) : Prop :=
  Execution (DriverStep W limit) 0 cs os drvErrors

section Runs

variable {W : WpaInterfaces} {limit drvErrors : ℕ} {cs : List DriverCall} {os : List DriverEvent}

theorem outcomes_append (cs ds : List DriverCall) : outcomes W (cs ++ ds) = outcomes W cs ++ outcomes W ds :=
  List.filterMap_append

theorem outcomes_singleton (c : DriverCall) : outcomes W [c] = (c.outcome W).toList := by
  cases h : c.outcome W <;> simp [outcomes, h]

/-- **Run lemma.** `drv_errors` is the number of failures in a row, as far as it counts. -/
theorem drvErrors_of_run (run : DriverRun W limit cs os drvErrors) :
    drvErrors = streak (outcomes W cs) % (limit + 1) := by
  refine run.invariant (I := fun cs _ n => n = streak (outcomes W cs) % (limit + 1)) (Nat.zero_mod _).symm ?_
  rintro cs _ n c _ _ - hn ⟨-, rfl⟩
  rw [(driverCmd_counts W limit n c).1, outcomes_append, outcomes_singleton]
  rcases c.outcome W with - | - | -
  · rw [Option.toList_none, List.append_nil]
    exact hn
  · rw [Option.toList_some, streak_failure]
    exact counter_next hn
  · rw [Option.toList_some, streak_success, Nat.zero_mod]

/-- **When the driver is reported hung.** Over any run of commands for any interfaces, the next one reports
its driver hung if and only if its `ioctl()` fails and is the last of a multiple of
`DRV_NUMBER_SEQUENTIAL_ERRORS + 1` failures in a row, whatever the commands between them that make no
`ioctl()`. -/
theorem driver_hangs_iff (run : DriverRun W limit cs os drvErrors) (c : DriverCall) (drv : ℕ) :
    .wpaMsg drv .hanged ∈ (wpaDriverNl80211DriverCmd W limit drvErrors c).events ↔
      c.outcome W = some false ∧ streak (outcomes W (cs ++ [c])) % (limit + 1) = 0 ∧
        (W.reroute c.priv).map (fun priv => (W.bss priv).drv) = some drv := by
  rw [(driverCmd_counts W limit drvErrors c).2, exceeds_iff (drvErrors_of_run run)]
  refine and_congr_right fun hfail => ?_
  rw [outcomes_append, outcomes_singleton, hfail, Option.toList_some, streak_failure]

end Runs

/-- One interface, and a command for it. -/
def oneInterface : WpaInterfaces :=
  ⟨fun _ => ⟨3, 5, 0, chars "wlan0"⟩, fun _ => none, fun _ => none, fun _ => none⟩

theorem zero_notMem_rssi : 0 ∉ chars "RSSI" := by decide

def rssiCall (ret : ℤ) : DriverCall :=
  ⟨0, chars "RSSI", zero_notMem_rssi, List.replicate 64 0, (0, fun _ => 0), (ret, [])⟩

/-- With a limit of one, the second failure in a row reports a hang. -/
theorem driver_hangs_iff_rssi :
    .wpaMsg 3 .hanged ∈ (wpaDriverNl80211DriverCmd oneInterface 1 1 (rssiCall (-1))).events := by
  have h₁ : DriverRun oneInterface 1 [rssiCall 0] _ 0 :=
    (@Execution.start _ _ _ (DriverStep oneInterface 1) 0).snoc ⟨rfl, rfl⟩
  have h₂ : DriverRun oneInterface 1 [rssiCall 0, rssiCall (-1)] _ 1 := h₁.snoc ⟨rfl, rfl⟩
  exact (driver_hangs_iff h₂ (rssiCall (-1)) 3).mpr ⟨by decide, by decide, rfl⟩

/-! ## The buffer -/

theorem hexByte_ne_zero (b : UInt8) : (0 : UInt8) ∉ hexByte b := by
  have hdigit : ∀ d : UInt8, d.toNat < 16 → (0 : UInt8) ≠ if d < 10 then 0x30 + d else 0x57 + d := by
    intro d hd heq
    have hnat := congrArg UInt8.toNat heq
    split at hnat
    · rw [UInt8.toNat_add] at hnat
      simp at hnat
      omega
    · rw [UInt8.toNat_add] at hnat
      simp at hnat
      omega
  have hlt := b.toNat_lt
  intro hmem
  simp only [hexByte, List.map_cons, List.map_nil, List.mem_cons, List.not_mem_nil, or_false] at hmem
  rcases hmem with hmem | hmem
  · exact hdigit _ (by rw [UInt8.toNat_div]; simp; omega) hmem
  · exact hdigit _ (by rw [UInt8.toNat_mod]; simp; omega) hmem

theorem length_macaddrText (macaddr : Fin 6 → UInt8) : (macaddrText macaddr).length = 28 := rfl

theorem macaddrText_ne_zero (macaddr : Fin 6 → UInt8) : (0 : UInt8) ∉ macaddrText macaddr := by
  have hbyte := fun i => hexByte_ne_zero (macaddr i)
  have htext : (0 : UInt8) ∉ chars "Macaddr = " := by decide
  simp [macaddrText, htext, List.ofFn_succ, List.intercalate, hbyte]

/-- The string in the buffer, behind `os_snprintf`. -/
theorem cstr_osSnprintf {buf text : List UInt8} (htext : 0 ∉ text) :
    cstr (osSnprintf buf text) = text.take (buf.length - 1) := by
  rw [osSnprintf]
  split
  · next hnil =>
    rw [hnil]
    rfl
  · have hzero : ∀ b ∈ text.take (buf.length - 1), decide (b ≠ 0) = true := by
      intro b hb
      refine decide_eq_true ?_
      rintro rfl
      exact htext (List.mem_of_mem_take hb)
    rw [store_of_le (Nat.zero_le _), List.take_zero, List.nil_append, List.append_assoc, cstr,
      List.takeWhile_append_of_pos hzero]
    simp

/-- **The buffer of a command.** A call copies its command into the buffer whether it has room or not: it
has if and only if the command is shorter than the buffer, or goes to no driver. And, as
`linux_get_ifhwaddr` returns nothing positive, the number of bytes that a call returns is at most that of the
string in the buffer, except for an address in a buffer too short for it. -/
theorem driver_cmd_buffer (W : WpaInterfaces) (limit drvErrors : ℕ) (c : DriverCall) :
    ((∀ bytes, .osMemcpy bytes ∈ (wpaDriverNl80211DriverCmd W limit drvErrors c).events →
        bytes.length ≤ c.buf.length) ↔ c.outcome W = none ∨ c.cmd.length < c.buf.length) ∧
      (c.linuxGetIfhwaddr.1 ≤ 0 →
        ((wpaDriverNl80211DriverCmd W limit drvErrors c).ret ≤
          (cstr (wpaDriverNl80211DriverCmd W limit drvErrors c).buf).length ↔
            ¬ (AsksMacaddr W c ∧ c.buf.length ≤ 28))) := by
  have hcase := driverCmd_case W limit drvErrors c
  generalize wpaDriverNl80211DriverCmd W limit drvErrors c = r at hcase ⊢
  cases hcase with
  | answered hout hmac hret hevents =>
    refine ⟨iff_of_true (fun bytes he => ?_) (.inl hout), fun haddr => iff_of_true ?_ fun h => hmac h.1⟩
    · rcases hevents _ he with ⟨_, _, heq⟩ | ⟨_, _, _, heq⟩
      · cases heq
      · cases heq
    · have hle := Int.natCast_nonneg (cstr c.buf).length
      dsimp only
      omega
  | macaddr hout hmac =>
    refine ⟨iff_of_true (fun bytes he => absurd he List.not_mem_nil) (.inl hout), fun _ => ?_⟩
    dsimp only
    rw [cstr_osSnprintf (macaddrText_ne_zero _), List.length_take, length_macaddrText]
    constructor
    · rintro hle ⟨-, hshort⟩
      omega
    · intro hlong
      have hlen : ¬ c.buf.length ≤ 28 := fun h => hlong ⟨hmac, h⟩
      omega
  | issued priv hroute hself hout =>
    have hmac : ¬ AsksMacaddr W c := fun h => hself (.inr (.inr h.2.1))
    -- the only copy into the buffer is that of the command itself
    have hcopy : ∀ es : List DriverEvent, (∀ bytes, .osMemcpy bytes ∉ es) →
        ((∀ bytes, .osMemcpy bytes ∈
          ([.osMemcpy (c.cmd ++ [0]), .ioctl ((W.bss priv).ifname.take (ifrNameSize - 1)) c.buf.length] ++ es) →
            bytes.length ≤ c.buf.length) ↔ c.outcome W = none ∨ c.cmd.length < c.buf.length) := by
      intro es hes
      rw [hout]
      simp [hes]
    rw [privateCommand]
    dsimp only
    split
    · next hfail =>
      refine ⟨hcopy _ fun bytes => ?_, fun _ => iff_of_true ?_ fun h => hmac h.1⟩
      · rw [wpaDriverSendHangMsg]
        split
        · simp
        · simp
      · dsimp only
        omega
    · refine ⟨hcopy _ (osMemcpy_notMem_notify _ _), fun _ => iff_of_true ?_ fun h => hmac h.1⟩
      dsimp only
      split
      · exact Int.le_refl _
      · exact Int.natCast_nonneg _

theorem zero_notMem_macaddr : 0 ∉ chars "MACADDR" := by decide

/-- An address asked for with a buffer of `n` bytes. -/
def macaddrCall (n : ℕ) : DriverCall :=
  ⟨0, chars "MACADDR", zero_notMem_macaddr, List.replicate n 0, (0, fun _ => 0xAB), (0, [])⟩

/-- The 28 characters fit into 64 bytes, and not into 20. -/
theorem driver_cmd_buffer_macaddr :
    (wpaDriverNl80211DriverCmd oneInterface 1 0 (macaddrCall 64)).ret ≤
        (cstr (wpaDriverNl80211DriverCmd oneInterface 1 0 (macaddrCall 64)).buf).length ∧
      ¬ (wpaDriverNl80211DriverCmd oneInterface 1 0 (macaddrCall 20)).ret ≤
        (cstr (wpaDriverNl80211DriverCmd oneInterface 1 0 (macaddrCall 20)).buf).length := by
  have hasks : ∀ n, AsksMacaddr oneInterface (macaddrCall n) := fun n => ⟨rfl, rfl, rfl⟩
  constructor
  · exact ((driver_cmd_buffer oneInterface 1 0 (macaddrCall 64)).2 (Int.le_refl 0)).mpr
      fun h => absurd h.2 (by decide)
  · exact fun hle => ((driver_cmd_buffer oneInterface 1 0 (macaddrCall 20)).2 (Int.le_refl 0)).mp hle
      ⟨hasks 20, by decide⟩

end Seekwave
