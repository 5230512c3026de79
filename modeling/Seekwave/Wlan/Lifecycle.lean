import Seekwave.Lib.Execution
import Seekwave.Lib.Slots
import Seekwave.Lib.SocketPair
import Seekwave.Wlan.Command

/-!
# The life of the Wi-Fi HAL

`skw_wifi_initialize` builds a `hal_info`, `skw_wifi_event_loop` runs on it in a thread of the framework
until another one calls `skw_wifi_cleanup`, and then takes it apart. What it holds is a slot each, so that
`hal_released_once` says of every interleaving that nothing is released twice or left over, that the
handler is called once, before anything is released, and who may still touch `*hal` when it is freed: the
`write()` of `skw_wifi_cleanup` alone, and only if the loop has tested `hal->exit` since it was set
(`cleanup_write_races`). Once that byte string is written the loop comes to its end (`event_loop_ends`).
-/

namespace Seekwave

/-! ## Initialization -/

/-- What a `hal_info` holds, itself included. -/
inductive HalSlot
  | hal
  | exitSocks (e : SocketEnd)
  | nlHal
  | nlEvent
deriving DecidableEq, Repr

/-- Descriptors, and addresses of what libnl and `malloc` allocate. -/
abbrev HalSlotEvent := SlotEvent HalSlot ℕ

/-- The results of the calls that `skw_create_socket` makes; that of `nl_socket_set_buffer_size` is only
logged. -/
structure NlSocketResults where
  nlSocketAlloc : Option ℕ
  nlConnect : ℤ

/-- `skw_create_socket`, for the slot `k`. -/
def skwCreateSocket (k : HalSlot) (r : NlSocketResults) : Option ℕ × List HalSlotEvent :=
  match r.nlSocketAlloc with
  | none => (none, [])
  | some sock =>
    if r.nlConnect ≠ 0 then (none, [.acquired k sock, .released k sock])
    else (some sock, [.acquired k sock])

/-- The results of the calls that `skw_wifi_initialize` makes. -/
structure HalResults where
  malloc : Option ℕ
  socketpair : Option (ℕ × ℕ)
  halSocket : NlSocketResults
  familyNl80211 : ℤ
  eventSocket : NlSocketResults

/-- The fields of `hal_info` that are set for its whole life. -/
structure HalHandle where
  address : ℕ
  exitSocks : SocketEnd → ℕ
  nlHal : Option ℕ
  familyNl80211 : ℤ
  nlEvent : Option ℕ

/-- `skw_wifi_hal_init`: the command socket, if it succeeds. -/
def skwWifiHalInit (r : HalResults) : Option ℕ × List HalSlotEvent :=
  match skwCreateSocket .nlHal r.halSocket with
  | (none, events) => (none, events)
  | (some sock, events) =>
    if r.familyNl80211 < 0 then (none, events ++ [.released .nlHal sock]) else (some sock, events)

/-- `skw_wifi_event_init`: the event socket, if it succeeds. What comes of the groups it joins is not
looked at. -/
def skwWifiEventInit (r : HalResults) : Option ℕ × List HalSlotEvent :=
  skwCreateSocket .nlEvent r.eventSocket

/-- `if (sock) nl_socket_free(sock)`. -/
def nlSocketFree (k : HalSlot) (sock : Option ℕ) : List HalSlotEvent :=
  sock.elim [] fun sock => [.released k sock]

/-- `skw_wifi_initialize`: its result, the handle it stores, and what it acquires and releases. -/
def skwWifiInitialize (r : HalResults) : WifiError × Option HalHandle × List HalSlotEvent :=
  match r.malloc with
  | none => (.outOfMemory, none, [])
  | some address =>
    match r.socketpair with
    | none => (.unknown, none, [.acquired .hal address, .released .hal address])
    | some (fd₀, fd₁) =>
      let opened : List HalSlotEvent :=
        [.acquired .hal address, .acquired (.exitSocks 0) fd₀, .acquired (.exitSocks 1) fd₁]
      match skwWifiHalInit r with
      | (none, events) => (.unknown, none, opened ++ events ++ [.released .hal address])
      | (some nlHal, events) =>
        match skwWifiEventInit r with
        | (none, events') =>
          (.unknown, none,
            opened ++ events ++ events' ++ nlSocketFree .nlHal (some nlHal) ++ [.released .hal address])
        | (some nlEvent, events') =>
          (.success, some ⟨address, ![fd₀, fd₁], some nlHal, r.familyNl80211, some nlEvent⟩,
            opened ++ events ++ events')

/-! ## The event loop and the cleanup -/

/-- Where the thread of `skw_wifi_event_loop` stands, from `callingHandler` on in
`skw_wifi_deinitialize`. -/
inductive EventLoopPc
  | entered
  | polling
  | handling
  /-- at `while (!hal->exit)` -/
  | testing
  | callingHandler
  | freeingHal
  | freeingEvent
  | closing (e : SocketEnd)
  | freeing
  | returned
deriving DecidableEq, Repr

/-- Where the thread of `skw_wifi_cleanup` stands. -/
inductive CleanupPc
  | idle
  | handlerSet
  | exitSet
  | returned
deriving DecidableEq, Repr

/-- The fields of `hal_info` that the two threads share, and their places. -/
structure HalLink where
  exit : Bool
  cleanedUpHandler : Option ℕ
  exitPair : SocketPair
  loopPc : EventLoopPc
  cleanupPc : CleanupPc

/-- As `skw_wifi_initialize` leaves it. -/
def HalLink.init : HalLink := ⟨false, none, .empty, .entered, .idle⟩

/-- The scheduler's choices, with the results of the system calls. -/
inductive HalEvent
  | enter
  /-- `poll()` returns a positive value, `nl_event` readable or not -/
  | poll (event : Bool)
  | pollFailed
  | skwSocketHandler
  | test
  | callHandler
  | halDeinit
  | eventDeinit
  | close (e : SocketEnd)
  | free
  | cleanup (handler : Option ℕ)
  | setExit
  | writeInterrupted
  | writeFailed
  | write
deriving DecidableEq, Repr

/-- The `write()` of `skw_wifi_cleanup`, with its argument `hal->exit_socks[0]`. -/
def HalEvent.IsWrite (e : HalEvent) : Prop := e = .writeInterrupted ∨ e = .writeFailed ∨ e = .write

/-- A step that needs nothing to come in on `nl_event`, and no `poll()` that fails. -/
def HalEvent.Unaided (e : HalEvent) : Prop := e ≠ .poll true ∧ e ≠ .pollFailed

/-- What is seen of a run. -/
inductive HalObs
  /-- a step reads or writes `*hal` -/
  | access (e : HalEvent)
  | slot (e : HalSlotEvent)
  | cleanedUp (handler : ℕ)
deriving DecidableEq, Repr

/-- What `close` is called for: `if (hal->exit_socks[i])`. -/
def HalHandle.closeExit (hal : HalHandle) (e : SocketEnd) : List HalObs :=
  if hal.exitSocks e ≠ 0 then [.slot (.released (.exitSocks e) (hal.exitSocks e))] else []

/-- `"exit"` -/
def exitBytes : List UInt8 := [0x65, 0x78, 0x69, 0x74]

/-- One step of the event loop or of `skw_wifi_cleanup`. -/
inductive HalStep (hal : HalHandle) : HalLink → HalEvent → List HalObs → HalLink → Prop
  | enter {s : HalLink} (hpc : s.loopPc = .entered) :
      HalStep hal s .enter [.access .enter] { s with loopPc := .polling }
  | poll {s : HalLink} (event : Bool) (hpc : s.loopPc = .polling)
      (hready : event = true ∨ s.exitPair.readable 1 = true) :
      HalStep hal s (.poll event) [] { s with loopPc := if event then .handling else .testing }
  | pollFailed {s : HalLink} (hpc : s.loopPc = .polling) :
      HalStep hal s .pollFailed [] { s with loopPc := .testing }
  | skwSocketHandler {s : HalLink} (hpc : s.loopPc = .handling) :
      HalStep hal s .skwSocketHandler [.access .skwSocketHandler] { s with loopPc := .testing }
  | test {s : HalLink} (hpc : s.loopPc = .testing) :
      HalStep hal s .test [.access .test]
        { s with loopPc := if s.exit = true then .callingHandler else .polling }
  | callHandler {s : HalLink} (hpc : s.loopPc = .callingHandler) :
      HalStep hal s .callHandler
        (.access .callHandler :: (s.cleanedUpHandler.map HalObs.cleanedUp).toList)
        { s with loopPc := .freeingHal }
  | halDeinit {s : HalLink} (hpc : s.loopPc = .freeingHal) :
      HalStep hal s .halDeinit (.access .halDeinit :: (nlSocketFree .nlHal hal.nlHal).map .slot)
        { s with loopPc := .freeingEvent }
  | eventDeinit {s : HalLink} (hpc : s.loopPc = .freeingEvent) :
      HalStep hal s .eventDeinit (.access .eventDeinit :: (nlSocketFree .nlEvent hal.nlEvent).map .slot)
        { s with loopPc := .closing 0 }
  | close {s : HalLink} (e : SocketEnd) (hpc : s.loopPc = .closing e) :
      HalStep hal s (.close e) (.access (.close e) :: hal.closeExit e)
        { s with loopPc := if e = 0 then .closing 1 else .freeing }
  | free {s : HalLink} (hpc : s.loopPc = .freeing) :
      HalStep hal s .free [.slot (.released .hal hal.address)] { s with loopPc := .returned }
  | cleanup {s : HalLink} (handler : Option ℕ) (hpc : s.cleanupPc = .idle) :
      HalStep hal s (.cleanup handler) [.access (.cleanup handler)]
        { s with cleanedUpHandler := handler, cleanupPc := .handlerSet }
  | setExit {s : HalLink} (hpc : s.cleanupPc = .handlerSet) :
      HalStep hal s .setExit [.access .setExit] { s with exit := true, cleanupPc := .exitSet }
  | writeInterrupted {s : HalLink} (hpc : s.cleanupPc = .exitSet) :
      HalStep hal s .writeInterrupted [.access .writeInterrupted] s
  | writeFailed {s : HalLink} (hpc : s.cleanupPc = .exitSet) :
      HalStep hal s .writeFailed [.access .writeFailed] { s with cleanupPc := .returned }
  | write {s : HalLink} (hpc : s.cleanupPc = .exitSet) :
      HalStep hal s .write [.access .write]
        { s with exitPair := s.exitPair.write 0 exitBytes, cleanupPc := .returned }

/-- A run of the event loop and `skw_wifi_cleanup`, with what was seen of it. -/
abbrev HalRun (hal : HalHandle) (es : List HalEvent) (tr : List HalObs) (s : HalLink) : Prop :=
  Execution (HalStep hal) .init es tr s

/-! ## What is seen of a run -/

def HalObs.slot? : HalObs → Option HalSlotEvent
  | .slot e => some e
  | _ => none

def HalObs.handler? : HalObs → Option ℕ
  | .cleanedUp handler => some handler
  | _ => none

/-- What has been released. -/
def slotEvents (tr : List HalObs) : List HalSlotEvent := tr.filterMap HalObs.slot?

/-- The handlers that have been called. -/
def handlersCalled (tr : List HalObs) : List ℕ := tr.filterMap HalObs.handler?

theorem slotEvents_append (tr tr' : List HalObs) :
    slotEvents (tr ++ tr') = slotEvents tr ++ slotEvents tr' := List.filterMap_append

theorem handlersCalled_append (tr tr' : List HalObs) :
    handlersCalled (tr ++ tr') = handlersCalled tr ++ handlersCalled tr' := List.filterMap_append

theorem slotEvents_map (es : List HalSlotEvent) : slotEvents (es.map .slot) = es := by
  rw [slotEvents, List.filterMap_map]
  exact List.filterMap_some

theorem handlersCalled_map (es : List HalSlotEvent) : handlersCalled (es.map .slot) = [] := by
  rw [handlersCalled, List.filterMap_map]
  exact List.filterMap_eq_nil_iff.mpr fun _ _ => rfl

/-! ## The slots by the place of the event loop -/

/-- How far the event loop has come. -/
def EventLoopPc.stage : EventLoopPc → ℕ
  | .entered => 0
  | .polling => 1
  | .handling => 2
  | .testing => 3
  | .callingHandler => 4
  | .freeingHal => 5
  | .freeingEvent => 6
  | .closing e => 7 + e
  | .freeing => 9
  | .returned => 10

/-- The stage that releases a slot. -/
def HalSlot.stage : HalSlot → ℕ
  | .nlHal => 5
  | .nlEvent => 6
  | .exitSocks e => 7 + e
  | .hal => 9

theorem HalSlot.stage_injective : Function.Injective HalSlot.stage := by
  intro k k' h
  rcases k with - | e | - | - <;> rcases k' with - | e' | - | -
  case exitSocks.exitSocks =>
    have he : (e : ℕ) = e' := by simpa [HalSlot.stage] using h
    rw [Fin.ext he]
  case exitSocks.hal | hal.exitSocks | exitSocks.nlHal | nlHal.exitSocks | exitSocks.nlEvent
      | nlEvent.exitSocks =>
    simp only [HalSlot.stage] at h
    omega
  all_goals first | rfl | exact absurd h (by decide)

theorem HalSlot.stage_bounds (k : HalSlot) : 5 ≤ k.stage ∧ k.stage ≤ 9 := by
  cases k with
  | exitSocks e =>
    have := e.isLt
    show 5 ≤ 7 + (e : ℕ) ∧ 7 + (e : ℕ) ≤ 9
    omega
  | _ => decide

namespace HalHandle

variable (hal : HalHandle)

/-- What a slot holds while the HAL is up. -/
def held : HalSlot → Option ℕ
  | .hal => some hal.address
  | .exitSocks e => some (hal.exitSocks e)
  | .nlHal => hal.nlHal
  | .nlEvent => hal.nlEvent

/-- What a slot holds when the HAL has been taken apart: a descriptor 0 is never closed. -/
def leftOver : HalSlot → Option ℕ
  | .exitSocks e => if hal.exitSocks e = 0 then some 0 else none
  | _ => none

/-- What a slot holds with the event loop at `pc`. -/
def heldAt (pc : EventLoopPc) (k : HalSlot) : Option ℕ :=
  if k.stage < pc.stage then hal.leftOver k else hal.held k

theorem heldAt_of_lt {pc : EventLoopPc} {k : HalSlot} (h : pc.stage ≤ k.stage) :
    hal.heldAt pc k = hal.held k := if_neg (Nat.not_lt.mpr h)

theorem heldAt_returned (k : HalSlot) : hal.heldAt .returned k = hal.leftOver k :=
  if_pos (Nat.lt_succ_of_le k.stage_bounds.2)

end HalHandle

section Steps

variable {hal : HalHandle} {s t : HalLink} {e : HalEvent} {o tr : List HalObs}

/-- A stage that releases its slot leaves the others alone. -/
theorem heldAfter_release {pc pc' : EventLoopPc} {k' : HalSlot} {es : List HalSlotEvent}
    (hpc : pc.stage = k'.stage) (hpc' : pc'.stage = k'.stage + 1) (hslot : ∀ e ∈ es, e.slot = k')
    (hfree : heldAfter k' (hal.held k') es = some (hal.leftOver k')) (k : HalSlot) :
    heldAfter k (hal.heldAt pc k) es = some (hal.heldAt pc' k) := by
  by_cases hk : k = k'
  · subst hk
    rw [hal.heldAt_of_lt (Nat.le_of_eq hpc), hfree, HalHandle.heldAt, if_pos (by omega)]
  · have hstage : k.stage ≠ k'.stage := fun h => hk (HalSlot.stage_injective h)
    have hsame : hal.heldAt pc k = hal.heldAt pc' k := by
      rw [HalHandle.heldAt, HalHandle.heldAt, hpc, hpc']
      exact if_congr (by omega) rfl rfl
    rw [hsame]
    exact heldAfter_of_ne _ fun e he => (hslot e he).trans_ne (Ne.symm hk)

theorem heldAfter_nlSocketFree (k : HalSlot) (sock : Option ℕ) :
    heldAfter k sock (nlSocketFree k sock) = some none := by
  rcases sock with - | sock
  · rfl
  · simp [nlSocketFree, heldAfter_cons, SlotEvent.use]

theorem slot_of_mem_nlSocketFree {k : HalSlot} {sock : Option ℕ} {e : HalSlotEvent}
    (he : e ∈ nlSocketFree k sock) : e.slot = k := by
  rcases sock with - | sock
  · exact absurd he List.not_mem_nil
  · obtain rfl := List.mem_singleton.mp he
    rfl

/-- What `close` is called for, as slot events. -/
theorem closeExit_eq (hal : HalHandle) (e : SocketEnd) : ∃ es : List HalSlotEvent,
    hal.closeExit e = es.map .slot ∧ (∀ e' ∈ es, e'.slot = .exitSocks e) ∧
      heldAfter (.exitSocks e) (hal.held (.exitSocks e)) es = some (hal.leftOver (.exitSocks e)) := by
  by_cases hzero : hal.exitSocks e = 0
  · refine ⟨[], by rw [HalHandle.closeExit, if_neg (not_not.mpr hzero)]; rfl, by simp, ?_⟩
    rw [heldAfter_nil, HalHandle.held, HalHandle.leftOver, if_pos hzero, hzero]
  · refine ⟨[.released (.exitSocks e) (hal.exitSocks e)], by
      rw [HalHandle.closeExit, if_pos hzero]; rfl, by simp [SlotEvent.slot], ?_⟩
    rw [HalHandle.held, HalHandle.leftOver, if_neg hzero]
    simp [heldAfter_cons, SlotEvent.use]

theorem closing_next (e : SocketEnd) :
    (if e = 0 then EventLoopPc.closing 1 else .freeing).stage = (HalSlot.exitSocks e).stage + 1 := by
  revert e
  decide

/-! ## What a step does -/

/-- The kinds of steps: of `skw_wifi_cleanup`, of the loop on its way around, the call of the handler, and
those that release a slot. -/
inductive HalMove (hal : HalHandle) (s : HalLink) (e : HalEvent) (o : List HalObs) (t : HalLink) : Prop
  | cleanup (hobs : o = [.access e]) (hloop : t.loopPc = s.loopPc) (hexit : s.exit = true → t.exit = true)
      (hhandler : s.exit = true → t.cleanedUpHandler = s.cleanedUpHandler)
      (hwrite : e.IsWrite ∨ s.exit = false)
  | turn (p q : EventLoopPc) (hobs : o = [] ∨ o = [.access e]) (hs : s.loopPc = p) (ht : t.loopPc = q)
      (hp : p.stage ≤ 3) (hq : q.stage ≤ 3 ∨ q.stage = 4 ∧ e = .test ∧ s.exit = true)
      (hexit : t.exit = s.exit) (hhandler : t.cleanedUpHandler = s.cleanedUpHandler)
  | call (hobs : o = .access e :: (s.cleanedUpHandler.map HalObs.cleanedUp).toList)
      (hs : s.loopPc.stage = 4) (ht : t.loopPc.stage = 5) (hexit : t.exit = s.exit)
      (hhandler : t.cleanedUpHandler = s.cleanedUpHandler)
  | release (k : HalSlot) (es : List HalSlotEvent)
      (hobs : o = es.map .slot ∨ o = .access e :: es.map .slot)
      (hs : s.loopPc.stage = k.stage) (ht : t.loopPc.stage = k.stage + 1)
      (hslot : ∀ e ∈ es, e.slot = k)
      (hfree : heldAfter k (hal.held k) es = some (hal.leftOver k)) (hexit : t.exit = s.exit)
      (hhandler : t.cleanedUpHandler = s.cleanedUpHandler)

/-- `hal->exit` is set by `skw_wifi_cleanup` alone. -/
def ExitSet (s : HalLink) : Prop :=
  s.exit = true ↔ s.cleanupPc = .exitSet ∨ s.cleanupPc = .returned

theorem HalStep.exitSet (hstep : HalStep hal s e o t) (h : ExitSet s) : ExitSet t := by
  cases hstep with
  | setExit _ => exact iff_of_true rfl (.inl rfl)
  | cleanup _ hpc =>
    have hexit : ¬ s.exit = true := fun hexit => by simpa [hpc] using h.mp hexit
    exact iff_of_false hexit (by simp)
  | writeFailed hpc | write hpc => exact iff_of_true (h.mpr (.inl hpc)) (.inr rfl)
  | _ => exact h

theorem HalStep.move (hstep : HalStep hal s e o t) (h : ExitSet s) : HalMove hal s e o t := by
  cases hstep with
  | enter hpc => exact .turn _ .polling (.inr rfl) hpc rfl (by decide) (.inl (by decide)) rfl rfl
  | poll event hpc _ =>
    cases event with
    | true => exact .turn _ .handling (.inl rfl) hpc rfl (by decide) (.inl (by decide)) rfl rfl
    | false => exact .turn _ .testing (.inl rfl) hpc rfl (by decide) (.inl (by decide)) rfl rfl
  | pollFailed hpc => exact .turn _ .testing (.inl rfl) hpc rfl (by decide) (.inl (by decide)) rfl rfl
  | skwSocketHandler hpc => exact .turn _ .testing (.inr rfl) hpc rfl (by decide) (.inl (by decide)) rfl rfl
  | test hpc =>
    by_cases hexit : s.exit = true
    · exact .turn _ .callingHandler (.inr rfl) hpc (if_pos hexit) (by decide) (.inr ⟨rfl, rfl, hexit⟩) rfl rfl
    · exact .turn _ .polling (.inr rfl) hpc (if_neg hexit) (by decide) (.inl (by decide)) rfl rfl
  | callHandler hpc => exact .call rfl (by rw [hpc]; rfl) rfl rfl rfl
  | halDeinit hpc =>
    exact .release .nlHal _ (.inr rfl) (by rw [hpc]; rfl) rfl (fun _ => slot_of_mem_nlSocketFree)
      (heldAfter_nlSocketFree _ _) rfl rfl
  | eventDeinit hpc =>
    exact .release .nlEvent _ (.inr rfl) (by rw [hpc]; rfl) rfl (fun _ => slot_of_mem_nlSocketFree)
      (heldAfter_nlSocketFree _ _) rfl rfl
  | close e hpc =>
    obtain ⟨es, hobs, hslot, hfree⟩ := closeExit_eq hal e
    refine .release (.exitSocks e) es (.inr (by rw [hobs])) (by rw [hpc]; rfl) ?_ hslot hfree rfl rfl
    exact closing_next e
  | free hpc =>
    refine .release .hal [.released .hal hal.address] (.inl rfl) (by rw [hpc]; rfl) rfl (by simp [SlotEvent.slot]) ?_ rfl rfl
    simp [heldAfter_cons, SlotEvent.use, HalHandle.held, HalHandle.leftOver]
  | cleanup handler hpc =>
    have hexit : ¬ s.exit = true := fun hexit => by simpa [hpc] using h.mp hexit
    exact .cleanup rfl rfl id (fun hset => absurd hset hexit) (.inr (Bool.eq_false_iff.mpr hexit))
  | setExit hpc =>
    have hexit : ¬ s.exit = true := fun hexit => by simpa [hpc] using h.mp hexit
    exact .cleanup rfl rfl (fun _ => rfl) (fun _ => rfl) (.inr (Bool.eq_false_iff.mpr hexit))
  | writeInterrupted hpc => exact .cleanup rfl rfl id (fun _ => rfl) (.inl (.inl rfl))
  | writeFailed hpc => exact .cleanup rfl rfl id (fun _ => rfl) (.inl (.inr (.inl rfl)))
  | write hpc => exact .cleanup rfl rfl id (fun _ => rfl) (.inl (.inr (.inr rfl)))

end Steps

/-! ## Whole runs -/

/-- What may be seen after `a`: the handler is called while everything is there, and `*hal` is not touched
any more once it is freed, save by the `write()` of `skw_wifi_cleanup`. -/
structure MayFollow (a b : HalObs) : Prop where
  handler : ∀ handler e, b = .cleanedUp handler → a ≠ .slot e
  freed : ∀ d e, a = .slot (.released .hal d) → b = .access e → e.IsWrite

theorem mayFollow_slot (a : HalObs) (e : HalSlotEvent) : MayFollow a (.slot e) where
  handler _ _ h := by cases h
  freed _ _ _ h := by cases h

/-- What holds of the trace of a run, by the place where the event loop stands. -/
structure HalInv (hal : HalHandle) (tr : List HalObs) (s : HalLink) : Prop where
  exitSet : ExitSet s
  slots : ∀ k, heldAfter k (hal.held k) (slotEvents tr) = some (hal.heldAt s.loopPc k)
  whole : s.loopPc.stage ≤ 5 → slotEvents tr = []
  loop : 4 ≤ s.loopPc.stage → s.exit = true
  handlers : handlersCalled tr = if 5 ≤ s.loopPc.stage then s.cleanedUpHandler.toList else []
  freed : s.loopPc.stage ≤ 9 → ∀ d, .slot (.released .hal d) ∉ tr
  ordered : tr.Pairwise MayFollow

theorem halInv_init (hal : HalHandle) : HalInv hal [] .init where
  exitSet := iff_of_false Bool.false_ne_true (by simp [HalLink.init])
  slots k := by
    rw [hal.heldAt_of_lt (Nat.zero_le _)]
    rfl
  whole _ := rfl
  loop h := absurd h (by decide)
  handlers := rfl
  freed _ _ := List.not_mem_nil
  ordered := .nil

namespace HalInv

variable {hal : HalHandle} {s t : HalLink} {e : HalEvent} {o tr : List HalObs}

/-- A slot that an event of the trace is about. -/
theorem mem_slotEvents {e : HalSlotEvent} (he : .slot e ∈ tr) : e ∈ slotEvents tr :=
  List.mem_filterMap.mpr ⟨_, he, rfl⟩

/-- While nothing is released the trace holds no slot events. -/
theorem not_slot (h : HalInv hal tr s) (hs : s.loopPc.stage ≤ 5) (e : HalSlotEvent) : .slot e ∉ tr :=
  fun he => by simpa [h.whole hs] using mem_slotEvents he

/-- An access, by the `write()` or before `*hal` is freed. -/
theorem access (h : HalInv hal tr s) (hobs : o = [] ∨ o = [HalObs.access e])
    (he : e.IsWrite ∨ s.loopPc.stage ≤ 9) : (tr ++ o).Pairwise MayFollow := by
  rcases hobs with rfl | rfl
  · rw [List.append_nil]
    exact h.ordered
  · refine List.pairwise_append.mpr ⟨h.ordered, List.pairwise_singleton _ _, fun a ha b hb => ?_⟩
    obtain rfl := List.mem_singleton.mp hb
    refine ⟨by simp, fun d e' hfree heq => ?_⟩
    obtain rfl : e = e' := by simpa using heq
    subst hfree
    exact he.resolve_right fun hs => h.freed hs d ha

/-- A step that neither releases anything nor calls the handler. -/
theorem quiet (h : HalInv hal tr s) (hset : ExitSet t) (hobs : o = [] ∨ o = [HalObs.access e])
    (he : e.IsWrite ∨ s.loopPc.stage ≤ 9) (hpc : t.loopPc = s.loopPc ∨
      s.loopPc.stage ≤ 4 ∧ t.loopPc.stage ≤ 4) (hloop : 4 ≤ t.loopPc.stage → t.exit = true)
    (hhandler : 5 ≤ s.loopPc.stage → t.cleanedUpHandler = s.cleanedUpHandler) :
    HalInv hal (tr ++ o) t := by
  have hslot : slotEvents o = [] ∧ handlersCalled o = [] := by rcases hobs with rfl | rfl <;> exact ⟨rfl, rfl⟩
  refine ⟨hset, fun k => ?_, fun ht => ?_, hloop, ?_, fun ht d => ?_, h.access hobs he⟩
  · rw [slotEvents_append, hslot.1, List.append_nil, h.slots]
    rcases hpc with hpc | ⟨hs, ht⟩
    · rw [hpc]
    · have hk := k.stage_bounds.1
      rw [hal.heldAt_of_lt (by omega), hal.heldAt_of_lt (by omega)]
  · rw [slotEvents_append, hslot.1, h.whole]
    · rfl
    · rcases hpc with hpc | ⟨hs, -⟩
      · rwa [← hpc]
      · omega
  · rw [handlersCalled_append, hslot.2, List.append_nil, h.handlers]
    rcases hpc with hpc | ⟨hs, ht⟩
    · rw [hpc]
      split
      · next hcalled => rw [hhandler hcalled]
      · rfl
    · rw [if_neg (by omega), if_neg (by omega)]
  · have hfreed : .slot (.released .hal d) ∉ tr := by
      refine h.freed ?_ d
      rcases hpc with hpc | ⟨hs, -⟩
      · rwa [← hpc]
      · omega
    rcases hobs with rfl | rfl
    · simpa using hfreed
    · simpa using hfreed

/-- The handler is called. -/
theorem call (h : HalInv hal tr s) (hset : ExitSet t)
    (hobs : o = .access e :: (s.cleanedUpHandler.map HalObs.cleanedUp).toList)
    (hs : s.loopPc.stage = 4) (ht : t.loopPc.stage = 5) (hexit : t.exit = s.exit)
    (hhandler : t.cleanedUpHandler = s.cleanedUpHandler) : HalInv hal (tr ++ o) t := by
  have hslots : slotEvents o = [] := by
    rw [hobs]
    cases s.cleanedUpHandler <;> rfl
  have hcalled : handlersCalled o = s.cleanedUpHandler.toList := by
    rw [hobs]
    cases s.cleanedUpHandler <;> rfl
  have hnone : ∀ a ∈ tr, ∀ e, a ≠ .slot e := fun a ha e heq => h.not_slot (by omega) e (heq ▸ ha)
  refine ⟨hset, fun k => ?_, fun _ => ?_, fun _ => ?_, ?_, fun _ d hd => ?_, ?_⟩
  · have hk := k.stage_bounds.1
    rw [slotEvents_append, hslots, List.append_nil, h.slots, hal.heldAt_of_lt (by omega),
      hal.heldAt_of_lt (by omega)]
  · rw [slotEvents_append, hslots, h.whole (by omega)]
    rfl
  · rw [hexit]
    exact h.loop (by omega)
  · rw [handlersCalled_append, hcalled, h.handlers, if_neg (by omega), if_pos (by omega), hhandler]
    rfl
  · rcases List.mem_append.mp hd with hd | hd
    · exact h.not_slot (by omega) _ hd
    · simpa [hslots] using mem_slotEvents hd
  · refine List.pairwise_append.mpr ⟨h.ordered, ?_, fun a ha b _ => ?_⟩
    · rw [hobs]
      cases s.cleanedUpHandler with
      | none => exact List.pairwise_singleton _ _
      | some handler => exact List.pairwise_pair.mpr ⟨by simp, by simp⟩
    · exact ⟨fun _ e _ => hnone a ha e, fun d _ heq _ => absurd heq (hnone a ha _)⟩

/-- A slot is released. -/
theorem release (h : HalInv hal tr s) (hset : ExitSet t) {k : HalSlot} {es : List HalSlotEvent}
    (hobs : o = es.map .slot ∨ o = .access e :: es.map .slot)
    (hs : s.loopPc.stage = k.stage) (ht : t.loopPc.stage = k.stage + 1) (hslot : ∀ e ∈ es, e.slot = k)
    (hfree : heldAfter k (hal.held k) es = some (hal.leftOver k)) (hexit : t.exit = s.exit)
    (hhandler : t.cleanedUpHandler = s.cleanedUpHandler) : HalInv hal (tr ++ o) t := by
  have hk := k.stage_bounds
  -- but for a read of the handle, the step shows the events of the slot only
  have hslots : slotEvents o = es := by
    rcases hobs with rfl | rfl
    · exact slotEvents_map es
    · exact slotEvents_map es
  have hcalled : handlersCalled o = [] := by
    rcases hobs with rfl | rfl
    · exact handlersCalled_map es
    · exact handlersCalled_map es
  refine ⟨hset, fun k' => ?_, fun hlt => absurd hlt (by omega), fun _ => ?_, ?_, fun hlt d hd => ?_, ?_⟩
  · rw [slotEvents_append, hslots]
    exact heldAfter_trans (h.slots k') (heldAfter_release hs ht hslot hfree k')
  · rw [hexit]
    exact h.loop (by omega)
  · rw [handlersCalled_append, hcalled, List.append_nil, h.handlers, if_pos (by omega), if_pos (by omega),
      hhandler]
  · rcases List.mem_append.mp hd with hd | hd
    · exact h.freed (by omega) d hd
    · have hmem := mem_slotEvents hd
      rw [hslots] at hmem
      obtain rfl : HalSlot.hal = k := hslot _ hmem
      exact absurd hlt (by rw [ht]; decide)
  · -- a release may follow whatever comes before it
    have hes : (es.map HalObs.slot).Pairwise MayFollow :=
      List.pairwise_map.mpr (List.pairwise_of_forall fun _ _ => mayFollow_slot _ _)
    have hslotObs : ∀ a, ∀ b ∈ es.map HalObs.slot, MayFollow a b := by
      intro a b hb
      obtain ⟨e, -, rfl⟩ := List.mem_map.mp hb
      exact mayFollow_slot a e
    rcases hobs with rfl | rfl
    · exact List.pairwise_append.mpr ⟨h.ordered, hes, fun a _ => hslotObs a⟩
    · rw [← List.singleton_append, ← List.append_assoc]
      exact List.pairwise_append.mpr ⟨h.access (.inr rfl) (.inr (by omega)), hes, fun a _ => hslotObs a⟩

theorem step (h : HalInv hal tr s) (hstep : HalStep hal s e o t) : HalInv hal (tr ++ o) t := by
  have hset := hstep.exitSet h.exitSet
  cases hstep.move h.exitSet with
  | cleanup hobs hloop hexit hhandler hwrite =>
    have hstage : e.IsWrite ∨ s.loopPc.stage ≤ 9 := by
      refine hwrite.imp_right fun hfalse => ?_
      by_contra hlt
      exact absurd ((h.loop (by omega)).symm.trans hfalse) (by decide)
    exact h.quiet hset (.inr hobs) hstage (.inl hloop) (fun hle => hexit (h.loop (hloop ▸ hle)))
      fun hle => hhandler (h.loop (by omega))
  | turn p q hobs hs ht hp hq hexit hhandler =>
    rw [← hs] at hp
    rw [← ht] at hq
    refine h.quiet hset hobs (.inr (by omega)) (.inr ⟨by omega, by omega⟩) (fun hle => ?_) fun _ => hhandler
    rw [hexit]
    exact (hq.resolve_left (by omega)).2.2
  | call hobs hs ht hexit hhandler => exact h.call hset hobs hs ht hexit hhandler
  | release k es hobs hs ht hslot hfree hexit hhandler =>
    exact h.release hset hobs hs ht hslot hfree hexit hhandler

end HalInv

/-- **Run lemma.** -/
theorem halInv_of_run {hal : HalHandle} {es : List HalEvent} {tr : List HalObs} {s : HalLink}
    (run : HalRun hal es tr s) : HalInv hal tr s :=
  run.invariant (I := fun _ tr s => HalInv hal tr s) (halInv_init hal)
    fun _ _ _ _ _ _ _ h hstep => h.step hstep

/-! ## From `skw_wifi_initialize` to the end -/

/-- What an attempt of `skw_wifi_initialize` that fails does not give back: the pair of sockets. -/
def HalResults.lost (r : HalResults) : HalSlot → Option ℕ
  | .exitSocks e => r.malloc.bind fun _ => r.socketpair.map fun fds => ![fds.1, fds.2] e
  | _ => none

/-- `skw_create_socket` gives back what it does not return. -/
theorem heldAfter_skwCreateSocket (k : HalSlot) (r : NlSocketResults) :
    heldAfter k none (skwCreateSocket k r).2 = some (skwCreateSocket k r).1 := by
  rw [skwCreateSocket]
  split
  · rfl
  · split
    · simp [heldAfter_cons, SlotEvent.use]
    · simp [heldAfter_cons, SlotEvent.use]

theorem slot_of_mem_skwCreateSocket {k : HalSlot} {r : NlSocketResults} {e : HalSlotEvent}
    (he : e ∈ (skwCreateSocket k r).2) : e.slot = k := by
  rw [skwCreateSocket] at he
  split at he
  · exact absurd he List.not_mem_nil
  · split at he
    · rcases List.mem_pair.mp he with rfl | rfl <;> rfl
    · obtain rfl := List.mem_singleton.mp he
      rfl

theorem heldAfter_skwWifiHalInit (r : HalResults) :
    heldAfter .nlHal none (skwWifiHalInit r).2 = some (skwWifiHalInit r).1 := by
  have hcreate := heldAfter_skwCreateSocket .nlHal r.halSocket
  rw [skwWifiHalInit]
  split
  · next heq => rwa [heq] at hcreate
  · next sock events heq =>
    rw [heq] at hcreate
    split
    · refine heldAfter_trans hcreate ?_
      simp [heldAfter_cons, SlotEvent.use]
    · exact hcreate

theorem slot_of_mem_skwWifiHalInit {r : HalResults} {e : HalSlotEvent} (he : e ∈ (skwWifiHalInit r).2) :
    e.slot = .nlHal := by
  have hcreate : ∀ e ∈ (skwCreateSocket .nlHal r.halSocket).2, e.slot = .nlHal :=
    fun _ => slot_of_mem_skwCreateSocket
  rw [skwWifiHalInit] at he
  split at he
  · next heq => exact hcreate e (by rwa [heq])
  · next heq =>
    rw [heq] at hcreate
    split at he
    · rcases List.mem_append.mp he with he | he
      · exact hcreate e he
      · obtain rfl := List.mem_singleton.mp he
        rfl
    · exact hcreate e he

/-- What is done with the slots of the first calls. -/
theorem heldAfter_opened (address : ℕ) (fds : SocketEnd → ℕ) (k : HalSlot) :
    heldAfter k none ([.acquired .hal address, .acquired (.exitSocks 0) (fds 0),
      .acquired (.exitSocks 1) (fds 1)] : List HalSlotEvent) =
      some (match k with
        | .hal => some address
        | .exitSocks e => some (fds e)
        | _ => none) := by
  rcases k with - | e | - | -
  · simp [heldAfter_cons, SlotEvent.use]
  · revert e
    refine Fin.forall_fin_two.mpr ⟨?_, ?_⟩
    · simp [heldAfter_cons, SlotEvent.use]
    · simp [heldAfter_cons, SlotEvent.use]
  · simp [heldAfter_cons, SlotEvent.use]
  · simp [heldAfter_cons, SlotEvent.use]

/-- **What `skw_wifi_initialize` leaves acquired**: all that the handle holds, or else nothing but the pair
of sockets. -/
theorem heldAfter_skwWifiInitialize (r : HalResults) (k : HalSlot) :
    heldAfter k none (skwWifiInitialize r).2.2 =
      some ((skwWifiInitialize r).2.1.elim (r.lost k) fun hal => hal.held k) := by
  rcases hmalloc : r.malloc with - | address
  · simp only [skwWifiInitialize, hmalloc, HalResults.lost]
    cases k <;> rfl
  rcases hpair : r.socketpair with - | ⟨fd₀, fd₁⟩
  · simp only [skwWifiInitialize, hmalloc, hpair, HalResults.lost]
    cases k <;> simp [heldAfter_cons, SlotEvent.use]
  have hhal := heldAfter_skwWifiHalInit r
  have hhal' : ∀ k held, k ≠ .nlHal → heldAfter k held (skwWifiHalInit r).2 = some held :=
    fun k held hk => heldAfter_of_ne held fun e he => (slot_of_mem_skwWifiHalInit he).trans_ne hk.symm
  have hevent : heldAfter .nlEvent none (skwWifiEventInit r).2 = some (skwWifiEventInit r).1 :=
    heldAfter_skwCreateSocket .nlEvent r.eventSocket
  have hevent' : ∀ k held, k ≠ .nlEvent → heldAfter k held (skwWifiEventInit r).2 = some held :=
    fun k held hk => heldAfter_of_ne held fun e he => (slot_of_mem_skwCreateSocket he).trans_ne hk.symm
  have hopen := heldAfter_opened address ![fd₀, fd₁] k
  simp only [Matrix.cons_val_zero, Matrix.cons_val_one] at hopen
  simp only [skwWifiInitialize, hmalloc, hpair, HalResults.lost]
  -- behind a socket that does not come up the handle is freed, and the pair left open
  split
  · next heq =>
    rw [heq] at hhal hhal'
    rw [heldAfter_append, heldAfter_append, hopen]
    cases k <;> simp [hhal, hhal', heldAfter_cons, SlotEvent.use]
  · next heq =>
    rw [heq] at hhal hhal'
    split
    · next heq' =>
      rw [heq'] at hevent hevent'
      rw [heldAfter_append, heldAfter_append, heldAfter_append, heldAfter_append, hopen]
      cases k <;> simp [hhal, hhal', hevent, hevent', heldAfter_cons, SlotEvent.use, nlSocketFree]
    · next heq' =>
      rw [heq'] at hevent hevent'
      rw [heldAfter_append, heldAfter_append, hopen]
      cases k <;> simp [hhal, hhal', hevent, hevent', HalHandle.held]

/-- One life of the HAL: an attempt of `skw_wifi_initialize` and, if it succeeds, a run on its handle to the
end of `skw_wifi_event_loop`. -/
structure HalLife where
  results : HalResults
  events : List HalEvent
  trace : List HalObs
  final : HalLink
  ran : ∀ hal, (skwWifiInitialize results).2.1 = some hal →
    HalRun hal events trace final ∧ final.loopPc = .returned
  failed : (skwWifiInitialize results).2.1 = none → trace = []

namespace HalLife

variable (life : HalLife)

/-- What is acquired and released in a life. -/
def slots : List HalSlotEvent := (skwWifiInitialize life.results).2.2 ++ slotEvents life.trace

/-- What a life does not give back. -/
def leftOver (k : HalSlot) : Option ℕ :=
  (skwWifiInitialize life.results).2.1.elim (life.results.lost k) fun hal => hal.leftOver k

theorem heldAfter_slots (k : HalSlot) : heldAfter k none life.slots = some (life.leftOver k) := by
  have hinit := heldAfter_skwWifiInitialize life.results k
  rw [slots, leftOver]
  rcases hhal : (skwWifiInitialize life.results).2.1 with - | hal
  · rw [life.failed hhal]
    rw [hhal] at hinit
    exact heldAfter_trans hinit rfl
  · obtain ⟨run, hret⟩ := life.ran hal hhal
    have hslots := (halInv_of_run run).slots k
    rw [hret, hal.heldAt_returned] at hslots
    rw [hhal] at hinit
    exact heldAfter_trans hinit hslots

end HalLife

/-- **What is left over of the HAL.** Over any lives one after the other, each with any results of its
system calls and any interleaving of `skw_wifi_event_loop` and `skw_wifi_cleanup`: nothing is released
twice, and what a life does not give back is the pair of exit sockets, if `skw_wifi_initialize` made it and
then failed, and otherwise those exit sockets whose descriptor is 0. -/
theorem hal_lives_left_over (lives : List HalLife) :
    ReleasedOnce (indexed 0 (lives.map HalLife.slots)) ∧
      ∀ (i : Fin lives.length) (k : HalSlot),
        heldAfter ((i : ℕ), k) none (indexed 0 (lives.map HalLife.slots)) =
          some ((lives.get i).leftOver k) := by
  have hheld : ∀ (i : ℕ) (k : HalSlot),
      heldAfter (i, k) none (indexed 0 (lives.map HalLife.slots)) =
        some (lives[i]?.elim none fun life => life.leftOver k) := by
    intro i k
    have hindexed := heldAfter_indexed 0 i k (lives.map HalLife.slots)
    rw [Nat.zero_add] at hindexed
    rw [hindexed, List.getElem?_map]
    rcases lives[i]? with - | life
    · rfl
    · exact life.heldAfter_slots k
  refine ⟨releasedOnce_of_heldAfter fun k => ⟨_, hheld k.1 k.2⟩, fun i k => ?_⟩
  rw [hheld, List.getElem?_eq_getElem i.isLt]
  rfl

/-- An attempt that does not find `nl80211`. -/
def failedResults : HalResults := ⟨some 0x1000, some (5, 6), ⟨some 0x2000, 0⟩, -2, ⟨some 0x3000, 0⟩⟩

theorem failedResults_fails : (skwWifiInitialize failedResults).2.1 = none := rfl

def failedLife : HalLife where
  results := failedResults
  events := []
  trace := []
  final := .init
  ran hal h := (Option.some_ne_none hal (h.symm.trans failedResults_fails)).elim
  failed _ := rfl

example : failedLife.leftOver (.exitSocks 1) = some 6 ∧ failedLife.leftOver .nlHal = none := ⟨rfl, rfl⟩

/-! ## The two threads -/

section Runs

variable {hal : HalHandle} {es : List HalEvent} {tr : List HalObs} {s t : HalLink} {e : HalEvent}
  {o : List HalObs}

/-- **The HAL is taken apart once.** In every interleaving of `skw_wifi_event_loop` with
`skw_wifi_cleanup`: each slot holds what the place of the loop says; the handler is called once by the time
the loop returns, and never where something has been released; and once `*hal` is freed nobody touches it
but the `write()` of `skw_wifi_cleanup`. -/
theorem hal_released_once (run : HalRun hal es tr s) :
    (∀ k, heldAfter k (hal.held k) (slotEvents tr) = some (hal.heldAt s.loopPc k)) ∧
      (handlersCalled tr = if 5 ≤ s.loopPc.stage then s.cleanedUpHandler.toList else []) ∧
      (4 ≤ s.loopPc.stage → s.cleanupPc = .exitSet ∨ s.cleanupPc = .returned) ∧
      tr.Pairwise MayFollow := by
  have hinv := halInv_of_run run
  exact ⟨hinv.slots, hinv.handlers, fun hle => hinv.exitSet.mp (hinv.loop hle), hinv.ordered⟩

/-- Without a test of `hal->exit` the loop goes around at most. -/
theorem stage_of_no_test {is : List HalEvent} (run : Execution (HalStep hal) s is tr t)
    (htest : .test ∉ is) (hset : ExitSet s) (hs : s.loopPc.stage ≤ 3) : ExitSet t ∧ t.loopPc.stage ≤ 3 := by
  refine run.invariant (I := fun is _ t => .test ∉ is → ExitSet t ∧ t.loopPc.stage ≤ 3)
    (fun _ => ⟨hset, hs⟩) ?_ htest
  intro is _ u e o v _ ih hstep hnot
  obtain ⟨hu, hle⟩ := ih fun hmem => hnot (List.mem_append_left _ hmem)
  have he : e ≠ .test := by
    rintro rfl
    exact hnot (List.mem_append_right _ (List.mem_singleton_self _))
  refine ⟨hstep.exitSet hu, ?_⟩
  cases hstep.move hu with
  | cleanup _ hloop _ _ _ => rwa [hloop]
  | turn p q _ _ ht _ hq _ _ =>
    rw [ht]
    exact hq.resolve_right fun h => he h.2.1
  | call _ hs _ _ _ => omega
  | release k _ _ hs _ _ _ _ _ =>
    have := k.stage_bounds.1
    omega

/-- **The race at the end.** If the loop does not test `hal->exit` between the store of
`skw_wifi_cleanup` and its `write()`, nothing has been released when it writes; but where it does, there is
a run in which `hal->exit_socks[0]` is read of a freed `hal`. -/
theorem cleanup_write_races (hal : HalHandle) :
    (∀ is js tr s, HalRun hal (is ++ .setExit :: js) tr s → .test ∉ js → slotEvents tr = []) ∧
      ∃ es tr s as bs, HalRun hal es tr s ∧ tr = as ++ .slot (.released .hal hal.address) :: bs ∧
        .access .write ∈ bs := by
  constructor
  · intro is js tr s run htest
    rw [← List.singleton_append, ← List.append_assoc] at run
    obtain ⟨u, tr₁, tr₂, run₁, run₂, -⟩ := run.split
    obtain ⟨v, tr₀, o, run₀, hset, -⟩ := run₁.last
    have hv := halInv_of_run run₀
    have hu := halInv_of_run run₁
    have hle : u.loopPc.stage ≤ 3 := by
      cases hset with
      | setExit hpc =>
        -- `hal->exit` was not set before, so that the loop has not left
        show v.loopPc.stage ≤ 3
        by_contra hlt
        have hexit := hv.exitSet.mp (hv.loop (by omega))
        simp [hpc] at hexit
    have hstage := (stage_of_no_test run₂ htest hu.exitSet hle).2
    exact (halInv_of_run run).whole (by omega)
  · have h₁ := (@Execution.start _ _ _ (HalStep hal) .init).snoc (.enter rfl)
    have h₂ := h₁.snoc (.poll true rfl (.inl rfl))
    have h₃ := h₂.snoc (.skwSocketHandler rfl)
    have h₄ := h₃.snoc (.cleanup none rfl)
    have h₅ := h₄.snoc (.setExit rfl)
    have h₆ := h₅.snoc (.test rfl)
    have h₇ := h₆.snoc (.callHandler rfl)
    have h₈ := h₇.snoc (.halDeinit rfl)
    have h₉ := h₈.snoc (.eventDeinit rfl)
    have h₁₀ := h₉.snoc (.close 0 rfl)
    have h₁₁ := h₁₀.snoc (.close 1 rfl)
    have h₁₂ := h₁₁.snoc (.free rfl)
    have h₁₃ := h₁₂.snoc (.write rfl)
    exact ⟨_, _, _, _, [.access .write], h₁₃, List.append_assoc .., List.mem_singleton_self _⟩

/-- `skw_wifi_cleanup` has written its bytes. -/
structure Woken (s : HalLink) : Prop where
  exit : s.exit = true
  cleanup : s.cleanupPc = .returned
  readable : s.exitPair.readable 1 = true

theorem Woken.step (h : Woken s) (hstep : HalStep hal s e o t) : Woken t := by
  cases hstep with
  | cleanup _ hpc | setExit hpc | writeInterrupted hpc | writeFailed hpc | write hpc =>
    exact absurd (hpc.symm.trans h.cleanup) (by decide)
  | _ => exact ⟨h.exit, h.cleanup, h.readable⟩

theorem woken_of_write (hset : ExitSet s) (hstep : HalStep hal s .write o t) : Woken t := by
  cases hstep with
  | write hpc =>
    exact ⟨hset.mpr (.inl hpc), rfl, SocketPair.readable_write_peer s.exitPair 0 exitBytes (by decide)⟩

/-- **Run lemma.** -/
theorem woken_of_run (run : HalRun hal es tr s) (hwrite : .write ∈ es) : Woken s := by
  refine run.invariant (I := fun es tr s => HalInv hal tr s ∧ (.write ∈ es → Woken s))
    ⟨halInv_init hal, fun h => absurd h List.not_mem_nil⟩ ?_ |>.2 hwrite
  intro is os u e o v _ ⟨hinv, ih⟩ hstep
  refine ⟨hinv.step hstep, fun hmem => ?_⟩
  rcases List.mem_append.mp hmem with hmem | hmem
  · exact (ih hmem).step hstep
  · obtain rfl := List.mem_singleton.mp hmem
    exact woken_of_write hinv.exitSet hstep

/-- Once woken, every step takes the loop on. -/
theorem Woken.stage_lt (h : Woken s) (hstep : HalStep hal s e o t) : s.loopPc.stage < t.loopPc.stage := by
  cases hstep with
  | cleanup _ hpc | setExit hpc | writeInterrupted hpc | writeFailed hpc | write hpc =>
    exact absurd (hpc.symm.trans h.cleanup) (by decide)
  | poll event hpc _ =>
    rw [hpc]
    cases event with
    | true => exact (by decide : EventLoopPc.polling.stage < EventLoopPc.handling.stage)
    | false => exact (by decide : EventLoopPc.polling.stage < EventLoopPc.testing.stage)
  | test hpc =>
    rw [hpc, if_pos h.exit]
    exact (by decide : EventLoopPc.testing.stage < EventLoopPc.callingHandler.stage)
  | close e hpc =>
    rw [hpc]
    exact (Nat.lt_succ_self _).trans_eq (closing_next e).symm
  | _ hpc =>
    rw [hpc]
    simp [EventLoopPc.stage]

/-- Once woken the loop can always go on by itself: its `poll()` returns for the bytes that have been
written. -/
theorem Woken.progress (h : Woken s) (hret : s.loopPc ≠ .returned) :
    ∃ e o t, HalStep hal s e o t ∧ e.Unaided := by
  cases hpc : s.loopPc with
  | entered => exact ⟨_, _, _, .enter hpc, nofun, nofun⟩
  | polling => exact ⟨_, _, _, .poll false hpc (.inr h.readable), nofun, nofun⟩
  | handling => exact ⟨_, _, _, .skwSocketHandler hpc, nofun, nofun⟩
  | testing => exact ⟨_, _, _, .test hpc, nofun, nofun⟩
  | callingHandler => exact ⟨_, _, _, .callHandler hpc, nofun, nofun⟩
  | freeingHal => exact ⟨_, _, _, .halDeinit hpc, nofun, nofun⟩
  | freeingEvent => exact ⟨_, _, _, .eventDeinit hpc, nofun, nofun⟩
  | closing e => exact ⟨_, _, _, .close e hpc, nofun, nofun⟩
  | freeing => exact ⟨_, _, _, .free hpc, nofun, nofun⟩
  | returned => exact absurd hpc hret

theorem EventLoopPc.stage_le (pc : EventLoopPc) : pc.stage ≤ 10 := by
  cases pc with
  | closing e =>
    have := e.isLt
    show 7 + (e : ℕ) ≤ 10
    omega
  | _ => decide

/-- **The event loop ends.** Once `skw_wifi_cleanup` has written its bytes, from wherever the loop stands:
the loop is never kept waiting, even if nothing comes in on `nl_event` any more and no `poll()` fails, and
whatever does come in it returns within ten steps, each of them its own. -/
theorem event_loop_ends (run : HalRun hal es tr s) (hwrite : .write ∈ es) :
    (s.loopPc ≠ .returned → ∃ e o t, HalStep hal s e o t ∧ e.Unaided) ∧
      ∀ es' tr' t, Execution (HalStep hal) s es' tr' t → es'.length + s.loopPc.stage ≤ t.loopPc.stage ∧
        t.loopPc.stage ≤ 10 := by
  have hwoken := woken_of_run run hwrite
  refine ⟨hwoken.progress, fun es' tr' t run' => ⟨?_, t.loopPc.stage_le⟩⟩
  have hbudget := (run'.budget (J := Woken) (A := fun _ => True) (c := fun _ => 1)
    (r := fun s => 10 - s.loopPc.stage) hwoken (fun _ _ _ _ h _ hstep => h.step hstep)
    (fun u e o v h _ hstep => ?_) fun _ _ => trivial).2
  · have hs := s.loopPc.stage_le
    have ht := t.loopPc.stage_le
    simp only [List.map_const', List.sum_replicate, smul_eq_mul, mul_one] at hbudget
    omega
  · have hlt := h.stage_lt hstep
    have hv := v.loopPc.stage_le
    omega

end Runs

/-- A handle with four descriptors. -/
def someHal : HalHandle := ⟨0x1000, ![5, 6], some 0x2000, 28, some 0x3000⟩

/-- An event comes in, and then `skw_wifi_cleanup` ends the loop. -/
def someEvents : List HalEvent :=
  [.enter, .poll true, .skwSocketHandler, .test, .cleanup (some 7), .setExit, .write, .poll false, .test,
    .callHandler, .halDeinit, .eventDeinit, .close 0, .close 1, .free]

theorem halRun_someHal : ∃ tr s, HalRun someHal someEvents tr s ∧
    s.loopPc = .returned ∧ s.cleanedUpHandler = some 7 := by
  have h₁ := (@Execution.start _ _ _ (HalStep someHal) .init).snoc (.enter rfl)
  have h₂ := h₁.snoc (.poll true rfl (.inl rfl))
  have h₃ := h₂.snoc (.skwSocketHandler rfl)
  have h₄ := h₃.snoc (.test rfl)
  have h₅ := h₄.snoc (.cleanup (some 7) rfl)
  have h₆ := h₅.snoc (.setExit rfl)
  have h₇ := h₆.snoc (.write rfl)
  have h₈ := h₇.snoc (.poll false rfl (.inr rfl))
  have h₉ := h₈.snoc (.test rfl)
  have h₁₀ := h₉.snoc (.callHandler rfl)
  have h₁₁ := h₁₀.snoc (.halDeinit rfl)
  have h₁₂ := h₁₁.snoc (.eventDeinit rfl)
  have h₁₃ := h₁₂.snoc (.close 0 rfl)
  have h₁₄ := h₁₃.snoc (.close 1 rfl)
  exact ⟨_, _, h₁₄.snoc (.free rfl), rfl, rfl⟩

/-- The handler is called, and all four are given back. -/
theorem hal_released_once_someHal : ∃ es tr s, HalRun someHal es tr s ∧ handlersCalled tr = [7] ∧
    ∀ k, heldAfter k (someHal.held k) (slotEvents tr) = some (someHal.leftOver k) := by
  obtain ⟨tr, s, run, hret, hhandler⟩ := halRun_someHal
  obtain ⟨hslots, hcalled, -, -⟩ := hal_released_once run
  refine ⟨_, tr, s, run, ?_, fun k => ?_⟩
  · rw [hcalled, hret, hhandler]
    rfl
  · rw [hslots, hret, someHal.heldAt_returned]

/-- The results from which `someHal` is made. -/
def someResults : HalResults := ⟨some 0x1000, some (5, 6), ⟨some 0x2000, 0⟩, 28, ⟨some 0x3000, 0⟩⟩

/-- A life that succeeds. -/
theorem exists_someLife : ∃ life : HalLife, life.results = someResults := by
  obtain ⟨tr, s, run, hret, -⟩ := halRun_someHal
  have hran : ∀ hal, (skwWifiInitialize someResults).2.1 = some hal →
      HalRun hal someEvents tr s ∧ s.loopPc = .returned := by
    intro hal hhal
    obtain rfl : someHal = hal := Option.some.inj hhal
    exact ⟨run, hret⟩
  exact ⟨⟨someResults, _, tr, s, hran, nofun⟩, rfl⟩

/-- An attempt that fails, and then a whole life: the pair of sockets of the first is left over, and of
the second nothing. -/
theorem hal_lives_left_over_two : ∃ life : HalLife, life.results = someResults ∧
    ReleasedOnce (indexed 0 ([failedLife, life].map HalLife.slots)) ∧
    heldAfter (0, .exitSocks 1) none (indexed 0 ([failedLife, life].map HalLife.slots)) =
      some (some 6) ∧
    ∀ k, heldAfter (1, k) none (indexed 0 ([failedLife, life].map HalLife.slots)) = some none := by
  obtain ⟨life, hlife⟩ := exists_someLife
  obtain ⟨honce, hleft⟩ := hal_lives_left_over [failedLife, life]
  refine ⟨life, hlife, honce, hleft ⟨0, Nat.zero_lt_two⟩ (.exitSocks 1), fun k => ?_⟩
  have hnone : life.leftOver k = none := by
    rw [HalLife.leftOver, hlife]
    rcases k with - | e | - | -
    · rfl
    · revert e
      decide
    · rfl
    · rfl
  exact (hleft ⟨1, Nat.one_lt_two⟩ k).trans (congrArg some hnone)

/-- `skw_wifi_cleanup` runs while the loop is in `poll()`, and nothing comes in on `nl_event`. -/
theorem event_loop_ends_polling : ∃ tr s,
    HalRun someHal [.enter, .cleanup none, .setExit, .write] tr s ∧ s.loopPc = .polling ∧
      (s.loopPc ≠ .returned → ∃ e o t, HalStep someHal s e o t ∧ e.Unaided) ∧
      ∀ es' tr' t, Execution (HalStep someHal) s es' tr' t →
        es'.length + s.loopPc.stage ≤ t.loopPc.stage ∧ t.loopPc.stage ≤ 10 := by
  have h₁ := (@Execution.start _ _ _ (HalStep someHal) .init).snoc (.enter rfl)
  have h₂ := h₁.snoc (.cleanup none rfl)
  have h₃ := h₂.snoc (.setExit rfl)
  have h₄ : HalRun someHal [.enter, .cleanup none, .setExit, .write] _ _ := h₃.snoc (.write rfl)
  exact ⟨_, _, h₄, rfl, event_loop_ends h₄ (by simp)⟩

end Seekwave
