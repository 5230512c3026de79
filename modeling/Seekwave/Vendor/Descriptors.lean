import Seekwave.Lib.Execution
import Seekwave.Vendor.Opening

/-!
# Descriptors are closed once

Every variable that holds a descriptor is a slot, which OPEN, CLOSE and a receive thread that hangs up
acquire and release. Three of them release a slot without marking it free: the receive thread its `fd`,
`scomm_vendor_socket_open` the `epoll_fd` of a port whose receive thread it does not get, and
`scomm_vendor_close` `btpw_fp`. In runs that avoid these, `FdInv` says what every slot holds, and
`descriptors_closed_once` that each descriptor is closed exactly once.
-/

namespace Seekwave

/-! ## One variable -/

/-- The variable of a port. -/
def ScommVnd.slot (v : ScommVnd) : PortSlot → ℤ
  | .fd => v.fd
  | .uartFd0 => v.uartFd.1
  | .uartFd1 => v.uartFd.2
  | .signalFd0 => v.signalFd.1
  | .signalFd1 => v.signalFd.2
  | .epollFd => v.epollFd

/-- What a variable holds that CLOSE takes for a descriptor. -/
def positive (fd : ℤ) : Option ℤ := if 0 < fd then some fd else none

theorem positive_of_le {fd : ℤ} (h : fd ≤ 0) : positive fd = none := if_neg (by omega)

theorem positive_of_pos {fd : ℤ} (h : 0 < fd) : positive fd = some fd := if_pos h

section Slots

variable {κ : Type} [DecidableEq κ] {k k' : κ}

theorem heldAfter_closePositive (k : κ) (fd : ℤ) :
    heldAfter k (positive fd) (closePositive k fd) = some none := by
  by_cases hfd : 0 < fd
  · rw [positive_of_pos hfd, closePositive, if_pos hfd]
    simp [heldAfter_cons, SlotEvent.use]
  · rw [positive, closePositive, if_neg hfd, if_neg hfd]
    rfl

theorem heldAfter_closePositive_of_ne (h : k' ≠ k) (held : Option ℤ) (fd : ℤ) :
    heldAfter k held (closePositive k' fd) = some held := by
  refine heldAfter_of_ne held fun e he => ?_
  rw [closePositive] at he
  split at he
  · obtain rfl := List.mem_singleton.mp he
    exact h
  · exact absurd he List.not_mem_nil

theorem heldAfter_acquiredBy {d : Option ℕ} (hd : d ≠ some 0) :
    heldAfter k none (acquiredBy k d) = some (positive (fdOf d)) := by
  rcases d with - | d
  · rfl
  · have hpos : 0 < d := Nat.pos_of_ne_zero fun hzero => hd (congrArg some hzero)
    rw [show positive (fdOf (some d)) = some (d : ℤ) from positive_of_pos (Int.natCast_pos.mpr hpos)]
    simp [acquiredBy, heldAfter_cons, SlotEvent.use]

theorem heldAfter_acquiredBy_of_ne (h : k' ≠ k) (held : Option ℤ) (d : Option ℕ) :
    heldAfter k held (acquiredBy k' d) = some held := by
  refine heldAfter_of_ne held fun e he => ?_
  rcases d with - | d
  · exact absurd he List.not_mem_nil
  · obtain rfl := List.mem_singleton.mp he
    exact h

theorem heldAfter_ite_of_ne {c : Prop} [Decidable c] (h : k' ≠ k) (held : Option ℤ)
    (d : Option ℕ) : heldAfter k held (if c then acquiredBy k' d else []) = some held := by
  split
  · exact heldAfter_acquiredBy_of_ne h held d
  · rfl

end Slots

/-! ## One port -/

/-- A port that is open has its `fd`, and one that is not has no descriptor. -/
structure ScommVnd.Tidy (v : ScommVnd) : Prop where
  fd : 0 < v.fd ∨ v.fd = -1
  free : v.fd = -1 → ∀ k, v.slot k ≤ 0

/-- Closing a port closes all it holds, if its receive thread does not hang up meanwhile. -/
theorem heldAfter_portClose {hangsUp : Bool} {v : ScommVnd} (h : v.Tidy)
    (hrecv : v.recvThread = true → hangsUp = false) (k : PortSlot) :
    heldAfter k (positive (v.slot k)) (scommVendorPortClose hangsUp v).2 = some none := by
  rw [scommVendorPortClose]
  split
  · next hfd => rw [positive_of_le (h.free hfd k), heldAfter_nil]
  · have hjoined : ¬ (v.recvThread = true ∧ hangsUp = true) := by
      rintro ⟨hrun, hhangs⟩
      rw [hrecv hrun] at hhangs
      exact absurd hhangs Bool.false_ne_true
    dsimp only
    rw [if_neg hjoined]
    cases k <;>
      simp [scommVendorSocketClose, ScommVnd.slot, heldAfter_append, heldAfter_closePositive,
        heldAfter_closePositive_of_ne]

theorem slot_portClose {hangsUp : Bool} {v : ScommVnd} (h : v.Tidy) :
    (scommVendorPortClose hangsUp v).1.fd = -1 ∧
      ∀ k, (scommVendorPortClose hangsUp v).1.slot k ≤ 0 := by
  rw [scommVendorPortClose]
  split
  · next hfd => exact ⟨hfd, h.free hfd⟩
  · refine ⟨rfl, fun k => ?_⟩
    cases k <;> simp [scommVendorSocketClose, ScommVnd.slot]

/-- The system calls of `scomm_vendor_socket_open` return no descriptor 0 that it keeps. -/
def SocketResults.Positive (portIndex : Port) (r : SocketResults) : Prop :=
  ∀ u, r.uartFd = some u → 0 < u.1 ∧ 0 < u.2 ∧ ∀ s, r.signalFd = some s → 0 < s.1 ∧ 0 < s.2 ∧
    ∀ e, r.epollFd = some e → r.socketReady portIndex = true → 0 < e

/-- `scomm_vendor_socket_open` fails to create the receive thread. -/
def SocketResults.recvFails (portIndex : Port) (r : SocketResults) : Bool :=
  r.uartFd.isSome && r.signalFd.isSome && r.epollFd.isSome && r.socketReady portIndex && !r.recvThread

/-- Otherwise it leaves what it holds in its variables. -/
theorem heldAfter_socketOpen {portIndex : Port} {r : SocketResults} {v : ScommVnd}
    (hfree : ∀ k, k ≠ .fd → v.slot k ≤ 0) (hpos : r.Positive portIndex) (hrecv : r.recvFails portIndex = false)
    {k : PortSlot} (hk : k ≠ .fd) :
    heldAfter k none (scommVendorSocketOpen portIndex r v).events =
      some (positive ((scommVendorSocketOpen portIndex r v).vnd.slot k)) := by
  have hopen : ∀ d : ℕ, 0 < d → positive (d : ℤ) = some (d : ℤ) :=
    fun d hd => positive_of_pos (Int.natCast_pos.mpr hd)
  have hclosed : positive (-1) = none := rfl
  have hnone : ∀ k, k ≠ .fd → positive (v.slot k) = none := fun k hk => positive_of_le (hfree k hk)
  have hsignalFd₀ : positive v.signalFd.1 = none := hnone .signalFd0 (by nofun)
  have hsignalFd₁ : positive v.signalFd.2 = none := hnone .signalFd1 (by nofun)
  have hepollFd : positive v.epollFd = none := hnone .epollFd (by nofun)
  rcases hu : r.uartFd with - | ⟨u₀, u₁⟩
  · rw [scommVendorSocketOpen, hu, hnone k hk, heldAfter_nil]
  obtain ⟨hu₀, hu₁, hsignal⟩ := hpos _ hu
  -- in the order of the calls; each way out closes what the calls before it gave
  rcases hs : r.signalFd with - | ⟨s₀, s₁⟩
  · simp only [scommVendorSocketOpen, hu, hs]
    cases k with
    | fd => exact absurd rfl hk
    | _ => simp [ScommVnd.slot, heldAfter_cons, SlotEvent.use, hopen _ hu₀, hopen _ hu₁, hsignalFd₀,
        hsignalFd₁, hepollFd]
  obtain ⟨hs₀, hs₁, hepoll⟩ := hsignal _ hs
  rcases he : r.epollFd with - | e
  · simp only [scommVendorSocketOpen, hu, hs, he]
    cases k with
    | fd => exact absurd rfl hk
    | _ => simp [ScommVnd.slot, heldAfter_cons, SlotEvent.use, hopen _ hu₀, hopen _ hu₁, hopen _ hs₀,
        hopen _ hs₁, hclosed]
  rcases hready : r.socketReady portIndex with - | -
  · simp only [scommVendorSocketOpen, hu, hs, he, startThreads, hready, if_true]
    cases k with
    | fd => exact absurd rfl hk
    | _ => simp [ScommVnd.slot, heldAfter_cons, SlotEvent.use, hopen _ hu₀, hopen _ hu₁, hopen _ hs₀,
        hopen _ hs₁, hclosed]
  · have he₀ := hepoll _ he hready
    have hthread : r.recvThread = true := by
      simpa [SocketResults.recvFails, hu, hs, he, hready] using hrecv
    simp only [scommVendorSocketOpen, hu, hs, he, startThreads, hready, hthread, Bool.true_eq_false,
      if_false]
    cases k with
    | fd => exact absurd rfl hk
    | _ => simp [ScommVnd.slot, heldAfter_cons, SlotEvent.use, hopen _ hu₀, hopen _ hu₁, hopen _ hs₀,
        hopen _ hs₁, hopen _ he₀]

/-- The system calls for a port whose device is there return no descriptor 0 that is kept, and the receive
thread is created if it comes to that. -/
structure PortResults.Keeps (portIndex : Port) (r : PortResults) : Prop where
  device : r.device ≠ some 0
  socket : r.socket.Positive portIndex
  recvThread : r.socket.recvFails portIndex = false

/-- The sockets are none of the business of the device. -/
theorem events_socketOpen_ne_fd (portIndex : Port) (r : SocketResults) (v : ScommVnd) :
    ∀ e ∈ (scommVendorSocketOpen portIndex r v).events, e.slot ≠ .fd := by
  rw [scommVendorSocketOpen]
  rcases r.uartFd with - | ⟨u₀, u₁⟩
  · simp
  rcases r.signalFd with - | ⟨s₀, s₁⟩
  · simp [SlotEvent.slot]
  rcases r.epollFd with - | e
  · simp [SlotEvent.slot]
  · simp only [startThreads]
    split
    · simp [SlotEvent.slot]
    · split <;> simp [SlotEvent.slot]

/-- Opening a port leaves what it acquires in its variables. -/
theorem heldAfter_openPort {portIndex : Port} {r : PortResults} {v : ScommVnd}
    (hfree : ∀ k, v.slot k ≤ 0) (h : r.Keeps portIndex) (k : PortSlot) :
    heldAfter k none (openPort portIndex r v).events =
      some (positive ((openPort portIndex r v).vnd.slot k)) := by
  have hsocket : ∀ held, heldAfter .fd held
      (scommVendorSocketOpen portIndex r.socket (openDevice r.device v).vnd).events = some held :=
    fun held => heldAfter_of_ne held (events_socketOpen_ne_fd portIndex _ _)
  by_cases hk : k = .fd
  · subst hk
    have hfd : (openPort portIndex r v).vnd.slot .fd = fdOf r.device :=
      (socketOpen_frame portIndex r.socket (openDevice r.device v).vnd).1
    rw [hfd]
    exact heldAfter_trans (heldAfter_acquiredBy h.device) (hsocket _)
  · refine heldAfter_trans (heldAfter_acquiredBy_of_ne (Ne.symm hk) none r.device) ?_
    refine heldAfter_socketOpen (fun k' hk' => ?_) h.socket h.recvThread hk
    have hframe : (openDevice r.device v).vnd.slot k' = v.slot k' := by
      cases k' with
      | fd => exact absurd rfl hk'
      | _ => rfl
    exact hframe ▸ hfree k'

theorem tidy_openPort {portIndex : Port} {r : PortResults} {v : ScommVnd} (hdev : r.device ≠ none)
    (h : r.Keeps portIndex) : (openPort portIndex r v).vnd.Tidy := by
  have hfd : (openPort portIndex r v).vnd.fd = fdOf r.device :=
    (socketOpen_frame portIndex r.socket (openDevice r.device v).vnd).1
  have hpos : 0 < fdOf r.device := by
    rcases hd : r.device with - | d
    · exact absurd hd hdev
    · have hne : d ≠ 0 := fun hzero => h.device (hd.trans (congrArg some hzero))
      exact Int.natCast_pos.mpr (Nat.pos_of_ne_zero hne)
  exact ⟨.inl (hfd ▸ hpos), fun hnone => by omega⟩

/-! ## All ports -/

section Ports

variable {ports : List Port} {f : Port → List PortEvent}

theorem slot_of_mem_flatMap {e : FdEvent}
    (he : e ∈ ports.flatMap fun p => (f p).map (.map (Slot.port p))) :
    ∃ p ∈ ports, ∃ k, e.slot = .port p k := by
  obtain ⟨p, hp, he⟩ := List.mem_flatMap.mp he
  obtain ⟨e', -, rfl⟩ := List.mem_map.mp he
  exact ⟨p, hp, e'.slot, SlotEvent.slot_map _ e'⟩

/-- The variables of a port go through the events of that port. -/
theorem heldAfter_flatMap_port (hnodup : ports.Nodup) {p : Port} (hp : p ∈ ports) (k : PortSlot)
    (held : Option ℤ) :
    heldAfter (Slot.port p k) held (ports.flatMap fun p => (f p).map (.map (Slot.port p))) =
      heldAfter k held (f p) := by
  have hinj : ∀ q, Function.Injective (Slot.port q) := fun q k k' h => (Slot.port.inj h).2
  induction ports generalizing held with
  | nil => exact absurd hp List.not_mem_nil
  | cons q ports ih =>
    obtain ⟨hq, hnodup⟩ := List.nodup_cons.mp hnodup
    rw [List.flatMap_cons, heldAfter_append]
    by_cases hpq : p = q
    · subst hpq
      have hrest : ∀ held', heldAfter (Slot.port p k) held'
          (ports.flatMap fun p => (f p).map (.map (Slot.port p))) = some held' := by
        intro held'
        refine heldAfter_of_ne held' fun e he hslot => ?_
        obtain ⟨q, hmem, k', hk'⟩ := slot_of_mem_flatMap he
        exact hq ((Slot.port.inj (hslot.symm.trans hk')).1 ▸ hmem)
      rw [heldAfter_map (hinj p)]
      simp only [hrest, Option.bind_fun_some]
    · have hfirst : heldAfter (.port p k) held ((f q).map (.map (Slot.port q))) = some held := by
        refine heldAfter_of_ne held fun e he hslot => ?_
        obtain ⟨e', -, rfl⟩ := List.mem_map.mp he
        rw [SlotEvent.slot_map] at hslot
        exact hpq (Slot.port.inj hslot).1.symm
      rw [hfirst, Option.bind_some]
      exact ih hnodup ((List.mem_cons.mp hp).resolve_left hpq) held

/-- The other variables do not. -/
theorem heldAfter_flatMap_of_ne {k : Slot} (h : ∀ p ∈ ports, ∀ k', k ≠ Slot.port p k')
    (held : Option ℤ) :
    heldAfter k held (ports.flatMap fun p => (f p).map (.map (Slot.port p))) = some held := by
  refine heldAfter_of_ne held fun e he hslot => ?_
  obtain ⟨p, hp, k', hk'⟩ := slot_of_mem_flatMap he
  exact h p hp k' (hslot.symm.trans hk')

end Ports

/-! ## The operations -/

/-- No system call of OPEN returns descriptor 0, and no receive thread is missing that a port needs. -/
structure VendorState.OpenKeeps (s : VendorState) (r : OpenResults) : Prop where
  boot : s.UsesBoot → r.boot ≠ some 0
  btdata : s.UsesBtdata ∧ r.boot ≠ none → r.btdata ≠ some 0
  port : ∀ p ∈ s.portsOpened r, (r.port p).Keeps p

section OpenClose

variable {s : VendorState} {r : OpenResults}

theorem heldAfter_bootEvents_boot (hclosed : s.btbootFp ≤ 0) (h : s.OpenKeeps r) :
    heldAfter .btbootFp none (s.bootEvents r) =
      some (positive (if s.UsesBoot then fdOf r.boot else s.btbootFp)) := by
  refine heldAfter_trans ?_ (heldAfter_ite_of_ne (by nofun) _ r.btdata)
  split
  · next huses => exact heldAfter_acquiredBy (h.boot huses)
  · rw [positive_of_le hclosed, heldAfter_nil]

theorem heldAfter_bootEvents_btpw (h : s.OpenKeeps r) :
    heldAfter .btpwFp none (s.bootEvents r) =
      some (if s.UsesBtdata ∧ r.boot ≠ none then positive (fdOf r.btdata) else none) := by
  refine heldAfter_trans (heldAfter_ite_of_ne (by nofun) none r.boot) ?_
  split
  · next huses => exact heldAfter_acquiredBy (h.btdata huses)
  · rfl

theorem heldAfter_bootEvents_port (p : Port) (k : PortSlot) (held : Option ℤ) :
    heldAfter (.port p k) held (s.bootEvents r) = some held :=
  heldAfter_trans (heldAfter_ite_of_ne (by nofun) held r.boot)
    (heldAfter_ite_of_ne (by nofun) held r.btdata)

/-- What OPEN, from closed ports, puts into the variables of a port. -/
theorem heldAfter_opUserialOpen_port (hclosed : ∀ p, (s.scommVnd p).fd = -1)
    (htidy : ∀ p, (s.scommVnd p).Tidy) (h : s.OpenKeeps r) (p : Port) :
    (∀ k, heldAfter (.port p k) none (opUserialOpen r s).events =
        some (positive (((opUserialOpen r s).state.scommVnd p).slot k))) ∧
      ((opUserialOpen r s).state.scommVnd p).Tidy := by
  obtain ⟨hopened, hother⟩ := opUserialOpen_scommVnd r s p
  have hfree := (htidy p).free (hclosed p)
  rw [opUserialOpen_events]
  by_cases hp : p ∈ s.portsOpened r
  · have hkeeps := h.port p hp
    rw [hopened hp]
    refine ⟨fun k => heldAfter_trans (heldAfter_bootEvents_port p k none) ?_,
      tidy_openPort (device_of_mem_portsOpened r s hp) hkeeps⟩
    exact (heldAfter_flatMap_port (nodup_portsOpened r s) hp k none).trans
      (heldAfter_openPort hfree hkeeps k)
  · have hsame : (opUserialOpen r s).state.scommVnd p = s.scommVnd p := by
      rcases hother hp with hsame | hfd
      · exact hsame
      · rw [hfd, ← hclosed p]
    rw [hsame]
    refine ⟨fun k => heldAfter_trans (heldAfter_bootEvents_port p k none) ?_, htidy p⟩
    rw [positive_of_le (hfree k)]
    refine heldAfter_flatMap_of_ne (fun q hq k' hk' => hp ?_) none
    rw [(Slot.port.inj hk').1]
    exact hq

theorem heldAfter_opUserialClose_port {hangsUp : Port → Bool} (htidy : ∀ p, (s.scommVnd p).Tidy)
    (hrecv : ∀ p, (s.scommVnd p).recvThread = true → hangsUp p = false) (p : Port) (k : PortSlot) :
    heldAfter (.port p k) (positive ((s.scommVnd p).slot k)) (opUserialClose hangsUp s).2 =
      some none := by
  have hports : heldAfter (Slot.port p k) (positive ((s.scommVnd p).slot k))
      ((List.finRange btComPortSize).flatMap fun p =>
        (scommVendorPortClose (hangsUp p) (s.scommVnd p)).2.map (.map (Slot.port p))) = some none :=
    (heldAfter_flatMap_port (List.nodup_finRange _) (List.mem_finRange p) k _).trans
      (heldAfter_portClose (htidy p) (hrecv p) k)
  exact heldAfter_trans (heldAfter_closePositive_of_ne (by nofun) _ _)
    (heldAfter_trans hports (heldAfter_closePositive_of_ne (by nofun) _ _))

/-- The other two descriptors: CLOSE takes what they hold for open. -/
theorem heldAfter_opUserialClose (hangsUp : Port → Bool) :
    heldAfter .btbootFp (positive s.btbootFp) (opUserialClose hangsUp s).2 = some none ∧
      heldAfter .btpwFp (positive s.btpwFp) (opUserialClose hangsUp s).2 = some none := by
  have hports : ∀ k : Slot, (∀ p k', k ≠ .port p k') → ∀ held, heldAfter k held
      ((List.finRange btComPortSize).flatMap fun p =>
        (scommVendorPortClose (hangsUp p) (s.scommVnd p)).2.map (.map (Slot.port p))) = some held :=
    fun k hk held => heldAfter_flatMap_of_ne (fun p _ => hk p) held
  constructor
  · exact heldAfter_trans (heldAfter_closePositive _ _)
      (heldAfter_trans (hports _ (by nofun) _) (heldAfter_closePositive_of_ne (by nofun) _ _))
  · exact heldAfter_trans (heldAfter_closePositive_of_ne (by nofun) _ _)
      (heldAfter_trans (hports _ (by nofun) _) (heldAfter_closePositive _ _))

end OpenClose

/-! ## Runs -/

/-- The operations, and a receive thread that hangs up between two of them. -/
inductive OpInput
  | userialOpen (r : OpenResults)
  | userialClose (hangsUp : Port → Bool)
  | hangUp (portIndex : Port)

/-- One of these, with what is done with descriptors. There is no second OPEN before CLOSE. -/
inductive OpStep : Vendor → OpInput → List FdEvent → Vendor → Prop
  | userialOpen {t : Vendor} (r : OpenResults) (hclosed : t.session = none) :
      OpStep t (.userialOpen r) (opUserialOpen r t.state).events
        ⟨(opUserialOpen r t.state).state, some r⟩
  | userialClose (t : Vendor) (hangsUp : Port → Bool) :
      OpStep t (.userialClose hangsUp) (opUserialClose hangsUp t.state).2
        ⟨(opUserialClose hangsUp t.state).1, none⟩
  | hangUp {t : Vendor} (portIndex : Port)
      (hrecv : (t.state.scommVnd portIndex).recvThread = true) :
      OpStep t (.hangUp portIndex) (hangUp portIndex t.state).2
        { t with state := (hangUp portIndex t.state).1 }

/-- A run of operations after `init`. -/
def OpRun (file : Option (List (List UInt8))) (is : List OpInput) (tr : List FdEvent) (t : Vendor) :
    Prop :=
  ∃ s, vendorInit file .initial = some s ∧ Execution OpStep ⟨s, none⟩ is tr t

/-- The OPEN since the last CLOSE has called `open` for `/dev/BTDATA`. -/
def Vendor.BtdataOpened (t : Vendor) : Prop :=
  ∃ r ∈ t.session, t.state.UsesBtdata ∧ r.boot ≠ none

instance (t : Vendor) : Decidable t.BtdataOpened := by unfold Vendor.BtdataOpened; infer_instance

/-- The inputs that close every descriptor once. -/
def Vendor.Keeps (t : Vendor) : OpInput → Prop
  | .userialOpen r => t.state.OpenKeeps r
  | .userialClose hangsUp => (0 < t.state.btpwFp → t.BtdataOpened) ∧
      ∀ p, (t.state.scommVnd p).recvThread = true → hangsUp p = false
  | .hangUp _ => False

/-- What every variable holds. -/
structure FdInv (t : Vendor) (tr : List FdEvent) : Prop where
  port : ∀ p k, heldAfter (.port p k) none tr = some (positive ((t.state.scommVnd p).slot k))
  boot : heldAfter .btbootFp none tr = some (positive t.state.btbootFp)
  btpw : heldAfter .btpwFp none tr =
    some (if t.BtdataOpened then positive t.state.btpwFp else none)
  tidy : ∀ p, (t.state.scommVnd p).Tidy
  closed : t.session = none → t.state.btbootFp ≤ 0 ∧ ∀ p, (t.state.scommVnd p).fd = -1

namespace FdInv

variable {t : Vendor} {tr : List FdEvent}

theorem start {file : Option (List (List UInt8))} {s : VendorState}
    (hinit : vendorInit file .initial = some s) : FdInv ⟨s, none⟩ [] := by
  obtain ⟨conf, -, rfl⟩ := Option.map_eq_some_iff.mp hinit
  refine ⟨fun p k => ?_, rfl, ?_, fun p => ⟨.inr rfl, fun _ k => ?_⟩, fun _ => ⟨?_, fun _ => rfl⟩⟩
  · cases k <;> rfl
  · rw [if_neg (by rintro ⟨r, hr, -⟩; exact absurd hr nofun)]
    rfl
  · cases k with
    | fd => exact (by decide : (-1 : ℤ) ≤ 0)
    | _ => exact Int.le_refl 0
  · exact (by decide : (-1 : ℤ) ≤ 0)

theorem not_btdataOpened (h : t.session = none) : ¬ t.BtdataOpened := by
  rintro ⟨r, hr, -⟩
  exact absurd (h.symm.trans hr) nofun

/-- An OPEN from closed ports. -/
theorem userialOpen (h : FdInv t tr) {r : OpenResults} (hclosed : t.session = none)
    (hkeeps : t.state.OpenKeeps r) :
    FdInv ⟨(opUserialOpen r t.state).state, some r⟩ (tr ++ (opUserialOpen r t.state).events) := by
  obtain ⟨hboot, hfd⟩ := h.closed hclosed
  obtain ⟨hbootFp, hbtpwFp⟩ := opUserialOpen_boot r t.state
  have hports := heldAfter_opUserialOpen_port hfd h.tidy hkeeps
  -- the events of the ports leave the other two descriptors alone
  have hrest : ∀ k : Slot, (∀ p k', k ≠ .port p k') → ∀ held held', heldAfter k held
      (t.state.bootEvents r) = some held' →
        heldAfter k held (opUserialOpen r t.state).events = some held' := by
    intro k hk held held' hevents
    rw [opUserialOpen_events]
    exact heldAfter_trans hevents (heldAfter_flatMap_of_ne (fun p _ => hk p) held')
  refine ⟨fun p k => ?_, ?_, ?_, fun p => (hports p).2, nofun⟩
  · have hbefore := h.port p k
    rw [positive_of_le ((h.tidy p).free (hfd p) k)] at hbefore
    exact heldAfter_trans hbefore ((hports p).1 k)
  · have hbefore := h.boot
    rw [positive_of_le hboot] at hbefore
    rw [hbootFp]
    exact heldAfter_trans hbefore (hrest _ (by nofun) _ _ (heldAfter_bootEvents_boot hboot hkeeps))
  · have hbefore := h.btpw
    rw [if_neg (not_btdataOpened hclosed)] at hbefore
    have hafter := hrest _ (by nofun) _ _ (heldAfter_bootEvents_btpw hkeeps)
    have hopened : Vendor.BtdataOpened ⟨(opUserialOpen r t.state).state, some r⟩ ↔
        t.state.UsesBtdata ∧ r.boot ≠ none := by
      constructor
      · rintro ⟨r', hr', huses, hne⟩
        obtain rfl := Option.some.inj hr'
        exact ⟨usesBtdata_opUserialOpen.mp huses, hne⟩
      · rintro ⟨huses, hne⟩
        exact ⟨r, rfl, usesBtdata_opUserialOpen.mpr huses, hne⟩
    refine (heldAfter_trans hbefore hafter).trans (congrArg some ?_)
    by_cases hopen : t.state.UsesBtdata ∧ r.boot ≠ none
    · rw [if_pos hopen, if_pos (hopened.mpr hopen), hbtpwFp, if_pos hopen]
    · rw [if_neg hopen, if_neg (hopened.not.mpr hopen)]

/-- A CLOSE without a hang-up closes all that is open. -/
theorem heldAfter_userialClose (h : FdInv t tr) {hangsUp : Port → Bool}
    (hkeeps : t.Keeps (.userialClose hangsUp)) (k : Slot) :
    heldAfter k none (tr ++ (opUserialClose hangsUp t.state).2) = some none := by
  obtain ⟨hbtpw, hrecv⟩ := hkeeps
  obtain ⟨hboot, hbtpwClose⟩ := @heldAfter_opUserialClose t.state hangsUp
  cases k with
  | btbootFp => exact heldAfter_trans h.boot hboot
  | btpwFp =>
    have hheld : (if t.BtdataOpened then positive t.state.btpwFp else none) =
        positive t.state.btpwFp := by
      split
      · rfl
      · next hopen => exact (positive_of_le (Int.not_lt.mp fun hpos => hopen (hbtpw hpos))).symm
    exact heldAfter_trans (hheld ▸ h.btpw) hbtpwClose
  | port p k => exact heldAfter_trans (h.port p k) (heldAfter_opUserialClose_port h.tidy hrecv p k)

theorem userialClose (h : FdInv t tr) {hangsUp : Port → Bool}
    (hkeeps : t.Keeps (.userialClose hangsUp)) :
    FdInv ⟨(opUserialClose hangsUp t.state).1, none⟩
      (tr ++ (opUserialClose hangsUp t.state).2) := by
  have hheld := h.heldAfter_userialClose hkeeps
  have hslot : ∀ p, ((opUserialClose hangsUp t.state).1.scommVnd p).fd = -1 ∧
      ∀ k, ((opUserialClose hangsUp t.state).1.scommVnd p).slot k ≤ 0 :=
    fun p => slot_portClose (h.tidy p)
  have hboot : (opUserialClose hangsUp t.state).1.btbootFp ≤ 0 := by
    show (if 0 < t.state.btbootFp then (-1 : ℤ) else t.state.btbootFp) ≤ 0
    split <;> omega
  refine ⟨fun p k => ?_, ?_, ?_, fun p => ⟨.inr (hslot p).1, fun _ => (hslot p).2⟩,
    fun _ => ⟨hboot, fun p => (hslot p).1⟩⟩
  · rw [hheld, positive_of_le ((hslot p).2 k)]
  · rw [hheld, positive_of_le hboot]
  · rw [hheld, if_neg (not_btdataOpened rfl)]

/-- **Step lemma.** -/
theorem step (h : FdInv t tr) {i : OpInput} {o : List FdEvent} {u : Vendor} (hkeeps : t.Keeps i)
    (hstep : OpStep t i o u) : FdInv u (tr ++ o) := by
  cases hstep with
  | userialOpen r hclosed => exact h.userialOpen hclosed hkeeps
  | userialClose hangsUp => exact h.userialClose hkeeps
  | hangUp portIndex hrecv => exact hkeeps.elim

theorem releasedOnce (h : FdInv t tr) : ReleasedOnce tr := by
  refine releasedOnce_of_heldAfter fun k => ?_
  cases k with
  | btbootFp => exact ⟨_, h.boot⟩
  | btpwFp => exact ⟨_, h.btpw⟩
  | port p k => exact ⟨_, h.port p k⟩

end FdInv

/-- **Run lemma.** -/
theorem fdInv_of_run {s : VendorState} (hstart : FdInv ⟨s, none⟩ []) {is : List OpInput}
    {tr : List FdEvent} {t : Vendor} (run : Execution OpStep ⟨s, none⟩ is tr t)
    (hkeeps : ∀ ks i js tr' t', is = ks ++ i :: js → Execution OpStep ⟨s, none⟩ ks tr' t' →
      t'.Keeps i) : FdInv t tr := by
  refine run.invariant (I := fun is tr t => (∀ ks i js tr' t', is = ks ++ i :: js →
    Execution OpStep ⟨s, none⟩ ks tr' t' → t'.Keeps i) → FdInv t tr) (fun _ => hstart) ?_ hkeeps
  intro is tr t i o u hrun ih hstep hkeeps
  refine (ih fun ks j js tr' t' his hrun' => ?_).step (hkeeps is i [] tr t rfl hrun) hstep
  exact hkeeps ks j (js ++ [i]) tr' t' (by simp [his]) hrun'

/-- **Descriptors are closed exactly once** in every run whose inputs all keep to `Vendor.Keeps`: no
variable is closed twice without having been opened in between, and when CLOSE returns, whatever has been
opened is closed. -/
theorem descriptors_closed_once {file : Option (List (List UInt8))} {is : List OpInput}
    {tr : List FdEvent} {t : Vendor} (run : OpRun file is tr t)
    (hkeeps : ∀ ks i js tr' t', is = ks ++ i :: js → OpRun file ks tr' t' → t'.Keeps i) :
    ReleasedOnce tr ∧ ∀ ks hangsUp, is = ks ++ [.userialClose hangsUp] → AllReleased tr := by
  obtain ⟨s, hs, hrun⟩ := run
  have hkeeps' : ∀ ks i js tr' t', is = ks ++ i :: js → Execution OpStep ⟨s, none⟩ ks tr' t' →
      t'.Keeps i := fun ks i js tr' t' his hrun' => hkeeps ks i js tr' t' his ⟨s, hs, hrun'⟩
  refine ⟨(fdInv_of_run (.start hs) hrun hkeeps').releasedOnce, ?_⟩
  rintro ks hangsUp rfl
  obtain ⟨t', tr', o, hrun', hstep, rfl⟩ := hrun.last
  have hinv : FdInv t' tr' := by
    refine fdInv_of_run (.start hs) hrun' fun ks' i js tr'' t'' his => ?_
    exact hkeeps' ks' i (js ++ [.userialClose hangsUp]) tr'' t'' (by simp [his])
  have hlast := hkeeps' ks _ [] tr' t' rfl hrun'
  cases hstep with
  | userialClose => exact allReleased_of_heldAfter (hinv.heldAfter_userialClose hlast)

/-- The configuration of a device with one node. -/
def oneNode : Option (List (List UInt8)) := some [chars "BtDeviceNode=/dev/BTCMD"]

/-- An OPEN in which every system call succeeds. -/
def openSucceeds : OpenResults :=
  ⟨some 3, none, fun _ => ⟨some 4, some (5, 6), some (7, 8), some 9, true, true, true, true⟩⟩

theorem positive_openSucceeds (p : Port) : (openSucceeds.port p).socket.Positive p := by
  rintro u ⟨⟩
  refine ⟨by decide, by decide, ?_⟩
  rintro u' ⟨⟩
  refine ⟨by decide, by decide, ?_⟩
  rintro e ⟨⟩ _
  decide

/-- OPEN and CLOSE, with nothing in between. -/
theorem descriptors_closed_once_oneNode : ∃ tr t,
    OpRun oneNode [.userialOpen openSucceeds, .userialClose fun _ => false] tr t ∧
      ReleasedOnce tr ∧ AllReleased tr := by
  have hports : (vendorInit oneNode .initial).map (fun s => s.portsOpened openSucceeds) = some [0] := by
    decide
  have hbtpw : (vendorInit oneNode .initial).map
      (fun s => (opUserialOpen openSucceeds s).state.btpwFp) = some (-1) := by decide
  obtain ⟨s, hs⟩ : ∃ s, vendorInit oneNode .initial = some s :=
    Option.isSome_iff_exists.mp (by decide)
  rw [hs, Option.map_some, Option.some.injEq] at hports hbtpw
  have hopen : Execution OpStep ⟨s, none⟩ [.userialOpen openSucceeds] _ _ :=
    Execution.start.snoc (.userialOpen openSucceeds rfl)
  have hclose := hopen.snoc (.userialClose _ fun _ => false)
  have hkeeps : ∀ ks i js tr' t', [.userialOpen openSucceeds, .userialClose fun _ => false] =
      ks ++ i :: js → OpRun oneNode ks tr' t' → t'.Keeps i := by
    rintro ks i js tr' t' his ⟨s', hs', hrun⟩
    obtain rfl := Option.some.inj (hs.symm.trans hs')
    rcases ks with - | ⟨j, - | ⟨j', ks⟩⟩
    · obtain ⟨rfl, -⟩ : .userialOpen openSucceeds = i ∧ _ := List.cons.inj his
      obtain ⟨-, rfl⟩ := hrun.eq_of_nil
      rw [Vendor.Keeps]
      refine ⟨fun _ => by decide, fun _ => by decide, fun p hp => ?_⟩
      rw [hports] at hp
      obtain rfl := List.mem_singleton.mp hp
      exact ⟨by decide, positive_openSucceeds 0, by decide⟩
    · obtain ⟨rfl, hrest⟩ := List.cons.inj his
      obtain ⟨rfl, -⟩ := List.cons.inj hrest
      obtain ⟨t₀, tr₀, o, hrun₀, hstep, -⟩ := @Execution.last _ _ _ _ _ _ [] _ _ hrun
      obtain ⟨-, rfl⟩ := hrun₀.eq_of_nil
      cases hstep with
      | userialOpen =>
        have hclosed : ¬ 0 < (opUserialOpen openSucceeds s).state.btpwFp := by
          rw [hbtpw]
          decide
        rw [Vendor.Keeps]
        exact ⟨fun hpos => absurd hpos hclosed, fun _ _ => rfl⟩
    · exact absurd (congrArg List.length his) (by simp)
  obtain ⟨honce, hall⟩ := descriptors_closed_once ⟨s, hs, hclose⟩ hkeeps
  exact ⟨_, _, ⟨s, hs, hclose⟩, honce, hall [_] _ rfl⟩

/-- A receive thread that hangs up closes the `fd` that CLOSE closes again. -/
theorem descriptors_closed_twice : ¬ ∀ file is tr t, OpRun file is tr t →
    ReleasedOnce tr ∧ ∀ ks hangsUp, is = ks ++ [.userialClose hangsUp] → AllReleased tr := by
  intro hall
  have hrecv : (vendorInit oneNode .initial).map
      (fun s => ((opUserialOpen openSucceeds s).state.scommVnd 0).recvThread) = some true := by decide
  let opened : List FdEvent := [.acquired .btbootFp 3, .acquired (.port 0 .fd) 4,
    .acquired (.port 0 .uartFd0) 5, .acquired (.port 0 .uartFd1) 6, .acquired (.port 0 .signalFd0) 7,
    .acquired (.port 0 .signalFd1) 8, .acquired (.port 0 .epollFd) 9]
  let closed : List FdEvent := [.released (.port 0 .uartFd0) 5, .released (.port 0 .uartFd1) 6,
    .released (.port 0 .epollFd) 9, .released (.port 0 .signalFd0) 7, .released (.port 0 .signalFd1) 8]
  have htrace : (vendorInit oneNode .initial).map (fun s =>
      (opUserialOpen openSucceeds s).events ++ (hangUp 0 (opUserialOpen openSucceeds s).state).2 ++
        (opUserialClose (fun _ => false) (hangUp 0 (opUserialOpen openSucceeds s).state).1).2) =
      some (opened ++ SlotEvent.released (.port 0 .fd) 4 :: [SlotEvent.released .btbootFp 3] ++
        SlotEvent.released (.port 0 .fd) 4 :: closed) := by decide
  obtain ⟨s, hs⟩ : ∃ s, vendorInit oneNode .initial = some s :=
    Option.isSome_iff_exists.mp (by decide)
  rw [hs, Option.map_some, Option.some.injEq] at hrecv htrace
  have hopen : Execution OpStep ⟨s, none⟩ [.userialOpen openSucceeds] _ _ :=
    Execution.start.snoc (.userialOpen openSucceeds rfl)
  have hhang := hopen.snoc (.hangUp 0 hrecv)
  have hclose := hhang.snoc (.userialClose _ fun _ => false)
  rw [List.nil_append, htrace] at hclose
  obtain ⟨d, hd⟩ := (hall oneNode _ _ _ ⟨s, hs, hclose⟩).1 _ _ _ _ _ _ rfl
  exact absurd (List.mem_singleton.mp hd) nofun

end Seekwave
