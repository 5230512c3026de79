import Seekwave.Vendor.Interface

/-!
# What OPEN leaves

The loop of OPEN opens the named ports in order, up to the first whose device it does not get. From this
list of ports (`VendorState.portsOpened`) and the results of the system calls follow the state of every
port, the descriptor that OPEN returns and the events of every variable.
-/

namespace Seekwave

/-! ## One port -/

/-- `scomm_vendor_socket_open` succeeds. -/
def SocketResults.succeeds (portIndex : Port) (r : SocketResults) : Bool :=
  r.uartFd.isSome && r.signalFd.isSome && r.epollFd.isSome && r.socketReady portIndex && r.recvThread

variable (portIndex : Port) (r : SocketResults) (v : ScommVnd)

theorem fdOf_eq_neg_one {d : Option ℕ} : fdOf d = -1 ↔ d = none := by
  cases d with
  | none => exact iff_of_true rfl rfl
  | some d => exact iff_of_false (by simp only [fdOf, Option.elim_some]; omega) nofun

theorem fdOf_neg {d : Option ℕ} : fdOf d < 0 ↔ d = none := by
  cases d with
  | none => exact iff_of_true (by decide) rfl
  | some d => exact iff_of_false (by simp only [fdOf, Option.elim_some]; omega) nofun

/-- Its device and its name are not touched. -/
theorem socketOpen_frame :
    (scommVendorSocketOpen portIndex r v).vnd.fd = v.fd ∧
      (scommVendorSocketOpen portIndex r v).vnd.portName = v.portName := by
  rw [scommVendorSocketOpen]
  split
  · exact ⟨rfl, rfl⟩
  · split
    · exact ⟨rfl, rfl⟩
    · split
      · exact ⟨rfl, rfl⟩
      · simp only [startThreads]
        split
        · exact ⟨rfl, rfl⟩
        · split <;> exact ⟨rfl, rfl⟩

/-- A port is up if the function succeeds, which then returns the host's end of its socket. -/
theorem socketOpen_succeeds (h : r.succeeds portIndex = true) :
    (scommVendorSocketOpen portIndex r v).vnd.driverState = true ∧
      (scommVendorSocketOpen portIndex r v).vnd.recvThread = true ∧
      (scommVendorSocketOpen portIndex r v).ret =
        (scommVendorSocketOpen portIndex r v).vnd.uartFd.1 ∧
      (scommVendorSocketOpen portIndex r v).ret ≠ -1 := by
  simp only [SocketResults.succeeds, Bool.and_eq_true, Option.isSome_iff_exists] at h
  obtain ⟨⟨⟨⟨⟨u, hu⟩, s, hs⟩, e, he⟩, hready⟩, hrecv⟩ := h
  simp only [scommVendorSocketOpen, hu, hs, he, startThreads, hready, hrecv, Bool.true_eq_false, if_false,
    true_and]
  omega

/-- If it fails, the port is as it was. -/
theorem socketOpen_fails (h : r.succeeds portIndex = false) :
    (scommVendorSocketOpen portIndex r v).vnd.driverState = v.driverState ∧
      (scommVendorSocketOpen portIndex r v).vnd.recvThread = v.recvThread ∧
      (scommVendorSocketOpen portIndex r v).ret = -1 := by
  rcases hu : r.uartFd with - | u
  · simp only [scommVendorSocketOpen, hu, true_and]
  rcases hs : r.signalFd with - | s
  · simp only [scommVendorSocketOpen, hu, hs, true_and]
  rcases he : r.epollFd with - | e
  · simp only [scommVendorSocketOpen, hu, hs, he, true_and]
  rcases hready : r.socketReady portIndex with - | -
  · simp only [scommVendorSocketOpen, hu, hs, he, startThreads, hready, if_true, true_and]
  · have hrecv : r.recvThread = false := by
      simpa [SocketResults.succeeds, hu, hs, he, hready] using h
    simp only [scommVendorSocketOpen, hu, hs, he, startThreads, hready, hrecv, Bool.true_eq_false,
      if_false, if_true, true_and]

/-- The device of a port and its sockets. -/
def openPort (portIndex : Port) (r : PortResults) (v : ScommVnd) : PortCall :=
  let dev := openDevice r.device v
  let soc := scommVendorSocketOpen portIndex r.socket dev.vnd
  { soc with events := dev.events ++ soc.events }

/-! ## The loop -/

section Loop

variable (r : Port → PortResults)

/-- The loop ends at this port. -/
def stopsAt (vnd : Port → ScommVnd) (p : Port) : Bool :=
  scommVendorCheckPortValid (vnd p) && (r p).device.isNone

/-- The ports whose devices the loop gets. -/
def devicesOpened (vnd : Port → ScommVnd) (ports : List Port) : List Port :=
  (ports.takeWhile fun p => !stopsAt r vnd p).filter fun p => scommVendorCheckPortValid (vnd p)

variable {r} {vnd : Port → ScommVnd} {p idx : Port} {ports : List Port} {fd : ℤ}

theorem devicesOpened_subset (h : p ∈ devicesOpened r vnd ports) : p ∈ ports :=
  List.takeWhile_subset _ (List.mem_of_mem_filter h)

/-- Opening a port does not change which of the others are opened. -/
theorem devicesOpened_update (hidx : idx ∉ ports) (v : ScommVnd) :
    devicesOpened r (Function.update vnd idx v) ports = devicesOpened r vnd ports := by
  induction ports with
  | nil => rfl
  | cons q ports ih =>
    obtain ⟨hq, hports⟩ := not_or.mp (List.mem_cons.not.mp hidx)
    have hvnd : Function.update vnd idx v q = vnd q := Function.update_of_ne (Ne.symm hq) ..
    have hstops : stopsAt r (Function.update vnd idx v) q = stopsAt r vnd q := by
      rw [stopsAt, stopsAt, hvnd]
    have hih := ih hports
    rw [devicesOpened, devicesOpened] at hih ⊢
    rw [List.takeWhile_cons, List.takeWhile_cons, hstops]
    split
    · rw [List.filter_cons, List.filter_cons, hvnd, hih]
    · rfl

/-- What one round of the loop does. -/
theorem openLoop_cons_cases (r : Port → PortResults) (idx : Port) (ports : List Port)
    (vnd : Port → ScommVnd) (fd : ℤ) :
    (scommVendorCheckPortValid (vnd idx) = false ∧
      openLoop r (idx :: ports) vnd fd = openLoop r ports vnd fd ∧
      devicesOpened r vnd (idx :: ports) = devicesOpened r vnd ports) ∨
    (stopsAt r vnd idx = true ∧
      openLoop r (idx :: ports) vnd fd =
        ⟨Function.update vnd idx { vnd idx with fd := -1 }, fd, idx, []⟩ ∧
      devicesOpened r vnd (idx :: ports) = []) ∨
    (∃ l, stopsAt r vnd idx = false ∧
      l = openLoop r ports (Function.update vnd idx (openPort idx (r idx) (vnd idx)).vnd)
        (if (r idx).socket.succeeds idx = true ∧ fd = -1 then
          (openPort idx (r idx) (vnd idx)).ret else fd) ∧
      openLoop r (idx :: ports) vnd fd = { l with
        events := (openPort idx (r idx) (vnd idx)).events.map (.map (.port idx)) ++ l.events } ∧
      devicesOpened r vnd (idx :: ports) = idx :: devicesOpened r vnd ports) := by
  by_cases hvalid : scommVendorCheckPortValid (vnd idx) = false
  · refine .inl ⟨hvalid, by rw [openLoop, if_pos hvalid], ?_⟩
    simp [devicesOpened, stopsAt, hvalid]
  · have hvalid' : scommVendorCheckPortValid (vnd idx) = true := by simpa using hvalid
    rcases hdev : (r idx).device with - | d
    · refine .inr (.inl ⟨by simp [stopsAt, hvalid', hdev], ?_, ?_⟩)
      · rw [openLoop, if_neg hvalid]
        simp [scommVendorUsbsdioOpen, openDevice, hdev, fdOf, acquiredBy]
      · simp [devicesOpened, stopsAt, hvalid', hdev]
    · refine .inr (.inr ⟨_, by simp [stopsAt, hdev], rfl, ?_, ?_⟩)
      · -- the device is there, so `fd` is set exactly if the sockets come up
        have hret : (scommVendorUsbsdioOpen (r idx).device (vnd idx)).ret ≠ -1 := by
          rw [scommVendorUsbsdioOpen, openDevice, hdev]
          show fdOf (some d) ≠ -1
          exact fdOf_eq_neg_one.not.mpr (Option.some_ne_none d)
        have hsoc : (openPort idx (r idx) (vnd idx)).ret ≠ -1 ↔
            (r idx).socket.succeeds idx = true := by
          constructor
          · intro h
            by_contra hfail
            exact h (socketOpen_fails idx _ _ (by simpa using hfail)).2.2
          · exact fun h => (socketOpen_succeeds idx _ _ h).2.2.2
        rw [openLoop, if_neg hvalid]
        dsimp only
        rw [if_pos hret]
        simp only [← hsoc]
        rfl
      · simp [devicesOpened, stopsAt, hvalid', hdev]

/-- Ports that are not gone through are not touched. -/
theorem openLoop_scommVnd_of_not_mem (h : p ∉ ports) : (openLoop r ports vnd fd).scommVnd p = vnd p := by
  induction ports generalizing vnd fd with
  | nil => rfl
  | cons idx ports ih =>
    obtain ⟨hne, hports⟩ := not_or.mp (List.mem_cons.not.mp h)
    obtain ⟨-, hl, -⟩ | ⟨-, hl, -⟩ | ⟨l, -, rfl, hl, -⟩ := openLoop_cons_cases r idx ports vnd fd
    · rw [hl, ih hports]
    · rw [hl]
      exact Function.update_of_ne hne ..
    · rw [hl]
      exact (ih hports).trans (Function.update_of_ne hne ..)

/-- A port whose device the loop gets is opened; of the others, one may have lost its `fd`. -/
theorem openLoop_scommVnd (hnodup : ports.Nodup) (p : Port) :
    (p ∈ devicesOpened r vnd ports →
      (openLoop r ports vnd fd).scommVnd p = (openPort p (r p) (vnd p)).vnd) ∧
    (p ∉ devicesOpened r vnd ports → (openLoop r ports vnd fd).scommVnd p = vnd p ∨
      (openLoop r ports vnd fd).scommVnd p = { vnd p with fd := -1 }) := by
  induction ports generalizing vnd fd with
  | nil => exact ⟨nofun, fun _ => .inl rfl⟩
  | cons idx ports ih =>
    obtain ⟨hidx, hnodup⟩ := List.nodup_cons.mp hnodup
    obtain ⟨-, hl, hopened⟩ | ⟨-, hl, hopened⟩ | ⟨l, -, rfl, hl, hopened⟩ :=
      openLoop_cons_cases r idx ports vnd fd
    · rw [hl, hopened]
      exact ih hnodup
    · rw [hl, hopened]
      refine ⟨nofun, fun _ => ?_⟩
      by_cases hp : p = idx
      · subst hp
        exact .inr (Function.update_self ..)
      · exact .inl (Function.update_of_ne hp ..)
    · rw [hl, hopened]
      by_cases hp : p = idx
      · subst hp
        refine ⟨fun _ => ?_, fun h => absurd List.mem_cons_self h⟩
        exact (openLoop_scommVnd_of_not_mem hidx).trans (Function.update_self ..)
      · have hih := @ih (Function.update vnd idx (openPort idx (r idx) (vnd idx)).vnd)
          (if (r idx).socket.succeeds idx = true ∧ fd = -1 then
            (openPort idx (r idx) (vnd idx)).ret else fd) hnodup
        rw [devicesOpened_update hidx, Function.update_of_ne hp] at hih
        rw [List.mem_cons, or_iff_right hp]
        exact hih

/-- `idx` is the port that ends the loop, if there is one. -/
theorem openLoop_idx (hnodup : ports.Nodup) : (openLoop r ports vnd fd).idx =
    (ports.find? (stopsAt r vnd)).elim btComPortSize fun p => p := by
  induction ports generalizing vnd fd with
  | nil => rfl
  | cons idx ports ih =>
    obtain ⟨hidx, hnodup⟩ := List.nodup_cons.mp hnodup
    obtain ⟨hvalid, hl, -⟩ | ⟨hstops, hl, -⟩ | ⟨l, hstops, rfl, hl, -⟩ :=
      openLoop_cons_cases r idx ports vnd fd
    · have hstops : stopsAt r vnd idx = false := by rw [stopsAt, hvalid, Bool.false_and]
      rw [hl, ih hnodup, List.find?_cons, hstops]
    · rw [hl, List.find?_cons, hstops]
      rfl
    · have hfind : ports.find? (stopsAt r (Function.update vnd idx
          (openPort idx (r idx) (vnd idx)).vnd)) = ports.find? (stopsAt r vnd) := by
        refine List.find?_congr fun q hq => ?_
        have hne : q ≠ idx := fun h => hidx (h ▸ hq)
        rw [stopsAt, stopsAt, Function.update_of_ne hne]
      rw [hl, List.find?_cons, hstops]
      exact (ih hnodup).trans (by rw [hfind])

theorem eq_ite_neg_one (fd : ℤ) : fd = if fd = -1 then -1 else fd := by
  split
  · assumption
  · rfl

/-- `fd` is what the first port to come up returns, if it was not set before. -/
theorem openLoop_fd (hnodup : ports.Nodup) : (openLoop r ports vnd fd).fd =
    if fd = -1 then
      ((devicesOpened r vnd ports).find? fun p => (r p).socket.succeeds p).elim (-1) fun p =>
        (openPort p (r p) (vnd p)).ret
    else fd := by
  induction ports generalizing vnd fd with
  | nil =>
    exact eq_ite_neg_one fd
  | cons idx ports ih =>
    obtain ⟨hidx, hnodup⟩ := List.nodup_cons.mp hnodup
    obtain ⟨-, hl, hopened⟩ | ⟨-, hl, hopened⟩ | ⟨l, -, rfl, hl, hopened⟩ :=
      openLoop_cons_cases r idx ports vnd fd
    · rw [hl, hopened, ih hnodup]
    · rw [hl, hopened]
      exact eq_ite_neg_one fd
    · -- later ports are opened as if this one had not been: each has its own entry
      have hret : ∀ p, p ∈ devicesOpened r vnd ports →
          (openPort p (r p) (Function.update vnd idx (openPort idx (r idx) (vnd idx)).vnd p)).ret =
            (openPort p (r p) (vnd p)).ret := by
        intro p hp
        have hne : p ≠ idx := fun h => hidx (h ▸ devicesOpened_subset hp)
        rw [Function.update_of_ne hne]
      rw [hl, hopened]
      refine (ih hnodup).trans ?_
      rw [devicesOpened_update hidx, List.find?_cons]
      rcases hup : (r idx).socket.succeeds idx with - | -
      · simp only [Bool.false_eq_true, false_and, if_false]
        split
        · rcases hfind : (devicesOpened r vnd ports).find? fun p => (r p).socket.succeeds p with - | p
          · rfl
          · exact hret p (List.mem_of_find?_eq_some hfind)
        · rfl
      · by_cases hfd : fd = -1
        · simp only [hfd, true_and, if_true, Option.elim_some]
          exact if_neg (socketOpen_succeeds idx _ _ hup).2.2.2
        · simp only [hfd, and_false, if_false]

/-- The events of the loop are those of the ports whose devices it gets. -/
theorem openLoop_events (hnodup : ports.Nodup) :
    (openLoop r ports vnd fd).events = (devicesOpened r vnd ports).flatMap fun p =>
      (openPort p (r p) (vnd p)).events.map (.map (.port p)) := by
  induction ports generalizing vnd fd with
  | nil => rfl
  | cons idx ports ih =>
    obtain ⟨hidx, hnodup⟩ := List.nodup_cons.mp hnodup
    obtain ⟨-, hl, hopened⟩ | ⟨-, hl, hopened⟩ | ⟨l, -, rfl, hl, hopened⟩ :=
      openLoop_cons_cases r idx ports vnd fd
    · rw [hl, hopened, ih hnodup]
    · rw [hl, hopened]
      rfl
    · rw [hl, hopened, List.flatMap_cons]
      show _ ++ (openLoop r ports _ _).events = _
      rw [ih hnodup, devicesOpened_update hidx]
      refine congrArg _ (List.flatMap_congr fun p hp => ?_)
      have hne : p ≠ idx := fun h => hidx (h ▸ devicesOpened_subset hp)
      rw [Function.update_of_ne hne]

end Loop

/-! ## The operation -/

/-- OPEN needs `/dev/BTBOOT`. -/
def VendorState.UsesBoot (s : VendorState) : Prop :=
  s.skwbtTranstype &&& skwbtTransTypeUart ≠ 0 → s.skwbtuartonly = false

/-- OPEN opens `/dev/BTDATA`, once it has `/dev/BTBOOT`. -/
def VendorState.UsesBtdata (s : VendorState) : Prop :=
  s.skwbtTranstype &&& skwbtTransTypeUart ≠ 0 ∧ s.skwbtuartonly = false

instance (s : VendorState) : Decidable s.UsesBoot := by unfold VendorState.UsesBoot; infer_instance

instance (s : VendorState) : Decidable s.UsesBtdata := by
  unfold VendorState.UsesBtdata; infer_instance

/-- The ports whose devices OPEN gets. -/
def VendorState.portsOpened (s : VendorState) (r : OpenResults) : List Port :=
  if s.UsesBoot ∧ r.boot = none then []
  else if s.skwbtTranstype &&& skwbtTransTypeUart ≠ 0 then
    if (r.port 0).device = none then [] else [0]
  else devicesOpened r.port s.scommVnd (List.finRange btComPortSize)

variable (r : OpenResults) (s : VendorState)

/-- The ways through OPEN. -/
theorem opUserialOpen_cases :
    (s.UsesBoot ∧ r.boot = none ∧
      opUserialOpen r s = ⟨{ s with btbootFp := -1 }, 0, none, []⟩ ∧ s.portsOpened r = []) ∨
    (s.skwbtTranstype &&& skwbtTransTypeUart ≠ 0 ∧ (s.UsesBoot → r.boot ≠ none) ∧
      opUserialOpen r s = (openUart r { s with
        btbootFp := if s.UsesBoot then fdOf r.boot else s.btbootFp
        btpwFp := if s.UsesBoot then fdOf r.btdata else s.btpwFp }).after
          (if s.UsesBoot then acquiredBy .btbootFp r.boot ++ acquiredBy .btpwFp r.btdata else []) ∧
      s.portsOpened r = if (r.port 0).device = none then [] else [0]) ∨
    (s.skwbtTranstype &&& skwbtTransTypeUart = 0 ∧ r.boot ≠ none ∧
      opUserialOpen r s =
        (openUsbsdio r { s with btbootFp := fdOf r.boot }).after (acquiredBy .btbootFp r.boot) ∧
      s.portsOpened r = devicesOpened r.port s.scommVnd (List.finRange btComPortSize)) := by
  have hneg : fdOf r.boot < 0 ↔ r.boot = none := fdOf_neg
  by_cases huart : s.skwbtTranstype &&& skwbtTransTypeUart = 0
  · have huses : s.UsesBoot := fun h => absurd huart h
    -- without a UART the boot device is needed, whatever the configuration
    by_cases hboot : r.boot = none
    · refine .inl ⟨huses, hboot, ?_, by rw [VendorState.portsOpened, if_pos ⟨huses, hboot⟩]⟩
      simp [opUserialOpen, huart, hboot, fdOf, acquiredBy]
    · refine .inr (.inr ⟨huart, hboot, ?_, ?_⟩)
      · simp only [opUserialOpen, huart, ne_eq, not_true_eq_false, if_false, hneg, hboot]
      · rw [VendorState.portsOpened, if_neg fun h => hboot h.2, if_neg fun h => h huart]
  · by_cases honly : s.skwbtuartonly = false
    · have huses : s.UsesBoot := fun _ => honly
      -- a UART needs it unless the configuration says UART only
      by_cases hboot : r.boot = none
      · refine .inl ⟨huses, hboot, ?_, by rw [VendorState.portsOpened, if_pos ⟨huses, hboot⟩]⟩
        simp [opUserialOpen, huart, honly, hboot, fdOf, acquiredBy]
      · refine .inr (.inl ⟨huart, fun _ => hboot, ?_, ?_⟩)
        · simp only [opUserialOpen, huart, ne_eq, not_false_eq_true, if_true, honly, hneg, hboot,
            if_false, huses]
        · rw [VendorState.portsOpened, if_neg fun h => hboot h.2, if_pos huart]
    · have huses : ¬ s.UsesBoot := fun h => honly (h huart)
      refine .inr (.inl ⟨huart, fun h => absurd h huses, ?_, ?_⟩)
      · rw [opUserialOpen]
        dsimp only
        rw [if_pos huart, if_neg honly]
        simp only [huses, if_false]
        rfl
      · rw [VendorState.portsOpened, if_neg fun h => huses h.1, if_pos huart]

@[simp] theorem openReturn_state (fd : ℤ) (es : List FdEvent) : (openReturn s fd es).state = s := by
  rw [openReturn]
  split <;> rfl

@[simp] theorem openReturn_events (fd : ℤ) (es : List FdEvent) : (openReturn s fd es).events = es := by
  rw [openReturn]
  split <;> rfl

/-- The UART is port 0. -/
theorem openUart_eq : openUart r s =
    if (r.port 0).device = none then
      openReturn { s with scommVnd := Function.update s.scommVnd 0 { s.scommVnd 0 with fd := -1 } }
        (-1) []
    else
      openReturn
        { s with
          scommVnd := Function.update s.scommVnd 0 (openPort 0 (r.port 0) (s.scommVnd 0)).vnd }
        (openPort 0 (r.port 0) (s.scommVnd 0)).ret
        ((openPort 0 (r.port 0) (s.scommVnd 0)).events.map (.map (.port 0))) := by
  rcases hdev : (r.port 0).device with - | d
  · simp [openUart, scommVendorUartOpen, openDevice, hdev, fdOf, acquiredBy]
  · have hret : fdOf (some d) ≠ -1 := fdOf_eq_neg_one.not.mpr (Option.some_ne_none d)
    simp [openUart, scommVendorUartOpen, openPort, openDevice, hdev, hret]

theorem openUart_scommVnd (p : Port) :
    (p ∈ (if (r.port 0).device = none then [] else [0] : List Port) →
      (openUart r s).state.scommVnd p = (openPort p (r.port p) (s.scommVnd p)).vnd) ∧
    (p ∉ (if (r.port 0).device = none then [] else [0] : List Port) →
      (openUart r s).state.scommVnd p = s.scommVnd p ∨
        (openUart r s).state.scommVnd p = { s.scommVnd p with fd := -1 }) := by
  rw [openUart_eq]
  split
  · refine ⟨nofun, fun _ => ?_⟩
    rw [openReturn_state]
    by_cases hp : p = 0
    · subst hp
      exact .inr (Function.update_self 0 _ s.scommVnd)
    · exact .inl (Function.update_of_ne hp _ s.scommVnd)
  · rw [openReturn_state]
    refine ⟨fun hp => ?_, fun hp => .inl ?_⟩
    · obtain rfl := List.mem_singleton.mp hp
      exact Function.update_self 0 _ s.scommVnd
    · exact Function.update_of_ne (List.mem_singleton.not.mp hp) _ s.scommVnd

/-- **What OPEN leaves of the ports**: those whose devices it gets are opened, and of the others one
may have lost its `fd`. -/
theorem opUserialOpen_scommVnd (p : Port) :
    (p ∈ s.portsOpened r → (opUserialOpen r s).state.scommVnd p =
      (openPort p (r.port p) (s.scommVnd p)).vnd) ∧
    (p ∉ s.portsOpened r → (opUserialOpen r s).state.scommVnd p = s.scommVnd p ∨
      (opUserialOpen r s).state.scommVnd p = { s.scommVnd p with fd := -1 }) := by
  obtain ⟨-, -, ho, hports⟩ | ⟨-, -, ho, hports⟩ | ⟨-, -, ho, hports⟩ := opUserialOpen_cases r s
  · rw [ho, hports]
    exact ⟨nofun, fun _ => .inl rfl⟩
  · rw [ho, hports]
    exact openUart_scommVnd r _ p
  · rw [ho, hports, OpReturn.after, openUsbsdio, openReturn_state]
    exact openLoop_scommVnd (List.nodup_finRange _) p

theorem nodup_portsOpened : (s.portsOpened r).Nodup := by
  obtain ⟨-, -, -, hports⟩ | ⟨-, -, -, hports⟩ | ⟨-, -, -, hports⟩ := opUserialOpen_cases r s
  · exact hports ▸ List.nodup_nil
  · rw [hports]
    split
    · exact List.nodup_nil
    · exact List.nodup_singleton 0
  · rw [hports]
    exact ((List.nodup_finRange _).sublist (List.takeWhile_sublist _)).filter _

/-- What OPEN does before it comes to the ports. -/
def VendorState.bootEvents : List FdEvent :=
  (if s.UsesBoot then acquiredBy .btbootFp r.boot else []) ++
    if s.UsesBtdata ∧ r.boot ≠ none then acquiredBy .btpwFp r.btdata else []

/-- **What OPEN does with descriptors.** -/
theorem opUserialOpen_events : (opUserialOpen r s).events = s.bootEvents r ++
    (s.portsOpened r).flatMap fun p =>
      (openPort p (r.port p) (s.scommVnd p)).events.map (.map (.port p)) := by
  obtain ⟨huses, hboot, ho, hports⟩ | ⟨huart, hboot, ho, hports⟩ | ⟨huart, hboot, ho, hports⟩ :=
    opUserialOpen_cases r s
  · rw [ho, hports, VendorState.bootEvents, if_pos huses, if_neg fun h => h.2 hboot, hboot]
    rfl
  · have hbtdata : s.UsesBtdata ∧ r.boot ≠ none ↔ s.UsesBoot :=
      ⟨fun h _ => h.1.2, fun h => ⟨⟨huart, h huart⟩, hboot h⟩⟩
    rw [ho, hports, OpReturn.after, openUart_eq, VendorState.bootEvents]
    simp only [hbtdata]
    congr 1
    · split <;> rfl
    · split <;> simp
  · have huses : s.UsesBoot := fun h => absurd huart h
    have hbtdata : ¬ (s.UsesBtdata ∧ r.boot ≠ none) := fun h => h.1.1 huart
    rw [ho, hports, OpReturn.after, openUsbsdio, openReturn_events,
      openLoop_events (List.nodup_finRange _), VendorState.bootEvents, if_pos huses, if_neg hbtdata,
      List.append_nil]

/-- The descriptors of `/dev/BTBOOT` and `/dev/BTDATA` after OPEN. -/
theorem opUserialOpen_boot :
    (opUserialOpen r s).state.btbootFp = (if s.UsesBoot then fdOf r.boot else s.btbootFp) ∧
      (opUserialOpen r s).state.btpwFp =
        if s.UsesBtdata ∧ r.boot ≠ none then fdOf r.btdata else s.btpwFp := by
  obtain ⟨huses, hboot, ho, -⟩ | ⟨huart, hboot, ho, -⟩ | ⟨huart, hboot, ho, -⟩ :=
    opUserialOpen_cases r s
  · rw [ho, if_pos huses, if_neg fun h => h.2 hboot, hboot]
    exact ⟨rfl, rfl⟩
  · have hbtdata : s.UsesBtdata ∧ r.boot ≠ none ↔ s.UsesBoot :=
      ⟨fun h _ => h.1.2, fun h => ⟨⟨huart, h huart⟩, hboot h⟩⟩
    rw [ho, OpReturn.after, openUart_eq]
    simp only [hbtdata]
    split <;> rw [openReturn_state] <;> exact ⟨rfl, rfl⟩
  · have huses : s.UsesBoot := fun h => absurd huart h
    have hbtdata : ¬ (s.UsesBtdata ∧ r.boot ≠ none) := fun h => h.1.1 huart
    rw [ho, OpReturn.after, openUsbsdio, openReturn_state, if_pos huses, if_neg hbtdata]
    exact ⟨rfl, rfl⟩

/-- OPEN has got the device of such a port. -/
theorem device_of_mem_portsOpened {p : Port} (hp : p ∈ s.portsOpened r) :
    (r.port p).device ≠ none := by
  obtain ⟨-, -, -, hports⟩ | ⟨-, -, -, hports⟩ | ⟨-, -, -, hports⟩ := opUserialOpen_cases r s
  · rw [hports] at hp
    exact absurd hp nofun
  · rw [hports] at hp
    split at hp
    · exact absurd hp nofun
    · obtain rfl := List.mem_singleton.mp hp
      assumption
  · rw [hports, devicesOpened, List.mem_filter] at hp
    have hstops := List.mem_takeWhile_imp hp.1
    intro hnone
    simp [stopsAt, hp.2, hnone] at hstops

/-- The ports that come up. -/
def VendorState.portsUp : List Port :=
  (s.portsOpened r).filter fun p => (r.port p).socket.succeeds p

/-- OPEN returns what the first port to come up returns. -/
theorem opUserialOpen_return :
    ((opUserialOpen r s).retval = 1 ↔ s.portsUp r ≠ []) ∧
      ∀ p, (s.portsUp r).head? = some p →
        (opUserialOpen r s).fdArray = some (openPort p (r.port p) (s.scommVnd p)).ret := by
  -- what every way through OPEN ends in
  have hret : ∀ (s' : VendorState) (fd : ℤ) (es : List FdEvent),
      fd = (s.portsUp r).head?.elim (-1) (fun p => (openPort p (r.port p) (s.scommVnd p)).ret) →
      ((openReturn s' fd es).retval = 1 ↔ s.portsUp r ≠ []) ∧
        ∀ p, (s.portsUp r).head? = some p →
          (openReturn s' fd es).fdArray = some (openPort p (r.port p) (s.scommVnd p)).ret := by
    intro s' fd es hfd
    rcases hup : s.portsUp r with - | ⟨p, up⟩
    · rw [hup] at hfd
      obtain rfl : fd = -1 := hfd
      exact ⟨by simp [openReturn], nofun⟩
    · rw [hup] at hfd
      have hmem : p ∈ s.portsUp r := hup ▸ List.mem_cons_self
      have hne : fd ≠ -1 :=
        hfd ▸ (socketOpen_succeeds p _ _ (List.mem_filter.mp hmem).2).2.2.2
      rw [openReturn, if_pos hne, hfd]
      refine ⟨iff_of_true rfl (List.cons_ne_nil p up), fun q hq => ?_⟩
      obtain rfl := Option.some.inj hq
      rfl
  obtain ⟨-, -, ho, hports⟩ | ⟨-, -, ho, hports⟩ | ⟨-, -, ho, hports⟩ := opUserialOpen_cases r s
  · rw [ho, VendorState.portsUp, hports]
    exact ⟨by simp, nofun⟩
  · rw [ho, OpReturn.after, openUart_eq]
    split
    · next hdev => exact hret _ _ [] (by rw [VendorState.portsUp, hports, if_pos hdev]; rfl)
    · next hdev =>
      refine hret _ _ _ ?_
      rw [VendorState.portsUp, hports, if_neg hdev]
      rcases hup : (r.port 0).socket.succeeds 0 with - | -
      · rw [List.filter_cons, hup]
        exact (socketOpen_fails 0 _ _ hup).2.2
      · rw [List.filter_cons, hup]
        rfl
  · rw [ho, OpReturn.after, openUsbsdio]
    refine hret _ _ _ ?_
    rw [openLoop_fd (List.nodup_finRange _), if_pos rfl, VendorState.portsUp, hports,
      List.head?_filter]

/-- After an OPEN from closed ports, just the ports that come up have `driver_state` set. -/
theorem driverState_opUserialOpen (hclosed : ∀ p, (s.scommVnd p).driverState = false) (p : Port) :
    ((opUserialOpen r s).state.scommVnd p).driverState = true ↔ p ∈ s.portsUp r := by
  obtain ⟨hopened, hother⟩ := opUserialOpen_scommVnd r s p
  by_cases hp : p ∈ s.portsOpened r
  · rw [hopened hp, VendorState.portsUp, List.mem_filter, and_iff_right hp]
    rcases hup : (r.port p).socket.succeeds p with - | -
    · have hfails := (socketOpen_fails p _ (openDevice (r.port p).device (s.scommVnd p)).vnd hup).1
      rw [show (openPort p (r.port p) (s.scommVnd p)).vnd.driverState = _ from hfails]
      exact iff_of_false (by rw [openDevice, hclosed p]; decide) (by decide)
    · exact iff_of_true (socketOpen_succeeds p _ _ hup).1 rfl
  · refine iff_of_false ?_ fun hup => hp (List.mem_of_mem_filter hup)
    rcases hother hp with h | h
    · rw [h, hclosed p]
      decide
    · rw [h]
      exact (hclosed p).symm ▸ Bool.false_ne_true

/-! ## Transport bits -/

theorem or_and_distrib (a b c : UInt8) : (a ||| b) &&& c = (a &&& c) ||| (b &&& c) := by
  rw [← UInt8.toBitVec_inj]
  simp only [UInt8.toBitVec_and, UInt8.toBitVec_or, BitVec.and_or_distrib_right]

/-- A bit that is not set by `b` is not changed by it. -/
theorem or_and_of_disjoint {a b c : UInt8} (h : b &&& c = 0) : (a ||| b) &&& c = a &&& c := by
  rw [or_and_distrib, h, UInt8.or_zero]

theorem or_and_ne_zero {a b c : UInt8} (h : b &&& c ≠ 0) : (a ||| b) &&& c ≠ 0 := by
  rw [or_and_distrib]
  exact fun hzero => h (UInt8.or_eq_zero_iff.mp hzero).2

variable {r s}

/-- The UART bit stays. -/
theorem skwbtTranstype_of_uart (huart : s.skwbtTranstype &&& skwbtTransTypeUart ≠ 0) :
    (opUserialOpen r s).state.skwbtTranstype = s.skwbtTranstype := by
  obtain ⟨-, -, ho, -⟩ | ⟨-, -, ho, -⟩ | ⟨hnot, -⟩ := opUserialOpen_cases r s
  · rw [ho]
  · rw [ho, OpReturn.after, openUart_eq]
    split <;> rw [openReturn_state]
  · exact absurd hnot huart

/-- Otherwise OPEN adds a bit, by where its loop has ended. -/
theorem skwbtTranstype_of_boot (huart : s.skwbtTranstype &&& skwbtTransTypeUart = 0)
    (hboot : r.boot ≠ none) : (opUserialOpen r s).state.skwbtTranstype =
      s.skwbtTranstype ||| (if stopsAt r.port s.scommVnd 0 = true ∨
        stopsAt r.port s.scommVnd 1 = true then skwbtTransTypeUsb else skwbtTransTypeSdio) := by
  have hidx : ((List.finRange btComPortSize).find? (stopsAt r.port s.scommVnd)).elim btComPortSize
      (fun p => p) ≤ (btComPortAcl : ℕ) ↔
        stopsAt r.port s.scommVnd 0 = true ∨ stopsAt r.port s.scommVnd 1 = true := by
    have hports : List.finRange btComPortSize = [0, 1, 2, 3] := rfl
    rw [hports]
    rcases h₀ : stopsAt r.port s.scommVnd 0 with - | -
    · rcases h₁ : stopsAt r.port s.scommVnd 1 with - | -
      · rcases h₂ : stopsAt r.port s.scommVnd 2 with - | -
        · rcases h₃ : stopsAt r.port s.scommVnd 3 with - | - <;>
            simp +decide [h₀, h₁, h₂, h₃]
        · simp +decide [h₀, h₁, h₂]
      · simp +decide [h₀, h₁]
    · simp +decide [h₀]
  obtain ⟨-, hnone, -⟩ | ⟨hnot, -⟩ | ⟨-, -, ho, -⟩ := opUserialOpen_cases r s
  · exact absurd hnone hboot
  · exact absurd huart hnot
  · rw [ho, OpReturn.after, openUsbsdio, openReturn_state, openLoop_idx (List.nodup_finRange _)]
    simp only [hidx]

/-- OPEN does not touch the UART bit. -/
theorem uartBit_opUserialOpen : (opUserialOpen r s).state.skwbtTranstype &&& skwbtTransTypeUart =
    s.skwbtTranstype &&& skwbtTransTypeUart := by
  by_cases huart : s.skwbtTranstype &&& skwbtTransTypeUart = 0
  · by_cases hboot : r.boot = none
    · obtain ⟨-, -, ho, -⟩ | ⟨hnot, -⟩ | ⟨-, hsome, -⟩ := opUserialOpen_cases r s
      · rw [ho]
      · exact absurd huart hnot
      · exact absurd hboot hsome
    · rw [skwbtTranstype_of_boot huart hboot, or_and_of_disjoint (by split <;> decide)]
  · rw [skwbtTranstype_of_uart huart]

theorem usesBtdata_opUserialOpen : (opUserialOpen r s).state.UsesBtdata ↔ s.UsesBtdata := by
  have honly : (opUserialOpen r s).state.skwbtuartonly = s.skwbtuartonly := by
    obtain ⟨-, -, ho, -⟩ | ⟨-, -, ho, -⟩ | ⟨-, -, ho, -⟩ := opUserialOpen_cases r s
    · rw [ho]
    · rw [ho, OpReturn.after, openUart_eq]
      split <;> rw [openReturn_state]
    · rw [ho, OpReturn.after, openUsbsdio, openReturn_state]
  rw [VendorState.UsesBtdata, VendorState.UsesBtdata, honly, uartBit_opUserialOpen]

end Seekwave
