import Seekwave.Lib.Slots
import Seekwave.Vendor.Conf

/-!
# Opening and closing the ports

`init`, `cleanup` and the operations OPEN and CLOSE of `bt_vendor_skw.c`, with the functions of
`scom_vendor.c` that they open and close the ports with. What the system calls return is given; a
descriptor is `-1` where it is not. Every call of `open`, `socketpair` and `epoll_create` that gives a
descriptor and every `close` is recorded as an event of the variable that holds the descriptor.

The identifiers of threads are left out: `recvThread` says whether the receive thread of a port runs. So
are the settings of the serial line and the pauses of `scomm_vendor_port_close`.
-/

namespace Seekwave

/-! ## Ports -/

/-- The descriptors of a port. -/
inductive PortSlot
  | fd
  | uartFd0
  | uartFd1
  | signalFd0
  | signalFd1
  | epollFd
deriving DecidableEq, Repr

/-- All descriptors. -/
inductive Slot
  | btbootFp
  | btpwFp
  | port (portIndex : Port) (k : PortSlot)
deriving DecidableEq, Repr

abbrev PortEvent := SlotEvent PortSlot ℤ

abbrev FdEvent := SlotEvent Slot ℤ

/-- `scomm_vnd_st`. -/
structure ScommVnd where
  fd : ℤ
  uartFd : ℤ × ℤ
  signalFd : ℤ × ℤ
  epollFd : ℤ
  portName : List UInt8
  threadRunning : Bool
  driverState : Bool
  recvThread : Bool
deriving DecidableEq, Repr

/-- What a call leaves of its port, what it returns, and what it does with descriptors. -/
structure PortCall where
  vnd : ScommVnd
  ret : ℤ
  events : List PortEvent

/-- What `open` returns. -/
def fdOf (r : Option ℕ) : ℤ := r.elim (-1) fun d => d

/-- An `open` into a variable. -/
def acquiredBy {κ : Type} (k : κ) (r : Option ℕ) : List (SlotEvent κ ℤ) :=
  r.elim [] fun d => [.acquired k d]

/-- A `close` that is guarded by `> 0`. -/
def closePositive {κ : Type} (k : κ) (fd : ℤ) : List (SlotEvent κ ℤ) :=
  if 0 < fd then [.released k fd] else []

/-- Opening the device of a port. -/
def openDevice (device : Option ℕ) (v : ScommVnd) : PortCall :=
  ⟨{ v with fd := fdOf device }, fdOf device, acquiredBy .fd device⟩

/-- `scomm_vendor_uart_open`. -/
def scommVendorUartOpen (device : Option ℕ) (v : ScommVnd) : PortCall := openDevice device v

/-- `scomm_vendor_usbsdio_open`. -/
def scommVendorUsbsdioOpen (device : Option ℕ) (v : ScommVnd) : PortCall := openDevice device v

/-- `scomm_vendor_check_port_valid`. -/
def scommVendorCheckPortValid (v : ScommVnd) : Bool := v.portName ≠ []

/-- What the system calls of one `scomm_vendor_socket_open` return, as far as it makes them. -/
structure SocketResults where
  uartFd : Option (ℕ × ℕ)
  signalFd : Option (ℕ × ℕ)
  epollFd : Option ℕ
  epollCtlUart : Bool
  epollCtlSignal : Bool
  socketThread : Bool
  recvThread : Bool
deriving DecidableEq, Repr

/-- The socket thread, which port 0 alone has, is there or not needed. -/
def SocketResults.socketReady (portIndex : Port) (r : SocketResults) : Bool :=
  portIndex ≠ 0 || (r.epollCtlUart && r.epollCtlSignal && r.socketThread)

/-- The rest of `scomm_vendor_socket_open`, once `epoll_create` has returned. -/
def startThreads (portIndex : Port) (r : SocketResults) (v : ScommVnd) : PortCall :=
  if r.socketReady portIndex = false then
    ⟨{ v with epollFd := -1, threadRunning := false }, -1, [.released .epollFd v.epollFd]⟩
  else if r.recvThread = false then
    -- `epoll_fd` is closed and keeps its value
    ⟨{ v with threadRunning := false }, -1, [.released .epollFd v.epollFd]⟩
  else ⟨{ v with driverState := true, recvThread := true }, v.uartFd.1, []⟩

/-- `scomm_vendor_socket_open`. -/
def scommVendorSocketOpen (portIndex : Port) (r : SocketResults) (v : ScommVnd) : PortCall :=
  match r.uartFd with
  | none => ⟨v, -1, []⟩
  | some (u₀, u₁) =>
    let v₁ := { v with uartFd := (↑u₀, ↑u₁) }
    let es₁ := [.acquired .uartFd0 u₀, .acquired .uartFd1 u₁]
    match r.signalFd with
    | none => ⟨v₁, -1, es₁⟩
    | some (s₀, s₁) =>
      let v₂ := { v₁ with signalFd := (↑s₀, ↑s₁) }
      let es₂ := es₁ ++ [.acquired .signalFd0 s₀, .acquired .signalFd1 s₁]
      match r.epollFd with
      | none => ⟨{ v₂ with epollFd := -1 }, -1, es₂⟩
      | some e =>
        let call := startThreads portIndex r { v₂ with epollFd := e, threadRunning := true }
        { call with events := es₂ ++ .acquired .epollFd ↑e :: call.events }

/-- `scomm_vendor_socket_close`. -/
def scommVendorSocketClose (v : ScommVnd) : ScommVnd × List PortEvent :=
  ({ v with epollFd := -1, uartFd := (-1, -1), signalFd := (-1, -1) },
    closePositive .uartFd0 v.uartFd.1 ++ closePositive .uartFd1 v.uartFd.2 ++
      closePositive .epollFd v.epollFd ++ closePositive .signalFd0 v.signalFd.1 ++
      closePositive .signalFd1 v.signalFd.2)

/-- The receive thread takes its exit for `POLLERR` or `POLLHUP`. -/
def hangUpPort (v : ScommVnd) : ScommVnd × List PortEvent :=
  ({ v with driverState := false, recvThread := false }, [.released .fd v.fd])

/-- `scomm_vendor_port_close`. With `hangsUp` the receive thread takes that exit before it is joined. -/
def scommVendorPortClose (hangsUp : Bool) (v : ScommVnd) : ScommVnd × List PortEvent :=
  if v.fd = -1 then (v, [])
  else
    let v' := { v with threadRunning := false, driverState := false }
    let joined := if v.recvThread = true ∧ hangsUp = true then hangUpPort v' else (v', [])
    let closed := scommVendorSocketClose { joined.1 with recvThread := false }
    ({ closed.1 with fd := -1 }, closePositive .fd v.fd ++ joined.2 ++ closed.2)

/-! ## The vendor library -/

/-- The globals of the library. -/
structure VendorState where
  scommVnd : Port → ScommVnd
  skwbtTranstype : UInt8
  skwbtuartonly : Bool
  btbootFp : ℤ
  btpwFp : ℤ

/-- The globals of a program that starts. -/
def VendorState.initial : VendorState where
  scommVnd _ := ⟨0, (0, 0), (0, 0), 0, [], false, false, false⟩
  skwbtTranstype := 0
  skwbtuartonly := true
  btbootFp := -1
  btpwFp := -1

/-- `scomm_vendor_init`, for one port. -/
def scommVendorInit : ScommVnd := ⟨-1, (0, 0), (0, 0), 0, [], false, false, false⟩

/-- `init` with callbacks, and the lines of the configuration file. -/
def vendorInit (file : Option (List (List UInt8))) (s : VendorState) : Option VendorState :=
  (loadSkwbtConf file).map fun conf =>
    { s with
      scommVnd := fun p => { scommVendorInit with portName := conf.portName p }
      skwbtTranstype := conf.transtype.getD s.skwbtTranstype
      skwbtuartonly := loadSkwbtuartonly file s.skwbtuartonly }

/-- `cleanup`. -/
def vendorCleanup (s : VendorState) : VendorState := { s with skwbtTranstype := 0 }

/-- What the system calls for one port return. -/
structure PortResults where
  device : Option ℕ
  socket : SocketResults
deriving DecidableEq, Repr

/-- What the system calls of one OPEN return, as far as it makes them. -/
structure OpenResults where
  boot : Option ℕ
  btdata : Option ℕ
  port : Port → PortResults

/-- What an operation leaves. `fdArray` is what all entries of `fd_array` are set to. -/
structure OpReturn where
  state : VendorState
  retval : ℤ
  fdArray : Option ℤ
  events : List FdEvent

/-- What was done before. -/
def OpReturn.after (es : List FdEvent) (o : OpReturn) : OpReturn :=
  { o with events := es ++ o.events }

/-- Where the loop over the ports leaves `scomm_vnd`, `fd` and `idx`. -/
structure OpenLoop where
  scommVnd : Port → ScommVnd
  fd : ℤ
  idx : ℕ
  events : List FdEvent

/-- The loop of OPEN, over the ports that are left. -/
def openLoop (r : Port → PortResults) : List Port → (Port → ScommVnd) → ℤ → OpenLoop
  | [], vnd, fd => ⟨vnd, fd, btComPortSize, []⟩
  | idx :: ports, vnd, fd =>
    if scommVendorCheckPortValid (vnd idx) = false then openLoop r ports vnd fd
    else
      let dev := scommVendorUsbsdioOpen (r idx).device (vnd idx)
      if dev.ret ≠ -1 then
        let soc := scommVendorSocketOpen idx (r idx).socket dev.vnd
        let l := openLoop r ports (Function.update vnd idx soc.vnd)
          (if soc.ret ≠ -1 ∧ fd = -1 then soc.ret else fd)
        { l with events := (dev.events ++ soc.events).map (.map (.port idx)) ++ l.events }
      else ⟨Function.update vnd idx dev.vnd, fd, idx, dev.events.map (.map (.port idx))⟩

/-- The end of OPEN. -/
def openReturn (s : VendorState) (fd : ℤ) (es : List FdEvent) : OpReturn :=
  if fd ≠ -1 then ⟨s, 1, some fd, es⟩ else ⟨s, 0, none, es⟩

/-- OPEN of the UART, once `/dev/BTBOOT` is open or not needed. -/
def openUart (r : OpenResults) (s : VendorState) : OpReturn :=
  let dev := scommVendorUartOpen (r.port 0).device (s.scommVnd 0)
  if dev.ret ≠ -1 then
    let soc := scommVendorSocketOpen 0 (r.port 0).socket dev.vnd
    openReturn { s with scommVnd := Function.update s.scommVnd 0 soc.vnd } soc.ret
      ((dev.events ++ soc.events).map (.map (.port 0)))
  else
    openReturn { s with scommVnd := Function.update s.scommVnd 0 dev.vnd } (-1)
      (dev.events.map (.map (.port 0)))

/-- OPEN of the USB or SDIO ports, once `/dev/BTBOOT` is open. -/
def openUsbsdio (r : OpenResults) (s : VendorState) : OpReturn :=
  let l := openLoop r.port (List.finRange btComPortSize) s.scommVnd (-1)
  let transtype := if l.idx ≤ btComPortAcl then skwbtTransTypeUsb else skwbtTransTypeSdio
  openReturn { s with scommVnd := l.scommVnd, skwbtTranstype := s.skwbtTranstype ||| transtype } l.fd
    l.events

/-- `op` for `BT_VND_OP_USERIAL_OPEN`. -/
def opUserialOpen (r : OpenResults) (s : VendorState) : OpReturn :=
  let booted := { s with btbootFp := fdOf r.boot }
  if s.skwbtTranstype &&& skwbtTransTypeUart ≠ 0 then
    if s.skwbtuartonly = false then
      if booted.btbootFp < 0 then ⟨booted, 0, none, acquiredBy .btbootFp r.boot⟩
      else
        (openUart r { booted with btpwFp := fdOf r.btdata }).after
          (acquiredBy .btbootFp r.boot ++ acquiredBy .btpwFp r.btdata)
    else openUart r s
  else if booted.btbootFp < 0 then ⟨booted, 0, none, acquiredBy .btbootFp r.boot⟩
  else (openUsbsdio r booted).after (acquiredBy .btbootFp r.boot)

/-- `scomm_vendor_close`. -/
def scommVendorClose (hangsUp : Port → Bool) (s : VendorState) : VendorState × List FdEvent :=
  ({ s with scommVnd := fun p => (scommVendorPortClose (hangsUp p) (s.scommVnd p)).1 },
    ((List.finRange btComPortSize).flatMap fun p =>
      (scommVendorPortClose (hangsUp p) (s.scommVnd p)).2.map (.map (.port p))) ++
      closePositive .btpwFp s.btpwFp)

/-- `op` for `BT_VND_OP_USERIAL_CLOSE`. -/
def opUserialClose (hangsUp : Port → Bool) (s : VendorState) : VendorState × List FdEvent :=
  let s' := { s with btbootFp := if 0 < s.btbootFp then -1 else s.btbootFp }
  ((scommVendorClose hangsUp s').1,
    closePositive .btbootFp s.btbootFp ++ (scommVendorClose hangsUp s').2)

/-- The receive thread of a port hangs up. -/
def hangUp (p : Port) (s : VendorState) : VendorState × List FdEvent :=
  ({ s with scommVnd := Function.update s.scommVnd p (hangUpPort (s.scommVnd p)).1 },
    (hangUpPort (s.scommVnd p)).2.map (.map (.port p)))

/-- The library, and what the system calls of OPEN have returned if it is not closed since. -/
structure Vendor where
  state : VendorState
  session : Option OpenResults

end Seekwave
