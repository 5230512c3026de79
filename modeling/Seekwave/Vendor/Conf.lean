import Seekwave.Scomm.Port

/-!
# The configuration file

What `load_skwbt_conf` and `load_skwbt_stack_conf` take from `skwbt.conf`: the device nodes of the ports,
whether port 0 is a UART, and `skwbtuartonly`. The file is given as the lines that `fgets` returns, each
up to its end of string. The functions as they work on the line buffer, and the settings of the log files,
are modelled further on.
-/

namespace Seekwave

/-- `DEVICE_NODE_MAX_LEN`. -/
def deviceNodeMaxLen : ℕ := 64

/-- The characters of a string literal. -/
def chars (s : String) : List UInt8 := s.toList.map fun c => c.toNat.toUInt8

/-- `isspace`, in the C locale. -/
def isspace (c : UInt8) : Bool := c = 0x20 || (0x09 ≤ c && c ≤ 0x0d)

/-- `trim`. -/
def trim (str : List UInt8) : List UInt8 :=
  ((str.dropWhile isspace).reverse.dropWhile isspace).reverse

/-- What both functions make of a line. -/
inductive ConfLine
  /-- a blank line, a comment or a section -/
  | skipped
  | noSeparator
  | entry (key value : List UInt8)
deriving DecidableEq, Repr

def confLine (line : List UInt8) : ConfLine :=
  let linePtr := trim line
  if linePtr = [] ∨ linePtr.head? = some 0x23 ∨ linePtr.head? = some 0x5b then .skipped
  else
    match linePtr.span (· ≠ 0x3d) with
    | (_, []) => .noSeparator
    | (key, _ :: split) => .entry (trim key) (trim split)

/-- `skwbt_device_node`, and whether the scan has come to the end of the file. -/
structure DeviceNodes where
  skwbtDeviceNode : Port → List UInt8
  complete : Bool

/-- The loop of `load_skwbt_conf`, from `port_index` on. It is `none` where a node is stored outside of
`skwbt_device_node`. -/
def scanDeviceNodes : List (List UInt8) → ℕ → (Port → List UInt8) → Option DeviceNodes
  | [], _, nodes => some ⟨nodes, true⟩
  | line :: lines, portIndex, nodes =>
    match confLine line with
    | .skipped => scanDeviceNodes lines portIndex nodes
    | .noSeparator => some ⟨nodes, false⟩
    | .entry key value =>
      if key = chars "BtDeviceNode" then
        if h : portIndex < btComPortSize ∧ value.length < deviceNodeMaxLen then
          scanDeviceNodes lines (portIndex + 1) (Function.update nodes ⟨portIndex, h.1⟩ value)
        else none
      else scanDeviceNodes lines portIndex nodes

/-- What `load_skwbt_conf` leaves: the names of the ports, and `skwbt_transtype` where it is assigned. -/
structure SkwbtConf where
  portName : Port → List UInt8
  transtype : Option UInt8

/-- `load_skwbt_conf`, for the lines of the file if it can be opened. A `?` before the first node makes
it a UART. -/
def loadSkwbtConf : Option (List (List UInt8)) → Option SkwbtConf
  | none => some ⟨fun _ => [], none⟩
  | some lines =>
    (scanDeviceNodes lines 0 fun _ => []).map fun scan =>
      let nodes := scan.skwbtDeviceNode
      if scan.complete = true then
        if (nodes btComPortCmdevt).head? = some 0x3f then
          ⟨Function.update nodes btComPortCmdevt (nodes btComPortCmdevt).tail,
            some (skwbtTransTypeH4 ||| skwbtTransTypeUart)⟩
        else ⟨nodes, some skwbtTransTypeH4⟩
      else ⟨nodes, none⟩

/-- `skwbtuartonly` after `load_skwbt_stack_conf`. -/
def loadSkwbtuartonly (file : Option (List (List UInt8))) (skwbtuartonly : Bool) : Bool :=
  (file.getD []).foldl
    (fun uartonly line =>
      if confLine line = .entry (chars "SkwBtUartOnly") (chars "false") then false else uartonly)
    skwbtuartonly

/-- The UART and the SDIO transport exclude each other. -/
def TranstypeOk (transtype : UInt8) : Prop :=
  transtype &&& skwbtTransTypeUart ≠ 0 → transtype &&& skwbtTransTypeSdio = 0

/-- Whatever the file, the transport it sets is not SDIO. -/
theorem transtypeOk_of_loadSkwbtConf {file : Option (List (List UInt8))} {conf : SkwbtConf}
    {transtype : UInt8} (hconf : loadSkwbtConf file = some conf)
    (htype : conf.transtype = some transtype) : transtype &&& skwbtTransTypeSdio = 0 := by
  cases file with
  | none =>
    obtain rfl := Option.some.inj hconf
    exact absurd htype nofun
  | some lines =>
    obtain ⟨scan, -, rfl⟩ := Option.map_eq_some_iff.mp hconf
    dsimp only at htype
    split at htype
    · split at htype <;> obtain rfl := Option.some.inj htype <;> decide
    · exact absurd htype nofun

/-- The configuration of a device whose port 0 alone has a node. -/
example : (loadSkwbtConf (some [chars "# nodes\n", chars "BtDeviceNode = /dev/BTCMD\n"])).map
    (fun conf => (conf.portName 0, conf.portName 1, conf.transtype)) =
      some (chars "/dev/BTCMD", [], some 1) := by
  decide

end Seekwave
