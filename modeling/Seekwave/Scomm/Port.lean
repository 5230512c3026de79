import Mathlib

/-!
# Ports and transports

The ports of `scom_vendor.h` and the transport bits of `bt_vendor_skw.h`.
-/

namespace Seekwave

/-- `BT_COM_PORT_SIZE`. -/
abbrev btComPortSize : ℕ := 4

instance : NeZero btComPortSize := ⟨Nat.succ_ne_zero 3⟩

abbrev Port := Fin btComPortSize

def btComPortCmdevt : Port := 0
def btComPortAcl : Port := 1
def btComPortAudio : Port := 2
def btComPortIso : Port := 3

def skwbtTransTypeH4 : UInt8 := 0x01
def skwbtTransTypeUart : UInt8 := 0x10
def skwbtTransTypeSdio : UInt8 := 0x20
def skwbtTransTypeUsb : UInt8 := 0x40

end Seekwave
