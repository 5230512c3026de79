import Mathlib

/-!
# Pairs of connected stream sockets

What is written to one end of a pair is read at the other: `inbox e` are the bytes that have arrived at
end `e` and have not been read there, and a write to end `e` adds to the inbox of its peer.
-/

instance SocketEnd.neZero : NeZero 2 := ⟨Nat.succ_ne_zero 1⟩

/-- The two ends of a pair made by `socketpair`, indexed as the array it fills. -/
abbrev SocketEnd := Fin 2

/-- The end a write to `e` is read at. -/
def SocketEnd.peer (e : SocketEnd) : SocketEnd := e + 1

theorem SocketEnd.peer_ne (e : SocketEnd) : e.peer ≠ e := by
  revert e
  decide

/-- A connected pair. -/
structure SocketPair where
  inbox : SocketEnd → List UInt8

namespace SocketPair

/-- A fresh pair. -/
def empty : SocketPair := ⟨fun _ => []⟩

variable (p : SocketPair) (e : SocketEnd) (bs : List UInt8)

/-- `write()` to end `e`. -/
def write : SocketPair := ⟨Function.update p.inbox e.peer (p.inbox e.peer ++ bs)⟩

/-- What `poll()` says of end `e`. -/
def readable : Bool := !(p.inbox e).isEmpty

@[simp] theorem readable_empty : empty.readable e = false := rfl

/-- A write leaves the end it is made to as it was. -/
@[simp] theorem readable_write_self : (p.write e bs).readable e = p.readable e := by
  rw [readable, readable, write]
  simp only [Function.update_of_ne e.peer_ne.symm]

/-- What is written can be read at the other end. -/
theorem readable_write_peer (h : bs ≠ []) : (p.write e bs).readable e.peer = true := by
  rw [readable, write]
  simp [h]

end SocketPair
