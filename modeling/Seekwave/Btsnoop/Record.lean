import Seekwave.Hci.Packet

/-!
# The record `skw_btsnoop_capture` makes of a packet

The length and flags that `skw_btsnoop_capture` computes from the packet bytes it is pointed at, and
the bytes it goes on to write.
-/

open Memory

namespace Seekwave

/-- What `skw_btsnoop_capture` records of one packet. -/
structure SnoopRecord where
  lengthHe : ℕ
  flags : ℕ
  bytes : List UInt8
deriving DecidableEq, Repr

/-- `length_he`, per packet type; `none` where `skw_btsnoop_capture` returns without a record. -/
def lengthHe (packet : List UInt8) : Option ℕ :=
  let type := byteAt packet 0
  if type = hciCommandPkt then some ((byteAt packet 3).toNat + 4)
  else if type = hciAcldataPkt ∨ type = hciIsoPkt then
    some ((byteAt packet 4).toNat * 256 + (byteAt packet 3).toNat + 5)
  else if type = hciScodataPkt then some ((byteAt packet 3).toNat + 4)
  else if type = hciEventPkt ∨ type = hciEventSkwlog then some ((byteAt packet 2).toNat + 3)
  else none

/-- `flags`, per packet type. -/
def snoopFlags (packet : List UInt8) (isReceived : Bool) : ℕ :=
  let type := byteAt packet 0
  if type = hciCommandPkt then 2
  else if type = hciEventPkt ∨ type = hciEventSkwlog then 3
  else isReceived.toNat

/-- The record of the packet at the front of `packet`, the memory the pointer argument leads to. -/
def skwBtsnoopCapture (packet : List UInt8) (isReceived : Bool) : Option SnoopRecord :=
  (lengthHe packet).map fun n => ⟨n, snoopFlags packet isReceived, packet.take n⟩

/-- For a packet of a type that does not go to the controller log, `length_he` is what its header
announces, in exact arithmetic. -/
theorem lengthHe_eq {b : List UInt8} (hacc : recvAccepts (byteAt b 0))
    (hlog : byteAt b 0 ≠ hciEventSkwlog) : lengthHe b = some (hdrLens b + recvPayloadLen b) := by
  rcases hacc with h | h | h | h | h
  case inr.inr.inr.inl => exact absurd h hlog
  all_goals
    simp +decide only [lengthHe, hdrLens, recvPayloadLen, u16At, h, hciPreambleSizes_event,
      hciPreambleSizes_acldata, hciPreambleSizes_scodata, hciPreambleSizes_iso,
      hciCommonDataLengthIndex, hciEventDataLengthIndex, if_true, if_false, Option.some.injEq,
      Nat.reduceAdd]
    omega

/-- A received packet that does not go to the controller log is recorded with its exact bytes. -/
theorem skwBtsnoopCapture_append (p : H4Packet) (hlog : byteAt p.bytes 0 ≠ hciEventSkwlog)
    (c : List UInt8) (isReceived : Bool) :
    skwBtsnoopCapture (p.bytes ++ c) isReceived =
      some ⟨p.bytes.length, snoopFlags p.bytes isReceived, p.bytes⟩ := by
  have h0 : byteAt (p.bytes ++ c) 0 = byteAt p.bytes 0 := byteAt_append_left p.isFrame.length_pos
  have hlen : lengthHe (p.bytes ++ c) = some p.bytes.length := by
    rw [lengthHe_eq (p.accepted_append c) (by rw [h0]; exact hlog), p.hdrLens_append,
      recvPayloadLen_append p.accepted p.header, ← p.total]
  have hflags : snoopFlags (p.bytes ++ c) isReceived = snoopFlags p.bytes isReceived := by
    simp only [snoopFlags, h0]
  rw [skwBtsnoopCapture, hlen, hflags, Option.map_some, List.take_left]

end Seekwave
