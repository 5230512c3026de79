import Seekwave.Lib.Framing
import Seekwave.Lib.Memory

/-!
# H4 packets

Packet types and header layout of `skw_btsnoop.h` and `scom_vendor.h`, the length fields as the
receive thread of `scom_vendor.c` reads them, and the framing of the controller's byte stream that
they define.
-/

open Memory

namespace Seekwave

/-! ## Packet types and preambles -/

def hciCommandPkt : UInt8 := 0x01
def hciAcldataPkt : UInt8 := 0x02
def hciScodataPkt : UInt8 := 0x03
def hciEventPkt : UInt8 := 0x04
def hciIsoPkt : UInt8 := 0x05
def hciEventSkwlog : UInt8 := 0x07

def hciCommandPktPreambleSize : ℕ := 3
def hciAcldataPktPreambleSize : ℕ := 4
def hciScodataPktPreambleSize : ℕ := 3
def hciEventPktPreambleSize : ℕ := 2
def hciIsodataPktPreambleSize : ℕ := 4
def hciEventSkwlogPreambleSize : ℕ := 3

def hciCommonDataLengthIndex : ℕ := 3
def hciEventDataLengthIndex : ℕ := 2
def hciSkwlogDataLengthIndex : ℕ := 2

/-- The table `hci_preamble_sizes`, indexed by packet type. -/
def hciPreambleSizes (pktType : UInt8) : ℕ :=
  [0, hciCommandPktPreambleSize, hciAcldataPktPreambleSize, hciScodataPktPreambleSize,
    hciEventPktPreambleSize, hciIsodataPktPreambleSize, 0, hciEventSkwlogPreambleSize].getD
    pktType.toNat 0

@[simp] theorem hciPreambleSizes_command : hciPreambleSizes hciCommandPkt = 3 := rfl
@[simp] theorem hciPreambleSizes_acldata : hciPreambleSizes hciAcldataPkt = 4 := rfl
@[simp] theorem hciPreambleSizes_scodata : hciPreambleSizes hciScodataPkt = 3 := rfl
@[simp] theorem hciPreambleSizes_event : hciPreambleSizes hciEventPkt = 2 := rfl
@[simp] theorem hciPreambleSizes_iso : hciPreambleSizes hciIsoPkt = 4 := rfl
@[simp] theorem hciPreambleSizes_skwlog : hciPreambleSizes hciEventSkwlog = 3 := rfl

/-! ## Lengths as the receive thread reads them -/

/-- The packet types `scomm_vendor_recv_scomm_thread` parses. -/
def recvAccepts (pktType : UInt8) : Prop :=
  pktType = hciEventPkt ∨ pktType = hciAcldataPkt ∨ pktType = hciScodataPkt ∨
    pktType = hciEventSkwlog ∨ pktType = hciIsoPkt

instance (pktType : UInt8) : Decidable (recvAccepts pktType) := by
  unfold recvAccepts; infer_instance

/-- The size of type byte and preamble: `hdr_lens`. -/
def hdrLens (b : List UInt8) : ℕ := hciPreambleSizes (byteAt b 0) + 1

/-- The payload length in the header at the front of `b`, read by type. -/
def recvPayloadLen (b : List UInt8) : ℕ :=
  let pktType := byteAt b 0
  if pktType = hciAcldataPkt ∨ pktType = hciIsoPkt then u16At b hciCommonDataLengthIndex
  else if pktType = hciEventPkt then (byteAt b hciEventDataLengthIndex).toNat
  else if pktType = hciEventSkwlog then u16At b hciSkwlogDataLengthIndex
  else (byteAt b hciCommonDataLengthIndex).toNat

/-- `pkt_len` once `hdr_lens` has been added to it in `uint16_t`. -/
def pktLen (b : List UInt8) : ℕ := (recvPayloadLen b + hdrLens b) % 65536

/-- The length announced by the header at the front of `b`, in exact arithmetic: type byte, preamble
and declared payload. -/
def packetLen (b : List UInt8) : ℕ := hdrLens b + recvPayloadLen b

theorem hdrLens_pos (b : List UInt8) : 0 < hdrLens b := Nat.succ_pos _

/-- The header of an accepted packet ends behind its length field. -/
theorem recvPayloadLen_eq_of_agree {b c : List UInt8} (hacc : recvAccepts (byteAt b 0))
    (hbyte : ∀ i < hdrLens b, byteAt c i = byteAt b i) : recvPayloadLen c = recvPayloadLen b := by
  have h0 : byteAt c 0 = byteAt b 0 := hbyte 0 (hdrLens_pos b)
  rcases hacc with h | h | h | h | h
  all_goals
    simp only [hdrLens, h, hciPreambleSizes_event, hciPreambleSizes_acldata,
      hciPreambleSizes_scodata, hciPreambleSizes_skwlog, hciPreambleSizes_iso] at hbyte
    simp +decide [recvPayloadLen, h0, h, u16At, hbyte, hciCommonDataLengthIndex,
      hciEventDataLengthIndex, hciSkwlogDataLengthIndex]

/-- The header length depends on the type byte only. -/
theorem hdrLens_eq_of_byteAt_zero {b c : List UInt8} (h : byteAt c 0 = byteAt b 0) :
    hdrLens c = hdrLens b := by
  rw [hdrLens, hdrLens, h]

/-- Every accepted packet has at least its type byte and a two-byte preamble. -/
theorem three_le_hdrLens {b : List UInt8} (hacc : recvAccepts (byteAt b 0)) : 3 ≤ hdrLens b := by
  rcases hacc with h | h | h | h | h <;> rw [hdrLens, h] <;> decide

/-- Only an event can have a header of three bytes. -/
theorem eq_hciEventPkt_of_hdrLens {b : List UInt8} (hacc : recvAccepts (byteAt b 0))
    (h : hdrLens b ≤ 3) : byteAt b 0 = hciEventPkt := by
  rcases hacc with ht | ht | ht | ht | ht
  · exact ht
  all_goals
    rw [hdrLens, ht] at h
    exact absurd h (by decide)

/-! ## The framing of the controller's byte stream -/

/-- Bytes that agree with `b` on its whole header announce the same payload. -/
theorem recvPayloadLen_append {b : List UInt8} (hacc : recvAccepts (byteAt b 0))
    (hhdr : hdrLens b ≤ b.length) (c : List UInt8) :
    recvPayloadLen (b ++ c) = recvPayloadLen b :=
  recvPayloadLen_eq_of_agree hacc fun _ hi => byteAt_append_left (Nat.lt_of_lt_of_le hi hhdr)

/-- The H4 framing of the controller's byte stream: an accepted type byte, a preamble with a length
field, and as many payload bytes as it declares, in exact arithmetic. -/
def h4Framer : Framer UInt8 where
  frameLen b :=
    if recvAccepts (byteAt b 0) ∧ hdrLens b ≤ b.length then some (hdrLens b + recvPayloadLen b)
    else none
  stable := by
    intro b n c h
    have hpos := hdrLens_pos b
    split at h
    · next hb =>
      have h0 : byteAt (b ++ c) 0 = byteAt b 0 := byteAt_append_left (by omega)
      have hlen : hdrLens (b ++ c) = hdrLens b := hdrLens_eq_of_byteAt_zero h0
      rw [if_pos (by rw [h0, hlen, List.length_append]; exact ⟨hb.1, by omega⟩), hlen,
        recvPayloadLen_append hb.1 hb.2]
      exact h
    · exact absurd h (by simp)
  pos := by
    intro b n h
    have hpos := hdrLens_pos b
    split at h
    · obtain rfl := Option.some.inj h
      omega
    · exact absurd h (by simp)

/-- A well-formed packet from the controller: an accepted type, and exactly the bytes its header
announces, no more than the receive buffer holds. -/
structure H4Packet where
  bytes : List UInt8
  accepted : recvAccepts (byteAt bytes 0)
  header : hdrLens bytes ≤ bytes.length
  total : bytes.length = hdrLens bytes + recvPayloadLen bytes
  fits : bytes.length ≤ 2056

namespace H4Packet

variable (p : H4Packet)

theorem isFrame : h4Framer.IsFrame p.bytes := by
  show (if _ then _ else _) = _
  rw [if_pos ⟨p.accepted, p.header⟩, ← p.total]

theorem hdrLens_append (c : List UInt8) : hdrLens (p.bytes ++ c) = hdrLens p.bytes :=
  hdrLens_eq_of_byteAt_zero (byteAt_append_left p.isFrame.length_pos)

theorem accepted_append (c : List UInt8) : recvAccepts (byteAt (p.bytes ++ c) 0) := by
  rw [byteAt_append_left p.isFrame.length_pos]
  exact p.accepted

/-- For a packet that fits the buffer, `pkt_len` does not wrap. -/
theorem pktLen_append (c : List UInt8) : pktLen (p.bytes ++ c) = p.bytes.length := by
  have hfits := p.fits
  have htotal := p.total
  rw [pktLen, p.hdrLens_append, recvPayloadLen_append p.accepted p.header, Nat.add_comm, ← htotal]
  exact Nat.mod_eq_of_lt (by omega)

theorem three_le_length : 3 ≤ p.bytes.length :=
  Nat.le_trans (three_le_hdrLens p.accepted) p.header

end H4Packet

end Seekwave
