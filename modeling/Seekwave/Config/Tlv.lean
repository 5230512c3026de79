import Seekwave.Config.Machine
import Seekwave.Lib.Greedy

/-!
# The TLVs of an NV file, and what the packing loop makes of them

Behind its header, the NV file of chip 0x5301 is a list of TLVs. Any bytes divide into complete TLVs
that fit a batch and what stops the batch: the end of the file, a TLV that does not fit, or one that
is cut off (`exists_batch`). `pack_batch` says what the loop does with them.
-/

open Memory

namespace Seekwave

/-! ## The format -/

/-- A TLV: tag, an unused byte, the length of the parameter, the parameter. -/
structure Tlv where
  nvTag : UInt8
  unused : UInt8
  nvParam : List UInt8
  short : nvParam.length < 256

namespace Tlv

/-- The three bytes in front of the parameter. -/
def header (t : Tlv) : List UInt8 := [t.nvTag, t.unused, UInt8.ofNat t.nvParam.length]

def bytes (t : Tlv) : List UInt8 := t.header ++ t.nvParam

def size (t : Tlv) : ℕ := t.nvParam.length + 3

theorem length_bytes (t : Tlv) : t.bytes.length = t.size := by
  simp only [bytes, header, size, List.length_append, List.length_cons, List.length_nil]
  omega

theorem paramLen_header (t : Tlv) : (byteAt t.header 2).toNat = t.nvParam.length := by
  show (UInt8.ofNat t.nvParam.length).toNat = _
  exact UInt8.toNat_ofNat_of_lt' t.short

end Tlv

/-- The bytes of a list of TLVs. -/
def encode (ts : List Tlv) : List UInt8 := ts.flatMap Tlv.bytes

/-- The number of bytes of a list of TLVs. -/
def tlvsSize (ts : List Tlv) : ℕ := Greedy.total Tlv.size ts

/-- A parameter with its bytes 3, 4 and 5, as far as they exist, replaced by `bdaddr_lap`. -/
def patchLap (addr : Bdaddr) (param : List UInt8) : List UInt8 :=
  param.mapIdx fun k b =>
    if addr.valid = true ∧ 3 ≤ k ∧ k < 6 then byteAt addr.lap.cells (k - 3) else b

/-- The bytes of a TLV as they are sent. -/
def Tlv.sent (addr : Bdaddr) (t : Tlv) : List UInt8 :=
  t.header ++ if t.nvTag = nvTagBdAddr then patchLap addr t.nvParam else t.nvParam

/-- The bytes of a batch as they are sent. -/
def sentBytes (addr : Bdaddr) (ts : List Tlv) : List UInt8 := ts.flatMap (Tlv.sent addr)

/-- The stores of a parameter at an offset of the buffer. The address goes three bytes into it,
however long it is. -/
def Tlv.paramWrites (addr : Bdaddr) (off : ℕ) (t : Tlv) : List CfgEvent :=
  .write off t.nvParam ::
    if t.nvTag = nvTagBdAddr ∧ addr.valid = true then [.write (off + 3) addr.lap.cells] else []

/-- The stores of a TLV. -/
def Tlv.writes (addr : Bdaddr) (off : ℕ) (t : Tlv) : List CfgEvent :=
  .write off t.header :: if 0 < t.nvParam.length then t.paramWrites addr (off + 3) else []

/-- The stores of a batch. -/
def batchWrites (addr : Bdaddr) : ℕ → List Tlv → List CfgEvent
  | _, [] => []
  | off, t :: ts => t.writes addr off ++ batchWrites addr (off + t.size) ts

@[simp] theorem tlvsSize_nil : tlvsSize [] = 0 := rfl

@[simp] theorem tlvsSize_cons (t : Tlv) (ts : List Tlv) :
    tlvsSize (t :: ts) = t.size + tlvsSize ts := Greedy.total_cons ..

theorem tlvsSize_append (ts us : List Tlv) : tlvsSize (ts ++ us) = tlvsSize ts + tlvsSize us :=
  Greedy.total_append ..

@[simp] theorem encode_nil : encode [] = [] := rfl

@[simp] theorem encode_cons (t : Tlv) (ts : List Tlv) : encode (t :: ts) = t.bytes ++ encode ts := rfl

@[simp] theorem encode_append (ts us : List Tlv) : encode (ts ++ us) = encode ts ++ encode us :=
  List.flatMap_append

theorem length_encode (ts : List Tlv) : (encode ts).length = tlvsSize ts := by
  induction ts with
  | nil => rfl
  | cons t ts ih => rw [encode_cons, List.length_append, t.length_bytes, ih, tlvsSize_cons]

@[simp] theorem sentBytes_nil (addr : Bdaddr) : sentBytes addr [] = [] := rfl

@[simp] theorem sentBytes_cons (addr : Bdaddr) (t : Tlv) (ts : List Tlv) :
    sentBytes addr (t :: ts) = t.sent addr ++ sentBytes addr ts := rfl

theorem sentBytes_append (addr : Bdaddr) (ts us : List Tlv) :
    sentBytes addr (ts ++ us) = sentBytes addr ts ++ sentBytes addr us :=
  List.flatMap_append

theorem length_patchLap (addr : Bdaddr) (param : List UInt8) :
    (patchLap addr param).length = param.length := List.length_mapIdx

theorem Tlv.length_sent (addr : Bdaddr) (t : Tlv) : (t.sent addr).length = t.size := by
  rw [← t.length_bytes, sent, bytes, List.length_append, List.length_append]
  split
  · rw [length_patchLap]
  · rfl

/-- A TLV is sent with as many bytes as it has. -/
theorem length_sentBytes (addr : Bdaddr) (ts : List Tlv) :
    (sentBytes addr ts).length = tlvsSize ts := by
  induction ts with
  | nil => rfl
  | cons t ts ih => rw [sentBytes_cons, List.length_append, t.length_sent, ih, tlvsSize_cons]

/-- Every list of TLVs that is not empty has at least the three bytes of a header. -/
theorem three_le_tlvsSize {ts : List Tlv} (h : ts ≠ []) : 3 ≤ tlvsSize ts := by
  rcases ts with - | ⟨t, ts⟩
  · exact absurd rfl h
  · rw [tlvsSize_cons, Tlv.size]
    omega

/-! ## Batches -/

/-- What stops a batch of `used` bytes in front of `tail`. -/
def PackEnd.Stops (tail : List UInt8) (used : ℕ) : PackEnd → Prop
  | .fileEnd => tail.length < 3
  | .full => 3 ≤ tail.length ∧ 252 < used + 3 + (byteAt tail 2).toNat
  | .truncated => 3 ≤ tail.length ∧ used + 3 + (byteAt tail 2).toNat ≤ 252 ∧
      tail.length < 3 + (byteAt tail 2).toNat

/-- The stores of what stops a batch. A header is stored before it is known whether its parameter
fits. -/
def PackEnd.writes (off : ℕ) (tail : List UInt8) : PackEnd → List CfgEvent
  | .fileEnd => []
  | .full => [.write off (tail.take 3)]
  | .truncated => [.write off (tail.take 3), .write (off + 3) (tail.drop 3)]

/-- Bytes that hold a complete TLV begin with one. -/
theorem exists_tlv {rest : List UInt8} (h : 3 + (byteAt rest 2).toNat ≤ rest.length) :
    ∃ t : Tlv, ∃ tail, rest = t.bytes ++ tail ∧ t.nvParam.length = (byteAt rest 2).toNat := by
  have hlong : 3 ≤ rest.length := by omega
  rcases rest with - | ⟨x, - | ⟨y, - | ⟨z, rest⟩⟩⟩
  · exact absurd hlong (by simp)
  · exact absurd hlong (by simp)
  · exact absurd hlong (by simp)
  · have hz : byteAt (x :: y :: z :: rest) 2 = z := rfl
    rw [hz] at h ⊢
    have hlen : (rest.take z.toNat).length = z.toNat := by
      rw [List.length_take]
      simp only [List.length_cons] at h
      omega
    refine ⟨⟨x, y, rest.take z.toNat, by rw [hlen]; exact z.toNat_lt⟩, rest.drop z.toNat, ?_, hlen⟩
    simp only [Tlv.bytes, Tlv.header, hlen, UInt8.ofNat_toNat]
    simp

/-- **Any bytes divide into a batch and what stops it.** -/
theorem exists_batch (rest : List UInt8) (used : ℕ) (hused : used ≤ 252) :
    ∃ (b : List Tlv) (e : PackEnd) (tail : List UInt8), rest = encode b ++ tail ∧
      used + tlvsSize b ≤ 252 ∧ e.Stops tail (used + tlvsSize b) := by
  induction hn : rest.length using Nat.strongRecOn generalizing rest used with
  | ind n ih =>
    by_cases hshort : rest.length < 3
    · exact ⟨[], .fileEnd, rest, rfl, hused, hshort⟩
    · by_cases hfull : 252 < used + 3 + (byteAt rest 2).toNat
      · exact ⟨[], .full, rest, rfl, hused, by omega, hfull⟩
      · by_cases htrunc : rest.length < 3 + (byteAt rest 2).toNat
        · exact ⟨[], .truncated, rest, rfl, hused, by omega, by simpa using hfull, htrunc⟩
        · obtain ⟨t, rest', rfl, ht⟩ := @exists_tlv rest (by omega)
          have hsize : t.size = (byteAt (t.bytes ++ rest') 2).toNat + 3 := by rw [Tlv.size, ht]
          have hlen : (t.bytes ++ rest').length = t.size + rest'.length := by
            rw [List.length_append, t.length_bytes]
          obtain ⟨b, e, tail, rfl, hfit, hstop⟩ :=
            ih rest'.length (by omega) rest' (used + t.size) (by omega) rfl
          refine ⟨t :: b, e, tail, ?_, ?_, ?_⟩
          · rw [encode_cons, List.append_assoc]
          · rw [tlvsSize_cons]
            omega
          · rw [tlvsSize_cons, ← Nat.add_assoc]
            exact hstop

end Seekwave
