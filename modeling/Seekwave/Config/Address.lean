import Seekwave.Lib.Memory

/-!
# Bluetooth addresses: `skw_gen_addr.c`

The generated address part that is patched into the NV data, and the address the application
processor stores.
-/

open Memory

namespace Seekwave

/-- `BD_ADDR_LEN`. -/
def bdAddrLen : ℕ := 6

/-- The globals `bdaddr_lap` and `bdaddr_valid`. -/
structure Bdaddr where
  lap : Block 3
  valid : Bool

/-- Their initial values. -/
def Bdaddr.initial : Bdaddr := ⟨⟨[0x12, 0x24, 0x56], rfl⟩, true⟩

/-- The bytes `skw_addr_get` writes to its buffer. -/
def skwAddrGet (addr : Bdaddr) : List UInt8 := if addr.valid = true then addr.lap.cells else []

/-- `/dev/vendor_storage`: it cannot be opened, the `ioctl` fails, or it yields an address. -/
inductive VendorStorage
  | openFails
  | ioctlFails
  | data (address : Block bdAddrLen)

/-- The return value of `m_get_mac_address` and what it leaves in `local_addr`. -/
def mGetMacAddress (storage : VendorStorage) (localAddr : List UInt8) : ℤ × List UInt8 :=
  match storage with
  | .openFails => (-1, localAddr)
  | .ioctlFails => (0, localAddr)
  | .data address => (0, address.cells.reverse)

/-- `skw_addr_check_valid`: whether the bytes add up to something. -/
def skwAddrCheckValid (bdAddr : List UInt8) : Bool :=
  0 < (bdAddr.map UInt8.toNat).sum

/-- `skw_addr_from_ap`: whether there is an address, and the bytes written to the buffer. -/
def skwAddrFromAp (storage : VendorStorage) : Bool × List UInt8 :=
  match mGetMacAddress storage (List.replicate bdAddrLen 0) with
  | (ret, bdAddr) => if ret = 0 then (skwAddrCheckValid bdAddr, bdAddr) else (false, bdAddr)

/-- The address the AP stores, if there is one other than zero. -/
def VendorStorage.address? : VendorStorage → Option (Block bdAddrLen)
  | .data address => if address.cells = List.replicate bdAddrLen 0 then none else some address
  | _ => none

theorem skwAddrCheckValid_eq_false_iff (bdAddr : List UInt8) :
    skwAddrCheckValid bdAddr = false ↔ ∀ b ∈ bdAddr, b = 0 := by
  have hzero (b : UInt8) : b.toNat = 0 ↔ b = 0 := by
    rw [← UInt8.toNat_inj]
    rfl
  rw [skwAddrCheckValid, decide_eq_false_iff_not, Nat.pos_iff_ne_zero, not_not,
    List.sum_eq_zero_iff_forall_eq_nat]
  simp only [List.mem_map, forall_exists_index, and_imp, forall_apply_eq_imp_iff₂, hzero]

/-- Six bytes are written to the buffer in any case. -/
theorem length_skwAddrFromAp (storage : VendorStorage) :
    (skwAddrFromAp storage).2.length = bdAddrLen := by
  cases storage with
  | openFails => rfl
  | ioctlFails => rfl
  | data address =>
    show address.cells.reverse.length = bdAddrLen
    rw [List.length_reverse, address.size]

/-- `skw_addr_from_ap` yields the address of the AP, its bytes reversed, if it is not zero. -/
theorem skwAddrFromAp_of_address {storage : VendorStorage} {address : Block bdAddrLen}
    (h : storage.address? = some address) :
    skwAddrFromAp storage = (true, address.cells.reverse) := by
  cases storage with
  | openFails => simp [VendorStorage.address?] at h
  | ioctlFails => simp [VendorStorage.address?] at h
  | data a =>
    rw [VendorStorage.address?] at h
    split at h
    · simp at h
    · next hne =>
      obtain rfl := Option.some.inj h
      have hvalid : skwAddrCheckValid a.cells.reverse = true := by
        by_contra hinvalid
        rw [Bool.not_eq_true, skwAddrCheckValid_eq_false_iff] at hinvalid
        refine hne (List.eq_replicate_iff.mpr ⟨a.size, fun b hb => ?_⟩)
        exact hinvalid b (List.mem_reverse.mpr hb)
      simp [skwAddrFromAp, mGetMacAddress, hvalid]

/-- Without an address, or with the zero address, there is none. -/
theorem skwAddrFromAp_of_none {storage : VendorStorage} (h : storage.address? = none) :
    (skwAddrFromAp storage).1 = false := by
  cases storage with
  | openFails => rfl
  | ioctlFails => rfl
  | data a =>
    rw [VendorStorage.address?] at h
    split at h
    · next hzero =>
      have hinvalid : skwAddrCheckValid a.cells.reverse = false := by
        rw [skwAddrCheckValid_eq_false_iff, hzero, List.reverse_replicate]
        exact fun b hb => List.eq_of_mem_replicate hb
      simp [skwAddrFromAp, mGetMacAddress, hinvalid]
    · simp at h

end Seekwave
