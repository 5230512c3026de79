import Seekwave.Lib.BitWalk

/-!
# Masks of bands and of interface modes

`main.cpp` translates the masks of `wifi_hal.h` to those of the driver and back: a loop takes the set
bits of a mask one after the other and gives each, as a mask of its own, to a `switch`. An unknown bit
is translated to `SKW_INVALID`, which an `int` and the `u32` it is compared with hold in the same way.

The three loops are one walk (`BitWalk.walk`) with three translations; the values of `wifi_hal.h` are a
parameter (`WifiHal`). `masks_perBit` gives the loops by their bits, and `ifaceMask_roundTrip` what is
left of an interface mask that is translated there and back.
-/

open BitWalk

namespace Seekwave

/-! ## The translations -/

/-- `SKW_INVALID`. -/
def skwInvalid : BitVec 32 := -1#32

/-- `SKW_BIT`. -/
def skwBit (nr : ℕ) : BitVec 32 := 1#32 <<< nr

/-- The values of `wifi_hal.h`: which bit each band of `wlan_mac_band` is, and the number of each
interface type. `1 << nr` is an `int` for all of them. -/
structure WifiHal where
  wlanMac24Band : Fin 31
  wlanMac50Band : Fin 31
  wlanMac60Band : Fin 31
  wlanMac600Band : Fin 31
  wifiInterfaceTypeSta : Fin 31
  wifiInterfaceTypeAp : Fin 31
  wifiInterfaceTypeP2p : Fin 31
deriving DecidableEq, Repr

def skwBand2ghz : BitVec 32 := 0
def skwBand5ghz : BitVec 32 := 1
def skwBand6ghz : BitVec 32 := 2
def skwBand60ghz : BitVec 32 := 3

def skwModeSta : ℕ := 1
def skwModeAp : ℕ := 2
def skwModeGc : ℕ := 3
def skwModeGo : ℕ := 4

section Translations

variable (W : WifiHal)

/-- `to_skw_band`. -/
def toSkwBand (halBw : BitVec 32) : BitVec 32 :=
  if halBw = skwBit W.wlanMac24Band then skwBand2ghz
  else if halBw = skwBit W.wlanMac50Band then skwBand5ghz
  else if halBw = skwBit W.wlanMac60Band then skwBand6ghz
  else if halBw = skwBit W.wlanMac600Band then skwBand60ghz
  else skwInvalid

/-- `to_hal_iface_mode_mask`. -/
def toHalIfaceModeMask (skwModeMask : BitVec 32) : BitVec 32 :=
  if skwModeMask = skwBit skwModeSta then skwBit W.wifiInterfaceTypeSta
  else if skwModeMask = skwBit skwModeAp then skwBit W.wifiInterfaceTypeAp
  else if skwModeMask = skwBit skwModeGc ∨ skwModeMask = skwBit skwModeGo then
    skwBit W.wifiInterfaceTypeP2p
  else skwInvalid

/-- `to_skw_iface_mode_mask`. -/
def toSkwIfaceModeMask (halModeMask : BitVec 32) : BitVec 32 :=
  if halModeMask = skwBit W.wifiInterfaceTypeSta then skwBit skwModeSta
  else if halModeMask = skwBit W.wifiInterfaceTypeAp then skwBit skwModeAp
  else if halModeMask = skwBit W.wifiInterfaceTypeP2p then skwBit skwModeGc
  else skwInvalid

/-- What a pass ORs to the result: `value` of the translation, if that is not `SKW_INVALID`. -/
def validBit (translate value : BitVec 32 → BitVec 32) (x : BitVec 32) : Option (BitVec 32) :=
  if translate x ≠ skwInvalid then some (value (translate x)) else none

/-- One pass of the loop of `to_skw_band_mask`, which ORs the bit of the band. -/
def bandPass : BitVec 32 × BitVec 32 → (BitVec 32 × BitVec 32) ⊕ BitVec 32 :=
  pass (validBit (toSkwBand W) fun band => skwBit band.toNat)

/-- One pass of the loop of `to_hal_iface_mask`. -/
def halIfacePass : BitVec 32 × BitVec 32 → (BitVec 32 × BitVec 32) ⊕ BitVec 32 :=
  pass (validBit (toHalIfaceModeMask W) id)

/-- One pass of the loop of `to_skw_iface_mask`. -/
def skwIfacePass : BitVec 32 × BitVec 32 → (BitVec 32 × BitVec 32) ⊕ BitVec 32 :=
  pass (validBit (toSkwIfaceModeMask W) id)

/-- `to_skw_band_mask`. -/
def toSkwBandMask (halBandMask : BitVec 32) : BitVec 32 :=
  walk (validBit (toSkwBand W) fun band => skwBit band.toNat) halBandMask

/-- `to_hal_iface_mask`. -/
def toHalIfaceMask (skwIfaceMask : BitVec 32) : BitVec 32 :=
  walk (validBit (toHalIfaceModeMask W) id) skwIfaceMask

/-- `to_skw_iface_mask`. -/
def toSkwIfaceMask (halIfaceMask : BitVec 32) : BitVec 32 :=
  walk (validBit (toSkwIfaceModeMask W) id) halIfaceMask

end Translations

/-! ## The loops by their bits -/

theorem skwBit_eq_twoPow (nr : ℕ) : skwBit nr = BitVec.twoPow 32 nr := rfl

theorem bits_skwBit {nr : ℕ} (h : nr < 32) : bits (skwBit nr) = {nr} := bits_twoPow h

theorem skwBit_inj {b b' : ℕ} (hb : b < 32) (hb' : b' < 32) : skwBit b = skwBit b' ↔ b = b' := by
  constructor
  · intro h
    have hbits : ({b} : Finset ℕ) = {b'} := by rw [← bits_skwBit hb, h, bits_skwBit hb']
    exact Finset.singleton_injective hbits
  · rintro rfl
    rfl

/-- Neither `0` nor the highest bit is a low one. -/
theorem ne_skwBit {x : BitVec 32} (hx : x = 0#32 ∨ x = BitVec.twoPow 32 31) {b : ℕ} (hb : b < 31) :
    x ≠ skwBit b := by
  rintro rfl
  rcases hx with hx | hx
  · have hbits := bits_skwBit (show b < 32 by omega)
    rw [hx, bits_zero] at hbits
    exact absurd hbits.symm (Finset.singleton_ne_empty b)
  · have := (skwBit_inj (by omega) (by omega)).mp hx
    omega

/-- A translation of low bits only takes `0` and the highest bit to `SKW_INVALID`. -/
theorem validBit_top {translate value : BitVec 32 → BitVec 32}
    (h : ∀ x, (∀ b < 31, x ≠ skwBit b) → translate x = skwInvalid) :
    validBit translate value 0#32 = validBit translate value (BitVec.twoPow 32 (32 - 1)) := by
  have hinvalid : ∀ x, x = 0#32 ∨ x = BitVec.twoPow 32 31 → validBit translate value x = none := by
    intro x hx
    rw [validBit, h x fun b hb => ne_skwBit hx hb, if_neg (by simp)]
  rw [hinvalid _ (.inl rfl), hinvalid _ (.inr rfl)]

theorem toSkwBand_of_ne (W : WifiHal) (x : BitVec 32) (h : ∀ b < 31, x ≠ skwBit b) :
    toSkwBand W x = skwInvalid := by
  rw [toSkwBand, if_neg (h _ (Fin.isLt _)), if_neg (h _ (Fin.isLt _)), if_neg (h _ (Fin.isLt _)),
    if_neg (h _ (Fin.isLt _))]

theorem toHalIfaceModeMask_of_ne (W : WifiHal) (x : BitVec 32) (h : ∀ b < 31, x ≠ skwBit b) :
    toHalIfaceModeMask W x = skwInvalid := by
  have hp2p : ¬ (x = skwBit skwModeGc ∨ x = skwBit skwModeGo) :=
    not_or.mpr ⟨h _ (by decide), h _ (by decide)⟩
  rw [toHalIfaceModeMask, if_neg (h _ (by decide)), if_neg (h _ (by decide)), if_neg hp2p]

theorem toSkwIfaceModeMask_of_ne (W : WifiHal) (x : BitVec 32) (h : ∀ b < 31, x ≠ skwBit b) :
    toSkwIfaceModeMask W x = skwInvalid := by
  rw [toSkwIfaceModeMask, if_neg (h _ (Fin.isLt _)), if_neg (h _ (Fin.isLt _)),
    if_neg (h _ (Fin.isLt _))]

/-- A mask loop by its bits: as many passes as the mask has set bits, the OR over those whose translation
is valid, and the OR of two masks to the OR of the results. `n` bounds the evaluations of the loop's
condition, one more than its passes. -/
structure PerBit (mask : BitVec 32 → BitVec 32)
    (body : BitVec 32 × BitVec 32 → (BitVec 32 × BitVec 32) ⊕ BitVec 32)
    (translate value : BitVec 32 → BitVec 32) : Prop where
  passes : ∀ m n, Loop.iterate body n (m, 0#32) = if (bits m).card < n then some (mask m) else none
  eq_or : ∀ m, mask m = orOver ((bits m).filter fun b => translate (skwBit b) ≠ skwInvalid)
    fun b => value (translate (skwBit b))
  map_or : ∀ m m', mask (m ||| m') = mask m ||| mask m'

/-- The walk over a translation of low bits, by its bits. -/
theorem perBit_walk {translate : BitVec 32 → BitVec 32} (value : BitVec 32 → BitVec 32)
    (h : ∀ x, (∀ b < 31, x ≠ skwBit b) → translate x = skwInvalid) :
    PerBit (walk (validBit translate value)) (pass (validBit translate value)) translate value where
  passes m n := by
    rw [iterate_pass (validBit_top h), walk_eq (validBit_top h), BitVec.zero_or]
  eq_or m := by
    rw [walk_eq (validBit_top h), ← orOver_filter _ fun b => translate (skwBit b) ≠ skwInvalid]
    · refine orOver_congr fun b hb => ?_
      rw [contribution, ← skwBit_eq_twoPow, validBit, if_pos (Finset.mem_filter.mp hb).2,
        Option.getD_some]
    · intro b _ hb
      rw [contribution, ← skwBit_eq_twoPow, validBit, if_neg hb, Option.getD_none]
  map_or := walk_or (validBit_top h)

/-- **The mask loops equal their per-bit definition**, the highest bit included. -/
theorem masks_perBit (W : WifiHal) :
    PerBit (toSkwBandMask W) (bandPass W) (toSkwBand W) (fun band => skwBit band.toNat) ∧
      PerBit (toHalIfaceMask W) (halIfacePass W) (toHalIfaceModeMask W) id ∧
      PerBit (toSkwIfaceMask W) (skwIfacePass W) (toSkwIfaceModeMask W) id :=
  ⟨perBit_walk _ (toSkwBand_of_ne W), perBit_walk _ (toHalIfaceModeMask_of_ne W),
    perBit_walk _ (toSkwIfaceModeMask_of_ne W)⟩

/-! ## There and back -/

theorem skwBit_ne_invalid {b : ℕ} (hb : b < 32) : skwBit b ≠ skwInvalid := by
  intro h
  have h0 : 0 ∈ bits (skwBit b) := by rw [h]; decide
  have h1 : 1 ∈ bits (skwBit b) := by rw [h]; decide
  rw [bits_skwBit hb, Finset.mem_singleton] at h0 h1
  omega

section RoundTrip

variable (W : WifiHal)

/-- What a driver mode gives of the interface types. -/
theorem contribution_hal {b : ℕ} (hb : b < 32) :
    contribution (validBit (toHalIfaceModeMask W) id) b =
      if b = skwModeSta then skwBit W.wifiInterfaceTypeSta
      else if b = skwModeAp then skwBit W.wifiInterfaceTypeAp
      else if b = skwModeGc ∨ b = skwModeGo then skwBit W.wifiInterfaceTypeP2p
      else 0#32 := by
  have hinj : ∀ nr < 32, (skwBit b = skwBit nr ↔ b = nr) := fun nr hnr => skwBit_inj hb hnr
  rw [contribution, ← skwBit_eq_twoPow, validBit, toHalIfaceModeMask]
  simp only [hinj skwModeSta (by decide), hinj skwModeAp (by decide), hinj skwModeGc (by decide),
    hinj skwModeGo (by decide)]
  split
  · rw [if_pos (skwBit_ne_invalid (by omega))]
    rfl
  split
  · rw [if_pos (skwBit_ne_invalid (by omega))]
    rfl
  split
  · rw [if_pos (skwBit_ne_invalid (by omega))]
    rfl
  · rfl

/-- What an interface type gives of the driver modes. -/
theorem contribution_skw {b : ℕ} (hb : b < 32) :
    contribution (validBit (toSkwIfaceModeMask W) id) b =
      if b = W.wifiInterfaceTypeSta then skwBit skwModeSta
      else if b = W.wifiInterfaceTypeAp then skwBit skwModeAp
      else if b = W.wifiInterfaceTypeP2p then skwBit skwModeGc
      else 0#32 := by
  have hinj : ∀ nr : Fin 31, (skwBit b = skwBit nr ↔ b = nr) := fun nr => skwBit_inj hb (by omega)
  rw [contribution, ← skwBit_eq_twoPow, validBit, toSkwIfaceModeMask]
  simp only [hinj]
  split
  · rfl
  split
  · rfl
  split
  · rfl
  · rfl

/-- The bits of the interface types that the driver knows. -/
def ifaceTypes : Finset ℕ :=
  {↑W.wifiInterfaceTypeSta, ↑W.wifiInterfaceTypeAp, ↑W.wifiInterfaceTypeP2p}

theorem toHalIfaceMask_eq (s : BitVec 32) :
    toHalIfaceMask W s = orOver (bits s) (contribution (validBit (toHalIfaceModeMask W) id)) :=
  walk_eq (validBit_top (toHalIfaceModeMask_of_ne W)) s

theorem toSkwIfaceMask_eq (m : BitVec 32) :
    toSkwIfaceMask W m = orOver (bits m) (contribution (validBit (toSkwIfaceModeMask W) id)) :=
  walk_eq (validBit_top (toSkwIfaceModeMask_of_ne W)) m

theorem toHalIfaceMask_zero : toHalIfaceMask W 0#32 = 0#32 :=
  walk_zero (validBit_top (toHalIfaceModeMask_of_ne W))

theorem toHalIfaceMask_skwBit {b : ℕ} (hb : b < 32) :
    toHalIfaceMask W (skwBit b) = contribution (validBit (toHalIfaceModeMask W) id) b :=
  walk_twoPow (validBit_top (toHalIfaceModeMask_of_ne W)) hb

/-- One bit, there and back: a known interface type comes back, any other is lost. -/
theorem toHalIfaceMask_contribution {b : ℕ} (hb : b < 32) :
    toHalIfaceMask W (contribution (validBit (toSkwIfaceModeMask W) id) b) =
      if b ∈ ifaceTypes W then skwBit b else 0#32 := by
  have hmem : b ∈ ifaceTypes W ↔ b = W.wifiInterfaceTypeSta ∨ b = W.wifiInterfaceTypeAp ∨
      b = W.wifiInterfaceTypeP2p := by
    simp [ifaceTypes]
  rw [contribution_skw W hb]
  split
  · next h =>
    rw [if_pos (hmem.mpr (.inl h)), toHalIfaceMask_skwBit W (by decide),
      contribution_hal W (by decide), if_pos rfl, h]
  split
  · next h =>
    rw [if_pos (hmem.mpr (.inr (.inl h))), toHalIfaceMask_skwBit W (by decide),
      contribution_hal W (by decide), if_neg (by decide), if_pos rfl, h]
  split
  · next h =>
    rw [if_pos (hmem.mpr (.inr (.inr h))), toHalIfaceMask_skwBit W (by decide),
      contribution_hal W (by decide), if_neg (by decide), if_neg (by decide), if_pos (.inl rfl), h]
  · next hsta hap hp2p =>
    rw [if_neg (fun h => by rcases hmem.mp h with h | h | h <;> contradiction), toHalIfaceMask_zero]

/-- An interface mask, translated to the driver's and back, keeps its known types. -/
theorem bits_roundTrip (m : BitVec 32) :
    bits (toHalIfaceMask W (toSkwIfaceMask W m)) = bits m ∩ ifaceTypes W := by
  have hor : toHalIfaceMask W (toSkwIfaceMask W m) =
      orOver (bits m) fun b => if b ∈ ifaceTypes W then skwBit b else 0#32 := by
    rw [toSkwIfaceMask_eq,
      map_orOver (toHalIfaceMask_zero W) (walk_or (validBit_top (toHalIfaceModeMask_of_ne W)))]
    refine orOver_congr fun b hb => ?_
    exact toHalIfaceMask_contribution W (BitVec.lt_of_getLsbD (mem_bits.mp hb))
  ext i
  rw [hor, mem_bits_orOver, Finset.mem_inter]
  constructor
  · rintro ⟨b, hb, hi⟩
    split at hi
    · next h =>
      rw [bits_skwBit (BitVec.lt_of_getLsbD (mem_bits.mp hb)), Finset.mem_singleton] at hi
      exact hi ▸ ⟨hb, h⟩
    · exact absurd hi (by simp)
  · rintro ⟨hi, h⟩
    refine ⟨i, hi, ?_⟩
    rw [if_pos h, bits_skwBit (BitVec.lt_of_getLsbD (mem_bits.mp hi))]
    exact Finset.mem_singleton_self i

/-- A driver mask gives nothing but known types. -/
theorem bits_toHalIfaceMask_subset (s : BitVec 32) : bits (toHalIfaceMask W s) ⊆ ifaceTypes W := by
  intro i hi
  rw [toHalIfaceMask_eq, mem_bits_orOver] at hi
  obtain ⟨b, hb, hi⟩ := hi
  rw [contribution_hal W (BitVec.lt_of_getLsbD (mem_bits.mp hb))] at hi
  have hbit : ∀ nr : Fin 31, (nr : ℕ) ∈ ifaceTypes W → i ∈ bits (skwBit nr) → i ∈ ifaceTypes W := by
    intro nr hnr h
    rw [bits_skwBit (by omega), Finset.mem_singleton] at h
    exact h ▸ hnr
  split at hi
  · exact hbit _ (by simp [ifaceTypes]) hi
  split at hi
  · exact hbit _ (by simp [ifaceTypes]) hi
  split at hi
  · exact hbit _ (by simp [ifaceTypes]) hi
  · exact absurd hi (by simp)

/-- **Mode masks survive the round trip.** An interface mask that is translated to the driver's and back
is restricted to the three types, and a driver mask, which may hold two modes of one type, is as good
as what comes back of it. -/
theorem ifaceMask_roundTrip :
    (∀ m, toHalIfaceMask W (toSkwIfaceMask W m) =
      m &&& (skwBit W.wifiInterfaceTypeSta ||| skwBit W.wifiInterfaceTypeAp |||
        skwBit W.wifiInterfaceTypeP2p)) ∧
    ∀ s, toHalIfaceMask W (toSkwIfaceMask W (toHalIfaceMask W s)) = toHalIfaceMask W s := by
  constructor
  · intro m
    refine eq_of_bits_eq ?_
    have hbit : ∀ nr : Fin 31, bits (skwBit nr) = {↑nr} := fun nr => bits_skwBit (by omega)
    rw [bits_roundTrip, bits_and, bits_or, bits_or, hbit, hbit, hbit, Finset.union_assoc]
    rfl
  · intro s
    refine eq_of_bits_eq ?_
    rw [bits_roundTrip, Finset.inter_eq_left.mpr (bits_toHalIfaceMask_subset W s)]

end RoundTrip

/-- The bands as bits 0 to 3, and `STA`, `AP` and `P2P` as 0, 1 and 2. -/
def wifiHalValues : WifiHal := ⟨0, 1, 2, 3, 0, 1, 2⟩

example : toHalIfaceMask wifiHalValues (toSkwIfaceMask wifiHalValues 0xffffffff#32) = 7#32 := by
  decide

end Seekwave
