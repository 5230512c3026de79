import Seekwave.Wlan.Interfaces
import Seekwave.Wlan.Masks

/-!
# The request for usable channels

`skw_wifi_get_usable_channels` of `main.cpp` sends the driver a `struct skw_usable_chan_info`, a local
variable of which it assigns two members: the masks of bands and of interface modes, translated
(`Wlan.Masks`). `filter_mask` is a parameter of the function that nothing reads. The other three members
go out as the stack held them, and `usableChannels_request_iff` says for which stacks the request is the
caller's.
-/

open Memory

namespace Seekwave

/-- `struct skw_usable_chan_info`. -/
structure SkwUsableChanInfo where
  bandMask : UInt32
  filterMask : UInt32
  ifaceModeMask : UInt32
  flags : UInt32
  resvd : UInt32
deriving DecidableEq, Repr

/-- The bytes of a word, in the order of the host. -/
def u32Bytes (v : UInt32) : List UInt8 :=
  [v.toUInt8, (v >>> 8).toUInt8, (v >>> 16).toUInt8, (v >>> 24).toUInt8]

/-- The structure in memory, where it has no padding. -/
def SkwUsableChanInfo.bytes (info : SkwUsableChanInfo) : List UInt8 :=
  u32Bytes info.bandMask ++ u32Bytes info.filterMask ++ u32Bytes info.ifaceModeMask ++
    u32Bytes info.flags ++ u32Bytes info.resvd

/-- `SKW_CHAN_WIDTH_*`. -/
def skwChanWidth20 : ℕ := 0
def skwChanWidth40 : ℕ := 1
def skwChanWidth80 : ℕ := 2
def skwChanWidth80p80 : ℕ := 3
def skwChanWidth160 : ℕ := 4

/-- `wifi_channel_width`. -/
inductive WifiChannelWidth
  | width20
  | width40
  | width80
  | width160
  | width80p80
  | invalid
deriving DecidableEq, Repr

/-- `to_hal_band_width`. -/
def toHalBandWidth (skwBw : ℕ) : WifiChannelWidth :=
  if skwBw = skwChanWidth20 then .width20
  else if skwBw = skwChanWidth40 then .width40
  else if skwBw = skwChanWidth80 then .width80
  else if skwBw = skwChanWidth160 then .width160
  else if skwBw = skwChanWidth80p80 then .width80p80
  else .invalid

/-- `wifi_usable_channel`. -/
structure WifiUsableChannel where
  freq : ℕ
  width : WifiChannelWidth
  ifaceModeMask : BitVec 32
deriving DecidableEq

/-- `sizeof(struct skw_usable_chan)`: four `u16` and a `u32`. -/
def sizeofSkwUsableChan : ℕ := 12

/-- The fields of `GetUsableChannels`, with the outcomes of the next calls of `malloc`. -/
structure GetUsableChannels where
  chanData : List UInt8
  mallocs : List Bool

/-- The constructor. -/
def GetUsableChannels.new (mallocs : List Bool) : GetUsableChannels := ⟨[], mallocs⟩

/-- `GetUsableChannels::parser`, of the vendor data of a message. Of the data nothing is kept if
`malloc` fails. -/
def GetUsableChannels.parser (cmd : GetUsableChannels) : Option (List UInt8) → GetUsableChannels
  | none => cmd
  | some data => ⟨if cmd.mallocs.headD true then data else [], cmd.mallocs.tail⟩

/-- What `skw_wifi_get_usable_channels` makes of `info`, which holds `mem` when it is called. -/
def usableChanInfo (W : WifiHal) (mem : SkwUsableChanInfo) (bandMask ifaceModeMask _filterMask : UInt32) :
    SkwUsableChanInfo :=
  { mem with
    bandMask := ⟨toSkwBandMask W bandMask.toBitVec⟩
    ifaceModeMask := ⟨toSkwIfaceMask W ifaceModeMask.toBitVec⟩ }

/-- The message that `skw_wifi_get_usable_channels` builds, for the first interface. -/
def usableChannelsRequest (W : WifiHal) (hal : HalInfo) (mem : SkwUsableChanInfo)
    (bandMask ifaceModeMask filterMask : UInt32) : List NlAttr :=
  Build.getUsableChannels (hal.interfaces 0)
    (usableChanInfo W mem bandMask ifaceModeMask filterMask).bytes

/-- One pass of the copying loop. -/
def usableChannel (W : WifiHal) (chan : List UInt8) (i : ℕ) : WifiUsableChannel where
  freq := u16At chan (sizeofSkwUsableChan * i)
  width := toHalBandWidth (u16At chan (sizeofSkwUsableChan * i + 2))
  ifaceModeMask := toHalIfaceMask W (BitVec.ofNat 32 (u16At chan (sizeofSkwUsableChan * i + 4)))

/-- `skw_wifi_get_usable_channels`: the messages sent, `*size` and the channels. The result of `send` is
not looked at; it sends nothing if `nl_cb_alloc` fails. -/
inductive SkwWifiGetUsableChannels {μ : Type} (L : Libnl μ (Option (List UInt8))) (cbAlloc : Bool)
    (k : L.Sock) (mallocs : List Bool) (W : WifiHal) (hal : HalInfo) (mem : SkwUsableChanInfo)
    (bandMask ifaceModeMask filterMask : UInt32) (maxSize : ℕ) :
    WifiError → List (List NlAttr) → ℕ → List WifiUsableChannel → L.Sock → Prop
  | mk {err : WifiError} {cmd : GetUsableChannels} {k' : L.Sock} {size : ℕ}
      (hsend : SendMsg L .parser cbAlloc k (.new mallocs) err cmd k')
      (hsize : size = min (cmd.chanData.length / sizeofSkwUsableChan) maxSize) :
      SkwWifiGetUsableChannels L cbAlloc k mallocs W hal mem bandMask ifaceModeMask filterMask maxSize
        .success
        (if cbAlloc then [usableChannelsRequest W hal mem bandMask ifaceModeMask filterMask] else [])
        size ((List.range size).map (usableChannel W cmd.chanData)) k'

/-! ## What the request carries -/

theorem u32Bytes_inj {v v' : UInt32} : u32Bytes v = u32Bytes v' ↔ v = v' := by
  constructor
  · intro h
    simp only [u32Bytes, List.cons.injEq, ← UInt8.toNat_inj, and_true] at h
    have hlt := v.toNat_lt
    have hlt' := v'.toNat_lt
    refine UInt32.toNat_inj.mp ?_
    simp [Nat.shiftRight_eq_div_pow] at h
    omega
  · rintro rfl
    rfl

/-- The bytes of the structure tell its members. -/
theorem SkwUsableChanInfo.bytes_inj {info info' : SkwUsableChanInfo} :
    info.bytes = info'.bytes ↔ info = info' := by
  constructor
  · intro h
    simp only [bytes, List.append_assoc] at h
    obtain ⟨hband, h⟩ := List.append_inj h rfl
    obtain ⟨hfilter, h⟩ := List.append_inj h rfl
    obtain ⟨hiface, h⟩ := List.append_inj h rfl
    obtain ⟨hflags, hresvd⟩ := List.append_inj h rfl
    rw [u32Bytes_inj] at hband hfilter hiface hflags hresvd
    cases info
    cases info'
    simp_all
  · rintro rfl
    rfl

/-- Requests for one interface with the same bytes have the same members. -/
theorem getUsableChannels_inj {iface : InterfaceInfo} {info info' : SkwUsableChanInfo} :
    Build.getUsableChannels iface info.bytes = Build.getUsableChannels iface info'.bytes ↔
      info = info' := by
  simp [Build.getUsableChannels, SkwUsableChanInfo.bytes_inj]

/-- What a call of `skw_wifi_get_usable_channels` on the stack `mem` sends, whatever the driver answers, is
one request, the caller's query: the masks translated, the filter as it is, and `flags` and `resvd` with
given values. -/
def CarriesQuery (W : WifiHal) (hal : HalInfo) (mem : SkwUsableChanInfo)
    (bandMask ifaceModeMask filterMask flags resvd : UInt32) : Prop :=
  ∀ (μ : Type) (L : Libnl μ (Option (List UInt8))) (k k' : L.Sock) (mallocs : List Bool) (maxSize : ℕ)
    (err : WifiError) (sent : List (List NlAttr)) (size : ℕ) (channels : List WifiUsableChannel),
    SkwWifiGetUsableChannels L true k mallocs W hal mem bandMask ifaceModeMask filterMask maxSize err
      sent size channels k' →
    sent = [Build.getUsableChannels (hal.interfaces 0) (SkwUsableChanInfo.bytes
      ⟨⟨toSkwBandMask W bandMask.toBitVec⟩, filterMask, ⟨toSkwIfaceMask W ifaceModeMask.toBitVec⟩,
        flags, resvd⟩)]

/-- The query goes out where the stack holds what the function does not assign. -/
theorem carriesQuery_iff (W : WifiHal) (hal : HalInfo) (mem : SkwUsableChanInfo)
    (bandMask ifaceModeMask filterMask flags resvd : UInt32) :
    CarriesQuery W hal mem bandMask ifaceModeMask filterMask flags resvd ↔
      mem.filterMask = filterMask ∧ mem.flags = flags ∧ mem.resvd = resvd := by
  have hrequest : usableChannelsRequest W hal mem bandMask ifaceModeMask filterMask =
      Build.getUsableChannels (hal.interfaces 0) (SkwUsableChanInfo.bytes
        ⟨⟨toSkwBandMask W bandMask.toBitVec⟩, filterMask, ⟨toSkwIfaceMask W ifaceModeMask.toBitVec⟩,
          flags, resvd⟩) ↔ mem.filterMask = filterMask ∧ mem.flags = flags ∧ mem.resvd = resvd := by
    rw [usableChannelsRequest, getUsableChannels_inj, usableChanInfo]
    simp
  rw [← hrequest]
  constructor
  · intro h
    -- one call is enough to tell: the driver answers it with an ACK
    have hsend := @sendMsg_of_delivers (Option (List UInt8)) _ _ (queueNl _) GetUsableChannels.parser
      [[.ack]] [] (.new []) [] [] .ack (by decide) (queueNl_delivers _)
    exact List.singleton_inj.mp (h _ _ _ _ _ 0 _ _ _ _ (.mk hsend rfl))
  · rintro h _ _ _ _ _ _ _ _ _ _ ⟨_, _⟩
    rw [if_pos rfl, h]

/-- **The request for usable channels, exactly when.** For all masks and any two stacks, the two requests
are the same and the caller's query, `flags` and `resvd` being fixed, if and only if both stacks happen
to hold the caller's `filter_mask`, and agree on `flags` and `resvd`. -/
theorem usableChannels_request_iff (W : WifiHal) (hal : HalInfo)
    (bandMask ifaceModeMask filterMask : UInt32) (mem₁ mem₂ : SkwUsableChanInfo) :
    (∃ flags resvd, CarriesQuery W hal mem₁ bandMask ifaceModeMask filterMask flags resvd ∧
        CarriesQuery W hal mem₂ bandMask ifaceModeMask filterMask flags resvd) ↔
      mem₁.filterMask = filterMask ∧ mem₂.filterMask = filterMask ∧ mem₁.flags = mem₂.flags ∧
        mem₁.resvd = mem₂.resvd := by
  simp only [carriesQuery_iff]
  constructor
  · rintro ⟨flags, resvd, ⟨hfilter₁, hflags₁, hresvd₁⟩, hfilter₂, hflags₂, hresvd₂⟩
    exact ⟨hfilter₁, hfilter₂, hflags₁.trans hflags₂.symm, hresvd₁.trans hresvd₂.symm⟩
  · rintro ⟨hfilter₁, hfilter₂, hflags, hresvd⟩
    exact ⟨mem₂.flags, mem₂.resvd, ⟨hfilter₁, hflags, hresvd⟩, hfilter₂, rfl, rfl⟩

/-- Two calls for the 2.4 GHz channels of a station, without a filter: on one stack the driver is asked
to filter by whatever was there. -/
theorem usableChannels_leak_stack :
    ¬ ∀ (W : WifiHal) (hal : HalInfo) (bandMask ifaceModeMask filterMask : UInt32)
      (mem₁ mem₂ : SkwUsableChanInfo), ∃ flags resvd,
        CarriesQuery W hal mem₁ bandMask ifaceModeMask filterMask flags resvd ∧
          CarriesQuery W hal mem₂ bandMask ifaceModeMask filterMask flags resvd := by
  intro h
  obtain ⟨flags, resvd, -, hquery⟩ :=
    h wifiHalValues .initial 1 1 0 ⟨0, 0, 0, 0, 0⟩ ⟨0, 0xdeadbeef, 0, 0, 0⟩
  exact absurd ((carriesQuery_iff ..).mp hquery).1 (by decide)

end Seekwave
