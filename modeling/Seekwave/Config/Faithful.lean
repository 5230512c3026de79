import Seekwave.Config.Bringup

/-!
# The download of chip 0x5301 is faithful

The NVDS commands carry the TLVs of the image, whole and in order, each command as many of them as fit,
with `bdaddr_lap` in the address TLVs (`Faithful`), if and only if an `int` holds where the last batch
begins (`download_faithful_iff`). In the one direction the batches are those of `nvBatches`. In the
other, a position that an `int` does not hold puts the stream off the data sent (`Lost`), and nothing
that happens later makes up for it.
-/

open Memory

namespace Seekwave

/-! ## The data of a download -/

/-- The data of the NVDS commands among some commands, one behind the other. -/
def dataOf (cs : List (ℕ × List UInt8)) : List UInt8 :=
  cs.flatMap fun c => if c.1 = hciCmdSkwBtNvds then c.2.drop 5 else []

/-- The data sent with the NVDS commands. -/
def nvdsData (os : List CfgEvent) : List UInt8 := dataOf (commands os)

/-- The commands of a download that sends `bs`, the first with index `k`. -/
def batchPackets (addr : Bdaddr) (k : ℕ) (bs : List (List Tlv)) : List (List UInt8) :=
  bs.mapIdx fun j b => nvdsPacket (UInt8.ofNat (k + j)) (sentBytes addr b)

/-- The commands carry the TLVs in batches. -/
structure Faithful (addr : Bdaddr) (ts : List Tlv) (packets : List (List UInt8)) : Prop where
  /-- the data is that of the TLVs, with the address patched -/
  data : packets.flatMap (·.drop 5) = sentBytes addr ts
  /-- every command carries whole TLVs, none of them twice; its index counts modulo 256; and the next
  TLV would not have fitted -/
  batches : ∃ bs : List (List Tlv), packets = batchPackets addr 0 bs ∧ bs.flatten = ts ∧
    (∀ b ∈ bs, 1 ≤ (sentBytes addr b).length ∧ (sentBytes addr b).length ≤ 252) ∧
    ∀ pre b x xs post, bs = pre ++ b :: (x :: xs) :: post → 252 < tlvsSize b + x.size

/-- The download of an image comes to its end, and was faithful. -/
def DownloadsFaithfully (addr : Bdaddr) (s : ConfigState) (block : Block hciCmdPreambleSize)
    (inp : ℕ → CallbackIn) (image : NvImage) : Prop :=
  ∃ n os t packets, RunTo addr s block inp n os ⟨t, 1⟩ ∧ NvSent t ∧ commands os =
    [(hciReset, [0x03, 0x0C, 0x00]), (hciReadLocalVersionInfo, [0x01, 0x10, 0x00])] ++
      nvdsCommands packets ∧ Faithful addr image.tlvs packets

@[simp] theorem dataOf_append (cs ds : List (ℕ × List UInt8)) :
    dataOf (cs ++ ds) = dataOf cs ++ dataOf ds := List.flatMap_append

theorem nvdsData_append (os ps : List CfgEvent) :
    nvdsData (os ++ ps) = nvdsData os ++ nvdsData ps := by
  rw [nvdsData, commands_append, dataOf_append, nvdsData, nvdsData]

@[simp] theorem drop_nvdsPacket (k : UInt8) (data : List UInt8) : (nvdsPacket k data).drop 5 = data :=
  rfl

theorem dataOf_nvdsCommands (packets : List (List UInt8)) :
    dataOf (nvdsCommands packets) = packets.flatMap (·.drop 5) := by
  rw [dataOf, nvdsCommands, List.flatMap_map]
  simp only [if_true]

theorem batchPackets_cons (addr : Bdaddr) (k : ℕ) (b : List Tlv) (bs : List (List Tlv)) :
    batchPackets addr k (b :: bs) =
      nvdsPacket (UInt8.ofNat k) (sentBytes addr b) :: batchPackets addr (k + 1) bs := by
  rw [batchPackets, List.mapIdx_cons, batchPackets]
  simp only [Nat.add_zero, Nat.add_comm 1, Nat.add_assoc]

/-- The data of batches is that of their TLVs. -/
theorem data_batchPackets (addr : Bdaddr) (k : ℕ) (bs : List (List Tlv)) :
    (batchPackets addr k bs).flatMap (·.drop 5) = sentBytes addr bs.flatten := by
  induction bs generalizing k with
  | nil => rfl
  | cons b bs ih =>
    rw [batchPackets_cons, List.flatMap_cons, drop_nvdsPacket, ih, List.flatten_cons,
      sentBytes_append]

/-- The commands of the batches of an image carry its TLVs. -/
theorem faithful_nvBatches (addr : Bdaddr) (image : NvImage) :
    Faithful addr image.tlvs (batchPackets addr 0 (nvBatches image.tlvs)) where
  data := by rw [data_batchPackets, nvBatches, Greedy.flatten_batches]
  batches := by
    refine ⟨nvBatches image.tlvs, rfl, Greedy.flatten_batches _, ?_, ?_⟩
    · intro b hb
      have hne : b ≠ [] := Greedy.ne_nil_of_mem_batches hb
      have hpos := three_le_tlvsSize hne
      have hle : tlvsSize b ≤ 252 := by
        refine Greedy.total_le_of_mem_batches (fun t ht => ?_) b hb
        have := image.fits t ht
        rw [Tlv.size]
        omega
      rw [length_sentBytes]
      omega
    · intro pre b x xs post h
      exact Greedy.lt_of_batches h List.flatten_cons

/-! ## A download in reach of an `int` -/

section Reach

variable {addr : Bdaddr} {s t : ConfigState} {block : Block hciCmdPreambleSize}
  {inp : ℕ → CallbackIn} {n : ℕ} {os : List CfgEvent}

/-- **The batches are sent one after the other**, each in a callback of its own. -/
theorem FaultFree.batches (h : FaultFree inp) {k : ℕ} {ts : List Tlv}
    (hat : DownloadAt t (UInt8.ofNat k) ts) (hcb : t.btVendorCbacks = true)
    (hrun : RunTo addr s block inp n os ⟨t, 1⟩) :
    ∃ m ps u, RunTo addr s block inp m (os ++ ps) ⟨u, 1⟩ ∧
      commands ps = nvdsCommands (batchPackets addr k (nvBatches ts)) ∧ NvSent u := by
  induction hlen : ts.length using Nat.strongRecOn generalizing k ts t n os with
  | ind l ih =>
    cases ts with
    | nil =>
      have hsent : NvSent t := by
        cases hat with
        | sent hwCfg => exact ⟨by rw [hwCfg], by rw [hwCfg]⟩
      exact ⟨n, [], t, by rwa [List.append_nil], by rw [nvBatches, Greedy.batches_nil]; rfl, hsent⟩
    | cons x xs =>
      obtain ⟨event, block', hproceeds⟩ := h.proceeds hcb n
      obtain ⟨u, hyields, hcb', hu⟩ :=
        (hproceeds.nvSendCall addr hat.state_eq).tlvs hat (h.xmit n)
      obtain ⟨ps, hrun', hcommands, -⟩ := hyields.run hrun
      have hindex : UInt8.ofNat k + 1 = UInt8.ofNat (k + 1) := UInt8.ofNat_add k 1 |>.symm
      rw [hindex] at hu
      obtain ⟨m, ps', v, hrun'', hcommands', hsent⟩ :=
        ih _ (hlen ▸ length_nvOthers_lt x xs) hu hcb' hrun' rfl
      refine ⟨m, ps ++ ps', v, by rwa [← List.append_assoc], ?_, hsent⟩
      rw [commands_append, hcommands, hcommands', nvBatches_cons, batchPackets_cons]
      rfl

/-- An image whose batches all begin where an `int` holds it is downloaded faithfully. -/
theorem FaultFree.downloadsFaithfully (h : FaultFree inp) (hcb : s.btVendorCbacks = true)
    {event : List UInt8} (hevent : (inp 1).pMem = some event) (hchip : Is6316 event)
    {image : NvImage} (hfile : (inp 1).fopen nvFile6316 = some image.bytes)
    (hseek : image.lastStart < 2 ^ 31) : DownloadsFaithfully addr s block inp image := by
  obtain ⟨os, t, hrun, hstate, hcb', hcommands, -⟩ := h.version hcb
  obtain ⟨event', block', hproceeds⟩ := h.proceeds hcb' 1
  obtain rfl : event = event' := Option.some.inj (hevent.symm.trans hproceeds.pMem)
  have hpath : nvPath event = nvFile6316 := if_pos hchip
  obtain ⟨x, xs, htlvs⟩ := List.exists_cons_of_ne_nil image.nonempty
  -- the first batch, sent by the callback that opens the file
  obtain ⟨u, hyields, hcb'', hu⟩ := (hproceeds.openedCall addr hstate (hpath ▸ hfile)).tlvs
    (downloadAt_opened hchip hseek htlvs) (h.xmit 1)
  obtain ⟨ps, hrun', hcommands', -⟩ := hyields.run hrun
  -- the other batches
  obtain ⟨m, qs, v, hrun'', hcommands'', hsent⟩ := h.batches (k := 1) hu hcb'' hrun'
  refine ⟨m, _, v, batchPackets addr 0 (nvBatches image.tlvs), hrun'', hsent, ?_,
    faithful_nvBatches addr image⟩
  rw [commands_append, commands_append, hcommands, hcommands', hcommands'', htlvs, nvBatches_cons,
    batchPackets_cons]
  rfl

end Reach

/-! ## A download out of reach of an `int` -/

/-- How far behind a position with the sign bit set a stream can have come. -/
def signPart (pos : ℕ) : ℕ := if pos < 2 ^ 31 then 0 else pos - 2 ^ 31 + 6

theorem signPart_cases (pos : ℕ) :
    (pos < 2 ^ 31 ∧ signPart pos = 0) ∨ (2 ^ 31 ≤ pos ∧ signPart pos + 2 ^ 31 = pos + 6) := by
  rw [signPart]
  split
  · omega
  · omega

/-- The stream is off the data sent. It is ahead, by what was read and not sent; or it has been sought
back by `2 ^ 32`, and what it gains afterwards does not make up for that. -/
def Lost (pos sent : ℕ) : Prop :=
  (7 + sent ≤ pos ∧ 2 * pos ≤ 8 + 2 * sent + signPart pos) ∨
    2 * pos + 2 ^ 32 ≤ 8 + 2 * sent + signPart pos

/-- A stream that is off stays off. -/
theorem Lost.next {pos sent size : ℕ} (h : Lost pos sent) (f : CFile) (hpos : pos < 2 ^ 32 + 3)
    (hsize : 3 ≤ size) (hsize' : size ≤ 252) :
    Lost (f.seekBack (pos + size) 3).pos (sent + size) ∧
      (f.seekBack (pos + size) 3).pos < 2 ^ 32 + 3 := by
  have hcases := f.pos_seekBack 3 (by omega : pos + size < 2 ^ 32 + 2 ^ 31)
  have hsign := signPart_cases pos
  have hsign' := signPart_cases (f.seekBack (pos + size) 3).pos
  simp only [Lost] at h ⊢
  omega

/-- A stream that is off is not at the end when all has been sent. -/
theorem Lost.not_at_end {pos sent left : ℕ} (h : Lost pos sent) (hpos : pos < 2 ^ 32 + 3)
    (hleft : left < 3) : pos + left ≠ 4 + sent := by
  have hsign := signPart_cases pos
  simp only [Lost] at h
  omega

/-- A stream that is not sought back to where the next TLV begins is off from then on. -/
theorem lost_of_le {sent : ℕ} (f : CFile) (h : 2 ^ 31 ≤ 4 + sent) (h' : 4 + sent < 2 ^ 31 + 252) :
    Lost (f.seekBack (4 + sent) 3).pos sent ∧ (f.seekBack (4 + sent) 3).pos < 2 ^ 32 + 3 := by
  have hcases := f.pos_seekBack 3 (by omega : 4 + sent < 2 ^ 32 + 2 ^ 31)
  have hsign := signPart_cases (f.seekBack (4 + sent) 3).pos
  simp only [Lost]
  omega

theorem NvImage.length_bytes (image : NvImage) :
    image.bytes.length = 4 + tlvsSize image.tlvs := by
  rw [NvImage.bytes, List.length_append, image.header.size, length_encode]

/-- Where the stream stands when `sent` bytes of data have been sent: at the first TLV of the next
batch, or off it. -/
inductive Track (image : NvImage) (f : CFile) (sent : ℕ) : Prop
  | exact {done todo : List Tlv} (tlvs : image.tlvs = done ++ todo) (more : todo ≠ [])
      (rest : f.rest = encode todo) (pos : f.pos = 4 + sent) (total : sent = tlvsSize done)
      (last : lastBatch image.tlvs = tlvsSize done + lastBatch todo) (reach : f.pos < 2 ^ 31)
  | lost (inside : f.pos ≤ f.content.length) (bound : f.pos < 2 ^ 32 + 3) (lost : Lost f.pos sent)

/-- The machine is in the middle of the download of an image, or behind it. -/
inductive TrackAt (image : NvImage) (sent : ℕ) (s : ConfigState) : Prop
  | sending {k : UInt8} {f : CFile} (chip : s.chipVersion = skwChipid6316)
      (hwCfg : s.hwCfgCb = ⟨.nvSend, k, some f⟩) (content : f.content = image.bytes)
      (track : Track image f sent)
  | sent (h : NvSent s) (all : sent = tlvsSize image.tlvs → image.lastStart < 2 ^ 31)

section Track

variable {addr : Bdaddr} {s : ConfigState} {i : CallbackIn} {event : List UInt8}
  {block : Block hciCmdMaxLen} {c : Call} {image : NvImage} {k : UInt8} {f : CFile} {sent : ℕ}

/-- A download step sends some data and keeps track. -/
def StepKeepsTrack (addr : Bdaddr) (image : NvImage) (sent : ℕ) (s : ConfigState)
    (i : CallbackIn) : Prop :=
  ∃ t packet, CallbackYields addr s i t [(hciCmdSkwBtNvds, packet)] [] ∧
    t.btVendorCbacks = true ∧ TrackAt image (sent + (packet.drop 5).length) t

/-- A step from where the next TLV begins. -/
theorem NvSendCall.track_exact (h : NvSendCall addr s i event block c)
    (hchip : c.cfg.chipVersion = skwChipid6316) (hwCfg : c.cfg.hwCfgCb = ⟨.nvSend, k, some f⟩)
    (hcontent : f.content = image.bytes) {done : List Tlv} {x : Tlv} {xs : List Tlv}
    (htlvs : image.tlvs = done ++ x :: xs) (hrest : f.rest = encode (x :: xs))
    (hpos : f.pos = 4 + sent) (htotal : sent = tlvsSize done)
    (hlast : lastBatch image.tlvs = tlvsSize done + lastBatch (x :: xs)) (hreach : f.pos < 2 ^ 31)
    (hxmit : i.xmit = true) : StepKeepsTrack addr image sent s i := by
  have hfits : x.size ≤ 252 := by
    have := image.fits x (htlvs ▸ List.mem_append_right _ (List.mem_cons_self ..))
    rw [Tlv.size]
    omega
  have hsplit := nvBatch_append x xs
  rw [← hsplit, encode_append] at hrest
  have hne : (if nvOthers x xs = [] then PackEnd.fileEnd else .full) ≠ .truncated := by
    split <;> simp
  have hsize := @tlvsSize_nvBatch_le x xs hfits
  have hyields := h.batch hchip (by rw [hwCfg]) hrest hsize (stops_nvBatch x xs) hne
    (List.cons_ne_nil _ _) hxmit
  refine ⟨_, _, hyields, h.cbacks, ?_⟩
  rw [drop_nvdsPacket, length_sentBytes, hwCfg]
  -- the batch ends with the file, or a TLV that does not fit is sought back over
  by_cases hothers : nvOthers x xs = []
  · simp only [if_pos hothers, if_true]
    refine .sent ⟨rfl, rfl⟩ fun _ => ?_
    rw [NvImage.lastStart, hlast, lastBatch_of_nil hothers]
    omega
  · simp only [if_neg hothers, reduceCtorEq, if_false]
    have hsent : f.pos + tlvsSize (nvBatch x xs) = 4 + (sent + tlvsSize (nvBatch x xs)) := by omega
    rw [hsent]
    refine .sending hchip rfl (by rw [CFile.seekBack, CFile.content_fseek]; exact hcontent) ?_
    by_cases hseek : 4 + (sent + tlvsSize (nvBatch x xs)) < 2 ^ 31
    · rw [f.seekBack_of_lt 3 hseek]
      have htlvs' : image.tlvs = (done ++ nvBatch x xs) ++ nvOthers x xs := by
        rw [htlvs, List.append_assoc, hsplit]
      refine .exact htlvs' hothers ?_ rfl ?_ ?_ hseek
      · rw [← hsent, f.rest_moveTo_add, hrest, ← length_encode, List.drop_left]
      · rw [tlvsSize_append, htotal]
      · rw [hlast, lastBatch_cons hothers, tlvsSize_append, Nat.add_assoc]
    · -- from `2 ^ 31` on the position is negative in the `int`, and the stream is moved elsewhere
      obtain ⟨hlost, hbound⟩ := lost_of_le f (Nat.not_lt.mp hseek) (by omega)
      refine .lost ?_ hbound hlost
      have hpos' := f.pos_seekBack 3
        (by omega : 4 + (sent + tlvsSize (nvBatch x xs)) < 2 ^ 32 + 2 ^ 31)
      have hleft := three_le_tlvsSize hothers
      have hlength := f.length_rest
      rw [hrest, List.length_append, length_encode, length_encode] at hlength
      rw [CFile.seekBack, CFile.content_fseek, ← CFile.seekBack]
      show _ ≤ f.content.length
      omega

/-- A step from a position that is off. -/
theorem NvSendCall.track_lost (h : NvSendCall addr s i event block c)
    (hchip : c.cfg.chipVersion = skwChipid6316) (hwCfg : c.cfg.hwCfgCb = ⟨.nvSend, k, some f⟩)
    (hcontent : f.content = image.bytes) (hinside : f.pos ≤ f.content.length)
    (hbound : f.pos < 2 ^ 32 + 3) (hlost : Lost f.pos sent) (hxmit : i.xmit = true) :
    (∃ t, CallbackYields addr s i t [] []) ∨
      (scommVendorConfigCallback addr s i).state.hwCfgCb.state = .init ∨
      StepKeepsTrack addr image sent s i := by
  have hf : c.cfg.hwCfgCb.nvFp = some f := by rw [hwCfg]
  obtain ⟨b, e, tail, hrest, hfit, hstop⟩ := exists_batch f.rest 0 (Nat.zero_le _)
  rw [Nat.zero_add] at hfit hstop
  -- the bytes at a wrong position are cut off, none at all, or a batch like any other
  by_cases he : e = .truncated
  · rw [he] at hstop
    obtain ⟨t, packet, ⟨os, hcall, -, -⟩, hstate⟩ := h.truncated hchip hf hrest hfit hstop hxmit
    refine .inr (.inl ?_)
    rw [hcall]
    exact hstate
  by_cases hb : b = []
  · have hrest' : f.rest = tail := by
      rw [hrest, hb]
      rfl
    rw [← hrest', hb] at hstop
    exact .inl (h.empty hchip hf hstop he)
  · have hyields := h.batch hchip hf hrest hfit hstop he hb hxmit
    have hpos := three_le_tlvsSize hb
    have hlength := f.length_rest
    rw [hrest, List.length_append, length_encode] at hlength
    refine .inr (.inr ⟨_, _, hyields, h.cbacks, ?_⟩)
    rw [drop_nvdsPacket, length_sentBytes, hwCfg]
    cases e with
    | truncated => exact absurd rfl he
    | fileEnd =>
      simp only [if_true]
      refine .sent ⟨rfl, rfl⟩ fun htotal => ?_
      have hend := hlost.not_at_end hbound (show tail.length < 3 from hstop)
      rw [hcontent, image.length_bytes] at hlength hinside
      omega
    | full =>
      simp only [reduceCtorEq, if_false]
      refine .sending hchip rfl (by rw [CFile.seekBack, CFile.content_fseek]; exact hcontent) ?_
      obtain ⟨hlost', hbound'⟩ := hlost.next f hbound hpos hfit
      refine .lost ?_ hbound' hlost'
      have hpos' := f.pos_seekBack 3 (by omega : f.pos + tlvsSize b < 2 ^ 32 + 2 ^ 31)
      have hlong : 3 ≤ tail.length := hstop.1
      rw [CFile.seekBack, CFile.content_fseek, ← CFile.seekBack]
      show _ ≤ f.content.length
      omega

/-- **A step keeps track**, sends nothing, or ends the configuration. -/
theorem NvSendCall.track (h : NvSendCall addr s i event block c)
    (hchip : c.cfg.chipVersion = skwChipid6316) (hwCfg : c.cfg.hwCfgCb = ⟨.nvSend, k, some f⟩)
    (hcontent : f.content = image.bytes) (htrack : Track image f sent) (hxmit : i.xmit = true) :
    (∃ t, CallbackYields addr s i t [] []) ∨
      (scommVendorConfigCallback addr s i).state.hwCfgCb.state = .init ∨
      StepKeepsTrack addr image sent s i := by
  cases htrack with
  | @exact done todo htlvs hmore hrest hpos htotal hlast hreach =>
    obtain ⟨x, xs, rfl⟩ := List.exists_cons_of_ne_nil hmore
    exact .inr (.inr (h.track_exact hchip hwCfg hcontent htlvs hrest hpos htotal hlast hreach hxmit))
  | lost hinside hbound hlost =>
    exact h.track_lost hchip hwCfg hcontent hinside hbound hlost hxmit

/-- The stream behind the header of an image. -/
theorem track_opened (hchip : Is6316 event) (image : NvImage) :
    (nvStream event image.bytes).content = image.bytes ∧
      Track image (nvStream event image.bytes) 0 := by
  have hstream : nvStream event image.bytes = (CFile.fopen image.bytes).afterRead 4 := if_pos hchip
  have hlen : 4 ≤ (CFile.fopen image.bytes).rest.length := by
    rw [CFile.rest_fopen, image.length_bytes]
    omega
  have hpos := ((CFile.fopen image.bytes).afterRead_of_le 4 hlen).1
  have hzero : (CFile.fopen image.bytes).pos = 0 := rfl
  rw [hstream]
  refine ⟨rfl, .exact (List.nil_append _).symm image.nonempty ?_ (by omega) rfl ?_ (by omega)⟩
  · exact CFile.rest_afterRead_of_append _ 4 (CFile.rest_fopen image.bytes) image.header.size
  · rw [tlvsSize_nil, Nat.zero_add]

end Track

/-! ## Runs that keep track -/

/-- Where a run stands that has taken `n` callbacks and sent `sent` bytes of data. -/
inductive TrackPhase (image : NvImage) (n sent : ℕ) (t : Stack) : Prop
  | start (first : n = 0) (one : t.outstanding = 1) (cbacks : t.cfg.btVendorCbacks = true)
      (state : t.cfg.hwCfgCb.state = .start) (nothing : sent = 0)
  | version (second : n = 1) (one : t.outstanding = 1) (cbacks : t.cfg.btVendorCbacks = true)
      (state : t.cfg.hwCfgCb.state = .readHciVersion) (nothing : sent = 0)
  | download (one : t.outstanding = 1) (cbacks : t.cfg.btVendorCbacks = true)
      (track : TrackAt image sent t.cfg)
  | ended (state : t.cfg.hwCfgCb.state = .init ∨ t.cfg.hwCfgCb.state = .nvSendCmpl)
  | idle (none : t.outstanding = 0)

section Runs

variable {addr : Bdaddr} {s : ConfigState} {block : Block hciCmdPreambleSize}
  {inp : ℕ → CallbackIn} {event : List UInt8} {image : NvImage} {n sent : ℕ} {t u : Stack}
  {os : List CfgEvent}

/-- What a download step leaves behind. -/
theorem trackPhase_of_track {k : ℕ}
    (h : (∃ v, CallbackYields addr t.cfg (inp k) v [] []) ∨
      (scommVendorConfigCallback addr t.cfg (inp k)).state.hwCfgCb.state = .init ∨
      StepKeepsTrack addr image sent t.cfg (inp k)) (hone : t.outstanding = 1)
    (hstep : StackStep addr t (.callback (inp k)) os u) :
    TrackPhase image n (sent + (nvdsData os).length) u := by
  obtain ⟨cfg, out⟩ := t
  obtain rfl : out = 1 := hone
  rcases h with ⟨v, hyields⟩ | hinit | ⟨v, packet, hyields, hcb, htrack⟩
  · obtain ⟨rfl, -, -⟩ := hyields.of_step hstep
    exact .idle rfl
  · cases hstep with
    | callback _ hcall =>
      rw [hcall] at hinit
      exact .ended (.inl hinit)
  · obtain ⟨rfl, hcommands, -⟩ := hyields.of_step hstep
    have hdata : nvdsData os = packet.drop 5 := by
      rw [nvdsData, hcommands]
      exact (dataOf_nvdsCommands [packet]).trans (List.append_nil _)
    rw [hdata]
    exact .download rfl hcb htrack

/-- **A callback keeps a run on track.** -/
theorem TrackPhase.step (hphase : TrackPhase image n sent t) (h : FaultFree inp)
    (hevent : (inp 1).pMem = some event) (hchip : Is6316 event)
    (hfile : (inp 1).fopen nvFile6316 = some image.bytes)
    (hstep : StackStep addr t (.callback (inp n)) os u) :
    TrackPhase image (n + 1) (sent + (nvdsData os).length) u := by
  cases hphase with
  | start hn hone hcb hstate hsent =>
    obtain ⟨cfg, out⟩ := t
    obtain rfl : out = 1 := hone
    obtain ⟨event', block', hproceeds⟩ := h.proceeds hcb n
    obtain ⟨rfl, hcommands, -⟩ := (hproceeds.start hstate (h.xmit n)).of_step hstep
    have hdata : nvdsData os = [] := by
      rw [nvdsData, hcommands]
      rfl
    rw [hdata]
    exact .version (by omega) rfl hcb rfl hsent
  | version hn hone hcb hstate hsent =>
    subst hn hsent
    obtain ⟨event', block', hproceeds⟩ := h.proceeds hcb 1
    obtain rfl : event = event' := Option.some.inj (hevent.symm.trans hproceeds.pMem)
    have hpath : nvPath event = nvFile6316 := if_pos hchip
    obtain ⟨hcontent, htrack⟩ := track_opened hchip image
    have hcall := hproceeds.openedCall addr hstate (hpath ▸ hfile)
    exact trackPhase_of_track (hcall.track (if_pos hchip) rfl hcontent htrack (h.xmit 1)) hone hstep
  | download hone hcb htrack =>
    obtain ⟨event', block', hproceeds⟩ := h.proceeds hcb n
    cases htrack with
    | sending hchip hwCfg hcontent htrack =>
      have hcall := hproceeds.nvSendCall addr (by rw [hwCfg])
      exact trackPhase_of_track (hcall.track hchip hwCfg hcontent htrack (h.xmit n)) hone hstep
    -- everything is sent, and the address is written or the configuration ends
    | sent hsent _ =>
      obtain ⟨cfg, out⟩ := t
      obtain rfl : out = 1 := hone
      cases haddress : (inp n).storage.address? with
      | none =>
        obtain ⟨rfl, -, -⟩ := (hproceeds.writeBdAddr_none hsent.state haddress).of_step hstep
        exact .idle rfl
      | some address =>
        obtain ⟨rfl, -, -⟩ :=
          (hproceeds.writeBdAddr_some hsent.state haddress (h.xmit n)).of_step hstep
        exact .ended (.inr rfl)
  | ended hstate =>
    cases hstep with
    | callback _ hcall =>
      have hover := state_of_over addr (inp n) hstate
      rw [hcall] at hover
      exact .ended hover
  | idle hnone =>
    cases hstep with
    | callback hpos _ => exact absurd hpos (by rw [hnone]; exact Nat.lt_irrefl 0)

/-- Every run keeps track. -/
theorem trackPhase_of_run (hcb : s.btVendorCbacks = true) (h : FaultFree inp)
    (hevent : (inp 1).pMem = some event) (hchip : Is6316 event)
    (hfile : (inp 1).fopen nvFile6316 = some image.bytes)
    (hrun : RunTo addr s block inp n os u) : TrackPhase image n (nvdsData os).length u := by
  induction n generalizing os u with
  | zero =>
    obtain ⟨rfl, hcommands, -⟩ := hrun.zero hcb
    refine .start rfl rfl hcb rfl ?_
    rw [nvdsData, hcommands]
    rfl
  | succ n ih =>
    obtain ⟨t, ps, o, hprev, hstep, rfl⟩ := hrun.succ
    rw [nvdsData_append, List.length_append]
    exact (ih hprev).step h hevent hchip hfile hstep

/-- A download that has been faithful to its end was in reach. -/
theorem DownloadsFaithfully.inReach (hcb : s.btVendorCbacks = true) (h : FaultFree inp)
    (hevent : (inp 1).pMem = some event) (hchip : Is6316 event)
    (hfile : (inp 1).fopen nvFile6316 = some image.bytes)
    (hfaithful : DownloadsFaithfully addr s block inp image) : image.lastStart < 2 ^ 31 := by
  obtain ⟨n, os, t, packets, hrun, hsent, hcommands, hpackets⟩ := hfaithful
  have hdata : (nvdsData os).length = tlvsSize image.tlvs := by
    rw [nvdsData, hcommands, dataOf_append, dataOf_nvdsCommands, hpackets.data, List.length_append,
      length_sentBytes]
    exact Nat.zero_add _
  have hphase := trackPhase_of_run hcb h hevent hchip hfile hrun
  rw [hdata] at hphase
  cases hphase with
  | start _ _ _ hstate _ => exact absurd (hstate.symm.trans hsent.state) nofun
  | version _ _ _ hstate _ => exact absurd (hstate.symm.trans hsent.state) nofun
  | download _ _ htrack =>
    cases htrack with
    | sending _ hwCfg _ _ => exact absurd ((congrArg HwCfg.state hwCfg).symm.trans hsent.state) nofun
    | sent _ hall => exact hall rfl
  | ended hstate =>
    rw [show t.hwCfgCb.state = .writeBdAddr from hsent.state] at hstate
    simp at hstate
  | idle hnone => exact absurd hnone Nat.one_ne_zero

end Runs

/-- **The download of chip 0x5301 is faithful** if and only if an `int` holds where the last batch of
the image begins. -/
theorem download_faithful_iff {addr : Bdaddr} {s : ConfigState} {block : Block hciCmdPreambleSize}
    {inp : ℕ → CallbackIn} {event : List UInt8} {image : NvImage} (hcb : s.btVendorCbacks = true)
    (h : FaultFree inp) (hevent : (inp 1).pMem = some event) (hchip : Is6316 event)
    (hfile : (inp 1).fopen nvFile6316 = some image.bytes) :
    DownloadsFaithfully addr s block inp image ↔ image.lastStart < 2 ^ 31 :=
  ⟨DownloadsFaithfully.inReach hcb h hevent hchip hfile,
    h.downloadsFaithfully hcb hevent hchip hfile⟩

/-- Three commands. -/
theorem download_faithful_full :
    let image := fullImage 3 (by decide)
    let inp : ℕ → CallbackIn := fun _ => ⟨some version6316, some (.zero _), true,
      fun _ => some image.bytes, .openFails, .zero _⟩
    DownloadsFaithfully .initial ⟨true, ⟨.init, 0, none⟩, 0⟩ (.zero _) inp image := by
  intro image inp
  have hfree : FaultFree inp := ⟨fun _ => ⟨_, rfl, rfl⟩, fun _ => ⟨_, rfl⟩, fun _ => rfl⟩
  refine (download_faithful_iff rfl hfree rfl (by decide) rfl).mpr ?_
  rw [lastStart_fullImage]
  omega

/-- An image of 2 GiB is not downloaded faithfully. -/
theorem download_unfaithful_full :
    let image := fullImage 8521762 (by decide)
    let inp : ℕ → CallbackIn := fun _ => ⟨some version6316, some (.zero _), true,
      fun _ => some image.bytes, .openFails, .zero _⟩
    FaultFree inp ∧ Is6316 version6316 ∧
      ¬ DownloadsFaithfully .initial ⟨true, ⟨.init, 0, none⟩, 0⟩ (.zero _) inp image := by
  intro image inp
  have hfree : FaultFree inp := ⟨fun _ => ⟨_, rfl, rfl⟩, fun _ => ⟨_, rfl⟩, fun _ => rfl⟩
  refine ⟨hfree, by decide, fun hfaithful => ?_⟩
  have hreach := hfaithful.inReach rfl hfree rfl (by decide) rfl
  rw [lastStart_fullImage] at hreach
  omega

end Seekwave
