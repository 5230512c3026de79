import Seekwave.Config.Bringup
import Seekwave.Lib.Slots

/-!
# What a callback stores and sends

The commands given to `xmit_cb` are well formed, but for a batch that ends at a TLV that is cut off
(`commands_wellFormed_iff`): it is sent from a buffer that has been freed, behind whatever stands there in
place of the opcode. The stores of a download stay inside the command buffer if and only if a batch that
stops at a TLV leaves room for its header, and every address TLV begins where `bdaddr_lap` still fits
(`nv_writes_inside_iff`): the one is copied before it is known to fit, and the other is patched wherever
the parameter ends.
-/

open Memory

namespace Seekwave

/-- A well-formed command: the opcode in front, then as many bytes as the length byte says, and in an
NVDS command two less than that are data. -/
def CfgEvent.WellFormed : CfgEvent → Prop
  | .xmitCb opcode len bytes _ =>
    u16At bytes 0 = opcode ∧ len = 3 + (byteAt bytes 2).toNat ∧ len ≤ bytes.length ∧
      (opcode = hciCmdSkwBtNvds →
        (byteAt bytes 4).toNat + 2 = (byteAt bytes 2).toNat ∧ (byteAt bytes 4).toNat ≤ 252)
  | _ => True

/-- The events are well-formed commands, stores inside the buffer, or neither commands nor stores. -/
def Orderly (os : List CfgEvent) : Prop := ∀ o ∈ os, o.Inside ∧ o.WellFormed

theorem orderly_nil : Orderly [] := List.forall_mem_nil _

theorem orderly_append {os ps : List CfgEvent} : Orderly (os ++ ps) ↔ Orderly os ∧ Orderly ps :=
  List.forall_mem_append

theorem Orderly.cons {o : CfgEvent} {os : List CfgEvent} (ho : o.Inside ∧ o.WellFormed)
    (h : Orderly os) : Orderly (o :: os) := List.forall_mem_cons.mpr ⟨ho, h⟩

theorem orderly_xmitCb {opcode len : ℕ} {bytes : List UInt8} {ret : Bool}
    (h : (CfgEvent.xmitCb opcode len bytes ret).WellFormed) : Orderly [.xmitCb opcode len bytes ret] :=
  Orderly.cons ⟨trivial, h⟩ nofun

/-- Accesses that stay inside the buffer are no commands. -/
theorem orderly_of_use {ws : List CfgEvent} (hws : ∀ w ∈ ws, w.IsUse) (h : ∀ w ∈ ws, w.Inside) :
    Orderly ws := by
  intro w hw
  refine ⟨h w hw, ?_⟩
  have huse := hws w hw
  cases w with
  | xmitCb _ _ _ _ => exact huse.elim
  | _ => trivial

/-- The stores stay inside the buffer, and the commands are well formed if and only if `p`. -/
def OrderlyIff (os : List CfgEvent) (p : Prop) : Prop :=
  (∀ o ∈ os, o.Inside) ∧ ((∀ o ∈ os, o.WellFormed) ↔ p)

section OrderlyIff

variable {os ps : List CfgEvent} {p q : Prop}

theorem Orderly.orderlyIff (h : Orderly os) (hp : p) : OrderlyIff os p :=
  ⟨fun o ho => (h o ho).1, iff_of_true (fun o ho => (h o ho).2) hp⟩

theorem OrderlyIff.congr (h : OrderlyIff os p) (hpq : p ↔ q) : OrderlyIff os q := ⟨h.1, h.2.trans hpq⟩

theorem OrderlyIff.append_right (h : OrderlyIff os p) (hps : Orderly ps) : OrderlyIff (os ++ ps) p := by
  refine ⟨List.forall_mem_append.mpr ⟨h.1, fun o ho => (hps o ho).1⟩, ?_⟩
  rw [List.forall_mem_append, and_iff_left fun o ho => (hps o ho).2]
  exact h.2

theorem OrderlyIff.append_left (hps : Orderly ps) (h : OrderlyIff os p) : OrderlyIff (ps ++ os) p := by
  refine ⟨List.forall_mem_append.mpr ⟨fun o ho => (hps o ho).1, h.1⟩, ?_⟩
  rw [List.forall_mem_append, and_iff_right fun o ho => (hps o ho).2]
  exact h.2

end OrderlyIff

/-! ## Commands -/

section Commands

variable {bytes params : List UInt8} {x y z : UInt8} {opcode len : ℕ} {ret : Bool}

/-- A command that is no NVDS command. -/
theorem wellFormed_of_take (htake : bytes.take len = x :: y :: z :: params)
    (hop : x.toNat + 256 * y.toNat = opcode) (hlen : len = 3 + z.toNat)
    (hparams : params.length = z.toNat) (hnvds : opcode = hciCmdSkwBtNvds →
      (byteAt params 1).toNat + 2 = z.toNat ∧ 2 ≤ z.toNat ∧ (byteAt params 1).toNat ≤ 252) :
    (CfgEvent.xmitCb opcode len bytes ret).WellFormed := by
  have hle : len ≤ bytes.length := by
    have := congrArg List.length htake
    rw [List.length_take] at this
    simp only [List.length_cons] at this
    omega
  have hbyte : ∀ i < len, byteAt bytes i = byteAt (x :: y :: z :: params) i := fun i hi => by
    rw [← htake, byteAt_take hi]
  refine ⟨?_, ?_, hle, fun hop' => ?_⟩
  · rw [u16At, hbyte 0 (by omega), hbyte 1 (by omega)]
    exact hop
  · rw [hbyte 2 (by omega)]
    exact hlen
  · obtain ⟨heq, hpos, hfit⟩ := hnvds hop'
    rw [hbyte 2 (by omega), hbyte 4 (by omega)]
    exact ⟨heq, hfit⟩

/-- An NVDS command. -/
theorem wellFormed_nvds {index : UInt8} {data : List UInt8} {n : ℕ} (hlen : data.length = n)
    (hn : n ≤ 252) (htake : bytes.take (n + 5) = nvdsPacket index data) :
    (CfgEvent.xmitCb hciCmdSkwBtNvds (n + 5) bytes ret).WellFormed := by
  have hbyte : ∀ k ≤ 254, (UInt8.ofNat k).toNat = k := fun k hk =>
    UInt8.toNat_ofNat_of_lt' (Nat.lt_of_le_of_lt hk (by decide))
  have h₀ := hbyte n (by omega)
  have h₂ := hbyte (n + 2) (by omega)
  rw [← hlen] at h₀ h₂
  have htake' : bytes.take (n + 5) =
      0x80 :: 0xFC :: UInt8.ofNat (data.length + 2) :: index :: UInt8.ofNat data.length :: data := htake
  refine wellFormed_of_take htake' rfl (by omega) ?_ fun _ => ?_
  · rw [h₂]
    rfl
  · show (UInt8.ofNat data.length).toNat + 2 = _ ∧ _ ∧ (UInt8.ofNat data.length).toNat ≤ _
    omega

/-- An NVDS command behind two bytes that stand where the opcode should. -/
theorem wellFormed_nvds_iff {op data : List UInt8} {index : UInt8} {n : ℕ} (hop : op.length = 2)
    (hlen : data.length = n) (hn : n ≤ 252)
    (htake : bytes.take (n + 5) = op ++ [UInt8.ofNat (n + 2), index, UInt8.ofNat n] ++ data) :
    (CfgEvent.xmitCb hciCmdSkwBtNvds (n + 5) bytes ret).WellFormed ↔
      op = uint16ToStream hciCmdSkwBtNvds := by
  constructor
  · rintro ⟨hopcode, -⟩
    obtain ⟨x, y, rfl⟩ := List.length_eq_two.mp hop
    have hbyte (k : ℕ) (hk : k < n + 5) : byteAt bytes k =
        byteAt ([x, y] ++ [UInt8.ofNat (n + 2), index, UInt8.ofNat n] ++ data) k := by
      rw [← htake, byteAt_take hk]
    rw [u16At, hbyte 0 (by omega), hbyte 1 (by omega)] at hopcode
    -- a word has one way only to stand in two bytes
    have hsum : x.toNat + 256 * y.toNat = 0xFC80 := hopcode
    have hx : x = 0x80 := UInt8.toNat_inj.mp (by have := x.toNat_lt; show x.toNat = 128; omega)
    have hy : y = 0xFC := UInt8.toNat_inj.mp (by have := x.toNat_lt; show y.toNat = 252; omega)
    rw [hx, hy]
    rfl
  · rintro rfl
    have hpacket : bytes.take (n + 5) = nvdsPacket index data := by rw [htake, nvdsPacket, hlen]
    exact wellFormed_nvds hlen hn hpacket

end Commands

/-! ## Stores of a batch -/

/-- Every address TLV of a batch begins where `bdaddr_lap` still fits the buffer. -/
def AddressFits (addr : Bdaddr) (b : List Tlv) : Prop :=
  addr.valid = true → ∀ pre t post, b = pre ++ t :: post → t.nvTag = nvTagBdAddr →
    t.nvParam ≠ [] → tlvsSize pre ≤ 244

section Batch

variable {addr : Bdaddr} {t : Tlv} {b : List Tlv} {off : ℕ}

/-- The stores of a TLV that fits a command. -/
theorem inside_writes (hfit : off + t.size ≤ 257) :
    (∀ w ∈ t.writes addr off, w.Inside) ↔
      (addr.valid = true → t.nvTag = nvTagBdAddr → t.nvParam ≠ [] → off ≤ 249) := by
  have hsize : t.size = t.nvParam.length + 3 := rfl
  have hheader : (CfgEvent.write off t.header).Inside := by
    show off + 3 ≤ 258
    omega
  have hparam : (CfgEvent.write (off + 3) t.nvParam).Inside := by
    show off + 3 + t.nvParam.length ≤ 258
    omega
  rw [Tlv.writes, List.forall_mem_cons, and_iff_right hheader]
  -- a TLV without a parameter stores its header only
  by_cases hpos : 0 < t.nvParam.length
  · have hne : t.nvParam ≠ [] := List.ne_nil_of_length_pos hpos
    rw [if_pos hpos, Tlv.paramWrites, List.forall_mem_cons, and_iff_right hparam]
    -- the address is put at byte 3 of the parameter, however long that is
    by_cases hpatch : t.nvTag = nvTagBdAddr ∧ addr.valid = true
    · have hlap : (CfgEvent.write (off + 3 + 3) addr.lap.cells).Inside ↔ off ≤ 249 := by
        show off + 3 + 3 + addr.lap.cells.length ≤ 258 ↔ _
        rw [addr.lap.size]
        omega
      rw [if_pos hpatch, List.forall_mem_singleton, hlap]
      exact ⟨fun h _ _ _ => h, fun h => h hpatch.2 hpatch.1 hne⟩
    · rw [if_neg hpatch]
      exact iff_of_true (by simp) fun hvalid htag => absurd ⟨htag, hvalid⟩ hpatch
  · rw [if_neg hpos]
    have hnil : t.nvParam = [] := List.eq_nil_of_length_eq_zero (by omega)
    exact iff_of_true (by simp) fun _ _ hne => absurd hnil hne

/-- **The stores of a batch.** -/
theorem inside_batchWrites (hfit : off + tlvsSize b ≤ 257) :
    (∀ w ∈ batchWrites addr off b, w.Inside) ↔
      (addr.valid = true → ∀ pre t post, b = pre ++ t :: post → t.nvTag = nvTagBdAddr →
        t.nvParam ≠ [] → off + tlvsSize pre ≤ 249) := by
  induction b generalizing off with
  | nil =>
    refine iff_of_true nofun fun _ pre t post h => ?_
    exact absurd h.symm (List.append_ne_nil_of_right_ne_nil _ (List.cons_ne_nil _ _))
  | cons u b ih =>
    rw [tlvsSize_cons] at hfit
    rw [batchWrites, List.forall_mem_append, inside_writes (by omega), ih (by omega)]
    -- an address TLV of the batch is its first one, or one of the rest behind it
    constructor
    · rintro ⟨hu, hb⟩ hvalid pre t post h htag hne
      cases pre with
      | nil =>
        obtain ⟨rfl, -⟩ := List.cons.inj h
        exact hu hvalid htag hne
      | cons v pre =>
        obtain ⟨rfl, hsplit⟩ := List.cons.inj h
        rw [tlvsSize_cons, ← Nat.add_assoc]
        exact hb hvalid pre t post hsplit htag hne
    · intro h
      refine ⟨fun hvalid => h hvalid [] u b rfl, fun hvalid pre t post hsplit htag hne => ?_⟩
      have := h hvalid (u :: pre) t post (congrArg (u :: ·) hsplit) htag hne
      rwa [tlvsSize_cons, ← Nat.add_assoc] at this

/-- The stores of a batch and of what stops it, at the beginning of the data. -/
theorem inside_pack {e : PackEnd} {tail : List UInt8} (hfit : tlvsSize b ≤ 252)
    (hstop : e.Stops tail (tlvsSize b)) :
    (∀ w ∈ batchWrites addr 5 b ++ e.writes (5 + tlvsSize b) tail, w.Inside) ↔
      (e = .full → tlvsSize b ≤ 250) ∧ AddressFits addr b := by
  have hbatch := @inside_batchWrites addr b 5 (by omega)
  have haddress : AddressFits addr b ↔ ∀ w ∈ batchWrites addr 5 b, w.Inside := by
    rw [hbatch, AddressFits]
    refine forall_congr' fun _ => forall_congr' fun pre => ?_
    rw [show 5 + tlvsSize pre ≤ 249 ↔ tlvsSize pre ≤ 244 by omega]
  rw [List.forall_mem_append, haddress, and_comm]
  refine and_congr_left fun _ => ?_
  -- the header of the TLV that stops the batch is stored too, in front of the test of its size
  cases e with
  | fileEnd => exact iff_of_true nofun nofun
  | full =>
    have hhead : (tail.take 3).length = 3 := List.length_take_of_le hstop.1
    rw [PackEnd.writes, List.forall_mem_singleton]
    show 5 + tlvsSize b + (tail.take 3).length ≤ 258 ↔ _
    rw [hhead]
    exact ⟨fun h _ => by omega, fun h => by have := h rfl; omega⟩
  | truncated =>
    obtain ⟨hlong, hle, hshort⟩ := hstop
    refine iff_of_true ?_ nofun
    rw [PackEnd.writes, List.forall_mem_cons, List.forall_mem_singleton]
    constructor
    · show 5 + tlvsSize b + (tail.take 3).length ≤ 258
      rw [List.length_take]
      omega
    · show 5 + tlvsSize b + 3 + (tail.drop 3).length ≤ 258
      rw [List.length_drop]
      omega

end Batch

/-! ## The download -/

section Download

variable {addr : Bdaddr} {i : CallbackIn} {c : Call} {f : CFile} {b : List Tlv} {e : PackEnd}
  {tail : List UInt8}

theorem orderly_initErr (c : Call) (freed : Block hciCmdMaxLen) :
    ∃ es, (c.scommVendorInitErr freed).outcome.2.2 = c.trace ++ es ∧ Orderly es := by
  rw [Call.scommVendorInitErr, Call.closeNv]
  split
  · exact ⟨[.deallocBuf], rfl, by simp [Orderly, CfgEvent.Inside, CfgEvent.WellFormed]⟩
  · exact ⟨[.deallocBuf, .fclose],
      by simp [Flow.outcome, Call.emit, Call.deallocBuf, Call.setFile, Call.setState],
      by simp [Orderly, CfgEvent.Inside, CfgEvent.WellFormed]⟩

theorem orderly_endOfFile (c : Call) (fileEnd : Bool) :
    ∃ es, (c.endOfFile fileEnd).outcome.2.2 = c.trace ++ es ∧ Orderly es := by
  rw [Call.endOfFile, Call.closeNv]
  split
  · split
    · exact ⟨[], (List.append_nil _).symm, orderly_nil⟩
    · exact ⟨[.fclose], rfl, by simp [Orderly, CfgEvent.Inside, CfgEvent.WellFormed]⟩
  · exact ⟨[], (List.append_nil _).symm, orderly_nil⟩

theorem orderly_nvdsWrites (n : ℕ) (index : UInt8) : Orderly (nvdsWrites n index) := by
  refine orderly_of_use (isUse_nvdsWrites n index) ?_
  simp [nvdsWrites, CfgEvent.Inside, hciCmdMaxLen]

variable (i) in
/-- What stands behind the packing loop: the command is the one that the buffer holds. -/
theorem orderlyIff_xmit {n : ℕ} (hn : n ≤ 252) (hmem : 258 ≤ c.mem.length) (fileEnd : Bool) :
    ∃ es, (if 0 < n then
        if i.xmit = false then (c.xmitNvds n i.xmit).scommVendorInitErr i.freed
        else (c.xmitNvds n i.xmit).endOfFile fileEnd
      else c.endOfFile fileEnd).outcome.2.2 = c.trace ++ es ∧
        OrderlyIff es (0 < n → c.mem.take 2 = uint16ToStream hciCmdSkwBtNvds) := by
  by_cases hpos : 0 < n
  · obtain ⟨m, -, hm, hsent⟩ := @xmitNvds_spec c n (by omega) i.xmit
    have hdata : ((c.mem.drop 5).take n).length = n := by
      rw [List.length_take, List.length_drop]
      omega
    have htwo : (c.mem.take 2).length = 2 := List.length_take_of_le (by omega)
    have htrace : (c.xmitNvds n i.xmit).trace = c.trace ++
        (nvdsWrites n c.cfg.hwCfgCb.fileOffset ++ [.xmitCb hciCmdSkwBtNvds (n + 5) m i.xmit]) := by
      rw [hsent, ← List.append_assoc]
    -- all but the first two bytes of the command is put there by `nvdsWrites`
    have hcommand : OrderlyIff (nvdsWrites n c.cfg.hwCfgCb.fileOffset ++
        [.xmitCb hciCmdSkwBtNvds (n + 5) m i.xmit])
        (0 < n → c.mem.take 2 = uint16ToStream hciCmdSkwBtNvds) := by
      refine .append_left (orderly_nvdsWrites _ _) ⟨List.forall_mem_singleton.mpr trivial, ?_⟩
      rw [List.forall_mem_singleton, wellFormed_nvds_iff htwo hdata hn hm]
      exact ⟨fun h _ => h, fun h => h hpos⟩
    rw [if_pos hpos]
    split
    · obtain ⟨es, hes, horderly⟩ := orderly_initErr (c.xmitNvds n i.xmit) i.freed
      exact ⟨_, by rw [hes, htrace, List.append_assoc], hcommand.append_right horderly⟩
    · obtain ⟨es, hes, horderly⟩ := orderly_endOfFile (c.xmitNvds n i.xmit) fileEnd
      exact ⟨_, by rw [hes, htrace, List.append_assoc], hcommand.append_right horderly⟩
  · rw [if_neg hpos]
    obtain ⟨es, hes, horderly⟩ := orderly_endOfFile c fileEnd
    exact ⟨es, hes, horderly.orderlyIff fun h => absurd h hpos⟩

/-- **The download of chip 0x5301** stores a batch and what stops it. All else is in order, unless the
buffer has been freed and its memory has lost the opcode. -/
theorem nvSend6316_trace (hf : c.cfg.hwCfgCb.nvFp = some f) (hrest : f.rest = encode b ++ tail)
    (hfit : tlvsSize b ≤ 252) (hstop : e.Stops tail (tlvsSize b)) (hmem : 258 ≤ c.mem.length)
    (hop : c.mem.take 2 = uint16ToStream hciCmdSkwBtNvds) :
    ∃ es, (nvSend6316 addr i c).outcome.2.2 =
        c.trace ++ (batchWrites addr 5 b ++ e.writes (5 + tlvsSize b) tail) ++ es ∧
      OrderlyIff es (e = .truncated → i.freed.cells.take 2 = uint16ToStream hciCmdSkwBtNvds) := by
  obtain ⟨c', f', hpacked, htrace, hflow⟩ := nvSend6316_packed addr i hf hrest hfit hstop hmem
  have hmemLe := hpacked.memLe
  have hop' := hpacked.opcode.trans hop
  rw [List.append_assoc] at htrace
  by_cases he : e = .truncated
  · -- the command is made in the memory that has just been freed
    have hle : tlvsSize b + 3 ≤ 252 := by
      rw [he] at hstop
      obtain ⟨-, hle, -⟩ := hstop
      omega
    have hfreed : i.freed.cells.length = 258 := i.freed.size
    rw [if_pos he, if_pos he, hpacked.scommVendorInitErr, Flow.bind_done] at hflow
    obtain ⟨es, hes, horderly⟩ := @orderlyIff_xmit i { c' with
      cfg := c.cfg.setHwCfg ⟨.init, c.cfg.hwCfgCb.fileOffset, none⟩
      mem := i.freed.cells
      trace := c'.trace ++ [.deallocBuf, .fclose] } (tlvsSize b + 3) hle
      (Nat.le_of_eq hfreed.symm) (e = .fileEnd)
    have hfree : Orderly [.deallocBuf, .fclose] := by
      simp [Orderly, CfgEvent.Inside, CfgEvent.WellFormed]
    refine ⟨[.deallocBuf, .fclose] ++ es, ?_, (horderly.append_left hfree).congr ?_⟩
    · rw [hflow, hes, htrace, List.append_assoc _ [_, _] es]
    · exact ⟨fun h _ => h (by omega), fun h _ => h he⟩
  · rw [if_neg he, if_neg he, Nat.add_zero, Flow.bind_done] at hflow
    obtain ⟨es, hes, horderly⟩ :=
      @orderlyIff_xmit i c' (tlvsSize b) hfit (Nat.le_trans hmem hmemLe) (e = .fileEnd)
    exact ⟨es, by rw [hflow, hes, htrace], horderly.congr
      (iff_of_true (fun _ => hop') fun h => absurd h he)⟩

/-- The download of the other chips is in order. -/
theorem nvSendBlock_trace (hf : c.cfg.hwCfgCb.nvFp = some f) (hmem : 258 ≤ c.mem.length)
    (hop : c.mem.take 2 = uint16ToStream hciCmdSkwBtNvds) :
    ∃ es, (nvSendBlock addr i c).outcome.2.2 = c.trace ++ es ∧ Orderly es := by
  obtain ⟨ws, m, hws, hinside, hm, hout⟩ := @nvSendBlock_outcome addr i c f hf hmem hop
  have hblock := f.length_fread nvFileRdBlockSize
  have hsize : nvFileRdBlockSize = 252 := rfl
  have hcommand (ret : Bool) : (CfgEvent.xmitCb hciCmdSkwBtNvds
      ((f.fread nvFileRdBlockSize).length + 5) m ret).WellFormed :=
    wellFormed_nvds (length_patchedBlock _ _ _) (by omega) hm
  have hwrites := orderly_of_use hws hinside
  rw [hout]
  split
  · refine ⟨_, List.append_assoc .., orderly_append.mpr ⟨hwrites, ?_⟩⟩
    refine Orderly.cons ⟨trivial, hcommand true⟩ (Orderly.cons ⟨trivial, trivial⟩ ?_)
    split <;> simp [Orderly, CfgEvent.Inside, CfgEvent.WellFormed]
  · split
    all_goals
      refine ⟨_, List.append_assoc .., orderly_append.mpr ⟨hwrites, ?_⟩⟩
      refine Orderly.cons ⟨trivial, hcommand false⟩ (Orderly.cons ⟨trivial, trivial⟩ ?_)
      simp [Orderly, CfgEvent.Inside, CfgEvent.WellFormed]

/-- **A turn of the download** is in order, but for the stores of a batch of chip 0x5301 and for the
command of one that ends at a TLV that is cut off. -/
theorem NvTurn.stores {s : ConfigState} {chip : ℕ} (h : NvTurn addr s i chip f c)
    (hrest : f.rest = encode b ++ tail) (hfit : tlvsSize b ≤ 252)
    (hstop : e.Stops tail (tlvsSize b)) :
    ∃ ps es, (scommVendorConfigCallback addr s i).trace = ps ++ (if chip = skwChipid6316 then
        batchWrites addr 5 b ++ e.writes (5 + tlvsSize b) tail else []) ++ es ∧
      Orderly ps ∧ OrderlyIff es (chip = skwChipid6316 → e = .truncated →
        i.freed.cells.take 2 = uint16ToStream hciCmdSkwBtNvds) := by
  let c₀ := c.store 0 (uint16ToStream hciCmdSkwBtNvds)
  have hmem : 258 ≤ c₀.mem.length := Nat.le_trans h.memory (length_le_length_store _ _ _)
  have hop : c₀.mem.take 2 = uint16ToStream hciCmdSkwBtNvds := take_store (Nat.zero_le _) rfl
  have hps : Orderly c₀.trace := by
    refine orderly_append.mpr ⟨?_, Orderly.cons ⟨?_, trivial⟩ nofun⟩
    · rcases h.trace with ⟨htrace, -⟩ | ⟨path, htrace, -⟩
      all_goals simp [htrace, Orderly, CfgEvent.Inside, CfgEvent.WellFormed]
    · simp [CfgEvent.Inside, uint16ToStream, hciCmdMaxLen]
  -- in front of the download come the file and the opcode, behind it the event is freed
  obtain ⟨qs, htrace, hqs⟩ := exists_trace_finish i.pMem (caseNvSend addr i c)
  have hqs' : Orderly qs := by
    rcases hqs with rfl | rfl <;> simp [Orderly, CfgEvent.Inside, CfgEvent.WellFormed]
  rw [h.callback, htrace]
  by_cases hchip : chip = skwChipid6316
  · obtain ⟨es, hes, horderly⟩ := @nvSend6316_trace addr i c₀ f b e tail h.file hrest hfit hstop hmem hop
    rw [caseNvSend_6316 (h.chip.trans hchip), hes, if_pos hchip, List.append_assoc _ es]
    exact ⟨_, es ++ qs, rfl, hps, (horderly.append_right hqs').congr
      ⟨fun h _ => h, fun h => h hchip⟩⟩
  · obtain ⟨es, hes, horderly⟩ := @nvSendBlock_trace addr i c₀ f h.file hmem hop
    rw [caseNvSend_other fun h' => hchip (h.chip.symm.trans h'), hes, if_neg hchip,
      List.append_assoc _ es]
    exact ⟨_, es ++ qs, by rw [List.append_nil], hps,
      (orderly_append.mpr ⟨horderly, hqs'⟩).orderlyIff fun h => absurd h hchip⟩

end Download

/-! ## The other cases -/

/-- What an event does to `hw_cfg_cb.nv_fp`. -/
def CfgEvent.nvFp? : CfgEvent → Option (SlotEvent Unit Unit)
  | .fopen _ true => some (.acquired () ())
  | .fclose => some (.released () ())
  | _ => none

/-- A callback that opens and closes nothing, and does not leave the NV file behind. -/
structure Apart (s : ConfigState) (i : CallbackIn) (r : CfgResult) : Prop where
  orderly : Orderly r.trace
  files : ∀ o ∈ r.trace, o.nvFp? = none
  hwCfg : r.state.hwCfgCb = s.hwCfgCb ∨ s.hwCfgCb.state ≠ .nvSend ∧
    r.state.hwCfgCb.state ≠ .nvSend ∧
      (r.state.hwCfgCb.nvFp = s.hwCfgCb.nvFp ∨ r.state.hwCfgCb.nvFp = none)
  returned : r.returned = true ∨ s.hwCfgCb.state = .readHciVersion ∧ i.pMem = none ∨
    s.hwCfgCb.state = .nvSend ∧ s.hwCfgCb.nvFp = none

section Apart

variable {addr : Bdaddr} {s : ConfigState} {i : CallbackIn} {flow : Flow} {ps : List CfgEvent}

/-- The events of a switch that is apart. -/
theorem apart_finish (ws es : List CfgEvent) (htrace : flow.outcome.2.2 = ps ++ ws ++ es) (hps : Orderly ps)
    (hps' : ∀ o ∈ ps, o.nvFp? = none) (hws : ∀ w ∈ ws, w.IsUse) (hinside : ∀ w ∈ ws, w.Inside)
    (hes : Orderly es) (hes' : ∀ o ∈ es, o.nvFp? = none)
    (hcfg : flow.outcome.2.1.hwCfgCb = s.hwCfgCb ∨ s.hwCfgCb.state ≠ .nvSend ∧
      flow.outcome.2.1.hwCfgCb.state ≠ .nvSend ∧
        (flow.outcome.2.1.hwCfgCb.nvFp = s.hwCfgCb.nvFp ∨ flow.outcome.2.1.hwCfgCb.nvFp = none))
    (hreturned : flow.outcome.1 ≠ .crashed ∨ s.hwCfgCb.state = .readHciVersion ∧ i.pMem = none ∨
      s.hwCfgCb.state = .nvSend ∧ s.hwCfgCb.nvFp = none) :
    Apart s i (flow.finish i.pMem) := by
  obtain ⟨qs, hqs, hq⟩ := exists_trace_finish i.pMem flow
  have hfinish : Orderly qs ∧ ∀ o ∈ qs, o.nvFp? = none := by
    rcases hq with rfl | rfl <;>
      simp [Orderly, CfgEvent.Inside, CfgEvent.WellFormed, CfgEvent.nvFp?]
  have huse : ∀ w ∈ ws, w.nvFp? = none := by
    intro w hw
    have := hws w hw
    cases w <;> first | rfl | exact this.elim
  rw [htrace] at hqs
  exact {
    orderly := by
      rw [hqs]
      exact orderly_append.mpr ⟨orderly_append.mpr ⟨orderly_append.mpr
        ⟨hps, orderly_of_use hws hinside⟩, hes⟩, hfinish.1⟩
    files := by
      simp only [hqs, List.forall_mem_append]
      exact ⟨⟨⟨hps', huse⟩, hes'⟩, hfinish.2⟩
    hwCfg := by rwa [state_finish]
    returned := hreturned.imp_left (returned_finish _ _).mpr }

/-- A switch that does nothing. -/
theorem apart_idle {c : Call} (hcfg : c.cfg = s) (hps : Orderly c.trace)
    (hps' : ∀ o ∈ c.trace, o.nvFp? = none) : Apart s i ((Flow.done c).finish i.pMem) :=
  apart_finish [] [] (by simp [Flow.outcome]) hps hps' nofun nofun nofun nofun
    (.inl (congrArg ConfigState.hwCfgCb hcfg)) (.inl nofun)

/-- A call that has opened and closed nothing, with the globals as they were. -/
structure Fresh (s : ConfigState) (c : Call) : Prop where
  cfg : c.cfg = s
  orderly : Orderly c.trace
  files : ∀ o ∈ c.trace, o.nvFp? = none

theorem fresh_enter (s : ConfigState) (block : Block hciCmdMaxLen) : Fresh s (.enter s block) where
  cfg := rfl
  orderly := by simp [Call.enter, Orderly, CfgEvent.Inside, CfgEvent.WellFormed]
  files := by simp [Call.enter, CfgEvent.nvFp?]

variable {c : Call}

/-- A case that leaves its state for one that is not `HW_CFG_NV_SEND` either. -/
theorem Fresh.apart_leave (h : Fresh s c) {ws es : List CfgEvent} {fe : FlowEnd} {cfg : ConfigState}
    (hout : flow.outcome = (fe, cfg, c.trace ++ ws ++ es)) (hws : ∀ w ∈ ws, w.IsUse)
    (hinside : ∀ w ∈ ws, w.Inside) (hes : Orderly es) (hes' : ∀ o ∈ es, o.nvFp? = none)
    (hstate : s.hwCfgCb.state ≠ .nvSend) (hstate' : cfg.hwCfgCb.state ≠ .nvSend)
    (hfile : cfg.hwCfgCb.nvFp = s.hwCfgCb.nvFp ∨ cfg.hwCfgCb.nvFp = none) (hend : fe ≠ .crashed) :
    Apart s i (flow.finish i.pMem) := by
  refine apart_finish ws es (congrArg (·.2.2) hout) h.orderly h.files hws hinside hes hes' ?_ ?_
  · rw [hout]
    exact .inr ⟨hstate, hstate', hfile⟩
  · rw [hout]
    exact .inl hend

theorem Fresh.apart_start (h : Fresh s c) (hstate : s.hwCfgCb.state = .start) :
    Apart s i ((caseStart i c).finish i.pMem) := by
  obtain ⟨ws, m, hws, hinside, hm, hout⟩ := @caseStart_outcome i c
  rw [h.cfg] at hout
  exact h.apart_leave hout hws hinside (orderly_xmitCb (wellFormed_of_take hm rfl rfl rfl nofun))
    (by simp [CfgEvent.nvFp?]) (by rw [hstate]; nofun) nofun (.inl rfl) nofun

/-- `HW_CFG_READ_HCI_VERSION` without an event, or without a file of the chip that it tells. -/
theorem Fresh.apart_readHciVersion (h : Fresh s c) (hstate : s.hwCfgCb.state = .readHciVersion)
    (hmissing : ∀ event, i.pMem = some event → i.fopen (nvPath event) = none) :
    Apart s i ((caseReadHciVersion addr i c).finish i.pMem) := by
  -- without an event there is no version to read
  cases hevent : i.pMem with
  | none =>
    have hcrash : caseReadHciVersion addr i c = .crash c := by rw [caseReadHciVersion, hevent]
    rw [hcrash, ← hevent]
    exact apart_finish [] [] (by simp [Flow.outcome]) h.orderly h.files (by simp) (by simp) orderly_nil
      (by simp)
      (.inl (congrArg ConfigState.hwCfgCb h.cfg)) (.inr (.inl ⟨hstate, hevent⟩))
  | some event =>
    have hout := @caseReadHciVersion_missing addr i c event hevent (hmissing event hevent)
    rw [← List.append_nil c.trace] at hout
    rw [← hevent]
    exact h.apart_leave hout (by simp) (by simp)
      (by simp [Orderly, CfgEvent.Inside, CfgEvent.WellFormed]) (by simp [CfgEvent.nvFp?])
      (by simp [hstate]) (fun h => by cases h) (.inr rfl) (by simp)

/-- `HW_CFG_NV_SEND` without a file: the opcode is stored, and `fread` does not return. -/
theorem Fresh.apart_nvSend (h : Fresh s c) (hstate : s.hwCfgCb.state = .nvSend)
    (hfile : s.hwCfgCb.nvFp = none) : Apart s i ((caseNvSend addr i c).finish i.pMem) := by
  have hcrash : caseNvSend addr i c =
      .crash (c.store 0 (uint16ToStream hciCmdSkwBtNvds)) := by
    simp [caseNvSend, nvSend6316, nvSendBlock, Call.store, h.cfg, hfile]
  rw [hcrash]
  exact apart_finish [.write 0 (uint16ToStream hciCmdSkwBtNvds)] []
    (by simp [Flow.outcome, Call.store]) h.orderly h.files (by simp [CfgEvent.IsUse])
    (by simp [CfgEvent.Inside, uint16ToStream, hciCmdMaxLen]) orderly_nil (by simp)
    (.inl (congrArg ConfigState.hwCfgCb h.cfg)) (.inr (.inr ⟨hstate, hfile⟩))

theorem Fresh.apart_writeBdAddr (h : Fresh s c) (hstate : s.hwCfgCb.state = .writeBdAddr) :
    Apart s i ((caseWriteBdAddr i c).finish i.pMem) := by
  cases haddress : i.storage.address? with
  | none =>
    obtain ⟨ws, hws, hinside, hout⟩ := @caseWriteBdAddr_none i c haddress
    rw [h.cfg] at hout
    exact h.apart_leave hout hws hinside (by simp [Orderly, CfgEvent.Inside, CfgEvent.WellFormed])
      (by simp [CfgEvent.nvFp?]) (by simp [hstate]) (fun h => by cases h) (.inl rfl) (by simp)
  | some address =>
    obtain ⟨ws, m, hws, hinside, hm, hout⟩ := @caseWriteBdAddr_some i c address haddress
    have hparams : address.cells.reverse.length = 6 := by
      rw [List.length_reverse, address.size]
      rfl
    rw [h.cfg] at hout
    exact h.apart_leave hout hws hinside
      (orderly_xmitCb (wellFormed_of_take hm rfl rfl hparams fun h => by cases h)) (by simp [CfgEvent.nvFp?])
      (by simp [hstate]) (fun h => by cases h) (.inl rfl) (by simp)

theorem Fresh.apart_nvSendCmpl (h : Fresh s c) (hstate : s.hwCfgCb.state = .nvSendCmpl) :
    Apart s i ((caseNvSendCmpl c).finish i.pMem) := by
  have hout := @caseNvSendCmpl_outcome c
  rw [h.cfg, ← List.append_nil c.trace] at hout
  exact h.apart_leave hout (by simp) (by simp) (by simp [Orderly, CfgEvent.Inside, CfgEvent.WellFormed])
    (by simp [CfgEvent.nvFp?]) (by simp [hstate]) (fun h => by cases h) (.inl rfl) (by simp)

/-- **A callback that does not execute `HW_CFG_NV_SEND`.** -/
theorem callback_apart (addr : Bdaddr) (h : nvTurn s i = none) :
    Apart s i (scommVendorConfigCallback addr s i) := by
  rw [scommVendorConfigCallback]
  by_cases hgo : cmdCmplStatus i.pMem = 0 ∧ s.btVendorCbacks = true
  · rw [if_pos hgo]
    cases halloc : i.alloc with
    | none =>
      have hps : Orderly [.alloc false] := Orderly.cons ⟨trivial, trivial⟩ orderly_nil
      exact apart_idle rfl hps (by simp [CfgEvent.nvFp?])
    | some block =>
      have hfresh := fresh_enter s block
      have hidle := @apart_idle s i _ hfresh.cfg hfresh.orderly hfresh.files
      rw [nvTurn, if_pos ⟨hgo.1, hgo.2, by rw [halloc]; rfl⟩] at h
      show Apart s i ((configSwitch addr i (.enter s block)).finish i.pMem)
      rw [configSwitch, show (Call.enter s block).cfg.hwCfgCb.state = s.hwCfgCb.state from rfl]
      -- a case that no turn of the download is: it sends one command of its own, or none
      cases hstate : s.hwCfgCb.state with
      | start => exact hfresh.apart_start hstate
      | readHciVersion =>
        refine hfresh.apart_readHciVersion hstate fun event hevent => ?_
        rw [hstate, hevent, Option.bind_some] at h
        exact Option.map_eq_none_iff.mp h
      | nvSend =>
        rw [hstate] at h
        exact hfresh.apart_nvSend hstate (Option.map_eq_none_iff.mp h)
      | writeBdAddr => exact hfresh.apart_writeBdAddr hstate
      | nvSendCmpl => exact hfresh.apart_nvSendCmpl hstate
      | init => exact hidle
      | writeOsType => exact hidle
      | resetController => exact hidle
      | initComplete => exact hidle
  · rw [if_neg hgo]
    exact apart_idle rfl orderly_nil (by simp)

end Apart

/-! ## Commands are well formed -/

section WellFormed

variable {addr : Bdaddr} {s : ConfigState}

theorem isUse_batchWrites (addr : Bdaddr) (off : ℕ) (b : List Tlv) :
    ∀ w ∈ batchWrites addr off b, w.IsUse := by
  induction b generalizing off with
  | nil => nofun
  | cons t b ih =>
    rw [batchWrites]
    refine List.forall_mem_append.mpr ⟨?_, ih _⟩
    rw [Tlv.writes, Tlv.paramWrites]
    split
    · split <;> simp [CfgEvent.IsUse]
    · simp [CfgEvent.IsUse]

theorem PackEnd.isUse_writes (e : PackEnd) (off : ℕ) (tail : List UInt8) :
    ∀ w ∈ e.writes off tail, w.IsUse := by
  cases e <;> simp [PackEnd.writes, CfgEvent.IsUse]

theorem wellFormed_of_use {ws : List CfgEvent} (h : ∀ w ∈ ws, w.IsUse) : ∀ w ∈ ws, w.WellFormed := by
  intro w hw
  have huse := h w hw
  cases w <;> trivial

/-- The next batch of the file ends at a TLV that the file does not hold in full. -/
def CutOff (f : CFile) : Prop :=
  ∃ (b : List Tlv) (tail : List UInt8), f.rest = encode b ++ tail ∧ tlvsSize b ≤ 252 ∧
    PackEnd.truncated.Stops tail (tlvsSize b)

/-- The call sends no buffer that has lost its opcode: where a batch of chip 0x5301 ends at a TLV that is
cut off, the opcode is still in the memory that has been freed. -/
def KeepsOpcode (s : ConfigState) : CfgInput → Prop
  | .callback i => ∀ f, nvTurn s i = some (skwChipid6316, f) → CutOff f →
      i.freed.cells.take 2 = uint16ToStream hciCmdSkwBtNvds
  | _ => True

/-- The commands of a turn of the download. -/
theorem NvTurn.wellFormed_iff {i : CallbackIn} {c : Call} {chip : ℕ} {f : CFile} {b : List Tlv}
    {e : PackEnd} {tail : List UInt8} (h : NvTurn addr s i chip f c)
    (hrest : f.rest = encode b ++ tail) (hfit : tlvsSize b ≤ 252)
    (hstop : e.Stops tail (tlvsSize b)) :
    (∀ o ∈ (scommVendorConfigCallback addr s i).trace, o.WellFormed) ↔
      (chip = skwChipid6316 → e = .truncated →
        i.freed.cells.take 2 = uint16ToStream hciCmdSkwBtNvds) := by
  obtain ⟨ps, es, htrace, hps, -, hes⟩ := h.stores hrest hfit hstop
  have hps' : ∀ o ∈ ps, o.WellFormed := fun o ho => (hps o ho).2
  have hstores : ∀ w ∈ if chip = skwChipid6316 then
      batchWrites addr 5 b ++ e.writes (5 + tlvsSize b) tail else [], w.WellFormed := by
    split
    · exact wellFormed_of_use
        (List.forall_mem_append.mpr ⟨isUse_batchWrites _ _ _, e.isUse_writes _ _⟩)
    · nofun
  rw [htrace, List.forall_mem_append, List.forall_mem_append, and_iff_right ⟨hps', hstores⟩]
  exact hes

/-- The commands of a callback. -/
theorem callback_wellFormed_iff (addr : Bdaddr) (s : ConfigState) (i : CallbackIn) :
    (∀ o ∈ (scommVendorConfigCallback addr s i).trace, o.WellFormed) ↔ KeepsOpcode s (.callback i) := by
  rw [KeepsOpcode]
  cases hturn : nvTurn s i with
  | none => exact iff_of_true (fun o ho => ((callback_apart addr hturn).orderly o ho).2) nofun
  | some turn =>
    obtain ⟨chip, f⟩ := turn
    obtain ⟨c, hc⟩ := exists_nvTurn addr hturn
    constructor
    · rintro hall f' heq ⟨b, tail, hrest, hfit, hstop⟩
      obtain ⟨rfl, rfl⟩ := Prod.mk.inj (Option.some.inj heq)
      exact (hc.wellFormed_iff hrest hfit hstop).mp hall rfl rfl
    · intro hkeeps
      -- whatever is in the file, the packing loop takes some batch and is stopped by something
      obtain ⟨b, e, tail, hrest, hfit, hstop⟩ := exists_batch f.rest 0 (Nat.zero_le _)
      rw [Nat.zero_add] at hfit hstop
      refine (hc.wellFormed_iff hrest hfit hstop).mpr ?_
      rintro rfl rfl
      exact hkeeps f rfl ⟨b, tail, hrest, hfit, hstop⟩

/-- The command of a start. -/
theorem start_wellFormed (s : ConfigState) (alloc : Option (Block hciCmdPreambleSize)) (xmit : Bool) :
    ∀ o ∈ (scommVendorConfigStart s alloc xmit).trace, o.WellFormed := by
  by_cases hcb : s.btVendorCbacks = true
  · cases alloc with
    | none => simp [scommVendorConfigStart, hcb, Flow.finish, CfgEvent.WellFormed]
    | some block =>
      have hm : store (store block.cells 0 (uint16ToStream hciReset)) 2 [0] =
          store block.cells 0 [0x03, 0x0C, 0x00] := store_store block.cells [0x03, 0x0C] [0x00] 0
      have htake : (store block.cells 0 [0x03, 0x0C, 0x00]).take 3 = [0x03, 0x0C, 0x00] :=
        take_store (Nat.zero_le _) rfl
      have hcommand : (CfgEvent.xmitCb hciReset 3 (store block.cells 0 [0x03, 0x0C, 0x00])
        xmit).WellFormed := wellFormed_of_take htake rfl rfl rfl fun h => by cases h
      intro o ho
      -- the reset is the only command among its events
      simp only [scommVendorConfigStart, hcb, if_true, Flow.finish, Call.xmitCb, Call.emit, Call.setState, Call.store, hm,
        Option.isSome_none, Bool.false_eq_true, and_false, if_false, List.cons_append,
        List.nil_append, List.mem_cons, List.not_mem_nil, or_false] at ho
      rcases ho with rfl | rfl | rfl | rfl | rfl
      · trivial
      · trivial
      · trivial
      · trivial
      · exact hcommand
  · simp [scommVendorConfigStart, hcb, Flow.finish]

/-- **In every run** every command given to `xmit_cb` is well formed, also in a call that does not
return, if and only if every call is one that keeps the opcode. -/
theorem commands_wellFormed_iff (addr : Bdaddr) (is : List CfgInput) :
    (∀ ks i js os s, is = ks ++ i :: js → CfgRun addr ks os s →
        ∀ o ∈ (cfgResult addr s i).trace, o.WellFormed) ↔
      ∀ ks i js os s, is = ks ++ i :: js → CfgRun addr ks os s → KeepsOpcode s i := by
  have hcall (s : ConfigState) (i : CfgInput) :
      (∀ o ∈ (cfgResult addr s i).trace, o.WellFormed) ↔ KeepsOpcode s i := by
    cases i with
    | register cbacks => exact iff_of_true nofun trivial
    | start alloc xmit => exact iff_of_true (start_wellFormed s alloc xmit) trivial
    | callback i => exact callback_wellFormed_iff addr s i
  constructor
  · intro hall ks i js os s his hrun
    exact (hcall s i).mp (hall ks i js os s his hrun)
  · intro hkeeps ks i js os s his hrun
    exact (hcall s i).mpr (hkeeps ks i js os s his hrun)

/-- A file with one TLV of which four bytes are missing: the command goes out without its opcode. -/
theorem commands_illFormed :
    let i : CallbackIn := ⟨some version6316, some (.zero _), true,
      fun _ => some ([0x00, 0x00, 0x00, 0x00] ++ [0x02, 0x00, 0x05, 0xAA]), .openFails, .zero _⟩
    let is : List CfgInput := [.register true, .start (some (.zero _)) true, .callback i, .callback i]
    ¬ ∀ ks i js os s, is = ks ++ i :: js → CfgRun .initial ks os s →
      ∀ o ∈ (cfgResult .initial s i).trace, o.WellFormed := by
  intro i is hall
  have hregister : CfgStep .initial .boot (.register true) [] ⟨true, ⟨.init, 0, none⟩, 0⟩ := rfl
  have hstart : CfgStep .initial ⟨true, ⟨.init, 0, none⟩, 0⟩ (.start (some (.zero _)) true) _
      ⟨true, ⟨.start, 0, none⟩, 0⟩ := rfl
  have hreset : CfgStep .initial ⟨true, ⟨.start, 0, none⟩, 0⟩ (.callback i) _
      ⟨true, ⟨.readHciVersion, 0, none⟩, 0⟩ := rfl
  have hrun := ((Execution.start.snoc hregister).snoc hstart).snoc hreset
  have hkeeps := (callback_wellFormed_iff .initial _ i).mp (hall _ (.callback i) [] _ _ rfl hrun)
  -- the batch is empty, and the TLV behind it is cut off
  have hcut : CutOff ((CFile.fopen ([0x00, 0x00, 0x00, 0x00] ++ [0x02, 0x00, 0x05, 0xAA])).afterRead
      4) := ⟨[], [0x02, 0x00, 0x05, 0xAA], rfl, by decide, by decide, by decide, by decide⟩
  exact absurd (hkeeps _ rfl hcut) (by decide)

end WellFormed

/-! ## Stores stay inside -/

/-- The file leaves room where it has to. For chip 0x5301: for the header of the TLV at which a batch
stops, and for `bdaddr_lap` in every address TLV. -/
def NvFits (addr : Bdaddr) (chip : ℕ) (f : CFile) : Prop :=
  chip = skwChipid6316 → ∃ (b : List Tlv) (e : PackEnd) (tail : List UInt8),
    f.rest = encode b ++ tail ∧ tlvsSize b ≤ 252 ∧ e.Stops tail (tlvsSize b) ∧
      (e = .full → tlvsSize b ≤ 250) ∧ AddressFits addr b

/-- A turn of the download. -/
theorem NvTurn.inside_iff {addr : Bdaddr} {s : ConfigState} {i : CallbackIn} {chip : ℕ} {f : CFile}
    {c : Call} (h : NvTurn addr s i chip f c) :
    (∀ o ∈ (scommVendorConfigCallback addr s i).trace, o.Inside) ↔ NvFits addr chip f := by
  have hstores {b : List Tlv} {e : PackEnd} {tail : List UInt8} (hrest : f.rest = encode b ++ tail)
      (hfit : tlvsSize b ≤ 252) (hstop : e.Stops tail (tlvsSize b)) :
      (∀ o ∈ (scommVendorConfigCallback addr s i).trace, o.Inside) ↔
        (chip = skwChipid6316 → (e = .full → tlvsSize b ≤ 250) ∧ AddressFits addr b) := by
    obtain ⟨ps, es, htrace, hps, hes⟩ := h.stores hrest hfit hstop
    have hps' : ∀ o ∈ ps, o.Inside := fun o ho => (hps o ho).1
    have hes' : ∀ o ∈ es, o.Inside := hes.1
    rw [htrace, List.forall_mem_append, List.forall_mem_append, and_iff_left hes',
      and_iff_right hps']
    by_cases hchip : chip = skwChipid6316
    · rw [if_pos hchip, inside_pack hfit hstop]
      exact ⟨fun h _ => h, fun h => h hchip⟩
    · rw [if_neg hchip]
      exact iff_of_true nofun fun h => absurd h hchip
  constructor
  · intro hinside hchip
    -- the batch that the packing loop takes is the one to look at
    obtain ⟨b, e, tail, hrest, hfit, hstop⟩ := exists_batch f.rest 0 (Nat.zero_le _)
    rw [Nat.zero_add] at hfit hstop
    exact ⟨b, e, tail, hrest, hfit, hstop, (hstores hrest hfit hstop).mp hinside hchip⟩
  · intro hfits
    by_cases hchip : chip = skwChipid6316
    · obtain ⟨b, e, tail, hrest, hfit, hstop, hroom⟩ := hfits hchip
      exact (hstores hrest hfit hstop).mpr fun _ => hroom
    · obtain ⟨b, e, tail, hrest, hfit, hstop⟩ := exists_batch f.rest 0 (Nat.zero_le _)
      rw [Nat.zero_add] at hfit hstop
      exact (hstores hrest hfit hstop).mpr fun h => absurd h hchip

/-- **The stores of a callback stay inside the command buffer** if and only if the file leaves room
where it has to, should the callback execute `HW_CFG_NV_SEND`. -/
theorem nv_writes_inside_iff (addr : Bdaddr) (s : ConfigState) (i : CallbackIn) :
    (∀ o ∈ (scommVendorConfigCallback addr s i).trace, o.Inside) ↔
      ∀ chip f, nvTurn s i = some (chip, f) → NvFits addr chip f := by
  cases hturn : nvTurn s i with
  | none => exact iff_of_true (fun o ho => ((callback_apart addr hturn).orderly o ho).1) nofun
  | some turn =>
    obtain ⟨chip, f⟩ := turn
    obtain ⟨c, hc⟩ := exists_nvTurn addr hturn
    rw [hc.inside_iff]
    constructor
    · rintro h chip' f' heq
      obtain ⟨rfl, rfl⟩ := Prod.mk.inj (Option.some.inj heq)
      exact h
    · exact fun h => h chip f rfl

/-- A TLV of 251 bytes. -/
def longTlv : Tlv := ⟨0x02, 0x00, List.replicate 248 0xFF, by rw [List.length_replicate]; omega⟩

/-- Behind a TLV of 251 bytes, the header of another one is stored over the end of the buffer. -/
theorem nv_writes_outside :
    let i : CallbackIn := ⟨some version6316, some (.zero _), true,
      fun _ => some ([0x00, 0x00, 0x00, 0x00] ++ (longTlv.bytes ++ [0x02, 0x00, 0x01, 0x00])),
      .openFails, .zero _⟩
    ∃ os s, CfgRun .initial [.register true, .start (some (.zero _)) true, .callback i] os s ∧
      ¬ ∀ o ∈ (scommVendorConfigCallback .initial s i).trace, o.Inside := by
  intro i
  have hregister : CfgStep .initial .boot (.register true) [] ⟨true, ⟨.init, 0, none⟩, 0⟩ := rfl
  have hstart : CfgStep .initial ⟨true, ⟨.init, 0, none⟩, 0⟩ (.start (some (.zero _)) true) _
      ⟨true, ⟨.start, 0, none⟩, 0⟩ := rfl
  have hreset : CfgStep .initial ⟨true, ⟨.start, 0, none⟩, 0⟩ (.callback i) _
      ⟨true, ⟨.readHciVersion, 0, none⟩, 0⟩ := rfl
  have hrun := ((Execution.start.snoc hregister).snoc hstart).snoc hreset
  refine ⟨_, _, hrun, fun hinside => ?_⟩
  obtain ⟨c, hc⟩ := @exists_nvTurn .initial ⟨true, ⟨.readHciVersion, 0, none⟩, 0⟩ i skwChipid6316
    ((CFile.fopen ([0x00, 0x00, 0x00, 0x00] ++ (longTlv.bytes ++ [0x02, 0x00, 0x01, 0x00]))).afterRead
      4) rfl
  have hsize : tlvsSize [longTlv] = 251 := by
    rw [tlvsSize_cons, Tlv.size, longTlv, List.length_replicate]
    rfl
  have hrest := CFile.rest_afterRead_of_append _ 4
    (CFile.rest_fopen ([0x00, 0x00, 0x00, 0x00] ++ (longTlv.bytes ++ [0x02, 0x00, 0x01, 0x00]))) rfl
  obtain ⟨ps, es, htrace, -, -⟩ := @NvTurn.stores _ i c _ [longTlv] .full [0x02, 0x00, 0x01, 0x00] _ _
    hc (by rw [hrest, encode_cons, encode_nil, List.append_nil]) (by omega)
    ⟨by decide, by rw [hsize]; decide⟩
  have hstore : (CfgEvent.write (5 + tlvsSize [longTlv]) [0x02, 0x00, 0x01]).Inside := by
    refine hinside _ ?_
    rw [htrace, if_pos rfl]
    exact List.mem_append_left _ (List.mem_append_right _ (List.mem_append_right _ List.mem_cons_self))
  rw [hsize] at hstore
  exact absurd hstore (by decide : ¬ 5 + 251 + 3 ≤ 258)

end Seekwave
