import Seekwave.Config.Tlv

/-!
# The packing loop

What one pass of the loop does with a TLV that fits (`packBody_tlv`), with each of the things that stop
it, and from these what the loop does with a batch and what stops it (`pack_batch`).
-/

open Memory

namespace Seekwave

/-- An access to the command buffer. -/
def CfgEvent.IsUse : CfgEvent → Prop
  | .write _ _ | .access => True
  | _ => False

/-- A store to the command buffer stays inside its memory. -/
def CfgEvent.Inside : CfgEvent → Prop
  | .write off bytes => off + bytes.length ≤ hciCmdMaxLen
  | _ => True

/-- The call has only stored something behind the first `n` bytes of its buffer. -/
structure Call.Stored (n : ℕ) (c c' : Call) : Prop where
  cfg : c'.cfg = c.cfg
  len : c'.len = c.len
  trace : ∃ ws, c'.trace = c.trace ++ ws ∧ ∀ w ∈ ws, w.IsUse
  memLe : c.mem.length ≤ c'.mem.length
  mem : c'.mem.take n = c.mem.take n

namespace Call

variable {n n' : ℕ} {c c' c'' : Call}

theorem Stored.refl (n : ℕ) (c : Call) : Stored n c c :=
  ⟨rfl, rfl, ⟨[], by simp⟩, Nat.le_refl _, rfl⟩

theorem Stored.of_le (h : Stored n c c') (hle : n' ≤ n) : Stored n' c c' where
  cfg := h.cfg
  len := h.len
  trace := h.trace
  memLe := h.memLe
  mem := by
    have := congrArg (List.take n') h.mem
    rwa [List.take_take, List.take_take, Nat.min_eq_left hle] at this

theorem Stored.trans (h : Stored n c c') (h' : Stored n c' c'') : Stored n c c'' where
  cfg := h'.cfg.trans h.cfg
  len := h'.len.trans h.len
  trace := by
    obtain ⟨ws, htrace, hws⟩ := h.trace
    obtain ⟨ws', htrace', hws'⟩ := h'.trace
    refine ⟨ws ++ ws', by rw [htrace', htrace, List.append_assoc], ?_⟩
    intro w hw
    rcases List.mem_append.mp hw with hw | hw
    · exact hws w hw
    · exact hws' w hw
  memLe := Nat.le_trans h.memLe h'.memLe
  mem := h'.mem.trans h.mem

theorem stored_store (c : Call) {off : ℕ} (bs : List UInt8) (h : n ≤ off)
    (hn : n ≤ c.mem.length) : Stored n c (c.store off bs) where
  cfg := rfl
  len := rfl
  trace := ⟨[.write off bs], rfl, fun w hw => by rw [List.mem_singleton.mp hw]; trivial⟩
  memLe := length_le_length_store _ _ _
  mem := take_store_of_le h hn

end Call

/-- The loop has packed the bytes `bs`, read from the file as it goes. -/
structure Packer.Advance (bs : List UInt8) (p p' : Packer) : Prop where
  call : p.call.Stored (5 + p.totalLen) p'.call
  total : p'.totalLen = p.totalLen + bs.length
  mem : p'.call.mem.take (5 + p'.totalLen) = p.call.mem.take (5 + p.totalLen) ++ bs
  content : p'.file.content = p.file.content
  pos : p'.file.pos = p.file.pos + bs.length
  eof : p'.file.eof = p.file.eof

namespace Packer.Advance

variable {bs bs' : List UInt8} {p p' p'' : Packer}

theorem refl (p : Packer) : Advance [] p p :=
  ⟨.refl _ _, rfl, by simp, rfl, rfl, rfl⟩

theorem trans (h : Advance bs p p') (h' : Advance bs' p' p'') : Advance (bs ++ bs') p p'' where
  call := h.call.trans (h'.call.of_le (by rw [h.total]; omega))
  total := by rw [h'.total, h.total, List.length_append, Nat.add_assoc]
  mem := by rw [h'.mem, h.mem, List.append_assoc]
  content := h'.content.trans h.content
  pos := by rw [h'.pos, h.pos, List.length_append, Nat.add_assoc]
  eof := h'.eof.trans h.eof

end Packer.Advance

/-! ## One pass -/

section Pass

variable {addr : Bdaddr} {p : Packer} {t : Tlv} {rest tail : List UInt8}

/-- Stores one behind the other read back as one. -/
theorem take_store_append {m a b : List UInt8} {off n : ℕ} (h : m.take off = a)
    (hoff : off ≤ m.length) (hn : n = off + b.length) : (store m off b).take n = a ++ b := by
  rw [take_store hoff hn, h]

/-- `skw_addr_get` three bytes into a parameter patches it. -/
theorem take_store_patch {m a param : List UInt8} {off n : ℕ} (addr : Bdaddr)
    (hvalid : addr.valid = true) (hm : m.take n = a ++ param) (ha : a.length + 3 = off)
    (hn : n = a.length + param.length) (hle : n ≤ m.length) :
    (store m off addr.lap.cells).take n = a ++ patchLap addr param := by
  have hlap := addr.lap.size
  rw [take_store_mapIdx hm hn hle (by omega), patchLap]
  congr 2
  funext k b
  by_cases hk : 3 ≤ k ∧ k < 6
  · rw [if_pos (by omega), if_pos ⟨hvalid, hk⟩, byteAt]
    congr 1
    omega
  · rw [if_neg (by omega), if_neg fun h => hk h.2]

/-- Without a valid address nothing is patched. -/
theorem patchLap_of_invalid (hvalid : addr.valid = false) (param : List UInt8) :
    patchLap addr param = param := by
  apply List.ext_getElem?
  intro i
  rw [patchLap, List.getElem?_mapIdx]
  simp [hvalid]

/-- A parameter is stored and, if its tag says so, patched. -/
theorem Call.stored_param {c : Call} {a : List UInt8} {off : ℕ} (addr : Bdaddr) (t : Tlv)
    (hoff : off + t.nvParam.length ≤ c.mem.length) (ha : c.mem.take off = a)
    (hlen : a.length = off) :
    ∃ c', c' = (if t.nvTag = nvTagBdAddr then
          (c.store off t.nvParam).skwAddrGet addr (off + 3) else c.store off t.nvParam) ∧
      c.Stored off c' ∧ c'.trace = c.trace ++ t.paramWrites addr off ∧
      c'.mem.take (off + t.nvParam.length) =
        a ++ if t.nvTag = nvTagBdAddr then patchLap addr t.nvParam else t.nvParam := by
  have hstored := c.stored_store t.nvParam (Nat.le_refl off) (by omega)
  have hmem : (c.store off t.nvParam).mem.take (off + t.nvParam.length) = a ++ t.nvParam :=
    take_store_append ha (by omega) rfl
  have hmemLe := hstored.memLe
  refine ⟨_, rfl, ?_⟩
  rw [Tlv.paramWrites]
  by_cases htag : t.nvTag = nvTagBdAddr
  · rw [if_pos htag, if_pos htag, Call.skwAddrGet]
    by_cases hvalid : addr.valid = true
    · rw [if_pos hvalid, if_pos ⟨htag, hvalid⟩, Seekwave.skwAddrGet, if_pos hvalid]
      have hpatched := (c.store off t.nvParam).stored_store addr.lap.cells
        (show off ≤ off + 3 by omega) (by omega)
      exact ⟨hstored.trans hpatched, List.append_assoc ..,
        take_store_patch addr hvalid hmem (by omega) (by omega) (by omega)⟩
    · rw [if_neg hvalid, if_neg fun h => hvalid h.2, patchLap_of_invalid (by simpa using hvalid)]
      exact ⟨hstored, rfl, hmem⟩
  · rw [if_neg htag, if_neg htag, if_neg fun h => htag h.1]
    exact ⟨hstored, rfl, hmem⟩

variable (addr) in
/-- **A TLV that fits is packed.** -/
theorem packBody_tlv (hrest : p.file.rest = t.bytes ++ rest) (hfit : p.totalLen + t.size ≤ 252)
    (hmem : 258 ≤ p.call.mem.length) :
    ∃ p', packBody addr p = .inl p' ∧ p'.file.rest = rest ∧ p.Advance (t.sent addr) p' ∧
      p'.call.trace = p.call.trace ++ t.writes addr (5 + p.totalLen) := by
  have hsize : t.size = t.nvParam.length + 3 := rfl
  have hlen : p.file.rest.length = t.size + rest.length := by
    rw [hrest, List.length_append, t.length_bytes]
  have heof : p.file.eof = false := by
    by_contra h
    rw [p.file.rest_of_eof (by simpa using h), List.length_nil] at hlen
    omega
  -- the header
  have hsplit : p.file.rest = t.header ++ (t.nvParam ++ rest) := by
    rw [hrest, Tlv.bytes, List.append_assoc]
  have htmp : p.file.fread 3 = t.header := p.file.fread_of_append 3 hsplit rfl
  have hrest₁ := p.file.rest_afterRead_of_append 3 hsplit rfl
  obtain ⟨hpos₁, heof₁⟩ := p.file.afterRead_of_le 3 (by omega)
  have htag : byteAt t.header 0 = t.nvTag := rfl
  have hhead : (p.call.store (5 + p.totalLen) t.header).mem.take (5 + (p.totalLen + 3)) =
      p.call.mem.take (5 + p.totalLen) ++ t.header :=
    take_store_append rfl (by omega) (by rw [Nat.add_assoc]; rfl)
  have hstored := p.call.stored_store t.header (Nat.le_refl (5 + p.totalLen)) (by omega)
  have hmemLe := hstored.memLe
  rw [packBody]
  simp only [htmp, heof₁, heof, t.paramLen_header, htag]
  rw [if_neg (by simp [Tlv.header]), if_neg (by omega)]
  by_cases hpos : 0 < t.nvParam.length
  · -- the parameter
    obtain ⟨hpos₂, heof₂⟩ := (p.file.afterRead 3).afterRead_of_le t.nvParam.length
      (by rw [hrest₁, List.length_append]; omega)
    have hparam := (p.file.afterRead 3).fread_of_append _ hrest₁ rfl
    have hrest₂ := (p.file.afterRead 3).rest_afterRead_of_append _ hrest₁ rfl
    obtain ⟨c', hc', hstored', htrace', hmem'⟩ := Call.stored_param addr t (by omega) hhead
      (by simp only [List.length_append, List.length_take, Tlv.header, List.length_cons,
            List.length_nil]; omega)
    rw [if_pos hpos]
    simp only [hparam]
    rw [if_neg (Nat.lt_irrefl _), ← hc']
    refine ⟨_, rfl, hrest₂, ?_, ?_⟩
    · exact {
        call := hstored.trans (hstored'.of_le (by omega))
        total := by
          show p.totalLen + 3 + t.nvParam.length = _
          rw [t.length_sent, hsize]
          omega
        mem := by
          show c'.mem.take (5 + (p.totalLen + 3 + t.nvParam.length)) = _
          rw [← Nat.add_assoc, hmem', Tlv.sent, List.append_assoc]
        content := rfl
        pos := by
          rw [hpos₂, hpos₁, t.length_sent, hsize]
          omega
        eof := by rw [heof₂, heof₁] }
    · rw [Tlv.writes, if_pos hpos]
      exact htrace'.trans (List.append_assoc ..)
  · have hnil : t.nvParam = [] := List.eq_nil_of_length_eq_zero (by omega)
    have hsent : t.sent addr = t.header := by
      rw [Tlv.sent, hnil]
      simp [patchLap]
    rw [if_neg hpos]
    refine ⟨_, rfl, by rw [hrest₁, hnil, List.nil_append], ?_, ?_⟩
    · rw [hsent]
      exact ⟨hstored, rfl, hhead, rfl, hpos₁, heof₁⟩
    · rw [Tlv.writes, if_neg hpos]
      rfl

/-- The end of the file stops the loop. -/
theorem packBody_fileEnd (h : p.file.rest.length < 3) :
    packBody addr p = .inr (.fileEnd, { p with file := p.file.afterRead 3 }) := by
  have hlen := p.file.length_fread 3
  rw [packBody]
  simp only
  rw [if_pos (.inl (by omega))]

/-- What is left of a file that holds three more bytes is not at its end. -/
theorem eof_afterRead_three (h : 3 ≤ p.file.rest.length) : (p.file.afterRead 3).eof = false := by
  rw [(p.file.afterRead_of_le 3 h).2]
  by_contra heof
  rw [p.file.rest_of_eof (by simpa using heof), List.length_nil] at h
  omega

theorem byteAt_fread_three {i : ℕ} (hi : i < 3) :
    byteAt (p.file.fread 3) i = byteAt p.file.rest i := byteAt_take hi

/-- A TLV that does not fit stops the loop, which seeks back to it. -/
theorem packBody_full (h : PackEnd.full.Stops p.file.rest p.totalLen)
    (hmem : 5 + p.totalLen ≤ p.call.mem.length) :
    ∃ p', packBody addr p = .inr (.full, p') ∧ p'.totalLen = p.totalLen ∧
      p.call.Stored (5 + p.totalLen) p'.call ∧
      p'.call.trace = p.call.trace ++ PackEnd.full.writes (5 + p.totalLen) p.file.rest ∧
      p'.file = (p.file.afterRead 3).fseek (toInt32 p.file.ftell) := by
  obtain ⟨hlong, hfull⟩ := h
  have hlen := p.file.length_fread 3
  rw [packBody]
  simp only [eof_afterRead_three hlong, @byteAt_fread_three p 2 (by omega)]
  rw [if_neg (by simp; omega), if_pos (by omega)]
  refine ⟨_, rfl, rfl, p.call.stored_store _ (Nat.le_refl _) hmem, rfl, ?_⟩
  dsimp only

/-- A TLV that the file does not hold in full stops the loop. -/
theorem packBody_truncated (h : PackEnd.truncated.Stops p.file.rest p.totalLen)
    (hmem : 258 ≤ p.call.mem.length) :
    ∃ p', packBody addr p = .inr (.truncated, p') ∧ p'.totalLen = p.totalLen + 3 ∧
      p.call.Stored (5 + p.totalLen) p'.call ∧
      p'.call.trace = p.call.trace ++ PackEnd.truncated.writes (5 + p.totalLen) p.file.rest ∧
      p'.file.content = p.file.content := by
  obtain ⟨hlong, hfit, hshort⟩ := h
  have hlen := p.file.length_fread 3
  have hparam := (p.file.afterRead 3).length_fread (byteAt p.file.rest 2).toNat
  rw [p.file.rest_afterRead, List.length_drop] at hparam
  rw [packBody]
  simp only [eof_afterRead_three hlong, @byteAt_fread_three p 2 (by omega)]
  rw [if_neg (by simp; omega), if_neg (by omega), if_pos (by omega), if_pos (by omega)]
  refine ⟨_, rfl, rfl, ?_, ?_, rfl⟩
  · have hstored := p.call.stored_store (p.file.fread 3) (Nat.le_refl (5 + p.totalLen)) (by omega)
    have hmemLe := hstored.memLe
    exact hstored.trans (Call.stored_store _ _ (by omega) (by omega))
  · -- what is left of the file is the parameter
    have hparam : (p.file.afterRead 3).fread (byteAt p.file.rest 2).toNat = p.file.rest.drop 3 := by
      rw [CFile.fread, p.file.rest_afterRead]
      exact List.take_of_length_le (by rw [List.length_drop]; omega)
    show (p.call.trace ++ [.write (5 + p.totalLen) (p.file.rest.take 3)]) ++ [.write _ _] = _
    rw [hparam, List.append_assoc]
    rfl

end Pass

/-! ## The loop -/

section Loop

variable {addr : Bdaddr} {p : Packer} {b : List Tlv} {tail : List UInt8}

variable (addr) in
/-- The TLVs of a batch are packed one after the other. -/
theorem exists_advance (hrest : p.file.rest = encode b ++ tail)
    (hfit : p.totalLen + tlvsSize b ≤ 252) (hmem : 258 ≤ p.call.mem.length) :
    ∃ p', p.Advance (sentBytes addr b) p' ∧ p'.file.rest = tail ∧
      p'.call.trace = p.call.trace ++ batchWrites addr (5 + p.totalLen) b ∧
      ∀ r, Loop.Returns (packBody addr) p' r → Loop.Returns (packBody addr) p r := by
  induction b generalizing p with
  | nil => exact ⟨p, .refl p, hrest, (List.append_nil _).symm, fun _ h => h⟩
  | cons t b ih =>
    rw [encode_cons, List.append_assoc] at hrest
    rw [tlvsSize_cons] at hfit
    obtain ⟨p₁, hbody, hrest₁, hadv₁, htrace₁⟩ := packBody_tlv addr hrest (by omega) hmem
    have htotal := hadv₁.total
    rw [t.length_sent] at htotal
    obtain ⟨p₂, hadv₂, hrest₂, htrace₂, hreturns⟩ :=
      ih hrest₁ (by omega) (Nat.le_trans hmem hadv₁.call.memLe)
    refine ⟨p₂, hadv₁.trans hadv₂, hrest₂, ?_, fun r h => .again hbody (hreturns r h)⟩
    rw [htrace₂, htrace₁, htotal, List.append_assoc, batchWrites, Nat.add_assoc]

/-- What the loop has done with a batch and what stopped it. -/
structure Packed (addr : Bdaddr) (b : List Tlv) (e : PackEnd) (p p' : Packer) : Prop where
  call : p.call.Stored (5 + p.totalLen) p'.call
  total : p'.totalLen = p.totalLen + tlvsSize b + if e = .truncated then 3 else 0
  mem : p'.call.mem.take (5 + p.totalLen + tlvsSize b) =
    p.call.mem.take (5 + p.totalLen) ++ sentBytes addr b
  content : p'.file.content = p.file.content
  full : e = .full → p'.file = p.file.seekBack (p.file.pos + tlvsSize b) 3

/-- **A batch and what stops it.** -/
theorem pack_batch {e : PackEnd} (hrest : p.file.rest = encode b ++ tail)
    (hfit : p.totalLen + tlvsSize b ≤ 252) (hstop : e.Stops tail (p.totalLen + tlvsSize b))
    (hmem : 258 ≤ p.call.mem.length) :
    ∃ p', pack addr p = (e, p') ∧ Packed addr b e p p' ∧
      p'.call.trace = p.call.trace ++ batchWrites addr (5 + p.totalLen) b ++
        e.writes (5 + p.totalLen + tlvsSize b) tail := by
  obtain ⟨q, hadv, hq, htrace, hreturns⟩ := exists_advance addr hrest hfit hmem
  have htotal := hadv.total
  have hpos := hadv.pos
  have hmemLe := hadv.call.memLe
  have hqmem := hadv.mem
  rw [length_sentBytes] at htotal hpos
  rw [htotal, ← Nat.add_assoc] at hqmem
  rw [← hq, ← htotal] at hstop
  have hrun : ∀ p', packBody addr q = .inr (e, p') → pack addr p = (e, p') := fun p' hbody =>
    Loop.run_eq_of_returns _ _ _ (hreturns _ (.leave hbody))
  -- what stops the loop behind the batch
  cases e with
  | fileEnd =>
    refine ⟨_, hrun _ (packBody_fileEnd hstop), {
      call := hadv.call
      total := by simpa using htotal
      mem := hqmem
      content := hadv.content
      full := by simp }, ?_⟩
    exact htrace.trans (List.append_nil _).symm
  | full =>
    have heof := eof_afterRead_three hstop.1
    obtain ⟨hpos₃, -⟩ := q.file.afterRead_of_le 3 hstop.1
    have hmove : q.file.afterRead 3 = q.file.moveTo (q.file.pos + 3) := CFile.ext rfl hpos₃ heof
    obtain ⟨p', hbody, htotal', hstored, htrace', hfile⟩ := @packBody_full addr q hstop (by omega)
    refine ⟨p', hrun p' hbody, {
      call := hadv.call.trans (hstored.of_le (by omega))
      total := by simpa [htotal'] using htotal
      mem := by
        rw [← hqmem, Nat.add_assoc, ← htotal]
        exact hstored.mem
      content := by rw [hfile, CFile.content_fseek, CFile.content_afterRead, hadv.content]
      full := by
        intro _
        have hq : q.file.moveTo (q.file.pos + 3) = p.file.moveTo (q.file.pos + 3) :=
          CFile.ext hadv.content rfl rfl
        rw [hfile, hmove, hq, CFile.seekBack, ← hpos]
        dsimp only [CFile.ftell] }, ?_⟩
    rw [htrace', htrace, htotal, hq, Nat.add_assoc]
  | truncated =>
    obtain ⟨p', hbody, htotal', hstored, htrace', hcontent⟩ :=
      @packBody_truncated addr q hstop (by omega)
    refine ⟨p', hrun p' hbody, {
      call := hadv.call.trans (hstored.of_le (by omega))
      total := by rw [htotal', htotal, if_pos rfl]
      mem := by
        rw [← hqmem, Nat.add_assoc, ← htotal]
        exact hstored.mem
      content := hcontent.trans hadv.content
      full := by simp }, ?_⟩
    rw [htrace', htrace, htotal, hq, Nat.add_assoc]

end Loop

end Seekwave
