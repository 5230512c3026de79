import Seekwave.Scomm.HostFraming

/-!
# From the host to the ports and the capture

What the calls of `scomm_vendor_recv_rawdata` do with the packets of a stream, as long as none of their
reads goes on into the next packet: each packet is recorded, announced on `/dev/BTDATA` where the
controller may sleep, and written whole to the port of its type, or to none if that port is not open.
`downlink_demultiplexed` puts this together for every port: its bytes are those of its packets, in order,
whatever the reads and writes return.
-/

open Memory

namespace Seekwave

/-! ## What is seen of a call -/

/-- The record that a call hands to the capture. -/
def RawEvent.snoop? : RawEvent → Option (Option SnoopRecord)
  | .skwBtsnoopCapture record => some record
  | _ => none

/-- The byte that a call writes to `/dev/BTDATA`. -/
def RawEvent.wake? : RawEvent → Option UInt8
  | .btpwWrite pktCnts => some pktCnts
  | _ => none

/-- The records of some calls. -/
def captured (os : List RawEvent) : List (Option SnoopRecord) := os.filterMap RawEvent.snoop?

/-- What some calls write to `/dev/BTDATA`. -/
def wakeBytes (os : List RawEvent) : List UInt8 := os.filterMap RawEvent.wake?

/-- The controller is told of packets to come. -/
def RawConfig.Wakes (cfg : RawConfig) : Prop :=
  cfg.skwbtTranstype &&& skwbtTransTypeUart ≠ 0 ∧ cfg.skwbtuartonly = false ∧
    cfg.skwbtNoSleep = false ∧ 0 < cfg.btpwFp

instance (cfg : RawConfig) : Decidable cfg.Wakes := by unfold RawConfig.Wakes; infer_instance

theorem captured_append (os ps : List RawEvent) : captured (os ++ ps) = captured os ++ captured ps :=
  List.filterMap_append

theorem wakeBytes_append (os ps : List RawEvent) : wakeBytes (os ++ ps) = wakeBytes os ++ wakeBytes ps :=
  List.filterMap_append

theorem written_append (port : Port) (os ps : List RawEvent) :
    written port (os ++ ps) = written port os ++ written port ps := List.flatMap_append

/-! ## One call -/

/-- The loop of writes does nothing but write to its port. -/
theorem portWrite_of_mem_writeLoop {port : Port} {buf : List UInt8} {ws : List (Option ℕ)}
    {transmitted length : ℕ} {e : RawEvent}
    (he : e ∈ (writeLoop port buf ws transmitted length).events) : ∃ bytes, e = .portWrite port bytes := by
  induction ws generalizing transmitted length with
  | nil =>
    rcases length with - | length
    · exact absurd he (by simp [writeLoop])
    · exact absurd he (by simp [writeLoop])
  | cons w ws ih =>
    rcases length with - | length
    · exact absurd he (by simp [writeLoop])
    · rcases w with - | k
      · exact absurd he (by simp [writeLoop])
      · rw [writeLoop] at he
        split at he
        · exact absurd he List.not_mem_nil
        · rcases List.mem_cons.mp he with rfl | he
          · exact ⟨_, rfl⟩
          · exact ih he

section Call

variable {cfg : RawConfig} {s t : RawState} {c : HostCall} {os : List RawEvent} {p : HostPacket}

/-- What is recorded of a packet from the host. -/
theorem skwBtsnoopCapture_hostPacket (p : HostPacket) (rest : List UInt8) :
    skwBtsnoopCapture (p.bytes ++ rest) false =
      some ⟨p.bytes.length, snoopFlags p.bytes false, p.bytes⟩ := by
  have hheader := p.header
  have htotal := p.total
  have hpos : 0 < p.bytes.length := Nat.lt_of_lt_of_le (hdrLens_pos _) hheader
  have h0 : byteAt (p.bytes ++ rest) 0 = byteAt p.bytes 0 := byteAt_append_left hpos
  have hlen : lengthHe (p.bytes ++ rest) = some p.bytes.length := by
    rw [htotal]
    -- the two computations of the length read the same bytes, type by type
    rcases p.accepted with h | h | h | h
    all_goals
      have hfour : 4 ≤ p.bytes.length := by
        simp only [hdrLens, h, hciPreambleSizes_command, hciPreambleSizes_acldata,
          hciPreambleSizes_scodata, hciPreambleSizes_iso] at hheader
        omega
      have h3 : byteAt (p.bytes ++ rest) 3 = byteAt p.bytes 3 := byteAt_append_left (by omega)
    · simp +decide only [lengthHe, h0, h, h3, hdrLens, rawPayloadLen, hciPreambleSizes_command,
        hciCommonDataLengthIndex, if_true, if_false, Option.some.injEq]
      omega
    · have h4 : byteAt (p.bytes ++ rest) 4 = byteAt p.bytes 4 := by
        simp only [hdrLens, h, hciPreambleSizes_acldata] at hheader
        exact byteAt_append_left (by omega)
      simp +decide only [lengthHe, h0, h, h3, h4, hdrLens, rawPayloadLen, u16At,
        hciPreambleSizes_acldata, hciCommonDataLengthIndex, if_true, if_false, Option.some.injEq,
        Nat.reduceAdd]
      omega
    · simp +decide only [lengthHe, h0, h, h3, hdrLens, rawPayloadLen, hciPreambleSizes_scodata,
        hciCommonDataLengthIndex, if_true, if_false, Option.some.injEq]
      omega
    · have h4 : byteAt (p.bytes ++ rest) 4 = byteAt p.bytes 4 := by
        simp only [hdrLens, h, hciPreambleSizes_iso] at hheader
        exact byteAt_append_left (by omega)
      simp +decide only [lengthHe, h0, h, h3, h4, hdrLens, rawPayloadLen, u16At,
        hciPreambleSizes_iso, hciCommonDataLengthIndex, if_true, if_false, Option.some.injEq,
        Nat.reduceAdd]
      omega
  have hflags : snoopFlags (p.bytes ++ rest) false = snoopFlags p.bytes false := by
    simp only [snoopFlags, h0]
  rw [skwBtsnoopCapture, hlen, hflags, Option.map_some, List.take_left]

/-- A call that does not read over has the packet at the front of the buffer when it begins to send. -/
theorem rawStep_sends (h : RawStep cfg s c os t) {tail : List UInt8}
    (hstream : c.chunks.flatten <+: p.bytes ++ tail) (hover : c.NoOverRead p) :
    c.chunks.flatten = p.bytes ∧
      rawSend cfg { s with recvSocketBuf := p.bytes ++ s.recvSocketBuf.drop p.bytes.length }
        p.bytes.length [] (c.counts.map some) = ⟨.returned, t, os, [], []⟩ := by
  obtain ⟨x, hs, qs, hchunks, hacc, hhdr, hpay⟩ := rawStep_header h
  have hp := p.header
  have htotal := p.total
  have hfits := p.fits
  rw [recvSocketBufSize] at hfits
  have hflat : c.chunks.flatten = x :: (hs.flatten ++ qs.flatten) := by simp [hchunks]
  have hx : x = p.pktType := by
    obtain ⟨rest, hrest⟩ := hstream
    have hfirst := congrArg (fun l => byteAt l 0) hrest
    rw [hflat] at hfirst
    simp only [byteAt_append_left (Nat.lt_of_lt_of_le (hdrLens_pos _) hp)] at hfirst
    exact hfirst
  have hlens : hdrLens p.bytes = hciPreambleSizes x + 1 := by rw [hx]; rfl
  have hneed : rawPayloadLen (x :: hs.flatten) = rawPayloadLen p.bytes := by
    refine rawPayloadLen_of_prefix (List.IsPrefix.trans ?_ hstream)
      (by rw [hlens]; exact Nat.succ_le_succ hhdr.2)
    rw [hflat]
    exact ⟨qs.flatten, rfl⟩
  obtain ⟨hqs, hsend⟩ := rawPayload_returned hpay hacc hhdr.2 (by omega)
  rw [hneed] at hqs hsend
  have hne : ∀ d ∈ hs ++ qs, d ≠ [] :=
    fun d hd => c.nonempty d (by rw [hchunks]; exact List.mem_cons_of_mem _ hd)
  rw [HostCall.NoOverRead, hchunks, List.tail_cons, ← hx, noOverReads_cons_iff hhdr hne] at hover
  obtain ⟨hheader, hrest⟩ := hover
  -- no read went on into the next packet, so that the payload is what the header announces
  have hpayload : qs.flatten.length = rawPayloadLen p.bytes := by
    rcases hqs with ⟨hzero, rfl⟩ | hqs
    · rw [hzero]
      rfl
    · rwa [noOverReads_singleton_iff hqs fun d hd => hne d (List.mem_append_right _ hd)] at hrest
  have hlength : c.chunks.flatten.length = p.bytes.length := by
    rw [hflat, List.length_cons, List.length_append]
    omega
  have hexact : c.chunks.flatten = p.bytes :=
    (List.prefix_of_prefix_length_le hstream (List.prefix_append _ _)
      (Nat.le_of_eq hlength)).eq_of_length hlength
  have hstore : store s.recvSocketBuf 0 (x :: (hs.flatten ++ qs.flatten)) =
      p.bytes ++ s.recvSocketBuf.drop p.bytes.length := by
    rw [← hflat, hexact, store_zero]
  have hsend := hsend hheader
  rw [hstore, show 1 + hciPreambleSizes x + rawPayloadLen p.bytes = p.bytes.length by omega] at hsend
  exact ⟨hexact, hsend⟩

/-- What a call that sends has done: a byte to `/dev/BTDATA` where the controller may sleep, the
record, and writes to a port. -/
theorem rawSend_events {totalLen : ℕ} {writes : List (Option ℕ)}
    (h : rawSend cfg s totalLen [] writes = ⟨.returned, t, os, [], []⟩) :
    ∃ es, os = (if cfg.Wakes then [.btpwWrite s.pktCnts] else []) ++
          .skwBtsnoopCapture (skwBtsnoopCapture s.recvSocketBuf false) :: es ∧
      (∀ e ∈ es, ∃ port bytes, e = .portWrite port bytes) ∧
      t.pktCnts = if cfg.Wakes then s.pktCnts + 1 else s.pktCnts := by
  rw [rawSend] at h
  injection h with _ hstate hos
  refine ⟨_, hos.symm, fun e he => ?_, by rw [← hstate]; rfl⟩
  split at he
  · exact ⟨_, portWrite_of_mem_writeLoop he⟩
  · exact absurd he List.not_mem_nil

theorem captured_portWrites {es : List RawEvent}
    (hes : ∀ e ∈ es, ∃ port bytes, e = .portWrite port bytes) : captured es = [] := by
  refine List.filterMap_eq_nil_iff.mpr fun e he => ?_
  obtain ⟨port, bytes, rfl⟩ := hes e he
  rfl

theorem wakeBytes_portWrites {es : List RawEvent}
    (hes : ∀ e ∈ es, ∃ port bytes, e = .portWrite port bytes) : wakeBytes es = [] := by
  refine List.filterMap_eq_nil_iff.mpr fun e he => ?_
  obtain ⟨port, bytes, rfl⟩ := hes e he
  rfl

/-- A call for a port that is not open writes nothing. -/
theorem written_rawSend_closed {totalLen : ℕ} {writes : List (Option ℕ)}
    (hclosed : ¬ cfg.driverState (sendPort cfg (byteAt s.recvSocketBuf 0)) = true)
    (h : rawSend cfg s totalLen [] writes = ⟨.returned, t, os, [], []⟩) (port : Port) :
    written port os = [] := by
  rw [rawSend] at h
  simp only [if_neg hclosed] at h
  injection h with _ _ hos
  rw [← hos, written_append]
  split <;> rfl

/-- What a call does with the packet it has read. -/
structure Delivers (cfg : RawConfig) (p : HostPacket) (pktCnts : UInt8) (os : List RawEvent) : Prop where
  written : ∀ port, written port os =
    if port = sendPort cfg p.pktType ∧ cfg.driverState port = true then p.bytes else []
  recorded : captured os = [some ⟨p.bytes.length, snoopFlags p.bytes false, p.bytes⟩]
  woken : wakeBytes os = if cfg.Wakes then [pktCnts] else []

/-- **One call of a run.** Whether its port is open or not, a packet that is read without an over-read
is consumed whole and recorded, and goes to its port if that is open. -/
theorem rawStep_delivers (h : RawStep cfg s c os t) {tail : List UInt8}
    (hstream : c.chunks.flatten <+: p.bytes ++ tail) (hover : c.NoOverRead p) :
    c.chunks.flatten = p.bytes ∧ Delivers cfg p s.pktCnts os ∧
      t.pktCnts = if cfg.Wakes then s.pktCnts + 1 else s.pktCnts := by
  obtain ⟨hexact, hsend⟩ := rawStep_sends h hstream hover
  have hfits := p.fits
  rw [recvSocketBufSize] at hfits
  have htype : byteAt (p.bytes ++ s.recvSocketBuf.drop p.bytes.length) 0 = p.pktType :=
    byteAt_append_left (Nat.lt_of_lt_of_le (hdrLens_pos _) p.header)
  obtain ⟨es, hos, hes, hcnts⟩ := rawSend_events hsend
  have hrecord := skwBtsnoopCapture_hostPacket p (s.recvSocketBuf.drop p.bytes.length)
  refine ⟨hexact, ⟨fun port => ?_, ?_, ?_⟩, hcnts⟩
  · by_cases hopen : cfg.driverState (sendPort cfg p.pktType) = true
    · rw [written_rawSend (by omega) (by simpa only [htype] using hopen) hsend port]
      simp only [htype, List.take_left' rfl]
      by_cases hq : port = sendPort cfg p.pktType
      · rw [if_pos hq, if_pos ⟨hq, hq ▸ hopen⟩]
      · rw [if_neg hq, if_neg (mt And.left hq)]
    · have hnot : ¬ (port = sendPort cfg p.pktType ∧ cfg.driverState port = true) := by
        rintro ⟨rfl, h⟩
        exact hopen h
      rw [if_neg hnot]
      exact written_rawSend_closed (by simpa only [htype] using hopen) hsend port
  · rw [hos, captured_append, hrecord]
    show captured _ ++ some _ :: captured es = _
    rw [captured_portWrites hes]
    split <;> rfl
  · rw [hos, wakeBytes_append]
    show wakeBytes _ ++ wakeBytes es = _
    rw [wakeBytes_portWrites hes]
    split <;> rfl

end Call

/-! ## Runs -/

/-- The bytes that announce `n` packets, counted from `pktCnts`. -/
def wakes (pktCnts : UInt8) (n : ℕ) : List UInt8 := (List.range n).map fun i => pktCnts + UInt8.ofNat i

/-- The records of packets from the host. -/
def hostRecords (ps : List HostPacket) : List (Option SnoopRecord) :=
  ps.map fun p => some ⟨p.bytes.length, snoopFlags p.bytes false, p.bytes⟩

/-- The packets of a port, in the order they came in. -/
def portPackets (cfg : RawConfig) (port : Port) (ps : List HostPacket) : List HostPacket :=
  ps.filter fun p => sendPort cfg p.pktType = port

/-- What the calls of a run have done with the packets they were given. -/
structure Demultiplexed (cfg : RawConfig) (pktCnts : UInt8) (ps : List HostPacket) (os : List RawEvent) :
    Prop where
  written : ∀ port, written port os =
    if cfg.driverState port = true then hostBytes (portPackets cfg port ps) else []
  recorded : captured os = hostRecords ps
  woken : wakeBytes os = if cfg.Wakes then wakes pktCnts ps.length else []

theorem portPackets_append (cfg : RawConfig) (port : Port) (ps qs : List HostPacket) :
    portPackets cfg port (ps ++ qs) = portPackets cfg port ps ++ portPackets cfg port qs :=
  List.filter_append ..

theorem portPackets_singleton (cfg : RawConfig) (port : Port) (p : HostPacket) :
    hostBytes (portPackets cfg port [p]) = if port = sendPort cfg p.pktType then p.bytes else [] := by
  by_cases hport : port = sendPort cfg p.pktType
  · rw [if_pos hport, portPackets, List.filter_singleton, decide_eq_true hport.symm]
    exact List.append_nil _
  · rw [if_neg hport, portPackets, List.filter_singleton, decide_eq_false (Ne.symm hport)]
    rfl

theorem wakes_succ (pktCnts : UInt8) (n : ℕ) :
    wakes pktCnts (n + 1) = wakes pktCnts n ++ [pktCnts + UInt8.ofNat n] := by
  rw [wakes, List.range_succ, List.map_append]
  rfl

/-- One more packet. -/
theorem Demultiplexed.snoc {cfg : RawConfig} {pktCnts : UInt8} {ps : List HostPacket} {p : HostPacket}
    {os o : List RawEvent} (h : Demultiplexed cfg pktCnts ps os)
    (hstep : Delivers cfg p (if cfg.Wakes then pktCnts + UInt8.ofNat ps.length else pktCnts) o) :
    Demultiplexed cfg pktCnts (ps ++ [p]) (os ++ o) where
  written port := by
    rw [written_append, h.written, hstep.written, portPackets_append, hostBytes_append,
      portPackets_singleton]
    by_cases hopen : cfg.driverState port = true
    · simp only [hopen, if_true, and_true]
    · rw [if_neg hopen, if_neg hopen, if_neg (mt And.right hopen)]
      rfl
  recorded := by
    rw [captured_append, h.recorded, hstep.recorded, hostRecords, hostRecords, List.map_append]
    rfl
  woken := by
    rw [wakeBytes_append, h.woken, hstep.woken, List.length_append, List.length_singleton, wakes_succ]
    by_cases hwakes : cfg.Wakes
    · simp only [if_pos hwakes]
    · simp only [if_neg hwakes, List.append_nil]

section Runs

variable {cfg : RawConfig} {s t : RawState} {calls : List HostCall} {os : List RawEvent}
  {ps : List HostPacket}

/-- **The bytes of every port.** As long as no read goes on into the next packet, the calls of a run
consume a packet each, whatever the sizes of their reads and writes; each open port is sent its packets
whole and in order, a port that is not open none; every packet is recorded once, and announced once
where the controller may sleep, with a count that wraps at 256. -/
theorem downlink_demultiplexed (run : RawRun cfg s calls os t) (hb : bytesRead calls <+: hostBytes ps)
    (hover : ∀ is c js p, calls = is ++ c :: js → ps[is.length]? = some p → c.NoOverRead p) :
    bytesRead calls = hostBytes (ps.take calls.length) ∧ calls.length ≤ ps.length ∧
      Demultiplexed cfg s.pktCnts (ps.take calls.length) os := by
  suffices hcnts : bytesRead calls = hostBytes (ps.take calls.length) ∧ calls.length ≤ ps.length ∧
      Demultiplexed cfg s.pktCnts (ps.take calls.length) os ∧
      t.pktCnts = if cfg.Wakes then s.pktCnts + UInt8.ofNat calls.length else s.pktCnts by
    exact ⟨hcnts.1, hcnts.2.1, hcnts.2.2.1⟩
  -- by induction on the calls, the last one last; the counter tells how many announced a packet
  induction calls using List.reverseRecOn generalizing os t with
  | nil =>
    obtain ⟨rfl, rfl⟩ := run.eq_of_nil
    refine ⟨rfl, Nat.zero_le _, ⟨fun port => ?_, rfl, ?_⟩, ?_⟩
    · exact (ite_self _).symm
    · exact (ite_self _).symm
    · rw [List.length_nil, show UInt8.ofNat 0 = 0 from rfl, UInt8.add_zero, ite_self]
  | append_singleton is c ih =>
    obtain ⟨u, os', o, run', hstep, rfl⟩ := run.last
    have hb' : bytesRead is <+: hostBytes ps := by
      rw [bytesRead_append] at hb
      exact (List.prefix_append _ _).trans hb
    obtain ⟨hread, hle, hout, hcnt⟩ := ih run' hb' fun ks d js p his hp =>
      hover ks d (js ++ [c]) p (by rw [his, List.append_assoc]; rfl) hp
    obtain ⟨p, hp, hstream⟩ := next_packet hb hread (chunks_ne_nil hstep)
    obtain ⟨hexact, hdel, hnext⟩ := rawStep_delivers hstep hstream (hover is c [] p rfl hp)
    have hlt : is.length < ps.length := (List.getElem?_eq_some_iff.mp hp).1
    have htake : ps.take (is.length + 1) = ps.take is.length ++ [p] := by
      rw [List.take_add_one, hp]
      rfl
    have hlen : (ps.take is.length).length = is.length := List.length_take_of_le hle
    rw [List.length_append, List.length_singleton, htake]
    refine ⟨?_, hlt, hout.snoc ?_, ?_⟩
    · have hc : bytesRead [c] = hostBytes [p] := by simpa [bytesRead, hostBytes] using hexact
      rw [bytesRead_append, hread, hc, hostBytes_append]
    · rw [hlen, ← hcnt]
      exact hdel
    · rw [hnext, hcnt]
      by_cases hwakes : cfg.Wakes
      · simp only [if_pos hwakes, UInt8.add_assoc, UInt8.ofNat_add]
        rfl
      · simp only [if_neg hwakes]

end Runs

/-- Ports open, all packets sent to port 0 of a controller that may sleep. -/
def sleepyConfig : RawConfig :=
  { uartConfig with skwbtuartonly := false, btpwFp := 3 }

/-- Two commands read in pieces: each is announced, recorded and sent whole. -/
theorem downlink_demultiplexed_reset : ∃ os t,
    RawRun sleepyConfig ⟨RawState.init.recvSocketBuf, 255⟩ [splitCall, splitCall] os t ∧
      written btComPortCmdevt os = hciResetCommand.bytes ++ hciResetCommand.bytes ∧
      wakeBytes os = [255, 0] := by
  have hstep (s : RawState) : ∃ o u, RawStep sleepyConfig s splitCall o u :=
    @rawStep_exists sleepyConfig s splitCall hciResetCommand rfl rfl splitCall_noOverRead rfl
      (by decide) rfl
  obtain ⟨o, u, hfirst⟩ := hstep ⟨RawState.init.recvSocketBuf, 255⟩
  obtain ⟨o', t, hsecond⟩ := hstep u
  have run : RawRun sleepyConfig ⟨RawState.init.recvSocketBuf, 255⟩ [splitCall, splitCall]
      ([] ++ o ++ o') t := (Execution.start.snoc hfirst).snoc hsecond
  obtain ⟨-, -, hout⟩ := @downlink_demultiplexed _ _ _ _ _ [hciResetCommand, hciResetCommand] run
    (by decide) (fun is c js p his hp => by
      obtain rfl : p = hciResetCommand := by
        simpa using List.mem_of_getElem? hp
      obtain rfl : c = splitCall := by
        simpa using (his ▸ List.mem_append_right is (List.mem_cons_self ..) : c ∈ [splitCall, splitCall])
      exact splitCall_noOverRead)
  exact ⟨_, t, run, hout.written btComPortCmdevt, hout.woken⟩

end Seekwave
