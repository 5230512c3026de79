import Seekwave.Lib.Execution
import Seekwave.Scomm.RawData
import Seekwave.Vendor.Opening

/-!
# Where the host's packets go

OPEN tells USB from SDIO by where its loop over the ports has ended: at port 0 or 1, and the command port
takes all packets; further on, and each type has a port of its own. The loop passes over ports without a
name and over those whose sockets it does not get, so that a packet type can be sent to a port that is
not open, where `scomm_vendor_recv_rawdata` drops it. `open_routes_iff` says for which runs this does not
happen.
-/

namespace Seekwave

/-! ## One OPEN -/

/-- The settings that `scomm_vendor_recv_rawdata` finds. -/
def VendorState.rawConfig (skwbtNoSleep : Bool) (s : VendorState) : RawConfig where
  skwbtTranstype := s.skwbtTranstype
  skwbtuartonly := s.skwbtuartonly
  skwbtNoSleep := skwbtNoSleep
  btpwFp := s.btpwFp
  driverState p := (s.scommVnd p).driverState

/-- Every packet that the host may send goes to a port that is open. -/
def VendorState.Routable (s : VendorState) : Prop :=
  ∀ skwbtNoSleep pktType, rawAccepts pktType →
    (s.rawConfig skwbtNoSleep).driverState (sendPort (s.rawConfig skwbtNoSleep) pktType) = true

/-- An OPEN that returns 1 has given the host the socket of port 0, and every packet can be routed. -/
def OpReturn.Routed (o : OpReturn) : Prop :=
  o.retval = 1 → o.fdArray = some (o.state.scommVnd 0).uartFd.1 ∧ o.state.Routable

/-- The OPENs that route all packets: those of the UART, those that no port comes up in, those that all
ports come up in, and those that are taken for USB because the device of port 0 or 1 is not there. -/
def VendorState.OpenRoutes (s : VendorState) (r : OpenResults) : Prop :=
  s.skwbtTranstype &&& skwbtTransTypeUart ≠ 0 ∨ (∀ p, p ∉ s.portsUp r) ∨ (∀ p, p ∈ s.portsUp r) ∨
    (s.skwbtTranstype &&& skwbtTransTypeSdio = 0 ∧
      (stopsAt r.port s.scommVnd 0 = true ∨ stopsAt r.port s.scommVnd 1 = true))

/-- Without the SDIO bit the command port takes all packets. -/
theorem routable_of_sdio {s : VendorState} (hsdio : s.skwbtTranstype &&& skwbtTransTypeSdio = 0)
    (h₀ : (s.scommVnd 0).driverState = true) : s.Routable := by
  intro skwbtNoSleep pktType _
  have hport : sendPort (s.rawConfig skwbtNoSleep) pktType = btComPortCmdevt :=
    if_neg (not_not_intro hsdio)
  rw [hport]
  exact h₀

/-- With it, every port takes packets. -/
theorem routable_iff_of_sdio {s : VendorState} (hsdio : s.skwbtTranstype &&& skwbtTransTypeSdio ≠ 0) :
    s.Routable ↔ ∀ p, (s.scommVnd p).driverState = true := by
  constructor
  · intro h p
    have hport : ∃ pktType, rawAccepts pktType ∧ sendPort (s.rawConfig false) pktType = p := by
      have hsend : ∀ pktType, sendPort (s.rawConfig false) pktType =
          if pktType = hciAcldataPkt then btComPortAcl
          else if pktType = hciScodataPkt then btComPortAudio
          else if pktType = hciIsoPkt then btComPortIso
          else btComPortCmdevt := fun pktType => if_pos hsdio
      match p with
      | 0 => exact ⟨hciCommandPkt, by decide, by rw [hsend]; decide⟩
      | 1 => exact ⟨hciAcldataPkt, by decide, by rw [hsend]; decide⟩
      | 2 => exact ⟨hciScodataPkt, by decide, by rw [hsend]; decide⟩
      | 3 => exact ⟨hciIsoPkt, by decide, by rw [hsend]; decide⟩
    obtain ⟨pktType, hacc, hp⟩ := hport
    have hdriver := h false pktType hacc
    rw [hp] at hdriver
    exact hdriver
  · exact fun h skwbtNoSleep pktType _ => h _

section OneOpen

variable {r : OpenResults} {s : VendorState}

/-- Only ports of the device come up, port 0 before the others. -/
theorem head_portsUp (h : (0 : Port) ∈ s.portsUp r) : (s.portsUp r).head? = some 0 := by
  have hsub : (s.portsUp r).Sublist ((0 : Port) :: [1, 2, 3]) := by
    refine List.Sublist.trans List.filter_sublist ?_
    obtain ⟨-, -, -, hports⟩ | ⟨-, -, -, hports⟩ | ⟨-, -, -, hports⟩ := opUserialOpen_cases r s
    · rw [hports]
      exact List.nil_sublist _
    · rw [hports]
      split
      · exact List.nil_sublist _
      · exact List.Sublist.cons_cons 0 (List.nil_sublist _)
    · rw [hports]
      exact List.filter_sublist.trans (List.takeWhile_sublist _)
  rcases hup : s.portsUp r with - | ⟨p, up⟩
  · exact absurd (hup ▸ h) List.not_mem_nil
  · rw [hup] at hsub h
    rcases List.sublist_cons_iff.mp hsub with htail | ⟨up', hcons, -⟩
    · exact absurd (htail.subset h) (by decide)
    · rw [hcons]
      rfl

/-- The descriptor of port 0 goes to the host if port 0 comes up. -/
theorem fdArray_of_mem_portsUp (h : (0 : Port) ∈ s.portsUp r) : (opUserialOpen r s).fdArray =
    some ((opUserialOpen r s).state.scommVnd 0).uartFd.1 := by
  obtain ⟨hmem, hup⟩ := List.mem_filter.mp h
  rw [(opUserialOpen_return r s).2 0 (head_portsUp h), (opUserialOpen_scommVnd r s 0).1 hmem]
  exact congrArg some (socketOpen_succeeds 0 _ _ hup).2.2.1

/-- Where the loop ends at port 0 or 1, no other port than 0 comes up. -/
theorem eq_zero_of_mem_portsUp (huart : s.skwbtTranstype &&& skwbtTransTypeUart = 0)
    (hstops : stopsAt r.port s.scommVnd 0 = true ∨ stopsAt r.port s.scommVnd 1 = true) {p : Port}
    (hp : p ∈ s.portsUp r) : p = 0 := by
  have hmem := List.mem_of_mem_filter hp
  obtain ⟨-, -, -, hports⟩ | ⟨hnot, -⟩ | ⟨-, -, -, hports⟩ := opUserialOpen_cases r s
  · rw [hports] at hmem
    exact absurd hmem List.not_mem_nil
  · exact absurd huart hnot
  · rw [hports] at hmem
    have htake := List.mem_of_mem_filter hmem
    rw [show List.finRange btComPortSize = [0, 1, 2, 3] from rfl, List.takeWhile_cons] at htake
    rcases h₀ : stopsAt r.port s.scommVnd 0 with - | -
    · have h₁ : stopsAt r.port s.scommVnd 1 = true := by simpa [h₀] using hstops
      rw [List.takeWhile_cons, h₀, h₁] at htake
      exact List.mem_singleton.mp htake
    · rw [h₀] at htake
      exact absurd htake List.not_mem_nil

/-- If the SDIO bit is clear then, port 0 is enough. -/
theorem routed_of_portZero (hclosed : ∀ p, (s.scommVnd p).driverState = false)
    (hsdio : (opUserialOpen r s).state.skwbtTranstype &&& skwbtTransTypeSdio = 0)
    (honly : ∀ p, p ∈ s.portsUp r → p = 0) : (opUserialOpen r s).Routed := by
  intro hret
  obtain ⟨p, hp⟩ := List.exists_mem_of_ne_nil _ ((opUserialOpen_return r s).1.mp hret)
  obtain rfl := honly p hp
  exact ⟨fdArray_of_mem_portsUp hp,
    routable_of_sdio hsdio ((driverState_opUserialOpen r s hclosed 0).mpr hp)⟩

/-- **One OPEN.** From closed ports, an OPEN that returns 1 routes all packets exactly if it is one of
`OpenRoutes`. -/
theorem routed_opUserialOpen_iff (htype : TranstypeOk s.skwbtTranstype)
    (hclosed : ∀ p, (s.scommVnd p).driverState = false) :
    (opUserialOpen r s).Routed ↔ s.OpenRoutes r := by
  have hdriver := driverState_opUserialOpen r s hclosed
  by_cases huart : s.skwbtTranstype &&& skwbtTransTypeUart = 0
  · by_cases hup : ∀ p, p ∉ s.portsUp r
    · refine iff_of_true (fun hret => ?_) (.inr (.inl hup))
      obtain ⟨p, hp⟩ := List.exists_mem_of_ne_nil _ ((opUserialOpen_return r s).1.mp hret)
      exact absurd hp (hup p)
    · have hret : (opUserialOpen r s).retval = 1 :=
        (opUserialOpen_return r s).1.mpr fun hnil => hup (by simp [hnil])
      have hboot : r.boot ≠ none := by
        intro hnone
        have huses : s.UsesBoot := fun h => absurd huart h
        refine hup fun p hp => ?_
        rw [VendorState.portsUp, VendorState.portsOpened, if_pos ⟨huses, hnone⟩] at hp
        exact absurd hp List.not_mem_nil
      have htranstype := skwbtTranstype_of_boot huart hboot
      -- all packets go through port 0 if the loop has stopped at port 0 or 1
      by_cases husb : s.skwbtTranstype &&& skwbtTransTypeSdio = 0 ∧
          (stopsAt r.port s.scommVnd 0 = true ∨ stopsAt r.port s.scommVnd 1 = true)
      · refine iff_of_true (routed_of_portZero hclosed ?_ fun p => eq_zero_of_mem_portsUp huart husb.2)
          (.inr (.inr (.inr husb)))
        rw [htranstype, if_pos husb.2, or_and_of_disjoint (by decide)]
        exact husb.1
      · have hsdio : (opUserialOpen r s).state.skwbtTranstype &&& skwbtTransTypeSdio ≠ 0 := by
          rw [htranstype]
          split
          · next hstops =>
            rw [or_and_of_disjoint (by decide)]
            exact fun hnot => husb ⟨hnot, hstops⟩
          · exact or_and_ne_zero (by decide)
        have hall : s.OpenRoutes r ↔ ∀ p, p ∈ s.portsUp r := by
          rw [VendorState.OpenRoutes, or_iff_right (not_not_intro huart), or_iff_right hup,
            or_iff_left husb]
        rw [hall, OpReturn.Routed, routable_iff_of_sdio hsdio]
        simp only [hdriver]
        exact ⟨fun h => (h hret).2, fun h _ => ⟨fdArray_of_mem_portsUp (h 0), h⟩⟩
  · refine iff_of_true (routed_of_portZero hclosed ?_ fun p hp => ?_) (.inl huart)
    · rw [skwbtTranstype_of_uart huart]
      exact htype huart
    · have hmem := List.mem_of_mem_filter hp
      rw [VendorState.portsOpened, if_pos huart] at hmem
      split at hmem
      · exact absurd hmem List.not_mem_nil
      · split at hmem
        · exact absurd hmem List.not_mem_nil
        · exact List.mem_singleton.mp hmem

end OneOpen

/-! ## Runs -/

/-- What the stack calls. -/
inductive VendorInput
  | init (file : Option (List (List UInt8)))
  | userialOpen (r : OpenResults)
  | userialClose (hangsUp : Port → Bool)
  | cleanup

/-- One call, with what an OPEN returns. There is no second OPEN before CLOSE. -/
inductive VendorStep : Vendor → VendorInput → List OpReturn → Vendor → Prop
  | init {t : Vendor} {file : Option (List (List UInt8))} {state : VendorState}
      (hinit : vendorInit file t.state = some state) :
      VendorStep t (.init file) [] { t with state := state }
  | userialOpen {t : Vendor} (r : OpenResults) (hclosed : t.session = none) :
      VendorStep t (.userialOpen r) [opUserialOpen r t.state]
        ⟨(opUserialOpen r t.state).state, some r⟩
  | userialClose (t : Vendor) (hangsUp : Port → Bool) :
      VendorStep t (.userialClose hangsUp) [] ⟨(opUserialClose hangsUp t.state).1, none⟩
  | cleanup (t : Vendor) : VendorStep t .cleanup [] { t with state := vendorCleanup t.state }

/-- The calls of a program that starts. -/
abbrev VendorRun (is : List VendorInput) (os : List OpReturn) (t : Vendor) : Prop :=
  Execution VendorStep ⟨.initial, none⟩ is os t

theorem VendorStep.det ⦃t : Vendor⦄ ⦃i : VendorInput⦄ ⦃o : List OpReturn⦄ ⦃u : Vendor⦄
    ⦃o' : List OpReturn⦄ ⦃u' : Vendor⦄ (h : VendorStep t i o u) (h' : VendorStep t i o' u') :
    o = o' ∧ u = u' := by
  cases h with
  | init hinit =>
    cases h' with
    | init hinit' =>
      obtain rfl := Option.some.inj (hinit.symm.trans hinit')
      exact ⟨rfl, rfl⟩
  | userialOpen r _ => cases h'; exact ⟨rfl, rfl⟩
  | userialClose => cases h'; exact ⟨rfl, rfl⟩
  | cleanup => cases h'; exact ⟨rfl, rfl⟩

/-- Before an OPEN no port has `driver_state` set. -/
structure VendorInv (t : Vendor) : Prop where
  transtype : TranstypeOk t.state.skwbtTranstype
  fd : ∀ p, (t.state.scommVnd p).driverState = true → (t.state.scommVnd p).fd ≠ -1
  closed : t.session = none → ∀ p, (t.state.scommVnd p).driverState = false

theorem transtypeOk_opUserialOpen {r : OpenResults} {s : VendorState}
    (h : TranstypeOk s.skwbtTranstype) : TranstypeOk (opUserialOpen r s).state.skwbtTranstype := by
  intro huart
  rw [uartBit_opUserialOpen] at huart
  rw [skwbtTranstype_of_uart huart]
  exact h huart

/-- A port that is closed is not driven. -/
theorem driverState_portClose {hangsUp : Bool} {v : ScommVnd}
    (h : v.driverState = true → v.fd ≠ -1) :
    (scommVendorPortClose hangsUp v).1.driverState = false := by
  rw [scommVendorPortClose]
  split
  · next hfd => exact Bool.not_eq_true _ ▸ fun htrue => h htrue hfd
  · split <;> rfl

/-- Nothing is driven at first. -/
theorem VendorInv.start : VendorInv ⟨.initial, none⟩ :=
  ⟨fun _ => rfl, fun _ h => absurd h Bool.false_ne_true, fun _ _ => rfl⟩

/-- **Step lemma.** -/
theorem VendorInv.step {t u : Vendor} {i : VendorInput} {o : List OpReturn} (h : VendorInv t)
    (hstep : VendorStep t i o u) : VendorInv u := by
  cases hstep with
  | init hinit =>
    obtain ⟨conf, hconf, rfl⟩ := Option.map_eq_some_iff.mp hinit
    refine ⟨?_, (fun p hp => by cases hp), fun _ _ => rfl⟩
    show TranstypeOk (conf.transtype.getD _)
    rcases htype : conf.transtype with - | transtype
    · exact h.transtype
    · exact fun _ => transtypeOk_of_loadSkwbtConf hconf htype
  | userialOpen r hclosed =>
    refine ⟨transtypeOk_opUserialOpen h.transtype, fun p hp => ?_, by simp⟩
    have hup := (driverState_opUserialOpen r t.state (h.closed hclosed) p).mp hp
    have hmem := List.mem_of_mem_filter hup
    show ((opUserialOpen r t.state).state.scommVnd p).fd ≠ -1
    rw [(opUserialOpen_scommVnd r t.state p).1 hmem]
    rw [show (openPort p (r.port p) (t.state.scommVnd p)).vnd.fd = fdOf (r.port p).device from
      (socketOpen_frame p _ _).1]
    exact fdOf_eq_neg_one.not.mpr (device_of_mem_portsOpened r t.state hmem)
  | userialClose hangsUp =>
    have hdriver : ∀ p, ((opUserialClose hangsUp t.state).1.scommVnd p).driverState = false :=
      fun p => driverState_portClose (h.fd p)
    exact ⟨h.transtype, fun p hp => absurd ((hdriver p).symm.trans hp) (by simp), fun _ => hdriver⟩
  | cleanup => exact ⟨fun _ => (by decide : (0 : UInt8) &&& skwbtTransTypeSdio = 0), h.fd, h.closed⟩

/-- **A successful open leaves every packet routable.** In every run, all OPENs that return 1 have given
the host the socket of port 0 and leave a port that is open to each packet type exactly if all OPENs of
the run are of `OpenRoutes`. -/
theorem open_routes_iff {is : List VendorInput} {os : List OpReturn} {t : Vendor}
    (run : VendorRun is os t) :
    (∀ o ∈ os, o.Routed) ↔
      ∀ ks r js os' t', is = ks ++ .userialOpen r :: js → VendorRun ks os' t' →
        t'.state.OpenRoutes r := by
  have hstep : ∀ ⦃t i o u⦄, VendorInv t → VendorStep t i o u →
      ((∀ x ∈ o, x.Routed) ↔ ∀ r, i = VendorInput.userialOpen r → t.state.OpenRoutes r) := by
    intro t i o u hinv hstep
    cases hstep with
    | userialOpen r hclosed =>
      simp only [List.mem_singleton, forall_eq, VendorInput.userialOpen.injEq, forall_eq']
      exact routed_opUserialOpen_iff hinv.transtype (hinv.closed hclosed)
    | init => exact iff_of_true nofun nofun
    | userialClose => exact iff_of_true nofun nofun
    | cleanup => exact iff_of_true nofun nofun
  rw [run.always_output_iff VendorStep.det VendorInv.start hstep fun _ _ _ _ hinv hnext =>
    hinv.step hnext]
  constructor
  · exact fun hall ks r js os' t' his hrun => hall ks _ js os' t' his hrun r rfl
  · rintro hcond ks _ js os' t' his hrun r rfl
    exact hcond ks r js os' t' his hrun

/-- What the system calls return for a port that comes up. -/
def portResultsUp (fd : ℕ) : PortResults :=
  ⟨some fd, some (fd + 1, fd + 2), some (fd + 3, fd + 4), some (fd + 5), true, true, true, true⟩

/-- A device with one node: its ACL packets go to a port that is not open. -/
theorem open_drops_acl : ¬ ∀ is os t, VendorRun is os t → ∀ o ∈ os, o.Routed := by
  intro hall
  have hinit : VendorRun [.init (some [chars "BtDeviceNode=/dev/BTCMD"])] [] _ :=
    Execution.start.snoc (.init rfl)
  have hopen := hinit.snoc (.userialOpen ⟨some 3, none, fun _ => portResultsUp 4⟩ rfl)
  have hrouted := hall _ _ _ hopen _ (List.mem_singleton_self _) (by decide)
  exact absurd (hrouted.2 false hciAcldataPkt (by decide)) (by decide)

/-- A device whose four ports come up. -/
theorem open_routes_iff_four : ∃ is os t, VendorRun is os t ∧ is.length = 2 ∧ ∀ o ∈ os, o.Routed := by
  let file := some [chars "BtDeviceNode=/dev/BTCMD", chars "BtDeviceNode=/dev/BTDATA",
    chars "BtDeviceNode=/dev/BTAUDIO", chars "BtDeviceNode=/dev/BTISOC"]
  let results : OpenResults := ⟨some 3, none, fun p => portResultsUp (4 + 6 * p)⟩
  have hup : (vendorInit file .initial).map (fun s => decide (∀ p, p ∈ s.portsUp results)) =
      some true := by decide
  obtain ⟨s, hs⟩ : ∃ s, vendorInit file .initial = some s :=
    Option.isSome_iff_exists.mp (by decide)
  rw [hs] at hup
  have hinit : VendorRun [.init file] [] ⟨s, none⟩ := Execution.start.snoc (.init hs)
  have hopen := hinit.snoc (.userialOpen results rfl)
  refine ⟨_, _, _, hopen, rfl, (open_routes_iff hopen).mpr ?_⟩
  intro ks r js os' t' his hrun
  rcases ks with - | ⟨i, - | ⟨j, ks⟩⟩
  · exact absurd his (by simp)
  · obtain ⟨rfl, rfl, -⟩ : .init file = i ∧ results = r ∧ [] = js := by simpa using his
    obtain ⟨-, rfl⟩ := hrun.unique VendorStep.det hinit
    exact .inr (.inr (.inl (of_decide_eq_true (Option.some.inj hup))))
  · exact absurd his (by simp)

end Seekwave
