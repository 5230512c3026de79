import Seekwave.Scomm.Uplink

/-!
# The receive threads come to rest

Without further reads, the threads of `Scomm.Uplink` hand on what they have: in a state where one of them
is not through there is a step that brings it on (`UplinkInv.progress`), and every such step lowers the
work that is left (`UplinkStep.lower`), which bounds their number. So no interleaving of them deadlocks on
`write2host_lock`, and none goes round for ever; only `write()` calls that take nothing are left out, as
the loop around them repeats them for as long as they do, and reads behind which the parse loop itself
does not end.
-/

namespace Seekwave

/-! ## Steps that bring a thread on -/

/-- A step of a thread on its way to its next `poll()`. -/
def UplinkEvent.Productive : UplinkEvent → Prop
  | .deliver _ => True
  | .host (.write _ (.count k)) => 0 < k
  | .host (.write _ _) => False
  | .host .clearRunning => False
  | .host _ => True
  | .read _ _ | .readFailed _ | .leave _ => False

/-- What a delivery costs. -/
def Delivery.cost : Delivery → ℕ
  | .scommVendorSendToHost _ buffer => 2 * buffer.length + 5
  | _ => 1

/-- What is left of a call of `scomm_vendor_send_to_host`. -/
def Pc.cost : Pc → ℕ
  | .idle => 0
  | .locking buffer => 2 * buffer.length + 4
  | .testing _ _ length => 2 * length + 2
  | .writing _ _ length => 2 * length + 1
  | .unlocking _ => 1

namespace Uplink

/-- What thread `i` is yet to do. -/
def portCost (s : Uplink) (i : Port) : ℕ := (s.pc i).cost + ((s.work i).map Delivery.cost).sum

/-- What all threads are yet to do. -/
def cost (s : Uplink) : ℕ := ∑ i, s.portCost i

/-- One thread has less to do, the others are where they were. -/
theorem cost_lt {s t : Uplink} {i : Port} (h : t.portCost i < s.portCost i)
    (hpc : ∀ j, j ≠ i → t.pc j = s.pc j) (hwork : ∀ j, j ≠ i → t.work j = s.work j) :
    t.cost < s.cost := by
  refine Finset.sum_lt_sum (fun j _ => ?_) ⟨i, Finset.mem_univ i, h⟩
  by_cases hj : j = i
  · exact hj ▸ Nat.le_of_lt h
  · exact Nat.le_of_eq (by rw [portCost, portCost, hpc j hj, hwork j hj])

end Uplink

/-! ## The lock -/

/-- The thread inside is the owner of the lock, and one at a `write()` has something to write. -/
structure UplinkInv (s : Uplink) : Prop where
  inside : ∀ i, (s.pc i).Inside ↔ s.write2hostLock = some i
  writing : ∀ i buffer transmitted length, s.pc i = .writing buffer transmitted length → 0 < length

theorem uplinkInv_init : UplinkInv .init where
  inside _ := iff_of_false id (by simp [Uplink.init])
  writing _ _ _ _ h := by simp [Uplink.init] at h

namespace UplinkInv

variable {s t : Uplink} {i : Port}

/-- Thread `i` goes on to `next`; the lock stays with the others if one of them has it. -/
theorem goto (h : UplinkInv s) {next : Pc} (hpc : t.pc = Function.update s.pc i next)
    (hnext : next.Inside ↔ t.write2hostLock = some i)
    (hothers : ∀ j, j ≠ i → (s.write2hostLock = some j ↔ t.write2hostLock = some j))
    (hwriting : ∀ buffer transmitted length, next = .writing buffer transmitted length → 0 < length) :
    UplinkInv t where
  inside j := by
    rw [hpc]
    by_cases hj : j = i
    · subst hj
      rwa [Function.update_self]
    · rw [Function.update_of_ne hj, h.inside j, hothers j hj]
  writing j buffer transmitted length hj := by
    rw [hpc] at hj
    by_cases hji : j = i
    · subst hji
      rw [Function.update_self] at hj
      exact hwriting _ _ _ hj
    · rw [Function.update_of_ne hji] at hj
      exact h.writing j _ _ _ hj

/-- The lock stays where it is. -/
theorem stay (h : UplinkInv s) {next : Pc} (hpc : t.pc = Function.update s.pc i next)
    (hnext : next.Inside ↔ (s.pc i).Inside) (hlock : t.write2hostLock = s.write2hostLock)
    (hwriting : ∀ buffer transmitted length, next = .writing buffer transmitted length → 0 < length) :
    UplinkInv t :=
  h.goto hpc (by rw [hlock, hnext, h.inside i]) (fun j _ => by rw [hlock]) hwriting

/-- Neither the lock nor the place of a thread changes. -/
theorem frame (h : UplinkInv s) (hlock : t.write2hostLock = s.write2hostLock) (hpc : t.pc = s.pc) :
    UplinkInv t where
  inside j := by rw [hlock, hpc, h.inside j]
  writing j := by
    rw [hpc]
    exact h.writing j

/-- A step inside `scomm_vendor_send_to_host`. -/
theorem host (h : UplinkInv s) {e : HostEvent} {o : List UInt8} {link : HostLink}
    (hstep : HostStep s.hostLink e o link) (he : ∀ i, e ≠ .call i) : UplinkInv (s.withHost link) := by
  have hinside : ∀ {i : Port} {pc : Pc}, s.pc i = pc → pc.Inside → (s.pc i).Inside :=
    fun hpc hin => hpc.symm ▸ hin
  cases hstep with
  | clearRunning => exact h.frame rfl rfl
  | call => exact absurd rfl (he _)
  | @lock i p hpc hfree =>
    refine h.goto rfl (iff_of_true trivial rfl) (fun j hj => ?_) (by simp)
    have hfree' : s.write2hostLock = none := hfree
    rw [hfree']
    exact iff_of_false (by simp) fun heq => hj (Option.some.inj heq).symm
  | @test i p t n hpc =>
    refine h.stay rfl (iff_of_true ?_ (hinside hpc trivial)) rfl fun _ _ _ hnext => ?_
    · split <;> exact trivial
    · split at hnext
      · next hcond =>
        obtain ⟨-, -, rfl⟩ : p = _ ∧ t = _ ∧ n = _ := by simpa using hnext
        exact hcond.1
      · exact absurd hnext (by simp)
  | interrupted => exact h.frame rfl rfl
  | error hpc => exact h.stay rfl (iff_of_true trivial (hinside hpc trivial)) rfl (by simp)
  | wrote hpc _ => exact h.stay rfl (iff_of_true trivial (hinside hpc trivial)) rfl (by simp)
  | @unlock i p hpc =>
    refine h.goto rfl (iff_of_false id (by simp [Uplink.withHost])) (fun j hj => ?_) (by simp)
    rw [(h.inside i).mp (hinside hpc trivial)]
    exact iff_of_false (fun heq => hj (Option.some.inj heq).symm) (by simp [Uplink.withHost])

/-- **Step lemma.** -/
theorem step (h : UplinkInv s) {e : UplinkEvent} {o : List UplinkOut} (hstep : UplinkStep s e o t) :
    UplinkInv t := by
  cases hstep with
  | host he hhost => exact h.host hhost he
  | call hpc hwork => exact h.stay rfl (by rw [hpc]; exact Iff.rfl) rfl (by simp)
  | _ => exact h.frame rfl rfl

end UplinkInv

/-- **Run lemma.** -/
theorem uplinkInv_of_run {es : List UplinkEvent} {os : List UplinkOut} {s : Uplink}
    (run : UplinkRun es os s) : UplinkInv s :=
  run.invariant (I := fun _ _ s => UplinkInv s) uplinkInv_init fun _ _ _ _ _ _ _ h hstep => h.step hstep

/-! ## Progress -/

/-- **A thread that is not through can go on**, or waits for one that can. -/
theorem UplinkInv.progress {s : Uplink} (h : UplinkInv s) (hbusy : ¬ s.Quiet) :
    ∃ e o t, e.Productive ∧ UplinkStep s e o t := by
  rcases hlock : s.write2hostLock with - | i
  · by_cases hidle : ∀ i, s.pc i = .idle
    · -- nobody is in `scomm_vendor_send_to_host`, and somebody has something to hand on
      obtain ⟨i, hi⟩ : ∃ i, s.work i ≠ [] := by
        by_contra hdone
        exact hbusy ⟨hidle, fun i => by_contra fun hi => hdone ⟨i, hi⟩⟩
      obtain ⟨d, ds, hwork⟩ := List.exists_cons_of_ne_nil hi
      cases d with
      | skwlogWrite buffer => exact ⟨.deliver i, _, _, trivial, .skwlogWrite (hidle i) hwork⟩
      | skwBtsnoopCapture record => exact ⟨.deliver i, _, _, trivial, .skwBtsnoopCapture (hidle i) hwork⟩
      | discard buffer => exact ⟨.deliver i, _, _, trivial, .discard (hidle i) hwork⟩
      | scommVendorSendToHost n buffer => exact ⟨.host (.call i), _, _, trivial, .call (hidle i) hwork⟩
    · -- nobody owns the lock, so that whoever is in the function waits for it
      obtain ⟨i, hi⟩ := not_forall.mp hidle
      have hout : ¬ (s.pc i).Inside := fun hin => by simpa [hlock] using (h.inside i).mp hin
      cases hpc : s.pc i with
      | idle => exact absurd hpc hi
      | locking p => exact ⟨.host (.lock i p), _, _, trivial, .host (by simp) (.lock hpc hlock)⟩
      | testing | writing | unlocking => exact absurd (hpc ▸ trivial) hout
  · -- the owner goes on
    have hin := (h.inside i).mpr hlock
    cases hpc : s.pc i with
    | idle => rw [hpc] at hin; exact hin.elim
    | locking p => rw [hpc] at hin; exact hin.elim
    | testing p t n => exact ⟨.host (.test i), _, _, trivial, .host (by simp) (.test hpc)⟩
    | writing p t n =>
      exact ⟨.host (.write i (.count n)), _, _, h.writing i p t n hpc,
        .host (by simp) (.wrote hpc (Nat.le_refl n))⟩
    | unlocking p => exact ⟨.host (.unlock i), _, _, trivial, .host (by simp) (.unlock hpc)⟩

/-- A thread that moves from `pc` to `next` and leaves its work has less to do if `next` costs less. -/
theorem cost_goto {s t : Uplink} {i : Port} {pc next : Pc} (hi : s.pc i = pc)
    (hpc : t.pc = Function.update s.pc i next) (hwork : t.work = s.work) (h : next.cost < pc.cost) :
    t.cost < s.cost := by
  refine Uplink.cost_lt (i := i) ?_ (fun j hj => ?_) fun j _ => by rw [hwork]
  · rw [Uplink.portCost, Uplink.portCost, hpc, Function.update_self, hwork, hi]
    exact Nat.add_lt_add_right h _
  · rw [hpc, Function.update_of_ne hj]

/-- A thread that hands something on has less to do. -/
theorem cost_give {s : Uplink} {i : Port} {d : Delivery} {ds : List Delivery}
    (hwork : s.work i = d :: ds) : (s.give i ds).cost < s.cost := by
  have hd : 0 < d.cost := by cases d <;> simp [Delivery.cost]
  refine Uplink.cost_lt (i := i) ?_ (fun _ _ => rfl) fun j hj => Uplink.give_work_of_ne _ _ _ hj
  rw [Uplink.portCost, Uplink.portCost, Uplink.give_work_self, hwork, List.map_cons, List.sum_cons]
  exact Nat.add_lt_add_left (Nat.lt_add_of_pos_left hd) _

/-- **Step lemma.** A step that brings a thread on lowers the work that is left. -/
theorem UplinkStep.lower {s t : Uplink} {e : UplinkEvent} {o : List UplinkOut}
    (hstep : UplinkStep s e o t) (he : e.Productive) : t.cost < s.cost := by
  cases hstep with
  | read | readFailed | leave => exact he.elim
  | skwlogWrite _ hwork => exact cost_give hwork
  | skwBtsnoopCapture _ hwork => exact cost_give hwork
  | discard _ hwork => exact cost_give hwork
  | @call i n buffer ds hpc hwork =>
    refine Uplink.cost_lt (i := i) ?_ (fun j hj => Function.update_of_ne hj ..) fun j hj =>
      Uplink.give_work_of_ne _ _ _ hj
    rw [Uplink.portCost, Uplink.portCost, Uplink.give_work_self, hwork, hpc, List.map_cons, List.sum_cons]
    show (Function.update s.pc i (.locking buffer) i).cost + _ < _
    rw [Function.update_self]
    simp only [Pc.cost, Delivery.cost]
    omega
  | host hne hhost =>
    cases hhost with
    | clearRunning | interrupted | error => exact he.elim
    | call => exact absurd rfl (hne _)
    | lock hpc _ => exact cost_goto hpc rfl rfl (by simp only [Pc.cost]; omega)
    | @test i p t n hpc =>
      refine cost_goto hpc rfl rfl ?_
      split
      · simp only [Pc.cost]
        omega
      · simp only [Pc.cost]
        omega
    | @wrote i p t n k hpc hk =>
      have hpos : 0 < k := he
      exact cost_goto hpc rfl rfl (by simp only [Pc.cost]; omega)
    | unlock hpc => exact cost_goto hpc rfl rfl (by simp only [Pc.cost]; omega)

/-- **The receive threads come to rest.** In every reachable state, whatever the controller has sent, as
long as the parse loop behind each read ends: a thread that is not through can go on, or one that it waits
for can; and however such steps are interleaved, there are at most `cost` of them before everything that
was read has been handed on. -/
theorem uplink_drains {es : List UplinkEvent} {os : List UplinkOut} {s : Uplink}
    (run : UplinkRun es os s) :
    (¬ s.Quiet → ∃ e o t, e.Productive ∧ UplinkStep s e o t) ∧
      ∀ es' os' t, Execution UplinkStep s es' os' t → (∀ e ∈ es', e.Productive) →
        es'.length + t.cost ≤ s.cost := by
  refine ⟨(uplinkInv_of_run run).progress, fun es' os' t run' hprod => ?_⟩
  have hbudget := (run'.budget (J := fun _ => True) (A := UplinkEvent.Productive) (c := fun _ => 1)
    (r := Uplink.cost) trivial (fun _ _ _ _ _ _ _ => trivial) (fun u e o v _ he hstep => ?_) hprod).2
  · simpa using hbudget
  · have hlower := hstep.lower he
    omega

/-- Port 0 has read an event of seven bytes and done nothing with it yet. -/
theorem uplink_drains_event : ∃ os s, UplinkRun [.read 0 resetComplete.bytes] os s ∧
    (¬ s.Quiet → ∃ e o t, e.Productive ∧ UplinkStep s e o t) ∧
      ∀ es' os' t, Execution UplinkStep s es' os' t → (∀ e ∈ es', e.Productive) →
        es'.length + t.cost ≤ s.cost := by
  obtain ⟨r, h⟩ := recvStep_whole resetComplete
  have run : UplinkRun ([] ++ [.read 0 resetComplete.bytes]) ([] ++ []) _ :=
    Execution.start.snoc (.read (i := 0) rfl rfl rfl h)
  exact ⟨_, _, run, uplink_drains run⟩

end Seekwave
