import Seekwave.Lib.Execution

/-!
# Threads that share objects under locks

Any number of threads make calls, and what a call does is a piece of `Code`: it takes and gives up locks,
writes to the object of a lock it holds, and reads any object, also without the lock. Each lock section is
said to perform an operation. `Code.Ok` says of a call, taken alone, that its sections do what their
operations say and that it takes locks by rising rank. From this, for any interleaving: the objects are as
if the operations had been performed one after the other (`serial`), somebody can always go on
(`exists_step`), and a call is over after so many steps of its thread (`stepsOf_le`).
-/

namespace Threads

/-! ## Code -/

section Code

variable {μ : Type} (τ Ω : μ → Type)

/-- What a thread still has to do. -/
inductive Code
  | ret
  /-- Take the lock `m`, to perform `op` on its object. -/
  | lock (m : μ) (op : Ω m) (k : Code)
  | unlock (m : μ) (k : Code)
  | read (m : μ) (k : τ m → Code)
  | write (m : μ) (f : τ m → τ m) (k : Code)

/-- What the operations do, what holds of an object while its lock is free, what anybody sees of it at any
time, and the order of locks. -/
structure Spec where
  apply : ∀ m, Ω m → τ m → τ m
  inv : ∀ m, τ m → Prop
  seen : ∀ m, τ m → Prop
  rank : μ → ℕ

variable {τ Ω}

/-- `k` is what a thread may do that holds the locks `m` with `h m`, where `h m` is what the operation is
to make of the object, and the object now. -/
def Code.Ok [DecidableEq μ] (S : Spec τ Ω) : (∀ m, Option (τ m × τ m)) → Code τ Ω → Prop
  | h, .ret => ∀ m, h m = none
  | h, .lock m op k => (∀ m', h m' ≠ none → S.rank m' < S.rank m) ∧
      ∀ v, S.inv m v → S.seen m v → k.Ok S (Function.update h m (some (S.apply m op v, v)))
  | h, .unlock m k => (∃ v, h m = some (v, v) ∧ S.inv m v) ∧ k.Ok S (Function.update h m none)
  | h, .read m k =>
    (∀ p, h m = some p → (k p.2).Ok S h) ∧ (h m = none → ∀ v, S.seen m v → (k v).Ok S h)
  | h, .write m f k =>
    ∃ p, h m = some p ∧ S.seen m (f p.2) ∧ k.Ok S (Function.update h m (some (p.1, f p.2)))

/-- The code is over after `n` steps at most. -/
def Code.Within : Code τ Ω → ℕ → Prop
  | .ret, _ => True
  | .lock _ _ k, n => 0 < n ∧ k.Within (n - 1)
  | .unlock _ k, n => 0 < n ∧ k.Within (n - 1)
  | .read _ k, n => 0 < n ∧ ∀ v, (k v).Within (n - 1)
  | .write _ _ k, n => 0 < n ∧ k.Within (n - 1)

/-- What `obs` sees of the operations of the code comes from `bs`, in this order. -/
def Code.Observes {β : Type} (obs : ∀ m, Ω m → Option β) : Code τ Ω → List β → Prop
  | .ret, _ => True
  | .lock m op k, bs =>
    match obs m op with
    | none => k.Observes obs bs
    | some b => ∃ rest, b :: rest <:+ bs ∧ k.Observes obs rest
  | .unlock _ k, bs => k.Observes obs bs
  | .read _ k, bs => ∀ v, (k v).Observes obs bs
  | .write _ _ k, bs => k.Observes obs bs

/-- A bound leaves room for a larger one. -/
theorem Code.Within.mono {k : Code τ Ω} {n n' : ℕ} (h : k.Within n) (hle : n ≤ n') : k.Within n' := by
  induction k generalizing n n' with
  | ret => trivial
  | lock m op k ih =>
    obtain ⟨hpos, hk⟩ := h
    exact ⟨by omega, ih hk (by omega)⟩
  | unlock m k ih =>
    obtain ⟨hpos, hk⟩ := h
    exact ⟨by omega, ih hk (by omega)⟩
  | read m k ih =>
    obtain ⟨hpos, hk⟩ := h
    exact ⟨by omega, fun v => ih v (hk v) (by omega)⟩
  | write m f k ih =>
    obtain ⟨hpos, hk⟩ := h
    exact ⟨by omega, ih hk (by omega)⟩

section Rules

variable [DecidableEq μ] {S : Spec τ Ω} {h : ∀ m, Option (τ m × τ m)} {m : μ} {op : Ω m} {w v : τ m}

/-- What a thread holds that has taken the lock `m` too. -/
abbrev hold (h : ∀ m, Option (τ m × τ m)) (m : μ) (w v : τ m) : ∀ m, Option (τ m × τ m) :=
  Function.update h m (some (w, v))

theorem ok_lock {k : Code τ Ω} (hrank : ∀ m', h m' ≠ none → S.rank m' < S.rank m)
    (hk : ∀ v, S.inv m v → S.seen m v → k.Ok S (hold h m (S.apply m op v) v)) :
    (Code.lock m op k).Ok S h := ⟨hrank, hk⟩

theorem ok_unlock {k : Code τ Ω} (hm : h m = none) (hinv : S.inv m v) (hk : k.Ok S h) :
    (Code.unlock m k).Ok S (hold h m v v) := by
  refine ⟨⟨v, Function.update_self .., hinv⟩, ?_⟩
  unfold hold
  rwa [Function.update_idem, ← hm, Function.update_eq_self]

theorem ok_read {k : τ m → Code τ Ω} (hk : (k v).Ok S (hold h m w v)) :
    (Code.read m k).Ok S (hold h m w v) := by
  have hself : hold h m w v m = some (w, v) := Function.update_self ..
  refine ⟨fun p hp => ?_, fun hnone => ?_⟩
  · obtain rfl := Option.some.inj (hself.symm.trans hp)
    exact hk
  · exact absurd (hself.symm.trans hnone) (by simp)

theorem ok_peek {k : τ m → Code τ Ω} (hm : h m = none) (hk : ∀ v, S.seen m v → (k v).Ok S h) :
    (Code.read m k).Ok S h :=
  ⟨fun _ hp => absurd (hm.symm.trans hp) (by simp), fun _ => hk⟩

theorem ok_write {f : τ m → τ m} {k : Code τ Ω} (hseen : S.seen m (f v))
    (hk : k.Ok S (hold h m w (f v))) : (Code.write m f k).Ok S (hold h m w v) := by
  refine ⟨(w, v), Function.update_self .., hseen, ?_⟩
  unfold hold
  rwa [Function.update_idem]

omit [DecidableEq μ] in
theorem within_lock {k : Code τ Ω} {n : ℕ} (hk : k.Within n) : (Code.lock m op k).Within (n + 1) :=
  ⟨Nat.succ_pos n, hk⟩

omit [DecidableEq μ] in
theorem within_unlock {k : Code τ Ω} {n : ℕ} (hk : k.Within n) : (Code.unlock m k).Within (n + 1) :=
  ⟨Nat.succ_pos n, hk⟩

omit [DecidableEq μ] in
theorem within_read {k : τ m → Code τ Ω} {n : ℕ} (hk : ∀ v, (k v).Within n) :
    (Code.read m k).Within (n + 1) := ⟨Nat.succ_pos n, hk⟩

omit [DecidableEq μ] in
theorem within_write {f : τ m → τ m} {k : Code τ Ω} {n : ℕ} (hk : k.Within n) :
    (Code.write m f k).Within (n + 1) := ⟨Nat.succ_pos n, hk⟩

omit [DecidableEq μ] in
theorem observes_lock_none {β : Type} {obs : ∀ m, Ω m → Option β} {k : Code τ Ω} {bs : List β}
    (hop : obs m op = none) (hk : k.Observes obs bs) : (Code.lock m op k).Observes obs bs := by
  unfold Code.Observes
  rw [hop]
  exact hk

omit [DecidableEq μ] in
theorem observes_lock_some {β : Type} {obs : ∀ m, Ω m → Option β} {k : Code τ Ω} {b : β} {bs : List β}
    (hop : obs m op = some b) (hk : k.Observes obs bs) : (Code.lock m op k).Observes obs (b :: bs) := by
  unfold Code.Observes
  rw [hop]
  exact ⟨bs, List.suffix_refl _, hk⟩

end Rules

end Code

/-! ## Threads -/

section Pool

variable {μ : Type} {τ Ω : μ → Type} {ι α : Type} [DecidableEq μ] [DecidableEq ι]

/-- The objects, who holds the locks, and what each thread has to do. -/
structure Pool (τ Ω : μ → Type) (ι : Type) where
  object : ∀ m, τ m
  owner : μ → Option ι
  code : ι → Code τ Ω

/-- No lock is held, and nobody has anything to do. -/
def Pool.start (σ : ∀ m, τ m) : Pool τ Ω ι := ⟨σ, fun _ => none, fun _ => .ret⟩

/-- A thread makes a call, or a step in the call it has made. -/
inductive PoolEvent (ι α : Type)
  | call (i : ι) (a : α)
  | step (i : ι)

/-- A lock section of a thread, seen when it takes the lock. -/
structure Performed (Ω : μ → Type) (ι : Type) where
  thread : ι
  lock : μ
  op : Ω lock

/-- One event, where the call `a` does `body a`. A thread waits where the lock it wants is held. -/
inductive PoolStep (body : α → Code τ Ω) :
    Pool τ Ω ι → PoolEvent ι α → List (Performed Ω ι) → Pool τ Ω ι → Prop
  | call {s : Pool τ Ω ι} {i : ι} (a : α) (hcode : s.code i = .ret) :
      PoolStep body s (.call i a) [] { s with code := Function.update s.code i (body a) }
  | lock {s : Pool τ Ω ι} {i : ι} {m : μ} {op : Ω m} {k : Code τ Ω} (hcode : s.code i = .lock m op k)
      (hfree : s.owner m = none) :
      PoolStep body s (.step i) [⟨i, m, op⟩]
        { s with owner := Function.update s.owner m (some i), code := Function.update s.code i k }
  | unlock {s : Pool τ Ω ι} {i : ι} {m : μ} {k : Code τ Ω} (hcode : s.code i = .unlock m k)
      (howner : s.owner m = some i) :
      PoolStep body s (.step i) []
        { s with owner := Function.update s.owner m none, code := Function.update s.code i k }
  | read {s : Pool τ Ω ι} {i : ι} {m : μ} {k : τ m → Code τ Ω} (hcode : s.code i = .read m k) :
      PoolStep body s (.step i) [] { s with code := Function.update s.code i (k (s.object m)) }
  | write {s : Pool τ Ω ι} {i : ι} {m : μ} {f : τ m → τ m} {k : Code τ Ω}
      (hcode : s.code i = .write m f k) :
      PoolStep body s (.step i) []
        { s with
          object := Function.update s.object m (f (s.object m))
          code := Function.update s.code i k }

/-- The runs from the objects `σ`. -/
abbrev PoolRun (body : α → Code τ Ω) (σ : ∀ m, τ m) :
    List (PoolEvent ι α) → List (Performed Ω ι) → Pool τ Ω ι → Prop :=
  Execution (PoolStep body) (Pool.start σ)

/-- The objects after operations performed one after the other. -/
def replay (S : Spec τ Ω) (σ : ∀ m, τ m) (out : List (Performed Ω ι)) : ∀ m, τ m :=
  out.foldl (fun σ p => Function.update σ p.lock (S.apply p.lock p.op (σ p.lock))) σ

omit [DecidableEq ι] in
theorem replay_append (S : Spec τ Ω) (σ : ∀ m, τ m) (out out' : List (Performed Ω ι)) :
    replay S σ (out ++ out') = replay S (replay S σ out) out' := List.foldl_append ..

omit [DecidableEq ι] in
theorem replay_one (S : Spec τ Ω) (σ : ∀ m, τ m) (p : Performed Ω ι) :
    replay S σ [p] = Function.update σ p.lock (S.apply p.lock p.op (σ p.lock)) := rfl

/-! ## One after the other -/

/-- What the thread `i` holds, where `σ` is what the operations begun are to make of the objects. -/
def Pool.held (s : Pool τ Ω ι) (σ : ∀ m, τ m) (i : ι) (m : μ) : Option (τ m × τ m) :=
  if s.owner m = some i then some (σ m, s.object m) else none

/-- The invariant of a pool in which the operations begun are to make `σ` of the objects. -/
structure Serial (S : Spec τ Ω) (s : Pool τ Ω ι) (σ : ∀ m, τ m) : Prop where
  free : ∀ m, s.owner m = none → s.object m = σ m ∧ S.inv m (σ m)
  seen : ∀ m, S.seen m (s.object m)
  code : ∀ i, (s.code i).Ok S (s.held σ i)

variable {S : Spec τ Ω} {body : α → Code τ Ω} {s t : Pool τ Ω ι} {σ σ' : ∀ m, τ m} {i : ι} {m : μ}

omit [DecidableEq μ] in
theorem held_of_owner (h : s.owner m = some i) : s.held σ i m = some (σ m, s.object m) := if_pos h

omit [DecidableEq μ] in
theorem held_eq_none (h : s.owner m ≠ some i) : s.held σ i m = none := if_neg h

omit [DecidableEq μ] in
theorem owner_of_held {p : τ m × τ m} (h : s.held σ i m = some p) :
    s.owner m = some i ∧ p = (σ m, s.object m) := by
  unfold Pool.held at h
  split at h
  · next howner => exact ⟨howner, (Option.some.inj h).symm⟩
  · exact absurd h (by simp)

/-- Nothing has changed of the other locks and their objects. -/
structure SameBut (m : μ) (s : Pool τ Ω ι) (σ : ∀ m, τ m) (t : Pool τ Ω ι) (σ' : ∀ m, τ m) : Prop where
  owner : ∀ m', m' ≠ m → t.owner m' = s.owner m'
  object : ∀ m', m' ≠ m → t.object m' = s.object m'
  target : ∀ m', m' ≠ m → σ' m' = σ m'

/-- Then a thread holds what it held of the others. -/
theorem SameBut.held (h : SameBut m s σ t σ') (i : ι) :
    t.held σ' i = Function.update (s.held σ i) m (t.held σ' i m) := by
  funext m'
  by_cases hmm : m' = m
  · subst hmm
    rw [Function.update_self]
  · rw [Function.update_of_ne hmm]
    unfold Pool.held
    rw [h.owner m' hmm, h.object m' hmm, h.target m' hmm]

/-- A thread that does not hold `m`, before and after, holds what it held. -/
theorem SameBut.held_other (h : SameBut m s σ t σ') (hs : s.owner m ≠ some i) (ht : t.owner m ≠ some i) :
    t.held σ' i = s.held σ i := by
  have hnone : s.held σ i m = none := held_eq_none hs
  rw [h.held, held_eq_none ht, ← hnone, Function.update_eq_self]

omit [DecidableEq ι] in
/-- The locks that are free stay as the invariant has them. -/
theorem SameBut.free (h : SameBut m s σ t σ')
    (hfree : ∀ m, s.owner m = none → s.object m = σ m ∧ S.inv m (σ m))
    (hm : t.owner m = none → t.object m = σ' m ∧ S.inv m (σ' m)) (m' : μ) (hnone : t.owner m' = none) :
    t.object m' = σ' m' ∧ S.inv m' (σ' m') := by
  by_cases hmm : m' = m
  · subst hmm
    exact hm hnone
  · rw [h.object m' hmm, h.target m' hmm]
    exact hfree m' ((h.owner m' hmm).symm.trans hnone)

/-- One thread has gone on to `k`, and the others hold what they held. -/
theorem Serial.code_update {k : Code τ Ω} (h : Serial S s σ)
    (hcode : t.code = Function.update s.code i k) (hk : k.Ok S (t.held σ' i))
    (hothers : ∀ j, j ≠ i → t.held σ' j = s.held σ j) (j : ι) : (t.code j).Ok S (t.held σ' j) := by
  rw [hcode]
  by_cases hj : j = i
  · subst hj
    rwa [Function.update_self]
  · rw [Function.update_of_ne hj, hothers j hj]
    exact h.code j

/-- **Step lemma.** Every step keeps the invariant, the operation that it begins replayed. -/
theorem Serial.step {e : PoolEvent ι α} {out : List (Performed Ω ι)} (h : Serial S s σ)
    (hbody : ∀ a, (body a).Ok S fun _ => none) (hstep : PoolStep body s e out t) :
    Serial S t (replay S σ out) := by
  cases hstep with
  | @call i a hcode =>
    -- a thread that has nothing to do holds nothing
    have hnone : s.held σ i = fun _ => none := by
      funext m
      have hok := h.code i
      rw [hcode] at hok
      exact hok m
    refine ⟨h.free, h.seen, h.code_update rfl ?_ fun j _ => rfl⟩
    show (body a).Ok S (s.held σ i)
    rw [hnone]
    exact hbody a
  | @lock i m op k hcode hfree =>
    obtain ⟨hobject, hinv⟩ := h.free m hfree
    have hok := h.code i
    rw [hcode] at hok
    generalize ht : Pool.mk s.object (Function.update s.owner m (some i))
      (Function.update s.code i k) = t
    have howner : t.owner m = some i := by
      subst ht
      exact Function.update_self ..
    have hsame : SameBut m s σ t (replay S σ [⟨i, m, op⟩]) := by
      subst ht
      exact ⟨fun m' hm' => Function.update_of_ne hm' _ _, fun m' _ => rfl,
        fun m' hm' => Function.update_of_ne hm' _ _⟩
    refine ⟨hsame.free h.free fun hnone => ?_, ?_, h.code_update (by rw [← ht]) ?_ fun j hj => ?_⟩
    · exact absurd (howner.symm.trans hnone) (by simp)
    · subst ht
      exact h.seen
    · -- the thread now holds `m`, and its operation is to make of it what `apply` says
      have htarget : replay S σ [⟨i, m, op⟩] m = S.apply m op (σ m) := Function.update_self ..
      have hobject' : t.object m = σ m := by
        subst ht
        exact hobject
      rw [hsame.held, held_of_owner howner, htarget, hobject']
      exact hok.2 (σ m) hinv (hobject ▸ h.seen m)
    · refine hsame.held_other (by simp [hfree]) ?_
      rw [howner]
      exact fun heq => hj (Option.some.inj heq).symm
  | @unlock i m k hcode howner =>
    have hok := h.code i
    rw [hcode] at hok
    obtain ⟨⟨v, hheld, hinv⟩, hk⟩ := hok
    -- what the operation was to make of the object has been made
    obtain ⟨rfl, hobject⟩ := Prod.mk.inj (owner_of_held hheld).2
    generalize ht : Pool.mk s.object (Function.update s.owner m none)
      (Function.update s.code i k) = t
    have hfree : t.owner m = none := by
      subst ht
      exact Function.update_self ..
    have hsame : SameBut m s σ t σ := by
      subst ht
      exact ⟨fun m' hm' => Function.update_of_ne hm' _ _, fun m' _ => rfl, fun m' _ => rfl⟩
    refine ⟨hsame.free h.free fun _ => ?_, ?_, h.code_update (by rw [← ht]) ?_ fun j hj => ?_⟩
    · subst ht
      exact ⟨hobject.symm, hinv⟩
    · subst ht
      exact h.seen
    · show k.Ok S (t.held σ i)
      rw [hsame.held, held_eq_none (by simp [hfree])]
      exact hk
    · refine hsame.held_other ?_ (by simp [hfree])
      rw [howner]
      exact fun heq => hj (Option.some.inj heq).symm
  | @read i m k hcode =>
    have hok := h.code i
    rw [hcode] at hok
    refine ⟨h.free, h.seen, h.code_update rfl ?_ fun j _ => rfl⟩
    by_cases howner : s.owner m = some i
    · exact hok.1 _ (held_of_owner howner)
    · exact hok.2 (held_eq_none howner) _ (h.seen m)
  | @write i m f k hcode =>
    have hok := h.code i
    rw [hcode] at hok
    obtain ⟨p, hheld, hseen, hk⟩ := hok
    obtain ⟨howner, rfl⟩ := owner_of_held hheld
    generalize ht : Pool.mk (Function.update s.object m (f (s.object m))) s.owner
      (Function.update s.code i k) = t
    have howner' : t.owner m = some i := by
      subst ht
      exact howner
    have hsame : SameBut m s σ t σ := by
      subst ht
      exact ⟨fun m' _ => rfl, fun m' hm' => Function.update_of_ne hm' _ _, fun m' _ => rfl⟩
    have hobject : t.object m = f (s.object m) := by
      subst ht
      exact Function.update_self ..
    refine ⟨hsame.free h.free fun hnone => ?_, fun m' => ?_, h.code_update (by rw [← ht]) ?_
      fun j hj => ?_⟩
    · exact absurd (howner'.symm.trans hnone) (by simp)
    · by_cases hmm : m' = m
      · subst hmm
        rw [hobject]
        exact hseen
      · rw [hsame.object m' hmm]
        exact h.seen m'
    · show k.Ok S (t.held σ i)
      rw [hsame.held, held_of_owner howner', hobject]
      exact hk
    · have hne : some i ≠ some j := fun heq => hj (Option.some.inj heq).symm
      exact hsame.held_other (howner ▸ hne) (howner' ▸ hne)

/-- **One after the other.** However threads take turns, whenever a lock is free, its object is as if the
operations begun so far had been performed one after the other, in the order in which their locks were
taken. -/
theorem serial {es : List (PoolEvent ι α)} {out : List (Performed Ω ι)} (run : PoolRun body σ es out s)
    (hbody : ∀ a, (body a).Ok S fun _ => none) (hinv : ∀ m, S.inv m (σ m))
    (hseen : ∀ m, S.seen m (σ m)) : Serial S s (replay S σ out) := by
  induction run with
  | start => exact ⟨fun m _ => ⟨rfl, hinv m⟩, hseen, fun i m => held_eq_none (by simp [Pool.start])⟩
  | snoc _ hstep ih =>
    rw [replay_append]
    exact ih.step hbody hstep

/-! ## Going on -/

/-- A thread that is not at a lock can make a step. -/
theorem Serial.exists_step_of_ne (h : Serial S s σ) (body : α → Code τ Ω) (hret : s.code i ≠ .ret)
    (hlock : ∀ m op k, s.code i = .lock m op k → s.owner m = none) :
    ∃ out t, PoolStep body s (.step i) out t := by
  rcases hcode : s.code i with - | ⟨m, op, k⟩ | ⟨m, k⟩ | ⟨m, k⟩ | ⟨m, f, k⟩
  · exact absurd hcode hret
  · exact ⟨_, _, .lock hcode (hlock m op k hcode)⟩
  · have hok := h.code i
    rw [hcode] at hok
    obtain ⟨⟨v, hheld, -⟩, -⟩ := hok
    exact ⟨_, _, .unlock hcode (owner_of_held hheld).1⟩
  · exact ⟨_, _, .read hcode⟩
  · exact ⟨_, _, .write hcode⟩

/-- **No deadlock.** As long as a thread is in a call, some thread can make a step: one that waits for a
lock that is free, or the owner of the lock of highest rank that is held. -/
theorem Serial.exists_step [Finite μ] (h : Serial S s σ) (body : α → Code τ Ω) (hret : s.code i ≠ .ret) :
    ∃ j out t, PoolStep body s (.step j) out t := by
  by_cases hwait : ∃ m, s.owner m ≠ none
  · obtain ⟨m, hm, hmax⟩ := Set.exists_max_image {m | s.owner m ≠ none} S.rank (Set.toFinite _) hwait
    obtain ⟨j, hj⟩ := Option.ne_none_iff_exists'.mp hm
    have hheld : s.held σ j m ≠ none := by
      rw [held_of_owner hj]
      simp
    refine ⟨j, h.exists_step_of_ne body (fun hcode => ?_) fun m' op k hcode => ?_⟩
    · have hok := h.code j
      rw [hcode] at hok
      exact hheld (hok m)
    · have hok := h.code j
      rw [hcode] at hok
      -- the lock that the owner waits for has a higher rank still
      have hlt := hok.1 m hheld
      by_contra howned
      exact absurd (hmax m' howned) (Nat.not_le.mpr hlt)
  · refine ⟨i, h.exists_step_of_ne body hret fun m op k hcode => ?_⟩
    by_contra howned
    exact hwait ⟨m, howned⟩

/-- The steps of a thread, and its calls. -/
def stepsOf (i : ι) (es : List (PoolEvent ι α)) : ℕ :=
  es.countP fun
    | .step j => j = i
    | .call _ _ => false

def callsOf (i : ι) (es : List (PoolEvent ι α)) : List α :=
  es.filterMap fun
    | .step _ => none
    | .call j a => if j = i then some a else none

/-- What is left to do after a step. -/
theorem within_of_step {out : List (Performed Ω ι)} {n : ℕ} (h : (s.code i).Within n)
    (hstep : PoolStep body s (.step i) out t) : 0 < n ∧ (t.code i).Within (n - 1) := by
  cases hstep with
  | lock hcode _ | unlock hcode _ | write hcode =>
    rw [hcode] at h
    rwa [show (Pool.code _ i) = _ from Function.update_self ..]
  | read hcode =>
    rw [hcode] at h
    rw [show (Pool.code _ i) = _ from Function.update_self ..]
    exact ⟨h.1, h.2 _⟩

/-- The others stay where they are. -/
theorem code_of_step {out : List (Performed Ω ι)} {j : ι} (hstep : PoolStep body s (.step j) out t)
    (hj : j ≠ i) : t.code i = s.code i := by
  cases hstep with
  | lock hcode _ | unlock hcode _ | write hcode | read hcode => exact Function.update_of_ne hj.symm _ _

/-- **Every call ends.** A thread makes at most `n` steps for each call. -/
theorem stepsOf_le {es : List (PoolEvent ι α)} {out : List (Performed Ω ι)} {n : ℕ}
    (run : PoolRun body σ es out s) (hbody : ∀ a, (body a).Within n) (i : ι) :
    stepsOf i es ≤ n * (callsOf i es).length := by
  -- what the present call may still cost has been paid for
  have hpaid : ∃ r, (s.code i).Within r ∧ stepsOf i es + r ≤ n * (callsOf i es).length := by
    induction run with
    | start => exact ⟨0, trivial, Nat.zero_le _⟩
    | @snoc es out s t e o _ hstep ih =>
      obtain ⟨r, hr, hle⟩ := ih
      unfold stepsOf callsOf at hle ⊢
      rw [List.countP_append, List.filterMap_append, List.length_append, Nat.mul_add]
      cases e with
      | call j a =>
        cases hstep with
        | call _ hcode =>
          by_cases hj : j = i
          · subst hj
            refine ⟨n, ?_, ?_⟩
            · rw [show (Pool.code _ j) = _ from Function.update_self ..]
              exact hbody a
            · simp
              omega
          · refine ⟨r, ?_, by simpa [hj] using hle⟩
            rwa [show (Pool.code _ i) = _ from Function.update_of_ne (Ne.symm hj) _ _]
      | step j =>
        by_cases hj : j = i
        · subst hj
          obtain ⟨hpos, hnext⟩ := within_of_step hr hstep
          refine ⟨r - 1, hnext, ?_⟩
          simp
          omega
        · refine ⟨r, ?_, by simpa [hj] using hle⟩
          rwa [code_of_step hstep hj]
  obtain ⟨r, -, hle⟩ := hpaid
  omega

/-! ## In the order of the calls -/

/-- What is seen of the operations of a thread. -/
def observed (obs : ∀ m, Ω m → Option α) (i : ι) (out : List (Performed Ω ι)) : List α :=
  out.filterMap fun p => if p.thread = i then obs p.lock p.op else none

/-- One step of a thread shows what its code is about to do, and leaves the rest. -/
theorem observes_of_step {obs : ∀ m, Ω m → Option α} {out : List (Performed Ω ι)} {bs : List α}
    (h : (s.code i).Observes obs bs) (hstep : PoolStep body s (.step i) out t) :
    ∃ rest, (observed obs i out ++ rest).Sublist bs ∧ (t.code i).Observes obs rest := by
  cases hstep with
  | @lock _ m op k hcode _ =>
    rw [hcode] at h
    have hnext : ∀ rest, k.Observes obs rest → (Function.update s.code i k i).Observes obs rest := by
      intro rest hrest
      rwa [Function.update_self]
    unfold Code.Observes at h
    unfold observed
    rcases hobs : obs m op with - | b
    · rw [hobs] at h
      exact ⟨bs, by simp [hobs], hnext bs h⟩
    · rw [hobs] at h
      obtain ⟨rest, hsuffix, hrest⟩ := h
      exact ⟨rest, by simpa [hobs] using hsuffix.sublist, hnext rest hrest⟩
  | @unlock _ m k hcode _ =>
    rw [hcode] at h
    refine ⟨bs, List.Sublist.refl _, ?_⟩
    rw [show (Pool.code _ i) = _ from Function.update_self ..]
    exact h
  | @read _ m k hcode =>
    rw [hcode] at h
    refine ⟨bs, List.Sublist.refl _, ?_⟩
    rw [show (Pool.code _ i) = _ from Function.update_self ..]
    exact h _
  | @write _ m f k hcode =>
    rw [hcode] at h
    refine ⟨bs, List.Sublist.refl _, ?_⟩
    rw [show (Pool.code _ i) = _ from Function.update_self ..]
    exact h

/-- Another thread shows nothing of this one. -/
theorem observed_of_step {obs : ∀ m, Ω m → Option α} {out : List (Performed Ω ι)} {j : ι}
    (hstep : PoolStep body s (.step j) out t) (hj : j ≠ i) : observed obs i out = [] := by
  unfold observed
  cases hstep with
  | lock _ _ => simp [hj]
  | unlock _ _ | read _ | write _ => simp

/-- **In order, and once.** What is seen of the operations of a thread are calls that it has made, each
at most once and in the order in which it has made them. -/
theorem observed_sublist {obs : ∀ m, Ω m → Option α} {es : List (PoolEvent ι α)}
    {out : List (Performed Ω ι)} (run : PoolRun body σ es out s)
    (hbody : ∀ a, (body a).Observes obs [a]) (i : ι) : (observed obs i out).Sublist (callsOf i es) := by
  -- what the code of thread `i` may still perform is what is left, `rest`, of its calls
  have hrest : ∃ rest, (observed obs i out ++ rest).Sublist (callsOf i es) ∧ (s.code i).Observes obs rest := by
    induction run with
    | start => exact ⟨[], List.Sublist.refl _, trivial⟩
    | @snoc es out s t e o _ hstep ih =>
      obtain ⟨rest, hsub, hcode⟩ := ih
      have happend : observed obs i (out ++ o) = observed obs i out ++ observed obs i o :=
        List.filterMap_append ..
      have hcalls : callsOf i (es ++ [e]) = callsOf i es ++ callsOf i [e] := List.filterMap_append ..
      rw [happend, hcalls]
      cases e with
      | call j a =>
        cases hstep with
        | call _ hret =>
          rw [show observed obs i ([] : List (Performed Ω ι)) = [] from rfl, List.append_nil]
          by_cases hj : j = i
          · subst hj
            refine ⟨[a], ?_, ?_⟩
            · have hone : callsOf j [PoolEvent.call j a] = [a] := by simp [callsOf]
              rw [hone]
              exact ((List.sublist_append_left _ _).trans hsub).append_right [a]
            · rw [show (Pool.code _ j) = _ from Function.update_self ..]
              exact hbody a
          · refine ⟨rest, hsub.trans (List.sublist_append_left _ _), ?_⟩
            rwa [show (Pool.code _ i) = _ from Function.update_of_ne (Ne.symm hj) _ _]
      | step j =>
        rw [show callsOf i [PoolEvent.step (α := α) j] = [] from rfl, List.append_nil]
        by_cases hj : j = i
        · subst hj
          obtain ⟨rest', hsub', hnext⟩ := observes_of_step hcode hstep
          refine ⟨rest', ?_, hnext⟩
          rw [List.append_assoc]
          exact (hsub'.append_left _).trans hsub
        · refine ⟨rest, ?_, ?_⟩
          · rwa [observed_of_step hstep hj, List.append_nil]
          · rwa [code_of_step hstep hj]
  obtain ⟨rest, hsub, -⟩ := hrest
  exact (List.sublist_append_left _ _).trans hsub

end Pool

end Threads
