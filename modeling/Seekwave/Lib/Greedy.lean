import Mathlib

/-!
# Greedy batches

`Greedy.fill` takes items off a list as long as their sizes fit what is left of a capacity;
`Greedy.batches` does so over and over. The batches make up the list, none is empty, none exceeds the
capacity, and each of them is maximal: the item behind it would not have fitted.
-/

namespace Greedy

variable {α : Type*} (size : α → ℕ) (cap : ℕ)

/-- The size of a list of items. -/
def total (xs : List α) : ℕ := (xs.map size).sum

/-- The items that fit behind `used`, and the others. -/
def fill : ℕ → List α → List α × List α
  | _, [] => ([], [])
  | used, x :: xs =>
    if used + size x ≤ cap then (x :: (fill (used + size x) xs).1, (fill (used + size x) xs).2)
    else ([], x :: xs)

@[simp] theorem total_nil : total size [] = 0 := rfl

@[simp] theorem total_cons (x : α) (xs : List α) : total size (x :: xs) = size x + total size xs := by
  simp [total]

theorem total_append (xs ys : List α) : total size (xs ++ ys) = total size xs + total size ys := by
  simp [total]

variable {size cap} {used : ℕ} {xs : List α}

theorem fill_append (used : ℕ) (xs : List α) :
    (fill size cap used xs).1 ++ (fill size cap used xs).2 = xs := by
  induction xs generalizing used with
  | nil => rfl
  | cons x xs ih =>
    rw [fill]
    split
    · rw [List.cons_append, ih]
    · rfl

theorem length_fill_le (used : ℕ) (xs : List α) : (fill size cap used xs).2.length ≤ xs.length := by
  have := congrArg List.length (@fill_append α size cap used xs)
  rw [List.length_append] at this
  omega

/-- What is taken fits. -/
theorem total_fill_le (hused : used ≤ cap) : used + total size (fill size cap used xs).1 ≤ cap := by
  induction xs generalizing used with
  | nil => exact hused
  | cons x xs ih =>
    rw [fill]
    split
    · next hfit =>
      have := ih hfit
      rw [total_cons]
      omega
    · exact hused

/-- What is left begins with an item that does not fit. -/
theorem lt_of_fill {y : α} {ys : List α} (h : (fill size cap used xs).2 = y :: ys) :
    cap < used + total size (fill size cap used xs).1 + size y := by
  induction xs generalizing used with
  | nil => simp [fill] at h
  | cons x xs ih =>
    rw [fill] at h ⊢
    split at h
    · next hfit =>
      rw [if_pos hfit, total_cons]
      have := ih h
      omega
    · next hfit =>
      obtain ⟨rfl, rfl⟩ := List.cons.inj h
      rw [if_neg hfit, total_nil]
      omega

variable (size cap)

/-- The batches of a list. The first item of a batch is in it in any case. -/
def batches : List α → List (List α)
  | [] => []
  | x :: xs => (x :: (fill size cap (size x) xs).1) :: batches (fill size cap (size x) xs).2
termination_by xs => xs.length
decreasing_by exact Nat.lt_succ_of_le (length_fill_le _ _)

variable {size cap}

@[simp] theorem batches_nil : batches size cap [] = [] := by rw [batches]

theorem batches_cons (x : α) (xs : List α) :
    batches size cap (x :: xs) =
      (x :: (fill size cap (size x) xs).1) :: batches size cap (fill size cap (size x) xs).2 := by
  rw [batches]

/-- **Induction over the batches of a list.** -/
theorem batches_induction {P : List α → List (List α) → Prop} (nil : P [] [])
    (cons : ∀ x xs bs, bs = batches size cap (fill size cap (size x) xs).2 →
      P (fill size cap (size x) xs).2 bs →
      P (x :: xs) ((x :: (fill size cap (size x) xs).1) :: bs)) (xs : List α) :
    P xs (batches size cap xs) := by
  induction hn : xs.length using Nat.strongRecOn generalizing xs with
  | ind n ih =>
    rcases xs with - | ⟨x, xs⟩
    · rw [batches_nil]
      exact nil
    · rw [batches_cons]
      have := @length_fill_le α size cap (size x) xs
      rw [List.length_cons] at hn
      exact cons x xs _ rfl (ih _ (by omega) _ rfl)

/-- The batches make up the list. -/
theorem flatten_batches (xs : List α) : (batches size cap xs).flatten = xs := by
  refine batches_induction (P := fun xs bs => bs.flatten = xs) rfl ?_ xs
  intro x xs bs _ ih
  rw [List.flatten_cons, ih, List.cons_append, fill_append]

/-- No batch is empty. -/
theorem ne_nil_of_mem_batches {b : List α} (h : b ∈ batches size cap xs) : b ≠ [] := by
  revert b
  refine batches_induction (P := fun _ bs => ∀ {b}, b ∈ bs → b ≠ []) (fun h => nomatch h) ?_ xs
  intro x xs bs _ ih b hb
  rcases List.mem_cons.mp hb with rfl | hb
  · simp
  · exact ih hb

/-- No batch exceeds the capacity, if no item does. -/
theorem total_le_of_mem_batches (hxs : ∀ x ∈ xs, size x ≤ cap) :
    ∀ b ∈ batches size cap xs, total size b ≤ cap := by
  revert hxs
  refine batches_induction
    (P := fun xs bs => (∀ x ∈ xs, size x ≤ cap) → ∀ b ∈ bs, total size b ≤ cap)
    (fun _ _ h => nomatch h) ?_ xs
  intro x xs bs _ ih hxs b hb
  rcases List.mem_cons.mp hb with rfl | hb
  · have := @total_fill_le α size cap (size x) xs (hxs x (List.mem_cons_self ..))
    rw [total_cons]
    exact this
  · refine ih (fun y hy => hxs y (List.mem_cons_of_mem _ ?_)) b hb
    rw [← fill_append (size x) xs]
    exact List.mem_append_right _ hy

/-- **Every batch is maximal**: what comes behind it would not have fitted. -/
theorem lt_of_batches {pre post : List (List α)} {b : List α} {y : α} {ys : List α}
    (h : batches size cap xs = pre ++ b :: post) (hy : post.flatten = y :: ys) :
    cap < total size b + size y := by
  revert pre
  refine batches_induction (P := fun _ bs => ∀ {pre}, bs = pre ++ b :: post →
    cap < total size b + size y) (fun h => by simp at h) ?_ xs
  intro x xs bs hbs ih pre h
  rcases pre with - | ⟨c, pre⟩
  · obtain ⟨rfl, rfl⟩ := List.cons.inj h
    rw [hbs, flatten_batches] at hy
    have := lt_of_fill hy
    rw [total_cons]
    exact this
  · exact ih (List.cons.inj h).2

end Greedy
