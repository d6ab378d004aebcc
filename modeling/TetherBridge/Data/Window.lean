/-!
This module contains windows over a numbered sequence: lists whose elements carry consecutive numbers.
A window grows at its back, is cut at its front, and keeps its numbers when an element is replaced.
-/

namespace List

variable {α : Type u} {seq : α → Nat}

/--
The element at index `i` carries the number `start + i`.
-/
def Consecutive (seq : α → Nat) (start : Nat) (xs : List α) : Prop :=
  ∀ i x, xs[i]? = some x → seq x = start + i

@[simp]
theorem consecutive_nil (start : Nat) : Consecutive seq start [] := by
  intro i x h
  simp at h

theorem Consecutive.append_singleton {start : Nat} {xs : List α} (h : Consecutive seq start xs)
    {x : α} (hx : seq x = start + xs.length)
    : Consecutive seq start (xs ++ [x]) := by
  intro i y hy
  rw [List.getElem?_append] at hy
  split at hy
  . exact h i y hy
  . next hle =>
    rw [List.getElem?_singleton] at hy
    split at hy
    . next hzero =>
      injection hy with hy
      subst hy
      omega
    . contradiction

theorem Consecutive.tail {start : Nat} {x : α} {xs : List α} (h : Consecutive seq start (x :: xs))
    : Consecutive seq (start + 1) xs := by
  intro i y hy
  have := h (i + 1) y (by simpa using hy)
  omega

theorem Consecutive.set {start i : Nat} {xs : List α} (h : Consecutive seq start xs) {x y : α}
    (hx : xs[i]? = some x) (hy : seq y = seq x)
    : Consecutive seq start (xs.set i y) := by
  intro j z hz
  rw [List.getElem?_set] at hz
  split at hz
  . next hij =>
    subst hij
    split at hz
    . injection hz with hz
      subst hz
      rw [hy]
      exact h i x hx
    . contradiction
  . exact h j z hz

theorem Consecutive.head {start : Nat} {x : α} {xs : List α} (h : Consecutive seq start (x :: xs))
    : seq x = start :=
  h 0 x rfl

/--
A number occurs at one place of a window only.
-/
theorem Consecutive.idx_inj {start i j : Nat} {xs : List α} (h : Consecutive seq start xs) {x y : α}
    (hx : xs[i]? = some x) (hy : xs[j]? = some y) (hseq : seq x = seq y)
    : i = j := by
  have := h i x hx
  have := h j y hy
  omega

/--
Replacing an element by one with the same image changes no image.
-/
theorem map_set_of_eq {β : Type v} {f : α → β} {xs : List α} {i : Nat} {old new : α}
    (hold : xs[i]? = some old) (h : f new = f old)
    : (xs.set i new).map f = xs.map f := by
  apply List.ext_getElem?
  intro j
  rw [List.getElem?_map, List.getElem?_map, List.getElem?_set]
  split
  . next heq =>
    subst heq
    have hlt := (List.getElem?_eq_some_iff.mp hold).1
    rw [if_pos hlt, hold]
    simp [h]
  . rfl

/--
An element that is inserted before the first one with a property splits the list there.
-/
theorem insertIdx_findIdx (p : α → Bool) (x : α) (xs : List α)
    : ∃ before after, xs = before ++ after ∧ xs.insertIdx (xs.findIdx p) x = before ++ x :: after
        ∧ (∀ y ∈ before, p y = false) ∧ ∀ y, after.head? = some y → p y = true := by
  induction xs with
  | nil => exact ⟨[], [], rfl, rfl, by simp, by simp⟩
  | cons z xs ih =>
    rw [findIdx_cons]
    cases hz : p z with
    | true =>
      refine ⟨[], z :: xs, rfl, rfl, by simp, ?_⟩
      intro y hy
      rw [← Option.some.inj hy]
      exact hz
    | false =>
      rcases ih with ⟨before, after, hsplit, hinsert, hbefore, hafter⟩
      refine ⟨z :: before, after, ?_, ?_, ?_, hafter⟩
      . rw [cons_append, ← hsplit]
      . rw [cond_false, insertIdx_succ_cons, hinsert, cons_append]
      . intro y hy
        cases mem_cons.mp hy with
        | inl heq => rw [heq, hz]
        | inr hmem => exact hbefore y hmem

/-! Parts of a window -/

theorem Consecutive.append_right {start : Nat} {xs ys : List α} (h : Consecutive seq start (xs ++ ys))
    : Consecutive seq (start + xs.length) ys := by
  intro i y hy
  have hi := h (xs.length + i) y
  rw [List.getElem?_append_right (Nat.le_add_right _ _), Nat.add_sub_cancel_left] at hi
  have hseq := hi hy
  omega

theorem Consecutive.append_left {start : Nat} {xs ys : List α} (h : Consecutive seq start (xs ++ ys))
    : Consecutive seq start xs := by
  intro i x hx
  apply h i x
  rw [List.getElem?_append_left (List.getElem?_eq_some_iff.mp hx).1]
  exact hx

theorem Consecutive.append {start : Nat} {xs ys : List α} (hxs : Consecutive seq start xs)
    (hys : Consecutive seq (start + xs.length) ys)
    : Consecutive seq start (xs ++ ys) := by
  intro i x hx
  rw [List.getElem?_append] at hx
  split at hx
  . exact hxs i x hx
  . have hseq := hys _ x hx
    omega

theorem Consecutive.part {start : Nat} {xs : List α} (h : Consecutive seq start xs) (n m : Nat)
    : Consecutive seq (start + n) ((xs.drop n).take m) := by
  intro i x hx
  rw [getElem?_take] at hx
  split at hx
  . rw [getElem?_drop] at hx
    have hseq := h _ x hx
    omega
  . contradiction

theorem Consecutive.getLast {start : Nat} {xs : List α} (h : Consecutive seq start xs) {x : α}
    (hx : xs.getLast? = some x)
    : seq x + 1 = start + xs.length := by
  rw [getLast?_eq_getElem?] at hx
  have hlt := (getElem?_eq_some_iff.mp hx).1
  have hseq := h _ x hx
  omega

theorem Consecutive.mem {start : Nat} {xs : List α} (h : Consecutive seq start xs) {n : Nat}
    (hle : start ≤ n) (hlt : n < start + xs.length)
    : ∃ x ∈ xs, seq x = n := by
  have hidx : n - start < xs.length := by omega
  have hx := getElem?_eq_getElem hidx
  refine ⟨_, mem_of_getElem? hx, ?_⟩
  have hseq := h _ _ hx
  omega

theorem Consecutive.bounds {start : Nat} {xs : List α} (h : Consecutive seq start xs) {x : α} (hx : x ∈ xs)
    : start ≤ seq x ∧ seq x < start + xs.length := by
  rcases mem_iff_getElem?.mp hx with ⟨i, hi⟩
  have hlt := (getElem?_eq_some_iff.mp hi).1
  have hseq := h i x hi
  omega

theorem Consecutive.sorted {start : Nat} {xs : List α} (h : Consecutive seq start xs)
    : xs.Pairwise (seq · < seq ·) := by
  induction xs generalizing start with
  | nil => exact .nil
  | cons x xs ih =>
    refine pairwise_cons.mpr ⟨?_, ih h.tail⟩
    intro y hy
    have hx := h.head
    have hy := (h.tail.bounds hy).1
    omega

/--
The elements of a window after a number are what is left when those before are dropped.
-/
theorem Consecutive.filter_lt {start after : Nat} {xs : List α} (h : Consecutive seq start xs)
    : xs.filter (fun x => after < seq x) = xs.drop (after + 1 - start) := by
  induction xs generalizing start with
  | nil => rw [List.filter_nil, List.drop_nil]
  | cons x xs ih =>
    have hrest := ih h.tail
    have hhead := h.head
    rw [List.filter_cons]
    by_cases hle : start ≤ after
    . have hdrop : after + 1 - start = (after + 1 - (start + 1)) + 1 := by omega
      rw [if_neg (by simp; omega), hrest, hdrop, List.drop_succ_cons]
    . have hzero : after + 1 - start = 0 := by omega
      have hzero' : after + 1 - (start + 1) = 0 := by omega
      rw [if_pos (by simp; omega), hrest, hzero, hzero', List.drop_zero, List.drop_zero]

theorem Consecutive.filter_gt {start before : Nat} {xs : List α} (h : Consecutive seq start xs)
    : xs.filter (fun x => seq x < before) = xs.take (before - start) := by
  induction xs generalizing start with
  | nil => rw [List.filter_nil, List.take_nil]
  | cons x xs ih =>
    have hrest := ih h.tail
    have hhead := h.head
    rw [List.filter_cons, hrest]
    by_cases hlt : start < before
    . have htake : before - start = (before - (start + 1)) + 1 := by omega
      rw [if_pos (by simp; omega), htake, List.take_succ_cons]
    . have hzero : before - start = 0 := by omega
      have hzero' : before - (start + 1) = 0 := by omega
      rw [if_neg (by simp; omega), hzero, hzero', List.take_zero, List.take_zero]

end List
