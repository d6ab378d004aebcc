import Mathlib.Algebra.Ring.Nat

/-!
This module contains the total weight of a list under a weight function, and how it moves when the
list is changed in one place. Conservation arguments count with it: what leaves one list has to show
up in another one.
-/

namespace List

variable {α : Type u}

/--
The total weight of the elements of a list.
-/
def weigh (w : α → Nat) : List α → Nat
  | [] => 0
  | x :: xs => w x + weigh w xs

variable {w : α → Nat}

@[simp]
theorem weigh_nil : weigh w [] = 0 := rfl

@[simp]
theorem weigh_cons (x : α) (xs : List α) : weigh w (x :: xs) = w x + weigh w xs := rfl

@[simp]
theorem weigh_append (xs ys : List α) : weigh w (xs ++ ys) = weigh w xs + weigh w ys := by
  induction xs with
  | nil => simp
  | cons x xs ih =>
    simp only [cons_append, weigh_cons, ih]
    omega

theorem weigh_set {xs : List α} {i : Nat} {x : α} (h : xs[i]? = some x) (y : α)
    : weigh w (xs.set i y) + w x = weigh w xs + w y := by
  induction xs generalizing i with
  | nil => simp at h
  | cons z xs ih =>
    cases i with
    | zero =>
      simp only [getElem?_cons_zero, Option.some.injEq] at h
      subst h
      simp only [set_cons_zero, weigh_cons]
      omega
    | succ i =>
      simp only [getElem?_cons_succ] at h
      simp only [set_cons_succ, weigh_cons]
      have := ih h
      omega

theorem weigh_eraseIdx {xs : List α} {i : Nat} {x : α} (h : xs[i]? = some x)
    : weigh w (xs.eraseIdx i) + w x = weigh w xs := by
  induction xs generalizing i with
  | nil => simp at h
  | cons z xs ih =>
    cases i with
    | zero =>
      simp only [getElem?_cons_zero, Option.some.injEq] at h
      subst h
      simp only [eraseIdx_cons_zero, weigh_cons]
      omega
    | succ i =>
      simp only [getElem?_cons_succ] at h
      simp only [eraseIdx_cons_succ, weigh_cons]
      have := ih h
      omega

theorem weigh_eraseP {p : α → Bool} {xs : List α} {x : α} (h : xs.find? p = some x)
    : weigh w (xs.eraseP p) + w x = weigh w xs := by
  induction xs with
  | nil => simp at h
  | cons z xs ih =>
    by_cases hz : p z
    . simp only [find?_cons_of_pos hz, Option.some.injEq] at h
      subst h
      simp only [eraseP_cons_of_pos hz, weigh_cons]
      omega
    . simp only [find?_cons_of_neg hz] at h
      simp only [eraseP_cons_of_neg hz, weigh_cons]
      have := ih h
      omega

theorem weigh_filter_le (p : α → Bool) (xs : List α) : weigh w (xs.filter p) ≤ weigh w xs := by
  induction xs with
  | nil => simp
  | cons z xs ih =>
    simp only [filter_cons, weigh_cons]
    split
    . simp only [weigh_cons]
      omega
    . omega

theorem weigh_le_of_sublist {xs ys : List α} (h : xs.Sublist ys) : weigh w xs ≤ weigh w ys := by
  induction h with
  | slnil => simp
  | cons y _ ih =>
    simp only [weigh_cons]
    omega
  | cons_cons y _ ih =>
    simp only [weigh_cons]
    omega

theorem sum_map_eq_weigh (xs : List α) : (xs.map w).sum = weigh w xs := by
  induction xs with
  | nil => rfl
  | cons x xs ih => rw [map_cons, sum_cons, weigh_cons, ih]

theorem le_weigh_of_mem {xs : List α} {x : α} (h : x ∈ xs) : w x ≤ weigh w xs := by
  induction xs with
  | nil => simp at h
  | cons z xs ih =>
    simp only [mem_cons] at h
    simp only [weigh_cons]
    cases h with
    | inl heq =>
      subst heq
      omega
    | inr hmem =>
      have := ih hmem
      omega

theorem weigh_eq_zero {xs : List α} : weigh w xs = 0 ↔ ∀ x ∈ xs, w x = 0 := by
  induction xs with
  | nil => simp
  | cons z xs ih => simp [ih]

theorem weigh_congr {v : α → Nat} {xs : List α} (h : ∀ x ∈ xs, w x = v x)
    : weigh w xs = weigh v xs := by
  induction xs with
  | nil => rfl
  | cons z xs ih =>
    simp only [weigh_cons]
    rw [h z mem_cons_self, ih (fun x hx => h x (mem_cons_of_mem z hx))]

/--
Counting a value in the image of a list is weighing by the indicator of that value.
-/
theorem count_map_eq_weigh [DecidableEq β] (f : α → β) (b : β) (xs : List α)
    : (xs.map f).count b = weigh (fun x => if f x = b then 1 else 0) xs := by
  induction xs with
  | nil => rfl
  | cons z xs ih =>
    simp only [map_cons, count_cons, ih, weigh_cons, beq_iff_eq]
    omega

end List
