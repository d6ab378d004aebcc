/-!
This module contains lists of which one element at most contributes to a concatenation. Where several
workers may carry something and only one of them does, what is carried is what that one carries.
-/

namespace List

variable {α : Type u} {β : Type v} {f : α → List β}

/--
Only the element at index `i` may have a nonempty image.
-/
def Sole (f : α → List β) (xs : List α) (i : Nat) : Prop :=
  ∀ j x, xs[j]? = some x → j ≠ i → f x = []

theorem sole_of_flatMap_eq_nil {xs : List α} (h : xs.flatMap f = []) (i : Nat) : Sole f xs i := by
  intro j x hx _
  exact List.flatMap_eq_nil_iff.mp h x (List.mem_of_getElem? hx)

theorem Sole.flatMap_eq {xs : List α} {i : Nat} {x : α} (h : Sole f xs i) (hx : xs[i]? = some x)
    : xs.flatMap f = f x := by
  induction xs generalizing i with
  | nil => simp at hx
  | cons y ys ih =>
    cases i with
    | zero =>
      have hrest : ys.flatMap f = [] := by
        rw [List.flatMap_eq_nil_iff]
        intro z hz
        rw [List.mem_iff_getElem?] at hz
        cases hz with
        | intro j hj => exact h (j + 1) z hj (by omega)
      simp only [List.getElem?_cons_zero, Option.some.injEq] at hx
      rw [List.flatMap_cons, hrest, hx, List.append_nil]
    | succ i =>
      have hhead : f y = [] := h 0 y rfl (by omega)
      rw [List.flatMap_cons, hhead, List.nil_append]
      apply ih _ hx
      intro j z hz hne
      exact h (j + 1) z hz (by omega)

/--
An element with a nonempty image is the one.
-/
theorem Sole.eq_of_ne_nil {xs : List α} {i j : Nat} {x : α} (h : Sole f xs i)
    (hx : xs[j]? = some x) (hne : f x ≠ [])
    : j = i := by
  apply Classical.byContradiction
  intro hji
  exact hne (h j x hx hji)

theorem Sole.set {xs : List α} {i : Nat} (h : Sole f xs i) (y : α) : Sole f (xs.set i y) i := by
  intro j x hx hne
  rw [List.getElem?_set_ne (Ne.symm hne)] at hx
  exact h j x hx hne

theorem Sole.set_of_eq_nil {xs : List α} {i : Nat} (h : Sole f xs i) (k : Nat) {y : α}
    (hy : f y = [])
    : Sole f (xs.set k y) i := by
  intro j x hx hne
  rw [List.getElem?_set] at hx
  split at hx
  . split at hx
    . rw [← Option.some.inj hx]
      exact hy
    . contradiction
  . exact h j x hx hne

theorem Sole.append_singleton {xs : List α} {i : Nat} (h : Sole f xs i) {y : α} (hy : f y = [])
    : Sole f (xs ++ [y]) i := by
  intro j x hx hne
  rw [List.getElem?_append] at hx
  split at hx
  . exact h j x hx hne
  . rw [List.getElem?_singleton] at hx
    split at hx
    . rw [← Option.some.inj hx]
      exact hy
    . contradiction

theorem flatMap_set_of_eq {xs : List α} {k : Nat} {x y : α} (hx : xs[k]? = some x) (h : f y = f x)
    : (xs.set k y).flatMap f = xs.flatMap f := by
  induction xs generalizing k with
  | nil => simp at hx
  | cons z zs ih =>
    cases k with
    | zero =>
      simp only [List.getElem?_cons_zero, Option.some.injEq] at hx
      rw [List.set_cons_zero, List.flatMap_cons, List.flatMap_cons, h, hx]
    | succ k => rw [List.set_cons_succ, List.flatMap_cons, List.flatMap_cons, ih hx]

end List
