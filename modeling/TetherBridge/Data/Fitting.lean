import Mathlib.Data.List.Sort

/-!
This module contains the entries of a ranking that fit into a budget. They are taken in their order, and an entry that does
not fit is left out. Between two entries stands a separator, which costs one.
-/

namespace List

variable {α : Type u} (cost : α → Nat)

def separator (taken : Nat) : Nat :=
  if 0 < taken then 1 else 0

/--
What the entries cost behind so many others.
-/
def joinedCost (taken : Nat) : List α → Nat
  | [] => 0
  | x :: xs => separator taken + cost x + joinedCost (taken + 1) xs

/--
The entries that fit behind those that were taken, whose cost is spent.
-/
def fitting (count budget : Nat) (taken spent : Nat) : List α → List α
  | [] => []
  | x :: xs =>
    if count ≤ taken then
      []
    else if budget < spent + separator taken + cost x then
      fitting count budget taken spent xs
    else
      x :: fitting count budget (taken + 1) (spent + (separator taken + cost x)) xs

variable {cost} {count budget : Nat}

theorem fitting_of_count_le {taken : Nat} (h : count ≤ taken) (spent : Nat) (xs : List α)
    : fitting cost count budget taken spent xs = [] := by
  cases xs with
  | nil => rfl
  | cons x xs => rw [fitting, if_pos h]

theorem fitting_of_exceeds {taken spent : Nat} {x : α} (hcount : taken < count)
    (h : budget < spent + separator taken + cost x) (xs : List α)
    : fitting cost count budget taken spent (x :: xs) = fitting cost count budget taken spent xs := by
  rw [fitting, if_neg (Nat.not_le.mpr hcount), if_pos h]

theorem fitting_of_fits {taken spent : Nat} {x : α} (hcount : taken < count)
    (h : spent + separator taken + cost x ≤ budget) (xs : List α)
    : fitting cost count budget taken spent (x :: xs)
        = x :: fitting cost count budget (taken + 1) (spent + (separator taken + cost x)) xs := by
  rw [fitting, if_neg (Nat.not_le.mpr hcount), if_neg (Nat.not_lt.mpr h)]

theorem joinedCost_append (taken : Nat) (xs ys : List α)
    : joinedCost cost taken (xs ++ ys) = joinedCost cost taken xs + joinedCost cost (taken + xs.length) ys := by
  induction xs generalizing taken with
  | nil => rw [nil_append, joinedCost, Nat.zero_add, length_nil, Nat.add_zero]
  | cons x xs ih =>
    have hlength : taken + 1 + xs.length = taken + (xs.length + 1) := by
      omega
    rw [cons_append, joinedCost, joinedCost, ih, length_cons, hlength]
    omega

theorem joinedCost_map {β : Type v} (f : β → α) (taken : Nat) (xs : List β)
    : joinedCost cost taken (xs.map f) = joinedCost (fun x => cost (f x)) taken xs := by
  induction xs generalizing taken with
  | nil => rfl
  | cons x xs ih => rw [map_cons, joinedCost, joinedCost, ih]

theorem separator_le {taken taken' : Nat} (h : taken ≤ taken') : separator taken ≤ separator taken' := by
  unfold separator
  split
  . rw [if_pos (by omega)]
  . exact Nat.zero_le _

theorem joinedCost_le_of_le {taken taken' : Nat} (h : taken ≤ taken') (xs : List α)
    : joinedCost cost taken xs ≤ joinedCost cost taken' xs := by
  induction xs generalizing taken taken' with
  | nil => exact Nat.le_refl 0
  | cons x xs ih =>
    have hseparator := separator_le h
    have hrest := ih (Nat.add_le_add_right h 1)
    rw [joinedCost, joinedCost]
    omega

theorem joinedCost_le_of_sublist {xs ys : List α} (h : xs.Sublist ys) (taken : Nat)
    : joinedCost cost taken xs ≤ joinedCost cost taken ys := by
  induction h generalizing taken with
  | slnil => exact Nat.le_refl 0
  | @cons xs ys y _ ih =>
    have hnext : joinedCost cost taken xs ≤ joinedCost cost (taken + 1) xs := joinedCost_le_of_le (by omega) xs
    have hrest := ih (taken + 1)
    rw [joinedCost]
    omega
  | cons_cons y _ ih =>
    have hrest := ih (taken + 1)
    rw [joinedCost, joinedCost]
    omega

/--
The order of the entries does not matter for their cost.
-/
theorem joinedCost_perm {xs ys : List α} (h : xs.Perm ys) (taken : Nat)
    : joinedCost cost taken xs = joinedCost cost taken ys := by
  have hbehind : ∀ {taken : Nat}, 0 < taken → ∀ xs : List α,
      joinedCost cost taken xs = (xs.map fun x => 1 + cost x).sum := by
    intro taken htaken xs
    induction xs generalizing taken with
    | nil => rfl
    | cons x xs ih =>
      have hseparator : separator taken = 1 := if_pos htaken
      rw [joinedCost, map_cons, sum_cons, hseparator, ih (by omega)]
  have hall : ∀ xs : List α, xs ≠ [] → joinedCost cost taken xs + 1
      = separator taken + (xs.map fun x => 1 + cost x).sum := by
    intro xs hne
    cases xs with
    | nil => contradiction
    | cons x xs =>
      rw [joinedCost, map_cons, sum_cons, hbehind (by omega)]
      omega
  by_cases hnil : xs = []
  . subst hnil
    rw [h.nil_eq]
  . have hne : ys ≠ [] := fun heq => hnil (by subst heq; exact h.eq_nil)
    have hsum := (h.map fun x => 1 + cost x).sum_nat
    have hxs := hall xs hnil
    have hys := hall ys hne
    omega

theorem fitting_sublist (xs : List α) (taken spent : Nat) : (fitting cost count budget taken spent xs).Sublist xs := by
  induction xs generalizing taken spent with
  | nil => exact Sublist.refl _
  | cons x xs ih =>
    unfold fitting
    split
    . exact nil_sublist _
    . split
      . exact Sublist.cons x (ih _ _)
      . exact Sublist.cons_cons x (ih _ _)

theorem length_fitting_le {taken : Nat} (h : taken ≤ count) (spent : Nat) (xs : List α)
    : taken + (fitting cost count budget taken spent xs).length ≤ count := by
  induction xs generalizing taken spent with
  | nil => exact h
  | cons x xs ih =>
    unfold fitting
    split
    . exact h
    . next hcount =>
      split
      . exact ih h spent
      . rw [length_cons]
        have hrest := ih (show taken + 1 ≤ count by omega) (spent + (separator taken + cost x))
        omega

theorem joinedCost_fitting_le {spent : Nat} (h : spent ≤ budget) (taken : Nat) (xs : List α)
    : spent + joinedCost cost taken (fitting cost count budget taken spent xs) ≤ budget := by
  induction xs generalizing taken spent with
  | nil => exact h
  | cons x xs ih =>
    unfold fitting
    split
    . exact h
    . split
      . exact ih h taken
      . next hfits =>
        rw [joinedCost]
        have hrest := ih (by omega : spent + (separator taken + cost x) ≤ budget) (taken + 1)
        omega

/--
Nothing is left out when all fit together.
-/
theorem fitting_eq_self {taken spent : Nat} {xs : List α} (hcount : taken + xs.length ≤ count)
    (h : spent + joinedCost cost taken xs ≤ budget)
    : fitting cost count budget taken spent xs = xs := by
  induction xs generalizing taken spent with
  | nil => rfl
  | cons x xs ih =>
    rw [length_cons] at hcount
    rw [joinedCost] at h
    rw [fitting_of_fits (by omega) (by omega), ih (by omega) (by omega)]

/--
When the cost of all fits, only the number of entries is bounded.
-/
theorem fitting_eq_take {taken spent : Nat} {xs : List α} (h : spent + joinedCost cost taken xs ≤ budget)
    : fitting cost count budget taken spent xs = xs.take (count - taken) := by
  induction xs generalizing taken spent with
  | nil => rw [take_nil, fitting]
  | cons x xs ih =>
    rw [joinedCost] at h
    by_cases hcount : count ≤ taken
    . rw [fitting_of_count_le hcount, Nat.sub_eq_zero_of_le hcount, take_zero]
    . rw [fitting_of_fits (by omega) (by omega), ih (by omega)]
      have hsub : count - taken = (count - (taken + 1)) + 1 := by
        omega
      rw [hsub, take_succ_cons]

/--
What fits of a list is what fits of its beginning, and then what fits behind that.
-/
theorem fitting_append (taken spent : Nat) (xs ys : List α)
    : fitting cost count budget taken spent (xs ++ ys)
        = fitting cost count budget taken spent xs
          ++ fitting cost count budget (taken + (fitting cost count budget taken spent xs).length)
              (spent + joinedCost cost taken (fitting cost count budget taken spent xs)) ys := by
  induction xs generalizing taken spent with
  | nil => rfl
  | cons x xs ih =>
    rw [cons_append]
    by_cases hcount : count ≤ taken
    . rw [fitting_of_count_le hcount, fitting_of_count_le hcount, nil_append]
      exact (fitting_of_count_le hcount _ _).symm
    . rw [Nat.not_le] at hcount
      by_cases hfits : spent + separator taken + cost x ≤ budget
      . rw [fitting_of_fits hcount hfits, fitting_of_fits hcount hfits, ih, cons_append, length_cons, joinedCost]
        simp only [Nat.add_assoc, Nat.add_comm 1]
      . rw [Nat.not_le] at hfits
        rw [fitting_of_exceeds hcount hfits, fitting_of_exceeds hcount hfits, ih]

/--
An entry is left out only if those before it that fit are as many as there may be, or leave no room for it.
-/
theorem mem_fitting_or {spent : Nat} {before after : List α} {x : α}
    (hle : (fitting cost count budget 0 spent before).length ≤ count)
    : x ∈ fitting cost count budget 0 spent (before ++ x :: after)
        ∨ (fitting cost count budget 0 spent before).length = count
        ∨ budget < spent + joinedCost cost 0 (fitting cost count budget 0 spent before ++ [x]) := by
  by_cases hcount : (fitting cost count budget 0 spent before).length = count
  . exact .inr (.inl hcount)
  . rw [fitting_append, joinedCost_append, Nat.zero_add]
    by_cases hfits : spent + joinedCost cost 0 (fitting cost count budget 0 spent before)
        + separator (fitting cost count budget 0 spent before).length + cost x ≤ budget
    . refine .inl (mem_append_right _ ?_)
      rw [fitting_of_fits (by omega) hfits]
      exact mem_cons_self
    . refine .inr (.inr ?_)
      rw [joinedCost, joinedCost]
      omega

/-! Ranking -/

variable {le : α → α → Bool}

/--
Sorting does not move the entries among which the order is right.
-/
theorem filter_mergeSort (htrans : ∀ a b c, le a b → le b c → le a c) (htotal : ∀ a b, le a b || le b a)
    {p : α → Bool} {xs : List α} (h : (xs.filter p).Pairwise (le · ·))
    : (xs.mergeSort le).filter p = xs.filter p := by
  have hsublist : (xs.filter p).Sublist (xs.mergeSort le) :=
    sublist_mergeSort htrans htotal h filter_sublist
  have hfiltered := hsublist.filter p
  rw [filter_filter] at hfiltered
  simp only [Bool.and_self] at hfiltered
  refine (hfiltered.eq_of_length ?_).symm
  exact ((mergeSort_perm xs le).filter p).length_eq.symm

/--
In a sorted list the entries that precede all others stand first.
-/
theorem eq_filter_append {p : α → Bool} {xs : List α} (h : xs.Pairwise (le · ·))
    (hfirst : ∀ a b, p a = false → p b = true → le a b = false)
    : xs = xs.filter p ++ xs.filter (!p ·) := by
  induction xs with
  | nil => rfl
  | cons x xs ih =>
    rw [pairwise_cons] at h
    have hrest := ih h.2
    cases hx : p x with
    | true =>
      rw [filter_cons_of_pos hx, filter_cons_of_neg (by simp [hx]), cons_append, ← hrest]
    | false =>
      have hnone : xs.filter p = [] := by
        rw [filter_eq_nil_iff]
        intro y hy hpy
        have hle := h.1 y hy
        rw [hfirst x y hx hpy] at hle
        contradiction
      rw [hnone, nil_append] at hrest
      rw [filter_cons_of_neg (by simp [hx]), filter_cons_of_pos (by simp [hx]), hnone, nil_append, ← hrest]

end List
