/-!
This module contains the rules for computations in `Except` that may fail: a postcondition for what
they return, together with a class of failures that they never end in.
-/

namespace Except

variable {ε : Type u} {α β : Type v}

/--
The computation returns only values of `post`, and fails with no error of `never`.
-/
def Yields (never : ε → Prop) (post : α → Prop) : Except ε α → Prop
  | .ok a => post a
  | .error e => ¬never e

variable {never : ε → Prop} {post : α → Prop} {post' : β → Prop}

@[simp]
theorem yields_ok {a : α} : Yields never post (.ok a) ↔ post a := Iff.rfl

@[simp]
theorem yields_error {e : ε} : Yields never post (.error e) ↔ ¬never e := Iff.rfl

@[simp]
theorem yields_pure {a : α} : Yields never post (pure a) ↔ post a := Iff.rfl

theorem Yields.bind {r : Except ε α} {f : α → Except ε β} (h : Yields never post r)
    (hf : ∀ a, post a → Yields never post' (f a))
    : Yields never post' (r >>= f) := by
  cases r with
  | ok a => exact hf a h
  | error e => exact h

theorem Yields.mono {r : Except ε α} {post' : α → Prop} (h : Yields never post r)
    (hpost : ∀ a, post a → post' a)
    : Yields never post' r := by
  cases r with
  | ok a => exact hpost a h
  | error e => exact h

/--
The second postcondition may have been shown for other errors.
-/
theorem Yields.and {r : Except ε α} {never' : ε → Prop} {post' : α → Prop} (h : Yields never post r)
    (h' : Yields never' post' r)
    : Yields never (fun a => post a ∧ post' a) r := by
  cases r with
  | ok a => exact ⟨h, h'⟩
  | error e => exact h

theorem Yields.anyError {r : Except ε α} (h : Yields never post r)
    : Yields (fun _ => False) post r := by
  cases r with
  | ok a => exact h
  | error e => simp

theorem Yields.of_ok {r : Except ε α} {a : α} (h : Yields never post r) (hr : r = .ok a)
    : post a := by
  subst hr
  exact h

theorem Yields.ne_error {r : Except ε α} {e : ε} (h : Yields never post r) (he : never e)
    : r ≠ .error e := by
  intro hr
  subst hr
  exact h he

/--
A loop over a list keeps what its body keeps.
-/
theorem yields_foldlM {f : α → β → Except ε α}
    (hf : ∀ a b, post a → Yields never post (f a b)) (bs : List β) {a : α} (h : post a)
    : Yields never post (bs.foldlM f a) := by
  induction bs generalizing a with
  | nil => exact h
  | cons b bs ih =>
    apply Yields.bind (hf a b h)
    intro a' h'
    exact ih h'

theorem bind_eq_ok {r : Except ε α} {f : α → Except ε β} {b : β}
    : r >>= f = .ok b ↔ ∃ a, r = .ok a ∧ f a = .ok b := by
  cases r with
  | error e => simp [Bind.bind, Except.bind]
  | ok a => simp [Bind.bind, Except.bind]

theorem map_eq_ok {r : Except ε α} {f : α → β} {b : β}
    : r.map f = .ok b ↔ ∃ a, r = .ok a ∧ f a = b := by
  cases r with
  | error e => simp [Except.map]
  | ok a => simp [Except.map]

theorem toOption_eq_some {r : Except ε α} {a : α} : r.toOption = some a ↔ r = .ok a := by
  cases r <;> simp [Except.toOption]

end Except
