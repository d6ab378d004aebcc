/-!
This module contains finite runs of labelled partial step functions, together with the two rules
everything else is derived from: an invariant that every allowed step preserves holds at the end of
every run, and a step by step simulation maps runs to runs.
-/

namespace Transition

universe u v w x

variable {σ : Type u} {α : Type v}

/--
Execute the labels one after the other, `none` as soon as one of them is not enabled.
-/
def exec (step : σ → α → Option σ) (s : σ) : List α → Option σ
  | [] => some s
  | a :: as => (step s a).bind (exec step · as)

/--
Every step of the run is taken in a state in which `guard` allows its label.
-/
def Meets (step : σ → α → Option σ) (guard : σ → α → Prop) (s : σ) : List α → Prop
  | [] => True
  | a :: as => guard s a ∧ ∀ t, step s a = some t → Meets step guard t as

variable {step : σ → α → Option σ} {guard : σ → α → Prop}

@[simp]
theorem exec_nil (s : σ) : exec step s [] = some s := rfl

@[simp]
theorem exec_cons (s : σ) (a : α) (as : List α)
    : exec step s (a :: as) = (step s a).bind (exec step · as) := rfl

theorem exec_cons_eq_some {s t : σ} {a : α} {as : List α}
    : exec step s (a :: as) = some t ↔ ∃ m, step s a = some m ∧ exec step m as = some t := by
  simp [Option.bind_eq_some_iff]

theorem exec_append (s : σ) (as bs : List α)
    : exec step s (as ++ bs) = (exec step s as).bind (exec step · bs) := by
  induction as generalizing s with
  | nil => simp
  | cons a as ih =>
    simp only [List.cons_append, exec_cons]
    cases step s a with
    | none => simp
    | some m => simp [ih]

@[simp]
theorem meets_nil (s : σ) : Meets step guard s [] := trivial

theorem meets_cons {s : σ} {a : α} {as : List α}
    : Meets step guard s (a :: as)
        ↔
      guard s a ∧ ∀ t, step s a = some t → Meets step guard t as := Iff.rfl

theorem Meets.cons {s t : σ} {a : α} {as : List α} (hguard : guard s a) (hstep : step s a = some t)
    (hmeets : Meets step guard t as)
    : Meets step guard s (a :: as) := by
  refine ⟨hguard, ?_⟩
  intro t' ht'
  rw [hstep] at ht'
  injection ht' with ht'
  exact ht' ▸ hmeets

theorem meets_append {s t : σ} {as bs : List α} (h : Meets step guard s (as ++ bs))
    (hexec : exec step s as = some t)
    : Meets step guard s as ∧ Meets step guard t bs := by
  induction as generalizing s with
  | nil =>
    simp only [exec_nil, Option.some.injEq] at hexec
    subst hexec
    exact ⟨trivial, h⟩
  | cons a as ih =>
    obtain ⟨m, hstep, hrest⟩ := exec_cons_eq_some.mp hexec
    obtain ⟨hguard, hmeets⟩ := h
    have htail := ih (hmeets m hstep) hrest
    refine ⟨⟨hguard, ?_⟩, htail.2⟩
    intro t' ht'
    rw [hstep] at ht'
    injection ht' with ht'
    exact ht' ▸ htail.1

/--
What holds of all labels can be added to a guard.
-/
theorem Meets.and {s : σ} {as : List α} (h : Meets step guard s as) {P : α → Prop}
    (hP : ∀ a ∈ as, P a)
    : Meets step (fun s a => guard s a ∧ P a) s as := by
  induction as generalizing s with
  | nil => trivial
  | cons a as ih =>
    refine ⟨⟨h.1, hP a List.mem_cons_self⟩, ?_⟩
    intro t ht
    exact ih (h.2 t ht) fun a ha => hP a (List.mem_cons_of_mem _ ha)

/--
A run without a guard meets the trivial one.
-/
theorem meets_true (s : σ) (as : List α) : Meets step (fun _ _ => True) s as := by
  induction as generalizing s with
  | nil => trivial
  | cons a as ih => exact ⟨trivial, fun t _ => ih t⟩

instance Meets.decidable [∀ s a, Decidable (guard s a)]
    : ∀ (as : List α) (s : σ), Decidable (Meets step guard s as)
  | [], _ => inferInstanceAs (Decidable True)
  | a :: as, s =>
    match h : step s a with
    | none =>
      decidable_of_iff (guard s a) <| by
        rw [meets_cons]
        simp [h]
    | some t =>
      have : Decidable (Meets step guard t as) := Meets.decidable as t
      decidable_of_iff (guard s a ∧ Meets step guard t as) <| by
        rw [meets_cons]
        simp [h]

/--
The invariant rule: what every allowed step preserves holds at the end of every allowed run.
-/
theorem exec_invariant {I : σ → Prop}
    (hstep : ∀ s a t, I s → guard s a → step s a = some t → I t)
    {s t : σ} {as : List α} (hinit : I s) (hmeets : Meets step guard s as)
    (hexec : exec step s as = some t)
    : I t := by
  induction as generalizing s with
  | nil =>
    simp only [exec_nil, Option.some.injEq] at hexec
    exact hexec ▸ hinit
  | cons a as ih =>
    obtain ⟨m, hm, hrest⟩ := exec_cons_eq_some.mp hexec
    exact ih (hstep s a m hinit hmeets.1 hm) (hmeets.2 m hm) hrest

/--
The invariant rule for runs without a guard.
-/
theorem exec_invariant' {I : σ → Prop} (hstep : ∀ s a t, I s → step s a = some t → I t)
    {s t : σ} {as : List α} (hinit : I s) (hexec : exec step s as = some t)
    : I t :=
  exec_invariant (fun s a t hs _ h => hstep s a t hs h) hinit (meets_true s as) hexec

section Simulation

variable {τ : Type w} {β : Type x} {step' : τ → β → Option τ}

/--
The simulation rule: when every step is matched by a (possibly empty) run of the other system
between the related states, so is every run.
-/
theorem exec_simulation {R : σ → τ → Prop}
    (hsim : ∀ s a t u, R s u → step s a = some t → ∃ bs v, exec step' u bs = some v ∧ R t v)
    {s t : σ} {u : τ} {as : List α} (hrel : R s u) (hexec : exec step s as = some t)
    : ∃ bs v, exec step' u bs = some v ∧ R t v := by
  induction as generalizing s u with
  | nil =>
    simp only [exec_nil, Option.some.injEq] at hexec
    exact ⟨[], u, rfl, hexec ▸ hrel⟩
  | cons a as ih =>
    obtain ⟨m, hm, hrest⟩ := exec_cons_eq_some.mp hexec
    obtain ⟨bs, v, hbs, hv⟩ := hsim s a m u hrel hm
    obtain ⟨cs, w, hcs, hw⟩ := ih hv hrest
    refine ⟨bs ++ cs, w, ?_, hw⟩
    rw [exec_append, hbs]
    exact hcs

end Simulation

end Transition
