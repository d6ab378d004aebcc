import TetherBridge.Transition.Basic

/-!
This module contains streams of runs: a run is started and ended, and within it spans are started,
filled and ended. A stream is well formed if nothing is filled or ended that is not open, nothing is
started twice, and a run ends with nothing open. What a program keeps of the open spans is compared
with what the stream says by the rules for `Leads`.
-/

namespace Spans

open Transition

variable {ρ ι : Type} [DecidableEq ρ] [DecidableEq ι]

inductive Mark (ρ ι : Type) where
  | runStarted (run : ρ)
  | runEnded (run : ρ)
  | started (run : ρ) (span : ι)
  | content (run : ρ) (span : ι)
  | ended (run : ρ) (span : ι)
  deriving DecidableEq, Repr

/--
The run that is open, with its open spans.
-/
structure OpenRun (ρ ι : Type) where
  run : ρ
  spans : List ι
  deriving DecidableEq, Repr

def step (state : Option (OpenRun ρ ι)) (mark : Mark ρ ι) : Option (Option (OpenRun ρ ι)) :=
  match state, mark with
  | none, .runStarted run => some (some { run, spans := [] })
  | none, _ => none
  | some _, .runStarted _ => none
  | some current, .runEnded run =>
    if current.run = run ∧ current.spans = [] then some none else none
  | some current, .started run span =>
    if current.run = run ∧ span ∉ current.spans then
      some (some { current with spans := span :: current.spans })
    else
      none
  | some current, .content run span =>
    if current.run = run ∧ span ∈ current.spans then some (some current) else none
  | some current, .ended run span =>
    if current.run = run ∧ span ∈ current.spans then
      some (some { current with spans := current.spans.erase span })
    else
      none

def WellFormed (marks : List (Mark ρ ι)) : Prop :=
  (exec step none marks).isSome

instance (marks : List (Mark ρ ι)) : Decidable (WellFormed marks) :=
  inferInstanceAs (Decidable (_ = true))

/--
What is said about the open run: its name and which spans are open.
-/
abbrev Shape (ρ ι : Type) : Type :=
  Option (ρ × (ι → Prop))

/--
The stream has the open run that is expected.
-/
def Agrees : Shape ρ ι → Option (OpenRun ρ ι) → Prop
  | none, state => state = none
  | some (run, isOpen), state =>
    ∃ current, state = some current ∧ current.run = run ∧ current.spans.Nodup
      ∧ ∀ span, span ∈ current.spans ↔ isOpen span

/--
The marks lead from one expectation to another.
-/
def Leads (before after : Shape ρ ι) (marks : List (Mark ρ ι)) : Prop :=
  ∀ state, Agrees before state → ∃ state', exec step state marks = some state' ∧ Agrees after state'

theorem Leads.wellFormed {after : Shape ρ ι} {marks : List (Mark ρ ι)}
    (h : Leads none after marks)
    : WellFormed marks := by
  rcases h none rfl with ⟨state, hexec, -⟩
  unfold WellFormed
  rw [hexec]
  rfl

theorem Leads.refl (shape : Shape ρ ι) : Leads shape shape [] := by
  intro state h
  exact ⟨state, rfl, h⟩

theorem Leads.trans {before between after : Shape ρ ι} {marks marks' : List (Mark ρ ι)}
    (h : Leads before between marks) (h' : Leads between after marks')
    : Leads before after (marks ++ marks') := by
  intro state hstate
  rcases h state hstate with ⟨state', hexec, hstate'⟩
  rcases h' state' hstate' with ⟨state'', hexec', hstate''⟩
  refine ⟨state'', ?_, hstate''⟩
  rw [exec_append, hexec]
  exact hexec'

variable {run : ρ} {isOpen isOpen' : ι → Prop} {span : ι}

theorem Agrees.congr {state : Option (OpenRun ρ ι)} (h : Agrees (some (run, isOpen)) state)
    (hopen : ∀ span, isOpen span ↔ isOpen' span)
    : Agrees (some (run, isOpen')) state := by
  rcases h with ⟨current, hstate, hrun, hnodup, hspans⟩
  exact ⟨current, hstate, hrun, hnodup, fun span => (hspans span).trans (hopen span)⟩

theorem Leads.congr {before : Shape ρ ι} {marks : List (Mark ρ ι)}
    (h : Leads before (some (run, isOpen)) marks) (hopen : ∀ span, isOpen span ↔ isOpen' span)
    : Leads before (some (run, isOpen')) marks := by
  intro state hstate
  rcases h state hstate with ⟨state', hexec, hstate'⟩
  exact ⟨state', hexec, hstate'.congr hopen⟩

theorem Leads.of_iff (hopen : ∀ span, isOpen span ↔ isOpen' span)
    : Leads (some (run, isOpen)) (some (run, isOpen')) [] :=
  (Leads.refl _).congr hopen

theorem leads_runStarted : Leads none (some (run, fun _ => False)) [Mark.runStarted (ι := ι) run] := by
  rintro state rfl
  refine ⟨_, rfl, _, rfl, rfl, List.nodup_nil, ?_⟩
  intro span
  simp

theorem leads_runEnded (h : ∀ span, ¬isOpen span)
    : Leads (some (run, isOpen)) none [Mark.runEnded run] := by
  rintro state ⟨current, rfl, hrun, -, hspans⟩
  have hempty : current.spans = [] := by
    rw [List.eq_nil_iff_forall_not_mem]
    intro span hspan
    exact h span ((hspans span).mp hspan)
  refine ⟨none, ?_, rfl⟩
  rw [exec_cons_eq_some]
  exact ⟨none, if_pos ⟨hrun, hempty⟩, rfl⟩

theorem leads_started (h : ¬isOpen span)
    : Leads (some (run, isOpen)) (some (run, fun other => other = span ∨ isOpen other))
        [Mark.started run span] := by
  rintro state ⟨current, rfl, hrun, hnodup, hspans⟩
  have hnew : span ∉ current.spans := by
    rw [hspans]
    exact h
  refine ⟨some { current with spans := span :: current.spans }, ?_, _, rfl, hrun, ?_, ?_⟩
  . rw [exec_cons_eq_some]
    exact ⟨_, if_pos ⟨hrun, hnew⟩, rfl⟩
  . exact List.nodup_cons.mpr ⟨hnew, hnodup⟩
  . intro other
    rw [List.mem_cons, hspans]

theorem leads_content (h : isOpen span)
    : Leads (some (run, isOpen)) (some (run, isOpen)) [Mark.content run span] := by
  rintro state ⟨current, rfl, hrun, hnodup, hspans⟩
  refine ⟨some current, ?_, current, rfl, hrun, hnodup, hspans⟩
  rw [exec_cons_eq_some]
  exact ⟨_, if_pos ⟨hrun, (hspans span).mpr h⟩, rfl⟩

theorem leads_contents {marks : List (Mark ρ ι)} (h : isOpen span)
    (hmarks : ∀ mark ∈ marks, mark = .content run span)
    : Leads (some (run, isOpen)) (some (run, isOpen)) marks := by
  induction marks with
  | nil => exact .refl _
  | cons mark marks ih =>
    rw [hmarks mark List.mem_cons_self]
    exact (leads_content h).trans (ih fun mark hmark => hmarks mark (List.mem_cons_of_mem _ hmark))

theorem leads_ended (h : isOpen span)
    : Leads (some (run, isOpen)) (some (run, fun other => other ≠ span ∧ isOpen other))
        [Mark.ended run span] := by
  rintro state ⟨current, rfl, hrun, hnodup, hspans⟩
  refine ⟨some { current with spans := current.spans.erase span }, ?_, _, rfl, hrun,
    hnodup.erase span, ?_⟩
  . rw [exec_cons_eq_some]
    exact ⟨_, if_pos ⟨hrun, (hspans span).mpr h⟩, rfl⟩
  . intro other
    rw [hnodup.mem_erase_iff, hspans]

/--
Several open spans are ended one after the other.
-/
theorem leads_endeds {spans : List ι} (hnodup : spans.Nodup) (h : ∀ span ∈ spans, isOpen span)
    : Leads (some (run, isOpen)) (some (run, fun other => other ∉ spans ∧ isOpen other))
        (spans.map (Mark.ended run)) := by
  induction spans generalizing isOpen with
  | nil =>
    apply Leads.of_iff
    simp
  | cons span spans ih =>
    rw [List.nodup_cons] at hnodup
    have hopen : ∀ other ∈ spans, other ≠ span ∧ isOpen other := by
      intro other hother
      refine ⟨?_, h other (List.mem_cons_of_mem span hother)⟩
      rintro rfl
      exact hnodup.1 hother
    apply ((leads_ended (h span List.mem_cons_self)).trans (ih hnodup.2 hopen)).congr
    intro other
    rw [List.mem_cons, not_or, and_assoc, and_left_comm]

end Spans
