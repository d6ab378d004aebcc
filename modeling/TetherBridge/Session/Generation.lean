import TetherBridge.Transition.Basic
import TetherBridge.Snapshot.Run
import TetherBridge.Session.Impl

/-!
This module contains the generations of the runs of a session: they start in increasing order, only the
current one ends, and it ends once. The snapshot knows the generation that has not ended.
-/

namespace Acp

def CanonicalEvent.startedGeneration? : CanonicalEvent → Option Nat
  | .runStarted _ _ _ _ generation => some generation
  | _ => none

def CanonicalEvent.terminalGeneration? : CanonicalEvent → Option Nat
  | .runFinished _ _ _ _ generation _ => some generation
  | .runFailed _ _ _ _ generation _ => some generation
  | _ => none

end Acp

namespace Session

open Acp Snapshot Transition

/--
The generation of the run that the session is in, ended or not.
-/
def GenerationState.current : GenerationState → Option Nat
  | .terminal => none
  | .active generation => some generation
  | .cancelling generation => some generation
  | .handoff generation _ => some generation

/--
The generation of the run that has not ended.
-/
def GenerationState.unsettled : GenerationState → Option Nat
  | .terminal => none
  | .active generation => some generation
  | .cancelling generation => some generation
  | .handoff generation settled => if settled then none else some generation

namespace SessionState

variable {s t : SessionState} {event : CanonicalEvent}

theorem prepareEmit_of_nonterminal (hevent : event.terminalGeneration? = none)
    (h : s.prepareEmit event = some t)
    : ∃ openMessages, t = { s with openMessages } := by
  unfold prepareEmit at h
  split at h
  . contradiction
  . contradiction
  . split at h <;> exact ⟨_, (Option.some.inj h).symm⟩
  . exact ⟨_, (Option.some.inj h).symm⟩

theorem prepareEmit_of_terminal {generation : Nat}
    (hevent : event.terminalGeneration? = some generation)
    : s.prepareEmit event = s.settleGeneration generation := by
  unfold prepareEmit
  split <;> simp_all [CanonicalEvent.terminalGeneration?]

/--
A run that ends is the current one. It is over, or its handoff is settled.
-/
theorem settleGeneration_eq_some {generation : Nat} (h : s.settleGeneration generation = some t)
    : s.generationState.current = some generation
        ∧ (s.generationState = .handoff generation true
          ∨ s.generationState.unsettled = some generation)
        ∧ ∃ next openMessages, t = { s with generationState := next, openMessages }
          ∧ next.unsettled = none ∧ (next = .terminal ∨ next = .handoff generation true) := by
  unfold settleGeneration at h
  split at h
  . next active settled hstate =>
    split at h
    . next heq =>
      subst heq
      rw [hstate]
      refine ⟨rfl, ?_, _, _, (Option.some.inj h).symm, rfl, .inr rfl⟩
      cases settled with
      | false => exact .inr rfl
      | true => exact .inl rfl
    . contradiction
  . next hstate =>
    split at h
    . next heq =>
      rw [hstate, heq]
      exact ⟨rfl, .inr rfl, _, _, (Option.some.inj h).symm, rfl, .inl rfl⟩
    . contradiction
  . next hstate =>
    split at h
    . next heq =>
      rw [hstate, heq]
      exact ⟨rfl, .inr rfl, _, _, (Option.some.inj h).symm, rfl, .inl rfl⟩
    . contradiction
  . contradiction

theorem reconstructed_runs {previous : SessionSnapshot} (hprevious : previous.Runs none false)
    (h : s.snapshot.activeGeneration = none) (commit : Bool)
    : (s.reconstructed previous commit).1.activeGeneration = none
        ∧ (commit = false → (s.reconstructed previous commit).1.historyReconstruction = false) := by
  unfold reconstructed
  split
  . exact ⟨hprevious.1, fun _ => hprevious.2⟩
  . next hcommit =>
    simp only [Bool.not_eq_true', Bool.not_eq_false] at hcommit
    rw [hcommit]
    split <;> exact ⟨h, by simp⟩

theorem finishReconstruction_eq_ok {previous : SessionSnapshot} {commit : Bool}
    (hbackup : s.reconstructionBackup = some previous) (hprevious : previous.Runs none false)
    (hactive : s.snapshot.activeGeneration = none) (h : s.finishReconstruction commit = .ok t)
    : t.snapshot.Runs none false ∧ t.generationState = s.generationState
        ∧ t.nextGeneration = s.nextGeneration := by
  have hruns := reconstructed_runs hprevious hactive commit
  have hcursor : ∀ restored, (s.restoreCursor restored).generationState = s.generationState
      ∧ (s.restoreCursor restored).nextGeneration = s.nextGeneration := by
    intro restored
    unfold restoreCursor
    split
    . split <;> exact ⟨rfl, rfl⟩
    . exact ⟨rfl, rfl⟩
  unfold finishReconstruction at h
  rw [hbackup] at h
  dsimp only at h
  split at h
  . rw [Except.bind_eq_ok] at h
    rcases h with ⟨snapshot, hsettle, h⟩
    injection h with h
    subst h
    refine ⟨?_, hcursor _⟩
    have hsettled := SessionSnapshot.settleUnresolvedSubagentsWithoutRun_runs (s :=
      { (s.reconstructed previous commit).1 with historyReconstruction := false }) ⟨hruns.1, rfl⟩
    exact hsettled.of_ok hsettle
  . next hcommit =>
    injection h with h
    subst h
    exact ⟨⟨hruns.1, hruns.2 (by simpa using hcommit)⟩, hcursor _⟩

end SessionState

/--
A session between two calls of its methods. A reconstruction holds the operation lock until it is
finished.
-/
structure AcpSession where
  inner : SessionState
  operationLock : Bool := false
  events : List CanonicalEvent := []

inductive Call where
  | admitPrompt (runId sourceTurnId : String)
  | reserveHandoff (runId sourceTurnId : String) (generation : Nat)
  | admitHandoff (runId sourceTurnId : String)
  | releaseHandoff
  | markCancelling
  | emit (event : CanonicalEvent)
  | beginReconstruction
  | finishReconstruction (commit : Bool)

namespace AcpSession

def new (agentId threadId : String) : AcpSession :=
  { inner := .new agentId threadId }

variable (s : AcpSession)

/--
The answer to an admission: an error, or a run that has started and whose event is sent.
-/
def answerAdmission (answer : Except String (Except Panic (SessionState × Nat × CanonicalEvent)))
    : Option AcpSession :=
  match answer with
  | .error _ => some s
  | .ok (.error _) => none
  | .ok (.ok (inner, _, event)) => some { s with inner, events := s.events ++ [event] }

/--
One call from beginning to end. A start of a run is emitted by no caller.
-/
def step (s : AcpSession) : Call → Option AcpSession
  | .admitPrompt runId sourceTurnId =>
    if s.operationLock then none else s.answerAdmission (s.inner.admitPrompt runId sourceTurnId)
  | .reserveHandoff runId sourceTurnId generation =>
    if s.operationLock then
      none
    else
      match s.inner.reserveHandoff runId sourceTurnId generation with
      | .error _ => some s
      | .ok inner => some { s with inner }
  | .admitHandoff runId sourceTurnId =>
    if s.operationLock then none else s.answerAdmission (s.inner.admitHandoff runId sourceTurnId)
  | .releaseHandoff =>
    if s.operationLock then none else some { s with inner := s.inner.releaseHandoff }
  | .markCancelling => some { s with inner := s.inner.markCancelling.1 }
  | .emit event =>
    if event.startedGeneration?.isSome then
      none
    else
      match s.inner.emit event with
      | .error _ => none
      | .ok (inner, sent) => some { s with inner, events := s.events ++ sent }
  | .beginReconstruction =>
    if s.operationLock then
      none
    else
      match s.inner.beginReconstruction with
      | .error _ => some s
      | .ok inner => some { s with inner, operationLock := true }
  | .finishReconstruction commit =>
    if s.operationLock then
      match s.inner.finishReconstruction commit with
      | .error _ => none
      | .ok inner => some { s with inner, operationLock := false }
    else
      none

def started : List Nat :=
  s.events.filterMap (·.startedGeneration?)

def ended : List Nat :=
  s.events.filterMap (·.terminalGeneration?)

end AcpSession

/--
Every end of a run comes after the start of that run, with no other start in between.
-/
def EndsCurrent (events : List CanonicalEvent) : Prop :=
  ∀ before event after generation, events = before ++ event :: after →
    event.terminalGeneration? = some generation →
      (before.filterMap (·.startedGeneration?)).getLast? = some generation

theorem endsCurrent_nil : EndsCurrent [] := by
  intro before event after generation heq
  simp at heq

theorem EndsCurrent.append_singleton {events : List CanonicalEvent} (h : EndsCurrent events)
    {event : CanonicalEvent}
    (hevent : ∀ generation, event.terminalGeneration? = some generation →
      (events.filterMap (·.startedGeneration?)).getLast? = some generation)
    : EndsCurrent (events ++ [event]) := by
  intro before event' after generation heq hterminal
  cases List.eq_nil_or_concat after with
  | inl hnil =>
    rw [hnil] at heq
    have hlast := List.append_inj' heq rfl
    rw [← hlast.1]
    apply hevent
    rw [List.cons.inj hlast.2 |>.1]
    exact hterminal
  | inr hconcat =>
    rcases hconcat with ⟨rest, last, hconcat⟩
    rw [hconcat, List.concat_eq_append, ← List.cons_append, ← List.append_assoc] at heq
    have hlast := List.append_inj' heq rfl
    exact h before event' rest generation hlast.1 hterminal

/--
The invariant between the generation state, the snapshot and the events that were sent.
-/
structure Tracked (s : AcpSession) : Prop where
  active : s.inner.snapshot.activeGeneration = s.inner.generationState.unsettled
  increasing : s.started.Pairwise (· < ·)
  started_le : ∀ generation ∈ s.started, generation ≤ s.inner.nextGeneration
  current : ∀ generation, s.inner.generationState.current = some generation →
    s.started.getLast? = some generation
  endsCurrent : EndsCurrent s.events
  once : s.ended.Nodup
  unended : ∀ generation, s.inner.generationState.unsettled = some generation →
    generation ∉ s.ended
  ended_le : ∀ generation ∈ s.ended, generation ≤ s.inner.nextGeneration
  live : s.operationLock = false → s.inner.snapshot.historyReconstruction = false
  locked : s.operationLock = true → s.inner.generationState = .terminal
    ∧ ∃ previous, s.inner.reconstructionBackup = some previous ∧ previous.activeGeneration = none
      ∧ previous.historyReconstruction = false

/--
The condition on a call: no end of a run reaches a handoff that is settled already, and the counter of
the generations has not reached its maximum.
-/
def settlesOnce (s : AcpSession) : Call → Bool
  | .admitPrompt .. | .admitHandoff .. => s.inner.nextGeneration < U64_MAX
  | .emit event =>
    event.terminalGeneration?.all fun generation =>
      s.inner.generationState != .handoff generation true
  | _ => true

namespace Tracked

theorem init (agentId threadId : String) : Tracked (.new agentId threadId) := by
  constructor <;> first
    | exact endsCurrent_nil
    | simp [AcpSession.new, SessionState.new, SessionSnapshot.new, AcpSession.started,
        AcpSession.ended, GenerationState.unsettled, GenerationState.current]

variable {s : AcpSession}

/--
Only the state changes, and of it neither the snapshot nor the counter nor the current run.
-/
theorem withState (h : Tracked s) {generationState : GenerationState}
    (hlocked : s.operationLock = true → generationState = .terminal)
    (hunsettled : generationState.unsettled = s.inner.generationState.unsettled)
    (hcurrent : ∀ generation, generationState.current = some generation →
      s.inner.generationState.current = some generation)
    : Tracked { s with inner := { s.inner with generationState } } :=
  { h with
    active := h.active.trans hunsettled.symm
    current := fun generation hgeneration => h.current generation (hcurrent generation hgeneration)
    unended := fun generation hgeneration => h.unended generation (hunsettled ▸ hgeneration)
    locked := fun hlock => ⟨hlocked hlock, (h.locked hlock).2⟩ }

theorem startRun (h : Tracked s) (hfree : s.operationLock = false)
    (hlt : s.inner.nextGeneration < U64_MAX) {runId sourceTurnId : String} {inner : SessionState}
    {generation : Nat} {event : CanonicalEvent}
    (hstart : s.inner.startRun runId sourceTurnId = .ok (inner, generation, event))
    : Tracked { s with inner, events := s.events ++ [event] } := by
  rcases SessionState.startRun_eq_ok hstart with ⟨hgeneration, hevent, snapshot, happly, hinner⟩
  have hnext : generation = s.inner.nextGeneration + 1 := by
    rw [hgeneration]
    apply Nat.mod_eq_of_lt
    omega
  have hruns := (SessionSnapshot.apply_runs _ _).of_ok happly
  rw [hevent] at hruns
  have hstarted : ({ s with inner, events := s.events ++ [event] } : AcpSession).started
      = s.started ++ [generation] := by
    unfold AcpSession.started
    rw [hevent, List.filterMap_append]
    rfl
  have hended : ({ s with inner, events := s.events ++ [event] } : AcpSession).ended = s.ended := by
    unfold AcpSession.ended
    rw [hevent, List.filterMap_append]
    exact List.append_nil _
  subst hinner
  constructor
  case active => exact hruns.1
  case increasing =>
    rw [hstarted, List.pairwise_append]
    refine ⟨h.increasing, List.pairwise_singleton _ _, ?_⟩
    intro old hold new hnew
    have hle := h.started_le old hold
    rw [List.mem_singleton] at hnew
    omega
  case started_le =>
    intro started hmem
    rw [hstarted, List.mem_append, List.mem_singleton] at hmem
    cases hmem with
    | inl hold =>
      have hle := h.started_le started hold
      dsimp only
      omega
    | inr hnew => exact Nat.le_of_eq hnew
  case current =>
    intro current hcurrent
    rw [hstarted, List.getLast?_append]
    exact hcurrent
  case endsCurrent =>
    apply h.endsCurrent.append_singleton
    intro generation hterminal
    rw [hevent] at hterminal
    contradiction
  case once =>
    rw [hended]
    exact h.once
  case unended =>
    intro current hcurrent hmem
    rw [hended] at hmem
    have hle := h.ended_le current hmem
    have : generation = current := Option.some.inj hcurrent
    omega
  case ended_le =>
    intro ended hmem
    rw [hended] at hmem
    have hle := h.ended_le ended hmem
    dsimp only
    omega
  case live =>
    intro hlock
    exact hruns.2.trans (h.live hlock)
  case locked =>
    intro hlock
    rw [hfree] at hlock
    contradiction

/--
The current run ends.
-/
theorem endRun (h : Tracked s) {generation : Nat} {event : CanonicalEvent}
    (hterminal : event.terminalGeneration? = some generation)
    (hunsettled : s.inner.generationState.unsettled = some generation)
    (hcurrent : s.inner.generationState.current = some generation) {next : GenerationState}
    (hnext : next.unsettled = none) (hover : next = .terminal ∨ next = .handoff generation true)
    {snapshot : SessionSnapshot}
    (hruns : snapshot.Runs none s.inner.snapshot.historyReconstruction) (openMessages)
    : Tracked { s with
        inner := { s.inner with snapshot, generationState := next, openMessages }
        events := s.events ++ [event] } := by
  have hstarted : (s.events ++ [event]).filterMap (·.startedGeneration?) = s.started := by
    cases event <;> first | contradiction | simp [AcpSession.started, CanonicalEvent.startedGeneration?]
  have hended : (s.events ++ [event]).filterMap (·.terminalGeneration?) = s.ended ++ [generation] := by
    rw [List.filterMap_append, List.filterMap_cons_some hterminal]
    rfl
  constructor
  case active => exact hruns.1.trans hnext.symm
  case increasing =>
    unfold AcpSession.started
    rw [hstarted]
    exact h.increasing
  case started_le =>
    unfold AcpSession.started
    rw [hstarted]
    exact h.started_le
  case current =>
    intro current hcurrent'
    unfold AcpSession.started
    rw [hstarted]
    cases hover with
    | inl hover =>
      rw [hover] at hcurrent'
      contradiction
    | inr hover =>
      rw [hover] at hcurrent'
      exact (h.current generation hcurrent).trans hcurrent'
  case endsCurrent =>
    apply h.endsCurrent.append_singleton
    intro generation' hterminal'
    rw [hterminal] at hterminal'
    exact (h.current generation hcurrent).trans hterminal'
  case once =>
    unfold AcpSession.ended
    rw [hended, List.nodup_append]
    refine ⟨h.once, List.nodup_singleton _, ?_⟩
    intro old hold new hnew heq
    rw [List.mem_singleton] at hnew
    rw [heq, hnew] at hold
    exact h.unended generation hunsettled hold
  case unended =>
    intro current hcurrent'
    dsimp only at hcurrent'
    rw [hnext] at hcurrent'
    contradiction
  case ended_le =>
    intro ended hmem
    unfold AcpSession.ended at hmem
    rw [hended, List.mem_append, List.mem_singleton] at hmem
    cases hmem with
    | inl hold => exact h.ended_le ended hold
    | inr hnew =>
      rw [hnew]
      exact h.started_le generation (List.mem_of_getLast? (h.current generation hcurrent))
  case live =>
    intro hlock
    exact hruns.2.trans (h.live hlock)
  case locked =>
    intro hlock
    rw [(h.locked hlock).1] at hunsettled
    contradiction

/--
An event that is about no run is applied, and sent unless history is being reconstructed.
-/
theorem applyOther (h : Tracked s) {event : CanonicalEvent}
    (hstart : event.startedGeneration? = none) (hterminal : event.terminalGeneration? = none)
    {snapshot : SessionSnapshot} (hok : s.inner.snapshot.apply event = .ok snapshot)
    {sent : List CanonicalEvent} (hsent : sent = [] ∨ sent = [event]) (openMessages)
    : Tracked { s with
        inner := { s.inner with snapshot, openMessages }
        events := s.events ++ sent } := by
  have hactive : s.inner.snapshot.activeAfter event = s.inner.snapshot.activeGeneration := by
    cases event <;> first | contradiction | rfl
  have hruns := (SessionSnapshot.apply_runs _ _).of_ok hok
  rw [hactive] at hruns
  have hstarted : (s.events ++ sent).filterMap (·.startedGeneration?) = s.started := by
    rcases hsent with rfl | rfl <;> simp [AcpSession.started, hstart]
  have hended : (s.events ++ sent).filterMap (·.terminalGeneration?) = s.ended := by
    rcases hsent with rfl | rfl <;> simp [AcpSession.ended, hterminal]
  constructor
  case active => exact hruns.1.trans h.active
  case increasing =>
    unfold AcpSession.started
    rw [hstarted]
    exact h.increasing
  case started_le =>
    unfold AcpSession.started
    rw [hstarted]
    exact h.started_le
  case current =>
    unfold AcpSession.started
    rw [hstarted]
    exact h.current
  case endsCurrent =>
    rcases hsent with rfl | rfl
    . dsimp only
      rw [List.append_nil]
      exact h.endsCurrent
    . apply h.endsCurrent.append_singleton
      intro generation hgeneration
      rw [hterminal] at hgeneration
      contradiction
  case once =>
    unfold AcpSession.ended
    rw [hended]
    exact h.once
  case unended =>
    unfold AcpSession.ended
    rw [hended]
    exact h.unended
  case ended_le =>
    unfold AcpSession.ended
    rw [hended]
    exact h.ended_le
  case live =>
    intro hlock
    exact hruns.2.trans (h.live hlock)
  case locked => exact h.locked

theorem emit (h : Tracked s) {event : CanonicalEvent} (hstart : event.startedGeneration? = none)
    (hguard : settlesOnce s (.emit event)) {inner : SessionState} {sent : List CanonicalEvent}
    (hemit : s.inner.emit event = .ok (inner, sent))
    : Tracked { s with inner, events := s.events ++ sent } := by
  cases SessionState.emit_eq_ok hemit with
  | inl hdropped =>
    rcases hdropped with ⟨-, rfl, rfl⟩
    rw [List.append_nil]
    exact h
  | inr happlied =>
    rcases happlied with ⟨prepared, snapshot, hprepare, hok, rfl, rfl⟩
    cases hterminal : event.terminalGeneration? with
    | none =>
      rcases SessionState.prepareEmit_of_nonterminal hterminal hprepare with ⟨openMessages, rfl⟩
      apply h.applyOther hstart hterminal hok
      split
      . exact .inl rfl
      . exact .inr rfl
    | some generation =>
      rw [SessionState.prepareEmit_of_terminal hterminal] at hprepare
      rcases SessionState.settleGeneration_eq_some hprepare with
        ⟨hcurrent, hstate, next, openMessages, rfl, hnext, hover⟩
      have hunsettled : s.inner.generationState.unsettled = some generation := by
        cases hstate with
        | inl hsettled => simp [settlesOnce, hterminal, hsettled] at hguard
        | inr hunsettled => exact hunsettled
      have hfree : s.operationLock = false := by
        cases hlock : s.operationLock with
        | false => rfl
        | true =>
          rw [(h.locked hlock).1] at hcurrent
          contradiction
      have hactive : s.inner.snapshot.activeAfter event = none := by
        have := h.active.trans hunsettled
        cases event <;> simp_all [SessionSnapshot.activeAfter, CanonicalEvent.terminalGeneration?]
      have hruns := (SessionSnapshot.apply_runs _ _).of_ok hok
      dsimp only at hruns
      rw [hactive] at hruns
      have hlive := hruns.2.trans (h.live hfree)
      rw [hlive, if_neg Bool.false_ne_true]
      exact h.endRun hterminal hunsettled hcurrent hnext hover hruns openMessages

theorem beginReconstruction (h : Tracked s) (hfree : s.operationLock = false) {inner : SessionState}
    (hbegin : s.inner.beginReconstruction = .ok inner)
    : Tracked { s with inner, operationLock := true } := by
  unfold SessionState.beginReconstruction at hbegin
  split at hbegin
  . contradiction
  . contradiction
  . contradiction
  . next hstate =>
    injection hbegin with hbegin
    subst hbegin
    have hactive := h.active
    rw [hstate] at hactive
    exact
      { h with
        active := by
          dsimp only
          rw [hstate]
          rfl
        live := by simp
        locked := fun _ => ⟨hstate, _, rfl, hactive, h.live hfree⟩ }

theorem finishReconstruction (h : Tracked s) (hlock : s.operationLock = true) {commit : Bool}
    {inner : SessionState} (hfinish : s.inner.finishReconstruction commit = .ok inner)
    : Tracked { s with inner, operationLock := false } := by
  rcases h.locked hlock with ⟨hstate, previous, hbackup, hprevious⟩
  have hactive := h.active
  rw [hstate] at hactive
  rcases SessionState.finishReconstruction_eq_ok hbackup hprevious hactive hfinish with
    ⟨hruns, hstate', hnext⟩
  rw [hstate] at hstate'
  exact
    { increasing := h.increasing
      endsCurrent := h.endsCurrent
      once := h.once
      active := by
        dsimp only
        rw [hruns.1, hstate']
        rfl
      started_le := by
        dsimp only
        rw [hnext]
        exact h.started_le
      current := by
        dsimp only
        rw [hstate']
        intro generation hcurrent
        contradiction
      unended := by
        dsimp only
        rw [hstate']
        intro generation hunsettled
        contradiction
      ended_le := by
        dsimp only
        rw [hnext]
        exact h.ended_le
      live := fun _ => hruns.2
      locked := by simp }

theorem answerAdmission (h : Tracked s) (hfree : s.operationLock = false)
    (hlt : s.inner.nextGeneration < U64_MAX) (runId sourceTurnId : String)
    {answer : Except String (Except Panic (SessionState × Nat × CanonicalEvent))}
    (hanswer : ∀ result, answer = .ok result → result = s.inner.startRun runId sourceTurnId)
    {t : AcpSession} (hstep : s.answerAdmission answer = some t)
    : Tracked t := by
  unfold AcpSession.answerAdmission at hstep
  split at hstep
  . exact Option.some.inj hstep ▸ h
  . contradiction
  . have := hanswer _ rfl
    exact Option.some.inj hstep ▸ h.startRun hfree hlt this.symm

theorem reserveHandoff (h : Tracked s) (hfree : ¬s.operationLock = true)
    {runId sourceTurnId : String} {generation : Nat} {inner : SessionState}
    (hreserve : s.inner.reserveHandoff runId sourceTurnId generation = .ok inner)
    : Tracked { s with inner } := by
  unfold SessionState.reserveHandoff at hreserve
  split at hreserve
  . next hmatches =>
    injection hreserve with hreserve
    subst hreserve
    have hstate := hmatches.2.2.2
    apply h.withState
    . intro hlock
      contradiction
    . rw [hstate]
      rfl
    . rw [hstate]
      exact fun _ hcurrent => hcurrent
  . contradiction

theorem releaseHandoff (h : Tracked s) (hfree : ¬s.operationLock = true)
    : Tracked { s with inner := s.inner.releaseHandoff } := by
  unfold SessionState.releaseHandoff
  split
  . next generation settled hstate =>
    apply h.withState
    . intro hlock
      contradiction
    . rw [hstate]
      cases settled <;> rfl
    . rw [hstate]
      intro current hcurrent
      cases settled with
      | false => exact hcurrent
      | true => contradiction
  all_goals exact h

theorem markCancelling (h : Tracked s)
    : Tracked { s with inner := s.inner.markCancelling.1 } := by
  unfold SessionState.markCancelling
  split
  . next generation hstate =>
    apply h.withState
    . intro hlock
      rw [(h.locked hlock).1] at hstate
      contradiction
    . rw [hstate]
      rfl
    . rw [hstate]
      exact fun _ hcurrent => hcurrent
  all_goals exact h

/--
Every allowed call keeps the invariant.
-/
theorem step {t : AcpSession} (h : Tracked s) {call : Call} (hguard : settlesOnce s call)
    (hstep : s.step call = some t)
    : Tracked t := by
  cases call with
  | admitPrompt runId sourceTurnId =>
    dsimp only [AcpSession.step] at hstep
    split at hstep
    . contradiction
    . next hfree =>
      apply h.answerAdmission (by simpa using hfree) (by simpa [settlesOnce] using hguard) runId sourceTurnId
        _ hstep
      intro result hresult
      unfold SessionState.admitPrompt at hresult
      split at hresult <;> simp_all
  | reserveHandoff runId sourceTurnId generation =>
    dsimp only [AcpSession.step] at hstep
    split at hstep
    . contradiction
    . next hfree =>
      split at hstep
      . exact Option.some.inj hstep ▸ h
      . next hreserve => exact Option.some.inj hstep ▸ h.reserveHandoff hfree hreserve
  | admitHandoff runId sourceTurnId =>
    dsimp only [AcpSession.step] at hstep
    split at hstep
    . contradiction
    . next hfree =>
      apply h.answerAdmission (by simpa using hfree) (by simpa [settlesOnce] using hguard) runId sourceTurnId
        _ hstep
      intro result hresult
      unfold SessionState.admitHandoff at hresult
      split at hresult <;> simp_all
  | releaseHandoff =>
    dsimp only [AcpSession.step] at hstep
    split at hstep
    . contradiction
    . next hfree => exact Option.some.inj hstep ▸ h.releaseHandoff hfree
  | markCancelling => exact Option.some.inj hstep ▸ h.markCancelling
  | emit event =>
    dsimp only [AcpSession.step] at hstep
    split at hstep
    . contradiction
    . next hstart =>
      split at hstep
      . contradiction
      . next hemit =>
        rw [← Option.some.inj hstep]
        exact h.emit (by simpa using hstart) hguard hemit
  | beginReconstruction =>
    dsimp only [AcpSession.step] at hstep
    split at hstep
    . contradiction
    . next hfree =>
      split at hstep
      . exact Option.some.inj hstep ▸ h
      . next hbegin =>
        rw [← Option.some.inj hstep]
        exact h.beginReconstruction (by simpa using hfree) hbegin
  | finishReconstruction commit =>
    dsimp only [AcpSession.step] at hstep
    split at hstep
    . next hlock =>
      split at hstep
      . contradiction
      . next hfinish =>
        rw [← Option.some.inj hstep]
        exact h.finishReconstruction hlock hfinish
    . contradiction

end Tracked

/--
In every sequence of calls in which no run ends again in a settled handoff, runs start in increasing
order, only the current run ends, it ends once, and the snapshot knows the run that has not ended.
-/
theorem runs_of_exec {agentId threadId : String} {calls : List Call} {s : AcpSession}
    (hmeets : Meets AcpSession.step (settlesOnce · ·) (.new agentId threadId) calls)
    (hexec : exec AcpSession.step (.new agentId threadId) calls = some s)
    : s.started.Pairwise (· < ·)
        ∧ EndsCurrent s.events
        ∧ s.ended.Nodup
        ∧ s.inner.snapshot.activeGeneration = s.inner.generationState.unsettled := by
  have h : Tracked s :=
    exec_invariant (fun s call t h hguard hstep => h.step hguard hstep) (Tracked.init _ _) hmeets
      hexec
  exact ⟨h.increasing, h.endsCurrent, h.once, h.active⟩

def finished (generation : Nat) : Call :=
  .emit (.runFinished "agent" "thread" "run" "turn" generation .cancelled)

/--
A prompt is steered: its run ends during the handoff, and the next run takes over.
-/
def steered : List Call :=
  [.admitPrompt "run" "turn", .reserveHandoff "run" "turn" 1, finished 1,
    .admitHandoff "run-2" "turn-2", .markCancelling, finished 1, finished 2]

theorem runs_of_steered
    : ∃ s, exec AcpSession.step (.new "agent" "thread") steered = some s
        ∧ s.started.Pairwise (· < ·)
        ∧ EndsCurrent s.events
        ∧ s.ended.Nodup
        ∧ s.inner.snapshot.activeGeneration = s.inner.generationState.unsettled := by
  have hmeets : Meets AcpSession.step (settlesOnce · ·) (.new "agent" "thread") steered := by
    decide +kernel
  have hrun : (exec AcpSession.step (.new "agent" "thread") steered).isSome := by decide +kernel
  obtain ⟨s, hexec⟩ := Option.isSome_iff_exists.mp hrun
  exact ⟨s, hexec, runs_of_exec hmeets hexec⟩

/--
The end of the run reaches its settled handoff a second time.
-/
def endedTwice : List Call :=
  [.admitPrompt "run" "turn", .reserveHandoff "run" "turn" 1, finished 1, finished 1]

theorem not_runs_of_endedTwice
    : ¬ ∀ calls s, exec AcpSession.step (.new "agent" "thread") calls = some s →
        s.started.Pairwise (· < ·)
          ∧ EndsCurrent s.events
          ∧ s.ended.Nodup
          ∧ s.inner.snapshot.activeGeneration = s.inner.generationState.unsettled := by
  intro h
  have hrun : (exec AcpSession.step (.new "agent" "thread") endedTwice).any (fun s =>
      decide (s.ended = [1, 1])) = true := by
    decide +kernel
  obtain ⟨s, hexec, hended⟩ := (Option.any_eq_true _ _).mp hrun
  have honce := (h endedTwice s hexec).2.2.1
  rw [of_decide_eq_true hended] at honce
  simp at honce

end Session
