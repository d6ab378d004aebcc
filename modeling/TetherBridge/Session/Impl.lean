import TetherBridge.Data.Outcome
import TetherBridge.Snapshot.Apply

/-!
This module contains the state of `AcpSession` behind its lock and the sections of its methods that
hold the lock: admission of prompts, the handoff to a steered prompt, reconstruction and `emit`.
-/

namespace Session

open Acp Std Snapshot

inductive GenerationState where
  | terminal
  | active (generation : Nat)
  | cancelling (generation : Nat)
  | handoff (generation : Nat) (settled : Bool)
  deriving DecidableEq

inductive ReconstructionError where
  | busy
  | cancelled
  deriving DecidableEq

structure SessionState where
  snapshot : SessionSnapshot
  reconstructionBackup : Option SessionSnapshot := none
  reconstructionHistoryCursor : Option (Option MessageRole × Nat) := none
  nextGeneration : Nat := 0
  generationState : GenerationState := .terminal
  openMessages : TreeMap Nat (MessageRole × String) := ∅
  historyRole : Option MessageRole := none
  historySerial : Nat := 0

/--
`u64` arithmetic of a release build.
-/
def wrappingAdd (a b : Nat) : Nat :=
  (a + b) % (U64_MAX + 1)

namespace SessionState

def new (agentId threadId : String) : SessionState :=
  { snapshot := .new agentId threadId }

variable (s : SessionState)

/-! Reconstruction -/

def beginReconstruction : Except ReconstructionError SessionState :=
  match s.generationState with
  | .active _ => .error .busy
  | .cancelling _ => .error .cancelled
  | .handoff .. => .error .busy
  | .terminal =>
    let fresh := SessionSnapshot.new s.snapshot.agentId s.snapshot.threadId
    .ok { s with
      snapshot := { fresh with historyReconstruction := true }
      reconstructionBackup := some s.snapshot
      openMessages := ∅
      reconstructionHistoryCursor := some (s.historyRole, s.historySerial)
      historyRole := none
      historySerial := 0 }

/--
What the session goes on with: the snapshot from before, the new one with the old transcript when
nothing was replayed, or the new one as it is.
-/
def reconstructed (previous : SessionSnapshot) (commit : Bool) : SessionSnapshot × Bool :=
  if !commit then
    (previous, true)
  else if s.snapshot.timeline.isEmpty && !previous.timeline.isEmpty then
    (s.snapshot.restoreTranscriptFrom previous, true)
  else
    (s.snapshot, false)

def restoreCursor (restored : Bool) : SessionState :=
  match s.reconstructionHistoryCursor with
  | some (role, serial) =>
    if restored then { s with historyRole := role, historySerial := serial } else s
  | none => s

def finishReconstruction (commit : Bool) : Except Panic SessionState :=
  match s.reconstructionBackup with
  | none => .ok { s with reconstructionHistoryCursor := none }
  | some previous => do
    let (snapshot, restored) := s.reconstructed previous commit
    let s :=
      { s.restoreCursor restored with
        reconstructionHistoryCursor := none
        reconstructionBackup := none }
    if commit then do
      let settled := { snapshot with historyReconstruction := false }
      let snapshot ← settled.settleUnresolvedSubagentsWithoutRun
      return { s with snapshot }
    else
      return { s with snapshot }

/-! Admission -/

/--
The next generation starts. The event is to be sent once the lock is released.
-/
def startRun (runId sourceTurnId : String) : Except Panic (SessionState × Nat × CanonicalEvent) := do
  let generation := wrappingAdd s.nextGeneration 1
  let event : CanonicalEvent :=
    .runStarted s.snapshot.agentId s.snapshot.threadId runId sourceTurnId generation
  let snapshot ← s.snapshot.apply event
  let s := { s with snapshot, nextGeneration := generation, generationState := .active generation }
  return (s, generation, event)

def admitPrompt (runId sourceTurnId : String)
    : Except String (Except Panic (SessionState × Nat × CanonicalEvent)) :=
  match s.generationState with
  | .active _ | .cancelling _ | .handoff .. => .error "ACP session already has an active prompt"
  | .terminal => .ok (s.startRun runId sourceTurnId)

def reserveHandoff (expectedRunId expectedSourceTurnId : String) (expectedGeneration : Nat)
    : Except String SessionState :=
  if s.snapshot.activeRunId = some expectedRunId
      ∧ s.snapshot.activeSourceTurnId = some expectedSourceTurnId
      ∧ s.snapshot.activeGeneration = some expectedGeneration
      ∧ s.generationState = .active expectedGeneration then
    .ok { s with generationState := .handoff expectedGeneration false }
  else
    .error "steer target is no longer the active prompt"

def admitHandoff (runId sourceTurnId : String)
    : Except String (Except Panic (SessionState × Nat × CanonicalEvent)) :=
  match s.generationState with
  | .handoff .. => .ok (s.startRun runId sourceTurnId)
  | .terminal | .active _ | .cancelling _ => .error "steer handoff is no longer reserved"

def releaseHandoff : SessionState :=
  match s.generationState with
  | .handoff generation settled =>
    { s with generationState := if settled then .terminal else .active generation }
  | .terminal | .active _ | .cancelling _ => s

def markCancelling : SessionState × Option Nat :=
  match s.generationState with
  | .active generation => ({ s with generationState := .cancelling generation }, some generation)
  | .terminal | .cancelling _ | .handoff .. => (s, none)

/-! Events -/

/--
The arms of `emit` for the end of a run, `none` where the event is dropped.
-/
def settleGeneration (generation : Nat) : Option SessionState :=
  match s.generationState with
  | .handoff active _ =>
    if active = generation then
      some { s with
        generationState := .handoff generation true
        openMessages := s.openMessages.erase generation }
    else
      none
  | .active active | .cancelling active =>
    if active = generation then
      some { s with
        generationState := .terminal
        openMessages := s.openMessages.erase generation }
    else
      none
  | .terminal => none

/--
What `emit` makes of the state before it applies the event.
-/
def prepareEmit (event : CanonicalEvent) : Option SessionState :=
  match event with
  | .runFinished _ _ _ _ generation _ => s.settleGeneration generation
  | .runFailed _ _ _ _ generation _ => s.settleGeneration generation
  | .tool _ _ _ _ (some generation) toolCallId .. =>
    if s.snapshot.tools.contains toolCallId then
      some s
    else
      some { s with openMessages := s.openMessages.erase generation }
  | _ => some s

/--
The section of `emit` under the lock, and the events it has to send afterwards.
-/
def emit (event : CanonicalEvent) : Except Panic (SessionState × List CanonicalEvent) :=
  match s.prepareEmit event with
  | none => .ok (s, [])
  | some s => do
    let snapshot ← s.snapshot.apply event
    return ({ s with snapshot }, if snapshot.historyReconstruction then [] else [event])

/--
The section of `seed_history` under the lock, and the events it has to send afterwards.
-/
def seedHistory (events : List CanonicalEvent)
    : Except Panic (SessionState × List CanonicalEvent) :=
  if s.snapshot.timeline.isEmpty then do
    let snapshot ← events.foldlM SessionSnapshot.apply s.snapshot
    return ({ s with snapshot }, if snapshot.historyReconstruction then [] else events)
  else
    .ok (s, [])

/-! What the sections do -/

variable {s} {t : SessionState} {event : CanonicalEvent}

theorem startRun_eq_ok {runId sourceTurnId : String} {generation : Nat}
    (h : s.startRun runId sourceTurnId = .ok (t, generation, event))
    : generation = wrappingAdd s.nextGeneration 1
        ∧ event = .runStarted s.snapshot.agentId s.snapshot.threadId runId sourceTurnId generation
        ∧ ∃ snapshot, s.snapshot.apply event = .ok snapshot
          ∧ t = { s with
            snapshot, nextGeneration := generation, generationState := .active generation } := by
  unfold startRun at h
  rw [Except.bind_eq_ok] at h
  rcases h with ⟨snapshot, happly, h⟩
  injection h with h
  injection h with ht h
  injection h with hgeneration hevent
  subst hgeneration hevent
  exact ⟨rfl, rfl, snapshot, happly, ht.symm⟩

theorem settleGeneration_snapshot {generation : Nat} (h : s.settleGeneration generation = some t)
    : t.snapshot = s.snapshot := by
  unfold settleGeneration at h
  split at h
  case h_4 => contradiction
  all_goals
    split at h
    . rw [← Option.some.inj h]
    . contradiction

theorem prepareEmit_snapshot (h : s.prepareEmit event = some t) : t.snapshot = s.snapshot := by
  unfold prepareEmit at h
  split at h
  . exact settleGeneration_snapshot h
  . exact settleGeneration_snapshot h
  . split at h <;> rw [← Option.some.inj h]
  . rw [← Option.some.inj h]

theorem seedHistory_eq_ok {events sent : List CanonicalEvent}
    (h : s.seedHistory events = .ok (t, sent))
    : (t = s ∧ sent = [])
        ∨ ∃ snapshot, events.foldlM SessionSnapshot.apply s.snapshot = .ok snapshot
          ∧ t = { s with snapshot } ∧ sent = if snapshot.historyReconstruction then [] else events := by
  unfold seedHistory at h
  split at h
  . rw [Except.bind_eq_ok] at h
    rcases h with ⟨snapshot, hfold, h⟩
    injection h with h
    injection h with ht hsent
    exact .inr ⟨snapshot, hfold, ht.symm, hsent.symm⟩
  . injection h with h
    injection h with ht hsent
    exact .inl ⟨ht.symm, hsent.symm⟩

theorem emit_eq_ok {sent : List CanonicalEvent} (h : s.emit event = .ok (t, sent))
    : (s.prepareEmit event = none ∧ t = s ∧ sent = [])
        ∨ ∃ prepared snapshot, s.prepareEmit event = some prepared
          ∧ prepared.snapshot.apply event = .ok snapshot ∧ t = { prepared with snapshot }
          ∧ sent = if snapshot.historyReconstruction then [] else [event] := by
  unfold emit at h
  split at h
  . next hnone =>
    injection h with h
    injection h with ht hsent
    exact .inl ⟨hnone, ht.symm, hsent.symm⟩
  . next prepared hsome =>
    rw [Except.bind_eq_ok] at h
    rcases h with ⟨snapshot, happly, h⟩
    injection h with h
    injection h with ht hsent
    exact .inr ⟨prepared, snapshot, hsome, happly, ht.symm, hsent.symm⟩

end SessionState

end Session
