import TetherBridge.Snapshot.Eviction
import TetherBridge.Snapshot.Rules

/-!
This module contains what the events do to the active run of a snapshot: a start sets it, the end of
the active generation clears it, and nothing else touches it.
-/

namespace Snapshot

open Acp

namespace SessionSnapshot

/--
The generation that is active once the event has been applied.
-/
def activeAfter (s : SessionSnapshot) : CanonicalEvent → Option Nat
  | .runStarted _ _ _ _ generation => some generation
  | .runFinished _ _ _ _ generation _ =>
    if s.activeGeneration = some generation then none else s.activeGeneration
  | .runFailed _ _ _ _ generation _ =>
    if s.activeGeneration = some generation then none else s.activeGeneration
  | _ => s.activeGeneration

/--
The run and whether history is being reconstructed are as given.
-/
def Runs (activeGeneration : Option Nat) (historyReconstruction : Bool) (s : SessionSnapshot)
    : Prop :=
  s.activeGeneration = activeGeneration ∧ s.historyReconstruction = historyReconstruction

variable {activeGeneration : Option Nat} {historyReconstruction : Bool}

theorem Evicts.runs {s t : SessionSnapshot} {history : List SnapshotHistoryEntry}
    (hevicts : s.Evicts history t) (h : s.Runs activeGeneration historyReconstruction)
    : t.Runs activeGeneration historyReconstruction := by
  rcases hevicts with ⟨gone, historyBytes, unavailableCount, rfl⟩
  exact h

theorem mutateHistoryEntryAt_runs {s : SessionSnapshot}
    (h : s.Runs activeGeneration historyReconstruction) (index : Nat)
    (update : SnapshotHistoryEntry → SnapshotHistoryEntry)
    : (s.mutateHistoryEntryAt index update).Yields (fun _ => False)
        (Runs activeGeneration historyReconstruction) := by
  apply Except.Yields.mono (mutateHistoryEntryAt_evicts s index update).anyError
  intro t hevicts
  exact hevicts.runs h

theorem keptByTools_runs (activeGeneration : Option Nat) (historyReconstruction : Bool)
    : KeptByTools (fun _ => False) (Runs activeGeneration historyReconstruction) := by
  constructor
  . simp
  . intro s h tools activeToolIds subagentHeaders
    exact h
  . intro s h keep
    exact h
  . intro s h index _ update _
    exact mutateHistoryEntryAt_runs h index update
  . intro s h entry hentry position
    exact h

theorem updateHistoryMessage_runs {s : SessionSnapshot}
    (h : s.Runs activeGeneration historyReconstruction) (message : SnapshotMessage)
    : (s.updateHistoryMessage message).Yields (fun _ => False)
        (Runs activeGeneration historyReconstruction) := by
  unfold updateHistoryMessage
  split
  . exact mutateHistoryEntryAt_runs h _ _
  . exact h

theorem pushTimeline_runs {s : SessionSnapshot} (h : s.Runs activeGeneration historyReconstruction)
    (kind : SnapshotTimelineKind) (canonicalId : String)
    : (s.pushTimeline kind canonicalId).Yields (fun _ => False)
        (Runs activeGeneration historyReconstruction) := by
  unfold pushTimeline
  apply Except.Yields.mono (pushHistory_evicts _ _).anyError
  intro t hevicts
  apply hevicts.runs
  cases kind <;> exact h

theorem makeRoomForMessage_runs {s : SessionSnapshot}
    (h : s.Runs activeGeneration historyReconstruction)
    : s.makeRoomForMessage.Yields (fun _ => False) (Runs activeGeneration historyReconstruction) := by
  unfold makeRoomForMessage
  split
  . split
    . simp
    . exact h
  . exact h

theorem appendMessage_runs {s : SessionSnapshot} (h : s.Runs activeGeneration historyReconstruction)
    (id : String) (role : MessageRole) (content : String) (contentBlock : Option Json)
    : (s.appendMessage id role content contentBlock).Yields (fun _ => False)
        (Runs activeGeneration historyReconstruction) := by
  unfold appendMessage
  split
  . apply updateHistoryMessage_runs
    exact h
  . apply Except.Yields.bind (makeRoomForMessage_runs h)
    intro s h
    unfold insertMessage
    apply Except.Yields.bind (pushTimeline_runs h _ _)
    intro s h
    apply updateHistoryMessage_runs
    exact h

theorem attachTurnUsage_runs {s : SessionSnapshot} (h : s.Runs activeGeneration historyReconstruction)
    (usage : BridgeTurnUsageSnapshot)
    : (s.attachTurnUsage usage).Yields (fun _ => False)
        (Runs activeGeneration historyReconstruction) := by
  unfold attachTurnUsage
  split
  . exact h
  . split
    . exact h
    . apply updateHistoryMessage_runs
      exact h

theorem settleUnresolvedSubagentsWithoutRun_runs {s : SessionSnapshot}
    (h : s.Runs activeGeneration historyReconstruction)
    : s.settleUnresolvedSubagentsWithoutRun.Yields (fun _ => False)
        (Runs activeGeneration historyReconstruction) :=
  settleUnresolvedSubagentsWithoutRun_keeps (keptByTools_runs _ _).updates h

theorem apply_runs (s : SessionSnapshot) (event : CanonicalEvent)
    : (s.apply event).Yields (fun _ => False)
        (Runs (s.activeAfter event) s.historyReconstruction) := by
  have rules := keptByTools_runs s.activeGeneration s.historyReconstruction
  have h : s.Runs s.activeGeneration s.historyReconstruction := ⟨rfl, rfl⟩
  unfold apply
  split
  case h_1 =>
    apply Except.Yields.bind (abandonActiveRun_keeps rules.updates h)
    intro t ht
    exact ⟨rfl, ht.2⟩
  case h_2 =>
    dsimp only [activeAfter]
    split
    . apply Except.Yields.bind (settleFinishedRun_keeps rules.updates h _ _)
      intro t ht
      exact ⟨rfl, ht.2⟩
    . exact h
  case h_3 =>
    dsimp only [activeAfter]
    split
    . apply Except.Yields.bind (terminalizeActiveTools_keeps rules.updates h _)
      intro t ht
      apply Except.Yields.bind (terminalizeUnresolvedSubagents_keeps rules.updates ht _ _)
      intro t ht
      exact ⟨rfl, ht.2⟩
    . exact h
  case h_4 => exact appendMessage_runs h _ _ _ _
  case h_5 =>
    apply applyTool_keeps rules rules (fun _ h => h) h
    intro t ht
    exact pushTimeline_runs ht _ _
  case h_8 =>
    apply attachTurnUsage_runs
    exact h
  all_goals exact h

end SessionSnapshot

end Snapshot
