import TetherBridge.Snapshot.Eviction
import TetherBridge.Snapshot.History

/-!
This module contains the rule for what holds of the id of every message that the snapshot of a thread holds, live
or in the history: it has to hold of the ids of the chunks.
-/

namespace Snapshot

open Acp Std

namespace SessionSnapshot

variable {P : String → Prop} {thread : String} {s t : SessionSnapshot}

/--
The ids of the messages that the snapshot holds.
-/
def messageIds (s : SessionSnapshot) : List String :=
  s.messages.map (·.id)
    ++ s.history.filterMap fun entry => if entry.kind == .tool then none else some entry.canonicalId

structure HoldsMessages (thread : String) (P : String → Prop) (s : SessionSnapshot) : Prop where
  threadId : s.threadId = thread
  live : ∀ message ∈ s.messages, P message.id
  retained : ∀ entry ∈ s.history, entry.kind ≠ .tool → P entry.canonicalId

theorem HoldsMessages.of_mem (h : s.HoldsMessages thread P) {id : String} (hid : id ∈ s.messageIds) : P id := by
  unfold messageIds at hid
  rw [List.mem_append, List.mem_map, List.mem_filterMap] at hid
  rcases hid with ⟨message, hmessage, rfl⟩ | ⟨entry, hentry, hkind⟩
  . exact h.live message hmessage
  . split at hkind
    . cases hkind
    . next hne =>
      injection hkind with hkind
      rw [← hkind]
      exact h.retained entry hentry (mt beq_iff_eq.mpr hne)

theorem HoldsMessages.mono {Q : String → Prop} (h : s.HoldsMessages thread P) (himp : ∀ id, P id → Q id)
    : s.HoldsMessages thread Q where
  threadId := h.threadId
  live message hmessage := himp _ (h.live message hmessage)
  retained entry hentry hkind := himp _ (h.retained entry hentry hkind)

theorem HoldsMessages.congr (h : s.HoldsMessages thread P) (hthread : t.threadId = s.threadId)
    (hmessages : t.messages = s.messages) (hhistory : t.history = s.history)
    : t.HoldsMessages thread P := by
  constructor
  . rw [hthread]
    exact h.threadId
  . rw [hmessages]
    exact h.live
  . rw [hhistory]
    exact h.retained

theorem new_holdsMessages (agentId threadId : String) : (new agentId threadId).HoldsMessages threadId P where
  threadId := rfl
  live message hmessage := by
    cases hmessage
  retained entry hentry := by
    cases hentry

/--
Writing a history entry changes neither its kind nor its id.
-/
theorem mutateHistoryEntryAt_holdsMessages (h : s.HoldsMessages thread P) (index : Nat)
    {update : SnapshotHistoryEntry → SnapshotHistoryEntry}
    (hupdate : ∀ entry, (update entry).kind = entry.kind ∧ (update entry).canonicalId = entry.canonicalId)
    : (s.mutateHistoryEntryAt index update).Yields (fun _ => False) (HoldsMessages thread P) := by
  apply Except.Yields.mono (mutateHistoryEntryAt_evicts s index update).anyError
  rintro t ⟨gone, historyBytes, unavailableCount, rfl⟩
  refine ⟨h.threadId, h.live, ?_⟩
  intro entry hentry hkind
  rcases List.mem_iff_getElem?.mp (List.mem_of_mem_drop hentry) with ⟨i, hi⟩
  rw [List.getElem?_modify] at hi
  rcases Option.map_eq_some_iff.mp hi with ⟨old, hold, hwritten⟩
  have hmem := List.mem_of_getElem? hold
  split at hwritten
  . rw [← hwritten, (hupdate old).2]
    rw [← hwritten, (hupdate old).1] at hkind
    exact h.retained old hmem hkind
  . rw [← hwritten]
    rw [← hwritten] at hkind
    exact h.retained old hmem hkind

theorem pushTimeline_holdsMessages (h : s.HoldsMessages thread P) {kind : SnapshotTimelineKind} {id : String}
    (hid : kind ≠ .tool → P id)
    : (s.pushTimeline kind id).Yields (fun _ => False) (HoldsMessages thread P) := by
  unfold pushTimeline
  apply Except.Yields.mono (pushHistory_evicts _ _).anyError
  rintro t ⟨gone, historyBytes, unavailableCount, rfl⟩
  constructor
  . cases kind <;> exact h.threadId
  . cases kind <;> exact h.live
  . intro entry hentry
    rcases List.mem_append.mp (List.mem_of_mem_drop hentry) with hentry | hentry
    . have hmem : entry ∈ s.history := by
        cases kind <;> exact hentry
      exact h.retained entry hmem
    . rw [List.mem_singleton.mp hentry]
      exact hid

theorem keptByTools_messages : KeptByTools (fun _ => False) (HoldsMessages thread P) where
  fullToolSnapshot := not_false
  withTools h _ _ _ := h.congr rfl rfl rfl
  filterTimeline h _ := h.congr rfl rfl rfl
  mutate := by
    intro s h index _ update hupdate
    apply mutateHistoryEntryAt_holdsMessages h
    intro entry
    rcases hupdate entry with ⟨tool, htool⟩
    rw [htool]
    exact ⟨rfl, rfl⟩
  insertTool := by
    intro s h entry _ position
    exact h.congr rfl rfl rfl

theorem updateHistoryMessage_holdsMessages (h : s.HoldsMessages thread P) (message : SnapshotMessage)
    : (s.updateHistoryMessage message).Yields (fun _ => False) (HoldsMessages thread P) := by
  unfold updateHistoryMessage
  split
  . exact mutateHistoryEntryAt_holdsMessages h _ fun _ => ⟨rfl, rfl⟩
  . exact h

theorem appendMessage_holdsMessages (h : s.HoldsMessages thread P) {id : String} (hid : P id) (role : MessageRole)
    (content : String) (contentBlock : Option Json)
    : (s.appendMessage id role content contentBlock).Yields (fun _ => False) (HoldsMessages thread P) := by
  unfold appendMessage
  split
  . next message hfind =>
    apply updateHistoryMessage_holdsMessages
    refine ⟨h.threadId, ?_, h.retained⟩
    intro other hother
    rcases List.mem_or_eq_of_mem_set hother with hother | rfl
    . exact h.live other hother
    . exact h.live message (List.mem_of_find?_eq_some hfind)
  . have hroom : s.makeRoomForMessage.Yields (fun _ => False) (HoldsMessages thread P) := by
      unfold makeRoomForMessage
      split
      . split
        . simp
        . next removed messages hmessages =>
          refine ⟨h.threadId, ?_, h.retained⟩
          intro other hother
          exact h.live other (hmessages ▸ List.mem_cons_of_mem removed hother)
      . exact h
    apply Except.Yields.bind hroom
    intro t h
    unfold insertMessage
    apply Except.Yields.bind (pushTimeline_holdsMessages h fun _ => hid)
    intro u h
    apply updateHistoryMessage_holdsMessages
    refine ⟨h.threadId, ?_, h.retained⟩
    intro other hother
    rcases List.mem_append.mp hother with hother | hother
    . exact h.live other hother
    . rw [List.mem_singleton.mp hother]
      exact hid

theorem attachTurnUsage_holdsMessages (h : s.HoldsMessages thread P) (usage : BridgeTurnUsageSnapshot)
    : (s.attachTurnUsage usage).Yields (fun _ => False) (HoldsMessages thread P) := by
  unfold attachTurnUsage
  split
  . exact h
  . split
    . exact h
    . next message hmessage =>
      apply updateHistoryMessage_holdsMessages
      refine ⟨h.threadId, ?_, h.retained⟩
      intro other hother
      rcases List.mem_or_eq_of_mem_set hother with hother | rfl
      . exact h.live other hother
      . exact h.live message (List.mem_of_getElem? hmessage)

theorem apply_holdsMessages (h : s.HoldsMessages thread P) {event : CanonicalEvent}
    (hchunk : ∀ id, event.chunkId? = some id → P id)
    : (s.apply event).Yields (fun _ => False) (HoldsMessages thread P) := by
  have rules : KeptByTools (fun _ => False) (HoldsMessages thread P) := keptByTools_messages
  unfold apply
  split
  case h_1 =>
    apply Except.Yields.bind (abandonActiveRun_keeps rules.updates h)
    intro t h
    exact h.congr rfl rfl rfl
  case h_2 =>
    split
    . apply Except.Yields.bind (settleFinishedRun_keeps rules.updates h _ _)
      intro t h
      exact h.congr rfl rfl rfl
    . exact h
  case h_3 =>
    split
    . apply Except.Yields.bind (terminalizeActiveTools_keeps rules.updates h _)
      intro t h
      apply Except.Yields.bind (terminalizeUnresolvedSubagents_keeps rules.updates h _ _)
      intro u h
      exact h.congr rfl rfl rfl
    . exact h
  case h_4 => exact appendMessage_holdsMessages h (hchunk _ rfl) _ _ _
  case h_5 =>
    apply applyTool_keeps rules rules (fun _ h => h) h
    intro t h
    exact pushTimeline_holdsMessages h fun hkind => absurd rfl hkind
  case h_8 =>
    apply attachTurnUsage_holdsMessages
    exact h.congr rfl rfl rfl
  all_goals first | exact h | exact h.congr rfl rfl rfl

theorem perform_holdsMessages (h : s.HoldsMessages thread P) {operation : Operation}
    (hchunk : ∀ event, operation = .apply event → ∀ id, event.chunkId? = some id → P id)
    : (s.perform operation).Yields (fun _ => False) (HoldsMessages thread P) := by
  have rules : KeptByUpdates (fun _ => False) (HoldsMessages thread P) := keptByTools_messages.updates
  cases operation with
  | apply event => exact apply_holdsMessages h (hchunk event rfl)
  | markSubagentTerminal childSessionId status =>
    apply Except.Yields.bind (markSubagentTerminal_keeps rules h childSessionId status)
    intro result h
    exact h
  | markSubagentToolTerminal toolCallId status toolStatus =>
    apply Except.Yields.bind (markSubagentToolTerminal_keeps rules h toolCallId status toolStatus)
    intro result h
    exact h
  | settleUnresolvedSubagentsWithoutRun => exact settleUnresolvedSubagentsWithoutRun_keeps rules h

theorem restoreTranscriptFrom_holdsMessages {previous : SessionSnapshot} (hthread : s.threadId = thread)
    (hprevious : previous.HoldsMessages thread P)
    : (s.restoreTranscriptFrom previous).HoldsMessages thread P where
  threadId := hthread
  live := hprevious.live
  retained := hprevious.retained

end SessionSnapshot

end Snapshot
