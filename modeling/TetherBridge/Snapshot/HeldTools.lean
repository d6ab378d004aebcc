import TetherBridge.Snapshot.History
import TetherBridge.Snapshot.ToolRuns

/-!
This module contains the rule for what holds of every tool that a snapshot holds, live or in the history: it has
to be kept when a tool is written.
-/

namespace Snapshot

open Acp Std

/--
The ways in which a tool is written keep the property.
-/
structure KeptByWrites (P : SnapshotTool → Prop) : Prop where
  status {tool : SnapshotTool} (h : P tool) (status : ToolCallStatus) : P { tool with status }
  durable {tool : SnapshotTool} (h : P tool) (header : String) : P (ensureDurableSubagentHeader tool header)
  project {existing : Option SnapshotTool} (h : ∀ tool, existing = some tool → P tool) (s : SessionSnapshot)
      (id : String) (generation : Option Nat) (projection : SessionSnapshot.ToolProjection)
    : P (s.projectTool id generation projection existing).2

namespace SessionSnapshot

variable {P : SnapshotTool → Prop} {s t : SessionSnapshot}

structure HoldsTools (P : SnapshotTool → Prop) (s : SessionSnapshot) : Prop where
  live : ∀ (id : String) (tool : SnapshotTool), s.tools[id]? = some tool → P tool
  retained : ∀ entry ∈ s.history, ∀ tool, entry.tool = some tool → P tool

namespace HoldsTools

theorem congr (h : s.HoldsTools P) (htools : t.tools = s.tools) (hhistory : t.history = s.history)
    : t.HoldsTools P := by
  constructor
  . rw [htools]
    exact h.live
  . rw [hhistory]
    exact h.retained

theorem evicts (h : s.HoldsTools P) {history : List SnapshotHistoryEntry} (hevicts : s.Evicts history t)
    (hretained : ∀ entry ∈ history, ∀ tool, entry.tool = some tool → P tool)
    : t.HoldsTools P := by
  rcases hevicts with ⟨gone, historyBytes, unavailableCount, rfl⟩
  refine ⟨h.live, ?_⟩
  intro entry hentry
  exact hretained entry (List.mem_of_mem_drop hentry)

theorem insertTool (h : s.HoldsTools P) {tool : SnapshotTool} (htool : P tool) (id : String)
    : HoldsTools P { s with tools := s.tools.insert id tool } where
  live other written hwritten := by
    dsimp only at hwritten
    rw [TreeMap.getElem?_insert] at hwritten
    split at hwritten
    . injection hwritten with hwritten
      exact hwritten ▸ htool
    . exact h.live other written hwritten
  retained := h.retained

theorem eraseTool (h : s.HoldsTools P) (id : String)
    : HoldsTools P { s with tools := s.tools.erase id } where
  live other tool htool := by
    dsimp only at htool
    rw [TreeMap.getElem?_erase] at htool
    split at htool
    . contradiction
    . exact h.live other tool htool
  retained := h.retained

/--
The tool of one history entry may be written.
-/
theorem mutateHistoryEntryAt (h : s.HoldsTools P) (index : Nat) {update : SnapshotHistoryEntry → SnapshotHistoryEntry}
    (hupdate : ∀ entry ∈ s.history, ∀ tool, (update entry).tool = some tool → P tool)
    : (s.mutateHistoryEntryAt index update).Yields (fun _ => False) (HoldsTools P) := by
  apply Except.Yields.mono (mutateHistoryEntryAt_evicts s index update).anyError
  intro t hevicts
  apply h.evicts hevicts
  intro entry hentry tool htool
  rcases List.mem_iff_getElem?.mp hentry with ⟨i, hi⟩
  rw [List.getElem?_modify] at hi
  split at hi
  . rcases Option.map_eq_some_iff.mp hi with ⟨old, hold, rfl⟩
    exact hupdate old (List.mem_of_getElem? hold) tool htool
  . rw [id_map'] at hi
    exact h.retained entry (List.mem_of_getElem? hi) tool htool

theorem updateHistoryMessage (h : s.HoldsTools P) (message : SnapshotMessage)
    : (s.updateHistoryMessage message).Yields (fun _ => False) (HoldsTools P) := by
  unfold SessionSnapshot.updateHistoryMessage
  split
  . apply h.mutateHistoryEntryAt
    intro entry hentry tool htool
    exact h.retained entry hentry tool htool
  . exact h

theorem pushTimeline (h : s.HoldsTools P) (kind : SnapshotTimelineKind) (canonicalId : String)
    : (s.pushTimeline kind canonicalId).Yields (fun _ => False) (HoldsTools P) := by
  unfold SessionSnapshot.pushTimeline
  apply Except.Yields.mono (pushHistory_evicts _ _).anyError
  intro t hevicts
  refine evicts (s := _) ?_ hevicts ?_
  . cases kind <;> exact h.congr rfl rfl
  . intro entry hentry tool htool
    rcases List.mem_append.mp hentry with hentry | hentry
    . have hmem : entry ∈ s.history := by
        cases kind <;> exact hentry
      exact h.retained entry hmem tool htool
    . rw [List.mem_singleton.mp hentry] at htool
      cases htool

end HoldsTools

/-! What the operations write -/

theorem projectTool_history (s : SessionSnapshot) (id : String) (generation : Option Nat)
    (projection : ToolProjection) (existing : Option SnapshotTool)
    : (s.projectTool id generation projection existing).1.history = s.history := by
  unfold projectTool
  dsimp only
  split <;> rfl

section

variable (rules : KeptByWrites P) (h : s.HoldsTools P)
include rules h

theorem attachOrUpdateHistoryTool_holds {tool : SnapshotTool} (htool : P tool)
    : (s.attachOrUpdateHistoryTool tool).Yields (fun _ => False) (HoldsTools P) := by
  unfold attachOrUpdateHistoryTool
  dsimp only
  split
  . apply h.mutateHistoryEntryAt
    intro _ _ written hwritten
    injection hwritten with hwritten
    rw [← hwritten]
    split
    . exact rules.durable htool _
    . exact htool
  . exact h

theorem settleHistory_holds (toolCallId : String) (status : ToolCallStatus) (header : Option String)
    : (s.settleHistory toolCallId status header).Yields (fun _ => False) (HoldsTools P) := by
  unfold settleHistory
  split
  . apply h.mutateHistoryEntryAt
    intro entry hentry written hwritten
    unfold settleHistoryTool at hwritten
    cases htool : entry.tool with
    | none =>
      rw [htool] at hwritten
      exact h.retained entry hentry written hwritten
    | some tool =>
      rw [htool] at hwritten
      injection hwritten with hwritten
      rw [← hwritten]
      have hstatus := rules.status (h.retained entry hentry tool htool) status
      cases header with
      | none => exact hstatus
      | some header => exact rules.durable hstatus header
  . exact h

theorem expireTombstones_holds (rounds : Nat)
    : (expireTombstones rounds s).Yields (fun _ => False) (HoldsTools P) := by
  induction rounds generalizing s with
  | zero => exact h
  | succ rounds ih =>
    unfold expireTombstones
    split
    . split
      . exact h
      . unfold expireTombstone
        rw [bind_assoc]
        apply Except.Yields.bind (settleHistory_holds rules h _ _ _)
        intro t ht
        exact ih (ht.congr rfl rfl)
    . exact h

theorem makeRoomForTool_holds (id : String)
    : (s.makeRoomForTool id).Yields (fun _ => False) (HoldsTools P) := by
  unfold makeRoomForTool evictOldestTool
  split
  . split
    . simp
    . apply expireTombstones_holds rules
      exact (h.eraseTool _).congr rfl rfl
  . exact h

omit rules in
theorem placeNewTool_holds (id : String)
    : (s.placeNewTool id).Yields (fun _ => False) fun (placed : SessionSnapshot × Option SnapshotTool) =>
        placed.1.HoldsTools P ∧ ∀ tool, placed.2 = some tool → P tool := by
  unfold placeNewTool placeTool
  split
  . refine ⟨h, ?_⟩
    intro tool htool
    cases htool
  . split
    . next priorEntry hprior =>
      refine ⟨h.congr rfl rfl, ?_⟩
      exact h.retained priorEntry (List.mem_reverse.mp (List.mem_of_find?_eq_some hprior))
    . have hforgotten : (s.forgetIdleHeader id).HoldsTools P := by
        unfold forgetIdleHeader
        split
        . exact h
        . exact h.congr rfl rfl
      apply Except.Yields.bind (hforgotten.pushTimeline _ _)
      intro t ht
      refine ⟨ht, ?_⟩
      intro tool htool
      cases htool

theorem applyTool_holds (id : String) (generation : Option Nat) (projection : ToolProjection)
    : (s.applyTool id generation projection).Yields (fun _ => False) (HoldsTools P) := by
  unfold applyTool
  apply Except.Yields.bind (makeRoomForTool_holds rules h id)
  intro s h
  apply Except.Yields.bind (placeNewTool_holds h id)
  rintro ⟨s, retainedTool⟩ ⟨h, hretained⟩
  dsimp only at h hretained ⊢
  have htracked : (s.trackTool id generation (isTerminalStatus projection.status)).HoldsTools P := by
    unfold trackTool
    split
    . split <;> exact h.congr rfl rfl
    . exact h
  generalize s.trackTool id generation (isTerminalStatus projection.status) = u at htracked
  have hexisting : ∀ tool, u.tools[id]?.or retainedTool = some tool → P tool := by
    intro tool htool
    rw [Option.or_eq_some_iff] at htool
    rcases htool with htool | htool
    . exact htracked.live id tool htool
    . exact hretained tool htool.2
  have htool := rules.project hexisting u id generation projection
  have hsame := u.projectTool_same id generation projection (u.tools[id]?.or retainedTool)
  apply attachOrUpdateHistoryTool_holds rules _ htool
  apply HoldsTools.insertTool _ htool
  exact htracked.congr hsame.1 (u.projectTool_history id generation projection _)

theorem setToolStatus_holds (status : ToolCallStatus) (toolCallId : String)
    : (s.setToolStatus status toolCallId).HoldsTools P := by
  unfold setToolStatus
  split
  . next tool htool => exact h.insertTool (rules.status (h.live toolCallId tool htool) status) toolCallId
  . exact h

theorem foldlM_attachOrUpdateHistoryTool_holds (updates : List SnapshotTool) (hupdates : ∀ tool ∈ updates, P tool)
    : (updates.foldlM attachOrUpdateHistoryTool s).Yields (fun _ => False) (HoldsTools P) := by
  induction updates generalizing s with
  | nil => exact h
  | cons tool updates ih =>
    rw [List.foldlM_cons]
    apply Except.Yields.bind (attachOrUpdateHistoryTool_holds rules h (hupdates tool List.mem_cons_self))
    intro t ht
    exact ih ht fun other hother => hupdates other (List.mem_cons_of_mem tool hother)

theorem settleRetainedTool_holds (status : ToolCallStatus) (toolCallId : String)
    : (s.settleRetainedTool status toolCallId).Yields (fun _ => False) (HoldsTools P) := by
  unfold settleRetainedTool
  split
  . exact h
  . exact settleHistory_holds rules h _ _ _

omit rules in
theorem forgetRetainedHeader_holds (toolCallId : String) : (s.forgetRetainedHeader toolCallId).HoldsTools P := by
  unfold forgetRetainedHeader
  split
  . exact h
  . exact h.congr rfl rfl

theorem terminalizeActiveTools_holds (status : ToolCallStatus)
    : (s.terminalizeActiveTools status).Yields (fun _ => False) (HoldsTools P) := by
  unfold terminalizeActiveTools
  dsimp only
  have hset := foldl_keeps h (fun _ toolCallId h => setToolStatus_holds rules h status toolCallId) s.activeToolIds
  apply Except.Yields.bind (foldlM_attachOrUpdateHistoryTool_holds rules hset _ ?_)
  . intro t h
    apply Except.Yields.bind (Except.yields_foldlM (fun _ toolCallId h =>
      settleRetainedTool_holds rules h status toolCallId) _ h)
    intro t h
    exact foldl_keeps h (fun _ toolCallId h => forgetRetainedHeader_holds h toolCallId) _
  . intro tool htool
    rcases List.mem_filterMap.mp htool with ⟨id, -, hlive⟩
    exact hset.live id tool hlive

theorem updateSubagentToolTerminal_holds (toolCallId status : String) (toolStatus : ToolCallStatus)
    : (s.updateSubagentToolTerminal toolCallId status toolStatus).Yields (fun _ => False) (HoldsTools P) := by
  unfold updateSubagentToolTerminal
  dsimp only
  have hstate : (s.setHeaderState toolCallId status).HoldsTools P := by
    unfold setHeaderState
    split
    . exact h.congr rfl rfl
    . exact h
  generalize s.setHeaderState toolCallId status = u at hstate
  have hsettled : (u.settleTool toolCallId toolStatus u.subagentHeaders[toolCallId]?).Yields (fun _ => False)
      (HoldsTools P) := by
    unfold settleTool
    split
    . next tool htool =>
      dsimp only
      have hwritten : P (((u.subagentHeaders[toolCallId]?).map
          (ensureDurableSubagentHeader { tool with status := toolStatus })).getD { tool with status := toolStatus }) := by
        have hstatus := rules.status (hstate.live toolCallId tool htool) toolStatus
        cases u.subagentHeaders[toolCallId]? with
        | none => exact hstatus
        | some header => exact rules.durable hstatus header
      exact attachOrUpdateHistoryTool_holds rules (hstate.insertTool hwritten toolCallId) hwritten
    . exact settleHistory_holds rules hstate _ _ _
  apply Except.Yields.bind hsettled
  intro t h
  apply forgetRetainedHeader_holds
  exact h.congr rfl rfl

theorem terminalizeUnresolvedSubagents_holds (status : String) (generation : Nat)
    : (s.terminalizeUnresolvedSubagents status generation).Yields (fun _ => False) (HoldsTools P) := by
  unfold terminalizeUnresolvedSubagents
  exact Except.yields_foldlM (fun _ _ h => updateSubagentToolTerminal_holds rules h _ _ _) _ h

theorem settleUnresolvedSubagentsWithoutRun_holds
    : s.settleUnresolvedSubagentsWithoutRun.Yields (fun _ => False) (HoldsTools P) := by
  unfold settleUnresolvedSubagentsWithoutRun
  split
  . exact h
  . exact Except.yields_foldlM (fun _ _ h => updateSubagentToolTerminal_holds rules h _ _ _) _ h

theorem markSubagentToolTerminal_holds (toolCallId status : String) (toolStatus : ToolCallStatus)
    : (s.markSubagentToolTerminal toolCallId status toolStatus).Yields (fun _ => False) (HoldsTools P ·.1) := by
  unfold markSubagentToolTerminal
  split
  . apply Except.Yields.bind (updateSubagentToolTerminal_holds rules h _ _ _)
    intro t h
    exact h
  . exact h

theorem markSubagentTerminal_holds (childSessionId status : String)
    : (s.markSubagentTerminal childSessionId status).Yields (fun _ => False) (HoldsTools P ·.1) := by
  unfold markSubagentTerminal
  dsimp only
  split
  . exact h
  . exact markSubagentToolTerminal_holds rules h _ _ _

theorem abandonActiveRun_holds : s.abandonActiveRun.Yields (fun _ => False) (HoldsTools P) := by
  unfold abandonActiveRun
  split
  . apply Except.Yields.bind (terminalizeActiveTools_holds rules h _)
    intro t h
    exact terminalizeUnresolvedSubagents_holds rules h _ _
  . exact h

theorem settleFinishedRun_holds (generation : Nat) (stopReason : StopReason)
    : (s.settleFinishedRun generation stopReason).Yields (fun _ => False) (HoldsTools P) := by
  unfold settleFinishedRun
  split
  . apply Except.Yields.bind (terminalizeActiveTools_holds rules h _)
    intro t h
    exact terminalizeUnresolvedSubagents_holds rules h _ _
  . exact terminalizeActiveTools_holds rules h _

omit rules in
theorem appendMessage_holds (messageId : String) (role : MessageRole) (content : String) (contentBlock : Option Json)
    : (s.appendMessage messageId role content contentBlock).Yields (fun _ => False) (HoldsTools P) := by
  unfold appendMessage
  split
  . apply HoldsTools.updateHistoryMessage
    exact h.congr rfl rfl
  . have hroom : s.makeRoomForMessage.Yields (fun _ => False) (HoldsTools P) := by
      unfold makeRoomForMessage
      split
      . split
        . simp
        . exact h.congr rfl rfl
      . exact h
    apply Except.Yields.bind hroom
    intro t h
    unfold insertMessage
    apply Except.Yields.bind (h.pushTimeline _ _)
    intro u h
    apply HoldsTools.updateHistoryMessage
    exact h.congr rfl rfl

omit rules in
theorem attachTurnUsage_holds (usage : BridgeTurnUsageSnapshot)
    : (s.attachTurnUsage usage).Yields (fun _ => False) (HoldsTools P) := by
  unfold attachTurnUsage
  split
  . exact h
  . split
    . exact h
    . apply HoldsTools.updateHistoryMessage
      exact h.congr rfl rfl

theorem apply_holds (event : CanonicalEvent) : (s.apply event).Yields (fun _ => False) (HoldsTools P) := by
  unfold apply
  split
  case h_1 =>
    apply Except.Yields.bind (abandonActiveRun_holds rules h)
    intro t h
    exact h.congr rfl rfl
  case h_2 =>
    split
    . apply Except.Yields.bind (settleFinishedRun_holds rules h _ _)
      intro t h
      exact h.congr rfl rfl
    . exact h
  case h_3 =>
    split
    . apply Except.Yields.bind (terminalizeActiveTools_holds rules h _)
      intro t h
      apply Except.Yields.bind (terminalizeUnresolvedSubagents_holds rules h _ _)
      intro u h
      exact h.congr rfl rfl
    . exact h
  case h_4 => exact appendMessage_holds h _ _ _ _
  case h_5 => exact applyTool_holds rules h _ _ _
  case h_8 =>
    apply attachTurnUsage_holds
    exact h.congr rfl rfl
  all_goals first | exact h | exact h.congr rfl rfl

theorem perform_holds (operation : Operation) : (s.perform operation).Yields (fun _ => False) (HoldsTools P) := by
  cases operation with
  | apply event => exact apply_holds rules h event
  | markSubagentTerminal childSessionId status =>
    apply Except.Yields.bind (markSubagentTerminal_holds rules h childSessionId status)
    intro result h
    exact h
  | markSubagentToolTerminal toolCallId status toolStatus =>
    apply Except.Yields.bind (markSubagentToolTerminal_holds rules h toolCallId status toolStatus)
    intro result h
    exact h
  | settleUnresolvedSubagentsWithoutRun => exact settleUnresolvedSubagentsWithoutRun_holds rules h

end

end SessionSnapshot

theorem Reachable.holdsTools {P : SnapshotTool → Prop} (rules : KeptByWrites P) {s : SessionSnapshot}
    (h : Reachable s)
    : s.HoldsTools P := by
  induction h with
  | new agentId threadId =>
    constructor
    . intro id tool htool
      have hempty : (∅ : TreeMap String SnapshotTool)[id]? = some tool := htool
      simp at hempty
    . intro entry hentry
      cases hentry
  | perform operation _ hok ih => exact (SessionSnapshot.perform_holds rules ih operation).of_ok hok
  | restore _ _ _ ih => exact ih.congr rfl rfl
  | reorder _ _ ih => exact ih.congr rfl rfl

end Snapshot
