import Mathlib.Data.List.Induction
import TetherBridge.Snapshot.Prefix
import TetherBridge.Snapshot.Saturation
import TetherBridge.Snapshot.Shadowed

/-!
This module contains what the content of a tool call keeps of the texts its updates append. A tool call that
shows a task header is a sub-agent, and its header is rewritten as the sub-agent ends, so the tool calls here
have none.
-/

namespace Snapshot

open Acp Std

/--
The tool call is not updated with this operation.
-/
def Operation.SparesTool (id : String) : Operation → Prop
  | .apply event => event.toolCallId? ≠ some id
  | _ => True

namespace SessionSnapshot

variable {s t : SessionSnapshot} {id : String} {text : String} {truncated : Bool}

/--
The tool has no header, and while it is live, the content and the mark it has are these.
-/
structure PlainTool (id text : String) (truncated : Bool) (s : SessionSnapshot) : Prop where
  header : s.subagentHeaders[id]? = none
  live : ∀ tool, s.tools[id]? = some tool → tool.content = text ∧ tool.truncated = truncated

theorem getElem?_insert_of_ne {β : Type} {map : TreeMap String β} {id other : String} (hne : id ≠ other)
    (value : β)
    : (map.insert id value)[other]? = map[other]? := by
  rw [TreeMap.getElem?_insert, if_neg]
  rw [Std.compare_eq_iff_eq]
  exact hne

theorem getElem?_erase_of_eq_none {β : Type} {map : TreeMap String β} {other : String}
    (h : map[other]? = none) (id : String)
    : (map.erase id)[other]? = none := by
  rw [TreeMap.getElem?_erase, h, ite_self]

namespace PlainTool

theorem congr (h : s.PlainTool id text truncated) (htools : t.tools = s.tools)
    (hheaders : t.subagentHeaders = s.subagentHeaders)
    : t.PlainTool id text truncated := by
  constructor
  . rw [hheaders]
    exact h.header
  . rw [htools]
    exact h.live

theorem evicts (h : s.PlainTool id text truncated) {history : List SnapshotHistoryEntry}
    (hevicts : s.Evicts history t)
    : t.PlainTool id text truncated := by
  rcases hevicts with ⟨gone, historyBytes, unavailableCount, rfl⟩
  exact h.congr rfl rfl

theorem eraseHeader (h : s.PlainTool id text truncated) (other : String)
    : PlainTool id text truncated { s with subagentHeaders := s.subagentHeaders.erase other } where
  header := getElem?_erase_of_eq_none h.header other
  live := h.live

theorem insertHeader (h : s.PlainTool id text truncated) {other : String} (hne : other ≠ id) (header : String)
    : PlainTool id text truncated { s with subagentHeaders := s.subagentHeaders.insert other header } where
  header := (getElem?_insert_of_ne hne header).trans h.header
  live := h.live

/--
A tool is written that is another one, or has the same content and mark.
-/
theorem insertTool (h : s.PlainTool id text truncated) {other : String} {tool : SnapshotTool}
    (htool : other = id → tool.content = text ∧ tool.truncated = truncated)
    : PlainTool id text truncated { s with tools := s.tools.insert other tool } where
  header := h.header
  live written hwritten := by
    dsimp only at hwritten
    rw [TreeMap.getElem?_insert] at hwritten
    split at hwritten
    . next heq =>
      rw [Std.compare_eq_iff_eq] at heq
      injection hwritten with hwritten
      exact hwritten ▸ htool heq
    . exact h.live written hwritten

theorem eraseTool (h : s.PlainTool id text truncated) (other : String)
    : PlainTool id text truncated { s with tools := s.tools.erase other } where
  header := h.header
  live tool htool := by
    dsimp only at htool
    rw [TreeMap.getElem?_erase] at htool
    split at htool
    . contradiction
    . exact h.live tool htool

end PlainTool

/-! Operations that are about other tools -/

theorem attachOrUpdateHistoryTool_plain (h : s.PlainTool id text truncated) (tool : SnapshotTool)
    : (s.attachOrUpdateHistoryTool tool).Yields (fun _ => False) (PlainTool id text truncated) := by
  unfold attachOrUpdateHistoryTool
  dsimp only
  split
  . exact Except.Yields.mono (mutateHistoryEntryAt_evicts s _ _).anyError fun _ => h.evicts
  . exact h

theorem settleHistory_plain (h : s.PlainTool id text truncated) (toolCallId : String) (status : ToolCallStatus)
    (header : Option String)
    : (s.settleHistory toolCallId status header).Yields (fun _ => False) (PlainTool id text truncated) := by
  apply Except.Yields.mono (settleHistory_tools s toolCallId status header)
  rintro t ⟨htools, -, hheaders⟩
  exact h.congr htools hheaders

theorem expireTombstones_plain (h : s.PlainTool id text truncated) (rounds : Nat)
    : (expireTombstones rounds s).Yields (fun _ => False) (PlainTool id text truncated) := by
  induction rounds generalizing s with
  | zero => exact h
  | succ rounds ih =>
    unfold expireTombstones
    split
    . split
      . exact h
      . unfold expireTombstone
        rw [bind_assoc]
        apply Except.Yields.bind (settleHistory_plain h _ _ _)
        intro t ht
        exact ih ((ht.eraseHeader _).congr rfl rfl)
    . exact h

theorem makeRoomForTool_plain (h : s.PlainTool id text truncated) (other : String)
    : (s.makeRoomForTool other).Yields (fun _ => False) (PlainTool id text truncated) := by
  unfold makeRoomForTool evictOldestTool
  split
  . split
    . simp
    . next entry _ =>
      apply expireTombstones_plain
      split
      . exact ((h.eraseTool _).eraseHeader _).congr rfl rfl
      . exact (h.eraseTool _).congr rfl rfl
  . exact h

theorem pushTimeline_plain (h : s.PlainTool id text truncated) (kind : SnapshotTimelineKind) (canonicalId : String)
    : (s.pushTimeline kind canonicalId).Yields (fun _ => False) (PlainTool id text truncated) := by
  unfold pushTimeline
  apply Except.Yields.mono (pushHistory_evicts _ _).anyError
  intro t hevicts
  refine PlainTool.evicts ?_ hevicts
  cases kind <;> exact h.congr rfl rfl

theorem forgetIdleHeader_plain (h : s.PlainTool id text truncated) (other : String)
    : (s.forgetIdleHeader other).PlainTool id text truncated := by
  unfold forgetIdleHeader
  split
  . exact h
  . exact h.eraseHeader other

theorem placeNewTool_plain (h : s.PlainTool id text truncated) {other : String} (hne : other ≠ id)
    : (s.placeNewTool other).Yields (fun _ => False) (PlainTool id text truncated ·.1) := by
  unfold placeNewTool placeTool
  split
  . exact h
  . split
    . dsimp only
      change PlainTool id text truncated _
      split
      . exact (h.insertHeader hne _).congr rfl rfl
      . exact h.congr rfl rfl
    . apply Except.Yields.bind (pushTimeline_plain (forgetIdleHeader_plain h other) _ _)
      intro t ht
      exact ht

theorem trackTool_plain (h : s.PlainTool id text truncated) (other : String) (generation : Option Nat)
    (terminal : Bool)
    : (s.trackTool other generation terminal).PlainTool id text truncated := by
  unfold trackTool
  split
  . split <;> exact h.congr rfl rfl
  . exact h

theorem projectTool_plain (h : s.PlainTool id text truncated) {other : String} (hne : other ≠ id)
    (generation : Option Nat) (projection : ToolProjection) (existing : Option SnapshotTool)
    : (s.projectTool other generation projection existing).1.PlainTool id text truncated where
  header := (projectTool_headers (Ne.symm hne) generation projection existing).trans h.header
  live := by
    rw [(s.projectTool_same other generation projection existing).1]
    exact h.live

theorem applyTool_plain (h : s.PlainTool id text truncated) {other : String} (hne : other ≠ id)
    (generation : Option Nat) (projection : ToolProjection)
    : (s.applyTool other generation projection).Yields (fun _ => False) (PlainTool id text truncated) := by
  unfold applyTool
  apply Except.Yields.bind (makeRoomForTool_plain h other)
  intro s h
  apply Except.Yields.bind (placeNewTool_plain h hne)
  rintro ⟨s, retainedTool⟩ h
  apply attachOrUpdateHistoryTool_plain
  apply PlainTool.insertTool _ fun heq => absurd heq hne
  exact projectTool_plain (trackTool_plain h _ _ _) hne _ _ _

theorem setToolStatus_plain (h : s.PlainTool id text truncated) (status : ToolCallStatus) (toolCallId : String)
    : (s.setToolStatus status toolCallId).PlainTool id text truncated := by
  unfold setToolStatus
  split
  . next tool htool =>
    apply h.insertTool
    rintro rfl
    exact h.live tool htool
  . exact h

theorem settleRetainedTool_plain (h : s.PlainTool id text truncated) (status : ToolCallStatus)
    (toolCallId : String)
    : (s.settleRetainedTool status toolCallId).Yields (fun _ => False) (PlainTool id text truncated) := by
  unfold settleRetainedTool
  split
  . exact h
  . exact settleHistory_plain h _ _ _

theorem forgetRetainedHeader_plain (h : s.PlainTool id text truncated) (toolCallId : String)
    : (s.forgetRetainedHeader toolCallId).PlainTool id text truncated := by
  unfold forgetRetainedHeader
  split
  . exact h
  . exact h.eraseHeader _

theorem terminalizeActiveTools_plain (h : s.PlainTool id text truncated) (status : ToolCallStatus)
    : (s.terminalizeActiveTools status).Yields (fun _ => False) (PlainTool id text truncated) := by
  unfold terminalizeActiveTools
  dsimp only
  have hset := foldl_keeps h (fun _ toolCallId h => setToolStatus_plain h status toolCallId) s.activeToolIds
  apply Except.Yields.bind (Except.yields_foldlM (fun _ tool h =>
    attachOrUpdateHistoryTool_plain h tool) _ hset)
  intro t h
  apply Except.Yields.bind (Except.yields_foldlM (fun _ toolCallId h =>
    settleRetainedTool_plain h status toolCallId) _ h)
  intro t h
  exact foldl_keeps h (fun _ toolCallId h => forgetRetainedHeader_plain h toolCallId) _

theorem updateSubagentToolTerminal_plain (h : s.PlainTool id text truncated) (toolCallId status : String)
    (toolStatus : ToolCallStatus)
    : (s.updateSubagentToolTerminal toolCallId status toolStatus).Yields (fun _ => False)
        (PlainTool id text truncated) := by
  unfold updateSubagentToolTerminal
  dsimp only
  have hstate : (s.setHeaderState toolCallId status).PlainTool id text truncated := by
    unfold setHeaderState
    split
    . next header hheader =>
      apply h.insertHeader
      rintro rfl
      rw [h.header] at hheader
      contradiction
    . exact h
  generalize s.setHeaderState toolCallId status = u at hstate
  have hsettled : (u.settleTool toolCallId toolStatus u.subagentHeaders[toolCallId]?).Yields (fun _ => False)
      (PlainTool id text truncated) := by
    unfold settleTool
    split
    . next tool htool =>
      apply attachOrUpdateHistoryTool_plain
      apply hstate.insertTool
      rintro rfl
      -- without a header only the status is written
      rw [hstate.header]
      exact hstate.live tool htool
    . exact settleHistory_plain hstate _ _ _
  apply Except.Yields.bind hsettled
  intro t h
  apply forgetRetainedHeader_plain
  exact h.congr rfl rfl

theorem terminalizeUnresolvedSubagents_plain (h : s.PlainTool id text truncated) (status : String)
    (generation : Nat)
    : (s.terminalizeUnresolvedSubagents status generation).Yields (fun _ => False)
        (PlainTool id text truncated) := by
  unfold terminalizeUnresolvedSubagents
  exact Except.yields_foldlM (fun s toolCallId h => updateSubagentToolTerminal_plain h _ _ _) _ h

theorem settleUnresolvedSubagentsWithoutRun_plain (h : s.PlainTool id text truncated)
    : s.settleUnresolvedSubagentsWithoutRun.Yields (fun _ => False) (PlainTool id text truncated) := by
  unfold settleUnresolvedSubagentsWithoutRun
  split
  . exact h
  . exact Except.yields_foldlM (fun s settled h => updateSubagentToolTerminal_plain h _ _ _) _ h

theorem markSubagentToolTerminal_plain (h : s.PlainTool id text truncated) (toolCallId status : String)
    (toolStatus : ToolCallStatus)
    : (s.markSubagentToolTerminal toolCallId status toolStatus).Yields (fun _ => False)
        (PlainTool id text truncated ·.1) := by
  unfold markSubagentToolTerminal
  split
  . apply Except.Yields.bind (updateSubagentToolTerminal_plain h _ _ _)
    intro t h
    exact h
  . exact h

theorem markSubagentTerminal_plain (h : s.PlainTool id text truncated) (childSessionId status : String)
    : (s.markSubagentTerminal childSessionId status).Yields (fun _ => False)
        (PlainTool id text truncated ·.1) := by
  unfold markSubagentTerminal
  dsimp only
  split
  . exact h
  . exact markSubagentToolTerminal_plain h _ _ _

theorem abandonActiveRun_plain (h : s.PlainTool id text truncated)
    : s.abandonActiveRun.Yields (fun _ => False) (PlainTool id text truncated) := by
  unfold abandonActiveRun
  split
  . apply Except.Yields.bind (terminalizeActiveTools_plain h _)
    intro t h
    exact terminalizeUnresolvedSubagents_plain h _ _
  . exact h

theorem settleFinishedRun_plain (h : s.PlainTool id text truncated) (generation : Nat) (stopReason : StopReason)
    : (s.settleFinishedRun generation stopReason).Yields (fun _ => False) (PlainTool id text truncated) := by
  unfold settleFinishedRun
  split
  . apply Except.Yields.bind (terminalizeActiveTools_plain h _)
    intro t h
    exact terminalizeUnresolvedSubagents_plain h _ _
  . exact terminalizeActiveTools_plain h _

theorem updateHistoryMessage_plain (h : s.PlainTool id text truncated) (message : SnapshotMessage)
    : (s.updateHistoryMessage message).Yields (fun _ => False) (PlainTool id text truncated) := by
  unfold updateHistoryMessage
  split
  . exact Except.Yields.mono (mutateHistoryEntryAt_evicts s _ _).anyError fun _ => h.evicts
  . exact h

theorem appendMessage_plain (h : s.PlainTool id text truncated) (messageId : String) (role : MessageRole)
    (content : String) (contentBlock : Option Json)
    : (s.appendMessage messageId role content contentBlock).Yields (fun _ => False)
        (PlainTool id text truncated) := by
  unfold appendMessage
  split
  . apply updateHistoryMessage_plain
    exact h.congr rfl rfl
  . have hroom : s.makeRoomForMessage.Yields (fun _ => False) (PlainTool id text truncated) := by
      unfold makeRoomForMessage
      split
      . split
        . simp
        . exact h.congr rfl rfl
      . exact h
    apply Except.Yields.bind hroom
    intro t h
    unfold insertMessage
    apply Except.Yields.bind (pushTimeline_plain h _ _)
    intro u h
    apply updateHistoryMessage_plain
    exact h.congr rfl rfl

theorem attachTurnUsage_plain (h : s.PlainTool id text truncated) (usage : BridgeTurnUsageSnapshot)
    : (s.attachTurnUsage usage).Yields (fun _ => False) (PlainTool id text truncated) := by
  unfold attachTurnUsage
  split
  . exact h
  . split
    . exact h
    . apply updateHistoryMessage_plain
      exact h.congr rfl rfl

theorem apply_plain (h : s.PlainTool id text truncated) {event : CanonicalEvent}
    (hspares : event.toolCallId? ≠ some id)
    : (s.apply event).Yields (fun _ => False) (PlainTool id text truncated) := by
  unfold apply
  split
  case h_1 =>
    apply Except.Yields.bind (abandonActiveRun_plain h)
    intro t h
    exact h.congr rfl rfl
  case h_2 =>
    split
    . apply Except.Yields.bind (settleFinishedRun_plain h _ _)
      intro t h
      exact h.congr rfl rfl
    . exact h
  case h_3 =>
    split
    . apply Except.Yields.bind (terminalizeActiveTools_plain h _)
      intro t h
      apply Except.Yields.bind (terminalizeUnresolvedSubagents_plain h _ _)
      intro u h
      exact h.congr rfl rfl
    . exact h
  case h_4 => exact appendMessage_plain h _ _ _ _
  case h_5 => exact applyTool_plain h (fun heq => hspares (congrArg some heq)) _ _
  case h_8 =>
    apply attachTurnUsage_plain
    exact h.congr rfl rfl
  all_goals first | exact h | exact h.congr rfl rfl

theorem perform_plain (h : s.PlainTool id text truncated) {operation : Operation}
    (hspares : operation.SparesTool id)
    : (s.perform operation).Yields (fun _ => False) (PlainTool id text truncated) := by
  cases operation with
  | apply event => exact apply_plain h hspares
  | markSubagentTerminal childSessionId status =>
    apply Except.Yields.bind (markSubagentTerminal_plain h childSessionId status)
    intro result h
    exact h
  | markSubagentToolTerminal toolCallId status toolStatus =>
    apply Except.Yields.bind (markSubagentToolTerminal_plain h toolCallId status toolStatus)
    intro result h
    exact h
  | settleUnresolvedSubagentsWithoutRun => exact settleUnresolvedSubagentsWithoutRun_plain h

/-! An update of the tool -/

/--
The snapshot holds nothing of the tool.
-/
structure Unrecorded (id : String) (s : SessionSnapshot) : Prop where
  header : s.subagentHeaders[id]? = none
  live : s.tools[id]? = none
  kept : ∀ entry ∈ s.history, entry.canonicalId = id → entry.tool = none

namespace Unrecorded

theorem evicts (h : s.Unrecorded id) {history : List SnapshotHistoryEntry} (hevicts : s.Evicts history t)
    (hhistory : ∀ entry ∈ history, entry.canonicalId = id → entry.tool = none)
    : t.Unrecorded id := by
  rcases hevicts with ⟨gone, historyBytes, unavailableCount, rfl⟩
  exact ⟨h.header, h.live, fun entry hentry => hhistory entry (List.mem_of_mem_drop hentry)⟩

theorem settleHistory (h : s.Unrecorded id) (toolCallId : String) (status : ToolCallStatus)
    (header : Option String)
    : (s.settleHistory toolCallId status header).Yields (fun _ => False) (Unrecorded id) := by
  unfold SessionSnapshot.settleHistory
  split
  . apply Except.Yields.mono (mutateHistoryEntryAt_evicts s _ _).anyError
    intro t hevicts
    apply h.evicts hevicts
    intro entry' hentry' hid
    rcases mem_modify hentry' with ⟨entry, hentry, rfl | rfl⟩
    . exact h.kept entry' hentry hid
    . rcases settleHistoryTool_eq status header entry with ⟨tool, heq⟩
      rw [heq] at hid
      unfold settleHistoryTool
      rw [h.kept entry hentry hid]
      exact h.kept entry hentry hid
  . exact h

theorem expireTombstones (h : s.Unrecorded id) (rounds : Nat)
    : (SessionSnapshot.expireTombstones rounds s).Yields (fun _ => False) (Unrecorded id) := by
  induction rounds generalizing s with
  | zero => exact h
  | succ rounds ih =>
    unfold SessionSnapshot.expireTombstones
    split
    . split
      . exact h
      . unfold expireTombstone
        rw [bind_assoc]
        apply Except.Yields.bind (h.settleHistory _ _ _)
        intro t ht
        exact ih ⟨getElem?_erase_of_eq_none ht.header _, ht.live, ht.kept⟩
    . exact h

theorem makeRoomForTool (h : s.Unrecorded id) (other : String)
    : (s.makeRoomForTool other).Yields (fun _ => False) (Unrecorded id) := by
  unfold SessionSnapshot.makeRoomForTool evictOldestTool
  split
  . split
    . simp
    . apply expireTombstones
      refine ⟨?_, getElem?_erase_of_eq_none h.live _, h.kept⟩
      dsimp only
      split
      . exact getElem?_erase_of_eq_none h.header _
      . exact h.header
  . exact h

/--
A tool of which nothing is kept begins anew.
-/
theorem placeNewTool (h : s.Unrecorded id)
    : (s.placeNewTool id).Yields (fun _ => False) fun placed => placed.1.Unrecorded id ∧ placed.2 = none := by
  unfold SessionSnapshot.placeNewTool placeTool
  split
  . exact ⟨h, rfl⟩
  . split
    . next entry hentry =>
      have hkept := List.find?_some hentry
      rw [Bool.and_eq_true, beq_iff_eq] at hkept
      rw [h.kept entry (List.mem_reverse.mp (List.mem_of_find?_eq_some hentry)) hkept.1] at hkept
      exact absurd hkept.2 Bool.false_ne_true
    . have hforgot : (s.forgetIdleHeader id).Unrecorded id := by
        unfold forgetIdleHeader
        split
        . exact h
        . exact ⟨getElem?_erase_of_eq_none h.header _, h.live, h.kept⟩
      have hpushed : ((s.forgetIdleHeader id).pushTimeline .tool id).Yields (fun _ => False) (Unrecorded id) := by
        unfold pushTimeline
        apply Except.Yields.mono (pushHistory_evicts _ _).anyError
        intro t hevicts
        refine evicts ?_ hevicts ?_
        . exact ⟨hforgot.header, hforgot.live, hforgot.kept⟩
        . intro entry hentry hid
          rw [List.mem_append, List.mem_singleton] at hentry
          rcases hentry with hentry | rfl
          . exact hforgot.kept entry hentry hid
          . rfl
      apply Except.Yields.bind hpushed
      intro t ht
      exact ⟨ht, rfl⟩

end Unrecorded

/--
Whether the update cuts structured content or locations, which share the mark of the content.
-/
def valuesCut (tool : Option SnapshotTool) (structuredContent locations : FieldUpdate (List Json)) : Bool :=
  (applyToolValues ((tool.map (·.structuredContent)).getD []) structuredContent MAX_TOOL_STRUCTURED_ITEMS).2
    || (applyToolValues ((tool.map (·.locations)).getD []) locations MAX_TOOL_LOCATIONS).2

/--
An update that leaves the tool without a header adds its text.
-/
theorem projectTool_text (s : SessionSnapshot) (id : String) (generation : Option Nat) (projection : ToolProjection) (existing : Option SnapshotTool)
    (hplain : (s.projectTool id generation projection existing).1.subagentHeaders[id]? = none)
    : (s.projectTool id generation projection existing).2.content
          = (applyToolText ((existing.map (·.content)).getD "") projection.content).1
        ∧ (s.projectTool id generation projection existing).2.truncated
          = (existing.any (·.truncated)
            || (applyToolText ((existing.map (·.content)).getD "") projection.content).2
            || valuesCut existing projection.structuredContent projection.locations) := by
  unfold projectTool at hplain ⊢
  unfold valuesCut
  dsimp only at hplain ⊢
  split at hplain
  . next hreplayed =>
    rw [if_pos hreplayed]
    dsimp only at hplain ⊢
    rw [hplain, Option.map_none, Option.getD_none]
    exact ⟨rfl, Bool.or_assoc _ _ _⟩
  . next hreplayed =>
    rw [if_neg hreplayed]
    exact ⟨rfl, Bool.or_assoc _ _ _⟩

theorem attachOrUpdateHistoryTool_frame (s : SessionSnapshot) (tool : SnapshotTool)
    : (s.attachOrUpdateHistoryTool tool).Yields (fun _ => False) fun t =>
        t.subagentHeaders = s.subagentHeaders ∧ t.tools = s.tools := by
  unfold attachOrUpdateHistoryTool
  dsimp only
  split
  . apply Except.Yields.mono (mutateHistoryEntryAt_evicts s _ _).anyError
    rintro t ⟨gone, historyBytes, unavailableCount, rfl⟩
    exact ⟨rfl, rfl⟩
  . exact ⟨rfl, rfl⟩

/--
The tool is placed with what is recorded of it, and written.
-/
theorem writeTool_plain (s : SessionSnapshot) (id : String) (generation : Option Nat)
    (projection : ToolProjection) (existing : Option SnapshotTool)
    : (attachOrUpdateHistoryTool
        { (s.projectTool id generation projection existing).1 with
          tools := (s.projectTool id generation projection existing).1.tools.insert id
            (s.projectTool id generation projection existing).2 }
        (s.projectTool id generation projection existing).2).Yields (fun _ => False) fun t =>
          t.tools.contains id ∧ (t.subagentHeaders[id]? = none →
            t.PlainTool id (applyToolText ((existing.map (·.content)).getD "") projection.content).1
              (existing.any (·.truncated)
                || (applyToolText ((existing.map (·.content)).getD "") projection.content).2
                || valuesCut existing projection.structuredContent projection.locations)) := by
  have htext := s.projectTool_text id generation projection existing
  generalize s.projectTool id generation projection existing = projected at htext
  rcases projected with ⟨u, tool⟩
  dsimp only at htext ⊢
  have hwritten := attachOrUpdateHistoryTool_frame { u with tools := u.tools.insert id tool } tool
  cases hok : attachOrUpdateHistoryTool { u with tools := u.tools.insert id tool } tool with
  | error e => simp
  | ok t =>
    rcases hwritten.of_ok hok with ⟨hheaders, htools⟩
    dsimp only at hheaders htools
    refine ⟨?_, ?_⟩
    . rw [htools, TreeMap.contains_insert_self]
    intro hplain
    rw [hheaders] at hplain
    have hkept : PlainTool id tool.content tool.truncated { u with tools := u.tools.insert id tool } := by
      refine ⟨hplain, ?_⟩
      intro written hlive
      dsimp only at hlive
      rw [TreeMap.getElem?_insert_self] at hlive
      injection hlive with hlive
      rw [hlive]
      exact ⟨rfl, rfl⟩
    rw [← (htext hplain).1, ← (htext hplain).2]
    exact (attachOrUpdateHistoryTool_plain hkept tool).of_ok hok

/--
What the snapshot has of the tool when an update comes: the live tool, or nothing.
-/
def Has (existing : Option SnapshotTool) (id : String) (s : SessionSnapshot) : Prop :=
  s.tools[id]? = existing ∧ (existing = none → s.Unrecorded id)

theorem applyTool_text {existing : Option SnapshotTool} (h : s.Has existing id) (generation : Option Nat)
    (projection : ToolProjection)
    : (s.applyTool id generation projection).Yields (fun _ => False) fun t =>
        t.tools.contains id ∧ (t.subagentHeaders[id]? = none →
          t.PlainTool id (applyToolText ((existing.map (·.content)).getD "") projection.content).1
            (existing.any (·.truncated)
              || (applyToolText ((existing.map (·.content)).getD "") projection.content).2
              || valuesCut existing projection.structuredContent projection.locations)) := by
  rcases h with ⟨hlive, hnone⟩
  unfold applyTool
  have hplaced : (s.makeRoomForTool id >>= fun t => t.placeNewTool id).Yields (fun _ => False)
      fun (placed : SessionSnapshot × Option SnapshotTool) => placed.1.tools[id]?.or placed.2 = existing := by
    cases existing with
    | some tool =>
      have hcontains : s.tools.contains id = true := by
        rw [TreeMap.contains_eq_isSome_getElem?, hlive]
        rfl
      unfold makeRoomForTool placeNewTool
      rw [hcontains, Bool.not_true, Bool.and_false, if_neg Bool.false_ne_true]
      change Except.Yields _ _ (if _ then _ else _)
      rw [if_pos hcontains]
      change s.tools[id]?.or none = _
      rw [hlive]
      rfl
    | none =>
      apply Except.Yields.bind ((hnone rfl).makeRoomForTool id)
      intro t ht
      apply Except.Yields.mono ht.placeNewTool
      rintro ⟨u, retained⟩ ⟨hu, hretained⟩
      dsimp only at hu hretained ⊢
      rw [hu.live, hretained]
      rfl
  rw [← bind_assoc]
  apply Except.Yields.bind hplaced
  rintro ⟨u, retained⟩ hexisting
  dsimp only at hexisting ⊢
  have htools : (u.trackTool id generation (isTerminalStatus projection.status)).tools = u.tools := by
    unfold trackTool
    split
    . split <;> rfl
    . rfl
  rw [htools, hexisting]
  exact writeTool_plain _ id generation projection existing

/--
What an update has for the content: text to append, or nothing.
-/
def appendUpdate : Option String → FieldUpdate String
  | some chunk => .append chunk
  | none => .unchanged

/--
A run in which updates append the chunks to the content of a tool, which is live from the first one on and
shows no task header. It is noted whether an update cuts structured content or locations.
-/
inductive AddsToolText (id : String) (s : SessionSnapshot) : List String → Bool → SessionSnapshot → Prop where
  | start : AddsToolText id s [] false s
  | update {chunks : List String} {cut : Bool} {t u : SessionSnapshot} {agentId threadId : String}
      {runId sourceTurnId : Option String} {generation : Option Nat} {kind : ToolKind} {status : ToolCallStatus}
      {title : String} {content : Option String} {structuredContent locations : FieldUpdate (List Json)}
      (h : AddsToolText id s chunks cut t)
      (hok : t.apply (.tool agentId threadId runId sourceTurnId generation id kind status title
        (appendUpdate content) structuredContent locations) = .ok u)
      (hplain : u.subagentHeaders[id]? = none)
    : AddsToolText id s (chunks ++ content.toList) (cut || valuesCut t.tools[id]? structuredContent locations) u
  | other {chunks : List String} {cut : Bool} {t u : SessionSnapshot} {operation : Operation}
      (h : AddsToolText id s chunks cut t) (hspares : operation.SparesTool id)
      (hok : t.perform operation = .ok u) (hbefore : t.tools.contains id) (hlive : u.tools.contains id)
    : AddsToolText id s chunks cut u
  | reorder {chunks : List String} {cut : Bool} {t : SessionSnapshot} {activeToolIds : List String}
      (h : AddsToolText id s chunks cut t) (hperm : activeToolIds.Perm t.activeToolIds)
    : AddsToolText id s chunks cut { t with activeToolIds }

/--
Where the run begins: nothing is recorded of the tool, or it is live with a text that is whole.
-/
def StartsFrom (id base : String) (s : SessionSnapshot) : Prop :=
  (s.Unrecorded id ∧ base = "")
    ∨ ∃ tool, s.tools[id]? = some tool ∧ s.subagentHeaders[id]? = none ∧ tool.content = base
      ∧ tool.truncated = false ∧ base.utf8ByteSize ≤ MAX_TOOL_TEXT_BYTES

theorem StartsFrom.size_le {base : String} (h : s.StartsFrom id base)
    : base.utf8ByteSize ≤ MAX_TOOL_TEXT_BYTES := by
  rcases h with ⟨-, rfl⟩ | ⟨-, -, -, -, -, hle⟩
  . decide
  . exact hle

/--
An update adds its text to all that was appended before.
-/
theorem applyToolText_appendUpdate (chunks : List String) (base : String) (content : Option String)
    : (applyToolText (appendAll MAX_TOOL_TEXT_BYTES chunks base) (appendUpdate content)).1
          = appendAll MAX_TOOL_TEXT_BYTES (chunks ++ content.toList) base
        ∧ (anyCut MAX_TOOL_TEXT_BYTES chunks base
            || (applyToolText (appendAll MAX_TOOL_TEXT_BYTES chunks base) (appendUpdate content)).2)
          = anyCut MAX_TOOL_TEXT_BYTES (chunks ++ content.toList) base := by
  cases content with
  | none =>
    rw [Option.toList_none, List.append_nil]
    exact ⟨rfl, Bool.or_false _⟩
  | some chunk =>
    rw [Option.toList_some, appendAll_append, anyCut_append]
    exact ⟨rfl, rfl⟩

theorem AddsToolText.plain {chunks : List String} {cut : Bool} (h : AddsToolText id s chunks cut t) {base : String}
    (hstart : s.StartsFrom id base)
    : (t.Unrecorded id ∧ base = "" ∧ chunks = [] ∧ cut = false)
        ∨ (t.tools.contains id
          ∧ t.PlainTool id (appendAll MAX_TOOL_TEXT_BYTES chunks base)
            (anyCut MAX_TOOL_TEXT_BYTES chunks base || cut)) := by
  induction h with
  | start =>
    rcases hstart with ⟨hnone, rfl⟩ | ⟨tool, htool, hheader, hcontent, htruncated, -⟩
    . exact .inl ⟨hnone, rfl, rfl, rfl⟩
    . right
      refine ⟨?_, hheader, ?_⟩
      . rw [TreeMap.contains_eq_isSome_getElem?, htool]
        rfl
      . intro live hlive
        rw [htool] at hlive
        injection hlive with hlive
        subst hlive
        exact ⟨hcontent, htruncated⟩
  | @update chunks cut t u _ _ _ _ generation kind status title content structuredContent locations _ hok hplain ih =>
    right
    have happly : t.applyTool id generation
        { kind, status, title, content := appendUpdate content, structuredContent, locations } = .ok u := hok
    rcases ih with ⟨hnone, rfl, rfl, rfl⟩ | ⟨hlive, hbefore⟩
    . have hhas : t.Has none id := ⟨hnone.live, fun _ => hnone⟩
      rcases (applyTool_text hhas generation _).of_ok happly with ⟨hcontains, htext⟩
      have hadded := applyToolText_appendUpdate [] "" content
      refine ⟨hcontains, ?_⟩
      rw [← hadded.1, ← hadded.2, hnone.live]
      exact htext hplain
    . rw [TreeMap.contains_eq_isSome_getElem?, Option.isSome_iff_exists] at hlive
      rcases hlive with ⟨tool, htool⟩
      have hhas : t.Has (some tool) id := ⟨htool, fun hnone => absurd hnone (Option.some_ne_none tool)⟩
      rcases (applyTool_text hhas generation _).of_ok happly with ⟨hcontains, htext⟩
      rcases hbefore.live tool htool with ⟨hcontent, htruncated⟩
      have hadded := applyToolText_appendUpdate chunks base content
      have hafter := htext hplain
      dsimp only [Option.map_some, Option.getD_some, Option.any_some] at hafter
      rw [hcontent, htruncated] at hafter
      refine ⟨hcontains, ?_⟩
      rw [← hadded.1, ← hadded.2, htool]
      have hmark : ∀ a b c d : Bool, (a || b || (c || d)) = (a || c || b || d) := by
        decide
      rw [hmark]
      exact hafter
  | other _ hspares hok hbefore hlive ih =>
    right
    rcases ih with ⟨hnone, -⟩ | ⟨-, hplain⟩
    . rw [TreeMap.contains_eq_isSome_getElem?, hnone.live] at hbefore
      contradiction
    . exact ⟨hlive, (perform_plain hplain hspares).of_ok hok⟩
  | reorder _ _ ih =>
    rcases ih with hnone | hlive
    . exact .inl ⟨⟨hnone.1.header, hnone.1.live, hnone.1.kept⟩, hnone.2⟩
    . exact .inr ⟨hlive.1, hlive.2.congr rfl rfl⟩

theorem AddsToolText.keepsText_iff {chunks : List String} {cut : Bool} (h : AddsToolText id s chunks cut t)
    {base : String} (hstart : s.StartsFrom id base) {tool : SnapshotTool} (htool : t.tools[id]? = some tool)
    : StoresPrefix MAX_TOOL_TEXT_BYTES base.toList chunks tool.content tool.truncated
        ↔ FillsNoGap MAX_TOOL_TEXT_BYTES base.toList chunks
          ∧ (cut = true → MAX_TOOL_TEXT_BYTES < Text.size (base.toList ++ joined chunks)) := by
  have hlive := (h.plain hstart).resolve_left fun hnone => by
    rw [hnone.1.live] at htool
    contradiction
  rcases hlive.2.live tool htool with ⟨hcontent, htruncated⟩
  have hiff := storesPrefix_iff chunks hstart.size_le
  have hstored : FillsNoGap MAX_TOOL_TEXT_BYTES base.toList chunks →
      ((appendAll MAX_TOOL_TEXT_BYTES chunks base).toList ≠ base.toList ++ joined chunks
        ↔ MAX_TOOL_TEXT_BYTES < Text.size (base.toList ++ joined chunks)) := by
    intro hfills
    rw [toList_appendAll (Text.takeBytes_of_le (Text.utf8ByteSize_eq base ▸ hstart.size_le)).symm hfills]
    exact Text.takeBytes_ne_iff
  rw [hcontent, htruncated]
  constructor
  . intro hstores
    have hfills := fillsNoGap_of_prefix
      (Text.takeBytes_of_le (Text.utf8ByteSize_eq base ▸ hstart.size_le)).symm hstores.isPrefix
    refine ⟨hfills, ?_⟩
    rintro rfl
    rw [← hstored hfills, ← hstores.truncated, Bool.or_true]
  . rintro ⟨hfills, hcut⟩
    have hstores := hiff.mpr hfills
    refine ⟨hstores.size, hstores.isPrefix, ?_⟩
    rw [Bool.or_eq_true, hstores.truncated]
    constructor
    . rintro (hne | hcut')
      . exact hne
      . exact (hstored hfills).mpr (hcut hcut')
    . exact .inl

theorem escapedBytes_le (c : Char) : Json.escapedBytes c ≤ 6 * c.utf8Size := by
  have hpos := c.utf8Size_pos
  unfold Json.escapedBytes
  split
  . omega
  . split
    . split <;> omega
    . omega

theorem stringBytes_le (text : String) : Json.stringBytes text ≤ 2 + 6 * text.utf8ByteSize := by
  have hsum : ∀ cs : List Char, (cs.map Json.escapedBytes).sum ≤ 6 * Text.size cs := by
    intro cs
    induction cs with
    | nil => exact Nat.zero_le _
    | cons c cs ih =>
      have hc := escapedBytes_le c
      simp only [Text.size, List.map_cons, List.sum_cons] at ih ⊢
      omega
  unfold Json.stringBytes
  rw [Text.utf8ByteSize_eq]
  exact Nat.add_le_add_left (hsum _) 2

def textMessage (id text : String) (truncated : Bool) : SnapshotMessage :=
  { id, role := .agent, parts := textParts text, truncated, usage := none }

theorem bytes_textMessage {id text : String} (hid : Json.stringBytes id ≤ 5)
    (htext : text.utf8ByteSize ≤ MAX_TEXT_BYTES) (truncated : Bool)
    : (textMessage id text truncated).toJson.bytes ≤ MAX_HISTORY_BYTES := by
  have hkey : Json.stringBytes "id" = 4 := by decide
  have hrole : Json.stringBytes "role" = 6 := by decide
  have hagent : Json.stringBytes "agent" = 7 := by decide
  have hparts : Json.stringBytes "parts" = 7 := by decide
  have htruncated : Json.stringBytes "truncated" = 11 := by decide
  have husage : Json.stringBytes "usage" = 7 := by decide
  have htype : Json.stringBytes "type" = 6 := by decide
  have htextKey : Json.stringBytes "text" = 6 := by decide
  have hbytes := stringBytes_le text
  have hmax : 200 + 6 * MAX_TEXT_BYTES ≤ MAX_HISTORY_BYTES := by decide
  have hpart : Json.valuesBytes (textParts text) ≤ 100 + 6 * MAX_TEXT_BYTES := by
    unfold textParts
    split
    . exact Nat.zero_le _
    . simp only [textPart, Json.valuesBytes, Json.bytes, Json.fieldsBytes, htype, htextKey]
      omega
  have hflag : (if truncated then 4 else 5) ≤ 5 := by
    split <;> omega
  simp only [SnapshotMessage.toJson, textMessage, Json.bytes, Json.fieldsBytes,
    roleName, optionJson, hkey, hrole, hagent, hparts, htruncated, husage]
  omega

theorem withChunk_textMessage (id : String) {text : String} (htext : text.utf8ByteSize ≤ MAX_TEXT_BYTES)
    (truncated : Bool) (chunk : String)
    : withChunk (textMessage id text truncated) chunk none
        = textMessage id (boundedAppend text chunk MAX_TEXT_BYTES).1
            (truncated || (boundedAppend text chunk MAX_TEXT_BYTES).2) := by
  have hopens : OpensText [] := rfl
  have happend := appendMessageText_textParts hopens (by decide) htext chunk
  rw [List.nil_append, List.nil_append] at happend
  unfold withChunk appendChunk textMessage
  rw [happend]

theorem updateHistoryMessage_textMessage (hbounded : s.Bounded) {text : String}
    (hid : Json.stringBytes id ≤ 5) (htext : text.utf8ByteSize ≤ MAX_TEXT_BYTES) (truncated : Bool)
    : (s.updateHistoryMessage (textMessage id text truncated)).Yields (fun _ => True) fun t =>
        t.Bounded ∧ t.messages = s.messages := by
  have hbytes := bytes_textMessage hid htext truncated
  apply Except.Yields.mono ((updateHistoryMessage_succeeds hbounded hbytes).and
    ((updateHistoryMessage_keeps hbounded _).and (updateHistoryMessage_messages s _)))
  rintro t ⟨-, hkept, hmessages⟩
  exact ⟨hkept, hmessages⟩

/--
A chunk of a message that is the only one is always taken.
-/
theorem appendMessage_textMessage (hbounded : s.Bounded) {text : String} {truncated : Bool} (hid : Json.stringBytes id ≤ 5) (htext : text.utf8ByteSize ≤ MAX_TEXT_BYTES)
    (hmessages : s.messages = [] ∧ s.nextSequence ≤ U64_MAX ∧ text = "" ∧ truncated = false
      ∨ s.messages = [textMessage id text truncated])
    (chunk : String)
    : (s.appendMessage id .agent chunk none).Yields (fun _ => True) fun t =>
        t.Bounded ∧ t.messages = [textMessage id (boundedAppend text chunk MAX_TEXT_BYTES).1
          (truncated || (boundedAppend text chunk MAX_TEXT_BYTES).2)] := by
  have hadded := withChunk_textMessage id htext truncated chunk
  have hsize : (boundedAppend text chunk MAX_TEXT_BYTES).1.utf8ByteSize ≤ MAX_TEXT_BYTES :=
    size_boundedAppend_le htext
  rcases hmessages with ⟨hnone, hle, rfl, rfl⟩ | hone
  . unfold appendMessage
    rw [hnone, List.find?_nil]
    dsimp only
    have hroom : s.makeRoomForMessage = .ok s := by
      unfold makeRoomForMessage
      rw [hnone]
      rfl
    rw [hroom]
    change (s.insertMessage id .agent chunk none).Yields _ _
    unfold insertMessage
    have hentry : (s.newEntry .message id).bytes ≤ ISIZE_MAX :=
      Nat.le_trans (bytes_newEntry hle hid) (by decide)
    apply Except.Yields.bind ((pushTimeline_succeeds hbounded hentry).and
      ((pushTimeline_keeps hbounded .message id).and (pushTimeline_messages s .message id)))
    rintro t ⟨-, hkept, hsame⟩
    change (updateHistoryMessage
      { t with messages := t.messages ++ [withChunk (textMessage id "" false) chunk none] }
      (withChunk (textMessage id "" false) chunk none)).Yields _ _
    rw [hadded, hsame, hnone, List.nil_append]
    apply updateHistoryMessage_textMessage _ hid hsize
    exact hkept
  . unfold appendMessage
    rw [hone, List.find?_cons_of_pos (by exact beq_self_eq_true id)]
    dsimp only
    have hidx : [textMessage id text truncated].findIdx (·.id == id) = 0 := by
      rw [List.findIdx_cons]
      have : (textMessage id text truncated).id == id := beq_self_eq_true id
      rw [this]
      rfl
    rw [hidx, List.set_cons_zero]
    change (updateHistoryMessage
      { s with messages := [withChunk (textMessage id text truncated) chunk none] }
      (withChunk (textMessage id text truncated) chunk none)).Yields _ _
    rw [hadded]
    apply updateHistoryMessage_textMessage _ hid hsize
    exact hbounded

theorem exists_addsText (hid : Json.stringBytes id ≤ 5) (chunks : List String)
    : ∃ t, AddsText id (.new "agent" "thread") chunks t ∧ t.Bounded
        ∧ ∃ text truncated, text.utf8ByteSize ≤ MAX_TEXT_BYTES
          ∧ (t.messages = [] ∧ t.nextSequence ≤ U64_MAX ∧ text = "" ∧ truncated = false
            ∨ t.messages = [textMessage id text truncated]) := by
  induction chunks using List.reverseRecOn with
  | nil =>
    refine ⟨_, .start, (Reachable.new "agent" "thread").bounded, "", false, by decide, .inl ?_⟩
    exact ⟨rfl, Nat.zero_le _, rfl, rfl⟩
  | append_singleton chunks chunk ih =>
    rcases ih with ⟨t, hadds, hbounded, text, truncated, htext, hmessages⟩
    have hsucceeds := appendMessage_textMessage hbounded hid htext hmessages chunk
    cases hok : t.appendMessage id .agent chunk none with
    | error e =>
      rw [hok] at hsucceeds
      exact absurd trivial hsucceeds
    | ok u =>
      have hafter := hsucceeds.of_ok hok
      have happly : t.apply (.messageChunk "agent" "thread" none none none .agent id chunk none) = .ok u := hok
      exact ⟨u, .chunk hadds happly, hafter.1, _, _, size_boundedAppend_le htext, .inr hafter.2⟩

/--
Two bytes of room are left where a character of three is cut off, and a further character fills them.
-/
def gapChunks : List String :=
  [String.ofList (List.replicate (MAX_TEXT_BYTES - 2) 'a'), "€", "a"]

theorem size_replicate (n : Nat) (c : Char) : Text.size (List.replicate n c) = n * c.utf8Size := by
  simp [Text.size]

theorem not_fillsNoGap_gapChunks : ¬FillsNoGap MAX_TEXT_BYTES [] gapChunks := by
  intro hfills
  have hlast := hfills.2.2.1
  rw [String.toList_ofList, List.nil_append] at hlast
  have hsize : Text.size (List.replicate (MAX_TEXT_BYTES - 2) 'a') = MAX_TEXT_BYTES - 2 := by
    rw [size_replicate]
    rfl
  generalize List.replicate (MAX_TEXT_BYTES - 2) 'a' = filling at hlast hsize
  have heuro : Text.size "€".toList = 3 := by decide
  have hkept : Text.takeBytes MAX_TEXT_BYTES (filling ++ "€".toList) = filling := by
    rw [Text.takeBytes_append_of_le (by omega), hsize]
    exact List.append_nil filling
  rw [hkept, hsize, Text.size_append, hsize, heuro] at hlast
  exact hlast (by decide) (by decide)

end SessionSnapshot

end Snapshot
