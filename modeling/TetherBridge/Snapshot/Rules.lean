import TetherBridge.Snapshot.Apply
import TetherBridge.Data.Outcome

/-!
This module contains the rules for invariants of a snapshot: what has to be shown of an invariant so
that the operations on tools and the canonical events keep it.
-/

namespace Snapshot

open Acp Std

theorem lastIdx?_eq_some {p : α → Bool} {xs : List α} {i : Nat} (h : lastIdx? p xs = some i)
    : ∃ hi : i < xs.length, p xs[i] := by
  unfold lastIdx? at h
  simp only [Option.map_eq_some_iff, List.findIdx?_eq_some_iff_getElem] at h
  obtain ⟨j, ⟨hj, hp, -⟩, hi⟩ := h
  simp only [List.length_reverse] at hj
  subst hi
  refine ⟨by omega, ?_⟩
  rw [List.getElem_reverse] at hp
  exact hp

theorem lastIdx?_eq_none {p : α → Bool} {xs : List α} (h : lastIdx? p xs = none)
    : ∀ x ∈ xs, p x = false := by
  unfold lastIdx? at h
  rw [Option.map_eq_none_iff, List.findIdx?_eq_none_iff] at h
  intro x hx
  exact h x (List.mem_reverse.mpr hx)

variable {never : Panic → Prop} {I : SessionSnapshot → Prop}

/--
The invariant is kept when live tools are updated without adding or removing one, and when the tool of a
history entry is written.
-/
structure KeptByUpdates (never : Panic → Prop) (I : SessionSnapshot → Prop) : Prop where
  updateTools {s : SessionSnapshot} (h : I s) {tools : TreeMap String SnapshotTool}
      (hkeys : ∀ id, tools.contains id = s.tools.contains id) (activeToolIds subagentHeaders)
    : I { s with tools, activeToolIds, subagentHeaders }
  mutate {s : SessionSnapshot} (h : I s) {index : Nat} (hindex : index < s.history.length)
      {update : SnapshotHistoryEntry → SnapshotHistoryEntry}
      (hupdate : ∀ entry, ∃ tool, update entry = { entry with tool })
    : (s.mutateHistoryEntryAt index update).Yields never I

/--
The invariant does not depend on the tools, survives a shorter timeline, and is kept when the tool of
a history entry is written or shown again in the timeline.
-/
structure KeptByTools (never : Panic → Prop) (I : SessionSnapshot → Prop) : Prop where
  fullToolSnapshot : ¬never .fullToolSnapshot
  withTools {s : SessionSnapshot} (h : I s) (tools activeToolIds subagentHeaders)
    : I { s with tools, activeToolIds, subagentHeaders }
  filterTimeline {s : SessionSnapshot} (h : I s) (keep : SnapshotTimelineEntry → Bool)
    : I { s with timeline := s.timeline.filter keep }
  mutate {s : SessionSnapshot} (h : I s) {index : Nat} (hindex : index < s.history.length)
      {update : SnapshotHistoryEntry → SnapshotHistoryEntry}
      (hupdate : ∀ entry, ∃ tool, update entry = { entry with tool })
    : (s.mutateHistoryEntryAt index update).Yields never I
  insertTool {s : SessionSnapshot} (h : I s) {entry : SnapshotHistoryEntry}
      (hentry : entry ∈ s.history) (position : Nat)
    : I { s with
        timeline := s.timeline.insertIdx position
          { sequence := entry.sequence, kind := .tool, canonicalId := entry.canonicalId } }

theorem KeptByTools.updates (rules : KeptByTools never I) : KeptByUpdates never I where
  updateTools h _ _ activeToolIds subagentHeaders := rules.withTools h _ activeToolIds subagentHeaders
  mutate := rules.mutate

/--
Both snapshots agree on the messages, the timeline and the history.
-/
def SameTranscript (s t : SessionSnapshot) : Prop :=
  t.messages = s.messages ∧ t.timeline = s.timeline ∧ t.nextSequence = s.nextSequence
    ∧ t.history = s.history ∧ t.historyBytes = s.historyBytes
    ∧ t.unavailableCount = s.unavailableCount

/--
The invariant is about the transcript.
-/
structure KeptByEvents (never : Panic → Prop) (I : SessionSnapshot → Prop) : Prop extends
    KeptByTools never I where
  sameTranscript {s t : SessionSnapshot} (h : I s) (hsame : SameTranscript s t) : I t

/--
The invariant is about the transcript and about which tools are live.
-/
structure KeptByRuns (never : Panic → Prop) (I : SessionSnapshot → Prop) : Prop extends
    KeptByUpdates never I where
  sameTools {s t : SessionSnapshot} (h : I s) (hsame : SameTranscript s t)
      (htools : t.tools = s.tools)
    : I t

theorem KeptByEvents.runs (rules : KeptByEvents never I) : KeptByRuns never I where
  toKeptByUpdates := rules.toKeptByTools.updates
  sameTools h hsame _ := rules.sameTranscript h hsame

namespace SessionSnapshot

theorem lastHistoryIdx_lt {s : SessionSnapshot} {canonicalId : String} {index : Nat}
    (h : s.lastHistoryIdx canonicalId = some index)
    : index < s.history.length :=
  (lastIdx?_eq_some h).1

theorem historyMessageIdx_eq_some {s : SessionSnapshot} {id : String} {index : Nat}
    (h : s.historyMessageIdx id = some index)
    : ∃ hindex : index < s.history.length, s.history[index].canonicalId = id := by
  unfold historyMessageIdx lastHistoryIdx at h
  rw [Option.or_eq_some_iff] at h
  cases h with
  | inl h =>
    have hlast := lastIdx?_eq_some h
    refine ⟨hlast.1, ?_⟩
    have hid := hlast.2
    rw [Bool.and_eq_true, beq_iff_eq] at hid
    exact hid.1
  | inr h =>
    have hlast := lastIdx?_eq_some h.2
    exact ⟨hlast.1, by simpa using hlast.2⟩

theorem historyMessageIdx_eq_none {s : SessionSnapshot} {id : String}
    (h : s.historyMessageIdx id = none)
    : ∀ entry ∈ s.history, entry.canonicalId ≠ id := by
  unfold historyMessageIdx lastHistoryIdx at h
  rw [Option.or_eq_none_iff] at h
  intro entry hentry
  simpa using lastIdx?_eq_none h.2 entry hentry

theorem settleHistoryTool_eq (status : ToolCallStatus) (header : Option String)
    (entry : SnapshotHistoryEntry)
    : ∃ tool, settleHistoryTool status header entry = { entry with tool } := by
  unfold settleHistoryTool
  split
  . exact ⟨entry.tool, rfl⟩
  . exact ⟨_, rfl⟩

/-! The operations on tools -/

section

variable (rules : KeptByUpdates never I) {s : SessionSnapshot} (h : I s)
include rules h

/--
The tools stay as they are.
-/
theorem keepTools (activeToolIds : List String) (subagentHeaders : TreeMap String String)
    : I { s with activeToolIds, subagentHeaders } :=
  rules.updateTools h (fun _ => rfl) activeToolIds subagentHeaders

theorem insertLive_keeps {id : String} (hid : s.tools.contains id) (tool : SnapshotTool)
    : I { s with tools := s.tools.insert id tool } := by
  apply rules.updateTools h
  intro other
  rw [TreeMap.contains_insert]
  cases hother : compare id other == .eq with
  | false => rw [Bool.false_or]
  | true =>
    rw [beq_iff_eq, Std.compare_eq_iff_eq] at hother
    rw [← hother, hid, Bool.true_or]

theorem attachOrUpdateHistoryTool_keeps (tool : SnapshotTool)
    : (s.attachOrUpdateHistoryTool tool).Yields never I := by
  unfold attachOrUpdateHistoryTool
  dsimp only
  split
  . next hindex => exact rules.mutate h (lastHistoryIdx_lt hindex) fun entry => ⟨_, rfl⟩
  . exact h

theorem settleHistory_keeps (toolCallId : String) (status : ToolCallStatus) (header : Option String)
    : (s.settleHistory toolCallId status header).Yields never I := by
  unfold settleHistory
  split
  . next hindex =>
    apply rules.mutate h (lastHistoryIdx_lt hindex)
    exact settleHistoryTool_eq status header
  . exact h

theorem expireTombstone_keeps (expired : String) : (s.expireTombstone expired).Yields never I := by
  unfold expireTombstone
  apply Except.Yields.bind (settleHistory_keeps rules h _ _ _)
  intro s h
  apply keepTools rules h

theorem expireTombstones_keeps (rounds : Nat) : (expireTombstones rounds s).Yields never I := by
  induction rounds generalizing s with
  | zero => exact h
  | succ rounds ih =>
    unfold expireTombstones
    split
    . split
      . exact h
      . apply Except.Yields.bind (expireTombstone_keeps rules h _)
        intro s h
        exact ih h
    . exact h

theorem forgetIdleHeader_keeps (id : String) : I (s.forgetIdleHeader id) := by
  unfold forgetIdleHeader
  split
  . exact h
  . apply keepTools rules h

theorem trackTool_keeps (id : String) (generation : Option Nat) (terminal : Bool)
    : I (s.trackTool id generation terminal) := by
  unfold trackTool
  split
  . split <;> apply keepTools rules h
  . exact h

theorem projectTool_keeps (id : String) (generation : Option Nat) (projection : ToolProjection)
    (existing : Option SnapshotTool)
    : I (s.projectTool id generation projection existing).1 := by
  unfold projectTool
  dsimp only
  split <;> apply keepTools rules h

theorem settleRetainedTool_keeps (status : ToolCallStatus) (toolCallId : String)
    : (s.settleRetainedTool status toolCallId).Yields never I := by
  unfold settleRetainedTool
  split
  . exact h
  . exact settleHistory_keeps rules h _ _ _

theorem forgetRetainedHeader_keeps (toolCallId : String)
    : I (s.forgetRetainedHeader toolCallId) := by
  unfold forgetRetainedHeader
  split
  . exact h
  . apply keepTools rules h

theorem setToolStatus_keeps (status : ToolCallStatus) (toolCallId : String)
    : I (s.setToolStatus status toolCallId) := by
  unfold setToolStatus
  split
  . next tool htool =>
    apply insertLive_keeps rules h
    rw [TreeMap.contains_eq_isSome_getElem?, htool]
    rfl
  . exact h

omit rules in
theorem foldl_keeps {f : SessionSnapshot → String → SessionSnapshot}
    (hf : ∀ s id, I s → I (f s id)) (ids : List String)
    : I (ids.foldl f s) := by
  induction ids generalizing s with
  | nil => exact h
  | cons id ids ih => exact ih (hf s id h)

theorem terminalizeActiveTools_keeps (status : ToolCallStatus)
    : (s.terminalizeActiveTools status).Yields never I := by
  unfold terminalizeActiveTools
  dsimp only
  have hset := foldl_keeps h (fun _ id h => setToolStatus_keeps rules h status id) s.activeToolIds
  apply Except.Yields.bind (Except.yields_foldlM (fun _ tool h =>
    attachOrUpdateHistoryTool_keeps rules h tool) _ hset)
  intro t h
  apply Except.Yields.bind (Except.yields_foldlM (fun _ id h =>
    settleRetainedTool_keeps rules h status id) _ h)
  intro t h
  exact foldl_keeps h (fun _ id h => forgetRetainedHeader_keeps rules h id) _

theorem settleTool_keeps (toolCallId : String) (toolStatus : ToolCallStatus)
    (header : Option String)
    : (s.settleTool toolCallId toolStatus header).Yields never I := by
  unfold settleTool
  split
  . next tool htool =>
    apply attachOrUpdateHistoryTool_keeps rules
    apply insertLive_keeps rules h
    rw [TreeMap.contains_eq_isSome_getElem?, htool]
    rfl
  . exact settleHistory_keeps rules h _ _ _

theorem setHeaderState_keeps (toolCallId status : String)
    : I (s.setHeaderState toolCallId status) := by
  unfold setHeaderState
  split
  . apply keepTools rules h
  . exact h

theorem updateSubagentToolTerminal_keeps (toolCallId status : String) (toolStatus : ToolCallStatus)
    : (s.updateSubagentToolTerminal toolCallId status toolStatus).Yields never I := by
  unfold updateSubagentToolTerminal
  apply Except.Yields.bind (settleTool_keeps rules (setHeaderState_keeps rules h _ _) _ _ _)
  intro s h
  apply forgetRetainedHeader_keeps rules
  apply keepTools rules h

theorem terminalizeUnresolvedSubagents_keeps (status : String) (generation : Nat)
    : (s.terminalizeUnresolvedSubagents status generation).Yields never I := by
  unfold terminalizeUnresolvedSubagents
  apply Except.yields_foldlM
  . intro s id h
    exact updateSubagentToolTerminal_keeps rules h _ _ _
  . exact h

theorem settleUnresolvedSubagentsWithoutRun_keeps
    : s.settleUnresolvedSubagentsWithoutRun.Yields never I := by
  unfold settleUnresolvedSubagentsWithoutRun
  split
  . exact h
  . apply Except.yields_foldlM
    . intro s id h
      exact updateSubagentToolTerminal_keeps rules h _ _ _
    . exact h

theorem markSubagentToolTerminal_keeps (toolCallId status : String) (toolStatus : ToolCallStatus)
    : (s.markSubagentToolTerminal toolCallId status toolStatus).Yields never (I ·.1) := by
  unfold markSubagentToolTerminal
  split
  . apply Except.Yields.bind (updateSubagentToolTerminal_keeps rules h _ _ _)
    intro s h
    exact h
  . exact h

theorem markSubagentTerminal_keeps (childSessionId status : String)
    : (s.markSubagentTerminal childSessionId status).Yields never (I ·.1) := by
  unfold markSubagentTerminal
  dsimp only
  split
  . exact h
  . exact markSubagentToolTerminal_keeps rules h _ _ _

theorem abandonActiveRun_keeps : s.abandonActiveRun.Yields never I := by
  unfold abandonActiveRun
  split
  . apply Except.Yields.bind (terminalizeActiveTools_keeps rules h _)
    intro s h
    exact terminalizeUnresolvedSubagents_keeps rules h _ _
  . exact h

theorem settleFinishedRun_keeps (generation : Nat) (stopReason : StopReason)
    : (s.settleFinishedRun generation stopReason).Yields never I := by
  unfold settleFinishedRun
  split
  . apply Except.Yields.bind (terminalizeActiveTools_keeps rules h _)
    intro s h
    exact terminalizeUnresolvedSubagents_keeps rules h _ _
  . exact terminalizeActiveTools_keeps rules h _

end

/-! A tool event -/

section

variable (rules : KeptByTools never I) {s : SessionSnapshot}
include rules

theorem evictOldestTool_keeps (h : I s) : s.evictOldestTool.Yields never I := by
  unfold evictOldestTool
  split
  . exact rules.fullToolSnapshot
  . apply expireTombstones_keeps rules.updates
    apply rules.withTools (rules.filterTimeline h _)

theorem makeRoomForTool_keeps (h : I s) (id : String) : (s.makeRoomForTool id).Yields never I := by
  unfold makeRoomForTool
  split
  . exact evictOldestTool_keeps rules h
  . exact h

/-
A new tool may get a new entry, for which the state may have to be better than the invariant says:
until then it satisfies `J`.
-/
variable {J : SessionSnapshot → Prop} (before : KeptByTools never J) (hbefore : ∀ s, J s → I s)
  (h : J s) {id : String} (hpush : ∀ s, J s → (s.pushTimeline .tool id).Yields never I)

include before hbefore h hpush in
theorem placeNewTool_keeps : (s.placeNewTool id).Yields never (I ·.1) := by
  unfold placeNewTool placeTool
  split
  . exact hbefore s h
  . split
    . next entry hentry =>
      have hid := List.find?_some hentry
      simp only [Bool.and_eq_true, beq_iff_eq] at hid
      have hmem : entry ∈ s.history := by
        have := List.mem_of_find?_eq_some hentry
        rwa [List.mem_reverse] at this
      dsimp only
      rw [← hid.1]
      apply rules.withTools (rules.insertTool (hbefore s h) hmem _)
    . apply Except.Yields.bind (hpush _ (forgetIdleHeader_keeps before.updates h id))
      intro s h
      exact h

include before hbefore h hpush in
theorem applyTool_keeps (generation : Option Nat) (projection : ToolProjection)
    : (s.applyTool id generation projection).Yields never I := by
  unfold applyTool
  apply Except.Yields.bind (makeRoomForTool_keeps before h id)
  intro s h
  apply Except.Yields.bind (placeNewTool_keeps rules before hbefore h hpush)
  rintro ⟨s, retainedTool⟩ h
  apply attachOrUpdateHistoryTool_keeps rules.updates
  apply rules.withTools
  apply projectTool_keeps rules.updates
  exact trackTool_keeps rules.updates h _ _ _

end

/-! The events -/

section

variable (rules : KeptByRuns never I) {s : SessionSnapshot}
include rules

theorem apply_keeps (h : I s) (event : CanonicalEvent)
    (hchunk : ∀ id role content contentBlock, event.chunkId? = some id →
      (s.appendMessage id role content contentBlock).Yields never I)
    (htool : ∀ id generation projection, event.toolCallId? = some id →
      (s.applyTool id generation projection).Yields never I)
    (husage : ∀ s usage, I s → (s.attachTurnUsage usage).Yields never I)
    : (s.apply event).Yields never I := by
  have updates := rules.toKeptByUpdates
  have hsame : ∀ {s t}, I s → SameTranscript s t → t.tools = s.tools → I t := rules.sameTools
  unfold apply
  split
  case h_1 =>
    apply Except.Yields.bind (abandonActiveRun_keeps updates h)
    intro s h
    exact hsame h ⟨rfl, rfl, rfl, rfl, rfl, rfl⟩ rfl
  case h_2 =>
    split
    . apply Except.Yields.bind (settleFinishedRun_keeps updates h _ _)
      intro s h
      exact hsame h ⟨rfl, rfl, rfl, rfl, rfl, rfl⟩ rfl
    . exact h
  case h_3 =>
    split
    . apply Except.Yields.bind (terminalizeActiveTools_keeps updates h _)
      intro s h
      apply Except.Yields.bind (terminalizeUnresolvedSubagents_keeps updates h _ _)
      intro s h
      exact hsame h ⟨rfl, rfl, rfl, rfl, rfl, rfl⟩ rfl
    . exact h
  case h_4 => exact hchunk _ _ _ _ rfl
  case h_5 => exact htool _ _ _ rfl
  case h_8 =>
    apply husage
    exact hsame h ⟨rfl, rfl, rfl, rfl, rfl, rfl⟩ rfl
  all_goals first | exact h | exact hsame h ⟨rfl, rfl, rfl, rfl, rfl, rfl⟩ rfl

end

end SessionSnapshot

end Snapshot
