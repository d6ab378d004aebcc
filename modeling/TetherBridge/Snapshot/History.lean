import TetherBridge.Snapshot.Rules
import TetherBridge.Data.Weigh
import TetherBridge.Data.Window

/-!
This module contains the representation invariant of the history: it is a window of consecutive
sequences up to `next_sequence`, its bytes are counted exactly, and both of its bounds hold.
-/

namespace Snapshot

open Acp List

/--
What an entry counts in `history_bytes`.
-/
def SnapshotHistoryEntry.bytes (entry : SnapshotHistoryEntry) : Nat :=
  entry.toJson.bytes

/--
The calls from outside that write the transcript.
-/
inductive Operation where
  | apply (event : CanonicalEvent)
  | markSubagentTerminal (childSessionId status : String)
  | markSubagentToolTerminal (toolCallId status : String) (toolStatus : ToolCallStatus)
  | settleUnresolvedSubagentsWithoutRun

def SessionSnapshot.perform (s : SessionSnapshot) : Operation → Except Panic SessionSnapshot
  | .apply event => s.apply event
  | .markSubagentTerminal childSessionId status => do
    let (s, _) ← s.markSubagentTerminal childSessionId status
    return s
  | .markSubagentToolTerminal toolCallId status toolStatus => do
    let (s, _) ← s.markSubagentToolTerminal toolCallId status toolStatus
    return s
  | .settleUnresolvedSubagentsWithoutRun => s.settleUnresolvedSubagentsWithoutRun

/--
The snapshots a session can hold. The active tool ids are a hash set, which may iterate in any order.
-/
inductive Reachable : SessionSnapshot → Prop where
  | new (agentId threadId : String) : Reachable (.new agentId threadId)
  | perform {s t : SessionSnapshot} (operation : Operation) (h : Reachable s)
      (hok : s.perform operation = .ok t)
    : Reachable t
  | restore {s previous : SessionSnapshot} (h : Reachable s) (hprevious : Reachable previous)
    : Reachable (s.restoreTranscriptFrom previous)
  | reorder {s : SessionSnapshot} {activeToolIds : List String} (h : Reachable s)
      (hperm : activeToolIds.Perm s.activeToolIds)
    : Reachable { s with activeToolIds }

/--
The window of a history. The sequences are the ones given out as long as `next_sequence` has not
saturated.
-/
structure WindowedAt (history : List SnapshotHistoryEntry) (historyBytes unavailableCount
    nextSequence : Nat) : Prop where
  sequences : nextSequence < U64_MAX → Consecutive (·.sequence) unavailableCount history
  next : nextSequence < U64_MAX → unavailableCount + history.length = nextSequence
  bytes : historyBytes = weigh SnapshotHistoryEntry.bytes history

/--
The invariant on the four fields of the snapshot that make up the history.
-/
structure BoundedAt (history : List SnapshotHistoryEntry) (historyBytes unavailableCount
    nextSequence : Nat) : Prop extends
    WindowedAt history historyBytes unavailableCount nextSequence where
  length_le : history.length ≤ MAX_HISTORY_ENTRIES
  bytes_le : historyBytes ≤ MAX_HISTORY_BYTES

def SessionSnapshot.Bounded (s : SessionSnapshot) : Prop :=
  BoundedAt s.history s.historyBytes s.unavailableCount s.nextSequence

/--
The operation keeps the invariant, and its history bound never finds the history empty.
-/
def KeepsBounded (r : Except Panic SessionSnapshot) : Prop :=
  r.Yields (· = .boundedHistoryNonempty) SessionSnapshot.Bounded

theorem historyEntryBytes_yields (entry : SnapshotHistoryEntry)
    : (historyEntryBytes entry).Yields (· = .boundedHistoryNonempty)
        fun bytes => bytes = entry.bytes ∧ bytes ≤ ISIZE_MAX := by
  unfold historyEntryBytes
  split
  . next hle => exact ⟨rfl, hle⟩
  . simp

theorem BoundedAt.push {history : List SnapshotHistoryEntry}
    {historyBytes unavailableCount nextSequence : Nat}
    (h : BoundedAt history historyBytes unavailableCount nextSequence)
    {entry : SnapshotHistoryEntry} (hsequence : entry.sequence = nextSequence)
    (hbytes : entry.bytes ≤ ISIZE_MAX)
    : WindowedAt (history ++ [entry]) (saturatingAdd USIZE_MAX historyBytes entry.bytes)
        unavailableCount (saturatingAdd U64_MAX nextSequence 1) := by
  have hnext : saturatingAdd U64_MAX nextSequence 1 < U64_MAX → nextSequence + 1 < U64_MAX := by
    unfold saturatingAdd
    split <;> omega
  constructor
  . intro hlt
    have hlt := hnext hlt
    have hlength := h.next (by omega)
    apply (h.sequences (by omega)).append_singleton
    omega
  . intro hlt
    have hlt := hnext hlt
    have hlength := h.next (by omega)
    rw [saturatingAdd_of_le (by omega), List.length_append]
    simp only [List.length_singleton]
    omega
  . have hle := h.bytes_le
    have : MAX_HISTORY_BYTES + ISIZE_MAX ≤ USIZE_MAX := by decide
    rw [saturatingAdd_of_le (by omega), h.bytes]
    simp

theorem BoundedAt.replace {history : List SnapshotHistoryEntry}
    {historyBytes unavailableCount nextSequence : Nat}
    (h : BoundedAt history historyBytes unavailableCount nextSequence) {index : Nat}
    {entry entry' : SnapshotHistoryEntry} (hentry : history[index]? = some entry)
    (hsequence : entry'.sequence = entry.sequence) (hbytes : entry'.bytes ≤ ISIZE_MAX)
    : WindowedAt (history.set index entry')
        (saturatingAdd USIZE_MAX (historyBytes - entry.bytes) entry'.bytes) unavailableCount
        nextSequence := by
  constructor
  . intro hlt
    exact (h.sequences hlt).set hentry hsequence
  . intro hlt
    rw [List.length_set]
    exact h.next hlt
  . have hle := h.bytes_le
    have hold := h.bytes
    have hset := weigh_set (w := SnapshotHistoryEntry.bytes) hentry entry'
    have hmem := le_weigh_of_mem (w := SnapshotHistoryEntry.bytes) (List.mem_of_getElem? hentry)
    have : MAX_HISTORY_BYTES + ISIZE_MAX ≤ USIZE_MAX := by decide
    rw [saturatingAdd_of_le (by omega)]
    omega

namespace SessionSnapshot

/--
Eviction keeps the window and establishes the bounds.
-/
theorem evictHistory_yields {history : List SnapshotHistoryEntry}
    {historyBytes unavailableCount nextSequence : Nat}
    (h : WindowedAt history historyBytes unavailableCount nextSequence)
    : (evictHistory history historyBytes unavailableCount).Yields (· = .boundedHistoryNonempty)
        fun (history, historyBytes, unavailableCount) =>
          BoundedAt history historyBytes unavailableCount nextSequence := by
  induction history generalizing historyBytes unavailableCount with
  | nil =>
    have hbytes := h.bytes
    simp only [weigh_nil] at hbytes
    unfold evictHistory
    split
    . simp_all
    . exact ⟨h, Nat.zero_le _, by omega⟩
  | cons removed history ih =>
    unfold evictHistory
    split
    . apply Except.Yields.bind (historyEntryBytes_yields removed)
      intro removedBytes hremoved
      apply ih
      constructor
      . intro hlt
        have hnext := h.next hlt
        have hunavailable : saturatingAdd U64_MAX unavailableCount 1 = unavailableCount + 1 := by
          apply saturatingAdd_of_le
          omega
        rw [hunavailable]
        exact (h.sequences hlt).tail
      . intro hlt
        have hnext := h.next hlt
        simp only [List.length_cons] at hnext
        rw [saturatingAdd_of_le (by omega)]
        omega
      . have hbytes := h.bytes
        rw [weigh_cons] at hbytes
        omega
    . next hbounds =>
      simp only [Bool.or_eq_true, decide_eq_true_eq, not_or] at hbounds
      exact ⟨h, by simp only [List.length_cons]; omega, by omega⟩

theorem enforceHistoryBounds_keeps {s : SessionSnapshot}
    (h : WindowedAt s.history s.historyBytes s.unavailableCount s.nextSequence)
    : KeepsBounded s.enforceHistoryBounds := by
  apply Except.Yields.bind (evictHistory_yields h)
  intro result hresult
  exact hresult

theorem mutateHistoryEntryAt_keeps {s : SessionSnapshot} (h : s.Bounded) {index : Nat}
    (hindex : index < s.history.length) {update : SnapshotHistoryEntry → SnapshotHistoryEntry}
    (hupdate : ∀ entry, (update entry).sequence = entry.sequence)
    : KeepsBounded (s.mutateHistoryEntryAt index update) := by
  unfold mutateHistoryEntryAt
  have hentry : s.history[index]? = some s.history[index] := List.getElem?_eq_getElem hindex
  rw [hentry]
  dsimp only
  apply Except.Yields.bind (historyEntryBytes_yields _)
  intro oldBytes hold
  apply Except.Yields.bind (historyEntryBytes_yields _)
  intro newBytes hnew
  apply enforceHistoryBounds_keeps
  have hbytes := hnew.2
  rw [hnew.1] at hbytes
  rw [hold.1, hnew.1]
  exact h.replace hentry (hupdate _) hbytes

@[simp]
theorem countTimelineEntry_history (s : SessionSnapshot) (kind : SnapshotTimelineKind)
    : (s.countTimelineEntry kind).history = s.history := by
  cases kind <;> rfl

@[simp]
theorem countTimelineEntry_historyBytes (s : SessionSnapshot) (kind : SnapshotTimelineKind)
    : (s.countTimelineEntry kind).historyBytes = s.historyBytes := by
  cases kind <;> rfl

@[simp]
theorem countTimelineEntry_unavailableCount (s : SessionSnapshot) (kind : SnapshotTimelineKind)
    : (s.countTimelineEntry kind).unavailableCount = s.unavailableCount := by
  cases kind <;> rfl

theorem pushTimeline_keeps {s : SessionSnapshot} (h : s.Bounded) (kind : SnapshotTimelineKind)
    (canonicalId : String)
    : KeepsBounded (s.pushTimeline kind canonicalId) := by
  unfold pushTimeline pushHistory
  apply Except.Yields.bind (historyEntryBytes_yields _)
  intro bytes hentry
  apply enforceHistoryBounds_keeps
  have hbytes := hentry.2
  rw [hentry.1] at hbytes
  rw [hentry.1]
  simp only [countTimelineEntry_history, countTimelineEntry_historyBytes,
    countTimelineEntry_unavailableCount]
  exact h.push rfl hbytes

/-! The operations -/

theorem keptByTools_bounded : KeptByTools (· = .boundedHistoryNonempty) Bounded := by
  constructor
  . simp
  . intro s h tools activeToolIds subagentHeaders
    exact h
  . intro s h keep
    exact h
  . intro s h index hindex update hupdate
    apply mutateHistoryEntryAt_keeps h hindex
    intro entry
    cases hupdate entry with
    | intro tool htool => rw [htool]
  . intro s h entry hentry position
    exact h

theorem keptByEvents_bounded : KeptByEvents (· = .boundedHistoryNonempty) Bounded := by
  constructor
  . exact keptByTools_bounded
  . intro s t h hsame
    rcases hsame with ⟨-, -, hnext, hhistory, hbytes, hunavailable⟩
    unfold Bounded
    rw [hhistory, hbytes, hunavailable, hnext]
    exact h

theorem updateHistoryMessage_keeps {s : SessionSnapshot} (h : s.Bounded) (message : SnapshotMessage)
    : KeepsBounded (s.updateHistoryMessage message) := by
  unfold updateHistoryMessage
  split
  . next hindex => exact mutateHistoryEntryAt_keeps h (historyMessageIdx_eq_some hindex).1 fun _ => rfl
  . exact h

theorem makeRoomForMessage_keeps {s : SessionSnapshot} (h : s.Bounded)
    : KeepsBounded s.makeRoomForMessage := by
  unfold makeRoomForMessage
  split
  . split
    . simp [KeepsBounded]
    . exact h
  . exact h

theorem insertMessage_keeps {s : SessionSnapshot} (h : s.Bounded) (id : String) (role : MessageRole)
    (content : String) (contentBlock : Option Json)
    : KeepsBounded (s.insertMessage id role content contentBlock) := by
  unfold insertMessage
  apply Except.Yields.bind (pushTimeline_keeps h _ id)
  intro s h
  apply updateHistoryMessage_keeps
  exact h

theorem appendMessage_keeps {s : SessionSnapshot} (h : s.Bounded) (id : String) (role : MessageRole)
    (content : String) (contentBlock : Option Json)
    : KeepsBounded (s.appendMessage id role content contentBlock) := by
  unfold appendMessage
  split
  . apply updateHistoryMessage_keeps
    exact h
  . apply Except.Yields.bind (makeRoomForMessage_keeps h)
    intro s h
    exact insertMessage_keeps h id role content contentBlock

theorem attachTurnUsage_keeps {s : SessionSnapshot} (h : s.Bounded) (usage : BridgeTurnUsageSnapshot)
    : KeepsBounded (s.attachTurnUsage usage) := by
  unfold attachTurnUsage
  split
  . exact h
  . split
    . exact h
    . apply updateHistoryMessage_keeps
      exact h

theorem perform_keeps {s : SessionSnapshot} (h : s.Bounded) (operation : Operation)
    : KeepsBounded (s.perform operation) := by
  cases operation with
  | apply event =>
    apply apply_keeps keptByEvents_bounded.runs h
    . intro id role content contentBlock _
      exact appendMessage_keeps h _ _ _ _
    . intro id generation projection _
      apply applyTool_keeps keptByTools_bounded keptByTools_bounded (fun _ h => h) h
      intro s h
      exact pushTimeline_keeps h _ _
    . intro s usage h
      exact attachTurnUsage_keeps h _
  | markSubagentTerminal childSessionId status =>
    apply Except.Yields.bind (markSubagentTerminal_keeps keptByTools_bounded.updates h childSessionId status)
    intro result h
    exact h
  | markSubagentToolTerminal toolCallId status toolStatus =>
    apply Except.Yields.bind
      (markSubagentToolTerminal_keeps keptByTools_bounded.updates h toolCallId status toolStatus)
    intro result h
    exact h
  | settleUnresolvedSubagentsWithoutRun =>
    exact settleUnresolvedSubagentsWithoutRun_keeps keptByTools_bounded.updates h

end SessionSnapshot

theorem Reachable.bounded {s : SessionSnapshot} (h : Reachable s) : s.Bounded := by
  induction h with
  | new agentId threadId =>
    constructor
    . constructor
      . intro _
        exact List.consecutive_nil _
      . intro _
        rfl
      . rfl
    . exact Nat.zero_le _
    . exact Nat.zero_le _
  | perform operation _ hok ih => exact (SessionSnapshot.perform_keeps ih operation).of_ok hok
  | restore _ _ _ ih => exact ih
  | reorder _ _ ih => exact ih

/--
The bytes of the entries of a bounded history can be measured, and are the ones counted.
-/
theorem BoundedAt.measured {history : List SnapshotHistoryEntry}
    {historyBytes unavailableCount nextSequence : Nat}
    (h : BoundedAt history historyBytes unavailableCount nextSequence)
    : history.mapM historyEntryBytes = .ok (history.map SnapshotHistoryEntry.bytes)
        ∧ historyBytes = (history.map SnapshotHistoryEntry.bytes).sum := by
  have hbytes := h.bytes
  have hle := h.bytes_le
  have hmax : MAX_HISTORY_BYTES ≤ ISIZE_MAX := by decide
  clear h
  induction history generalizing historyBytes with
  | nil => exact ⟨rfl, hbytes⟩
  | cons entry history ih =>
    rw [weigh_cons] at hbytes
    have hentry : historyEntryBytes entry = .ok entry.bytes := by
      apply if_pos
      show entry.bytes ≤ ISIZE_MAX
      omega
    have := ih rfl (by omega)
    rw [List.mapM_cons, hentry, this.1, List.map_cons, List.sum_cons]
    refine ⟨rfl, ?_⟩
    omega

/--
The history of a reachable snapshot is a window of consecutive sequences that ends where the next one
starts, its bytes are counted exactly, both bounds hold, and enforcing them never runs out of entries.
-/
theorem Reachable.history_window {s : SessionSnapshot} (h : Reachable s)
    : (s.nextSequence < U64_MAX →
        (∀ i entry, s.history[i]? = some entry → entry.sequence = s.unavailableCount + i)
          ∧ s.unavailableCount + s.history.length = s.nextSequence)
      ∧ (∃ bytes, s.history.mapM historyEntryBytes = .ok bytes ∧ s.historyBytes = bytes.sum)
      ∧ s.history.length ≤ MAX_HISTORY_ENTRIES
      ∧ s.historyBytes ≤ MAX_HISTORY_BYTES
      ∧ ∀ operation, s.perform operation ≠ .error .boundedHistoryNonempty := by
  have hbounded := h.bounded
  refine ⟨?_, ⟨_, hbounded.measured⟩, hbounded.length_le, hbounded.bytes_le, ?_⟩
  . intro hlt
    exact ⟨hbounded.sequences hlt, hbounded.next hlt⟩
  . intro operation
    apply Except.Yields.ne_error (SessionSnapshot.perform_keeps hbounded operation)
    rfl

/--
A first message of the agent.
-/
def Operation.hello : Operation :=
  .apply (.messageChunk "agent" "thread" none none none .agent "m" "hello" none)

theorem Reachable.history_window_of_hello
    : ∃ s, (SessionSnapshot.new "agent" "thread").perform .hello = .ok s
        ∧ s.history.length = 1
        ∧ (s.nextSequence < U64_MAX →
          (∀ i entry, s.history[i]? = some entry → entry.sequence = s.unavailableCount + i)
            ∧ s.unavailableCount + s.history.length = s.nextSequence)
        ∧ (∃ bytes, s.history.mapM historyEntryBytes = .ok bytes ∧ s.historyBytes = bytes.sum)
        ∧ s.history.length ≤ MAX_HISTORY_ENTRIES
        ∧ s.historyBytes ≤ MAX_HISTORY_BYTES
        ∧ ∀ operation, s.perform operation ≠ .error .boundedHistoryNonempty :=
  ⟨_, rfl, rfl, Reachable.history_window (.perform .hello (.new "agent" "thread") rfl)⟩

end Snapshot
