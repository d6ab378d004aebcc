import TetherBridge.Snapshot.Apply

/-!
This module contains what a client reads of a session: the live window together with what it leaves out, and
the pages of the history. A cursor is kept as the value that its text encodes.
-/

namespace Snapshot

open Acp Std

def MAX_SNAPSHOT_PAGE_SIZE : Nat := 100

structure SnapshotCursor where
  threadId : String
  sequence : Nat
  revision : Nat
  deriving DecidableEq

structure SnapshotCollectionMetadata where
  truncated : Bool
  omittedCount : Nat
  oldestAvailableSequence : Option Nat
  newestSequence : Option Nat
  beforeCursor : Option SnapshotCursor
  revision : Nat
  deriving DecidableEq

structure SnapshotContinuation where
  revision : Nat
  unavailableCount : Nat
  earliestAvailableSequence : Option Nat
  latestAvailableSequence : Option Nat
  maxPageSize : Nat
  maxHistoryEntries : Nat
  maxHistoryBytes : Nat
  deriving DecidableEq

structure SnapshotPage where
  entries : List SnapshotHistoryEntry
  beforeCursor : Option SnapshotCursor
  afterCursor : Option SnapshotCursor
  hasMoreBefore : Bool
  hasMoreAfter : Bool
  unavailableCount : Nat
  earliestAvailableSequence : Option Nat
  latestAvailableSequence : Option Nat
  revision : Nat

/--
The transcript of a thread snapshot. What it says about the session besides is left out.
-/
structure BridgeThreadSnapshot where
  timeline : List SnapshotTimelineEntry
  messages : List SnapshotMessage
  tools : List SnapshotTool
  messageCollection : SnapshotCollectionMetadata
  reasoningCollection : SnapshotCollectionMetadata
  toolCollection : SnapshotCollectionMetadata
  continuation : SnapshotContinuation

namespace SessionSnapshot

variable (s : SessionSnapshot)

def cursor (sequence : Nat) : SnapshotCursor :=
  { threadId := s.threadId, sequence, revision := s.nextSequence }

def total : SnapshotTimelineKind → Nat
  | .message => s.totalMessages
  | .reasoning => s.totalReasoning
  | .tool => s.totalTools

def collectionMetadata (kind : SnapshotTimelineKind) : SnapshotCollectionMetadata :=
  let sequences := (s.timeline.filter (·.kind == kind)).map (·.sequence)
  let retained := sequences.length
  let total := s.total kind
  let oldest := sequences.head?
  { truncated := total > retained
    omittedCount := total - retained
    oldestAvailableSequence := oldest
    newestSequence := sequences.getLast?
    beforeCursor := oldest.map s.cursor
    revision := s.nextSequence }

def continuation : SnapshotContinuation :=
  { revision := s.nextSequence
    unavailableCount := s.unavailableCount
    earliestAvailableSequence := s.history.head?.map (·.sequence)
    latestAvailableSequence := s.history.getLast?.map (·.sequence)
    maxPageSize := MAX_SNAPSHOT_PAGE_SIZE
    maxHistoryEntries := MAX_HISTORY_ENTRIES
    maxHistoryBytes := MAX_HISTORY_BYTES }

/--
A cursor is for the thread, and not for a revision to come.
-/
def decode (cursor : SnapshotCursor) : Except String SnapshotCursor :=
  let validIdentity := cursor.threadId = s.threadId
  let validRevision := cursor.revision ≤ s.nextSequence
  if validIdentity ∧ validRevision then .ok cursor else .error "invalid snapshot cursor"

def decode? : Option SnapshotCursor → Except String (Option SnapshotCursor)
  | some cursor => (s.decode cursor).map some
  | none => .ok none

/--
The entries of a page. Those before a cursor are the newest ones, in the order of the history.
-/
def pageEntries (before after : Option SnapshotCursor) (limit : Nat) : List SnapshotHistoryEntry :=
  match before, after with
  | some cursor, _ =>
    ((s.history.reverse.filter (·.sequence < cursor.sequence)).take limit).reverse
  | none, some cursor => (s.history.filter (·.sequence > cursor.sequence)).take limit
  | none, none => s.history.take limit

def page (before after : Option SnapshotCursor) (limit : Nat) : Except String SnapshotPage := do
  if before.isSome ∧ after.isSome then
    throw "beforeCursor and afterCursor are mutually exclusive"
  let before ← s.decode? before
  let after ← s.decode? after
  let limit := min (max limit 1) MAX_SNAPSHOT_PAGE_SIZE
  let entries := s.pageEntries before after limit
  let first := entries.head?.map (·.sequence)
  let last := entries.getLast?.map (·.sequence)
  let earliest := s.history.head?.map (·.sequence)
  let latest := s.history.getLast?.map (·.sequence)
  return {
    entries
    beforeCursor := first.map s.cursor
    afterCursor := last.map s.cursor
    hasMoreBefore := first.getD 0 > earliest.getD 0
    hasMoreAfter := last.getD U64_MAX < latest.getD U64_MAX
    unavailableCount := s.unavailableCount
    earliestAvailableSequence := earliest
    latestAvailableSequence := latest
    revision := s.nextSequence }

/--
A live tool as a client gets it.
-/
def windowTool (id : String) (tool : SnapshotTool) : SnapshotTool :=
  match s.subagentHeaders[id]? with
  | some header => ensureDurableSubagentHeader tool header
  | none => tool

theorem windowTool_id (s : SessionSnapshot) (id : String) (tool : SnapshotTool)
    : (s.windowTool id tool).id = tool.id := by
  unfold windowTool
  split <;> rfl

/--
The conversion into a `BridgeThreadSnapshot`.
-/
def bridge : BridgeThreadSnapshot :=
  { timeline := s.timeline
    messages := s.messages
    tools := (s.tools.map s.windowTool).toList.map (·.2)
    messageCollection := s.collectionMetadata .message
    reasoningCollection := s.collectionMetadata .reasoning
    toolCollection := s.collectionMetadata .tool
    continuation := s.continuation }

end SessionSnapshot

end Snapshot
