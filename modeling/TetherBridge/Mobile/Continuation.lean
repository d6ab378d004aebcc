import Mathlib.Data.List.Sort
import TetherBridge.Data.Js
import TetherBridge.Data.Recent
import TetherBridge.Snapshot.Page

/-!
This module contains how the client reads a transcript and loads the entries before its live window. A chat
is the transcript it shows, and one call of `loadEarlier` ends before the next one.
-/

namespace Mobile

open Acp Snapshot

structure MessageTokenUsage where
  inputTokens : Nat
  outputTokens : Nat
  reasoningTokens : Option Nat
  cachedReadTokens : Option Nat
  cachedWriteTokens : Option Nat
  totalTokens : Nat
  model : Option String

structure RawMessage where
  id : String
  role : String
  parts : List Json
  truncated : Bool
  usage : Option MessageTokenUsage

structure RawTool where
  id : String
  generation : Option Nat
  kind : String
  status : String
  title : String
  content : String
  structuredContent : List Json
  locations : List Json
  truncated : Bool
  subagent : Bool

structure RawAcpSnapshot where
  timeline : List SnapshotTimelineEntry
  messages : List RawMessage
  tools : List RawTool
  messageCollection : Option SnapshotCollectionMetadata
  reasoningCollection : Option SnapshotCollectionMetadata
  toolCollection : Option SnapshotCollectionMetadata
  continuation : Option SnapshotContinuation

structure SnapshotPageEntry where
  sequence : Nat
  kind : SnapshotTimelineKind
  canonicalId : String
  message : Option RawMessage
  tool : Option RawTool

structure SnapshotPageResponse where
  entries : List SnapshotPageEntry
  beforeCursor : Option SnapshotCursor
  afterCursor : Option SnapshotCursor
  hasMoreBefore : Bool
  hasMoreAfter : Bool
  unavailableCount : Nat
  earliestAvailableSequence : Option Nat
  latestAvailableSequence : Option Nat
  revision : Nat

/-! Reading a thread -/

def parseSnapshotMessageUsage (usage : BridgeTurnUsageSnapshot) : MessageTokenUsage :=
  { inputTokens := usage.inputTokens
    outputTokens := usage.outputTokens
    reasoningTokens := usage.reasoningTokens
    cachedReadTokens := usage.cachedReadTokens
    cachedWriteTokens := usage.cachedWriteTokens
    totalTokens := usage.totalTokens
    model := (usage.model.map Js.trim).filter (· ≠ "") }

def parseSnapshotMessage (message : SnapshotMessage) : RawMessage :=
  { id := message.id
    role := roleName message.role
    parts := message.parts
    truncated := message.truncated
    usage := message.usage.map parseSnapshotMessageUsage }

def parseSnapshotTool (tool : SnapshotTool) : RawTool :=
  { id := tool.id
    generation := tool.generation
    kind := toolKindName tool.kind
    status := toolCallStatusName tool.status
    title := tool.title
    content := tool.content
    structuredContent := tool.structuredContent
    locations := tool.locations
    truncated := tool.truncated
    subagent := tool.subagent }

def toRawAcpSnapshot (snapshot : BridgeThreadSnapshot) : RawAcpSnapshot :=
  { timeline := snapshot.timeline.filter (·.canonicalId ≠ "")
    messages := (snapshot.messages.map parseSnapshotMessage).filter fun message =>
      message.id ≠ "" ∧ message.role ≠ ""
    tools := (snapshot.tools.map parseSnapshotTool).filter (·.id ≠ "")
    messageCollection := some snapshot.messageCollection
    reasoningCollection := some snapshot.reasoningCollection
    toolCollection := some snapshot.toolCollection
    continuation := some snapshot.continuation }

/-! Reading a page -/

/--
Unlike `parseSnapshotMessage`, this one does not read the usage.
-/
def parseSnapshotPageMessage (message : SnapshotMessage) : RawMessage :=
  { id := message.id
    role := roleName message.role
    parts := message.parts
    truncated := message.truncated
    usage := none }

def parseSnapshotPageTool (tool : SnapshotTool) : RawTool :=
  { id := tool.id
    generation := tool.generation
    kind := toolKindName tool.kind
    status := toolCallStatusName tool.status
    title := tool.title
    content := tool.content
    structuredContent := tool.structuredContent
    locations := tool.locations
    truncated := tool.truncated
    subagent := tool.subagent }

def parseSnapshotPageEntry (entry : SnapshotHistoryEntry) : Option SnapshotPageEntry :=
  let canonicalId := Js.trim entry.canonicalId
  if canonicalId = "" then
    none
  else
    some {
      sequence := entry.sequence
      kind := entry.kind
      canonicalId
      message := entry.message.map parseSnapshotPageMessage
      tool := entry.tool.map parseSnapshotPageTool }

def readSnapshotPageResponse (page : SnapshotPage) : SnapshotPageResponse :=
  { entries := page.entries.filterMap parseSnapshotPageEntry
    beforeCursor := page.beforeCursor
    afterCursor := page.afterCursor
    hasMoreBefore := page.hasMoreBefore
    hasMoreAfter := page.hasMoreAfter
    unavailableCount := page.unavailableCount
    earliestAvailableSequence := page.earliestAvailableSequence
    latestAvailableSequence := page.latestAvailableSequence
    revision := page.revision }

/-! Merging a page -/

structure StaleSnapshotRevisionError where
  expectedRevision : Nat
  pageRevision : Nat
  deriving DecidableEq

/--
A `Map` with the values of an array, by a key that each of them has.
-/
def mapBy [DecidableEq κ] (key : β → κ) (values : List β) : List (κ × β) :=
  values.foldl (fun entries value => entries.assign (key value) value) []

/--
The three maps and the count of the entries of each kind that were not there.
-/
structure Merge where
  timeline : List (Nat × SnapshotTimelineEntry)
  messages : List (String × RawMessage)
  tools : List (String × RawTool)
  addedByKind : SnapshotTimelineKind → Nat

namespace Merge

def start (snapshot : RawAcpSnapshot) : Merge :=
  { timeline := mapBy (·.sequence) snapshot.timeline
    messages := mapBy (·.id) snapshot.messages
    tools := mapBy (·.id) snapshot.tools
    addedByKind := fun _ => 0 }

def add (merge : Merge) (entry : SnapshotPageEntry) : Merge :=
  let existed := (merge.timeline.lookup entry.sequence).isSome
  { timeline := merge.timeline.assign entry.sequence
      { sequence := entry.sequence, kind := entry.kind, canonicalId := entry.canonicalId }
    messages :=
      match entry.message with
      | some message => merge.messages.assign message.id message
      | none => merge.messages
    tools :=
      match entry.tool with
      | some tool => merge.tools.assign tool.id tool
      | none => merge.tools
    addedByKind :=
      if existed then
        merge.addedByKind
      else
        Function.update merge.addedByKind entry.kind (merge.addedByKind entry.kind + 1) }

end Merge

def updateCollection (page : SnapshotPageResponse) (addedByKind : SnapshotTimelineKind → Nat)
    (kind : SnapshotTimelineKind) (metadata : SnapshotCollectionMetadata)
    : SnapshotCollectionMetadata :=
  { truncated := page.hasMoreBefore || page.unavailableCount > 0
    omittedCount := metadata.omittedCount - addedByKind kind
    oldestAvailableSequence := page.earliestAvailableSequence
    newestSequence := page.latestAvailableSequence
    beforeCursor := if page.hasMoreBefore then page.beforeCursor else none
    revision := page.revision }

def mergeSnapshotPage (snapshot : RawAcpSnapshot) (page : SnapshotPageResponse)
    : Except StaleSnapshotRevisionError RawAcpSnapshot :=
  let expectedRevision := snapshot.continuation.map (·.revision)
  match expectedRevision.filter (page.revision ≠ ·) with
  | some expectedRevision => .error { expectedRevision, pageRevision := page.revision }
  | none =>
    let merge := page.entries.foldl Merge.add (.start snapshot)
    let update := updateCollection page merge.addedByKind
    .ok {
      timeline := (merge.timeline.map (·.2)).mergeSort (·.sequence ≤ ·.sequence)
      messages := merge.messages.map (·.2)
      tools := merge.tools.map (·.2)
      messageCollection := snapshot.messageCollection.map (update .message)
      reasoningCollection := snapshot.reasoningCollection.map (update .reasoning)
      toolCollection := snapshot.toolCollection.map (update .tool)
      continuation := snapshot.continuation.map fun continuation =>
        { continuation with
          revision := page.revision
          unavailableCount := page.unavailableCount
          earliestAvailableSequence := page.earliestAvailableSequence
          latestAvailableSequence := page.latestAvailableSequence } }

/-! Loading earlier entries -/

namespace RawAcpSnapshot

variable (snapshot : RawAcpSnapshot)

/--
What the snapshot says of a kind.
-/
def collection : SnapshotTimelineKind → Option SnapshotCollectionMetadata
  | .message => snapshot.messageCollection
  | .reasoning => snapshot.reasoningCollection
  | .tool => snapshot.toolCollection

def collections : List SnapshotCollectionMetadata :=
  [snapshot.messageCollection, snapshot.reasoningCollection, snapshot.toolCollection].reduceOption

def readBeforeCursor : Option SnapshotCursor :=
  (snapshot.collections.find? fun collection =>
    collection.omittedCount > 0 && collection.beforeCursor.isSome).bind (·.beforeCursor)

/--
The `exhausted` of the continuation state.
-/
def exhausted : Bool :=
  snapshot.readBeforeCursor.isNone

end RawAcpSnapshot

inductive TranscriptContinuationResult where
  | merged (chat : RawAcpSnapshot) (error : Option String)
  | stale

/--
What is shown after the result. A stale page leaves the chat to be read again.
-/
def TranscriptContinuationResult.chat (shown : RawAcpSnapshot)
    : TranscriptContinuationResult → RawAcpSnapshot
  | .merged chat _ => chat
  | .stale => shown

/--
`loadEarlier`, with the answer to each request for a page.
-/
def loadEarlier (readSnapshotPage : SnapshotCursor → Nat → Except String SnapshotPageResponse)
    (chat : RawAcpSnapshot) : TranscriptContinuationResult :=
  match chat.continuation, chat.readBeforeCursor with
  | some continuation, some beforeCursor =>
    let limit := if continuation.maxPageSize = 0 then 50 else continuation.maxPageSize
    match readSnapshotPage beforeCursor limit with
    | .error error => .merged chat (if error = "" then "Unable to load earlier history" else error)
    | .ok page =>
      match mergeSnapshotPage chat page with
      | .error _ => .stale
      | .ok merged => .merged merged none
  | _, _ => .merged chat none

end Mobile
