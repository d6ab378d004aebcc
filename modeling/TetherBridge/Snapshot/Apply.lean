import Mathlib.Data.List.Dedup
import TetherBridge.Snapshot.Header

/-!
This module contains the operations of `SessionSnapshot` that write the transcript: `apply` for every
canonical event, the settling of sub-agents, and the restoration of a previous transcript.
-/

namespace Snapshot

open Acp Std

/--
`Iterator::min_by_key`: the first of the elements with the least key.
-/
def minByKey (key : α → Nat) : List α → Option α
  | [] => none
  | x :: xs =>
    match minByKey key xs with
    | none => some x
    | some y => if key x ≤ key y then some x else some y

/--
`Iterator::max_by_key`: the last of the elements with the greatest key.
-/
def maxByKey (key : α → Nat) : List α → Option α
  | [] => none
  | x :: xs =>
    match maxByKey key xs with
    | none => some x
    | some y => if key x ≤ key y then some y else some x

/--
The greatest index with an element of the kind.
-/
def lastIdx? (p : α → Bool) (xs : List α) : Option Nat :=
  (xs.reverse.findIdx? p).map fun i => xs.length - 1 - i

namespace SessionSnapshot

variable (s : SessionSnapshot)

/-! The history -/

/--
The loop of `enforce_history_bounds` on the history, its bytes and the count of evicted entries.
-/
def evictHistory : List SnapshotHistoryEntry → Nat → Nat
    → Except Panic (List SnapshotHistoryEntry × Nat × Nat)
  | [], historyBytes, unavailableCount =>
    if historyBytes > MAX_HISTORY_BYTES then
      .error .boundedHistoryNonempty
    else
      .ok ([], historyBytes, unavailableCount)
  | removed :: history, historyBytes, unavailableCount =>
    if history.length + 1 > MAX_HISTORY_ENTRIES || historyBytes > MAX_HISTORY_BYTES then do
      let removedBytes ← historyEntryBytes removed
      evictHistory history (historyBytes - removedBytes) (saturatingAdd U64_MAX unavailableCount 1)
    else
      .ok (removed :: history, historyBytes, unavailableCount)

def enforceHistoryBounds : Except Panic SessionSnapshot := do
  let (history, historyBytes, unavailableCount) ←
    evictHistory s.history s.historyBytes s.unavailableCount
  return { s with history, historyBytes, unavailableCount }

def pushHistory (entry : SnapshotHistoryEntry) : Except Panic SessionSnapshot := do
  let bytes ← historyEntryBytes entry
  enforceHistoryBounds
    { s with
      historyBytes := saturatingAdd USIZE_MAX s.historyBytes bytes
      history := s.history ++ [entry] }

def mutateHistoryEntryAt (index : Nat) (update : SnapshotHistoryEntry → SnapshotHistoryEntry)
    : Except Panic SessionSnapshot :=
  match s.history[index]? with
  | none => .error .historyMutationIndex
  | some entry => do
    let oldBytes ← historyEntryBytes entry
    let newBytes ← historyEntryBytes (update entry)
    enforceHistoryBounds
      { s with
        history := s.history.set index (update entry)
        historyBytes := saturatingAdd USIZE_MAX (s.historyBytes - oldBytes) newBytes }

def countTimelineEntry (kind : SnapshotTimelineKind) : SessionSnapshot :=
  match kind with
  | .message => { s with totalMessages := saturatingAdd U64_MAX s.totalMessages 1 }
  | .reasoning => { s with totalReasoning := saturatingAdd U64_MAX s.totalReasoning 1 }
  | .tool => { s with totalTools := saturatingAdd U64_MAX s.totalTools 1 }

def pushTimeline (kind : SnapshotTimelineKind) (canonicalId : String)
    : Except Panic SessionSnapshot :=
  let sequence := s.nextSequence
  let timeline := if s.timeline.length = MAX_TIMELINE_ENTRIES then s.timeline.tail else s.timeline
  pushHistory
    { s.countTimelineEntry kind with
      nextSequence := saturatingAdd U64_MAX s.nextSequence 1
      timeline := timeline ++ [{ sequence, kind, canonicalId }] }
    { sequence, kind, canonicalId, message := none, tool := none }

/--
The newest history entry of a canonical id.
-/
def lastHistoryIdx (canonicalId : String) : Option Nat :=
  lastIdx? (·.canonicalId == canonicalId) s.history

def lastHistoryEntry (canonicalId : String) : Option SnapshotHistoryEntry :=
  s.history.reverse.find? (·.canonicalId == canonicalId)

/--
The newest history entry of the message that has a message, or else the newest one of its id.
-/
def historyMessageIdx (id : String) : Option Nat :=
  (lastIdx? (fun entry => entry.canonicalId == id && entry.message.isSome) s.history).or
    (s.lastHistoryIdx id)

def updateHistoryMessage (message : SnapshotMessage) : Except Panic SessionSnapshot :=
  match s.historyMessageIdx message.id with
  | some index => s.mutateHistoryEntryAt index fun entry => { entry with message := some message }
  | none => .ok s

def attachHistoryMessage (message : SnapshotMessage) : Except Panic SessionSnapshot :=
  s.updateHistoryMessage message

def attachOrUpdateHistoryTool (tool : SnapshotTool) : Except Panic SessionSnapshot :=
  let tool :=
    match s.subagentHeaders[tool.id]? with
    | some header => ensureDurableSubagentHeader tool header
    | none => tool
  match s.lastHistoryIdx tool.id with
  | some index => s.mutateHistoryEntryAt index fun entry => { entry with tool := some tool }
  | none => .ok s

/--
What a settled tool that is no longer live gets in its history entry.
-/
def settleHistoryTool (status : ToolCallStatus) (header : Option String)
    (entry : SnapshotHistoryEntry) : SnapshotHistoryEntry :=
  match entry.tool with
  | none => entry
  | some tool =>
    let tool := { tool with status }
    { entry with tool := some ((header.map (ensureDurableSubagentHeader tool)).getD tool) }

/--
Settle the newest history entry of a tool.
-/
def settleHistory (toolCallId : String) (status : ToolCallStatus) (header : Option String)
    : Except Panic SessionSnapshot :=
  match s.lastHistoryIdx toolCallId with
  | some index => s.mutateHistoryEntryAt index (settleHistoryTool status header)
  | none => .ok s

/-! Messages -/

/--
Drop the oldest live message when there is no room for another one.
-/
def makeRoomForMessage : Except Panic SessionSnapshot :=
  if s.messages.length = MAX_MESSAGES then
    match s.messages with
    | [] => .error .fullMessageSnapshot
    | removed :: messages =>
      .ok { s with messages, timeline := s.timeline.filter (·.canonicalId != removed.id) }
  else
    .ok s

def timelineKind (role : MessageRole) : SnapshotTimelineKind :=
  if role == .thought then .reasoning else .message

/--
Add a message that is not live.
-/
def insertMessage (id : String) (role : MessageRole) (content : String) (contentBlock : Option Json)
    : Except Panic SessionSnapshot := do
  let s ← s.pushTimeline (timelineKind role) id
  let (parts, truncated) := appendChunk [] false content contentBlock
  let message := { id, role, parts, truncated, usage := none }
  attachHistoryMessage { s with messages := s.messages ++ [message] } message

def appendMessage (id : String) (role : MessageRole) (content : String) (contentBlock : Option Json)
    : Except Panic SessionSnapshot :=
  match s.messages.find? (·.id == id) with
  | some message =>
    let (parts, truncated) := appendChunk message.parts message.truncated content contentBlock
    let message := { message with parts, truncated }
    updateHistoryMessage
      { s with messages := s.messages.set (s.messages.findIdx (·.id == id)) message } message
  | none => do
    let s ← s.makeRoomForMessage
    s.insertMessage id role content contentBlock

def attachTurnUsage (usage : BridgeTurnUsageSnapshot) : Except Panic SessionSnapshot :=
  match lastIdx? (·.role == .agent) s.messages with
  | none => .ok s
  | some index =>
    match s.messages[index]? with
    | none => .ok s
    | some message =>
      let message := { message with usage := some usage }
      updateHistoryMessage { s with messages := s.messages.set index message } message

def configuredModelLabel : Option String :=
  match (s.config.find? (·.category == some "model")).or (s.config.find? (·.id == "model")) with
  | none => none
  | some entry =>
    let label := ((entry.options.find? (·.value == entry.value)).map (·.name)).getD entry.value
    let label := String.ofList (Text.trim label.toList)
    if label.isEmpty then none else some (bound label MAX_TEXT_BYTES)

/-! Tools -/

def headerUnresolved (header : Option String) : Bool :=
  isUnresolvedState (header.bind fun header => taskHeaderState header.toList)

def isRetainedToolTombstone (toolCallId : String) : Bool :=
  !s.tools.contains toolCallId
    && (s.activeToolIds.contains toolCallId || headerUnresolved s.subagentHeaders[toolCallId]?)

/--
The distinct ids of the tools that are only remembered because they have not ended.
-/
def retainedToolTombstones : List String :=
  ((s.subagentHeaders.keys ++ s.activeToolIds).filter s.isRetainedToolTombstone).dedup

/--
The tombstone that is given up first: the one with the oldest history entry.
-/
def expiredTombstone : Option String :=
  ((minByKey (·.sequence)
      (s.history.filter fun entry => s.isRetainedToolTombstone entry.canonicalId)).map
    (·.canonicalId)).or
    ((s.subagentHeaders.keys ++ s.activeToolIds).find? s.isRetainedToolTombstone)

def expireTombstone (expired : String) : Except Panic SessionSnapshot := do
  let s ← s.settleHistory expired .failed s.subagentHeaders[expired]?
  return { s with
    activeToolIds := s.activeToolIds.filter (· != expired)
    subagentHeaders := s.subagentHeaders.erase expired }

/--
The loop of `enforce_active_tool_tombstone_bounds`. A round gives up one tombstone, so as many rounds
as there are tombstones are enough.
-/
def expireTombstones : Nat → SessionSnapshot → Except Panic SessionSnapshot
  | 0, s => .ok s
  | rounds + 1, s =>
    if s.retainedToolTombstones.length > MAX_ACTIVE_TOOL_TOMBSTONES then
      match s.expiredTombstone with
      | none => .ok s
      | some expired => do
        let s ← s.expireTombstone expired
        expireTombstones rounds s
    else
      .ok s

def enforceActiveToolTombstoneBounds : Except Panic SessionSnapshot :=
  expireTombstones s.retainedToolTombstones.length s

structure ToolProjection where
  kind : ToolKind
  status : ToolCallStatus
  title : String
  content : FieldUpdate String
  structuredContent : FieldUpdate (List Json)
  locations : FieldUpdate (List Json)

/--
Make room for a new tool: the oldest live one is only kept in the history.
-/
def evictOldestTool : Except Panic SessionSnapshot :=
  match s.timeline.find? fun entry => entry.kind == .tool && s.tools.contains entry.canonicalId with
  | none => .error .fullToolSnapshot
  | some entry =>
    let oldest := entry.canonicalId
    let forget := !s.activeToolIds.contains oldest && !headerUnresolved s.subagentHeaders[oldest]?
    enforceActiveToolTombstoneBounds
      { s with
        tools := s.tools.erase oldest
        subagentHeaders := if forget then s.subagentHeaders.erase oldest else s.subagentHeaders
        timeline := s.timeline.filter (·.canonicalId != oldest) }

def makeRoomForTool (id : String) : Except Panic SessionSnapshot :=
  if s.tools.size ≥ MAX_TOOLS && !s.tools.contains id then s.evictOldestTool else .ok s

/--
A header is kept for a tool that is still active.
-/
def forgetIdleHeader (id : String) : SessionSnapshot :=
  if s.activeToolIds.contains id then
    s
  else
    { s with subagentHeaders := s.subagentHeaders.erase id }

/--
Place a tool that is not live: back in the timeline where its history entry stands, together with
what the entry has kept of it, or at the end.
-/
def placeTool (id : String) : Except Panic (SessionSnapshot × Option SnapshotTool) :=
  match s.history.reverse.find? fun entry => entry.canonicalId == id && entry.tool.isSome with
  | some priorEntry =>
    let header := priorEntry.tool.bind fun tool => latestValidTaskHeader tool.content.toList
    let position := s.timeline.findIdx (·.sequence > priorEntry.sequence)
    let entry := { sequence := priorEntry.sequence, kind := .tool, canonicalId := id }
    .ok
      ({ s with
        subagentHeaders :=
          match header with
          | some header => s.subagentHeaders.insert id (String.ofList header)
          | none => s.subagentHeaders
        timeline := s.timeline.insertIdx position entry }, priorEntry.tool)
  | none => do
    let s ← (s.forgetIdleHeader id).pushTimeline .tool id
    return (s, none)

def placeNewTool (id : String) : Except Panic (SessionSnapshot × Option SnapshotTool) :=
  if s.tools.contains id then .ok (s, none) else s.placeTool id

/--
Follow a tool of the active generation until it ends.
-/
def trackTool (id : String) (generation : Option Nat) (terminal : Bool) : SessionSnapshot :=
  if generation = s.activeGeneration then
    if terminal then
      { s with activeToolIds := s.activeToolIds.filter (· != id) }
    else
      { s with activeToolIds := s.activeToolIds.insert id }
  else
    s

/--
What a content with a valid header makes of the header that is kept.
-/
def refreshHeader (id : String) (terminal : Bool) (content : String)
    : TreeMap String String × Bool :=
  match latestValidTaskHeader content.toList with
  | none => (s.subagentHeaders, false)
  | some header =>
    let preservedTerminal :=
      (s.subagentHeaders[id]?.bind fun preserved => taskHeaderState preserved.toList).any
        isTerminalSubagentState
    if terminal && preservedTerminal && isUnresolvedState (taskHeaderState header) then
      (s.subagentHeaders, true)
    else
      (s.subagentHeaders.insert id (bound (String.ofList header) MAX_TEXT_BYTES), true)

/--
A replayed tool that has ended settles a header that still says otherwise.
-/
def settleReplayedHeader (id : String) (status : ToolCallStatus) : TreeMap String String :=
  match s.subagentHeaders[id]? with
  | none => s.subagentHeaders
  | some header =>
    if isUnresolvedState (taskHeaderState header.toList) then
      let settled := if status == .failed then "failed" else "completed"
      let normalized := String.ofList (taskHeaderWithState header.toList settled.toList)
      s.subagentHeaders.insert id (bound normalized MAX_TEXT_BYTES)
    else
      s.subagentHeaders

/--
The tool as the event leaves it, and the snapshot with its header.
-/
def projectTool (id : String) (generation : Option Nat) (projection : ToolProjection)
    (existing : Option SnapshotTool) : SessionSnapshot × SnapshotTool :=
  let terminal := isTerminalStatus projection.status
  let subagent := existing.any (·.subagent) || s.subagentHeaders.contains id
    || isSubagentTaskTool projection.kind projection.title
  let (content, contentTruncated) :=
    applyToolText ((existing.map (·.content)).getD "") projection.content
  let (structuredContent, structuredTruncated) :=
    applyToolValues ((existing.map (·.structuredContent)).getD []) projection.structuredContent
      MAX_TOOL_STRUCTURED_ITEMS
  let (locations, locationsTruncated) :=
    applyToolValues ((existing.map (·.locations)).getD []) projection.locations MAX_TOOL_LOCATIONS
  let (subagentHeaders, hasHeader) := s.refreshHeader id terminal content
  let s := { s with subagentHeaders }
  let tool : SnapshotTool :=
    { id
      generation
      kind := projection.kind
      status := projection.status
      title := bound projection.title MAX_TEXT_BYTES
      content
      structuredContent := (existing.map (·.structuredContent)).getD []
      locations := (existing.map (·.locations)).getD []
      truncated := existing.any (·.truncated) || contentTruncated
      subagent := subagent || hasHeader }
  let (s, tool) :=
    if generation.isNone && terminal then
      let s := { s with subagentHeaders := s.settleReplayedHeader id projection.status }
      (s, ((s.subagentHeaders[id]?).map (ensureDurableSubagentHeader tool)).getD tool)
    else
      (s, tool)
  (s, { tool with
    structuredContent
    locations
    truncated := tool.truncated || structuredTruncated || locationsTruncated })

def applyTool (id : String) (generation : Option Nat) (projection : ToolProjection)
    : Except Panic SessionSnapshot := do
  let s ← s.makeRoomForTool id
  let (s, retainedTool) ← s.placeNewTool id
  let s := s.trackTool id generation (isTerminalStatus projection.status)
  let existing := s.tools[id]?.or retainedTool
  let (s, tool) := s.projectTool id generation projection existing
  attachOrUpdateHistoryTool { s with tools := s.tools.insert id tool } tool

/--
Settle the history entry of a tool that is not live.
-/
def settleRetainedTool (status : ToolCallStatus) (toolCallId : String)
    : Except Panic SessionSnapshot :=
  if s.tools.contains toolCallId then
    .ok s
  else
    s.settleHistory toolCallId status s.subagentHeaders[toolCallId]?

def forgetRetainedHeader (toolCallId : String) : SessionSnapshot :=
  if s.tools.contains toolCallId then
    s
  else
    { s with subagentHeaders := s.subagentHeaders.erase toolCallId }

def setToolStatus (status : ToolCallStatus) (toolCallId : String) : SessionSnapshot :=
  match s.tools[toolCallId]? with
  | some tool => { s with tools := s.tools.insert toolCallId { tool with status } }
  | none => s

def terminalizeActiveTools (status : ToolCallStatus) : Except Panic SessionSnapshot := do
  let activeToolIds := s.activeToolIds
  let s := activeToolIds.foldl (·.setToolStatus status) s
  let updates := activeToolIds.filterMap (s.tools[·]?)
  let s ← updates.foldlM (·.attachOrUpdateHistoryTool) s
  let s ← activeToolIds.foldlM (·.settleRetainedTool status) s
  return activeToolIds.foldl (·.forgetRetainedHeader) s

def toolStatus (toolCallId : String) : Option ToolCallStatus :=
  (s.tools[toolCallId]?.map (·.status)).or
    (((s.lastHistoryEntry toolCallId).bind (·.tool)).map (·.status))

def toolGeneration (toolCallId : String) : Option Nat :=
  (s.tools[toolCallId]?.bind (·.generation)).or
    (((s.lastHistoryEntry toolCallId).bind (·.tool)).bind (·.generation))

/--
Settle a tool where it is: live, or in the history.
-/
def settleTool (toolCallId : String) (toolStatus : ToolCallStatus) (header : Option String)
    : Except Panic SessionSnapshot :=
  match s.tools[toolCallId]? with
  | some tool =>
    let tool := { tool with status := toolStatus }
    let tool := (header.map (ensureDurableSubagentHeader tool)).getD tool
    attachOrUpdateHistoryTool { s with tools := s.tools.insert toolCallId tool } tool
  | none => s.settleHistory toolCallId toolStatus header

/--
Rewrite the state of a header that is kept.
-/
def setHeaderState (toolCallId status : String) : SessionSnapshot :=
  match s.subagentHeaders[toolCallId]? with
  | some header =>
    { s with
      subagentHeaders := s.subagentHeaders.insert toolCallId
        (String.ofList (taskHeaderWithState header.toList status.toList)) }
  | none => s

def updateSubagentToolTerminal (toolCallId status : String) (toolStatus : ToolCallStatus)
    : Except Panic SessionSnapshot := do
  let s := s.setHeaderState toolCallId status
  let s ← s.settleTool toolCallId toolStatus s.subagentHeaders[toolCallId]?
  let activeToolIds := s.activeToolIds.filter (· != toolCallId)
  return forgetRetainedHeader { s with activeToolIds } toolCallId

/--
The ids of the headers that have not ended, in the order of the map.
-/
def unresolvedSubagents : List String :=
  s.subagentHeaders.keys.filter fun toolCallId => headerUnresolved s.subagentHeaders[toolCallId]?

def terminalizeUnresolvedSubagents (status : String) (generation : Nat)
    : Except Panic SessionSnapshot :=
  let unresolved := s.unresolvedSubagents.filter fun toolCallId =>
    s.toolGeneration toolCallId == some generation
  let toolStatus := if isFailedSubagentState status.toList then .failed else .completed
  unresolved.foldlM (fun s toolCallId => s.updateSubagentToolTerminal toolCallId status toolStatus) s

def settleUnresolvedSubagentsWithoutRun : Except Panic SessionSnapshot :=
  if s.activeGeneration.isSome then
    .ok s
  else
    let unresolved := s.unresolvedSubagents.filterMap fun toolCallId =>
      match s.toolStatus toolCallId with
      | some status => if isTerminalStatus status then some (toolCallId, status) else none
      | none => none
    unresolved.foldlM (fun s (toolCallId, toolStatus) =>
      s.updateSubagentToolTerminal toolCallId
        (if toolStatus == .failed then "failed" else "completed") toolStatus) s

def markSubagentToolTerminal (toolCallId status : String) (toolStatus : ToolCallStatus)
    : Except Panic (SessionSnapshot × Bool) :=
  if s.subagentHeaders.contains toolCallId then do
    let s ← s.updateSubagentToolTerminal toolCallId status toolStatus
    return (s, true)
  else
    .ok (s, false)

def markSubagentTerminal (childSessionId status : String)
    : Except Panic (SessionSnapshot × Bool) :=
  let candidates := s.unresolvedSubagents.filter fun toolCallId =>
    (s.subagentHeaders[toolCallId]?.bind fun header => taskHeaderId header.toList)
      == some childSessionId.toList
  match maxByKey (fun id => ((s.lastHistoryEntry id).map (·.sequence)).getD 0) candidates with
  | none => .ok (s, false)
  | some toolCallId =>
    let toolStatus := if isFailedSubagentState status.toList then .failed else .completed
    s.markSubagentToolTerminal toolCallId status toolStatus

/-! The session -/

def restoreTranscriptFrom (previous : SessionSnapshot) : SessionSnapshot :=
  { s with
    messages := previous.messages
    tools := previous.tools
    subagentHeaders := previous.subagentHeaders
    timeline := previous.timeline
    nextSequence := previous.nextSequence
    totalMessages := previous.totalMessages
    totalReasoning := previous.totalReasoning
    totalTools := previous.totalTools
    history := previous.history
    historyBytes := previous.historyBytes
    unavailableCount := previous.unavailableCount }

/--
No run is active any more.
-/
def clearActiveRun : SessionSnapshot :=
  { s with
    activeRunId := none
    activeSourceTurnId := none
    activeGeneration := none
    activeToolIds := [] }

/--
A run that is still active when the next one starts has failed.
-/
def abandonActiveRun : Except Panic SessionSnapshot :=
  match s.activeGeneration with
  | some activeGeneration => do
    let s ← s.terminalizeActiveTools .failed
    s.terminalizeUnresolvedSubagents "failed" activeGeneration
  | none => .ok s

/--
The tools and sub-agents of a run that finished.
-/
def settleFinishedRun (generation : Nat) (stopReason : StopReason) : Except Panic SessionSnapshot :=
  if stopReason == .cancelled then do
    let s ← s.terminalizeActiveTools .failed
    s.terminalizeUnresolvedSubagents "cancelled" generation
  else
    s.terminalizeActiveTools .completed

def apply (event : CanonicalEvent) : Except Panic SessionSnapshot :=
  match event with
  | .runStarted _ _ runId sourceTurnId generation => do
    let s ← s.abandonActiveRun
    return { s with
      activeRunId := some runId
      activeSourceTurnId := some sourceTurnId
      activeGeneration := some generation
      activeToolIds := [] }
  | .runFinished _ _ _ _ generation stopReason =>
    if s.activeGeneration = some generation then do
      let s ← s.settleFinishedRun generation stopReason
      return s.clearActiveRun
    else
      .ok s
  | .runFailed _ _ _ _ generation _ =>
    if s.activeGeneration = some generation then do
      let s ← s.terminalizeActiveTools .failed
      let s ← s.terminalizeUnresolvedSubagents "failed" generation
      return s.clearActiveRun
    else
      .ok s
  | .messageChunk _ _ _ _ _ role messageId content contentBlock =>
    s.appendMessage messageId role content contentBlock
  | .tool _ _ _ _ generation toolCallId kind status title content structuredContent locations =>
    s.applyTool toolCallId generation { kind, status, title, content, structuredContent, locations }
  | .plan _ _ entries => .ok { s with plan := (entries.take MAX_ENTRIES).map boundPlan }
  | .usage _ _ used size cost =>
    .ok { s with
      usageUsed := some used
      usageSize := some size
      usageCost := cost.map (bound · MAX_TEXT_BYTES) }
  | .turnTokenUsage _ _ inputTokens outputTokens reasoningTokens cachedReadTokens cachedWriteTokens
      totalTokens =>
    let totals := s.tokenTotals.getD {}
    attachTurnUsage
      { s with
        tokenTotals := some (totals.addTurn inputTokens outputTokens reasoningTokens
          cachedReadTokens cachedWriteTokens totalTokens) }
      { inputTokens
        outputTokens
        reasoningTokens
        cachedReadTokens
        cachedWriteTokens
        totalTokens
        model := s.configuredModelLabel }
  | .mode _ _ id => .ok { s with modeId := some (bound id MAX_TEXT_BYTES) }
  | .config _ _ entries => .ok { s with config := (entries.take MAX_ENTRIES).map boundConfig }
  | .sessionInfo _ _ title updatedAt =>
    .ok { s with
      title := applyField s.title title
      updatedAt := applyField s.updatedAt updatedAt }
  | .commands _ _ commands =>
    .ok { s with commands := (commands.take MAX_ENTRIES).map boundCommand }
  | .permissionRequested _ | .permissionResolved .. | .elicitationRequested _
  | .elicitationResolved .. | .ignored .. => .ok s

end SessionSnapshot

end Snapshot
