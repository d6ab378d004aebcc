import TetherBridge.Mobile.ThreadState

/-!
This module contains how an event changes the live messages of a thread: what its custom events carry, how a snapshot
replaces the messages, and `reduceThreadState`. The events of the state, the steps, the raw events and the patches, none of
which the bridge sends, are left out, and `JSON.parse` is given.
-/

namespace Mobile.Thread

/-! Custom events -/

/--
What is shown of a tool, and the part of it that its structured rendering added.
-/
def appendToolText (text structured : String) : String × String :=
  let appended := structuredTextRemainder text structured
  (joinLines [text, appended], appended)

def renderToolStructuredContent (value : Option Json) : String :=
  let empty key := (value.bind (array? key)).any List.isEmpty
  if empty "content" && empty "locations" then "" else renderAgUiCustomContent (value.getD .null)

def withoutPreviousStructuredText (text previousStructured : String) : String :=
  if previousStructured ≠ "" && previousStructured.toList.isSuffixOf text.toList then
    String.ofList (Js.trimEnd (text.toList.take (text.length - previousStructured.length)))
  else
    text

def readReceiverThreadIds (value : Option Json) : List String :=
  ((value.bind Json.asArray).getD []).filterMap fun id => nonEmptyString (some id)

structure SubAgentMeta where
  toolCallId : String
  tool : String
  senderThreadId : String
  receiverThreadIds : List String
  agentStatus : Option String

def createSubagentMeta (toolCallId : String) (receiverThreadIds : List String) (value : Option Json) (threadId : String)
    : SubAgentMeta :=
  let read key := nonEmptyString (value.bind (Json.get key))
  { toolCallId
    tool := (read "tool").getD "spawnAgent"
    senderThreadId := (read "senderThreadId").getD threadId
    receiverThreadIds := receiverThreadIds.eraseDups
    agentStatus := read "agentStatus" }

def SubAgentMeta.toJson (subAgent : SubAgentMeta) : Json :=
  .object <|
    [("toolCallId", .string subAgent.toolCallId),
      ("tool", .string subAgent.tool),
      ("senderThreadId", .string subAgent.senderThreadId),
      ("receiverThreadIds", .array (subAgent.receiverThreadIds.map .string))]
    ++ (subAgent.agentStatus.map fun status => ("agentStatus", .string status)).toList

def formatSubagentActivity (subAgent : SubAgentMeta) (receiverThreadId : String) (resultPreview : Option String)
    : String :=
  joinLines <|
    [if subAgent.agentStatus = some "completed" then "• Spawned sub-agent" else "• Spawning sub-agent",
      "  Thread: " ++ receiverThreadId]
    ++ (subAgent.agentStatus.map fun status => "  Status: " ++ status).toList
    ++ (resultPreview.map fun preview => "  Result: " ++ preview).toList

/--
The ids of the messages that a card of a sub-agent replaces.
-/
def subagentMessageIds (toolCallId : String) : List String :=
  ["tool-call:" ++ toolCallId, "tool-result:" ++ toolCallId, "subagent:" ++ toolCallId]

structure CustomChunk where
  key : String
  count : Nat
  index : Nat
  data : String

/--
A number that is natural.
-/
def asNat : Json → Option Nat
  | .number literal => literal.toNat?
  | _ => none

def readCustomChunk (customName : String) (value : Option Json) : Option CustomChunk :=
  (nonEmptyString (value.bind (Json.get "canonicalId"))).bind fun _ =>
    (nonEmptyString (value.bind (Json.get "revision"))).bind fun revision =>
      (truthy (value.bind (text? "data"))).bind fun data =>
        let index := (value.bind (Json.get "index")).bind asNat
        let count := ((value.bind (Json.get "count")).bind asNat).getD 0
        (index.filter (· < count)).map fun index => { key := customName ++ "\x00" ++ revision, count, index, data }

namespace AgUiThreadMessageState

variable (current : AgUiThreadMessageState)

def reduceStructuredMessageContent (threadRunId time : String) (value : Option Json) : AgUiThreadMessageState :=
  let messageId := (nonEmptyString (value.bind (Json.get "messageId"))).getD (threadRunId ++ ":content")
  let existing := current.findMessage messageId
  let parts := appendOrderedPart ((existing.bind (·.parts)).getD []) (value.bind (Json.get "content"))
  let text := renderOrderedParts parts
  let message : ChatMessage := match value.bind (text? "role") with
    | some "thought" => { reasoningMessage messageId text time with parts := some parts }
    | some "user" => { id := messageId, body := .user (.string text), createdAt := time, parts := some parts }
    | _ => { id := messageId, body := .assistant (some text) none, createdAt := time, parts := some parts }
  current.upsertMessage message threadRunId time

def reduceToolText (runId time : String) (value : Option Json) : AgUiThreadMessageState :=
  let toolCallId := nonEmptyString (value.bind (Json.get "toolCallId"))
  let revision := nonEmptyString (value.bind (Json.get "revision"))
  let content := value.bind (text? "content")
  match toolCallId, revision, content with
  | some toolCallId, some revision, some content =>
    if toolCallId ∈ current.subagentToolCallIds then
      current
    else if current.toolTextRevisionByCallId.lookup toolCallId = some revision then
      current
    else
      let messageId := (current.toolResultMessageIdByCallId.lookup toolCallId).getD ("tool-result:" ++ toolCallId)
      let structured := (current.structuredTextByCallId.lookup toolCallId).getD ""
      let (text, appended) := appendToolText content structured
      let next := current.upsertToolResult runId messageId toolCallId text time
      { next with
        toolTextRevisionByCallId := next.toolTextRevisionByCallId.assign toolCallId revision
        structuredTextByCallId := next.structuredTextByCallId.assign toolCallId appended }
  | _, _, _ => current

def reduceToolContent (runId time : String) (value : Option Json) : AgUiThreadMessageState :=
  let toolCallId := (nonEmptyString (value.bind (Json.get "toolCallId"))).getD "unknown"
  let revision := (nonEmptyString (value.bind (Json.get "revision"))).getD
    (String.ofList (Js.stringify (value.getD .null)))
  if toolCallId ∈ current.subagentToolCallIds then
    current
  else if current.structuredRevisionByCallId.lookup toolCallId = some revision then
    current
  else
    let structured := renderToolStructuredContent value
    let messageId := (current.toolResultMessageIdByCallId.lookup toolCallId).getD ("tool-result:" ++ toolCallId)
    let base := withoutPreviousStructuredText (current.toolText messageId)
      ((current.structuredTextByCallId.lookup toolCallId).getD "")
    let (text, appended) := appendToolText base structured
    let next := current.upsertToolResult runId messageId toolCallId text time
    let toolMeta := withToolStructured (next.toolMetaByCallId.lookup toolCallId) toolCallId
      (value.bind (array? "content")) (value.bind (array? "locations"))
    { next with
      messages := attachToolMeta next.messages toolMeta
      toolMetaByCallId := next.toolMetaByCallId.assign toolCallId toolMeta
      structuredRevisionByCallId := next.structuredRevisionByCallId.assign toolCallId revision
      structuredTextByCallId := next.structuredTextByCallId.assign toolCallId appended }

def reduceSubagentActivity (threadId runId time : String) (value : Option Json) : AgUiThreadMessageState :=
  let toolCallId := (nonEmptyString (value.bind (Json.get "toolCallId"))).getD "unknown"
  match readReceiverThreadIds (value.bind (Json.get "receiverThreadIds")) with
  | [] => current
  | receiverThreadId :: others =>
    let subAgent := createSubagentMeta toolCallId (receiverThreadId :: others) value threadId
    let resultPreview := nonEmptyString (value.bind (Json.get "resultPreview"))
    let text := formatSubagentActivity subAgent receiverThreadId resultPreview
    let withoutMessages := (current.keepMessages (·.id ∉ subagentMessageIds toolCallId)).suppress toolCallId
    let card := createActivityMessage ("subagent:" ++ toolCallId) SUBAGENT_ACTIVITY_TYPE
      (.object [("text", .string text), ("subAgent", subAgent.toJson)]) time
    withoutMessages.upsertMessage card runId time

def rememberToolMeta (toolMeta : ChatToolMeta) : AgUiThreadMessageState :=
  if toolMeta.toolCallId ∈ current.subagentToolCallIds then
    current
  else
    let merged := mergeToolMeta (current.toolMetaByCallId.lookup toolMeta.toolCallId) toolMeta
    { current with
      messages := attachToolMeta current.messages merged
      toolMetaByCallId := current.toolMetaByCallId.assign toolMeta.toolCallId merged }

def reduceToolMeta (runId time : String) (value : Option Json) : AgUiThreadMessageState :=
  match parseToolMeta value with
  | none => current
  | some toolMeta =>
    let started :=
      if current.isStarted toolMeta.toolCallId then
        current
      else
        current.startToolCall runId toolMeta.toolCallId toolMeta.title none time
    started.rememberToolMeta toolMeta

def storeCustomMetadata (name : String) (value : Option Json) : AgUiThreadMessageState :=
  let order := current.customMetadataOrder.filter (· ≠ name) ++ [name]
  let order := order.drop (order.length - MAX_CUSTOM_METADATA_ENTRIES)
  { current with
    customMetadata := order.map fun entry =>
      (entry, if entry = name then value else (current.customMetadata.lookup entry).join)
    customMetadataOrder := order }

/--
The pieces that an assembly has after one more of them.
-/
def assembled (chunk : CustomChunk) : List (Nat × String) :=
  match current.chunkAssemblies.lookup chunk.key with
  | some existing =>
    if existing.count = chunk.count then existing.chunks.assign chunk.index chunk.data else [(chunk.index, chunk.data)]
  | none => [(chunk.index, chunk.data)]

def withAssembly (chunk : CustomChunk) : AgUiThreadMessageState :=
  { current with
    chunkAssemblies := current.chunkAssemblies.assign chunk.key { count := chunk.count, chunks := current.assembled chunk } }

def withoutAssembly (key : String) : AgUiThreadMessageState :=
  { current with chunkAssemblies := List.forget key current.chunkAssemblies }

/--
An event with one of the names that are handled.
-/
def reduceNamedEvent (threadId runId time name : String) (payload : Option Json) : AgUiThreadMessageState :=
  let value := record payload
  if name = "dappercode.dev/message-content" then current.reduceStructuredMessageContent runId time value
  else if name = "dappercode.dev/tool-text" then current.reduceToolText runId time value
  else if name = "dappercode.dev/tool-content" then current.reduceToolContent runId time value
  else if name = "dappercode.dev/subagent" then current.reduceSubagentActivity threadId runId time value
  else if name = TOOL_META_EVENT_NAME then current.reduceToolMeta runId time value
  else current.storeCustomMetadata name payload

end AgUiThreadMessageState

def CHUNK_SUFFIX : String := "-chunk"

/--
The name without the ending, if it ends so.
-/
def chunkedName (name : String) : Option String :=
  if CHUNK_SUFFIX.toList.isSuffixOf name.toList then
    some (String.ofList (name.toList.take (name.length - CHUNK_SUFFIX.length)))
  else
    none

/--
The pieces in order, if they are all there.
-/
def joinChunks (count : Nat) (chunks : List (Nat × String)) : String :=
  String.join ((List.range count).map fun index => (chunks.lookup index).getD "")

/-! Snapshots -/

def isFailedSubagentStatus (status : String) : Bool :=
  ["failed", "error", "aborted", "cancelled", "canceled"].contains (toLowerCase (Js.trim status))

/--
`split('\n')`
-/
def splitLines (text : String) : List String :=
  (text.toList.splitOn '\n').map String.ofList

def terminalizeSubagentCard (failed : Bool) (message : ChatMessage) : ChatMessage :=
  match message.body with
  | .activity activityType content =>
    if activityType ≠ SUBAGENT_ACTIVITY_TYPE then
      message
    else
      let subAgent := record (content.get "subAgent")
      let existingStatus := nonEmptyString (subAgent.bind (Json.get "agentStatus"))
      let effectiveStatus := (existingStatus.filter isFailedSubagentStatus).getD (if failed then "failed" else "completed")
      let text := (text? "text" content).getD ""
      let latest := (splitLines text).find? fun line => "Latest:".toList.isPrefixOf (Js.trimStart line.toList)
      let text := joinLines <|
        [if isFailedSubagentStatus effectiveStatus then "• Sub-agent failed" else "• Sub-agent completed",
          "  Status: " ++ effectiveStatus]
        ++ latest.toList
      let subAgent := Json.object (Json.insertField "agentStatus" (.string effectiveStatus) (spread subAgent))
      { message with
        body := .activity activityType (setField "subAgent" subAgent (setField "text" (.string text) content)) }
  | _ => message

/--
The error of a result that is reported.
-/
def snapshotToolFailed (messages : List Message) (toolCallId : String) : Bool :=
  messages.any fun message =>
    match message.body with
    | .tool id _ error => id == toolCallId && (truthy error).isSome
    | _ => false

def suppressedToolCallIds (suppressed : List String) (body : Body) : List String :=
  match body with
  | .tool toolCallId _ _ => if toolCallId ∈ suppressed then [toolCallId] else []
  | body => (body.toolCalls.map (·.id)).filter (· ∈ suppressed)

/--
The cards of the sub-agents by their tool calls.
-/
def collectCurrentSubagentsById (messages : List ChatMessage) : List (String × ChatMessage) :=
  messages.foldl
    (fun cards message =>
      match subAgentCallId message.body with
      | some toolCallId => cards.assign toolCallId message
      | none => cards)
    []

/--
The tool calls that activities of a snapshot stand for.
-/
def snapshotActivityIds (messages : List Message) : List String :=
  messages.filterMap fun message => subAgentCallId message.body

/--
What the messages of a snapshot have been turned into so far.
-/
structure SnapshotMessages where
  nextMessages : List ChatMessage := []
  toolMetaByCallId : List (String × ChatToolMeta)
  restoredSubagents : List String := []

/--
What the messages of a snapshot are compared with.
-/
structure SnapshotContext where
  messages : List Message
  currentSubagents : List (String × ChatMessage)
  snapshotSubagentIds : List String
  snapshotActivityIds : List String
  terminalMessageIds : List String
  previous : String → Option ChatMessage
  time : String

namespace SnapshotContext

variable (ctx : SnapshotContext)

/--
The card of a sub-agent that a snapshot shows as a tool is kept in the place of the tool.
-/
def restoreSuppressedSubagentCard (built : SnapshotMessages) (toolCallId : String) : SnapshotMessages :=
  match ctx.currentSubagents.lookup toolCallId with
  | none => built
  | some currentSubagent =>
    if toolCallId ∈ ctx.snapshotActivityIds ∨ toolCallId ∈ built.restoredSubagents then
      built
    else
      let card :=
        if currentSubagent.id ∈ ctx.terminalMessageIds then
          terminalizeSubagentCard (snapshotToolFailed ctx.messages toolCallId) currentSubagent
        else
          currentSubagent
      { built with
        nextMessages := built.nextMessages ++ [card]
        restoredSubagents := built.restoredSubagents ++ [toolCallId] }

def applySnapshotToolMeta (content : Json) (built : SnapshotMessages) : SnapshotMessages :=
  match parseToolMeta (some content) with
  | none => built
  | some toolMeta =>
    if toolMeta.toolCallId ∈ ctx.snapshotSubagentIds then
      built
    else
      let merged := mergeToolMeta (built.toolMetaByCallId.lookup toolMeta.toolCallId) toolMeta
      { built with toolMetaByCallId := built.toolMetaByCallId.assign toolMeta.toolCallId merged }

/--
The content of the activity that carries the metadata of a tool.
-/
def toolMetaContent (body : Body) : Option Json :=
  match body with
  | .activity activityType content => if activityType = TOOL_META_ACTIVITY_TYPE then some content else none
  | _ => none

def nextMessage (message : Message) : ChatMessage :=
  let existing := ctx.previous message.id
  let existingParts := existing.bind (·.parts)
  let nextMessage : ChatMessage :=
    { message with
      createdAt := (existing.map (·.createdAt)).getD ctx.time
      parts := if partsMatchMessageContent existingParts message.body.content then existingParts else none }
  preserveKnownSubAgentThreadLink existing nextMessage

def buildMessage (built : SnapshotMessages) (message : Message) : SnapshotMessages :=
  match toolMetaContent message.body with
  | some content => ctx.applySnapshotToolMeta content built
  | none =>
    let suppressedIds := suppressedToolCallIds ctx.snapshotSubagentIds message.body
    if suppressedIds ≠ [] then
      suppressedIds.foldl ctx.restoreSuppressedSubagentCard built
    else
      { built with nextMessages := built.nextMessages ++ [ctx.nextMessage message] }

def buildSnapshotMessages (toolMetaByCallId : List (String × ChatToolMeta)) : SnapshotMessages :=
  ctx.messages.foldl ctx.buildMessage { toolMetaByCallId }

end SnapshotContext

def snapshotToolCallMessageIds (messages : List ChatMessage) : List (String × String) :=
  messages.flatMap fun message => message.body.toolCalls.map fun call => (call.id, message.id)

def snapshotToolResultMessageIds (messages : List ChatMessage) : List (String × String) :=
  messages.filterMap fun message =>
    match message.body with
    | .tool toolCallId _ _ => some (toolCallId, message.id)
    | _ => none

def rebaseToolBookkeeping (previous fromSnapshot : List (String × String)) (survivingMessageIds : List String)
    : List (String × String) :=
  fromSnapshot.foldl (fun next entry => next.assign entry.1 entry.2)
    (previous.filter fun entry => entry.2 ∈ survivingMessageIds)

namespace AgUiThreadMessageState

variable (current : AgUiThreadMessageState)

def snapshotContext (messages : List Message) (time : String) : SnapshotContext :=
  let activityIds := snapshotActivityIds messages
  { messages
    currentSubagents := collectCurrentSubagentsById current.messages
    snapshotSubagentIds := activityIds.foldl (fun ids id => including id ids) current.subagentToolCallIds
    snapshotActivityIds := activityIds
    terminalMessageIds := current.terminalMessageIds
    previous := fun id => current.messages.findRev? (·.id == id)
    time }

def applyMessagesSnapshot (runId : String) (messages : List Message) (time : String) : AgUiThreadMessageState :=
  let ctx := current.snapshotContext messages time
  let built := ctx.buildSnapshotMessages current.toolMetaByCallId
  let nextMessages := built.nextMessages
  let kept := (built.toolMetaByCallId.map (·.2)).foldl attachToolMeta
    (nextMessages.drop (nextMessages.length - MAX_MESSAGES_PER_THREAD))
  let keptIds := kept.map (·.id)
  { current with
    messages := kept
    messageIndexById := indexMessages kept
    authoritativeSnapshot := true
    runByMessageId := nextMessages.foldl (fun entries message => entries.assign message.id runId) []
    terminalMessageIds := nextMessages.map (·.id)
    subagentToolCallIds := ctx.snapshotSubagentIds
    toolMetaByCallId := built.toolMetaByCallId
    toolCallMessageIdByCallId :=
      rebaseToolBookkeeping current.toolCallMessageIdByCallId (snapshotToolCallMessageIds kept) keptIds
    toolResultMessageIdByCallId :=
      rebaseToolBookkeeping current.toolResultMessageIdByCallId (snapshotToolResultMessageIds kept) keptIds }

end AgUiThreadMessageState

/-! Events -/

inductive AGUIEvent where
  | runStarted
  /-- `RUN_FINISHED` or `RUN_ERROR` -/
  | runEnded
  | textMessageStart (messageId : String) (role : TextRole) (name : Option String) (replacesMessageId : Option Json)
  | textMessageContent (messageId delta : String)
  | textMessageEnd (messageId : String)
  | textMessageChunk (messageId : Option String) (role : Option TextRole) (name delta : Option String)
  /-- `REASONING_START` or `REASONING_MESSAGE_START` -/
  | reasoningStart (messageId : String)
  | reasoningMessageContent (messageId delta : String)
  | reasoningMessageChunk (messageId delta : Option String)
  /-- `REASONING_MESSAGE_END` or `REASONING_END` -/
  | reasoningEnd (messageId : String)
  | reasoningEncryptedValue (ofToolCall : Bool) (entityId encryptedValue : String)
  | toolCallStart (toolCallId toolCallName : String) (parentMessageId : Option String)
  | toolCallArgs (toolCallId delta : String)
  | toolCallEnd (toolCallId : String)
  | toolCallChunk (toolCallId toolCallName parentMessageId delta : Option String)
  | toolCallResult (messageId toolCallId content : String)
  | messagesSnapshot (messages : List Message)
  | activitySnapshot (messageId activityType : String) (content : Json)
  | custom (name : String) (value : Option Json)

/--
The time is what `timestampIso` prints for the event.
-/
structure AgUiEventEnvelope where
  threadId : String
  runId : String
  time : String
  event : AGUIEvent

namespace AgUiThreadMessageState

variable (current : AgUiThreadMessageState)

def startText (messageId : String) (role : TextRole) (name : Option String) (runId time : String)
    : AgUiThreadMessageState :=
  if (current.findMessage messageId).isSome then
    current
  else
    current.upsertMessage (textMessage messageId role "" name time) runId time

def startReasoning (messageId runId time : String) : AgUiThreadMessageState :=
  if (current.findMessage messageId).isSome then
    current
  else
    current.upsertMessage (reasoningMessage messageId "" time) runId time

def reduceTextMessageChunk (messageId : Option String) (role : Option TextRole) (name delta : Option String)
    (runId time : String)
    : AgUiThreadMessageState :=
  let messageId := messageId.getD (runId ++ ":text")
  let role := role.getD .assistant
  let next := current.startText messageId role name runId time
  match truthy delta with
  | some delta => next.appendText messageId delta runId time (some role)
  | none => next

def reduceReasoningChunk (messageId delta : Option String) (runId time : String) : AgUiThreadMessageState :=
  let messageId := messageId.getD (runId ++ ":reasoning")
  let next := current.startReasoning messageId runId time
  match truthy delta with
  | some delta => next.appendText messageId delta runId time none
  | none => next

def reduceToolCallChunk (toolCallName parentMessageId delta : Option String) (toolCallId runId time : String)
    : AgUiThreadMessageState :=
  let next :=
    if current.isStarted toolCallId then
      current
    else
      current.startToolCall runId toolCallId (toolCallName.getD "tool") parentMessageId time
  match truthy delta with
  | some delta => next.appendToolArgs runId toolCallId delta time
  | none => next

def endToolCall (toolCallId : String) : AgUiThreadMessageState :=
  match truthy (current.toolCallMessageIdByCallId.lookup toolCallId) with
  | some messageId => current.markTerminal messageId none
  | none => current

/--
The events of a tool call that is a sub-agent change nothing.
-/
def unlessSubagent (toolCallId : String) (next : AgUiThreadMessageState) : AgUiThreadMessageState :=
  if toolCallId ∈ current.subagentToolCallIds then current else next

end AgUiThreadMessageState

open AgUiThreadMessageState

section

variable (parse : String → Option Json)

/--
A name gets shorter each time a value that was put together is reduced, so as many rounds as the name has characters are
enough.
-/
def reduceCustomEventWithin (threadId runId time : String)
    : Nat → String → Option Json → AgUiThreadMessageState → AgUiThreadMessageState
  | rounds, name, payload, current =>
    match chunkedName name with
    | none => current.reduceNamedEvent threadId runId time name payload
    | some whole =>
      match readCustomChunk name (record payload) with
      | none => current
      | some chunk =>
        let pending := current.withAssembly chunk
        let chunks := current.assembled chunk
        if chunks.length ≠ chunk.count then
          pending
        else
          match rounds, parse (joinChunks chunk.count chunks) with
          | rounds + 1, some value =>
            (reduceCustomEventWithin threadId runId time rounds whole (some value) pending).withoutAssembly chunk.key
          | _, _ => pending

def reduceCustomEvent (threadId runId time name : String) (payload : Option Json) (current : AgUiThreadMessageState)
    : AgUiThreadMessageState :=
  reduceCustomEventWithin parse threadId runId time name.length name payload current

def reduceThreadState (current : AgUiThreadMessageState) (envelope : AgUiEventEnvelope) : AgUiThreadMessageState :=
  let runId := envelope.runId
  let time := envelope.time
  match envelope.event with
  | .runStarted => createAgUiThreadMessageState
  | .runEnded => current.markRunTerminal runId (some time)
  | .textMessageStart messageId role name replacesMessageId =>
    (current.startText messageId role name runId time).rememberReplacement messageId (nonEmptyString replacesMessageId)
  | .textMessageContent messageId delta => current.appendText messageId delta runId time (some .assistant)
  | .textMessageEnd messageId => current.markTerminal messageId (some time)
  | .textMessageChunk messageId role name delta => current.reduceTextMessageChunk messageId role name delta runId time
  | .reasoningStart messageId => current.startReasoning messageId runId time
  | .reasoningMessageContent messageId delta => current.appendText messageId delta runId time none
  | .reasoningMessageChunk messageId delta => current.reduceReasoningChunk messageId delta runId time
  | .reasoningEnd messageId => current.markTerminal messageId none
  | .reasoningEncryptedValue ofToolCall entityId encryptedValue =>
    current.updateEncryptedValue entityId encryptedValue ofToolCall
  | .toolCallStart toolCallId toolCallName parentMessageId =>
    current.unlessSubagent toolCallId (current.startToolCall runId toolCallId toolCallName parentMessageId time)
  | .toolCallArgs toolCallId delta =>
    current.unlessSubagent toolCallId (current.appendToolArgs runId toolCallId delta time)
  | .toolCallEnd toolCallId => current.unlessSubagent toolCallId (current.endToolCall toolCallId)
  | .toolCallChunk toolCallId toolCallName parentMessageId delta =>
    match truthy toolCallId with
    | some toolCallId =>
      current.unlessSubagent toolCallId
        (current.reduceToolCallChunk toolCallName parentMessageId delta toolCallId runId time)
    | none => current
  | .toolCallResult messageId toolCallId content =>
    current.unlessSubagent toolCallId (current.appendToolResult runId messageId toolCallId content time)
  | .messagesSnapshot messages => current.applyMessagesSnapshot runId messages time
  | .activitySnapshot messageId activityType content =>
    current.reduceActivitySnapshot runId messageId activityType content time
  | .custom name value => reduceCustomEvent parse envelope.threadId runId time name value current

/--
The events of a thread in the order in which they arrive.
-/
def reduceThreadStates (current : AgUiThreadMessageState) (envelopes : List AgUiEventEnvelope) : AgUiThreadMessageState :=
  envelopes.foldl (reduceThreadState parse) current

end

end Mobile.Thread
