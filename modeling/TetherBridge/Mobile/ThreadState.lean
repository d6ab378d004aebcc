import TetherBridge.Data.Indexed
import TetherBridge.Mobile.ThreadMessages

/-!
This module contains the state the app keeps for the live messages of a thread, and the ways in which a message is written
to it. The time of an event is given as it is printed.
-/

namespace Mobile.Thread

def MAX_MESSAGES_PER_THREAD : Nat := 128
def MAX_CUSTOM_METADATA_ENTRIES : Nat := 128

structure AgUiChunkAssembly where
  count : Nat
  chunks : List (Nat × String)

structure AgUiThreadMessageState where
  messages : List ChatMessage := []
  messageIndexById : List (String × Nat) := []
  authoritativeSnapshot : Bool := false
  runByMessageId : List (String × String) := []
  terminalMessageIds : List String := []
  replacesMessageIdByMessageId : List (String × String) := []
  toolCallMessageIdByCallId : List (String × String) := []
  toolResultMessageIdByCallId : List (String × String) := []
  subagentToolCallIds : List String := []
  toolMetaByCallId : List (String × ChatToolMeta) := []
  toolTextRevisionByCallId : List (String × String) := []
  structuredRevisionByCallId : List (String × String) := []
  structuredTextByCallId : List (String × String) := []
  chunkAssemblies : List (String × AgUiChunkAssembly) := []
  customMetadata : List (String × Option Json) := []
  customMetadataOrder : List String := []

def createAgUiThreadMessageState : AgUiThreadMessageState := {}

def indexMessages (messages : List ChatMessage) : List (String × Nat) :=
  messages.indexTable (·.id)

/--
A set to which an element is added.
-/
def including (id : String) (ids : List String) : List String :=
  if id ∈ ids then ids else ids ++ [id]

inductive TextRole where
  | developer
  | system
  | assistant
  | user
  deriving DecidableEq, Repr

def textMessage (id : String) (role : TextRole) (content : String) (name : Option String) (createdAt : String)
    : ChatMessage :=
  let name := truthy name
  match role with
  | .developer => { id, body := .developer content, name, createdAt }
  | .system => { id, body := .system content, name, createdAt }
  | .user => { id, body := .user (.string content), name, createdAt }
  | .assistant => { id, body := .assistant (some content) none, name, createdAt, pending := some true }

def reasoningMessage (id content createdAt : String) : ChatMessage :=
  { id, body := .reasoning content, createdAt, pending := some true }

def textPart (text : String) : Json :=
  .object [("type", .string "text"), ("text", .string text)]

def isChatMessagePart (part : Json) : Bool :=
  match text? "type" part with
  | some "text" => (text? "text" part).isSome
  | some "image" => true
  | some "audio" => true
  | some "resourceLink" => (text? "uri" part).isSome
  | some "resource" => (record (part.get "resource")).isSome
  | _ => false

/--
The text of a part that is a text.
-/
def partText (part : Json) : Option String :=
  if isTextPart part then text? "text" part else none

def appendOrderedPart (parts : List Json) (part : Option Json) : List Json :=
  match part.bind partText with
  | none => parts ++ (part.filter isChatMessagePart).toList
  | some text =>
    if text = "" then
      parts
    else
      match parts.getLast?.bind partText with
      | some previous => parts.dropLast ++ [textPart (previous ++ text)]
      | none => parts ++ [textPart text]

def renderOrderedParts (parts : List Json) : String :=
  joinLines (parts.map renderAgUiCustomContent)

def upsertToolCall (calls : List ToolCall) (id name arguments : String) : List ToolCall :=
  match calls.findIdx? (·.id == id) with
  | some index => calls.set index { id, name, arguments }
  | none => calls ++ [{ id, name, arguments }]

def withoutMessageIds (entries : List (String × String)) (dropped : List String) : List (String × String) :=
  entries.filter fun entry => entry.1 ∉ dropped

def withoutMessageValues (entries : List (String × String)) (dropped : List String) : List (String × String) :=
  entries.filter fun entry => entry.2 ∉ dropped

namespace AgUiThreadMessageState

variable (current : AgUiThreadMessageState)

def findMessageIndex (id : String) : Option Nat :=
  match current.messageIndexById.lookup id with
  | some indexed =>
    if (current.messages[indexed]?).any (·.id == id) then
      some indexed
    else
      current.messages.findIdx? (·.id == id)
  | none => current.messages.findIdx? (·.id == id)

def findMessage (id : String) : Option ChatMessage :=
  (current.findMessageIndex id).bind fun index => current.messages[index]?

def rememberReplacement (messageId : String) (replacesMessageId : Option String) : AgUiThreadMessageState :=
  match replacesMessageId with
  | none => current
  | some replaced =>
    { current with
      replacesMessageIdByMessageId := current.replacesMessageIdByMessageId.assign messageId replaced }

/--
The messages once the message is in its place, or at the end.
-/
def putMessage (message : ChatMessage) (time : String) : List ChatMessage :=
  match current.findMessageIndex message.id with
  | some index =>
    let createdAt := (current.messages[index]?.map (·.createdAt)).getD time
    current.messages.set index { message with createdAt }
  | none => current.messages ++ [{ message with createdAt := time }]

def indexWith (message : ChatMessage) : List (String × Nat) :=
  match current.findMessageIndex message.id with
  | some index =>
    if current.messageIndexById.lookup message.id = some index then
      current.messageIndexById
    else
      current.messageIndexById.assign message.id index
  | none => current.messageIndexById.assign message.id current.messages.length

/--
The state without what is known of the messages that are dropped.
-/
def forgetMessages (dropped : List String) : AgUiThreadMessageState :=
  { current with
    messageIndexById := indexMessages current.messages
    runByMessageId := withoutMessageIds current.runByMessageId dropped
    replacesMessageIdByMessageId := withoutMessageIds current.replacesMessageIdByMessageId dropped
    toolCallMessageIdByCallId := withoutMessageValues current.toolCallMessageIdByCallId dropped
    toolResultMessageIdByCallId := withoutMessageValues current.toolResultMessageIdByCallId dropped
    terminalMessageIds := current.terminalMessageIds.filter (· ∉ dropped) }

def upsertMessage (message : ChatMessage) (runId time : String) : AgUiThreadMessageState :=
  let messages := current.putMessage message time
  let excess := messages.length - MAX_MESSAGES_PER_THREAD
  let runByMessageId := current.runByMessageId.assign message.id runId
  if excess = 0 then
    { current with messages, messageIndexById := current.indexWith message, runByMessageId }
  else
    let next := { current with messages := messages.drop excess, runByMessageId }
    next.forgetMessages ((messages.take excess).map (·.id))

/--
The messages that are kept, with their index.
-/
def keepMessages (keep : ChatMessage → Bool) : AgUiThreadMessageState :=
  let messages := current.messages.filter keep
  { current with messages, messageIndexById := indexMessages messages }

/-! Texts -/

/--
The branch of `appendText` for a message that is no reasoning.
-/
def appendPlainText (messageId delta runId time : String) (defaultRole : TextRole) : AgUiThreadMessageState :=
  let existing := current.findMessage messageId
  let existingParts := (existing.bind (·.parts)).getD []
  let appendedContent := (existing.map (·.body.text)).getD "" ++ delta
  let onlyTextParts := existingParts.all isTextPart
  let parts :=
    if onlyTextParts then [textPart appendedContent] else appendOrderedPart existingParts (some (textPart delta))
  let content := if onlyTextParts then appendedContent else renderOrderedParts parts
  let message := match existing with
    | some existing =>
      { existing with
        body := existing.body.withText content
        parts := some parts
        pending := if existing.body.isAssistant then some true else existing.pending }
    | none => { textMessage messageId defaultRole content none time with parts := some parts }
  current.upsertMessage message runId time

def appendReasoning (messageId delta runId time : String) : AgUiThreadMessageState :=
  match current.findMessage messageId with
  | some existing =>
    let message :=
      { existing with
        body := existing.body.withText (existing.body.text ++ delta)
        pending := if existing.body.isReasoning then some true else existing.pending }
    current.upsertMessage message runId time
  | none => current.upsertMessage (reasoningMessage messageId delta time) runId time

/--
No role stands for reasoning. A text that is added to a message of reasoning is reasoning.
-/
def appendText (messageId delta runId time : String) (defaultRole : Option TextRole) : AgUiThreadMessageState :=
  match defaultRole with
  | none => current.appendReasoning messageId delta runId time
  | some defaultRole =>
    if (current.findMessage messageId).any (·.body.isReasoning) then
      current.appendReasoning messageId delta runId time
    else
      current.appendPlainText messageId delta runId time defaultRole

/-! Tools -/

/--
The message of a call that starts.
-/
def toolCallMessage (messageId toolCallId toolCallName time : String) : ChatMessage :=
  let fresh : ChatMessage :=
    { id := messageId
      body := .assistant (some "") (some [{ id := toolCallId, name := toolCallName, arguments := "" }])
      createdAt := time }
  match current.findMessage messageId with
  | some existing =>
    match existing.body with
    | .assistant content toolCalls =>
      { existing with
        body := .assistant content (some (upsertToolCall (toolCalls.getD []) toolCallId toolCallName "")) }
    | _ => fresh
  | none => fresh

def startToolCall (runId toolCallId toolCallName : String) (parentMessageId : Option String) (time : String)
    : AgUiThreadMessageState :=
  let messageId := parentMessageId.getD ("tool-call:" ++ toolCallId)
  let next := current.upsertMessage (current.toolCallMessage messageId toolCallId toolCallName time) runId time
  { next with toolCallMessageIdByCallId := next.toolCallMessageIdByCallId.assign toolCallId messageId }

/--
The call has a message already.
-/
def isStarted (toolCallId : String) : Bool :=
  (truthy (current.toolCallMessageIdByCallId.lookup toolCallId)).isSome

def appendToolArgs (runId toolCallId delta time : String) : AgUiThreadMessageState :=
  let messageId := (current.toolCallMessageIdByCallId.lookup toolCallId).getD ("tool-call:" ++ toolCallId)
  let started :=
    if current.isStarted toolCallId then current else current.startToolCall runId toolCallId "tool" none time
  match started.findMessage messageId with
  | some message =>
    match message.body with
    | .assistant content toolCalls =>
      let calls := toolCalls.getD []
      let existing := calls.find? (·.id == toolCallId)
      let calls := upsertToolCall calls toolCallId ((existing.map (·.name)).getD "tool")
        ((existing.map (·.arguments)).getD "" ++ delta)
      started.upsertMessage { message with body := .assistant content (some calls) } runId time
    | _ => started
  | none => started

/--
The messages once the metadata of a call has been stamped on them, if there is any.
-/
def stamped (toolCallId : String) : AgUiThreadMessageState :=
  match current.toolMetaByCallId.lookup toolCallId with
  | some toolMeta => { current with messages := attachToolMeta current.messages toolMeta }
  | none => current

def upsertToolResult (runId messageId toolCallId content time : String) : AgUiThreadMessageState :=
  let toolMessage : ChatMessage := { id := messageId, body := .tool toolCallId content none, createdAt := time }
  let next := (current.upsertMessage toolMessage runId time).stamped toolCallId
  { next with toolResultMessageIdByCallId := next.toolResultMessageIdByCallId.assign toolCallId messageId }

/--
The text of the message if it is a result.
-/
def toolText (messageId : String) : String :=
  ((current.findMessage messageId).bind fun message => message.body.toolContent).getD ""

def appendToolResult (runId messageId toolCallId delta time : String) : AgUiThreadMessageState :=
  match truthy (current.toolResultMessageIdByCallId.lookup toolCallId) with
  | none => current.upsertToolResult runId messageId toolCallId delta time
  | some previousId =>
    let withoutPrevious := if previousId ≠ messageId then current.keepMessages (·.id != previousId) else current
    withoutPrevious.upsertToolResult runId messageId toolCallId (current.toolText previousId ++ delta) time

/-! Sub-agents -/

def suppress (toolCallId : String) : AgUiThreadMessageState :=
  { current with subagentToolCallIds := including toolCallId current.subagentToolCallIds }

/--
The state without the messages of a call that is a sub-agent.
-/
def withoutGenericTool (toolCallId : String) : AgUiThreadMessageState :=
  let ids := [current.toolCallMessageIdByCallId.lookup toolCallId, current.toolResultMessageIdByCallId.lookup toolCallId]
  (current.keepMessages fun message => some message.id ∉ ids).suppress toolCallId

def reduceActivitySnapshot (runId messageId activityType : String) (content : Json) (time : String)
    : AgUiThreadMessageState :=
  let incoming := createActivityMessage messageId activityType content time
  let withSuppressedTool := match subAgentCallId incoming.body with
    | some toolCallId => current.withoutGenericTool toolCallId
    | none => current
  withSuppressedTool.upsertMessage
    (preserveKnownSubAgentThreadLink (withSuppressedTool.findMessage messageId) incoming) runId time

/-! The end of a message -/

def settleReasoning (terminal : String → Bool) (message : ChatMessage) : ChatMessage :=
  if message.body.isReasoning && message.pending == some true && terminal message.id then
    { message with pending := some false }
  else
    message

def complete (terminal : String → Bool) (completedAt : Option String) (message : ChatMessage) : ChatMessage :=
  match completedAt with
  | none => message
  | some completedAt =>
    if !message.body.isAssistant || !terminal message.id
        || (message.completedAt.isSome && message.pending == some false) then
      message
    else
      { message with completedAt := some (message.completedAt.getD completedAt), pending := some false }

def settle (terminal : String → Bool) (completedAt : Option String) : AgUiThreadMessageState :=
  { current with
    messages := current.messages.map fun message => complete terminal completedAt (settleReasoning terminal message) }

def markTerminal (messageId : String) (completedAt : Option String) : AgUiThreadMessageState :=
  let settled := current.settle (· == messageId) completedAt
  { settled with terminalMessageIds := including messageId current.terminalMessageIds }

def markRunTerminal (runId : String) (completedAt : Option String) : AgUiThreadMessageState :=
  let ids := (current.runByMessageId.filter (·.2 == runId)).map (·.1)
  if ids = [] then
    current
  else
    let settled := current.settle (ids.contains ·) completedAt
    { settled with terminalMessageIds := (current.terminalMessageIds ++ ids).eraseDups }

def updateEncryptedValue (entityId encryptedValue : String) (ofToolCall : Bool) : AgUiThreadMessageState :=
  if !ofToolCall then
    match current.findMessage entityId with
    | some message =>
      current.upsertMessage { message with encryptedValue := some encryptedValue }
        ((current.runByMessageId.lookup entityId).getD "") message.createdAt
    | none => current
  else
    match (truthy (current.toolCallMessageIdByCallId.lookup entityId)).bind current.findMessage with
    | some message =>
      match message.body with
      | .assistant content toolCalls =>
        let calls := toolCalls.map fun calls => calls.map fun call =>
          if call.id = entityId then { call with encryptedValue := some encryptedValue } else call
        current.upsertMessage { message with body := .assistant content calls }
          ((current.runByMessageId.lookup message.id).getD "") message.createdAt
      | _ => current
    | none => current

end AgUiThreadMessageState

end Mobile.Thread
