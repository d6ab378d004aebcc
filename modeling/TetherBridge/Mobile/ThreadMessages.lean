import TetherBridge.Data.Recent
import TetherBridge.Mobile.ThreadContent

/-!
This module contains the messages of a transcript and what `messages.ts` and `toolMeta.ts` do with them. The body of a
message has the fields of its role, and the content of an activity is an object.
-/

namespace Mobile.Thread

def SUBAGENT_ACTIVITY_TYPE : String := "dappercode.subagent"
def TOOL_META_EVENT_NAME : String := "dappercode.dev/tool-meta"
def TOOL_META_ACTIVITY_TYPE : String := "dappercode.tool"

structure ToolCall where
  id : String
  name : String
  arguments : String
  encryptedValue : Option String := none

inductive Body where
  | developer (content : String)
  | system (content : String)
  | assistant (content : Option String) (toolCalls : Option (List ToolCall))
  | user (content : Json)
  | tool (toolCallId content : String) (error : Option String)
  | reasoning (content : String)
  | activity (activityType : String) (content : Json)

/--
A message as it is sent.
-/
structure Message where
  id : String
  body : Body
  name : Option String := none
  encryptedValue : Option String := none

/-! Tools -/

inductive ChatToolKind where
  | read
  | edit
  | delete
  | move
  | search
  | execute
  | think
  | fetch
  | switchMode
  | other
  deriving DecidableEq, Repr

inductive ChatToolStatus where
  | pending
  | inProgress
  | completed
  | failed
  deriving DecidableEq, Repr

def ChatToolKind.name : ChatToolKind → String
  | .read => "read"
  | .edit => "edit"
  | .delete => "delete"
  | .move => "move"
  | .search => "search"
  | .execute => "execute"
  | .think => "think"
  | .fetch => "fetch"
  | .switchMode => "switch_mode"
  | .other => "other"

def ChatToolStatus.name : ChatToolStatus → String
  | .pending => "pending"
  | .inProgress => "in_progress"
  | .completed => "completed"
  | .failed => "failed"

def TOOL_KINDS : List ChatToolKind :=
  [.read, .edit, .delete, .move, .search, .execute, .think, .fetch, .switchMode, .other]

def TOOL_STATUSES : List ChatToolStatus :=
  [.pending, .inProgress, .completed, .failed]

structure ChatToolMeta where
  toolCallId : String
  kind : ChatToolKind
  status : ChatToolStatus
  title : String
  content : Option (List Json) := none
  locations : Option (List Json) := none
  truncated : Option Bool := none

structure ChatMessage extends Message where
  parts : Option (List Json) := none
  createdAt : String
  completedAt : Option String := none
  pending : Option Bool := none
  toolMeta : Option ChatToolMeta := none

/--
`toLowerCase` where only the characters that become ASCII letters matter: the Kelvin sign is one of them.
-/
def toLowerCase (text : String) : String :=
  String.ofList (text.toList.map fun c => if c.toNat = 0x212a then 'k' else c.toLower)

def normalizedName (value : Option Json) : Option String :=
  (nonEmptyString value).map fun name =>
    String.ofList ((toLowerCase name).toList.map fun c => if c = '-' then '_' else c)

def toToolKind (value : Option Json) : ChatToolKind :=
  (TOOL_KINDS.find? fun kind => some kind.name = normalizedName value).getD .other

def toToolStatus (value : Option Json) : ChatToolStatus :=
  (TOOL_STATUSES.find? fun status => some status.name = normalizedName value).getD .pending

def parseToolMeta (value : Option Json) : Option ChatToolMeta :=
  (record value).bind fun entry =>
    (nonEmptyString (entry.get "toolCallId")).map fun toolCallId =>
      let kind := toToolKind (entry.get "kind")
      { toolCallId
        kind
        status := toToolStatus (entry.get "status")
        title := (nonEmptyString (entry.get "title")).getD kind.name
        content := array? "content" entry
        locations := array? "locations" entry
        truncated := (entry.get "truncated").bind Json.asBool }

def mergeToolMeta (previous : Option ChatToolMeta) (next : ChatToolMeta) : ChatToolMeta :=
  match previous with
  | none => next
  | some previous =>
    { next with
      content := next.content.or previous.content
      locations := next.locations.or previous.locations
      truncated := next.truncated.or previous.truncated }

def withToolStructured (previous : Option ChatToolMeta) (toolCallId : String) (content locations : Option (List Json))
    : ChatToolMeta :=
  let base := previous.getD { toolCallId, kind := .other, status := .pending, title := "other" }
  { base with content := content.or base.content, locations := locations.or base.locations }

def Body.toolCalls : Body → List ToolCall
  | .assistant _ toolCalls => toolCalls.getD []
  | _ => []

def Body.isAssistant : Body → Bool
  | .assistant _ _ => true
  | _ => false

def Body.isReasoning : Body → Bool
  | .reasoning _ => true
  | _ => false

def Body.toolContent : Body → Option String
  | .tool _ content _ => some content
  | _ => none

/--
`messageReferencesToolCall`
-/
def Body.referencesToolCall (toolCallId : String) : Body → Bool
  | .tool id _ _ => id == toolCallId
  | .assistant _ toolCalls => (toolCalls.getD []).any (·.id == toolCallId)
  | _ => false

/--
Two arrays are the same where they print the same.
-/
def sameArray (left right : Option (List Json)) : Bool :=
  left.map Js.stringifyValues == right.map Js.stringifyValues

def shallowEqualMeta (left right : ChatToolMeta) : Bool :=
  left.kind == right.kind && left.status == right.status && left.title == right.title
    && left.truncated == right.truncated && sameArray left.content right.content
    && sameArray left.locations right.locations

def stampToolMeta (toolMeta : ChatToolMeta) (message : ChatMessage) : ChatMessage :=
  if message.body.referencesToolCall toolMeta.toolCallId then
    let merged := mergeToolMeta message.toolMeta toolMeta
    if message.toolMeta.any (shallowEqualMeta · merged) then message else { message with toolMeta := some merged }
  else
    message

def attachToolMeta (messages : List ChatMessage) (toolMeta : ChatToolMeta) : List ChatMessage :=
  messages.map (stampToolMeta toolMeta)

/-! Texts -/

def readUserText : Json → String
  | .string content => content
  | .array parts => String.join (parts.filterMap fun part => if isTextPart part then text? "text" part else none)
  | _ => ""

/--
`getMessageText`
-/
def Body.text : Body → String
  | .developer content => content
  | .system content => content
  | .assistant content _ => content.getD ""
  | .user content => readUserText content
  | .tool _ content _ => content
  | .reasoning content => content
  | .activity _ content => (text? "text" content).getD ""

def Body.content : Body → Option Json
  | .developer content => some (.string content)
  | .system content => some (.string content)
  | .assistant content _ => content.map .string
  | .user content => some content
  | .tool _ content _ => some (.string content)
  | .reasoning content => some (.string content)
  | .activity _ content => some content

def setField (key : String) (value : Json) : Json → Json
  | .object fields => .object (Json.insertField key value fields)
  | other => other

/--
`withText`
-/
def Body.withText (content : String) : Body → Body
  | .developer _ => .developer content
  | .system _ => .system content
  | .assistant _ toolCalls => .assistant (some content) toolCalls
  | .user _ => .user (.string content)
  | .tool toolCallId _ error => .tool toolCallId content error
  | .reasoning _ => .reasoning content
  | .activity activityType old => .activity activityType (setField "text" (.string content) old)

/-! Sub-agents -/

def isOptionalStringProperty (value : Json) (key : String) : Bool :=
  match value.get key with
  | none => true
  | some property => property.asStr.isSome

def isOptionalStringArrayProperty (value : Json) (key : String) : Bool :=
  match value.get key with
  | none => true
  | some (.array items) => items.all (·.asStr.isSome)
  | some _ => false

def isObject : Json → Bool
  | .object _ => true
  | .array _ => true
  | _ => false

def isChatMessageSubAgentMeta (value : Json) : Bool :=
  isObject value
    && ["toolCallId", "tool", "prompt", "senderThreadId"].all (isOptionalStringProperty value)
    && isOptionalStringArrayProperty value "receiverThreadIds"
    && isOptionalStringProperty value "agentStatus"

/--
The content of the activity of a sub-agent.
-/
def Body.subAgentContent : Body → Option Json
  | .activity activityType content => if activityType = SUBAGENT_ACTIVITY_TYPE then some content else none
  | _ => none

def getSubAgentMeta (body : Body) : Option Json :=
  (body.subAgentContent.bind (Json.get "subAgent")).filter isChatMessageSubAgentMeta

def receiverThreadIds (subAgent : Option Json) : List String :=
  let ids := (subAgent.bind (array? "receiverThreadIds")).getD []
  ((ids.filterMap Json.asStr).map Js.trim).filter (· ≠ "")

/--
The entries of an object or an array, as the spread syntax copies them.
-/
def spread : Option Json → List (String × Json)
  | some (.object fields) => fields
  | some (.array values) => values.zipIdx.map fun (value, index) => (toString index, value)
  | _ => []

def withFields (fields : List (String × Json)) (base : List (String × Json)) : List (String × Json) :=
  fields.foldl (fun base field => Json.insertField field.1 field.2 base) base

def preserveKnownSubAgentThreadLink (existing : Option ChatMessage) (incoming : ChatMessage) : ChatMessage :=
  match incoming.body with
  | .activity activityType content =>
    if activityType ≠ SUBAGENT_ACTIVITY_TYPE then
      incoming
    else
      let existingMeta := existing.bind fun existing => getSubAgentMeta existing.body
      let incomingMeta := getSubAgentMeta incoming.body
      let existingIds := receiverThreadIds existingMeta
      let existingCall := truthy (existingMeta.bind (text? "toolCallId"))
      let incomingCall := truthy (incomingMeta.bind (text? "toolCallId"))
      if existingIds = [] then
        incoming
      else if receiverThreadIds incomingMeta ≠ []
          ∨ (existingCall.isSome && incomingCall.isSome && existingCall ≠ incomingCall) then
        incoming
      else
        let subAgent := withFields (spread incomingMeta) (spread existingMeta)
        let subAgent := Json.insertField "receiverThreadIds" (.array (existingIds.map .string)) subAgent
        { incoming with body := .activity activityType (setField "subAgent" (.object subAgent) content) }
  | _ => incoming

def createActivityMessage (id activityType : String) (content : Json) (createdAt : String) : ChatMessage :=
  { id, body := .activity activityType content, createdAt }

/--
The tool call a card of a sub-agent stands for.
-/
def subAgentCallId (body : Body) : Option String :=
  body.subAgentContent.bind fun content =>
    nonEmptyString ((record (content.get "subAgent")).bind (Json.get "toolCallId"))

end Mobile.Thread
