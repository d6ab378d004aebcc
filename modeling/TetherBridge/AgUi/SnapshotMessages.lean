import TetherBridge.Acp.Identity
import TetherBridge.AgUi.Event
import TetherBridge.AgUi.Task

/-!
This module contains `messages_snapshot_envelope`: the messages a client is shown when it opens a thread, and how many
of them fit into one notification. A timestamp is given as it is printed.
-/

namespace AgUi

open Acp Snapshot

def NOTIFICATION_MAX_BYTES : Nat := 256 * 1024
def MESSAGES_SNAPSHOT_MAX_BYTES : Nat := NOTIFICATION_MAX_BYTES - 16 * 1024

/-! The messages -/

inductive AgUiMessageRole where
  | activity
  | assistant
  | reasoning
  | tool
  | user
  deriving DecidableEq, Repr

def AgUiMessageRole.name : AgUiMessageRole → String
  | .activity => "activity"
  | .assistant => "assistant"
  | .reasoning => "reasoning"
  | .tool => "tool"
  | .user => "user"

inductive MessageContent where
  | anythingMap (content : List (String × Json))
  | string (content : String)

def MessageContent.toJson : MessageContent → Json
  | .anythingMap content => .object content
  | .string content => .string content

/--
A call of a function. Its arguments are always the same.
-/
structure ToolCall where
  id : String
  name : String

def ToolCall.toJson (call : ToolCall) : Json :=
  .object
    [("function", .object [("arguments", .string "\x7b\x7d"), ("name", .string call.name)]),
      ("id", .string call.id),
      ("type", .string "function")]

structure Message where
  id : String
  role : AgUiMessageRole
  content : MessageContent
  toolCalls : Option (List ToolCall) := none
  error : Option String := none
  toolCallId : Option String := none
  activityType : Option String := none

/--
A field that is left out when it has no value.
-/
def presentField (key : String) (value : Option Json) : List (String × Json) :=
  (value.map fun value => (key, value)).toList

def Message.toJson (message : Message) : Json :=
  .object <|
    [("content", message.content.toJson), ("id", .string message.id), ("role", .string message.role.name)]
    ++ presentField "toolCalls" (message.toolCalls.map fun calls => .array (calls.map ToolCall.toJson))
    ++ presentField "error" (message.error.map .string)
    ++ presentField "toolCallId" (message.toolCallId.map .string)
    ++ presentField "activityType" (message.activityType.map .string)

/--
The envelope of the event. The fields of an event that serialize without a value are `null`.
-/
structure MessagesEnvelope where
  threadId : String
  runId : String
  sourceTurnId : Option String
  timestamp : String
  messages : List Message

def MessagesEnvelope.toJson (envelope : MessagesEnvelope) : Json :=
  .object <|
    [("threadId", .string envelope.threadId), ("runId", .string envelope.runId)]
    ++ presentField "sourceTurnId" (envelope.sourceTurnId.map .string)
    ++ [("event", .object
      [("rawEvent", .null),
        ("timestamp", .number envelope.timestamp),
        ("type", .string "MESSAGES_SNAPSHOT"),
        ("delta", .null),
        ("content", .null),
        ("snapshot", .null),
        ("messages", .array (envelope.messages.map Message.toJson)),
        ("event", .null),
        ("value", .null),
        ("result", .null)])]

/-! The texts -/

/--
`Value::as_u64`
-/
def asU64 : Json → Option Nat
  | .number literal => literal.toNat?.filter (· ≤ U64_MAX)
  | _ => none

def presentText (text : Option String) : Option String :=
  text.filter fun text => !text.isEmpty

/--
The lines of an object, once the lines of its fields are known.
-/
def objectLines (x : Crates) (object : Json) (fieldLines : List (String × List String)) : List String :=
  let text key := (object.get key).bind Json.asStr
  let nestedContentLines keys := keys.flatMap fun key => (fieldLines.lookup key).getD []
  if text "type" = some "text" then
    (presentText (text "text")).toList
  else if text "type" = some "content" then
    (fieldLines.lookup "content").getD []
  else
    match object.get "resource" with
    | some (.object resource) =>
      let uri := ((Json.object resource).get "uri").bind Json.asStr
      let resourceText := ((Json.object resource).get "text").bind Json.asStr
      (uri.map fun uri => "[resource: " ++ uri ++ "]").toList ++ resourceText.toList
    | _ =>
      match text "type" with
      | some "diff" =>
        ("[diff: " ++ (presentText (text "path")).getD "file" ++ "]") :: nestedContentLines ["oldText", "newText"]
      | some "terminal" =>
        ((presentText (text "terminalId")).elim "[terminal]" fun id => "[terminal: " ++ id ++ "]")
          :: nestedContentLines ["output", "content"]
      | some "resource_link" | some "resourceLink" =>
        ((presentText (text "uri")).map fun uri => "[file: " ++ uri ++ "]").toList
      | some "image" => ["[image]"]
      | some "audio" => ["[audio]"]
      | _ =>
        match presentText (text "path") with
        | some path =>
          [((object.get "line").bind asU64).elim ("[location: " ++ path ++ "]")
            fun line => "[location: " ++ path ++ ":" ++ toString line ++ "]"]
        | none => [x.toText object]

mutual

def snapshotContentLines (x : Crates) : Json → List String
  | .string value => if value.isEmpty then [] else [value]
  | .array values => valuesLines x values
  | .object fields => objectLines x (.object fields) (fieldsLines x fields)
  | .null => []
  | value => [x.toText value]

def valuesLines (x : Crates) : List Json → List String
  | [] => []
  | value :: values => snapshotContentLines x value ++ valuesLines x values

def fieldsLines (x : Crates) : List (String × Json) → List (String × List String)
  | [] => []
  | (key, value) :: fields => (key, snapshotContentLines x value) :: fieldsLines x fields

end

def snapshotMessageText (x : Crates) (message : SnapshotMessage) : String :=
  let text := "\n".intercalate (message.parts.flatMap (snapshotContentLines x))
  let text :=
    if message.truncated then
      (if text.isEmpty then text else text ++ "\n") ++ "[message content truncated]"
    else
      text
  bound text MAX_MESSAGE_TOTAL_BYTES

def toolSnapshotText (x : Crates) (tool : SnapshotTool) : String :=
  let lines := (tool.structuredContent ++ tool.locations).flatMap (snapshotContentLines x)
  let lines := lines.filter fun line =>
    let trimmed := Text.trim line.toList
    !(trimmed.isEmpty || Text.contains trimmed tool.content.toList)
  let parts :=
    (presentText (some tool.content)).toList
      ++ lines
      ++ (if tool.truncated then ["[tool content truncated]"] else [])
  bound ("\n".intercalate (parts.filter fun part => !part.isEmpty)) MAX_TOOL_TOTAL_BYTES

/-! The groups of messages -/

def activityMessage (id activityType : String) (content : List (String × Json)) : Message :=
  { id, role := .activity, content := .anythingMap content, activityType := some activityType }

def textMessage (x : Crates) (message : SnapshotMessage) : Message :=
  let role :=
    match message.role with
    | .user => .user
    | .agent => .assistant
    | .thought => .reasoning
  { id := message.id, role, content := .string (snapshotMessageText x message) }

/--
The task of a tool. The header that was preserved counts when the text of the tool has none, or has not ended yet.
-/
def snapshotTask (snapshot : SessionSnapshot) (tool : SnapshotTool) : Option TaskSubagent :=
  let currentTask := parseTaskSubagent tool.content.toList
  let preservedTask := snapshot.subagentHeaders[tool.id]?.bind fun header => parseTaskSubagent header.toList
  let preferPreservedTerminal :=
    preservedTask.any (fun task => isTerminalSubagentStatus task.state)
      && currentTask.any fun task => !isTerminalSubagentStatus task.state
  if preferPreservedTerminal then preservedTask else currentTask.or preservedTask

def subagentMessage (x : Crates) (snapshot : SessionSnapshot) (tool : SnapshotTool) (task : Option TaskSubagent)
    : Message :=
  let childThreadId := task.bind fun task =>
    (AgentSessionId.new snapshot.agentId task.sessionId).map (AgentSessionId.encode x.base64)
  let status := snapshotSubagentStatus tool.status (task.map (·.state))
  let heading :=
    if isFailedSubagentStatus status then "• Sub-agent failed"
    else if isTerminalSubagentStatus status then "• Sub-agent completed"
    else "• Sub-agent working"
  let lines :=
    [heading, "  Status: " ++ displaySubagentStatus status]
      ++ ((taskResultPreview tool.content).map fun result => "  Latest: " ++ result).toList
  activityMessage ("subagent:" ++ tool.id) "dappercode.subagent"
    [("text", .string ("\n".intercalate lines)),
      ("subAgent", .object
        [("toolCallId", .string tool.id),
          ("tool", .string "spawnAgent"),
          ("senderThreadId", .string snapshot.threadId),
          ("receiverThreadIds", .array (childThreadId.toList.map .string)),
          ("agentStatus", .string status)])]

def toolMeta (tool : SnapshotTool) : Message :=
  activityMessage ("tool-meta:" ++ tool.id) "dappercode.tool"
    [("toolCallId", .string tool.id),
      ("kind", .string (toolKindName tool.kind)),
      ("status", .string (toolCallStatusName tool.status)),
      ("title", .string (bound tool.title 256)),
      ("content", .array tool.structuredContent),
      ("locations", .array tool.locations),
      ("truncated", .bool tool.truncated)]

def toolCall (tool : SnapshotTool) : Message :=
  let name := if (Text.trim tool.title.toList).isEmpty then toolKindName tool.kind else tool.title
  { id := "tool-call:" ++ tool.id
    role := .assistant
    content := .string ""
    toolCalls := some [{ id := tool.id, name := bound name 256 }] }

def toolResult (x : Crates) (tool : SnapshotTool) : Message :=
  { id := "tool-result:" ++ tool.id
    role := .tool
    content := .string (toolSnapshotText x tool)
    error := if tool.status = .failed then some "Tool failed" else none
    toolCallId := some tool.id }

/--
What an entry of the timeline stands for. Only a tool has several messages.
-/
inductive MessageGroup where
  | single (message : SnapshotMessage)
  | subagent (tool : SnapshotTool) (task : Option TaskSubagent)
  | tool (tool : SnapshotTool)

def groupMessages (x : Crates) (snapshot : SessionSnapshot) : MessageGroup → List Message
  | .single message => [textMessage x message]
  | .subagent tool task => [subagentMessage x snapshot tool task]
  | .tool tool => [toolMeta tool, toolCall tool, toolResult x tool]

/--
An entry whose message or tool is gone is skipped. Among messages with one id the last one counts.
-/
def entryGroup (snapshot : SessionSnapshot) (entry : SnapshotTimelineEntry) : Option MessageGroup :=
  match entry.kind with
  | .message | .reasoning => (snapshot.messages.reverse.find? (·.id == entry.canonicalId)).map .single
  | .tool =>
    snapshot.tools[entry.canonicalId]?.map fun tool =>
      let task := snapshotTask snapshot tool
      if task.isSome || tool.subagent || isSubagentTaskTool tool.kind tool.title then
        .subagent tool task
      else
        .tool tool

def messageGroups (snapshot : SessionSnapshot) : List MessageGroup :=
  snapshot.timeline.filterMap (entryGroup snapshot)

/-! What fits -/

def removeOldestSnapshotMessageGroup (oldest : Message) (messages : List Message) : List Message :=
  let toolCallIds := (oldest.toolCalls.getD []).map (·.id)
  messages.filter fun message =>
    if message.toolCallId.any toolCallIds.contains then
      false
    else
      match oldest.toolCallId with
      | some resultCallId => !message.toolCalls.any fun calls => calls.any (·.id == resultCallId)
      | none => true

/--
Remove the oldest messages while the rest does not fit. The last one is never removed.
-/
def boundMessages (fits : List Message → Bool) (messages : List Message) : List Message :=
  if fits messages then
    messages
  else
    match messages with
    | oldest :: next :: rest => boundMessages fits (removeOldestSnapshotMessageGroup oldest (next :: rest))
    | _ => messages
termination_by messages.length
decreasing_by
  unfold removeOldestSnapshotMessageGroup
  exact Nat.lt_succ_of_le (List.length_filter_le _ _)

def MessagesEnvelope.fits (envelope : MessagesEnvelope) : Bool :=
  envelope.toJson.bytes ≤ MESSAGES_SNAPSHOT_MAX_BYTES

def snapshotEnvelope (snapshot : SessionSnapshot) (runId : String) (sourceTurnId : Option String) (timestamp : String)
    (messages : List Message) : MessagesEnvelope :=
  { threadId := snapshot.threadId, runId, sourceTurnId, timestamp, messages }

def messagesSnapshotEnvelope (x : Crates) (snapshot : SessionSnapshot) (runId : String) (sourceTurnId : Option String)
    (timestamp : String) : MessagesEnvelope :=
  let envelope := snapshotEnvelope snapshot runId sourceTurnId timestamp
  envelope (boundMessages (fun messages => (envelope messages).fits)
    ((messageGroups snapshot).flatMap (groupMessages x snapshot)))

end AgUi
