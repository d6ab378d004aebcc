import TetherBridge.AgUi.Projector

/-!
This module contains `AgUiProjector::project_canonical`: what a message chunk, a tool update and the
other canonical events add to the stream.
-/

namespace AgUi

open Acp Snapshot

variable (x : Crates)

/-! Messages -/

namespace AgUiRunState

variable (run : AgUiRunState)

/--
The part of the content that still fits into the message, and whether this is the first that does not.
-/
def boundedLiveContent (id content : String) : AgUiRunState × String × Bool :=
  let used := run.messageBytes id
  let bounded := bound content (MAX_MESSAGE_TOTAL_BYTES - used)
  let newlyTruncated :=
    decide (bounded.utf8ByteSize < content.utf8ByteSize) && !run.truncatedMessages.contains id
  ({ run with
      messageBytes :=
        update run.messageBytes id (saturatingAdd USIZE_MAX used bounded.utf8ByteSize)
      truncatedMessages := if newlyTruncated then id :: run.truncatedMessages else run.truncatedMessages },
    bounded, newlyTruncated)

/--
The start of a message, after the end of the one that is open in its place.
-/
def openMessage (role : MessageRole) (messageId : String) : AgUiRunState × List AgUiEvent :=
  match role with
  | .agent =>
    ({ run with openUserId := none, openMessageId := some messageId },
      textMessageEnd run.openUserId
        ++ if run.openMessageId = some messageId then []
          else textMessageEnd run.openMessageId ++ [.textMessageStart messageId .assistant])
  | .thought =>
    ({ run with openReasoningId := some messageId },
      if run.openReasoningId = some messageId then []
      else reasoningMessageEnd run.openReasoningId ++ [.reasoningMessageStart messageId .reasoning])
  | .user =>
    ({ run with openUserId := some messageId },
      if run.openUserId = some messageId then []
      else textMessageEnd run.openUserId ++ [.textMessageStart messageId .user])

def isTruncatedBlock (contentBlock : Option Json) : Bool :=
  contentBlock.any fun block => ((block.get "truncated").bind Json.asBool).getD false

def blockEvents (role : MessageRole) (messageId : String) : Option Json → List AgUiEvent
  | none => []
  | some contentBlock =>
    structuredChunks x "dappercode.dev/message-content" messageId
      (.object
        [("messageId", .string messageId),
          ("role", .string (roleName role)),
          ("content", contentBlock)])

def projectChunk (role : MessageRole) (messageId content : String) (contentBlock : Option Json)
    : AgUiRunState × List AgUiEvent :=
  let (run, bounded, newlyTruncated) := run.boundedLiveContent messageId content
  let blockTruncated :=
    !newlyTruncated && isTruncatedBlock contentBlock && !run.truncatedMessages.contains messageId
  let run :=
    if blockTruncated then { run with truncatedMessages := messageId :: run.truncatedMessages }
    else run
  let truncation :=
    if newlyTruncated || blockTruncated then
      [transcriptTruncation messageId MAX_MESSAGE_TOTAL_BYTES]
    else
      []
  let (run, opening) := run.openMessage role messageId
  (run, blockEvents x role messageId contentBlock ++ truncation ++ opening
    ++ if bounded.isEmpty then [] else messageChunks (role == .thought) messageId bounded)

end AgUiRunState

/-! Tools -/

/--
What a tool update carries besides its ids.
-/
structure ToolUpdate where
  kind : ToolKind
  status : ToolCallStatus
  title : String
  content : FieldUpdate String
  structuredContent : FieldUpdate (List Json)
  locations : FieldUpdate (List Json)

def ToolUpdate.terminal (tool : ToolUpdate) : Bool :=
  isTerminalStatus tool.status

def updateHasTask : FieldUpdate String → Bool
  | .set value => (parseTaskSubagent value.toList).isSome
  | .append value => (parseTaskSubagent value.toList).isSome
  | .clear => false
  | .unchanged => false

/--
The `Debug` form of a tool kind in lower case.
-/
def toolKindDebug : ToolKind → String
  | .switchMode => "switchmode"
  | kind => toolKindName kind

def applyStructuredField (current : List Json) : FieldUpdate (List Json) → List Json
  | .set value => value
  | .append value => current ++ value
  | .clear => []
  | .unchanged => current

def resetsTruncation : FieldUpdate (List Json) → Bool
  | .set _ => true
  | .clear => true
  | _ => false

/--
Drop values from the back until the rest fits, locations first. A round drops a value, so as many rounds
as there are values are enough.
-/
def dropStructured (maxBytes : Nat) : Nat → List Json × List Json × Bool
    → List Json × List Json × Bool
  | 0, dropped => dropped
  | rounds + 1, (content, locations, truncated) =>
    if (Json.array [.array content, .array locations]).bytes > maxBytes then
      if locations.isEmpty then
        dropStructured maxBytes rounds (content.dropLast, locations, true)
      else
        dropStructured maxBytes rounds (content, locations.dropLast, true)
    else
      (content, locations, truncated)

namespace AgUiToolState

variable (state : AgUiToolState)

/--
Announce a tool when it is first seen, and end it when it is terminal.
-/
def announce (toolCallId : String) (tool : ToolUpdate) : AgUiToolState × List AgUiEvent :=
  let name := bound (if isBlank tool.title then toolKindDebug tool.kind else tool.title) 256
  let start :=
    if !state.started && !state.subagentActivity then
      [.toolCallStart toolCallId name, .toolCallArgs toolCallId "\x7b\x7d"]
    else
      []
  let finish :=
    if tool.terminal && !state.ended && !state.subagentActivity then [.toolCallEnd toolCallId]
    else []
  ({ state with started := true, ended := state.ended || tool.terminal }, start ++ finish)

/--
The text of the tool once the update is applied, if it says something about it.
-/
def updatedContent : FieldUpdate String → Option String
  | .set content => some (bound content MAX_TOOL_TOTAL_BYTES)
  | .clear => some ""
  | .append content => some (bound (state.resultContent ++ content) MAX_TOOL_TOTAL_BYTES)
  | .unchanged => none

def contentRevision (content : String) : String :=
  "sha256:" ++ x.sha256 content

def changedResult (content : Option String) : Bool :=
  match content with
  | none => false
  | some content =>
    if content = "" && state.resultRevision.isNone then false
    else some (contentRevision x content) != state.resultRevision

def applyResult (content : Option String) : AgUiToolState :=
  if state.changedResult x content then
    { state with
      resultContent := content.getD ""
      resultRevision := content.map (contentRevision x) }
  else
    state

def structuredValue (toolCallId : String) : Json :=
  .object
    [("toolCallId", .string toolCallId),
      ("content", .array state.structuredContent),
      ("locations", .array state.locations),
      ("retrieval", .object [("available", .bool !state.structuredTruncated)])]

/--
The structured content and the locations, and whether they changed.
-/
def applyStructured (toolCallId : String) (tool : ToolUpdate) : AgUiToolState × Bool :=
  let content := applyStructuredField state.structuredContent tool.structuredContent
  let locations := applyStructuredField state.locations tool.locations
  let truncated := state.structuredTruncated
    && !(resetsTruncation tool.structuredContent || resetsTruncation tool.locations)
  let (content, locations, truncated) :=
    dropStructured MAX_STRUCTURED_TOOL_BYTES (content.length + locations.length)
      (content, locations, truncated)
  let changed := !Json.sameValues state.structuredContent content
    || !Json.sameValues state.locations locations || state.structuredTruncated != truncated
  let state :=
    { state with structuredContent := content, locations, structuredTruncated := truncated }
  let revision := contentRevision x (x.toText (state.structuredValue toolCallId))
  if changed && state.structuredRevision != some revision then
    ({ state with structuredRevision := some revision }, true)
  else
    (state, false)

/--
The failure a child is remembered to have ended with.
-/
def rememberedFailure : Option String :=
  state.subagentTerminalStatus.filter isFailedSubagentStatus

/--
A header of a terminal tool that still says otherwise, although its child is known to have failed.
-/
def staleTerminalHeader (tool : ToolUpdate) (task : TaskSubagent) : Bool :=
  tool.terminal && !isTerminalSubagentStatus task.state && state.rememberedFailure.isSome

def linkedStatus (tool : ToolUpdate) (task : TaskSubagent) : String :=
  (state.rememberedFailure.filter fun _ => state.staleTerminalHeader tool task).getD
    (snapshotSubagentStatus tool.status (some task.state))

/--
The tool runs the sub-agent that its text names.
-/
def linkChild (tool : ToolUpdate) (task : TaskSubagent) (childThreadId : String) : AgUiToolState :=
  let linked := { state with subagentActivity := true, subagentChildThreadId := some childThreadId }
  if isTerminalSubagentStatus task.state then
    { linked with subagentTerminalStatus := some task.state }
  else if state.staleTerminalHeader tool task then
    linked
  else
    { linked with subagentTerminalStatus := none, ended := false }

/--
Repaint the card of a sub-agent, if the revision is a new one.
-/
def renderCard (threadId toolCallId : String) (childThreadId : Option String)
    (revision status : String) (latest : Option String) : AgUiToolState × List AgUiEvent :=
  if state.subagentRevision = some revision then
    (state, [])
  else
    ({ state with subagentRevision := some revision },
      [subagentActivityEvent threadId toolCallId childThreadId status latest])

def metaRevisionOf (tool : ToolUpdate) : String :=
  let title := if isBlank tool.title then toolKindName tool.kind else bound tool.title 256
  toolKindName tool.kind ++ "\x00" ++ toolCallStatusName tool.status ++ "\x00" ++ title

/--
The row of an ordinary tool, if its kind, status or title changed.
-/
def renderMeta (toolCallId : String) (tool : ToolUpdate) : AgUiToolState × List AgUiEvent :=
  let title := if isBlank tool.title then toolKindName tool.kind else bound tool.title 256
  if !state.subagentActivity && state.metaRevision != some (metaRevisionOf tool) then
    ({ state with metaRevision := some (metaRevisionOf tool) },
      structuredChunks x "dappercode.dev/tool-meta" toolCallId
        (.object
          [("toolCallId", .string toolCallId),
            ("kind", .string (toolKindName tool.kind)),
            ("status", .string (toolCallStatusName tool.status)),
            ("title", .string title)]))
  else
    (state, [])

/--
The text of an ordinary tool: what a result adds to it, or all of it.
-/
def resultEvents (runId toolCallId previousContent content : String) (revision : Option String)
    (tool : ToolUpdate) : List AgUiEvent :=
  if state.subagentActivity then
    []
  else if tool.terminal && previousContent.toList.isPrefixOf content.toList && !content.isEmpty then
    (chunks TOOL_RESULT_CHUNK_BYTES (String.ofList (content.toList.drop previousContent.length))).map
      fun chunk => .toolCallResult toolCallId (runId ++ "::tool-result::" ++ toolCallId) .tool chunk
  else
    structuredChunks x "dappercode.dev/tool-text" toolCallId
      (.object
        [("toolCallId", .string toolCallId),
          ("revision", optionJson .string revision),
          ("content", .string content)])

def structuredEvents (toolCallId : String) : List AgUiEvent :=
  if state.subagentActivity then
    []
  else
    structuredChunks x "dappercode.dev/tool-content" toolCallId
      (.object
        [("toolCallId", .string toolCallId),
          ("content", .array state.structuredContent),
          ("locations", .array state.locations),
          ("revision", optionJson .string state.structuredRevision),
          ("retrieval", .object [("available", .bool !state.structuredTruncated)])])

end AgUiToolState

namespace AgUiProjector

variable (s : AgUiProjector)

/--
The link to a child its parent names again: within the same invocation it goes on as it was.
-/
def relink (threadId : String) (run : AgUiRunState) (toolCallId childThreadId : String)
    : SubagentActivityLink :=
  let fresh : SubagentActivityLink :=
    { parentThreadId := threadId
      parentRunId := run.runId
      parentSourceTurnId := run.sourceTurnId
      toolCallId
      childThreadId }
  match s.subagentLinks.lookup childThreadId with
  | none => fresh
  | some previous =>
    if previous.parentRunId = run.runId ∧ previous.toolCallId = toolCallId then
      { fresh with
        childRunId := previous.childRunId
        childGeneration := previous.childGeneration
        minimumChildGeneration := previous.minimumChildGeneration
        progressRevisions := previous.progressRevisions
        runningTools := previous.runningTools
        lastRendered := previous.lastRendered }
    else
      let observedFloor := previous.childGeneration.map (saturatingAdd U64_MAX · 1)
      { fresh with
        minimumChildGeneration :=
          match previous.minimumChildGeneration, observedFloor with
          | some existing, some observed => some (max existing observed)
          | some existing, none => some existing
          | none, floor => floor }

/--
What the other parts of the projector get from a tool update: the links, and the child whose observed
run is over or may begin again.
-/
structure ChildUpdate where
  subagentLinks : List (String × SubagentActivityLink)
  finished : Option String := none
  relinked : Option String := none

/--
The child a text names.
-/
def namedChild (agentId : String) (content : String) : Option (TaskSubagent × String) :=
  (parseTaskSubagent content.toList).bind fun task =>
    (AgentSessionId.new agentId task.sessionId).map fun identity =>
      (task, identity.encode x.base64)

/--
The tool names the child it runs.
-/
def followChild (threadId : String) (run : AgUiRunState) (toolCallId : String)
    (state : AgUiToolState) (tool : ToolUpdate) (task : TaskSubagent) (childThreadId : String)
    : AgUiToolState × ChildUpdate × List AgUiEvent :=
  let status := state.linkedStatus tool task
  let latest := taskPreview state.resultContent
  let revision := childThreadId ++ "\x00" ++ status ++ "\x00" ++ latest.getD ""
  let ended := isTerminalSubagentStatus task.state || state.staleTerminalHeader tool task
  let (state, card) := (state.linkChild tool task childThreadId).renderCard threadId toolCallId
    (some childThreadId) revision status latest
  if ended then
    (state,
      { subagentLinks := removeEntry childThreadId s.subagentLinks, finished := some childThreadId },
      card)
  else
    let links := expireEntry SUBAGENT_LINK_CAPACITY childThreadId s.subagentLinks
    -- The previous link is looked up after making room, which never gives it up.
    (state,
      { subagentLinks :=
          insertEntry childThreadId (s.relink threadId run toolCallId childThreadId) links
        relinked := some childThreadId },
      card)

/--
A sub-agent whose text names no child: its own output is all there is to show.
-/
def followUnnamed (threadId toolCallId : String) (state : AgUiToolState) (tool : ToolUpdate)
    : AgUiToolState × ChildUpdate × List AgUiEvent :=
  let latest := taskPreview state.resultContent
  let child := state.subagentChildThreadId
  let marker := child.getD "unlinked" ++ "\x00"
  if !state.subagentActivity then
    (state, { subagentLinks := s.subagentLinks }, [])
  else if !tool.terminal then
    match latest with
    | none => (state, { subagentLinks := s.subagentLinks }, [])
    | some line =>
      let (state, card) := state.renderCard threadId toolCallId child (marker ++ "running\x00" ++ line)
        "running" (some line)
      (state, { subagentLinks := s.subagentLinks }, card)
  else
    let wrapperFailed := tool.status == .failed
    let status := state.rememberedFailure.getD (if wrapperFailed then "failed" else "completed")
    let ended := state.subagentTerminalStatus.any isTerminalSubagentStatus || wrapperFailed
    let (state, card) := state.renderCard threadId toolCallId child
      (marker ++ status ++ "\x00" ++ latest.getD "") status (latest.or (some "Task finished"))
    match child with
    | some childThreadId =>
      if ended then
        (state,
          { subagentLinks := removeEntry childThreadId s.subagentLinks
            finished := some childThreadId },
          card)
      else
        (state, { subagentLinks := s.subagentLinks }, card)
    | none => (state, { subagentLinks := s.subagentLinks }, card)

def followSubagent (agentId threadId : String) (run : AgUiRunState) (toolCallId : String)
    (state : AgUiToolState) (tool : ToolUpdate) : AgUiToolState × ChildUpdate × List AgUiEvent :=
  match namedChild x agentId state.resultContent with
  | some (task, childThreadId) => s.followChild threadId run toolCallId state tool task childThreadId
  | none => s.followUnnamed threadId toolCallId state tool

/--
What a tool update does to the tool, and what it adds to the stream of its run.
-/
def updateTool (agentId threadId : String) (run : AgUiRunState) (toolCallId : String)
    (state : AgUiToolState) (tool : ToolUpdate) : AgUiToolState × ChildUpdate × List AgUiEvent :=
  let (state, announced) := state.announce toolCallId tool
  let content := state.updatedContent tool.content
  let previousContent := if state.changedResult x content then some state.resultContent else none
  let state := state.applyResult x content
  let (state, changedStructured) := state.applyStructured x toolCallId tool
  let (state, child, card) := s.followSubagent x agentId threadId run toolCallId state tool
  let (state, row) := state.renderMeta x toolCallId tool
  let result :=
    match previousContent with
    | some previousContent =>
      state.resultEvents x run.runId toolCallId previousContent (content.getD "")
        (content.map (AgUiToolState.contentRevision x)) tool
    | none => []
  let structured := if changedStructured then state.structuredEvents x toolCallId else []
  (state, child, announced ++ card ++ row ++ result ++ structured)

/--
Whether a tool that is first seen, or seen again, is known to run a sub-agent.
-/
def classify (state : AgUiToolState) (tool : ToolUpdate) : AgUiToolState :=
  { state with
    subagentActivity := state.subagentActivity || isSubagentTaskTool tool.kind tool.title
      || updateHasTask tool.content }

def projectTool (agentId threadId : String) (runId sourceTurnId : Option String)
    (toolCallId : String) (tool : ToolUpdate) : AgUiProjector × List AgUiEventEnvelope :=
  let (s, opening) := s.ensureObservedRun threadId runId sourceTurnId
  match (s.runs threadId).filter (·.accepts runId sourceTurnId) with
  | none => (s, opening)
  | some run =>
    let state := classify ((run.tools.lookup toolCallId).getD {}) tool
    let (state, child, events) := s.updateTool x agentId threadId run toolCallId state tool
    let s :=
      { s with
        runs := update s.runs threadId
          (some { run with tools := insertEntry toolCallId state run.tools })
        subagentLinks := child.subagentLinks }
    let (s, closing) := closeObservedRuns child.finished.toList s
    ({ s with
        closedThreads := s.closedThreads.filter fun threadId => child.relinked != some threadId },
      opening ++ events.map (run.envelope threadId) ++ closing)

def projectMessage (threadId : String) (runId sourceTurnId : Option String) (role : MessageRole)
    (messageId content : String) (contentBlock : Option Json)
    : AgUiProjector × List AgUiEventEnvelope :=
  if content.isEmpty && contentBlock.isNone then
    (s, [])
  else
    let (s, opening) := s.ensureObservedRun threadId runId sourceTurnId
    match (s.runs threadId).filter (·.accepts runId sourceTurnId) with
    | none => (s, opening)
    | some run =>
      let (projected, events) := run.projectChunk x role messageId content contentBlock
      ({ s with runs := update s.runs threadId (some projected) },
        opening ++ events.map (run.envelope threadId))

/-! The other events -/

/--
An event of the run of the thread, or of the session when none is open.
-/
def sessionEvent (threadId : String) (event : AgUiEvent) : List AgUiEventEnvelope :=
  match s.runs threadId with
  | some run => [run.envelope threadId event]
  | none => [{ threadId, runId := threadId ++ "::session", sourceTurnId := none, event }]

def fieldValue : FieldUpdate String → Json
  | .unchanged => .null
  | .clear => .null
  | .set value => .string (bound value (2 * 1024))
  | .append value => .string (bound value (2 * 1024))

def planContent (entries : List PlanEntry) : Json :=
  .object
    [("text", .string "Plan updated"),
      ("entries", .array ((entries.take 128).map fun entry =>
        .object
          [("content", .string (bound entry.content (2 * 1024))),
            ("priority", .string (bound entry.priority 256)),
            ("status", .string (bound entry.status 256))]))]

def tokenTotalsJson (totals : BridgeTokenTotalsSnapshot) : Json :=
  .object
    [("turns", natJson totals.turns),
      ("inputTokens", natJson totals.inputTokens),
      ("outputTokens", natJson totals.outputTokens),
      ("reasoningTokens", optionJson natJson totals.reasoningTokens),
      ("cachedReadTokens", optionJson natJson totals.cachedReadTokens),
      ("cachedWriteTokens", optionJson natJson totals.cachedWriteTokens),
      ("totalTokens", natJson totals.totalTokens)]

/--
The event that tells about the session, for a canonical event that is about it.
-/
def sessionUpdate : CanonicalEvent → Option (String × AgUiEvent)
  | .plan _ threadId entries =>
    some (threadId, .activitySnapshot (threadId ++ "::plan") "dappercode.plan" (planContent entries))
  | .usage _ threadId used size cost =>
    some (threadId, .custom "dappercode.dev/usage"
      (.object
        [("used", natJson used),
          ("size", natJson size),
          ("cost", optionJson (fun cost => .string (bound cost 256)) cost)]))
  | .mode _ threadId id =>
    some (threadId, .custom "dappercode.dev/mode" (.object [("id", .string (bound id 256))]))
  | .config _ threadId entries =>
    some (threadId, .custom "dappercode.dev/config"
      (.object
        [("entries", .array ((entries.take 128).map fun entry =>
          .object
            [("id", .string (bound entry.id 256)),
              ("value", .string (bound entry.value (2 * 1024)))]))]))
  | .sessionInfo _ threadId title updatedAt =>
    some (threadId, .custom "dappercode.dev/session-info"
      (.object [("title", fieldValue title), ("updatedAt", fieldValue updatedAt)]))
  | .commands _ threadId commands =>
    some (threadId, .custom "dappercode.dev/commands"
      (.object
        [("commands", .array ((commands.take 128).map fun command =>
          .object
            [("name", .string (bound command.name 256)),
              ("description", .string (bound command.description (2 * 1024)))]))]))
  | _ => none

def projectEvent (canonical : CanonicalEvent) : AgUiProjector × List AgUiEventEnvelope :=
  match canonical with
  | .runStarted _ threadId runId sourceTurnId _ => s.startRun threadId runId sourceTurnId
  | .messageChunk _ threadId runId sourceTurnId _ role messageId content contentBlock =>
    s.projectMessage x threadId runId sourceTurnId role messageId content contentBlock
  | .tool agentId threadId runId sourceTurnId _ toolCallId kind status title content
      structuredContent locations =>
    s.projectTool x agentId threadId runId sourceTurnId toolCallId
      { kind, status, title, content, structuredContent, locations }
  | .runFinished _ threadId runId sourceTurnId _ stopReason =>
    s.endRun threadId runId sourceTurnId (runEnd threadId runId stopReason)
  | .runFailed _ threadId runId sourceTurnId _ message =>
    s.endRun threadId runId sourceTurnId (runFailure message)
  | .turnTokenUsage _ threadId inputTokens outputTokens reasoningTokens cachedReadTokens
      cachedWriteTokens totalTokens =>
    let totals := ((s.tokenTotals threadId).getD {}).addTurn inputTokens outputTokens
      reasoningTokens cachedReadTokens cachedWriteTokens totalTokens
    ({ s with tokenTotals := update s.tokenTotals threadId (some totals) },
      s.sessionEvent threadId (.custom "dappercode.dev/tokenTotals" (tokenTotalsJson totals)))
  | _ =>
    match sessionUpdate canonical with
    | some (threadId, event) => (s, s.sessionEvent threadId event)
    | none => (s, [])

def projectCanonical (canonical : CanonicalEvent) : AgUiProjector × List AgUiEventEnvelope :=
  let (s, progress) := s.projectSubagentProgress canonical
  let (s, events) := s.projectEvent x canonical
  (s, progress ++ events)

end AgUiProjector

end AgUi
