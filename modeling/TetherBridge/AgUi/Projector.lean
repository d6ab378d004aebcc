import TetherBridge.Acp.Identity
import TetherBridge.AgUi.Event
import TetherBridge.AgUi.Task

/-!
This module contains the `AgUiProjector` of `agui.rs`, which turns canonical events into the stream a
client renders. A `HashMap` that is iterated is a list of entries in the order of the iteration, which
may be any; a map that is only looked up is a function. The controls of a projection are left out.
-/

namespace AgUi

open Acp Snapshot

def CLOSED_THREAD_CAPACITY : Nat := 2048
def OBSERVED_RUN_CAPACITY : Nat := 256
def SUBAGENT_LINK_CAPACITY : Nat := 2048
def SUBAGENT_PROGRESS_CAPACITY : Nat := 1024
def SUBAGENT_RUNNING_TOOL_CAPACITY : Nat := 16

structure AgUiToolState where
  started : Bool := false
  ended : Bool := false
  subagentActivity : Bool := false
  subagentChildThreadId : Option String := none
  subagentTerminalStatus : Option String := none
  resultContent : String := ""
  resultRevision : Option String := none
  structuredRevision : Option String := none
  structuredContent : List Json := []
  locations : List Json := []
  structuredTruncated : Bool := false
  subagentRevision : Option String := none
  metaRevision : Option String := none

structure AgUiRunState where
  runId : String
  sourceTurnId : Option String
  openUserId : Option String := none
  openMessageId : Option String := none
  openReasoningId : Option String := none
  messageBytes : String → Nat := fun _ => 0
  truncatedMessages : List String := []
  tools : List (String × AgUiToolState) := []

structure SubagentActivityLink where
  parentThreadId : String
  parentRunId : String
  parentSourceTurnId : Option String
  toolCallId : String
  childThreadId : String
  childRunId : Option String := none
  childGeneration : Option Nat := none
  minimumChildGeneration : Option Nat := none
  progressRevisions : List String := []
  runningTools : List (String × String) := []
  lastRendered : Option String := none

inductive ProgressSource where
  | runningTool (toolCallId : String)
  | settledTool (toolCallId : String)
  | narration
  | standalone

structure SubagentProgress where
  status : String
  latest : String
  revision : Option String
  source : ProgressSource

structure AgUiProjector where
  runs : String → Option AgUiRunState := fun _ => none
  closedThreads : List String := []
  subagentLinks : List (String × SubagentActivityLink) := []
  observedRuns : List String := []
  tokenTotals : String → Option BridgeTokenTotalsSnapshot := fun _ => none

/-! Maps -/

/--
The map with a new value for the key.
-/
def update (map : String → α) (key : String) (value : α) : String → α :=
  fun other => if other = key then value else map other

/--
`HashMap::insert` on the entries of a map.
-/
def insertEntry (key : String) (value : α) : List (String × α) → List (String × α)
  | [] => [(key, value)]
  | (k, v) :: rest => if k = key then (key, value) :: rest else (k, v) :: insertEntry key value rest

def removeEntry (key : String) (entries : List (String × α)) : List (String × α) :=
  entries.filter (·.1 != key)

/--
Make room in a map that is full, unless it has the key.
-/
def expireEntry (capacity : Nat) (key : String) (entries : List (String × α))
    : List (String × α) :=
  if (entries.lookup key).isNone && entries.length ≥ capacity then entries.tail else entries

/-! Runs -/

namespace AgUiRunState

variable (run : AgUiRunState)

def envelope (threadId : String) (event : AgUiEvent) : AgUiEventEnvelope :=
  { threadId, runId := run.runId, sourceTurnId := run.sourceTurnId, event }

def textMessageEnd (id : Option String) : List AgUiEvent :=
  (id.map .textMessageEnd).toList

def reasoningMessageEnd (id : Option String) : List AgUiEvent :=
  (id.map .reasoningMessageEnd).toList

def toolCallEnds (tools : List (String × AgUiToolState)) : List AgUiEvent :=
  tools.filterMap fun (toolCallId, tool) =>
    if !tool.ended && !tool.subagentActivity then some (.toolCallEnd toolCallId) else none

def close (superseded : Bool) : List AgUiEvent :=
  textMessageEnd run.openUserId
    ++ textMessageEnd run.openMessageId
    ++ reasoningMessageEnd run.openReasoningId
    ++ toolCallEnds run.tools
    ++ if superseded then [.runError "Agent run superseded by a new run" "superseded"] else []

/--
Whether an event with these ids belongs to the run.
-/
def accepts (runId sourceTurnId : Option String) : Bool :=
  !(runId.any (· != run.runId)
    || (sourceTurnId.isSome && run.sourceTurnId.isSome && sourceTurnId != run.sourceTurnId))

end AgUiRunState

/-! Sub-agent cards -/

def subagentActivityEvent (parentThreadId toolCallId : String) (childThreadId : Option String)
    (status : String) (latest : Option String) : AgUiEvent :=
  let heading :=
    if isFailedSubagentStatus status then
      "• Sub-agent failed"
    else if isTerminalSubagentStatus status then
      "• Sub-agent completed"
    else
      "• Sub-agent working"
  let latest := (latest.map fun latest => Text.trim latest.toList).filter fun value => !value.isEmpty
  let lines := [heading, "  Status: " ++ displaySubagentStatus status]
    ++ (latest.map fun latest => "  Latest: " ++ bound (String.ofList latest) 512).toList
  .activitySnapshot ("subagent:" ++ toolCallId) "dappercode.subagent"
    (.object
      [("text", .string ("\n".intercalate lines)),
        ("subAgent", .object
          [("toolCallId", .string toolCallId),
            ("tool", .string "spawnAgent"),
            ("senderThreadId", .string parentThreadId),
            ("receiverThreadIds", .array (childThreadId.map Json.string).toList),
            ("agentStatus", .string status)])])

def narrationOf : MessageRole → String
  | .thought => "Reasoning"
  | .agent => "Responding"
  | .user => "Received input"

def isBlank (text : String) : Bool :=
  (Text.trim text.toList).isEmpty

def toolProgress (toolCallId : String) (status : ToolCallStatus) (title : String)
    : Option SubagentProgress :=
  let title := if isBlank title then "Using a tool" else title
  match status with
  | .pending => none
  | .failed => some
    { status := "running"
      latest := "Tool failed " ++ title
      revision := some ("failed:" ++ toolCallId)
      source := .settledTool toolCallId }
  | .completed => some
    { status := "running"
      latest := "Working on " ++ title
      revision := some ("working:" ++ toolCallId)
      source := .settledTool toolCallId }
  | _ => some
    { status := "running"
      latest := "Working on " ++ title
      revision := some ("working:" ++ toolCallId)
      source := .runningTool toolCallId }

def standalone (status latest : String) : SubagentProgress :=
  { status, latest, revision := none, source := .standalone }

def subagentProgress : CanonicalEvent → Option SubagentProgress
  | .messageChunk _ _ _ _ _ role _ content _ =>
    if isBlank content then
      none
    else
      some { status := "running", latest := narrationOf role, revision := none, source := .narration }
  | .tool _ _ _ _ _ toolCallId _ status title _ _ _ => toolProgress toolCallId status title
  | .plan .. => some (standalone "running" "Updating plan")
  | .permissionRequested _ => some (standalone "running" "Waiting for approval")
  | .elicitationRequested _ => some (standalone "running" "Waiting for input")
  | .runFinished _ _ _ _ _ stopReason =>
    if stopReason == .cancelled then
      some (standalone "cancelled" "Cancelled")
    else
      some (standalone "completed" "Returned result")
  | .runFailed _ _ _ _ _ message => some (standalone "failed" (bound message 512))
  | _ => none

/--
The run and the generation an event of a child names, and whether it starts the run.
-/
def canonicalChildRunCorrelation : CanonicalEvent → Option String × Option Nat × Bool
  | .runStarted _ _ runId _ generation => (some runId, some generation, true)
  | .runFinished _ _ runId _ generation _ => (some runId, some generation, false)
  | .runFailed _ _ runId _ generation _ => (some runId, some generation, false)
  | .messageChunk _ _ runId _ generation .. => (runId, generation, false)
  | .tool _ _ runId _ generation .. => (runId, generation, false)
  | _ => (none, none, false)

namespace SubagentActivityLink

variable (link : SubagentActivityLink)

/--
Whether the event is of another run of the child than the one the link follows.
-/
def ignores (eventRunId : Option String) (eventGeneration : Option Nat) : Bool :=
  (link.minimumChildGeneration.any fun minimum => eventGeneration.any (· < minimum))
    || (link.childGeneration.any fun expected => eventGeneration.any (· != expected))
    || (link.childRunId.any fun expected => eventRunId.any (· != expected))

/--
Which tools are in flight is tracked whether or not the card is repainted.
-/
def track (progress : SubagentProgress) : SubagentActivityLink :=
  match progress.source with
  | .runningTool toolCallId =>
    let runningTools := link.runningTools.filter (·.1 != toolCallId)
    let runningTools :=
      if runningTools.length ≥ SUBAGENT_RUNNING_TOOL_CAPACITY then runningTools.tail
      else runningTools
    { link with runningTools := runningTools ++ [(toolCallId, progress.latest)] }
  | .settledTool toolCallId =>
    { link with runningTools := link.runningTools.filter (·.1 != toolCallId) }
  | .narration | .standalone => link

/--
The link once it remembers the revision, unless it already did.
-/
def remember (revision : Option String) : SubagentActivityLink × Bool :=
  match revision with
  | none => (link, false)
  | some revision =>
    if link.progressRevisions.contains revision then
      (link, true)
    else
      let progressRevisions :=
        if link.progressRevisions.length ≥ SUBAGENT_PROGRESS_CAPACITY then []
        else link.progressRevisions
      ({ link with progressRevisions := revision :: progressRevisions }, false)

/--
What the card says: the tool that is still running outranks a narration.
-/
def latest (progress : SubagentProgress) : String :=
  match progress.source with
  | .narration => (link.runningTools.getLast?.map (·.2)).getD progress.latest
  | _ => progress.latest

def activity (status latest : String) : AgUiEventEnvelope :=
  { threadId := link.parentThreadId
    runId := link.parentRunId
    sourceTurnId := link.parentSourceTurnId
    event := subagentActivityEvent link.parentThreadId link.toolCallId (some link.childThreadId) status
      (some latest) }

end SubagentActivityLink

/-! Opening and closing runs -/

def observedRunId (threadId : String) : String :=
  threadId ++ "::observed"

namespace AgUiProjector

variable (s : AgUiProjector)

def markThreadClosed (threadId : String) : AgUiProjector :=
  let closedThreads :=
    if !s.closedThreads.contains threadId && s.closedThreads.length ≥ CLOSED_THREAD_CAPACITY then
      s.closedThreads.tail
    else
      s.closedThreads
  { s with
    tokenTotals := update s.tokenTotals threadId none
    closedThreads := closedThreads.insert threadId }

def closeObservedRun (threadId : String) : AgUiProjector × List AgUiEventEnvelope :=
  match s.runs threadId with
  | none => (s, [])
  | some run =>
    if run.runId != observedRunId threadId then
      (s, [])
    else
      let s :=
        { s with
          runs := update s.runs threadId none
          observedRuns := s.observedRuns.filter (· != threadId) }
      (s.markThreadClosed threadId,
        (run.close false).map (run.envelope threadId)
          ++ [{ threadId
                runId := observedRunId threadId
                sourceTurnId := none
                event := .runFinished threadId (observedRunId threadId) }])

def closeObservedRuns : List String → AgUiProjector → AgUiProjector × List AgUiEventEnvelope
  | [], s => (s, [])
  | threadId :: threadIds, s =>
    let (s, closing) := s.closeObservedRun threadId
    let (s, rest) := closeObservedRuns threadIds s
    (s, closing ++ rest)

/--
Close the run of a thread, if it is only observed.
-/
def giveUpObservedRun (threadId : String) : AgUiProjector × List AgUiEventEnvelope :=
  if (s.runs threadId).any (·.sourceTurnId.isNone) then s.closeObservedRun threadId else (s, [])

/--
The loop of `ensure_observed_run`. A round gives up one thread, so as many rounds as there are threads
are enough.
-/
def expireObservedRuns : Nat → AgUiProjector → AgUiProjector × List AgUiEventEnvelope
  | 0, s => (s, [])
  | rounds + 1, s =>
    match s.observedRuns with
    | [] => (s, [])
    | oldest :: observedRuns =>
      if s.observedRuns.length > OBSERVED_RUN_CAPACITY then
        let (s, closing) := giveUpObservedRun { s with observedRuns } oldest
        let (s, rest) := expireObservedRuns rounds s
        (s, closing ++ rest)
      else
        (s, [])

/--
Whether an event of the thread opens a run that is only observed.
-/
def observes (threadId : String) (runId sourceTurnId : Option String) : Bool :=
  !(runId.isSome || sourceTurnId.isSome || (s.runs threadId).isSome
    || s.closedThreads.contains threadId)

def ensureObservedRun (threadId : String) (runId sourceTurnId : Option String)
    : AgUiProjector × List AgUiEventEnvelope :=
  if s.observes threadId runId sourceTurnId then
    let run : AgUiRunState := { runId := observedRunId threadId, sourceTurnId := none }
    let s :=
      { s with
        runs := update s.runs threadId (some run)
        observedRuns := s.observedRuns ++ [threadId] }
    let (s, closing) := expireObservedRuns s.observedRuns.length s
    (s, closing ++ [run.envelope threadId (.runStarted threadId (observedRunId threadId))])
  else
    (s, [])

/-! The sub-agents of a run that ends -/

def knownTerminal (tool : AgUiToolState) : Option String :=
  (tool.subagentTerminalStatus.filter isTerminalSubagentStatus).or
    (((parseTaskSubagent tool.resultContent.toList).map (·.state)).filter isTerminalSubagentStatus)

def isUnsettled (tool : AgUiToolState) : Bool :=
  tool.subagentActivity && !tool.ended

def settleSubagent (fallbackStatus : String) (tool : AgUiToolState) : AgUiToolState :=
  if isUnsettled tool then
    { tool with
      subagentTerminalStatus := some ((knownTerminal tool).getD fallbackStatus)
      ended := true }
  else
    tool

/--
The children whose observed run ends with the run of the parent.
-/
def childThreadsToClose (fallbackStatus : String) (run : AgUiRunState) : List String :=
  run.tools.filterMap fun (_, tool) =>
    if isUnsettled tool
        && ((knownTerminal tool).isSome || isFailedSubagentStatus fallbackStatus) then
      tool.subagentChildThreadId
    else
      none

def terminalizeRunSubagents (parentThreadId : String) (run : AgUiRunState) (fallbackStatus : String)
    : AgUiProjector × AgUiRunState × List AgUiEventEnvelope :=
  let activities := run.tools.filterMap fun (toolCallId, tool) =>
    if isUnsettled tool then
      some (subagentActivityEvent parentThreadId toolCallId tool.subagentChildThreadId
        ((knownTerminal tool).getD fallbackStatus) (taskPreview tool.resultContent))
    else
      none
  let (s, closing) := closeObservedRuns (childThreadsToClose fallbackStatus run) s
  (s,
    { run with
      tools := run.tools.map fun (toolCallId, tool) =>
        (toolCallId, settleSubagent fallbackStatus tool) },
    activities.map (run.envelope parentThreadId) ++ closing)

def linkSubagent (parentThreadId parentRunId : String) (parentSourceTurnId : Option String)
    (toolCallId childThreadId : String) : AgUiProjector × Bool :=
  if (s.subagentLinks.lookup childThreadId).isSome then
    (s, false)
  else
    let links := expireEntry SUBAGENT_LINK_CAPACITY childThreadId s.subagentLinks
    ({ s with
        subagentLinks := insertEntry childThreadId
          { parentThreadId, parentRunId, parentSourceTurnId, toolCallId, childThreadId } links },
      true)

/-! The progress of a sub-agent -/

/--
The parent remembers how its sub-agent ended.
-/
def rememberTerminal (link : SubagentActivityLink) (status : String) : AgUiProjector :=
  match s.runs link.parentThreadId with
  | none => s
  | some run =>
    match run.tools.lookup link.toolCallId with
    | none => s
    | some tool =>
      if run.runId = link.parentRunId then
        let tool := { tool with subagentTerminalStatus := some status }
        { s with
          runs := update s.runs link.parentThreadId
            (some { run with tools := insertEntry link.toolCallId tool run.tools }) }
      else
        s

/--
Repaint the card of the sub-agent, and forget the link once it has ended.
-/
def renderProgress (threadId : String) (link current : SubagentActivityLink)
    (progress : SubagentProgress) : AgUiProjector × List AgUiEventEnvelope :=
  let latest := current.latest progress
  let rendered := progress.status ++ "\x00" ++ latest
  if current.lastRendered = some rendered then
    (s, [])
  else
    let current := { current with lastRendered := some rendered }
    let s := { s with subagentLinks := insertEntry threadId current s.subagentLinks }
    let card := [link.activity progress.status latest]
    if isTerminalSubagentStatus progress.status then
      let s := s.rememberTerminal link progress.status
      let s := { s with subagentLinks := removeEntry threadId s.subagentLinks }
      let (s, closing) := s.closeObservedRun threadId
      (s, card ++ closing)
    else
      (s, card)

/--
A revision that is already known is not rendered again.
-/
def applyProgress (threadId : String) (link current : SubagentActivityLink)
    : Option SubagentProgress → AgUiProjector × List AgUiEventEnvelope
  | none => ({ s with subagentLinks := insertEntry threadId current s.subagentLinks }, [])
  | some progress =>
    let (current, known) := (current.track progress).remember progress.revision
    let s := { s with subagentLinks := insertEntry threadId current s.subagentLinks }
    if known then (s, []) else s.renderProgress threadId link current progress

def projectSubagentProgress (canonical : CanonicalEvent)
    : AgUiProjector × List AgUiEventEnvelope :=
  match canonical.threadId? with
  | none => (s, [])
  | some threadId =>
    match s.subagentLinks.lookup threadId with
    | none => (s, [])
    | some link =>
      let (eventRunId, eventGeneration, runStarted) := canonicalChildRunCorrelation canonical
      if link.ignores eventRunId eventGeneration then
        (s, [])
      else
        let current :=
          if runStarted then
            { link with childRunId := eventRunId, childGeneration := eventGeneration }
          else
            link
        s.applyProgress threadId link current (subagentProgress canonical)

/-! Starting and ending a run -/

def startRun (threadId runId sourceTurnId : String) : AgUiProjector × List AgUiEventEnvelope :=
  let s := { s with closedThreads := s.closedThreads.filter (· != threadId) }
  let (s, closing) :=
    match s.runs threadId with
    | none => (s, [])
    | some previous =>
      let s := { s with runs := update s.runs threadId none }
      let (s, previous, settled) := s.terminalizeRunSubagents threadId previous "failed"
      ({ s with
          subagentLinks := s.subagentLinks.filter fun (_, link) =>
            link.parentThreadId != threadId || link.parentRunId != previous.runId },
        settled ++ (previous.close true).map (previous.envelope threadId))
  let run : AgUiRunState := { runId, sourceTurnId := some sourceTurnId }
  ({ s with runs := update s.runs threadId (some run) },
    closing ++ [run.envelope threadId (.runStarted threadId runId)])

/--
How a run ended: the status of its sub-agents that have not, and the event it ends with.
-/
structure RunEnd where
  fallbackStatus : String
  failed : Bool
  event : AgUiEvent

def runEnd (threadId runId : String) : StopReason → RunEnd
  | .cancelled =>
    { fallbackStatus := "cancelled", failed := true, event := .runFinished threadId runId }
  | _ => { fallbackStatus := "completed", failed := false, event := .runFinished threadId runId }

def runFailure (message : String) : RunEnd :=
  { fallbackStatus := "failed"
    failed := true
    event := .runError (bound message (2 * 1024)) "acp_run_failed" }

def endRun (threadId runId sourceTurnId : String) (outcome : RunEnd)
    : AgUiProjector × List AgUiEventEnvelope :=
  match s.runs threadId with
  | none => (s, [])
  | some run =>
    if run.runId != runId then
      (s, [])
    else
      let s := { s with runs := update s.runs threadId none }
      let (s, run, settled) := s.terminalizeRunSubagents threadId run outcome.fallbackStatus
      let s := s.markThreadClosed threadId
      let links :=
        if outcome.failed then
          s.subagentLinks.filter fun (_, link) =>
            link.parentThreadId != threadId || link.parentRunId != runId
        else
          s.subagentLinks
      ({ s with subagentLinks := links },
        settled ++ (run.close false).map (run.envelope threadId)
          ++ [{ threadId, runId, sourceTurnId := some sourceTurnId, event := outcome.event }])

end AgUiProjector

end AgUi
