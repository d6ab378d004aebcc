import TetherBridge.Snapshot.Header

/-!
This module contains what `agui.rs` reads off the text of a tool that runs a sub-agent: the newest
`<task …>` header, the states a sub-agent can be in, and the line its card shows.
-/

namespace AgUi

open Acp Snapshot

def TASK_RESULT_SUMMARY_BYTES : Nat := 140

structure TaskSubagent where
  sessionId : String
  state : String

def xmlAttribute (header : List Char) (name : String) : Option (List Char) :=
  (Text.splitOnce (name ++ "=\"").toList header).bind fun (_, value) =>
    (Text.splitOnce ['"'] value).map (·.1)

def parseTaskHeader (rest : List Char) : Option TaskSubagent := do
  let (header, _) ← Text.splitOnce ['>'] rest
  let sessionId := String.ofList (Text.trim (← xmlAttribute header "id"))
  let state := String.ofList (Text.trim (← xmlAttribute header "state"))
  if sessionId.isEmpty || sessionId.utf8ByteSize > 1024 || state.isEmpty
      || state.utf8ByteSize > 64 then
    none
  else
    some { sessionId, state }

/--
The newest header that is valid.
-/
def parseTaskSubagent : List Char → Option TaskSubagent
  | [] => none
  | c :: cs =>
    match parseTaskSubagent cs with
    | some task => some task
    | none =>
      if "<task ".toList.isPrefixOf (c :: cs) then
        parseTaskHeader ((c :: cs).drop "<task ".length)
      else
        none

/-! The states of a sub-agent -/

def isTerminalSubagentStatus (status : String) : Bool :=
  isTerminalSubagentState status.toList

def isFailedSubagentStatus (status : String) : Bool :=
  isFailedSubagentState status.toList

def displaySubagentStatus (status : String) : String :=
  if ["starting", "start", "pending", "queued", "created", "initializing"].contains
      (String.ofList (Text.toAsciiLowercase (Text.trim status.toList))) then
    "running"
  else
    status

def snapshotSubagentStatus (toolStatus : ToolCallStatus) (childStatus : Option String) : String :=
  match toolStatus with
  | .completed => (childStatus.filter isFailedSubagentStatus).getD "completed"
  | .failed => (childStatus.filter isFailedSubagentStatus).getD "failed"
  | _ => childStatus.getD "running"

/-! The line on the card -/

def isPlaceholderSubagentProgress (line : List Char) : Bool :=
  let trimmed := ((Text.trim line).reverse.dropWhile fun c => c == '.' || c == '…').reverse
  let normalized := (Text.toAsciiLowercase trimmed).map fun c =>
    if c == '-' || c == '_' then ' ' else c
  [["starting", "agent"], ["starting", "subagent"], ["starting", "sub", "agent"],
    ["agent", "starting"], ["subagent", "starting"], ["sub", "agent", "starting"]].contains
    ((Text.splitWhitespace normalized).map String.ofList)

/--
The content without its result, when it has a closed one.
-/
def withoutResult (content : List Char) : List Char :=
  match Text.find "<task_result>".toList content, Text.rfind "</task_result>".toList content with
  | some (before, _), some (before', rest) =>
    if before'.length ≥ before.length then
      before ++ rest.drop "</task_result>".length
    else
      content
  | _, _ => content

def taskProgressPreview (content : String) : Option String :=
  let lines := ((Text.lines (withoutResult content.toList)).map Text.trim).filter fun line =>
    !line.isEmpty && !"<task".toList.isPrefixOf line && !"</task".toList.isPrefixOf line
  (lines.getLast?.filter fun line => !isPlaceholderSubagentProgress line).map fun line =>
    bound (String.ofList line) 512

def stripLine (line : List Char) : List Char :=
  Text.trim ((Text.trim line).dropWhile fun c =>
    c == '#' || c == '>' || c == '-' || c == '*' || c == ' ')

def summarizeTaskResult (result : List Char) : String :=
  let body := (((Text.lines result).map Text.trim).find? fun line =>
    !line.isEmpty && !"#".toList.isPrefixOf line && !"```".toList.isPrefixOf line).map stripLine
  let line := (body.filter fun line => !line.isEmpty).getD
    ((((Text.lines result).map stripLine).find? fun line => !line.isEmpty).getD [])
  if line.isEmpty then "Done" else bound (String.ofList line) TASK_RESULT_SUMMARY_BYTES

def taskResultPreview (content : String) : Option String := do
  let (_, rest) ← Text.splitOnce "<task_result>".toList content.toList
  let (result, _) ← Text.splitOnce "</task_result>".toList rest
  let result := Text.trim result
  if result.isEmpty then none else some (summarizeTaskResult result)

/--
The result of the task, or else its latest progress.
-/
def taskPreview (content : String) : Option String :=
  (taskResultPreview content).or (taskProgressPreview content)

example : (parseTaskSubagent "<task id=\"a\" state=\"running\"> <task id=\"b\"".toList).map (·.sessionId)
    = some "a" := by
  decide

end AgUi
