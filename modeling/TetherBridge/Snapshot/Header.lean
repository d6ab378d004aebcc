import TetherBridge.Snapshot.Bound

/-!
This module contains the `<task …>` headers by which `acp/snapshot.rs` tracks a sub-agent: reading a
field of a header, rewriting its state, and keeping the content of a tool in step with the header.
-/

namespace Snapshot

open Acp

/--
The header at the head of `candidate`, when it is closed and names an id and a state.
-/
def headerAt (candidate : List Char) : Option (List Char) :=
  match Text.find ['>'] candidate with
  | none => none
  | some (before, rest) =>
    let header := before ++ rest.take 1
    if Text.contains "id=\"".toList header && Text.contains "state=\"".toList header then
      some header
    else
      none

/--
The last valid header of a content.
-/
def latestValidTaskHeader : List Char → Option (List Char)
  | [] => none
  | c :: cs =>
    match latestValidTaskHeader cs with
    | some header => some header
    | none => if "<task ".toList.isPrefixOf (c :: cs) then headerAt (c :: cs) else none

/--
The value of the first `field="…"` of a header, with what stands before and after it.
-/
def taskHeaderField (field header : List Char) : Option (List Char × List Char × List Char) :=
  (Text.find (field ++ "=\"".toList) header).bind fun (before, rest) =>
    (Text.find ['"'] (rest.drop (field.length + 2))).map fun (value, after) =>
      (before ++ rest.take (field.length + 2), value, after)

def taskHeaderState (header : List Char) : Option (List Char) :=
  (taskHeaderField "state".toList header).map (·.2.1)

def taskHeaderId (header : List Char) : Option (List Char) :=
  (taskHeaderField "id".toList header).map (·.2.1)

def taskHeaderWithState (header state : List Char) : List Char :=
  match taskHeaderField "state".toList header with
  | some (before, _, after) => before ++ state ++ after
  | none => header

def isTerminalSubagentState (state : List Char) : Bool :=
  ["completed", "complete", "succeeded", "failed", "error", "aborted", "cancelled", "canceled",
    "closed"].contains (String.ofList (Text.toAsciiLowercase (Text.trim state)))

def isFailedSubagentState (state : List Char) : Bool :=
  ["failed", "error", "aborted", "cancelled", "canceled"].contains
    (String.ofList (Text.toAsciiLowercase (Text.trim state)))

/--
A state that is known and not terminal.
-/
def isUnresolvedState (state : Option (List Char)) : Bool :=
  state.any fun state => !isTerminalSubagentState state

def isTerminalStatus (status : ToolCallStatus) : Bool :=
  status == .completed || status == .failed

/--
The state the header of a tool with this status is to show, given what its child last said.
-/
def durableState (status : ToolCallStatus) (childState : Option (List Char)) : List Char :=
  match status with
  | .completed => (childState.filter isFailedSubagentState).getD "completed".toList
  | .failed => (childState.filter isFailedSubagentState).getD "failed".toList
  | _ => (childState.filter isTerminalSubagentState).getD "running".toList

def ensureDurableSubagentHeader (tool : SnapshotTool) (preservedHeader : String) : SnapshotTool :=
  let preservedHeader := preservedHeader.toList
  let content := tool.content.toList
  let currentHeader := latestValidTaskHeader content
  let preservedTerminal := (taskHeaderState preservedHeader).any isTerminalSubagentState
  let currentNonterminal := isUnresolvedState (currentHeader.bind taskHeaderState)
  let sourceHeader :=
    if isTerminalStatus tool.status && preservedTerminal && currentNonterminal then
      preservedHeader
    else
      currentHeader.getD preservedHeader
  let state := durableState tool.status (taskHeaderState sourceHeader)
  let normalizedHeader := taskHeaderWithState sourceHeader state
  let combined :=
    match currentHeader with
    | some currentHeader =>
      match Text.rfind currentHeader content with
      | some (before, rest) => before ++ normalizedHeader ++ rest.drop currentHeader.length
      | none => content
    | none => normalizedHeader ++ ['\n'] ++ content
  let combined := String.ofList combined
  let bounded := bound combined MAX_TOOL_TEXT_BYTES
  { tool with
    content := bounded
    truncated := tool.truncated || bounded.utf8ByteSize < combined.utf8ByteSize }

end Snapshot
