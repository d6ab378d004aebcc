import TetherBridge.Snapshot.Types
import TetherBridge.Data.Text

/-!
This module contains the functions of `acp/snapshot.rs` that bound what an event carries before it is
stored. Those that report a truncation return it beside the value.
-/

namespace Snapshot

open Acp

def bound (value : String) (max : Nat) : String :=
  if value.utf8ByteSize > max then String.ofList (Text.takeBytes max value.toList) else value

theorem utf8ByteSize_bound_le (value : String) (max : Nat) : (bound value max).utf8ByteSize ≤ max := by
  unfold bound
  split
  . rw [Text.utf8ByteSize_ofList]
    exact Text.size_takeBytes_le max value.toList
  . next h => exact Nat.le_of_not_lt h

def boundedAppend (current appended : String) (max : Nat) : String × Bool :=
  if current.utf8ByteSize ≥ max then
    (bound current max, !appended.isEmpty)
  else
    let bounded := bound appended (max - current.utf8ByteSize)
    (current ++ bounded, bounded.utf8ByteSize < appended.utf8ByteSize)

/-! `bound_json` -/

/--
What the recursive walk carries along: the number of fields kept and whether anything was cut.
-/
structure Walk where
  fields : Nat := 0
  truncated : Bool := false

def isDroppedField (key : String) : Bool :=
  key == "rawInput" || key == "rawOutput" || key == "_meta"

mutual

def walk (state : Walk) : Json → Json × Walk
  | .string value =>
    let bounded := bound value MAX_STRUCTURED_PART_BYTES
    let truncated := state.truncated || bounded.utf8ByteSize < value.utf8ByteSize
    (.string bounded, { state with truncated })
  | .array values =>
    let truncated := state.truncated || values.length > MAX_STRUCTURED_FIELDS
    let (values, state) := walkValues { state with truncated } MAX_STRUCTURED_FIELDS values
    (.array values, state)
  | .object fields =>
    let (fields, state) := walkFields state [] fields
    (.object fields, state)
  | .null => (.null, state)
  | .bool value => (.bool value, state)
  | .number literal => (.number literal, state)

/--
Walk the first `count` values.
-/
def walkValues (state : Walk) (count : Nat) : List Json → List Json × Walk
  | [] => ([], state)
  | value :: values =>
    match count with
    | 0 => ([], state)
    | count + 1 =>
      let (value, state) := walk state value
      let (values, state) := walkValues state count values
      (value :: values, state)

/--
Walk the fields that are kept; `kept` are the fields so far.
-/
def walkFields (state : Walk) (kept : List (String × Json))
    : List (String × Json) → List (String × Json) × Walk
  | [] => (kept, state)
  | (key, value) :: rest =>
    if isDroppedField key then
      walkFields state kept rest
    else if state.fields ≥ MAX_STRUCTURED_FIELDS then
      walkFields { state with truncated := true } kept rest
    else
      let (value, state) := walk { state with fields := state.fields + 1 } value
      walkFields state (Json.insertField (bound key 256) value kept) rest

end

def boundJson (value : Json) (maxBytes : Nat) : Json × Bool :=
  let (bounded, state) := walk {} value
  if bounded.bytes > maxBytes then
    (.object [("type", .string "truncated"), ("truncated", .bool true)], true)
  else
    (bounded, state.truncated)

/-! The parts of a message -/

def textPart (text : String) : Json :=
  .object [("type", .string "text"), ("text", .string text)]

/--
The text of a part, when it is a text part.
-/
def partText (part : Json) : Option String :=
  if (part.get "type").bind Json.asStr = some "text" then (part.get "text").bind Json.asStr else none

def appendMessageText (parts : List Json) (content : String) : List Json × Bool :=
  if content.isEmpty then
    (parts, false)
  else
    match parts.getLast?.bind partText with
    | some text =>
      let (joined, truncated) := boundedAppend text content MAX_TEXT_BYTES
      (parts.dropLast ++ [textPart joined], truncated)
    | none =>
      if parts.length ≥ MAX_MESSAGE_PARTS then
        (parts, true)
      else
        let bounded := bound content MAX_TEXT_BYTES
        (parts ++ [textPart bounded], bounded.utf8ByteSize < content.utf8ByteSize)

def appendStructuredPart (parts : List Json) (value : Json) : List Json × Bool :=
  if parts.length ≥ MAX_MESSAGE_PARTS then
    (parts, true)
  else
    let (value, truncated) := boundJson value MAX_STRUCTURED_PART_BYTES
    (parts ++ [value], truncated)

/--
What a chunk adds to the parts of its message: the text, and then the content block.
-/
def appendChunk (parts : List Json) (truncated : Bool) (content : String)
    (contentBlock : Option Json) : List Json × Bool :=
  let (parts, textTruncated) := appendMessageText parts content
  match contentBlock with
  | none => (parts, truncated || textTruncated)
  | some contentBlock =>
    let blockTruncated := ((contentBlock.get "truncated").bind Json.asBool).getD false
    let (parts, partTruncated) := appendStructuredPart parts contentBlock
    (parts, truncated || textTruncated || blockTruncated || partTruncated)

/-! The fields of a tool and of the session -/

def applyField (target : Option String) : FieldUpdate String → Option String
  | .unchanged => target
  | .clear => none
  | .set value => some (bound value MAX_TEXT_BYTES)
  | .append value => some (bound (target.getD "" ++ value) MAX_TEXT_BYTES)

def applyToolText (target : String) : FieldUpdate String → String × Bool
  | .unchanged => (target, false)
  | .clear => ("", false)
  | .set value =>
    let bounded := bound value MAX_TOOL_TEXT_BYTES
    (bounded, bounded.utf8ByteSize < value.utf8ByteSize)
  | .append value => boundedAppend target value MAX_TOOL_TEXT_BYTES

def appendBoundedValues (target values : List Json) (maxItems : Nat) : List Json × Bool :=
  let kept := (values.take (maxItems - target.length)).map (boundJson · MAX_STRUCTURED_PART_BYTES)
  (target ++ kept.map (·.1), target.length + values.length > maxItems || kept.any (·.2))

def applyToolValues (target : List Json) (update : FieldUpdate (List Json)) (maxItems : Nat)
    : List Json × Bool :=
  match update with
  | .unchanged => (target, false)
  | .clear => ([], false)
  | .set values => appendBoundedValues [] values maxItems
  | .append values => appendBoundedValues target values maxItems

def boundPlan (entry : PlanEntry) : PlanEntry :=
  { content := bound entry.content MAX_TEXT_BYTES
    priority := bound entry.priority MAX_TEXT_BYTES
    status := bound entry.status MAX_TEXT_BYTES }

def boundConfigOption (entry : ConfigOptionValue) : ConfigOptionValue :=
  { value := bound entry.value MAX_TEXT_BYTES
    name := bound entry.name MAX_TEXT_BYTES
    description := entry.description.map (bound · MAX_TEXT_BYTES) }

def boundConfig (entry : ConfigEntry) : ConfigEntry :=
  { id := bound entry.id MAX_TEXT_BYTES
    value := bound entry.value MAX_TEXT_BYTES
    name := bound entry.name MAX_TEXT_BYTES
    description := entry.description.map (bound · MAX_TEXT_BYTES)
    category := entry.category.map (bound · 256)
    options := (entry.options.take MAX_ENTRIES).map boundConfigOption }

def boundCommand (entry : CommandEntry) : CommandEntry :=
  { name := bound entry.name MAX_TEXT_BYTES
    description := bound entry.description MAX_TEXT_BYTES }

/--
Whether a tool call spawns a sub-agent, read off its title and kind.
-/
def isSubagentTaskTool (kind : ToolKind) (title : String) : Bool :=
  let normalized := (Text.toAsciiLowercase (Text.trim title.toList)).filter fun c =>
    !(c == '-' || c == '_' || c == ' ')
  normalized == "task".toList || normalized == "spawnagent".toList
    || normalized == "subagent".toList
    || (kind == .think && Text.contains "agent".toList normalized)

/-! The token totals -/

def addReportedTokens (total reported : Option Nat) : Option Nat :=
  match reported with
  | none => total
  | some reported => some (saturatingAdd U64_MAX (total.getD 0) reported)

def BridgeTokenTotalsSnapshot.addTurn (totals : BridgeTokenTotalsSnapshot)
    (inputTokens outputTokens : Nat)
    (reasoningTokens cachedReadTokens cachedWriteTokens : Option Nat) (totalTokens : Nat)
    : BridgeTokenTotalsSnapshot :=
  { turns := saturatingAdd U64_MAX totals.turns 1
    inputTokens := saturatingAdd U64_MAX totals.inputTokens inputTokens
    outputTokens := saturatingAdd U64_MAX totals.outputTokens outputTokens
    reasoningTokens := addReportedTokens totals.reasoningTokens reasoningTokens
    cachedReadTokens := addReportedTokens totals.cachedReadTokens cachedReadTokens
    cachedWriteTokens := addReportedTokens totals.cachedWriteTokens cachedWriteTokens
    totalTokens := saturatingAdd U64_MAX totals.totalTokens totalTokens }

end Snapshot
