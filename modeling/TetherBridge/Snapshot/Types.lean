import TetherBridge.Acp.Events
import Std.Data.TreeMap

/-!
This module contains the data of `acp/snapshot.rs` and how a history entry is serialized. A `VecDeque`
is a list from front to back, a `BTreeMap` is a tree map. A `HashSet` is a list without duplicates;
it is iterated in the order of the list, which may be any.
-/

namespace Snapshot

open Acp Std

def MAX_MESSAGES : Nat := 128
def MAX_TOOLS : Nat := 128
def MAX_ACTIVE_TOOL_TOMBSTONES : Nat := MAX_TOOLS
def MAX_TIMELINE_ENTRIES : Nat := MAX_MESSAGES + MAX_TOOLS
def MAX_ENTRIES : Nat := 128
def MAX_TEXT_BYTES : Nat := 32 * 1024
def MAX_MESSAGE_PARTS : Nat := 64
def MAX_STRUCTURED_PART_BYTES : Nat := 16 * 1024
def MAX_STRUCTURED_FIELDS : Nat := 64
def MAX_TOOL_TEXT_BYTES : Nat := 64 * 1024
def MAX_TOOL_STRUCTURED_ITEMS : Nat := 64
def MAX_TOOL_LOCATIONS : Nat := 32
def MAX_HISTORY_ENTRIES : Nat := 1024
def MAX_HISTORY_BYTES : Nat := 4 * 1024 * 1024

/-! Machine integers, as far as their width is observable -/

def U64_MAX : Nat := 18446744073709551615
def USIZE_MAX : Nat := 18446744073709551615
def ISIZE_MAX : Nat := 9223372036854775807

def saturatingAdd (max a b : Nat) : Nat :=
  if a + b ≤ max then a + b else max

theorem saturatingAdd_of_le {max a b : Nat} (h : a + b ≤ max) : saturatingAdd max a b = a + b := by
  simp [saturatingAdd, h]

theorem le_saturatingAdd {max a : Nat} (h : a ≤ max) (b : Nat) : a ≤ saturatingAdd max a b := by
  unfold saturatingAdd
  split <;> omega

theorem saturatingAdd_le (max a b : Nat) : saturatingAdd max a b ≤ max := by
  unfold saturatingAdd
  split <;> omega

/--
Where the snapshot may panic. A vector that would outgrow `isize::MAX` bytes panics as well.
-/
inductive Panic where
  | capacityOverflow
  | fullMessageSnapshot
  | fullToolSnapshot
  | historyMutationIndex
  | boundedHistoryNonempty
  deriving DecidableEq

structure BridgeTurnUsageSnapshot where
  inputTokens : Nat
  outputTokens : Nat
  reasoningTokens : Option Nat
  cachedReadTokens : Option Nat
  cachedWriteTokens : Option Nat
  totalTokens : Nat
  model : Option String

structure BridgeTokenTotalsSnapshot where
  turns : Nat := 0
  inputTokens : Nat := 0
  outputTokens : Nat := 0
  reasoningTokens : Option Nat := none
  cachedReadTokens : Option Nat := none
  cachedWriteTokens : Option Nat := none
  totalTokens : Nat := 0

structure SnapshotMessage where
  id : String
  role : MessageRole
  parts : List Json
  truncated : Bool
  usage : Option BridgeTurnUsageSnapshot

structure SnapshotTool where
  id : String
  generation : Option Nat
  kind : ToolKind
  status : ToolCallStatus
  title : String
  content : String
  structuredContent : List Json
  locations : List Json
  truncated : Bool
  subagent : Bool

inductive SnapshotTimelineKind where
  | message
  | reasoning
  | tool
  deriving DecidableEq

structure SnapshotTimelineEntry where
  sequence : Nat
  kind : SnapshotTimelineKind
  canonicalId : String

structure SnapshotHistoryEntry where
  sequence : Nat
  kind : SnapshotTimelineKind
  canonicalId : String
  message : Option SnapshotMessage
  tool : Option SnapshotTool

structure SessionSnapshot where
  agentId : String := ""
  threadId : String := ""
  historyReconstruction : Bool := false
  activeRunId : Option String := none
  activeSourceTurnId : Option String := none
  activeGeneration : Option Nat := none
  activeToolIds : List String := []
  messages : List SnapshotMessage := []
  tools : TreeMap String SnapshotTool := {}
  subagentHeaders : TreeMap String String := {}
  timeline : List SnapshotTimelineEntry := []
  nextSequence : Nat := 0
  totalMessages : Nat := 0
  totalReasoning : Nat := 0
  totalTools : Nat := 0
  history : List SnapshotHistoryEntry := []
  historyBytes : Nat := 0
  unavailableCount : Nat := 0
  plan : List PlanEntry := []
  modeId : Option String := none
  config : List ConfigEntry := []
  title : Option String := none
  updatedAt : Option String := none
  commands : List CommandEntry := []
  usageUsed : Option Nat := none
  usageSize : Option Nat := none
  usageCost : Option String := none
  tokenTotals : Option BridgeTokenTotalsSnapshot := none

def SessionSnapshot.new (agentId threadId : String) : SessionSnapshot :=
  { agentId, threadId }

/-! The serialization of a history entry -/

def natJson (n : Nat) : Json :=
  .number (toString n)

def optionJson (toJson : α → Json) : Option α → Json
  | none => .null
  | some a => toJson a

def roleName : MessageRole → String
  | .user => "user"
  | .agent => "agent"
  | .thought => "thought"

def toolKindName : ToolKind → String
  | .read => "read"
  | .edit => "edit"
  | .delete => "delete"
  | .move => "move"
  | .search => "search"
  | .execute => "execute"
  | .think => "think"
  | .fetch => "fetch"
  | .switchMode => "switch_mode"
  | .other => "other"

def toolCallStatusName : ToolCallStatus → String
  | .pending => "pending"
  | .inProgress => "in_progress"
  | .completed => "completed"
  | .failed => "failed"
  | .other name => name

def SnapshotTimelineKind.name : SnapshotTimelineKind → String
  | .message => "message"
  | .reasoning => "reasoning"
  | .tool => "tool"

def BridgeTurnUsageSnapshot.toJson (usage : BridgeTurnUsageSnapshot) : Json :=
  .object
    [("inputTokens", natJson usage.inputTokens),
      ("outputTokens", natJson usage.outputTokens),
      ("reasoningTokens", optionJson natJson usage.reasoningTokens),
      ("cachedReadTokens", optionJson natJson usage.cachedReadTokens),
      ("cachedWriteTokens", optionJson natJson usage.cachedWriteTokens),
      ("totalTokens", natJson usage.totalTokens),
      ("model", optionJson .string usage.model)]

def SnapshotMessage.toJson (message : SnapshotMessage) : Json :=
  .object
    [("id", .string message.id),
      ("role", .string (roleName message.role)),
      ("parts", .array message.parts),
      ("truncated", .bool message.truncated),
      ("usage", optionJson BridgeTurnUsageSnapshot.toJson message.usage)]

def SnapshotTool.toJson (tool : SnapshotTool) : Json :=
  .object
    [("id", .string tool.id),
      ("generation", optionJson natJson tool.generation),
      ("kind", .string (toolKindName tool.kind)),
      ("status", .string (toolCallStatusName tool.status)),
      ("title", .string tool.title),
      ("content", .string tool.content),
      ("structuredContent", .array tool.structuredContent),
      ("locations", .array tool.locations),
      ("truncated", .bool tool.truncated),
      ("subagent", .bool tool.subagent)]

/--
A missing message or tool is left out.
-/
def SnapshotHistoryEntry.toJson (entry : SnapshotHistoryEntry) : Json :=
  .object <|
    [("sequence", natJson entry.sequence),
      ("kind", .string entry.kind.name),
      ("canonicalId", .string entry.canonicalId)]
    ++ (entry.message.map fun message => ("message", message.toJson)).toList
    ++ (entry.tool.map fun tool => ("tool", tool.toJson)).toList

def historyEntryBytes (entry : SnapshotHistoryEntry) : Except Panic Nat :=
  if entry.toJson.bytes ≤ ISIZE_MAX then .ok entry.toJson.bytes else .error .capacityOverflow

end Snapshot
