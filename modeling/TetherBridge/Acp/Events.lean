import TetherBridge.Data.Json

/-!
This module contains the canonical events of `acp/events.rs` with the protocol enumerations they
carry. An enumeration that the protocol crate marks as non exhaustive has a case for the values it
may grow.
-/

namespace Acp

inductive ToolCallStatus where
  | pending
  | inProgress
  | completed
  | failed
  | other (name : String)
  deriving DecidableEq, Repr

inductive ToolKind where
  | read
  | edit
  | delete
  | move
  | search
  | execute
  | think
  | fetch
  | switchMode
  | other
  deriving DecidableEq, Repr

inductive StopReason where
  | endTurn
  | maxTokens
  | maxTurnRequests
  | refusal
  | cancelled
  deriving DecidableEq, Repr

inductive MessageRole where
  | user
  | agent
  | thought
  deriving DecidableEq, Repr

inductive FieldUpdate (τ : Type) where
  | unchanged
  | clear
  | set (value : τ)
  | append (value : τ)
  deriving Repr

structure PlanEntry where
  content : String
  priority : String
  status : String
  deriving DecidableEq, Repr

structure ConfigOptionValue where
  value : String
  name : String
  description : Option String
  deriving DecidableEq, Repr

structure ConfigEntry where
  id : String
  value : String
  name : String
  description : Option String
  category : Option String
  options : List ConfigOptionValue
  deriving DecidableEq, Repr

structure CommandEntry where
  name : String
  description : String
  deriving DecidableEq, Repr

/--
What the modelled consumers read of a `PendingApproval`.
-/
structure PendingApproval where
  threadId : String
  requestId : String
  deriving DecidableEq, Repr

/--
What the modelled consumers read of a `PendingUserInputRequest`.
-/
structure PendingUserInputRequest where
  threadId : String
  requestId : String
  deriving DecidableEq, Repr

inductive CanonicalEvent where
  | runStarted (agentId threadId runId sourceTurnId : String) (generation : Nat)
  | runFinished (agentId threadId runId sourceTurnId : String) (generation : Nat)
      (stopReason : StopReason)
  | runFailed (agentId threadId runId sourceTurnId : String) (generation : Nat) (message : String)
  | messageChunk (agentId threadId : String) (runId sourceTurnId : Option String)
      (generation : Option Nat) (role : MessageRole) (messageId content : String)
      (contentBlock : Option Json)
  | tool (agentId threadId : String) (runId sourceTurnId : Option String)
      (generation : Option Nat) (toolCallId : String) (kind : ToolKind) (status : ToolCallStatus)
      (title : String) (content : FieldUpdate String)
      (structuredContent locations : FieldUpdate (List Json))
  | plan (agentId threadId : String) (entries : List PlanEntry)
  | usage (agentId threadId : String) (used size : Nat) (cost : Option String)
  | turnTokenUsage (agentId threadId : String) (inputTokens outputTokens : Nat)
      (reasoningTokens cachedReadTokens cachedWriteTokens : Option Nat) (totalTokens : Nat)
  | mode (agentId threadId id : String)
  | config (agentId threadId : String) (entries : List ConfigEntry)
  | sessionInfo (agentId threadId : String) (title updatedAt : FieldUpdate String)
  | commands (agentId threadId : String) (commands : List CommandEntry)
  | permissionRequested (approval : PendingApproval)
  | permissionResolved (agentId threadId requestId outcome : String)
  | elicitationRequested (request : PendingUserInputRequest)
  | elicitationResolved (agentId threadId requestId action : String)
  | ignored (agentId : String) (threadId : Option String) (kind : String)
  deriving Repr

def CanonicalEvent.threadId? : CanonicalEvent → Option String
  | .runStarted _ threadId .. => some threadId
  | .runFinished _ threadId .. => some threadId
  | .runFailed _ threadId .. => some threadId
  | .messageChunk _ threadId .. => some threadId
  | .tool _ threadId .. => some threadId
  | .plan _ threadId .. => some threadId
  | .usage _ threadId .. => some threadId
  | .turnTokenUsage _ threadId .. => some threadId
  | .mode _ threadId .. => some threadId
  | .config _ threadId .. => some threadId
  | .sessionInfo _ threadId .. => some threadId
  | .commands _ threadId .. => some threadId
  | .permissionRequested approval => some approval.threadId
  | .permissionResolved _ threadId .. => some threadId
  | .elicitationRequested request => some request.threadId
  | .elicitationResolved _ threadId .. => some threadId
  | .ignored _ threadId _ => threadId

def CanonicalEvent.chunkId? : CanonicalEvent → Option String
  | .messageChunk _ _ _ _ _ _ messageId _ _ => some messageId
  | _ => none

def CanonicalEvent.toolCallId? : CanonicalEvent → Option String
  | .tool _ _ _ _ _ toolCallId .. => some toolCallId
  | _ => none

end Acp
