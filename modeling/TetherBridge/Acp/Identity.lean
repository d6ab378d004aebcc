import TetherBridge.Data.Text

/-!
This module contains `acp/identity.rs`: the identity of a session at its agent and the thread id that
encodes it. The encoding of its components is the one of the `base64` crate.
-/

namespace Acp

def MAX_COMPONENT_BYTES : Nat := 1024

structure AgentSessionId where
  agentId : String
  acpSessionId : String
  deriving DecidableEq, Repr

namespace AgentSessionId

def isAgentIdChar (c : Char) : Bool :=
  c.isAlphanum || c == '-' || c == '_' || c == '.'

def validate (identity : AgentSessionId) : Bool :=
  !(identity.agentId.isEmpty
    || identity.agentId.utf8ByteSize > MAX_COMPONENT_BYTES
    || !identity.agentId.toList.all isAgentIdChar
    || identity.acpSessionId.isEmpty
    || identity.acpSessionId.utf8ByteSize > MAX_COMPONENT_BYTES
    || identity.acpSessionId.toList.contains '\x00')

def new (agentId acpSessionId : String) : Option AgentSessionId :=
  if validate { agentId, acpSessionId } then some { agentId, acpSessionId } else none

def encode (base64 : String → String) (identity : AgentSessionId) : String :=
  "v1." ++ base64 identity.agentId ++ "." ++ base64 identity.acpSessionId

end AgentSessionId

end Acp
