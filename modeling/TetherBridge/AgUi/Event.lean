import TetherBridge.Snapshot.Types
import TetherBridge.Data.Text

/-!
This module contains the events `agui.rs` streams to a client, with the fields it sets in each, and how
a text or a value is cut into events. A timestamp is left out.
-/

namespace AgUi

open Acp Snapshot

def MESSAGE_CHUNK_BYTES : Nat := 32 * 1024
def TOOL_RESULT_CHUNK_BYTES : Nat := 16 * 1024
def STRUCTURED_CHUNK_BYTES : Nat := 16 * 1024
def MAX_MESSAGE_TOTAL_BYTES : Nat := 32 * 1024
def MAX_TOOL_TOTAL_BYTES : Nat := 64 * 1024
def MAX_STRUCTURED_TOOL_BYTES : Nat := 64 * 1024

/--
What other crates compute: the printed SHA-256 digest, compact JSON, and URL-safe base64.
-/
structure Crates where
  sha256 : String → String
  toText : Json → String
  base64 : String → String

inductive AgUiEventRole where
  | user
  | assistant
  | reasoning
  | tool
  deriving DecidableEq, Repr

inductive AgUiEvent where
  | runStarted (threadId runId : String)
  | runFinished (threadId runId : String)
  | runError (message code : String)
  | textMessageStart (messageId : String) (role : AgUiEventRole)
  | textMessageContent (messageId delta : String)
  | textMessageEnd (messageId : String)
  | reasoningMessageStart (messageId : String) (role : AgUiEventRole)
  | reasoningMessageContent (messageId delta : String)
  | reasoningMessageEnd (messageId : String)
  | toolCallStart (toolCallId toolCallName : String)
  | toolCallArgs (toolCallId delta : String)
  | toolCallEnd (toolCallId : String)
  | toolCallResult (toolCallId messageId : String) (role : AgUiEventRole) (content : String)
  | custom (name : String) (value : Json)
  | activitySnapshot (messageId activityType : String) (content : Json)

structure AgUiEventEnvelope where
  threadId : String
  runId : String
  sourceTurnId : Option String
  event : AgUiEvent

/--
`utf8_chunks` on the characters. A round takes at least one character, so as many rounds as there are
characters are enough.
-/
def utf8Chunks (maxBytes : Nat) : Nat → List Char → List (List Char)
  | 0, _ => []
  | rounds + 1, value =>
    if value.isEmpty then
      []
    else
      let chunk := Text.takeBytes maxBytes value
      chunk :: utf8Chunks maxBytes rounds (value.drop chunk.length)

def chunks (maxBytes : Nat) (value : String) : List String :=
  (utf8Chunks maxBytes value.length value.toList).map String.ofList

/--
The value as one event, or as numbered pieces when it is too long for one.
-/
def structuredChunks (x : Crates) (name canonicalId : String) (value : Json) : List AgUiEvent :=
  let serialized := x.toText value
  if serialized.utf8ByteSize ≤ STRUCTURED_CHUNK_BYTES then
    [.custom name value]
  else
    let revision := "sha256:" ++ x.sha256 serialized
    let pieces := chunks STRUCTURED_CHUNK_BYTES serialized
    pieces.zipIdx.map fun (data, index) =>
      .custom (name ++ "-chunk")
        (.object
          [("canonicalId", .string canonicalId),
            ("revision", .string revision),
            ("index", natJson index),
            ("count", natJson pieces.length),
            ("data", .string data),
            ("retrieval", .object [("available", .bool false)])])

def messageChunks (reasoning : Bool) (messageId content : String) : List AgUiEvent :=
  (chunks MESSAGE_CHUNK_BYTES content).map fun chunk =>
    if reasoning then .reasoningMessageContent messageId chunk else .textMessageContent messageId chunk

def transcriptTruncation (canonicalId : String) (maxBytes : Nat) : AgUiEvent :=
  .custom "dappercode.dev/transcript-truncated"
    (.object
      [("canonicalId", .string canonicalId),
        ("truncated", .bool true),
        ("maxBytes", natJson maxBytes),
        ("retrieval", .object [("available", .bool false)])])

end AgUi
