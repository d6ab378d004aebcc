import TetherBridge.Acp.Elicitation
import TetherBridge.Acp.Events
import TetherBridge.Data.Entries

/-!
This module contains the `InteractionRegistry` of `acp/interactions.rs`: the permissions and forms that agents have
asked for, and the sections of its methods that hold its lock. A `HashMap` is the list of its entries in the order in
which they are iterated. The time of a request, and the lease that keeps its session from being evicted, are left out.
-/

namespace Acp

def maxPendingGlobal : Nat := 128

def maxPendingPerSession : Nat := 16

inductive PermissionOptionKind where
  | allowOnce
  | allowAlways
  | rejectOnce
  | rejectAlways
  | other
  deriving DecidableEq, Repr

structure PermissionOption where
  optionId : String
  name : String
  kind : PermissionOptionKind
  deriving DecidableEq, Repr

structure RequestPermissionRequest where
  sessionId : String
  toolCallId : String
  title : Option String
  kind : Option ToolKind
  status : Option ToolCallStatus
  options : List PermissionOption
  deriving DecidableEq, Repr

inductive ElicitationScope where
  | session (sessionId : String) (toolCallId : Option String)
  | request
  | other

inductive ElicitationMode where
  | form (requestedSchema : ElicitationSchema)
  | other

structure CreateElicitationRequest where
  scope : ElicitationScope
  mode : ElicitationMode
  message : String

inductive RequestPermissionOutcome where
  | selected (optionId : String)
  | cancelled
  deriving DecidableEq, Repr

inductive ElicitationAction where
  | accept (content : Values)
  | decline
  | cancel
  deriving DecidableEq, Repr

/--
What a responder is used for.
-/
inductive Answer where
  | permission (outcome : RequestPermissionOutcome)
  | elicitation (action : ElicitationAction)
  | methodNotFound (data : String)
  deriving DecidableEq, Repr

structure PermissionOptionSummary where
  id : String
  name : String
  kind : PermissionOptionKind
  deriving DecidableEq, Repr

structure PendingPermissionSummary where
  agentId : String
  requestId : String
  threadId : String
  turnId : String
  toolCallId : String
  title : String
  kind : ToolKind
  status : ToolCallStatus
  options : List PermissionOptionSummary
  requestedOrder : Nat
  deriving DecidableEq, Repr

structure PendingElicitationSummary where
  agentId : String
  requestId : String
  threadId : String
  turnId : String
  toolCallId : Option String
  message : String
  fields : List ElicitationFieldSummary
  requestedOrder : Nat
  deriving DecidableEq, Repr

/--
What `SessionSnapshot` and `active_interaction_generation` say of a session.
-/
structure SessionView where
  agentId : String
  threadId : String
  activeSourceTurnId : Option String
  generation : Option Nat
  deriving DecidableEq, Repr

/--
A responder is the number of the request that it answers.
-/
structure PermissionEntry where
  request : RequestPermissionRequest
  responder : Nat
  summary : PendingPermissionSummary
  sessionId : String
  generation : Nat

structure ElicitationEntry where
  schema : ElicitationSchema
  responder : Nat
  summary : PendingElicitationSummary
  sessionId : String
  generation : Nat

structure InteractionState where
  nextOrder : Nat
  sessionEpochs : List (String × Nat)
  permissions : List (String × PermissionEntry)
  elicitations : List (String × ElicitationEntry)

/--
The text of `Uuid::new_v4`.
-/
structure Uuid where
  text : String
  length_eq : text.length = 36
  deriving DecidableEq

inductive ResolvedKind where
  | permission
  | elicitation
  deriving DecidableEq, Repr

/--
An entry that was taken out: its responder is to be used for the answer, and then the outcome is emitted.
-/
structure Settlement where
  responder : Nat
  answer : Answer
  sessionId : String
  kind : ResolvedKind
  threadId : String
  requestId : String
  outcome : String
  deriving DecidableEq

/--
What is left to do after a request was received: answer it, or announce that it is pending.
-/
inductive Received where
  | answer (answer : Answer)
  | permissionRequested (sessionId : String) (summary : PendingPermissionSummary)
  | elicitationRequested (sessionId : String) (summary : PendingElicitationSummary)

def permissionSummary (requestId : String) (requestedOrder : Nat) (agentId threadId turnId : String)
    (request : RequestPermissionRequest)
    : PendingPermissionSummary where
  agentId
  requestId
  threadId
  turnId
  toolCallId := request.toolCallId
  title := request.title.getD ""
  kind := request.kind.getD .other
  status := request.status.getD .pending
  options := request.options.map fun option => { id := option.optionId, name := option.name, kind := option.kind }
  requestedOrder

def elicitationSummary (requestId : String) (requestedOrder : Nat) (agentId threadId turnId : String)
    (request : CreateElicitationRequest)
    : PendingElicitationSummary where
  agentId
  requestId
  threadId
  turnId
  toolCallId :=
    match request.scope with
    | .session _ toolCallId => toolCallId
    | _ => none
  message := request.message
  fields :=
    match request.mode with
    | .form schema => schema.properties.map fun (name, property) => fieldSummary name property schema
    | .other => []
  requestedOrder

namespace PermissionEntry

def settle (entry : PermissionEntry) (sessionId : String) (answer : RequestPermissionOutcome) (outcome : String)
    : Settlement where
  responder := entry.responder
  answer := .permission answer
  sessionId
  kind := .permission
  threadId := entry.summary.threadId
  requestId := entry.summary.requestId
  outcome

/--
The option that declines a permission.
-/
def rejectOption (entry : PermissionEntry) : Option String :=
  ((entry.request.options.find? fun option => option.kind = .rejectOnce)
    |>.or (entry.request.options.find? fun option => option.kind = .rejectAlways)).map (·.optionId)

end PermissionEntry

namespace ElicitationEntry

def settle (entry : ElicitationEntry) (sessionId : String) (action : ElicitationAction) (outcome : String)
    : Settlement where
  responder := entry.responder
  answer := .elicitation action
  sessionId
  kind := .elicitation
  threadId := entry.summary.threadId
  requestId := entry.summary.requestId
  outcome

end ElicitationEntry

namespace InteractionState

def default : InteractionState where
  nextOrder := 0
  sessionEpochs := []
  permissions := []
  elicitations := []

def epochOf (state : InteractionState) (sessionId : String) : Nat :=
  (state.sessionEpochs.lookup sessionId).getD 0

/--
The epochs are of type `u64`.
-/
def bumpEpoch (state : InteractionState) (sessionId : String) : InteractionState :=
  { state with
    sessionEpochs :=
      state.sessionEpochs.assign sessionId (min (state.epochOf sessionId + 1) (2 ^ 64 - 1)) }

def bumpEpochs (state : InteractionState) (sessionIds : List String) : InteractionState :=
  sessionIds.foldl bumpEpoch state

/--
The epoch moves when something was taken out.
-/
def bumpEpochIf (state : InteractionState) (sessionId : String) (taken : Bool) : InteractionState :=
  if taken then state.bumpEpoch sessionId else state

section Limits

variable (maxGlobal maxPerSession : Nat)

def atCapacity (state : InteractionState) (sessionId : String) : Bool :=
  let total := state.permissions.length + state.elicitations.length
  let sessionTotal :=
    state.permissions.countP (fun entry => entry.2.request.sessionId = sessionId)
      + state.elicitations.countP fun entry => entry.2.sessionId = sessionId
  decide (total ≥ maxGlobal) || decide (sessionTotal ≥ maxPerSession)

/--
`next_order` is of type `u64`.
-/
def allocate (state : InteractionState) (agentId threadId : String) (uuid : Uuid)
    : InteractionState × String × Nat :=
  let nextOrder := (state.nextOrder + 1) % 2 ^ 64
  ({ state with nextOrder },
    "acp-interaction:" ++ agentId ++ ":" ++ threadId ++ ":" ++ uuid.text,
    nextOrder)

def registerPermission (state : InteractionState) (request : RequestPermissionRequest) (responder : Nat)
    (lease : Option SessionView) (uuid : Uuid)
    : InteractionState × Received :=
  match lease with
  | none => (state, .answer (.permission .cancelled))
  | some snapshot =>
    match snapshot.generation with
    | none => (state, .answer (.permission .cancelled))
    | some generation =>
      let turnId := snapshot.activeSourceTurnId.getD ""
      if state.atCapacity maxGlobal maxPerSession request.sessionId then
        (state, .answer (.permission .cancelled))
      else
        let (state, requestId, requestedOrder) := state.allocate snapshot.agentId snapshot.threadId uuid
        let state := state.bumpEpoch request.sessionId
        let summary :=
          permissionSummary requestId requestedOrder snapshot.agentId snapshot.threadId turnId request
        let entry : PermissionEntry :=
          { request, responder, summary, sessionId := request.sessionId, generation }
        ({ state with permissions := state.permissions.assign requestId entry },
          .permissionRequested request.sessionId summary)

def registerElicitation (state : InteractionState) (request : CreateElicitationRequest) (responder : Nat)
    (lease : Option SessionView) (uuid : Uuid)
    : InteractionState × Received :=
  match request.scope, lease with
  | .session sessionId _, some snapshot =>
    match request.mode with
    | .form schema =>
      match snapshot.generation with
      | none => (state, .answer (.elicitation .cancel))
      | some generation =>
        let turnId := snapshot.activeSourceTurnId.getD ""
        if state.atCapacity maxGlobal maxPerSession sessionId then
          (state, .answer (.elicitation .cancel))
        else
          let (state, requestId, requestedOrder) := state.allocate snapshot.agentId snapshot.threadId uuid
          let state := state.bumpEpoch sessionId
          let summary :=
            elicitationSummary requestId requestedOrder snapshot.agentId snapshot.threadId turnId request
          let entry : ElicitationEntry := { schema, responder, summary, sessionId, generation }
          ({ state with elicitations := state.elicitations.assign requestId entry },
            .elicitationRequested sessionId summary)
    | .other => (state, .answer (.methodNotFound "only form elicitation is supported"))
  | _, _ => (state, .answer (.elicitation .cancel))

end Limits

def pendingPermissions (state : InteractionState) : List PendingPermissionSummary :=
  (state.permissions.map (·.2.summary)).mergeSort fun a b => a.requestedOrder ≤ b.requestedOrder

def pendingElicitations (state : InteractionState) : List PendingElicitationSummary :=
  (state.elicitations.map (·.2.summary)).mergeSort fun a b => a.requestedOrder ≤ b.requestedOrder

/-! Answers of a client -/

/--
`get` with the tests before `remove`: the entry of a request that belongs to the thread.
-/
def ownedPermission (state : InteractionState) (threadId requestId : String)
    : Except InteractionError PermissionEntry :=
  match state.permissions.lookup requestId with
  | none => .error (.unknownRequest requestId)
  | some entry => if entry.summary.threadId ≠ threadId then .error (.wrongOwner requestId) else .ok entry

def ownedElicitation (state : InteractionState) (threadId requestId : String)
    : Except InteractionError ElicitationEntry :=
  match state.elicitations.lookup requestId with
  | none => .error (.unknownRequest requestId)
  | some entry => if entry.summary.threadId ≠ threadId then .error (.wrongOwner requestId) else .ok entry

def removePermission (state : InteractionState) (requestId : String) (entry : PermissionEntry)
    : InteractionState :=
  bumpEpoch { state with permissions := List.forget requestId state.permissions } entry.sessionId

def removeElicitation (state : InteractionState) (requestId : String) (entry : ElicitationEntry)
    : InteractionState :=
  bumpEpoch { state with elicitations := List.forget requestId state.elicitations } entry.sessionId

def resolvePermission (state : InteractionState) (threadId requestId optionId : String)
    : Except InteractionError (InteractionState × Settlement) := do
  let entry ← state.ownedPermission threadId requestId
  if entry.request.options.any fun option => option.optionId == optionId then
    .ok (state.removePermission requestId entry, entry.settle entry.sessionId (.selected optionId) optionId)
  else
    .error (.invalidPermissionOption optionId)

def cancelPermission (state : InteractionState) (threadId requestId : String)
    : Except InteractionError (InteractionState × Settlement) := do
  let entry ← state.ownedPermission threadId requestId
  .ok (state.removePermission requestId entry, entry.settle entry.sessionId .cancelled "cancelled")

def acceptElicitation (formats : TextFormats) (state : InteractionState) (threadId requestId : String)
    (values : Values)
    : Except InteractionError (InteractionState × Settlement) := do
  let entry ← state.ownedElicitation threadId requestId
  validateElicitation formats entry.schema values
  .ok (state.removeElicitation requestId entry, entry.settle entry.sessionId (.accept values) "accepted")

def finishElicitation (state : InteractionState) (threadId requestId : String) (action : ElicitationAction)
    (resolution : String)
    : Except InteractionError (InteractionState × Settlement) := do
  let entry ← state.ownedElicitation threadId requestId
  .ok (state.removeElicitation requestId entry, entry.settle entry.sessionId action resolution)

def declineElicitation (state : InteractionState) (threadId requestId : String)
    : Except InteractionError (InteractionState × Settlement) :=
  state.finishElicitation threadId requestId .decline "declined"

def cancelElicitation (state : InteractionState) (threadId requestId : String)
    : Except InteractionError (InteractionState × Settlement) :=
  state.finishElicitation threadId requestId .cancel "cancelled"

/-! Answers of the bridge -/

def cancelPermissionFromPeer (state : InteractionState) (requestId : String)
    : Option (InteractionState × Settlement) :=
  (state.permissions.lookup requestId).map fun entry =>
    (state.removePermission requestId entry, entry.settle entry.sessionId .cancelled "request_cancelled")

def cancelElicitationFromPeer (state : InteractionState) (requestId : String)
    : Option (InteractionState × Settlement) :=
  (state.elicitations.lookup requestId).map fun entry =>
    (state.removeElicitation requestId entry, entry.settle entry.sessionId .cancel "request_cancelled")

/--
The entries of a test are taken out, those of one session with it.
-/
def extractIf (state : InteractionState) (permission : PermissionEntry → Bool)
    (elicitation : ElicitationEntry → Bool)
    : InteractionState :=
  { state with
    permissions := state.permissions.filter fun entry => !permission entry.2
    elicitations := state.elicitations.filter fun entry => !elicitation entry.2 }

/--
The generation is the one `mark_cancelling` has cancelled.
-/
def cancelSession (state : InteractionState) (sessionId : String) (generation : Option Nat)
    : InteractionState × List Settlement :=
  let ofPermission (entry : PermissionEntry) : Bool :=
    entry.sessionId = sessionId && generation = some entry.generation
  let ofElicitation (entry : ElicitationEntry) : Bool :=
    entry.sessionId = sessionId && generation = some entry.generation
  let permissions := state.permissions.filter fun entry => ofPermission entry.2
  let elicitations := state.elicitations.filter fun entry => ofElicitation entry.2
  let state := state.extractIf ofPermission ofElicitation
  let state := state.bumpEpochIf sessionId (!permissions.isEmpty || !elicitations.isEmpty)
  (state,
    permissions.map (fun entry => entry.2.settle sessionId .cancelled "cancelled")
      ++ elicitations.map fun entry => entry.2.settle sessionId .cancel "cancelled")

/--
The settlement of each permission by its reject option, unless one of them has none.
-/
def steerPlans (sessionId : String)
    : List (String × PermissionEntry) → Except InteractionError (List Settlement)
  | [] => .ok []
  | (id, entry) :: entries =>
    match entry.rejectOption with
    | none => .error (.noRejectOption id)
    | some optionId => do
      let plans ← steerPlans sessionId entries
      .ok (entry.settle sessionId (.selected optionId) optionId :: plans)

def prepareSteer (state : InteractionState) (sessionId : String)
    : Except InteractionError (InteractionState × List Settlement × Nat) := do
  let ofPermission (entry : PermissionEntry) : Bool := entry.request.sessionId = sessionId
  let ofElicitation (entry : ElicitationEntry) : Bool := entry.sessionId = sessionId
  let permissions := state.permissions.filter fun entry => ofPermission entry.2
  let elicitations := state.elicitations.filter fun entry => ofElicitation entry.2
  let plans ← steerPlans sessionId permissions
  let state := state.extractIf ofPermission ofElicitation
  let state := state.bumpEpochIf sessionId (!permissions.isEmpty || !elicitations.isEmpty)
  .ok (state,
    plans ++ elicitations.map (fun entry => entry.2.settle sessionId .cancel "cancelled"),
    state.epochOf sessionId)

def verifySteerEpoch (state : InteractionState) (sessionId : String) (epoch : Nat) : Bool :=
  state.epochOf sessionId == epoch
    && !(state.permissions.any fun entry => entry.2.sessionId = sessionId)
    && !(state.elicitations.any fun entry => entry.2.sessionId = sessionId)

def drain (state : InteractionState) : InteractionState × List Settlement :=
  let { nextOrder, sessionEpochs, permissions, elicitations } := state
  let state : InteractionState := { nextOrder, sessionEpochs, permissions := [], elicitations := [] }
  let state := state.bumpEpochs (permissions.map (·.2.sessionId))
  let state := state.bumpEpochs (elicitations.map (·.2.sessionId))
  (state,
    permissions.map (fun entry => entry.2.settle entry.2.sessionId .cancelled "cancelled")
      ++ elicitations.map fun entry => entry.2.settle entry.2.sessionId .cancel "cancelled")

end InteractionState

end Acp
