import TetherBridge.Acp.Interactions
import TetherBridge.Transition.Basic

/-!
This module contains an `InteractionRegistry` among the agents that ask it, the clients that answer, and the sessions
that come and go. A step is one section of a method that holds the lock, or one use of a responder, or one event: what
a method does after it has released the lock is a task, and tasks are interleaved in any way.
-/

namespace Acp

inductive InteractionEvent where
  | permissionRequested (sessionId : String) (summary : PendingPermissionSummary)
  | permissionResolved (sessionId agentId threadId requestId outcome : String)
  | elicitationRequested (sessionId : String) (summary : PendingElicitationSummary)
  | elicitationResolved (sessionId agentId threadId requestId action : String)
  | ignored (sessionId agentId threadId kind : String)
  deriving DecidableEq

/--
What a method does about a response that fails.
-/
inductive OnError where
  | proceed
  | return
  | report (sessionId : String) (failed : Bool)
  deriving DecidableEq, Repr

inductive Task where
  | received (responder : Nat) (received : Received)
  | settle (settlements : List Settlement) (onError : OnError)
  -- the first settlement is answered, and its event is not emitted yet
  | resolve (settlement : Settlement) (failed : Bool) (settlements : List Settlement) (onError : OnError)

inductive Request where
  | permission (request : RequestPermissionRequest)
  | elicitation (request : CreateElicitationRequest)

/--
What a client has asked for.
-/
inductive Decision where
  | select (threadId requestId optionId : String)
  | accept (threadId requestId : String) (values : Values)
  deriving DecidableEq, Repr

structure Registration where
  responder : Nat
  sessionId : String
  threadId : String
  requestId : String
  uuid : Uuid
  deriving DecidableEq

/--
The registry with its tasks, and everything that was received, registered, decided, answered and emitted so far.
-/
structure World where
  state : InteractionState
  tasks : List Task
  -- the tasks that wait for the agent to cancel a request of its own
  watched : List (ResolvedKind × String)
  requests : List Request
  registered : List Registration
  decisions : List Decision
  answers : List (Nat × Answer)
  -- what a method has left unsettled that has returned with an error
  dropped : List Settlement
  events : List InteractionEvent
  steers : List (String × Nat)

inductive Action where
  | registerPermission (request : RequestPermissionRequest) (lease : Option SessionView) (uuid : Uuid)
  | registerElicitation (request : CreateElicitationRequest) (lease : Option SessionView) (uuid : Uuid)
  | resolvePermission (threadId requestId optionId : String)
  | cancelPermission (threadId requestId : String)
  | acceptElicitation (threadId requestId : String) (values : Values)
  | declineElicitation (threadId requestId : String)
  | cancelElicitation (threadId requestId : String)
  | cancelSession (sessionId : String) (generation : Option Nat)
  | prepareSteer (sessionId : String)
  | steer (sessionId : String) (epoch : Nat)
  | drain
  | peerCancels (watched : Nat)
  -- the maps are iterated in another order from now on
  | rehash (permissions elicitations : List Nat)
  | respond (task : Nat) (succeeds : Bool)
  | emit (task : Nat) (session : Option SessionView)

def Settlement.event (settlement : Settlement) (session : SessionView) : InteractionEvent :=
  match settlement.kind with
  | .permission =>
    .permissionResolved settlement.sessionId session.agentId settlement.threadId settlement.requestId
      settlement.outcome
  | .elicitation =>
    .elicitationResolved settlement.sessionId session.agentId session.threadId settlement.requestId
      settlement.outcome

def OnError.after (onError : OnError) (failed : Bool) : OnError :=
  match onError with
  | .report sessionId before => .report sessionId (before || failed)
  | _ => onError

/--
The event of a method that has come to its end.
-/
def OnError.event : OnError → Option SessionView → List InteractionEvent
  | .report sessionId true, some session =>
    [.ignored sessionId session.agentId session.threadId "interaction_cancel_response_failed"]
  | _, _ => []

/--
What is registered of a request that is pending from now on.
-/
def Received.registration (received : Received) (responder : Nat) (uuid : Uuid) : List Registration :=
  match received with
  | .answer _ => []
  | .permissionRequested sessionId summary =>
    [{ responder, sessionId, threadId := summary.threadId, requestId := summary.requestId, uuid }]
  | .elicitationRequested sessionId summary =>
    [{ responder, sessionId, threadId := summary.threadId, requestId := summary.requestId, uuid }]

namespace World

def init : World where
  state := .default
  tasks := []
  watched := []
  requests := []
  registered := []
  decisions := []
  answers := []
  dropped := []
  events := []
  steers := []

def spawn (world : World) (state : InteractionState) (task : Task) : World :=
  { world with state, tasks := world.tasks ++ [task] }

/--
A request was received, and is pending unless there is an answer already.
-/
def receive (world : World) (request : Request) (uuid : Uuid) (result : InteractionState × Received) : World :=
  { world with
    state := result.1
    tasks := world.tasks ++ [.received world.requests.length result.2]
    requests := world.requests ++ [request]
    registered := world.registered ++ result.2.registration world.requests.length uuid }

/--
A call of a client ends with an error, or it takes an entry out.
-/
def call (world : World) (decision : Option Decision)
    (result : Except InteractionError (InteractionState × Settlement))
    : World :=
  let world := { world with decisions := world.decisions ++ decision.toList }
  match result with
  | .error _ => world
  | .ok (state, settlement) => world.spawn state (.settle [settlement] .proceed)

/--
Use a responder.
-/
def respond (world : World) (index : Nat) (succeeds : Bool) : Option World :=
  match world.tasks[index]? with
  | some (.received responder (.answer answer)) =>
    some { world with
      answers := world.answers ++ [(responder, answer)]
      tasks := world.tasks.eraseIdx index }
  | some (.settle (settlement :: settlements) onError) =>
    some { world with
      answers := world.answers ++ [(settlement.responder, settlement.answer)]
      tasks := world.tasks.set index (.resolve settlement (!succeeds) settlements onError) }
  | _ => none

/--
Emit an event, if the session is there, and end the task or go on with it.
-/
def emit (world : World) (index : Nat) (session : Option SessionView) : Option World :=
  match world.tasks[index]? with
  | some (.received _ (.permissionRequested sessionId summary)) =>
    -- the lease holds the session
    some { world with
      events := world.events ++ [.permissionRequested sessionId summary]
      watched := world.watched ++ [(.permission, summary.requestId)]
      tasks := world.tasks.eraseIdx index }
  | some (.received _ (.elicitationRequested sessionId summary)) =>
    some { world with
      events := world.events ++ (session.map fun _ => .elicitationRequested sessionId summary).toList
      watched := world.watched ++ [(.elicitation, summary.requestId)]
      tasks := world.tasks.eraseIdx index }
  | some (.resolve settlement failed settlements onError) =>
    let events := world.events ++ (session.map settlement.event).toList
    if failed && onError = .return then
      some { world with
        events
        dropped := world.dropped ++ settlements
        tasks := world.tasks.eraseIdx index }
    else
      some { world with events, tasks := world.tasks.set index (.settle settlements (onError.after failed)) }
  | some (.settle [] onError) =>
    some { world with
      events := world.events ++ onError.event session
      tasks := world.tasks.eraseIdx index }
  | _ => none

def step (formats : TextFormats) (world : World) : Action → Option World
  | .registerPermission request lease uuid =>
    some <| world.receive (.permission request) uuid <|
      world.state.registerPermission maxPendingGlobal maxPendingPerSession request world.requests.length lease uuid
  | .registerElicitation request lease uuid =>
    some <| world.receive (.elicitation request) uuid <|
      world.state.registerElicitation maxPendingGlobal maxPendingPerSession request world.requests.length lease uuid
  | .resolvePermission threadId requestId optionId =>
    some <| world.call (some (.select threadId requestId optionId)) <|
      world.state.resolvePermission threadId requestId optionId
  | .cancelPermission threadId requestId =>
    some <| world.call none <| world.state.cancelPermission threadId requestId
  | .acceptElicitation threadId requestId values =>
    some <| world.call (some (.accept threadId requestId values)) <|
      world.state.acceptElicitation formats threadId requestId values
  | .declineElicitation threadId requestId =>
    some <| world.call none <| world.state.declineElicitation threadId requestId
  | .cancelElicitation threadId requestId =>
    some <| world.call none <| world.state.cancelElicitation threadId requestId
  | .cancelSession sessionId generation =>
    let (state, settlements) := world.state.cancelSession sessionId generation
    some <| world.spawn state (.settle settlements (.report sessionId false))
  | .prepareSteer sessionId =>
    match world.state.prepareSteer sessionId with
    | .error _ => some world
    | .ok (state, settlements, _) => some <| world.spawn state (.settle settlements .return)
  | .steer sessionId epoch =>
    some <|
      if world.state.verifySteerEpoch sessionId epoch then
        { world with steers := world.steers ++ [(sessionId, epoch)] }
      else
        world
  | .drain =>
    let (state, settlements) := world.state.drain
    some <| world.spawn state (.settle settlements .proceed)
  | .peerCancels index =>
    world.watched[index]?.map fun (kind, requestId) =>
      let world := { world with watched := world.watched.eraseIdx index }
      let result :=
        match kind with
        | .permission => world.state.cancelPermissionFromPeer requestId
        | .elicitation => world.state.cancelElicitationFromPeer requestId
      match result with
      | none => world
      | some (state, settlement) => world.spawn state (.settle [settlement] .proceed)
  | .rehash permissions elicitations =>
    if permissions.Perm (List.range world.state.permissions.length)
        ∧ elicitations.Perm (List.range world.state.elicitations.length) then
      some { world with
        state := { world.state with
          permissions := List.pick permissions world.state.permissions
          elicitations := List.pick elicitations world.state.elicitations } }
    else
      none
  | .respond index succeeds => world.respond index succeeds
  | .emit index session => world.emit index session

end World

end Acp
