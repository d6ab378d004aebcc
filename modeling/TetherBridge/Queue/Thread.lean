import TetherBridge.Queue.Runtime
import TetherBridge.Transition.Basic

/-!
This module contains the prompt queue of one thread as a labelled step function. A step is one
stretch of `queue_service.rs` between two awaits, and a label names the task that moves together
with what the world answers it: the backend, the submission store, the event mailbox.
-/

namespace Queue

open Acp

structure SendRequest where
  submissionId : String
  content : String
  turnStart : Json

def SendRequest.toEntry (request : SendRequest) (id : String) : BridgeQueuedMessageEntry :=
  { id
    submissionId := request.submissionId
    content := request.content
    turnStart := request.turnStart }

/--
What a call into the submission store answers: nothing to report, the receipt of an earlier
submission, or an error.
-/
inductive StoreAnswer where
  | done
  | hit
  | refused (error : String)

/--
The operation that holds the actor lock of the thread across an await, and where it stands.
-/
inductive ActorOp where
  /-- `lookup_submission` is outstanding -/
  | sendLookup (request : SendRequest)
  /-- the submission is new, the next section allocates the entry and tests the runtime -/
  | sendAllocate (request : SendRequest)
  /-- the thread was blocked or occupied, the next section queues the entry -/
  | sendQueue (entry : BridgeQueuedMessageEntry)
  /-- the entry is queued, `reserve_submission` is outstanding -/
  | sendReserveQueued (entry : BridgeQueuedMessageEntry)
  /-- the reservation of a queued entry was refused, the next section takes the entry back -/
  | sendRetract (entry : BridgeQueuedMessageEntry)
  /-- `remember_submission_result` of a queued entry is outstanding -/
  | sendRememberQueued (entry : BridgeQueuedMessageEntry)
  /-- the thread was free, the persisted `reserve_submission` is outstanding -/
  | sendReserveDirect (entry : BridgeQueuedMessageEntry)
  /-- reserved, the next section announces the turn start -/
  | sendBeginTurn (entry : BridgeQueuedMessageEntry)
  /-- `turn_start` is outstanding -/
  | sendTurnStart (entry : BridgeQueuedMessageEntry)
  /-- `turn_start` has answered, the runtime does not know yet -/
  | sendAnswered (entry : BridgeQueuedMessageEntry) (answer : Except String String)
  /-- `remember_submission_result` of a sent entry is outstanding -/
  | sendRememberSent (entry : BridgeQueuedMessageEntry) (turnId : String)
  /-- `release_submission` after a definitive failure is outstanding -/
  | sendRelease (entry : BridgeQueuedMessageEntry)
  /-- `forget_submission_result` of a cancelled entry is outstanding -/
  | cancelForget (itemId submissionId : String) (shouldDispatch : Bool)
  /-- the receipt of a cancelled entry could not be persisted, the next section records it -/
  | cancelPersistFailed (itemId error : String) (shouldDispatch : Bool)
  /-- an entry is popped, `mark_submission_dispatch_pending` is outstanding -/
  | drainMark (entry : BridgeQueuedMessageEntry)
  /-- the reservation of the popped entry failed, the next section puts it back -/
  | drainMarkFailed (entry : BridgeQueuedMessageEntry) (error : String)
  /-- reserved, the next section resets the retry counter -/
  | drainMarked (entry : BridgeQueuedMessageEntry)
  /-- `turn_start` of a popped entry is outstanding -/
  | drainTurnStart (entry : BridgeQueuedMessageEntry)
  /-- `turn_start` of a popped entry has answered, the runtime does not know yet -/
  | drainAnswered (entry : BridgeQueuedMessageEntry) (answer : Except String String)
  /-- `remember_submission_result` is outstanding, the parked completions are still to be recorded -/
  | drainRemember (entry : BridgeQueuedMessageEntry) (turnId : Option String) (eventIds : List Nat)
  /-- the run has ended and the queue is to go on, the next section parks the event id -/
  | runEndPark (eventId : Nat)
  /-- the parked completions are being recorded, after a drain that started `started` -/
  | drainRecord (eventIds : List Nat) (started : Option String)

/--
A running `drain_pending_steers` task, and where it stands.
-/
inductive SteerTask where
  /-- at the head of the loop, waiting for the actor lock -/
  | start
  /-- `prepare_steer` is outstanding -/
  | preparing
  /-- `prepare_steer` has answered, waiting for the actor lock -/
  | prepared (result : Except String Nat)
  /-- `verify_steer_epoch` is outstanding -/
  | verifying (epoch : Nat)
  /-- the epoch is verified, waiting for the actor lock -/
  | verified (epoch : Nat)
  /-- `steer` is outstanding -/
  | steering (dispatch : PendingSteerDispatch)
  /-- `steer` has answered, waiting for the actor lock -/
  | steered (dispatch : PendingSteerDispatch) (result : Except String Unit)
  /-- about to run `fail_steer_dispatch`; `owned` is the dispatch this task has put in flight -/
  | failing (owned : Option PendingSteerDispatch) (itemId error : String)

/--
A call of `record_completion_disposition`, with the queued prompt whose start it reports.
-/
structure Recorded where
  eventId : Nat
  disposition : QueueCompletionDisposition
  started : Option String
  deriving DecidableEq

/--
What has happened on the thread so far. No definition of the queue reads it.
-/
structure Log where
  /-- the entry ids `next_queued_message_id` has given out -/
  allocated : List String := []
  /-- the entries for which the backend answered `Ok` to `turn_start` or `steer`, latest first -/
  accepted : List String := []
  /-- the last answer to a `turn_start` -/
  lastTurnStart : Option (Except String String) := none
  /-- the event ids of the canonical events handled so far -/
  handled : List Nat := []
  /-- the event ids of the run ends that named the active turn and generation -/
  finished : List Nat := []
  recorded : List Recorded := []

structure ThreadState where
  runtime : Option BridgeThreadQueueRuntime := none
  actor : Option ActorOp := none
  steers : List SteerTask := []
  /-- spawned `drain_thread_queue` tasks that wait for the actor lock -/
  drains : Nat := 0
  /-- retry tasks that are still asleep -/
  retries : Nat := 0
  log : Log := {}

inductive Label where
  /-- `ensure_thread_runtime` inserts what it has hydrated -/
  | ensureThreadRuntime (snapshot : QueueRuntimeSnapshot)
  /-- a `send_message` takes the actor lock -/
  | sendMessage (request : SendRequest)
  /-- the outstanding call into the submission store answers -/
  | storeAnswer (answer : StoreAnswer)
  /-- `send_message` takes a fresh entry id -/
  | allocate (id : String)
  /-- the holder of the actor lock runs its next section -/
  | proceed
  /-- the outstanding `turn_start` answers -/
  | turnStartAnswer (answer : Except String String)
  | steerMessage (itemId : String)
  | cancelMessage (itemId : String)
  | startMessageEdit (itemId : String)
  | commitMessageEdit (itemId content : String)
  | cancelMessageEdit (itemId : String)
  /-- a spawned `drain_thread_queue` takes the actor lock -/
  | drainThreadQueue
  /-- a retry task wakes up -/
  | retryWake
  /-- `handle_canonical_event` of the next event in the mailbox -/
  | handleCanonicalEvent (eventId : Nat) (event : CanonicalEvent)
  /-- the steer drain at index `task` runs its next section under the actor lock -/
  | steerSection (task : Nat)
  /-- `prepare_steer` answers the steer drain at index `task` -/
  | prepareAnswer (task : Nat) (result : Except String Nat)
  /-- `verify_steer_epoch` answers the steer drain at index `task` -/
  | verifyAnswer (task : Nat) (result : Except String Bool)
  /-- `steer` answers the steer drain at index `task` -/
  | steerAnswer (task : Nat) (result : Except String Unit)
  /-- the steer drain at index `task` runs `fail_steer_dispatch`, which takes no actor lock -/
  | failSteerDispatch (task : Nat)

namespace ThreadState

variable (s : ThreadState)

@[simp]
def setRuntime (runtime : BridgeThreadQueueRuntime) : ThreadState :=
  { s with runtime := some runtime }

@[simp]
def setActor (op : ActorOp) : ThreadState :=
  { s with actor := some op }

@[simp]
def releaseActor : ThreadState :=
  { s with actor := none }

@[simp]
def spawnAutoDispatch : ThreadState :=
  { s with drains := s.drains + 1 }

@[simp]
def spawnSteerDispatch : ThreadState :=
  { s with steers := s.steers ++ [.start] }

@[simp]
def setTask (task : Nat) (t : SteerTask) : ThreadState :=
  { s with steers := s.steers.set task t }

@[simp]
def endTask (task : Nat) : ThreadState :=
  { s with steers := s.steers.eraseIdx task }

@[simp]
def accept (id : String) : ThreadState :=
  { s with log := { s.log with accepted := id :: s.log.accepted } }

@[simp]
def noteTurnStart (answer : Except String String) : ThreadState :=
  { s with log := { s.log with lastTurnStart := some answer } }

@[simp]
def noteHandled (eventId : Nat) : ThreadState :=
  { s with log := { s.log with handled := eventId :: s.log.handled } }

@[simp]
def noteFinished (eventId : Nat) : ThreadState :=
  { s with log := { s.log with finished := eventId :: s.log.finished } }

/--
`record_completion_disposition`.
-/
@[simp]
def record (eventId : Nat) (disposition : QueueCompletionDisposition) (started : Option String)
    : ThreadState :=
  { s with log := { s.log with recorded := { eventId, disposition, started } :: s.log.recorded } }

end ThreadState

namespace Thread

/--
A request that is refused leaves the thread as it is.
-/
def request (s : ThreadState) (result : Except String ThreadState) : ThreadState :=
  match result with
  | .ok t => t
  | .error _ => s

/-! `ensure_thread_runtime` -/

def ensureThreadRuntime (s : ThreadState) (snapshot : QueueRuntimeSnapshot) : ThreadState :=
  match s.runtime with
  | some _ => s
  | none => s.setRuntime (.hydrateThreadRuntime snapshot)

/-! The operations that hold the actor lock across awaits -/

/--
The answer of the submission store to the holder of the actor lock.
-/
def storeAnswer (s : ThreadState) (op : ActorOp) (answer : StoreAnswer) : Option ThreadState :=
  match op, answer with
  | .sendLookup request, .done => some (s.setActor (.sendAllocate request))
  | .sendLookup _, _ => some s.releaseActor
  | .sendReserveQueued entry, .done => some (s.setActor (.sendRememberQueued entry))
  | .sendReserveQueued entry, _ => some (s.setActor (.sendRetract entry))
  | .sendRememberQueued _, _ => some s.releaseActor
  | .sendReserveDirect entry, .done => some (s.setActor (.sendBeginTurn entry))
  | .sendReserveDirect _, _ => some s.releaseActor
  | .sendRememberSent _ _, _ => some s.releaseActor
  | .sendRelease _, _ => some s.releaseActor
  | .cancelForget itemId _ shouldDispatch, .refused error =>
    some (s.setActor (.cancelPersistFailed itemId error shouldDispatch))
  | .cancelForget _ _ shouldDispatch, _ =>
    some (if shouldDispatch then s.releaseActor.spawnAutoDispatch else s.releaseActor)
  | .drainMark entry, .refused error => some (s.setActor (.drainMarkFailed entry error))
  | .drainMark entry, _ => some (s.setActor (.drainMarked entry))
  | .drainRemember entry turnId eventIds, _ =>
    some (s.setActor (.drainRecord eventIds (turnId.map fun _ => entry.id)))
  | _, _ => none

/--
`send_message` takes an entry id and reads whether the thread is blocked or occupied.
-/
def allocate (s : ThreadState) (op : ActorOp) (id : String) : Option ThreadState :=
  match op with
  | .sendAllocate request =>
    if id ∈ s.log.allocated then
      none
    else
      let entry := request.toEntry id
      let s := { s with log := { s.log with allocated := id :: s.log.allocated } }
      if s.runtime.any (·.runtimeIsBlockedOrOccupied) then
        some (s.setActor (.sendQueue entry))
      else
        some (s.setActor (.sendReserveDirect entry))
  | _ => none

/--
The next section of the holder of the actor lock, where it waits for no answer.
-/
def proceed (s : ThreadState) (op : ActorOp) : Option ThreadState :=
  let runtime := s.runtime.getD {}
  match op with
  | .sendQueue entry =>
    match runtime.pushQueued entry with
    | .ok runtime => some ((s.setRuntime runtime).setActor (.sendReserveQueued entry))
    | .error _ => some s.releaseActor
  | .sendRetract entry => some (s.setRuntime (runtime.retractQueued entry.id)).releaseActor
  | .sendBeginTurn entry => some ((s.setRuntime runtime.beginTurnStart).setActor (.sendTurnStart entry))
  | .sendAnswered entry (.ok turnId) =>
    some ((s.setRuntime (runtime.turnStarted turnId)).setActor (.sendRememberSent entry turnId))
  | .sendAnswered entry (.error error) =>
    let s := s.setRuntime (runtime.sendFailed entry.id error)
    if dispatchFailureIsIndeterminate error then
      some s.releaseActor
    else
      some (s.setActor (.sendRelease entry))
  | .cancelPersistFailed itemId error shouldDispatch =>
    let s := (s.setRuntime (runtime.cancelPersistFailed itemId error)).releaseActor
    some (if shouldDispatch then s.spawnAutoDispatch else s)
  | .drainMarkFailed entry error =>
    -- A retry that is already asleep serves this failure as well.
    let retries := if runtime.dispatchRetryScheduled then s.retries else s.retries + 1
    some { s.setRuntime (runtime.drainReservationFailed entry error) with actor := none, retries }
  | .drainMarked entry => some ((s.setRuntime runtime.resetRetryAttempt).setActor (.drainTurnStart entry))
  | .drainAnswered entry (.ok turnId) =>
    some ((s.setRuntime (runtime.turnStarted turnId).takeCompletions).setActor
      (.drainRemember entry (some turnId) runtime.pendingCompletionEventIds))
  | .drainAnswered entry (.error error) =>
    let s := s.setRuntime (runtime.drainFailed entry error).takeCompletions
    if dispatchFailureIsIndeterminate error then
      some (s.setActor (.drainRecord runtime.pendingCompletionEventIds none))
    else
      some (s.setActor (.drainRemember entry none runtime.pendingCompletionEventIds))
  | .drainRecord [] _ => some s.releaseActor
  | .drainRecord (eventId :: eventIds) started =>
    let disposition := if started.isSome then .continued else .final
    some ((s.record eventId disposition started).setActor (.drainRecord eventIds started))
  | .runEndPark eventId =>
    some (s.setRuntime (runtime.parkCompletion eventId)).releaseActor.spawnAutoDispatch
  | _ => none

def turnStartAnswer (s : ThreadState) (op : ActorOp) (answer : Except String String)
    : Option ThreadState :=
  match op with
  | .sendTurnStart entry =>
    let s := (s.noteTurnStart answer).setActor (.sendAnswered entry answer)
    some (if answer.isOk then s.accept entry.id else s)
  | .drainTurnStart entry =>
    let s := (s.noteTurnStart answer).setActor (.drainAnswered entry answer)
    some (if answer.isOk then s.accept entry.id else s)
  | _ => none

/-! The operations that run as one section under the actor lock -/

def steerMessage (s : ThreadState) (itemId : String) : ThreadState :=
  match s.runtime with
  | none => s
  | some runtime =>
    request s ((runtime.steerMessage itemId).map fun runtime =>
      (s.setRuntime runtime).spawnSteerDispatch)

def cancelMessage (s : ThreadState) (itemId : String) : ThreadState :=
  match s.runtime with
  | none => s
  | some runtime =>
    request s ((runtime.cancelMessage itemId).map fun (runtime, submissionId) =>
      (s.setRuntime runtime).setActor
        (.cancelForget itemId submissionId (!runtime.runtimeHasBlockers)))

def startMessageEdit (s : ThreadState) (itemId : String) : ThreadState :=
  match s.runtime with
  | none => s
  | some runtime => request s ((runtime.startMessageEdit itemId).map s.setRuntime)

/--
The end of an edit: the queue is drained again when nothing else blocks it.
-/
def finishEdit (s : ThreadState) (result : Except String BridgeThreadQueueRuntime) : ThreadState :=
  request s (result.map fun runtime =>
    if runtime.runtimeHasBlockers then
      s.setRuntime runtime
    else
      (s.setRuntime runtime).spawnAutoDispatch)

def commitMessageEdit (s : ThreadState) (itemId content : String) : ThreadState :=
  match s.runtime with
  | none => s
  | some runtime => finishEdit s (runtime.commitMessageEdit itemId content)

def cancelMessageEdit (s : ThreadState) (itemId : String) : ThreadState :=
  match s.runtime with
  | none => s
  | some runtime => finishEdit s (runtime.cancelMessageEdit itemId)

/--
The first section of `drain_thread_queue`.
-/
def drainThreadQueue (s : ThreadState) : ThreadState :=
  let s := { s with drains := s.drains - 1 }
  match s.runtime with
  | none => s
  | some runtime =>
    if runtime.drainIsBlocked then
      s
    else
      match runtime.items with
      | [] =>
        (s.setRuntime runtime.takeCompletions).setActor
          (.drainRecord runtime.pendingCompletionEventIds none)
      | queuedItem :: items =>
        (s.setRuntime { runtime with items }.beginTurnStart).setActor (.drainMark queuedItem)

def retryWake (s : ThreadState) : ThreadState :=
  { s with
    retries := s.retries - 1
    drains := s.drains + 1
    runtime := s.runtime.map (·.clearRetryScheduled) }

/-! `handle_canonical_event` -/

/--
The first section of the run end arm.
-/
def runEnd (s : ThreadState) (eventId : Nat) (sourceTurnId : String) (generation : Nat)
    : ThreadState :=
  let runtime := s.runtime.getD {}
  if !runtime.acceptsRunEnd sourceTurnId generation then
    s.setRuntime runtime
  else
    let runtime := runtime.runEnded
    let s := (s.setRuntime runtime).noteFinished eventId
    if runtime.shouldQueueCompletion || runtime.shouldDispatch then
      s.setActor (.runEndPark eventId)
    else if runtime.shouldFinalizeForEdit || !runtime.shouldWaitForContinuation then
      s.record eventId .final none
    else
      s

/--
The resolved arms: `resolve` takes the request id out of the set it waits in.
-/
def interactionResolved (s : ThreadState)
    (resolve : BridgeThreadQueueRuntime → BridgeThreadQueueRuntime)
    : ThreadState :=
  match s.runtime with
  | none => s
  | some runtime =>
    let runtime := resolve runtime
    if runtime.resolvedShouldDrain then
      (s.setRuntime runtime).spawnSteerDispatch
    else
      s.setRuntime runtime

def handleCanonicalEvent (s : ThreadState) (eventId : Nat) (event : CanonicalEvent) : ThreadState :=
  let runtime := s.runtime.getD {}
  match event with
  | .runStarted _ _ runId sourceTurnId generation =>
    s.setRuntime (runtime.runStarted runId sourceTurnId generation)
  | .runFinished _ _ _ sourceTurnId generation _ => runEnd s eventId sourceTurnId generation
  | .runFailed _ _ _ sourceTurnId generation _ => runEnd s eventId sourceTurnId generation
  | .tool _ _ runId sourceTurnId generation toolCallId _ status _ _ _ _ =>
    let (runtime, shouldDrain) := runtime.toolUpdated generation runId sourceTurnId toolCallId status
    if shouldDrain then (s.setRuntime runtime).spawnSteerDispatch else s.setRuntime runtime
  | .permissionRequested approval => s.setRuntime (runtime.permissionRequested approval.requestId)
  | .permissionResolved _ _ requestId _ => interactionResolved s (·.permissionResolved requestId)
  | .elicitationRequested request => s.setRuntime (runtime.elicitationRequested request.requestId)
  | .elicitationResolved _ _ requestId _ => interactionResolved s (·.elicitationResolved requestId)
  | _ => s

/-! `drain_pending_steers` -/

section Steer

variable (bridgePrompt : Json → Except String Unit)

/--
The next section of a steer drain under the actor lock.
-/
def steerSection (s : ThreadState) (task : Nat) (t : SteerTask) : Option ThreadState :=
  match s.runtime with
  | none =>
    match t with
    | .start | .prepared _ | .verified _ | .steered _ _ => some (s.endTask task)
    | _ => none
  | some runtime =>
    match t with
    | .start =>
      if runtime.shouldPrepare then
        some ((s.setRuntime runtime.beginPrepare).setTask task .preparing)
      else
        some (s.endTask task)
    | .prepared result =>
      let runtime := runtime.prepareAnswered result
      let s := s.setRuntime runtime
      -- The early return on an error comes before the auto dispatch that is meant for an error.
      if runtime.lastError.isSome then
        some (s.endTask task)
      else
        let s := if runtime.prepareShouldAutoDispatch result then s.spawnAutoDispatch else s
        match result with
        | .ok epoch => some (s.setTask task (.verifying epoch))
        | .error _ => none
    | .verified _ =>
      match runtime.takeSteer with
      | none => some (s.endTask task)
      | some (runtime, dispatch) =>
        let s := s.setRuntime runtime
        match bridgePrompt dispatch.entry.turnStart with
        | .ok _ => some (s.setTask task (.steering dispatch))
        | .error error => some (s.setTask task (.failing (some dispatch) dispatch.entry.id error))
    | .steered dispatch result =>
      match runtime.steerAnswered dispatch result with
      | none => some (s.endTask task)
      | some runtime =>
        let s := s.setRuntime runtime
        match result with
        | .ok _ => some (s.setTask task .start)
        | .error _ => some (s.spawnAutoDispatch.endTask task)
    | _ => none

end Steer

def prepareAnswer (s : ThreadState) (task : Nat) (t : SteerTask) (result : Except String Nat)
    : Option ThreadState :=
  match t with
  | .preparing => some (s.setTask task (.prepared result))
  | _ => none

def verifyAnswer (s : ThreadState) (task : Nat) (t : SteerTask) (result : Except String Bool)
    : Option ThreadState :=
  match t, result with
  | .verifying epoch, .ok true => some (s.setTask task (.verified epoch))
  | .verifying _, .ok false => some (s.setTask task .start)
  | .verifying _, .error error => some (s.setTask task (.failing none "prepare" error))
  | _, _ => none

def steerAnswer (s : ThreadState) (task : Nat) (t : SteerTask) (result : Except String Unit)
    : Option ThreadState :=
  match t with
  | .steering dispatch =>
    let s := s.setTask task (.steered dispatch result)
    some (if result.isOk then s.accept dispatch.entry.id else s)
  | _ => none

def failSteerDispatch (s : ThreadState) (task : Nat) (t : SteerTask) : Option ThreadState :=
  match t with
  | .failing _ itemId error =>
    some { s.endTask task with
      runtime := s.runtime.map fun runtime => runtime.failSteerDispatch itemId error }
  | _ => none

/--
One step of the thread. The operations that take the actor lock wait until it is free.
-/
def step (bridgePrompt : Json → Except String Unit) (s : ThreadState) (label : Label)
    : Option ThreadState :=
  match label with
  | .ensureThreadRuntime snapshot => some (ensureThreadRuntime s snapshot)
  | .sendMessage request =>
    if s.actor.isNone && s.runtime.isSome then some (s.setActor (.sendLookup request)) else none
  | .storeAnswer answer => s.actor.bind (storeAnswer s · answer)
  | .allocate id => s.actor.bind (allocate s · id)
  | .proceed => s.actor.bind (proceed s ·)
  | .turnStartAnswer answer => s.actor.bind (turnStartAnswer s · answer)
  | .steerMessage itemId => if s.actor.isNone then some (steerMessage s itemId) else none
  | .cancelMessage itemId => if s.actor.isNone then some (cancelMessage s itemId) else none
  | .startMessageEdit itemId => if s.actor.isNone then some (startMessageEdit s itemId) else none
  | .commitMessageEdit itemId content =>
    if s.actor.isNone then some (commitMessageEdit s itemId content) else none
  | .cancelMessageEdit itemId => if s.actor.isNone then some (cancelMessageEdit s itemId) else none
  | .drainThreadQueue =>
    if s.actor.isNone && s.drains != 0 then some (drainThreadQueue s) else none
  | .retryWake => if s.retries != 0 then some (retryWake s) else none
  | .handleCanonicalEvent eventId event =>
    if s.actor.isNone && !s.log.handled.contains eventId then
      some (handleCanonicalEvent (s.noteHandled eventId) eventId event)
    else
      none
  | .steerSection task =>
    if s.actor.isNone then s.steers[task]?.bind (steerSection bridgePrompt s task) else none
  | .prepareAnswer task result => s.steers[task]?.bind (prepareAnswer s task · result)
  | .verifyAnswer task result => s.steers[task]?.bind (verifyAnswer s task · result)
  | .steerAnswer task result => s.steers[task]?.bind (steerAnswer s task · result)
  | .failSteerDispatch task => s.steers[task]?.bind (failSteerDispatch s task)

/--
The steps of the thread, with what enables them.
-/
inductive Steps (bridgePrompt : Json → Except String Unit) (s : ThreadState)
    : Label → ThreadState → Prop where
  | ensureThreadRuntime (snapshot : QueueRuntimeSnapshot)
    : Steps bridgePrompt s (.ensureThreadRuntime snapshot) (ensureThreadRuntime s snapshot)
  | sendMessage (request : SendRequest) (hfree : s.actor = none) (hruntime : s.runtime.isSome)
    : Steps bridgePrompt s (.sendMessage request) (s.setActor (.sendLookup request))
  | storeAnswer {op : ActorOp} {answer : StoreAnswer} {t : ThreadState}
      (hactor : s.actor = some op) (h : storeAnswer s op answer = some t)
    : Steps bridgePrompt s (.storeAnswer answer) t
  | allocate {op : ActorOp} {id : String} {t : ThreadState}
      (hactor : s.actor = some op) (h : allocate s op id = some t)
    : Steps bridgePrompt s (.allocate id) t
  | proceed {op : ActorOp} {t : ThreadState}
      (hactor : s.actor = some op) (h : proceed s op = some t)
    : Steps bridgePrompt s .proceed t
  | turnStartAnswer {op : ActorOp} {answer : Except String String} {t : ThreadState}
      (hactor : s.actor = some op) (h : turnStartAnswer s op answer = some t)
    : Steps bridgePrompt s (.turnStartAnswer answer) t
  | steerMessage (itemId : String) (hfree : s.actor = none)
    : Steps bridgePrompt s (.steerMessage itemId) (steerMessage s itemId)
  | cancelMessage (itemId : String) (hfree : s.actor = none)
    : Steps bridgePrompt s (.cancelMessage itemId) (cancelMessage s itemId)
  | startMessageEdit (itemId : String) (hfree : s.actor = none)
    : Steps bridgePrompt s (.startMessageEdit itemId) (startMessageEdit s itemId)
  | commitMessageEdit (itemId content : String) (hfree : s.actor = none)
    : Steps bridgePrompt s (.commitMessageEdit itemId content) (commitMessageEdit s itemId content)
  | cancelMessageEdit (itemId : String) (hfree : s.actor = none)
    : Steps bridgePrompt s (.cancelMessageEdit itemId) (cancelMessageEdit s itemId)
  | drainThreadQueue (hfree : s.actor = none) (hdrains : s.drains ≠ 0)
    : Steps bridgePrompt s .drainThreadQueue (drainThreadQueue s)
  | retryWake (hretries : s.retries ≠ 0)
    : Steps bridgePrompt s .retryWake (retryWake s)
  | handleCanonicalEvent (eventId : Nat) (event : CanonicalEvent) (hfree : s.actor = none)
      (hfresh : eventId ∉ s.log.handled)
    : Steps bridgePrompt s (.handleCanonicalEvent eventId event)
        (handleCanonicalEvent (s.noteHandled eventId) eventId event)
  | steerSection {task : Nat} {u : SteerTask} {t : ThreadState} (hfree : s.actor = none)
      (htask : s.steers[task]? = some u) (h : steerSection bridgePrompt s task u = some t)
    : Steps bridgePrompt s (.steerSection task) t
  | prepareAnswer {task : Nat} {u : SteerTask} {result : Except String Nat} {t : ThreadState}
      (htask : s.steers[task]? = some u) (h : prepareAnswer s task u result = some t)
    : Steps bridgePrompt s (.prepareAnswer task result) t
  | verifyAnswer {task : Nat} {u : SteerTask} {result : Except String Bool} {t : ThreadState}
      (htask : s.steers[task]? = some u) (h : verifyAnswer s task u result = some t)
    : Steps bridgePrompt s (.verifyAnswer task result) t
  | steerAnswer {task : Nat} {u : SteerTask} {result : Except String Unit} {t : ThreadState}
      (htask : s.steers[task]? = some u) (h : steerAnswer s task u result = some t)
    : Steps bridgePrompt s (.steerAnswer task result) t
  | failSteerDispatch {task : Nat} {u : SteerTask} {t : ThreadState}
      (htask : s.steers[task]? = some u) (h : failSteerDispatch s task u = some t)
    : Steps bridgePrompt s (.failSteerDispatch task) t

theorem Steps.of_step {bridgePrompt : Json → Except String Unit} {s t : ThreadState} {label : Label}
    (h : step bridgePrompt s label = some t)
    : Steps bridgePrompt s label t := by
  cases label
  case ensureThreadRuntime snapshot =>
    injection h with h
    exact h ▸ .ensureThreadRuntime snapshot
  case storeAnswer | allocate | proceed | turnStartAnswer =>
    obtain ⟨op, hactor, h⟩ := Option.bind_eq_some_iff.mp h
    constructor <;> assumption
  case prepareAnswer | verifyAnswer | steerAnswer | failSteerDispatch =>
    obtain ⟨u, htask, h⟩ := Option.bind_eq_some_iff.mp h
    constructor <;> assumption
  case steerSection =>
    obtain ⟨hfree, h⟩ := Option.ite_none_right_eq_some.mp h
    obtain ⟨u, htask, h⟩ := Option.bind_eq_some_iff.mp h
    exact .steerSection (Option.isNone_iff_eq_none.mp hfree) htask h
  case steerMessage | cancelMessage | startMessageEdit | commitMessageEdit | cancelMessageEdit =>
    obtain ⟨hfree, h⟩ := Option.ite_none_right_eq_some.mp h
    injection h with h
    subst h
    constructor
    exact Option.isNone_iff_eq_none.mp hfree
  case sendMessage | drainThreadQueue | retryWake | handleCanonicalEvent =>
    obtain ⟨henabled, h⟩ := Option.ite_none_right_eq_some.mp h
    injection h with h
    subst h
    constructor <;> simp_all

/--
No spawned drain or retry is pending, no operation is in progress and no backend call outstanding.
-/
def Quiescent (s : ThreadState) : Prop :=
  s.actor = none ∧ s.steers = [] ∧ s.drains = 0 ∧ s.retries = 0

instance (s : ThreadState) : Decidable (Quiescent s) :=
  have : Decidable (s.actor = none) := decidable_of_iff (s.actor.isNone) (by simp)
  have : Decidable (s.steers = []) := decidable_of_iff (s.steers.isEmpty) (by simp)
  inferInstanceAs (Decidable (_ ∧ _))

/-! Stretches of a run that scenarios are put together from -/

/--
A session with a live prompt generation and nothing pending.
-/
def liveSnapshot : QueueRuntimeSnapshot :=
  { activeRunId := some "run"
    activeSourceTurnId := some "turn"
    activeGeneration := some 1
    activeToolIds := []
    historyReconstruction := false
    pendingApprovalIds := []
    pendingUserInputIds := [] }

/--
A session without a prompt.
-/
def idleSnapshot : QueueRuntimeSnapshot :=
  { liveSnapshot with activeRunId := none, activeSourceTurnId := none, activeGeneration := none }

/--
A whole `send_message` on a thread that is blocked or occupied.
-/
def sendQueued (id : String) : List Label :=
  [.sendMessage { submissionId := "submission-" ++ id, content := id, turnStart := .null },
    .storeAnswer .done, .allocate id, .proceed, .storeAnswer .done, .storeAnswer .done]

/--
The steer drain at index `task` from the head of its loop to the outstanding verification.
-/
def prepareSteer (task : Nat) : List Label :=
  [.steerSection task, .prepareAnswer task (.ok 1), .steerSection task]

/--
From there to the outstanding `steer`.
-/
def dispatchSteer (task : Nat) : List Label :=
  [.verifyAnswer task (.ok true), .steerSection task]

/--
A tool of the live generation completes.
-/
def toolCompleted (eventId : Nat) : Label :=
  .handleCanonicalEvent eventId
    (.tool "agent" "thread" (some "run") (some "turn") (some 1) "tool" .other .completed "title"
      .unchanged .unchanged .unchanged)

end Thread

end Queue
