import TetherBridge.Acp.Events

/-!
This module contains the state a thread has in the prompt queue and the sections of
`queue_service.rs` that run on it under the `threads` lock, one definition for each stretch between
two awaits. Wall clock fields (`createdAt`, the `at` of an error) are left out, nothing reads them.
-/

namespace Queue

open Acp

def QUEUE_MAX_ITEMS_PER_THREAD : Nat := 100
def QUEUE_MAX_CONTENT_BYTES : Nat := 64 * 1024
def QUEUE_MAX_ITEM_BYTES : Nat := 256 * 1024
def QUEUE_MAX_BYTES_PER_THREAD : Nat := 1024 * 1024
def INDETERMINATE_OPERATION_PREFIX : String := "indeterminate operation outcome: "

structure BridgeQueuedMessageEntry where
  id : String
  submissionId : String
  content : String
  turnStart : Json
  deriving Inhabited

/--
What an entry counts against the byte limits: its content and its serialized `turnStart`.
-/
def BridgeQueuedMessageEntry.bytes (entry : BridgeQueuedMessageEntry) : Nat :=
  entry.content.utf8ByteSize + entry.turnStart.bytes

structure BridgeThreadQueueError where
  message : String
  operation : String
  itemId : Option String
  deriving DecidableEq

structure PendingSteerDispatch where
  entry : BridgeQueuedMessageEntry
  expectedTurnId : String
  expectedRunId : String
  promptGeneration : Nat
  crossedCompletionBoundary : Bool

inductive QueueCompletionDisposition where
  | final
  | continued
  deriving DecidableEq

structure BridgeThreadQueueRuntime where
  items : List BridgeQueuedMessageEntry := []
  pendingSteers : List BridgeQueuedMessageEntry := []
  editingItemId : Option String := none
  steerPrepareInFlight : Bool := false
  steerDispatchInFlight : Option PendingSteerDispatch := none
  activeTurnId : Option String := none
  activeRunId : Option String := none
  activePromptGeneration : Option Nat := none
  activeToolCallIds : List String := []
  liveGenerationKnown : Bool := false
  threadRunning : Bool := false
  turnStartInFlight : Bool := false
  dispatchRetryAttempt : Nat := 0
  dispatchRetryScheduled : Bool := false
  actionInFlightItemId : Option String := none
  pendingApprovalIds : List String := []
  pendingUserInputIds : List String := []
  pendingCompletionEventIds : List Nat := []
  lastError : Option BridgeThreadQueueError := none

/--
The answer of `read_snapshot`, as far as the queue hydrates from it.
-/
structure QueueRuntimeSnapshot where
  activeRunId : Option String
  activeSourceTurnId : Option String
  activeGeneration : Option Nat
  activeToolIds : List String
  historyReconstruction : Bool
  pendingApprovalIds : List String
  pendingUserInputIds : List String

def dispatchFailureIsIndeterminate (error : String) : Bool :=
  error.startsWith INDETERMINATE_OPERATION_PREFIX

namespace BridgeThreadQueueRuntime

variable (runtime : BridgeThreadQueueRuntime)

def runtimeHasBlockers : Bool :=
  runtime.threadRunning
    || runtime.turnStartInFlight
    || runtime.actionInFlightItemId.isSome
    || runtime.editingItemId.isSome
    || runtime.steerPrepareInFlight
    || runtime.steerDispatchInFlight.isSome
    || !runtime.pendingSteers.isEmpty
    || !runtime.pendingApprovalIds.isEmpty
    || !runtime.pendingUserInputIds.isEmpty

def runtimeIsBlockedOrOccupied : Bool :=
  runtime.runtimeHasBlockers || !runtime.items.isEmpty

def hydrateThreadRuntime (snapshot : QueueRuntimeSnapshot) : BridgeThreadQueueRuntime :=
  let liveGenerationKnown := snapshot.activeGeneration.isSome && !snapshot.historyReconstruction
  { activeTurnId := snapshot.activeSourceTurnId
    activeRunId := snapshot.activeRunId
    activePromptGeneration := snapshot.activeGeneration
    activeToolCallIds := snapshot.activeToolIds
    liveGenerationKnown
    threadRunning := liveGenerationKnown
    pendingApprovalIds := snapshot.pendingApprovalIds
    pendingUserInputIds := snapshot.pendingUserInputIds }

/-! `send_message` -/

/--
Append the message behind the others, unless one of the two limits of a thread refuses it.
-/
def pushQueued (entry : BridgeQueuedMessageEntry) : Except String BridgeThreadQueueRuntime :=
  let queuedBytes := (runtime.items.map (·.bytes)).sum
  if runtime.items.length ≥ QUEUE_MAX_ITEMS_PER_THREAD then
    .error s!"queue limit reached for thread (max {QUEUE_MAX_ITEMS_PER_THREAD})"
  else if queuedBytes + entry.bytes > QUEUE_MAX_BYTES_PER_THREAD then
    .error s!"resource_limit:queue_thread_bytes:{QUEUE_MAX_BYTES_PER_THREAD}:{queuedBytes + entry.bytes}"
  else
    .ok { runtime with items := runtime.items ++ [entry], lastError := none }

def retractQueued (itemId : String) : BridgeThreadQueueRuntime :=
  { runtime with items := runtime.items.filter (·.id ≠ itemId) }

def beginTurnStart : BridgeThreadQueueRuntime :=
  { runtime with turnStartInFlight := true, lastError := none }

/--
What `send_message` and `drain_thread_queue` write when `turn_start` answered with a turn.
-/
def turnStarted (turnId : String) : BridgeThreadQueueRuntime :=
  { runtime with
    turnStartInFlight := false
    threadRunning := true
    activeTurnId := some turnId
    lastError := none }

def sendFailed (itemId error : String) : BridgeThreadQueueRuntime :=
  { runtime with
    turnStartInFlight := false
    lastError := some { message := error, operation := "dispatch", itemId := some itemId } }

/-! `steer_message` and `cancel_message` -/

def steerMessage (itemId : String) : Except String BridgeThreadQueueRuntime :=
  if runtime.turnStartInFlight || runtime.actionInFlightItemId.isSome then
    .error "queue is busy processing another action"
  else if runtime.editingItemId.isSome then
    .error "finish editing the queued message before steering"
  else if !runtime.threadRunning
      || runtime.activeTurnId.isNone
      || runtime.activeRunId.isNone
      || runtime.activePromptGeneration.isNone
      || !runtime.liveGenerationKnown then
    .error "no live ACP prompt generation available to steer"
  else
    match runtime.items.find? (·.id = itemId) with
    | none => .error "queued message not found"
    | some removedItem =>
      .ok { runtime with
        items := runtime.items.eraseP (·.id = itemId)
        pendingSteers := runtime.pendingSteers ++ [removedItem]
        lastError := none }

/--
Remove the entry from the queue or from the pending steers, together with its submission.
-/
def cancelMessage (itemId : String) : Except String (BridgeThreadQueueRuntime × String) :=
  if runtime.actionInFlightItemId = some itemId then
    .error "cannot cancel a queued message while it is being processed"
  else
    match runtime.items.find? (·.id = itemId) with
    | some removed =>
      .ok ({ runtime with
        items := runtime.items.eraseP (·.id = itemId)
        editingItemId := if runtime.editingItemId = some itemId then none else runtime.editingItemId
        lastError := none }, removed.submissionId)
    | none =>
      match runtime.pendingSteers.find? (·.id = itemId) with
      | some removed =>
        .ok ({ runtime with
          pendingSteers := runtime.pendingSteers.eraseP (·.id = itemId)
          lastError := none }, removed.submissionId)
      | none =>
        if runtime.steerDispatchInFlight.any (·.entry.id = itemId) then
          .error "cannot cancel a steer already dispatched to the agent"
        else
          .error "queued message not found"

def cancelPersistFailed (itemId error : String) : BridgeThreadQueueRuntime :=
  { runtime with
    lastError := some { message := error, operation := "persist", itemId := some itemId } }

/-! The edit operations -/

def startMessageEdit (itemId : String) : Except String BridgeThreadQueueRuntime :=
  if runtime.turnStartInFlight || runtime.actionInFlightItemId.isSome then
    .error "queue is busy processing another action"
  else if runtime.steerPrepareInFlight
      || runtime.steerDispatchInFlight.isSome
      || !runtime.pendingSteers.isEmpty then
    .error "finish steering queued messages before editing"
  else
    match runtime.editingItemId with
    | some editingItemId =>
      if editingItemId ≠ itemId then
        .error "another queued message is already being edited"
      else
        .ok runtime
    | none =>
      if runtime.items.head?.map (·.id) ≠ some itemId then
        .error "only the next queued message can be edited"
      else
        .ok { runtime with editingItemId := some itemId, lastError := none }

end BridgeThreadQueueRuntime

/--
Overwrite the text of the first text part of a queued `turnStart`.
-/
def replaceTurnStartText (turnStart : Json) (content : String) : Except String Json :=
  let isText (part : Json) : Bool := ((part.get "type").bind Json.asStr) = some "text"
  let rec replaceFirst : List Json → Option (List Json)
    | [] => none
    | part :: rest =>
      if isText part then
        match part with
        | .object fields => some (.object (Json.insertField "text" (.string content) fields) :: rest)
        | _ => none
      else
        (replaceFirst rest).map (part :: ·)
  match turnStart, (turnStart.get "input").bind Json.asArray with
  | .object fields, some input =>
    match replaceFirst input with
    | some input => .ok (.object (Json.insertField "input" (.array input) fields))
    | none => .error "queued turnStart text input is unavailable"
  | _, _ => .error "queued turnStart input is unavailable"

namespace BridgeThreadQueueRuntime

variable (runtime : BridgeThreadQueueRuntime)

def commitMessageEdit (itemId content : String) : Except String BridgeThreadQueueRuntime :=
  if runtime.editingItemId ≠ some itemId then
    .error "queued message is not being edited"
  else
    match runtime.items.find? (·.id = itemId) with
    | none => .error "queued message not found"
    | some item =>
      match replaceTurnStartText item.turnStart content with
      | .error error => .error error
      | .ok turnStart =>
        let edited := { item with content, turnStart }
        let otherQueuedBytes := ((runtime.items.eraseP (·.id = itemId)).map (·.bytes)).sum
        if edited.bytes > QUEUE_MAX_ITEM_BYTES then
          .error s!"queue item exceeds {QUEUE_MAX_ITEM_BYTES} bytes (actual {edited.bytes})"
        else if otherQueuedBytes + edited.bytes > QUEUE_MAX_BYTES_PER_THREAD then
          .error s!"resource_limit:queue_thread_bytes:{QUEUE_MAX_BYTES_PER_THREAD}:{otherQueuedBytes + edited.bytes}"
        else
          .ok { runtime with
            items := runtime.items.set (runtime.items.findIdx (·.id = itemId)) edited
            editingItemId := none
            lastError := none }

def cancelMessageEdit (itemId : String) : Except String BridgeThreadQueueRuntime :=
  if runtime.editingItemId ≠ some itemId then
    .error "queued message is not being edited"
  else
    .ok { runtime with editingItemId := none, lastError := none }

/-! `drain_pending_steers` -/

/--
The head of the loop: whether this task is to prepare a steer now.
-/
def shouldPrepare : Bool :=
  !(runtime.pendingSteers.isEmpty
    || runtime.steerPrepareInFlight
    || runtime.steerDispatchInFlight.isSome
    || runtime.turnStartInFlight
    || runtime.actionInFlightItemId.isSome
    || !runtime.activeToolCallIds.isEmpty
    || !runtime.liveGenerationKnown
    || !runtime.threadRunning)

def beginPrepare : BridgeThreadQueueRuntime :=
  { runtime with steerPrepareInFlight := true }

def prepareAnswered (result : Except String Nat) : BridgeThreadQueueRuntime :=
  match result with
  | .ok _ => { runtime with steerPrepareInFlight := false }
  | .error error =>
    { runtime with
      steerPrepareInFlight := false
      lastError := some
        { message := error, operation := "steer", itemId := runtime.pendingSteers.head?.map (·.id) } }

/--
The auto dispatch that is to follow a prepare answer, evaluated on the answered runtime.
-/
def prepareShouldAutoDispatch (result : Except String Nat) : Bool :=
  !result.isOk
    && runtime.pendingSteers.isEmpty
    && !runtime.threadRunning
    && !runtime.items.isEmpty

/--
After the epoch was verified: move the first pending steer in flight, unless something blocks it.
-/
def takeSteer : Option (BridgeThreadQueueRuntime × PendingSteerDispatch) :=
  if runtime.steerDispatchInFlight.isSome
      || runtime.turnStartInFlight
      || runtime.actionInFlightItemId.isSome
      || !runtime.activeToolCallIds.isEmpty
      || !runtime.liveGenerationKnown
      || !runtime.threadRunning
      || !runtime.pendingApprovalIds.isEmpty
      || !runtime.pendingUserInputIds.isEmpty then
    none
  else
    match runtime.activeTurnId, runtime.activeRunId, runtime.activePromptGeneration,
      runtime.pendingSteers with
    | some expectedTurnId, some expectedRunId, some promptGeneration, entry :: pendingSteers =>
      let dispatch :=
        { entry, expectedTurnId, expectedRunId, promptGeneration, crossedCompletionBoundary := false }
      some ({ runtime with pendingSteers, steerDispatchInFlight := some dispatch }, dispatch)
    | _, _, _, _ => none

/--
The answer of `steer`, `none` when the steer in flight is no longer the one of this task.
-/
def steerAnswered (dispatch : PendingSteerDispatch) (result : Except String Unit)
    : Option BridgeThreadQueueRuntime :=
  match runtime.steerDispatchInFlight with
  | none => none
  | some owned =>
    if owned.entry.id ≠ dispatch.entry.id then
      none
    else
      match result with
      | .ok _ => some { runtime with steerDispatchInFlight := none, lastError := none }
      | .error error =>
        let lastError := some
          { message := error, operation := "steer", itemId := some owned.entry.id }
        if owned.crossedCompletionBoundary then
          some { runtime with
            steerDispatchInFlight := none
            items := owned.entry :: runtime.items
            lastError }
        else
          some { runtime with
            steerDispatchInFlight := none
            pendingSteers := owned.entry :: runtime.pendingSteers
            lastError }

def failSteerDispatch (itemId error : String) : BridgeThreadQueueRuntime :=
  let lastError := some { message := error, operation := "steer", itemId := some itemId }
  match runtime.steerDispatchInFlight with
  | some owned =>
    { runtime with
      steerDispatchInFlight := none
      pendingSteers := owned.entry :: runtime.pendingSteers
      lastError }
  | none => { runtime with lastError }

/-! `handle_canonical_event` -/

def runStarted (runId sourceTurnId : String) (generation : Nat) : BridgeThreadQueueRuntime :=
  { runtime with
    threadRunning := true
    turnStartInFlight := false
    activeTurnId := some sourceTurnId
    activeRunId := some runId
    activePromptGeneration := some generation
    activeToolCallIds := []
    liveGenerationKnown := true
    lastError := none }

def acceptsRunEnd (sourceTurnId : String) (generation : Nat) : Bool :=
  runtime.activeTurnId = some sourceTurnId && runtime.activePromptGeneration = some generation

/--
The runtime after the run it names has ended: pending steers go back in front of the queue in their
order, a steer in flight is marked as having crossed the end of its run.
-/
def runEnded : BridgeThreadQueueRuntime :=
  { runtime with
    threadRunning := false
    activeTurnId := if runtime.turnStartInFlight then runtime.activeTurnId else none
    activeRunId := if runtime.turnStartInFlight then runtime.activeRunId else none
    activePromptGeneration :=
      if runtime.turnStartInFlight then runtime.activePromptGeneration else none
    activeToolCallIds := []
    liveGenerationKnown := false
    pendingApprovalIds := []
    pendingUserInputIds := []
    items := runtime.pendingSteers ++ runtime.items
    pendingSteers := []
    steerDispatchInFlight :=
      runtime.steerDispatchInFlight.map ({ · with crossedCompletionBoundary := true }) }

/-!
The three decisions of the run end, read from the runtime `runEnded` leaves.
-/

def shouldDispatch : Bool :=
  !runtime.turnStartInFlight
    && runtime.steerDispatchInFlight.isNone
    && runtime.editingItemId.isNone
    && !runtime.items.isEmpty

def shouldQueueCompletion : Bool :=
  runtime.turnStartInFlight

def shouldWaitForContinuation : Bool :=
  runtime.turnStartInFlight || runtime.steerDispatchInFlight.isSome

def shouldFinalizeForEdit : Bool :=
  runtime.editingItemId.isSome

def parkCompletion (eventId : Nat) : BridgeThreadQueueRuntime :=
  { runtime with pendingCompletionEventIds := runtime.pendingCompletionEventIds ++ [eventId] }

/--
The tool arm: the runtime and whether a steer drain is to be spawned.
-/
def toolUpdated (generation : Option Nat) (runId sourceTurnId : Option String) (toolCallId : String)
    (status : ToolCallStatus) : BridgeThreadQueueRuntime × Bool :=
  let shouldDrain (runtime : BridgeThreadQueueRuntime) : Bool :=
    runtime.activeToolCallIds.isEmpty
      && !runtime.pendingSteers.isEmpty
      && runtime.steerDispatchInFlight.isNone
  if generation ≠ runtime.activePromptGeneration
      ∨ runId ≠ runtime.activeRunId
      ∨ sourceTurnId ≠ runtime.activeTurnId then
    (runtime, false)
  else
    match status with
    | .pending | .inProgress =>
      let updated :=
        { runtime with activeToolCallIds := runtime.activeToolCallIds.insert toolCallId }
      (updated, shouldDrain updated)
    | .completed | .failed =>
      let updated :=
        { runtime with activeToolCallIds := runtime.activeToolCallIds.filter (· ≠ toolCallId) }
      (updated, shouldDrain updated)
    | .other _ => ({ runtime with liveGenerationKnown := false }, false)

def permissionRequested (requestId : String) : BridgeThreadQueueRuntime :=
  { runtime with pendingApprovalIds := runtime.pendingApprovalIds.insert requestId }

def permissionResolved (requestId : String) : BridgeThreadQueueRuntime :=
  { runtime with pendingApprovalIds := runtime.pendingApprovalIds.filter (· ≠ requestId) }

def elicitationRequested (requestId : String) : BridgeThreadQueueRuntime :=
  { runtime with pendingUserInputIds := runtime.pendingUserInputIds.insert requestId }

def elicitationResolved (requestId : String) : BridgeThreadQueueRuntime :=
  { runtime with pendingUserInputIds := runtime.pendingUserInputIds.filter (· ≠ requestId) }

/--
Whether a resolved interaction is to spawn a steer drain.
-/
def resolvedShouldDrain : Bool :=
  runtime.pendingApprovalIds.isEmpty
    && runtime.pendingUserInputIds.isEmpty
    && runtime.activeToolCallIds.isEmpty
    && !runtime.pendingSteers.isEmpty

/-! `drain_thread_queue` -/

/--
The blocker test at the head of a drain.
-/
def drainIsBlocked : Bool :=
  runtime.threadRunning
    || runtime.turnStartInFlight
    || runtime.actionInFlightItemId.isSome
    || runtime.editingItemId.isSome
    || runtime.steerPrepareInFlight
    || runtime.steerDispatchInFlight.isSome
    || !runtime.pendingSteers.isEmpty
    || !runtime.pendingApprovalIds.isEmpty
    || !runtime.pendingUserInputIds.isEmpty

def takeCompletions : BridgeThreadQueueRuntime :=
  { runtime with pendingCompletionEventIds := [] }

def clearRetryScheduled : BridgeThreadQueueRuntime :=
  { runtime with dispatchRetryScheduled := false }

def resetRetryAttempt : BridgeThreadQueueRuntime :=
  { runtime with dispatchRetryAttempt := 0 }

/--
The reservation of a popped entry could not be persisted: back to the front, with a retry.
-/
def drainReservationFailed (entry : BridgeQueuedMessageEntry) (error : String)
    : BridgeThreadQueueRuntime :=
  { runtime with
    turnStartInFlight := false
    items := entry :: runtime.items
    dispatchRetryAttempt := min (runtime.dispatchRetryAttempt + 1) (2 ^ 32 - 1)
    dispatchRetryScheduled := true
    lastError := some { message := error, operation := "persist", itemId := some entry.id } }

def drainFailed (entry : BridgeQueuedMessageEntry) (error : String) : BridgeThreadQueueRuntime :=
  { runtime with
    turnStartInFlight := false
    items := if dispatchFailureIsIndeterminate error then runtime.items else entry :: runtime.items
    lastError := some { message := error, operation := "dispatch", itemId := some entry.id } }

end BridgeThreadQueueRuntime

end Queue
