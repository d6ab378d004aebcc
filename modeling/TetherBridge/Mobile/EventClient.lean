import TetherBridge.Data.Recent

/-!
This module contains the delivery of events by the websocket client of the mobile app: live notifications,
replays of the ones that were missed, and recoveries, during which events wait until a snapshot has been
acknowledged.
-/

namespace Mobile

def PROTOCOL_VERSION : Nat := 2
def MAX_RECOVERY_BUFFERED_EVENTS : Nat := 2048
def REPLAY_PAGE_LIMIT : Nat := 200

/--
A notification with what `readIntegerLike` and `readString` read of it. Its params are passed on as they
are.
-/
structure RpcNotification where
  method : String
  protocolVersion : Option Nat := none
  streamId : Option String := none
  eventId : Option Nat := none
  deriving DecidableEq

def readEventId (record : RpcNotification) : Option Nat :=
  record.eventId.filter fun eventId => 1 ≤ eventId

inductive BridgeSnapshotRequiredReason where
  | streamChanged
  | replayTruncated
  | replayInconsistent
  | recoveryOverflow
  deriving DecidableEq

structure BridgeSnapshotRequiredParams where
  reason : BridgeSnapshotRequiredReason
  previousStreamId : Option String
  lastDeliveredEventId : Nat
  resumeAfterEventId : Nat
  earliestEventId : Option Nat
  latestEventId : Option Nat
  deriving DecidableEq

/--
What is emitted to the listeners.
-/
inductive Emission where
  /-- and the recovery watermark at that time -/
  | numbered (eventId : Nat) (event : RpcNotification) (recoveryWatermark : Option Nat)
  | unnumbered (event : RpcNotification)
  | snapshotRequired (params : BridgeSnapshotRequiredParams)
  deriving DecidableEq

structure ReplayEventsResponse where
  protocolVersion : Option Nat
  streamId : Option String
  events : List RpcNotification
  hasMore : Bool
  earliestEventId : Option Nat
  latestEventId : Option Nat

inductive ReplayPhase where
  /-- the request of the loop was not answered yet -/
  | requesting
  | ended (completed : Bool)
  | settled
  deriving DecidableEq

/--
A call of `replayMissedEvents`.
-/
structure ReplayLoop where
  generation : Nat
  cursor : Nat
  targetEventId : Option Nat := none
  phase : ReplayPhase := .requesting
  deriving DecidableEq

structure EventClient where
  /-- there is a socket, and it is open -/
  connected : Bool := false
  protocolError : Bool := false
  lastSeenEventId : Nat := 0
  replaySupported : Bool := true
  replayInFlight : Option Nat := none
  replayGeneration : Nat := 0
  recoveryWatermark : Option Nat := none
  awaitingFreshRecoveryBaseline : Bool := false
  streamId : Option String := none
  pendingEvents : List (Nat × RpcNotification) := []
  replays : List ReplayLoop := []
  emitted : List Emission := []

inductive StreamIdentityResult where
  | missing
  | initial
  | same
  | changed
  | unsupported
  deriving DecidableEq

inductive EventClientLabel where
  | opened
  | closed
  | disconnect
  | live (record : RpcNotification)
  | acknowledgeSnapshotRecovery (resumeAfterEventId : Nat)
  | resetRecoveryEpoch
  | answer (loop : Nat) (response : ReplayEventsResponse)
  /-- the method of the request is unknown to the bridge -/
  | answerUnsupported (loop : Nat)
  | fail (loop : Nat)
  /-- what happens once the promise of the loop has settled -/
  | settle (loop : Nat)

namespace EventClient

variable (s : EventClient)

def emitEvent (event : Emission) : EventClient :=
  { s with emitted := s.emitted ++ [event] }

def emitNumberedEvent (eventId : Nat) (event : RpcNotification) : EventClient :=
  { s with lastSeenEventId := eventId }.emitEvent (.numbered eventId event s.recoveryWatermark)

/--
Emit the pending events that follow, as many as there are.
-/
def drain : Nat → EventClient → EventClient
  | 0, s => s
  | count + 1, s =>
    let nextEventId := s.lastSeenEventId + 1
    match s.pendingEvents.lookup nextEventId with
    | some event =>
      drain count ({ s with pendingEvents := s.pendingEvents.forget nextEventId }.emitNumberedEvent
        nextEventId event)
    | none => s

def drainPendingEvents : EventClient :=
  if s.recoveryWatermark.isSome then s else drain s.pendingEvents.length s

def hasPending (eventId : Nat) : Bool :=
  s.pendingEvents.any fun entry => entry.1 = eventId

def hasPendingGap : Bool :=
  !s.pendingEvents.isEmpty && !s.hasPending (s.lastSeenEventId + 1)

def scheduleReplay : EventClient :=
  if !s.replaySupported || s.replayInFlight.isSome || !s.connected then
    s
  else
    { s with
      replays := s.replays ++ [{ generation := s.replayGeneration, cursor := s.lastSeenEventId }]
      replayInFlight := some s.replays.length }

def resetDeliveryEpoch (reason : BridgeSnapshotRequiredReason)
    (earliestEventId latestEventId : Option Nat) (previousStreamId : Option String) : EventClient :=
  let resumeAfterEventId := latestEventId.getD 0
  { s with
    replayGeneration := s.replayGeneration + 1
    pendingEvents :=
      if reason = BridgeSnapshotRequiredReason.streamChanged then []
      else s.pendingEvents.filter fun entry => resumeAfterEventId < entry.1
    lastSeenEventId := resumeAfterEventId
    recoveryWatermark := some resumeAfterEventId
    replayInFlight := none }.emitEvent
    (.snapshotRequired
      { reason, previousStreamId, lastDeliveredEventId := s.lastSeenEventId, resumeAfterEventId,
        earliestEventId, latestEventId })

def resetRecoveryEpoch : EventClient :=
  { s with
    connected := false
    replayGeneration := s.replayGeneration + 1
    replayInFlight := none
    pendingEvents := []
    recoveryWatermark := some 0
    awaitingFreshRecoveryBaseline := true
    lastSeenEventId := 0
    streamId := none }.emitEvent
    (.snapshotRequired
      { reason := .recoveryOverflow, previousStreamId := s.streamId,
        lastDeliveredEventId := s.lastSeenEventId, resumeAfterEventId := 0, earliestEventId := none,
        latestEventId := none })

/--
The result of `applyStreamIdentity`.
-/
def streamIdentity (protocolVersion : Option Nat) (streamId : Option String) : StreamIdentityResult :=
  match protocolVersion, streamId with
  | some version, some streamId =>
    if streamId = "" then .missing
    else if version ≠ PROTOCOL_VERSION then .unsupported
    else
      match s.streamId with
      | none => .initial
      | some known => if known = streamId then .same else .changed
  | _, _ => .missing

def applyStreamIdentity (protocolVersion : Option Nat) (streamId : Option String) : EventClient :=
  match s.streamIdentity protocolVersion streamId with
  | .missing => s
  | .unsupported => { s with protocolError := true, connected := false }
  | .initial => { s with protocolError := false, streamId }
  | .same => { s with protocolError := false }
  | .changed =>
    { s with protocolError := false, streamId }.resetDeliveryEpoch .streamChanged none none s.streamId

def hasRecoveryBufferOverflow : Bool :=
  s.recoveryWatermark.isSome && s.pendingEvents.length > MAX_RECOVERY_BUFFERED_EVENTS

def drainOrReplayPendingEvents (replayed : Bool) : EventClient :=
  if replayed then
    s.drainPendingEvents
  else if s.replayInFlight.isSome then
    s
  else
    let s := s.drainPendingEvents
    if s.hasPendingGap then s.scheduleReplay else s

/--
And whether the delivery has come to its end.
-/
def deliverNumberedNotification (event : RpcNotification) (eventId : Nat) (replayed : Bool)
    : EventClient × Bool :=
  if eventId ≤ s.lastSeenEventId || s.hasPending eventId then
    (s, false)
  else if s.lastSeenEventId = 0 && !s.awaitingFreshRecoveryBaseline then
    (s.emitNumberedEvent eventId event, true)
  else
    let s := { s with pendingEvents := s.pendingEvents ++ [(eventId, event)] }
    if s.hasRecoveryBufferOverflow then
      (s.resetRecoveryEpoch, false)
    else
      (s.drainOrReplayPendingEvents replayed, true)

def deliverNotification (event : RpcNotification) (replayed : Bool) : EventClient × Bool :=
  match readEventId event with
  | none => (s.emitEvent (.unnumbered event), true)
  | some eventId => s.deliverNumberedNotification event eventId replayed

def scheduleConnectionReplay (method : String) (identityResult : StreamIdentityResult) : EventClient :=
  if method = "bridge/connection/state" && (identityResult = .same || identityResult = .missing)
      && (0 < s.lastSeenEventId || s.recoveryWatermark.isSome) then
    s.scheduleReplay
  else
    s

def handleNotificationRecord (record : RpcNotification) (replayed : Bool) : EventClient :=
  if record.method = "" then
    s
  else
    let identityResult := s.streamIdentity record.protocolVersion record.streamId
    let s := s.applyStreamIdentity record.protocolVersion record.streamId
    if identityResult = .unsupported then
      s
    else
      let (s, delivered) := s.deliverNotification record replayed
      if delivered then s.scheduleConnectionReplay record.method identityResult else s

/-! Replays -/

def checkReplayPageIntegrity (cursor : Nat) (earliestEventId latestEventId : Option Nat)
    : Option BridgeSnapshotRequiredReason :=
  if latestEventId.any (· < cursor) then some .replayInconsistent
  else if earliestEventId.any (· > cursor + 1) then some .replayTruncated
  else if earliestEventId.isNone && latestEventId.any (· > cursor) then some .replayTruncated
  else none

def applyReplayEvents (events : List RpcNotification) : EventClient :=
  events.foldl (fun s record => s.handleNotificationRecord record true) s

def resolveReplayTargetEventId (targetEventId latestEventId : Option Nat) (pageEventIds : List Nat)
    : Option Nat :=
  match targetEventId with
  | some target => some target
  | none =>
    match latestEventId with
    | some latest => some latest
    | none => pageEventIds.max?

def setReplay (index : Nat) (loop : ReplayLoop) : EventClient :=
  { s with replays := s.replays.set index loop }

def endReplay (index : Nat) (loop : ReplayLoop) (completed : Bool) : EventClient :=
  s.setReplay index { loop with phase := .ended completed }

/--
What follows the integrity check of a page.
-/
def takePage (index : Nat) (loop : ReplayLoop) (response : ReplayEventsResponse) : EventClient :=
  let s := s.applyReplayEvents response.events
  let cursor := s.lastSeenEventId
  let targetEventId := resolveReplayTargetEventId loop.targetEventId response.latestEventId
    (response.events.filterMap readEventId)
  if targetEventId.all (· ≤ cursor) then
    s.endReplay index loop true
  else if !response.hasMore || cursor ≤ loop.cursor then
    (s.resetDeliveryEpoch .replayInconsistent response.earliestEventId response.latestEventId
      s.streamId).endReplay index loop true
  else if loop.generation = s.replayGeneration then
    s.setReplay index { loop with cursor, targetEventId }
  else
    s.endReplay index loop true

def answerLoop (index : Nat) (loop : ReplayLoop) (response : ReplayEventsResponse) : EventClient :=
  if loop.generation ≠ s.replayGeneration then
    s.endReplay index loop true
  else
    let identityResult := s.streamIdentity response.protocolVersion response.streamId
    let s := s.applyStreamIdentity response.protocolVersion response.streamId
    if identityResult = .unsupported ∨ identityResult = .changed then
      s.endReplay index loop true
    else
      match checkReplayPageIntegrity loop.cursor response.earliestEventId response.latestEventId with
      | some failure =>
        (s.resetDeliveryEpoch failure response.earliestEventId response.latestEventId
          s.streamId).endReplay index loop true
      | none => s.takePage index loop response

def settleLoop (index : Nat) (loop : ReplayLoop) (completed : Bool) : EventClient :=
  let settled := s.setReplay index { loop with phase := .settled }
  if s.replayInFlight ≠ some index then
    settled
  else
    let s := { settled with replayInFlight := none }
    if !completed || loop.generation ≠ s.replayGeneration then
      s
    else
      let s := s.drainPendingEvents
      if s.hasPendingGap then s.scheduleReplay else s

/--
The loop whose request is open.
-/
def requesting (index : Nat) : Option ReplayLoop :=
  s.replays[index]?.filter fun loop => loop.phase = .requesting

def acknowledgeSnapshotRecovery (resumeAfterEventId : Nat) : EventClient × Bool :=
  if s.recoveryWatermark ≠ some resumeAfterEventId then
    (s, false)
  else
    let s := { s with recoveryWatermark := none, awaitingFreshRecoveryBaseline := false }
    let s := s.drainPendingEvents
    (if s.hasPendingGap then s.scheduleReplay else s, true)

def disconnect : EventClient :=
  { s with connected := false, replayGeneration := s.replayGeneration + 1, replayInFlight := none }

def step (s : EventClient) : EventClientLabel → Option EventClient
  | .opened => if s.protocolError then none else some { s with connected := true }
  | .closed => some { s with connected := false }
  | .disconnect => some s.disconnect
  | .live record => if s.connected then some (s.handleNotificationRecord record false) else none
  | .acknowledgeSnapshotRecovery resumeAfterEventId =>
    some (s.acknowledgeSnapshotRecovery resumeAfterEventId).1
  | .resetRecoveryEpoch => some s.resetRecoveryEpoch
  | .answer index response => (s.requesting index).map fun loop => s.answerLoop index loop response
  | .answerUnsupported index =>
    (s.requesting index).map fun loop => { s with replaySupported := false }.endReplay index loop true
  | .fail index => (s.requesting index).map fun loop => s.endReplay index loop false
  | .settle index =>
    match s.replays[index]? with
    | some loop =>
      match loop.phase with
      | .ended completed => some (s.settleLoop index loop completed)
      | _ => none
    | none => none

end EventClient

end Mobile
