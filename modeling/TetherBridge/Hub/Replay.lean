import TetherBridge.Data.Table
import TetherBridge.Snapshot.Types

/-!
This module contains the notifications of `ClientHub`: the buffer of `replay.rs` they are kept in, the
broadcasts that put them into the queues of the clients, and readers that page through the buffer.
-/

namespace Hub

open Snapshot

def BRIDGE_PROTOCOL_VERSION : Nat := 2
def NOTIFICATION_MAX_BYTES : Nat := 256 * 1024
def NOTIFICATION_REPLAY_MAX_LIMIT : Nat := 1000
def REPLAY_RESPONSE_MAX_BYTES : Nat := 4 * 1024 * 1024

/-! Notifications -/

structure BridgeNotification where
  method : String
  streamId : String
  eventId : Nat
  params : Json

namespace BridgeNotification

variable (notification : BridgeNotification)

def toJson : Json :=
  .object
    [("method", .string notification.method),
      ("protocolVersion", natJson BRIDGE_PROTOCOL_VERSION),
      ("streamId", .string notification.streamId),
      ("eventId", natJson notification.eventId),
      ("params", notification.params)]

def bytes : Nat :=
  notification.toJson.bytes

/--
What is sent in place of a notification that is too long.
-/
def truncated : BridgeNotification :=
  { notification with
    method := "bridge/notification.truncated"
    params := .object
      [("originalMethod", .string notification.method),
        ("truncated", .bool true),
        ("originalBytes", natJson notification.bytes),
        ("maxBytes", natJson NOTIFICATION_MAX_BYTES)] }

def bounded : BridgeNotification :=
  if notification.bytes > NOTIFICATION_MAX_BYTES then notification.truncated else notification

end BridgeNotification

/-! The buffer -/

structure ReplayableNotification where
  eventId : Nat
  payload : BridgeNotification
  bytes : Nat

structure NotificationReplay where
  capacity : Nat
  maxBytes : Nat
  entries : List ReplayableNotification := []
  droppedOversize : Nat := 0
  evicted : Nat := 0

namespace NotificationReplay

variable (replay : NotificationReplay)

def totalBytes (entries : List ReplayableNotification) : Nat :=
  entries.weigh (·.bytes)

/--
Remove entries from the front until both limits are kept. An empty buffer has nothing to remove, and the
expectation that it never has to fails.
-/
def evict (capacity maxBytes : Nat)
    : List ReplayableNotification → Nat → Option (List ReplayableNotification)
  | [], totalBytes => if totalBytes > maxBytes then none else some []
  | removed :: entries, totalBytes =>
    if (removed :: entries).length > capacity ∨ totalBytes > maxBytes then
      evict capacity maxBytes entries (totalBytes - removed.bytes)
    else
      some (removed :: entries)

def push (eventId : Nat) (payload : BridgeNotification) (bytes : Nat) : Option NotificationReplay :=
  if replay.capacity = 0 ∨ bytes > replay.maxBytes then
    some { replay with droppedOversize := replay.droppedOversize + 1 }
  else
    let entry : ReplayableNotification := { eventId, payload, bytes }
    let entries := replay.entries ++ [entry]
    (evict replay.capacity replay.maxBytes entries (totalBytes entries)).map fun kept =>
      { replay with entries := kept, evicted := replay.evicted + (entries.length - kept.length) }

/--
The loop of `since`: what is still to be answered, and whether there is more.
-/
def page (after limit maxBytes : Nat) : List ReplayableNotification → Nat → Nat
    → List BridgeNotification × Bool × Nat
  | [], _, responseBytes => ([], false, responseBytes)
  | entry :: entries, count, responseBytes =>
    if entry.eventId ≤ after then
      page after limit maxBytes entries count responseBytes
    else if count ≥ limit ∨ responseBytes + entry.bytes > maxBytes then
      ([], true, responseBytes)
    else
      let (events, hasMore, returnedBytes) :=
        page after limit maxBytes entries (count + 1) (responseBytes + entry.bytes)
      (entry.payload :: events, hasMore, returnedBytes)

def since (afterEventId : Option Nat) (limit maxBytes : Nat)
    : List BridgeNotification × Bool × Nat :=
  page (afterEventId.getD 0) limit maxBytes replay.entries 0 0

def earliestEventId : Option Nat :=
  replay.entries.head?.map (·.eventId)

end NotificationReplay

/-! The hub -/

/--
A broadcast that has published its notification.
-/
inductive Broadcast where
  | published (message : BridgeNotification)
  /-- holds the lock of the clients and has still to send to some of them -/
  | sending (message : BridgeNotification) (clients stale : List Nat)
  | done

/--
The answer of `try_send`.
-/
inductive TrySend where
  | ok
  | full
  | closed

/--
A notification that was published, and the broadcasts that were not done at that time.
-/
structure Publication where
  message : BridgeNotification
  overlapping : List Nat

/--
A client that asks for one page after the other, from an event id on.
-/
structure Pager where
  start : Nat
  limit : Nat
  cursor : Nat
  received : List BridgeNotification := []
  pages : Nat := 0
  /-- the `latestEventId` of the page that had no more -/
  finished : Option Nat := none
  /-- a page began after what was asked for -/
  lost : Bool := false

structure ClientHub where
  streamId : String
  nextClientId : Nat := 1
  nextEventId : Nat := 1
  latestPublishedEventId : Nat := 0
  notificationReplay : NotificationReplay
  /-- the event ids that were put into the queue of each client -/
  clients : Table Nat (List Nat) := ∅
  clientQueueDrops : Nat := 0
  broadcasts : List Broadcast := []
  publications : List Publication := []
  pagers : List Pager := []

structure HubReplaySnapshot where
  events : List BridgeNotification
  hasMore : Bool
  returnedBytes : Nat
  earliestEventId : Option Nat
  latestEventId : Nat

inductive HubLabel where
  | addClient
  | removeClient (client : Nat)
  /-- `broadcast_external_notification` up to the point where it releases the publish lock -/
  | publish (method : String) (params : Json)
  /-- `broadcast_message`: takes the lock of the clients -/
  | beginSending (index : Nat)
  | send (index client : Nat) (answer : TrySend)
  /-- removes the clients whose queues were closed -/
  | finish (index : Nat)
  | startPaging (cursor limit : Nat)
  | page (index : Nat)

def Broadcast.isSending : Broadcast → Bool
  | .sending .. => true
  | _ => false

/--
The notification that a broadcast may still have to send.
-/
def Broadcast.unsent : Broadcast → Option Nat
  | .published message => some message.eventId
  | .sending message _ _ => some message.eventId
  | .done => none

namespace ClientHub

variable (s : ClientHub)

def new (streamId : String) (capacity maxBytes : Nat) : ClientHub :=
  { streamId, notificationReplay := { capacity, maxBytes } }

/--
`fetch_add(1)` on a `u64`.
-/
def wrappingNext (number : Nat) : Nat :=
  if number = U64_MAX then 0 else number + 1

/--
The clients are locked while a broadcast sends to them.
-/
def clientsLocked : Bool :=
  s.broadcasts.any (·.isSending)

def addClient : Option ClientHub :=
  if s.clientsLocked then
    none
  else
    some { s with
      nextClientId := wrappingNext s.nextClientId
      clients := s.clients.insert s.nextClientId [] }

def removeClient (client : Nat) : Option ClientHub :=
  if s.clientsLocked then none else some { s with clients := s.clients.erase client }

def publish (method : String) (params : Json) : Option ClientHub :=
  let eventId := s.nextEventId
  let message :=
    BridgeNotification.bounded { method, streamId := s.streamId, eventId, params }
  (s.notificationReplay.push eventId message message.bytes).map fun replay =>
    { s with
      nextEventId := wrappingNext s.nextEventId
      notificationReplay := replay
      latestPublishedEventId := eventId
      broadcasts := s.broadcasts ++ [.published message]
      publications := s.publications
        ++ [{ message, overlapping := s.broadcasts.filterMap (·.unsent) }] }

def setBroadcast (index : Nat) (broadcast : Broadcast) : ClientHub :=
  { s with broadcasts := s.broadcasts.set index broadcast }

def beginSending (index : Nat) : Option ClientHub :=
  match s.broadcasts[index]? with
  | some (.published message) => some (s.setBroadcast index (.sending message s.clients.keys []))
  | _ => none

/--
What is sent to a client goes to the end of its queue; a full queue drops it.
-/
def trySend (client : Nat) (eventId : Nat) : TrySend → ClientHub
  | .ok => { s with clients := s.clients.insert client ((s.clients.lookup client).getD [] ++ [eventId]) }
  | .full => { s with clientQueueDrops := s.clientQueueDrops + 1 }
  | .closed => s

def send (index client : Nat) (answer : TrySend) : Option ClientHub :=
  match s.broadcasts[index]? with
  | some (.sending message clients stale) =>
    if client ∈ clients then
      let stale := match answer with
        | .closed => client :: stale
        | _ => stale
      some ((s.trySend client message.eventId answer).setBroadcast index
        (.sending message (clients.erase client) stale))
    else
      none
  | _ => none

def finish (index : Nat) : Option ClientHub :=
  match s.broadcasts[index]? with
  | some (.sending _ [] stale) =>
    some { s.setBroadcast index .done with
      clients := stale.foldl (fun clients client => clients.erase client) s.clients }
  | _ => none

def latestEventId : Nat :=
  s.latestPublishedEventId

def replaySnapshot (afterEventId : Option Nat) (limit : Nat) : HubReplaySnapshot :=
  let (events, hasMore, returnedBytes) :=
    s.notificationReplay.since afterEventId limit REPLAY_RESPONSE_MAX_BYTES
  { events, hasMore, returnedBytes,
    earliestEventId := s.notificationReplay.earliestEventId
    latestEventId := s.latestEventId }

/--
The answer to `bridge/events/replay`.
-/
def replayEvents (afterEventId limit : Option Nat) : HubReplaySnapshot :=
  s.replaySnapshot afterEventId (max 1 (min (limit.getD 200) NOTIFICATION_REPLAY_MAX_LIMIT))

/--
A client takes a page, unless it begins after what it has asked for.
-/
def Pager.take (pager : Pager) (answer : HubReplaySnapshot) : Pager :=
  if answer.earliestEventId.any (· > pager.cursor + 1) then
    { pager with lost := true }
  else
    { pager with
      received := pager.received ++ answer.events
      cursor := (answer.events.getLast?.map (·.eventId)).getD pager.cursor
      pages := pager.pages + 1
      finished := if answer.hasMore then none else some answer.latestEventId }

def page (index : Nat) : Option ClientHub :=
  match s.pagers[index]? with
  | some pager =>
    if pager.finished.isNone && !pager.lost then
      let answer := s.replayEvents (some pager.cursor) (some pager.limit)
      some { s with pagers := s.pagers.set index (Pager.take pager answer) }
    else
      none
  | none => none

def step (s : ClientHub) : HubLabel → Option ClientHub
  | .addClient => s.addClient
  | .removeClient client => s.removeClient client
  | .publish method params => s.publish method params
  | .beginSending index => s.beginSending index
  | .send index client answer => s.send index client answer
  | .finish index => s.finish index
  | .startPaging cursor limit =>
    some { s with pagers := s.pagers ++ [{ start := cursor, limit, cursor }] }
  | .page index => s.page index

end ClientHub

end Hub
