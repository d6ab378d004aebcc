/-!
This module contains `SessionRegistry` as one session id sees it: the entry of the id, the notifications
that wait for it, one sequential caller of `route`, and any number of registrations and evictions. A
step is one section between two points at which the registry lock is released.
-/

namespace Session

def PENDING_NOTIFICATION_CAPACITY : Nat := 4096

/--
The entry of the id. A session is named by the number of its registration, a notification by the number
of the call of `route` that brought it.
-/
inductive RegistryEntry where
  | registering (session : Nat) (journal : List Nat)
  | live (session : Nat)
  | evicting (session : Nat)
  deriving DecidableEq

def RegistryEntry.session : RegistryEntry → Nat
  | .registering session _ => session
  | .live session => session
  | .evicting session => session

/--
What the registry reads of a session, and whether its notifications are being drained.
-/
structure RegisteredSession where
  leases : Nat := 0
  receipts : List Nat := []
  draining : Bool := false

/--
A notification that was put into the receipts of a session, and whether the session was the one
registered under the id at that time.
-/
structure Enqueued where
  notification : Nat
  registered : Bool
  deriving DecidableEq

/--
The caller of `route`.
-/
inductive RouteCall where
  | idle
  /-- has seen the entry `Evicting`, and captures the notification for that session -/
  | captured (session notification : Nat)
  /-- goes on to enqueue the notification, with a lease on the session or without -/
  | delivering (session notification : Nat) (leased : Bool)
  /-- has enqueued it and goes on to answer -/
  | delivered (session notification : Nat) (leased : Bool)
  deriving DecidableEq

/--
The calls that register or evict, by what they do next.
-/
inductive RegistryTask where
  /-- `register`: takes the next notification of the journal, or goes live -/
  | registering (session : Nat)
  /-- `register`: enqueues the notification it has taken -/
  | journaling (session notification : Nat)
  /-- `reserve`, or `register` for another id: checks whether the session can go -/
  | evicting (session : Nat) (reserving : Bool)
  /-- `restore_eviction`: makes the entry live again -/
  | restoring (session : Nat)
  /-- `restore_eviction`: enqueues what was pending -/
  | restored (session : Nat) (journal : List Nat)
  | done
  deriving DecidableEq

structure RegistryState where
  entry : Option RegistryEntry := none
  pendingNotifications : List Nat := []
  /-- what the other ids add to `pending_notification_count` -/
  elsewhere : Nat := 0
  sessions : List RegisteredSession := []
  route : RouteCall := .idle
  tasks : List RegistryTask := []
  nextNotification : Nat := 0
  /-- the notifications for which `route` answered `Ok` -/
  answered : List Nat := []
  log : List Enqueued := []

inductive Routing where
  | elsewhere (count : Nat)
  | route
  | routeSection
  | register
  | evict (reserving : Bool)
  /-- `operationFree` is the answer of `try_eviction_guard`, `evictable` the part of the answer of
  `is_evictable` that is not about notifications -/
  | taskSection (index : Nat) (operationFree evictable : Bool)
  | drain (session : Nat)

namespace RegistryState

variable (s : RegistryState)

def journal : List Nat :=
  match s.entry with
  | some (.registering _ journal) => journal
  | _ => []

def pendingNotificationCount : Nat :=
  s.pendingNotifications.length + s.journal.length + s.elsewhere

def modifySession (session : Nat) (update : RegisteredSession → RegisteredSession)
    : RegistryState :=
  { s with sessions := s.sessions.modify session update }

def unleased (session : Nat) : Bool :=
  s.sessions[session]?.any (·.leases == 0)

/--
`route_received_notifications` on the session, up to the point where it drains.
-/
def enqueue (session : Nat) (notifications : List Nat) : RegistryState :=
  let registered := s.entry.any (·.session == session)
  { s.modifySession session fun state =>
      { state with receipts := state.receipts ++ notifications, draining := true } with
    log := s.log ++ notifications.map fun notification => { notification, registered } }

/-! `route` -/

/--
Park the notification until the id is registered or restored, unless the journals are full.
-/
def park (notification : Nat) : RegistryState :=
  if s.pendingNotificationCount ≥ PENDING_NOTIFICATION_CAPACITY then
    { s with route := .idle }
  else
    { s with
      route := .idle
      pendingNotifications := s.pendingNotifications ++ [notification]
      answered := s.answered ++ [notification] }

def routeFirst : RegistryState :=
  let notification := s.nextNotification
  let s := { s with nextNotification := s.nextNotification + 1 }
  match s.entry with
  | some (.live session) =>
    { s.modifySession session fun state => { state with leases := state.leases + 1 } with
      route := .delivering session notification true }
  | some (.evicting session) => { s with route := .captured session notification }
  | some (.registering session journal) =>
    if s.pendingNotificationCount ≥ PENDING_NOTIFICATION_CAPACITY then
      s
    else
      { s with
        entry := some (.registering session (journal ++ [notification]))
        answered := s.answered ++ [notification] }
  | none => s.park notification

def routeNext : Option RegistryState :=
  match s.route with
  | .idle => none
  | .captured session notification =>
    if s.entry = some (.live session) then
      some { s with route := .delivering session notification false }
    else
      some (s.park notification)
  | .delivering session notification leased =>
    some { s.enqueue session [notification] with route := .delivered session notification leased }
  | .delivered session notification leased =>
    let s := { s with route := .idle, answered := s.answered ++ [notification] }
    some <|
      if leased then
        s.modifySession session fun state => { state with leases := state.leases - 1 }
      else
        s

/-! `register`, `reserve` and `restore_eviction` -/

def setTask (index : Nat) (task : RegistryTask) : RegistryState :=
  { s with tasks := s.tasks.set index task }

def endTask (index : Nat) : RegistryState :=
  s.setTask index .done

/--
The first section of a registration of the id. A registration that finds another one waits for it.
-/
def register : RegistryState :=
  match s.entry with
  | some (.live _) | some (.registering ..) => s
  | some (.evicting session) => { s with tasks := s.tasks ++ [.restoring session] }
  | none =>
    let session := s.sessions.length
    { s with
      entry := some (.registering session s.pendingNotifications)
      pendingNotifications := []
      sessions := s.sessions ++ [{}]
      tasks := s.tasks ++ [.registering session] }

/--
The section of `reserve`, or of a registration of another id, that picks this session to be evicted.
-/
def evict (reserving : Bool) : Option RegistryState :=
  match s.entry with
  | some (.live session) =>
    if s.unleased session then
      some { s with
        entry := some (.evicting session)
        tasks := s.tasks ++ [.evicting session reserving] }
    else
      none
  | _ => none

def evictable (session : Nat) (others : Bool) : Bool :=
  others && s.sessions[session]?.any fun state => !state.draining && state.receipts.isEmpty

/--
The test of `reserve` and `register` on the session that is to go.
-/
def canEvict (session : Nat) (others : Bool) : Bool :=
  s.entry = some (.evicting session) && s.unleased session && s.pendingNotifications.isEmpty
    && s.evictable session others

def checkEviction (index session : Nat) (reserving others : Bool) : RegistryState :=
  if s.canEvict session others then
    { s.endTask index with entry := none }
  else if reserving || s.entry = some (.evicting session) then
    s.setTask index (.restoring session)
  else
    s.endTask index

def restore (index session : Nat) : RegistryState :=
  if s.entry = some (.evicting session) then
    { s.setTask index (.restored session s.pendingNotifications) with
      entry := some (.live session)
      pendingNotifications := [] }
  else
    s.endTask index

def takeJournal (index session : Nat) : RegistryState :=
  match s.entry with
  | some (.registering registered (notification :: journal)) =>
    { s.setTask index (.journaling session notification) with
      entry := some (.registering registered journal) }
  | some (.registering _ []) => { s.endTask index with entry := some (.live session) }
  | _ => s.endTask index

def taskNext (index : Nat) (operationFree evictable : Bool) : Option RegistryState :=
  match s.tasks[index]? with
  | none | some .done => none
  | some (.registering session) => some (s.takeJournal index session)
  | some (.journaling session notification) =>
    some ((s.enqueue session [notification]).setTask index (.registering session))
  | some (.evicting session reserving) =>
    if operationFree then
      some (s.checkEviction index session reserving evictable)
    else
      some (s.setTask index (.restoring session))
  | some (.restoring session) => some (s.restore index session)
  | some (.restored session journal) => some ((s.enqueue session journal).endTask index)

/--
One round of `drain_notifications`.
-/
def drain (session : Nat) : RegistryState :=
  s.modifySession session fun state =>
    match state.receipts with
    | [] => { state with draining := false }
    | _ :: receipts => { state with receipts }

def step (s : RegistryState) : Routing → Option RegistryState
  | .elsewhere count => some { s with elsewhere := count }
  | .route => if s.route = .idle then some s.routeFirst else none
  | .routeSection => s.routeNext
  | .register => some s.register
  | .evict reserving => s.evict reserving
  | .taskSection index operationFree evictable => s.taskNext index operationFree evictable
  | .drain session => some (s.drain session)

end RegistryState

end Session
