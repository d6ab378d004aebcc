import TetherBridge.Data.Table
import TetherBridge.Session.Registry
import TetherBridge.Snapshot.Types

/-!
This module contains `SessionRegistry` over all of its session ids: the sessions and the reservations that
share its capacity, the notifications that are counted, and the calls that are in progress. A step is one
section of a call between two points at which the registry lock is released.
-/

namespace Session

open Snapshot

/--
An entry. A session is named by the number of its registration, as is the channel that says that it is
ready. The lease counter of a session is named by the order in which sessions went live.
-/
inductive SessionEntry where
  | registering (session : Nat) (journal : List Nat)
  | live (session lastAccess leases : Nat)
  | evicting (session lastAccess leases : Nat)
  deriving DecidableEq

def SessionEntry.journal : SessionEntry → List Nat
  | .registering _ journal => journal
  | _ => []

/--
What asks for room: `reserve`, or `register_with_freshness_reserved` for an id.
-/
inductive Admission where
  | reserve
  | register (id : String) (reservation : Option Nat)
  deriving DecidableEq

/--
The calls by what they do next, or by what they ended with.
-/
inductive RegistryCall where
  /-- checks the capacity, having tried to evict some sessions before -/
  | admitting (admission : Admission) (rejected : List String)
  /-- checks whether the session it has picked can go -/
  | evicting (admission : Admission) (rejected : List String) (id : String)
      (session lastAccess leases : Nat)
  /-- `restore_eviction`, and what comes after it -/
  | restoring (id : String) (session lastAccess leases : Nat)
      (next : Option (Admission × List String))
  /-- takes the next notification of the journal, or goes live -/
  | registering (id : String) (session : Nat)
  /-- waits for the channel of another registration -/
  | waiting (session : Nat)
  /-- `route`: has captured a notification for a session that is being evicted -/
  | captured (id : String) (session notification : Nat)
  /-- holds a lease -/
  | leasing (leases : Nat)
  | reserved (reservation : Nat)
  /-- was refused for capacity, with the reservation it gave and whether that was its own -/
  | refused (reservation : Option Nat) (held : Bool)
  | panicked (message : String)
  | done
  deriving DecidableEq

structure SessionRegistry where
  capacity : Nat
  sessions : Table String SessionEntry := ∅
  pendingNotifications : Table String (List Nat) := ∅
  pendingNotificationCount : Nat := 0
  nextAccess : Nat := 0
  reservations : List Nat := []
  nextReservation : Nat := 0
  /-- the lease counters -/
  leases : List Nat := []
  /-- what the channels of the registrations say -/
  ready : List Bool := []
  calls : List RegistryCall := []
  /-- the reservations that their callers have neither used nor released -/
  held : List Nat := []

inductive RegistryLabel where
  | reserve
  | releaseReservation (reservation : Nat)
  | register (id : String) (reservation : Option Nat)
  | get (id : String)
  | lease (id : String)
  | remove (id : String)
  | route (id : String) (notification : Nat)
  /-- `candidate` is the session that is picked to be evicted, `operationFree` and `evictable` are the
  answers of `try_eviction_guard` and `is_evictable` -/
  | callSection (index : Nat) (candidate : Option String) (operationFree evictable : Bool)

namespace SessionRegistry

variable (s : SessionRegistry)

def setCall (index : Nat) (call : RegistryCall) : SessionRegistry :=
  { s with calls := s.calls.set index call }

def addCall (call : RegistryCall) : SessionRegistry :=
  { s with calls := s.calls ++ [call] }

/-! Evictions -/

/--
When a session was last accessed that may be picked to be evicted.
-/
def evictionAccess (rejected : List String) (id : String) : Option Nat :=
  match s.sessions.lookup id with
  | some (.live _ lastAccess leases) =>
    if s.leases[leases]? = some 0 ∧ id ∉ rejected then some lastAccess else none
  | _ => none

/--
One of those that were not accessed for longest is picked, in the order in which a map is iterated.
-/
def picks (rejected : List String) : Option String → Bool
  | none => s.sessions.keys.all fun id => (s.evictionAccess rejected id).isNone
  | some id =>
    (s.evictionAccess rejected id).any fun lastAccess =>
      s.sessions.keys.all fun other => (s.evictionAccess rejected other).all (lastAccess ≤ ·)

def refuse (index : Nat) : Admission → SessionRegistry
  | .reserve | .register _ none => s.setCall index (.refused none false)
  | .register _ (some reservation) =>
    s.setCall index (.refused (some reservation) (s.held.contains reservation))

def beginEviction (index : Nat) (admission : Admission) (rejected : List String)
    : Option String → SessionRegistry
  | none => s.refuse index admission
  | some id =>
    match s.sessions.lookup id with
    | some (.live session lastAccess leases) =>
      { s with sessions := s.sessions.insert id (.evicting session lastAccess leases) }.setCall index
        (.evicting admission rejected id session lastAccess leases)
    | _ => s

def isEvicting (id : String) (session : Nat) : Bool :=
  match s.sessions.lookup id with
  | some (.evicting current _ _) => current == session
  | _ => false

def canEvict (id : String) (session leases : Nat) (evictable : Bool) : Bool :=
  s.isEvicting id session
    && s.leases[leases]? == some 0
    && (s.pendingNotifications.lookup id).isNone
    && evictable

def finishEviction (index : Nat) (admission : Admission) (rejected : List String) (id : String)
    (session lastAccess leases : Nat) (operationFree evictable : Bool) : SessionRegistry :=
  let rejected' := id :: rejected
  let restoring := .restoring id session lastAccess leases (some (admission, rejected'))
  if operationFree then
    if s.canEvict id session leases evictable then
      match admission with
      | .reserve =>
        { s with sessions := s.sessions.erase id }.setCall index (.admitting admission rejected)
      | .register .. =>
        { s with
          sessions := s.sessions.erase id
          pendingNotifications := s.pendingNotifications.erase id }.setCall index
          (.admitting admission rejected)
    else
      match admission with
      | .reserve => s.setCall index restoring
      | .register .. =>
        if s.isEvicting id session then s.setCall index restoring
        else s.setCall index (.admitting admission rejected')
  else
    s.setCall index restoring

def afterRestore : Option (Admission × List String) → RegistryCall
  | some (admission, rejected) => .admitting admission rejected
  | none => .done

def restoreEviction (index : Nat) (id : String) (session lastAccess leases : Nat)
    (next : Option (Admission × List String)) : SessionRegistry :=
  if s.isEvicting id session then
    let journal := (s.pendingNotifications.lookup id).getD []
    let s := { s with pendingNotifications := s.pendingNotifications.erase id }
    if journal.length ≤ s.pendingNotificationCount then
      { s with
        pendingNotificationCount := s.pendingNotificationCount - journal.length
        sessions := s.sessions.insert id (.live session lastAccess leases) }.setCall index
        (afterRestore next)
    else
      s.setCall index (.panicked "pending notification count tracks every journal entry")
  else
    s.setCall index (afterRestore next)

/-! `reserve` -/

def occupied : Nat :=
  s.sessions.size + s.reservations.length

def admitReserve (index : Nat) (rejected : List String) (candidate : Option String)
    : SessionRegistry :=
  if s.occupied < s.capacity then
    let reservation := s.nextReservation
    { s with
      nextReservation := saturatingAdd U64_MAX s.nextReservation 1
      reservations := s.reservations.insert reservation
      held := reservation :: s.held }.setCall index (.reserved reservation)
  else
    s.beginEviction index .reserve rejected candidate

def releaseReservation (reservation : Nat) : SessionRegistry :=
  { s with
    reservations := s.reservations.erase reservation
    held := s.held.erase reservation }

/-! `register_with_freshness_reserved` -/

/--
A registration gives its reservation back.
-/
def useReservation : Option Nat → SessionRegistry
  | some reservation => s.releaseReservation reservation
  | none => s

def joinEntry (index : Nat) (id : String) : SessionEntry → SessionRegistry
  | .live .. => s.setCall index .done
  | .registering session _ => s.setCall index (.waiting session)
  | .evicting session lastAccess leases =>
    s.setCall index (.restoring id session lastAccess leases none)

/--
The entry of a new registration takes the notifications that wait for it.
-/
def insertRegistering (index : Nat) (id : String) : SessionRegistry :=
  let session := s.ready.length
  let journal := (s.pendingNotifications.lookup id).getD []
  { s with
    sessions := s.sessions.insert id (.registering session journal)
    pendingNotifications := s.pendingNotifications.erase id
    ready := s.ready ++ [false] }.setCall index (.registering id session)

def admitRegister (index : Nat) (id : String) (reservation : Option Nat) (rejected : List String)
    (candidate : Option String) : SessionRegistry :=
  if reservation.any fun reservation => !s.reservations.contains reservation then
    s.refuse index (.register id reservation)
  else
    match s.sessions.lookup id with
    | some entry => (s.useReservation reservation).joinEntry index id entry
    | none =>
      if s.occupied - reservation.toList.length < s.capacity then
        (s.useReservation reservation).insertRegistering index id
      else
        s.beginEviction index (.register id reservation) rejected candidate

def goLive (index : Nat) (id : String) (session : Nat) : SessionRegistry :=
  { s with
    sessions := s.sessions.insert id (.live session s.nextAccess s.leases.length)
    nextAccess := saturatingAdd U64_MAX s.nextAccess 1
    leases := s.leases ++ [0]
    ready := s.ready.set session true }.setCall index .done

def takeJournal (index : Nat) (id : String) (session : Nat) : SessionRegistry :=
  match s.sessions.lookup id with
  | some (.registering registered (_ :: journal)) =>
    { s with
      sessions := s.sessions.insert id (.registering registered journal)
      pendingNotificationCount := s.pendingNotificationCount - 1 }
  | some (.registering _ []) => s.goLive index id session
  | _ => s.setCall index .done

/--
The sender of a channel is dropped when its registration ends.
-/
def senderAlive (session : Nat) : Bool :=
  s.calls.any fun
    | .registering _ registered => registered == session
    | _ => false

def await (index session : Nat) : Option SessionRegistry :=
  if s.ready[session]? = some true then
    some (s.setCall index .done)
  else if s.senderAlive session then
    none
  else
    some (s.setCall index (.panicked "registration sender remains alive with its entry"))

/-! `get`, `lease`, `remove` and `route` -/

def touch (id : String) : SessionRegistry :=
  match s.sessions.lookup id with
  | some (.live session _ leases) =>
    { s with
      nextAccess := saturatingAdd U64_MAX s.nextAccess 1
      sessions := s.sessions.insert id (.live session s.nextAccess leases) }
  | _ => { s with nextAccess := saturatingAdd U64_MAX s.nextAccess 1 }

def addLease (leases : Nat) : SessionRegistry :=
  { s with leases := s.leases.modify leases (· + 1) }.addCall (.leasing leases)

def leaseOf : Option SessionEntry → SessionRegistry
  | some (.live _ _ leases) => s.addLease leases
  | _ => s

def lease (id : String) : SessionRegistry :=
  (s.touch id).leaseOf (s.sessions.lookup id)

def dropLease (index leases : Nat) : SessionRegistry :=
  { s with leases := s.leases.modify leases (· - 1) }.setCall index .done

def remove (id : String) : SessionRegistry :=
  { s with sessions := s.sessions.erase id }

/--
Park the notification, unless too many are parked: then it is refused.
-/
def park (id : String) (notification : Nat) : SessionRegistry :=
  if s.pendingNotificationCount ≥ PENDING_NOTIFICATION_CAPACITY then
    s
  else
    { s with
      pendingNotifications := s.pendingNotifications.insert id
        ((s.pendingNotifications.lookup id).getD [] ++ [notification])
      pendingNotificationCount := s.pendingNotificationCount + 1 }

def route (id : String) (notification : Nat) : SessionRegistry :=
  match s.sessions.lookup id with
  | some (.live _ _ leases) => s.addLease leases
  | some (.evicting session _ _) => s.addCall (.captured id session notification)
  | some (.registering session journal) =>
    if s.pendingNotificationCount ≥ PENDING_NOTIFICATION_CAPACITY then
      s
    else
      { s with
        sessions := s.sessions.insert id (.registering session (journal ++ [notification]))
        pendingNotificationCount := s.pendingNotificationCount + 1 }
  | none => s.park id notification

def isLive (id : String) (session : Nat) : Bool :=
  match s.sessions.lookup id with
  | some (.live current _ _) => current == session
  | _ => false

def routeCaptured (index : Nat) (id : String) (session notification : Nat) : SessionRegistry :=
  if s.isLive id session then
    s.setCall index .done
  else
    (s.park id notification).setCall index .done

/-! Steps -/

def runSection (index : Nat) (candidate : Option String) (operationFree evictable : Bool)
    : Option SessionRegistry :=
  match s.calls[index]? with
  | some (.admitting .reserve rejected) =>
    if s.picks rejected candidate then some (s.admitReserve index rejected candidate) else none
  | some (.admitting (.register id reservation) rejected) =>
    if s.picks rejected candidate then some (s.admitRegister index id reservation rejected candidate)
    else none
  | some (.evicting admission rejected id session lastAccess leases) =>
    some (s.finishEviction index admission rejected id session lastAccess leases operationFree evictable)
  | some (.restoring id session lastAccess leases next) =>
    some (s.restoreEviction index id session lastAccess leases next)
  | some (.registering id session) => some (s.takeJournal index id session)
  | some (.waiting session) => s.await index session
  | some (.captured id session notification) => some (s.routeCaptured index id session notification)
  | some (.leasing leases) => some (s.dropLease index leases)
  | _ => none

def step (s : SessionRegistry) : RegistryLabel → Option SessionRegistry
  | .reserve => some (s.addCall (.admitting .reserve []))
  | .releaseReservation reservation => some (s.releaseReservation reservation)
  | .register id reservation => some (s.addCall (.admitting (.register id reservation) []))
  | .get id => some (s.touch id)
  | .lease id => some (s.lease id)
  | .remove id => some (s.remove id)
  | .route id notification => some (s.route id notification)
  | .callSection index candidate operationFree evictable =>
    s.runSection index candidate operationFree evictable

end SessionRegistry

end Session
