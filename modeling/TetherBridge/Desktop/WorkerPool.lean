import TetherBridge.Data.Table

/-!
This module contains the `WorkerPool` of the desktop broker: the calls to `acquire_client`, the sessions
they return, and the sweep that stops idle workers. A step is one section of a call between two awaits;
the drop of a launch reservation is a step of its own.
-/

namespace Desktop

def ACTIVITY_FAILURE_LIMIT : Nat := 3
def U32_MAX : Nat := 4294967295

/--
A worker, named by the profile it was launched for and the order in which workers enter the pool.
-/
structure Worker where
  profileId : String
  launch : Nat
  deriving DecidableEq

structure WorkerRecord where
  worker : Worker
  clients : Nat
  lastIdleAt : Nat
  lastUsed : Nat
  knownBusy : Bool
  activityFailures : Nat
  retiring : Bool

structure WorkerClientSession where
  profileId : String
  worker : Worker
  released : Bool

/--
The calls to `acquire_client` by what they do next.
-/
inductive AcquireClient where
  /-- waits for the launch lock of the profile -/
  | locking (profileId : String)
  /-- is at the top of the loop -/
  | looping (profileId : String)
  /-- waits for the sweep lock -/
  | pressing (profileId : String)
  /-- sweeps -/
  | sweeping (profileId : String)
  | choosing (profileId : String)
  /-- asks whether the worker it has found is running -/
  | asking (profileId : String) (worker : Worker)
  /-- removes the record, after the worker has answered that it is not running -/
  | forgetting (profileId : String) (worker : Worker)
  | connecting (profileId : String) (worker : Worker)
  | sleeping (profileId : String)
  /-- holds a launch reservation, as do the next two -/
  | launching (profileId : String)
  | launched (profileId : String) (ok : Bool)
  /-- has put its worker into the pool -/
  | inserted (profileId : String)
  | done

/--
The sweep by what it does next.
-/
inductive SweepPhase where
  | collecting
  | checking (candidates : List (String × Worker))
  /-- removes the record, after the worker has answered that it is not running -/
  | forgetting (profileId : String) (worker : Worker) (candidates : List (String × Worker))
  /-- asks for the activity -/
  | probing (profileId : String) (candidates : List (String × Worker))
  /-- the answer: whether the worker can retire, or a failure -/
  | noting (profileId : String) (activity : Option Bool) (candidates : List (String × Worker))
  | searching
  | retiring (unreachable : List (String × Worker))
  | listing
  | counting (now : Nat) (idle : List (String × Nat))
  | evicting (now evictCount evicted : Nat) (idle : List (String × Nat))
  | stopping (profileId : String) (worker : Worker) (next : SweepPhase)
  /-- the worker could not be stopped -/
  | keeping (profileId : String)
  /-- removes the record, after the worker was stopped -/
  | removing (profileId : String) (worker : Worker) (next : SweepPhase)

/--
The sweep that holds the sweep lock, and the call it is a part of, if any.
-/
structure Sweep where
  call : Option Nat
  capacityPressure : Bool
  phase : SweepPhase

structure WorkerPool where
  maxWorkers : Nat
  maxIdleWorkers : Nat
  idleGrace : Nat
  workers : Table String WorkerRecord := ∅
  launching : Nat := 0
  usageCounter : Nat := 1
  calls : List AcquireClient := []
  sessions : List WorkerClientSession := []
  sweep : Option Sweep := none
  now : Nat := 0
  /-- how many workers have entered the pool -/
  launches : Nat := 0
  /-- the workers that have died or were stopped -/
  gone : List Worker := []
  /-- the workers whose record was removed or overwritten while they were running -/
  lost : List Worker := []

inductive PoolLabel where
  | acquireClient (profileId : String)
  /-- the next section of a call -/
  | proceed (call : Nat)
  /-- what the launcher answers -/
  | launch (call : Nat) (ok : Bool)
  /-- the future of a call is dropped -/
  | cancel (call : Nat)
  /-- `release_client` for a session that was released or dropped -/
  | release (session : Nat)
  /-- `sweep(false)` -/
  | beginSweep
  /-- the next section of the sweep, which reads the table in some order -/
  | sweepSection (order : List String)
  | sweepActivity (activity : Option Bool)
  | sweepStop (ok : Bool)
  /-- a worker dies -/
  | die (worker : Worker)
  | wait (duration : Nat)

namespace AcquireClient

/--
The profile whose launch lock a call holds.
-/
def lock : AcquireClient → Option String
  | .locking _ | .done => none
  | .looping profileId | .pressing profileId | .sweeping profileId | .choosing profileId
  | .asking profileId _ | .forgetting profileId _ | .connecting profileId _ | .sleeping profileId
  | .launching profileId | .launched profileId _ | .inserted profileId => some profileId

end AcquireClient

namespace WorkerPool

variable (s : WorkerPool)

def setCall (index : Nat) (call : AcquireClient) : WorkerPool :=
  { s with calls := s.calls.set index call }

def setPhase (sweep : Sweep) (phase : SweepPhase) : WorkerPool :=
  { s with sweep := some { sweep with phase } }

def running (worker : Worker) : Bool :=
  !s.gone.contains worker

/--
The running worker whose record stands under the profile.
-/
def displaced (profileId : String) : List Worker :=
  match s.workers.lookup profileId with
  | some record => if s.running record.worker then [record.worker] else []
  | none => []

def removeWorker (profileId : String) : WorkerPool :=
  { s with
    workers := s.workers.erase profileId
    lost := s.lost ++ s.displaced profileId }

def putRecord (profileId : String) (record : WorkerRecord) : WorkerPool :=
  { s with workers := s.workers.insert profileId record }

/-! `acquire_client` -/

def hasCapacity : Bool :=
  s.workers.size + s.launching < s.maxWorkers

def needsCapacity (profileId : String) : Bool :=
  (s.workers.lookup profileId).isNone && !s.hasCapacity

def choose (index : Nat) (profileId : String) : WorkerPool :=
  match s.workers.lookup profileId with
  | some record =>
    if record.retiring then s.setCall index (.sleeping profileId)
    else s.setCall index (.asking profileId record.worker)
  | none =>
    if s.hasCapacity then
      { s with launching := s.launching + 1 }.setCall index (.launching profileId)
    else
      -- "workspace worker capacity is busy"
      s.setCall index .done

def connect (index : Nat) (profileId : String) (worker : Worker) : WorkerPool :=
  match s.workers.lookup profileId with
  | some record =>
    if record.retiring || record.worker != worker then
      s.setCall index (.looping profileId)
    else
      { s.putRecord profileId { record with
          clients := record.clients + 1
          knownBusy := true
          activityFailures := 0
          lastUsed := s.usageCounter } with
        usageCounter := s.usageCounter + 1
        sessions := s.sessions ++ [WorkerClientSession.mk profileId worker false] }.setCall index .done
  | none => s.setCall index (.looping profileId)

def insertWorker (index : Nat) (profileId : String) : WorkerPool :=
  let worker : Worker := { profileId, launch := s.launches }
  { s.putRecord profileId
      { worker, clients := 1, lastIdleAt := s.now, lastUsed := s.usageCounter, knownBusy := true,
        activityFailures := 0, retiring := false } with
    lost := s.lost ++ s.displaced profileId
    usageCounter := s.usageCounter + 1
    launches := s.launches + 1
    sessions := s.sessions ++ [WorkerClientSession.mk profileId worker false] }.setCall index
      (.inserted profileId)

def dropReservation (index : Nat) : WorkerPool :=
  { s with launching := s.launching - 1 }.setCall index .done

def proceed (index : Nat) : Option WorkerPool :=
  match s.calls[index]? with
  | some (.locking profileId) =>
    if s.calls.any fun call => call.lock == some profileId then none
    else some (s.setCall index (.looping profileId))
  | some (.looping profileId) =>
    if s.needsCapacity profileId then some (s.setCall index (.pressing profileId))
    else some (s.setCall index (.choosing profileId))
  | some (.pressing profileId) =>
    if s.sweep.isNone then
      some { s.setCall index (.sweeping profileId) with
        sweep := some { call := some index, capacityPressure := true, phase := .collecting } }
    else
      none
  | some (.choosing profileId) => some (s.choose index profileId)
  | some (.asking profileId worker) =>
    if s.running worker then some (s.setCall index (.connecting profileId worker))
    else some (s.setCall index (.forgetting profileId worker))
  | some (.forgetting profileId _) =>
    some ((s.removeWorker profileId).setCall index (.looping profileId))
  | some (.connecting profileId worker) => some (s.connect index profileId worker)
  | some (.sleeping profileId) => some (s.setCall index (.looping profileId))
  | some (.launched profileId true) => some (s.insertWorker index profileId)
  | some (.launched _ false) => some (s.dropReservation index)
  | some (.inserted _) => some (s.dropReservation index)
  | _ => none

def launch (index : Nat) (ok : Bool) : Option WorkerPool :=
  match s.calls[index]? with
  | some (.launching profileId) => some (s.setCall index (.launched profileId ok))
  | _ => none

/--
A call is dropped at an await, with its sweep or its reservation.
-/
def cancel (index : Nat) : Option WorkerPool :=
  match s.calls[index]? with
  | some (.inserted _) | some .done | none => none
  | some (.launching _) | some (.launched ..) => some (s.dropReservation index)
  | some (.sweeping _) => some { s.setCall index .done with sweep := none }
  | some _ => some (s.setCall index .done)

/-! `release_client` -/

def releaseClient (profileId : String) : WorkerPool :=
  match s.workers.lookup profileId with
  | some record =>
    let clients := record.clients - 1
    { s.putRecord profileId { record with
        clients
        lastIdleAt := if clients = 0 then s.now else record.lastIdleAt
        lastUsed := s.usageCounter } with
      usageCounter := s.usageCounter + 1 }
  | none => s

def release (index : Nat) : Option WorkerPool :=
  match s.sessions[index]? with
  | some session =>
    if session.released then
      none
    else
      some { s.releaseClient session.profileId with
        sessions := s.sessions.set index { session with released := true } }
  | none => none

/-! `sweep` -/

/--
The records that pass the filter, in the order in which the table is read.
-/
def list {α : Type} (order : List String) (f : String → WorkerRecord → Option α) : List α :=
  order.filterMap fun profileId => (s.workers.lookup profileId).bind (f profileId)

def candidate (profileId : String) (record : WorkerRecord) : Option (String × Worker) :=
  if record.clients = 0 && !record.retiring then some (profileId, record.worker) else none

def unreachable (profileId : String) (record : WorkerRecord) : Option (String × Worker) :=
  if record.clients = 0 && !record.retiring && record.activityFailures ≥ ACTIVITY_FAILURE_LIMIT then
    some (profileId, record.worker)
  else
    none

def idle (profileId : String) (record : WorkerRecord) : Option (String × Nat × Nat) :=
  if record.clients = 0 && !record.knownBusy && !record.retiring then
    some (profileId, record.lastIdleAt, record.lastUsed)
  else
    none

def noteActivity (record : WorkerRecord) : Option Bool → WorkerRecord
  | some true =>
    { record with
      activityFailures := 0
      lastIdleAt := if record.knownBusy then s.now else record.lastIdleAt
      knownBusy := false }
  | some false => { record with activityFailures := 0, knownBusy := true, lastIdleAt := s.now }
  | none =>
    let activityFailures :=
      if record.activityFailures = U32_MAX then U32_MAX else record.activityFailures + 1
    { record with
      activityFailures
      knownBusy := true
      lastIdleAt := if activityFailures = 1 then s.now else record.lastIdleAt }

def note (profileId : String) (activity : Option Bool) : WorkerPool :=
  match s.workers.lookup profileId with
  | some record =>
    if record.clients > 0 || record.retiring then s
    else s.putRecord profileId (s.noteActivity record activity)
  | none => s

/--
The sweep ends, and with it the await of the call it is a part of.
-/
def finishSweep (sweep : Sweep) (ok : Bool) : WorkerPool :=
  let s := { s with sweep := none }
  match sweep.call with
  | none => s
  | some index =>
    match s.calls[index]? with
    | some (.sweeping profileId) => s.setCall index (if ok then .choosing profileId else .done)
    | _ => s

def retire (sweep : Sweep) (profileId : String) (record : WorkerRecord) (next : SweepPhase)
    : WorkerPool :=
  (s.putRecord profileId { record with retiring := true }).setPhase sweep
    (.stopping profileId record.worker next)

def retireUnreachable (sweep : Sweep) (profileId : String) (worker : Worker)
    (unreachable : List (String × Worker)) : WorkerPool :=
  match s.workers.lookup profileId with
  | some record =>
    if record.clients > 0 || record.retiring || record.activityFailures < ACTIVITY_FAILURE_LIMIT
        || record.worker != worker then
      s.setPhase sweep (.retiring unreachable)
    else
      s.retire sweep profileId record (.retiring unreachable)
  | none => s.setPhase sweep (.retiring unreachable)

def evictIdle (sweep : Sweep) (now evictCount evicted : Nat) (profileId : String) (idleSince : Nat)
    (idle : List (String × Nat)) : WorkerPool :=
  if evicted ≥ evictCount then
    s.finishSweep sweep true
  else if now - idleSince < s.idleGrace then
    s.setPhase sweep (.evicting now evictCount evicted idle)
  else
    match s.workers.lookup profileId with
    | some record =>
      if record.clients > 0 || record.knownBusy || record.retiring
          || now - record.lastIdleAt < s.idleGrace then
        s.setPhase sweep (.evicting now evictCount evicted idle)
      else
        s.retire sweep profileId record (.evicting now evictCount (evicted + 1) idle)
    | none => s.setPhase sweep (.evicting now evictCount evicted idle)

def keep (profileId : String) : WorkerPool :=
  match s.workers.lookup profileId with
  | some record => s.putRecord profileId { record with retiring := false }
  | none => s

def evictCount (sweep : Sweep) (idle : List (String × Nat)) : Nat :=
  max (idle.length - s.maxIdleWorkers) (if sweep.capacityPressure && !s.hasCapacity then 1 else 0)

def sweepPhase (sweep : Sweep) (order : List String) : SweepPhase → Option WorkerPool
  | .collecting => some (s.setPhase sweep (.checking (s.list order candidate)))
  | .checking [] => some (s.setPhase sweep .searching)
  | .checking ((profileId, worker) :: candidates) =>
    if s.running worker then some (s.setPhase sweep (.probing profileId candidates))
    else some (s.setPhase sweep (.forgetting profileId worker candidates))
  | .forgetting profileId _ candidates =>
    some ((s.removeWorker profileId).setPhase sweep (.checking candidates))
  | .noting profileId activity candidates =>
    some ((s.note profileId activity).setPhase sweep (.checking candidates))
  | .searching => some (s.setPhase sweep (.retiring (s.list order unreachable)))
  | .retiring [] => some (s.setPhase sweep .listing)
  | .retiring ((profileId, worker) :: unreachable) =>
    some (s.retireUnreachable sweep profileId worker unreachable)
  | .listing =>
    let idle := (s.list order idle).mergeSort fun a b => a.2.2 ≤ b.2.2
    some (s.setPhase sweep (.counting s.now (idle.map fun entry => (entry.1, entry.2.1))))
  | .counting now idle => some (s.setPhase sweep (.evicting now (s.evictCount sweep idle) 0 idle))
  | .evicting _ _ _ [] => some (s.finishSweep sweep true)
  | .evicting now evictCount evicted ((profileId, idleSince) :: idle) =>
    some (s.evictIdle sweep now evictCount evicted profileId idleSince idle)
  | .keeping profileId => some ((s.keep profileId).finishSweep sweep false)
  | .removing profileId _ next => some ((s.removeWorker profileId).setPhase sweep next)
  | .probing .. | .stopping .. => none

def sweepSection (order : List String) : Option WorkerPool :=
  match s.sweep with
  | some sweep => if order.isPerm s.workers.keys then s.sweepPhase sweep order sweep.phase else none
  | none => none

def sweepActivity (activity : Option Bool) : Option WorkerPool :=
  match s.sweep with
  | some sweep =>
    match sweep.phase with
    | .probing profileId candidates => some (s.setPhase sweep (.noting profileId activity candidates))
    | _ => none
  | none => none

def sweepStop (ok : Bool) : Option WorkerPool :=
  match s.sweep with
  | some sweep =>
    match sweep.phase with
    | .stopping profileId worker next =>
      if ok then
        some ({ s with gone := worker :: s.gone }.setPhase sweep (.removing profileId worker next))
      else
        some (s.setPhase sweep (.keeping profileId))
    | _ => none
  | none => none

def step (s : WorkerPool) : PoolLabel → Option WorkerPool
  | .acquireClient profileId => some { s with calls := s.calls ++ [.locking profileId] }
  | .proceed index => s.proceed index
  | .launch index ok => s.launch index ok
  | .cancel index => s.cancel index
  | .release index => s.release index
  | .beginSweep =>
    if s.sweep.isNone then
      some { s with sweep := some { call := none, capacityPressure := false, phase := .collecting } }
    else
      none
  | .sweepSection order => s.sweepSection order
  | .sweepActivity activity => s.sweepActivity activity
  | .sweepStop ok => s.sweepStop ok
  | .die worker => some { s with gone := worker :: s.gone }
  | .wait duration => some { s with now := s.now + duration }

end WorkerPool

end Desktop
