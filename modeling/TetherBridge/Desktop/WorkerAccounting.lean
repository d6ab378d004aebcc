import TetherBridge.Desktop.WorkerPool
import TetherBridge.Transition.Basic

/-!
This module contains the accounts of `WorkerPool`: the workers and the launches in progress stay within
the capacity, the clients of a record are the sessions that hold its worker, and no worker is stopped
while a session holds it or dropped while it is running, as long as every release and every removal
meets the worker it is meant for.
-/

namespace Desktop

open Transition

namespace AcquireClient

/--
The profile a launch is reserved for.
-/
def reservation : AcquireClient → Option String
  | .launching profileId | .launched profileId _ => some profileId
  | _ => none

def reserving (call : AcquireClient) : Nat :=
  if call.reservation.isSome then 1 else 0

/--
Its worker is in the pool, but its launch still counts.
-/
def lingering : AcquireClient → Nat
  | .inserted _ => 1
  | _ => 0

/--
The worker a call has found under its profile.
-/
def found : AcquireClient → Option (String × Worker)
  | .asking profileId worker | .forgetting profileId worker | .connecting profileId worker =>
    some (profileId, worker)
  | _ => none

/--
The worker a call has found not to be running.
-/
def notRunning : AcquireClient → Option Worker
  | .forgetting _ worker => some worker
  | _ => none

end AcquireClient

namespace SweepPhase

/--
The record that is removed next, and the worker it is removed for.
-/
def removal : SweepPhase → Option (String × Worker)
  | .forgetting profileId worker _ | .removing profileId worker _ => some (profileId, worker)
  | _ => none

/--
The worker that is being stopped, or was stopped and is still in the table.
-/
def stopped : SweepPhase → Option Worker
  | .stopping _ worker _ | .removing _ worker _ => some worker
  | _ => none

def next : SweepPhase → Option SweepPhase
  | .stopping _ _ next | .removing _ _ next => some next
  | _ => none

end SweepPhase

def WorkerClientSession.holding (worker : Worker) (session : WorkerClientSession) : Nat :=
  if !session.released && session.worker = worker then 1 else 0

namespace WorkerPool

variable (s : WorkerPool)

/--
How many sessions hold the worker and are not released.
-/
def unreleased (worker : Worker) : Nat :=
  s.sessions.weigh (WorkerClientSession.holding worker)

def reserving : Nat :=
  s.calls.weigh AcquireClient.reserving

/--
How many launches have put their worker into the pool and still count as launches.
-/
def inserted : Nat :=
  s.calls.weigh AcquireClient.lingering

/--
The accounts are in order: there are not more workers than the pool may have, or than it may have beside
the launches in progress; the clients of a record are the sessions that hold its worker; a worker that is
being stopped has none; and no worker was dropped while it was running.
-/
structure Accounted : Prop where
  workers_le : s.workers.size ≤ s.maxWorkers
  launching_le : s.workers.size + s.launching ≤ s.maxWorkers + s.inserted
  clients : ∀ profileId record, s.workers.lookup profileId = some record →
    record.clients = s.unreleased record.worker
  stopped : ∀ sweep, s.sweep = some sweep → ∀ worker ∈ sweep.phase.stopped, s.unreleased worker = 0
  lost : s.lost = []

/--
A session is released, and a record is removed by the sweep, only while the profile has no other worker;
the sweep may also remove the record of another worker that is not running.
-/
def meetsItsWorker (s : WorkerPool) : PoolLabel → Bool
  | .release index =>
    s.sessions[index]?.all fun session =>
      (s.workers.lookup session.profileId).all fun record => record.worker = session.worker
  | .sweepSection _ =>
    (s.sweep.bind (·.phase.removal)).all fun (profileId, worker) =>
      (s.workers.lookup profileId).all fun record =>
        record.worker = worker || s.gone.contains record.worker
  | _ => true

structure CallSound (call : AcquireClient) : Prop where
  found : ∀ profileId worker, call.found = some (profileId, worker) →
    ∀ record, s.workers.lookup profileId = some record → record.worker = worker
  notRunning : ∀ worker ∈ call.notRunning, worker ∈ s.gone
  reserved : ∀ profileId ∈ call.reservation, s.workers.lookup profileId = none

structure PhaseSound (phase : SweepPhase) : Prop where
  removal : ∀ profileId worker, phase.removal = some (profileId, worker) → worker ∈ s.gone
  stopped : ∀ worker ∈ phase.stopped, worker.launch < s.launches ∧
    ∀ record, s.workers.lookup worker.profileId = some record → record.worker = worker → record.retiring
  next : ∀ next ∈ phase.next, next.removal = none ∧ next.stopped = none ∧ next.next = none

structure Sound : Prop extends Accounted s where
  launching_eq : s.launching = s.reserving + s.inserted
  capacity : s.workers.size + s.reserving ≤ s.maxWorkers
  locks : ∀ (i j : Nat) call call' profileId, s.calls[i]? = some call → s.calls[j]? = some call' →
    call.lock = some profileId → call'.lock = some profileId → i = j
  records : ∀ profileId record, s.workers.lookup profileId = some record →
    record.worker.profileId = profileId ∧ record.worker.launch < s.launches
  sessionWorkers : ∀ session ∈ s.sessions,
    session.worker.profileId = session.profileId ∧ session.worker.launch < s.launches
  calls : ∀ call ∈ s.calls, s.CallSound call
  phase : ∀ sweep, s.sweep = some sweep → s.PhaseSound sweep.phase

variable {s} {s' : WorkerPool}

theorem sound_init (maxWorkers maxIdleWorkers idleGrace : Nat)
    : ({ maxWorkers, maxIdleWorkers, idleGrace } : WorkerPool).Sound where
  workers_le := Nat.zero_le _
  launching_le := Nat.zero_le _
  clients _ _ h := by
    rw [AList.lookup_empty] at h
    contradiction
  stopped _ h := by
    contradiction
  lost := rfl
  launching_eq := rfl
  capacity := Nat.zero_le _
  locks i _ _ _ _ h := by
    rw [List.getElem?_nil] at h
    contradiction
  records _ _ h := by
    rw [AList.lookup_empty] at h
    contradiction
  sessionWorkers _ h := absurd h List.not_mem_nil
  calls _ h := absurd h List.not_mem_nil
  phase _ h := by
    contradiction

/-! Calls -/

theorem lock_of_reservation {call : AcquireClient} {profileId : String}
    (h : call.reservation = some profileId)
    : call.lock = some profileId := by
  cases call <;> first | contradiction | exact h

theorem lock_of_found {call : AcquireClient} {profileId : String} {worker : Worker}
    (h : call.found = some (profileId, worker))
    : call.lock = some profileId := by
  cases call <;> first | contradiction | (injection h with h; injection h with h; rw [← h]; rfl)

/--
A call goes on. A launch reservation is counted, and needs room.
-/
theorem Sound.setCall (h : s.Sound) {index : Nat} {old new : AcquireClient}
    (hold : s.calls[index]? = some old)
    (hlock : ∀ profileId, new.lock = some profileId → old.lock = some profileId ∨
      ∀ call ∈ s.calls, call.lock ≠ some profileId)
    (hcall : s.CallSound new) {launching : Nat}
    (hlaunching : launching + (old.reserving + old.lingering)
      = s.launching + (new.reserving + new.lingering))
    (hcapacity : new.reserving ≤ old.reserving ∨ s.hasCapacity)
    : ({ s with launching }.setCall index new).Sound := by
  have hreserving := List.weigh_set (w := AcquireClient.reserving) hold new
  have hinserted := List.weigh_set (w := AcquireClient.lingering) hold new
  have heq := h.launching_eq
  have hroom := h.capacity
  have hone : new.reserving ≤ 1 := by
    unfold AcquireClient.reserving
    split <;> omega
  have hmem : ∀ call ∈ s.calls.set index new, call ∈ s.calls ∨ call = new := by
    intro call hmem
    exact List.mem_or_eq_of_mem_set hmem
  unfold reserving inserted at heq
  unfold reserving at hroom
  have hnewRoom : s.workers.size + (s.calls.set index new).weigh AcquireClient.reserving ≤ s.maxWorkers := by
    rcases hcapacity with hle | hhas
    . omega
    . unfold hasCapacity at hhas
      rw [decide_eq_true_eq] at hhas
      omega
  refine { h with
    launching_le := ?_, launching_eq := ?_, capacity := ?_, locks := ?_, calls := ?_, phase := ?_ }
  . unfold inserted WorkerPool.setCall
    dsimp only
    omega
  . unfold reserving inserted WorkerPool.setCall
    dsimp only
    omega
  . exact hnewRoom
  . intro i j call call' profileId hi hj hcallLock hcallLock'
    have hold' : ∀ {i : Nat} {call : AcquireClient}, (s.calls.set index new)[i]? = some call →
        call.lock = some profileId →
        (i = index ∧ call = new) ∨ i ≠ index ∧ s.calls[i]? = some call := by
      intro i call hi _
      rw [List.getElem?_set] at hi
      split at hi
      . next heqIndex =>
        split at hi
        . injection hi with hi
          exact .inl ⟨heqIndex.symm, hi.symm⟩
        . contradiction
      . next hne => exact .inr ⟨fun heqIndex => hne heqIndex.symm, hi⟩
    rcases hold' hi hcallLock with ⟨hii, heqi⟩ | ⟨hii, hi'⟩
    . rcases hold' hj hcallLock' with ⟨hjj, heqj⟩ | ⟨hjj, hj'⟩
      . rw [hii, hjj]
      . rw [heqi] at hcallLock
        rcases hlock profileId hcallLock with hlocked | hfree
        . rw [hii]
          exact h.locks index j old call' profileId hold hj' hlocked hcallLock'
        . exact absurd hcallLock' (hfree call' (List.mem_of_getElem? hj'))
    . rcases hold' hj hcallLock' with ⟨hjj, heqj⟩ | ⟨hjj, hj'⟩
      . rw [heqj] at hcallLock'
        rcases hlock profileId hcallLock' with hlocked | hfree
        . rw [hjj]
          exact h.locks i index call old profileId hi' hold hcallLock hlocked
        . exact absurd hcallLock (hfree call (List.mem_of_getElem? hi'))
      . exact h.locks i j call call' profileId hi' hj' hcallLock hcallLock'
  . intro call hcallMem
    rcases hmem call hcallMem with hcallMem | rfl
    . have hsound := h.calls call hcallMem
      exact ⟨hsound.found, hsound.notRunning, hsound.reserved⟩
    . exact ⟨hcall.found, hcall.notRunning, hcall.reserved⟩
  . intro sweep hsweep
    have hphase := h.phase sweep hsweep
    exact ⟨hphase.removal, hphase.stopped, hphase.next⟩

/--
A call begins, without its lock.
-/
theorem Sound.addCall (h : s.Sound) (profileId : String)
    : ({ s with calls := s.calls ++ [.locking profileId] } : WorkerPool).Sound := by
  have hreserving : (s.calls ++ [AcquireClient.locking profileId]).weigh AcquireClient.reserving = s.reserving := by
    rw [List.weigh_append]
    rfl
  have hlingering : (s.calls ++ [AcquireClient.locking profileId]).weigh AcquireClient.lingering = s.inserted := by
    rw [List.weigh_append]
    rfl
  have hold : ∀ {i : Nat} {call : AcquireClient} {other : String},
      (s.calls ++ [.locking profileId])[i]? = some call → call.lock = some other →
        s.calls[i]? = some call := by
    intro i call other hi hlock
    rw [List.getElem?_append] at hi
    split at hi
    . exact hi
    . have hnew := List.mem_of_getElem? hi
      rw [List.mem_singleton] at hnew
      rw [hnew] at hlock
      contradiction
  refine { h with
    launching_le := ?_, launching_eq := ?_, capacity := ?_, locks := ?_, calls := ?_, phase := ?_ }
  . have hle := h.launching_le
    rw [← hlingering] at hle
    exact hle
  . have heq := h.launching_eq
    rw [← hreserving, ← hlingering] at heq
    exact heq
  . have hcapacity := h.capacity
    rw [← hreserving] at hcapacity
    exact hcapacity
  . intro i j call call' other hi hj hlock hlock'
    exact h.locks i j call call' other (hold hi hlock) (hold hj hlock') hlock hlock'
  . intro call hcall
    rw [List.mem_append, List.mem_singleton] at hcall
    rcases hcall with hcall | rfl
    . have hsound := h.calls call hcall
      exact ⟨hsound.found, hsound.notRunning, hsound.reserved⟩
    . refine ⟨?_, ?_, ?_⟩
      . intro other worker hfound
        contradiction
      . intro worker hmem
        contradiction
      . intro other hmem
        contradiction
  . intro sweep hsweep
    have hphase := h.phase sweep hsweep
    exact ⟨hphase.removal, hphase.stopped, hphase.next⟩

theorem Sound.withNow (h : s.Sound) (now : Nat) : ({ s with now } : WorkerPool).Sound := by
  refine { h with calls := ?_, phase := ?_ }
  . intro call hcall
    have hsound := h.calls call hcall
    exact ⟨hsound.found, hsound.notRunning, hsound.reserved⟩
  . intro sweep hsweep
    have hphase := h.phase sweep hsweep
    exact ⟨hphase.removal, hphase.stopped, hphase.next⟩

/-! Records -/

theorem displaced_eq_nil {profileId : String}
    (hgone : ∀ record, s.workers.lookup profileId = some record → record.worker ∈ s.gone)
    : s.displaced profileId = [] := by
  unfold displaced
  cases hlookup : s.workers.lookup profileId with
  | none => rfl
  | some record =>
    have hmem := hgone record hlookup
    dsimp only
    unfold running
    rw [List.contains_iff_mem.mpr hmem, if_neg (by decide)]

/--
A record keeps its worker, and its clients are the sessions that hold it.
-/
theorem Sound.putRecord (h : s.Sound) {profileId : String} {record record' : WorkerRecord}
    (hrecord : s.workers.lookup profileId = some record) (hworker : record'.worker = record.worker)
    {sessions : List WorkerClientSession}
    (hclients : record'.clients = sessions.weigh (WorkerClientSession.holding record.worker))
    (hothers : ∀ worker, worker ≠ record.worker →
      sessions.weigh (WorkerClientSession.holding worker) = s.unreleased worker)
    (hsessions : ∀ session ∈ sessions,
      session.worker.profileId = session.profileId ∧ session.worker.launch < s.launches)
    (hstopped : ∀ sweep, s.sweep = some sweep → sweep.phase.stopped = some record.worker →
      record'.clients = 0 ∧ record'.retiring)
    (usageCounter : Nat)
    : ({ s.putRecord profileId record' with usageCounter, sessions } : WorkerPool).Sound := by
  have hsome : (s.workers.lookup profileId).isSome := by
    rw [hrecord]
    rfl
  have hsize := Table.size_insert_of_some hsome record'
  have hlookup : ∀ other entry, (s.workers.insert profileId record').lookup other = some entry →
      ∃ old, s.workers.lookup other = some old ∧ entry.worker = old.worker
        ∧ (other ≠ profileId ∧ entry = old ∨ other = profileId ∧ entry = record' ∧ old = record) := by
    intro other entry hentry
    by_cases hother : other = profileId
    . rw [hother, AList.lookup_insert] at hentry
      injection hentry with hentry
      rw [hother, ← hentry]
      exact ⟨record, hrecord, hworker, .inr ⟨rfl, rfl, rfl⟩⟩
    . rw [AList.lookup_insert_ne hother] at hentry
      exact ⟨entry, hentry, rfl, .inl ⟨hother, rfl⟩⟩
  refine { h with
    workers_le := ?_, launching_le := ?_, clients := ?_, stopped := ?_, capacity := ?_,
    records := ?_, sessionWorkers := hsessions, calls := ?_, phase := ?_ }
  . exact Nat.le_trans (Nat.le_of_eq hsize) h.workers_le
  . have hle := h.launching_le
    rw [← hsize] at hle
    exact hle
  . intro other entry hentry
    rcases hlookup other entry hentry with ⟨old, hold, -, ⟨hother, rfl⟩ | ⟨-, rfl, -⟩⟩
    . rw [h.clients other entry hold]
      symm
      apply hothers
      intro heq
      have hprofile := (h.records other entry hold).1
      rw [heq, (h.records profileId record hrecord).1] at hprofile
      exact hother hprofile.symm
    . rw [hclients, hworker]
      rfl
  . intro sweep hsweep worker hmem
    by_cases hsame : worker = record.worker
    . rw [hsame] at hmem ⊢
      have hzero := (hstopped sweep hsweep hmem).1
      rw [hclients] at hzero
      exact hzero
    . rw [← h.stopped sweep hsweep worker hmem]
      exact hothers worker hsame
  . have hcapacity := h.capacity
    rw [← hsize] at hcapacity
    exact hcapacity
  . intro other entry hentry
    rcases hlookup other entry hentry with ⟨old, hold, hsame, -⟩
    rw [hsame]
    exact h.records other old hold
  . intro call hcall
    have hsound := h.calls call hcall
    refine ⟨?_, hsound.notRunning, ?_⟩
    . intro other worker hfound entry hentry
      rcases hlookup other entry hentry with ⟨old, hold, hsame, -⟩
      rw [hsame]
      exact hsound.found other worker hfound old hold
    . intro other hother
      have hnone := hsound.reserved other hother
      dsimp only [WorkerPool.putRecord]
      rw [AList.lookup_insert_ne]
      . exact hnone
      . intro heq
        rw [heq, hrecord] at hnone
        contradiction
  . intro sweep hsweep
    have hsound := h.phase sweep hsweep
    refine ⟨hsound.removal, ?_, hsound.next⟩
    intro worker hmem
    refine ⟨(hsound.stopped worker hmem).1, ?_⟩
    intro entry hentry hentryWorker
    rcases hlookup worker.profileId entry hentry with ⟨old, hold, hsame, ⟨-, rfl⟩ | ⟨-, rfl, rfl⟩⟩
    . exact (hsound.stopped worker hmem).2 entry hold hentryWorker
    . rw [← hentryWorker, hsame] at hmem
      exact (hstopped sweep hsweep hmem).2

/--
A record is removed whose worker is not running.
-/
theorem Sound.removeWorker (h : s.Sound) {profileId : String}
    (hgone : ∀ record, s.workers.lookup profileId = some record → record.worker ∈ s.gone)
    : (s.removeWorker profileId).Sound := by
  have hsize : Table.size (s.workers.erase profileId) ≤ s.workers.size := Table.size_erase_le profileId
  have hlookup : ∀ other entry, (s.workers.erase profileId).lookup other = some entry →
      s.workers.lookup other = some entry := by
    intro other entry hentry
    by_cases hother : other = profileId
    . rw [hother, AList.lookup_erase] at hentry
      contradiction
    . rw [AList.lookup_erase_ne hother] at hentry
      exact hentry
  refine { h with
    workers_le := ?_, launching_le := ?_, clients := ?_, lost := ?_, capacity := ?_, records := ?_,
    calls := ?_, phase := ?_ }
  . exact Nat.le_trans hsize h.workers_le
  . exact Nat.le_trans (Nat.add_le_add_right hsize _) h.launching_le
  . intro other entry hentry
    exact h.clients other entry (hlookup other entry hentry)
  . unfold WorkerPool.removeWorker
    dsimp only
    rw [displaced_eq_nil hgone, h.lost, List.append_nil]
  . exact Nat.le_trans (Nat.add_le_add_right hsize _) h.capacity
  . intro other entry hentry
    exact h.records other entry (hlookup other entry hentry)
  . intro call hcall
    have hsound := h.calls call hcall
    refine ⟨?_, hsound.notRunning, ?_⟩
    . intro other worker hfound entry hentry
      exact hsound.found other worker hfound entry (hlookup other entry hentry)
    . intro other hother
      have hnone := hsound.reserved other hother
      cases hentry : (s.workers.erase profileId).lookup other with
      | none => exact hentry
      | some entry =>
        rw [hlookup other entry hentry] at hnone
        contradiction
  . intro sweep hsweep
    have hsound := h.phase sweep hsweep
    refine ⟨hsound.removal, ?_, hsound.next⟩
    intro worker hmem
    refine ⟨(hsound.stopped worker hmem).1, ?_⟩
    intro entry hentry
    exact (hsound.stopped worker hmem).2 entry (hlookup _ entry hentry)

/--
Workers die, or are stopped.
-/
theorem Sound.withGone (h : s.Sound) (worker : Worker)
    : ({ s with gone := worker :: s.gone } : WorkerPool).Sound := by
  refine { h with calls := ?_, phase := ?_ }
  . intro call hcall
    have hsound := h.calls call hcall
    refine ⟨hsound.found, ?_, hsound.reserved⟩
    intro other hother
    exact List.mem_cons_of_mem _ (hsound.notRunning other hother)
  . intro sweep hsweep
    have hsound := h.phase sweep hsweep
    refine ⟨?_, hsound.stopped, hsound.next⟩
    intro profileId other hremoval
    exact List.mem_cons_of_mem _ (hsound.removal profileId other hremoval)

/-! The sweep -/

/--
The sweep goes on, or another one begins.
-/
theorem Sound.withSweep (h : s.Sound) {sweep : Option Sweep}
    (hphase : ∀ sweep', sweep = some sweep' → s.PhaseSound sweep'.phase)
    (hstopped : ∀ sweep', sweep = some sweep' → ∀ worker ∈ sweep'.phase.stopped, s.unreleased worker = 0)
    : ({ s with sweep } : WorkerPool).Sound := by
  refine { h with stopped := hstopped, calls := ?_, phase := ?_ }
  . intro call hcall
    have hsound := h.calls call hcall
    exact ⟨hsound.found, hsound.notRunning, hsound.reserved⟩
  . intro sweep' hsweep
    have hsound := hphase sweep' hsweep
    exact ⟨hsound.removal, hsound.stopped, hsound.next⟩

theorem phaseSound_of_none {phase : SweepPhase} (hremoval : phase.removal = none)
    (hstopped : phase.stopped = none) (hnext : phase.next = none)
    : s.PhaseSound phase where
  removal _ _ h := by
    rw [hremoval] at h
    contradiction
  stopped _ h := by
    rw [hstopped] at h
    contradiction
  next _ h := by
    rw [hnext] at h
    contradiction

theorem Sound.setPhase (h : s.Sound) (sweep : Sweep) {phase : SweepPhase}
    (hremoval : ∀ profileId worker, phase.removal = some (profileId, worker) → worker ∈ s.gone)
    (hstopped : phase.stopped = none) (hnext : phase.next = none)
    : (s.setPhase sweep phase).Sound := by
  apply h.withSweep
  . intro sweep' heq
    injection heq with heq
    rw [← heq]
    refine ⟨hremoval, ?_, ?_⟩
    . intro worker hworker
      dsimp only at hworker
      rw [hstopped] at hworker
      contradiction
    . intro next hmem
      dsimp only at hmem
      rw [hnext] at hmem
      contradiction
  . intro sweep' heq worker hworker
    injection heq with heq
    rw [← heq] at hworker
    dsimp only at hworker
    rw [hstopped] at hworker
    contradiction

/--
A sweep ends.
-/
theorem Sound.withoutSweep (h : s.Sound) : ({ s with sweep := none } : WorkerPool).Sound := by
  apply h.withSweep
  . intro sweep heq
    contradiction
  . intro sweep heq
    contradiction

/-! Sections of calls -/

theorem callSound_of_none {call : AcquireClient} (hfound : call.found = none)
    (hnotRunning : call.notRunning = none) (hreservation : call.reservation = none)
    : s.CallSound call where
  found _ _ h := by
    rw [hfound] at h
    contradiction
  notRunning _ h := by
    rw [hnotRunning] at h
    contradiction
  reserved _ h := by
    rw [hreservation] at h
    contradiction

/--
A call that launches nothing goes on, with its lock or without.
-/
theorem Sound.moveCall (h : s.Sound) {index : Nat} {old new : AcquireClient}
    (hold : s.calls[index]? = some old)
    (hlock : ∀ profileId, new.lock = some profileId → old.lock = some profileId)
    (hcall : s.CallSound new) (hweight : old.reserving + old.lingering = 0)
    (hweight' : new.reserving + new.lingering = 0)
    : (s.setCall index new).Sound := by
  have hlaunching : s.launching + (old.reserving + old.lingering)
      = s.launching + (new.reserving + new.lingering) := by
    rw [hweight, hweight']
  apply h.setCall hold _ hcall hlaunching
  . left
    omega
  . intro profileId hprofile
    exact .inl (hlock profileId hprofile)

/--
A call ends.
-/
theorem Sound.endCall (h : s.Sound) {index : Nat} {old : AcquireClient}
    (hold : s.calls[index]? = some old) (hweight : old.reserving + old.lingering = 0)
    : (s.setCall index .done).Sound := by
  apply h.moveCall hold _ (callSound_of_none rfl rfl rfl) hweight rfl
  intro profileId hlock
  contradiction

/--
A call ends that held a launch reservation.
-/
theorem Sound.dropReservation (h : s.Sound) {index : Nat} {old : AcquireClient}
    (hold : s.calls[index]? = some old) (hweight : old.reserving + old.lingering = 1)
    : (s.dropReservation index).Sound := by
  have hreserving := List.weigh_set (w := AcquireClient.reserving) hold .done
  have hlingering := List.weigh_set (w := AcquireClient.lingering) hold .done
  have heq := h.launching_eq
  unfold reserving inserted at heq
  have hlaunching : s.launching - 1 + (old.reserving + old.lingering)
      = s.launching + (AcquireClient.reserving .done + AcquireClient.lingering .done) := by
    have hzero : AcquireClient.reserving .done = 0 := rfl
    have hzero' : AcquireClient.lingering .done = 0 := rfl
    omega
  apply h.setCall hold _ (callSound_of_none rfl rfl rfl) hlaunching
  . left
    exact Nat.zero_le _
  . intro profileId hlock
    contradiction

theorem Sound.choose (h : s.Sound) {index : Nat} {profileId : String}
    (hold : s.calls[index]? = some (.choosing profileId))
    : (s.choose index profileId).Sound := by
  unfold WorkerPool.choose
  split
  . next record hrecord =>
    split
    . exact h.moveCall hold (fun _ hlock => hlock) (callSound_of_none rfl rfl rfl) rfl rfl
    . have hcall : s.CallSound (.asking profileId record.worker) := by
        refine ⟨?_, ?_, ?_⟩
        . intro other worker hfound entry hentry
          injection hfound with hfound
          injection hfound with hprofile hworker
          rw [← hprofile, hrecord] at hentry
          injection hentry with hentry
          rw [← hentry, hworker]
        . intro worker hmem
          contradiction
        . intro other hmem
          contradiction
      exact h.moveCall hold (fun _ hlock => hlock) hcall rfl rfl
  . next hnone =>
    split
    . next hcapacity =>
      have hcall : s.CallSound (.launching profileId) := by
        refine ⟨?_, ?_, ?_⟩
        . intro other worker hfound
          contradiction
        . intro worker hmem
          contradiction
        . intro other hmem
          injection hmem with hmem
          rw [← hmem]
          exact hnone
      apply h.setCall hold _ hcall rfl (.inr hcapacity)
      intro other hlock
      exact .inl hlock
    . exact h.endCall hold rfl

theorem holding_mk (worker : Worker) (profileId : String) (other : Worker)
    : WorkerClientSession.holding other ⟨profileId, worker, false⟩ = if worker = other then 1 else 0 := by
  unfold WorkerClientSession.holding
  simp

theorem Sound.connect (h : s.Sound) {index : Nat} {profileId : String} {worker : Worker}
    (hold : s.calls[index]? = some (.connecting profileId worker))
    : (s.connect index profileId worker).Sound := by
  have hlooping : (s.setCall index (.looping profileId)).Sound :=
    h.moveCall hold (fun _ hlock => hlock) (callSound_of_none rfl rfl rfl) rfl rfl
  unfold WorkerPool.connect
  split
  . next record hrecord =>
    split
    . exact hlooping
    . next hgoes =>
      rw [Bool.or_eq_true, not_or, bne_iff_ne, not_not] at hgoes
      have hrecords := h.records profileId record hrecord
      have hput : ({ s.putRecord profileId { record with
            clients := record.clients + 1, knownBusy := true, activityFailures := 0,
            lastUsed := s.usageCounter } with
          usageCounter := s.usageCounter + 1
          sessions := s.sessions ++ [WorkerClientSession.mk profileId worker false] } : WorkerPool).Sound := by
        have hworker : ({ record with
            clients := record.clients + 1, knownBusy := true, activityFailures := 0,
            lastUsed := s.usageCounter } : WorkerRecord).worker = record.worker := rfl
        apply h.putRecord hrecord hworker
        . rw [List.weigh_append, List.weigh_cons, List.weigh_nil, holding_mk, hgoes.2, if_pos rfl]
          exact congrArg (· + 1) (hgoes.2 ▸ h.clients profileId record hrecord)
        . intro other hother
          rw [List.weigh_append, List.weigh_cons, List.weigh_nil, holding_mk, if_neg]
          . rfl
          . intro heq
            exact hother (heq.symm.trans hgoes.2.symm)
        . intro session hsession
          rw [List.mem_append, List.mem_singleton] at hsession
          rcases hsession with hsession | rfl
          . exact h.sessionWorkers session hsession
          . rw [← hgoes.2]
            exact hrecords
        . intro sweep hsweep hstopped
          have hretiring := ((h.phase sweep hsweep).stopped record.worker hstopped).2 record
            (by rw [hrecords.1]; exact hrecord) rfl
          exact absurd hretiring hgoes.1
      exact hput.endCall hold rfl
  . exact hlooping

/--
A worker enters the pool under a profile that has none.
-/
theorem Sound.insertRecord (h : s.Sound) {profileId : String} {record : WorkerRecord}
    (hnone : s.workers.lookup profileId = none) (hroom : s.workers.size + s.reserving < s.maxWorkers)
    (hfree : ∀ call ∈ s.calls, call.reservation ≠ some profileId
      ∧ ∀ worker, call.found ≠ some (profileId, worker))
    (hworker : record.worker = { profileId, launch := s.launches }) (hclients : record.clients = 1)
    (usageCounter : Nat)
    : ({ s.putRecord profileId record with
        usageCounter, launches := s.launches + 1
        sessions := s.sessions ++ [WorkerClientSession.mk profileId record.worker false] }
          : WorkerPool).Sound := by
  have hsize := Table.size_insert_of_none hnone record
  have hlookup : ∀ other entry, (s.workers.insert profileId record).lookup other = some entry →
      other = profileId ∧ entry = record ∨ s.workers.lookup other = some entry := by
    intro other entry hentry
    by_cases hother : other = profileId
    . rw [hother, AList.lookup_insert] at hentry
      injection hentry with hentry
      exact .inl ⟨hother, hentry.symm⟩
    . rw [AList.lookup_insert_ne hother] at hentry
      exact .inr hentry
  have hfresh : s.unreleased record.worker = 0 := by
    unfold unreleased
    rw [List.weigh_eq_zero]
    intro session hsession
    unfold WorkerClientSession.holding
    rw [if_neg]
    intro hholds
    rw [Bool.and_eq_true, decide_eq_true_eq] at hholds
    have hlt := (h.sessionWorkers session hsession).2
    rw [hholds.2, hworker] at hlt
    exact Nat.lt_irrefl _ hlt
  have hunreleased : ∀ worker, worker.launch < s.launches →
      (s.sessions ++ [WorkerClientSession.mk profileId record.worker false]).weigh
        (WorkerClientSession.holding worker) = s.unreleased worker := by
    intro worker hlt
    rw [List.weigh_append, List.weigh_cons, List.weigh_nil, holding_mk, if_neg]
    . rfl
    . intro heq
      rw [← heq, hworker] at hlt
      exact Nat.lt_irrefl _ hlt
  have hlaunching := h.launching_eq
  refine { h with
    workers_le := ?_, launching_le := ?_, clients := ?_, stopped := ?_, capacity := ?_,
    records := ?_, sessionWorkers := ?_, calls := ?_, phase := ?_ }
  . dsimp only [WorkerPool.putRecord]
    omega
  . dsimp only [WorkerPool.putRecord, inserted]
    unfold inserted at hlaunching
    omega
  . intro other entry hentry
    rcases hlookup other entry hentry with ⟨-, rfl⟩ | hold
    . unfold unreleased
      dsimp only
      rw [List.weigh_append, List.weigh_cons, List.weigh_nil, holding_mk, if_pos rfl, hclients]
      unfold unreleased at hfresh
      rw [hfresh]
    . rw [h.clients other entry hold]
      exact (hunreleased entry.worker (h.records other entry hold).2).symm
  . intro sweep hsweep worker hmem
    rw [← h.stopped sweep hsweep worker hmem]
    exact hunreleased worker ((h.phase sweep hsweep).stopped worker hmem).1
  . dsimp only [WorkerPool.putRecord, reserving]
    unfold reserving at hroom
    omega
  . intro other entry hentry
    rcases hlookup other entry hentry with ⟨hother, rfl⟩ | hold
    . rw [hother, hworker]
      exact ⟨rfl, Nat.lt_succ_self _⟩
    . have hentry := h.records other entry hold
      exact ⟨hentry.1, Nat.lt_succ_of_lt hentry.2⟩
  . intro session hsession
    rw [List.mem_append, List.mem_singleton] at hsession
    rcases hsession with hsession | rfl
    . have hworkers := h.sessionWorkers session hsession
      exact ⟨hworkers.1, Nat.lt_succ_of_lt hworkers.2⟩
    . rw [hworker]
      exact ⟨rfl, Nat.lt_succ_self _⟩
  . intro call hcall
    have hsound := h.calls call hcall
    have hcallFree := hfree call hcall
    refine ⟨?_, hsound.notRunning, ?_⟩
    . intro other worker hfound entry hentry
      rcases hlookup other entry hentry with ⟨hother, -⟩ | hold
      . rw [hother] at hfound
        exact absurd hfound (hcallFree.2 worker)
      . exact hsound.found other worker hfound entry hold
    . intro other hother
      dsimp only [WorkerPool.putRecord]
      rw [AList.lookup_insert_ne]
      . exact hsound.reserved other hother
      . intro heq
        rw [heq] at hother
        exact hcallFree.1 hother
  . intro sweep hsweep
    have hsound := h.phase sweep hsweep
    refine ⟨hsound.removal, ?_, hsound.next⟩
    intro worker hmem
    have hstopped := hsound.stopped worker hmem
    refine ⟨Nat.lt_succ_of_lt hstopped.1, ?_⟩
    intro entry hentry hentryWorker
    rcases hlookup worker.profileId entry hentry with ⟨-, rfl⟩ | hold
    . have hlt := hstopped.1
      rw [← hentryWorker, hworker] at hlt
      exact absurd hlt (Nat.lt_irrefl _)
    . exact hstopped.2 entry hold hentryWorker

/--
A launched worker takes the place of its reservation.
-/
theorem Sound.insertWorker (h : s.Sound) {index : Nat} {profileId : String}
    (hold : s.calls[index]? = some (.launched profileId true))
    : (s.insertWorker index profileId).Sound := by
  have hnone := (h.calls _ (List.mem_of_getElem? hold)).reserved profileId rfl
  have hset : (s.setCall index (.inserted profileId)).Sound := by
    have hlaunching : s.launching
          + (AcquireClient.reserving (.launched profileId true)
            + AcquireClient.lingering (.launched profileId true))
        = s.launching
          + (AcquireClient.reserving (.inserted profileId) + AcquireClient.lingering (.inserted profileId)) :=
      rfl
    apply h.setCall hold _ (callSound_of_none rfl rfl rfl) hlaunching
    . left
      exact Nat.zero_le _
    . intro other hlock
      exact .inl hlock
  have hroom : s.workers.size + (s.setCall index (.inserted profileId)).reserving < s.maxWorkers := by
    have hcapacity := h.capacity
    have hreserving := List.weigh_set (w := AcquireClient.reserving) hold (.inserted profileId)
    have hone : AcquireClient.reserving (.launched profileId true) = 1 := rfl
    have hzero : AcquireClient.reserving (.inserted profileId) = 0 := rfl
    unfold reserving at hcapacity
    unfold reserving WorkerPool.setCall
    dsimp only
    omega
  have hfree : ∀ call ∈ (s.setCall index (.inserted profileId)).calls,
      call.reservation ≠ some profileId ∧ ∀ worker, call.found ≠ some (profileId, worker) := by
    intro call hcall
    rw [List.mem_iff_getElem?] at hcall
    rcases hcall with ⟨i, hi⟩
    have hi' := hi
    unfold WorkerPool.setCall at hi'
    rw [List.getElem?_set] at hi'
    have hsame : call.lock = some profileId → call = .inserted profileId := by
      intro hlock
      split at hi'
      . split at hi'
        . injection hi' with hi'
          exact hi'.symm
        . contradiction
      . next hne => exact absurd (h.locks index i _ call profileId hold hi' rfl hlock) hne
    constructor
    . intro hreservation
      rw [hsame (lock_of_reservation hreservation)] at hreservation
      contradiction
    . intro worker hfound
      rw [hsame (lock_of_found hfound)] at hfound
      contradiction
  have hinsert := @Sound.insertRecord _ hset profileId
    { worker := { profileId, launch := s.launches }
      clients := 1
      lastIdleAt := s.now
      lastUsed := s.usageCounter
      knownBusy := true
      activityFailures := 0
      retiring := false }
    hnone hroom hfree rfl rfl (s.usageCounter + 1)
  have hdisplaced : s.displaced profileId = [] := by
    apply displaced_eq_nil
    intro record hrecord
    rw [hnone] at hrecord
    contradiction
  unfold WorkerPool.insertWorker
  rw [hdisplaced, List.append_nil]
  exact hinsert

theorem Sound.proceed (h : s.Sound) {index : Nat} (hstep : s.proceed index = some s') : s'.Sound := by
  unfold WorkerPool.proceed at hstep
  split at hstep
  . next profileId hold =>
    split at hstep
    . contradiction
    . next hfree =>
      injection hstep with hstep
      rw [← hstep]
      have hlaunching : s.launching
            + (AcquireClient.reserving (.locking profileId) + AcquireClient.lingering (.locking profileId))
          = s.launching
            + (AcquireClient.reserving (.looping profileId) + AcquireClient.lingering (.looping profileId)) :=
        rfl
      apply h.setCall hold _ (callSound_of_none rfl rfl rfl) hlaunching
      . left
        exact Nat.zero_le _
      . intro other hlock
        right
        intro call hcall hcallLock
        injection hlock with hlock
        apply hfree
        rw [List.any_eq_true]
        refine ⟨call, hcall, ?_⟩
        rw [hlock, hcallLock]
        exact beq_self_eq_true _
  . next profileId hold =>
    split at hstep
    . injection hstep with hstep
      rw [← hstep]
      exact h.moveCall hold (fun _ hlock => hlock) (callSound_of_none rfl rfl rfl) rfl rfl
    . injection hstep with hstep
      rw [← hstep]
      exact h.moveCall hold (fun _ hlock => hlock) (callSound_of_none rfl rfl rfl) rfl rfl
  . next profileId hold =>
    split at hstep
    . injection hstep with hstep
      rw [← hstep]
      have hsweeping : (s.setCall index (.sweeping profileId)).Sound :=
        h.moveCall hold (fun _ hlock => hlock) (callSound_of_none rfl rfl rfl) rfl rfl
      have hcollecting : ((s.setCall index (.sweeping profileId)).setPhase
          ⟨some index, true, .collecting⟩ .collecting).Sound :=
        hsweeping.setPhase _ (fun _ _ hremoval => by contradiction) rfl rfl
      exact hcollecting
    . contradiction
  . next profileId hold =>
    injection hstep with hstep
    rw [← hstep]
    exact h.choose hold
  . next profileId worker hold =>
    have hfound := (h.calls _ (List.mem_of_getElem? hold)).found
    split at hstep
    . injection hstep with hstep
      rw [← hstep]
      have hcall : s.CallSound (.connecting profileId worker) := by
        refine ⟨hfound, ?_, ?_⟩
        . intro other hmem
          contradiction
        . intro other hmem
          contradiction
      exact h.moveCall hold (fun _ hlock => hlock) hcall rfl rfl
    . next hrunning =>
      injection hstep with hstep
      rw [← hstep]
      have hcall : s.CallSound (.forgetting profileId worker) := by
        refine ⟨hfound, ?_, ?_⟩
        . intro other hmem
          injection hmem with hmem
          unfold running at hrunning
          rw [Bool.not_eq_true', Bool.not_eq_false, List.contains_iff_mem, hmem] at hrunning
          exact hrunning
        . intro other hmem
          contradiction
      exact h.moveCall hold (fun _ hlock => hlock) hcall rfl rfl
  . next profileId worker hold =>
    injection hstep with hstep
    rw [← hstep]
    have hcall := h.calls _ (List.mem_of_getElem? hold)
    have hremoved : (s.removeWorker profileId).Sound := by
      apply h.removeWorker
      intro record hrecord
      rw [hcall.found profileId worker rfl record hrecord]
      exact hcall.notRunning worker rfl
    exact hremoved.moveCall hold (fun _ hlock => hlock) (callSound_of_none rfl rfl rfl) rfl rfl
  . next profileId worker hold =>
    injection hstep with hstep
    rw [← hstep]
    exact h.connect hold
  . next profileId hold =>
    injection hstep with hstep
    rw [← hstep]
    exact h.moveCall hold (fun _ hlock => hlock) (callSound_of_none rfl rfl rfl) rfl rfl
  . next profileId hold =>
    injection hstep with hstep
    rw [← hstep]
    exact h.insertWorker hold
  . next profileId hold =>
    injection hstep with hstep
    rw [← hstep]
    exact h.dropReservation hold rfl
  . next profileId hold =>
    injection hstep with hstep
    rw [← hstep]
    exact h.dropReservation hold rfl
  . contradiction

theorem Sound.launch (h : s.Sound) {index : Nat} {ok : Bool} (hstep : s.launch index ok = some s')
    : s'.Sound := by
  unfold WorkerPool.launch at hstep
  split at hstep
  . next profileId hold =>
    injection hstep with hstep
    rw [← hstep]
    have hreserved := (h.calls _ (List.mem_of_getElem? hold)).reserved
    have hcall : s.CallSound (.launched profileId ok) := by
      refine ⟨?_, ?_, hreserved⟩
      . intro other worker hfound
        contradiction
      . intro worker hmem
        contradiction
    apply h.setCall hold _ hcall rfl
    . left
      exact Nat.le_refl _
    . intro other hlock
      exact .inl hlock
  . contradiction

theorem Sound.cancel (h : s.Sound) {index : Nat} (hstep : s.cancel index = some s') : s'.Sound := by
  unfold WorkerPool.cancel at hstep
  split at hstep
  . contradiction
  . contradiction
  . contradiction
  . next hold =>
    injection hstep with hstep
    rw [← hstep]
    exact h.dropReservation hold rfl
  . next hold =>
    injection hstep with hstep
    rw [← hstep]
    exact h.dropReservation hold rfl
  . next hold =>
    injection hstep with hstep
    rw [← hstep]
    exact (h.endCall hold rfl).withoutSweep
  . next old hinserted _ hlaunching hlaunched _ hold =>
    injection hstep with hstep
    rw [← hstep]
    apply h.endCall hold
    cases old with
    | launching profileId => exact absurd rfl (hlaunching profileId)
    | launched profileId ok => exact absurd rfl (hlaunched profileId ok)
    | inserted profileId => exact absurd rfl (hinserted profileId)
    | _ => rfl

/-! Releases -/

/--
A released session holds its worker no more.
-/
theorem unreleased_set {index : Nat} {session : WorkerClientSession}
    (hold : s.sessions[index]? = some session) (hreleased : session.released = false) (worker : Worker)
    : (s.sessions.set index { session with released := true }).weigh (WorkerClientSession.holding worker)
        + (if session.worker = worker then 1 else 0) = s.unreleased worker := by
  have hset := List.weigh_set (w := WorkerClientSession.holding worker) hold
    { session with released := true }
  have hzero : WorkerClientSession.holding worker { session with released := true } = 0 := rfl
  have hone : WorkerClientSession.holding worker session = if session.worker = worker then 1 else 0 := by
    unfold WorkerClientSession.holding
    rw [hreleased]
    simp
  unfold unreleased
  omega

theorem Sound.release (h : s.Sound) {index : Nat} (hmeets : s.meetsItsWorker (.release index))
    (hstep : s.release index = some s')
    : s'.Sound := by
  unfold WorkerPool.release at hstep
  split at hstep
  . next session hold =>
    split at hstep
    . contradiction
    . next hreleased =>
      rw [Bool.not_eq_true] at hreleased
      injection hstep with hstep
      rw [← hstep]
      have hset := unreleased_set hold hreleased
      have hsessionWorker := h.sessionWorkers session (List.mem_of_getElem? hold)
      have hsessions : ∀ other ∈ s.sessions.set index { session with released := true },
          other.worker.profileId = other.profileId ∧ other.worker.launch < s.launches := by
        intro other hmem
        rcases List.mem_or_eq_of_mem_set hmem with hmem | rfl
        . exact h.sessionWorkers other hmem
        . exact hsessionWorker
      unfold meetsItsWorker at hmeets
      dsimp only at hmeets
      rw [hold, Option.all_some] at hmeets
      unfold releaseClient
      cases hrecord : s.workers.lookup session.profileId with
      | some record =>
        rw [hrecord, Option.all_some, decide_eq_true_eq] at hmeets
        have hclients := h.clients session.profileId record hrecord
        have hset' := hset record.worker
        rw [if_pos hmeets.symm] at hset'
        have hworker : ({ record with
            clients := record.clients - 1
            lastIdleAt := if record.clients - 1 = 0 then s.now else record.lastIdleAt
            lastUsed := s.usageCounter } : WorkerRecord).worker = record.worker := rfl
        apply h.putRecord hrecord hworker
        . dsimp only
          omega
        . intro worker hother
          have hsetOther := hset worker
          rw [if_neg (fun heq => hother (heq.symm.trans hmeets.symm))] at hsetOther
          exact hsetOther
        . exact hsessions
        . intro sweep hsweep hstopped
          have hzero := h.stopped sweep hsweep record.worker hstopped
          omega
      | none =>
        refine { h with clients := ?_, stopped := ?_, sessionWorkers := hsessions, calls := ?_, phase := ?_ }
        . intro profileId record hother
          rw [h.clients profileId record hother]
          have hsetOther := hset record.worker
          rw [if_neg] at hsetOther
          . exact hsetOther.symm
          . intro heq
            have hprofile := (h.records profileId record hother).1
            rw [← heq, hsessionWorker.1] at hprofile
            rw [← hprofile, hrecord] at hother
            contradiction
        . intro sweep hsweep worker hmem
          have hzero := h.stopped sweep hsweep worker hmem
          have hsetWorker := hset worker
          unfold unreleased
          dsimp only
          omega
        . intro call hcall
          have hsound := h.calls call hcall
          exact ⟨hsound.found, hsound.notRunning, hsound.reserved⟩
        . intro sweep hsweep
          have hsound := h.phase sweep hsweep
          exact ⟨hsound.removal, hsound.stopped, hsound.next⟩
  . contradiction

/-! Sections of the sweep -/

theorem Sound.finishSweep (h : s.Sound) (sweep : Sweep) (ok : Bool) : (s.finishSweep sweep ok).Sound := by
  have hwithout := h.withoutSweep
  unfold WorkerPool.finishSweep
  dsimp only
  split
  . exact hwithout
  . next index _ =>
    split
    . next profileId hold =>
      apply hwithout.moveCall hold
      . intro other hlock
        split at hlock
        . exact hlock
        . contradiction
      . split
        . exact callSound_of_none rfl rfl rfl
        . exact callSound_of_none rfl rfl rfl
      . rfl
      . split <;> rfl
    . exact hwithout

/--
A record that is not being stopped changes in what does not count.
-/
theorem Sound.touchRecord (h : s.Sound) {profileId : String} {record record' : WorkerRecord}
    (hrecord : s.workers.lookup profileId = some record) (hworker : record'.worker = record.worker)
    (hclients : record'.clients = record.clients)
    (hstopped : ∀ sweep, s.sweep = some sweep → sweep.phase.stopped ≠ some record.worker)
    : (s.putRecord profileId record').Sound := by
  apply h.putRecord hrecord hworker
  . rw [hclients]
    exact h.clients profileId record hrecord
  . intro worker _
    rfl
  . exact h.sessionWorkers
  . intro sweep hsweep hstop
    exact absurd hstop (hstopped sweep hsweep)

/--
The next one to be stopped has no clients, and is marked.
-/
theorem Sound.retire (h : s.Sound) {sweep : Sweep} (hsweep : s.sweep = some sweep)
    (hnone : sweep.phase.stopped = none) {profileId : String} {record : WorkerRecord}
    (hrecord : s.workers.lookup profileId = some record) (hclients : record.clients = 0)
    {next : SweepPhase} (hnext : next.removal = none ∧ next.stopped = none ∧ next.next = none)
    : (s.retire sweep profileId record next).Sound := by
  have hprofile := h.records profileId record hrecord
  have hworker : ({ record with retiring := true } : WorkerRecord).worker = record.worker := rfl
  have hput : (s.putRecord profileId { record with retiring := true }).Sound := by
    apply h.touchRecord hrecord hworker rfl
    intro sweep' hsweep' hstopped
    rw [hsweep] at hsweep'
    injection hsweep' with hsweep'
    rw [← hsweep', hnone] at hstopped
    contradiction
  apply hput.withSweep
  . intro sweep' heq
    injection heq with heq
    rw [← heq]
    refine ⟨?_, ?_, ?_⟩
    . intro other worker hremoval
      contradiction
    . intro worker hmem
      injection hmem with hmem
      rw [← hmem]
      refine ⟨hprofile.2, ?_⟩
      intro entry hentry _
      rw [hprofile.1] at hentry
      dsimp only [WorkerPool.putRecord] at hentry
      rw [AList.lookup_insert] at hentry
      injection hentry with hentry
      rw [← hentry]
    . intro other hmem
      injection hmem with hmem
      rw [← hmem]
      exact hnext
  . intro sweep' heq worker hmem
    injection heq with heq
    rw [← heq] at hmem
    injection hmem with hmem
    rw [← hmem]
    exact (h.clients profileId record hrecord).symm.trans hclients

theorem Sound.retireUnreachable (h : s.Sound) {sweep : Sweep} (hsweep : s.sweep = some sweep)
    (hnone : sweep.phase.stopped = none) (profileId : String) (worker : Worker)
    (unreachable : List (String × Worker))
    : (s.retireUnreachable sweep profileId worker unreachable).Sound := by
  have hskip : (s.setPhase sweep (.retiring unreachable)).Sound :=
    h.setPhase sweep (fun _ _ hremoval => by contradiction) rfl rfl
  unfold WorkerPool.retireUnreachable
  split
  . next record hrecord =>
    split
    . exact hskip
    . next hgoes =>
      simp only [Bool.or_eq_true, decide_eq_true_eq, not_or] at hgoes
      exact h.retire hsweep hnone hrecord (by omega) ⟨rfl, rfl, rfl⟩
  . exact hskip

theorem Sound.evictIdle (h : s.Sound) {sweep : Sweep} (hsweep : s.sweep = some sweep)
    (hnone : sweep.phase.stopped = none) (now evictCount evicted : Nat) (profileId : String)
    (idleSince : Nat) (idle : List (String × Nat))
    : (s.evictIdle sweep now evictCount evicted profileId idleSince idle).Sound := by
  have hskip : (s.setPhase sweep (.evicting now evictCount evicted idle)).Sound :=
    h.setPhase sweep (fun _ _ hremoval => by contradiction) rfl rfl
  unfold WorkerPool.evictIdle
  split
  . exact h.finishSweep sweep true
  . split
    . exact hskip
    . split
      . next record hrecord =>
        split
        . exact hskip
        . next hgoes =>
          simp only [Bool.or_eq_true, decide_eq_true_eq, not_or] at hgoes
          exact h.retire hsweep hnone hrecord (by omega) ⟨rfl, rfl, rfl⟩
      . exact hskip

/--
The sweep reads the table and asks workers, but changes no record.
-/
theorem Sound.advance (h : s.Sound) (sweep : Sweep) {phase : SweepPhase} (hremoval : phase.removal = none)
    (hstopped : phase.stopped = none) (hnext : phase.next = none)
    : (s.setPhase sweep phase).Sound := by
  apply h.setPhase sweep _ hstopped hnext
  intro profileId worker hmem
  rw [hremoval] at hmem
  contradiction

theorem Sound.note (h : s.Sound) {sweep : Sweep} (hsweep : s.sweep = some sweep)
    (hnone : sweep.phase.stopped = none) (profileId : String) (activity : Option Bool)
    : (s.note profileId activity).Sound := by
  unfold WorkerPool.note
  split
  . next record hrecord =>
    split
    . exact h
    . have hworker : (s.noteActivity record activity).worker = record.worker := by
        cases activity with
        | none => rfl
        | some canRetire => cases canRetire <;> rfl
      have hclients : (s.noteActivity record activity).clients = record.clients := by
        cases activity with
        | none => rfl
        | some canRetire => cases canRetire <;> rfl
      apply h.touchRecord hrecord hworker hclients
      intro sweep' hsweep' hstopped
      rw [hsweep] at hsweep'
      injection hsweep' with hsweep'
      rw [← hsweep', hnone] at hstopped
      contradiction
  . exact h

theorem Sound.keep (h : s.Sound) {sweep : Sweep} (hsweep : s.sweep = some sweep)
    (hnone : sweep.phase.stopped = none) (profileId : String)
    : (s.keep profileId).Sound := by
  unfold WorkerPool.keep
  split
  . next record hrecord =>
    have hworker : ({ record with retiring := false } : WorkerRecord).worker = record.worker := rfl
    apply h.touchRecord hrecord hworker rfl
    intro sweep' hsweep' hstopped
    rw [hsweep] at hsweep'
    injection hsweep' with hsweep'
    rw [← hsweep', hnone] at hstopped
    contradiction
  . exact h

/--
The sweep removes a record whose worker has answered that it is not running, or was stopped.
-/
theorem Sound.sweepRemoves (h : s.Sound) {sweep : Sweep} (hsweep : s.sweep = some sweep)
    {profileId : String} {worker : Worker} (hremoval : sweep.phase.removal = some (profileId, worker))
    {order : List String} (hmeets : s.meetsItsWorker (.sweepSection order))
    : (s.removeWorker profileId).Sound := by
  apply h.removeWorker
  intro record hrecord
  unfold meetsItsWorker at hmeets
  dsimp only at hmeets
  rw [hsweep, Option.bind_some, hremoval, Option.all_some, hrecord, Option.all_some, Bool.or_eq_true,
    decide_eq_true_eq, List.contains_iff_mem] at hmeets
  rcases hmeets with heq | hgone
  . rw [heq]
    exact (h.phase sweep hsweep).removal profileId worker hremoval
  . exact hgone

theorem Sound.sweepPhase (h : s.Sound) {sweep : Sweep} (hsweep : s.sweep = some sweep)
    {order : List String} (hmeets : s.meetsItsWorker (.sweepSection order))
    (hstep : s.sweepPhase sweep order sweep.phase = some s')
    : s'.Sound := by
  have hnone : ∀ {phase : SweepPhase}, sweep.phase = phase → phase.stopped = none →
      sweep.phase.stopped = none := by
    intro phase heq hphase
    rw [heq]
    exact hphase
  cases hphase : sweep.phase with
  | collecting =>
    rw [hphase] at hstep
    injection hstep with hstep
    rw [← hstep]
    exact h.advance sweep rfl rfl rfl
  | checking candidates =>
    rw [hphase] at hstep
    cases candidates with
    | nil =>
      injection hstep with hstep
      rw [← hstep]
      exact h.advance sweep rfl rfl rfl
    | cons candidate candidates =>
      rcases candidate with ⟨profileId, worker⟩
      change (if s.running worker then some (s.setPhase sweep (.probing profileId candidates))
        else some (s.setPhase sweep (.forgetting profileId worker candidates))) = some s' at hstep
      split at hstep
      . injection hstep with hstep
        rw [← hstep]
        exact h.advance sweep rfl rfl rfl
      . next hrunning =>
        injection hstep with hstep
        rw [← hstep]
        apply h.setPhase sweep _ rfl rfl
        intro other worker' hmem
        injection hmem with hmem
        injection hmem with _ hworker
        unfold running at hrunning
        rw [Bool.not_eq_true', Bool.not_eq_false, List.contains_iff_mem, hworker] at hrunning
        exact hrunning
  | forgetting profileId worker candidates =>
    rw [hphase] at hstep
    injection hstep with hstep
    rw [← hstep]
    have hremoval : sweep.phase.removal = some (profileId, worker) := by rw [hphase]; rfl
    exact (h.sweepRemoves hsweep hremoval hmeets).advance sweep rfl rfl rfl
  | probing profileId candidates =>
    rw [hphase] at hstep
    contradiction
  | noting profileId activity candidates =>
    rw [hphase] at hstep
    injection hstep with hstep
    rw [← hstep]
    exact (h.note hsweep (hnone hphase rfl) profileId activity).advance sweep rfl rfl rfl
  | searching =>
    rw [hphase] at hstep
    injection hstep with hstep
    rw [← hstep]
    exact h.advance sweep rfl rfl rfl
  | retiring unreachable =>
    rw [hphase] at hstep
    cases unreachable with
    | nil =>
      injection hstep with hstep
      rw [← hstep]
      exact h.advance sweep rfl rfl rfl
    | cons entry unreachable =>
      rcases entry with ⟨profileId, worker⟩
      injection hstep with hstep
      rw [← hstep]
      exact h.retireUnreachable hsweep (hnone hphase rfl) profileId worker unreachable
  | listing =>
    rw [hphase] at hstep
    injection hstep with hstep
    rw [← hstep]
    exact h.advance sweep rfl rfl rfl
  | counting now idle =>
    rw [hphase] at hstep
    injection hstep with hstep
    rw [← hstep]
    exact h.advance sweep rfl rfl rfl
  | evicting now evictCount evicted idle =>
    rw [hphase] at hstep
    cases idle with
    | nil =>
      injection hstep with hstep
      rw [← hstep]
      exact h.finishSweep sweep true
    | cons entry idle =>
      rcases entry with ⟨profileId, idleSince⟩
      injection hstep with hstep
      rw [← hstep]
      exact h.evictIdle hsweep (hnone hphase rfl) now evictCount evicted profileId idleSince idle
  | stopping profileId worker next =>
    rw [hphase] at hstep
    contradiction
  | keeping profileId =>
    rw [hphase] at hstep
    injection hstep with hstep
    rw [← hstep]
    exact (h.keep hsweep (hnone hphase rfl) profileId).finishSweep sweep false
  | removing profileId worker next =>
    rw [hphase] at hstep
    injection hstep with hstep
    rw [← hstep]
    have hremoval : sweep.phase.removal = some (profileId, worker) := by rw [hphase]; rfl
    have hnext := (h.phase sweep hsweep).next next (by rw [hphase]; rfl)
    exact (h.sweepRemoves hsweep hremoval hmeets).advance sweep hnext.1 hnext.2.1 hnext.2.2

theorem Sound.sweepActivity (h : s.Sound) {activity : Option Bool}
    (hstep : s.sweepActivity activity = some s')
    : s'.Sound := by
  unfold WorkerPool.sweepActivity at hstep
  split at hstep
  . next sweep _ =>
    split at hstep
    . injection hstep with hstep
      rw [← hstep]
      exact h.advance sweep rfl rfl rfl
    . contradiction
  . contradiction

theorem Sound.sweepStop (h : s.Sound) {ok : Bool} (hstep : s.sweepStop ok = some s') : s'.Sound := by
  unfold WorkerPool.sweepStop at hstep
  split at hstep
  . next sweep hsweep =>
    split at hstep
    . next profileId worker next hphase =>
      split at hstep
      . injection hstep with hstep
        rw [← hstep]
        have hsound := (h.withGone worker).phase sweep hsweep
        have hstopped := h.stopped sweep hsweep
        rw [hphase] at hsound hstopped
        apply (h.withGone worker).withSweep
        . intro sweep' heq
          injection heq with heq
          rw [← heq]
          refine ⟨?_, hsound.stopped, hsound.next⟩
          intro other worker' hremoval
          injection hremoval with hremoval
          injection hremoval with _ hworker
          rw [← hworker]
          exact List.mem_cons_self
        . intro sweep' heq
          injection heq with heq
          rw [← heq]
          exact hstopped
      . injection hstep with hstep
        rw [← hstep]
        exact h.advance sweep rfl rfl rfl
    . contradiction
  . contradiction

/-! Runs -/

theorem sound_step (s : WorkerPool) (label : PoolLabel) (s' : WorkerPool) (h : s.Sound)
    (hmeets : s.meetsItsWorker label) (hstep : s.step label = some s')
    : s'.Sound := by
  cases label with
  | acquireClient profileId =>
    injection hstep with hstep
    rw [← hstep]
    exact h.addCall profileId
  | proceed index => exact h.proceed hstep
  | launch index ok => exact h.launch hstep
  | cancel index => exact h.cancel hstep
  | release index => exact h.release hmeets hstep
  | beginSweep =>
    change (if s.sweep.isNone then some (s.setPhase ⟨none, false, .collecting⟩ .collecting) else none)
      = some s' at hstep
    split at hstep
    . injection hstep with hstep
      rw [← hstep]
      exact h.advance _ rfl rfl rfl
    . contradiction
  | sweepSection order =>
    change s.sweepSection order = some s' at hstep
    unfold WorkerPool.sweepSection at hstep
    split at hstep
    . next sweep hsweep =>
      split at hstep
      . exact h.sweepPhase hsweep hmeets hstep
      . contradiction
    . contradiction
  | sweepActivity activity => exact h.sweepActivity hstep
  | sweepStop ok => exact h.sweepStop hstep
  | die worker =>
    injection hstep with hstep
    rw [← hstep]
    exact h.withGone worker
  | wait duration =>
    injection hstep with hstep
    rw [← hstep]
    exact h.withNow (s.now + duration)

/--
The first client of a profile launches its worker.
-/
def firstClient (call : Nat) : List PoolLabel :=
  [.acquireClient "a", .proceed call, .proceed call, .proceed call, .launch call true, .proceed call,
    .proceed call]

/--
The next client finds that the worker has died, and launches another one.
-/
def nextClient (call : Nat) : List PoolLabel :=
  [.acquireClient "a", .proceed call, .proceed call, .proceed call, .proceed call, .proceed call,
    .proceed call, .proceed call, .launch call true, .proceed call, .proceed call]

def usedAgain : List PoolLabel :=
  firstClient 0 ++ [.acquireClient "a", .release 0, .beginSweep, .sweepSection ["a"],
    .sweepSection ["a"], .proceed 1, .proceed 1, .proceed 1, .proceed 1, .proceed 1,
    .sweepActivity (some true), .sweepSection ["a"]]

/--
The session of a worker that has died is released after the profile has got another worker.
-/
def releasedLate : List PoolLabel :=
  firstClient 0 ++ [.die ⟨"a", 0⟩] ++ nextClient 1 ++ [.release 0]

/--
The sweep has listed a worker that dies and is replaced before the sweep asks whether it is running.
-/
def sweptLate : List PoolLabel :=
  firstClient 0 ++ [.release 0, .beginSweep, .sweepSection ["a"], .die ⟨"a", 0⟩] ++ nextClient 1
    ++ [.sweepSection ["a"], .sweepSection ["a"]]

theorem lost_of_sweptLate
    : ∃ s, exec step { maxWorkers := 1, maxIdleWorkers := 0, idleGrace := 0 } sweptLate = some s
        ∧ s.lost = [⟨"a", 1⟩] :=
  ⟨_, rfl, rfl⟩

end WorkerPool

end Desktop
