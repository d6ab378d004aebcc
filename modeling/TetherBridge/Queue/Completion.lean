import TetherBridge.Queue.Wakeup

/-!
This module contains the completion dispositions of finished runs. The event id of an accepted run
end is recorded at once, or parked until a drain records it; one invariant counts where the ids are,
another one says that parked ids are waited for.
-/

namespace Queue

open Acp Transition

/-- The event ids the holder of the actor lock has yet to record or to park. -/
def ActorOp.completions : ActorOp → List Nat
  | .drainRemember _ _ eventIds => eventIds
  | .drainRecord eventIds _ => eventIds
  | .runEndPark eventId => [eventId]
  | _ => []

namespace ThreadState

variable (s : ThreadState)

def parked : List Nat :=
  (s.runtime.getD {}).pendingCompletionEventIds

def carried : List Nat :=
  (s.actor.map (·.completions)).getD []

/--
With this runtime, no completion is parked, something still blocks the queue, or a drain is on its
way.
-/
def awaited (runtime : BridgeThreadQueueRuntime) : Bool :=
  runtime.pendingCompletionEventIds.isEmpty || runtime.runtimeHasBlockers || s.drains != 0
    || s.retries != 0

end ThreadState

/--
On an idle thread without blockers every accepted run end has exactly one disposition, `continued`
when a queued prompt was started in its place and `final` otherwise.
-/
def CompletesOnce (s : ThreadState) : Prop :=
  Thread.Quiescent s →
    ∀ runtime, s.runtime = some runtime → runtime.runtimeHasBlockers = false →
      ∀ eventId ∈ s.log.finished, ∃ recorded,
        s.log.recorded.filter (·.eventId = eventId) = [recorded]
          ∧ recorded.disposition = (if recorded.started.isSome then .continued else .final)
          ∧ ∀ id, recorded.started = some id → id ∈ s.log.accepted

/--
Whether the run end finds no steer in flight, unless a message is being edited, and leaves the
completions parked before it waited for.
-/
def BridgeThreadQueueRuntime.settlesRunEnd (s : ThreadState) (runtime : BridgeThreadQueueRuntime)
    : Bool :=
  runtime.turnStartInFlight
    || runtime.editingItemId.isSome
    || runtime.steerDispatchInFlight.isNone
      && (runtime.runEnded.shouldDispatch || s.awaited runtime.runEnded)

/--
The steps that may lose a completion: a run end with a steer in flight, and those that lift a
blocker without spawning a drain. The guard: the completions stay waited for.
-/
def leavesAwaited (s : ThreadState) (label : Label) : Bool :=
  let runtime := s.runtime.getD {}
  match label with
  | .steerSection task =>
    match s.steers[task]? with
    | some (.prepared _) => s.awaited { runtime with steerPrepareInFlight := false }
    | some (.steered dispatch (.ok _)) =>
      s.awaited { runtime with steerDispatchInFlight := none }
        || !runtime.steerDispatchInFlight.any (·.entry.id = dispatch.entry.id)
    | _ => true
  | .handleCanonicalEvent _ (.permissionResolved _ _ requestId _) =>
    s.awaited (runtime.permissionResolved requestId)
  | .handleCanonicalEvent _ (.elicitationResolved _ _ requestId _) =>
    s.awaited (runtime.elicitationResolved requestId)
  | .handleCanonicalEvent _ (.runFinished _ _ _ sourceTurnId generation _)
  | .handleCanonicalEvent _ (.runFailed _ _ _ sourceTurnId generation _) =>
    runtime.settlesRunEnd s || !runtime.acceptsRunEnd sourceTurnId generation
  | _ => true

/--
What keeps the parked completions waited for while the holder of the actor lock stands at `op`.
-/
def ThreadState.AwaitedAt (s : ThreadState) : Option ActorOp → Prop
  | some (.sendReserveDirect _) | some (.sendBeginTurn _) | some (.sendTurnStart _)
  | some (.sendAnswered _ _) | some (.sendRelease _) =>
    s.parked = [] ∨ s.drains ≠ 0 ∨ s.retries ≠ 0
  | some (.cancelForget _ _ shouldDispatch) | some (.cancelPersistFailed _ _ shouldDispatch) =>
    shouldDispatch = true ∨ (s.runtime.getD {}).runtimeHasBlockers = true
  | some (.drainMark _) | some (.drainMarkFailed _ _) | some (.drainMarked _)
  | some (.drainTurnStart _) | some (.drainAnswered _ _) | some (.runEndPark _) => True
  | _ => s.awaited (s.runtime.getD {}) = true

/--
The invariant on the parked completions.
-/
structure Awaited (s : ThreadState) : Prop where
  scheduled : (s.runtime.getD {}).dispatchRetryScheduled = true → s.retries ≠ 0
  awaited : s.AwaitedAt s.actor

/--
What the holder of the actor lock knows about the prompt it reports as started.
-/
def ThreadState.StartedAt (s : ThreadState) : Option ActorOp → Prop
  | some (.drainAnswered entry (.ok _)) => entry.id ∈ s.log.accepted
  | some (.drainRemember entry (some _) _) => entry.id ∈ s.log.accepted
  | some (.drainRecord _ (some id)) => id ∈ s.log.accepted
  | _ => True

/--
The invariant on the dispositions. Every accepted run end is recorded, parked or carried, once.
-/
structure Accounted (s : ThreadState) : Prop where
  finished_nodup : s.log.finished.Nodup
  finished_handled : ∀ eventId ∈ s.log.finished, eventId ∈ s.log.handled
  finished_eq : ∀ eventId,
    s.log.finished.count eventId
      =
    (s.log.recorded.map (·.eventId)).count eventId + s.parked.count eventId
      + s.carried.count eventId
  recorded : ∀ recorded ∈ s.log.recorded,
    recorded.disposition = (if recorded.started.isSome then .continued else .final)
      ∧
    ∀ id, recorded.started = some id → id ∈ s.log.accepted
  started : s.StartedAt s.actor

/-! Where the completions are -/

namespace Accounted

variable {s t : ThreadState}

theorem init : Accounted {} where
  finished_nodup := List.nodup_nil
  finished_handled := by simp
  finished_eq := by simp [ThreadState.parked, ThreadState.carried]
  recorded := by simp
  started := trivial

theorem startedAt_mono {op : Option ActorOp} (h : s.StartedAt op)
    (haccepted : s.log.accepted ⊆ t.log.accepted)
    : t.StartedAt op := by
  unfold ThreadState.StartedAt at *
  split at h
  all_goals first | exact haccepted h | simp_all

/--
Steps that record nothing, and neither park nor carry a completion away.
-/
theorem congr (h : Accounted s) (hfinished : t.log.finished = s.log.finished)
    (hhandled : s.log.handled ⊆ t.log.handled) (hrecorded : t.log.recorded = s.log.recorded)
    (haccepted : s.log.accepted ⊆ t.log.accepted) (hparked : t.parked = s.parked)
    (hcarried : t.carried = s.carried) (hstarted : t.StartedAt t.actor)
    : Accounted t where
  finished_nodup := hfinished ▸ h.finished_nodup
  finished_handled := by
    intro eventId hmem
    exact hhandled (h.finished_handled eventId (hfinished ▸ hmem))
  finished_eq := by
    rw [hfinished, hrecorded, hparked, hcarried]
    exact h.finished_eq
  recorded := by
    intro recorded hmem
    obtain ⟨hdisposition, hstarted⟩ := h.recorded recorded (hrecorded ▸ hmem)
    exact ⟨hdisposition, fun id hid => haccepted (hstarted id hid)⟩
  started := hstarted

/--
A section that only touches the runtime, and no parked completion.
-/
theorem setRuntime (h : Accounted s) (runtime : BridgeThreadQueueRuntime)
    (hparked : runtime.pendingCompletionEventIds = (s.runtime.getD {}).pendingCompletionEventIds)
    : Accounted (s.setRuntime runtime) :=
  h.congr rfl (List.Subset.refl _) rfl (List.Subset.refl _) hparked rfl h.started

/--
Steer drains, spawned drains and retries carry no completion.
-/
theorem frame (h : Accounted s) (hruntime : t.runtime = s.runtime) (hactor : t.actor = s.actor)
    (hlog : t.log = s.log)
    : Accounted t := by
  apply h.congr
  . rw [hlog]
  . simp [hlog]
  . rw [hlog]
  . simp [hlog]
  . simp [ThreadState.parked, hruntime]
  . simp [ThreadState.carried, hactor]
  . have hstarted := h.started
    rw [hactor]
    exact startedAt_mono hstarted (by simp [hlog])

theorem request (h : Accounted s) {result : Except String ThreadState}
    (hok : ∀ t, result = .ok t → Accounted t)
    : Accounted (Thread.request s result) := by
  cases result with
  | ok t => exact hok t rfl
  | error _ => exact h

theorem ensureThreadRuntime (h : Accounted s) (snapshot : QueueRuntimeSnapshot)
    : Accounted (Thread.ensureThreadRuntime s snapshot) := by
  unfold Thread.ensureThreadRuntime
  split
  . exact h
  . next hruntime =>
    apply h.setRuntime
    simp [hruntime, BridgeThreadQueueRuntime.hydrateThreadRuntime]

/--
The holder of the actor lock moves on, between places that carry no completion.
-/
theorem setActor (h : Accounted s) {op op' : Option ActorOp} (hactor : s.actor = op)
    (hcarried : (op.map (·.completions)).getD [] = (op'.map (·.completions)).getD [])
    (hstarted : s.StartedAt op → s.StartedAt op')
    : Accounted { s with actor := op' } := by
  apply congr (t := { s with actor := op' }) h rfl (List.Subset.refl _) rfl (List.Subset.refl _) rfl
  . simp [ThreadState.carried, hactor, hcarried]
  . exact startedAt_mono (hstarted (hactor ▸ h.started)) (List.Subset.refl _)

theorem storeAnswer (h : Accounted s) {op : ActorOp} {answer : StoreAnswer}
    (hactor : s.actor = some op) (hstep : Thread.storeAnswer s op answer = some t)
    : Accounted t := by
  have hset (op' : Option ActorOp)
      (hcarried : op.completions = (op'.map (·.completions)).getD [])
      (hstarted : s.StartedAt (some op) → s.StartedAt op')
      : Accounted { s with actor := op' } :=
    h.setActor hactor hcarried hstarted
  unfold Thread.storeAnswer at hstep
  split at hstep
  all_goals
    simp only [Option.some.injEq, reduceCtorEq] at hstep
    try subst hstep
  all_goals try exact hset _ rfl (fun _ => trivial)
  case h_11 =>
    split
    . exact (hset none rfl (fun _ => trivial)).frame rfl rfl rfl
    . exact hset none rfl (fun _ => trivial)
  case h_14 entry turnId eventIds =>
    apply hset _ rfl
    cases turnId with
    | none => exact fun _ => trivial
    | some turnId => exact id

/--
A drain takes the parked completions along, to record them.
-/
theorem takeCompletions (h : Accounted s) (hnone : s.carried = []) (runtime : BridgeThreadQueueRuntime) {op' : ActorOp}
    (hcarried : op'.completions = s.parked) (hstarted : s.StartedAt (some op'))
    : Accounted ((s.setRuntime runtime.takeCompletions).setActor op') where
  finished_nodup := h.finished_nodup
  finished_handled := h.finished_handled
  finished_eq := by
    intro eventId
    have heq := h.finished_eq eventId
    simp only [hnone, List.count_nil, Nat.add_zero] at heq
    simp [ThreadState.parked, ThreadState.carried, hcarried,
      BridgeThreadQueueRuntime.takeCompletions, heq]
  recorded := h.recorded
  started := startedAt_mono hstarted (List.Subset.refl _)

/--
A carried completion is recorded.
-/
theorem record (h : Accounted s) {eventId : Nat} {eventIds : List Nat} {started : Option String}
    (hactor : s.actor = some (.drainRecord (eventId :: eventIds) started))
    : Accounted ((s.record eventId (if started.isSome then .continued else .final) started).setActor
        (.drainRecord eventIds started)) where
  finished_nodup := h.finished_nodup
  finished_handled := h.finished_handled
  finished_eq := by
    intro other
    have heq := h.finished_eq other
    simp [ThreadState.parked, ThreadState.carried, hactor, ActorOp.completions,
      List.count_cons] at heq ⊢
    omega
  recorded := by
    have hstarted := h.started
    rw [hactor] at hstarted
    intro recorded hmem
    cases hmem with
    | head =>
      refine ⟨rfl, ?_⟩
      intro id hid
      change started = some id at hid
      subst hid
      exact hstarted
    | tail _ hmem => exact h.recorded recorded hmem
  started := by
    have hstarted := h.started
    rw [hactor] at hstarted
    cases started with
    | none => trivial
    | some id => exact hstarted

theorem runEndPark (h : Accounted s) {eventId : Nat} (hactor : s.actor = some (.runEndPark eventId))
    : Accounted (s.setRuntime
        ((s.runtime.getD {}).parkCompletion eventId)).releaseActor.spawnAutoDispatch where
  finished_nodup := h.finished_nodup
  finished_handled := h.finished_handled
  finished_eq := by
    intro other
    have heq := h.finished_eq other
    simp [ThreadState.parked, ThreadState.carried, hactor, ActorOp.completions,
      BridgeThreadQueueRuntime.parkCompletion] at heq ⊢
    omega
  recorded := h.recorded
  started := trivial

theorem proceed (h : Accounted s) {op : ActorOp} (hactor : s.actor = some op)
    (hstep : Thread.proceed s op = some t)
    : Accounted t := by
  have hset (runtime : BridgeThreadQueueRuntime) (op' : Option ActorOp)
      (hparked : runtime.pendingCompletionEventIds = s.parked)
      (hcarried : op.completions = (op'.map (·.completions)).getD [])
      (hstarted : s.StartedAt op')
      : Accounted { s.setRuntime runtime with actor := op' } :=
    (h.setRuntime runtime hparked).setActor hactor hcarried fun _ => startedAt_mono hstarted (List.Subset.refl _)
  have hstarted := h.started
  rw [hactor] at hstarted
  unfold Thread.proceed at hstep
  dsimp only at hstep
  split at hstep
  case h_1 entry =>
    split at hstep
    all_goals
      injection hstep with hstep
      subst hstep
    . next hpush =>
      exact hset _ _ (BridgeThreadQueueRuntime.pushQueued_attends hpush).2.2 rfl trivial
    . exact h.setActor hactor rfl fun _ => trivial
  case h_2 entry =>
    injection hstep with hstep
    subst hstep
    exact hset _ none rfl rfl trivial
  case h_3 entry =>
    injection hstep with hstep
    subst hstep
    exact hset _ (some (.sendTurnStart entry)) rfl rfl trivial
  case h_4 entry turnId =>
    injection hstep with hstep
    subst hstep
    exact hset _ (some (.sendRememberSent entry turnId)) rfl rfl trivial
  case h_5 entry error =>
    split at hstep
    all_goals
      injection hstep with hstep
      subst hstep
    . exact hset _ none rfl rfl trivial
    . exact hset _ (some (.sendRelease entry)) rfl rfl trivial
  case h_6 itemId error shouldDispatch =>
    injection hstep with hstep
    subst hstep
    have hreleased := hset ((s.runtime.getD {}).cancelPersistFailed itemId error) none rfl rfl trivial
    split
    . exact hreleased.frame rfl rfl rfl
    . exact hreleased
  case h_7 entry error =>
    injection hstep with hstep
    subst hstep
    exact (hset ((s.runtime.getD {}).drainReservationFailed entry error) none rfl rfl trivial).frame
      rfl rfl rfl
  case h_8 entry =>
    injection hstep with hstep
    subst hstep
    exact hset _ (some (.drainTurnStart entry)) rfl rfl trivial
  case h_9 entry turnId =>
    injection hstep with hstep
    subst hstep
    exact h.takeCompletions (by simp [ThreadState.carried, hactor, ActorOp.completions]) _ rfl hstarted
  case h_10 entry error =>
    split at hstep
    all_goals
      injection hstep with hstep
      subst hstep
      exact h.takeCompletions (by simp [ThreadState.carried, hactor, ActorOp.completions]) _ rfl trivial
  case h_11 =>
    injection hstep with hstep
    subst hstep
    exact h.setActor hactor rfl fun _ => trivial
  case h_12 =>
    injection hstep with hstep
    subst hstep
    exact h.record hactor
  case h_13 =>
    injection hstep with hstep
    subst hstep
    exact h.runEndPark hactor
  case h_14 => contradiction

theorem allocate (h : Accounted s) {op : ActorOp} {id : String} (hactor : s.actor = some op)
    (hstep : Thread.allocate s op id = some t)
    : Accounted t := by
  unfold Thread.allocate at hstep
  split at hstep
  . split at hstep
    . contradiction
    . dsimp only at hstep
      split at hstep
      all_goals
        injection hstep with hstep
        subst hstep
        apply h.congr
        case hcarried => simp [ThreadState.carried, hactor, ActorOp.completions]
        case hstarted => trivial
        all_goals first | rfl | exact List.Subset.refl _
  . contradiction

theorem turnStartAnswer (h : Accounted s) {op : ActorOp} {answer : Except String String}
    (hactor : s.actor = some op) (hstep : Thread.turnStartAnswer s op answer = some t)
    : Accounted t := by
  unfold Thread.turnStartAnswer at hstep
  dsimp only at hstep
  split at hstep
  case h_3 => contradiction
  all_goals
    injection hstep with hstep
    subst hstep
    cases answer
    all_goals
      apply h.congr
      case haccepted => simp [Except.isOk, Except.toBool]
      case hcarried =>
        simp [ThreadState.carried, hactor, ActorOp.completions, Except.isOk, Except.toBool]
      case hstarted => simp [ThreadState.StartedAt, Except.isOk, Except.toBool]
      all_goals first | rfl | exact List.Subset.refl _

theorem steerMessage (h : Accounted s) (itemId : String)
    : Accounted (Thread.steerMessage s itemId) := by
  unfold Thread.steerMessage
  split
  . exact h
  . next runtime hruntime =>
    apply h.request
    intro t ht
    cases hsteer : runtime.steerMessage itemId with
    | error error => simp [hsteer, Except.map] at ht
    | ok runtime' =>
      have heffect := BridgeThreadQueueRuntime.steerMessage_attends hsteer
      simp only [hsteer, Except.map, Except.ok.injEq] at ht
      subst ht
      exact (h.setRuntime runtime' (by simp [heffect, hruntime])).frame rfl rfl rfl

theorem cancelMessage (h : Accounted s) (hfree : s.actor = none) (itemId : String)
    : Accounted (Thread.cancelMessage s itemId) := by
  unfold Thread.cancelMessage
  split
  . exact h
  . next runtime hruntime =>
    apply h.request
    intro t ht
    cases hcancel : runtime.cancelMessage itemId with
    | error error => simp [hcancel, Except.map] at ht
    | ok result =>
      obtain ⟨runtime', submissionId⟩ := result
      have heffect := BridgeThreadQueueRuntime.cancelMessage_attends hcancel
      simp only [hcancel, Except.map, Except.ok.injEq] at ht
      subst ht
      have hset := h.setRuntime runtime' (by simp [heffect, hruntime])
      exact hset.setActor hfree rfl fun _ => trivial

theorem startMessageEdit (h : Accounted s) (itemId : String)
    : Accounted (Thread.startMessageEdit s itemId) := by
  unfold Thread.startMessageEdit
  split
  . exact h
  . next runtime hruntime =>
    apply h.request
    intro t ht
    cases hedit : runtime.startMessageEdit itemId with
    | error error => simp [hedit, Except.map] at ht
    | ok runtime' =>
      have heffect := BridgeThreadQueueRuntime.startMessageEdit_attends hedit
      simp only [hedit, Except.map, Except.ok.injEq] at ht
      subst ht
      exact h.setRuntime runtime' (by simp [heffect, hruntime])

theorem finishEdit (h : Accounted s) {result : Except String BridgeThreadQueueRuntime}
    (hparked : ∀ runtime, result = .ok runtime → runtime.pendingCompletionEventIds = s.parked)
    : Accounted (Thread.finishEdit s result) := by
  unfold Thread.finishEdit
  apply h.request
  intro t ht
  cases result with
  | error error => simp [Except.map] at ht
  | ok runtime =>
    simp only [Except.map, Except.ok.injEq] at ht
    subst ht
    have hset := h.setRuntime runtime (hparked runtime rfl)
    split
    . exact hset
    . exact hset.frame rfl rfl rfl

theorem commitMessageEdit (h : Accounted s) (itemId content : String)
    : Accounted (Thread.commitMessageEdit s itemId content) := by
  unfold Thread.commitMessageEdit
  split
  . exact h
  . next runtime hruntime =>
    apply h.finishEdit
    intro runtime' hcommit
    simpa [ThreadState.parked, hruntime] using
      (BridgeThreadQueueRuntime.commitMessageEdit_attends hcommit).2

theorem cancelMessageEdit (h : Accounted s) (itemId : String)
    : Accounted (Thread.cancelMessageEdit s itemId) := by
  unfold Thread.cancelMessageEdit
  split
  . exact h
  . next runtime hruntime =>
    apply h.finishEdit
    intro runtime' hcancel
    simpa [ThreadState.parked, hruntime] using
      (BridgeThreadQueueRuntime.cancelMessageEdit_attends hcancel).2

theorem drainThreadQueue (h : Accounted s) (hfree : s.actor = none)
    : Accounted (Thread.drainThreadQueue s) := by
  unfold Thread.drainThreadQueue
  have hspawned : Accounted { s with drains := s.drains - 1 } := h.frame rfl rfl rfl
  have hcarried : s.carried = [] := by simp [ThreadState.carried, hfree]
  dsimp only
  split
  . exact hspawned
  . next runtime hruntime =>
    have hparked : s.parked = runtime.pendingCompletionEventIds := by
      simp [ThreadState.parked, hruntime]
    split
    . exact hspawned
    . split
      . exact hspawned.takeCompletions hcarried runtime hparked.symm trivial
      . next queuedItem items hitems =>
        have hset := hspawned.setRuntime { runtime with items }.beginTurnStart hparked.symm
        exact hset.setActor hfree rfl fun _ => trivial

theorem retryWake (h : Accounted s) : Accounted (Thread.retryWake s) := by
  have hparked : (Thread.retryWake s).parked = s.parked := by
    unfold Thread.retryWake ThreadState.parked
    cases hruntime : s.runtime <;> simp [BridgeThreadQueueRuntime.clearRetryScheduled]
  exact h.congr rfl (List.Subset.refl _) rfl (List.Subset.refl _) hparked rfl h.started

/--
A finished run is carried by the holder of the actor lock.
-/
theorem carry (h : Accounted s) (hfree : s.actor = none) {eventId : Nat}
    (hhandled : eventId ∈ s.log.handled) (hfresh : eventId ∉ s.log.finished)
    : Accounted ((s.noteFinished eventId).setActor (.runEndPark eventId)) where
  finished_nodup := List.nodup_cons.mpr ⟨hfresh, h.finished_nodup⟩
  finished_handled := List.forall_mem_cons.mpr ⟨hhandled, h.finished_handled⟩
  finished_eq := by
    intro other
    have heq := h.finished_eq other
    simp [ThreadState.parked, ThreadState.carried, hfree, ActorOp.completions,
      List.count_cons] at heq ⊢
    omega
  recorded := h.recorded
  started := trivial

/--
A finished run is recorded as final.
-/
theorem finalize (h : Accounted s) {eventId : Nat} (hhandled : eventId ∈ s.log.handled)
    (hfresh : eventId ∉ s.log.finished)
    : Accounted ((s.noteFinished eventId).record eventId .final none) where
  finished_nodup := List.nodup_cons.mpr ⟨hfresh, h.finished_nodup⟩
  finished_handled := List.forall_mem_cons.mpr ⟨hhandled, h.finished_handled⟩
  finished_eq := by
    intro other
    have heq := h.finished_eq other
    simp [ThreadState.parked, ThreadState.carried, List.count_cons] at heq ⊢
    omega
  recorded := by
    intro recorded hmem
    cases hmem with
    | head => exact ⟨rfl, by simp⟩
    | tail _ hmem => exact h.recorded recorded hmem
  started := startedAt_mono h.started (List.Subset.refl _)

/--
An accepted run end is recorded, or on its way to be parked.
-/
theorem runEnd (h : Accounted s) (hfree : s.actor = none) {eventId : Nat}
    (hhandled : eventId ∈ s.log.handled) (hfresh : eventId ∉ s.log.finished)
    {sourceTurnId : String} {generation : Nat}
    (hguard : (s.runtime.getD {}).settlesRunEnd s
      || !(s.runtime.getD {}).acceptsRunEnd sourceTurnId generation)
    : Accounted (Thread.runEnd s eventId sourceTurnId generation) := by
  have hended : Accounted (s.setRuntime (s.runtime.getD {}).runEnded) := h.setRuntime _ rfl
  unfold Thread.runEnd
  dsimp only
  split
  . exact h.setRuntime _ rfl
  . next haccepts =>
    split
    . exact hended.carry hfree hhandled hfresh
    . next hdispatch =>
      split
      . exact hended.finalize hhandled hfresh
      . next hfinal =>
        -- The branch that drops the event id is the one the guard excludes.
        simp only [Bool.not_eq_true, Bool.not_eq_false'] at haccepts
        simp only [BridgeThreadQueueRuntime.settlesRunEnd, haccepts, Bool.not_true,
          Bool.or_false] at hguard
        simp [BridgeThreadQueueRuntime.shouldQueueCompletion,
          BridgeThreadQueueRuntime.shouldFinalizeForEdit,
          BridgeThreadQueueRuntime.shouldWaitForContinuation,
          BridgeThreadQueueRuntime.runEnded] at hdispatch hfinal hguard
        simp_all

theorem interactionResolved (h : Accounted s)
    {resolve : BridgeThreadQueueRuntime → BridgeThreadQueueRuntime}
    (hparked : ∀ runtime,
      (resolve runtime).pendingCompletionEventIds = runtime.pendingCompletionEventIds)
    : Accounted (Thread.interactionResolved s resolve) := by
  unfold Thread.interactionResolved
  split
  . exact h
  . next runtime hruntime =>
    have hset := h.setRuntime (resolve runtime) (by simp [hruntime, hparked])
    dsimp only
    split
    . exact hset.frame rfl rfl rfl
    . exact hset

theorem steerSection (h : Accounted s) {bridgePrompt : Json → Except String Unit} {task : Nat}
    {u : SteerTask} (hstep : Thread.steerSection bridgePrompt s task u = some t)
    : Accounted t := by
  unfold Thread.steerSection at hstep
  split at hstep
  . split at hstep
    case h_5 => contradiction
    all_goals
      injection hstep with hstep
      exact hstep ▸ h.frame rfl rfl rfl
  . next runtime hruntime =>
    have hset (runtime' : BridgeThreadQueueRuntime)
        (hparked : runtime'.pendingCompletionEventIds = runtime.pendingCompletionEventIds)
        : Accounted (s.setRuntime runtime') :=
      h.setRuntime runtime' (by simp [hruntime, hparked])
    split at hstep
    case h_1 =>
      split at hstep
      all_goals
        injection hstep with hstep
        subst hstep
      . exact (hset runtime.beginPrepare rfl).frame rfl rfl rfl
      . exact h.frame rfl rfl rfl
    case h_2 result =>
      have hprepared := hset (runtime.prepareAnswered result) <|
        (runtime.prepareAnswered_attends result).2.2.2
      dsimp only at hstep
      split at hstep
      . injection hstep with hstep
        exact hstep ▸ hprepared.frame rfl rfl rfl
      . split at hstep
        . injection hstep with hstep
          subst hstep
          split
          all_goals exact hprepared.frame rfl rfl rfl
        . contradiction
    case h_3 =>
      split at hstep
      . injection hstep with hstep
        exact hstep ▸ h.frame rfl rfl rfl
      . next runtime' dispatch htake =>
        have htaken := hset runtime' (BridgeThreadQueueRuntime.takeSteer_attends htake).2.2
        split at hstep
        all_goals
          injection hstep with hstep
          exact hstep ▸ htaken.frame rfl rfl rfl
    case h_4 dispatch result =>
      split at hstep
      . injection hstep with hstep
        exact hstep ▸ h.frame rfl rfl rfl
      . next runtime' hanswer =>
        have hanswered := hset runtime' (BridgeThreadQueueRuntime.steerAnswered_attends hanswer).2.2.1
        split at hstep
        all_goals
          injection hstep with hstep
          exact hstep ▸ hanswered.frame rfl rfl rfl
    case h_5 => contradiction

theorem handleCanonicalEvent (h : Accounted s) (hfree : s.actor = none) {eventId : Nat}
    (hhandled : eventId ∈ s.log.handled) (hfresh : eventId ∉ s.log.finished) {event : CanonicalEvent}
    (hguard : leavesAwaited s (.handleCanonicalEvent eventId event))
    : Accounted (Thread.handleCanonicalEvent s eventId event) := by
  unfold Thread.handleCanonicalEvent
  dsimp only
  split
  case h_1 => exact h.setRuntime _ rfl
  case h_2 => exact h.runEnd hfree hhandled hfresh hguard
  case h_3 => exact h.runEnd hfree hhandled hfresh hguard
  case h_4 _ _ runId sourceTurnId generation toolCallId _ status _ _ _ _ =>
    have hset := h.setRuntime _ (BridgeThreadQueueRuntime.toolUpdated_attends _ generation runId
      sourceTurnId toolCallId status).2.2.2.2
    split
    . exact hset.frame rfl rfl rfl
    . exact hset
  case h_5 => exact h.setRuntime _ rfl
  case h_6 => exact h.interactionResolved fun _ => rfl
  case h_7 => exact h.setRuntime _ rfl
  case h_8 => exact h.interactionResolved fun _ => rfl
  case h_9 => exact h

theorem prepareAnswer (h : Accounted s) {task : Nat} {u : SteerTask} {result : Except String Nat}
    (hstep : Thread.prepareAnswer s task u result = some t)
    : Accounted t := by
  unfold Thread.prepareAnswer at hstep
  split at hstep
  . injection hstep with hstep
    exact hstep ▸ h.frame rfl rfl rfl
  . contradiction

theorem verifyAnswer (h : Accounted s) {task : Nat} {u : SteerTask} {result : Except String Bool}
    (hstep : Thread.verifyAnswer s task u result = some t)
    : Accounted t := by
  unfold Thread.verifyAnswer at hstep
  split at hstep
  case h_4 => contradiction
  all_goals
    injection hstep with hstep
    exact hstep ▸ h.frame rfl rfl rfl

theorem steerAnswer (h : Accounted s) {task : Nat} {u : SteerTask} {result : Except String Unit}
    (hstep : Thread.steerAnswer s task u result = some t)
    : Accounted t := by
  unfold Thread.steerAnswer at hstep
  split at hstep
  . next dispatch =>
    injection hstep with hstep
    subst hstep
    split
    . exact h.congr rfl (List.Subset.refl _) rfl (List.subset_cons_self _ _) rfl rfl
        (startedAt_mono h.started (List.subset_cons_self _ _))
    . exact h.frame rfl rfl rfl
  . contradiction

theorem failSteerDispatch (h : Accounted s) {task : Nat} {u : SteerTask}
    (hstep : Thread.failSteerDispatch s task u = some t)
    : Accounted t := by
  unfold Thread.failSteerDispatch at hstep
  split at hstep
  . next owned itemId error =>
    injection hstep with hstep
    subst hstep
    cases hruntime : s.runtime with
    | none => exact h.frame (by simp [hruntime]) rfl rfl
    | some runtime =>
      have hset := h.setRuntime (runtime.failSteerDispatch itemId error) <| by
        simp [hruntime, BridgeThreadQueueRuntime.failSteerDispatch_attends]
      exact hset.frame (by simp) rfl rfl
  . contradiction

theorem step (h : Accounted s) {bridgePrompt : Json → Except String Unit} {label : Label}
    (hguard : leavesAwaited s label) (hstep : Thread.step bridgePrompt s label = some t)
    : Accounted t := by
  cases Thread.Steps.of_step hstep with
  | ensureThreadRuntime snapshot => exact h.ensureThreadRuntime snapshot
  | sendMessage request hfree => exact h.setActor hfree rfl fun _ => trivial
  | storeAnswer hactor hanswer => exact h.storeAnswer hactor hanswer
  | allocate hactor hallocate => exact h.allocate hactor hallocate
  | proceed hactor hproceed => exact h.proceed hactor hproceed
  | turnStartAnswer hactor hanswer => exact h.turnStartAnswer hactor hanswer
  | steerMessage itemId => exact h.steerMessage itemId
  | cancelMessage itemId hfree => exact h.cancelMessage hfree itemId
  | startMessageEdit itemId => exact h.startMessageEdit itemId
  | commitMessageEdit itemId content => exact h.commitMessageEdit itemId content
  | cancelMessageEdit itemId => exact h.cancelMessageEdit itemId
  | drainThreadQueue hfree => exact h.drainThreadQueue hfree
  | retryWake => exact h.retryWake
  | handleCanonicalEvent eventId event hfree hfresh =>
    have hnoted : Accounted (s.noteHandled eventId) :=
      h.congr rfl (List.subset_cons_self _ _) rfl (List.Subset.refl _) rfl rfl h.started
    have hunfinished : eventId ∉ s.log.finished :=
      fun hmem => hfresh (h.finished_handled eventId hmem)
    exact hnoted.handleCanonicalEvent hfree List.mem_cons_self hunfinished hguard
  | steerSection hfree htask hsection => exact h.steerSection hsection
  | prepareAnswer htask hanswer => exact h.prepareAnswer hanswer
  | verifyAnswer htask hanswer => exact h.verifyAnswer hanswer
  | steerAnswer htask hanswer => exact h.steerAnswer hanswer
  | failSteerDispatch htask hfail => exact h.failSteerDispatch hfail

end Accounted

/-! That parked completions are waited for -/

namespace ThreadState

variable {s t : ThreadState}

theorem awaited_iff (runtime : BridgeThreadQueueRuntime)
    : s.awaited runtime = true
        ↔
      runtime.pendingCompletionEventIds = [] ∨ runtime.runtimeHasBlockers = true ∨ s.drains ≠ 0
        ∨ s.retries ≠ 0 := by
  simp [awaited, or_assoc]

theorem awaited_of_blockers {runtime : BridgeThreadQueueRuntime}
    (h : runtime.runtimeHasBlockers = true)
    : s.awaited runtime = true :=
  (awaited_iff runtime).mpr (.inr (.inl h))

theorem awaited_of_rested {runtime : BridgeThreadQueueRuntime}
    (h : runtime.pendingCompletionEventIds = [] ∨ s.drains ≠ 0 ∨ s.retries ≠ 0)
    : s.awaited runtime = true :=
  (awaited_iff runtime).mpr (h.imp_right .inr)

theorem awaited_of_drains {runtime : BridgeThreadQueueRuntime} (h : s.drains ≠ 0)
    : s.awaited runtime = true :=
  (awaited_iff runtime).mpr (.inr (.inr (.inl h)))

/--
The completions stay waited for when no blocker is lifted and none is parked.
-/
theorem awaited_mono {runtime runtime' : BridgeThreadQueueRuntime}
    (h : s.awaited runtime = true)
    (hparked : runtime'.pendingCompletionEventIds = runtime.pendingCompletionEventIds)
    (hblockers : runtime.runtimeHasBlockers = true → runtime'.runtimeHasBlockers = true)
    (hpending : s.drains ≠ 0 ∨ s.retries ≠ 0 → t.drains ≠ 0 ∨ t.retries ≠ 0)
    : t.awaited runtime' = true := by
  apply (awaited_iff _).mpr
  obtain hempty | hblocked | hpend := (awaited_iff _).mp h
  . exact .inl (hparked.trans hempty)
  . exact .inr (.inl (hblockers hblocked))
  . exact .inr (.inr (hpending hpend))

/--
What happens beside the holder of the actor lock does not make it forget the parked completions.
-/
theorem AwaitedAt.mono {op : Option ActorOp} (h : s.AwaitedAt op) (hparked : t.parked = s.parked)
    (hblockers : (s.runtime.getD {}).runtimeHasBlockers = true →
      (t.runtime.getD {}).runtimeHasBlockers = true)
    (hpending : s.drains ≠ 0 ∨ s.retries ≠ 0 → t.drains ≠ 0 ∨ t.retries ≠ 0)
    : t.AwaitedAt op := by
  unfold AwaitedAt at *
  split
  case h_6 => exact h.imp_right hblockers
  case h_7 => exact h.imp_right hblockers
  case h_14 => exact awaited_mono (by simp_all) hparked hblockers hpending
  all_goals first | trivial | exact h.imp (fun hempty => hparked.trans hempty) hpending

end ThreadState

namespace Awaited

variable {s t : ThreadState}

theorem init : Awaited {} where
  scheduled := by simp
  awaited := rfl

theorem free (hactor : t.actor = none)
    (hscheduled : (t.runtime.getD {}).dispatchRetryScheduled = true → t.retries ≠ 0)
    (hawaited : t.awaited (t.runtime.getD {}) = true)
    : Awaited t where
  scheduled := hscheduled
  awaited := by
    rw [hactor]
    exact hawaited

theorem awaited_of_free (h : Awaited s) (hfree : s.actor = none)
    : s.awaited (s.runtime.getD {}) = true := by
  have hawaited := h.awaited
  rw [hfree] at hawaited
  exact hawaited

/--
Steps that leave the runtime and the holder of the actor lock alone.
-/
theorem congr (h : Awaited s) (hruntime : t.runtime = s.runtime) (hactor : t.actor = s.actor)
    (hdrains : s.drains ≤ t.drains) (hretries : s.retries ≤ t.retries)
    : Awaited t where
  scheduled := by
    rw [hruntime]
    intro hscheduled
    have := h.scheduled hscheduled
    omega
  awaited := by
    rw [hactor]
    apply h.awaited.mono
    . simp [ThreadState.parked, hruntime]
    . simp [hruntime]
    . omega

/--
A section under the actor lock that neither starts nor ends an operation.
-/
theorem setRuntime (h : Awaited s) (hfree : s.actor = none) (runtime : BridgeThreadQueueRuntime)
    (hscheduled : runtime.dispatchRetryScheduled = (s.runtime.getD {}).dispatchRetryScheduled)
    (hawaited : s.awaited runtime = true)
    : Awaited (s.setRuntime runtime) :=
  free hfree (fun hs => h.scheduled (hscheduled ▸ hs)) hawaited

theorem request (h : Awaited s) {result : Except String ThreadState}
    (hok : ∀ t, result = .ok t → Awaited t)
    : Awaited (Thread.request s result) := by
  cases result with
  | ok t => exact hok t rfl
  | error _ => exact h

theorem ensureThreadRuntime (h : Awaited s) (snapshot : QueueRuntimeSnapshot)
    : Awaited (Thread.ensureThreadRuntime s snapshot) := by
  unfold Thread.ensureThreadRuntime
  split
  . exact h
  . next hruntime =>
    refine ⟨by simp [BridgeThreadQueueRuntime.hydrateThreadRuntime], ?_⟩
    apply h.awaited.mono
    . simp [ThreadState.parked, hruntime, BridgeThreadQueueRuntime.hydrateThreadRuntime]
    . simp [hruntime, BridgeThreadQueueRuntime.runtimeHasBlockers]
    . exact id

theorem storeAnswer (h : Awaited s) {op : ActorOp} {answer : StoreAnswer}
    (hactor : s.actor = some op) (hstep : Thread.storeAnswer s op answer = some t)
    : Awaited t := by
  have hawaited := h.awaited
  have hscheduled := h.scheduled
  rw [hactor] at hawaited
  unfold Thread.storeAnswer at hstep
  split at hstep
  all_goals
    simp only [Option.some.injEq, reduceCtorEq] at hstep
    try subst hstep
    try exact ⟨hscheduled, hawaited⟩
  case h_7 => exact ⟨hscheduled, ThreadState.awaited_of_rested hawaited⟩
  case h_9 => exact ⟨hscheduled, ThreadState.awaited_of_rested hawaited⟩
  case h_11 =>
    split
    . exact ⟨hscheduled, ThreadState.awaited_of_drains (Nat.succ_ne_zero _)⟩
    . exact ⟨hscheduled, ThreadState.awaited_of_blockers (hawaited.resolve_left ‹_›)⟩

theorem proceed (h : Awaited s) {op : ActorOp} (hactor : s.actor = some op)
    (hstep : Thread.proceed s op = some t)
    : Awaited t := by
  have hawaited := h.awaited
  have hscheduled := h.scheduled
  rw [hactor] at hawaited
  unfold Thread.proceed at hstep
  dsimp only at hstep
  split at hstep
  case h_1 entry =>
    split at hstep
    all_goals
      injection hstep with hstep
      subst hstep
    . next hpush =>
      obtain ⟨hblockers, hretry, hparked⟩ := BridgeThreadQueueRuntime.pushQueued_attends hpush
      exact ⟨by simpa [hretry] using hscheduled,
        ThreadState.awaited_mono hawaited hparked (fun hblocked => hblockers.trans hblocked) id⟩
    . exact ⟨hscheduled, hawaited⟩
  case h_2 | h_3 =>
    injection hstep with hstep
    subst hstep
    exact ⟨hscheduled, hawaited⟩
  case h_4 | h_9 =>
    injection hstep with hstep
    subst hstep
    exact ⟨hscheduled, ThreadState.awaited_of_blockers rfl⟩
  case h_5 entry error =>
    split at hstep
    all_goals
      injection hstep with hstep
      subst hstep
    . exact ⟨hscheduled, ThreadState.awaited_of_rested hawaited⟩
    . exact ⟨hscheduled, hawaited⟩
  case h_6 itemId error shouldDispatch =>
    injection hstep with hstep
    subst hstep
    split
    . exact ⟨hscheduled, ThreadState.awaited_of_drains (Nat.succ_ne_zero _)⟩
    . exact ⟨hscheduled, ThreadState.awaited_of_blockers (hawaited.resolve_left ‹_›)⟩
  case h_7 entry error =>
    injection hstep with hstep
    subst hstep
    have hretries := ThreadState.retries_ne_zero_of_markFailed hscheduled
    exact ⟨fun _ => hretries, ThreadState.awaited_of_rested (.inr (.inr hretries))⟩
  case h_8 | h_11 | h_12 =>
    injection hstep with hstep
    subst hstep
    exact ⟨hscheduled, hawaited⟩
  case h_10 entry error =>
    split at hstep
    all_goals
      injection hstep with hstep
      subst hstep
      exact ⟨hscheduled, (ThreadState.awaited_iff _).mpr (.inl rfl)⟩
  case h_13 =>
    injection hstep with hstep
    subst hstep
    exact ⟨hscheduled, ThreadState.awaited_of_drains (Nat.succ_ne_zero _)⟩
  case h_14 => contradiction

theorem allocate (h : Awaited s) {op : ActorOp} {id : String} (hactor : s.actor = some op)
    (hstep : Thread.allocate s op id = some t)
    : Awaited t := by
  have hawaited := h.awaited
  rw [hactor] at hawaited
  unfold Thread.allocate at hstep
  split at hstep
  . next request =>
    split at hstep
    . contradiction
    . dsimp only at hstep
      split at hstep
      . injection hstep with hstep
        subst hstep
        exact ⟨h.scheduled, hawaited⟩
      . next hoccupied =>
        injection hstep with hstep
        subst hstep
        refine ⟨h.scheduled, ?_⟩
        -- The thread is free, so something else than a blocker is waited for.
        have hunblocked : (s.runtime.getD {}).runtimeHasBlockers = false := by
          cases hruntime : s.runtime with
          | none => rfl
          | some runtime =>
            simp only [hruntime, Option.any_some, BridgeThreadQueueRuntime.runtimeIsBlockedOrOccupied,
              Bool.or_eq_true, not_or, Bool.not_eq_true] at hoccupied
            exact hoccupied.1
        exact ((ThreadState.awaited_iff _).mp hawaited).imp_right fun hrest =>
          hrest.resolve_left (by simp [hunblocked])
  . contradiction

theorem turnStartAnswer (h : Awaited s) {op : ActorOp} {answer : Except String String}
    (hactor : s.actor = some op) (hstep : Thread.turnStartAnswer s op answer = some t)
    : Awaited t := by
  have hawaited := h.awaited
  rw [hactor] at hawaited
  unfold Thread.turnStartAnswer at hstep
  dsimp only at hstep
  split at hstep
  case h_3 => contradiction
  all_goals
    injection hstep with hstep
    subst hstep
    split
    all_goals exact ⟨h.scheduled, hawaited⟩

theorem steerMessage (h : Awaited s) (hfree : s.actor = none) (itemId : String)
    : Awaited (Thread.steerMessage s itemId) := by
  unfold Thread.steerMessage
  split
  . exact h
  . next runtime hruntime =>
    apply h.request
    intro t ht
    cases hsteer : runtime.steerMessage itemId with
    | error error => simp [hsteer, Except.map] at ht
    | ok runtime' =>
      have heffect := BridgeThreadQueueRuntime.steerMessage_attends hsteer
      simp only [hsteer, Except.map, Except.ok.injEq] at ht
      subst ht
      apply free (by exact hfree)
      . simpa [heffect, hruntime] using h.scheduled
      . exact ThreadState.awaited_of_blockers heffect.1

theorem cancelMessage (h : Awaited s) (itemId : String)
    : Awaited (Thread.cancelMessage s itemId) := by
  unfold Thread.cancelMessage
  split
  . exact h
  . next runtime hruntime =>
    apply h.request
    intro t ht
    cases hcancel : runtime.cancelMessage itemId with
    | error error => simp [hcancel, Except.map] at ht
    | ok result =>
      obtain ⟨runtime', submissionId⟩ := result
      have heffect := BridgeThreadQueueRuntime.cancelMessage_attends hcancel
      simp only [hcancel, Except.map, Except.ok.injEq] at ht
      subst ht
      refine ⟨by simpa [heffect, hruntime] using h.scheduled, ?_⟩
      cases hblocked : runtime'.runtimeHasBlockers <;> simp [ThreadState.AwaitedAt, hblocked]

theorem startMessageEdit (h : Awaited s) (hfree : s.actor = none) (itemId : String)
    : Awaited (Thread.startMessageEdit s itemId) := by
  unfold Thread.startMessageEdit
  split
  . exact h
  . next runtime hruntime =>
    apply h.request
    intro t ht
    cases hedit : runtime.startMessageEdit itemId with
    | error error => simp [hedit, Except.map] at ht
    | ok runtime' =>
      have heffect := BridgeThreadQueueRuntime.startMessageEdit_attends hedit
      simp only [hedit, Except.map, Except.ok.injEq] at ht
      subst ht
      apply h.setRuntime hfree
      . simp [heffect, hruntime]
      . exact ThreadState.awaited_of_blockers heffect.1

theorem finishEdit (h : Awaited s) (hfree : s.actor = none)
    {result : Except String BridgeThreadQueueRuntime}
    (hscheduled : ∀ runtime, result = .ok runtime →
      runtime.dispatchRetryScheduled = (s.runtime.getD {}).dispatchRetryScheduled)
    : Awaited (Thread.finishEdit s result) := by
  unfold Thread.finishEdit
  apply h.request
  intro t ht
  cases result with
  | error error => simp [Except.map] at ht
  | ok runtime =>
    have hscheduled := hscheduled runtime rfl
    simp only [Except.map, Except.ok.injEq] at ht
    subst ht
    split
    . next hblocked =>
      exact h.setRuntime hfree runtime hscheduled (ThreadState.awaited_of_blockers hblocked)
    . apply free (by exact hfree)
      . simpa [hscheduled] using h.scheduled
      . exact ThreadState.awaited_of_drains (Nat.succ_ne_zero _)

theorem commitMessageEdit (h : Awaited s) (hfree : s.actor = none) (itemId content : String)
    : Awaited (Thread.commitMessageEdit s itemId content) := by
  unfold Thread.commitMessageEdit
  split
  . exact h
  . next runtime hruntime =>
    apply h.finishEdit hfree
    intro runtime' hcommit
    simpa [hruntime] using (BridgeThreadQueueRuntime.commitMessageEdit_attends hcommit).1

theorem cancelMessageEdit (h : Awaited s) (hfree : s.actor = none) (itemId : String)
    : Awaited (Thread.cancelMessageEdit s itemId) := by
  unfold Thread.cancelMessageEdit
  split
  . exact h
  . next runtime hruntime =>
    apply h.finishEdit hfree
    intro runtime' hcancel
    simpa [hruntime] using (BridgeThreadQueueRuntime.cancelMessageEdit_attends hcancel).1

/--
A drain that finds the queue free takes the parked completions along.
-/
theorem drainThreadQueue (h : Awaited s) (hfree : s.actor = none)
    : Awaited (Thread.drainThreadQueue s) := by
  unfold Thread.drainThreadQueue
  dsimp only
  split
  . next hruntime =>
    apply free (by exact hfree)
    . simp [hruntime]
    . exact (ThreadState.awaited_iff _).mpr (.inl (by simp [hruntime]))
  . next runtime hruntime =>
    have hscheduled := h.scheduled
    simp only [hruntime, Option.getD_some] at hscheduled
    split
    . next hblocked =>
      apply free (by exact hfree)
      . simpa [hruntime] using hscheduled
      . apply ThreadState.awaited_of_blockers
        rw [hruntime]
        exact hblocked
    . split
      . exact ⟨hscheduled, (ThreadState.awaited_iff _).mpr (.inl rfl)⟩
      . exact ⟨hscheduled, trivial⟩

theorem retryWake (h : Awaited s) : Awaited (Thread.retryWake s) where
  scheduled := by
    cases hruntime : s.runtime <;>
    simp [Thread.retryWake, hruntime, BridgeThreadQueueRuntime.clearRetryScheduled]
  awaited := by
    apply h.awaited.mono
    . unfold Thread.retryWake ThreadState.parked
      cases hruntime : s.runtime <;> simp [BridgeThreadQueueRuntime.clearRetryScheduled]
    . cases hruntime : s.runtime <;>
      simp [Thread.retryWake, hruntime, BridgeThreadQueueRuntime.clearRetryScheduled,
        BridgeThreadQueueRuntime.runtimeHasBlockers]
    . exact fun _ => .inl (Nat.succ_ne_zero _)

/--
A run end that spawns no drain leaves the completions parked before it waited for.
-/
theorem runEnd (h : Awaited s) (hfree : s.actor = none) (eventId : Nat) {sourceTurnId : String}
    {generation : Nat}
    (hguard : (s.runtime.getD {}).settlesRunEnd s
      || !(s.runtime.getD {}).acceptsRunEnd sourceTurnId generation)
    : Awaited (Thread.runEnd s eventId sourceTurnId generation) := by
  unfold Thread.runEnd
  dsimp only
  split
  . exact h.setRuntime hfree _ rfl (h.awaited_of_free hfree)
  . next haccepts =>
    split
    . exact ⟨h.scheduled, trivial⟩
    . next hdispatch =>
      have hawaited : s.awaited (s.runtime.getD {}).runEnded = true := by
        simp only [Bool.not_eq_true, Bool.not_eq_false'] at haccepts
        simp only [Bool.or_eq_true, not_or, Bool.not_eq_true] at hdispatch
        simp only [BridgeThreadQueueRuntime.settlesRunEnd, haccepts, Bool.not_true, Bool.or_false,
          hdispatch.2, Bool.false_or, Bool.or_eq_true, Bool.and_eq_true] at hguard
        obtain (hstart | hediting) | ⟨-, hawaited⟩ := hguard
        . exact absurd hstart (by simpa [BridgeThreadQueueRuntime.shouldQueueCompletion,
            BridgeThreadQueueRuntime.runEnded] using hdispatch.1)
        . apply ThreadState.awaited_of_blockers
          simp [BridgeThreadQueueRuntime.runtimeHasBlockers, BridgeThreadQueueRuntime.runEnded,
            hediting]
        . exact hawaited
      split
      all_goals exact free hfree h.scheduled hawaited

theorem interactionResolved (h : Awaited s) (hfree : s.actor = none)
    {resolve : BridgeThreadQueueRuntime → BridgeThreadQueueRuntime}
    (hscheduled : ∀ runtime,
      (resolve runtime).dispatchRetryScheduled = runtime.dispatchRetryScheduled)
    (hguard : s.awaited (resolve (s.runtime.getD {})))
    : Awaited (Thread.interactionResolved s resolve) := by
  unfold Thread.interactionResolved
  split
  . exact h
  . next runtime hruntime =>
    simp only [hruntime, Option.getD_some] at hguard
    have hset := h.setRuntime hfree (resolve runtime) (by simp [hscheduled, hruntime]) hguard
    dsimp only
    split
    . exact hset.congr rfl rfl (Nat.le_refl _) (Nat.le_refl _)
    . exact hset

theorem handleCanonicalEvent (h : Awaited s) (hfree : s.actor = none) {eventId : Nat}
    {event : CanonicalEvent} (hguard : leavesAwaited s (.handleCanonicalEvent eventId event))
    : Awaited (Thread.handleCanonicalEvent s eventId event) := by
  unfold Thread.handleCanonicalEvent
  dsimp only
  split
  case h_1 => exact h.setRuntime hfree _ rfl (ThreadState.awaited_of_blockers rfl)
  case h_2 => exact h.runEnd hfree eventId hguard
  case h_3 => exact h.runEnd hfree eventId hguard
  case h_4 _ _ runId sourceTurnId generation toolCallId _ status _ _ _ _ =>
    obtain ⟨-, hblockers, hscheduled, -, hparked⟩ :=
      (s.runtime.getD {}).toolUpdated_attends generation runId sourceTurnId toolCallId status
    have hset := h.setRuntime hfree _ hscheduled <|
      ThreadState.awaited_mono (h.awaited_of_free hfree) hparked
        (fun hblocked => hblockers.trans hblocked) id
    split
    . exact hset.congr rfl rfl (Nat.le_refl _) (Nat.le_refl _)
    . exact hset
  case h_5 approval =>
    exact h.setRuntime hfree _ rfl <|
      ThreadState.awaited_of_blockers (BridgeThreadQueueRuntime.permissionRequested_attends _)
  case h_6 => exact h.interactionResolved hfree (fun _ => rfl) hguard
  case h_7 request =>
    exact h.setRuntime hfree _ rfl <|
      ThreadState.awaited_of_blockers (BridgeThreadQueueRuntime.elicitationRequested_attends _)
  case h_8 => exact h.interactionResolved hfree (fun _ => rfl) hguard
  case h_9 => exact h

theorem steerSection (h : Awaited s) (hfree : s.actor = none)
    {bridgePrompt : Json → Except String Unit} {task : Nat} {u : SteerTask}
    (htask : s.steers[task]? = some u) (hguard : leavesAwaited s (.steerSection task))
    (hstep : Thread.steerSection bridgePrompt s task u = some t)
    : Awaited t := by
  simp only [leavesAwaited, htask] at hguard
  unfold Thread.steerSection at hstep
  split at hstep
  . split at hstep
    case h_5 => contradiction
    all_goals
      injection hstep with hstep
      exact hstep ▸ h.congr rfl rfl (Nat.le_refl _) (Nat.le_refl _)
  . next runtime hruntime =>
    have hscheduled := h.scheduled
    simp only [hruntime, Option.getD_some] at hscheduled hguard
    split at hstep
    case h_1 =>
      split at hstep
      all_goals
        injection hstep with hstep
        subst hstep
      . exact free hfree hscheduled (ThreadState.awaited_of_blockers (by
          simp [BridgeThreadQueueRuntime.beginPrepare, BridgeThreadQueueRuntime.runtimeHasBlockers]))
      . exact h.congr rfl rfl (Nat.le_refl _) (Nat.le_refl _)
    case h_2 result =>
      obtain ⟨-, hblockers, hretry, hparked⟩ :=
        runtime.prepareAnswered_attends result
      have hset : Awaited (s.setRuntime (runtime.prepareAnswered result)) := by
        apply h.setRuntime hfree
        . simpa [hruntime] using hretry
        . exact ThreadState.awaited_mono hguard hparked (fun hblocked => hblockers.trans hblocked) id
      dsimp only at hstep
      split at hstep
      . injection hstep with hstep
        exact hstep ▸ hset.congr rfl rfl (Nat.le_refl _) (Nat.le_refl _)
      . split at hstep
        . injection hstep with hstep
          subst hstep
          split
          . exact hset.congr rfl rfl (Nat.le_succ _) (Nat.le_refl _)
          . exact hset.congr rfl rfl (Nat.le_refl _) (Nat.le_refl _)
        . contradiction
    case h_3 =>
      split at hstep
      . injection hstep with hstep
        exact hstep ▸ h.congr rfl rfl (Nat.le_refl _) (Nat.le_refl _)
      . next runtime' dispatch htake =>
        have heffect := BridgeThreadQueueRuntime.takeSteer_attends htake
        split at hstep
        all_goals
          injection hstep with hstep
          subst hstep
          exact free hfree (by simpa [heffect] using hscheduled)
            (ThreadState.awaited_of_blockers heffect.1)
    case h_4 dispatch result =>
      split at hstep
      . injection hstep with hstep
        exact hstep ▸ h.congr rfl rfl (Nat.le_refl _) (Nat.le_refl _)
      . next runtime' hanswer =>
        obtain ⟨hmine, hretry, hparked, hok⟩ :=
          BridgeThreadQueueRuntime.steerAnswered_attends hanswer
        split at hstep
        . injection hstep with hstep
          subst hstep
          simp only [hmine, Bool.not_true, Bool.or_false] at hguard
          apply free (by exact hfree)
          . simpa [hretry] using hscheduled
          . exact ThreadState.awaited_mono hguard hparked
              (fun hblocked => (hok rfl).2.trans hblocked) id
        . injection hstep with hstep
          subst hstep
          apply free (by exact hfree)
          . simpa [hretry] using hscheduled
          . exact ThreadState.awaited_of_drains (Nat.succ_ne_zero _)
    case h_5 => contradiction

theorem prepareAnswer (h : Awaited s) {task : Nat} {u : SteerTask} {result : Except String Nat}
    (hstep : Thread.prepareAnswer s task u result = some t)
    : Awaited t := by
  unfold Thread.prepareAnswer at hstep
  split at hstep
  . injection hstep with hstep
    exact hstep ▸ h.congr rfl rfl (Nat.le_refl _) (Nat.le_refl _)
  . contradiction

theorem verifyAnswer (h : Awaited s) {task : Nat} {u : SteerTask} {result : Except String Bool}
    (hstep : Thread.verifyAnswer s task u result = some t)
    : Awaited t := by
  unfold Thread.verifyAnswer at hstep
  split at hstep
  case h_4 => contradiction
  all_goals
    injection hstep with hstep
    exact hstep ▸ h.congr rfl rfl (Nat.le_refl _) (Nat.le_refl _)

theorem steerAnswer (h : Awaited s) {task : Nat} {u : SteerTask} {result : Except String Unit}
    (hstep : Thread.steerAnswer s task u result = some t)
    : Awaited t := by
  unfold Thread.steerAnswer at hstep
  split at hstep
  . next dispatch =>
    injection hstep with hstep
    subst hstep
    split
    all_goals exact h.congr rfl rfl (Nat.le_refl _) (Nat.le_refl _)
  . contradiction

theorem failSteerDispatch (h : Awaited s) {task : Nat} {u : SteerTask}
    (hstep : Thread.failSteerDispatch s task u = some t)
    : Awaited t := by
  unfold Thread.failSteerDispatch at hstep
  split at hstep
  . next owned itemId error =>
    injection hstep with hstep
    subst hstep
    cases hruntime : s.runtime with
    | none => exact h.congr (by simp [hruntime]) rfl (Nat.le_refl _) (Nat.le_refl _)
    | some runtime =>
      obtain ⟨-, hblockers, hscheduled, hparked⟩ :=
        runtime.failSteerDispatch_attends itemId error
      constructor
      . simpa [hruntime, hscheduled] using h.scheduled
      . apply h.awaited.mono
        . simpa [ThreadState.parked, hruntime] using hparked
        . simpa [hruntime] using hblockers
        . exact id
  . contradiction

theorem step (h : Awaited s) {bridgePrompt : Json → Except String Unit} {label : Label}
    (hguard : leavesAwaited s label) (hstep : Thread.step bridgePrompt s label = some t)
    : Awaited t := by
  cases Thread.Steps.of_step hstep with
  | ensureThreadRuntime snapshot => exact h.ensureThreadRuntime snapshot
  | sendMessage request hfree => exact ⟨h.scheduled, h.awaited_of_free hfree⟩
  | storeAnswer hactor hanswer => exact h.storeAnswer hactor hanswer
  | allocate hactor hallocate => exact h.allocate hactor hallocate
  | proceed hactor hproceed => exact h.proceed hactor hproceed
  | turnStartAnswer hactor hanswer => exact h.turnStartAnswer hactor hanswer
  | steerMessage itemId hfree => exact h.steerMessage hfree itemId
  | cancelMessage itemId => exact h.cancelMessage itemId
  | startMessageEdit itemId hfree => exact h.startMessageEdit hfree itemId
  | commitMessageEdit itemId content hfree => exact h.commitMessageEdit hfree itemId content
  | cancelMessageEdit itemId hfree => exact h.cancelMessageEdit hfree itemId
  | drainThreadQueue hfree => exact h.drainThreadQueue hfree
  | retryWake => exact h.retryWake
  | handleCanonicalEvent eventId event hfree =>
    have hnoted : Awaited (s.noteHandled eventId) :=
      h.congr rfl rfl (Nat.le_refl _) (Nat.le_refl _)
    exact hnoted.handleCanonicalEvent hfree hguard
  | steerSection hfree htask hsection => exact h.steerSection hfree htask hguard hsection
  | prepareAnswer htask hanswer => exact h.prepareAnswer hanswer
  | verifyAnswer htask hanswer => exact h.verifyAnswer hanswer
  | steerAnswer htask hanswer => exact h.steerAnswer hanswer
  | failSteerDispatch htask hfail => exact h.failSteerDispatch hfail

end Awaited

/--
On an idle thread without blockers no completion is parked or carried, so all are recorded.
-/
theorem Accounted.completesOnce {s : ThreadState} (h : Accounted s) (hawaited : Awaited s)
    : CompletesOnce s := by
  rintro ⟨hfree, -, hdrains, hretries⟩ runtime hruntime hblockers eventId hfinished
  have hparked : s.parked = [] := by
    have hawaited := hawaited.awaited_of_free hfree
    simpa [ThreadState.awaited, ThreadState.parked, hruntime, hblockers, hdrains, hretries] using
      hawaited
  have hcount : (s.log.recorded.map (·.eventId)).count eventId = 1 := by
    have heq := h.finished_eq eventId
    have hone := h.finished_nodup.count (a := eventId)
    simp only [hparked, ThreadState.carried, hfree, Option.map_none, Option.getD_none,
      List.count_nil, Nat.add_zero] at heq
    rw [← heq, hone]
    simp [hfinished]
  have hlength : (s.log.recorded.filter (·.eventId = eventId)).length = 1 := by
    rw [← hcount, List.count_eq_countP, List.countP_map, List.countP_eq_length_filter]
    rfl
  obtain ⟨recorded, hrecorded⟩ := List.length_eq_one_iff.mp hlength
  refine ⟨recorded, hrecorded, h.recorded recorded ?_⟩
  exact (List.mem_filter.mp (hrecorded ▸ List.mem_singleton_self recorded)).1

/--
The run ends while a steer is in flight: its event id is neither recorded nor parked.
-/
def endedUnderSteer : List Label :=
  .ensureThreadRuntime Thread.liveSnapshot :: Thread.sendQueued "a"
    ++ .steerMessage "a" :: Thread.prepareSteer 0 ++ Thread.dispatchSteer 0
    ++ [.handleCanonicalEvent 1 (.runFinished "agent" "thread" "run" "turn" 1 .endTurn),
      .steerAnswer 0 (.ok ()), .steerSection 0, .steerSection 0]

end Queue
