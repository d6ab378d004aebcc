import TetherBridge.Queue.Thread

/-!
This module contains the wake-ups of the prompt queue: which steps may lift the last blocker of a
thread without spawning a drain, and that without such a step no message is left behind on an idle
thread.
-/

namespace Queue

open Acp Transition

namespace ThreadState

variable (s : ThreadState)

/--
With this runtime, nothing is queued, something still blocks the queue, or a drain is on its way.
-/
def attended (runtime : BridgeThreadQueueRuntime) : Bool :=
  runtime.items.isEmpty || runtime.runtimeHasBlockers || s.drains != 0 || s.retries != 0

/--
The last `turn_start` failed definitively, and `last_error` says so.
-/
def FailedDefinitively : Prop :=
  ∃ error, s.log.lastTurnStart = some (.error error)
    ∧ dispatchFailureIsIndeterminate error = false
    ∧ (s.runtime.getD {}).lastError.map (·.message) = some error

end ThreadState

/--
On an idle thread the queue is empty or stopped by a definitive failure.
-/
def NotStranded (s : ThreadState) : Prop :=
  Thread.Quiescent s →
    ∀ runtime, s.runtime = some runtime → runtime.runtimeHasBlockers = false →
      runtime.items = [] ∨ s.FailedDefinitively

/--
The steps that lift a blocker, or overwrite the error that stopped the queue, without spawning a
drain. The guard: they leave the queue attended.
-/
def leavesAttended (s : ThreadState) (label : Label) : Bool :=
  let runtime := s.runtime.getD {}
  match label with
  | .steerSection task =>
    match s.steers[task]? with
    | some (.prepared _) => s.attended { runtime with steerPrepareInFlight := false }
    | some (.steered dispatch (.ok _)) =>
      s.attended { runtime with steerDispatchInFlight := none }
        || !runtime.steerDispatchInFlight.any (·.entry.id = dispatch.entry.id)
    | _ => true
  | .handleCanonicalEvent _ (.permissionResolved _ _ requestId _) =>
    s.attended (runtime.permissionResolved requestId) || !s.attended runtime
  | .handleCanonicalEvent _ (.elicitationResolved _ _ requestId _) =>
    s.attended (runtime.elicitationResolved requestId) || !s.attended runtime
  | .failSteerDispatch _ => s.attended runtime
  | .proceed =>
    match s.actor with
    | some (.sendQueue _) => s.attended runtime
    | some (.drainAnswered _ (.error error)) =>
      !dispatchFailureIsIndeterminate error || s.attended { runtime with turnStartInFlight := false }
    | _ => true
  | _ => true

/--
The queue is attended, or a definitive failure explains why it is not.
-/
def ThreadState.Covered (s : ThreadState) : Prop :=
  s.attended (s.runtime.getD {}) = true ∨ s.FailedDefinitively

/--
What keeps the queue from being stranded while the holder of the actor lock stands at `op`.
-/
def ThreadState.CoveredAt (s : ThreadState) : Option ActorOp → Prop
  | some (.sendQueue _) => s.Covered ∧ (s.runtime.getD {}).runtimeIsBlockedOrOccupied = true
  | some (.sendReserveDirect _) | some (.sendBeginTurn _) | some (.sendTurnStart _)
  | some (.sendAnswered _ _) | some (.sendRelease _) => (s.runtime.getD {}).items = []
  | some (.cancelForget _ _ shouldDispatch) | some (.cancelPersistFailed _ _ shouldDispatch) =>
    shouldDispatch = true ∨ (s.runtime.getD {}).runtimeHasBlockers = true
  | some (.drainMark _) | some (.drainMarkFailed _ _) | some (.drainMarked _)
  | some (.drainTurnStart _) | some (.runEndPark _) => True
  | some (.drainAnswered _ answer) => s.log.lastTurnStart = some answer
  | _ => s.Covered

/--
The invariant. A scheduled retry is asleep, and the queue is covered.
-/
structure Attended (s : ThreadState) : Prop where
  scheduled : (s.runtime.getD {}).dispatchRetryScheduled = true → s.retries ≠ 0
  covered : s.CoveredAt s.actor

namespace ThreadState

variable {s t : ThreadState}

theorem attended_iff (runtime : BridgeThreadQueueRuntime)
    : s.attended runtime = true
        ↔
      runtime.items = [] ∨ runtime.runtimeHasBlockers = true ∨ s.drains ≠ 0 ∨ s.retries ≠ 0 := by
  simp [attended, or_assoc]

/--
A failed reservation leaves a retry behind.
-/
theorem retries_ne_zero_of_markFailed
    (h : (s.runtime.getD {}).dispatchRetryScheduled = true → s.retries ≠ 0)
    : (if (s.runtime.getD {}).dispatchRetryScheduled then s.retries else s.retries + 1) ≠ 0 := by
  split
  . next hscheduled => exact h hscheduled
  . exact Nat.succ_ne_zero _

theorem Covered.of_items (h : (s.runtime.getD {}).items = []) : s.Covered :=
  .inl ((attended_iff _).mpr (.inl h))

theorem Covered.of_blockers (h : (s.runtime.getD {}).runtimeHasBlockers = true) : s.Covered :=
  .inl ((attended_iff _).mpr (.inr (.inl h)))

theorem Covered.of_drains (h : s.drains ≠ 0) : s.Covered :=
  .inl ((attended_iff _).mpr (.inr (.inr (.inl h))))

theorem Covered.of_retries (h : s.retries ≠ 0) : s.Covered :=
  .inl ((attended_iff _).mpr (.inr (.inr (.inr h))))

/--
The queue stays covered when nothing that covers it goes away.
-/
theorem Covered.mono (h : s.Covered)
    (hitems : (s.runtime.getD {}).items = [] → (t.runtime.getD {}).items = [])
    (hblockers : (s.runtime.getD {}).runtimeHasBlockers = true → t.Covered)
    (hpending : s.drains ≠ 0 ∨ s.retries ≠ 0 → t.Covered)
    (hfailed : s.FailedDefinitively → t.Covered)
    : t.Covered := by
  cases h with
  | inl hattended =>
    obtain hempty | hblocked | hdrains | hretries := (attended_iff _).mp hattended
    . exact .of_items (hitems hempty)
    . exact hblockers hblocked
    . exact hpending (.inl hdrains)
    . exact hpending (.inr hretries)
  | inr h => exact hfailed h

/--
What happens beside the holder of the actor lock does not uncover it.
-/
theorem CoveredAt.mono {op : Option ActorOp} (h : s.CoveredAt op)
    (hitems : (t.runtime.getD {}).items = (s.runtime.getD {}).items)
    (hblockers : (s.runtime.getD {}).runtimeHasBlockers = true →
      (t.runtime.getD {}).runtimeHasBlockers = true)
    (hlog : t.log.lastTurnStart = s.log.lastTurnStart) (hcovered : s.Covered → t.Covered)
    : t.CoveredAt op := by
  unfold CoveredAt at *
  split
  . simp only [BridgeThreadQueueRuntime.runtimeIsBlockedOrOccupied, Bool.or_eq_true] at h ⊢
    rw [hitems]
    exact ⟨hcovered h.1, h.2.imp_left hblockers⟩
  case h_7 => exact h.imp_right hblockers
  case h_8 => exact h.imp_right hblockers
  all_goals simp_all

end ThreadState

namespace BridgeThreadQueueRuntime

variable {runtime runtime' : BridgeThreadQueueRuntime}

theorem pushQueued_attends {entry : BridgeQueuedMessageEntry}
    (h : runtime.pushQueued entry = .ok runtime')
    : runtime'.runtimeHasBlockers = runtime.runtimeHasBlockers
        ∧
      runtime'.dispatchRetryScheduled = runtime.dispatchRetryScheduled
        ∧
      runtime'.pendingCompletionEventIds = runtime.pendingCompletionEventIds := by
  unfold pushQueued at h
  dsimp at h
  split at h
  . contradiction
  . split at h
    . contradiction
    . injection h with h
      subst h
      exact ⟨rfl, rfl, rfl⟩

theorem steerMessage_attends {itemId : String} (h : runtime.steerMessage itemId = .ok runtime')
    : runtime'.runtimeHasBlockers = true
        ∧
      runtime'.dispatchRetryScheduled = runtime.dispatchRetryScheduled
        ∧
      runtime'.pendingCompletionEventIds = runtime.pendingCompletionEventIds := by
  unfold steerMessage at h
  split at h
  . contradiction
  . split at h
    . contradiction
    . split at h
      . contradiction
      . split at h
        . contradiction
        . injection h with h
          subst h
          simp [runtimeHasBlockers]

theorem cancelMessage_attends {itemId submissionId : String}
    (h : runtime.cancelMessage itemId = .ok (runtime', submissionId))
    : runtime'.dispatchRetryScheduled = runtime.dispatchRetryScheduled
        ∧
      runtime'.pendingCompletionEventIds = runtime.pendingCompletionEventIds := by
  unfold cancelMessage at h
  split at h
  . contradiction
  . split at h
    . simp only [Except.ok.injEq, Prod.mk.injEq] at h
      obtain ⟨rfl, -⟩ := h
      exact ⟨rfl, rfl⟩
    . split at h
      . simp only [Except.ok.injEq, Prod.mk.injEq] at h
        obtain ⟨rfl, -⟩ := h
        exact ⟨rfl, rfl⟩
      . split at h <;> contradiction

theorem startMessageEdit_attends {itemId : String}
    (h : runtime.startMessageEdit itemId = .ok runtime')
    : runtime'.runtimeHasBlockers = true
        ∧
      runtime'.dispatchRetryScheduled = runtime.dispatchRetryScheduled
        ∧
      runtime'.pendingCompletionEventIds = runtime.pendingCompletionEventIds := by
  unfold startMessageEdit at h
  split at h
  . contradiction
  . split at h
    . contradiction
    . split at h
      . next hediting =>
        split at h
        . contradiction
        . injection h with h
          subst h
          simp [runtimeHasBlockers, hediting]
      . split at h
        . contradiction
        . injection h with h
          subst h
          simp [runtimeHasBlockers]

theorem commitMessageEdit_attends {itemId content : String}
    (h : runtime.commitMessageEdit itemId content = .ok runtime')
    : runtime'.dispatchRetryScheduled = runtime.dispatchRetryScheduled
        ∧
      runtime'.pendingCompletionEventIds = runtime.pendingCompletionEventIds := by
  unfold commitMessageEdit at h
  split at h
  . contradiction
  . split at h
    . contradiction
    . split at h
      . contradiction
      . dsimp at h
        split at h
        . contradiction
        . split at h
          . contradiction
          . injection h with h
            subst h
            exact ⟨rfl, rfl⟩

theorem cancelMessageEdit_attends {itemId : String}
    (h : runtime.cancelMessageEdit itemId = .ok runtime')
    : runtime'.dispatchRetryScheduled = runtime.dispatchRetryScheduled
        ∧
      runtime'.pendingCompletionEventIds = runtime.pendingCompletionEventIds := by
  unfold cancelMessageEdit at h
  split at h
  . contradiction
  . injection h with h
    subst h
    exact ⟨rfl, rfl⟩

theorem takeSteer_attends {dispatch : PendingSteerDispatch}
    (h : runtime.takeSteer = some (runtime', dispatch))
    : runtime'.runtimeHasBlockers = true
        ∧
      runtime'.dispatchRetryScheduled = runtime.dispatchRetryScheduled
        ∧
      runtime'.pendingCompletionEventIds = runtime.pendingCompletionEventIds := by
  unfold takeSteer at h
  split at h
  . contradiction
  . split at h
    . simp only [Option.some.injEq, Prod.mk.injEq] at h
      obtain ⟨rfl, rfl⟩ := h
      simp [runtimeHasBlockers]
    . contradiction

theorem permissionRequested_attends (requestId : String)
    : (runtime.permissionRequested requestId).runtimeHasBlockers = true := by
  have hmem : requestId ∈ (runtime.permissionRequested requestId).pendingApprovalIds :=
    List.mem_insert_self
  simp [runtimeHasBlockers, List.ne_nil_of_mem hmem]

theorem elicitationRequested_attends (requestId : String)
    : (runtime.elicitationRequested requestId).runtimeHasBlockers = true := by
  have hmem : requestId ∈ (runtime.elicitationRequested requestId).pendingUserInputIds :=
    List.mem_insert_self
  simp [runtimeHasBlockers, List.ne_nil_of_mem hmem]

/--
A failed dispatch is a pending steer again; where none was in flight, only the error changes.
-/
theorem failSteerDispatch_attends (runtime : BridgeThreadQueueRuntime) (itemId error : String)
    : (runtime.failSteerDispatch itemId error).items = runtime.items
        ∧
      (runtime.runtimeHasBlockers = true →
        (runtime.failSteerDispatch itemId error).runtimeHasBlockers = true)
        ∧
      (runtime.failSteerDispatch itemId error).dispatchRetryScheduled
        =
      runtime.dispatchRetryScheduled
        ∧
      (runtime.failSteerDispatch itemId error).pendingCompletionEventIds
        =
      runtime.pendingCompletionEventIds := by
  unfold failSteerDispatch
  dsimp
  split
  . simp [runtimeHasBlockers]
  . simp [runtimeHasBlockers]

theorem prepareAnswered_attends (runtime : BridgeThreadQueueRuntime) (result : Except String Nat)
    : (runtime.prepareAnswered result).items = runtime.items
        ∧
      (runtime.prepareAnswered result).runtimeHasBlockers
        =
      { runtime with steerPrepareInFlight := false }.runtimeHasBlockers
        ∧
      (runtime.prepareAnswered result).dispatchRetryScheduled = runtime.dispatchRetryScheduled
        ∧
      (runtime.prepareAnswered result).pendingCompletionEventIds
        =
      runtime.pendingCompletionEventIds := by
  cases result <;> exact ⟨rfl, rfl, rfl, rfl⟩

theorem steerAnswered_attends {dispatch : PendingSteerDispatch} {result : Except String Unit}
    (h : runtime.steerAnswered dispatch result = some runtime')
    : runtime.steerDispatchInFlight.any (·.entry.id = dispatch.entry.id) = true
        ∧
      runtime'.dispatchRetryScheduled = runtime.dispatchRetryScheduled
        ∧
      runtime'.pendingCompletionEventIds = runtime.pendingCompletionEventIds
        ∧
      (result.isOk = true →
        runtime'.items = runtime.items
          ∧
        runtime'.runtimeHasBlockers
          =
        { runtime with steerDispatchInFlight := none }.runtimeHasBlockers) := by
  unfold steerAnswered at h
  split at h
  . contradiction
  . next owned howned =>
    split at h
    . contradiction
    . next hid =>
      split at h
      . injection h with h
        subst h
        simpa [howned, runtimeHasBlockers] using hid
      . dsimp at h
        split at h
        all_goals
          injection h with h
          subst h
          simpa [howned, Except.isOk, Except.toBool] using hid

theorem items_or_blockers_of_not_dispatch
    (h : ¬(runtime.shouldQueueCompletion || runtime.shouldDispatch) = true)
    : runtime.items = [] ∨ runtime.runtimeHasBlockers = true := by
  simp only [shouldQueueCompletion, shouldDispatch, Bool.or_eq_true, not_or, Bool.not_eq_true,
    Bool.and_eq_false_iff, Bool.not_eq_false'] at h
  obtain ⟨hstart, hdispatch⟩ := h
  obtain ((hidle | hsteer) | hediting) | hempty := hdispatch
  . exact absurd hidle (by simp [hstart])
  . right
    cases hinFlight : runtime.steerDispatchInFlight <;> simp_all [runtimeHasBlockers]
  . right
    cases hitem : runtime.editingItemId <;> simp_all [runtimeHasBlockers]
  . left
    simpa using hempty

theorem toolUpdated_attends (runtime : BridgeThreadQueueRuntime) (generation : Option Nat) (runId sourceTurnId : Option String)
    (toolCallId : String) (status : ToolCallStatus)
    : (runtime.toolUpdated generation runId sourceTurnId toolCallId status).1.items = runtime.items
        ∧
      (runtime.toolUpdated generation runId sourceTurnId toolCallId status).1.runtimeHasBlockers
        =
      runtime.runtimeHasBlockers
        ∧
      (runtime.toolUpdated generation runId sourceTurnId toolCallId status).1.dispatchRetryScheduled
        =
      runtime.dispatchRetryScheduled
        ∧
      (runtime.toolUpdated generation runId sourceTurnId toolCallId status).1.lastError
        =
      runtime.lastError
        ∧
      (runtime.toolUpdated generation runId sourceTurnId toolCallId status).1.pendingCompletionEventIds
        =
      runtime.pendingCompletionEventIds := by
  unfold toolUpdated
  dsimp only
  split
  . exact ⟨rfl, rfl, rfl, rfl, rfl⟩
  . split <;> exact ⟨rfl, rfl, rfl, rfl, rfl⟩

end BridgeThreadQueueRuntime

/-! The invariant -/

namespace Attended

variable {s t : ThreadState}

theorem init : Attended {} where
  scheduled := by simp
  covered := .of_items rfl

theorem free (hactor : t.actor = none)
    (hscheduled : (t.runtime.getD {}).dispatchRetryScheduled = true → t.retries ≠ 0)
    (hcovered : t.Covered)
    : Attended t where
  scheduled := hscheduled
  covered := by
    rw [hactor]
    exact hcovered

theorem covered_of_free (h : Attended s) (hfree : s.actor = none) : s.Covered := by
  have hcovered := h.covered
  rw [hfree] at hcovered
  exact hcovered

/--
Steps that leave the runtime and the holder of the actor lock alone.
-/
theorem congr (h : Attended s) (hruntime : t.runtime = s.runtime) (hactor : t.actor = s.actor)
    (hdrains : s.drains ≤ t.drains) (hretries : s.retries ≤ t.retries)
    (hlog : t.log.lastTurnStart = s.log.lastTurnStart)
    : Attended t where
  scheduled := by
    rw [hruntime]
    intro hscheduled
    have := h.scheduled hscheduled
    omega
  covered := by
    rw [hactor]
    apply h.covered.mono (by rw [hruntime]) (by simp [hruntime]) hlog
    intro hcovered
    apply hcovered.mono (by simp [hruntime])
    . intro hblocked
      exact .of_blockers (hruntime ▸ hblocked)
    . intro hpending
      cases hpending with
      | inl hdrains => exact .of_drains (by omega)
      | inr hretries => exact .of_retries (by omega)
    . intro hfailed
      right
      simpa [ThreadState.FailedDefinitively, hruntime, hlog] using hfailed

/--
A section under the actor lock that neither starts nor ends an operation.
-/
theorem setRuntime (h : Attended s) (hfree : s.actor = none) (runtime : BridgeThreadQueueRuntime)
    (hscheduled : runtime.dispatchRetryScheduled = (s.runtime.getD {}).dispatchRetryScheduled)
    (hcovered : (s.setRuntime runtime).Covered)
    : Attended (s.setRuntime runtime) :=
  free hfree (fun hs => h.scheduled (hscheduled ▸ hs)) hcovered

theorem request (h : Attended s) {result : Except String ThreadState}
    (hok : ∀ t, result = .ok t → Attended t)
    : Attended (Thread.request s result) := by
  cases result with
  | ok t => exact hok t rfl
  | error _ => exact h

theorem ensureThreadRuntime (h : Attended s) (snapshot : QueueRuntimeSnapshot)
    : Attended (Thread.ensureThreadRuntime s snapshot) := by
  unfold Thread.ensureThreadRuntime
  split
  . exact h
  . next hruntime =>
    -- The queue is empty before and after, and nothing has blocked it before.
    refine ⟨by simp [BridgeThreadQueueRuntime.hydrateThreadRuntime], ?_⟩
    apply h.covered.mono
    . simp [hruntime, BridgeThreadQueueRuntime.hydrateThreadRuntime]
    . simp [hruntime, BridgeThreadQueueRuntime.runtimeHasBlockers]
    . rfl
    . intro _
      exact .of_items rfl

theorem storeAnswer (h : Attended s) {op : ActorOp} {answer : StoreAnswer}
    (hactor : s.actor = some op) (hstep : Thread.storeAnswer s op answer = some t)
    : Attended t := by
  have hcovered := h.covered
  have hscheduled := h.scheduled
  rw [hactor] at hcovered
  unfold Thread.storeAnswer at hstep
  split at hstep
  all_goals
    simp only [Option.some.injEq, reduceCtorEq] at hstep
    try subst hstep
    try exact ⟨hscheduled, hcovered⟩
  case h_7 => exact ⟨hscheduled, .of_items hcovered⟩
  case h_9 => exact ⟨hscheduled, .of_items hcovered⟩
  case h_11 =>
    split
    . exact ⟨hscheduled, .of_drains (Nat.succ_ne_zero _)⟩
    . exact ⟨hscheduled, .of_blockers (hcovered.resolve_left ‹_›)⟩

/--
The queued message clears the error, so what covers the queue must be something else.
-/
theorem sendQueue (h : Attended s) {entry : BridgeQueuedMessageEntry}
    (hactor : s.actor = some (.sendQueue entry)) (hguard : s.attended (s.runtime.getD {}) = true)
    {runtime' : BridgeThreadQueueRuntime}
    (hpush : (s.runtime.getD {}).pushQueued entry = .ok runtime')
    : Attended ((s.setRuntime runtime').setActor (.sendReserveQueued entry)) where
  scheduled := by
    have heffect := BridgeThreadQueueRuntime.pushQueued_attends hpush
    simpa [heffect] using h.scheduled
  covered := by
    have heffect := BridgeThreadQueueRuntime.pushQueued_attends hpush
    have hcovered := h.covered
    rw [hactor] at hcovered
    have hoccupied : (s.runtime.getD {}).runtimeHasBlockers = true ∨ (s.runtime.getD {}).items ≠ [] := by
      simpa [BridgeThreadQueueRuntime.runtimeIsBlockedOrOccupied] using hcovered.2
    obtain hempty | hblocked | hdrains | hretries := (ThreadState.attended_iff _).mp hguard
    . have hblocked := hoccupied.resolve_right (not_not_intro hempty)
      exact ThreadState.Covered.of_blockers (by simpa [heffect] using hblocked)
    . exact ThreadState.Covered.of_blockers (by simpa [heffect] using hblocked)
    . exact ThreadState.Covered.of_drains hdrains
    . exact ThreadState.Covered.of_retries hretries

theorem drainAnsweredError (h : Attended s) {entry : BridgeQueuedMessageEntry} {error : String}
    (hactor : s.actor = some (.drainAnswered entry (.error error)))
    (hguard : leavesAttended s .proceed)
    : (s.setRuntime ((s.runtime.getD {}).drainFailed entry error).takeCompletions).Covered := by
  have hcovered := h.covered
  rw [hactor] at hcovered
  by_cases hdefinite : dispatchFailureIsIndeterminate error = false
  . right
    exact ⟨error, hcovered, hdefinite, rfl⟩
  . simp only [Bool.not_eq_false] at hdefinite
    simp only [leavesAttended, hactor, hdefinite, Bool.not_true, Bool.false_or] at hguard
    obtain hempty | hblocked | hdrains | hretries := (ThreadState.attended_iff _).mp hguard
    . apply ThreadState.Covered.of_items
      simpa [BridgeThreadQueueRuntime.drainFailed, BridgeThreadQueueRuntime.takeCompletions,
        hdefinite] using hempty
    . exact .of_blockers hblocked
    . exact .of_drains hdrains
    . exact .of_retries hretries

/--
A refused queued message leaves fewer items behind.
-/
theorem sendRetract (h : Attended s) {entry : BridgeQueuedMessageEntry}
    (hactor : s.actor = some (.sendRetract entry))
    : (s.setRuntime ((s.runtime.getD {}).retractQueued entry.id)).Covered := by
  have hcovered := h.covered
  rw [hactor] at hcovered
  apply ThreadState.Covered.mono hcovered
  . intro hempty
    simp [BridgeThreadQueueRuntime.retractQueued, hempty]
  . exact fun hblocked => .of_blockers hblocked
  . intro hpending
    cases hpending with
    | inl hdrains => exact .of_drains hdrains
    | inr hretries => exact .of_retries hretries
  . exact fun hfailed => .inr hfailed

theorem proceed (h : Attended s) {op : ActorOp} (hactor : s.actor = some op)
    (hguard : leavesAttended s .proceed) (hstep : Thread.proceed s op = some t)
    : Attended t := by
  have hcovered := h.covered
  have hscheduled := h.scheduled
  rw [hactor] at hcovered
  unfold Thread.proceed at hstep
  dsimp only at hstep
  split at hstep
  case h_1 entry =>
    split at hstep
    all_goals
      injection hstep with hstep
      subst hstep
    . next hpush =>
      simp only [leavesAttended, hactor] at hguard
      exact h.sendQueue hactor hguard hpush
    . exact ⟨hscheduled, hcovered.1⟩
  case h_2 entry =>
    injection hstep with hstep
    subst hstep
    exact ⟨hscheduled, h.sendRetract hactor⟩
  case h_3 entry =>
    injection hstep with hstep
    subst hstep
    exact ⟨hscheduled, hcovered⟩
  case h_4 entry turnId =>
    injection hstep with hstep
    subst hstep
    exact ⟨hscheduled, .of_blockers rfl⟩
  case h_5 entry error =>
    split at hstep
    all_goals
      injection hstep with hstep
      subst hstep
    . exact ⟨hscheduled, .of_items hcovered⟩
    . exact ⟨hscheduled, hcovered⟩
  case h_6 itemId error shouldDispatch =>
    injection hstep with hstep
    subst hstep
    split
    . exact ⟨hscheduled, .of_drains (Nat.succ_ne_zero _)⟩
    . exact ⟨hscheduled, .of_blockers (hcovered.resolve_left ‹_›)⟩
  case h_7 entry error =>
    injection hstep with hstep
    subst hstep
    have hretries := ThreadState.retries_ne_zero_of_markFailed hscheduled
    exact ⟨fun _ => hretries, .of_retries hretries⟩
  case h_8 =>
    injection hstep with hstep
    subst hstep
    exact ⟨hscheduled, hcovered⟩
  case h_9 entry turnId =>
    injection hstep with hstep
    subst hstep
    exact ⟨hscheduled, .of_blockers rfl⟩
  case h_10 entry error =>
    have := h.drainAnsweredError hactor hguard
    split at hstep
    all_goals
      injection hstep with hstep
      subst hstep
      exact ⟨hscheduled, this⟩
  case h_11 =>
    injection hstep with hstep
    subst hstep
    exact ⟨hscheduled, hcovered⟩
  case h_12 =>
    injection hstep with hstep
    subst hstep
    exact ⟨hscheduled, hcovered⟩
  case h_13 =>
    injection hstep with hstep
    subst hstep
    exact ⟨hscheduled, .of_drains (Nat.succ_ne_zero _)⟩
  case h_14 => contradiction

theorem allocate (h : Attended s) {op : ActorOp} {id : String} (hactor : s.actor = some op)
    (hstep : Thread.allocate s op id = some t)
    : Attended t := by
  have hcovered := h.covered
  rw [hactor] at hcovered
  unfold Thread.allocate at hstep
  split at hstep
  . next request =>
    split at hstep
    . contradiction
    . dsimp only at hstep
      split at hstep
      . next hoccupied =>
        injection hstep with hstep
        subst hstep
        refine ⟨h.scheduled, hcovered, ?_⟩
        cases hruntime : s.runtime <;> simp_all
      . next hoccupied =>
        injection hstep with hstep
        subst hstep
        refine ⟨h.scheduled, ?_⟩
        cases hruntime : s.runtime with
        | none => simp [ThreadState.CoveredAt]
        | some runtime =>
          have hfree : runtime.runtimeHasBlockers = false ∧ runtime.items = [] := by
            simpa [hruntime, BridgeThreadQueueRuntime.runtimeIsBlockedOrOccupied] using hoccupied
          simp [ThreadState.CoveredAt, hfree]
  . contradiction

theorem turnStartAnswer (h : Attended s) {op : ActorOp} {answer : Except String String}
    (hactor : s.actor = some op) (hstep : Thread.turnStartAnswer s op answer = some t)
    : Attended t := by
  have hcovered := h.covered
  have hscheduled := h.scheduled
  rw [hactor] at hcovered
  unfold Thread.turnStartAnswer at hstep
  dsimp only at hstep
  split at hstep
  case h_3 => contradiction
  all_goals
    injection hstep with hstep
    subst hstep
    split
  all_goals first | exact ⟨hscheduled, hcovered⟩ | exact ⟨hscheduled, rfl⟩

theorem steerMessage (h : Attended s) (hfree : s.actor = none) (itemId : String)
    : Attended (Thread.steerMessage s itemId) := by
  unfold Thread.steerMessage
  split
  . exact h
  . next runtime hruntime =>
    apply h.request
    intro t ht
    cases hsteer : runtime.steerMessage itemId with
    | error error => simp [hsteer, Except.map] at ht
    | ok runtime' =>
      have heffect := BridgeThreadQueueRuntime.steerMessage_attends hsteer
      simp only [hsteer, Except.map, Except.ok.injEq] at ht
      subst ht
      apply free (by exact hfree)
      . simpa [heffect, hruntime] using h.scheduled
      . exact .of_blockers heffect.1

theorem cancelMessage (h : Attended s) (itemId : String)
    : Attended (Thread.cancelMessage s itemId) := by
  unfold Thread.cancelMessage
  split
  . exact h
  . next runtime hruntime =>
    apply h.request
    intro t ht
    cases hcancel : runtime.cancelMessage itemId with
    | error error => simp [hcancel, Except.map] at ht
    | ok result =>
      obtain ⟨runtime', submissionId⟩ := result
      have heffect := BridgeThreadQueueRuntime.cancelMessage_attends hcancel
      simp only [hcancel, Except.map, Except.ok.injEq] at ht
      subst ht
      refine ⟨by simpa [heffect, hruntime] using h.scheduled, ?_⟩
      cases hblocked : runtime'.runtimeHasBlockers <;> simp [ThreadState.CoveredAt, hblocked]

theorem startMessageEdit (h : Attended s) (hfree : s.actor = none) (itemId : String)
    : Attended (Thread.startMessageEdit s itemId) := by
  unfold Thread.startMessageEdit
  split
  . exact h
  . next runtime hruntime =>
    apply h.request
    intro t ht
    cases hedit : runtime.startMessageEdit itemId with
    | error error => simp [hedit, Except.map] at ht
    | ok runtime' =>
      have heffect := BridgeThreadQueueRuntime.startMessageEdit_attends hedit
      simp only [hedit, Except.map, Except.ok.injEq] at ht
      subst ht
      apply h.setRuntime hfree
      . simp [heffect, hruntime]
      . exact .of_blockers heffect.1

theorem finishEdit (h : Attended s) (hfree : s.actor = none)
    {result : Except String BridgeThreadQueueRuntime}
    (hscheduled : ∀ runtime, result = .ok runtime →
      runtime.dispatchRetryScheduled = (s.runtime.getD {}).dispatchRetryScheduled)
    : Attended (Thread.finishEdit s result) := by
  unfold Thread.finishEdit
  apply h.request
  intro t ht
  cases result with
  | error error => simp [Except.map] at ht
  | ok runtime =>
    have hscheduled := hscheduled runtime rfl
    simp only [Except.map, Except.ok.injEq] at ht
    subst ht
    split
    . next hblocked => exact h.setRuntime hfree runtime hscheduled (.of_blockers hblocked)
    . apply free (by exact hfree)
      . simpa [hscheduled] using h.scheduled
      . exact .of_drains (Nat.succ_ne_zero _)

theorem commitMessageEdit (h : Attended s) (hfree : s.actor = none) (itemId content : String)
    : Attended (Thread.commitMessageEdit s itemId content) := by
  unfold Thread.commitMessageEdit
  split
  . exact h
  . next runtime hruntime =>
    apply h.finishEdit hfree
    intro runtime' hcommit
    simpa [hruntime] using (BridgeThreadQueueRuntime.commitMessageEdit_attends hcommit).1

theorem cancelMessageEdit (h : Attended s) (hfree : s.actor = none) (itemId : String)
    : Attended (Thread.cancelMessageEdit s itemId) := by
  unfold Thread.cancelMessageEdit
  split
  . exact h
  . next runtime hruntime =>
    apply h.finishEdit hfree
    intro runtime' hcancel
    simpa [hruntime] using (BridgeThreadQueueRuntime.cancelMessageEdit_attends hcancel).1

/--
The drain either finds a blocker, or takes the front of the queue, or finds it empty.
-/
theorem drainThreadQueue (h : Attended s) (hfree : s.actor = none)
    : Attended (Thread.drainThreadQueue s) := by
  unfold Thread.drainThreadQueue
  dsimp only
  split
  . next hruntime =>
    exact free hfree (by simp [hruntime]) (.of_items (by simp [hruntime]))
  . next runtime hruntime =>
    have hscheduled := h.scheduled
    simp only [hruntime, Option.getD_some] at hscheduled
    split
    . next hblocked =>
      apply free (by exact hfree)
      . simpa [hruntime] using hscheduled
      . apply ThreadState.Covered.of_blockers
        rw [hruntime]
        exact hblocked
    . split
      . next hitems => exact ⟨hscheduled, .of_items hitems⟩
      . exact ⟨hscheduled, trivial⟩

theorem retryWake (h : Attended s) : Attended (Thread.retryWake s) where
  scheduled := by
    cases hruntime : s.runtime <;>
    simp [Thread.retryWake, hruntime, BridgeThreadQueueRuntime.clearRetryScheduled]
  covered := by
    apply h.covered.mono
    . cases hruntime : s.runtime <;>
      simp [Thread.retryWake, hruntime, BridgeThreadQueueRuntime.clearRetryScheduled]
    . cases hruntime : s.runtime <;>
      simp [Thread.retryWake, hruntime, BridgeThreadQueueRuntime.clearRetryScheduled,
        BridgeThreadQueueRuntime.runtimeHasBlockers]
    . rfl
    . intro _
      exact .of_drains (Nat.succ_ne_zero _)

/--
A run end that spawns no drain finds the queue empty, in an edit, or waiting for a steer.
-/
theorem runEnd (h : Attended s) (hfree : s.actor = none) (eventId : Nat) (sourceTurnId : String)
    (generation : Nat)
    : Attended (Thread.runEnd s eventId sourceTurnId generation) := by
  unfold Thread.runEnd
  dsimp only
  split
  . apply h.setRuntime hfree _ rfl
    exact h.covered_of_free hfree
  . split
    . exact ⟨h.scheduled, trivial⟩
    . next hdispatch =>
      have hcovered : ((s.setRuntime (s.runtime.getD {}).runEnded).noteFinished eventId).Covered := by
        have hrest := BridgeThreadQueueRuntime.items_or_blockers_of_not_dispatch hdispatch
        cases hrest with
        | inl hempty => exact .of_items hempty
        | inr hblocked => exact .of_blockers hblocked
      split
      all_goals exact free hfree h.scheduled hcovered

theorem prepareAnswer (h : Attended s) {task : Nat} {u : SteerTask} {result : Except String Nat}
    (hstep : Thread.prepareAnswer s task u result = some t)
    : Attended t := by
  unfold Thread.prepareAnswer at hstep
  split at hstep
  . injection hstep with hstep
    exact hstep ▸ h.congr rfl rfl (Nat.le_refl _) (Nat.le_refl _) rfl
  . contradiction

theorem verifyAnswer (h : Attended s) {task : Nat} {u : SteerTask} {result : Except String Bool}
    (hstep : Thread.verifyAnswer s task u result = some t)
    : Attended t := by
  unfold Thread.verifyAnswer at hstep
  split at hstep
  case h_4 => contradiction
  all_goals
    injection hstep with hstep
    exact hstep ▸ h.congr rfl rfl (Nat.le_refl _) (Nat.le_refl _) rfl

theorem steerAnswer (h : Attended s) {task : Nat} {u : SteerTask} {result : Except String Unit}
    (hstep : Thread.steerAnswer s task u result = some t)
    : Attended t := by
  unfold Thread.steerAnswer at hstep
  split at hstep
  . next dispatch =>
    injection hstep with hstep
    subst hstep
    split
    all_goals exact h.congr rfl rfl (Nat.le_refl _) (Nat.le_refl _) rfl
  . contradiction

/--
A resolved interaction may lift the last blocker; the guard says that it then leaves a drain.
-/
theorem interactionResolved (h : Attended s) (hfree : s.actor = none)
    {resolve : BridgeThreadQueueRuntime → BridgeThreadQueueRuntime}
    (hscheduled : ∀ runtime,
      (resolve runtime).dispatchRetryScheduled = runtime.dispatchRetryScheduled)
    (hlastError : ∀ runtime, (resolve runtime).lastError = runtime.lastError)
    (hguard : s.attended (resolve (s.runtime.getD {})) || !s.attended (s.runtime.getD {}))
    : Attended (Thread.interactionResolved s resolve) := by
  unfold Thread.interactionResolved
  split
  . exact h
  . next runtime hruntime =>
    have hset : Attended (s.setRuntime (resolve runtime)) := by
      apply h.setRuntime hfree
      . simp [hscheduled, hruntime]
      . simp only [hruntime, Option.getD_some, Bool.or_eq_true, Bool.not_eq_true'] at hguard
        cases hguard with
        | inl hattended => exact .inl hattended
        | inr hunattended =>
          right
          have hcovered := h.covered_of_free hfree
          simp only [ThreadState.Covered, hruntime, Option.getD_some, hunattended] at hcovered
          simpa [ThreadState.FailedDefinitively, hruntime, hlastError] using hcovered
    dsimp only
    split
    . exact hset.congr rfl rfl (Nat.le_refl _) (Nat.le_refl _) rfl
    . exact hset

theorem handleCanonicalEvent (h : Attended s) (hfree : s.actor = none) {eventId : Nat}
    {event : CanonicalEvent} (hguard : leavesAttended s (.handleCanonicalEvent eventId event))
    : Attended (Thread.handleCanonicalEvent s eventId event) := by
  unfold Thread.handleCanonicalEvent
  dsimp only
  split
  case h_1 => exact h.setRuntime hfree _ rfl (.of_blockers rfl)
  case h_2 => exact h.runEnd hfree _ _ _
  case h_3 => exact h.runEnd hfree _ _ _
  case h_4 _ _ runId sourceTurnId generation toolCallId _ status _ _ _ _ =>
    obtain ⟨hitems, hblockers, hscheduled, hlastError, -⟩ :=
      (s.runtime.getD {}).toolUpdated_attends generation runId sourceTurnId toolCallId status
    have hset := h.setRuntime hfree _ hscheduled <| by
      apply (h.covered_of_free hfree).mono
      . exact fun hempty => hitems.trans hempty
      . exact fun hblocked => .of_blockers (hblockers.trans hblocked)
      . intro hpending
        cases hpending with
        | inl hdrains => exact .of_drains hdrains
        | inr hretries => exact .of_retries hretries
      . intro hfailed
        right
        simpa [ThreadState.FailedDefinitively, hlastError] using hfailed
    split
    . exact hset.congr rfl rfl (Nat.le_refl _) (Nat.le_refl _) rfl
    . exact hset
  case h_5 approval =>
    refine h.setRuntime hfree _ rfl ?_
    exact .of_blockers (BridgeThreadQueueRuntime.permissionRequested_attends _)
  case h_6 => exact h.interactionResolved hfree (fun _ => rfl) (fun _ => rfl) hguard
  case h_7 request =>
    refine h.setRuntime hfree _ rfl ?_
    exact .of_blockers (BridgeThreadQueueRuntime.elicitationRequested_attends _)
  case h_8 => exact h.interactionResolved hfree (fun _ => rfl) (fun _ => rfl) hguard
  case h_9 => exact h

theorem steerSection (h : Attended s) (hfree : s.actor = none)
    {bridgePrompt : Json → Except String Unit} {task : Nat} {u : SteerTask}
    (htask : s.steers[task]? = some u) (hguard : leavesAttended s (.steerSection task))
    (hstep : Thread.steerSection bridgePrompt s task u = some t)
    : Attended t := by
  simp only [leavesAttended, htask] at hguard
  unfold Thread.steerSection at hstep
  split at hstep
  . split at hstep
    case h_5 => contradiction
    all_goals
      injection hstep with hstep
      subst hstep
      exact h.congr rfl rfl (Nat.le_refl _) (Nat.le_refl _) rfl
  . next runtime hruntime =>
    have hscheduled := h.scheduled
    simp only [hruntime, Option.getD_some] at hscheduled hguard
    split at hstep
    case h_1 =>
      split at hstep
      all_goals
        injection hstep with hstep
        subst hstep
      . exact free hfree hscheduled (.of_blockers (by simp [BridgeThreadQueueRuntime.beginPrepare,
          BridgeThreadQueueRuntime.runtimeHasBlockers]))
      . exact h.congr rfl rfl (Nat.le_refl _) (Nat.le_refl _) rfl
    case h_2 result =>
      obtain ⟨hitems, hblockers, hretry, -⟩ :=
        runtime.prepareAnswered_attends result
      have hset : Attended (s.setRuntime (runtime.prepareAnswered result)) := by
        apply h.setRuntime hfree
        . simpa [hruntime] using hretry
        . left
          simpa [ThreadState.attended, hitems, hblockers] using hguard
      dsimp only at hstep
      split at hstep
      . injection hstep with hstep
        subst hstep
        exact hset.congr rfl rfl (Nat.le_refl _) (Nat.le_refl _) rfl
      . split at hstep
        . injection hstep with hstep
          subst hstep
          split
          . exact hset.congr rfl rfl (Nat.le_succ _) (Nat.le_refl _) rfl
          . exact hset.congr rfl rfl (Nat.le_refl _) (Nat.le_refl _) rfl
        . contradiction
    case h_3 =>
      split at hstep
      . injection hstep with hstep
        subst hstep
        exact h.congr rfl rfl (Nat.le_refl _) (Nat.le_refl _) rfl
      . next runtime' dispatch htake =>
        have heffect := BridgeThreadQueueRuntime.takeSteer_attends htake
        split at hstep
        all_goals
          injection hstep with hstep
          subst hstep
          exact free hfree (by simpa [heffect] using hscheduled) (.of_blockers heffect.1)
    case h_4 dispatch result =>
      split at hstep
      . injection hstep with hstep
        subst hstep
        exact h.congr rfl rfl (Nat.le_refl _) (Nat.le_refl _) rfl
      . next runtime' hanswer =>
        have heffect := BridgeThreadQueueRuntime.steerAnswered_attends hanswer
        split at hstep
        . injection hstep with hstep
          subst hstep
          apply free (by exact hfree)
          . simpa [heffect] using hscheduled
          . simp only [heffect.1, Bool.not_true, Bool.or_false] at hguard
            obtain ⟨hitems, hblockers⟩ := heffect.2.2.2 rfl
            obtain hempty | hblocked | hdrains | hretries := (ThreadState.attended_iff _).mp hguard
            . exact .of_items (hitems.trans hempty)
            . exact .of_blockers (hblockers.trans hblocked)
            . exact .of_drains hdrains
            . exact .of_retries hretries
        . injection hstep with hstep
          subst hstep
          apply free (by exact hfree)
          . simpa [heffect] using hscheduled
          . exact .of_drains (Nat.succ_ne_zero _)
    case h_5 => contradiction

theorem failSteerDispatch (h : Attended s) {task : Nat} {u : SteerTask}
    (hguard : leavesAttended s (.failSteerDispatch task))
    (hstep : Thread.failSteerDispatch s task u = some t)
    : Attended t := by
  unfold Thread.failSteerDispatch at hstep
  split at hstep
  . next owned itemId error =>
    injection hstep with hstep
    subst hstep
    cases hruntime : s.runtime with
    | none => exact h.congr (by simp [hruntime]) rfl (Nat.le_refl _) (Nat.le_refl _) rfl
    | some runtime =>
      obtain ⟨hitems, hblockers, hscheduled, -⟩ :=
        runtime.failSteerDispatch_attends itemId error
      constructor
      . simpa [hruntime, hscheduled] using h.scheduled
      . apply h.covered.mono
        . simpa [hruntime] using hitems
        . simpa [hruntime] using hblockers
        . rfl
        . intro _
          simp only [leavesAttended, hruntime, Option.getD_some] at hguard
          obtain hempty | hblocked | hdrains | hretries := (ThreadState.attended_iff _).mp hguard
          . exact .of_items (by simpa using hitems.trans hempty)
          . exact .of_blockers (by simpa using hblockers hblocked)
          . exact .of_drains hdrains
          . exact .of_retries hretries
  . contradiction

/--
What one step preserves.
-/
theorem step (h : Attended s) {bridgePrompt : Json → Except String Unit} {label : Label}
    (hguard : leavesAttended s label) (hstep : Thread.step bridgePrompt s label = some t)
    : Attended t := by
  cases Thread.Steps.of_step hstep with
  | ensureThreadRuntime snapshot => exact h.ensureThreadRuntime snapshot
  | sendMessage request hfree => exact ⟨h.scheduled, h.covered_of_free hfree⟩
  | storeAnswer hactor hanswer => exact h.storeAnswer hactor hanswer
  | allocate hactor hallocate => exact h.allocate hactor hallocate
  | proceed hactor hproceed => exact h.proceed hactor hguard hproceed
  | turnStartAnswer hactor hanswer => exact h.turnStartAnswer hactor hanswer
  | steerMessage itemId hfree => exact h.steerMessage hfree itemId
  | cancelMessage itemId => exact h.cancelMessage itemId
  | startMessageEdit itemId hfree => exact h.startMessageEdit hfree itemId
  | commitMessageEdit itemId content hfree => exact h.commitMessageEdit hfree itemId content
  | cancelMessageEdit itemId hfree => exact h.cancelMessageEdit hfree itemId
  | drainThreadQueue hfree => exact h.drainThreadQueue hfree
  | retryWake => exact h.retryWake
  | handleCanonicalEvent eventId event hfree =>
    apply handleCanonicalEvent
    . exact h.congr rfl rfl (Nat.le_refl _) (Nat.le_refl _) rfl
    . exact hfree
    . exact hguard
  | steerSection hfree htask hsection => exact h.steerSection hfree htask hguard hsection
  | prepareAnswer htask hanswer => exact h.prepareAnswer hanswer
  | verifyAnswer htask hanswer => exact h.verifyAnswer hanswer
  | steerAnswer htask hanswer => exact h.steerAnswer hanswer
  | failSteerDispatch htask hfail => exact h.failSteerDispatch hguard hfail

/--
What the invariant says about an idle thread.
-/
theorem notStranded (h : Attended s) : NotStranded s := by
  rintro ⟨hfree, -, hdrains, hretries⟩ runtime hruntime hblockers
  cases h.covered_of_free hfree with
  | inl hattended =>
    left
    simpa [ThreadState.attended, hruntime, hblockers, hdrains, hretries] using hattended
  | inr hfailed => exact .inr hfailed

end Attended

/--
In every run in which no step lifts the last blocker of a filled queue without a drain on its way,
no message is left behind on an idle thread.
-/
theorem notStranded_of_exec {bridgePrompt : Json → Except String Unit} {labels : List Label}
    {s : ThreadState} (hmeets : Meets (Thread.step bridgePrompt) (leavesAttended · ·) {} labels)
    (hexec : exec (Thread.step bridgePrompt) {} labels = some s)
    : NotStranded s := by
  have hinv : Attended s := by
    refine exec_invariant ?_ Attended.init hmeets hexec
    intro s label t h hguard hstep
    exact h.step hguard hstep
  exact hinv.notStranded

/--
A message is queued behind a live prompt, sent when the prompt ends, and answered by a new turn.
-/
def oneDrain : List Label :=
  .ensureThreadRuntime Thread.liveSnapshot :: Thread.sendQueued "a"
    ++ [.handleCanonicalEvent 1 (.runFinished "agent" "thread" "run" "turn" 1 .endTurn),
      .proceed, .drainThreadQueue, .storeAnswer .done, .proceed, .turnStartAnswer (.ok "next"), .proceed,
      .storeAnswer .done, .proceed, .proceed]

theorem notStranded_of_oneDrain
    : ∃ s, exec (Thread.step fun _ => .ok ()) {} oneDrain = some s ∧ NotStranded s := by
  have hmeets : Meets (Thread.step fun _ => .ok ()) (leavesAttended · ·) {} oneDrain := by decide
  exact ⟨_, rfl, notStranded_of_exec hmeets rfl⟩

/--
The run ends while a steer is being prepared: the drain it spawns finds the queue blocked, and the
answer to the preparation spawns none.
-/
def strandedByPrepare : List Label :=
  .ensureThreadRuntime Thread.liveSnapshot :: Thread.sendQueued "a"
    ++ [.steerMessage "a", .steerSection 0,
      .handleCanonicalEvent 1 (.runFinished "agent" "thread" "run" "turn" 1 .endTurn),
      .proceed, .drainThreadQueue, .prepareAnswer 0 (.ok 1), .steerSection 0, .verifyAnswer 0 (.ok true),
      .steerSection 0]

theorem not_notStranded_of_strandedByPrepare
    : ¬ ∀ labels s, exec (Thread.step fun _ => .ok ()) {} labels = some s → NotStranded s := by
  intro h
  have hrun : (exec (Thread.step fun _ => .ok ()) {} strandedByPrepare).any (fun s =>
      decide (Thread.Quiescent s) && s.log.lastTurnStart.isNone && s.runtime.any fun runtime =>
        !runtime.runtimeHasBlockers && !runtime.items.isEmpty) = true := by rfl
  obtain ⟨s, hexec, hstranded⟩ := (Option.any_eq_true _ _).mp hrun
  simp only [Bool.and_eq_true, decide_eq_true_eq, Option.isNone_iff_eq_none] at hstranded
  obtain ⟨⟨hquiescent, hnone⟩, hruntime⟩ := hstranded
  obtain ⟨runtime, hruntime, hitems⟩ := (Option.any_eq_true _ _).mp hruntime
  simp only [Bool.and_eq_true, Bool.not_eq_true', List.isEmpty_eq_false_iff] at hitems
  cases h strandedByPrepare s hexec hquiescent runtime hruntime hitems.1 with
  | inl hempty => exact hitems.2 hempty
  | inr hfailed =>
    obtain ⟨error, hlast, -⟩ := hfailed
    simp [hnone] at hlast

end Queue
