import TetherBridge.Data.Outcome
import TetherBridge.Queue.Line

/-!
This module contains the proof that the sections of the queue service are moves of the line.
-/

namespace Queue

open Acp List Transition

def ActorOp.queueing : ActorOp → Option String
  | .sendQueue entry => some entry.id
  | .sendReserveQueued entry => some entry.id
  | .sendRetract entry => some entry.id
  | .sendReserveDirect entry => some entry.id
  | .sendBeginTurn entry => some entry.id
  | .sendTurnStart entry => some entry.id
  | _ => none

def ActorOp.activity : ActorOp → Activity
  | .sendLookup _ | .sendAllocate _ | .sendQueue _ | .sendReserveQueued _ | .sendRetract _
  | .sendRememberQueued _ | .sendReserveDirect _ | .sendBeginTurn _ | .sendTurnStart _
  | .sendAnswered _ _ | .sendRememberSent _ _ | .sendRelease _ => .send
  | .drainAnswered _ (.ok _) => .delivery
  | .drainAnswered _ (.error error) =>
    if dispatchFailureIsIndeterminate error then .loss else .other
  | _ => .other

def BridgeThreadQueueRuntime.line (runtime : BridgeThreadQueueRuntime)
    (dispatching : Option BridgeQueuedMessageEntry) (queueing : Option String)
    (allocated : List String)
    : Line where
  dispatching
  inFlight := runtime.steerDispatchInFlight
  pendingSteers := runtime.pendingSteers
  items := runtime.items
  editing := runtime.editingItemId
  queueing
  allocated

namespace BridgeThreadQueueRuntime

variable (runtime : BridgeThreadQueueRuntime)

def steeredActivity (dispatch : PendingSteerDispatch) (result : Except String Unit) : Activity :=
  match runtime.steerDispatchInFlight with
  | none => .other
  | some owned =>
    if owned.entry.id ≠ dispatch.entry.id then
      .other
    else
      match result with
      | .ok _ => .delivery
      | .error _ => if owned.crossedCompletionBoundary then .requeue else .other

def runEndActivity (sourceTurnId : String) (generation : Nat) : Activity :=
  if runtime.acceptsRunEnd sourceTurnId generation then .endRun else .other

end BridgeThreadQueueRuntime

namespace ThreadState

variable (s : ThreadState)

def line : Line :=
  (s.runtime.getD {}).line (s.actor.bind (·.localDispatch)) (s.actor.bind (·.queueing))
    s.log.allocated

/--
What the next step of the label is about.
-/
def activity : ServiceLabel → Activity
  | .thread (.sendMessage _) | .thread (.allocate _) => .send
  | .thread (.storeAnswer _) | .thread .proceed | .thread (.turnStartAnswer _) =>
    (s.actor.map (·.activity)).getD .other
  | .thread (.cancelMessage itemId) => .cancel itemId
  | .thread (.startMessageEdit itemId) => .startEdit itemId
  | .thread (.commitMessageEdit itemId _) => .endEdit itemId
  | .thread (.cancelMessageEdit itemId) => .endEdit itemId
  | .thread (.steerMessage itemId) => .steer itemId
  | .thread (.steerSection task) =>
    match s.steers[task]? with
    | some (.steered dispatch result) => (s.runtime.getD {}).steeredActivity dispatch result
    | _ => .other
  | .thread (.handleCanonicalEvent _ (.runFinished _ _ _ sourceTurnId generation _)) =>
    (s.runtime.getD {}).runEndActivity sourceTurnId generation
  | .thread (.handleCanonicalEvent _ (.runFailed _ _ _ sourceTurnId generation _)) =>
    (s.runtime.getD {}).runEndActivity sourceTurnId generation
  | _ => .other

variable {s}

theorem line_of_runtime {runtime : BridgeThreadQueueRuntime} (h : s.runtime = some runtime)
    : s.line = runtime.line (s.actor.bind (·.localDispatch)) (s.actor.bind (·.queueing))
        s.log.allocated := by
  unfold line
  rw [h]
  rfl

end ThreadState

theorem Line.Move.of_eq {l l' : Line} {a : Activity} (h : l' = l) : l.Move a l' :=
  h ▸ .rest a

namespace BridgeThreadQueueRuntime

variable {runtime runtime' : BridgeThreadQueueRuntime} {queueing : Option String}
  {allocated : List String}

theorem line_pushQueued {entry : BridgeQueuedMessageEntry}
    (h : runtime.pushQueued entry = .ok runtime')
    : (runtime.line none (some entry.id) allocated).Move .send
        (runtime'.line none (some entry.id) allocated) := by
  unfold pushQueued at h
  dsimp only at h
  split at h
  . contradiction
  . split at h
    . contradiction
    . next hlength hbytes =>
      injection h with h
      subst h
      exact .enqueue rfl rfl (by simpa [line] using hlength) (by simpa [line, Line.bytes] using hbytes)

theorem line_steerMessage {itemId : String} (h : runtime.steerMessage itemId = .ok runtime')
    : (runtime.line none queueing allocated).Move (.steer itemId)
        (runtime'.line none queueing allocated) := by
  unfold steerMessage at h
  split at h
  . contradiction
  . split at h
    . contradiction
    . next hediting =>
      split at h
      . contradiction
      . split at h
        . contradiction
        . next entry hentry =>
          injection h with h
          subst h
          have hid := List.find?_some hentry
          simp only [decide_eq_true_eq] at hid
          subst hid
          exact .steer rfl (by simpa [line] using hediting) hentry

theorem line_cancelMessage {itemId submissionId : String}
    (h : runtime.cancelMessage itemId = .ok (runtime', submissionId))
    : (runtime.line none queueing allocated).Move (.cancel itemId)
        (runtime'.line none queueing allocated) := by
  unfold cancelMessage at h
  split at h
  . contradiction
  . split at h
    . injection h with h
      injection h with h
      subst h
      exact .cancelItem itemId
    . split at h
      . injection h with h
        injection h with h
        subst h
        exact .cancelSteer itemId
      . split at h <;> contradiction

theorem line_startMessageEdit {itemId : String} (h : runtime.startMessageEdit itemId = .ok runtime')
    : (runtime.line none none allocated).Move (.startEdit itemId)
        (runtime'.line none none allocated) := by
  unfold startMessageEdit at h
  split at h
  . contradiction
  . split at h
    . contradiction
    . next hsteers =>
      split at h
      . split at h
        . contradiction
        . injection h with h
          exact .of_eq (h ▸ rfl)
      . next hediting =>
        split at h
        . contradiction
        . next hhead =>
          injection h with h
          subst h
          simp only [Bool.or_eq_true, not_or, Bool.not_eq_true, Option.isSome_eq_false_iff,
            Option.isNone_iff_eq_none, Bool.not_eq_false', List.isEmpty_iff] at hsteers
          exact .startEdit rfl rfl hediting hsteers.1.2 hsteers.2 (by simpa [line] using hhead)

theorem line_commitMessageEdit {itemId content : String}
    (h : runtime.commitMessageEdit itemId content = .ok runtime')
    : (runtime.line none queueing allocated).Move (.endEdit itemId)
        (runtime'.line none queueing allocated) := by
  unfold commitMessageEdit at h
  split at h
  . contradiction
  . next hediting =>
    split at h
    . contradiction
    . next item hitem =>
      split at h
      . contradiction
      . dsimp only at h
        split at h
        . contradiction
        . split at h
          . contradiction
          . next hbytes =>
            injection h with h
            subst h
            have hid := List.find?_some hitem
            simp only [decide_eq_true_eq] at hid
            subst hid
            exact .commitEdit (by simpa [line] using hediting) hitem rfl
              (by simpa [line, Line.bytes] using hbytes)

theorem line_cancelMessageEdit {itemId : String} (h : runtime.cancelMessageEdit itemId = .ok runtime')
    : (runtime.line none queueing allocated).Move (.endEdit itemId)
        (runtime'.line none queueing allocated) := by
  unfold cancelMessageEdit at h
  split at h
  . contradiction
  . next hediting =>
    injection h with h
    exact h ▸ .cancelEdit (by simpa [line] using hediting)

theorem line_takeSteer {dispatch : PendingSteerDispatch}
    (h : runtime.takeSteer = some (runtime', dispatch))
    : (runtime.line none queueing allocated).Move .other
        (runtime'.line none queueing allocated) := by
  unfold takeSteer at h
  split at h
  . contradiction
  . next hblocked =>
    split at h
    . next entry pendingSteers _ _ _ hsteers =>
      injection h with h
      injection h with h
      subst h
      simp only [Bool.or_eq_true, not_or, Bool.not_eq_true, Option.isSome_eq_false_iff,
        Option.isNone_iff_eq_none] at hblocked
      exact .takeSteer rfl (by simpa [line] using hblocked.1.1.1.1.1.1.1) hsteers
    . contradiction

theorem line_failSteerDispatch (runtime : BridgeThreadQueueRuntime) (itemId error : String)
    (dispatching : Option BridgeQueuedMessageEntry)
    : (runtime.line dispatching queueing allocated).Move .other
        ((runtime.failSteerDispatch itemId error).line dispatching queueing allocated) := by
  unfold failSteerDispatch
  dsimp only
  split
  . next hinFlight => exact .returnSteer hinFlight
  . exact .of_eq rfl

theorem line_runEnded (runtime : BridgeThreadQueueRuntime)
    : (runtime.line none queueing allocated).Move .endRun
        (runtime.runEnded.line none queueing allocated) :=
  .endRun rfl

theorem line_steerAnswered {dispatch : PendingSteerDispatch} {result : Except String Unit}
    (h : runtime.steerAnswered dispatch result = some runtime')
    : (runtime.line none queueing allocated).Move (runtime.steeredActivity dispatch result)
        (runtime'.line none queueing allocated) := by
  unfold steeredActivity
  unfold steerAnswered at h
  cases hinFlight : runtime.steerDispatchInFlight with
  | none =>
    rw [hinFlight] at h
    contradiction
  | some owned =>
    rw [hinFlight] at h
    dsimp only at h ⊢
    by_cases howned : owned.entry.id ≠ dispatch.entry.id
    . rw [if_pos howned] at h
      contradiction
    . rw [if_neg howned] at h ⊢
      cases result with
      | ok _ =>
        injection h with h
        exact h ▸ .steered hinFlight
      | error error =>
        dsimp only at h ⊢
        by_cases hcrossed : owned.crossedCompletionBoundary
        . rw [if_pos hcrossed] at h ⊢
          injection h with h
          exact h ▸ .requeueSteer hinFlight
        . rw [if_neg hcrossed] at h ⊢
          injection h with h
          exact h ▸ .returnSteer hinFlight

theorem line_drainFailed (runtime : BridgeThreadQueueRuntime) (entry : BridgeQueuedMessageEntry)
    (error : String)
    : (runtime.line (some entry) queueing allocated).Move
        (ActorOp.activity (.drainAnswered entry (.error error)))
        ((runtime.drainFailed entry error).line none queueing allocated) := by
  unfold drainFailed ActorOp.activity
  dsimp only
  split
  . exact .lost
  . exact .putBack rfl

theorem line_toolUpdated (runtime : BridgeThreadQueueRuntime) (generation : Option Nat)
    (runId sourceTurnId : Option String) (toolCallId : String) (status : ToolCallStatus)
    : (runtime.toolUpdated generation runId sourceTurnId toolCallId status).1.line none queueing
        allocated
        =
      runtime.line none queueing allocated := by
  unfold toolUpdated
  dsimp only
  split
  . rfl
  . split <;> rfl

theorem line_reconcile (runtime : BridgeThreadQueueRuntime)
    (answer : Except String QueueRuntimeSnapshot)
    : (runtime.reconcile answer).line none queueing allocated
        =
      runtime.line none queueing allocated := by
  cases answer <;> rfl

end BridgeThreadQueueRuntime

namespace Thread

open ThreadState

variable {s t : ThreadState}

theorem line_of_free (hfree : s.actor = none)
    : s.line = (s.runtime.getD {}).line none none s.log.allocated := by
  unfold line
  rw [hfree]
  rfl

theorem line_setRuntime (hfree : s.actor = none) (runtime : BridgeThreadQueueRuntime)
    : (s.setRuntime runtime).line = runtime.line none none s.log.allocated :=
  line_of_free hfree

@[simp]
theorem line_setTask (task : Nat) (u : SteerTask) : (s.setTask task u).line = s.line := rfl

@[simp]
theorem line_endTask (task : Nat) : (s.endTask task).line = s.line := rfl

@[simp]
theorem line_spawnSteerDispatch : s.spawnSteerDispatch.line = s.line := rfl

@[simp]
theorem line_spawnAutoDispatch : s.spawnAutoDispatch.line = s.line := rfl

/--
A request that was refused leaves the line as it is.
-/
theorem line_request {result : Except String ThreadState} {a : Activity}
    (h : ∀ t, result = .ok t → s.line.Move a t.line)
    : s.line.Move a (request s result).line := by
  cases result with
  | ok t => exact h t rfl
  | error error => exact .rest a

theorem line_storeAnswer {op : ActorOp} {answer : StoreAnswer} (hactor : s.actor = some op)
    (h : storeAnswer s op answer = some t)
    : s.line.Move op.activity t.line := by
  unfold storeAnswer at h
  split at h
  case h_15 => contradiction
  all_goals
    injection h with h
    subst h
    unfold line
    rw [hactor]
  case h_3 => exact .endQueueing
  case h_7 => exact .endQueueing
  case h_11 => split <;> exact .rest _
  all_goals exact .rest _

theorem line_allocate {op : ActorOp} {id : String} (hactor : s.actor = some op)
    (h : allocate s op id = some t)
    : s.line.Move .send t.line := by
  unfold allocate at h
  split at h
  . split at h
    . contradiction
    . next hfresh =>
      dsimp only at h
      unfold line
      rw [hactor]
      split at h
      all_goals
        injection h with h
        subst h
        exact .allocate hfresh
  . contradiction

theorem line_proceed {op : ActorOp} (hactor : s.actor = some op) (h : proceed s op = some t)
    : s.line.Move op.activity t.line := by
  unfold proceed at h
  dsimp only at h
  unfold line
  rw [hactor]
  split at h
  case h_1 entry =>
    split at h
    . next runtime hpush =>
      injection h with h
      subst h
      exact BridgeThreadQueueRuntime.line_pushQueued hpush
    . injection h with h
      exact h ▸ .endQueueing
  case h_2 entry =>
    injection h with h
    exact h ▸ .retract rfl
  case h_7 entry error =>
    injection h with h
    exact h ▸ .putBack rfl
  case h_9 entry turnId =>
    injection h with h
    exact h ▸ .dispatched
  case h_10 entry error =>
    have hmove := @BridgeThreadQueueRuntime.line_drainFailed none s.log.allocated
      (s.runtime.getD {}) entry error
    split at h
    all_goals
      injection h with h
      subst h
      exact hmove
  case h_5 entry error =>
    split at h
    all_goals
      injection h with h
      exact h ▸ .rest _
  case h_6 itemId error shouldDispatch =>
    injection h with h
    subst h
    split <;> exact .rest _
  case h_14 => contradiction
  all_goals
    injection h with h
    exact h ▸ .rest _

theorem line_turnStartAnswer {op : ActorOp} {answer : Except String String}
    (hactor : s.actor = some op) (h : turnStartAnswer s op answer = some t)
    : s.line.Move op.activity t.line := by
  unfold turnStartAnswer at h
  dsimp only at h
  unfold line
  rw [hactor]
  split at h
  case h_3 => contradiction
  all_goals
    injection h with h
    subst h
  . split <;> exact .endQueueing
  . split <;> exact .rest _

theorem line_steerMessage (hfree : s.actor = none) (itemId : String)
    : s.line.Move (.steer itemId) (steerMessage s itemId).line := by
  unfold steerMessage
  split
  . exact .rest _
  . next runtime hruntime =>
    apply line_request
    intro t ht
    rw [Except.map_eq_ok] at ht
    rcases ht with ⟨runtime', hsteer, ht⟩
    subst ht
    rw [line_spawnSteerDispatch, line_setRuntime hfree, line_of_free hfree, hruntime]
    exact BridgeThreadQueueRuntime.line_steerMessage hsteer

theorem line_cancelMessage (hfree : s.actor = none) (itemId : String)
    : s.line.Move (.cancel itemId) (cancelMessage s itemId).line := by
  unfold cancelMessage
  split
  . exact .rest _
  . next runtime hruntime =>
    apply line_request
    intro t ht
    rw [Except.map_eq_ok] at ht
    rcases ht with ⟨⟨runtime', submissionId⟩, hcancel, ht⟩
    subst ht
    rw [line_of_free hfree, hruntime]
    exact BridgeThreadQueueRuntime.line_cancelMessage hcancel

theorem line_startMessageEdit (hfree : s.actor = none) (itemId : String)
    : s.line.Move (.startEdit itemId) (startMessageEdit s itemId).line := by
  unfold startMessageEdit
  split
  . exact .rest _
  . next runtime hruntime =>
    apply line_request
    intro t ht
    rw [Except.map_eq_ok] at ht
    rcases ht with ⟨runtime', hedit, ht⟩
    subst ht
    rw [line_setRuntime hfree, line_of_free hfree, hruntime]
    exact BridgeThreadQueueRuntime.line_startMessageEdit hedit

theorem line_finishEdit (hfree : s.actor = none)
    {result : Except String BridgeThreadQueueRuntime} {a : Activity}
    (h : ∀ runtime', result = .ok runtime' →
      s.line.Move a (runtime'.line none none s.log.allocated))
    : s.line.Move a (finishEdit s result).line := by
  unfold finishEdit
  apply line_request
  intro t ht
  rw [Except.map_eq_ok] at ht
  rcases ht with ⟨runtime', hresult, ht⟩
  subst ht
  have hmove := h runtime' hresult
  rw [← line_setRuntime hfree] at hmove
  split <;> exact hmove

theorem line_commitMessageEdit (hfree : s.actor = none) (itemId content : String)
    : s.line.Move (.endEdit itemId) (commitMessageEdit s itemId content).line := by
  unfold commitMessageEdit
  split
  . exact .rest _
  . next runtime hruntime =>
    apply line_finishEdit hfree
    intro runtime' hcommit
    rw [line_of_free hfree, hruntime]
    exact BridgeThreadQueueRuntime.line_commitMessageEdit hcommit

theorem line_cancelMessageEdit (hfree : s.actor = none) (itemId : String)
    : s.line.Move (.endEdit itemId) (cancelMessageEdit s itemId).line := by
  unfold cancelMessageEdit
  split
  . exact .rest _
  . next runtime hruntime =>
    apply line_finishEdit hfree
    intro runtime' hcancel
    rw [line_of_free hfree, hruntime]
    exact BridgeThreadQueueRuntime.line_cancelMessageEdit hcancel

theorem line_drainThreadQueue (hfree : s.actor = none)
    : s.line.Move .other (drainThreadQueue s).line := by
  unfold drainThreadQueue
  dsimp only
  rw [line_of_free hfree]
  split
  . rw [line_of_free (by exact hfree)]
    exact .rest _
  . next runtime hruntime =>
    split
    . rw [line_of_free (by exact hfree)]
      exact .rest _
    . next hblocked =>
      split
      . rw [hruntime]
        exact .rest _
      . next entry items hitems =>
        rw [hruntime]
        simp only [BridgeThreadQueueRuntime.drainIsBlocked, Bool.or_eq_true, not_or,
          Bool.not_eq_true, Option.isSome_eq_false_iff, Option.isNone_iff_eq_none,
          Bool.not_eq_false', List.isEmpty_iff] at hblocked
        rcases hblocked with ⟨⟨⟨⟨⟨⟨_, hediting⟩, _⟩, hinFlight⟩, hsteers⟩, _⟩, _⟩
        exact .pop rfl hediting hinFlight hsteers hitems

theorem line_runEnd (hfree : s.actor = none) (eventId : Nat) (sourceTurnId : String)
    (generation : Nat)
    : s.line.Move ((s.runtime.getD {}).runEndActivity sourceTurnId generation)
        (runEnd s eventId sourceTurnId generation).line := by
  have hmove := @BridgeThreadQueueRuntime.line_runEnded none s.log.allocated (s.runtime.getD {})
  unfold BridgeThreadQueueRuntime.runEndActivity runEnd
  dsimp only
  rw [line_of_free hfree]
  cases haccepts : (s.runtime.getD {}).acceptsRunEnd sourceTurnId generation with
  | false =>
    rw [Bool.not_false, if_pos rfl, if_neg Bool.false_ne_true, line_setRuntime hfree]
    exact .rest _
  | true =>
    rw [Bool.not_true, if_neg Bool.false_ne_true, if_pos rfl]
    split
    . exact hmove
    . split
      all_goals
        rw [line_of_free (by exact hfree)]
        exact hmove

theorem line_interactionResolved (hfree : s.actor = none)
    {resolve : BridgeThreadQueueRuntime → BridgeThreadQueueRuntime}
    (hresolve : ∀ runtime : BridgeThreadQueueRuntime,
      (resolve runtime).line none none s.log.allocated = runtime.line none none s.log.allocated)
    : s.line.Move .other (interactionResolved s resolve).line := by
  unfold interactionResolved
  split
  . exact .rest _
  . next runtime hruntime =>
    dsimp only
    split
    all_goals
      apply Line.Move.of_eq
      rw [line_of_free hfree, line_of_free (by exact hfree), hruntime]
      exact hresolve runtime

theorem line_handleCanonicalEvent (hfree : s.actor = none) (eventId : Nat) (event : CanonicalEvent)
    : s.line.Move (s.activity (.thread (.handleCanonicalEvent eventId event)))
        (handleCanonicalEvent s eventId event).line := by
  unfold handleCanonicalEvent
  dsimp only
  split
  case h_2 => exact line_runEnd hfree _ _ _
  case h_3 => exact line_runEnd hfree _ _ _
  case h_4 =>
    split
    all_goals
      apply Line.Move.of_eq
      rw [line_of_free hfree, line_of_free (by exact hfree)]
      exact BridgeThreadQueueRuntime.line_toolUpdated _ _ _ _ _ _
  case h_6 => exact line_interactionResolved hfree fun _ => rfl
  case h_8 => exact line_interactionResolved hfree fun _ => rfl
  case h_9 => exact .rest _
  all_goals
    rw [line_of_free hfree, line_of_free (by exact hfree)]
    exact .rest _

theorem line_steerSection {bridgePrompt : Json → Except String Unit} {task : Nat} {u : SteerTask}
    (hfree : s.actor = none) (htask : s.steers[task]? = some u)
    (h : steerSection bridgePrompt s task u = some t)
    : s.line.Move (s.activity (.thread (.steerSection task))) t.line := by
  unfold steerSection at h
  split at h
  . split at h
    case h_5 => contradiction
    all_goals
      injection h with h
      exact h ▸ .rest _
  . next runtime hruntime =>
    have hline : s.line = runtime.line none none s.log.allocated := by
      rw [line_of_free hfree, hruntime]
      rfl
    split at h
    case h_1 =>
      split at h
      all_goals
        injection h with h
        subst h
        apply Line.Move.of_eq
      . rw [line_setTask, line_setRuntime hfree, hline]
        rfl
      . rfl
    case h_2 result =>
      have hanswered : (s.setRuntime (runtime.prepareAnswered result)).line = s.line := by
        rw [line_setRuntime hfree, hline]
        cases result <;> rfl
      dsimp only at h
      split at h
      . injection h with h
        exact h ▸ .of_eq hanswered
      . split at h
        . injection h with h
          subst h
          apply Line.Move.of_eq
          rw [line_setTask]
          split
          . rw [line_spawnAutoDispatch, hanswered]
          . exact hanswered
        . contradiction
    case h_3 =>
      have hactivity : s.activity (.thread (.steerSection task)) = .other := by
        simp only [activity, htask]
      rw [hactivity]
      split at h
      . injection h with h
        exact h ▸ .rest _
      . next runtime' dispatch htake =>
        have hmove := @BridgeThreadQueueRuntime.line_takeSteer _ _ none s.log.allocated _ htake
        rw [← hline, ← line_setRuntime hfree] at hmove
        dsimp only at h
        split at h
        all_goals
          injection h with h
          exact h ▸ hmove
    case h_4 dispatch result =>
      split at h
      . injection h with h
        exact h ▸ .rest _
      . next runtime' hanswered =>
        have hmove := @BridgeThreadQueueRuntime.line_steerAnswered _ _ none s.log.allocated _ _ hanswered
        rw [← hline, ← line_setRuntime hfree] at hmove
        have hactivity : s.activity (.thread (.steerSection task))
            = runtime.steeredActivity dispatch result := by
          simp only [activity, htask, hruntime, Option.getD_some]
        rw [hactivity]
        dsimp only at h
        split at h
        all_goals
          injection h with h
          exact h ▸ hmove
    case h_5 => contradiction

theorem line_failSteerDispatch {task : Nat} {u : SteerTask}
    (h : failSteerDispatch s task u = some t)
    : s.line.Move .other t.line := by
  unfold failSteerDispatch at h
  split at h
  . injection h with h
    subst h
    unfold line
    cases hruntime : s.runtime with
    | none => exact .rest _
    | some runtime => exact BridgeThreadQueueRuntime.line_failSteerDispatch runtime _ _ _
  . contradiction

theorem line_prepareAnswer {task : Nat} {u : SteerTask} {result : Except String Nat}
    (h : prepareAnswer s task u result = some t)
    : t.line = s.line := by
  unfold prepareAnswer at h
  split at h
  . injection h with h
    exact h ▸ rfl
  . contradiction

theorem line_verifyAnswer {task : Nat} {u : SteerTask} {result : Except String Bool}
    (h : verifyAnswer s task u result = some t)
    : t.line = s.line := by
  unfold verifyAnswer at h
  split at h
  case h_4 => contradiction
  all_goals
    injection h with h
    exact h ▸ rfl

theorem line_steerAnswer {task : Nat} {u : SteerTask} {result : Except String Unit}
    (h : steerAnswer s task u result = some t)
    : t.line = s.line := by
  unfold steerAnswer at h
  split at h
  . injection h with h
    subst h
    split <;> rfl
  . contradiction

theorem line_ensureThreadRuntime (snapshot : QueueRuntimeSnapshot)
    : (ensureThreadRuntime s snapshot).line = s.line := by
  unfold ensureThreadRuntime
  split
  . rfl
  . next hruntime =>
    unfold line
    rw [hruntime]
    rfl

theorem line_retryWake : (retryWake s).line = s.line := by
  unfold retryWake line
  cases s.runtime <;> rfl

theorem line_reconcile (hfree : s.actor = none) (answer : Except String QueueRuntimeSnapshot)
    : (reconcile s answer).line = s.line := by
  unfold reconcile
  split
  . rfl
  . next runtime hruntime =>
    have hline : (s.setRuntime (runtime.reconcile answer)).line = s.line := by
      rw [line_setRuntime hfree, BridgeThreadQueueRuntime.line_reconcile, line_of_free hfree, hruntime]
      rfl
    split <;> exact hline

/--
Every step of the service is a move of the line.
-/
theorem line_serviceStep {bridgePrompt : Json → Except String Unit} {label : ServiceLabel}
    (h : serviceStep bridgePrompt s label = some t)
    : s.line.Move (s.activity label) t.line := by
  unfold serviceStep at h
  split at h
  . next label =>
    cases Steps.of_step h with
    | ensureThreadRuntime snapshot => exact .of_eq (line_ensureThreadRuntime snapshot)
    | sendMessage request hfree =>
      apply Line.Move.of_eq
      unfold line
      rw [hfree]
      rfl
    | storeAnswer hactor hanswer =>
      have hmove := line_storeAnswer hactor hanswer
      unfold activity
      rw [hactor]
      exact hmove
    | allocate hactor hallocate => exact line_allocate hactor hallocate
    | proceed hactor hproceed =>
      have hmove := line_proceed hactor hproceed
      unfold activity
      rw [hactor]
      exact hmove
    | turnStartAnswer hactor hanswer =>
      have hmove := line_turnStartAnswer hactor hanswer
      unfold activity
      rw [hactor]
      exact hmove
    | steerMessage itemId hfree => exact line_steerMessage hfree itemId
    | cancelMessage itemId hfree => exact line_cancelMessage hfree itemId
    | startMessageEdit itemId hfree => exact line_startMessageEdit hfree itemId
    | commitMessageEdit itemId content hfree => exact line_commitMessageEdit hfree itemId content
    | cancelMessageEdit itemId hfree => exact line_cancelMessageEdit hfree itemId
    | drainThreadQueue hfree => exact line_drainThreadQueue hfree
    | retryWake => exact .of_eq line_retryWake
    | handleCanonicalEvent eventId event hfree =>
      exact line_handleCanonicalEvent (s := s.noteHandled eventId) hfree eventId event
    | steerSection hfree htask hsection => exact line_steerSection hfree htask hsection
    | prepareAnswer _ hanswer => exact .of_eq (line_prepareAnswer hanswer)
    | verifyAnswer _ hanswer => exact .of_eq (line_verifyAnswer hanswer)
    | steerAnswer _ hanswer => exact .of_eq (line_steerAnswer hanswer)
    | failSteerDispatch _ hfail => exact line_failSteerDispatch hfail
  . next answer =>
    split at h
    . next hfree =>
      rw [Option.isNone_iff_eq_none] at hfree
      injection h with h
      subst h
      exact .of_eq (line_reconcile hfree answer)
    . contradiction

theorem sound_init : Line.Sound ({} : ThreadState).line where
  dispatching := by simp [line, BridgeThreadQueueRuntime.line]
  editing := by simp [line, BridgeThreadQueueRuntime.line]
  queueing := by simp [line, BridgeThreadQueueRuntime.line]
  allocated := by simp [line, BridgeThreadQueueRuntime.line, Line.order]

/--
The line is sound in every state the service reaches.
-/
theorem sound_of_exec {bridgePrompt : Json → Except String Unit} {labels : List ServiceLabel}
    (hexec : exec (serviceStep bridgePrompt) {} labels = some s)
    : Line.Sound s.line := by
  refine exec_invariant' (I := fun s => Line.Sound s.line) ?_ sound_init hexec
  intro s label t hs hstep
  exact hs.move (line_serviceStep hstep)

end Thread

end Queue
