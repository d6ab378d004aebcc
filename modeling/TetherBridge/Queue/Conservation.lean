import TetherBridge.Queue.Thread
import TetherBridge.Data.Weigh

/-!
This module contains the conservation of queue entries: an admitted entry is in at most one place,
and once the backend has accepted it, it is in none of the queues again. The argument counts how
often an id occurs in each place; a section may move an occurrence, but creates none.
-/

namespace Queue

open Acp List Transition

/--
Whether an entry has the id, as a weight.
-/
def occurs (id : String) (entry : BridgeQueuedMessageEntry) : Nat :=
  if entry.id = id then 1 else 0

def occursIn (id : String) : Option BridgeQueuedMessageEntry → Nat
  | none => 0
  | some entry => occurs id entry

@[simp]
theorem occursIn_none (id : String) : occursIn id none = 0 := rfl

@[simp]
theorem occursIn_some (id : String) (entry : BridgeQueuedMessageEntry)
    : occursIn id (some entry) = occurs id entry := rfl

theorem occurs_congr {e e' : BridgeQueuedMessageEntry} (h : e.id = e'.id) (id : String)
    : occurs id e = occurs id e' := by
  simp [occurs, h]

@[simp]
theorem occurs_toEntry (request : SendRequest) (fresh id : String)
    : occurs id (request.toEntry fresh) = if fresh = id then 1 else 0 := rfl

theorem weigh_toList (id : String) (entry : Option BridgeQueuedMessageEntry)
    : weigh (occurs id) entry.toList = occursIn id entry := by
  cases entry <;> simp

/-! The places of an entry -/

def SteerTask.owned : SteerTask → Option PendingSteerDispatch
  | .steering dispatch => some dispatch
  | .steered dispatch _ => some dispatch
  | .failing owned _ _ => owned
  | _ => none

/--
The dispatch of a steer drain, unless the backend has already accepted it.
-/
def SteerTask.undelivered : SteerTask → Option PendingSteerDispatch
  | .steered _ (.ok _) => none
  | t => t.owned

/--
The entry the holder of the actor lock has taken out of the queues, or has not queued.
-/
def ActorOp.held : ActorOp → Option BridgeQueuedMessageEntry
  | .sendQueue entry => some entry
  | .sendReserveDirect entry => some entry
  | .sendBeginTurn entry => some entry
  | .sendTurnStart entry => some entry
  | .sendAnswered entry _ => some entry
  | .drainMark entry => some entry
  | .drainMarkFailed entry _ => some entry
  | .drainMarked entry => some entry
  | .drainTurnStart entry => some entry
  | .drainAnswered entry _ => some entry
  | _ => none

/--
The held entry, unless the backend has already accepted it.
-/
def ActorOp.undelivered : ActorOp → Option BridgeQueuedMessageEntry
  | .sendAnswered _ (.ok _) => none
  | .drainAnswered _ (.ok _) => none
  | op => op.held

/--
The local dispatch of `drain_thread_queue`.
-/
def ActorOp.localDispatch : ActorOp → Option BridgeQueuedMessageEntry
  | .drainMark entry => some entry
  | .drainMarkFailed entry _ => some entry
  | .drainMarked entry => some entry
  | .drainTurnStart entry => some entry
  | .drainAnswered entry _ => some entry
  | _ => none

namespace BridgeThreadQueueRuntime

variable (runtime : BridgeThreadQueueRuntime) (id : String)

def queued : Nat :=
  weigh (occurs id) runtime.items + weigh (occurs id) runtime.pendingSteers

def inFlight : Nat :=
  occursIn id (runtime.steerDispatchInFlight.map (·.entry))

end BridgeThreadQueueRuntime

namespace ThreadState

variable (s : ThreadState) (id : String)

def queued : Nat :=
  (s.runtime.getD {}).queued id

def inFlight : Nat :=
  (s.runtime.getD {}).inFlight id

def ownedDispatches : Nat :=
  s.steers.weigh fun t => occursIn id (t.owned.map (·.entry))

def undeliveredDispatches : Nat :=
  s.steers.weigh fun t => occursIn id (t.undelivered.map (·.entry))

def actorHeld : Nat :=
  occursIn id (s.actor.bind (·.held))

def actorUndelivered : Nat :=
  occursIn id (s.actor.bind (·.undelivered))

/--
The entries of the items, of the pending steers, of the steer in flight and of the local dispatch
of `drain_thread_queue`.
-/
def places : List BridgeQueuedMessageEntry :=
  let runtime := s.runtime.getD {}
  runtime.items ++ runtime.pendingSteers
    ++ (runtime.steerDispatchInFlight.map (·.entry)).toList
    ++ (s.actor.bind (·.localDispatch)).toList

end ThreadState

/--
No entry is in two places, and no accepted entry is in one of the queues again or accepted again.
-/
structure DeliversOnce (s : ThreadState) : Prop where
  places_nodup : (s.places.map (·.id)).Nodup
  accepted_nodup : s.log.accepted.Nodup
  not_queued : ∀ id ∈ s.log.accepted, ∀ runtime, s.runtime = some runtime →
    (∀ entry ∈ runtime.items, entry.id ≠ id) ∧ (∀ entry ∈ runtime.pendingSteers, entry.id ≠ id)

/--
`fail_steer_dispatch` takes whatever steer is in flight. The guard: a steer drain that has put none
in flight, because its epoch could not be verified, does not run it while there is one.
-/
def ownsDispatch (s : ThreadState) : Label → Bool
  | .failSteerDispatch task =>
    match s.steers[task]? with
    | some (.failing none _ _) => (s.runtime.bind (·.steerDispatchInFlight)).isNone
    | _ => true
  | _ => true

/--
The invariant. Every occurrence of an id in a place is paid for by its allocation.
-/
structure Conserved (s : ThreadState) : Prop where
  allocated_le_one : ∀ id, s.log.allocated.count id ≤ 1
  owned_eq : ∀ id, s.ownedDispatches id = s.inFlight id
  held_le : ∀ id,
    s.queued id + s.ownedDispatches id + s.actorHeld id ≤ s.log.allocated.count id
  accepted_le : ∀ id,
    s.log.accepted.count id + (s.queued id + s.undeliveredDispatches id + s.actorUndelivered id)
      ≤ s.log.allocated.count id

/-! What the sections do to the occurrences of an id -/

namespace BridgeThreadQueueRuntime

variable {runtime : BridgeThreadQueueRuntime}

@[simp]
theorem queued_default (id : String) : ({} : BridgeThreadQueueRuntime).queued id = 0 := rfl

@[simp]
theorem inFlight_default (id : String) : ({} : BridgeThreadQueueRuntime).inFlight id = 0 := rfl

theorem pushQueued_effect {entry : BridgeQueuedMessageEntry} {runtime' : BridgeThreadQueueRuntime}
    (h : runtime.pushQueued entry = .ok runtime') (id : String)
    : runtime'.queued id = runtime.queued id + occurs id entry
        ∧
      runtime'.inFlight id = runtime.inFlight id := by
  unfold pushQueued at h
  dsimp at h
  split at h
  . contradiction
  . split at h
    . contradiction
    . injection h with h
      subst h
      simp [queued, inFlight]
      omega

theorem retractQueued_effect (itemId id : String)
    : (runtime.retractQueued itemId).queued id ≤ runtime.queued id
        ∧
      (runtime.retractQueued itemId).inFlight id = runtime.inFlight id := by
  have := weigh_filter_le (w := occurs id) (·.id ≠ itemId) runtime.items
  simp only [queued, retractQueued, inFlight, and_true]
  omega

theorem steerMessage_effect {itemId : String} {runtime' : BridgeThreadQueueRuntime}
    (h : runtime.steerMessage itemId = .ok runtime') (id : String)
    : runtime'.queued id = runtime.queued id ∧ runtime'.inFlight id = runtime.inFlight id := by
  unfold steerMessage at h
  split at h
  . contradiction
  . split at h
    . contradiction
    . split at h
      . contradiction
      . split at h
        . contradiction
        . next removed hfind =>
          injection h with h
          subst h
          have := weigh_eraseP (w := occurs id) hfind
          simp [queued, inFlight]
          omega

theorem cancelMessage_effect {itemId submissionId : String} {runtime' : BridgeThreadQueueRuntime}
    (h : runtime.cancelMessage itemId = .ok (runtime', submissionId)) (id : String)
    : runtime'.queued id ≤ runtime.queued id ∧ runtime'.inFlight id = runtime.inFlight id := by
  unfold cancelMessage at h
  split at h
  . contradiction
  . split at h
    . next removed hfind =>
      simp only [Except.ok.injEq, Prod.mk.injEq] at h
      obtain ⟨rfl, -⟩ := h
      have := weigh_eraseP (w := occurs id) hfind
      simp [queued, inFlight]
      omega
    . split at h
      . next removed hfind =>
        simp only [Except.ok.injEq, Prod.mk.injEq] at h
        obtain ⟨rfl, -⟩ := h
        have := weigh_eraseP (w := occurs id) hfind
        simp [queued, inFlight]
        omega
      . split at h <;> contradiction

theorem startMessageEdit_effect {itemId : String} {runtime' : BridgeThreadQueueRuntime}
    (h : runtime.startMessageEdit itemId = .ok runtime') (id : String)
    : runtime'.queued id = runtime.queued id ∧ runtime'.inFlight id = runtime.inFlight id := by
  unfold startMessageEdit at h
  split at h
  . contradiction
  . split at h
    . contradiction
    . split at h
      . split at h
        . contradiction
        . injection h with h
          subst h
          exact ⟨rfl, rfl⟩
      . split at h
        . contradiction
        . injection h with h
          subst h
          exact ⟨rfl, rfl⟩

theorem weigh_set_findIdx {itemId : String} {items : List BridgeQueuedMessageEntry}
    {item : BridgeQueuedMessageEntry} (hfind : items.find? (·.id = itemId) = some item)
    (edited : BridgeQueuedMessageEntry) (hedited : edited.id = item.id) (id : String)
    : weigh (occurs id) (items.set (items.findIdx (·.id = itemId)) edited)
        =
      weigh (occurs id) items := by
  have hidx : items[items.findIdx (·.id = itemId)]? = some item := by
    rw [← hfind, List.find?_eq_getElem?_findIdx]
  have := weigh_set (w := occurs id) hidx edited
  have := occurs_congr hedited id
  omega

theorem commitMessageEdit_effect {itemId content : String} {runtime' : BridgeThreadQueueRuntime}
    (h : runtime.commitMessageEdit itemId content = .ok runtime') (id : String)
    : runtime'.queued id = runtime.queued id ∧ runtime'.inFlight id = runtime.inFlight id := by
  unfold commitMessageEdit at h
  split at h
  . contradiction
  . split at h
    . contradiction
    . next item hfind =>
      split at h
      . contradiction
      . next turnStart hreplace =>
        dsimp at h
        split at h
        . contradiction
        . split at h
          . contradiction
          . injection h with h
            subst h
            simp only [queued, inFlight, and_true]
            rw [weigh_set_findIdx hfind { item with content, turnStart } rfl]

theorem cancelMessageEdit_effect {itemId : String} {runtime' : BridgeThreadQueueRuntime}
    (h : runtime.cancelMessageEdit itemId = .ok runtime') (id : String)
    : runtime'.queued id = runtime.queued id ∧ runtime'.inFlight id = runtime.inFlight id := by
  unfold cancelMessageEdit at h
  split at h
  . contradiction
  . injection h with h
    subst h
    exact ⟨rfl, rfl⟩

theorem takeSteer_effect {runtime' : BridgeThreadQueueRuntime} {dispatch : PendingSteerDispatch}
    (h : runtime.takeSteer = some (runtime', dispatch)) (id : String)
    : runtime'.queued id + occurs id dispatch.entry = runtime.queued id
        ∧
      runtime.inFlight id = 0
        ∧
      runtime'.inFlight id = occurs id dispatch.entry := by
  unfold takeSteer at h
  split at h
  . contradiction
  . next hblocked =>
    have hnone : runtime.steerDispatchInFlight = none := by
      simp only [Bool.or_eq_true, not_or, Bool.not_eq_true, Option.isSome_eq_false_iff,
        Option.isNone_iff_eq_none] at hblocked
      simp [hblocked]
    split at h
    . next hpending =>
      simp only [Option.some.injEq, Prod.mk.injEq] at h
      obtain ⟨rfl, rfl⟩ := h
      simp [queued, inFlight, hpending, hnone]
      omega
    . contradiction

theorem failSteerDispatch_effect (runtime : BridgeThreadQueueRuntime) (itemId error id : String)
    : (runtime.failSteerDispatch itemId error).queued id = runtime.queued id + runtime.inFlight id
        ∧
      (runtime.failSteerDispatch itemId error).inFlight id = 0 := by
  unfold failSteerDispatch
  dsimp
  split
  . next howned =>
    simp [queued, inFlight, howned]
    omega
  . next howned => simp [queued, inFlight, howned]

theorem steerAnswered_effect {dispatch : PendingSteerDispatch} {result : Except String Unit}
    {runtime' : BridgeThreadQueueRuntime}
    (h : runtime.steerAnswered dispatch result = some runtime') (id : String)
    : runtime.inFlight id = occurs id dispatch.entry
        ∧
      runtime'.inFlight id = 0
        ∧
      runtime'.queued id
        =
      runtime.queued id + if result.isOk then 0 else occurs id dispatch.entry := by
  unfold steerAnswered at h
  split at h
  . contradiction
  . next owned howned =>
    split at h
    . contradiction
    . next hid =>
      have hoccurs := occurs_congr (Decidable.not_not.mp hid) id
      split at h
      . injection h with h
        subst h
        simp [queued, inFlight, howned, hoccurs, Except.isOk, Except.toBool]
      . dsimp at h
        split at h
        all_goals
          injection h with h
          subst h
          simp [queued, inFlight, howned, hoccurs, Except.isOk, Except.toBool]
          omega

/--
A steer that is no longer the one of the task was taken by another one.
-/
theorem steerAnswered_eq_none {dispatch : PendingSteerDispatch} {result : Except String Unit}
    (h : runtime.steerAnswered dispatch result = none)
    : runtime.inFlight dispatch.entry.id = 0 := by
  unfold steerAnswered at h
  split at h
  . next howned => simp [inFlight, howned]
  . next owned howned =>
    split at h
    . next hid => simpa [inFlight, howned, occurs] using hid
    . split at h
      . contradiction
      . dsimp at h
        split at h <;> contradiction

theorem inFlight_eq_occurs {entry : BridgeQueuedMessageEntry} (h : runtime.inFlight entry.id ≠ 0)
    (id : String)
    : runtime.inFlight id = occurs id entry := by
  unfold inFlight at *
  cases hinFlight : runtime.steerDispatchInFlight with
  | none => simp [hinFlight] at h
  | some owned =>
    simp only [hinFlight, Option.map_some, occursIn_some] at h ⊢
    apply occurs_congr
    simpa [occurs] using h

theorem runEnded_effect (id : String)
    : runtime.runEnded.queued id = runtime.queued id
        ∧
      runtime.runEnded.inFlight id = runtime.inFlight id := by
  simp [queued, inFlight, runEnded, Function.comp_def]
  omega

end BridgeThreadQueueRuntime

/-! The invariant -/

namespace Conserved

variable {s t : ThreadState}

/--
The invariant survives when ids only move towards fewer places.
-/
theorem of_moves (h : Conserved s) (halloc : t.log.allocated = s.log.allocated)
    (howned : ∀ id, t.ownedDispatches id = t.inFlight id)
    (hheld : ∀ id,
      t.queued id + t.ownedDispatches id + t.actorHeld id
        ≤ s.queued id + s.ownedDispatches id + s.actorHeld id)
    (haccepted : ∀ id,
      t.log.accepted.count id + (t.queued id + t.undeliveredDispatches id + t.actorUndelivered id)
        ≤ s.log.accepted.count id
          + (s.queued id + s.undeliveredDispatches id + s.actorUndelivered id))
    : Conserved t where
  allocated_le_one := by
    rw [halloc]
    exact h.allocated_le_one
  owned_eq := howned
  held_le := by
    intro id
    rw [halloc]
    exact Nat.le_trans (hheld id) (h.held_le id)
  accepted_le := by
    intro id
    rw [halloc]
    exact Nat.le_trans (haccepted id) (h.accepted_le id)

/--
The invariant survives a step that only touches the runtime and the holder of the actor lock, when
what the runtime gains was held.
-/
theorem of_section (h : Conserved s) (hlog : t.log.allocated = s.log.allocated)
    (haccepted : t.log.accepted = s.log.accepted) (hsteers : t.steers = s.steers)
    (hinFlight : ∀ id, t.inFlight id = s.inFlight id)
    (hheld : ∀ id, t.queued id + t.actorHeld id ≤ s.queued id + s.actorHeld id)
    (hundelivered : ∀ id,
      t.queued id + t.actorUndelivered id ≤ s.queued id + s.actorUndelivered id)
    : Conserved t := by
  have howned : ∀ id, t.ownedDispatches id = s.ownedDispatches id := by
    simp [ThreadState.ownedDispatches, hsteers]
  have hundel : ∀ id, t.undeliveredDispatches id = s.undeliveredDispatches id := by
    simp [ThreadState.undeliveredDispatches, hsteers]
  refine h.of_moves hlog ?_ ?_ ?_
  . intro id
    rw [howned, hinFlight, h.owned_eq]
  . intro id
    have := hheld id
    have := howned id
    omega
  . intro id
    have := hundelivered id
    have := hundel id
    rw [haccepted]
    omega

theorem init : Conserved {} where
  allocated_le_one := by simp
  owned_eq := by simp [ThreadState.ownedDispatches, ThreadState.inFlight]
  held_le := by simp [ThreadState.queued, ThreadState.ownedDispatches, ThreadState.actorHeld]
  accepted_le := by
    simp [ThreadState.queued, ThreadState.undeliveredDispatches, ThreadState.actorUndelivered]

theorem storeAnswer (h : Conserved s) {op : ActorOp} {answer : StoreAnswer}
    (hactor : s.actor = some op) (hstep : Thread.storeAnswer s op answer = some t)
    : Conserved t := by
  unfold Thread.storeAnswer at hstep
  split at hstep
  all_goals try split at hstep
  all_goals first
    | contradiction
    | injection hstep with hstep
      subst hstep
      apply h.of_section
      all_goals
        simp [ThreadState.queued, ThreadState.inFlight, ThreadState.actorHeld,
          ThreadState.actorUndelivered, hactor, ActorOp.held, ActorOp.undelivered]

theorem allocate (h : Conserved s) {op : ActorOp} {id : String}
    (hactor : s.actor = some op) (hstep : Thread.allocate s op id = some t)
    : Conserved t := by
  unfold Thread.allocate at hstep
  split at hstep
  . next request =>
    split at hstep
    . contradiction
    . next hfresh =>
      have hcount := List.count_eq_zero.mpr hfresh
      -- Both continuations hold the new entry, which its allocation pays for.
      have key : ∀ op', op'.held = some (request.toEntry id) → op'.undelivered = op'.held →
          Conserved (({ s with log := { s.log with allocated := id :: s.log.allocated } }
            : ThreadState).setActor op') := by
        intro op' hheld hundelivered
        have hheld' : (ActorOp.sendAllocate request).held = none := rfl
        have hundelivered' : (ActorOp.sendAllocate request).undelivered = none := rfl
        constructor
        . intro id'
          have := h.allocated_le_one id'
          by_cases heq : id = id'
          . subst heq
            simp [hcount]
          . simpa [heq] using this
        . exact h.owned_eq
        . intro id'
          have := h.held_le id'
          simp [ThreadState.queued, ThreadState.ownedDispatches, ThreadState.actorHeld, hactor,
            hheld, hheld', List.count_cons] at this ⊢
          omega
        . intro id'
          have := h.accepted_le id'
          simp [ThreadState.queued, ThreadState.undeliveredDispatches, ThreadState.actorUndelivered,
            hactor, hundelivered', hundelivered, hheld, List.count_cons] at this ⊢
          omega
      dsimp at hstep
      split at hstep
      all_goals
        injection hstep with hstep
        subst hstep
        exact key _ rfl rfl
  . contradiction

theorem proceed (h : Conserved s) {op : ActorOp} (hactor : s.actor = some op)
    (hstep : Thread.proceed s op = some t)
    : Conserved t := by
  unfold Thread.proceed at hstep
  dsimp only at hstep
  split at hstep
  . next entry =>
    split at hstep
    . next runtime hpush =>
      have heffect := BridgeThreadQueueRuntime.pushQueued_effect hpush
      injection hstep with hstep
      subst hstep
      apply h.of_section
      all_goals
        simp [ThreadState.queued, ThreadState.inFlight, ThreadState.actorHeld,
          ThreadState.actorUndelivered, hactor, ActorOp.held, ActorOp.undelivered, heffect]
    . injection hstep with hstep
      subst hstep
      apply h.of_section
      all_goals
        simp [ThreadState.queued, ThreadState.inFlight, ThreadState.actorHeld,
          ThreadState.actorUndelivered, hactor]
  . next entry =>
    have heffect := (s.runtime.getD {}).retractQueued_effect entry.id
    injection hstep with hstep
    subst hstep
    apply h.of_section
    all_goals
      simp [ThreadState.queued, ThreadState.inFlight, ThreadState.actorHeld,
        ThreadState.actorUndelivered, hactor, ActorOp.held, ActorOp.undelivered, heffect]
  -- The other sections leave the queues alone, or put the held entry back in front.
  all_goals try split at hstep
  all_goals first
    | contradiction
    | injection hstep with hstep
      subst hstep
      apply h.of_section
      all_goals
        simp [ThreadState.queued, ThreadState.inFlight, ThreadState.actorHeld,
          ThreadState.actorUndelivered, ActorOp.held, ActorOp.undelivered,
          BridgeThreadQueueRuntime.queued, BridgeThreadQueueRuntime.inFlight,
          BridgeThreadQueueRuntime.beginTurnStart, BridgeThreadQueueRuntime.turnStarted,
          BridgeThreadQueueRuntime.sendFailed, BridgeThreadQueueRuntime.cancelPersistFailed,
          BridgeThreadQueueRuntime.drainReservationFailed, BridgeThreadQueueRuntime.resetRetryAttempt,
          BridgeThreadQueueRuntime.takeCompletions, BridgeThreadQueueRuntime.drainFailed,
          BridgeThreadQueueRuntime.parkCompletion, *]
      all_goals try omega

theorem turnStartAnswer (h : Conserved s) {op : ActorOp} {answer : Except String String}
    (hactor : s.actor = some op) (hstep : Thread.turnStartAnswer s op answer = some t)
    : Conserved t := by
  unfold Thread.turnStartAnswer at hstep
  dsimp only at hstep
  split at hstep
  case h_3 => contradiction
  all_goals
    injection hstep with hstep
    subst hstep
    cases answer with
    | error error =>
      apply h.of_section
      all_goals
        simp [ThreadState.queued, ThreadState.inFlight, ThreadState.actorHeld,
          ThreadState.actorUndelivered, hactor, ActorOp.held, ActorOp.undelivered, Except.isOk,
          Except.toBool]
    | ok turnId =>
      -- The accepted id leaves the undelivered ones.
      apply h.of_moves
      . simp [Except.isOk, Except.toBool]
      . exact h.owned_eq
      all_goals
        intro id
        simp [ThreadState.queued, ThreadState.ownedDispatches, ThreadState.undeliveredDispatches,
          ThreadState.actorHeld, ThreadState.actorUndelivered, hactor, ActorOp.held,
          ActorOp.undelivered, Except.isOk, Except.toBool, List.count_cons, occurs]
        try omega

/--
A request under the actor lock that touches nothing but the runtime, and only removes entries.
-/
theorem setRuntime (h : Conserved s) (runtime : BridgeThreadQueueRuntime)
    (hqueued : ∀ id, runtime.queued id ≤ (s.runtime.getD {}).queued id)
    (hinFlight : ∀ id, runtime.inFlight id = (s.runtime.getD {}).inFlight id)
    : Conserved (s.setRuntime runtime) := by
  apply h.of_section
  all_goals
    simp [ThreadState.queued, ThreadState.inFlight, ThreadState.actorHeld,
      ThreadState.actorUndelivered, hinFlight, hqueued]

/--
Spawned drains and retries occupy no place.
-/
theorem congr (h : Conserved s) (hruntime : t.runtime = s.runtime) (hactor : t.actor = s.actor)
    (hsteers : t.steers = s.steers) (halloc : t.log.allocated = s.log.allocated)
    (haccepted : t.log.accepted = s.log.accepted)
    : Conserved t := by
  apply h.of_section
  all_goals
    simp [ThreadState.queued, ThreadState.inFlight, ThreadState.actorHeld,
      ThreadState.actorUndelivered, *]

/--
A fresh steer drain occupies no place.
-/
theorem spawnSteerDispatch (h : Conserved s) : Conserved s.spawnSteerDispatch := by
  have hinFlight := h.owned_eq
  apply h.of_moves
  all_goals
    simp [ThreadState.queued, ThreadState.inFlight, ThreadState.actorHeld,
      ThreadState.actorUndelivered, ThreadState.ownedDispatches, ThreadState.undeliveredDispatches,
      SteerTask.owned, SteerTask.undelivered] at hinFlight ⊢
  assumption

theorem request (h : Conserved s) {result : Except String ThreadState}
    (hok : ∀ t, result = .ok t → Conserved t)
    : Conserved (Thread.request s result) := by
  cases result with
  | ok t => exact hok t rfl
  | error _ => exact h

theorem steerMessage (h : Conserved s) (itemId : String) : Conserved (Thread.steerMessage s itemId) := by
  unfold Thread.steerMessage
  split
  . exact h
  . next runtime hruntime =>
    apply h.request
    intro t ht
    cases hsteer : runtime.steerMessage itemId with
    | error error => simp [hsteer, Except.map] at ht
    | ok runtime' =>
      have heffect := BridgeThreadQueueRuntime.steerMessage_effect hsteer
      simp only [hsteer, Except.map, Except.ok.injEq] at ht
      subst ht
      apply spawnSteerDispatch
      apply h.setRuntime <;> simp [hruntime, heffect]

theorem cancelMessage (h : Conserved s) (hfree : s.actor = none) (itemId : String)
    : Conserved (Thread.cancelMessage s itemId) := by
  unfold Thread.cancelMessage
  split
  . exact h
  . next runtime hruntime =>
    apply h.request
    intro t ht
    cases hcancel : runtime.cancelMessage itemId with
    | error error => simp [hcancel, Except.map] at ht
    | ok result =>
      obtain ⟨runtime', submissionId⟩ := result
      have heffect := BridgeThreadQueueRuntime.cancelMessage_effect hcancel
      simp only [hcancel, Except.map, Except.ok.injEq] at ht
      subst ht
      apply h.of_section
      all_goals
        simp [ThreadState.queued, ThreadState.inFlight, ThreadState.actorHeld,
          ThreadState.actorUndelivered, hruntime, hfree, ActorOp.held, ActorOp.undelivered, heffect]

theorem startMessageEdit (h : Conserved s) (itemId : String)
    : Conserved (Thread.startMessageEdit s itemId) := by
  unfold Thread.startMessageEdit
  split
  . exact h
  . next runtime hruntime =>
    apply h.request
    intro t ht
    cases hedit : runtime.startMessageEdit itemId with
    | error error => simp [hedit, Except.map] at ht
    | ok runtime' =>
      have heffect := BridgeThreadQueueRuntime.startMessageEdit_effect hedit
      simp only [hedit, Except.map, Except.ok.injEq] at ht
      subst ht
      apply h.setRuntime <;> simp [hruntime, heffect]

theorem finishEdit (h : Conserved s) {result : Except String BridgeThreadQueueRuntime}
    (heffect : ∀ runtime, result = .ok runtime → ∀ id,
      runtime.queued id = (s.runtime.getD {}).queued id
        ∧
      runtime.inFlight id = (s.runtime.getD {}).inFlight id)
    : Conserved (Thread.finishEdit s result) := by
  unfold Thread.finishEdit
  apply h.request
  intro t ht
  cases result with
  | error error => simp [Except.map] at ht
  | ok runtime =>
    have heffect := heffect runtime rfl
    simp only [Except.map, Except.ok.injEq] at ht
    have hset : Conserved (s.setRuntime runtime) := by
      apply h.setRuntime <;> simp [heffect]
    subst ht
    split
    . exact hset
    . exact hset.congr rfl rfl rfl rfl rfl

theorem commitMessageEdit (h : Conserved s) (itemId content : String)
    : Conserved (Thread.commitMessageEdit s itemId content) := by
  unfold Thread.commitMessageEdit
  split
  . exact h
  . next runtime hruntime =>
    apply h.finishEdit
    intro runtime' hcommit id
    simpa [hruntime] using BridgeThreadQueueRuntime.commitMessageEdit_effect hcommit id

theorem cancelMessageEdit (h : Conserved s) (itemId : String)
    : Conserved (Thread.cancelMessageEdit s itemId) := by
  unfold Thread.cancelMessageEdit
  split
  . exact h
  . next runtime hruntime =>
    apply h.finishEdit
    intro runtime' hcancel id
    simpa [hruntime] using BridgeThreadQueueRuntime.cancelMessageEdit_effect hcancel id

theorem drainThreadQueue (h : Conserved s) (hfree : s.actor = none)
    : Conserved (Thread.drainThreadQueue s) := by
  unfold Thread.drainThreadQueue
  dsimp only
  split
  . exact h.congr rfl rfl rfl rfl rfl
  . next runtime hruntime =>
    split
    . exact h.congr rfl rfl rfl rfl rfl
    . split
      all_goals
        next hitems =>
        apply h.of_section
        all_goals
          simp [ThreadState.queued, ThreadState.inFlight, ThreadState.actorHeld,
            ThreadState.actorUndelivered, hruntime, hfree, hitems, ActorOp.held, ActorOp.undelivered,
            BridgeThreadQueueRuntime.queued, BridgeThreadQueueRuntime.inFlight,
            BridgeThreadQueueRuntime.takeCompletions, BridgeThreadQueueRuntime.beginTurnStart]
        all_goals try omega

theorem retryWake (h : Conserved s) : Conserved (Thread.retryWake s) := by
  unfold Thread.retryWake
  apply h.of_section
  all_goals
    cases hruntime : s.runtime <;>
    simp [ThreadState.queued, ThreadState.inFlight, ThreadState.actorHeld,
      ThreadState.actorUndelivered, hruntime, BridgeThreadQueueRuntime.clearRetryScheduled,
      BridgeThreadQueueRuntime.queued, BridgeThreadQueueRuntime.inFlight]

theorem ensureThreadRuntime (h : Conserved s) (snapshot : QueueRuntimeSnapshot)
    : Conserved (Thread.ensureThreadRuntime s snapshot) := by
  unfold Thread.ensureThreadRuntime
  split
  . exact h
  . next hruntime =>
    apply h.setRuntime
    all_goals
      simp [hruntime, BridgeThreadQueueRuntime.hydrateThreadRuntime, BridgeThreadQueueRuntime.queued,
        BridgeThreadQueueRuntime.inFlight]

theorem runEnd (h : Conserved s) (hfree : s.actor = none) (eventId : Nat) (sourceTurnId : String) (generation : Nat)
    : Conserved (Thread.runEnd s eventId sourceTurnId generation) := by
  have heffect := (s.runtime.getD {}).runEnded_effect
  unfold Thread.runEnd
  dsimp only
  split
  . exact h.setRuntime _ (by simp) (by simp)
  . have hended : Conserved (s.setRuntime (s.runtime.getD {}).runEnded) := by
      apply h.setRuntime <;> simp [heffect]
    split
    . apply hended.of_section
      all_goals
        simp [ThreadState.queued, ThreadState.inFlight, ThreadState.actorHeld,
          ThreadState.actorUndelivered, hfree, ActorOp.held, ActorOp.undelivered]
    . split
      all_goals exact hended.congr rfl rfl rfl rfl rfl

theorem interactionResolved (h : Conserved s)
    {resolve : BridgeThreadQueueRuntime → BridgeThreadQueueRuntime}
    (hqueued : ∀ runtime id, (resolve runtime).queued id = runtime.queued id)
    (hinFlight : ∀ runtime id, (resolve runtime).inFlight id = runtime.inFlight id)
    : Conserved (Thread.interactionResolved s resolve) := by
  unfold Thread.interactionResolved
  split
  . exact h
  . next runtime hruntime =>
    have hset : Conserved (s.setRuntime (resolve runtime)) := by
      apply h.setRuntime <;> simp [hruntime, hqueued, hinFlight]
    dsimp only
    split
    . exact hset.spawnSteerDispatch
    . exact hset

theorem toolUpdated_effect (runtime : BridgeThreadQueueRuntime) (generation : Option Nat)
    (runId sourceTurnId : Option String) (toolCallId : String) (status : ToolCallStatus) (id : String)
    : (runtime.toolUpdated generation runId sourceTurnId toolCallId status).1.queued id
        =
      runtime.queued id
        ∧
      (runtime.toolUpdated generation runId sourceTurnId toolCallId status).1.inFlight id
        =
      runtime.inFlight id := by
  unfold BridgeThreadQueueRuntime.toolUpdated
  dsimp only
  split
  . exact ⟨rfl, rfl⟩
  . split <;> exact ⟨rfl, rfl⟩

theorem handleCanonicalEvent (h : Conserved s) (hfree : s.actor = none) (eventId : Nat) (event : CanonicalEvent)
    : Conserved (Thread.handleCanonicalEvent s eventId event) := by
  unfold Thread.handleCanonicalEvent
  dsimp only
  split
  case h_1 => exact h.setRuntime _ (fun _ => Nat.le_refl _) (fun _ => rfl)
  case h_2 => exact h.runEnd hfree _ _ _
  case h_3 => exact h.runEnd hfree _ _ _
  case h_4 _ _ runId sourceTurnId generation toolCallId _ status _ _ _ _ =>
    have heffect := toolUpdated_effect (s.runtime.getD {}) generation runId sourceTurnId toolCallId
      status
    have hset := h.setRuntime _ (fun id => Nat.le_of_eq (heffect id).1) (fun id => (heffect id).2)
    split
    . exact hset.spawnSteerDispatch
    . exact hset
  case h_5 => exact h.setRuntime _ (fun _ => Nat.le_refl _) (fun _ => rfl)
  case h_6 => exact h.interactionResolved (fun _ _ => rfl) (fun _ _ => rfl)
  case h_7 => exact h.setRuntime _ (fun _ => Nat.le_refl _) (fun _ => rfl)
  case h_8 => exact h.interactionResolved (fun _ _ => rfl) (fun _ _ => rfl)
  case h_9 => exact h

/-!
The steer drains. A section changes the state of one task, the counts of the others stay.
-/

theorem le_ownedDispatches {task : Nat} {t : SteerTask} (htask : s.steers[task]? = some t)
    (id : String)
    : occursIn id (t.owned.map (·.entry)) ≤ s.ownedDispatches id :=
  List.le_weigh_of_mem
    (w := fun t : SteerTask => occursIn id (t.owned.map PendingSteerDispatch.entry))
    (List.mem_of_getElem? htask)

theorem ownedDispatches_setTask {task : Nat} {t : SteerTask} (htask : s.steers[task]? = some t)
    (t' : SteerTask) (id : String)
    : (s.setTask task t').ownedDispatches id + occursIn id (t.owned.map (·.entry))
        =
      s.ownedDispatches id + occursIn id (t'.owned.map (·.entry)) :=
  weigh_set htask t'

theorem undeliveredDispatches_setTask {task : Nat} {t : SteerTask}
    (htask : s.steers[task]? = some t) (t' : SteerTask) (id : String)
    : (s.setTask task t').undeliveredDispatches id + occursIn id (t.undelivered.map (·.entry))
        =
      s.undeliveredDispatches id + occursIn id (t'.undelivered.map (·.entry)) :=
  weigh_set htask t'

theorem ownedDispatches_endTask {task : Nat} {t : SteerTask} (htask : s.steers[task]? = some t)
    (id : String)
    : (s.endTask task).ownedDispatches id + occursIn id (t.owned.map (·.entry))
        =
      s.ownedDispatches id :=
  weigh_eraseIdx htask

theorem undeliveredDispatches_endTask {task : Nat} {t : SteerTask}
    (htask : s.steers[task]? = some t) (id : String)
    : (s.endTask task).undeliveredDispatches id + occursIn id (t.undelivered.map (·.entry))
        =
      s.undeliveredDispatches id :=
  weigh_eraseIdx htask

/--
A task that owns no dispatch may move between states that own none.
-/
theorem setTask (h : Conserved s) {task : Nat} {t : SteerTask} (htask : s.steers[task]? = some t)
    (hnone : t.owned = none) {t' : SteerTask} (hnone' : t'.owned = none)
    : Conserved (s.setTask task t') := by
  have hundelivered : t.undelivered = none := by
    cases t <;> simp_all [SteerTask.undelivered, SteerTask.owned]
  have hundelivered' : t'.undelivered = none := by
    cases t' <;> simp_all [SteerTask.undelivered, SteerTask.owned]
  have howned := ownedDispatches_setTask htask t'
  have hdispatches := undeliveredDispatches_setTask htask t'
  simp only [hnone, hnone', hundelivered, hundelivered', Option.map_none, occursIn_none,
    Nat.add_zero] at howned hdispatches
  apply h.of_moves
  . rfl
  . intro id
    rw [howned]
    exact h.owned_eq id
  . intro id
    rw [howned]
    exact Nat.le_refl _
  . intro id
    rw [hdispatches]
    exact Nat.le_refl _

theorem endTask (h : Conserved s) {task : Nat} {t : SteerTask} (htask : s.steers[task]? = some t)
    (hnone : t.owned = none)
    : Conserved (s.endTask task) := by
  have hundelivered : t.undelivered = none := by
    cases t <;> simp_all [SteerTask.undelivered, SteerTask.owned]
  have howned := ownedDispatches_endTask htask
  have hdispatches := undeliveredDispatches_endTask htask
  simp only [hnone, hundelivered, Option.map_none, occursIn_none, Nat.add_zero] at howned hdispatches
  apply h.of_moves
  . rfl
  . intro id
    rw [howned]
    exact h.owned_eq id
  . intro id
    rw [howned]
    exact Nat.le_refl _
  . intro id
    rw [hdispatches]
    exact Nat.le_refl _

/--
A section of a steer drain moves one dispatch between its task and the runtime; `gone` is what the
task no longer owns, `undelivered` what it no longer has to deliver.
-/
theorem of_task (h : Conserved s) (halloc : t.log.allocated = s.log.allocated)
    (haccepted : t.log.accepted = s.log.accepted) (hactor : t.actor = s.actor)
    (howned : ∀ id,
      t.ownedDispatches id + s.inFlight id = s.ownedDispatches id + t.inFlight id)
    (hheld : ∀ id, t.queued id + t.ownedDispatches id ≤ s.queued id + s.ownedDispatches id)
    (hundelivered : ∀ id,
      t.queued id + t.undeliveredDispatches id ≤ s.queued id + s.undeliveredDispatches id)
    : Conserved t := by
  have hactorHeld : ∀ id, t.actorHeld id = s.actorHeld id := by simp [ThreadState.actorHeld, hactor]
  have hactorUndelivered : ∀ id, t.actorUndelivered id = s.actorUndelivered id := by
    simp [ThreadState.actorUndelivered, hactor]
  apply h.of_moves halloc
  . intro id
    have := howned id
    have := h.owned_eq id
    omega
  . intro id
    have := hheld id
    have := hactorHeld id
    omega
  . intro id
    have := hundelivered id
    have := hactorUndelivered id
    rw [haccepted]
    omega

/--
The steer drain puts the first pending steer in flight.
-/
theorem takeSteer (h : Conserved s) {runtime runtime' : BridgeThreadQueueRuntime}
    (hruntime : s.runtime = some runtime) {dispatch : PendingSteerDispatch}
    (htake : runtime.takeSteer = some (runtime', dispatch)) {task : Nat} {t t' : SteerTask}
    (htask : s.steers[task]? = some t) (hnone : t.owned = none) (hnone' : t.undelivered = none)
    (howned : t'.owned = some dispatch) (hundelivered : t'.undelivered = some dispatch)
    : Conserved ((s.setRuntime runtime').setTask task t') := by
  have heffect := BridgeThreadQueueRuntime.takeSteer_effect htake
  apply of_task (t := (s.setRuntime runtime').setTask task t') h rfl rfl rfl
  all_goals
    intro id
    have hs := ownedDispatches_setTask htask t' id
    have hu := undeliveredDispatches_setTask htask t' id
    have := heffect id
    simp only [hnone, hnone', howned, hundelivered, Option.map_none, Option.map_some, occursIn_none,
      occursIn_some, ThreadState.ownedDispatches, ThreadState.undeliveredDispatches,
      ThreadState.setTask, ThreadState.setRuntime, ThreadState.queued, ThreadState.inFlight,
      hruntime, Option.getD_some] at hs hu ⊢
    omega

/--
The steer in flight was answered, and is still the one of the task.
-/
theorem steerAnswered (h : Conserved s) {runtime runtime' : BridgeThreadQueueRuntime}
    (hruntime : s.runtime = some runtime) {dispatch : PendingSteerDispatch}
    {result : Except String Unit} (hanswer : runtime.steerAnswered dispatch result = some runtime')
    {task : Nat} (htask : s.steers[task]? = some (.steered dispatch result)) {u : ThreadState}
    (halloc : u.log.allocated = s.log.allocated) (haccepted : u.log.accepted = s.log.accepted)
    (hactor : u.actor = s.actor) (hruntime' : u.runtime = some runtime')
    (hsteers : u.steers = s.steers.set task .start ∨ u.steers = s.steers.eraseIdx task)
    : Conserved u := by
  have heffect := BridgeThreadQueueRuntime.steerAnswered_effect hanswer
  have howned : ∀ id, u.ownedDispatches id + occurs id dispatch.entry = s.ownedDispatches id := by
    intro id
    unfold ThreadState.ownedDispatches
    cases hsteers with
    | inl hset =>
      rw [hset]
      exact ownedDispatches_setTask htask .start id
    | inr herase =>
      rw [herase]
      exact ownedDispatches_endTask htask id
  have hundelivered : ∀ id,
      u.undeliveredDispatches id + (if result.isOk then 0 else occurs id dispatch.entry)
        =
      s.undeliveredDispatches id := by
    intro id
    have hweight : occursIn id ((SteerTask.steered dispatch result).undelivered.map (·.entry))
        = if result.isOk then 0 else occurs id dispatch.entry := by
      cases result <;> rfl
    unfold ThreadState.undeliveredDispatches
    rw [← hweight]
    cases hsteers with
    | inl hset =>
      rw [hset]
      exact undeliveredDispatches_setTask htask .start id
    | inr herase =>
      rw [herase]
      exact undeliveredDispatches_endTask htask id
  apply h.of_task halloc haccepted hactor
  all_goals
    intro id
    have := heffect id
    have := howned id
    have := hundelivered id
    have := h.owned_eq id
    simp only [ThreadState.queued, ThreadState.inFlight, hruntime, hruntime', Option.getD_some] at *
    cases result <;> simp [Except.isOk, Except.toBool] at * <;> omega

/--
A task finds its own steer in flight, unless it had none.
-/
theorem steerAnswered_isSome (h : Conserved s) {dispatch : PendingSteerDispatch}
    {result : Except String Unit} {task : Nat}
    (htask : s.steers[task]? = some (.steered dispatch result))
    : s.inFlight dispatch.entry.id ≠ 0 := by
  have hle := le_ownedDispatches htask dispatch.entry.id
  have howned := h.owned_eq dispatch.entry.id
  simp only [SteerTask.owned, Option.map_some, occursIn_some, occurs, if_true] at hle
  omega

theorem steerSection (h : Conserved s) {bridgePrompt : Json → Except String Unit} {task : Nat}
    {t : SteerTask} (htask : s.steers[task]? = some t) {s' : ThreadState}
    (hstep : Thread.steerSection bridgePrompt s task t = some s')
    : Conserved s' := by
  unfold Thread.steerSection at hstep
  split at hstep
  . next hruntime =>
    split at hstep
    case h_4 dispatch result =>
      -- Without a runtime no steer is in flight, so no task can own one.
      exact absurd (by simp [ThreadState.inFlight, hruntime]) (h.steerAnswered_isSome htask)
    case h_5 => contradiction
    all_goals
      injection hstep with hstep
      subst hstep
      exact h.endTask htask rfl
  . next runtime hruntime =>
    have hset (runtime' : BridgeThreadQueueRuntime)
        (hqueued : ∀ id, runtime'.queued id = runtime.queued id)
        (hinFlight : ∀ id, runtime'.inFlight id = runtime.inFlight id)
        : Conserved (s.setRuntime runtime') := by
      apply h.setRuntime <;> simp [hruntime, hqueued, hinFlight]
    split at hstep
    case h_1 =>
      split at hstep
      all_goals
        injection hstep with hstep
        subst hstep
      . exact Conserved.setTask (t := .start) (hset runtime.beginPrepare (fun _ => rfl)
          (fun _ => rfl)) htask rfl rfl
      . exact h.endTask htask rfl
    case h_2 result =>
      have hprepared : Conserved (s.setRuntime (runtime.prepareAnswered result)) := by
        apply hset <;> cases result <;> intro id <;> rfl
      dsimp only at hstep
      split at hstep
      . injection hstep with hstep
        subst hstep
        exact hprepared.endTask htask rfl
      . split at hstep
        . injection hstep with hstep
          subst hstep
          split
          . exact Conserved.setTask (s := (s.setRuntime _).spawnAutoDispatch)
              (hprepared.congr rfl rfl rfl rfl rfl) htask rfl rfl
          . exact hprepared.setTask htask rfl rfl
        . contradiction
    case h_3 =>
      split at hstep
      . injection hstep with hstep
        subst hstep
        exact h.endTask htask rfl
      . next runtime' dispatch htake =>
        split at hstep
        all_goals
          injection hstep with hstep
          subst hstep
          exact h.takeSteer hruntime htake htask rfl rfl rfl rfl
    case h_4 dispatch result =>
      split at hstep
      . next hnone =>
        have := BridgeThreadQueueRuntime.steerAnswered_eq_none hnone
        exact absurd (by simpa [ThreadState.inFlight, hruntime]) (h.steerAnswered_isSome htask)
      . next runtime' hanswer =>
        split at hstep
        all_goals
          injection hstep with hstep
          subst hstep
        . exact h.steerAnswered hruntime hanswer htask rfl rfl rfl rfl (.inl rfl)
        . exact h.steerAnswered hruntime hanswer htask rfl rfl rfl rfl (.inr rfl)
    case h_5 => contradiction

theorem prepareAnswer (h : Conserved s) {task : Nat} {t : SteerTask}
    (htask : s.steers[task]? = some t) {result : Except String Nat} {s' : ThreadState}
    (hstep : Thread.prepareAnswer s task t result = some s')
    : Conserved s' := by
  unfold Thread.prepareAnswer at hstep
  split at hstep
  . injection hstep with hstep
    subst hstep
    exact h.setTask htask rfl rfl
  . contradiction

theorem verifyAnswer (h : Conserved s) {task : Nat} {t : SteerTask}
    (htask : s.steers[task]? = some t) {result : Except String Bool} {s' : ThreadState}
    (hstep : Thread.verifyAnswer s task t result = some s')
    : Conserved s' := by
  unfold Thread.verifyAnswer at hstep
  split at hstep
  case h_4 => contradiction
  all_goals
    injection hstep with hstep
    subst hstep
    exact h.setTask htask rfl rfl

theorem steerAnswer (h : Conserved s) {task : Nat} {t : SteerTask}
    (htask : s.steers[task]? = some t) {result : Except String Unit} {s' : ThreadState}
    (hstep : Thread.steerAnswer s task t result = some s')
    : Conserved s' := by
  unfold Thread.steerAnswer at hstep
  split at hstep
  . next dispatch =>
    dsimp only at hstep
    injection hstep with hstep
    subst hstep
    have howned := ownedDispatches_setTask htask (.steered dispatch result)
    have hundelivered := undeliveredDispatches_setTask htask (.steered dispatch result)
    cases result with
    | error error =>
      apply h.of_task
      all_goals
        simp_all [ThreadState.ownedDispatches, ThreadState.undeliveredDispatches, SteerTask.owned,
          SteerTask.undelivered, ThreadState.queued, ThreadState.inFlight, Except.isOk, Except.toBool]
    | ok _ =>
      -- The accepted id leaves the undelivered ones.
      apply h.of_moves
      . simp [Except.isOk, Except.toBool]
      . intro id
        have := howned id
        have := h.owned_eq id
        simp_all [ThreadState.ownedDispatches, SteerTask.owned, ThreadState.inFlight, Except.isOk,
          Except.toBool]
      . intro id
        have := howned id
        simp_all [ThreadState.ownedDispatches, SteerTask.owned, ThreadState.queued,
          ThreadState.actorHeld, Except.isOk, Except.toBool]
      . intro id
        have := hundelivered id
        simp [ThreadState.undeliveredDispatches, SteerTask.owned, SteerTask.undelivered,
          ThreadState.queued, ThreadState.actorUndelivered, Except.isOk, Except.toBool,
          List.count_cons, occurs] at this ⊢
        omega
  . contradiction

theorem failSteerDispatch (h : Conserved s) {task : Nat} {t : SteerTask}
    (htask : s.steers[task]? = some t) (hguard : ownsDispatch s (.failSteerDispatch task))
    {s' : ThreadState} (hstep : Thread.failSteerDispatch s task t = some s')
    : Conserved s' := by
  unfold Thread.failSteerDispatch at hstep
  split at hstep
  . next owned itemId error =>
    injection hstep with hstep
    subst hstep
    -- What is in flight is what this task has put there.
    have hinFlight : ∀ id, s.inFlight id = occursIn id (owned.map (·.entry)) := by
      cases owned with
      | none =>
        intro id
        simp only [ownsDispatch, htask, Option.isNone_iff_eq_none] at hguard
        cases hruntime : s.runtime with
        | none => simp [ThreadState.inFlight, hruntime]
        | some runtime =>
          simp only [hruntime, Option.bind_some] at hguard
          simp [ThreadState.inFlight, BridgeThreadQueueRuntime.inFlight, hruntime, hguard]
      | some dispatch =>
        have hle := le_ownedDispatches htask dispatch.entry.id
        have howned := h.owned_eq dispatch.entry.id
        simp only [SteerTask.owned, Option.map_some, occursIn_some, occurs, if_true] at hle ⊢
        apply BridgeThreadQueueRuntime.inFlight_eq_occurs
        unfold ThreadState.inFlight at howned
        omega
    have heffect := (s.runtime.getD {}).failSteerDispatch_effect itemId error
    have howned := ownedDispatches_endTask htask
    have hundelivered := undeliveredDispatches_endTask htask
    apply h.of_task (by rfl) (by rfl) (by rfl)
    all_goals
      intro id
      have := heffect id
      have := hinFlight id
      have := howned id
      have := hundelivered id
      have := h.owned_eq id
      cases hruntime : s.runtime
      all_goals
        simp [hruntime, ThreadState.ownedDispatches, ThreadState.undeliveredDispatches,
          ThreadState.queued, ThreadState.inFlight, SteerTask.owned, SteerTask.undelivered] at *
        omega
  . contradiction

theorem sendMessage (h : Conserved s) (hfree : s.actor = none) (request : SendRequest)
    : Conserved (s.setActor (.sendLookup request)) := by
  apply h.of_section
  all_goals
    simp [ThreadState.queued, ThreadState.inFlight, ThreadState.actorHeld,
      ThreadState.actorUndelivered, hfree, ActorOp.held, ActorOp.undelivered]

/--
What one step preserves.
-/
theorem step (h : Conserved s) {bridgePrompt : Json → Except String Unit} {label : Label}
    (hguard : ownsDispatch s label) (hstep : Thread.step bridgePrompt s label = some t)
    : Conserved t := by
  cases Thread.Steps.of_step hstep with
  | ensureThreadRuntime snapshot => exact h.ensureThreadRuntime snapshot
  | sendMessage request hfree => exact h.sendMessage hfree request
  | storeAnswer hactor hanswer => exact h.storeAnswer hactor hanswer
  | allocate hactor hallocate => exact h.allocate hactor hallocate
  | proceed hactor hproceed => exact h.proceed hactor hproceed
  | turnStartAnswer hactor hanswer => exact h.turnStartAnswer hactor hanswer
  | steerMessage itemId => exact h.steerMessage itemId
  | cancelMessage itemId hfree => exact h.cancelMessage hfree itemId
  | startMessageEdit itemId => exact h.startMessageEdit itemId
  | commitMessageEdit itemId content => exact h.commitMessageEdit itemId content
  | cancelMessageEdit itemId => exact h.cancelMessageEdit itemId
  | drainThreadQueue hfree => exact h.drainThreadQueue hfree
  | retryWake => exact h.retryWake
  | handleCanonicalEvent eventId event hfree =>
    apply handleCanonicalEvent
    . exact h.congr rfl rfl rfl rfl rfl
    . exact hfree
  | steerSection hfree htask hsection => exact h.steerSection htask hsection
  | prepareAnswer htask hanswer => exact h.prepareAnswer htask hanswer
  | verifyAnswer htask hanswer => exact h.verifyAnswer htask hanswer
  | steerAnswer htask hanswer => exact h.steerAnswer htask hanswer
  | failSteerDispatch htask hfail => exact h.failSteerDispatch htask hguard hfail

/--
What the invariant says about the places.
-/
theorem deliversOnce (h : Conserved s) : DeliversOnce s where
  places_nodup := by
    rw [List.nodup_iff_count]
    intro id
    have hlocal : occursIn id (s.actor.bind (·.localDispatch)) ≤ s.actorHeld id := by
      unfold ThreadState.actorHeld
      cases s.actor with
      | none => simp
      | some op => cases op <;> simp [ActorOp.localDispatch, ActorOp.held]
    have hcount : (s.places.map (·.id)).count id
        = s.queued id + s.inFlight id + occursIn id (s.actor.bind (·.localDispatch)) := by
      rw [count_map_eq_weigh]
      change weigh (occurs id) s.places = _
      simp only [ThreadState.places, ThreadState.queued, ThreadState.inFlight, weigh_append,
        weigh_toList, BridgeThreadQueueRuntime.queued, BridgeThreadQueueRuntime.inFlight]
    have := h.held_le id
    have := h.owned_eq id
    have := h.allocated_le_one id
    omega
  accepted_nodup := by
    rw [List.nodup_iff_count]
    intro id
    have := h.accepted_le id
    have := h.allocated_le_one id
    omega
  not_queued := by
    intro id hid runtime hruntime
    have haccepted : 0 < s.log.accepted.count id := List.count_pos_iff.mpr hid
    have hle := h.accepted_le id
    have := h.allocated_le_one id
    have hqueued : runtime.queued id = 0 := by
      simp only [ThreadState.queued, hruntime, Option.getD_some] at hle
      omega
    simp only [BridgeThreadQueueRuntime.queued, Nat.add_eq_zero_iff, weigh_eq_zero] at hqueued
    simpa [occurs] using hqueued

end Conserved

/--
In every run in which no steer drain fails the dispatch of another one, each entry is in at most one
place and is accepted at most once.
-/
theorem deliversOnce_of_exec {bridgePrompt : Json → Except String Unit} {labels : List Label}
    {s : ThreadState} (hmeets : Meets (Thread.step bridgePrompt) (ownsDispatch · ·) {} labels)
    (hexec : exec (Thread.step bridgePrompt) {} labels = some s)
    : DeliversOnce s := by
  have hinv : Conserved s := by
    refine exec_invariant ?_ Conserved.init hmeets hexec
    intro s label t h hguard hstep
    exact h.step hguard hstep
  exact hinv.deliversOnce

/--
A message is queued behind a live prompt and steered.
-/
def oneSteer : List Label :=
  .ensureThreadRuntime Thread.liveSnapshot :: Thread.sendQueued "a"
    ++ .steerMessage "a" :: Thread.prepareSteer 0 ++ Thread.dispatchSteer 0
    ++ [.steerAnswer 0 (.ok ())]

theorem deliversOnce_of_oneSteer
    : ∃ s, exec (Thread.step fun _ => .ok ()) {} oneSteer = some s ∧ DeliversOnce s := by
  have hmeets : Meets (Thread.step fun _ => .ok ()) (ownsDispatch · ·) {} oneSteer := by decide
  exact ⟨_, rfl, deliversOnce_of_exec hmeets rfl⟩

/--
A second steer drain fails the dispatch of the first one, whose entry is then steered again although
the backend accepts it.
-/
def crossedSteers : List Label :=
  .ensureThreadRuntime Thread.liveSnapshot :: Thread.sendQueued "a"
    ++ .steerMessage "a" :: Thread.prepareSteer 0 ++ [.verifyAnswer 0 (.ok true)]
    ++ Thread.toolCompleted 1 :: Thread.prepareSteer 1
    ++ [.steerSection 0, .verifyAnswer 1 (.error "session was closed"), .failSteerDispatch 1,
      .steerAnswer 0 (.ok ()), .steerSection 0]
    ++ Thread.sendQueued "b" ++ Thread.toolCompleted 2 :: Thread.prepareSteer 0
    ++ Thread.dispatchSteer 0 ++ [.steerAnswer 0 (.ok ())]

theorem not_deliversOnce_of_crossedSteers
    : ¬ ∀ labels s, exec (Thread.step fun _ => .ok ()) {} labels = some s → DeliversOnce s := by
  intro h
  have hrun : (exec (Thread.step fun _ => .ok ()) {} crossedSteers).map (·.log.accepted)
      = some ["a", "a"] := by rfl
  obtain ⟨s, hexec, haccepted⟩ := Option.map_eq_some_iff.mp hrun
  have hnodup := (h crossedSteers s hexec).accepted_nodup
  rw [haccepted] at hnodup
  exact absurd hnodup (by decide)

end Queue
