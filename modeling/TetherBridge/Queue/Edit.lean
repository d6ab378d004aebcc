import TetherBridge.Queue.Moves

/-!
This module contains the edit of a queued message as a lock that is held across requests: while it is
held, the edited message stays the next one and nothing dispatches it.
-/

namespace Queue

open Acp List Transition

/--
The entry for which the holder of the actor lock is calling `turn_start`.
-/
def ActorOp.calling : ActorOp → Option BridgeQueuedMessageEntry
  | .sendTurnStart entry => some entry
  | .drainTurnStart entry => some entry
  | _ => none

/--
The entry for which a steer drain is calling `steer`.
-/
def SteerTask.calling : SteerTask → Option BridgeQueuedMessageEntry
  | .steering dispatch => some dispatch.entry
  | _ => none

/--
The entries of the backend calls that are outstanding.
-/
def ThreadState.calling (s : ThreadState) : List BridgeQueuedMessageEntry :=
  (s.actor.bind (·.calling)).toList ++ s.steers.filterMap (·.calling)

/--
The labels that end the edit of a message.
-/
def ServiceLabel.endsEdit (itemId : String) : ServiceLabel → Bool
  | .thread (.commitMessageEdit id _) => id = itemId
  | .thread (.cancelMessageEdit id) => id = itemId
  | .thread (.cancelMessage id) => id = itemId
  | _ => false

def Activity.endsEdit (itemId : String) : Activity → Bool
  | .cancel id | .endEdit id => id = itemId
  | _ => false

/--
The claim that the edit of a message has on the queue.
-/
structure EditClaim (bridgePrompt : Json → Except String Unit) (s : ThreadState) (itemId : String)
    : Prop where
  next : s.line.items.head?.map (·.id) = some itemId
  no_steers : s.line.pendingSteers = []
  no_steer_in_flight : s.line.inFlight = none
  held : ∀ label t, Thread.serviceStep bridgePrompt s label = some t →
    t.line.editing = some itemId ∨ (t.line.editing = none ∧ label.endsEdit itemId)
  not_dispatched : ∀ label t, Thread.serviceStep bridgePrompt s label = some t →
    ∀ entry ∈ t.calling, entry.id = itemId → entry ∈ s.calling

/--
A move ends an edit by its own request only.
-/
theorem Line.Move.editing {l l' : Line} {a : Activity} {id : String} (hmove : l.Move a l')
    (hediting : l.editing = some id)
    : l'.editing = some id ∨ (l'.editing = none ∧ a.endsEdit id) := by
  cases hmove with
  | cancelItem itemId =>
    dsimp only
    split
    . next heq =>
      rw [hediting] at heq
      injection heq with heq
      exact .inr ⟨rfl, by simp [Activity.endsEdit, heq]⟩
    . exact .inl hediting
  | startEdit _ _ hnone =>
    rw [hediting] at hnone
    contradiction
  | commitEdit heq | cancelEdit heq =>
    rw [hediting] at heq
    injection heq with heq
    exact .inr ⟨rfl, by simp [Activity.endsEdit, heq]⟩
  | _ => exact .inl hediting

namespace Thread

variable {s t : ThreadState} {bridgePrompt : Json → Except String Unit}

@[simp]
theorem endsEdit_actorActivity (op : ActorOp) (itemId : String)
    : op.activity.endsEdit itemId = false := by
  unfold ActorOp.activity
  split
  case h_14 => split <;> rfl
  all_goals rfl

@[simp]
theorem endsEdit_steeredActivity (runtime : BridgeThreadQueueRuntime)
    (dispatch : PendingSteerDispatch) (result : Except String Unit) (itemId : String)
    : (runtime.steeredActivity dispatch result).endsEdit itemId = false := by
  unfold BridgeThreadQueueRuntime.steeredActivity
  split
  . rfl
  . split
    . rfl
    . split
      . rfl
      . split <;> rfl

@[simp]
theorem endsEdit_runEndActivity (runtime : BridgeThreadQueueRuntime) (sourceTurnId : String)
    (generation : Nat) (itemId : String)
    : (runtime.runEndActivity sourceTurnId generation).endsEdit itemId = false := by
  unfold BridgeThreadQueueRuntime.runEndActivity
  split <;> rfl

theorem endsEdit_of_activity {label : ServiceLabel} {itemId : String}
    (h : (s.activity label).endsEdit itemId)
    : label.endsEdit itemId := by
  unfold ThreadState.activity at h
  split at h
  case h_3 | h_4 | h_5 =>
    cases hactor : s.actor with
    | none =>
      rw [hactor] at h
      contradiction
    | some op =>
      rw [hactor] at h
      simp at h
  case h_6 | h_8 | h_9 => exact h
  case h_11 =>
    split at h
    . simp at h
    . contradiction
  case h_12 | h_13 => simp at h
  all_goals contradiction

/--
What a call that is outstanding after a step may be about.
-/
def MayCall (s : ThreadState) (entry : BridgeQueuedMessageEntry) : Prop :=
  entry ∈ s.calling ∨ s.line.queueing = some entry.id ∨ s.line.dispatching = some entry
    ∨ entry ∈ s.line.pendingSteers

theorem mem_calling {entry : BridgeQueuedMessageEntry}
    : entry ∈ s.calling
        ↔
      s.actor.bind (·.calling) = some entry ∨ ∃ u ∈ s.steers, u.calling = some entry := by
  simp [ThreadState.calling]

/--
A step that starts no call.
-/
theorem mayCall_of_rest {entry : BridgeQueuedMessageEntry} (hentry : entry ∈ t.calling)
    (hactor : t.actor = s.actor ∨ t.actor.bind (·.calling) = none)
    (hsteers : ∀ u ∈ t.steers, u ∈ s.steers ∨ u.calling = none)
    : MayCall s entry := by
  left
  rw [mem_calling] at hentry ⊢
  rcases hentry with hcalling | ⟨u, hu, hcalling⟩
  . cases hactor with
    | inl heq =>
      rw [heq] at hcalling
      exact .inl hcalling
    | inr hnone =>
      rw [hnone] at hcalling
      contradiction
  . cases hsteers u hu with
    | inl hmem => exact .inr ⟨u, hmem, hcalling⟩
    | inr hnone =>
      rw [hnone] at hcalling
      contradiction

theorem mayCall_storeAnswer {op : ActorOp} {answer : StoreAnswer}
    (h : storeAnswer s op answer = some t) {entry : BridgeQueuedMessageEntry}
    (hentry : entry ∈ t.calling)
    : MayCall s entry := by
  unfold storeAnswer at h
  split at h
  case h_15 => contradiction
  case h_11 =>
    injection h with h
    subst h
    split at hentry <;> exact mayCall_of_rest hentry (.inr rfl) fun _ => .inl
  all_goals
    injection h with h
    subst h
    exact mayCall_of_rest hentry (.inr rfl) fun _ => .inl

theorem mayCall_allocate {op : ActorOp} {id : String} (h : allocate s op id = some t)
    {entry : BridgeQueuedMessageEntry} (hentry : entry ∈ t.calling)
    : MayCall s entry := by
  unfold allocate at h
  split at h
  . split at h
    . contradiction
    . dsimp only at h
      split at h
      all_goals
        injection h with h
        subst h
        exact mayCall_of_rest hentry (.inr rfl) fun _ => .inl
  . contradiction

theorem mayCall_proceed {op : ActorOp} (hactor : s.actor = some op) (h : proceed s op = some t)
    {entry : BridgeQueuedMessageEntry} (hentry : entry ∈ t.calling)
    : MayCall s entry := by
  have hstarts : ∀ started : BridgeQueuedMessageEntry, op.queueing = some started.id
      ∨ op.localDispatch = some started →
      t.actor.bind (·.calling) = some started → t.steers = s.steers → MayCall s entry := by
    intro started hop hstarted hsteers
    rw [mem_calling, hstarted, hsteers] at hentry
    rcases hentry with hentry | hentry
    . injection hentry with hentry
      subst hentry
      unfold MayCall ThreadState.line
      rw [hactor]
      exact .inr (hop.imp_right .inl)
    . exact .inl (mem_calling.mpr (.inr hentry))
  unfold proceed at h
  dsimp only at h
  split at h
  case h_1 =>
    split at h
    all_goals
      injection h with h
      subst h
      exact mayCall_of_rest hentry (.inr rfl) fun _ => .inl
  case h_3 started =>
    injection h with h
    subst h
    exact hstarts started (.inl rfl) rfl rfl
  case h_5 | h_10 =>
    split at h
    all_goals
      injection h with h
      subst h
      exact mayCall_of_rest hentry (.inr rfl) fun _ => .inl
  case h_6 =>
    injection h with h
    subst h
    split at hentry <;> exact mayCall_of_rest hentry (.inr rfl) fun _ => .inl
  case h_8 started =>
    injection h with h
    subst h
    exact hstarts started (.inr rfl) rfl rfl
  case h_14 => contradiction
  all_goals
    injection h with h
    subst h
    exact mayCall_of_rest hentry (.inr rfl) fun _ => .inl

theorem mayCall_turnStartAnswer {op : ActorOp} {answer : Except String String}
    (h : turnStartAnswer s op answer = some t) {entry : BridgeQueuedMessageEntry}
    (hentry : entry ∈ t.calling)
    : MayCall s entry := by
  unfold turnStartAnswer at h
  dsimp only at h
  split at h
  case h_3 => contradiction
  all_goals
    injection h with h
    subst h
    split at hentry <;> exact mayCall_of_rest hentry (.inr rfl) fun _ => .inl

theorem mem_of_setTask {task : Nat} {u v : SteerTask} (hv : v.calling = none)
    (hu : u ∈ s.steers.set task v)
    : u ∈ s.steers ∨ u.calling = none := by
  cases List.mem_or_eq_of_mem_set hu with
  | inl hmem => exact .inl hmem
  | inr heq => exact .inr (heq ▸ hv)

theorem mem_of_endTask {task : Nat} {u : SteerTask} (hu : u ∈ s.steers.eraseIdx task)
    : u ∈ s.steers ∨ u.calling = none :=
  .inl (List.mem_of_mem_eraseIdx hu)

theorem mem_of_spawn {u : SteerTask} (hu : u ∈ s.steers ++ [.start])
    : u ∈ s.steers ∨ u.calling = none := by
  rw [List.mem_append, List.mem_singleton] at hu
  cases hu with
  | inl hmem => exact .inl hmem
  | inr heq => exact .inr (heq ▸ rfl)

theorem mayCall_steerSection (hfree : s.actor = none) {task : Nat} {u : SteerTask}
    (h : steerSection bridgePrompt s task u = some t) {entry : BridgeQueuedMessageEntry}
    (hentry : entry ∈ t.calling)
    : MayCall s entry := by
  unfold steerSection at h
  split at h
  . split at h
    case h_5 => contradiction
    all_goals
      injection h with h
      subst h
      exact mayCall_of_rest hentry (.inl rfl) fun _ => mem_of_endTask
  . next runtime hruntime =>
    split at h
    case h_1 =>
      split at h
      all_goals
        injection h with h
        subst h
      . exact mayCall_of_rest hentry (.inl rfl) fun _ => mem_of_setTask rfl
      . exact mayCall_of_rest hentry (.inl rfl) fun _ => mem_of_endTask
    case h_2 result =>
      dsimp only at h
      split at h
      . injection h with h
        subst h
        exact mayCall_of_rest hentry (.inl rfl) fun _ => mem_of_endTask
      . split at h
        . injection h with h
          subst h
          split at hentry <;> exact mayCall_of_rest hentry (.inl rfl) fun _ => mem_of_setTask rfl
        . contradiction
    case h_3 =>
      split at h
      . injection h with h
        subst h
        exact mayCall_of_rest hentry (.inl rfl) fun _ => mem_of_endTask
      . next runtime' dispatch htake =>
        dsimp only at h
        split at h
        . injection h with h
          subst h
          rw [mem_calling] at hentry
          rcases hentry with hentry | ⟨u, hu, hcalling⟩
          . exact .inl (mem_calling.mpr (.inl hentry))
          . cases List.mem_or_eq_of_mem_set hu with
            | inl hmem => exact .inl (mem_calling.mpr (.inr ⟨u, hmem, hcalling⟩))
            | inr heq =>
              subst heq
              injection hcalling with hcalling
              subst hcalling
              right; right; right
              rw [line_of_free hfree, hruntime]
              unfold BridgeThreadQueueRuntime.takeSteer at htake
              split at htake
              . contradiction
              . split at htake
                . next hsteers =>
                  injection htake with htake
                  injection htake with _ hdispatch
                  subst hdispatch
                  change _ ∈ runtime.pendingSteers
                  rw [hsteers]
                  exact List.mem_cons_self
                . contradiction
        . injection h with h
          subst h
          exact mayCall_of_rest hentry (.inl rfl) fun _ => mem_of_setTask rfl
    case h_4 dispatch result =>
      split at h
      . injection h with h
        subst h
        exact mayCall_of_rest hentry (.inl rfl) fun _ => mem_of_endTask
      . dsimp only at h
        split at h
        all_goals
          injection h with h
          subst h
        . exact mayCall_of_rest hentry (.inl rfl) fun _ => mem_of_setTask rfl
        . exact mayCall_of_rest hentry (.inl rfl) fun _ => mem_of_endTask
    case h_5 => contradiction

theorem mayCall_of_congr {entry : BridgeQueuedMessageEntry} (hentry : entry ∈ t.calling)
    (hactor : t.actor = s.actor) (hsteers : t.steers = s.steers)
    : MayCall s entry := by
  apply mayCall_of_rest hentry (.inl hactor)
  intro u hu
  rw [hsteers] at hu
  exact .inl hu

theorem mayCall_request {result : Except String ThreadState} {entry : BridgeQueuedMessageEntry}
    (hentry : entry ∈ (request s result).calling)
    (h : ∀ t, result = .ok t → entry ∈ t.calling → MayCall s entry)
    : MayCall s entry := by
  cases result with
  | ok t => exact h t rfl hentry
  | error error => exact .inl hentry

theorem mayCall_steerMessage {itemId : String} {entry : BridgeQueuedMessageEntry}
    (hentry : entry ∈ (steerMessage s itemId).calling)
    : MayCall s entry := by
  unfold steerMessage at hentry
  split at hentry
  . exact .inl hentry
  . apply mayCall_request hentry
    intro t ht hentry
    rw [Except.map_eq_ok] at ht
    rcases ht with ⟨runtime', _, ht⟩
    subst ht
    exact mayCall_of_rest hentry (.inl rfl) fun _ => mem_of_spawn

theorem mayCall_cancelMessage {itemId : String} {entry : BridgeQueuedMessageEntry}
    (hentry : entry ∈ (cancelMessage s itemId).calling)
    : MayCall s entry := by
  unfold cancelMessage at hentry
  split at hentry
  . exact .inl hentry
  . apply mayCall_request hentry
    intro t ht hentry
    rw [Except.map_eq_ok] at ht
    rcases ht with ⟨_, _, ht⟩
    subst ht
    exact mayCall_of_rest hentry (.inr rfl) fun _ => .inl

theorem mayCall_startMessageEdit {itemId : String} {entry : BridgeQueuedMessageEntry}
    (hentry : entry ∈ (startMessageEdit s itemId).calling)
    : MayCall s entry := by
  unfold startMessageEdit at hentry
  split at hentry
  . exact .inl hentry
  . apply mayCall_request hentry
    intro t ht hentry
    rw [Except.map_eq_ok] at ht
    rcases ht with ⟨_, _, ht⟩
    subst ht
    exact mayCall_of_congr hentry rfl rfl

theorem mayCall_finishEdit {result : Except String BridgeThreadQueueRuntime}
    {entry : BridgeQueuedMessageEntry} (hentry : entry ∈ (finishEdit s result).calling)
    : MayCall s entry := by
  unfold finishEdit at hentry
  apply mayCall_request hentry
  intro t ht hentry
  rw [Except.map_eq_ok] at ht
  rcases ht with ⟨_, _, ht⟩
  subst ht
  split at hentry <;> exact mayCall_of_congr hentry rfl rfl

theorem mayCall_drainThreadQueue {entry : BridgeQueuedMessageEntry}
    (hentry : entry ∈ (drainThreadQueue s).calling)
    : MayCall s entry := by
  unfold drainThreadQueue at hentry
  dsimp only at hentry
  split at hentry
  . exact mayCall_of_congr hentry rfl rfl
  . split at hentry
    . exact mayCall_of_congr hentry rfl rfl
    . split at hentry <;> exact mayCall_of_rest hentry (.inr rfl) fun _ => .inl

theorem mayCall_runEnd {eventId : Nat} {sourceTurnId : String} {generation : Nat}
    {entry : BridgeQueuedMessageEntry}
    (hentry : entry ∈ (runEnd s eventId sourceTurnId generation).calling)
    : MayCall s entry := by
  unfold runEnd at hentry
  dsimp only at hentry
  split at hentry
  . exact mayCall_of_congr hentry rfl rfl
  . split at hentry
    . exact mayCall_of_rest hentry (.inr rfl) fun _ => .inl
    . split at hentry <;> exact mayCall_of_congr hentry rfl rfl

theorem mayCall_interactionResolved {resolve : BridgeThreadQueueRuntime → BridgeThreadQueueRuntime}
    {entry : BridgeQueuedMessageEntry} (hentry : entry ∈ (interactionResolved s resolve).calling)
    : MayCall s entry := by
  unfold interactionResolved at hentry
  split at hentry
  . exact .inl hentry
  . dsimp only at hentry
    split at hentry
    . exact mayCall_of_rest hentry (.inl rfl) fun _ => mem_of_spawn
    . exact mayCall_of_congr hentry rfl rfl

theorem mayCall_handleCanonicalEvent {eventId : Nat} {event : CanonicalEvent}
    {entry : BridgeQueuedMessageEntry}
    (hentry : entry ∈ (handleCanonicalEvent s eventId event).calling)
    : MayCall s entry := by
  unfold handleCanonicalEvent at hentry
  dsimp only at hentry
  split at hentry
  case h_2 | h_3 => exact mayCall_runEnd hentry
  case h_4 =>
    split at hentry
    . exact mayCall_of_rest hentry (.inl rfl) fun _ => mem_of_spawn
    . exact mayCall_of_congr hentry rfl rfl
  case h_6 | h_8 => exact mayCall_interactionResolved hentry
  all_goals exact mayCall_of_congr hentry rfl rfl

theorem mayCall_reconcile {answer : Except String QueueRuntimeSnapshot}
    {entry : BridgeQueuedMessageEntry} (hentry : entry ∈ (reconcile s answer).calling)
    : MayCall s entry := by
  unfold reconcile at hentry
  split at hentry
  . exact .inl hentry
  . split at hentry
    . exact mayCall_of_rest hentry (.inl rfl) fun _ => mem_of_spawn
    . exact mayCall_of_congr hentry rfl rfl

theorem mayCall_prepareAnswer {task : Nat} {u : SteerTask} {result : Except String Nat}
    (h : prepareAnswer s task u result = some t) {entry : BridgeQueuedMessageEntry}
    (hentry : entry ∈ t.calling)
    : MayCall s entry := by
  unfold prepareAnswer at h
  split at h
  . injection h with h
    subst h
    exact mayCall_of_rest hentry (.inl rfl) fun _ => mem_of_setTask rfl
  . contradiction

theorem mayCall_verifyAnswer {task : Nat} {u : SteerTask} {result : Except String Bool}
    (h : verifyAnswer s task u result = some t) {entry : BridgeQueuedMessageEntry}
    (hentry : entry ∈ t.calling)
    : MayCall s entry := by
  unfold verifyAnswer at h
  split at h
  case h_4 => contradiction
  all_goals
    injection h with h
    subst h
    exact mayCall_of_rest hentry (.inl rfl) fun _ => mem_of_setTask rfl

theorem mayCall_steerAnswer {task : Nat} {u : SteerTask} {result : Except String Unit}
    (h : steerAnswer s task u result = some t) {entry : BridgeQueuedMessageEntry}
    (hentry : entry ∈ t.calling)
    : MayCall s entry := by
  unfold steerAnswer at h
  split at h
  . injection h with h
    subst h
    split at hentry <;> exact mayCall_of_rest hentry (.inl rfl) fun _ => mem_of_setTask rfl
  . contradiction

theorem mayCall_failSteerDispatch {task : Nat} {u : SteerTask}
    (h : failSteerDispatch s task u = some t) {entry : BridgeQueuedMessageEntry}
    (hentry : entry ∈ t.calling)
    : MayCall s entry := by
  unfold failSteerDispatch at h
  split at h
  . injection h with h
    subst h
    exact mayCall_of_rest hentry (.inl rfl) fun _ => mem_of_endTask
  . contradiction

/--
A backend call is started for the entry of a send, for the entry a drain has popped, or for a pending steer.
-/
theorem mayCall_serviceStep {label : ServiceLabel} (h : serviceStep bridgePrompt s label = some t)
    {entry : BridgeQueuedMessageEntry} (hentry : entry ∈ t.calling)
    : MayCall s entry := by
  unfold serviceStep at h
  split at h
  . cases Steps.of_step h with
    | ensureThreadRuntime snapshot =>
      unfold ensureThreadRuntime at hentry
      split at hentry <;> exact mayCall_of_congr hentry rfl rfl
    | sendMessage => exact mayCall_of_rest hentry (.inr rfl) fun _ => .inl
    | storeAnswer _ hanswer => exact mayCall_storeAnswer hanswer hentry
    | allocate _ hallocate => exact mayCall_allocate hallocate hentry
    | proceed hactor hproceed => exact mayCall_proceed hactor hproceed hentry
    | turnStartAnswer _ hanswer => exact mayCall_turnStartAnswer hanswer hentry
    | steerMessage => exact mayCall_steerMessage hentry
    | cancelMessage => exact mayCall_cancelMessage hentry
    | startMessageEdit => exact mayCall_startMessageEdit hentry
    | commitMessageEdit =>
      unfold commitMessageEdit at hentry
      split at hentry
      . exact .inl hentry
      . exact mayCall_finishEdit hentry
    | cancelMessageEdit =>
      unfold cancelMessageEdit at hentry
      split at hentry
      . exact .inl hentry
      . exact mayCall_finishEdit hentry
    | drainThreadQueue => exact mayCall_drainThreadQueue hentry
    | retryWake => exact mayCall_of_congr hentry rfl rfl
    | handleCanonicalEvent eventId =>
      exact mayCall_handleCanonicalEvent (s := s.noteHandled eventId) hentry
    | steerSection hfree _ hsection => exact mayCall_steerSection hfree hsection hentry
    | prepareAnswer _ hanswer => exact mayCall_prepareAnswer hanswer hentry
    | verifyAnswer _ hanswer => exact mayCall_verifyAnswer hanswer hentry
    | steerAnswer _ hanswer => exact mayCall_steerAnswer hanswer hentry
    | failSteerDispatch _ hfail => exact mayCall_failSteerDispatch hfail hentry
  . split at h
    . injection h with h
      subst h
      exact mayCall_reconcile hentry
    . contradiction

end Thread

/--
A message is queued behind a live prompt, and its edit starts.
-/
def editStarted : List Label :=
  .ensureThreadRuntime Thread.liveSnapshot :: Thread.sendQueued "a" ++ [.startMessageEdit "a"]

end Queue
