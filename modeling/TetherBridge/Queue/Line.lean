import TetherBridge.Queue.Conservation

/-!
This module contains the queue of one thread as a line of entries that are to be delivered in order:
the local dispatch of a drain, the steer in flight, the pending steers, the items. Every section of the
queue service is one move of the line, or leaves it as it is.
-/

namespace Queue

open Acp List Transition

/-! The reconciliation after the event mailbox has overflown -/

namespace BridgeThreadQueueRuntime

variable (runtime : BridgeThreadQueueRuntime)

/--
What `reconcile_all_threads` does to a thread with the answer of `read_snapshot`.
-/
def reconcile (answer : Except String QueueRuntimeSnapshot) : BridgeThreadQueueRuntime :=
  match answer with
  | .ok snapshot =>
    let hydrated := hydrateThreadRuntime snapshot
    { runtime with
      activeTurnId := hydrated.activeTurnId
      activeRunId := hydrated.activeRunId
      activePromptGeneration := hydrated.activePromptGeneration
      activeToolCallIds := hydrated.activeToolCallIds
      liveGenerationKnown := hydrated.liveGenerationKnown
      threadRunning := hydrated.threadRunning
      pendingApprovalIds := hydrated.pendingApprovalIds
      pendingUserInputIds := hydrated.pendingUserInputIds }
  | .error error =>
    { runtime with
      threadRunning := true
      liveGenerationKnown := false
      activeToolCallIds := []
      lastError := some { message := error, operation := "reconcile", itemId := none } }

def reconciledShouldDrain (answer : Except String QueueRuntimeSnapshot) : Bool :=
  match answer with
  | .ok _ =>
    !(runtime.reconcile answer).pendingSteers.isEmpty
      && (runtime.reconcile answer).activeToolCallIds.isEmpty
      && (runtime.reconcile answer).liveGenerationKnown
  | .error _ => false

end BridgeThreadQueueRuntime

inductive ServiceLabel where
  | thread (label : Label)
  /-- `reconcile_all_threads` has read the snapshot of the thread -/
  | reconcile (answer : Except String QueueRuntimeSnapshot)

namespace Thread

def reconcile (s : ThreadState) (answer : Except String QueueRuntimeSnapshot) : ThreadState :=
  match s.runtime with
  | none => s
  | some runtime =>
    if runtime.reconciledShouldDrain answer then
      (s.setRuntime (runtime.reconcile answer)).spawnSteerDispatch
    else
      s.setRuntime (runtime.reconcile answer)

/--
The steps of the thread, and those of the reconciliation.
-/
def serviceStep (bridgePrompt : Json → Except String Unit) (s : ThreadState)
    : ServiceLabel → Option ThreadState
  | .thread label => step bridgePrompt s label
  | .reconcile answer => if s.actor.isNone then some (reconcile s answer) else none

end Thread

/-! The line -/

structure Line where
  /-- the entry a drain has popped -/
  dispatching : Option BridgeQueuedMessageEntry
  inFlight : Option PendingSteerDispatch
  pendingSteers : List BridgeQueuedMessageEntry
  items : List BridgeQueuedMessageEntry
  editing : Option String
  /-- the id of the entry that a `send_message` has made and not sent yet -/
  queueing : Option String
  allocated : List String

namespace Line

variable (l : Line)

/--
The entries in the order in which they are to be delivered.
-/
def order : List BridgeQueuedMessageEntry :=
  l.dispatching.toList ++ (l.inFlight.map (·.entry)).toList ++ l.pendingSteers ++ l.items

def bytes (entries : List BridgeQueuedMessageEntry) : Nat :=
  (entries.map (·.bytes)).sum

end Line

/--
What a step is about, as far as the order of the entries is concerned.
-/
inductive Activity where
  | send
  | cancel (itemId : String)
  | startEdit (itemId : String)
  | endEdit (itemId : String)
  | steer (itemId : String)
  /-- an entry leaves the line, because the backend has accepted it -/
  | delivery
  /-- an entry leaves the line, because nobody knows whether the backend has accepted it -/
  | loss
  /-- a steer fails after its run has ended -/
  | requeue
  | endRun
  | other
  deriving DecidableEq

/--
The moves of the line.
-/
inductive Line.Move (l : Line) : Activity → Line → Prop where
  | rest (a : Activity) : Move l a l
  | allocate {id : String} (hfresh : id ∉ l.allocated)
    : Move l .send { l with allocated := id :: l.allocated, queueing := some id }
  | enqueue {entry : BridgeQueuedMessageEntry} (hqueueing : l.queueing = some entry.id)
      (hdispatching : l.dispatching = none)
      (hlength : l.items.length < QUEUE_MAX_ITEMS_PER_THREAD)
      (hbytes : bytes l.items + entry.bytes ≤ QUEUE_MAX_BYTES_PER_THREAD)
    : Move l .send { l with items := l.items ++ [entry] }
  | retract {id : String} (hqueueing : l.queueing = some id)
    : Move l .send { l with items := l.items.filter (·.id ≠ id), queueing := none }
  | endQueueing : Move l .send { l with queueing := none }
  | cancelItem (id : String)
    : Move l (.cancel id) { l with
        items := l.items.eraseP (·.id = id)
        editing := if l.editing = some id then none else l.editing }
  | cancelSteer (id : String)
    : Move l (.cancel id) { l with pendingSteers := l.pendingSteers.eraseP (·.id = id) }
  | startEdit {id : String} (hdispatching : l.dispatching = none) (hqueueing : l.queueing = none)
      (hediting : l.editing = none) (hinFlight : l.inFlight = none) (hsteers : l.pendingSteers = [])
      (hhead : l.items.head?.map (·.id) = some id)
    : Move l (.startEdit id) { l with editing := some id }
  | commitEdit {item edited : BridgeQueuedMessageEntry} (hediting : l.editing = some item.id)
      (hitem : l.items.find? (·.id = item.id) = some item) (hid : edited.id = item.id)
      (hbytes : bytes (l.items.eraseP (·.id = item.id)) + edited.bytes
        ≤ QUEUE_MAX_BYTES_PER_THREAD)
    : Move l (.endEdit item.id) { l with
        items := l.items.set (l.items.findIdx (·.id = item.id)) edited
        editing := none }
  | cancelEdit {id : String} (hediting : l.editing = some id)
    : Move l (.endEdit id) { l with editing := none }
  | steer {entry : BridgeQueuedMessageEntry} (hdispatching : l.dispatching = none)
      (hediting : l.editing = none) (hentry : l.items.find? (·.id = entry.id) = some entry)
    : Move l (.steer entry.id) { l with
        items := l.items.eraseP (·.id = entry.id)
        pendingSteers := l.pendingSteers ++ [entry] }
  | takeSteer {dispatch : PendingSteerDispatch} {pendingSteers : List BridgeQueuedMessageEntry}
      (hdispatching : l.dispatching = none) (hinFlight : l.inFlight = none)
      (hsteers : l.pendingSteers = dispatch.entry :: pendingSteers)
    : Move l .other { l with pendingSteers, inFlight := some dispatch }
  | steered {dispatch : PendingSteerDispatch} (hinFlight : l.inFlight = some dispatch)
    : Move l .delivery { l with inFlight := none }
  | returnSteer {dispatch : PendingSteerDispatch} (hinFlight : l.inFlight = some dispatch)
    : Move l .other { l with
        inFlight := none
        pendingSteers := dispatch.entry :: l.pendingSteers }
  | requeueSteer {dispatch : PendingSteerDispatch} (hinFlight : l.inFlight = some dispatch)
    : Move l .requeue { l with inFlight := none, items := dispatch.entry :: l.items }
  | endRun (hdispatching : l.dispatching = none)
    : Move l .endRun { l with
        inFlight := l.inFlight.map ({ · with crossedCompletionBoundary := true })
        pendingSteers := []
        items := l.pendingSteers ++ l.items }
  | pop {entry : BridgeQueuedMessageEntry} {items : List BridgeQueuedMessageEntry}
      (hdispatching : l.dispatching = none) (hediting : l.editing = none)
      (hinFlight : l.inFlight = none) (hsteers : l.pendingSteers = [])
      (hitems : l.items = entry :: items)
    : Move l .other { l with items, dispatching := some entry }
  | putBack {entry : BridgeQueuedMessageEntry} (hdispatching : l.dispatching = some entry)
    : Move l .other { l with dispatching := none, items := entry :: l.items }
  | dispatched : Move l .delivery { l with dispatching := none }
  | lost : Move l .loss { l with dispatching := none }

/--
What holds of the line in every state. While a drain holds an entry or a message is edited, there are no
steers, and the edited message is the next one.
-/
structure Line.Sound (l : Line) : Prop where
  dispatching : l.dispatching.isSome → l.editing = none ∧ l.inFlight = none ∧ l.pendingSteers = []
  editing : ∀ id, l.editing = some id →
    l.items.head?.map (·.id) = some id ∧ l.inFlight = none ∧ l.pendingSteers = []
  queueing : ∀ id, l.queueing = some id → id ∈ l.allocated ∧ l.editing ≠ some id
  allocated : ∀ entry ∈ l.order, entry.id ∈ l.allocated

namespace Line.Sound

variable {l l' : Line}

/--
A line keeps sound when its entries stay within it and nothing but the order changes.
-/
theorem of_subset (h : Sound l) (hallocated : l'.allocated = l.allocated)
    (hqueueing : l'.queueing = l.queueing ∨ l'.queueing = none)
    (hsubset : ∀ entry ∈ l'.order, ∃ e ∈ l.order, e.id = entry.id)
    (hdispatching : l'.dispatching.isSome →
      l'.editing = none ∧ l'.inFlight = none ∧ l'.pendingSteers = [])
    (hediting : ∀ id, l'.editing = some id →
      l'.items.head?.map (·.id) = some id ∧ l'.inFlight = none ∧ l'.pendingSteers = [])
    (hqueued : ∀ id, l'.editing = some id → l'.queueing = none ∨ l.editing = some id)
    : Sound l' where
  dispatching := hdispatching
  editing := hediting
  queueing := by
    intro id hid
    rw [hallocated]
    cases hqueueing with
    | inl heq =>
      rw [heq] at hid
      refine ⟨(h.queueing id hid).1, ?_⟩
      intro hedit
      cases hqueued id hedit with
      | inl hnone =>
        rw [heq, hid] at hnone
        contradiction
      | inr hedit => exact (h.queueing id hid).2 hedit
    | inr hnone =>
      rw [hnone] at hid
      contradiction
  allocated := by
    intro entry hentry
    rcases hsubset entry hentry with ⟨e, he, hid⟩
    rw [hallocated, ← hid]
    exact h.allocated e he

theorem order_of_dispatching_none (h : l.dispatching = none)
    : l.order = (l.inFlight.map (·.entry)).toList ++ l.pendingSteers ++ l.items := by
  unfold order
  rw [h]
  rfl

/--
What is taken out of the items while a message is edited is not the edited one.
-/
theorem head_filter {entries : List BridgeQueuedMessageEntry} {id : String}
    {p : BridgeQueuedMessageEntry → Bool} (hhead : entries.head?.map (·.id) = some id)
    (hp : ∀ entry, entry.id = id → p entry = true)
    : (entries.filter p).head?.map (·.id) = some id := by
  cases entries with
  | nil => contradiction
  | cons entry entries =>
    simp only [List.head?_cons, Option.map_some, Option.some.injEq] at hhead
    rw [List.filter_cons_of_pos (hp entry hhead)]
    simp [hhead]

theorem head_eraseP {entries : List BridgeQueuedMessageEntry} {id itemId : String}
    (hhead : entries.head?.map (·.id) = some id) (hne : itemId ≠ id)
    : (entries.eraseP (·.id = itemId)).head?.map (·.id) = some id := by
  cases entries with
  | nil => contradiction
  | cons entry entries =>
    simp only [List.head?_cons, Option.map_some, Option.some.injEq] at hhead
    rw [List.eraseP_cons_of_neg (by simp [hhead, Ne.symm hne])]
    simp [hhead]

/--
Every move keeps the line sound.
-/
theorem move {a : Activity} (h : Sound l) (hmove : l.Move a l') : Sound l' := by
  cases hmove with
  | rest => exact h
  | allocate hfresh =>
    refine ⟨h.dispatching, h.editing, ?_, ?_⟩
    . intro queued hqueued
      injection hqueued with hqueued
      subst hqueued
      refine ⟨List.mem_cons_self, ?_⟩
      intro hedit
      apply hfresh
      have hhead := (h.editing _ hedit).1
      rw [Option.map_eq_some_iff] at hhead
      rcases hhead with ⟨entry, hentry, hid⟩
      rw [← hid]
      apply h.allocated
      unfold order
      exact List.mem_append_right _ (List.mem_of_mem_head? hentry)
    . intro entry hentry
      exact List.mem_cons_of_mem _ (h.allocated entry hentry)
  | @enqueue entry hqueueing hdispatching =>
    refine ⟨?_, ?_, h.queueing, ?_⟩
    . intro hsome
      rw [hdispatching] at hsome
      contradiction
    . intro id hid
      refine ⟨?_, (h.editing id hid).2⟩
      have hhead := (h.editing id hid).1
      cases hitems : l.items with
      | nil =>
        rw [hitems] at hhead
        contradiction
      | cons e es =>
        rw [hitems] at hhead
        exact hhead
    . intro e he
      simp only [order, List.mem_append, List.mem_singleton] at he
      rcases he with he | he | he
      . apply h.allocated
        simp only [order, List.mem_append]
        exact .inl he
      . apply h.allocated
        simp only [order, List.mem_append]
        exact .inr he
      . rw [he]
        exact (h.queueing _ hqueueing).1
  | @retract id hqueueing =>
    refine of_subset h rfl (.inr rfl) ?_ h.dispatching ?_ (fun _ _ => .inl rfl)
    . intro entry hentry
      refine ⟨entry, ?_, rfl⟩
      simp only [order, List.mem_append, List.mem_filter] at hentry ⊢
      grind
    . intro editing hediting
      refine ⟨?_, (h.editing editing hediting).2⟩
      apply head_filter (h.editing editing hediting).1
      intro entry hentry
      have hne := (h.queueing id hqueueing).2
      rw [hediting] at hne
      simp_all
  | endQueueing =>
    refine of_subset h rfl (.inr rfl) ?_ h.dispatching h.editing (fun _ _ => .inl rfl)
    intro e he
    exact ⟨e, he, rfl⟩
  | cancelItem id =>
    refine of_subset h rfl (.inl rfl) ?_ ?_ ?_ ?_
    . intro entry hentry
      refine ⟨entry, ?_, rfl⟩
      simp only [order, List.mem_append] at hentry ⊢
      have := List.mem_of_mem_eraseP (p := (·.id = id)) (a := entry) (l := l.items)
      grind
    . intro hsome
      rw [(h.dispatching hsome).1]
      simpa using (h.dispatching hsome).2
    . intro editing hediting
      dsimp only at hediting
      split at hediting
      . contradiction
      . next hne =>
        refine ⟨?_, (h.editing editing hediting).2⟩
        apply head_eraseP (h.editing editing hediting).1
        intro heq
        rw [heq] at hne
        contradiction
    . intro editing hediting
      dsimp only at hediting
      split at hediting
      . contradiction
      . exact .inr hediting
  | cancelSteer id =>
    refine of_subset h rfl (.inl rfl) ?_ ?_ ?_ (fun _ hid => .inr hid)
    . intro entry hentry
      refine ⟨entry, ?_, rfl⟩
      simp only [order, List.mem_append] at hentry ⊢
      have := List.mem_of_mem_eraseP (p := (·.id = id)) (a := entry) (l := l.pendingSteers)
      grind
    . intro hsome
      simp [h.dispatching hsome]
    . intro editing hediting
      simp [h.editing editing hediting]
  | startEdit hdispatching hqueueing _ hinFlight hsteers hhead =>
    refine of_subset h rfl (.inl rfl) (fun e he => ⟨e, he, rfl⟩) ?_ ?_ (fun _ _ => .inl hqueueing)
    . intro hsome
      rw [hdispatching] at hsome
      contradiction
    . intro id hid
      injection hid with hid
      subst hid
      exact ⟨hhead, hinFlight, hsteers⟩
  | @commitEdit item edited hediting hitem hid =>
    refine of_subset h rfl (.inl rfl) ?_ ?_ (by simp) (by simp)
    . intro entry hentry
      simp only [order, List.mem_append] at hentry ⊢
      rcases hentry with hentry | hentry
      . exact ⟨entry, .inl hentry, rfl⟩
      . cases List.mem_or_eq_of_mem_set hentry with
        | inl hmem => exact ⟨entry, .inr hmem, rfl⟩
        | inr heq =>
          rw [heq, hid]
          exact ⟨item, .inr (List.mem_of_find?_eq_some hitem), rfl⟩
    . intro hsome
      exact ⟨rfl, (h.dispatching hsome).2⟩
  | cancelEdit =>
    refine of_subset h rfl (.inl rfl) (fun e he => ⟨e, he, rfl⟩) ?_ (by simp) (by simp)
    intro hsome
    exact ⟨rfl, (h.dispatching hsome).2⟩
  | @steer entry hdispatching hediting hentry =>
    refine of_subset h rfl (.inl rfl) ?_ ?_ ?_ (fun _ hid => .inr hid)
    . intro e he
      refine ⟨e, ?_, rfl⟩
      simp only [order, List.mem_append, List.mem_singleton] at he ⊢
      have := List.mem_of_mem_eraseP (p := (·.id = entry.id)) (a := e) (l := l.items)
      have := List.mem_of_find?_eq_some hentry
      grind
    . intro hsome
      rw [hdispatching] at hsome
      contradiction
    . intro id hid
      rw [hediting] at hid
      contradiction
  | @takeSteer dispatch pendingSteers hdispatching hinFlight hsteers =>
    refine of_subset h rfl (.inl rfl) ?_ ?_ ?_ (fun _ hid => .inr hid)
    . intro e he
      refine ⟨e, ?_, rfl⟩
      simp only [order, hinFlight, hsteers] at he ⊢
      simpa [or_assoc] using he
    . intro hsome
      rw [hdispatching] at hsome
      contradiction
    . intro id hid
      have := (h.editing id hid).2.2
      rw [hsteers] at this
      contradiction
  | @steered dispatch hinFlight =>
    refine of_subset h rfl (.inl rfl) ?_ ?_ ?_ (fun _ hid => .inr hid)
    . intro e he
      refine ⟨e, ?_, rfl⟩
      simp only [order, List.mem_append] at he ⊢
      simp at he
      grind
    . intro hsome
      simp [h.dispatching hsome]
    . intro id hid
      simp [h.editing id hid]
  | @returnSteer dispatch hinFlight =>
    refine of_subset h rfl (.inl rfl) ?_ ?_ ?_ (fun _ hid => .inr hid)
    . intro e he
      refine ⟨e, ?_, rfl⟩
      simp only [order, hinFlight] at he ⊢
      simpa [or_assoc] using he
    . intro hsome
      have := (h.dispatching hsome).2.1
      rw [hinFlight] at this
      contradiction
    . intro id hid
      have := (h.editing id hid).2.1
      rw [hinFlight] at this
      contradiction
  | @requeueSteer dispatch hinFlight =>
    refine of_subset h rfl (.inl rfl) ?_ ?_ ?_ (fun _ hid => .inr hid)
    . intro e he
      refine ⟨e, ?_, rfl⟩
      simp only [order, hinFlight, List.mem_append, List.mem_cons] at he ⊢
      simp at he ⊢
      grind
    . intro hsome
      have := (h.dispatching hsome).2.1
      rw [hinFlight] at this
      contradiction
    . intro id hid
      have := (h.editing id hid).2.1
      rw [hinFlight] at this
      contradiction
  | endRun hdispatching =>
    refine of_subset h rfl (.inl rfl) ?_ ?_ ?_ (fun _ hid => .inr hid)
    . intro e he
      refine ⟨e, ?_, rfl⟩
      simp only [order, List.mem_append] at he ⊢
      simp at he
      grind
    . intro hsome
      rw [hdispatching] at hsome
      contradiction
    . intro id hid
      simp [h.editing id hid]
  | @pop entry items hdispatching hediting hinFlight hsteers hitems =>
    refine of_subset h rfl (.inl rfl) ?_ ?_ ?_ (fun _ hid => .inr hid)
    . intro e he
      refine ⟨e, ?_, rfl⟩
      simp only [order, hdispatching, hinFlight, hsteers, hitems] at he ⊢
      simpa using he
    . intro _
      exact ⟨hediting, hinFlight, hsteers⟩
    . intro id hid
      rw [hediting] at hid
      contradiction
  | @putBack entry hdispatching =>
    have hsound := h.dispatching (by simp [hdispatching])
    refine of_subset h rfl (.inl rfl) ?_ (by simp) ?_ (fun _ hid => .inr hid)
    . intro e he
      refine ⟨e, ?_, rfl⟩
      simp only [order, hdispatching, hsound] at he ⊢
      simpa using he
    . intro id hid
      rw [hsound.1] at hid
      contradiction
  | dispatched | lost =>
    refine of_subset h rfl (.inl rfl) ?_ (by simp) h.editing (fun _ hid => .inr hid)
    intro e he
    refine ⟨e, ?_, rfl⟩
    simp only [order, List.mem_append] at he ⊢
    simp at he
    grind

end Line.Sound

end Queue
