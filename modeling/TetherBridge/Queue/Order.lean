import TetherBridge.Queue.Moves

/-!
This module contains the order in which queued entries are delivered: which steps keep it, and what the
others do to it.
-/

namespace Queue

open Acp List Transition

namespace Line

/--
The chosen item goes to the end of the steers, the others stay in their order.
-/
def MovedToSteers (l l' : Line) (itemId : String) : Prop :=
  ∃ before chosen after, chosen.id = itemId ∧ l.items = before ++ chosen :: after
    ∧ l'.order = l.dispatching.toList ++ (l.inFlight.map (·.entry)).toList ++ l.pendingSteers
      ++ chosen :: (before ++ after)

variable {l l' : Line}

/--
An entry that leaves the line is the first one.
-/
theorem Move.order_of_leaves {a : Activity} (h : l.Sound) (hmove : l.Move a l')
    (ha : a = .delivery ∨ a = .loss)
    : l'.order = l.order ∨ l'.order = l.order.tail := by
  cases hmove with
  | rest => exact .inl rfl
  | @steered dispatch hinFlight =>
    have hdispatching : l.dispatching = none := by
      apply Classical.byContradiction
      intro hsome
      have hnone := (h.dispatching (Option.isSome_iff_ne_none.mpr hsome)).2.1
      rw [hinFlight] at hnone
      contradiction
    right
    simp [order, hinFlight, hdispatching]
  | dispatched | lost =>
    cases hdispatching : l.dispatching with
    | none => exact .inl (by simp [order, hdispatching])
    | some entry => exact .inr (by simp [order, hdispatching])
  | _ => simp at ha

theorem Move.order_of_steer {itemId : String} (hmove : l.Move (.steer itemId) l')
    : l'.order = l.order ∨ MovedToSteers l l' itemId := by
  cases hmove with
  | rest => exact .inl rfl
  | @steer entry hdispatching hediting hentry =>
    right
    rw [List.find?_eq_some_iff_append] at hentry
    rcases hentry with ⟨_, before, after, hitems, hbefore⟩
    refine ⟨before, entry, after, rfl, hitems, ?_⟩
    have herase : l.items.eraseP (·.id = entry.id) = before ++ after := by
      rw [hitems, List.eraseP_append_right _ (by simpa using hbefore),
        List.eraseP_cons_of_pos (by simp)]
    simp [order, herase]

theorem Move.order_of_requeue (hmove : l.Move .requeue l') (hsteers : l.pendingSteers = [])
    : l'.order = l.order := by
  cases hmove with
  | rest => rfl
  | requeueSteer hinFlight => simp [order, hinFlight, hsteers]

theorem Move.order_of_endRun (hmove : l.Move .endRun l') : l'.order = l.order := by
  cases hmove with
  | rest => rfl
  | endRun =>
    unfold order
    cases l.inFlight <;> simp

theorem Move.order_of_other (h : l.Sound) (hmove : l.Move .other l') : l'.order = l.order := by
  cases hmove with
  | rest => rfl
  | takeSteer _ hinFlight hsteers => simp [order, hinFlight, hsteers]
  | returnSteer hinFlight => simp [order, hinFlight]
  | pop hdispatching _ hinFlight hsteers hitems =>
    simp [order, hdispatching, hinFlight, hsteers, hitems]
  | putBack hdispatching =>
    have hsound := h.dispatching (by simp [hdispatching])
    simp [order, hdispatching, hsound]

end Line

/--
A step that is no send, no cancel, no edit and no delivery leaves the order as it is, or moves the steered
entry to the end of the steers.
-/
def KeepsOrder (s : ThreadState) (label : ServiceLabel) (t : ThreadState) : Prop :=
  match s.activity label with
  | .send | .cancel _ | .startEdit _ | .endEdit _ | .delivery => True
  | .steer itemId => t.line.order = s.line.order ∨ Line.MovedToSteers s.line t.line itemId
  | .loss | .requeue | .endRun | .other => t.line.order = s.line.order

/--
A delivery takes the first entry out of the line, and so does a `turn_start` that failed with an
indeterminate outcome. A steer that fails after the end of its run keeps its place when no later steer is
pending.
-/
def KeepsOrderAmongPending (s : ThreadState) (label : ServiceLabel) (t : ThreadState) : Prop :=
  match s.activity label with
  | .send | .cancel _ | .startEdit _ | .endEdit _ => True
  | .delivery | .loss => t.line.order = s.line.order ∨ t.line.order = s.line.order.tail
  | .steer itemId => t.line.order = s.line.order ∨ Line.MovedToSteers s.line t.line itemId
  | .requeue => s.line.pendingSteers = [] → t.line.order = s.line.order
  | .endRun | .other => t.line.order = s.line.order

/--
Every step of every run keeps the order of the entries that are still to be delivered.
-/
theorem keepsOrder_of_exec {bridgePrompt : Json → Except String Unit} {labels : List ServiceLabel}
    {label : ServiceLabel} {s t : ThreadState}
    (hexec : exec (Thread.serviceStep bridgePrompt) {} labels = some s)
    (hstep : Thread.serviceStep bridgePrompt s label = some t)
    : KeepsOrderAmongPending s label t := by
  have hsound := Thread.sound_of_exec hexec
  have hmove := Thread.line_serviceStep hstep
  unfold KeepsOrderAmongPending
  cases ha : s.activity label with
  | send | cancel | startEdit | endEdit => trivial
  | delivery | loss =>
    rw [ha] at hmove
    exact hmove.order_of_leaves hsound (by simp)
  | steer itemId =>
    rw [ha] at hmove
    exact hmove.order_of_steer
  | requeue =>
    rw [ha] at hmove
    exact hmove.order_of_requeue
  | endRun =>
    rw [ha] at hmove
    exact hmove.order_of_endRun
  | other =>
    rw [ha] at hmove
    exact hmove.order_of_other hsound

/--
Two messages are queued behind a live prompt, and the second one is steered.
-/
def oneOfTwoSteered : List Label :=
  .ensureThreadRuntime Thread.liveSnapshot :: Thread.sendQueued "a" ++ Thread.sendQueued "b"
    ++ [.steerMessage "b"]

def promptEnds (eventId : Nat) : Label :=
  .handleCanonicalEvent eventId (.runFinished "agent" "thread" "run" "turn" 1 .endTurn)

theorem keepsOrder_of_promptEnds
    : ∃ s t, exec (Thread.serviceStep fun _ => .ok ()) {} (oneOfTwoSteered.map .thread) = some s
        ∧ Thread.serviceStep (fun _ => .ok ()) s (.thread (promptEnds 1)) = some t
        ∧ KeepsOrderAmongPending s (.thread (promptEnds 1)) t := by
  have hrun : (exec (Thread.serviceStep fun _ => .ok ()) {}
      ((oneOfTwoSteered ++ [promptEnds 1]).map .thread)).isSome := by rfl
  rw [Option.isSome_iff_exists] at hrun
  rcases hrun with ⟨t, hrun⟩
  rw [List.map_append, exec_append, Option.bind_eq_some_iff] at hrun
  rcases hrun with ⟨s, hexec, hend⟩
  rw [List.map_singleton, exec_cons_eq_some] at hend
  rcases hend with ⟨t', hstep, _⟩
  exact ⟨s, t', hexec, hstep, keepsOrder_of_exec hexec hstep⟩

/--
A steer is in flight when its prompt ends and the next one starts, another message is steered, and then the
first steer fails.
-/
def steerFailsLate : List Label :=
  .ensureThreadRuntime Thread.liveSnapshot :: Thread.sendQueued "a" ++ Thread.sendQueued "b"
    ++ .steerMessage "a" :: Thread.prepareSteer 0 ++ Thread.dispatchSteer 0
    ++ [promptEnds 1, .handleCanonicalEvent 2 (.runStarted "agent" "thread" "run" "turn" 2),
      .steerMessage "b", .steerAnswer 0 (.error "connection lost")]

/--
A message is dispatched when its prompt has ended, and the backend does not say how that went.
-/
def dispatchedWithoutOutcome : List Label :=
  .ensureThreadRuntime Thread.liveSnapshot :: Thread.sendQueued "a"
    ++ [promptEnds 1, .proceed, .drainThreadQueue, .storeAnswer .done, .proceed,
      .turnStartAnswer (.error "indeterminate operation outcome: timeout")]

/--
What the step after a run is about, and the ids of the line before it and after it.
-/
def orderAround (labels : List Label) (label : Label)
    : Option (Activity × List String × List String) := do
  let s ← exec (Thread.serviceStep fun _ => .ok ()) {} (labels.map .thread)
  let t ← Thread.serviceStep (fun _ => .ok ()) s (.thread label)
  return (s.activity (.thread label), s.line.order.map (·.id), t.line.order.map (·.id))

theorem not_keepsOrder_of_orderAround {labels : List Label} {label : Label} {a : Activity}
    {before after : List String} (h : orderAround labels label = some (a, before, after))
    (ha : a = .loss ∨ a = .requeue) (hne : after ≠ before)
    : ∃ s t, exec (Thread.serviceStep fun _ => .ok ()) {} (labels.map .thread) = some s
        ∧ Thread.serviceStep (fun _ => .ok ()) s (.thread label) = some t
        ∧ ¬KeepsOrder s (.thread label) t := by
  unfold orderAround at h
  rw [Option.bind_eq_bind, Option.bind_eq_some_iff] at h
  rcases h with ⟨s, hexec, h⟩
  rw [Option.bind_eq_some_iff] at h
  rcases h with ⟨t, hstep, h⟩
  injection h with h
  injection h with hactivity h
  injection h with hbefore hafter
  refine ⟨s, t, hexec, hstep, ?_⟩
  intro hkeeps
  unfold KeepsOrder at hkeeps
  rw [hactivity] at hkeeps
  apply hne
  rw [← hbefore, ← hafter]
  cases ha with
  | inl ha | inr ha =>
    rw [ha] at hkeeps
    dsimp only at hkeeps
    rw [hkeeps]

theorem not_keepsOrder_of_lateFailure
    : (∃ s t, exec (Thread.serviceStep fun _ => .ok ()) {} (steerFailsLate.map .thread) = some s
        ∧ Thread.serviceStep (fun _ => .ok ()) s (.thread (.steerSection 0)) = some t
        ∧ ¬KeepsOrder s (.thread (.steerSection 0)) t)
        ∧
      (∃ s t, exec (Thread.serviceStep fun _ => .ok ()) {} (dispatchedWithoutOutcome.map .thread) = some s
        ∧ Thread.serviceStep (fun _ => .ok ()) s (.thread .proceed) = some t
        ∧ ¬KeepsOrder s (.thread .proceed) t) := by
  have hlate : orderAround steerFailsLate (.steerSection 0)
      = some (.requeue, ["a", "b"], ["b", "a"]) := by rfl
  have hlost : orderAround dispatchedWithoutOutcome .proceed = some (.loss, ["a"], []) := by
    decide +kernel
  constructor
  . exact not_keepsOrder_of_orderAround hlate (.inr rfl) (by decide)
  . exact not_keepsOrder_of_orderAround hlost (.inl rfl) (by decide)

end Queue
