import TetherBridge.Queue.Moves

/-!
This module contains the limits on the items of a thread: at most 100 entries of at most one MiB. They are
tested when an entry is queued and when an edit is committed; entries that come back from the steers are
not tested.
-/

namespace Queue

open Acp List Transition

/--
The limits on the queue of a thread.
-/
structure WithinLimits (entries : List BridgeQueuedMessageEntry) : Prop where
  length : entries.length ≤ QUEUE_MAX_ITEMS_PER_THREAD
  bytes : (entries.map (·.bytes)).sum ≤ QUEUE_MAX_BYTES_PER_THREAD

instance (entries : List BridgeQueuedMessageEntry) : Decidable (WithinLimits entries) :=
  decidable_of_iff
    (entries.length ≤ QUEUE_MAX_ITEMS_PER_THREAD
      ∧ (entries.map (·.bytes)).sum ≤ QUEUE_MAX_BYTES_PER_THREAD)
    ⟨fun h => ⟨h.1, h.2⟩, fun h => ⟨h.1, h.2⟩⟩

namespace WithinLimits

variable {entries entries' : List BridgeQueuedMessageEntry}

theorem nil : WithinLimits [] :=
  ⟨Nat.zero_le _, Nat.zero_le _⟩

theorem of_sublist (h : WithinLimits entries) (hsub : entries'.Sublist entries)
    : WithinLimits entries' where
  length := Nat.le_trans hsub.length_le h.length
  bytes := by
    have hbytes := h.bytes
    have hle := weigh_le_of_sublist (w := fun entry : BridgeQueuedMessageEntry => entry.bytes) hsub
    rw [sum_map_eq_weigh] at hbytes ⊢
    omega

/--
The entry that was found is replaced by another one.
-/
theorem set_findIdx {item edited : BridgeQueuedMessageEntry} (h : WithinLimits entries)
    (hitem : entries.find? (·.id = item.id) = some item)
    (hbytes : ((entries.eraseP (·.id = item.id)).map (·.bytes)).sum + edited.bytes
      ≤ QUEUE_MAX_BYTES_PER_THREAD)
    : WithinLimits (entries.set (entries.findIdx (·.id = item.id)) edited) where
  length := by
    rw [List.length_set]
    exact h.length
  bytes := by
    have hidx : entries[entries.findIdx (·.id = item.id)]? = some item := by
      rw [← hitem, List.find?_eq_getElem?_findIdx]
    have hset := weigh_set (w := fun entry : BridgeQueuedMessageEntry => entry.bytes) hidx edited
    have herase := weigh_eraseP (w := fun entry : BridgeQueuedMessageEntry => entry.bytes) hitem
    rw [sum_map_eq_weigh] at hbytes ⊢
    omega

end WithinLimits

namespace Line

variable {l l' : Line}

/--
The items are within the limits, and would be with the entry that a drain has popped.
-/
def Limited (l : Line) : Prop :=
  WithinLimits (l.dispatching.toList ++ l.items)

/--
The entries that come back to the items with the move fit into them.
-/
def roomForReturns (l : Line) : Activity → Bool
  | .endRun => WithinLimits (l.pendingSteers ++ l.items)
  | .requeue => WithinLimits ((l.inFlight.map (·.entry)).toList ++ l.items)
  | _ => true

/--
Every move keeps the limits, when what comes back fits.
-/
theorem Limited.move {a : Activity} (h : l.Limited) (hsound : l.Sound) (hmove : l.Move a l')
    (hroom : l.roomForReturns a)
    : l'.Limited := by
  unfold Limited at *
  cases hmove with
  | @enqueue entry _ hdispatching hlength hbytes =>
    rw [hdispatching] at h ⊢
    constructor
    . simpa using Nat.succ_le_of_lt hlength
    . simpa [bytes] using hbytes
  | retract => exact h.of_sublist (List.filter_sublist.append_left _)
  | cancelItem => exact h.of_sublist (List.eraseP_sublist.append_left _)
  | steer => exact h.of_sublist (List.eraseP_sublist.append_left _)
  | @commitEdit item edited hediting hitem hid hbytes =>
    have hdispatching : l.dispatching = none := by
      apply Classical.byContradiction
      intro hsome
      have hnone := (hsound.dispatching (Option.isSome_iff_ne_none.mpr hsome)).1
      rw [hediting] at hnone
      contradiction
    rw [hdispatching] at h ⊢
    exact h.set_findIdx hitem hbytes
  | @requeueSteer dispatch hinFlight =>
    have hdispatching : l.dispatching = none := by
      apply Classical.byContradiction
      intro hsome
      have hnone := (hsound.dispatching (Option.isSome_iff_ne_none.mpr hsome)).2.1
      rw [hinFlight] at hnone
      contradiction
    simp only [roomForReturns, hinFlight, decide_eq_true_eq] at hroom
    rw [hdispatching]
    exact hroom
  | endRun hdispatching =>
    simp only [roomForReturns, decide_eq_true_eq] at hroom
    rw [hdispatching]
    exact hroom
  | pop hdispatching _ _ _ hitems =>
    rw [hdispatching, hitems] at h
    exact h
  | putBack hdispatching =>
    rw [hdispatching] at h
    exact h
  | dispatched | lost => exact h.of_sublist (List.sublist_append_right _ _)
  | _ => exact h

end Line

/--
The limits of the thread.
-/
def Limited (s : ThreadState) : Prop :=
  ∀ runtime, s.runtime = some runtime → WithinLimits runtime.items

/--
The guard: when an accepted run end or a steer that fails after it gives entries back to the items, they
fit into them.
-/
def roomForReturns (s : ThreadState) (label : ServiceLabel) : Bool :=
  s.line.roomForReturns (s.activity label)

/--
In every run in which what comes back to the items fits into them, the items of the thread are within the
limits.
-/
theorem limited_of_exec {bridgePrompt : Json → Except String Unit} {labels : List ServiceLabel}
    {s : ThreadState} (hmeets : Meets (Thread.serviceStep bridgePrompt) (roomForReturns · ·) {} labels)
    (hexec : exec (Thread.serviceStep bridgePrompt) {} labels = some s)
    : Limited s := by
  have hinit : Line.Limited ({} : ThreadState).line := WithinLimits.nil
  have hinv : Line.Sound s.line ∧ Line.Limited s.line := by
    refine exec_invariant (I := fun s => Line.Sound s.line ∧ Line.Limited s.line) ?_
      ⟨Thread.sound_init, hinit⟩ hmeets hexec
    intro s label t hs hroom hstep
    have hmove := Thread.line_serviceStep hstep
    exact ⟨hs.1.move hmove, hs.2.move hs.1 hmove hroom⟩
  intro runtime hruntime
  have hlimited := hinv.2
  rw [ThreadState.line_of_runtime hruntime] at hlimited
  exact hlimited.of_sublist (List.sublist_append_right _ _)

/--
A message is steered, and comes back when the prompt ends.
-/
def steeredAndBack : List Label :=
  .ensureThreadRuntime Thread.liveSnapshot :: Thread.sendQueued "a"
    ++ [.steerMessage "a",
      .handleCanonicalEvent 1 (.runFinished "agent" "thread" "run" "turn" 1 .endTurn)]

theorem limited_of_steeredAndBack
    : ∃ s, exec (Thread.serviceStep fun _ => .ok ()) {} (steeredAndBack.map .thread) = some s
        ∧ Limited s := by
  have hmeets : Meets (Thread.serviceStep fun _ => .ok ()) (roomForReturns · ·) {}
      (steeredAndBack.map .thread) := by decide
  exact ⟨_, rfl, limited_of_exec hmeets rfl⟩

/--
A full queue, of which one message is steered. Another one takes its place before the prompt ends.
-/
def steeredFromFull : List Label :=
  .ensureThreadRuntime Thread.liveSnapshot
    :: (List.range QUEUE_MAX_ITEMS_PER_THREAD).flatMap (fun i => Thread.sendQueued (toString i))
    ++ .steerMessage "0" :: Thread.sendQueued "100"
    ++ [.handleCanonicalEvent 1 (.runFinished "agent" "thread" "run" "turn" 1 .endTurn)]

theorem not_limited_of_steeredFromFull
    : ¬ ∀ labels s, exec (Thread.serviceStep fun _ => .ok ()) {} labels = some s → Limited s := by
  intro h
  have hrun : (exec (Thread.serviceStep fun _ => .ok ()) {} (steeredFromFull.map .thread)).any
      (fun s => s.runtime.any (·.items.length = 101)) := by decide +kernel
  rw [Option.any_eq_true] at hrun
  rcases hrun with ⟨s, hexec, hany⟩
  rw [Option.any_eq_true] at hany
  rcases hany with ⟨runtime, hruntime, hlength⟩
  have hlimit := (h _ s hexec runtime hruntime).length
  rw [of_decide_eq_true hlength] at hlimit
  exact absurd hlimit (by decide)

end Queue
