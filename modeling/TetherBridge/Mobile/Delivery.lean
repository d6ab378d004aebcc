import TetherBridge.Mobile.EventClient
import TetherBridge.Transition.Basic

/-!
This module contains the order in which the mobile client emits the events of a stream: the ids increase,
none is skipped without a request for a snapshot, and during a recovery only the first event of a new
stream is emitted.
-/

namespace Mobile

open Transition List

/-! What is emitted -/

namespace Emission

/--
After it the ids may start anew.
-/
def startsStream : Emission → Bool
  | .snapshotRequired params => params.reason = .streamChanged || params.reason = .recoveryOverflow
  | _ => false

def id? : Emission → Option Nat
  | .numbered eventId _ _ => some eventId
  | _ => none

def isUnnumbered : Emission → Bool
  | .unnumbered _ => true
  | _ => false

/--
The ids that were emitted since the stream was last identified anew.
-/
def streamIds (emitted : List Emission) : List Nat :=
  (emitted.reverse.takeWhile fun emission => !emission.startsStream).filterMap id?

/--
The last numbered event or request for a snapshot.
-/
def lastSignal (emitted : List Emission) : Option Emission :=
  emitted.reverse.find? fun emission => !emission.isUnnumbered

/--
A numbered event may follow what was emitted: its id is greater than all of the stream, it is the next one
if a numbered event came last, and during a recovery it is the first one of a new stream.
-/
def Follows (emitted : List Emission) : Emission → Prop
  | .numbered eventId _ recoveryWatermark =>
    (∀ earlier ∈ streamIds emitted, earlier < eventId)
      ∧ (∀ last ∈ (lastSignal emitted).bind id?, eventId = last + 1)
      ∧ (recoveryWatermark.isSome → ∃ params, lastSignal emitted = some (.snapshotRequired params)
        ∧ params.reason = .streamChanged)
  | _ => True

end Emission

/--
Every event follows what was emitted before it.
-/
def Delivered (emitted : List Emission) : Prop :=
  ∀ before emission after, emitted = before ++ emission :: after → emission.Follows before

theorem Emission.streamIds_append (emitted : List Emission) (emission : Emission)
    : streamIds (emitted ++ [emission]) =
        if emission.startsStream then [] else emission.id?.toList ++ streamIds emitted := by
  unfold streamIds
  rw [reverse_append, reverse_singleton, singleton_append, takeWhile_cons]
  cases emission.startsStream with
  | true => rfl
  | false =>
    rw [if_neg Bool.false_ne_true]
    cases h : emission.id? with
    | none => exact filterMap_cons_none h
    | some eventId => exact filterMap_cons_some h

theorem Emission.lastSignal_append (emitted : List Emission) (emission : Emission)
    : lastSignal (emitted ++ [emission]) =
        if emission.isUnnumbered then lastSignal emitted else some emission := by
  unfold lastSignal
  rw [reverse_append, reverse_singleton, singleton_append, find?_cons]
  cases emission.isUnnumbered <;> rfl

theorem Delivered.append_singleton {emitted : List Emission} (h : Delivered emitted) {emission : Emission}
    (hfollows : emission.Follows emitted)
    : Delivered (emitted ++ [emission]) := by
  intro before other after heq
  rcases eq_nil_or_concat after with rfl | ⟨rest, last, rfl⟩
  . have hinj := append_inj' heq rfl
    injection hinj.2 with hsame
    rw [← hsame, ← hinj.1]
    exact hfollows
  . rw [concat_eq_append, ← cons_append, ← append_assoc] at heq
    exact h before other rest (append_inj' heq rfl).1

namespace EventClient

variable (s : EventClient)

/--
An answer of the stream the client knows, for a loop that was not given up: it knows the events before the
cursor and those that were known before, its first event is not after its last one, and where it shows that
events are lost it knows those that were emitted.
-/
def Honest (loop : ReplayLoop) (response : ReplayEventsResponse) : Prop :=
  match response.latestEventId with
  | none => False
  | some latest =>
    loop.cursor ≤ latest ∧ (∀ target ∈ loop.targetEventId, target ≤ latest)
      ∧ (∀ earliest ∈ response.earliestEventId, earliest ≤ latest)
      ∧ (checkReplayPageIntegrity loop.cursor response.earliestEventId (some latest) ≠ none →
        s.lastSeenEventId ≤ latest)

def Allowed (s : EventClient) : EventClientLabel → Prop
  | .answer index response =>
    ∀ loop ∈ s.requesting index, loop.generation = s.replayGeneration →
      s.streamIdentity response.protocolVersion response.streamId ≠ .changed →
      s.streamIdentity response.protocolVersion response.streamId ≠ .unsupported →
      s.Honest loop response
  | _ => True

structure Sound : Prop where
  delivered : Delivered s.emitted
  /-- the cursor is not behind what was emitted, and is the last event unless a snapshot is required -/
  ids : ∀ eventId ∈ Emission.streamIds s.emitted, eventId ≤ s.lastSeenEventId
  last : ∀ eventId ∈ (Emission.lastSignal s.emitted).bind Emission.id?,
    eventId = s.lastSeenEventId ∧ 0 < eventId
  recovering : s.recoveryWatermark.isSome → s.lastSeenEventId = 0 → s.awaitingFreshRecoveryBaseline = false →
    ∃ params, Emission.lastSignal s.emitted = some (.snapshotRequired params) ∧ params.reason = .streamChanged

variable {s} {s' : EventClient}

theorem Honest.latest {loop : ReplayLoop} {response : ReplayEventsResponse} (h : s.Honest loop response)
    : ∃ latest, response.latestEventId = some latest ∧ loop.cursor ≤ latest
        ∧ (∀ target ∈ loop.targetEventId, target ≤ latest)
        ∧ (∀ earliest ∈ response.earliestEventId, earliest ≤ latest)
        ∧ (checkReplayPageIntegrity loop.cursor response.earliestEventId (some latest) ≠ none →
          s.lastSeenEventId ≤ latest) := by
  unfold Honest at h
  split at h
  . contradiction
  . next latest hlatest => exact ⟨latest, hlatest, h⟩

theorem sound_init : ({} : EventClient).Sound where
  delivered before emission after h := by
    have hlength := congrArg length h
    rw [length_append, length_cons] at hlength
    contradiction
  ids _ h := absurd h not_mem_nil
  last _ h := by contradiction
  recovering h := by contradiction

/--
What has to do with the connection and the replays only.
-/
theorem Sound.congr (h : s.Sound) (hemitted : s'.emitted = s.emitted)
    (hlast : s'.lastSeenEventId = s.lastSeenEventId)
    (hwatermark : s'.recoveryWatermark.isSome → s.recoveryWatermark.isSome
      ∧ s'.awaitingFreshRecoveryBaseline = s.awaitingFreshRecoveryBaseline)
    : s'.Sound := by
  refine ⟨?_, ?_, ?_, ?_⟩
  . rw [hemitted]
    exact h.delivered
  . rw [hemitted, hlast]
    exact h.ids
  . rw [hemitted, hlast]
    exact h.last
  . intro hsome hzero hfresh
    rw [hemitted]
    rw [hlast] at hzero
    rw [(hwatermark hsome).2] at hfresh
    exact h.recovering (hwatermark hsome).1 hzero hfresh

theorem Sound.emitNumberedEvent (h : s.Sound) {eventId : Nat} (event : RpcNotification)
    (hlt : s.lastSeenEventId < eventId)
    (hnext : s.lastSeenEventId = 0 ∨ eventId = s.lastSeenEventId + 1)
    (hquiet : s.recoveryWatermark.isSome →
      s.lastSeenEventId = 0 ∧ s.awaitingFreshRecoveryBaseline = false)
    : (s.emitNumberedEvent eventId event).Sound := by
  have hemitted : (s.emitNumberedEvent eventId event).emitted
      = s.emitted ++ [.numbered eventId event s.recoveryWatermark] := rfl
  have hseen : (s.emitNumberedEvent eventId event).lastSeenEventId = eventId := rfl
  refine ⟨?_, ?_, ?_, ?_⟩
  . rw [hemitted]
    apply h.delivered.append_singleton
    refine ⟨?_, ?_, ?_⟩
    . intro earlier hearlier
      exact Nat.lt_of_le_of_lt (h.ids earlier hearlier) hlt
    . intro last hlast
      have hlast := h.last last hlast
      omega
    . intro hsome
      have hquiet := hquiet hsome
      exact h.recovering hsome hquiet.1 hquiet.2
  . intro earlier hearlier
    rw [hemitted, Emission.streamIds_append] at hearlier
    rcases mem_cons.mp hearlier with rfl | hearlier
    . exact Nat.le_refl _
    . exact Nat.le_of_lt (Nat.lt_of_le_of_lt (h.ids earlier hearlier) hlt)
  . intro last hlast
    rw [hemitted, Emission.lastSignal_append] at hlast
    have heq : eventId = last := Option.some_inj.mp hlast
    rw [← heq, hseen]
    exact ⟨rfl, Nat.lt_of_le_of_lt (Nat.zero_le _) hlt⟩
  . intro _ hzero
    rw [hseen] at hzero
    omega

theorem Sound.emitUnnumbered (h : s.Sound) (event : RpcNotification)
    : (s.emitEvent (.unnumbered event)).Sound := by
  have hemitted : (s.emitEvent (.unnumbered event)).emitted = s.emitted ++ [.unnumbered event] := rfl
  refine ⟨?_, ?_, ?_, ?_⟩
  . rw [hemitted]
    exact h.delivered.append_singleton trivial
  . rw [hemitted, Emission.streamIds_append]
    exact h.ids
  . rw [hemitted, Emission.lastSignal_append]
    exact h.last
  . rw [hemitted, Emission.lastSignal_append]
    exact h.recovering

/--
A request for a snapshot: the cursor does not go back unless the stream is identified anew, and it is zero
only then.
-/
theorem Sound.requireSnapshot (h : s.Sound) {params : BridgeSnapshotRequiredParams}
    (hemitted : s'.emitted = s.emitted ++ [.snapshotRequired params])
    (hcursor : (Emission.snapshotRequired params).startsStream ∨ s.lastSeenEventId ≤ s'.lastSeenEventId)
    (hzero : s'.lastSeenEventId = 0 → s'.awaitingFreshRecoveryBaseline = false →
      params.reason = .streamChanged)
    : s'.Sound := by
  refine ⟨?_, ?_, ?_, ?_⟩
  . rw [hemitted]
    exact h.delivered.append_singleton trivial
  . intro eventId heventId
    rw [hemitted, Emission.streamIds_append] at heventId
    split at heventId
    . exact absurd heventId not_mem_nil
    . next hstarts =>
      exact Nat.le_trans (h.ids eventId heventId) (hcursor.resolve_left hstarts)
  . intro eventId heventId
    rw [hemitted, Emission.lastSignal_append] at heventId
    contradiction
  . intro _ hseen hfresh
    rw [hemitted, Emission.lastSignal_append]
    exact ⟨params, rfl, hzero hseen hfresh⟩

theorem Sound.resetRecoveryEpoch (h : s.Sound) : s.resetRecoveryEpoch.Sound := by
  apply h.requireSnapshot rfl (.inl rfl)
  intro _ hfresh
  contradiction

theorem Sound.resetDeliveryEpoch (h : s.Sound) (reason : BridgeSnapshotRequiredReason)
    (earliestEventId latestEventId : Option Nat) (previousStreamId : Option String)
    (hlatest : reason = .streamChanged ∨ (s.lastSeenEventId ≤ latestEventId.getD 0
      ∧ 0 < latestEventId.getD 0))
    : (s.resetDeliveryEpoch reason earliestEventId latestEventId previousStreamId).Sound := by
  apply h.requireSnapshot rfl
  . rcases hlatest with rfl | hlatest
    . exact .inl rfl
    . exact .inr hlatest.1
  . intro hzero _
    rcases hlatest with hreason | hlatest
    . exact hreason
    . exact absurd hzero (Nat.ne_of_gt hlatest.2)

/-! Notifications -/

theorem Sound.drain (h : s.Sound) (hwatermark : s.recoveryWatermark = none) (count : Nat)
    : (drain count s).Sound := by
  induction count generalizing s with
  | zero => exact h
  | succ count ih =>
    unfold EventClient.drain
    dsimp only
    split
    . next event hevent =>
      have hforget : { s with pendingEvents := s.pendingEvents.forget (s.lastSeenEventId + 1) }.Sound :=
        h.congr rfl rfl fun hsome => ⟨hsome, rfl⟩
      have hemit := hforget.emitNumberedEvent event (Nat.lt_succ_self _) (.inr rfl) (by
        intro hsome
        rw [hwatermark] at hsome
        contradiction)
      exact ih hemit hwatermark
    . exact h

theorem Sound.drainPendingEvents (h : s.Sound) : s.drainPendingEvents.Sound := by
  unfold EventClient.drainPendingEvents
  split
  . exact h
  . next hsome => exact h.drain (Option.not_isSome_iff_eq_none.mp hsome) _

theorem Sound.scheduleReplay (h : s.Sound) : s.scheduleReplay.Sound := by
  unfold EventClient.scheduleReplay
  split
  . exact h
  . exact h.congr rfl rfl fun hsome => ⟨hsome, rfl⟩

theorem Sound.scheduleGapReplay (h : s.Sound)
    : (if s.hasPendingGap then s.scheduleReplay else s).Sound := by
  split
  . exact h.scheduleReplay
  . exact h

theorem Sound.applyStreamIdentity (h : s.Sound) (protocolVersion : Option Nat) (streamId : Option String)
    : (s.applyStreamIdentity protocolVersion streamId).Sound := by
  unfold EventClient.applyStreamIdentity
  split
  . exact h
  . exact h.congr rfl rfl fun hsome => ⟨hsome, rfl⟩
  . exact h.congr rfl rfl fun hsome => ⟨hsome, rfl⟩
  . exact h.congr rfl rfl fun hsome => ⟨hsome, rfl⟩
  . have hidentity : { s with protocolError := false, streamId }.Sound :=
      h.congr rfl rfl fun hsome => ⟨hsome, rfl⟩
    exact hidentity.resetDeliveryEpoch _ _ _ _ (.inl rfl)

theorem Sound.deliverNumberedNotification (h : s.Sound) (event : RpcNotification) (eventId : Nat)
    (replayed : Bool)
    : (s.deliverNumberedNotification event eventId replayed).1.Sound := by
  unfold EventClient.deliverNumberedNotification
  split
  . exact h
  . next hnew =>
    rw [Bool.or_eq_true, not_or, decide_eq_true_eq, Nat.not_le] at hnew
    split
    . next hfirst =>
      rw [Bool.and_eq_true, decide_eq_true_eq, Bool.not_eq_true'] at hfirst
      exact h.emitNumberedEvent event hnew.1 (.inl hfirst.1) fun _ => hfirst
    . have hpending : { s with pendingEvents := s.pendingEvents ++ [(eventId, event)] }.Sound :=
        h.congr rfl rfl fun hsome => ⟨hsome, rfl⟩
      dsimp only
      split
      . exact hpending.resetRecoveryEpoch
      . unfold EventClient.drainOrReplayPendingEvents
        split
        . exact hpending.drainPendingEvents
        . split
          . exact hpending
          . exact hpending.drainPendingEvents.scheduleGapReplay

theorem Sound.deliverNotification (h : s.Sound) (event : RpcNotification) (replayed : Bool)
    : (s.deliverNotification event replayed).1.Sound := by
  unfold EventClient.deliverNotification
  split
  . exact h.emitUnnumbered event
  . exact h.deliverNumberedNotification event _ replayed

theorem Sound.handleNotificationRecord (h : s.Sound) (record : RpcNotification) (replayed : Bool)
    : (s.handleNotificationRecord record replayed).Sound := by
  unfold EventClient.handleNotificationRecord
  split
  . exact h
  . dsimp only
    have hidentity := h.applyStreamIdentity record.protocolVersion record.streamId
    split
    . exact hidentity
    . have hdeliver := hidentity.deliverNotification record replayed
      split
      . unfold EventClient.scheduleConnectionReplay
        split
        . exact hdeliver.scheduleReplay
        . exact hdeliver
      . exact hdeliver

theorem Sound.applyReplayEvents (h : s.Sound) (events : List RpcNotification)
    : (s.applyReplayEvents events).Sound := by
  unfold EventClient.applyReplayEvents
  induction events generalizing s with
  | nil => exact h
  | cons record events ih => exact ih (h.handleNotificationRecord record true)

/-! Replays -/

theorem Sound.setReplay (h : s.Sound) (index : Nat) (loop : ReplayLoop) : (s.setReplay index loop).Sound :=
  h.congr rfl rfl fun hsome => ⟨hsome, rfl⟩

theorem Sound.takePage (h : s.Sound) (index : Nat) {loop : ReplayLoop} {response : ReplayEventsResponse}
    (hlatest : ∃ latest, response.latestEventId = some latest ∧ ∀ target ∈ loop.targetEventId, target ≤ latest)
    : (s.takePage index loop response).Sound := by
  have hevents := h.applyReplayEvents response.events
  unfold EventClient.takePage
  dsimp only
  split
  . exact hevents.setReplay _ _
  . next hbehind =>
    split
    . apply Sound.setReplay
      apply hevents.resetDeliveryEpoch
      rcases hlatest with ⟨latest, hlatest, htarget⟩
      rw [hlatest, Option.getD_some]
      have hlt : (s.applyReplayEvents response.events).lastSeenEventId < latest := by
        unfold resolveReplayTargetEventId at hbehind
        rw [hlatest] at hbehind
        cases htargetId : loop.targetEventId with
        | none =>
          rw [htargetId] at hbehind
          simpa using hbehind
        | some target =>
          rw [htargetId] at hbehind
          have hle := htarget target htargetId
          have hlt : (s.applyReplayEvents response.events).lastSeenEventId < target := by
            simpa using hbehind
          omega
      exact .inr ⟨Nat.le_of_lt hlt, Nat.lt_of_le_of_lt (Nat.zero_le _) hlt⟩
    . split
      . exact hevents.setReplay _ _
      . exact hevents.setReplay _ _

theorem latest_pos_of_checkReplayPageIntegrity {cursor latest : Nat} {earliestEventId : Option Nat}
    (hcursor : cursor ≤ latest) (hearliest : ∀ earliest ∈ earliestEventId, earliest ≤ latest)
    (h : checkReplayPageIntegrity cursor earliestEventId (some latest) ≠ none)
    : 0 < latest := by
  rw [Nat.pos_iff_ne_zero]
  intro hzero
  apply h
  have hstart : cursor = 0 := by omega
  subst hzero hstart
  cases earliestEventId with
  | none => rfl
  | some earliest =>
    have hearliest : earliest = 0 := Nat.le_zero.mp (hearliest earliest rfl)
    subst hearliest
    rfl

theorem lastSeenEventId_applyStreamIdentity {protocolVersion : Option Nat} {streamId : Option String}
    (h : s.streamIdentity protocolVersion streamId ≠ .changed)
    : (s.applyStreamIdentity protocolVersion streamId).lastSeenEventId = s.lastSeenEventId := by
  unfold EventClient.applyStreamIdentity
  split
  . rfl
  . rfl
  . rfl
  . rfl
  . contradiction

theorem Sound.answerLoop (h : s.Sound) (index : Nat) {loop : ReplayLoop} {response : ReplayEventsResponse}
    (hhonest : loop.generation = s.replayGeneration →
      s.streamIdentity response.protocolVersion response.streamId ≠ .changed →
      s.streamIdentity response.protocolVersion response.streamId ≠ .unsupported →
      s.Honest loop response)
    : (s.answerLoop index loop response).Sound := by
  unfold EventClient.answerLoop
  split
  . exact h.setReplay _ _
  . next hgeneration =>
    have hidentity := h.applyStreamIdentity response.protocolVersion response.streamId
    dsimp only
    split
    . exact hidentity.setReplay _ _
    . next hknown =>
      rw [not_or] at hknown
      rcases (hhonest (Decidable.not_not.mp hgeneration) hknown.2 hknown.1).latest
        with ⟨latest, hlatest, hcursor, htarget, hearliest, hseen⟩
      rw [← hlatest] at hseen
      split
      . next failure hfailure =>
        apply Sound.setReplay
        apply hidentity.resetDeliveryEpoch
        right
        have hfails : checkReplayPageIntegrity loop.cursor response.earliestEventId response.latestEventId
            ≠ none := by
          rw [hfailure]
          exact Option.some_ne_none failure
        rw [lastSeenEventId_applyStreamIdentity hknown.2, hlatest, Option.getD_some]
        refine ⟨hseen hfails, ?_⟩
        rw [hlatest] at hfails
        exact latest_pos_of_checkReplayPageIntegrity hcursor hearliest hfails
      . exact hidentity.takePage index ⟨latest, hlatest, htarget⟩

theorem Sound.settleLoop (h : s.Sound) (index : Nat) (loop : ReplayLoop) (completed : Bool)
    : (s.settleLoop index loop completed).Sound := by
  have hsettled := h.setReplay index { loop with phase := .settled }
  unfold EventClient.settleLoop
  dsimp only
  split
  . exact hsettled
  . have hfree : { s.setReplay index { loop with phase := .settled } with replayInFlight := none }.Sound :=
      hsettled.congr rfl rfl fun hsome => ⟨hsome, rfl⟩
    split
    . exact hfree
    . exact hfree.drainPendingEvents.scheduleGapReplay

theorem Sound.acknowledgeSnapshotRecovery (h : s.Sound) (resumeAfterEventId : Nat)
    : (s.acknowledgeSnapshotRecovery resumeAfterEventId).1.Sound := by
  unfold EventClient.acknowledgeSnapshotRecovery
  split
  . exact h
  . have hacknowledged :
        { s with recoveryWatermark := none, awaitingFreshRecoveryBaseline := false }.Sound :=
      h.congr rfl rfl fun hsome => by contradiction
    exact hacknowledged.drainPendingEvents.scheduleGapReplay

/-! Runs -/

theorem sound_step (h : s.Sound) (label : EventClientLabel) (hguard : s.Allowed label)
    (hstep : s.step label = some s')
    : s'.Sound := by
  cases label with
  | opened =>
    change (if s.protocolError then none else some { s with connected := true }) = some s' at hstep
    split at hstep
    . contradiction
    . injection hstep with hstep
      subst hstep
      exact h.congr rfl rfl fun hsome => ⟨hsome, rfl⟩
  | closed =>
    injection hstep with hstep
    subst hstep
    exact h.congr rfl rfl fun hsome => ⟨hsome, rfl⟩
  | disconnect =>
    injection hstep with hstep
    subst hstep
    exact h.congr rfl rfl fun hsome => ⟨hsome, rfl⟩
  | live record =>
    change (if s.connected then some (s.handleNotificationRecord record false) else none) = some s' at hstep
    split at hstep
    . injection hstep with hstep
      exact hstep ▸ h.handleNotificationRecord record false
    . contradiction
  | acknowledgeSnapshotRecovery resumeAfterEventId =>
    injection hstep with hstep
    exact hstep ▸ h.acknowledgeSnapshotRecovery resumeAfterEventId
  | resetRecoveryEpoch =>
    injection hstep with hstep
    exact hstep ▸ h.resetRecoveryEpoch
  | answer index response =>
    unfold EventClient.step at hstep
    rw [Option.map_eq_some_iff] at hstep
    rcases hstep with ⟨loop, hloop, rfl⟩
    exact h.answerLoop index (hguard loop hloop)
  | answerUnsupported index =>
    unfold EventClient.step at hstep
    rw [Option.map_eq_some_iff] at hstep
    rcases hstep with ⟨loop, hloop, rfl⟩
    exact h.congr rfl rfl fun hsome => ⟨hsome, rfl⟩
  | fail index =>
    unfold EventClient.step at hstep
    rw [Option.map_eq_some_iff] at hstep
    rcases hstep with ⟨loop, hloop, rfl⟩
    exact h.setReplay _ _
  | settle index =>
    unfold EventClient.step at hstep
    dsimp only at hstep
    split at hstep
    . split at hstep
      . injection hstep with hstep
        exact hstep ▸ h.settleLoop _ _ _
      . contradiction
    . contradiction

/--
What the client emits is in order, as long as the answers to its replays are honest.
-/
theorem delivered_of_exec {labels : List EventClientLabel} (hmeets : Meets step Allowed {} labels)
    (hexec : exec step {} labels = some s)
    : Delivered s.emitted := by
  have hsound : s.Sound := by
    apply exec_invariant (I := Sound) _ sound_init hmeets hexec
    intro t label t' hinvariant hguard hstep
    exact sound_step hinvariant label hguard hstep
  exact hsound.delivered

instance (s : EventClient) (loop : ReplayLoop) (response : ReplayEventsResponse)
    : Decidable (s.Honest loop response) := by
  unfold Honest
  split <;> infer_instance

instance (s : EventClient) (label : EventClientLabel) : Decidable (s.Allowed label) :=
  match label with
  | .answer .. => inferInstanceAs (Decidable (∀ _ ∈ _, _))
  | .opened | .closed | .disconnect | .live _ | .acknowledgeSnapshotRecovery _ | .resetRecoveryEpoch
  | .answerUnsupported _ | .fail _ | .settle _ => inferInstanceAs (Decidable True)

def connectionState (streamId : String) : EventClientLabel :=
  .live { method := "bridge/connection/state", protocolVersion := some 2, streamId := some streamId }

def event (streamId : String) (eventId : Nat) : RpcNotification :=
  { method := "bridge/agui/event", protocolVersion := some 2, streamId := some streamId,
    eventId := some eventId }

/--
The second event is missed and replayed.
-/
def gapReplayed : List EventClientLabel :=
  [.opened, connectionState "a", .live (event "a" 1), .live (event "a" 3),
    .answer 0
      { protocolVersion := some 2, streamId := some "a", events := [event "a" 2, event "a" 3],
        hasMore := false, earliestEventId := some 1, latestEventId := some 3 },
    .settle 0]

theorem delivered_of_gapReplayed
    : ∃ s, exec step {} gapReplayed = some s ∧ Delivered s.emitted := by
  have hexec : (exec step {} gapReplayed).isSome := by decide
  have hmeets : Meets step Allowed {} gapReplayed := by decide
  rcases Option.isSome_iff_exists.mp hexec with ⟨s, hs⟩
  exact ⟨s, hs, delivered_of_exec hmeets hs⟩

/--
No numbered event is emitted while a recovery is not acknowledged.
-/
def Quiet (emitted : List Emission) : Prop :=
  ∀ eventId event recoveryWatermark, .numbered eventId event recoveryWatermark ∈ emitted →
    recoveryWatermark = none

/--
The bridge was started anew, and its first event comes before the snapshot is acknowledged.
-/
def streamChanged : List EventClientLabel :=
  [.opened, connectionState "a", .live (event "a" 10), .closed, .opened, connectionState "b",
    .live (event "b" 5)]

theorem not_quiet_of_streamChanged : ∃ s, exec step {} streamChanged = some s ∧ ¬Quiet s.emitted := by
  have hemitted : (exec step {} streamChanged).map (fun s =>
      decide (.numbered 5 (event "b" 5) (some 0) ∈ s.emitted)) = some true := by
    decide
  rw [Option.map_eq_some_iff] at hemitted
  rcases hemitted with ⟨s, hs, hemitted⟩
  refine ⟨s, hs, ?_⟩
  intro hquiet
  exact Option.some_ne_none 0 (hquiet 5 (event "b" 5) (some 0) (of_decide_eq_true hemitted))

/--
While a replay is under way that shows that events were lost, the client has emitted a later event than
that answer knows: the cursor goes back, and the event is emitted again.
-/
def overtaken : List EventClientLabel :=
  [.opened, connectionState "a", .live (event "a" 5), .live (event "a" 7),
    .answer 0
      { protocolVersion := some 2, streamId := some "a", events := [event "a" 8], hasMore := false,
        earliestEventId := some 8, latestEventId := some 8 },
    connectionState "a", .live (event "a" 9), .live (event "a" 10), .live (event "a" 11),
    .acknowledgeSnapshotRecovery 8,
    .answer 1
      { protocolVersion := some 2, streamId := some "a", events := [event "a" 10], hasMore := false,
        earliestEventId := some 10, latestEventId := some 10 },
    .acknowledgeSnapshotRecovery 10, .live (event "a" 11)]

theorem emitted_of_overtaken
    : (exec step {} overtaken).map (fun s => s.emitted.filterMap Emission.id?) = some [5, 9, 10, 11, 11] := by
  decide

end EventClient

end Mobile
