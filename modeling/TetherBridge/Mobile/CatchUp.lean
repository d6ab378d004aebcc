import TetherBridge.Mobile.Delivery

/-!
This module contains what the mobile client makes of the events of one stream, when they reach it live in
order or in pages that follow its cursor: it has emitted all up to the cursor, and events wait only while
a replay is in flight.
-/

namespace Mobile

open List

namespace EventClient

variable (s : EventClient)

def emittedIds : List Nat :=
  s.emitted.filterMap Emission.id?

/--
The event was emitted, or waits to be.
-/
def Covered (eventId : Nat) : Prop :=
  eventId ≤ s.lastSeenEventId ∨ s.hasPending eventId

/--
No event waits that could be emitted.
-/
def Drained : Prop :=
  s.hasPending (s.lastSeenEventId + 1) = false

/--
A client that is connected to one stream, has emitted its events up to the cursor without a gap, and has
not asked for a snapshot.
-/
structure Steady (streamId : String) (latest : Nat) : Prop where
  connected : s.connected
  supported : s.replaySupported
  settled : s.recoveryWatermark = none
  baseline : s.awaitingFreshRecoveryBaseline = false
  stream : s.streamId = some streamId ∨ s.streamId = none ∧ s.lastSeenEventId = 0
  noSnapshot : ∀ params, .snapshotRequired params ∉ s.emitted
  ids : s.lastSeenEventId = 0 ∧ s.emittedIds = [] ∧ s.pendingEvents = []
    ∨ ∃ first, 0 < first ∧ first ≤ s.lastSeenEventId
      ∧ s.emittedIds = range' first (s.lastSeenEventId + 1 - first)
  pending : ∀ entry ∈ s.pendingEvents, s.lastSeenEventId < entry.1 ∧ entry.1 ≤ latest
  lastSeen_le : s.lastSeenEventId ≤ latest

/--
The client has got further, and its replays are as they were.
-/
structure Advances (s s' : EventClient) : Prop where
  covered : ∀ eventId, s.Covered eventId → s'.Covered eventId
  lastSeen_le : s.lastSeenEventId ≤ s'.lastSeenEventId
  replays : s'.replays = s.replays
  replayInFlight : s'.replayInFlight = s.replayInFlight
  replayGeneration : s'.replayGeneration = s.replayGeneration

variable {s} {s' s'' : EventClient} {streamId : String} {latest : Nat}

theorem Advances.refl (s : EventClient) : s.Advances s :=
  ⟨fun _ h => h, Nat.le_refl _, rfl, rfl, rfl⟩

theorem Advances.trans (h : s.Advances s') (h' : s'.Advances s'') : s.Advances s'' where
  covered eventId hcovered := h'.covered eventId (h.covered eventId hcovered)
  lastSeen_le := Nat.le_trans h.lastSeen_le h'.lastSeen_le
  replays := h'.replays.trans h.replays
  replayInFlight := h'.replayInFlight.trans h.replayInFlight
  replayGeneration := h'.replayGeneration.trans h.replayGeneration

theorem hasPending_iff {eventId : Nat} : s.hasPending eventId ↔ ∃ entry ∈ s.pendingEvents, entry.1 = eventId := by
  unfold hasPending
  rw [any_eq_true]
  simp only [decide_eq_true_eq]

theorem hasPending_of_lookup {eventId : Nat} {event : RpcNotification}
    (h : s.pendingEvents.lookup eventId = some event)
    : s.hasPending eventId :=
  hasPending_iff.mpr ⟨(eventId, event), mem_of_lookup h, rfl⟩

theorem not_hasPending_of_lookup {eventId : Nat} (h : s.pendingEvents.lookup eventId = none)
    : s.hasPending eventId = false := by
  rw [Bool.eq_false_iff]
  intro hpending
  rcases hasPending_iff.mp hpending with ⟨entry, hentry, heq⟩
  rw [lookup_eq_none_iff] at h
  exact bne_iff_ne.mp (h entry hentry) heq.symm

/-! Draining -/

theorem emittedIds_emitNumberedEvent (s : EventClient) (eventId : Nat) (event : RpcNotification)
    : (s.emitNumberedEvent eventId event).emittedIds = s.emittedIds ++ [eventId] := by
  change filterMap _ (s.emitted ++ [_]) = _
  rw [filterMap_append]
  rfl

/--
What `drain` does once.
-/
def emitNext (s : EventClient) (event : RpcNotification) : EventClient :=
  { s with pendingEvents := s.pendingEvents.forget (s.lastSeenEventId + 1) }.emitNumberedEvent
    (s.lastSeenEventId + 1) event

theorem hasPending_emitNext {event : RpcNotification} {eventId : Nat}
    : (s.emitNext event).hasPending eventId ↔ s.hasPending eventId ∧ eventId ≠ s.lastSeenEventId + 1 := by
  rw [hasPending_iff, hasPending_iff]
  constructor
  . rintro ⟨entry, hentry, rfl⟩
    have hentry := mem_forget.mp hentry
    exact ⟨⟨entry, hentry.1, rfl⟩, hentry.2⟩
  . rintro ⟨⟨entry, hentry, rfl⟩, hne⟩
    exact ⟨entry, mem_forget.mpr ⟨hentry, hne⟩, rfl⟩

theorem Steady.emitNext (h : s.Steady streamId latest) {event : RpcNotification}
    (hevent : s.pendingEvents.lookup (s.lastSeenEventId + 1) = some event)
    : (s.emitNext event).Steady streamId latest ∧ s.Advances (s.emitNext event) := by
  have hmem := mem_of_lookup hevent
  rcases h.ids with ⟨-, -, hnil⟩ | ⟨first, hpos, hle, hids⟩
  . exact absurd hnil (ne_nil_of_mem hmem)
  have hids' : (s.emitNext event).emittedIds = range' first (s.lastSeenEventId + 1 + 1 - first) := by
    have hlength : s.lastSeenEventId + 1 + 1 - first = (s.lastSeenEventId + 1 - first) + 1 := by omega
    have hlast : s.lastSeenEventId + 1 = first + 1 * (s.lastSeenEventId + 1 - first) := by omega
    rw [hlength, range'_concat, ← hlast, ← hids]
    exact emittedIds_emitNumberedEvent _ _ _
  constructor
  . refine ⟨h.connected, h.supported, h.settled, h.baseline, ?_, ?_, .inr ⟨first, hpos, ?_, hids'⟩, ?_, ?_⟩
    . rcases h.stream with hstream | hstream
      . exact .inl hstream
      . omega
    . intro params hparams
      rcases mem_append.mp hparams with hparams | hparams
      . exact h.noSnapshot params hparams
      . rw [mem_singleton] at hparams
        contradiction
    . exact Nat.le_succ_of_le hle
    . intro entry hentry
      have hentry := mem_forget.mp hentry
      have hold := h.pending entry hentry.1
      refine ⟨?_, hold.2⟩
      change s.lastSeenEventId + 1 < entry.1
      have hne := hentry.2
      omega
    . exact (h.pending _ hmem).2
  . refine ⟨?_, Nat.le_succ _, rfl, rfl, rfl⟩
    intro eventId hcovered
    by_cases heq : eventId = s.lastSeenEventId + 1
    . exact .inl (Nat.le_of_eq heq)
    . rcases hcovered with hseen | hpending
      . exact .inl (Nat.le_succ_of_le hseen)
      . exact .inr (hasPending_emitNext.mpr ⟨hpending, heq⟩)

theorem Steady.drain (h : s.Steady streamId latest) (count : Nat)
    : (drain count s).Steady streamId latest ∧ s.Advances (drain count s)
        ∧ (s.pendingEvents.length ≤ count → (drain count s).Drained) := by
  induction count generalizing s with
  | zero =>
    refine ⟨h, .refl s, ?_⟩
    intro hlength
    have hnil := length_eq_zero_iff.mp (Nat.le_zero.mp hlength)
    unfold Drained hasPending
    change s.pendingEvents.any _ = false
    rw [hnil]
    rfl
  | succ count ih =>
    unfold EventClient.drain
    dsimp only
    split
    . next event hevent =>
      have hemit := h.emitNext hevent
      have hrest := ih hemit.1
      refine ⟨hrest.1, hemit.2.trans hrest.2.1, ?_⟩
      intro hlength
      apply hrest.2.2
      have hlt : (s.pendingEvents.forget (s.lastSeenEventId + 1)).length < s.pendingEvents.length := by
        unfold List.forget
        rw [length_filter_lt_length_iff_exists]
        exact ⟨_, mem_of_lookup hevent, by simp⟩
      change (s.pendingEvents.forget (s.lastSeenEventId + 1)).length ≤ count
      omega
    . next hnone =>
      exact ⟨h, .refl s, fun _ => not_hasPending_of_lookup hnone⟩

theorem Steady.drainPendingEvents (h : s.Steady streamId latest)
    : s.drainPendingEvents.Steady streamId latest ∧ s.Advances s.drainPendingEvents
        ∧ s.drainPendingEvents.Drained := by
  unfold EventClient.drainPendingEvents
  rw [h.settled, if_neg (by simp)]
  have hdrain := h.drain s.pendingEvents.length
  exact ⟨hdrain.1, hdrain.2.1, hdrain.2.2 (Nat.le_refl _)⟩

/-! Notifications -/

/--
A numbered event of the stream.
-/
structure IsEvent (streamId : String) (record : RpcNotification) (eventId : Nat) : Prop where
  named : record.method ≠ ""
  version : record.protocolVersion = some PROTOCOL_VERSION
  stream : record.streamId = some streamId
  numbered : record.eventId = some eventId
  positive : 0 < eventId

theorem IsEvent.readEventId {record : RpcNotification} {eventId : Nat}
    (h : IsEvent streamId record eventId)
    : Mobile.readEventId record = some eventId := by
  unfold Mobile.readEventId
  rw [h.numbered, Option.filter_some]
  exact if_pos (decide_eq_true (Nat.succ_le_of_lt h.positive))

theorem Steady.streamIdentity (h : s.Steady streamId latest) (hstreamId : streamId ≠ "")
    : s.streamIdentity (some PROTOCOL_VERSION) (some streamId) = .initial ∧ s.streamId = none
      ∨ s.streamIdentity (some PROTOCOL_VERSION) (some streamId) = .same ∧ s.streamId = some streamId := by
  unfold EventClient.streamIdentity
  dsimp only
  rw [if_neg hstreamId, if_neg (by simp)]
  rcases h.stream with hstream | ⟨hstream, -⟩
  . right
    rw [hstream]
    exact ⟨if_pos rfl, rfl⟩
  . left
    rw [hstream]
    exact ⟨rfl, rfl⟩

/--
A message of the stream changes nothing but that the stream is known from then on.
-/
theorem Steady.identify (h : s.Steady streamId latest) (hstreamId : streamId ≠ "")
    : ∃ protocolError, s.applyStreamIdentity (some PROTOCOL_VERSION) (some streamId)
      = { s with protocolError, streamId := some streamId } := by
  unfold EventClient.applyStreamIdentity
  rcases h.streamIdentity hstreamId with ⟨hidentity, -⟩ | ⟨hidentity, hstream⟩
  . rw [hidentity]
    exact ⟨false, rfl⟩
  . rw [hidentity, ← hstream]
    exact ⟨false, rfl⟩

theorem Steady.identified (h : s.Steady streamId latest) (protocolError : Bool)
    : { s with protocolError, streamId := some streamId }.Steady streamId latest :=
  { h with stream := .inl rfl }

theorem advances_identified (s : EventClient) (protocolError : Bool) (streamId : Option String)
    : s.Advances { s with protocolError, streamId } :=
  ⟨fun _ h => h, Nat.le_refl _, rfl, rfl, rfl⟩

/--
An event that is not covered is buffered.
-/
theorem Steady.buffer (h : s.Steady streamId latest) {eventId : Nat} (event : RpcNotification)
    (hnew : ¬s.Covered eventId) (hpos : 0 < s.lastSeenEventId) (hle : eventId ≤ latest)
    : { s with pendingEvents := s.pendingEvents ++ [(eventId, event)] }.Steady streamId latest
      ∧ s.Advances { s with pendingEvents := s.pendingEvents ++ [(eventId, event)] }
      ∧ Covered { s with pendingEvents := s.pendingEvents ++ [(eventId, event)] } eventId := by
  have hpending : ∀ other, s.hasPending other →
      hasPending { s with pendingEvents := s.pendingEvents ++ [(eventId, event)] } other := by
    intro other hother
    rcases hasPending_iff.mp hother with ⟨entry, hentry, heq⟩
    exact hasPending_iff.mpr ⟨entry, mem_append_left _ hentry, heq⟩
  refine ⟨?_, ?_, ?_⟩
  . refine { h with ids := ?_, pending := ?_ }
    . rcases h.ids with ⟨hzero, -⟩ | hids
      . omega
      . exact .inr hids
    . intro entry hentry
      rcases mem_append.mp hentry with hentry | hentry
      . exact h.pending entry hentry
      . rw [mem_singleton] at hentry
        rw [hentry]
        exact ⟨Nat.lt_of_not_le fun hseen => hnew (.inl hseen), hle⟩
  . refine ⟨?_, Nat.le_refl _, rfl, rfl, rfl⟩
    intro other hother
    exact hother.imp_right (hpending other)
  . exact .inr (hasPending_iff.mpr ⟨(eventId, event), mem_append_right _ mem_cons_self, rfl⟩)

theorem Steady.no_overflow (h : s.Steady streamId latest) : s.hasRecoveryBufferOverflow = false := by
  unfold EventClient.hasRecoveryBufferOverflow
  rw [h.settled]
  rfl

theorem deliver_of_covered {eventId : Nat} (h : s.Covered eventId) (record : RpcNotification) (replayed : Bool)
    : s.deliverNumberedNotification record eventId replayed = (s, false) := by
  unfold EventClient.deliverNumberedNotification
  apply if_pos
  rw [Bool.or_eq_true, decide_eq_true_eq]
  exact h

theorem not_covered_iff {eventId : Nat}
    : ¬s.Covered eventId ↔ (decide (eventId ≤ s.lastSeenEventId) || s.hasPending eventId) ≠ true := by
  rw [ne_eq, Bool.or_eq_true, decide_eq_true_eq]
  rfl

theorem Steady.deliver_of_new (h : s.Steady streamId latest) {eventId : Nat} (hnew : ¬s.Covered eventId)
    (hpos : 0 < s.lastSeenEventId) (hle : eventId ≤ latest) (record : RpcNotification) (replayed : Bool)
    : s.deliverNumberedNotification record eventId replayed
      = ({ s with pendingEvents := s.pendingEvents ++ [(eventId, record)] }.drainOrReplayPendingEvents
          replayed, true) := by
  unfold EventClient.deliverNumberedNotification
  rw [if_neg (not_covered_iff.mp hnew), if_neg (by simp; omega)]
  dsimp only
  rw [(h.buffer record hnew hpos hle).1.no_overflow, if_neg Bool.false_ne_true]

theorem scheduleReplay_of_inFlight (h : s.replayInFlight.isSome) : s.scheduleReplay = s := by
  unfold EventClient.scheduleReplay
  rw [if_pos]
  rw [h, Bool.or_true, Bool.true_or]

theorem scheduleConnectionReplay_of_inFlight (h : s.replayInFlight.isSome) (method : String)
    (identityResult : StreamIdentityResult)
    : s.scheduleConnectionReplay method identityResult = s := by
  unfold EventClient.scheduleConnectionReplay
  split
  . exact scheduleReplay_of_inFlight h
  . rfl

/--
How an event of the stream is handled.
-/
theorem Steady.handle_eq (h : s.Steady streamId latest) (hstreamId : streamId ≠ "")
    {record : RpcNotification} {eventId : Nat} (hevent : IsEvent streamId record eventId) (replayed : Bool)
    : ∃ protocolError identityResult, s.handleNotificationRecord record replayed =
        let identified := { s with protocolError, streamId := some streamId }
        let delivery := identified.deliverNumberedNotification record eventId replayed
        if delivery.2 then delivery.1.scheduleConnectionReplay record.method identityResult
        else delivery.1 := by
  rcases h.identify hstreamId with ⟨protocolError, hidentify⟩
  refine ⟨protocolError, s.streamIdentity (some PROTOCOL_VERSION) (some streamId), ?_⟩
  have hsupported : s.streamIdentity (some PROTOCOL_VERSION) (some streamId) ≠ .unsupported := by
    rcases h.streamIdentity hstreamId with ⟨hidentity, -⟩ | ⟨hidentity, -⟩
    . rw [hidentity]
      decide
    . rw [hidentity]
      decide
  unfold EventClient.handleNotificationRecord
  rw [if_neg hevent.named, hevent.version, hevent.stream, hidentify]
  dsimp only
  rw [if_neg hsupported]
  unfold deliverNotification
  rw [hevent.readEventId]

/--
An event of a page is emitted or waits afterwards, and if it was not covered before, all are emitted that
can be.
-/
theorem Steady.handleReplayed (h : s.Steady streamId latest) (hstreamId : streamId ≠ "")
    {record : RpcNotification} {eventId : Nat} (hevent : IsEvent streamId record eventId)
    (hle : eventId ≤ latest) (hpos : 0 < s.lastSeenEventId) (hinFlight : s.replayInFlight.isSome)
    : (s.handleNotificationRecord record true).Steady streamId latest
      ∧ s.Advances (s.handleNotificationRecord record true)
      ∧ (s.handleNotificationRecord record true).Covered eventId
      ∧ (s.Covered eventId ∧ (s.handleNotificationRecord record true).pendingEvents = s.pendingEvents
          ∧ (s.handleNotificationRecord record true).lastSeenEventId = s.lastSeenEventId
        ∨ (s.handleNotificationRecord record true).Drained) := by
  rcases h.handle_eq hstreamId hevent true with ⟨protocolError, identityResult, hhandle⟩
  have hidentified := h.identified protocolError
  have hadvances := advances_identified s protocolError (some streamId)
  rw [hhandle]
  dsimp only
  by_cases hcovered : s.Covered eventId
  . rw [deliver_of_covered (s := { s with protocolError, streamId := some streamId }) hcovered]
    exact ⟨hidentified, hadvances, hcovered, .inl ⟨hcovered, rfl, rfl⟩⟩
  . have hbuffer := hidentified.buffer record hcovered hpos hle
    rw [hidentified.deliver_of_new hcovered hpos hle]
    dsimp only
    rw [if_pos rfl]
    unfold drainOrReplayPendingEvents
    rw [if_pos rfl]
    have hdrain := hbuffer.1.drainPendingEvents
    have hadvance := (hadvances.trans hbuffer.2.1).trans hdrain.2.1
    rw [scheduleConnectionReplay_of_inFlight (by rw [hadvance.replayInFlight]; exact hinFlight)]
    exact ⟨hdrain.1, hadvance, hdrain.2.1.covered _ hbuffer.2.2, .inr hdrain.2.2⟩

/-! Pages -/

theorem Drained.congr (h : s.Drained) (hpending : s'.pendingEvents = s.pendingEvents)
    (hlastSeen : s'.lastSeenEventId = s.lastSeenEventId)
    : s'.Drained := by
  unfold Drained hasPending at h ⊢
  rw [hpending, hlastSeen]
  exact h

theorem Covered.congr {eventId : Nat} (h : s.Covered eventId) (hpending : s'.pendingEvents = s.pendingEvents)
    (hlastSeen : s'.lastSeenEventId = s.lastSeenEventId)
    : s'.Covered eventId := by
  unfold Covered hasPending at h ⊢
  rw [hpending, hlastSeen]
  exact h

/--
The events of a page are emitted or wait afterwards, and if one of them was not covered before, all are
emitted that can be.
-/
theorem Steady.applyReplayEvents (h : s.Steady streamId latest) (hstreamId : streamId ≠ "")
    {events : List RpcNotification}
    (hevents : ∀ record ∈ events, ∃ eventId, IsEvent streamId record eventId ∧ eventId ≤ latest)
    (hpos : 0 < s.lastSeenEventId) (hinFlight : s.replayInFlight.isSome)
    : (s.applyReplayEvents events).Steady streamId latest
      ∧ s.Advances (s.applyReplayEvents events)
      ∧ (∀ record ∈ events, ∀ eventId, IsEvent streamId record eventId →
          (s.applyReplayEvents events).Covered eventId)
      ∧ ((∀ record ∈ events, ∀ eventId, IsEvent streamId record eventId → s.Covered eventId)
          ∧ (s.applyReplayEvents events).pendingEvents = s.pendingEvents
          ∧ (s.applyReplayEvents events).lastSeenEventId = s.lastSeenEventId
        ∨ (s.applyReplayEvents events).Drained) := by
  induction events generalizing s with
  | nil =>
    refine ⟨h, .refl s, ?_, .inl ⟨?_, rfl, rfl⟩⟩
    . intro record hrecord
      contradiction
    . intro record hrecord
      contradiction
  | cons record events ih =>
    rcases hevents record mem_cons_self with ⟨eventId, hevent, hle⟩
    have hrecord := h.handleReplayed hstreamId hevent hle hpos hinFlight
    have hevents := fun record hrecord => hevents record (mem_cons_of_mem _ hrecord)
    have hrest := ih hrecord.1 hevents (Nat.lt_of_lt_of_le hpos hrecord.2.1.lastSeen_le) (by
      rw [hrecord.2.1.replayInFlight]
      exact hinFlight)
    have hid : ∀ other, IsEvent streamId record other → other = eventId := by
      intro other hother
      exact Option.some_inj.mp (hother.numbered.symm.trans hevent.numbered)
    refine ⟨hrest.1, hrecord.2.1.trans hrest.2.1, ?_, ?_⟩
    . intro earlier hearlier other hother
      rcases mem_cons.mp hearlier with heq | hearlier
      . subst heq
        rw [hid other hother]
        exact hrest.2.1.covered _ hrecord.2.2.1
      . exact hrest.2.2.1 earlier hearlier other hother
    . rcases hrest.2.2.2 with ⟨hcovered, hpending, hlastSeen⟩ | hdrained
      . rcases hrecord.2.2.2 with ⟨hfirst, hpending', hlastSeen'⟩ | hdrained
        . left
          refine ⟨?_, hpending.trans hpending', hlastSeen.trans hlastSeen'⟩
          intro earlier hearlier other hother
          rcases mem_cons.mp hearlier with heq | hearlier
          . subst heq
            rw [hid other hother]
            exact hfirst
          . exact (hcovered earlier hearlier other hother).congr hpending'.symm hlastSeen'.symm
        . exact .inr (hdrained.congr hpending hlastSeen)
      . exact .inr hdrained

/--
Consecutive events that follow the cursor, all of them covered and none left to be emitted: the cursor has
got past them.
-/
theorem Drained.past (h : s.Drained) {cursor count : Nat} (hcursor : cursor ≤ s.lastSeenEventId)
    (hcovered : ∀ eventId, cursor < eventId → eventId ≤ cursor + count → s.Covered eventId)
    : cursor + count ≤ s.lastSeenEventId := by
  by_contra hbehind
  rcases hcovered (s.lastSeenEventId + 1) (by omega) (by omega) with hseen | hpending
  . omega
  . unfold Drained at h
    rw [h] at hpending
    contradiction

/-! Replays -/

/--
The loop waits for a page that begins after the cursor of the client, or has come to its end.
-/
def OnCourse (s : EventClient) (latest : Nat) (loop : ReplayLoop) : Prop :=
  loop.generation = s.replayGeneration ∧ 0 < s.lastSeenEventId
    ∧ (loop.phase = .requesting ∧ loop.cursor = s.lastSeenEventId
        ∧ (∀ target ∈ loop.targetEventId, s.lastSeenEventId < target ∧ target ≤ latest)
      ∨ loop.phase = .ended true)

/--
Events wait only while a replay is in flight, and no other replay is left.
-/
structure Replays (s : EventClient) (latest : Nat) : Prop where
  idle : s.replayInFlight = none → s.pendingEvents = []
  current : ∀ index ∈ s.replayInFlight, ∃ loop, s.replays[index]? = some loop ∧ s.OnCourse latest loop
  others : ∀ index loop, s.replays[index]? = some loop →
    s.replayInFlight = some index ∨ loop.phase = .settled

theorem OnCourse.mono {loop : ReplayLoop} (h : s.OnCourse latest loop) {latest' : Nat} (hle : latest ≤ latest')
    : s.OnCourse latest' loop := by
  refine ⟨h.1, h.2.1, ?_⟩
  rcases h.2.2 with ⟨hphase, hcursor, htarget⟩ | hended
  . left
    refine ⟨hphase, hcursor, ?_⟩
    intro target hmem
    exact ⟨(htarget target hmem).1, Nat.le_trans (htarget target hmem).2 hle⟩
  . exact .inr hended

theorem Replays.mono (h : s.Replays latest) {latest' : Nat} (hle : latest ≤ latest') : s.Replays latest' where
  idle := h.idle
  current index hindex :=
    (h.current index hindex).imp fun _ hloop => ⟨hloop.1, hloop.2.mono hle⟩
  others := h.others

theorem Steady.mono (h : s.Steady streamId latest) {latest' : Nat} (hle : latest ≤ latest')
    : s.Steady streamId latest' :=
  { h with
    pending := fun entry hentry => ⟨(h.pending entry hentry).1, Nat.le_trans (h.pending entry hentry).2 hle⟩
    lastSeen_le := Nat.le_trans h.lastSeen_le hle }

/--
A replay is requested if none is in flight.
-/
theorem Steady.scheduleReplay (h : s.Steady streamId latest) (hpos : 0 < s.lastSeenEventId)
    (hothers : ∀ (index : Nat) (loop : ReplayLoop), s.replays[index]? = some loop → loop.phase = .settled)
    (hidle : s.replayInFlight = none)
    : s.scheduleReplay.Steady streamId latest ∧ s.scheduleReplay.Replays latest
      ∧ ∀ eventId, s.Covered eventId → s.scheduleReplay.Covered eventId := by
  have hschedule : s.scheduleReplay = { s with
      replays := s.replays ++ [{ generation := s.replayGeneration, cursor := s.lastSeenEventId }]
      replayInFlight := some s.replays.length } := by
    unfold EventClient.scheduleReplay
    rw [h.supported, h.connected, hidle]
    rfl
  rw [hschedule]
  refine ⟨{ h with }, ⟨?_, ?_, ?_⟩, fun _ hcovered => hcovered⟩
  . intro hnone
    contradiction
  . intro index hindex
    injection hindex with hindex
    subst hindex
    refine ⟨{ generation := s.replayGeneration, cursor := s.lastSeenEventId }, getElem?_concat_length, rfl,
      hpos, .inl ⟨rfl, rfl, ?_⟩⟩
    intro target htarget
    contradiction
  . intro index loop hloop
    dsimp only at hloop ⊢
    by_cases hlt : index < s.replays.length
    . rw [getElem?_append_left hlt] at hloop
      exact .inr (hothers index loop hloop)
    . have hlength := (List.getElem?_eq_some_iff.mp hloop).1
      rw [length_append, length_singleton] at hlength
      left
      have heq : index = s.replays.length := by omega
      rw [heq]

/--
What is left to do after the events were emitted: if some still wait, one before them is missing, and a
replay is requested.
-/
theorem Steady.scheduleGapReplay (h : s.Steady streamId latest)
    (hdrained : s.Drained) (hidle : s.replayInFlight = none)
    (hothers : ∀ (index : Nat) (loop : ReplayLoop), s.replays[index]? = some loop → loop.phase = .settled)
    : (if s.hasPendingGap then s.scheduleReplay else s).Steady streamId latest
      ∧ (if s.hasPendingGap then s.scheduleReplay else s).Replays latest
      ∧ ∀ eventId, s.Covered eventId →
          (if s.hasPendingGap then s.scheduleReplay else s).Covered eventId := by
  have hgap : s.hasPendingGap = !s.pendingEvents.isEmpty := by
    unfold EventClient.hasPendingGap
    rw [hdrained, Bool.not_false, Bool.and_true]
  rw [hgap]
  cases hpending : s.pendingEvents with
  | nil =>
    rw [isEmpty_nil, Bool.not_true, if_neg Bool.false_ne_true]
    refine ⟨h, ⟨fun _ => hpending, ?_, ?_⟩, fun _ hcovered => hcovered⟩
    . intro index hindex
      rw [hidle] at hindex
      contradiction
    . intro index loop hloop
      exact .inr (hothers index loop hloop)
  | cons entry entries =>
    have hpos : 0 < s.lastSeenEventId := by
      rcases h.ids with ⟨-, -, hnil⟩ | ⟨first, hfirst, hle, -⟩
      . rw [hpending] at hnil
        contradiction
      . omega
    exact h.scheduleReplay hpos hothers hidle

/-! Live messages -/

/--
The client keeps what it covers and the requests it waits for.
-/
structure Keeps (s s' : EventClient) (streamId : String) (latest : Nat) : Prop where
  steady : s'.Steady streamId latest
  replays : s'.Replays latest
  covered : ∀ eventId, s.Covered eventId → s'.Covered eventId
  requests : ∀ index loop, s.requesting index = some loop → s'.requesting index = some loop

theorem Keeps.trans (h : s.Keeps s' streamId latest) (h' : s'.Keeps s'' streamId latest)
    : s.Keeps s'' streamId latest where
  steady := h'.steady
  replays := h'.replays
  covered eventId hcovered := h'.covered eventId (h.covered eventId hcovered)
  requests index loop hloop := h'.requests index loop (h.requests index loop hloop)

theorem Replays.not_requesting (h : s.Replays latest) (hidle : s.replayInFlight = none) (index : Nat)
    : s.requesting index = none := by
  unfold requesting
  rw [Option.filter_eq_none_iff]
  intro loop hloop
  rcases h.others index loop hloop with hcurrent | hsettled
  . rw [hidle] at hcurrent
    contradiction
  . rw [hsettled]
    decide

theorem Replays.settled (h : s.Replays latest) (hidle : s.replayInFlight = none) (index : Nat)
    (loop : ReplayLoop) (hloop : s.replays[index]? = some loop)
    : loop.phase = .settled := by
  rcases h.others index loop hloop with hcurrent | hsettled
  . rw [hidle] at hcurrent
    contradiction
  . exact hsettled

/--
While a replay is in flight, the client waits for it.
-/
theorem Replays.keeps_of_advances (h : s.Replays latest) (hadvances : s.Advances s')
    (hsteady : s'.Steady streamId latest) (hlastSeen : s'.lastSeenEventId = s.lastSeenEventId)
    (hidle : s'.replayInFlight = none → s'.pendingEvents = [])
    : s.Keeps s' streamId latest := by
  refine ⟨hsteady, ⟨hidle, ?_, ?_⟩, hadvances.covered, ?_⟩
  . intro index hindex
    rw [hadvances.replayInFlight] at hindex
    rcases h.current index hindex with ⟨loop, hloop, hcourse⟩
    refine ⟨loop, ?_, ?_⟩
    . rw [hadvances.replays]
      exact hloop
    . unfold OnCourse at hcourse ⊢
      rw [hadvances.replayGeneration, hlastSeen]
      exact hcourse
  . intro index loop hloop
    rw [hadvances.replays] at hloop
    rw [hadvances.replayInFlight]
    exact h.others index loop hloop
  . intro index loop hloop
    unfold requesting at hloop ⊢
    rw [hadvances.replays]
    exact hloop

theorem Steady.keeps_scheduleConnectionReplay (h : s.Steady streamId latest) (hreplays : s.Replays latest)
    (method : String) (identityResult : StreamIdentityResult)
    : s.Keeps (s.scheduleConnectionReplay method identityResult) streamId latest := by
  have hsame : s.Keeps s streamId latest := ⟨h, hreplays, fun _ hcovered => hcovered, fun _ _ hloop => hloop⟩
  cases hidle : s.replayInFlight with
  | some index =>
    rw [scheduleConnectionReplay_of_inFlight (by rw [hidle]; rfl)]
    exact hsame
  | none =>
    unfold EventClient.scheduleConnectionReplay
    split
    . next hschedule =>
      have hpos : 0 < s.lastSeenEventId := by
        simpa [h.settled] using (Bool.and_eq_true_iff.mp hschedule).2
      have hscheduled := h.scheduleReplay hpos (hreplays.settled hidle) hidle
      refine ⟨hscheduled.1, hscheduled.2.1, hscheduled.2.2, ?_⟩
      intro index loop hloop
      rw [hreplays.not_requesting hidle] at hloop
      contradiction
    . exact hsame

/--
The first event that the client has seen is emitted at once.
-/
theorem Steady.emitFirst (h : s.Steady streamId latest) (hreplays : s.Replays latest)
    (hstream : s.streamId = some streamId) (hzero : s.lastSeenEventId = 0) {eventId : Nat}
    (hpos : 0 < eventId) (hle : eventId ≤ latest) (record : RpcNotification)
    : s.Keeps (s.emitNumberedEvent eventId record) streamId latest := by
  have hidle : s.replayInFlight = none := by
    rw [Option.eq_none_iff_forall_ne_some]
    intro index hindex
    rcases hreplays.current index hindex with ⟨loop, -, hcourse⟩
    have := hcourse.2.1
    omega
  have hnil := hreplays.idle hidle
  have hemitted : s.emittedIds = [] := by
    rcases h.ids with ⟨-, hemitted, -⟩ | ⟨first, hfirst, hle, -⟩
    . exact hemitted
    . omega
  have hids : (s.emitNumberedEvent eventId record).emittedIds = range' eventId (eventId + 1 - eventId) := by
    rw [emittedIds_emitNumberedEvent, hemitted, Nat.add_sub_cancel_left]
    rfl
  refine ⟨⟨h.connected, h.supported, h.settled, h.baseline, .inl hstream, ?_, ?_, ?_, hle⟩, ?_, ?_, ?_⟩
  . intro params hparams
    rcases mem_append.mp hparams with hparams | hparams
    . exact h.noSnapshot params hparams
    . rw [mem_singleton] at hparams
      contradiction
  . exact .inr ⟨eventId, hpos, Nat.le_refl _, hids⟩
  . intro entry hentry
    rw [show (s.emitNumberedEvent eventId record).pendingEvents = [] from hnil] at hentry
    contradiction
  . refine ⟨fun _ => hnil, ?_, ?_⟩
    . intro index hindex
      rw [show (s.emitNumberedEvent eventId record).replayInFlight = none from hidle] at hindex
      contradiction
    . intro index loop hloop
      exact .inr (hreplays.settled hidle index loop hloop)
  . intro other hother
    rcases hother with hseen | hpending
    . exact .inl (by rw [hzero] at hseen; omega)
    . unfold hasPending at hpending
      rw [hnil] at hpending
      contradiction
  . intro index loop hloop
    rw [hreplays.not_requesting hidle] at hloop
    contradiction

/--
A live event that is not the next one waits for a replay.
-/
theorem Steady.bufferLive (h : s.Steady streamId latest) (hreplays : s.Replays latest) {eventId : Nat}
    (hnew : ¬s.Covered eventId) (hpos : 0 < s.lastSeenEventId) (hle : eventId ≤ latest)
    (record : RpcNotification)
    : s.Keeps ({ s with pendingEvents := s.pendingEvents ++ [(eventId, record)] }.drainOrReplayPendingEvents
        false) streamId latest
      ∧ ({ s with pendingEvents := s.pendingEvents ++ [(eventId, record)] }.drainOrReplayPendingEvents
        false).Covered eventId := by
  have hbuffer := h.buffer record hnew hpos hle
  unfold drainOrReplayPendingEvents
  rw [if_neg Bool.false_ne_true]
  dsimp only
  split
  . next hinFlight =>
    refine ⟨hreplays.keeps_of_advances hbuffer.2.1 hbuffer.1 rfl ?_, hbuffer.2.2⟩
    intro hidle
    dsimp only at hidle
    rw [hidle] at hinFlight
    contradiction
  . next hinFlight =>
    have hidle := Option.not_isSome_iff_eq_none.mp hinFlight
    have hdrain := hbuffer.1.drainPendingEvents
    have hgap := hdrain.1.scheduleGapReplay hdrain.2.2 (hdrain.2.1.replayInFlight.trans hidle) (by
      intro index loop hloop
      rw [hdrain.2.1.replays] at hloop
      exact hreplays.settled hidle index loop hloop)
    have hcovered := hbuffer.2.1.trans hdrain.2.1
    refine ⟨⟨hgap.1, hgap.2.1, fun other hother => hgap.2.2 other (hcovered.covered other hother), ?_⟩,
      hgap.2.2 eventId (hdrain.2.1.covered eventId hbuffer.2.2)⟩
    intro index loop hloop
    rw [hreplays.not_requesting hidle] at hloop
    contradiction

/--
A live event is emitted, or waits for the replay that is in flight afterwards.
-/
theorem Steady.handleLive (h : s.Steady streamId latest) (hreplays : s.Replays latest)
    (hstreamId : streamId ≠ "") {record : RpcNotification} {eventId : Nat}
    (hevent : IsEvent streamId record eventId) (hle : eventId ≤ latest)
    : s.Keeps (s.handleNotificationRecord record false) streamId latest
      ∧ (s.handleNotificationRecord record false).Covered eventId := by
  rcases h.handle_eq hstreamId hevent false with ⟨protocolError, identityResult, hhandle⟩
  rw [hhandle]
  dsimp only
  have hidentified : s.Keeps { s with protocolError, streamId := some streamId } streamId latest :=
    hreplays.keeps_of_advances (advances_identified s _ _) (h.identified protocolError) rfl hreplays.idle
  generalize hs : { s with protocolError, streamId := some streamId } = identified at hidentified ⊢
  have hstream : identified.streamId = some streamId := by
    rw [← hs]
  by_cases hcovered : identified.Covered eventId
  . rw [deliver_of_covered hcovered, if_neg Bool.false_ne_true]
    exact ⟨hidentified, hcovered⟩
  . by_cases hzero : identified.lastSeenEventId = 0
    . have hdeliver : identified.deliverNumberedNotification record eventId false
          = (identified.emitNumberedEvent eventId record, true) := by
        unfold EventClient.deliverNumberedNotification
        rw [if_neg (not_covered_iff.mp hcovered), if_pos]
        rw [hzero, hidentified.steady.baseline]
        rfl
      rw [hdeliver, if_pos rfl]
      have hfirst := hidentified.steady.emitFirst hidentified.replays hstream hzero hevent.positive hle record
      have hschedule := hfirst.steady.keeps_scheduleConnectionReplay hfirst.replays record.method identityResult
      exact ⟨(hidentified.trans hfirst).trans hschedule, hschedule.covered eventId (.inl (Nat.le_refl _))⟩
    . have hpos := Nat.pos_of_ne_zero hzero
      have hbuffer := hidentified.steady.bufferLive hidentified.replays hcovered hpos hle record
      rw [hidentified.steady.deliver_of_new hcovered hpos hle, if_pos rfl]
      have hschedule := hbuffer.1.steady.keeps_scheduleConnectionReplay hbuffer.1.replays record.method
        identityResult
      exact ⟨(hidentified.trans hbuffer.1).trans hschedule, hschedule.covered eventId hbuffer.2⟩

theorem Steady.emitUnnumbered (h : s.Steady streamId latest) (hreplays : s.Replays latest)
    (event : RpcNotification)
    : s.Keeps (s.emitEvent (.unnumbered event)) streamId latest := by
  have hids : (s.emitEvent (.unnumbered event)).emittedIds = s.emittedIds := by
    change filterMap _ (s.emitted ++ [_]) = _
    rw [filterMap_append]
    exact append_nil _
  have hadvances : s.Advances (s.emitEvent (.unnumbered event)) :=
    ⟨fun _ hcovered => hcovered, Nat.le_refl _, rfl, rfl, rfl⟩
  refine hreplays.keeps_of_advances hadvances { h with noSnapshot := ?_, ids := ?_ } rfl hreplays.idle
  . intro params hparams
    rcases mem_append.mp hparams with hparams | hparams
    . exact h.noSnapshot params hparams
    . rw [mem_singleton] at hparams
      contradiction
  . rw [hids]
    exact h.ids

/--
A message without a number changes nothing but that a replay may be requested.
-/
theorem Steady.handleUnnumbered (h : s.Steady streamId latest) (hreplays : s.Replays latest)
    (hstreamId : streamId ≠ "") {method : String} (hmethod : method ≠ "")
    : s.Keeps (s.handleNotificationRecord
        { method, protocolVersion := some PROTOCOL_VERSION, streamId := some streamId } false) streamId latest := by
  rcases h.identify hstreamId with ⟨protocolError, hidentify⟩
  have hsupported : s.streamIdentity (some PROTOCOL_VERSION) (some streamId) ≠ .unsupported := by
    rcases h.streamIdentity hstreamId with ⟨hidentity, -⟩ | ⟨hidentity, -⟩
    . rw [hidentity]
      decide
    . rw [hidentity]
      decide
  unfold EventClient.handleNotificationRecord
  rw [if_neg hmethod, hidentify]
  dsimp only
  rw [if_neg hsupported]
  have hidentified : s.Keeps { s with protocolError, streamId := some streamId } streamId latest :=
    hreplays.keeps_of_advances (advances_identified s _ _) (h.identified protocolError) rfl hreplays.idle
  generalize { s with protocolError, streamId := some streamId } = identified at hidentified ⊢
  unfold EventClient.deliverNotification readEventId
  rw [Option.filter_none]
  dsimp only
  rw [if_pos rfl]
  have hemitted := hidentified.steady.emitUnnumbered hidentified.replays
    { method, protocolVersion := some PROTOCOL_VERSION, streamId := some streamId }
  exact (hidentified.trans hemitted).trans
    (hemitted.steady.keeps_scheduleConnectionReplay hemitted.replays method _)

/-! Answers -/

/--
A page of the stream that follows the cursor of the loop, as the bridge answers it.
-/
structure PageOf (streamId : String) (latest : Nat) (loop : ReplayLoop) (response : ReplayEventsResponse)
    (known : Nat) : Prop where
  version : response.protocolVersion = some PROTOCOL_VERSION
  stream : response.streamId = some streamId
  latestEventId : response.latestEventId = some known
  known_le : known ≤ latest
  cursor_le : loop.cursor ≤ known
  targets : ∀ target ∈ loop.targetEventId, target ≤ known
  earliest : ∀ earliest ∈ response.earliestEventId, earliest ≤ loop.cursor + 1
  retained : response.earliestEventId = none → known ≤ loop.cursor
  events : ∀ i record, response.events[i]? = some record → IsEvent streamId record (loop.cursor + 1 + i)
  length_le : loop.cursor + response.events.length ≤ known
  more : response.hasMore = true → response.events ≠ []
  last : response.hasMore = false → loop.cursor + response.events.length = known

theorem PageOf.mono {loop : ReplayLoop} {response : ReplayEventsResponse} {known : Nat}
    (h : PageOf streamId latest loop response known) {latest' : Nat} (hle : latest ≤ latest')
    : PageOf streamId latest' loop response known :=
  { h with known_le := Nat.le_trans h.known_le hle }

theorem PageOf.isEvent {loop : ReplayLoop} {response : ReplayEventsResponse} {known : Nat}
    (h : PageOf streamId latest loop response known)
    : ∀ record ∈ response.events, ∃ eventId, IsEvent streamId record eventId ∧ eventId ≤ latest := by
  intro record hrecord
  rcases mem_iff_getElem?.mp hrecord with ⟨i, hi⟩
  have hlt := (List.getElem?_eq_some_iff.mp hi).1
  have hlength := h.length_le
  have hknown := h.known_le
  exact ⟨_, h.events i record hi, by omega⟩

theorem PageOf.checkReplayPageIntegrity {loop : ReplayLoop} {response : ReplayEventsResponse} {known : Nat}
    (h : PageOf streamId latest loop response known)
    : checkReplayPageIntegrity loop.cursor response.earliestEventId response.latestEventId = none := by
  unfold EventClient.checkReplayPageIntegrity
  have hcursor := h.cursor_le
  rw [h.latestEventId, Option.any_some, Option.any_some]
  rw [if_neg (by simp; omega), if_neg, if_neg]
  . intro hnone
    rw [Bool.and_eq_true, Option.isNone_iff_eq_none, decide_eq_true_eq] at hnone
    have hretained := h.retained hnone.1
    omega
  . cases hearliest : response.earliestEventId with
    | none => exact Bool.false_ne_true
    | some earliest =>
      have hle := h.earliest earliest hearliest
      rw [Option.any_some, decide_eq_true_eq]
      omega

/--
A page brings the cursor to its end, if the client has not buffered all of its events already.
-/
theorem Steady.past (h : s.Steady streamId latest) (hstreamId : streamId ≠ "") {loop : ReplayLoop}
    {response : ReplayEventsResponse} {known : Nat} (hpage : PageOf streamId latest loop response known)
    (hcursor : loop.cursor = s.lastSeenEventId) (hpos : 0 < s.lastSeenEventId)
    (hinFlight : s.replayInFlight.isSome)
    (hprogress : response.events = [] ∨ ∃ record ∈ response.events, ∃ eventId,
      IsEvent streamId record eventId ∧ ¬s.Covered eventId)
    : loop.cursor + response.events.length ≤ (s.applyReplayEvents response.events).lastSeenEventId := by
  have happly := h.applyReplayEvents hstreamId hpage.isEvent hpos hinFlight
  rcases hprogress with hnil | ⟨record, hrecord, eventId, hevent, hnew⟩
  . rw [hnil, length_nil, Nat.add_zero, hcursor]
    exact Nat.le_refl _
  . rcases happly.2.2.2 with ⟨hcovered, -⟩ | hdrained
    . exact absurd (hcovered record hrecord eventId hevent) hnew
    . apply hdrained.past
      . rw [hcursor]
        exact happly.2.1.lastSeen_le
      . intro other hlt hle
        have hi : other - (loop.cursor + 1) < response.events.length := by omega
        have hget := List.getElem?_eq_getElem hi
        have hother := hpage.events _ _ hget
        rw [show loop.cursor + 1 + (other - (loop.cursor + 1)) = other by omega] at hother
        exact happly.2.2.1 _ (mem_of_getElem? hget) other hother

theorem phase_of_requesting {index : Nat} {loop : ReplayLoop} (hloop : s.requesting index = some loop)
    : loop.phase = .requesting := by
  unfold requesting at hloop
  rw [Option.filter_eq_some_iff, decide_eq_true_eq] at hloop
  exact hloop.2

theorem Replays.requesting_eq (h : s.Replays latest) {index : Nat} {loop : ReplayLoop}
    (hloop : s.requesting index = some loop)
    : s.replayInFlight = some index ∧ s.replays[index]? = some loop ∧ s.OnCourse latest loop
      ∧ loop.cursor = s.lastSeenEventId
      ∧ ∀ target ∈ loop.targetEventId, s.lastSeenEventId < target ∧ target ≤ latest := by
  unfold requesting at hloop
  rw [Option.filter_eq_some_iff, decide_eq_true_eq] at hloop
  rcases h.others index loop hloop.1 with hcurrent | hsettled
  . rcases h.current index hcurrent with ⟨loop', hloop', hcourse⟩
    have heq : loop' = loop := Option.some_inj.mp (hloop'.symm.trans hloop.1)
    subst heq
    rcases hcourse.2.2 with ⟨-, hcursor, htarget⟩ | hended
    . exact ⟨hcurrent, hloop.1, hcourse, hcursor, htarget⟩
    . rw [hended] at hloop
      nomatch hloop.2
  . rw [hsettled] at hloop
    nomatch hloop.2

/--
The loop in flight gets further.
-/
theorem Replays.setReplay (h : s.Replays latest) (hadvances : s.Advances s') {index : Nat}
    {loop loop' : ReplayLoop} (hcurrent : s.replayInFlight = some index) (hloop : s.replays[index]? = some loop)
    (hcourse : s'.OnCourse latest loop')
    : (s'.setReplay index loop').Replays latest := by
  have hlt := (List.getElem?_eq_some_iff.mp hloop).1
  refine ⟨?_, ?_, ?_⟩
  . intro hidle
    have hnone : s'.replayInFlight = none := hidle
    rw [hadvances.replayInFlight, hcurrent] at hnone
    contradiction
  . intro other hother
    have hsome : s'.replayInFlight = some other := hother
    rw [hadvances.replayInFlight, hcurrent] at hsome
    injection hsome with hsome
    subst hsome
    refine ⟨loop', ?_, hcourse⟩
    change (s'.replays.set index loop')[index]? = some loop'
    rw [hadvances.replays, getElem?_set_self hlt]
  . intro other loop'' hloop''
    change (s'.replays.set index loop')[other]? = some loop'' at hloop''
    change s'.replayInFlight = some other ∨ loop''.phase = .settled
    rw [hadvances.replays] at hloop''
    rw [hadvances.replayInFlight, hcurrent]
    by_cases hindex : index = other
    . exact .inl (congrArg some hindex)
    . rw [getElem?_set_ne hindex] at hloop''
      rcases h.others other loop'' hloop'' with hother | hsettled
      . rw [hcurrent] at hother
        exact .inl hother
      . exact .inr hsettled

/--
The cursor has got past the page: the loop goes on, or has reached its target.
-/
theorem Steady.takePage (h : s.Steady streamId latest) (hreplays : s.Replays latest) (hstreamId : streamId ≠ "")
    {index : Nat} {loop : ReplayLoop} {response : ReplayEventsResponse} {known : Nat}
    (hloop : s.requesting index = some loop) (hpage : PageOf streamId latest loop response known)
    (hprogress : response.events = [] ∨ ∃ record ∈ response.events, ∃ eventId,
      IsEvent streamId record eventId ∧ ¬s.Covered eventId)
    : ∃ loop', s.takePage index loop response = (s.applyReplayEvents response.events).setReplay index loop'
      ∧ (s.applyReplayEvents response.events).OnCourse latest loop' := by
  rcases hreplays.requesting_eq hloop with ⟨hcurrent, -, hcourse, hcursor, htargets⟩
  have hinFlight : s.replayInFlight.isSome := by
    rw [hcurrent]
    rfl
  have happly := h.applyReplayEvents hstreamId hpage.isEvent hcourse.2.1 hinFlight
  have hpast := h.past hstreamId hpage hcursor hcourse.2.1 hinFlight hprogress
  have hgeneration : loop.generation = (s.applyReplayEvents response.events).replayGeneration :=
    hcourse.1.trans happly.2.1.replayGeneration.symm
  have hpos := Nat.lt_of_lt_of_le hcourse.2.1 happly.2.1.lastSeen_le
  unfold EventClient.takePage
  dsimp only
  split
  . exact ⟨_, rfl, hgeneration, hpos, .inr rfl⟩
  . next hbehind =>
    have htarget : ∃ target, resolveReplayTargetEventId loop.targetEventId response.latestEventId
          (response.events.filterMap readEventId) = some target
        ∧ (s.applyReplayEvents response.events).lastSeenEventId < target ∧ target ≤ known := by
      unfold resolveReplayTargetEventId at hbehind ⊢
      rw [hpage.latestEventId] at hbehind ⊢
      cases htargetId : loop.targetEventId with
      | none =>
        rw [htargetId, Option.all_some, decide_eq_true_eq, Nat.not_le] at hbehind
        exact ⟨known, rfl, hbehind, Nat.le_refl _⟩
      | some target =>
        rw [htargetId, Option.all_some, decide_eq_true_eq, Nat.not_le] at hbehind
        exact ⟨target, rfl, hbehind, hpage.targets target htargetId⟩
    rcases htarget with ⟨target, htarget, hlt, hle⟩
    have hmore : response.hasMore = true := by
      cases hmore : response.hasMore with
      | true => rfl
      | false =>
        have hlast := hpage.last hmore
        omega
    have hnonempty := length_pos_of_ne_nil (hpage.more hmore)
    have hphase := phase_of_requesting hloop
    rw [if_neg]
    . refine ⟨_, rfl, hgeneration, hpos, .inl ⟨hphase, rfl, ?_⟩⟩
      intro other hother
      rw [htarget] at hother
      injection hother with hother
      subst hother
      exact ⟨hlt, Nat.le_trans hle hpage.known_le⟩
    . rw [hmore, Bool.not_true, Bool.false_or, decide_eq_true_eq]
      omega

theorem Steady.answerLoop (h : s.Steady streamId latest) (hreplays : s.Replays latest)
    (hstreamId : streamId ≠ "") {index : Nat} {loop : ReplayLoop} {response : ReplayEventsResponse} {known : Nat}
    (hloop : s.requesting index = some loop) (hpage : PageOf streamId latest loop response known)
    (hprogress : response.events = [] ∨ ∃ record ∈ response.events, ∃ eventId,
      IsEvent streamId record eventId ∧ ¬s.Covered eventId)
    : (s.answerLoop index loop response).Steady streamId latest
      ∧ (s.answerLoop index loop response).Replays latest
      ∧ (∀ eventId, s.Covered eventId → (s.answerLoop index loop response).Covered eventId)
      ∧ ∀ record ∈ response.events, ∀ eventId, IsEvent streamId record eventId →
          (s.answerLoop index loop response).Covered eventId := by
  rcases hreplays.requesting_eq hloop with ⟨hcurrent, hreplay, hcourse, -⟩
  rcases h.identify hstreamId with ⟨protocolError, hidentify⟩
  have hidentified : s.Keeps { s with protocolError, streamId := some streamId } streamId latest :=
    hreplays.keeps_of_advances (advances_identified s _ _) (h.identified protocolError) rfl hreplays.idle
  have hanswer : s.answerLoop index loop response
      = { s with protocolError, streamId := some streamId }.takePage index loop response := by
    unfold EventClient.answerLoop
    rw [if_neg (not_not.mpr hcourse.1), hpage.version, hpage.stream, hidentify]
    dsimp only
    rw [if_neg, hpage.checkReplayPageIntegrity]
    rcases h.streamIdentity hstreamId with ⟨hidentity, -⟩ | ⟨hidentity, -⟩
    . rw [hidentity]
      decide
    . rw [hidentity]
      decide
  rw [hanswer]
  have hprogress' : response.events = [] ∨ ∃ record ∈ response.events, ∃ eventId, IsEvent streamId record eventId
      ∧ ¬Covered { s with protocolError, streamId := some streamId } eventId := hprogress
  have hcourse' : OnCourse { s with protocolError, streamId := some streamId } latest loop := hcourse
  have hcurrent' : { s with protocolError, streamId := some streamId }.replayInFlight = some index := hcurrent
  have hreplay' : { s with protocolError, streamId := some streamId }.replays[index]? = some loop := hreplay
  have hcovered := hidentified.covered
  generalize { s with protocolError, streamId := some streamId } = identified at *
  have happly := hidentified.steady.applyReplayEvents hstreamId hpage.isEvent hcourse'.2.1 (by
    rw [hcurrent']
    rfl)
  rcases hidentified.steady.takePage hidentified.replays hstreamId (hidentified.requests index loop hloop) hpage
    hprogress' with ⟨loop', htake, hcourse''⟩
  rw [htake]
  refine ⟨{ happly.1 with }, hidentified.replays.setReplay happly.2.1 hcurrent' hreplay' hcourse'', ?_, ?_⟩
  . intro eventId heventId
    exact happly.2.1.covered eventId (hcovered eventId heventId)
  . exact happly.2.2.1

theorem Steady.settleLoop (h : s.Steady streamId latest) (hreplays : s.Replays latest) {index : Nat}
    {loop : ReplayLoop} {completed : Bool} (hloop : s.replays[index]? = some loop)
    (hended : loop.phase = .ended completed)
    : (s.settleLoop index loop completed).Steady streamId latest
      ∧ (s.settleLoop index loop completed).Replays latest
      ∧ ∀ eventId, s.Covered eventId → (s.settleLoop index loop completed).Covered eventId := by
  have hcurrent : s.replayInFlight = some index := by
    rcases hreplays.others index loop hloop with hcurrent | hsettled
    . exact hcurrent
    . rw [hended] at hsettled
      contradiction
  rcases hreplays.current index hcurrent with ⟨loop', hloop', hcourse⟩
  have heq : loop' = loop := Option.some_inj.mp (hloop'.symm.trans hloop)
  subst heq
  have hcompleted : completed = true := by
    rcases hcourse.2.2 with ⟨hrequesting, -⟩ | hended'
    . rw [hended] at hrequesting
      contradiction
    . rw [hended] at hended'
      injection hended'
  unfold EventClient.settleLoop
  dsimp only
  have hgeneration : loop'.generation
      = (s.setReplay index { loop' with phase := .settled }).replayGeneration := hcourse.1
  have hresumes : ¬(!completed || decide (loop'.generation
      ≠ (s.setReplay index { loop' with phase := .settled }).replayGeneration)) = true := by
    rw [hcompleted, Bool.not_true, Bool.false_or, decide_eq_true_eq]
    exact not_not.mpr hgeneration
  rw [if_neg (not_not.mpr hcurrent), if_neg hresumes]
  have hsettled : { s.setReplay index { loop' with phase := .settled } with replayInFlight := none }.Steady
      streamId latest := { h with }
  have hdrain := hsettled.drainPendingEvents
  have hgap := hdrain.1.scheduleGapReplay hdrain.2.2 hdrain.2.1.replayInFlight (by
    intro other loop'' hloop''
    rw [hdrain.2.1.replays] at hloop''
    change (s.replays.set index { loop' with phase := .settled })[other]? = some loop'' at hloop''
    by_cases hindex : index = other
    . subst hindex
      rw [getElem?_set_self (List.getElem?_eq_some_iff.mp hloop).1] at hloop''
      injection hloop'' with hloop''
      rw [← hloop'']
    . rw [getElem?_set_ne hindex] at hloop''
      rcases hreplays.others other loop'' hloop'' with hother | hphase
      . rw [hcurrent] at hother
        exact absurd (Option.some_inj.mp hother) hindex
      . exact hphase)
  refine ⟨hgap.1, hgap.2.1, ?_⟩
  intro eventId heventId
  exact hgap.2.2 eventId (hdrain.2.1.covered eventId heventId)

end EventClient

end Mobile
