import TetherBridge.Hub.Retention
import TetherBridge.Mobile.CatchUp

/-!
This module contains a mobile client and the hub of its bridge: events are published, and reach the client
live, in order or not at all, and in the answers to its replays. The client catches up without a recovery,
unless a page brings only events that it has buffered already.
-/

namespace Mobile

open Transition Hub List

/--
What the client reads of a notification of the hub.
-/
def RpcNotification.ofHub (message : BridgeNotification) : RpcNotification :=
  { method := message.method
    protocolVersion := some BRIDGE_PROTOCOL_VERSION
    streamId := some message.streamId
    eventId := some message.eventId }

structure EventFeed where
  hub : ClientHub
  client : EventClient
  /-- the last event that was delivered live -/
  lastLive : Nat := 0
  /-- what the hub has answered to the replays -/
  answers : List (Nat × HubReplaySnapshot) := []
  /-- the events that were delivered live or by a replay -/
  delivered : List Nat := []

inductive EventFeedLabel where
  | publish (method : String) (params : Json)
  | live (eventId : Nat)
  /-- the message about the connection, which asks for what was missed -/
  | connectionState
  /-- the hub answers the request of a loop -/
  | serve (loop : Nat)
  /-- and the client receives the answer -/
  | answer (loop : Nat)
  | settle (loop : Nat)

namespace EventFeed

variable (s : EventFeed)

/--
A hub, and a client that has just connected to it.
-/
def start (streamId : String) (capacity maxBytes : Nat) : EventFeed :=
  { hub := .new streamId capacity maxBytes, client := { connected := true } }

def published (eventId : Nat) : Option BridgeNotification :=
  (s.hub.publications.map (·.message)).find? fun message => message.eventId = eventId

def live (eventId : Nat) : Option EventFeed :=
  if s.lastLive < eventId then
    (s.published eventId).map fun message =>
      { s with
        client := s.client.handleNotificationRecord (.ofHub message) false
        lastLive := eventId
        delivered := s.delivered ++ [eventId] }
  else
    none

def connectionState : EventFeed :=
  { s with
    client := s.client.handleNotificationRecord
      { method := "bridge/connection/state"
        protocolVersion := some BRIDGE_PROTOCOL_VERSION
        streamId := some s.hub.streamId } false }

/--
Each request is answered once.
-/
def serve (index : Nat) : Option EventFeed :=
  match s.client.requesting index, s.answers.lookup index with
  | some loop, none =>
    some { s with
      answers := s.answers
        ++ [(index, s.hub.replayEvents (some loop.cursor) (some REPLAY_PAGE_LIMIT))] }
  | _, _ => none

def response (page : HubReplaySnapshot) : ReplayEventsResponse :=
  { protocolVersion := some BRIDGE_PROTOCOL_VERSION
    streamId := some s.hub.streamId
    events := page.events.map .ofHub
    hasMore := page.hasMore
    earliestEventId := page.earliestEventId
    latestEventId := some page.latestEventId }

def answer (index : Nat) : Option EventFeed :=
  match s.client.requesting index, s.answers.lookup index with
  | some loop, some page =>
    some { s with
      client := s.client.answerLoop index loop (s.response page)
      answers := s.answers.forget index
      delivered := s.delivered ++ page.events.map (·.eventId) }
  | _, _ => none

def step (s : EventFeed) : EventFeedLabel → Option EventFeed
  | .publish method params => (s.hub.publish method params).map fun hub => { s with hub }
  | .live eventId => s.live eventId
  | .connectionState => some s.connectionState
  | .serve index => s.serve index
  | .answer index => s.answer index
  | .settle index => (s.client.step (.settle index)).map fun client => { s with client }

/--
There was no recovery, and once no replay is in flight and all events from the first emitted one on were
delivered, each was emitted once, in order.
-/
def CaughtUp : Prop :=
  (∀ params, .snapshotRequired params ∉ s.client.emitted)
    ∧ ∀ first ∈ s.client.emittedIds.head?, s.client.replayInFlight = none →
      (∀ eventId, first ≤ eventId → eventId ≤ s.hub.latestEventId → eventId ∈ s.delivered) →
        s.client.emittedIds = range' first (s.hub.latestEventId + 1 - first)

/--
A page is empty, or brings an event that the client has neither emitted nor buffered.
-/
def Progresses (page : HubReplaySnapshot) : Prop :=
  page.events = [] ∨ ∃ message ∈ page.events, ¬s.client.Covered message.eventId

/--
Notifications are named and counted without an overflow, and the hub has kept all that the client asks for.
-/
def Kept (s : EventFeed) : EventFeedLabel → Prop
  | .publish method params => s.hub.Allowed (.publish method params) ∧ method ≠ ""
  | .serve index =>
    ∀ loop ∈ s.client.requesting index, ∀ earliest ∈ s.hub.notificationReplay.earliestEventId,
      earliest ≤ loop.cursor + 1
  | _ => True

/--
And no page comes too late.
-/
def Allowed (s : EventFeed) (label : EventFeedLabel) : Prop :=
  s.Kept label ∧ match label with
    | .answer index => ∀ page ∈ s.answers.lookup index, s.Progresses page
    | _ => True

structure Sound : Prop where
  hub : s.hub.Sound
  stream : s.hub.streamId ≠ ""
  messages : ∀ message ∈ s.hub.publications.map (·.message),
    message.method ≠ "" ∧ message.streamId = s.hub.streamId
  steady : s.client.Steady s.hub.streamId s.hub.latestPublishedEventId
  replays : s.client.Replays s.hub.latestPublishedEventId
  answers : ∀ entry ∈ s.answers, ∃ loop known, s.client.requesting entry.1 = some loop
    ∧ EventClient.PageOf s.hub.streamId s.hub.latestPublishedEventId loop (s.response entry.2) known
  delivered : ∀ eventId ∈ s.delivered, s.client.Covered eventId

variable {s} {s' : EventFeed}

theorem sound_start {streamId : String} {capacity maxBytes : Nat} (hstreamId : streamId ≠ "")
    (hcapacity : 0 < capacity) (hmaxBytes : NOTIFICATION_MAX_BYTES ≤ maxBytes)
    : (start streamId capacity maxBytes).Sound where
  hub := ClientHub.sound_new streamId hcapacity hmaxBytes
  stream := hstreamId
  messages _ h := absurd h not_mem_nil
  steady :=
    { connected := rfl
      supported := rfl
      settled := rfl
      baseline := rfl
      stream := .inr ⟨rfl, rfl⟩
      noSnapshot := fun _ => not_mem_nil
      ids := .inl ⟨rfl, rfl, rfl⟩
      pending := fun _ h => absurd h not_mem_nil
      lastSeen_le := Nat.le_refl _ }
  replays :=
    { idle := fun _ => rfl
      current := fun _ h => nomatch h
      others := fun _ _ h => nomatch h }
  answers _ h := absurd h not_mem_nil
  delivered _ h := absurd h not_mem_nil

theorem Sound.isEvent (h : s.Sound) {message : BridgeNotification}
    (hmessage : message ∈ s.hub.publications.map (·.message))
    : EventClient.IsEvent s.hub.streamId (.ofHub message) message.eventId where
  named := (h.messages message hmessage).1
  version := rfl
  stream := congrArg some (h.messages message hmessage).2
  numbered := rfl
  positive := by
    rcases mem_iff_getElem?.mp hmessage with ⟨i, hi⟩
    have hid : message.eventId = 1 + i := h.hub.published i message hi
    omega

theorem Sound.eventId_le (h : s.Sound) {message : BridgeNotification}
    (hmessage : message ∈ s.hub.publications.map (·.message))
    : message.eventId ≤ s.hub.latestPublishedEventId := by
  rcases mem_map.mp hmessage with ⟨publication, hpublication, rfl⟩
  exact h.hub.eventId_le hpublication

theorem Sound.caughtUp (h : s.Sound) : s.CaughtUp := by
  refine ⟨h.steady.noSnapshot, ?_⟩
  intro first hfirst hidle hdelivered
  change ∀ eventId, first ≤ eventId → eventId ≤ s.hub.latestPublishedEventId → eventId ∈ s.delivered at hdelivered
  change s.client.emittedIds = range' first (s.hub.latestPublishedEventId + 1 - first)
  rcases h.steady.ids with ⟨-, hnil, -⟩ | ⟨first', -, hle, hids⟩
  . rw [hnil] at hfirst
    contradiction
  . have heq : first' = first := by
      rw [hids, head?_range', if_neg (by omega)] at hfirst
      exact Option.some_inj.mp hfirst
    subst heq
    have hlatest := h.steady.lastSeen_le
    have hlast := hdelivered s.hub.latestPublishedEventId (Nat.le_trans hle hlatest) (Nat.le_refl _)
    have hseen : s.hub.latestPublishedEventId ≤ s.client.lastSeenEventId := by
      rcases h.delivered _ hlast with hseen | hpending
      . exact hseen
      . unfold EventClient.hasPending at hpending
        rw [h.replays.idle hidle] at hpending
        contradiction
    rw [hids, Nat.le_antisymm hlatest hseen]

/-! Steps -/

theorem Sound.publish (h : s.Sound) {method : String} {params : Json} {hub : ClientHub}
    (hallowed : s.Allowed (.publish method params)) (hhub : s.hub.publish method params = some hub)
    : { s with hub }.Sound := by
  have hsound := h.hub.publish hallowed.1.1 hhub
  unfold ClientHub.publish at hhub
  dsimp only at hhub
  rw [Option.map_eq_some_iff] at hhub
  rcases hhub with ⟨replay, -, hhub⟩
  have hstream : hub.streamId = s.hub.streamId := by
    rw [← hhub]
  have hlatest : hub.latestPublishedEventId = s.hub.latestPublishedEventId + 1 := by
    rw [← h.hub.next, ← hhub]
  have hle : s.hub.latestPublishedEventId ≤ hub.latestPublishedEventId := by
    rw [hlatest]
    exact Nat.le_succ _
  refine ⟨hsound, ?_, ?_, ?_, h.replays.mono hle, ?_, h.delivered⟩
  . change hub.streamId ≠ ""
    rw [hstream]
    exact h.stream
  . intro message hmessage
    change message ∈ hub.publications.map (·.message) at hmessage
    change message.method ≠ "" ∧ message.streamId = hub.streamId
    rw [← hhub, map_append, mem_append] at hmessage
    rw [hstream]
    rcases hmessage with hmessage | hmessage
    . exact h.messages message hmessage
    . rw [map_singleton, mem_singleton] at hmessage
      rw [hmessage]
      unfold BridgeNotification.bounded
      split
      . exact ⟨by simp [BridgeNotification.truncated], rfl⟩
      . exact ⟨hallowed.1.2, rfl⟩
  . change s.client.Steady hub.streamId hub.latestPublishedEventId
    rw [hstream]
    exact h.steady.mono hle
  . intro entry hentry
    rcases h.answers entry hentry with ⟨loop, known, hloop, hpage⟩
    have hpage := hpage.mono hle
    have hresponse : response { s with hub } entry.2 = s.response entry.2 := by
      unfold response
      dsimp only
      rw [hstream]
    refine ⟨loop, known, hloop, ?_⟩
    rw [hresponse]
    change EventClient.PageOf hub.streamId _ _ _ _
    rw [hstream]
    exact hpage

/--
The client goes on as before.
-/
theorem Sound.withClient (h : s.Sound) {client : EventClient}
    (hkeeps : s.client.Keeps client s.hub.streamId s.hub.latestPublishedEventId)
    : { s with client }.Sound where
  hub := h.hub
  stream := h.stream
  messages := h.messages
  steady := hkeeps.steady
  replays := hkeeps.replays
  answers entry hentry := by
    rcases h.answers entry hentry with ⟨loop, known, hloop, hpage⟩
    exact ⟨loop, known, hkeeps.requests _ _ hloop, hpage⟩
  delivered eventId heventId := hkeeps.covered eventId (h.delivered eventId heventId)

theorem Sound.live (h : s.Sound) {eventId : Nat} (hstep : s.live eventId = some s') : s'.Sound := by
  unfold EventFeed.live at hstep
  split at hstep
  . rw [Option.map_eq_some_iff] at hstep
    rcases hstep with ⟨message, hmessage, rfl⟩
    unfold published at hmessage
    have hid : message.eventId = eventId := by
      simpa using find?_some hmessage
    have hmem := mem_of_find?_eq_some hmessage
    have hlive := h.steady.handleLive h.replays h.stream (h.isEvent hmem) (h.eventId_le hmem)
    have hclient := h.withClient hlive.1
    refine { hclient with delivered := ?_ }
    intro other hother
    rcases mem_append.mp hother with hother | hother
    . exact hclient.delivered other hother
    . rw [mem_singleton] at hother
      rw [hother, ← hid]
      exact hlive.2
  . contradiction

theorem Sound.connectionState (h : s.Sound) : s.connectionState.Sound :=
  h.withClient (h.steady.handleUnnumbered h.replays h.stream (by decide))

/--
What the hub answers is a page that follows the cursor.
-/
theorem Sound.pageOf (h : s.Sound) {index : Nat} {loop : ReplayLoop}
    (hloop : s.client.requesting index = some loop)
    (hkept : ∀ earliest ∈ s.hub.notificationReplay.earliestEventId, earliest ≤ loop.cursor + 1)
    : EventClient.PageOf s.hub.streamId s.hub.latestPublishedEventId loop
        (s.response (s.hub.replayEvents (some loop.cursor) (some REPLAY_PAGE_LIMIT)))
        s.hub.latestPublishedEventId := by
  rcases h.replays.requesting_eq hloop with ⟨-, -, hcourse, hcursor, htargets⟩
  have hlastSeen := h.steady.lastSeen_le
  rcases h.hub.replayEvents_spec loop.cursor (some REPLAY_PAGE_LIMIT) hkept
    with ⟨hconsecutive, hlength, hmore, hlast⟩
  have hpublished := h.hub.replayEvents_subset (some loop.cursor) (some REPLAY_PAGE_LIMIT)
  exact
    { version := rfl
      stream := rfl
      latestEventId := rfl
      known_le := Nat.le_refl _
      cursor_le := by
        rw [hcursor]
        exact hlastSeen
      targets := fun target htarget => (htargets target htarget).2
      earliest := hkept
      retained := by
        intro hnone
        change s.hub.notificationReplay.entries.head?.map _ = none at hnone
        rw [Option.map_eq_none_iff, head?_eq_none_iff] at hnone
        by_contra hlt
        exact h.hub.nonempty (by omega) hnone
      events := by
        intro i record hrecord
        change ((s.hub.replayEvents _ _).events.map RpcNotification.ofHub)[i]? = some record at hrecord
        rw [getElem?_map, Option.map_eq_some_iff] at hrecord
        rcases hrecord with ⟨message, hmessage, rfl⟩
        have hevent := h.isEvent (hpublished (mem_of_getElem? hmessage))
        rw [← hconsecutive i message hmessage]
        exact hevent
      length_le := by
        change loop.cursor + ((s.hub.replayEvents _ _).events.map RpcNotification.ofHub).length ≤ _
        rw [length_map]
        omega
      more := by
        intro htrue hnil
        exact hmore htrue (map_eq_nil_iff.mp hnil)
      last := by
        intro hfalse
        have hall := hlast hfalse
        change loop.cursor + ((s.hub.replayEvents _ _).events.map RpcNotification.ofHub).length = _
        rw [length_map]
        omega }

theorem Sound.serve (h : s.Sound) {index : Nat} (hallowed : s.Allowed (.serve index))
    (hstep : s.serve index = some s')
    : s'.Sound := by
  unfold EventFeed.serve at hstep
  split at hstep
  . next loop hloop _ =>
    injection hstep with hstep
    subst hstep
    refine { h with answers := ?_ }
    intro entry hentry
    rcases mem_append.mp hentry with hentry | hentry
    . exact h.answers entry hentry
    . rw [mem_singleton] at hentry
      subst hentry
      exact ⟨loop, _, hloop, h.pageOf hloop (hallowed.1 loop hloop)⟩
  . contradiction

theorem Sound.answer (h : s.Sound) {index : Nat} (hallowed : s.Allowed (.answer index))
    (hstep : s.answer index = some s')
    : s'.Sound := by
  unfold EventFeed.answer at hstep
  split at hstep
  . next loop page hloop hanswer =>
    injection hstep with hstep
    subst hstep
    rcases h.answers _ (mem_of_lookup hanswer) with ⟨loop', known, hloop', hpage⟩
    have heq : loop' = loop := Option.some_inj.mp (hloop'.symm.trans hloop)
    subst heq
    have hevent : ∀ message ∈ page.events,
        EventClient.IsEvent s.hub.streamId (.ofHub message) message.eventId := by
      intro message hmessage
      rcases hpage.isEvent _ (mem_map_of_mem hmessage) with ⟨eventId, hevent, -⟩
      have hid : message.eventId = eventId := Option.some_inj.mp hevent.numbered
      rw [hid]
      exact hevent
    have hprogress : (s.response page).events = [] ∨ ∃ record ∈ (s.response page).events, ∃ eventId,
        EventClient.IsEvent s.hub.streamId record eventId ∧ ¬s.client.Covered eventId := by
      rcases hallowed.2 page hanswer with hnil | ⟨message, hmessage, hnew⟩
      . exact .inl (map_eq_nil_iff.mpr hnil)
      . exact .inr ⟨_, mem_map_of_mem hmessage, message.eventId, hevent message hmessage, hnew⟩
    rcases h.steady.answerLoop h.replays h.stream hloop hpage hprogress
      with ⟨hsteady, hreplays, hcovered, hevents⟩
    refine { h with steady := hsteady, replays := hreplays, answers := ?_, delivered := ?_ }
    . intro entry hentry
      have hentry := mem_forget.mp hentry
      rcases h.answers entry hentry.1 with ⟨other, -, hother, -⟩
      have hcurrent := (h.replays.requesting_eq hother).1
      rw [(h.replays.requesting_eq hloop).1] at hcurrent
      exact absurd (Option.some_inj.mp hcurrent).symm hentry.2
    . intro eventId heventId
      rcases mem_append.mp heventId with heventId | heventId
      . exact hcovered eventId (h.delivered eventId heventId)
      . rcases mem_map.mp heventId with ⟨message, hmessage, rfl⟩
        exact hevents _ (mem_map_of_mem hmessage) _ (hevent message hmessage)
  . contradiction

theorem Sound.settle (h : s.Sound) {index : Nat} {client : EventClient}
    (hstep : s.client.step (.settle index) = some client)
    : { s with client }.Sound := by
  unfold EventClient.step at hstep
  dsimp only at hstep
  split at hstep
  . next loop hloop =>
    split at hstep
    . next completed hended =>
      injection hstep with hstep
      subst hstep
      rcases h.steady.settleLoop h.replays hloop hended with ⟨hsteady, hreplays, hcovered⟩
      refine ⟨h.hub, h.stream, h.messages, hsteady, hreplays, ?_, ?_⟩
      . intro entry hentry
        rcases h.answers entry hentry with ⟨other, -, hother, -⟩
        rcases h.replays.requesting_eq hother with ⟨hcurrent, hreplay, -⟩
        have hrequesting := EventClient.phase_of_requesting hother
        rcases h.replays.others index loop hloop with hindex | hsettled
        . rw [hcurrent] at hindex
          injection hindex with hindex
          rw [hindex, hloop] at hreplay
          injection hreplay with hreplay
          rw [← hreplay, hended] at hrequesting
          contradiction
        . rw [hended] at hsettled
          contradiction
      . intro eventId heventId
        exact hcovered eventId (h.delivered eventId heventId)
    . contradiction
  . contradiction

theorem sound_step (h : s.Sound) (label : EventFeedLabel) (hallowed : s.Allowed label)
    (hstep : s.step label = some s')
    : s'.Sound := by
  cases label with
  | publish method params =>
    unfold EventFeed.step at hstep
    rw [Option.map_eq_some_iff] at hstep
    rcases hstep with ⟨hub, hhub, rfl⟩
    exact h.publish hallowed hhub
  | live eventId => exact h.live hstep
  | connectionState =>
    injection hstep with hstep
    exact hstep ▸ h.connectionState
  | serve index => exact h.serve hallowed hstep
  | answer index => exact h.answer hallowed hstep
  | settle index =>
    unfold EventFeed.step at hstep
    rw [Option.map_eq_some_iff] at hstep
    rcases hstep with ⟨client, hclient, rfl⟩
    exact h.settle hclient

/--
The client catches up, as long as no page comes too late.
-/
theorem caughtUp_of_exec {streamId : String} {capacity maxBytes : Nat} {labels : List EventFeedLabel}
    (hstreamId : streamId ≠ "") (hcapacity : 0 < capacity) (hmaxBytes : NOTIFICATION_MAX_BYTES ≤ maxBytes)
    (hmeets : Meets step Allowed (start streamId capacity maxBytes) labels)
    (hexec : exec step (start streamId capacity maxBytes) labels = some s)
    : s.CaughtUp := by
  have hsound : s.Sound := by
    apply exec_invariant (I := Sound) _ (sound_start hstreamId hcapacity hmaxBytes) hmeets hexec
    intro t label t' hinvariant hguard hstep
    exact sound_step hinvariant label hguard hstep
  exact hsound.caughtUp

instance (client : EventClient) (eventId : Nat) : Decidable (client.Covered eventId) :=
  inferInstanceAs (Decidable (_ ∨ _))

instance (s : EventFeed) (page : HubReplaySnapshot) : Decidable (s.Progresses page) :=
  inferInstanceAs (Decidable (_ ∨ _))

instance (s : EventFeed) (label : EventFeedLabel) : Decidable (s.Kept label) :=
  match label with
  | .publish .. => inferInstanceAs (Decidable (_ ∧ _))
  | .serve _ => inferInstanceAs (Decidable (∀ _ ∈ _, _))
  | .live _ | .connectionState | .answer _ | .settle _ => inferInstanceAs (Decidable True)

instance (s : EventFeed) (label : EventFeedLabel) : Decidable (s.Allowed label) :=
  match label with
  | .answer _ => inferInstanceAs (Decidable (_ ∧ ∀ _ ∈ _, _))
  | .publish .. | .live _ | .connectionState | .serve _ | .settle _ =>
    inferInstanceAs (Decidable (_ ∧ True))

/--
The second event is missed, and the page that brings it repeats the third.
-/
def gapReplayed : List EventFeedLabel :=
  [.connectionState, .publish "e" .null, .live 1, .publish "e" .null, .publish "e" .null, .live 3, .serve 0,
    .answer 0, .settle 0]

theorem caughtUp_of_gapReplayed
    : ∃ s, exec step (start "a" 8 NOTIFICATION_MAX_BYTES) gapReplayed = some s ∧ s.CaughtUp
        ∧ s.client.emittedIds = [1, 2, 3] := by
  have hmeets : Meets step Allowed (start "a" 8 NOTIFICATION_MAX_BYTES) gapReplayed := by decide +kernel
  have hexec : (exec step (start "a" 8 NOTIFICATION_MAX_BYTES) gapReplayed).map
      (fun s => s.client.emittedIds) = some [1, 2, 3] := by
    decide +kernel
  rw [Option.map_eq_some_iff] at hexec
  rcases hexec with ⟨s, hs, hids⟩
  exact ⟨s, hs, caughtUp_of_exec (by decide) (by decide) (Nat.le_refl _) hmeets hs, hids⟩

/--
The second event arrives while a replay is in flight, and is all that the page brings: it is not emitted,
and a snapshot is required.
-/
def repeatedInPage : List EventFeedLabel :=
  [.publish "e" .null, .live 1, .connectionState, .publish "e" .null, .live 2, .serve 0, .answer 0, .settle 0]

theorem not_caughtUp_of_repeatedInPage
    : Meets step Kept (start "a" 8 NOTIFICATION_MAX_BYTES) repeatedInPage
        ∧ ∃ s, exec step (start "a" 8 NOTIFICATION_MAX_BYTES) repeatedInPage = some s
          ∧ s.delivered = [1, 2, 2] ∧ s.client.emittedIds = [1] ∧ s.client.lastSeenEventId = 2
          ∧ ¬s.CaughtUp := by
  refine ⟨by decide +kernel, ?_⟩
  have hexec : (exec step (start "a" 8 NOTIFICATION_MAX_BYTES) repeatedInPage).map
      (fun s => (s.delivered, s.client.emittedIds, s.client.lastSeenEventId,
        decide (Emission.snapshotRequired
          { reason := .replayInconsistent, previousStreamId := some "a", lastDeliveredEventId := 1,
            resumeAfterEventId := 2, earliestEventId := some 1, latestEventId := some 2 } ∈ s.client.emitted)))
      = some ([1, 2, 2], [1], 2, true) := by
    decide +kernel
  rw [Option.map_eq_some_iff] at hexec
  rcases hexec with ⟨s, hs, hfacts⟩
  injection hfacts with hdelivered hfacts
  injection hfacts with hids hfacts
  injection hfacts with hlastSeen hemitted
  refine ⟨s, hs, hdelivered, hids, hlastSeen, ?_⟩
  intro hcaughtUp
  exact hcaughtUp.1 _ (of_decide_eq_true hemitted)

end EventFeed

end Mobile
