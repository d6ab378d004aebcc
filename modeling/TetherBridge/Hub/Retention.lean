import TetherBridge.Data.Text
import TetherBridge.Data.Window
import TetherBridge.Hub.Replay
import TetherBridge.Transition.Basic

/-!
This module contains what the hub keeps of its notifications: the buffer holds the last ones that were
published, a reader that pages through it gets each one once or sees that some are gone, and the queue of
a client is out of order only where two broadcasts overlap.
-/

namespace Hub

open Snapshot Transition

namespace NotificationReplay

/--
Eviction removes the oldest entries only, keeps both limits, and keeps the last entry if that one does.
-/
theorem evict_spec {capacity : Nat} (hcapacity : 0 < capacity) (maxBytes : Nat)
    (entries : List ReplayableNotification)
    : ∃ kept, evict capacity maxBytes entries (totalBytes entries) = some kept
        ∧ kept <:+ entries ∧ kept.length ≤ capacity ∧ totalBytes kept ≤ maxBytes
        ∧ ∀ entry ∈ entries.getLast?, entry.bytes ≤ maxBytes → kept ≠ [] := by
  induction entries with
  | nil =>
    refine ⟨[], ?_, List.suffix_rfl, Nat.zero_le _, Nat.zero_le _, ?_⟩
    . unfold evict
      rw [if_neg]
      exact Nat.not_lt_zero maxBytes
    . intro entry hentry
      contradiction
  | cons removed entries ih =>
    unfold evict
    split
    . next hover =>
      have htotal : totalBytes (removed :: entries) - removed.bytes = totalBytes entries := by
        unfold totalBytes
        rw [List.weigh_cons]
        omega
      rw [htotal]
      rcases ih with ⟨kept, hkept, hsuffix, hlength, hbytes, hlast⟩
      refine ⟨kept, hkept, hsuffix.trans (List.suffix_cons removed entries), hlength, hbytes, ?_⟩
      intro entry hentry hfits
      cases entries with
      | nil =>
        rw [List.getLast?_singleton, Option.mem_some_iff] at hentry
        unfold totalBytes at hover
        rw [List.weigh_cons, List.weigh_nil, List.length_singleton, hentry] at hover
        omega
      | cons next rest =>
        rw [List.getLast?_cons_cons] at hentry
        exact hlast entry hentry hfits
    . next hfits =>
      refine ⟨removed :: entries, rfl, List.suffix_rfl, ?_, ?_, ?_⟩
      . omega
      . omega
      . intro _ _ _
        exact List.cons_ne_nil removed entries

/--
A page is cut off the entries after the event id that was asked for, and it says whether any are left.
-/
theorem page_spec (after limit maxBytes : Nat) (entries : List ReplayableNotification)
    (count responseBytes : Nat)
    : ∃ taken rest, entries.filter (fun entry => after < entry.eventId) = taken ++ rest
        ∧ (page after limit maxBytes entries count responseBytes).1 = taken.map (·.payload)
        ∧ ((page after limit maxBytes entries count responseBytes).2.1 = true ↔ rest ≠ [])
        ∧ (taken = [] → ∀ entry ∈ rest.head?, limit ≤ count ∨ maxBytes < responseBytes + entry.bytes) := by
  induction entries generalizing count responseBytes with
  | nil => exact ⟨[], [], rfl, rfl, by simp [page], fun _ _ h => by contradiction⟩
  | cons entry entries ih =>
    unfold page
    rw [List.filter_cons]
    by_cases hle : entry.eventId ≤ after
    . rw [if_pos hle, if_neg (by simp; omega)]
      exact ih count responseBytes
    . rw [if_neg hle, if_pos (by simp; omega)]
      by_cases hcut : count ≥ limit ∨ responseBytes + entry.bytes > maxBytes
      . rw [if_pos hcut]
        refine ⟨[], entry :: entries.filter (fun entry => after < entry.eventId), rfl, rfl, ?_, ?_⟩
        . simp
        . intro _ other hother
          rw [List.head?_cons, Option.mem_some_iff] at hother
          rw [← hother]
          exact hcut
      . rw [if_neg hcut]
        rcases ih (count + 1) (responseBytes + entry.bytes) with ⟨taken, rest, hsplit, hevents, hmore, -⟩
        refine ⟨entry :: taken, rest, ?_, ?_, hmore, ?_⟩
        . rw [hsplit, List.cons_append]
        . dsimp only
          rw [hevents, List.map_cons]
        . intro hnil
          contradiction

end NotificationReplay

namespace BridgeNotification

@[simp]
theorem bounded_eventId (notification : BridgeNotification)
    : notification.bounded.eventId = notification.eventId := by
  unfold bounded
  split <;> rfl

/--
The replacement of a notification is short as long as the method and the stream id are.
-/
theorem truncated_bytes_le {notification : BridgeNotification}
    (hmethod : Json.stringBytes notification.method ≤ 1024)
    (hstreamId : Json.stringBytes notification.streamId ≤ 1024)
    (heventId : notification.eventId ≤ U64_MAX) (hbytes : notification.bytes ≤ ISIZE_MAX)
    : notification.truncated.bytes ≤ NOTIFICATION_MAX_BYTES := by
  have hdigits : ∀ {n : Nat}, n ≤ U64_MAX → (natJson n).bytes ≤ 20 := by
    intro n hn
    exact Text.utf8ByteSize_repr_le 19 n (by unfold U64_MAX at hn; omega)
  have horiginal : (natJson notification.bytes).bytes ≤ 20 :=
    hdigits (Nat.le_trans hbytes (by decide))
  have hid := hdigits heventId
  have hmaxBytes : (natJson NOTIFICATION_MAX_BYTES).bytes ≤ 20 := hdigits (by decide)
  have hversion : (natJson BRIDGE_PROTOCOL_VERSION).bytes ≤ 20 := hdigits (by decide)
  have hnames : Json.stringBytes "bridge/notification.truncated" ≤ 40
      ∧ Json.stringBytes "method" ≤ 40 ∧ Json.stringBytes "protocolVersion" ≤ 40
      ∧ Json.stringBytes "streamId" ≤ 40 ∧ Json.stringBytes "eventId" ≤ 40
      ∧ Json.stringBytes "params" ≤ 40 ∧ Json.stringBytes "originalMethod" ≤ 40
      ∧ Json.stringBytes "truncated" ≤ 40 ∧ Json.stringBytes "originalBytes" ≤ 40
      ∧ Json.stringBytes "maxBytes" ≤ 40 := by
    decide
  unfold BridgeNotification.bytes toJson truncated
  dsimp only
  generalize notification.bytes = originalBytes at horiginal
  simp only [Json.bytes, Json.fieldsBytes, if_true]
  unfold NOTIFICATION_MAX_BYTES
  unfold NOTIFICATION_MAX_BYTES at hmaxBytes
  omega

end BridgeNotification

namespace ClientHub

variable (s : ClientHub)

/--
The broadcast of `earlier` was not done when `later` was published.
-/
def Overlap (earlier later : Nat) : Prop :=
  ∃ publication ∈ s.publications,
    publication.message.eventId = later ∧ earlier ∈ publication.overlapping

/--
What the hub keeps: the last of the published notifications, within both limits; what a reader has
received so far, in as many pages at most as it has got further; and queues in which a notification comes
before an earlier one only if their broadcasts overlap.
-/
structure Retained : Prop where
  consecutive : (s.notificationReplay.entries.map (·.payload)).Consecutive (·.eventId)
    (s.latestPublishedEventId + 1 - s.notificationReplay.entries.length)
  suffix : s.notificationReplay.entries.map (·.payload) <:+ s.publications.map (·.message)
  length_le : s.notificationReplay.entries.length ≤ s.notificationReplay.capacity
  bytes_le : NotificationReplay.totalBytes s.notificationReplay.entries ≤ s.notificationReplay.maxBytes
  evicted : s.notificationReplay.evicted + s.notificationReplay.entries.length = s.publications.length
  received : ∀ pager ∈ s.pagers,
    pager.received.Consecutive (·.eventId) (pager.start + 1)
      ∧ pager.start + pager.received.length = pager.cursor
      ∧ pager.cursor ≤ max pager.start s.latestPublishedEventId
      ∧ pager.pages ≤ pager.received.length + pager.finished.toList.length
      ∧ ∀ latest, pager.finished = some latest → latest ≤ pager.cursor
  ordered : ∀ client queue, s.clients.lookup client = some queue →
    queue.Nodup ∧ queue.Pairwise fun first second => first < second ∨ s.Overlap second first

/--
The numbers do not run out, and the replacement of a notification that is too long is not too long.
-/
def Allowed (s : ClientHub) : HubLabel → Prop
  | .publish method params =>
    s.nextEventId < U64_MAX
      ∧ ({ method, streamId := s.streamId, eventId := s.nextEventId, params }
          : BridgeNotification).truncated.bytes ≤ NOTIFICATION_MAX_BYTES
  | _ => True

instance (s : ClientHub) (label : HubLabel) : Decidable (s.Allowed label) :=
  match label with
  | .publish _ _ => inferInstanceAs (Decidable (_ ∧ _))
  | .addClient | .removeClient _ | .beginSending _ | .send _ _ _ | .finish _ | .startPaging _ _
  | .page _ => inferInstanceAs (Decidable True)

theorem allowed_publish {method : String} {params : Json} (hnext : s.nextEventId < U64_MAX)
    (hmethod : Json.stringBytes method ≤ 1024) (hstreamId : Json.stringBytes s.streamId ≤ 1024)
    (hbytes : ({ method, streamId := s.streamId, eventId := s.nextEventId, params }
      : BridgeNotification).bytes ≤ ISIZE_MAX)
    : s.Allowed (.publish method params) :=
  ⟨hnext, BridgeNotification.truncated_bytes_le hmethod hstreamId (Nat.le_of_lt hnext) hbytes⟩

/--
A broadcast may still put its notification into the queue of the client.
-/
def MayReach (client : Nat) : Broadcast → Prop
  | .published _ => True
  | .sending _ clients _ => client ∈ clients
  | .done => False

structure Sound : Prop extends Retained s where
  capacity_pos : 0 < s.notificationReplay.capacity
  maxBytes_le : NOTIFICATION_MAX_BYTES ≤ s.notificationReplay.maxBytes
  next : s.nextEventId = s.latestPublishedEventId + 1
  published : (s.publications.map (·.message)).Consecutive (·.eventId) 1
  latest : s.publications.length = s.latestPublishedEventId
  entries : ∀ entry ∈ s.notificationReplay.entries,
    entry.eventId = entry.payload.eventId ∧ entry.bytes ≤ NOTIFICATION_MAX_BYTES
  nonempty : 0 < s.latestPublishedEventId → s.notificationReplay.entries ≠ []
  overlaps : ∀ earlier ∈ s.broadcasts.filterMap (·.unsent), ∀ publication ∈ s.publications,
    earlier < publication.message.eventId → earlier ∈ publication.overlapping
  unsent_nodup : (s.broadcasts.filterMap (·.unsent)).Nodup
  unsent : ∀ eventId ∈ s.broadcasts.filterMap (·.unsent),
    ∃ publication ∈ s.publications, publication.message.eventId = eventId
  queued : ∀ client queue, s.clients.lookup client = some queue →
    ∀ eventId ∈ queue, ∃ publication ∈ s.publications, publication.message.eventId = eventId
  targets : ∀ message clients stale, .sending message clients stale ∈ s.broadcasts → clients.Nodup
  fresh : ∀ (i : Nat) broadcast, s.broadcasts[i]? = some broadcast → ∀ client, MayReach client broadcast →
    ∀ queue, s.clients.lookup client = some queue → ∀ eventId ∈ broadcast.unsent, eventId ∉ queue

theorem sound_new (streamId : String) {capacity maxBytes : Nat} (hcapacity : 0 < capacity)
    (hmaxBytes : NOTIFICATION_MAX_BYTES ≤ maxBytes)
    : (new streamId capacity maxBytes).Sound where
  consecutive := List.consecutive_nil _
  suffix := List.suffix_rfl
  length_le := Nat.zero_le _
  bytes_le := Nat.zero_le _
  evicted := rfl
  received _ h := absurd h List.not_mem_nil
  ordered _ _ h := by
    contradiction
  capacity_pos := hcapacity
  maxBytes_le := hmaxBytes
  next := rfl
  published := List.consecutive_nil _
  latest := rfl
  entries _ h := absurd h List.not_mem_nil
  nonempty h := absurd h (Nat.lt_irrefl 0)
  overlaps _ h := absurd h List.not_mem_nil
  unsent_nodup := .nil
  unsent _ h := absurd h List.not_mem_nil
  queued _ _ h := by
    contradiction
  targets _ _ _ h := absurd h List.not_mem_nil
  fresh _ _ h := absurd (List.mem_of_getElem? h) List.not_mem_nil

variable {s} {s' : ClientHub}

theorem Sound.eventId_le (h : s.Sound) {publication : Publication} (hmem : publication ∈ s.publications)
    : publication.message.eventId ≤ s.latestPublishedEventId := by
  have hmessage := List.mem_map_of_mem (f := (·.message)) hmem
  rw [List.mem_iff_getElem?] at hmessage
  rcases hmessage with ⟨i, hi⟩
  have hlt := (List.getElem?_eq_some_iff.mp hi).1
  have hid := h.published i _ hi
  have hlatest := h.latest
  rw [List.length_map] at hlt
  dsimp only at hid
  omega

/-! Clients -/

theorem Sound.withClients (h : s.Sound) (nextClientId : Nat) {clients : Table Nat (List Nat)}
    (hclients : ∀ client queue, clients.lookup client = some queue →
      s.clients.lookup client = some queue ∨ queue = [])
    : ({ s with nextClientId, clients } : ClientHub).Sound := by
  refine { h with ordered := ?_, queued := ?_, fresh := ?_ }
  . intro client queue hqueue
    rcases hclients client queue hqueue with hold | hnil
    . exact h.ordered client queue hold
    . rw [hnil]
      exact ⟨.nil, .nil⟩
  . intro client queue hqueue eventId hmem
    rcases hclients client queue hqueue with hold | hnil
    . exact h.queued client queue hold eventId hmem
    . rw [hnil] at hmem
      contradiction
  . intro i broadcast hbroadcast client hreach queue hqueue eventId hunsent
    rcases hclients client queue hqueue with hold | hnil
    . exact h.fresh i broadcast hbroadcast client hreach queue hold eventId hunsent
    . rw [hnil]
      exact List.not_mem_nil

theorem Sound.addClient (h : s.Sound) (hstep : s.addClient = some s') : s'.Sound := by
  unfold ClientHub.addClient at hstep
  split at hstep
  . contradiction
  . injection hstep with hstep
    rw [← hstep]
    apply h.withClients
    intro client queue hqueue
    by_cases hclient : client = s.nextClientId
    . rw [hclient, AList.lookup_insert] at hqueue
      injection hqueue with hqueue
      exact .inr hqueue.symm
    . rw [AList.lookup_insert_ne hclient] at hqueue
      exact .inl hqueue

theorem lookup_of_lookup_erase {clients : Table Nat (List Nat)} {client other : Nat} {queue : List Nat}
    (h : AList.lookup client (clients.erase other) = some queue)
    : clients.lookup client = some queue := by
  by_cases hclient : client = other
  . rw [hclient, AList.lookup_erase] at h
    contradiction
  . rw [AList.lookup_erase_ne hclient] at h
    exact h

theorem lookup_of_lookup_foldl_erase {client : Nat} {queue : List Nat} (stale : List Nat)
    {clients : Table Nat (List Nat)}
    (h : AList.lookup client (stale.foldl (fun clients client => clients.erase client) clients)
      = some queue)
    : clients.lookup client = some queue := by
  induction stale generalizing clients with
  | nil => exact h
  | cons other stale ih => exact lookup_of_lookup_erase (ih h)

theorem Sound.removeClient (h : s.Sound) {client : Nat} (hstep : s.removeClient client = some s')
    : s'.Sound := by
  unfold ClientHub.removeClient at hstep
  split at hstep
  . contradiction
  . injection hstep with hstep
    rw [← hstep]
    apply h.withClients
    intro other queue hqueue
    exact .inl (lookup_of_lookup_erase hqueue)

/-! Broadcasts -/

theorem filterMap_set_of_eq {α β : Type} {f : α → Option β} {xs : List α} {i : Nat} {x y : α}
    (hx : xs[i]? = some x) (hy : f y = f x)
    : (xs.set i y).filterMap f = xs.filterMap f := by
  induction xs generalizing i with
  | nil => rfl
  | cons z xs ih =>
    cases i with
    | zero =>
      injection hx with hx
      rw [List.set_cons_zero, List.filterMap_cons, List.filterMap_cons, hy, hx]
    | succ i => rw [List.set_cons_succ, List.filterMap_cons, List.filterMap_cons, ih hx]

theorem filterMap_set_sublist {α β : Type} {f : α → Option β} (xs : List α) (i : Nat) {y : α}
    (hy : f y = none)
    : ((xs.set i y).filterMap f).Sublist (xs.filterMap f) := by
  induction xs generalizing i with
  | nil => exact .slnil
  | cons z xs ih =>
    cases i with
    | zero =>
      rw [List.set_cons_zero, List.filterMap_cons_none hy, List.filterMap_cons]
      cases f z with
      | none => exact List.Sublist.refl _
      | some b => exact List.sublist_cons_self b _
    | succ i =>
      rw [List.set_cons_succ, List.filterMap_cons, List.filterMap_cons]
      cases f z with
      | none => exact ih i
      | some b => exact (ih i).cons_cons b

theorem eq_of_filterMap_nodup {α β : Type} {f : α → Option β} {xs : List α} (h : (xs.filterMap f).Nodup)
    {i j : Nat} {x y : α} {b : β} (hi : xs[i]? = some x) (hj : xs[j]? = some y) (hx : f x = some b)
    (hy : f y = some b)
    : i = j := by
  induction xs generalizing i j with
  | nil => contradiction
  | cons z xs ih =>
    have hmem : ∀ {k : Nat} {w : α}, xs[k]? = some w → f w = some b → b ∈ xs.filterMap f := by
      intro k w hk hw
      rw [List.mem_filterMap]
      exact ⟨w, List.mem_of_getElem? hk, hw⟩
    cases i with
    | zero =>
      injection hi with hi
      rw [hi, List.filterMap_cons_some hx, List.nodup_cons] at h
      cases j with
      | zero => rfl
      | succ j => exact absurd (hmem hj hy) h.1
    | succ i =>
      cases j with
      | zero =>
        injection hj with hj
        rw [hj, List.filterMap_cons_some hy, List.nodup_cons] at h
        exact absurd (hmem hi hx) h.1
      | succ j =>
        rw [List.filterMap_cons] at h
        have hrest : (xs.filterMap f).Nodup := by
          split at h
          . exact h
          . exact (List.nodup_cons.mp h).2
        rw [ih hrest hi hj]

/--
A broadcast goes on to its next state: what it may still send and reach is what it could before.
-/
theorem Sound.setBroadcast (h : s.Sound) {index : Nat} {old new : Broadcast}
    (hold : s.broadcasts[index]? = some old) (hunsent : new.unsent = old.unsent ∨ new.unsent = none)
    (hreach : ∀ client, MayReach client new → MayReach client old)
    (htargets : ∀ message clients stale, new = .sending message clients stale → clients.Nodup)
    : (s.setBroadcast index new).Sound := by
  have hsublist : ((s.broadcasts.set index new).filterMap (·.unsent)).Sublist
      (s.broadcasts.filterMap (·.unsent)) := by
    rcases hunsent with hsame | hnone
    . rw [filterMap_set_of_eq hold hsame]
    . exact filterMap_set_sublist s.broadcasts index hnone
  refine { h with overlaps := ?_, unsent_nodup := ?_, unsent := ?_, targets := ?_, fresh := ?_ }
  . intro earlier hearlier
    exact h.overlaps earlier (hsublist.subset hearlier)
  . exact h.unsent_nodup.sublist hsublist
  . intro eventId hmem
    exact h.unsent eventId (hsublist.subset hmem)
  . intro message clients stale hmem
    rcases List.mem_or_eq_of_mem_set hmem with hmem | heq
    . exact h.targets message clients stale hmem
    . exact htargets message clients stale heq.symm
  . intro i broadcast hbroadcast client hclient queue hqueue eventId heventId
    unfold ClientHub.setBroadcast at hbroadcast
    rw [List.getElem?_set] at hbroadcast
    split at hbroadcast
    . split at hbroadcast
      . injection hbroadcast with hbroadcast
        rw [← hbroadcast] at hclient heventId
        rcases hunsent with hsame | hnone
        . rw [hsame] at heventId
          exact h.fresh index old hold client (hreach client hclient) queue hqueue eventId heventId
        . rw [hnone] at heventId
          contradiction
      . contradiction
    . exact h.fresh i broadcast hbroadcast client hclient queue hqueue eventId heventId

theorem Sound.beginSending (h : s.Sound) {index : Nat} (hstep : s.beginSending index = some s')
    : s'.Sound := by
  unfold ClientHub.beginSending at hstep
  split at hstep
  . next message hold =>
    injection hstep with hstep
    rw [← hstep]
    have hsame : (Broadcast.sending message s.clients.keys []).unsent
        = (Broadcast.published message).unsent := rfl
    apply h.setBroadcast hold (.inl hsame)
    . intro client _
      trivial
    . intro message' clients stale heq
      injection heq with _ hclients
      rw [← hclients]
      exact s.clients.keys_nodup
  . contradiction

theorem Sound.finish (h : s.Sound) {index : Nat} (hstep : s.finish index = some s') : s'.Sound := by
  unfold ClientHub.finish at hstep
  split at hstep
  . next message stale hold =>
    injection hstep with hstep
    rw [← hstep]
    have hdone : (s.setBroadcast index .done).Sound := by
      apply h.setBroadcast hold (.inr rfl)
      . intro client hclient
        contradiction
      . intro message' clients stale' heq
        contradiction
    apply hdone.withClients
    intro client queue hqueue
    exact .inl (lookup_of_lookup_foldl_erase stale hqueue)
  . contradiction

/--
A notification goes behind those that are in the queue. One of them that was published later has seen
this broadcast in progress.
-/
theorem Sound.enqueue (h : s.Sound) {index client : Nat} {message : BridgeNotification}
    {clients stale stale' : List Nat} (hold : s.broadcasts[index]? = some (.sending message clients stale))
    (hclient : client ∈ clients)
    : ((s.trySend client message.eventId .ok).setBroadcast index
        (.sending message (clients.erase client) stale')).Sound := by
  have hmem := List.mem_of_getElem? hold
  have hunsent : message.eventId ∈ s.broadcasts.filterMap (·.unsent) := by
    rw [List.mem_filterMap]
    exact ⟨_, hmem, rfl⟩
  have hpublished := h.unsent _ hunsent
  have hnodup := h.targets message clients stale hmem
  have hsame : (Broadcast.sending message (clients.erase client) stale').unsent
      = (Broadcast.sending message clients stale).unsent := rfl
  have hset : (s.setBroadcast index (.sending message (clients.erase client) stale')).Sound := by
    apply h.setBroadcast hold (.inl hsame)
    . intro other hother
      exact List.mem_of_mem_erase hother
    . intro message' clients' stale'' heq
      injection heq with _ hclients
      rw [← hclients]
      exact hnodup.erase client
  have hqueue : ∀ other queue,
      (s.trySend client message.eventId .ok).clients.lookup other = some queue →
        s.clients.lookup other = some queue
          ∨ other = client ∧ ∃ before, queue = before ++ [message.eventId]
            ∧ (s.clients.lookup client = some before ∨ before = []) := by
    intro other queue hlookup
    dsimp only [trySend] at hlookup
    by_cases hother : other = client
    . rw [hother, AList.lookup_insert] at hlookup
      injection hlookup with hlookup
      refine .inr ⟨hother, _, hlookup.symm, ?_⟩
      cases s.clients.lookup client with
      | none => exact .inr rfl
      | some before => exact .inl rfl
    . rw [AList.lookup_insert_ne hother] at hlookup
      exact .inl hlookup
  refine { hset with ordered := ?_, queued := ?_, fresh := ?_ }
  . intro other queue hlookup
    rcases hqueue other queue hlookup with hlookup | ⟨-, before, rfl, hbefore⟩
    . exact h.ordered other queue hlookup
    . rcases hbefore with hbefore | rfl
      . have hordered := h.ordered client before hbefore
        have hfresh := h.fresh index _ hold client hclient before hbefore message.eventId rfl
        rw [List.nodup_append, List.pairwise_append]
        refine ⟨⟨hordered.1, List.nodup_cons.mpr ⟨List.not_mem_nil, .nil⟩, ?_⟩, hordered.2,
          List.pairwise_singleton _ _, ?_⟩
        . intro first hfirst second hsecond heq
          rw [List.mem_singleton] at hsecond
          rw [heq, hsecond] at hfirst
          exact hfresh hfirst
        . intro first hfirst second hsecond
          rw [List.mem_singleton] at hsecond
          rw [hsecond]
          rcases Nat.lt_trichotomy first message.eventId with hlt | heq | hgt
          . exact .inl hlt
          . rw [heq] at hfirst
            exact absurd hfirst hfresh
          . right
            rcases h.queued client before hbefore first hfirst with ⟨publication, hpublication, hid⟩
            refine ⟨publication, hpublication, hid, ?_⟩
            apply h.overlaps _ hunsent publication hpublication
            omega
      . exact ⟨List.nodup_cons.mpr ⟨List.not_mem_nil, .nil⟩, List.pairwise_singleton _ _⟩
  . intro other queue hlookup eventId heventId
    rcases hqueue other queue hlookup with hlookup | ⟨-, before, rfl, hbefore⟩
    . exact h.queued other queue hlookup eventId heventId
    . rw [List.mem_append, List.mem_singleton] at heventId
      rcases heventId with heventId | rfl
      . rcases hbefore with hbefore | rfl
        . exact h.queued client before hbefore eventId heventId
        . contradiction
      . exact hpublished
  . intro i broadcast hbroadcast other hreach queue hlookup eventId heventId
    rcases hqueue other queue hlookup with hlookup | ⟨rfl, before, rfl, hbefore⟩
    . exact hset.fresh i broadcast hbroadcast other hreach queue hlookup eventId heventId
    . rw [List.mem_append, List.mem_singleton, not_or]
      constructor
      . rcases hbefore with hbefore | rfl
        . exact hset.fresh i broadcast hbroadcast other hreach before hbefore eventId heventId
        . exact List.not_mem_nil
      . intro heq
        rw [heq] at heventId
        change (s.broadcasts.set index _)[i]? = some broadcast at hbroadcast
        have hindex := eq_of_filterMap_nodup hset.unsent_nodup hbroadcast
          (j := index) (y := .sending message (clients.erase other) stale')
          (List.getElem?_set_self (List.getElem?_eq_some_iff.mp hold).1) heventId rfl
        rw [hindex, List.getElem?_set_self (List.getElem?_eq_some_iff.mp hold).1] at hbroadcast
        injection hbroadcast with hbroadcast
        rw [← hbroadcast] at hreach
        exact hnodup.not_mem_erase hreach

theorem Sound.send (h : s.Sound) {index client : Nat} {answer : TrySend}
    (hstep : s.send index client answer = some s')
    : s'.Sound := by
  unfold ClientHub.send at hstep
  split at hstep
  . next message clients stale hold =>
    split at hstep
    . next hclient =>
      injection hstep with hstep
      rw [← hstep]
      have hskip : ∀ stale', (s.setBroadcast index (.sending message (clients.erase client) stale')).Sound := by
        intro stale'
        have hsame : (Broadcast.sending message (clients.erase client) stale').unsent
            = (Broadcast.sending message clients stale).unsent := rfl
        apply h.setBroadcast hold (.inl hsame)
        . intro other hother
          exact List.mem_of_mem_erase hother
        . intro message' clients' stale'' heq
          injection heq with _ hclients
          rw [← hclients]
          exact (h.targets message clients stale (List.mem_of_getElem? hold)).erase client
      cases answer with
      | ok => exact h.enqueue hold hclient
      | full => exact { hskip stale with }
      | closed => exact hskip (client :: stale)
    . contradiction
  . contradiction

/-! Publishing -/

/--
A notification that may be published is stored behind the others.
-/
theorem Sound.push (h : s.Sound) {method : String} {params : Json} (hallowed : s.Allowed (.publish method params))
    {message : BridgeNotification}
    (hmessage : message
      = BridgeNotification.bounded { method, streamId := s.streamId, eventId := s.nextEventId, params })
    : ∃ kept dropped, s.notificationReplay.push s.nextEventId message message.bytes
          = some { s.notificationReplay with
              entries := kept
              evicted := s.notificationReplay.evicted + dropped.length }
        ∧ s.notificationReplay.entries
              ++ [{ eventId := s.nextEventId, payload := message, bytes := message.bytes }]
            = dropped ++ kept
        ∧ kept.length ≤ s.notificationReplay.capacity
        ∧ NotificationReplay.totalBytes kept ≤ s.notificationReplay.maxBytes
        ∧ kept ≠ [] ∧ message.bytes ≤ NOTIFICATION_MAX_BYTES := by
  have hfits : message.bytes ≤ NOTIFICATION_MAX_BYTES := by
    rw [hmessage]
    unfold BridgeNotification.bounded
    split
    . exact hallowed.2
    . omega
  have hmaxBytes := h.maxBytes_le
  have hcapacity := h.capacity_pos
  rcases NotificationReplay.evict_spec hcapacity s.notificationReplay.maxBytes
    (s.notificationReplay.entries
      ++ [{ eventId := s.nextEventId, payload := message, bytes := message.bytes }])
    with ⟨kept, hkept, ⟨dropped, hsplit⟩, hlength, hbytes, hlast⟩
  refine ⟨kept, dropped, ?_, hsplit.symm, hlength, hbytes, ?_, hfits⟩
  . unfold NotificationReplay.push
    rw [if_neg (by omega)]
    dsimp only
    rw [hkept]
    have hdropped := congrArg List.length hsplit
    rw [List.length_append] at hdropped
    rw [Option.map_some, ← hdropped, Nat.add_sub_cancel]
  . apply hlast _ List.getLast?_concat
    dsimp only
    omega

theorem Sound.publish (h : s.Sound) {method : String} {params : Json}
    (hallowed : s.Allowed (.publish method params)) (hstep : s.publish method params = some s')
    : s'.Sound := by
  have hpush := h.push hallowed rfl
  unfold ClientHub.publish at hstep
  dsimp only at hstep
  have hid : (BridgeNotification.bounded
      { method, streamId := s.streamId, eventId := s.nextEventId, params }).eventId
        = s.latestPublishedEventId + 1 := by
    rw [BridgeNotification.bounded_eventId]
    exact h.next
  generalize BridgeNotification.bounded
    { method, streamId := s.streamId, eventId := s.nextEventId, params } = message at hpush hstep hid
  rcases hpush with ⟨kept, dropped, hpush, hsplit, hlength, hbytes, hne, hfits⟩
  rw [hpush] at hstep
  injection hstep with hstep
  have hnext : wrappingNext s.nextEventId = s.nextEventId + 1 := by
    unfold wrappingNext
    have hlt := hallowed.1
    rw [if_neg (by omega)]
  have hold : ∀ eventId, (∃ publication ∈ s.publications, publication.message.eventId = eventId)
      → eventId ≤ s.latestPublishedEventId := by
    rintro eventId ⟨publication, hpublication, rfl⟩
    exact h.eventId_le hpublication
  have hunsent : (s.broadcasts ++ [Broadcast.published message]).filterMap (·.unsent)
      = s.broadcasts.filterMap (·.unsent) ++ [message.eventId] := by
    rw [List.filterMap_append]
    rfl
  have hpublished : ((s.publications ++ [(
      { message, overlapping := s.broadcasts.filterMap (·.unsent) } : Publication)]).map
        (·.message)).Consecutive (·.eventId) 1 := by
    rw [List.map_append]
    apply h.published.append_singleton
    rw [List.length_map, h.latest, hid]
    exact Nat.add_comm _ _
  have hsuffix : kept.map (·.payload) <:+ (s.publications ++ [(
      { message, overlapping := s.broadcasts.filterMap (·.unsent) } : Publication)]).map
        (·.message) := by
    rcases h.suffix with ⟨before, hbefore⟩
    refine ⟨before ++ dropped.map (·.payload), ?_⟩
    rw [List.append_assoc, ← List.map_append, ← hsplit, List.map_append, List.map_append,
      ← List.append_assoc, hbefore]
    rfl
  have hcount : kept.length + dropped.length = s.notificationReplay.entries.length + 1 := by
    have hlen := congrArg List.length hsplit
    rw [List.length_append, List.length_append, List.length_singleton] at hlen
    omega
  have hevicted := h.evicted
  have hlatest := h.latest
  rw [← hstep]
  constructor
  . constructor
    . rcases hsuffix with ⟨before, hbefore⟩
      rw [← hbefore] at hpublished
      have hlen := congrArg List.length hbefore
      simp only [List.length_append, List.length_map, List.length_singleton] at hlen
      have hstart : s.nextEventId + 1 - kept.length = 1 + before.length := by
        rw [h.next]
        omega
      rw [hstart]
      exact hpublished.append_right
    . exact hsuffix
    . exact hlength
    . exact hbytes
    . rw [List.length_append, List.length_singleton]
      dsimp only
      omega
    . intro pager hpager
      have hreceived := h.received pager hpager
      refine ⟨hreceived.1, hreceived.2.1, ?_, hreceived.2.2.2⟩
      have hcursor := hreceived.2.2.1
      have hnextEventId := h.next
      dsimp only
      omega
    . intro client queue hqueue
      have hordered := h.ordered client queue hqueue
      refine ⟨hordered.1, hordered.2.imp ?_⟩
      rintro first second (hlt | ⟨publication, hpublication, hoverlap⟩)
      . exact .inl hlt
      . exact .inr ⟨publication, List.mem_append_left _ hpublication, hoverlap⟩
  . exact h.capacity_pos
  . exact h.maxBytes_le
  . rw [hnext]
  . exact hpublished
  . rw [List.length_append, List.length_singleton, hlatest]
    exact h.next.symm
  . intro entry hentry
    have hmem := List.mem_append_right dropped hentry
    rw [← hsplit, List.mem_append, List.mem_singleton] at hmem
    rcases hmem with hmem | rfl
    . exact h.entries entry hmem
    . exact ⟨h.next.trans hid.symm, hfits⟩
  . intro _
    exact hne
  . intro earlier hearlier publication hpublication hlt
    rw [hunsent, List.mem_append, List.mem_singleton] at hearlier
    rw [List.mem_append, List.mem_singleton] at hpublication
    rcases hearlier with hearlier | rfl
    . rcases hpublication with hpublication | rfl
      . exact h.overlaps earlier hearlier publication hpublication hlt
      . exact hearlier
    . rcases hpublication with hpublication | rfl
      . have hle := h.eventId_le hpublication
        omega
      . exact absurd hlt (Nat.lt_irrefl _)
  . rw [hunsent, List.nodup_append]
    refine ⟨h.unsent_nodup, List.nodup_cons.mpr ⟨List.not_mem_nil, .nil⟩, ?_⟩
    intro earlier hearlier eventId hmem heq
    have hle := hold earlier (h.unsent earlier hearlier)
    rw [List.mem_singleton] at hmem
    omega
  . intro eventId hmem
    rw [hunsent, List.mem_append, List.mem_singleton] at hmem
    rcases hmem with hmem | rfl
    . rcases h.unsent eventId hmem with ⟨publication, hpublication, heq⟩
      exact ⟨publication, List.mem_append_left _ hpublication, heq⟩
    . exact ⟨_, List.mem_append_right _ (List.mem_singleton_self _), rfl⟩
  . intro client queue hqueue eventId hmem
    rcases h.queued client queue hqueue eventId hmem with ⟨publication, hpublication, heq⟩
    exact ⟨publication, List.mem_append_left _ hpublication, heq⟩
  . intro message' clients stale hmem
    rw [List.mem_append, List.mem_singleton] at hmem
    rcases hmem with hmem | heq
    . exact h.targets message' clients stale hmem
    . contradiction
  . intro i broadcast hbroadcast client hreach queue hqueue eventId hunsent
    have hmem := List.mem_of_getElem? hbroadcast
    dsimp only at hbroadcast
    rw [List.getElem?_append] at hbroadcast
    split at hbroadcast
    . exact h.fresh i broadcast hbroadcast client hreach queue hqueue eventId hunsent
    . rw [List.getElem?_singleton] at hbroadcast
      split at hbroadcast
      . injection hbroadcast with hbroadcast
        rw [← hbroadcast] at hunsent
        injection hunsent with hunsent
        intro hqueued
        have hle := hold eventId (h.queued client queue hqueue eventId hqueued)
        omega
      . contradiction

/-! Paging -/

theorem Sound.entries_consecutive (h : s.Sound)
    : s.notificationReplay.entries.Consecutive (·.eventId)
        (s.latestPublishedEventId + 1 - s.notificationReplay.entries.length) := by
  intro i entry hentry
  have hpayload : (s.notificationReplay.entries.map (·.payload))[i]? = some entry.payload := by
    rw [List.getElem?_map, hentry]
    rfl
  rw [← h.consecutive i entry.payload hpayload]
  exact (h.entries entry (List.mem_of_getElem? hentry)).1

theorem Sound.entries_length_le (h : s.Sound)
    : s.notificationReplay.entries.length ≤ s.latestPublishedEventId := by
  have hevicted := h.evicted
  have hlatest := h.latest
  omega

/--
The entries after a cursor, for a reader that has not lost any.
-/
theorem Sound.after_cursor (h : s.Sound) {cursor : Nat}
    (hlost : ∀ earliest ∈ s.notificationReplay.earliestEventId, earliest ≤ cursor + 1)
    : (s.notificationReplay.entries.filter fun entry => cursor < entry.eventId).Consecutive (·.eventId)
          (cursor + 1)
        ∧ (s.notificationReplay.entries.filter fun entry => cursor < entry.eventId).length
            = s.latestPublishedEventId - cursor := by
  have hconsecutive := h.entries_consecutive
  have hle := h.entries_length_le
  rw [hconsecutive.filter_lt]
  by_cases hnil : s.notificationReplay.entries = []
  . have hzero : ¬0 < s.latestPublishedEventId := fun hpos => h.nonempty hpos hnil
    rw [hnil, List.drop_nil]
    refine ⟨List.consecutive_nil _, ?_⟩
    rw [List.length_nil]
    omega
  . have hstart : s.latestPublishedEventId + 1 - s.notificationReplay.entries.length ≤ cursor + 1 := by
      rcases List.exists_cons_of_ne_nil hnil with ⟨entry, entries, heq⟩
      have hearliest : s.notificationReplay.earliestEventId = some entry.eventId := by
        unfold NotificationReplay.earliestEventId
        rw [heq]
        rfl
      have hentry := hlost entry.eventId hearliest
      have hhead := hconsecutive 0 entry (by rw [heq]; rfl)
      dsimp only at hhead
      omega
    generalize hdropped : cursor + 1
      - (s.latestPublishedEventId + 1 - s.notificationReplay.entries.length) = dropped
    constructor
    . by_cases hall : s.notificationReplay.entries.length ≤ dropped
      . rw [List.drop_eq_nil_of_le hall]
        exact List.consecutive_nil _
      . have hparts := List.take_append_drop dropped s.notificationReplay.entries
        rw [← hparts] at hconsecutive
        have hright := hconsecutive.append_right
        rw [hparts, List.length_take] at hright
        have hcursor : s.latestPublishedEventId + 1 - s.notificationReplay.entries.length
            + min dropped s.notificationReplay.entries.length = cursor + 1 := by
          omega
        rw [hcursor] at hright
        exact hright
    . rw [List.length_drop]
      omega

/--
What an answer contains: the notifications that come next, and at least one of them unless there are none.
-/
theorem Sound.replayEvents_spec (h : s.Sound) (cursor : Nat) (limit : Option Nat)
    (hlost : ∀ earliest ∈ s.notificationReplay.earliestEventId, earliest ≤ cursor + 1)
    : (s.replayEvents (some cursor) limit).events.Consecutive (·.eventId) (cursor + 1)
        ∧ (s.replayEvents (some cursor) limit).events.length ≤ s.latestPublishedEventId - cursor
        ∧ ((s.replayEvents (some cursor) limit).hasMore = true →
            (s.replayEvents (some cursor) limit).events ≠ [])
        ∧ ((s.replayEvents (some cursor) limit).hasMore = false →
            (s.replayEvents (some cursor) limit).events.length = s.latestPublishedEventId - cursor) := by
  have hafter := h.after_cursor hlost
  have hpage := NotificationReplay.page_spec cursor
    (max 1 (min (limit.getD 200) NOTIFICATION_REPLAY_MAX_LIMIT)) REPLAY_RESPONSE_MAX_BYTES
    s.notificationReplay.entries 0 0
  rcases hpage with ⟨taken, rest, hsplit, hevents, hmore, hprogress⟩
  have hentries : ∀ entry ∈ taken ++ rest, entry ∈ s.notificationReplay.entries := by
    intro entry hentry
    rw [← hsplit] at hentry
    exact List.mem_of_mem_filter hentry
  rw [hsplit, List.length_append] at hafter
  have hanswer : (s.replayEvents (some cursor) limit).events = taken.map (·.payload) := hevents
  have hhasMore : (s.replayEvents (some cursor) limit).hasMore = true ↔ rest ≠ [] := hmore
  rw [hanswer]
  refine ⟨?_, ?_, ?_, ?_⟩
  . intro i message hmessage
    rw [List.getElem?_map, Option.map_eq_some_iff] at hmessage
    rcases hmessage with ⟨entry, hentry, rfl⟩
    rw [← hafter.1.append_left i entry hentry]
    have hmem := List.mem_append_left rest (List.mem_of_getElem? hentry)
    exact (h.entries entry (hentries entry hmem)).1.symm
  . rw [List.length_map]
    omega
  . intro htrue hnil
    rw [List.map_eq_nil_iff] at hnil
    rcases List.exists_cons_of_ne_nil (hhasMore.mp htrue) with ⟨entry, others, hrest⟩
    have hbytes := (h.entries entry (hentries entry (by rw [hrest]; simp))).2
    rcases hprogress hnil entry (by rw [hrest]; rfl) with hlimit | hbudget
    . omega
    . unfold NOTIFICATION_MAX_BYTES at hbytes
      unfold REPLAY_RESPONSE_MAX_BYTES at hbudget
      omega
  . intro hfalse
    have hnil : rest = [] := by
      by_contra hne
      rw [hhasMore.mpr hne] at hfalse
      contradiction
    rw [hnil, List.length_nil] at hafter
    rw [List.length_map]
    exact hafter.2

theorem Sound.replayEvents_subset (h : s.Sound) (afterEventId limit : Option Nat)
    : (s.replayEvents afterEventId limit).events ⊆ s.publications.map (·.message) := by
  rcases NotificationReplay.page_spec (afterEventId.getD 0)
    (max 1 (min (limit.getD 200) NOTIFICATION_REPLAY_MAX_LIMIT)) REPLAY_RESPONSE_MAX_BYTES
    s.notificationReplay.entries 0 0 with ⟨taken, rest, hsplit, hevents, -⟩
  have hanswer : (s.replayEvents afterEventId limit).events = taken.map (·.payload) := hevents
  have hentries : taken ⊆ s.notificationReplay.entries := by
    intro entry hentry
    have hmem := List.mem_append_left rest hentry
    rw [← hsplit] at hmem
    exact List.mem_of_mem_filter hmem
  rw [hanswer]
  exact List.Subset.trans (List.map_subset _ hentries) h.suffix.subset

/--
The last one of consecutive elements.
-/
theorem getLast?_of_consecutive {start : Nat} {events : List BridgeNotification}
    (h : events.Consecutive (·.eventId) (start + 1))
    : (events.getLast?.map (·.eventId)).getD start = start + events.length := by
  rw [List.getLast?_eq_getElem?]
  cases hlast : events[events.length - 1]? with
  | none =>
    rw [List.getElem?_eq_none_iff] at hlast
    rw [Option.map_none, Option.getD_none]
    omega
  | some event =>
    have hid := h _ event hlast
    have hlt := (List.getElem?_eq_some_iff.mp hlast).1
    rw [Option.map_some, Option.getD_some]
    dsimp only at hid
    omega

theorem Sound.page (h : s.Sound) {index : Nat} (hstep : s.page index = some s') : s'.Sound := by
  unfold ClientHub.page at hstep
  split at hstep
  . next pager hpager =>
    split at hstep
    . next hgoesOn =>
      injection hstep with hstep
      rw [← hstep]
      rw [Bool.and_eq_true, Option.isNone_iff_eq_none] at hgoesOn
      have hold := h.received pager (List.mem_of_getElem? hpager)
      refine { h with received := ?_ }
      intro other hother
      dsimp only at hother
      rcases List.mem_or_eq_of_mem_set hother with hmem | rfl
      . exact h.received other hmem
      . unfold Pager.take
        split
        . exact hold
        . next hlost =>
          have hspec := h.replayEvents_spec pager.cursor (some pager.limit) (by
            intro earliest hearliest
            by_contra hgt
            apply hlost
            change s.notificationReplay.earliestEventId = some earliest at hearliest
            have hsame : (s.replayEvents (some pager.cursor) (some pager.limit)).earliestEventId
                = s.notificationReplay.earliestEventId := rfl
            rw [hsame, hearliest]
            simp
            omega)
          have hlatest : (s.replayEvents (some pager.cursor) (some pager.limit)).latestEventId
              = s.latestPublishedEventId := rfl
          generalize s.replayEvents (some pager.cursor) (some pager.limit) = answer at hspec hlatest
          rcases hold with ⟨hreceived, hcursor, hle, hpages, -⟩
          rcases hspec with ⟨hconsecutive, hlength, hprogress, hall⟩
          dsimp only
          rw [getLast?_of_consecutive hconsecutive, List.length_append]
          rw [hgoesOn.1, Option.toList_none, List.length_nil] at hpages
          refine ⟨?_, ?_, ?_, ?_, ?_⟩
          . apply hreceived.append
            have hnext : pager.start + 1 + pager.received.length = pager.cursor + 1 := by omega
            rw [hnext]
            exact hconsecutive
          . omega
          . omega
          . cases hmore : answer.hasMore with
            | true =>
              have hpos := List.length_pos_iff.mpr (hprogress hmore)
              rw [if_pos rfl, Option.toList_none, List.length_nil]
              omega
            | false =>
              rw [if_neg Bool.false_ne_true, Option.toList_some, List.length_singleton]
              omega
          . intro latest hfinished
            cases hmore : answer.hasMore with
            | true =>
              rw [hmore, if_pos rfl] at hfinished
              contradiction
            | false =>
              rw [hmore, if_neg Bool.false_ne_true, hlatest] at hfinished
              injection hfinished with hfinished
              have hlen := hall hmore
              omega
    . contradiction
  . contradiction

theorem Sound.startPaging (h : s.Sound) (cursor limit : Nat)
    : ({ s with pagers := s.pagers ++ [{ start := cursor, limit, cursor }] } : ClientHub).Sound := by
  refine { h with received := ?_ }
  intro pager hpager
  rw [List.mem_append, List.mem_singleton] at hpager
  rcases hpager with hpager | rfl
  . exact h.received pager hpager
  . refine ⟨List.consecutive_nil _, rfl, Nat.le_max_left _ _, Nat.zero_le _, ?_⟩
    intro latest hfinished
    contradiction

/-! Runs -/

theorem sound_step (s : ClientHub) (label : HubLabel) (s' : ClientHub) (h : s.Sound)
    (hallowed : s.Allowed label) (hstep : s.step label = some s')
    : s'.Sound := by
  cases label with
  | addClient => exact h.addClient hstep
  | removeClient client => exact h.removeClient hstep
  | publish method params => exact h.publish hallowed hstep
  | beginSending index => exact h.beginSending hstep
  | send index client answer => exact h.send hstep
  | finish index => exact h.finish hstep
  | startPaging cursor limit =>
    injection hstep with hstep
    rw [← hstep]
    exact h.startPaging cursor limit
  | page index => exact h.page hstep

/--
Publishing never fails: the buffer always has an entry to evict.
-/
theorem Sound.publish_isSome (h : s.Sound) {method : String} {params : Json}
    (hallowed : s.Allowed (.publish method params))
    : (s.publish method params).isSome := by
  rcases h.push hallowed rfl with ⟨kept, dropped, hpush, -⟩
  unfold ClientHub.publish
  dsimp only
  rw [hpush]
  rfl

theorem retained_of_exec {streamId : String} {capacity maxBytes : Nat} {labels : List HubLabel}
    {s : ClientHub} (hcapacity : 0 < capacity) (hmaxBytes : NOTIFICATION_MAX_BYTES ≤ maxBytes)
    (hallowed : Meets step Allowed (new streamId capacity maxBytes) labels)
    (hexec : exec step (new streamId capacity maxBytes) labels = some s)
    : s.Retained
        ∧ ∀ method params, s.Allowed (.publish method params) → (s.publish method params).isSome := by
  have hsound := exec_invariant sound_step (sound_new streamId hcapacity hmaxBytes) hallowed hexec
  exact ⟨hsound.toRetained, fun method params hpublish => hsound.publish_isSome hpublish⟩

/--
Two notifications for two clients, and a reader of both.
-/
def twoNotifications : List HubLabel :=
  [.addClient, .publish "a" .null, .addClient, .beginSending 0, .send 0 1 .ok, .publish "b" .null,
    .startPaging 0 1, .page 0, .send 0 2 .full, .finish 0, .beginSending 1, .send 1 2 .ok,
    .send 1 1 .closed, .page 0, .finish 1]

theorem retained_of_twoNotifications
    : ∃ s, exec step (new "stream" 2 NOTIFICATION_MAX_BYTES) twoNotifications = some s
        ∧ s.Retained
        ∧ ∀ method params, s.Allowed (.publish method params) → (s.publish method params).isSome := by
  have hexec : (exec step (new "stream" 2 NOTIFICATION_MAX_BYTES) twoNotifications).isSome := by
    rfl
  have hallowed : Meets step Allowed (new "stream" 2 NOTIFICATION_MAX_BYTES) twoNotifications := by
    decide
  rcases Option.isSome_iff_exists.mp hexec with ⟨s, hs⟩
  exact ⟨s, hs, retained_of_exec (by decide) (Nat.le_refl _) hallowed hs⟩

/--
The broadcast of the second notification takes the lock of the clients before that of the first one.
-/
def secondFirst : List HubLabel :=
  [.addClient, .publish "a" .null, .publish "b" .null, .beginSending 1, .send 1 1 .ok, .finish 1,
    .beginSending 0, .send 0 1 .ok]

theorem outOfOrder_of_secondFirst
    : ∃ s, exec step (new "stream" 2 NOTIFICATION_MAX_BYTES) secondFirst = some s
        ∧ ¬∀ client queue, s.clients.lookup client = some queue → queue.Pairwise (· < ·) := by
  refine ⟨_, rfl, ?_⟩
  intro hincreasing
  have hqueue := hincreasing 1 [2, 1] (by decide)
  contradiction

end ClientHub

end Hub
