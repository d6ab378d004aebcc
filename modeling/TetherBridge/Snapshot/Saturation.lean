import TetherBridge.Snapshot.Live

/-!
This module contains a session whose sequences run out: one that receives short messages never fails,
so that `next_sequence` reaches its maximum, from where on every entry of the timeline gets the same
sequence.
-/

namespace Snapshot

open Acp

/-! How long an entry of the history is -/

theorem Json.fieldsBytes_append (xs ys : List (String × Json))
    : Json.fieldsBytes (xs ++ ys) ≤ Json.fieldsBytes xs + 1 + Json.fieldsBytes ys := by
  induction xs with
  | nil =>
    simp only [List.nil_append, Json.fieldsBytes]
    omega
  | cons x xs ih =>
    cases xs with
    | nil =>
      cases ys with
      | nil => simp [Json.fieldsBytes]
      | cons y ys => simp [Json.fieldsBytes]
    | cons x' xs =>
      simp only [List.cons_append, Json.fieldsBytes] at ih ⊢
      omega

theorem Json.fieldsBytes_le_append_left (xs ys : List (String × Json))
    : Json.fieldsBytes xs ≤ Json.fieldsBytes (xs ++ ys) := by
  induction xs with
  | nil => exact Nat.zero_le _
  | cons x xs ih =>
    cases xs with
    | nil =>
      cases ys with
      | nil => exact Nat.le_refl _
      | cons y ys =>
        simp only [List.cons_append, List.nil_append, Json.fieldsBytes]
        omega
    | cons x' xs =>
      simp only [List.cons_append, Json.fieldsBytes] at ih ⊢
      omega

theorem Json.fieldsBytes_le_append_right (xs ys : List (String × Json))
    : Json.fieldsBytes ys ≤ Json.fieldsBytes (xs ++ ys) := by
  induction xs with
  | nil => exact Nat.le_refl _
  | cons x xs ih =>
    rw [List.cons_append]
    cases hrest : xs ++ ys with
    | nil =>
      rw [hrest] at ih
      exact Nat.le_trans ih (Nat.zero_le _)
    | cons x' rest =>
      rw [hrest] at ih
      simp only [Json.fieldsBytes]
      omega

theorem SnapshotHistoryEntry.bytes_withMessage (entry : SnapshotHistoryEntry)
    (message : SnapshotMessage)
    : ({ entry with message := some message } : SnapshotHistoryEntry).bytes
        ≤ 2 * entry.bytes + message.toJson.bytes + 12 := by
  simp only [bytes, toJson, Json.bytes, Option.map_some, Option.toList_some]
  generalize ([("sequence", natJson entry.sequence), ("kind", .string entry.kind.name),
    ("canonicalId", .string entry.canonicalId)] : List (String × Json)) = fields
  generalize (entry.message.map fun message => ("message", message.toJson)).toList = old
  generalize (entry.tool.map fun tool => ("tool", tool.toJson)).toList = tool
  have happend := Json.fieldsBytes_append (fields ++ [("message", message.toJson)]) tool
  have happend' := Json.fieldsBytes_append fields [("message", message.toJson)]
  have hfields := Json.fieldsBytes_le_append_left fields (old ++ tool)
  have htool := Json.fieldsBytes_le_append_right (fields ++ old) tool
  rw [← List.append_assoc] at hfields
  have hmessage : Json.fieldsBytes [("message", message.toJson)] = 10 + message.toJson.bytes := by
    have hkey : Json.stringBytes "message" = 9 := by decide
    simp only [Json.fieldsBytes, hkey]
  omega

/-! Short ids -/

/--
More ids than there are live messages.
-/
def shortIds : List String :=
  (List.range (MAX_MESSAGES + 1)).map toString

theorem nodup_shortIds : shortIds.Nodup := by
  decide +kernel

theorem stringBytes_le_of_mem_shortIds : ∀ id ∈ shortIds, Json.stringBytes id ≤ 5 := by
  decide +kernel

theorem exists_shortId {messages : List SnapshotMessage} (hlength : messages.length ≤ MAX_MESSAGES)
    : ∃ id ∈ shortIds, ∀ message ∈ messages, message.id ≠ id := by
  by_contra hnone
  push Not at hnone
  have hsubset : shortIds ⊆ messages.map (·.id) := by
    intro id hid
    rcases hnone id hid with ⟨message, hmessage, heq⟩
    rw [← heq]
    exact List.mem_map_of_mem hmessage
  have hle := (nodup_shortIds.subperm hsubset).length_le
  rw [List.length_map] at hle
  have : shortIds.length = MAX_MESSAGES + 1 := by simp [shortIds]
  omega

theorem bytes_newEntry {s : SessionSnapshot} (hle : s.nextSequence ≤ U64_MAX) {id : String}
    (hid : Json.stringBytes id ≤ 5)
    : (s.newEntry .message id).bytes ≤ 100 := by
  have hdigits : (toString s.nextSequence).utf8ByteSize ≤ 20 := by
    apply Text.utf8ByteSize_repr_le
    unfold U64_MAX at hle
    omega
  have hsequence : Json.stringBytes "sequence" = 10 := by decide
  have hkind : Json.stringBytes "kind" = 6 := by decide
  have hname : Json.stringBytes "message" = 9 := by decide
  have hcanonicalId : Json.stringBytes "canonicalId" = 13 := by decide
  simp only [SnapshotHistoryEntry.bytes, SnapshotHistoryEntry.toJson, SessionSnapshot.newEntry,
    Option.map_none, Option.toList_none, List.append_nil, Json.bytes, Json.fieldsBytes, natJson,
    SnapshotTimelineKind.name, hsequence, hkind, hname, hcanonicalId]
  omega

/--
An empty message of the agent.
-/
def emptyMessage (id : String) : SnapshotMessage :=
  { id, role := .agent, parts := [], truncated := false, usage := none }

theorem bytes_emptyMessage {id : String} (hid : Json.stringBytes id ≤ 5)
    : (emptyMessage id).toJson.bytes ≤ 100 := by
  have hkey : Json.stringBytes "id" = 4 := by decide
  have hrole : Json.stringBytes "role" = 6 := by decide
  have hagent : Json.stringBytes "agent" = 7 := by decide
  have hparts : Json.stringBytes "parts" = 7 := by decide
  have htruncated : Json.stringBytes "truncated" = 11 := by decide
  have husage : Json.stringBytes "usage" = 7 := by decide
  simp only [SnapshotMessage.toJson, emptyMessage, Json.bytes, Json.fieldsBytes, Json.valuesBytes,
    roleName, optionJson, hkey, hrole, hagent, hparts, htruncated, husage, Bool.false_eq_true,
    ↓reduceIte]
  omega

/-! Short messages never fail -/

theorem historyEntryBytes_succeeds {entry : SnapshotHistoryEntry} (h : entry.bytes ≤ ISIZE_MAX)
    : (historyEntryBytes entry).Yields (fun _ => True) (· = entry.bytes) := by
  have heq : historyEntryBytes entry = .ok entry.bytes := if_pos h
  rw [heq, Except.yields_ok]

theorem BoundedAt.bytes_entry_le {history : List SnapshotHistoryEntry}
    {historyBytes unavailableCount nextSequence : Nat}
    (h : BoundedAt history historyBytes unavailableCount nextSequence)
    : ∀ entry ∈ history, entry.bytes ≤ MAX_HISTORY_BYTES := by
  intro entry hentry
  have hle := List.le_weigh_of_mem (w := SnapshotHistoryEntry.bytes) hentry
  have hbytes := h.bytes
  have hbytes_le := h.bytes_le
  omega

namespace SessionSnapshot

theorem evictHistory_succeeds {history : List SnapshotHistoryEntry}
    {historyBytes unavailableCount : Nat}
    (hbytes : historyBytes = List.weigh SnapshotHistoryEntry.bytes history)
    (hle : ∀ entry ∈ history, entry.bytes ≤ ISIZE_MAX)
    : (evictHistory history historyBytes unavailableCount).Yields (fun _ => True)
        fun _ => True := by
  induction history generalizing historyBytes unavailableCount with
  | nil =>
    unfold evictHistory
    rw [hbytes, List.weigh_nil, if_neg (by decide)]
    simp
  | cons removed history ih =>
    unfold evictHistory
    split
    . apply Except.Yields.bind (historyEntryBytes_succeeds (hle removed List.mem_cons_self))
      intro removedBytes hremoved
      apply ih
      . rw [hbytes, hremoved, List.weigh_cons]
        omega
      . intro entry hentry
        exact hle entry (List.mem_cons_of_mem removed hentry)
    . simp

theorem enforceHistoryBounds_succeeds {s : SessionSnapshot}
    (hbytes : s.historyBytes = List.weigh SnapshotHistoryEntry.bytes s.history)
    (hle : ∀ entry ∈ s.history, entry.bytes ≤ ISIZE_MAX)
    : s.enforceHistoryBounds.Yields (fun _ => True) fun _ => True := by
  unfold enforceHistoryBounds
  apply Except.Yields.bind (evictHistory_succeeds hbytes hle)
  simp

theorem pushTimeline_succeeds {s : SessionSnapshot} (h : s.Bounded) {kind : SnapshotTimelineKind}
    {id : String} (hentry : (s.newEntry kind id).bytes ≤ ISIZE_MAX)
    : (s.pushTimeline kind id).Yields (fun _ => True) fun _ => True := by
  have hmax : MAX_HISTORY_BYTES ≤ ISIZE_MAX := by decide
  unfold pushTimeline pushHistory
  apply Except.Yields.bind (historyEntryBytes_succeeds hentry)
  intro bytes hbytes
  apply enforceHistoryBounds_succeeds
  . have hsequence : (s.newEntry kind id).sequence = s.nextSequence := rfl
    have hpush := (h.push hsequence hentry).bytes
    rw [hbytes]
    simp only [countTimelineEntry_history, countTimelineEntry_historyBytes]
    exact hpush
  . intro entry hmem
    simp only [countTimelineEntry_history, List.mem_append, List.mem_singleton] at hmem
    cases hmem with
    | inl hold =>
      have := h.bytes_entry_le entry hold
      omega
    | inr hnew =>
      rw [hnew]
      exact hentry

theorem updateHistoryMessage_succeeds {s : SessionSnapshot} (h : s.Bounded)
    {message : SnapshotMessage} (hmessage : message.toJson.bytes ≤ MAX_HISTORY_BYTES)
    : (s.updateHistoryMessage message).Yields (fun _ => True) fun _ => True := by
  have hmax : 3 * MAX_HISTORY_BYTES + 12 ≤ ISIZE_MAX := by decide
  unfold updateHistoryMessage
  split
  . next index hidx =>
    have hindex := (historyMessageIdx_eq_some hidx).1
    have hmem : s.history[index] ∈ s.history := List.getElem_mem hindex
    have hentry : s.history[index]? = some s.history[index] := List.getElem?_eq_getElem hindex
    have hold := h.bytes_entry_le _ hmem
    have hnew := SnapshotHistoryEntry.bytes_withMessage s.history[index] message
    have hnew_le : ({ s.history[index] with message := some message } : SnapshotHistoryEntry).bytes
        ≤ ISIZE_MAX := Nat.le_trans hnew (by omega)
    have hsequence : ({ s.history[index] with message := some message }
        : SnapshotHistoryEntry).sequence = s.history[index].sequence := rfl
    unfold mutateHistoryEntryAt
    rw [hentry]
    dsimp only
    apply Except.Yields.bind (historyEntryBytes_succeeds (by omega))
    intro oldBytes holdBytes
    apply Except.Yields.bind (historyEntryBytes_succeeds hnew_le)
    intro newBytes hnewBytes
    apply enforceHistoryBounds_succeeds
    . rw [holdBytes, hnewBytes]
      exact (h.replace hentry hsequence hnew_le).bytes
    . intro entry hset
      cases List.mem_or_eq_of_mem_set hset with
      | inl hmem =>
        have := h.bytes_entry_le entry hmem
        omega
      | inr heq =>
        rw [heq]
        exact hnew_le
  . simp

theorem updateHistoryMessage_frame (s : SessionSnapshot) (message : SnapshotMessage)
    : (s.updateHistoryMessage message).Yields (fun _ => False) fun t =>
        t.messages = s.messages ∧ t.timeline = s.timeline ∧ t.nextSequence = s.nextSequence := by
  unfold updateHistoryMessage
  split
  . apply Except.Yields.mono (mutateHistoryEntryAt_evicts _ _ _).anyError
    rintro t ⟨gone, historyBytes, unavailableCount, rfl⟩
    exact ⟨rfl, rfl, rfl⟩
  . exact ⟨rfl, rfl, rfl⟩

/--
`t` is `s` with another message at the end.
-/
structure Appends (s : SessionSnapshot) (id : String) (t : SessionSnapshot) : Prop where
  messages : t.messages = s.messages ++ [emptyMessage id]
  timeline : t.timeline
    = s.timeline ++ [{ sequence := s.nextSequence, kind := .message, canonicalId := id }]
  nextSequence : t.nextSequence = saturatingAdd U64_MAX s.nextSequence 1

variable {isTool : String → Prop}

theorem insertMessage_succeeds {s : SessionSnapshot} (h : s.Live isTool)
    (hroom : s.messages.length < MAX_MESSAGES) (hle : s.nextSequence ≤ U64_MAX) {id : String}
    (hid : Json.stringBytes id ≤ 5)
    : (s.insertMessage id .agent "" none).Yields (fun _ => True) (s.Appends id) := by
  unfold insertMessage
  have hlength := h.length_timeline_le
  have htimeline : s.timeline.length < MAX_TIMELINE_ENTRIES := by
    unfold MAX_TIMELINE_ENTRIES
    omega
  have hentry : (s.newEntry .message id).bytes ≤ ISIZE_MAX := by
    have := bytes_newEntry hle hid
    have : 100 ≤ ISIZE_MAX := by decide
    omega
  apply Except.Yields.bind ((pushTimeline_succeeds h.bounded hentry).and
    ((pushTimeline_shows htimeline .message id).and (pushTimeline_keeps h.bounded .message id)))
  rintro t ⟨-, hshows, hbounded⟩
  have hmessage : (emptyMessage id).toJson.bytes ≤ MAX_HISTORY_BYTES :=
    Nat.le_trans (bytes_emptyMessage hid) (by decide)
  have hbounded' : ({ t with messages := t.messages ++ [emptyMessage id] } : SessionSnapshot).Bounded :=
    hbounded
  apply Except.Yields.mono ((updateHistoryMessage_succeeds hbounded' hmessage).and
    (updateHistoryMessage_frame _ (emptyMessage id)))
  rintro u ⟨-, hmessages, htimeline, hnext⟩
  constructor
  . rw [hmessages, hshows.messages]
  . rw [htimeline, hshows.timeline_eq]
  . rw [hnext, hshows.nextSequence]

theorem makeRoomForMessage_nextSequence {s room : SessionSnapshot}
    (hroom : s.makeRoomForMessage = .ok room)
    : room.nextSequence = s.nextSequence := by
  unfold makeRoomForMessage at hroom
  split at hroom
  . split at hroom
    . contradiction
    . rw [← Except.ok.inj hroom]
  . rw [← Except.ok.inj hroom]

/--
The newest message is not the one that makes room.
-/
theorem makeRoomForMessage_keepsLast {s room : SessionSnapshot} (h : s.Live isTool)
    {messages : List SnapshotMessage} {message : SnapshotMessage}
    (hmessages : s.messages = messages ++ [message]) {shown : SnapshotTimelineEntry}
    (hshown : shown ∈ s.timeline) (hid : shown.canonicalId = message.id)
    (hroom : s.makeRoomForMessage = .ok room)
    : shown ∈ room.timeline := by
  have hnodup := h.shown.messageIds
  unfold makeRoomForMessage at hroom
  split at hroom
  . next hfull =>
    split at hroom
    . contradiction
    . next removed rest heq =>
      rw [← Except.ok.inj hroom, List.mem_filter, bne_iff_ne, hid]
      refine ⟨hshown, ?_⟩
      cases messages with
      | nil =>
        rw [hmessages] at hfull
        exact absurd hfull (by simp [MAX_MESSAGES])
      | cons first messages =>
        rw [hmessages, List.cons_append] at heq hnodup
        have hfirst : first = removed := (List.cons.inj heq).1
        rw [List.map_cons, List.nodup_cons] at hnodup
        rw [← hfirst]
        intro hsame
        apply hnodup.1
        rw [← hsame]
        exact List.mem_map_of_mem (List.mem_append_right messages (List.mem_singleton_self _))
  . rw [← Except.ok.inj hroom]
    exact hshown

theorem appendMessage_succeeds {s : SessionSnapshot} (h : s.Live isTool)
    (hle : s.nextSequence ≤ U64_MAX) {id : String} (hid : Json.stringBytes id ≤ 5)
    (hnew : ∀ message ∈ s.messages, message.id ≠ id)
    : (s.appendMessage id .agent "" none).Yields (fun _ => True) fun t =>
        ∃ room, s.makeRoomForMessage = .ok room ∧ room.Appends id t := by
  have hfind : s.messages.find? (·.id == id) = none := by
    rw [List.find?_eq_none]
    intro message hmessage
    rw [beq_iff_eq]
    exact hnew message hmessage
  unfold appendMessage
  rw [hfind]
  dsimp only
  have hlive := makeRoomForMessage_live h
  cases hroom : s.makeRoomForMessage with
  | error e =>
    unfold makeRoomForMessage at hroom
    split at hroom
    . next hfull =>
      split at hroom
      . next hnil =>
        rw [hnil] at hfull
        contradiction
      . contradiction
    . contradiction
  | ok room =>
    rw [hroom] at hlive
    have hnext := makeRoomForMessage_nextSequence hroom
    apply Except.Yields.mono
      (insertMessage_succeeds hlive.1 hlive.2.1 (by rw [hnext]; exact hle) hid)
    intro t ht
    exact ⟨room, rfl, ht⟩

end SessionSnapshot

/-! Running out of sequences -/

def Operation.empty (id : String) : Operation :=
  .apply (.messageChunk "agent" "thread" none none none .agent id "" none)

theorem Operation.empty_respects (id : String) : (Operation.empty id).Respects fun _ => False := by
  simp [Operation.empty, Operation.Respects, CanonicalEvent.toolCallId?]

/--
A further message can always be received.
-/
theorem ReachableWith.receives {s : SessionSnapshot} (h : ReachableWith (fun _ => False) s)
    (hle : s.nextSequence ≤ U64_MAX)
    : ∃ id t room, ReachableWith (fun _ => False) t ∧ s.makeRoomForMessage = .ok room
        ∧ room.Appends id t ∧ room.nextSequence = s.nextSequence := by
  rcases exists_shortId h.live.messages_le with ⟨id, hid, hnew⟩
  have happend := SessionSnapshot.appendMessage_succeeds h.live hle
    (stringBytes_le_of_mem_shortIds id hid) hnew
  cases ht : s.appendMessage id .agent "" none with
  | error e =>
    rw [ht] at happend
    exact absurd trivial happend
  | ok t =>
    rw [ht] at happend
    rcases happend with ⟨room, hroom, happends⟩
    have hok : s.perform (.empty id) = .ok t := ht
    exact ⟨id, t, room, .perform h (Operation.empty_respects id) hok, hroom, happends,
      SessionSnapshot.makeRoomForMessage_nextSequence hroom⟩

theorem exists_reachable (n : Nat) (hle : n ≤ U64_MAX)
    : ∃ s, ReachableWith (fun _ => False) s ∧ s.nextSequence = n := by
  induction n with
  | zero => exact ⟨_, .new "agent" "thread", rfl⟩
  | succ n ih =>
    rcases ih (by omega) with ⟨s, hs, hnext⟩
    rcases hs.receives (by omega) with ⟨id, t, room, ht, -, happends, hroom⟩
    refine ⟨t, ht, ?_⟩
    rw [happends.nextSequence, hroom, hnext]
    exact saturatingAdd_of_le hle

/--
Once the sequences have run out, two messages in a row get the same one.
-/
theorem not_sorted_of_saturated
    : ¬ ∀ (isTool : String → Prop) (s : SessionSnapshot), ReachableWith isTool s →
        s.timeline.Pairwise (·.sequence < ·.sequence) := by
  intro h
  rcases exists_reachable U64_MAX (Nat.le_refl _) with ⟨s, hs, hnext⟩
  rcases hs.receives (by omega) with ⟨id, t, room, ht, -, happends, hroom⟩
  have hnext' : t.nextSequence = U64_MAX := by
    rw [happends.nextSequence, hroom, hnext]
    rfl
  rcases ht.receives (by omega) with ⟨id', u, room', hu, hmakes, happends', hroom'⟩
  have hsorted := h _ u hu
  have hshown : { sequence := U64_MAX, kind := .message, canonicalId := id } ∈ t.timeline := by
    rw [happends.timeline, hroom, hnext]
    simp
  have hkept := SessionSnapshot.makeRoomForMessage_keepsLast ht.live happends.messages hshown rfl
    hmakes
  rw [happends'.timeline, hroom', hnext', List.pairwise_append] at hsorted
  have hlt := hsorted.2.2 _ hkept _ (List.mem_singleton_self _)
  exact absurd hlt (Nat.lt_irrefl _)

end Snapshot
