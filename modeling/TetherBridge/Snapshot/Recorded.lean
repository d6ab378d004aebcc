import TetherBridge.Snapshot.ToolLedger

/-!
This module contains what the history has of the messages: the kind and the sequence under which an entry is
shown, and the message itself as it is live.
-/

namespace Snapshot

open Acp Std

/--
The entry that the chunks of a message are written to.
-/
def messageEntry (history : List SnapshotHistoryEntry) (id : String) : Option SnapshotHistoryEntry :=
  history.reverse.find? fun entry => entry.canonicalId == id && entry.message.isSome

/--
Sequences below the next one, under which the timeline and the history have the same kind. A tool may be
shown again.
-/
structure FiledAt (timeline : List SnapshotTimelineEntry) (history : List SnapshotHistoryEntry)
    (nextSequence : Nat) : Prop where
  shownBelow : ∀ shown ∈ timeline, shown.sequence < nextSequence
  below : ∀ entry ∈ history, entry.sequence < nextSequence
  same : ∀ shown ∈ timeline, shown.kind ≠ .tool → ∀ entry ∈ history, entry.sequence = shown.sequence →
    entry.kind = shown.kind

/--
The entries of the history are those of messages and of tools, and the entry of a live message has it. The
one of the message `pending` is still to be written.
-/
structure RecordedAt (isTool : String → Prop) (pending : Option String) (messages : List SnapshotMessage)
    (history : List SnapshotHistoryEntry) : Prop where
  kinds : ∀ entry ∈ history, entry.kind = .tool ↔ isTool entry.canonicalId
  names : ∀ entry ∈ history, ∀ message, entry.message = some message →
    message.id = entry.canonicalId ∧ ¬isTool message.id
  ids : (messages.map (·.id)).Nodup
  live : ∀ message ∈ messages, ¬isTool message.id
  mirror : ∀ message ∈ messages, pending ≠ some message.id → ∀ entry, messageEntry history message.id = some entry →
    entry.message = some message

namespace RecordedAt

variable {isTool : String → Prop} {pending : Option String} {messages : List SnapshotMessage}
  {history : List SnapshotHistoryEntry}

/--
The oldest entries of the history are gone.
-/
theorem drop (h : RecordedAt isTool pending messages history) (gone : Nat)
    : RecordedAt isTool pending messages (history.drop gone) where
  kinds entry hentry := h.kinds entry (List.mem_of_mem_drop hentry)
  names entry hentry := h.names entry (List.mem_of_mem_drop hentry)
  ids := h.ids
  live := h.live
  mirror message hmessage hpending entry hentry := by
    apply h.mirror message hmessage hpending entry
    unfold messageEntry at hentry ⊢
    rw [← List.take_append_drop gone history, List.reverse_append, List.find?_append, hentry]
    rfl

/--
The entries change, but not in what they say of messages.
-/
theorem congr (h : RecordedAt isTool pending messages history) {history' : List SnapshotHistoryEntry}
    (hsame : history'.map (fun entry => (entry.kind, entry.canonicalId, entry.message))
      = history.map fun entry => (entry.kind, entry.canonicalId, entry.message))
    : RecordedAt isTool pending messages history' := by
  have hmem : ∀ entry' ∈ history', ∃ entry ∈ history, entry.kind = entry'.kind
      ∧ entry.canonicalId = entry'.canonicalId ∧ entry.message = entry'.message := by
    intro entry' hentry'
    have hmem := List.mem_map_of_mem (f := fun entry => (entry.kind, entry.canonicalId, entry.message)) hentry'
    rw [hsame, List.mem_map] at hmem
    rcases hmem with ⟨entry, hentry, heq⟩
    injection heq with hkind heq
    injection heq with hid hmessage
    exact ⟨entry, hentry, hkind, hid, hmessage⟩
  refine ⟨?_, ?_, h.ids, h.live, ?_⟩
  . intro entry' hentry'
    rcases hmem entry' hentry' with ⟨entry, hentry, hkind, hid, -⟩
    rw [← hkind, ← hid]
    exact h.kinds entry hentry
  . intro entry' hentry' message hmessage'
    rcases hmem entry' hentry' with ⟨entry, hentry, -, hid, hmessage⟩
    rw [← hid]
    exact h.names entry hentry message (hmessage.trans hmessage')
  . intro message hmessage hpending entry' hentry'
    have hfind : (messageEntry history' message.id).map (·.message)
        = (messageEntry history message.id).map (·.message) := by
      unfold messageEntry
      have hkey : ∀ entries : List SnapshotHistoryEntry,
          (entries.find? fun entry => entry.canonicalId == message.id && entry.message.isSome).map (·.message)
            = ((entries.map fun entry => (entry.kind, entry.canonicalId, entry.message)).find?
                fun record => record.2.1 == message.id && record.2.2.isSome).map (·.2.2) := by
        intro entries
        rw [List.find?_map, Option.map_map]
        rfl
      rw [hkey, hkey, List.map_reverse, List.map_reverse, hsame]
    rw [hentry', Option.map_some, eq_comm, Option.map_eq_some_iff] at hfind
    rcases hfind with ⟨entry, hentry, heq⟩
    rw [← heq]
    exact h.mirror message hmessage hpending entry hentry

/--
A new entry has no message yet.
-/
theorem push (h : RecordedAt isTool pending messages history) {entry : SnapshotHistoryEntry}
    (hkind : entry.kind = .tool ↔ isTool entry.canonicalId) (hnone : entry.message = none)
    : RecordedAt isTool pending messages (history ++ [entry]) where
  kinds other hother := by
    rw [List.mem_append, List.mem_singleton] at hother
    rcases hother with hother | rfl
    . exact h.kinds other hother
    . exact hkind
  names other hother message hmessage := by
    rw [List.mem_append, List.mem_singleton] at hother
    rcases hother with hother | rfl
    . exact h.names other hother message hmessage
    . rw [hnone] at hmessage
      contradiction
  ids := h.ids
  live := h.live
  mirror message hmessage hpending other hother := by
    apply h.mirror message hmessage hpending other
    unfold messageEntry at hother ⊢
    rw [List.reverse_append, List.reverse_singleton, List.singleton_append, List.find?_cons, hnone] at hother
    simpa using hother

/--
An entry of the message is written, and no entry after it has the message.
-/
theorem write {message : SnapshotMessage} (h : RecordedAt isTool (some message.id) messages history)
    (hmessage : message ∈ messages) {before after : List SnapshotHistoryEntry} {entry : SnapshotHistoryEntry}
    (hsplit : history = before ++ entry :: after) (hid : entry.canonicalId = message.id)
    (hafter : ∀ other ∈ after, (other.canonicalId == message.id && other.message.isSome) = false)
    : RecordedAt isTool none messages (before ++ { entry with message := some message } :: after) := by
  have hentry : entry ∈ history := by
    rw [hsplit]
    exact List.mem_append_right _ List.mem_cons_self
  have hmem : ∀ other ∈ before ++ { entry with message := some message } :: after,
      other ∈ history ∨ other = { entry with message := some message } := by
    intro other hother
    rw [hsplit]
    simp only [List.mem_append, List.mem_cons] at hother ⊢
    tauto
  refine ⟨?_, ?_, h.ids, h.live, ?_⟩
  . intro other hother
    rcases hmem other hother with hold | rfl
    . exact h.kinds other hold
    . exact h.kinds entry hentry
  . intro other hother kept hkept
    rcases hmem other hother with hold | rfl
    . exact h.names other hold kept hkept
    . injection hkept with hkept
      subst hkept
      exact ⟨hid.symm, h.live message hmessage⟩
  . intro other hother _ found hfound
    unfold messageEntry at hfound
    rw [List.reverse_append, List.reverse_cons, List.append_assoc, List.singleton_append,
      List.find?_append, Option.or_eq_some_iff] at hfound
    by_cases hsame : other.id = message.id
    . -- It is the message that was written, so no entry after the written one is found.
      have heq : other = message := List.inj_on_of_nodup_map h.ids hother hmessage hsame
      subst heq
      rcases hfound with hlater | ⟨-, hfound⟩
      . have hp := List.find?_some hlater
        rw [hafter found (List.mem_reverse.mp (List.mem_of_find?_eq_some hlater))] at hp
        contradiction
      . rw [List.find?_cons_of_pos (by simp [hid])] at hfound
        injection hfound with hfound
        rw [← hfound]
    . have hne : ¬({ entry with message := some message } : SnapshotHistoryEntry).canonicalId = other.id := by
        intro heq
        exact hsame (heq.symm.trans hid)
      apply h.mirror other hother (by simpa using Ne.symm hsame) found
      unfold messageEntry
      rw [hsplit, List.reverse_append, List.reverse_cons, List.append_assoc, List.singleton_append,
        List.find?_append, Option.or_eq_some_iff]
      refine hfound.imp (fun hlater => hlater) (fun hearlier => ⟨hearlier.1, ?_⟩)
      rw [List.find?_cons_of_neg (by simpa using fun heq => absurd heq hne)] at hearlier
      rw [List.find?_cons_of_neg (by simpa using fun heq => absurd heq hne)]
      exact hearlier.2

/--
No entry is found for the message.
-/
theorem unwritten {message : SnapshotMessage} (h : RecordedAt isTool (some message.id) messages history)
    (hnone : ∀ entry ∈ history, (entry.canonicalId == message.id) = false)
    : RecordedAt isTool none messages history where
  kinds := h.kinds
  names := h.names
  ids := h.ids
  live := h.live
  mirror other hother _ entry hentry := by
    apply h.mirror other hother _ entry hentry
    intro heq
    injection heq with heq
    have hp := List.find?_some hentry
    have hmem := List.mem_reverse.mp (List.mem_of_find?_eq_some hentry)
    rw [Bool.and_eq_true, ← heq, hnone entry hmem] at hp
    exact absurd hp.1 Bool.false_ne_true

/--
A live message is written anew.
-/
theorem setMessage (h : RecordedAt isTool none messages history) {index : Nat} {old new : SnapshotMessage}
    (hold : messages[index]? = some old) (hid : new.id = old.id)
    : RecordedAt isTool (some new.id) (messages.set index new) history := by
  have hids : (messages.set index new).map (·.id) = messages.map (·.id) :=
    List.map_set_of_eq hold hid
  refine ⟨h.kinds, h.names, by rw [hids]; exact h.ids, ?_, ?_⟩
  . intro message hmessage
    rcases List.mem_or_eq_of_mem_set hmessage with hmem | rfl
    . exact h.live message hmem
    . rw [hid]
      exact h.live old (List.mem_of_getElem? hold)
  . intro message hmessage hpending
    rcases List.mem_or_eq_of_mem_set hmessage with hmem | rfl
    . exact h.mirror message hmem (by simp)
    . exact absurd rfl hpending

/--
A message that is not live is added.
-/
theorem addMessage (h : RecordedAt isTool none messages history) {message : SnapshotMessage}
    (hid : ¬isTool message.id) (hnew : ∀ old ∈ messages, old.id ≠ message.id)
    : RecordedAt isTool (some message.id) (messages ++ [message]) history := by
  refine ⟨h.kinds, h.names, ?_, ?_, ?_⟩
  . rw [List.map_append, List.map_singleton, List.nodup_append]
    refine ⟨h.ids, List.nodup_singleton _, ?_⟩
    intro a ha b hb
    rw [List.mem_singleton] at hb
    rcases List.mem_map.mp ha with ⟨old, hold, rfl⟩
    rw [hb]
    exact hnew old hold
  . intro other hother
    rw [List.mem_append, List.mem_singleton] at hother
    rcases hother with hother | rfl
    . exact h.live other hother
    . exact hid
  . intro other hother hpending
    rw [List.mem_append, List.mem_singleton] at hother
    rcases hother with hother | rfl
    . exact h.mirror other hother (by simp)
    . exact absurd rfl hpending

theorem subset (h : RecordedAt isTool pending messages history) {messages' : List SnapshotMessage}
    (hsub : messages'.Sublist messages)
    : RecordedAt isTool pending messages' history where
  kinds := h.kinds
  names := h.names
  ids := h.ids.sublist (hsub.map _)
  live message hmessage := h.live message (hsub.subset hmessage)
  mirror message hmessage := h.mirror message (hsub.subset hmessage)

end RecordedAt

/--
The last index, and what is before and after it.
-/
theorem lastIdx?_split {p : α → Bool} {xs : List α} {i : Nat} (h : lastIdx? p xs = some i)
    : ∃ before x after, xs = before ++ x :: after ∧ before.length = i ∧ p x ∧ ∀ y ∈ after, p y = false := by
  unfold lastIdx? at h
  simp only [Option.map_eq_some_iff, List.findIdx?_eq_some_iff_getElem] at h
  rcases h with ⟨j, ⟨hj, hp, hbefore⟩, hi⟩
  rw [List.length_reverse] at hj
  have hlt : i < xs.length := by omega
  refine ⟨xs.take i, xs[i], xs.drop (i + 1), ?_, ?_, ?_, ?_⟩
  . rw [List.getElem_cons_drop, List.take_append_drop]
  . rw [List.length_take]
    omega
  . rw [List.getElem_reverse] at hp
    have : xs.length - 1 - j = i := by omega
    simpa [this] using hp
  . intro y hy
    rw [List.mem_drop_iff_getElem] at hy
    rcases hy with ⟨k, hk, rfl⟩
    have hlater := hbefore (j - 1 - k) (by omega)
    rw [List.getElem_reverse] at hlater
    have : xs.length - 1 - (j - 1 - k) = i + 1 + k := by omega
    simpa [this] using hlater

theorem modify_split (before : List α) (x : α) (after : List α) (f : α → α)
    : (before ++ x :: after).modify before.length f = before ++ f x :: after := by
  induction before with
  | nil => rfl
  | cons y before ih => rw [List.cons_append, List.length_cons, List.modify_succ_cons, ih, List.cons_append]

namespace FiledAt

variable {timeline : List SnapshotTimelineEntry} {history : List SnapshotHistoryEntry} {nextSequence : Nat}

theorem subset (h : FiledAt timeline history nextSequence) {timeline' : List SnapshotTimelineEntry}
    (htimeline : timeline' ⊆ timeline) {history' : List SnapshotHistoryEntry}
    (hhistory : ∀ entry' ∈ history', ∃ entry ∈ history, entry.sequence = entry'.sequence
      ∧ entry.kind = entry'.kind)
    : FiledAt timeline' history' nextSequence where
  shownBelow shown hshown := h.shownBelow shown (htimeline hshown)
  below entry' hentry' := by
    rcases hhistory entry' hentry' with ⟨entry, hentry, hsequence, -⟩
    rw [← hsequence]
    exact h.below entry hentry
  same shown hshown hkind entry' hentry' heq := by
    rcases hhistory entry' hentry' with ⟨entry, hentry, hsequence, hsame⟩
    rw [← hsame]
    exact h.same shown (htimeline hshown) hkind entry hentry (hsequence.trans heq)

/--
A tool is shown under the sequence of an entry.
-/
theorem showTool (h : FiledAt timeline history nextSequence) {entry : SnapshotHistoryEntry}
    (hentry : entry ∈ history) (position : Nat)
    : FiledAt (timeline.insertIdx position
        { sequence := entry.sequence, kind := .tool, canonicalId := entry.canonicalId }) history
        nextSequence where
  shownBelow shown hshown := by
    rcases List.eq_or_mem_of_mem_insertIdx hshown with rfl | hold
    . exact h.below entry hentry
    . exact h.shownBelow shown hold
  below := h.below
  same shown hshown hkind := by
    rcases List.eq_or_mem_of_mem_insertIdx hshown with rfl | hold
    . contradiction
    . exact h.same shown hold hkind

end FiledAt

namespace SessionSnapshot

variable {isTool : String → Prop} {pending : Option String} {s t : SessionSnapshot}

structure RecordedBut (isTool : String → Prop) (pending : Option String) (s : SessionSnapshot) : Prop where
  recorded : RecordedAt isTool pending s.messages s.history
  filed : s.nextSequence < U64_MAX → FiledAt s.timeline s.history s.nextSequence

/--
Entries change in their tools, and the oldest ones are gone.
-/
theorem Evicts.recorded {history : List SnapshotHistoryEntry} (hevicts : s.Evicts history t)
    (h : s.RecordedBut isTool pending) (hhistory : RecordedAt isTool pending' s.messages history)
    (hkeys : history.map (fun entry => (entry.sequence, entry.kind))
      = s.history.map fun entry => (entry.sequence, entry.kind))
    : t.RecordedBut isTool pending' := by
  rcases hevicts with ⟨gone, historyBytes, unavailableCount, rfl⟩
  refine ⟨hhistory.drop gone, ?_⟩
  intro hlt
  apply (h.filed hlt).subset (List.Subset.refl _)
  intro entry' hentry'
  have hmem := List.mem_map_of_mem (f := fun entry => (entry.sequence, entry.kind)) (List.mem_of_mem_drop hentry')
  rw [hkeys, List.mem_map] at hmem
  rcases hmem with ⟨entry, hentry, heq⟩
  injection heq with hsequence hkind
  exact ⟨entry, hentry, hsequence, hkind⟩

/--
The operations on tools do not change what is recorded of messages.
-/
theorem keptByEvents_recorded (isTool : String → Prop) (pending : Option String)
    : KeptByEvents (fun _ => False) (RecordedBut isTool pending) where
  fullToolSnapshot := by simp
  withTools h _ _ _ := ⟨h.recorded, h.filed⟩
  filterTimeline h keep := by
    refine ⟨h.recorded, fun hlt => (h.filed hlt).subset List.filter_sublist.subset ?_⟩
    exact fun entry hentry => ⟨entry, hentry, rfl, rfl⟩
  mutate {s} h index _ update hupdate := by
    apply Except.Yields.mono (mutateHistoryEntryAt_evicts s index update).anyError
    intro t hevicts
    apply hevicts.recorded h
    . apply h.recorded.congr
      apply map_modify_of_eq
      intro entry
      rcases hupdate entry with ⟨tool, heq⟩
      rw [heq]
    . apply map_modify_of_eq
      intro entry
      rcases hupdate entry with ⟨tool, heq⟩
      rw [heq]
  insertTool h _ hentry position := ⟨h.recorded, fun hlt => (h.filed hlt).showTool hentry position⟩
  sameTranscript {s t} h hsame := by
    rcases hsame with ⟨hmessages, htimeline, hnext, hhistory, -, -⟩
    refine ⟨?_, ?_⟩
    . rw [hmessages, hhistory]
      exact h.recorded
    . rw [htimeline, hnext, hhistory]
      exact h.filed

theorem updateHistoryMessage_recorded {message : SnapshotMessage}
    (h : s.RecordedBut isTool (some message.id)) (hmessage : message ∈ s.messages)
    : (s.updateHistoryMessage message).Yields (fun _ => False) (RecordedBut isTool none) := by
  have hkeys : ∀ index, (s.history.modify index fun entry => { entry with message := some message }).map
      (fun entry => (entry.sequence, entry.kind)) = s.history.map fun entry => (entry.sequence, entry.kind) := by
    intro index
    apply map_modify_of_eq
    intro entry
    rfl
  unfold updateHistoryMessage historyMessageIdx lastHistoryIdx
  cases hwith : lastIdx? (fun entry => entry.canonicalId == message.id && entry.message.isSome) s.history with
  | some index =>
    dsimp only [Option.or]
    apply Except.Yields.mono (mutateHistoryEntryAt_evicts _ _ _).anyError
    intro t hevicts
    refine hevicts.recorded h ?_ (hkeys index)
    rcases lastIdx?_split hwith with ⟨before, entry, after, hsplit, rfl, hp, hafter⟩
    rw [Bool.and_eq_true, beq_iff_eq] at hp
    rw [hsplit, modify_split]
    exact h.recorded.write hmessage hsplit hp.1 hafter
  | none =>
    dsimp only [Option.or]
    cases hid : lastIdx? (·.canonicalId == message.id) s.history with
    | some index =>
      apply Except.Yields.mono (mutateHistoryEntryAt_evicts _ _ _).anyError
      intro t hevicts
      refine hevicts.recorded h ?_ (hkeys index)
      rcases lastIdx?_split hid with ⟨before, entry, after, hsplit, rfl, hp, hafter⟩
      rw [beq_iff_eq] at hp
      rw [hsplit, modify_split]
      apply h.recorded.write hmessage hsplit hp
      intro other hother
      rw [hafter other hother, Bool.false_and]
    | none => exact ⟨h.recorded.unwritten (lastIdx?_eq_none hid), h.filed⟩

theorem attachTurnUsage_recorded (h : s.RecordedBut isTool none) (usage : BridgeTurnUsageSnapshot)
    : (s.attachTurnUsage usage).Yields (fun _ => False) (RecordedBut isTool none) := by
  unfold attachTurnUsage
  split
  . exact h
  . split
    . exact h
    . next index _ old hold =>
      apply updateHistoryMessage_recorded
      . exact ⟨h.recorded.setMessage hold rfl, h.filed⟩
      . exact List.mem_set (List.getElem?_eq_some_iff.mp hold).1 _

theorem timelineKind_eq_tool (role : MessageRole) : timelineKind role = .tool ↔ False :=
  iff_false_intro (timelineKind_ne_tool role)

theorem Pushes.recorded {kind : SnapshotTimelineKind} {id : String} (hpushes : s.Pushes kind id t)
    (h : s.RecordedBut isTool pending) (hkind : kind = .tool ↔ isTool id)
    : t.RecordedBut isTool pending := by
  constructor
  . rcases hpushes.history with ⟨gone, hhistory⟩
    rw [hpushes.messages, hhistory]
    apply RecordedAt.drop
    exact h.recorded.push hkind rfl
  . intro hlt
    have hnext := hpushes.nextSequence
    have hbefore : s.nextSequence + 1 < U64_MAX := by
      rw [hnext] at hlt
      revert hlt
      unfold saturatingAdd
      split <;> omega
    have hfiled := h.filed (by omega)
    rw [hpushes.nextSequence_succ (by omega)]
    constructor
    . intro shown hshown
      rcases hpushes.timeline shown hshown with rfl | hold
      . exact Nat.lt_succ_self _
      . exact Nat.lt_succ_of_lt (hfiled.shownBelow shown hold)
    . intro entry hentry
      rcases hpushes.history_subset entry hentry with hold | rfl
      . exact Nat.lt_succ_of_lt (hfiled.below entry hold)
      . exact Nat.lt_succ_self _
    . intro shown hshown hne entry hentry heq
      rcases hpushes.timeline shown hshown with rfl | hold
      . rcases hpushes.history_subset entry hentry with hold' | rfl
        . exact absurd heq (Nat.ne_of_lt (hfiled.below entry hold'))
        . rfl
      . rcases hpushes.history_subset entry hentry with hold' | rfl
        . exact hfiled.same shown hold hne entry hold' heq
        . exact absurd heq.symm (Nat.ne_of_lt (hfiled.shownBelow shown hold))

theorem makeRoomForMessage_recorded (h : s.RecordedBut isTool none)
    : s.makeRoomForMessage.Yields (fun _ => False) fun t =>
        t.RecordedBut isTool none ∧ t.messages ⊆ s.messages := by
  unfold makeRoomForMessage
  split
  . split
    . simp
    . next removed messages heq =>
      refine ⟨⟨h.recorded.subset ?_, ?_⟩, ?_⟩
      . rw [heq]
        exact List.sublist_cons_self _ _
      . intro hlt
        apply (h.filed hlt).subset List.filter_sublist.subset
        exact fun entry hentry => ⟨entry, hentry, rfl, rfl⟩
      . rw [heq]
        exact List.subset_cons_self removed messages
  . exact ⟨h, List.Subset.refl _⟩

theorem insertMessage_recorded (h : s.RecordedBut isTool none) {id : String} (hid : ¬isTool id)
    (hnew : ∀ old ∈ s.messages, old.id ≠ id) (role : MessageRole) (content : String) (contentBlock : Option Json)
    : (s.insertMessage id role content contentBlock).Yields (fun _ => False) (RecordedBut isTool none) := by
  unfold insertMessage
  apply Except.Yields.bind (pushTimeline_pushes s (timelineKind role) id)
  intro t hpushes
  have hkind : timelineKind role = .tool ↔ isTool id := iff_of_false (timelineKind_ne_tool role) hid
  have ht := hpushes.recorded h hkind
  have hmessages := hpushes.messages
  apply updateHistoryMessage_recorded
  . refine ⟨ht.recorded.addMessage hid ?_, ht.filed⟩
    intro old hold
    exact hnew old (hmessages ▸ hold)
  . exact List.mem_append_right _ (List.mem_singleton_self _)

theorem appendMessage_recorded (h : s.RecordedBut isTool none) {id : String} (hid : ¬isTool id)
    (role : MessageRole) (content : String) (contentBlock : Option Json)
    : (s.appendMessage id role content contentBlock).Yields (fun _ => False) (RecordedBut isTool none) := by
  unfold appendMessage
  split
  . next message hfind =>
    have hold : s.messages[s.messages.findIdx (·.id == id)]? = some message := by
      rw [← List.find?_eq_getElem?_findIdx, hfind]
    apply updateHistoryMessage_recorded
    . exact ⟨h.recorded.setMessage hold rfl, h.filed⟩
    . exact List.mem_set (List.getElem?_eq_some_iff.mp hold).1 _
  . next hfind =>
    rw [List.find?_eq_none] at hfind
    apply Except.Yields.bind (makeRoomForMessage_recorded h)
    rintro t ⟨ht, hsubset⟩
    apply insertMessage_recorded ht hid
    intro old hold
    simpa using hfind old (hsubset hold)

theorem applyTool_recorded (h : s.RecordedBut isTool none) {id : String} (hid : isTool id)
    (generation : Option Nat) (projection : ToolProjection)
    : (s.applyTool id generation projection).Yields (fun _ => False) (RecordedBut isTool none) := by
  have rules := (keptByEvents_recorded isTool none).toKeptByTools
  apply applyTool_keeps rules rules (fun _ h => h) h
  intro s h
  apply Except.Yields.mono (pushTimeline_pushes s .tool id)
  intro t hpushes
  exact hpushes.recorded h (iff_of_true rfl hid)

theorem perform_recorded (h : s.RecordedBut isTool none) {operation : Operation}
    (hrespects : operation.Respects isTool)
    : (s.perform operation).Yields (fun _ => False) (RecordedBut isTool none) := by
  have rules := (keptByEvents_recorded isTool none).runs
  cases operation with
  | apply event =>
    apply apply_keeps rules h
    . intro id role content contentBlock hid
      exact appendMessage_recorded h (hrespects.1 id hid) _ _ _
    . intro id generation projection hid
      exact applyTool_recorded h (hrespects.2 id hid) _ _
    . intro s usage h
      exact attachTurnUsage_recorded h _
  | markSubagentTerminal childSessionId status =>
    apply Except.Yields.bind (markSubagentTerminal_keeps rules.toKeptByUpdates h childSessionId status)
    intro result h
    exact h
  | markSubagentToolTerminal toolCallId status toolStatus =>
    apply Except.Yields.bind
      (markSubagentToolTerminal_keeps rules.toKeptByUpdates h toolCallId status toolStatus)
    intro result h
    exact h
  | settleUnresolvedSubagentsWithoutRun =>
    exact settleUnresolvedSubagentsWithoutRun_keeps rules.toKeptByUpdates h

theorem new_recorded (agentId threadId : String) : (new agentId threadId).RecordedBut isTool none where
  recorded := by
    constructor <;> simp [new]
  filed _ := by
    constructor <;> simp [new]

end SessionSnapshot

theorem ReachableWith.recorded {isTool : String → Prop} {s : SessionSnapshot} (h : ReachableWith isTool s)
    : s.RecordedBut isTool none := by
  induction h with
  | new agentId threadId => exact SessionSnapshot.new_recorded agentId threadId
  | perform _ hrespects hok ih => exact (SessionSnapshot.perform_recorded ih hrespects).of_ok hok
  | restore _ _ _ ih => exact ⟨ih.recorded, ih.filed⟩
  | reorder _ _ ih => exact ⟨ih.recorded, ih.filed⟩

end Snapshot
