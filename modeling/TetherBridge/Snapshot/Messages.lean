import TetherBridge.Snapshot.Run

/-!
This module contains what a chunk does to the live messages: it is added to the message of its id, or a new
message is, for which the oldest one may go.
-/

namespace Snapshot

open Acp

theorem partText_textPart (text : String) : partText (textPart text) = some text := by
  unfold partText textPart
  rfl

namespace SessionSnapshot

/--
The live messages of an id.
-/
def messagesOf (s : SessionSnapshot) (id : String) : List SnapshotMessage :=
  s.messages.filter (·.id == id)

def withChunk (message : SnapshotMessage) (content : String) (contentBlock : Option Json)
    : SnapshotMessage :=
  let (parts, truncated) := appendChunk message.parts message.truncated content contentBlock
  { message with parts, truncated }

def blankMessage (id : String) (role : MessageRole) : SnapshotMessage :=
  { id, role, parts := [], truncated := false, usage := none }

structure TakesChunk (s : SessionSnapshot) (id : String) (role : MessageRole) (content : String)
    (contentBlock : Option Json) (t : SessionSnapshot) : Prop where
  others : ∀ other, other ≠ id →
    t.messagesOf other = s.messagesOf other ∨ t.messagesOf other = (s.messagesOf other).tail
  absent : s.messagesOf id = [] →
    t.messagesOf id = [withChunk (blankMessage id role) content contentBlock]
  present : ∀ message, s.messagesOf id = [message] →
    t.messagesOf id = [withChunk message content contentBlock]

theorem filter_tail (p : α → Bool) (xs : List α)
    : xs.tail.filter p = xs.filter p ∨ xs.tail.filter p = (xs.filter p).tail := by
  cases xs with
  | nil => exact .inl rfl
  | cons x xs =>
    cases hx : p x with
    | true =>
      rw [List.filter_cons_of_pos hx]
      exact .inr rfl
    | false =>
      rw [List.filter_cons_of_neg (by rw [hx]; exact Bool.false_ne_true)]
      exact .inl rfl

/--
Overwriting the first message of an id overwrites the first one of those with this id.
-/
theorem filter_set_findIdx (messages : List SnapshotMessage) {id : String} {new : SnapshotMessage}
    (hnew : new.id = id) (other : String)
    : (messages.set (messages.findIdx (·.id == id)) new).filter (·.id == other)
        =
      if other = id then (messages.filter (·.id == id)).set 0 new
      else messages.filter (·.id == other) := by
  induction messages with
  | nil => simp
  | cons message messages ih =>
    rw [List.findIdx_cons]
    by_cases hid : message.id = id
    . by_cases hother : other = id
      . simp [hid, hother, hnew]
      . simp [hid, hnew, hother, Ne.symm hother]
    . rw [beq_eq_false_iff_ne.mpr hid, cond_false, List.set_cons_succ, List.filter_cons,
        List.filter_cons, List.filter_cons, beq_eq_false_iff_ne.mpr hid, ih]
      by_cases hother : other = id
      . simp [hother, hid]
      . simp [hother]

theorem find?_of_messagesOf_nil {s : SessionSnapshot} {id : String} (h : s.messagesOf id = [])
    : s.messages.find? (·.id == id) = none := by
  rw [← List.head?_filter]
  unfold messagesOf at h
  rw [h]
  rfl

theorem find?_of_messagesOf {s : SessionSnapshot} {id : String} {message : SnapshotMessage}
    (h : s.messagesOf id = [message])
    : s.messages.find? (·.id == id) = some message := by
  rw [← List.head?_filter]
  unfold messagesOf at h
  rw [h]
  rfl

/-! Writing the history leaves the messages alone -/

theorem Evicts.messages {s t : SessionSnapshot} {history : List SnapshotHistoryEntry}
    (hevicts : s.Evicts history t)
    : t.messages = s.messages := by
  rcases hevicts with ⟨gone, historyBytes, unavailableCount, rfl⟩
  rfl

theorem updateHistoryMessage_messages (s : SessionSnapshot) (message : SnapshotMessage)
    : (s.updateHistoryMessage message).Yields (fun _ => False) (·.messages = s.messages) := by
  unfold updateHistoryMessage
  split
  . apply Except.Yields.mono (mutateHistoryEntryAt_evicts s _ _).anyError
    intro t hevicts
    exact hevicts.messages
  . rfl

theorem pushTimeline_messages (s : SessionSnapshot) (kind : SnapshotTimelineKind)
    (canonicalId : String)
    : (s.pushTimeline kind canonicalId).Yields (fun _ => False) (·.messages = s.messages) := by
  unfold pushTimeline
  apply Except.Yields.mono (pushHistory_evicts _ _).anyError
  intro t hevicts
  rw [hevicts.messages]
  cases kind <;> rfl

theorem makeRoomForMessage_messages (s : SessionSnapshot)
    : s.makeRoomForMessage.Yields (fun _ => False) fun t =>
        t.messages = s.messages ∨ t.messages = s.messages.tail := by
  unfold makeRoomForMessage
  split
  . split
    . simp
    . next heq =>
      right
      dsimp only
      rw [heq]
      rfl
  . exact .inl rfl

theorem insertMessage_messages (s : SessionSnapshot) (id : String) (role : MessageRole)
    (content : String) (contentBlock : Option Json)
    : (s.insertMessage id role content contentBlock).Yields (fun _ => False) fun t =>
        t.messages = s.messages ++ [withChunk (blankMessage id role) content contentBlock] := by
  unfold insertMessage
  apply Except.Yields.bind (pushTimeline_messages s _ _)
  intro t hmessages
  dsimp only
  apply Except.Yields.mono (updateHistoryMessage_messages _ _)
  intro u hu
  rw [hu]
  dsimp only
  rw [hmessages]
  rfl

theorem appendMessage_takesChunk (s : SessionSnapshot) (id : String) (role : MessageRole)
    (content : String) (contentBlock : Option Json)
    : (s.appendMessage id role content contentBlock).Yields (fun _ => False)
        (s.TakesChunk id role content contentBlock) := by
  unfold appendMessage
  split
  . next message hfind =>
    have hid : message.id = id := by
      have h := List.find?_some hfind
      rwa [beq_iff_eq] at h
    apply Except.Yields.mono (updateHistoryMessage_messages _ _)
    intro t ht
    dsimp only at ht
    have hfilter := filter_set_findIdx s.messages
      (show (withChunk message content contentBlock).id = id from hid)
    refine ⟨?_, ?_, ?_⟩
    . intro other hne
      left
      unfold messagesOf
      rw [ht]
      exact (hfilter other).trans (if_neg hne)
    . intro habsent
      rw [find?_of_messagesOf_nil habsent] at hfind
      contradiction
    . intro only honly
      rw [find?_of_messagesOf honly] at hfind
      injection hfind with hfind
      unfold messagesOf at honly ⊢
      rw [ht, hfind]
      apply ((hfilter id).trans (if_pos rfl)).trans
      rw [honly]
      rfl
  . next hnone =>
    have habsent : s.messagesOf id = [] := by
      unfold messagesOf
      rw [List.filter_eq_nil_iff]
      rwa [List.find?_eq_none] at hnone
    apply Except.Yields.bind (makeRoomForMessage_messages s)
    intro roomy hroomy
    have hkept : ∀ other, roomy.messagesOf other = s.messagesOf other
        ∨ roomy.messagesOf other = (s.messagesOf other).tail := by
      intro other
      unfold messagesOf
      cases hroomy with
      | inl heq => exact .inl (by rw [heq])
      | inr heq =>
        rw [heq]
        exact filter_tail _ s.messages
    apply Except.Yields.mono (insertMessage_messages roomy id role content contentBlock)
    intro t ht
    have hnew : (withChunk (blankMessage id role) content contentBlock).id = id := rfl
    refine ⟨?_, ?_, ?_⟩
    . intro other hne
      have hsame : t.messagesOf other = roomy.messagesOf other := by
        unfold messagesOf
        rw [ht, List.filter_append]
        simp [hnew, Ne.symm hne]
      rw [hsame]
      exact hkept other
    . intro _
      have hempty : roomy.messagesOf id = [] := by
        cases hkept id with
        | inl heq => rw [heq, habsent]
        | inr heq => rw [heq, habsent]; rfl
      unfold messagesOf at hempty ⊢
      rw [ht, List.filter_append, hempty]
      simp [hnew]
    . intro message honly
      rw [habsent] at honly
      contradiction

end SessionSnapshot

end Snapshot
