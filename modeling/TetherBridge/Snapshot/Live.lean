import Mathlib.Data.List.Perm.Subperm
import TetherBridge.Snapshot.History
import TetherBridge.Snapshot.Transcript

/-!
This module contains the representation invariant of the live window: the timeline shows every live
message and every live tool once, in the order of the sequences, and never more than fit.
-/

namespace Snapshot

open Acp Std

/--
The tool an entry shows.
-/
def SnapshotTimelineEntry.toolCall? (shown : SnapshotTimelineEntry) : Option String :=
  if shown.kind = .tool then some shown.canonicalId else none

/--
The message or the reasoning an entry shows.
-/
def SnapshotTimelineEntry.message? (shown : SnapshotTimelineEntry)
    : Option (SnapshotTimelineKind × String) :=
  if shown.kind = .tool then none else some (shown.kind, shown.canonicalId)

def SnapshotMessage.shown (message : SnapshotMessage) : SnapshotTimelineKind × String :=
  (SessionSnapshot.timelineKind message.role, message.id)

theorem SnapshotTimelineEntry.message?_of_tool {shown : SnapshotTimelineEntry}
    (h : shown.kind = .tool)
    : shown.message? = none ∧ shown.toolCall? = some shown.canonicalId := by
  simp [message?, toolCall?, h]

theorem SnapshotTimelineEntry.message?_of_ne_tool {shown : SnapshotTimelineEntry}
    (h : shown.kind ≠ .tool)
    : shown.message? = some (shown.kind, shown.canonicalId) ∧ shown.toolCall? = none := by
  simp [message?, toolCall?, h]

theorem timelineKind_ne_tool (role : MessageRole) : SessionSnapshot.timelineKind role ≠ .tool := by
  cases role <;> decide

theorem length_timeline (timeline : List SnapshotTimelineEntry)
    : timeline.length
        =
      (timeline.filterMap SnapshotTimelineEntry.message?).length + (timeline.filterMap SnapshotTimelineEntry.toolCall?).length := by
  induction timeline with
  | nil => rfl
  | cons shown timeline ih =>
    by_cases hkind : shown.kind = .tool
    . have hshown := SnapshotTimelineEntry.message?_of_tool hkind
      rw [List.filterMap_cons_none hshown.1, List.filterMap_cons_some hshown.2]
      simp only [List.length_cons]
      omega
    . have hshown := SnapshotTimelineEntry.message?_of_ne_tool hkind
      rw [List.filterMap_cons_some hshown.1, List.filterMap_cons_none hshown.2]
      simp only [List.length_cons]
      omega

/-! What the timeline shows -/

/--
The timeline shows the messages in their order, and the tools that are live.
-/
structure ShownAt (isTool live : String → Prop) (messages : List SnapshotMessage)
    (timeline : List SnapshotTimelineEntry) : Prop where
  order : timeline.filterMap SnapshotTimelineEntry.message? = messages.map SnapshotMessage.shown
  messageIds : (messages.map (·.id)).Nodup
  ordinary : ∀ message ∈ messages, ¬isTool message.id
  toolIds : (timeline.filterMap SnapshotTimelineEntry.toolCall?).Nodup
  mem_iff : ∀ id, id ∈ timeline.filterMap SnapshotTimelineEntry.toolCall? ↔ live id
  tools : ∀ id, live id → isTool id

namespace ShownAt

variable {isTool live live' : String → Prop} {messages : List SnapshotMessage}
  {timeline : List SnapshotTimelineEntry}

theorem congr (h : ShownAt isTool live messages timeline) (hlive : ∀ id, live' id ↔ live id)
    : ShownAt isTool live' messages timeline where
  order := h.order
  messageIds := h.messageIds
  ordinary := h.ordinary
  toolIds := h.toolIds
  mem_iff id := (h.mem_iff id).trans (hlive id).symm
  tools id hid := h.tools id ((hlive id).mp hid)

theorem filterMap_message?_hide (timeline : List SnapshotTimelineEntry) (id : String)
    : (timeline.filter (·.canonicalId != id)).filterMap SnapshotTimelineEntry.message?
        =
      (timeline.filterMap SnapshotTimelineEntry.message?).filter (·.2 != id) := by
  induction timeline with
  | nil => rfl
  | cons shown timeline ih =>
    by_cases hkind : shown.kind = .tool <;> by_cases hid : shown.canonicalId = id
      <;> simp [hkind, hid, SnapshotTimelineEntry.message?, ih]

theorem filterMap_toolCall?_hide (timeline : List SnapshotTimelineEntry) (id : String)
    : (timeline.filter (·.canonicalId != id)).filterMap SnapshotTimelineEntry.toolCall?
        =
      (timeline.filterMap SnapshotTimelineEntry.toolCall?).filter (· != id) := by
  induction timeline with
  | nil => rfl
  | cons shown timeline ih =>
    by_cases hkind : shown.kind = .tool <;> by_cases hid : shown.canonicalId = id
      <;> simp [hkind, hid, SnapshotTimelineEntry.toolCall?, ih]

/--
An id is hidden wherever it is shown.
-/
theorem hide (h : ShownAt isTool live messages timeline) (id : String)
    : ShownAt isTool (fun other => live other ∧ other ≠ id) (messages.filter (·.id != id))
        (timeline.filter (·.canonicalId != id)) where
  order := by
    rw [filterMap_message?_hide, h.order, List.filter_map]
    rfl
  messageIds := by
    apply List.Nodup.sublist _ h.messageIds
    exact List.filter_sublist.map _
  ordinary message hmessage := h.ordinary message (List.mem_filter.mp hmessage).1
  toolIds := by
    rw [filterMap_toolCall?_hide]
    exact h.toolIds.filter _
  mem_iff other := by
    rw [filterMap_toolCall?_hide, List.mem_filter, h.mem_iff, bne_iff_ne]
  tools other hother := h.tools other hother.1

theorem live_or_ordinary (h : ShownAt isTool live messages timeline) {shown : SnapshotTimelineEntry}
    (hshown : shown ∈ timeline)
    : live shown.canonicalId ∨ ¬isTool shown.canonicalId := by
  by_cases hkind : shown.kind = .tool
  . left
    rw [← h.mem_iff, List.mem_filterMap]
    exact ⟨shown, hshown, (SnapshotTimelineEntry.message?_of_tool hkind).2⟩
  . right
    have hmem : (shown.kind, shown.canonicalId) ∈ messages.map SnapshotMessage.shown := by
      rw [← h.order, List.mem_filterMap]
      exact ⟨shown, hshown, (SnapshotTimelineEntry.message?_of_ne_tool hkind).1⟩
    rw [List.mem_map] at hmem
    rcases hmem with ⟨message, hmessage, heq⟩
    have hid : message.id = shown.canonicalId := congrArg (·.2) heq
    rw [← hid]
    exact h.ordinary message hmessage

/--
The oldest message goes.
-/
theorem hideMessage {removed : SnapshotMessage}
    (h : ShownAt isTool live (removed :: messages) timeline)
    : ShownAt isTool live messages (timeline.filter (·.canonicalId != removed.id)) := by
  have hnodup := h.messageIds
  rw [List.map_cons, List.nodup_cons] at hnodup
  have hrest : (removed :: messages).filter (·.id != removed.id) = messages := by
    rw [List.filter_cons_of_neg (by simp), List.filter_eq_self]
    intro message hmessage
    rw [bne_iff_ne]
    intro heq
    apply hnodup.1
    rw [← heq]
    exact List.mem_map_of_mem hmessage
  have hhide := h.hide removed.id
  rw [hrest] at hhide
  apply hhide.congr
  intro id
  constructor
  . intro hid
    refine ⟨hid, ?_⟩
    intro heq
    apply h.ordinary removed List.mem_cons_self
    rw [← heq]
    exact h.tools id hid
  . intro hid
    exact hid.1

/--
A tool goes.
-/
theorem hideTool (h : ShownAt isTool live messages timeline) {id : String} (hid : live id)
    : ShownAt isTool (fun other => live other ∧ other ≠ id) messages
        (timeline.filter (·.canonicalId != id)) := by
  have hrest : messages.filter (·.id != id) = messages := by
    rw [List.filter_eq_self]
    intro message hmessage
    rw [bne_iff_ne]
    intro heq
    apply h.ordinary message hmessage
    rw [heq]
    exact h.tools id hid
  have hhide := h.hide id
  rwa [hrest] at hhide

theorem setMessage (h : ShownAt isTool live messages timeline) {index : Nat}
    {old new : SnapshotMessage} (hold : messages[index]? = some old) (hid : new.id = old.id)
    (hrole : new.role = old.role)
    : ShownAt isTool live (messages.set index new) timeline where
  order := by
    rw [List.map_set_of_eq hold (by simp [SnapshotMessage.shown, hid, hrole])]
    exact h.order
  messageIds := by
    rw [List.map_set_of_eq hold hid]
    exact h.messageIds
  ordinary message hmessage := by
    cases List.mem_or_eq_of_mem_set hmessage with
    | inl hmem => exact h.ordinary message hmem
    | inr heq =>
      rw [heq, hid]
      exact h.ordinary old (List.mem_of_getElem? hold)
  toolIds := h.toolIds
  mem_iff := h.mem_iff
  tools := h.tools

/--
A new message is shown at the end.
-/
theorem addMessage (h : ShownAt isTool live messages timeline) {message : SnapshotMessage}
    (hid : ¬isTool message.id) (hnew : ∀ old ∈ messages, old.id ≠ message.id)
    {shown : SnapshotTimelineEntry} (hkind : shown.kind = SessionSnapshot.timelineKind message.role)
    (hshown : shown.canonicalId = message.id)
    : ShownAt isTool live (messages ++ [message]) (timeline ++ [shown]) := by
  have hshown' := SnapshotTimelineEntry.message?_of_ne_tool
    (hkind.symm ▸ timelineKind_ne_tool message.role : shown.kind ≠ .tool)
  have htools : (timeline ++ [shown]).filterMap SnapshotTimelineEntry.toolCall?
      = timeline.filterMap SnapshotTimelineEntry.toolCall? := by
    rw [List.filterMap_append, List.filterMap_cons_none hshown'.2]
    simp
  constructor
  . rw [List.filterMap_append, List.filterMap_cons_some hshown'.1, h.order, List.map_append,
      hkind, hshown]
    rfl
  . rw [List.map_append, List.map_singleton, List.nodup_append]
    refine ⟨h.messageIds, by simp, ?_⟩
    intro id hmem id' hmem'
    rw [List.mem_map] at hmem
    rw [List.mem_singleton] at hmem'
    cases hmem with
    | intro old hold =>
      rw [← hold.2, hmem']
      exact hnew old hold.1
  . intro other hother
    rw [List.mem_append, List.mem_singleton] at hother
    cases hother with
    | inl hmem => exact h.ordinary other hmem
    | inr heq =>
      rw [heq]
      exact hid
  . rw [htools]
    exact h.toolIds
  . rw [htools]
    exact h.mem_iff
  . exact h.tools

/--
A new tool is shown somewhere.
-/
theorem addTool {before after : List SnapshotTimelineEntry}
    (h : ShownAt isTool live messages (before ++ after)) {shown : SnapshotTimelineEntry}
    (hkind : shown.kind = .tool) (hid : isTool shown.canonicalId) (hnew : ¬live shown.canonicalId)
    : ShownAt isTool (fun other => live other ∨ other = shown.canonicalId) messages
        (before ++ shown :: after) := by
  have hshown := SnapshotTimelineEntry.message?_of_tool hkind
  have htools : ((before ++ shown :: after).filterMap SnapshotTimelineEntry.toolCall?).Perm
      (shown.canonicalId :: (before ++ after).filterMap SnapshotTimelineEntry.toolCall?) := by
    rw [List.filterMap_append, List.filterMap_append, List.filterMap_cons_some hshown.2]
    exact List.perm_middle
  constructor
  . rw [List.filterMap_append, List.filterMap_cons_none hshown.1, ← List.filterMap_append]
    exact h.order
  . exact h.messageIds
  . exact h.ordinary
  . rw [htools.nodup_iff, List.nodup_cons, h.mem_iff]
    exact ⟨hnew, h.toolIds⟩
  . intro id
    rw [htools.mem_iff, List.mem_cons, h.mem_iff, or_comm]
  . intro id hlive
    cases hlive with
    | inl hlive => exact h.tools id hlive
    | inr heq =>
      rw [heq]
      exact hid

end ShownAt

/-! The sequences of the timeline -/

/--
The timeline is in the order of its sequences, and each is the one its entry in the history has.
-/
structure SequencedAt (timeline : List SnapshotTimelineEntry) (history : List SnapshotHistoryEntry)
    (nextSequence : Nat) : Prop where
  sorted : timeline.Pairwise (·.sequence < ·.sequence)
  below : ∀ shown ∈ timeline, shown.sequence < nextSequence
  recorded : ∀ shown ∈ timeline, ∀ entry ∈ history, entry.sequence = shown.sequence →
    entry.canonicalId = shown.canonicalId

namespace SequencedAt

variable {timeline : List SnapshotTimelineEntry} {history : List SnapshotHistoryEntry}
  {nextSequence : Nat}

theorem filter (h : SequencedAt timeline history nextSequence)
    (keep : SnapshotTimelineEntry → Bool)
    : SequencedAt (timeline.filter keep) history nextSequence where
  sorted := h.sorted.filter keep
  below shown hshown := h.below shown (List.mem_filter.mp hshown).1
  recorded shown hshown := h.recorded shown (List.mem_filter.mp hshown).1

/--
The history changes, but not in what the timeline refers to.
-/
theorem withHistory (h : SequencedAt timeline history nextSequence)
    {history' : List SnapshotHistoryEntry}
    (hhistory : ∀ entry' ∈ history', ∃ entry ∈ history, entry'.sequence = entry.sequence
      ∧ entry'.canonicalId = entry.canonicalId)
    : SequencedAt timeline history' nextSequence where
  sorted := h.sorted
  below := h.below
  recorded := by
    intro shown hshown entry' hentry' heq
    rcases hhistory entry' hentry' with ⟨entry, hentry, hsequence, hid⟩
    rw [hid]
    apply h.recorded shown hshown entry hentry
    rw [← hsequence]
    exact heq

/--
The next sequence is given out to a new entry of the history and of the timeline.
-/
theorem push (h : SequencedAt timeline history nextSequence)
    (hhistory : ∀ entry ∈ history, entry.sequence < nextSequence) {shown : SnapshotTimelineEntry}
    (hshown : shown.sequence = nextSequence) {entry : SnapshotHistoryEntry}
    (hentry : entry.sequence = nextSequence) (hid : entry.canonicalId = shown.canonicalId)
    : SequencedAt (timeline ++ [shown]) (history ++ [entry]) (nextSequence + 1) := by
  constructor
  . rw [List.pairwise_append]
    refine ⟨h.sorted, List.pairwise_singleton _ _, ?_⟩
    intro old hold new hnew
    rw [List.mem_singleton] at hnew
    rw [hnew, hshown]
    exact h.below old hold
  . intro old hold
    rw [List.mem_append, List.mem_singleton] at hold
    cases hold with
    | inl hmem =>
      have := h.below old hmem
      omega
    | inr heq =>
      rw [heq, hshown]
      omega
  . intro old hold record hrecord heq
    rw [List.mem_append, List.mem_singleton] at hold hrecord
    cases hold with
    | inl hmem =>
      have hlt := h.below old hmem
      cases hrecord with
      | inl hmem' => exact h.recorded old hmem record hmem' heq
      | inr hnew =>
        rw [hnew] at heq
        omega
    | inr hnew =>
      rw [hnew] at heq
      rw [hnew]
      cases hrecord with
      | inl hmem' =>
        have := hhistory record hmem'
        omega
      | inr hnew' =>
        rw [hnew']
        exact hid

/--
Where an entry with an earlier sequence is put back, it stands in its order.
-/
theorem insert (h : SequencedAt timeline history nextSequence) {shown : SnapshotTimelineEntry}
    (hnew : ∀ old ∈ timeline, old.sequence ≠ shown.sequence) (hbelow : shown.sequence < nextSequence)
    (hrecorded : ∀ entry ∈ history, entry.sequence = shown.sequence →
      entry.canonicalId = shown.canonicalId)
    {before after : List SnapshotTimelineEntry} (hsplit : timeline = before ++ after)
    (hbefore : ∀ old ∈ before, old.sequence ≤ shown.sequence)
    (hafter : ∀ old, after.head? = some old → shown.sequence < old.sequence)
    : SequencedAt (before ++ shown :: after) history nextSequence := by
  have hsorted := h.sorted
  rw [hsplit, List.pairwise_append] at hsorted
  have hlt : ∀ old ∈ before, old.sequence < shown.sequence := by
    intro old hold
    have hle := hbefore old hold
    have hne := hnew old (by rw [hsplit]; exact List.mem_append_left after hold)
    omega
  have hgt : ∀ old ∈ after, shown.sequence < old.sequence := by
    intro old hold
    cases hcases : after with
    | nil =>
      rw [hcases] at hold
      contradiction
    | cons first rest =>
      rw [hcases] at hold hafter hsorted
      have hfirst := hafter first rfl
      have hrest := (List.pairwise_cons.mp hsorted.2.1).1
      cases List.mem_cons.mp hold with
      | inl heq =>
        rw [heq]
        exact hfirst
      | inr hmem =>
        have := hrest old hmem
        omega
  have hcases : ∀ old ∈ before ++ shown :: after, old ∈ timeline ∨ old = shown := by
    intro old hold
    rw [hsplit]
    simp only [List.mem_append, List.mem_cons] at hold ⊢
    rcases hold with hold | hold | hold
    . exact .inl (.inl hold)
    . exact .inr hold
    . exact .inl (.inr hold)
  constructor
  . rw [List.pairwise_append, List.pairwise_cons]
    refine ⟨hsorted.1, ⟨hgt, hsorted.2.1⟩, ?_⟩
    intro old hold other hother
    cases List.mem_cons.mp hother with
    | inl heq =>
      rw [heq]
      exact hlt old hold
    | inr hmem => exact hsorted.2.2 old hold other hmem
  . intro old hold
    cases hcases old hold with
    | inl hmem => exact h.below old hmem
    | inr heq =>
      rw [heq]
      exact hbelow
  . intro old hold entry hentry heq
    cases hcases old hold with
    | inl hmem => exact h.recorded old hmem entry hentry heq
    | inr hshown =>
      rw [hshown] at heq
      rw [hshown]
      exact hrecorded entry hentry heq

end SequencedAt

/-! The invariant -/

theorem BoundedAt.sequence_lt {history : List SnapshotHistoryEntry}
    {historyBytes unavailableCount nextSequence : Nat}
    (h : BoundedAt history historyBytes unavailableCount nextSequence)
    (hlt : nextSequence < U64_MAX)
    : ∀ entry ∈ history, entry.sequence < nextSequence := by
  intro entry hentry
  rw [List.mem_iff_getElem?] at hentry
  cases hentry with
  | intro i hi =>
    have hsequence : entry.sequence = unavailableCount + i := h.sequences hlt i entry hi
    have hnext := h.next hlt
    have := (List.getElem?_eq_some_iff.mp hi).1
    omega

namespace SessionSnapshot

/--
The live window. The tool `pending` may be shown before it is live, and `spare` more tools fit.
-/
structure LiveBut (isTool : String → Prop) (pending : Option String) (spare : Nat)
    (s : SessionSnapshot) : Prop where
  bounded : s.Bounded
  shown : ShownAt isTool (fun id => s.tools.contains id ∨ pending = some id) s.messages s.timeline
  sequenced : s.nextSequence < U64_MAX → SequencedAt s.timeline s.history s.nextSequence
  messages_le : s.messages.length ≤ MAX_MESSAGES
  tools_le : (s.timeline.filterMap SnapshotTimelineEntry.toolCall?).length + spare ≤ MAX_TOOLS

def Live (isTool : String → Prop) (s : SessionSnapshot) : Prop :=
  s.LiveBut isTool none 0

variable {isTool : String → Prop} {pending : Option String} {spare : Nat}

theorem LiveBut.length_timeline_le {s : SessionSnapshot} (h : s.LiveBut isTool pending spare)
    : s.timeline.length + spare ≤ s.messages.length + MAX_TOOLS := by
  have hlength := length_timeline s.timeline
  have htools := h.tools_le
  rw [h.shown.order, List.length_map] at hlength
  omega

theorem LiveBut.toolCalls_perm {s : SessionSnapshot} (h : s.LiveBut isTool none spare)
    : (s.timeline.filterMap SnapshotTimelineEntry.toolCall?).Perm s.tools.keys := by
  rw [List.perm_ext_iff_of_nodup h.shown.toolIds TreeMap.nodup_keys]
  intro id
  rw [h.shown.mem_iff, TreeMap.mem_keys, TreeMap.mem_iff_contains]
  simp

theorem LiveBut.length_tools {s : SessionSnapshot} (h : s.LiveBut isTool none spare)
    : (s.timeline.filterMap SnapshotTimelineEntry.toolCall?).length = s.tools.size := by
  rw [h.toolCalls_perm.length_eq, TreeMap.length_keys]

theorem LiveBut.spareLess {s : SessionSnapshot} (h : s.LiveBut isTool pending spare)
    : s.LiveBut isTool pending 0 where
  bounded := h.bounded
  shown := h.shown
  sequenced := h.sequenced
  messages_le := h.messages_le
  tools_le := by
    have := h.tools_le
    omega

/--
What the timeline shows is not affected by the history.
-/
theorem LiveBut.evicts {s t : SessionSnapshot} (h : s.LiveBut isTool pending spare)
    {history : List SnapshotHistoryEntry} (hevicts : s.Evicts history t) (hbounded : t.Bounded)
    (hhistory : ∀ entry' ∈ history, ∃ entry ∈ s.history, entry'.sequence = entry.sequence
      ∧ entry'.canonicalId = entry.canonicalId)
    : t.LiveBut isTool pending spare := by
  rcases hevicts with ⟨gone, historyBytes, unavailableCount, rfl⟩
  refine ⟨hbounded, h.shown, ?_, h.messages_le, h.tools_le⟩
  intro hlt
  apply (h.sequenced hlt).withHistory
  intro entry' hentry'
  exact hhistory entry' (List.mem_of_mem_drop hentry')

theorem mem_modify {history : List SnapshotHistoryEntry} {index : Nat}
    {update : SnapshotHistoryEntry → SnapshotHistoryEntry} {entry' : SnapshotHistoryEntry}
    (h : entry' ∈ history.modify index update)
    : ∃ entry ∈ history, entry' = entry ∨ entry' = update entry := by
  rw [List.mem_iff_getElem?] at h
  cases h with
  | intro i hi =>
    rw [List.getElem?_modify] at hi
    cases hentry : history[i]? with
    | none =>
      rw [hentry] at hi
      contradiction
    | some entry =>
      rw [hentry] at hi
      refine ⟨entry, List.mem_of_getElem? hentry, ?_⟩
      have hi := Option.some.inj hi
      dsimp only at hi
      split at hi
      . exact .inr hi.symm
      . exact .inl hi.symm

theorem mutateHistoryEntryAt_live {s : SessionSnapshot} (h : s.LiveBut isTool pending spare)
    {index : Nat} (hindex : index < s.history.length)
    {update : SnapshotHistoryEntry → SnapshotHistoryEntry}
    (hupdate : ∀ entry, (update entry).sequence = entry.sequence
      ∧ (update entry).canonicalId = entry.canonicalId)
    : (s.mutateHistoryEntryAt index update).Yields (· = .fullToolSnapshot)
        (LiveBut isTool pending spare) := by
  have hbounded := mutateHistoryEntryAt_keeps h.bounded hindex fun entry => (hupdate entry).1
  apply Except.Yields.mono ((mutateHistoryEntryAt_evicts s index update).and hbounded)
  intro t ht
  apply h.evicts ht.1 ht.2
  intro entry' hentry'
  rcases mem_modify hentry' with ⟨entry, hentry, rfl | rfl⟩
  . exact ⟨entry', hentry, rfl, rfl⟩
  . exact ⟨entry, hentry, hupdate entry⟩

theorem keptByRuns_live : KeptByRuns (· = .fullToolSnapshot) (LiveBut isTool pending spare) := by
  constructor
  case toKeptByUpdates =>
    constructor
    . intro s h tools hkeys activeToolIds subagentHeaders
      refine ⟨h.bounded, ?_, h.sequenced, h.messages_le, h.tools_le⟩
      apply h.shown.congr
      intro id
      dsimp only
      rw [hkeys]
    . intro s h index hindex update hupdate
      apply mutateHistoryEntryAt_live h hindex
      intro entry
      cases hupdate entry with
      | intro tool htool =>
        rw [htool]
        exact ⟨rfl, rfl⟩
  case sameTools =>
    intro s t h hsame htools
    rcases hsame with ⟨hmessages, htimeline, hnext, hhistory, hbytes, hunavailable⟩
    have hbounded := h.bounded
    unfold Bounded at hbounded
    constructor
    . unfold Bounded
      rwa [hhistory, hbytes, hunavailable, hnext]
    . rw [hmessages, htimeline, htools]
      exact h.shown
    . rw [htimeline, hhistory, hnext]
      exact h.sequenced
    . rw [hmessages]
      exact h.messages_le
    . rw [htimeline]
      exact h.tools_le

/-! Messages -/

theorem updateHistoryMessage_live {s : SessionSnapshot} (h : s.LiveBut isTool pending spare)
    (message : SnapshotMessage)
    : (s.updateHistoryMessage message).Yields (· = .fullToolSnapshot)
        (LiveBut isTool pending spare) := by
  unfold updateHistoryMessage
  split
  . next hindex =>
    exact mutateHistoryEntryAt_live h (historyMessageIdx_eq_some hindex).1 fun _ => ⟨rfl, rfl⟩
  . exact h

theorem LiveBut.setMessage {s : SessionSnapshot} (h : s.LiveBut isTool pending spare) {index : Nat}
    {old new : SnapshotMessage} (hold : s.messages[index]? = some old) (hid : new.id = old.id)
    (hrole : new.role = old.role)
    : ({ s with messages := s.messages.set index new } : SessionSnapshot).LiveBut isTool pending
        spare where
  bounded := h.bounded
  shown := h.shown.setMessage hold hid hrole
  sequenced := h.sequenced
  messages_le := by
    rw [List.length_set]
    exact h.messages_le
  tools_le := h.tools_le

theorem attachTurnUsage_live {s : SessionSnapshot} (h : s.LiveBut isTool pending spare)
    (usage : BridgeTurnUsageSnapshot)
    : (s.attachTurnUsage usage).Yields (· = .fullToolSnapshot) (LiveBut isTool pending spare) := by
  unfold attachTurnUsage
  split
  . exact h
  . split
    . exact h
    . next hold =>
      apply updateHistoryMessage_live
      exact h.setMessage hold rfl rfl

/--
After making room another message fits, and so does an entry of the timeline.
-/
theorem makeRoomForMessage_live {s : SessionSnapshot} (h : s.Live isTool)
    : s.makeRoomForMessage.Yields (· = .fullToolSnapshot) fun t =>
        t.Live isTool ∧ t.messages.length < MAX_MESSAGES ∧ t.messages ⊆ s.messages := by
  unfold makeRoomForMessage
  split
  . next hfull =>
    split
    . simp
    . next removed messages heq =>
      rw [heq, List.length_cons] at hfull
      have hshown := h.shown
      rw [heq] at hshown
      have htools := h.tools_le
      have hhide := List.length_filter_le (· != removed.id)
        (s.timeline.filterMap SnapshotTimelineEntry.toolCall?)
      refine ⟨⟨h.bounded, hshown.hideMessage, ?_, ?_, ?_⟩, ?_, ?_⟩
      . intro hlt
        exact (h.sequenced hlt).filter _
      . dsimp only
        omega
      . rw [ShownAt.filterMap_toolCall?_hide]
        omega
      . dsimp only
        omega
      . rw [heq]
        exact List.subset_cons_self removed messages
  . next hroom =>
    have hle := h.messages_le
    exact ⟨h, by omega, List.Subset.refl _⟩

/--
What `push_timeline` does when the timeline is not full.
-/
structure Shows (s : SessionSnapshot) (kind : SnapshotTimelineKind) (id : String)
    (t : SessionSnapshot) : Prop extends s.Pushes kind id t where
  tools : t.tools = s.tools
  timeline_eq : t.timeline = s.timeline ++ [{ sequence := s.nextSequence, kind, canonicalId := id }]

theorem pushTimeline_shows {s : SessionSnapshot} (hroom : s.timeline.length < MAX_TIMELINE_ENTRIES)
    (kind : SnapshotTimelineKind) (id : String)
    : (s.pushTimeline kind id).Yields (· = .fullToolSnapshot) (s.Shows kind id) := by
  have hpushes := pushTimeline_pushes s kind id
  have hevicts : (s.pushTimeline kind id).Yields (· = .fullToolSnapshot) fun t =>
      t.tools = s.tools
        ∧ t.timeline = s.timeline ++ [{ sequence := s.nextSequence, kind, canonicalId := id }] := by
    unfold pushTimeline
    apply Except.Yields.mono (pushHistory_evicts _ _)
    rintro t ⟨gone, historyBytes, unavailableCount, rfl⟩
    rw [if_neg (by omega)]
    cases kind <;> exact ⟨rfl, rfl⟩
  apply Except.Yields.mono (hevicts.and hpushes)
  intro t ht
  exact ⟨ht.2, ht.1.1, ht.1.2⟩

theorem Shows.sequenced {s t : SessionSnapshot} {kind : SnapshotTimelineKind} {id : String}
    (hshows : s.Shows kind id t) (h : s.LiveBut isTool pending spare)
    (hlt : t.nextSequence < U64_MAX)
    : SequencedAt t.timeline t.history t.nextSequence := by
  have hnext := hshows.nextSequence
  have hsucc : saturatingAdd U64_MAX s.nextSequence 1 < U64_MAX → s.nextSequence + 1 < U64_MAX := by
    unfold saturatingAdd
    split <;> omega
  rw [hnext] at hlt
  have hlt := hsucc hlt
  rw [hshows.timeline_eq, hshows.nextSequence_succ (by omega)]
  have hpush : SequencedAt (s.timeline ++ [{ sequence := s.nextSequence, kind, canonicalId := id }])
      (s.history ++ [s.newEntry kind id]) (s.nextSequence + 1) :=
    (h.sequenced (by omega)).push (h.bounded.sequence_lt (by omega)) rfl rfl rfl
  apply hpush.withHistory
  intro entry hentry
  refine ⟨entry, ?_, rfl, rfl⟩
  rw [List.mem_append, List.mem_singleton]
  exact hshows.history_subset entry hentry

/--
A message that is not live is added to the live window.
-/
theorem insertMessage_live {s : SessionSnapshot} (h : s.Live isTool)
    (hroom : s.messages.length < MAX_MESSAGES) {id : String} (hid : ¬isTool id)
    (hnew : ∀ old ∈ s.messages, old.id ≠ id) (role : MessageRole) (content : String)
    (contentBlock : Option Json)
    : (s.insertMessage id role content contentBlock).Yields (· = .fullToolSnapshot)
        (Live isTool) := by
  unfold insertMessage
  have hlength := h.length_timeline_le
  have htimeline : s.timeline.length < MAX_TIMELINE_ENTRIES := by
    unfold MAX_TIMELINE_ENTRIES
    omega
  apply Except.Yields.bind ((pushTimeline_shows htimeline (timelineKind role) id).and
    (pushTimeline_keeps h.bounded _ _))
  rintro t ⟨hshows, hbounded⟩
  apply updateHistoryMessage_live
  have htools := h.tools_le
  refine ⟨hbounded, ?_, hshows.sequenced h, ?_, ?_⟩
  . rw [hshows.messages, hshows.timeline_eq, hshows.tools]
    exact h.shown.addMessage hid hnew rfl rfl
  . rw [hshows.messages, List.length_append, List.length_singleton]
    omega
  . rw [hshows.timeline_eq, List.filterMap_append, List.filterMap_cons_none]
    . simpa using htools
    . exact (SnapshotTimelineEntry.message?_of_ne_tool (timelineKind_ne_tool role)).2

theorem appendMessage_live {s : SessionSnapshot} (h : s.Live isTool) {id : String}
    (hid : ¬isTool id) (role : MessageRole) (content : String) (contentBlock : Option Json)
    : (s.appendMessage id role content contentBlock).Yields (· = .fullToolSnapshot)
        (Live isTool) := by
  unfold appendMessage
  split
  . next message hfind =>
    apply updateHistoryMessage_live
    have hold : s.messages[s.messages.findIdx (·.id == id)]? = some message := by
      rw [← List.find?_eq_getElem?_findIdx, hfind]
    exact LiveBut.setMessage h hold rfl rfl
  . next hfind =>
    rw [List.find?_eq_none] at hfind
    apply Except.Yields.bind (makeRoomForMessage_live h)
    rintro t ⟨hlive, hroom, hsubset⟩
    apply insertMessage_live hlive hroom hid
    intro old hold
    simpa using hfind old (hsubset hold)

/-! Tools -/

/--
A live tool is shown, so there is always an oldest one to evict.
-/
theorem evictOldestTool_live {s : SessionSnapshot} (h : s.Live isTool)
    (hfull : s.tools.size ≥ MAX_TOOLS)
    : s.evictOldestTool.Yields (· = .fullToolSnapshot) (LiveBut isTool none 1) := by
  unfold evictOldestTool
  split
  . next hnone =>
    exfalso
    rw [List.find?_eq_none] at hnone
    have hlength := h.length_tools
    have hpos : 0 < (s.timeline.filterMap SnapshotTimelineEntry.toolCall?).length := by
      have : 0 < MAX_TOOLS := by decide
      omega
    rcases List.exists_mem_of_length_pos hpos with ⟨id, hid⟩
    have hlive := (h.shown.mem_iff id).mp hid
    rw [List.mem_filterMap] at hid
    rcases hid with ⟨shown, hshown, hcall⟩
    unfold SnapshotTimelineEntry.toolCall? at hcall
    split at hcall
    . next hkind =>
      have hid := Option.some.inj hcall
      have hcontains : s.tools.contains id := by simpa using hlive
      apply hnone shown hshown
      simp [hkind, hid, hcontains]
    . contradiction
  . next entry hentry =>
    have hcontains := List.find?_some hentry
    rw [Bool.and_eq_true] at hcontains
    have hlive : s.tools.contains entry.canonicalId ∨ none = some entry.canonicalId :=
      .inl hcontains.2
    apply expireTombstones_keeps keptByRuns_live.toKeptByUpdates
    refine ⟨h.bounded, ?_, ?_, h.messages_le, ?_⟩
    . apply (h.shown.hideTool hlive).congr
      intro id
      dsimp only
      rw [TreeMap.contains_erase, Bool.and_eq_true, bne_iff_ne, ne_eq, Std.compare_eq_iff_eq,
        eq_comm (a := entry.canonicalId)]
      simp only [reduceCtorEq, or_false]
      exact and_comm
    . intro hlt
      exact (h.sequenced hlt).filter _
    . have hmem := (h.shown.mem_iff entry.canonicalId).mpr hlive
      have hle := h.tools_le
      have hpos := List.length_pos_of_mem hmem
      rw [ShownAt.filterMap_toolCall?_hide, ← h.shown.toolIds.erase_eq_filter,
        List.length_erase_of_mem hmem]
      omega

/--
After making room either the tool is live already or another one fits.
-/
theorem makeRoomForTool_live {s : SessionSnapshot} (h : s.Live isTool) (id : String)
    : (s.makeRoomForTool id).Yields (· = .fullToolSnapshot) fun t =>
        t.Live isTool ∧ (t.tools.contains id ∨ t.LiveBut isTool none 1) := by
  unfold makeRoomForTool
  split
  . next hfull =>
    simp only [Bool.and_eq_true, decide_eq_true_eq] at hfull
    apply Except.Yields.mono (evictOldestTool_live h hfull.1)
    intro t ht
    exact ⟨ht.spareLess, .inr ht⟩
  . next hroom =>
    refine ⟨h, ?_⟩
    by_cases hcontains : s.tools.contains id
    . exact .inl hcontains
    . right
      simp only [Bool.and_eq_true, decide_eq_true_eq, not_and, hcontains] at hroom
      have hlength := h.length_tools
      refine ⟨h.bounded, h.shown, h.sequenced, h.messages_le, ?_⟩
      simp only [Bool.not_false, not_true_eq_false, imp_false] at hroom
      omega

theorem not_live {s : SessionSnapshot} {id : String} (h : ¬s.tools.contains id)
    : ¬(s.tools.contains id ∨ none = some id) := by
  intro hlive
  cases hlive with
  | inl hcontains => exact h hcontains
  | inr heq => contradiction

theorem live_or_eq {s : SessionSnapshot} {id other : String}
    : s.tools.contains other ∨ some id = some other
        ↔ (s.tools.contains other ∨ none = some other) ∨ other = id := by
  rw [Option.some_inj, eq_comm (a := id)]
  simp only [reduceCtorEq, or_false]

/--
A new entry for a tool that is not live, at the end of the timeline.
-/
theorem pushTool_live {s : SessionSnapshot} (h : s.LiveBut isTool none 1) {id : String}
    (hid : isTool id) (hnew : ¬s.tools.contains id)
    : (s.pushTimeline .tool id).Yields (· = .fullToolSnapshot) (LiveBut isTool (some id) 0) := by
  have hlength := h.length_timeline_le
  have hmessages := h.messages_le
  have htools := h.tools_le
  have htimeline : s.timeline.length < MAX_TIMELINE_ENTRIES := by
    unfold MAX_TIMELINE_ENTRIES
    omega
  apply Except.Yields.mono ((pushTimeline_shows htimeline .tool id).and
    (pushTimeline_keeps h.bounded _ _))
  rintro t ⟨hshows, hbounded⟩
  refine ⟨hbounded, ?_, hshows.sequenced h, ?_, ?_⟩
  . rw [hshows.messages, hshows.timeline_eq, hshows.tools]
    have hshown := h.shown
    rw [← List.append_nil s.timeline] at hshown
    exact (hshown.addTool rfl hid (not_live hnew)).congr fun _ => live_or_eq
  . rw [hshows.messages]
    exact hmessages
  . rw [hshows.timeline_eq, List.filterMap_append, List.length_append]
    have hone : ([{ sequence := s.nextSequence, kind := .tool, canonicalId := id }].filterMap
        SnapshotTimelineEntry.toolCall?).length ≤ 1 := List.length_filterMap_le _ _
    omega

/--
A tool that is not live is shown again where its entry of the history stands.
-/
theorem insertTool_live {s : SessionSnapshot} (h : s.LiveBut isTool none 1)
    {entry : SnapshotHistoryEntry} (hentry : entry ∈ s.history) (hid : isTool entry.canonicalId)
    (hnew : ¬s.tools.contains entry.canonicalId)
    : ({ s with
        timeline := s.timeline.insertIdx (s.timeline.findIdx (·.sequence > entry.sequence))
          { sequence := entry.sequence, kind := .tool, canonicalId := entry.canonicalId }
        } : SessionSnapshot).LiveBut isTool (some entry.canonicalId) 0 := by
  rcases List.insertIdx_findIdx (fun shown => decide (shown.sequence > entry.sequence))
    { sequence := entry.sequence, kind := .tool, canonicalId := entry.canonicalId } s.timeline
    with ⟨before, after, hsplit, hinsert, hbefore, hafter⟩
  have hshown := h.shown
  rw [hsplit] at hshown
  refine ⟨h.bounded, ?_, ?_, h.messages_le, ?_⟩
  . rw [hinsert]
    exact (hshown.addTool rfl hid (not_live hnew)).congr fun _ => live_or_eq
  . intro hlt
    dsimp only at hlt ⊢
    have hsequenced := h.sequenced hlt
    rw [hinsert]
    apply hsequenced.insert _ (h.bounded.sequence_lt hlt entry hentry) _ hsplit
    . intro old hold
      have := hbefore old hold
      simpa using this
    . intro old hold
      have := hafter old hold
      simpa using this
    . -- An entry of the timeline with that sequence would show the tool.
      intro old hold heq
      rw [hsequenced.recorded old hold entry hentry heq.symm] at hid hnew
      cases h.shown.live_or_ordinary hold with
      | inl hlive => exact not_live hnew hlive
      | inr hordinary => exact hordinary hid
    . intro other hother heq
      rw [List.mem_iff_getElem?] at hother hentry
      rcases hother with ⟨i, hi⟩
      rcases hentry with ⟨j, hj⟩
      have hidx := (h.bounded.sequences hlt).idx_inj hi hj heq
      rw [hidx, hj] at hi
      rw [← Option.some.inj hi]
  . have htools := h.tools_le
    rw [hinsert]
    rw [hsplit] at htools
    simp only [List.filterMap_append, List.length_append] at htools ⊢
    rw [List.filterMap_cons]
    simp only [SnapshotTimelineEntry.toolCall?, ↓reduceIte, List.length_cons]
    omega

/--
A tool that is placed is shown.
-/
theorem placeNewTool_live {s : SessionSnapshot} {id : String} (h : s.Live isTool)
    (hroom : s.tools.contains id ∨ s.LiveBut isTool none 1) (hid : isTool id)
    : (s.placeNewTool id).Yields (· = .fullToolSnapshot) (LiveBut isTool (some id) 0 ·.1) := by
  unfold placeNewTool placeTool
  split
  . next hcontains =>
    refine ⟨h.bounded, ?_, h.sequenced, h.messages_le, h.tools_le⟩
    apply h.shown.congr
    intro other
    rw [live_or_eq]
    constructor
    . intro hlive
      cases hlive with
      | inl hlive => exact hlive
      | inr heq =>
        rw [heq]
        exact .inl hcontains
    . exact .inl
  . next hnew =>
    have hspare : s.LiveBut isTool none 1 := hroom.resolve_left hnew
    split
    . next entry hentry =>
      have hfound := List.find?_some hentry
      simp only [Bool.and_eq_true, beq_iff_eq] at hfound
      have hmem := List.mem_of_find?_eq_some hentry
      rw [List.mem_reverse] at hmem
      rw [← hfound.1] at hid hnew ⊢
      have hlive := insertTool_live hspare hmem hid hnew
      exact ⟨hlive.bounded, hlive.shown, hlive.sequenced, hlive.messages_le, hlive.tools_le⟩
    . have hidle := forgetIdleHeader_keeps keptByRuns_live.toKeptByUpdates hspare id
      have hnew' : ¬(s.forgetIdleHeader id).tools.contains id := by
        unfold forgetIdleHeader
        split <;> exact hnew
      apply Except.Yields.bind (pushTool_live hidle hid hnew')
      intro t ht
      exact ht

theorem applyTool_live {s : SessionSnapshot} (h : s.Live isTool) {id : String} (hid : isTool id)
    (generation : Option Nat) (projection : ToolProjection)
    : (s.applyTool id generation projection).Yields (· = .fullToolSnapshot) (Live isTool) := by
  have rules : ∀ pending, KeptByUpdates (· = .fullToolSnapshot) (LiveBut isTool pending 0) :=
    fun _ => keptByRuns_live.toKeptByUpdates
  unfold applyTool
  apply Except.Yields.bind (makeRoomForTool_live h id)
  rintro s ⟨h, hroom⟩
  apply Except.Yields.bind (placeNewTool_live h hroom hid)
  rintro ⟨s, retainedTool⟩ h
  apply attachOrUpdateHistoryTool_keeps (rules none)
  have hprojected := projectTool_keeps (rules (some id))
    (trackTool_keeps (rules (some id)) h id generation (isTerminalStatus projection.status)) id
    generation projection
  refine ⟨(hprojected _).bounded, ?_, (hprojected _).sequenced, (hprojected _).messages_le,
    (hprojected _).tools_le⟩
  apply (hprojected _).shown.congr
  intro other
  dsimp only
  rw [TreeMap.contains_insert, Bool.or_eq_true, beq_iff_eq, Std.compare_eq_iff_eq, live_or_eq,
    eq_comm (a := id)]
  simp only [reduceCtorEq, or_false]
  exact or_comm

end SessionSnapshot

/-! Runs -/

/--
The operation uses no id for a message and for a tool.
-/
def Operation.Respects (isTool : String → Prop) : Operation → Prop
  | .apply event =>
    (∀ id, event.chunkId? = some id → ¬isTool id) ∧ ∀ id, event.toolCallId? = some id → isTool id
  | _ => True

/--
The snapshots a session can hold when its events use different ids for messages and for tools.
-/
inductive ReachableWith (isTool : String → Prop) : SessionSnapshot → Prop where
  | new (agentId threadId : String) : ReachableWith isTool (.new agentId threadId)
  | perform {s t : SessionSnapshot} {operation : Operation} (h : ReachableWith isTool s)
      (hrespects : operation.Respects isTool) (hok : s.perform operation = .ok t)
    : ReachableWith isTool t
  | restore {s previous : SessionSnapshot} (h : ReachableWith isTool s)
      (hprevious : ReachableWith isTool previous)
    : ReachableWith isTool (s.restoreTranscriptFrom previous)
  | reorder {s : SessionSnapshot} {activeToolIds : List String} (h : ReachableWith isTool s)
      (hperm : activeToolIds.Perm s.activeToolIds)
    : ReachableWith isTool { s with activeToolIds }

variable {isTool : String → Prop}

theorem SessionSnapshot.perform_live {s : SessionSnapshot} (h : s.Live isTool)
    {operation : Operation} (hrespects : operation.Respects isTool)
    : (s.perform operation).Yields (· = .fullToolSnapshot) (Live isTool) := by
  have rules : KeptByRuns (· = .fullToolSnapshot) (Live isTool) := keptByRuns_live
  cases operation with
  | apply event =>
    apply apply_keeps rules h
    . intro id role content contentBlock hid
      exact appendMessage_live h (hrespects.1 id hid) _ _ _
    . intro id generation projection hid
      exact applyTool_live h (hrespects.2 id hid) _ _
    . intro s usage h
      exact attachTurnUsage_live h _
  | markSubagentTerminal childSessionId status =>
    apply Except.Yields.bind (markSubagentTerminal_keeps rules.toKeptByUpdates h childSessionId status)
    intro result h
    exact h
  | markSubagentToolTerminal toolCallId status toolStatus =>
    apply Except.Yields.bind
      (markSubagentToolTerminal_keeps rules.toKeptByUpdates h toolCallId status toolStatus)
    intro result h
    exact h
  | settleUnresolvedSubagentsWithoutRun =>
    exact settleUnresolvedSubagentsWithoutRun_keeps rules.toKeptByUpdates h

theorem SessionSnapshot.new_live (agentId threadId : String)
    : (SessionSnapshot.new agentId threadId).Live isTool where
  bounded := (Reachable.new agentId threadId).bounded
  shown := by
    refine ⟨rfl, List.nodup_nil, ?_, List.nodup_nil, ?_, ?_⟩ <;> simp [SessionSnapshot.new]
  sequenced _ := by
    constructor <;> simp [SessionSnapshot.new]
  messages_le := Nat.zero_le _
  tools_le := Nat.zero_le _

theorem ReachableWith.live {s : SessionSnapshot} (h : ReachableWith isTool s) : s.Live isTool := by
  induction h with
  | new agentId threadId => exact SessionSnapshot.new_live agentId threadId
  | perform _ hrespects hok ih => exact (SessionSnapshot.perform_live ih hrespects).of_ok hok
  | restore _ _ _ ih => exact ⟨ih.bounded, ih.shown, ih.sequenced, ih.messages_le, ih.tools_le⟩
  | reorder _ _ ih => exact ⟨ih.bounded, ih.shown, ih.sequenced, ih.messages_le, ih.tools_le⟩

/--
What the live window promises. `push_timeline` is called after making room for a message or for a tool.
-/
structure SessionSnapshot.LiveWindow (isTool : String → Prop) (s : SessionSnapshot) : Prop where
  sorted : s.nextSequence < U64_MAX → s.timeline.Pairwise (·.sequence < ·.sequence)
  messages : s.timeline.filterMap SnapshotTimelineEntry.message?
    = s.messages.map SnapshotMessage.shown
  messageIds : (s.messages.map (·.id)).Nodup
  tools : (s.timeline.filterMap SnapshotTimelineEntry.toolCall?).Perm s.tools.keys
  messages_le : s.messages.length ≤ MAX_MESSAGES
  tools_le : s.tools.size ≤ MAX_TOOLS
  timeline_le : s.timeline.length ≤ MAX_TIMELINE_ENTRIES
  evictsTool : ∀ operation : Operation, operation.Respects isTool →
    s.perform operation ≠ .error .fullToolSnapshot
  fitsMessage : ∀ t, s.makeRoomForMessage = .ok t → t.timeline.length < MAX_TIMELINE_ENTRIES
  fitsTool : ∀ id t, s.makeRoomForTool id = .ok t → ¬t.tools.contains id →
    (t.forgetIdleHeader id).timeline.length < MAX_TIMELINE_ENTRIES

/--
The timeline shows the messages in their order and every live tool once, and is in the order of its
sequences until they run out. Nothing outgrows its bound, so `apply_tool` always finds a tool to evict,
and `push_timeline` always finds room.
-/
theorem ReachableWith.liveWindow {s : SessionSnapshot} (h : ReachableWith isTool s)
    : s.LiveWindow isTool := by
  have hlive := h.live
  have htools := hlive.tools_le
  have hmessages := hlive.messages_le
  have hlength := hlive.length_timeline_le
  rw [hlive.length_tools] at htools
  refine ⟨fun hlt => (hlive.sequenced hlt).sorted, hlive.shown.order, hlive.shown.messageIds,
    hlive.toolCalls_perm, hmessages, by omega, ?_, ?_, ?_, ?_⟩
  . unfold MAX_TIMELINE_ENTRIES
    omega
  . intro operation hrespects
    apply Except.Yields.ne_error (SessionSnapshot.perform_live hlive hrespects)
    rfl
  . intro t hroom
    have ht := (SessionSnapshot.makeRoomForMessage_live hlive).of_ok hroom
    have hle := ht.1.length_timeline_le
    have hlt := ht.2.1
    unfold MAX_TIMELINE_ENTRIES
    omega
  . intro id t hroom hnew
    have ht := (SessionSnapshot.makeRoomForTool_live hlive id).of_ok hroom
    have hspare := SessionSnapshot.forgetIdleHeader_keeps
      SessionSnapshot.keptByRuns_live.toKeptByUpdates (ht.2.resolve_left hnew) id
    have hle := hspare.length_timeline_le
    have hlt := hspare.messages_le
    unfold MAX_TIMELINE_ENTRIES
    omega

/--
A tool call of the agent.
-/
def Operation.reading : Operation :=
  .apply (.tool "agent" "thread" none none none "t" .read .pending "read" .unchanged .unchanged
    .unchanged)

theorem ReachableWith.liveWindow_of_reading
    : ∃ s t, (SessionSnapshot.new "agent" "thread").perform .hello = .ok s
        ∧ s.perform .reading = .ok t
        ∧ t.timeline.map (·.canonicalId) = ["m", "t"]
        ∧ t.LiveWindow (· = "t") := by
  have hrun : (((SessionSnapshot.new "agent" "thread").perform .hello).toOption.bind fun s =>
      (s.perform .reading).toOption).any fun t => t.timeline.map (·.canonicalId) == ["m", "t"] := by
    decide +kernel
  rw [Option.any_eq_true] at hrun
  rcases hrun with ⟨t, hexec, hids⟩
  rw [Option.bind_eq_some_iff] at hexec
  rcases hexec with ⟨s, hs, ht⟩
  rw [Except.toOption_eq_some] at hs ht
  refine ⟨s, t, hs, ht, by simpa using hids, ?_⟩
  have hhello : Operation.hello.Respects (· = "t") := by
    simp [Operation.hello, Operation.Respects, CanonicalEvent.chunkId?, CanonicalEvent.toolCallId?]
  have hreading : Operation.reading.Respects (· = "t") := by
    simp [Operation.reading, Operation.Respects, CanonicalEvent.chunkId?, CanonicalEvent.toolCallId?]
  exact ReachableWith.liveWindow
    (.perform (.perform (.new "agent" "thread") hhello hs) hreading ht)

end Snapshot
