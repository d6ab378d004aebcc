import Mathlib.Data.List.InsertIdx
import TetherBridge.Transition.Basic
import TetherBridge.Data.Window
import TetherBridge.Snapshot.Eviction
import TetherBridge.Snapshot.Rules

/-!
This module contains the agreement between the timeline, the live messages and the history: the
history entry of a message that is shown carries that message as it is now, and a chunk writes to no
other entry. Both hold as long as no chunk is for a message that is only in the history any more.
-/

namespace Snapshot

open Acp Transition

/--
What a history entry has to say about messages.
-/
structure Record where
  sequence : Nat
  id : String
  message : Option SnapshotMessage

def SnapshotHistoryEntry.record (entry : SnapshotHistoryEntry) : Record :=
  { sequence := entry.sequence, id := entry.canonicalId, message := entry.message }

@[simp]
theorem SnapshotHistoryEntry.record_withTool (entry : SnapshotHistoryEntry)
    (tool : Option SnapshotTool)
    : ({ entry with tool } : SnapshotHistoryEntry).record = entry.record := rfl

/--
The invariant between the messages, the timeline, `next_sequence` and the records of the history. The
record of the message `pending` is about to be written.
-/
structure AgreedAt (isTool : String → Prop) (pending : Option String)
    (messages : List SnapshotMessage) (timeline : List SnapshotTimelineEntry) (nextSequence : Nat)
    (records : List Record) : Prop where
  nodup : (messages.map (·.id)).Nodup
  message : ∀ message ∈ messages, ¬isTool message.id
  recorded : ∀ record ∈ records, ¬isTool record.id → pending ≠ some record.id →
    record.message.isSome
  live : ∀ message ∈ messages, ∀ record ∈ records, record.id = message.id →
    pending ≠ some record.id → record.message = some message
  distinct : (records.map (·.id)).Pairwise fun a b => a = b → isTool a
  sequences : (records.map (·.sequence)).Nodup
  record_lt : ∀ record ∈ records, record.sequence < nextSequence
  timeline_lt : ∀ shown ∈ timeline, shown.sequence < nextSequence
  shown : ∀ shown ∈ timeline, shown.kind ≠ .tool →
    (∃ message ∈ messages, message.id = shown.canonicalId)
      ∧ ∀ record ∈ records, record.sequence = shown.sequence → record.id = shown.canonicalId

namespace AgreedAt

variable {isTool : String → Prop} {pending : Option String} {messages : List SnapshotMessage}
  {timeline : List SnapshotTimelineEntry} {nextSequence : Nat} {records : List Record}

theorem nil : AgreedAt isTool none [] [] 0 [] := by
  constructor <;> simp

theorem sublist (h : AgreedAt isTool pending messages timeline nextSequence records)
    {records' : List Record} (hsub : records'.Sublist records)
    : AgreedAt isTool pending messages timeline nextSequence records' where
  nodup := h.nodup
  message := h.message
  recorded record hrecord := h.recorded record (hsub.subset hrecord)
  live message hmessage record hrecord := h.live message hmessage record (hsub.subset hrecord)
  distinct := h.distinct.sublist (hsub.map _)
  sequences := h.sequences.sublist (hsub.map _)
  record_lt record hrecord := h.record_lt record (hsub.subset hrecord)
  timeline_lt := h.timeline_lt
  shown shown hshown hkind := by
    have hshown := h.shown shown hshown hkind
    exact ⟨hshown.1, fun record hrecord => hshown.2 record (hsub.subset hrecord)⟩

theorem timeline_subset (h : AgreedAt isTool pending messages timeline nextSequence records)
    {timeline' : List SnapshotTimelineEntry} (hsub : timeline' ⊆ timeline)
    : AgreedAt isTool pending messages timeline' nextSequence records :=
  { h with
    timeline_lt := fun shown hshown => h.timeline_lt shown (hsub hshown)
    shown := fun shown hshown => h.shown shown (hsub hshown) }

/--
A tool entry in the timeline says nothing about messages.
-/
theorem timeline_tool (h : AgreedAt isTool pending messages timeline nextSequence records)
    {timeline' : List SnapshotTimelineEntry} {shown : SnapshotTimelineEntry}
    (hsub : ∀ entry ∈ timeline', entry = shown ∨ entry ∈ timeline) (hkind : shown.kind = .tool)
    (hlt : shown.sequence < nextSequence)
    : AgreedAt isTool pending messages timeline' nextSequence records :=
  { h with
    timeline_lt := by
      intro entry hentry
      cases hsub entry hentry with
      | inl heq => rw [heq]; exact hlt
      | inr hmem => exact h.timeline_lt entry hmem
    shown := by
      intro entry hentry hkind'
      cases hsub entry hentry with
      | inl heq =>
        rw [heq] at hkind'
        contradiction
      | inr hmem => exact h.shown entry hmem hkind' }

/--
The oldest live message goes together with its timeline entries.
-/
theorem dropMessage {removed : SnapshotMessage}
    (h : AgreedAt isTool pending (removed :: messages) timeline nextSequence records)
    : AgreedAt isTool pending messages (timeline.filter (·.canonicalId != removed.id)) nextSequence
        records where
  nodup := h.nodup.of_cons
  message message hmessage := h.message message (List.mem_cons_of_mem _ hmessage)
  recorded := h.recorded
  live message hmessage := h.live message (List.mem_cons_of_mem _ hmessage)
  distinct := h.distinct
  sequences := h.sequences
  record_lt := h.record_lt
  timeline_lt shown hshown := h.timeline_lt shown (List.mem_of_mem_filter hshown)
  shown shown hshown hkind := by
    rw [List.mem_filter, bne_iff_ne] at hshown
    have hlive := h.shown shown hshown.1 hkind
    refine ⟨?_, hlive.2⟩
    rcases hlive.1 with ⟨message, hmessage, hid⟩
    rw [List.mem_cons] at hmessage
    cases hmessage with
    | inl heq =>
      rw [← hid, heq] at hshown
      exact absurd rfl hshown.2
    | inr hmem => exact ⟨message, hmem, hid⟩

/--
A live message changes, and its record is to follow.
-/
theorem setMessage (h : AgreedAt isTool none messages timeline nextSequence records) {index : Nat}
    {old new : SnapshotMessage} (hold : messages[index]? = some old) (hid : new.id = old.id)
    : AgreedAt isTool (some new.id) (messages.set index new) timeline nextSequence records := by
  have hids : (messages.set index new).map (·.id) = messages.map (·.id) :=
    List.map_set_of_eq hold hid
  constructor
  case nodup =>
    rw [hids]
    exact h.nodup
  case message =>
    intro message hmessage
    have hmem := List.mem_map_of_mem (f := (·.id)) hmessage
    rw [hids, List.mem_map] at hmem
    rcases hmem with ⟨message', hmem, heq⟩
    rw [← heq]
    exact h.message message' hmem
  case recorded =>
    intro record hrecord htool _
    exact h.recorded record hrecord htool (by simp)
  case live =>
    intro message hmessage record hrecord heq hpending
    cases List.mem_or_eq_of_mem_set hmessage with
    | inl hmem => exact h.live message hmem record hrecord heq (by simp)
    | inr hnew =>
      rw [heq, hnew] at hpending
      contradiction
  case distinct => exact h.distinct
  case sequences => exact h.sequences
  case record_lt => exact h.record_lt
  case timeline_lt => exact h.timeline_lt
  case shown =>
    intro shown hshown hkind
    have hlive := h.shown shown hshown hkind
    refine ⟨?_, hlive.2⟩
    have hmem := List.mem_map.mpr hlive.1
    rw [← hids, List.mem_map] at hmem
    exact hmem

/--
A message is added that the history knows nothing of, and its record is to follow.
-/
theorem addMessage (h : AgreedAt isTool none messages timeline nextSequence records)
    {message : SnapshotMessage} (htool : ¬isTool message.id)
    (hlive : ∀ old ∈ messages, old.id ≠ message.id)
    : AgreedAt isTool (some message.id) (messages ++ [message]) timeline nextSequence records := by
  constructor
  case nodup =>
    rw [List.map_append, List.nodup_append]
    refine ⟨h.nodup, by simp, ?_⟩
    simpa using hlive
  case message => simpa [or_imp, forall_and] using ⟨h.message, htool⟩
  case recorded =>
    intro record hrecord htool _
    exact h.recorded record hrecord htool (by simp)
  case live =>
    intro live hmem record hrecord heq hpending
    rw [List.mem_append, List.mem_singleton] at hmem
    cases hmem with
    | inl hmem => exact h.live live hmem record hrecord heq (by simp)
    | inr hnew =>
      rw [heq, hnew] at hpending
      contradiction
  case distinct => exact h.distinct
  case sequences => exact h.sequences
  case record_lt => exact h.record_lt
  case timeline_lt => exact h.timeline_lt
  case shown =>
    intro shown hshown hkind
    have hlive := h.shown shown hshown hkind
    refine ⟨?_, hlive.2⟩
    rcases hlive.1 with ⟨message, hmem, hid⟩
    exact ⟨message, List.mem_append_left _ hmem, hid⟩

/--
A record is added, of a tool or of the message that is pending.
-/
theorem addRecord (h : AgreedAt isTool pending messages timeline nextSequence records) {id : String}
    (hnew : isTool id ∨ pending = some id ∧ ∀ record ∈ records, record.id ≠ id)
    : AgreedAt isTool pending messages timeline (nextSequence + 1)
        (records ++ [{ sequence := nextSequence, id, message := none }]) := by
  constructor
  case nodup => exact h.nodup
  case message => exact h.message
  case recorded =>
    intro record hrecord htool hpending
    rw [List.mem_append, List.mem_singleton] at hrecord
    cases hrecord with
    | inl hmem => exact h.recorded record hmem htool hpending
    | inr heq =>
      rw [heq] at htool hpending
      cases hnew with
      | inl hid => contradiction
      | inr hid => exact absurd hid.1 hpending
  case live =>
    intro message hmessage record hrecord hid hpending
    rw [List.mem_append, List.mem_singleton] at hrecord
    cases hrecord with
    | inl hmem => exact h.live message hmessage record hmem hid hpending
    | inr heq =>
      cases hnew with
      | inl htool =>
        subst heq
        exact absurd (hid ▸ htool) (h.message message hmessage)
      | inr hid =>
        rw [heq] at hpending
        exact absurd hid.1 hpending
  case distinct =>
    rw [List.map_append, List.map_singleton, List.pairwise_append]
    refine ⟨h.distinct, List.pairwise_singleton _ _, ?_⟩
    intro old hold new hmem heq
    rw [List.mem_singleton] at hmem
    cases hnew with
    | inl htool =>
      rw [heq, hmem]
      exact htool
    | inr hid =>
      rw [List.mem_map] at hold
      rcases hold with ⟨record, hrecord, hold⟩
      rw [← hold, hmem] at heq
      exact absurd heq (hid.2 record hrecord)
  case sequences =>
    rw [List.map_append, List.map_singleton, List.nodup_append]
    refine ⟨h.sequences, List.nodup_singleton _, ?_⟩
    intro sequence hsequence new hmem
    rw [List.mem_singleton] at hmem
    rw [List.mem_map] at hsequence
    rcases hsequence with ⟨record, hrecord, hsequence⟩
    rw [hmem, ← hsequence]
    exact Nat.ne_of_lt (h.record_lt record hrecord)
  case record_lt =>
    intro record hrecord
    rw [List.mem_append, List.mem_singleton] at hrecord
    cases hrecord with
    | inl hmem => exact Nat.lt_succ_of_lt (h.record_lt record hmem)
    | inr heq =>
      rw [heq]
      exact Nat.lt_succ_self _
  case timeline_lt =>
    intro shown hshown
    exact Nat.lt_succ_of_lt (h.timeline_lt shown hshown)
  case shown =>
    intro shown hshown hkind
    have hlive := h.shown shown hshown hkind
    refine ⟨hlive.1, ?_⟩
    intro record hrecord hsequence
    rw [List.mem_append, List.mem_singleton] at hrecord
    cases hrecord with
    | inl hmem => exact hlive.2 record hmem hsequence
    | inr heq =>
      have hlt := h.timeline_lt shown hshown
      rw [heq] at hsequence
      dsimp only at hsequence
      omega

/--
The timeline shows a live message under the sequence of its record.
-/
theorem showMessage (h : AgreedAt isTool pending messages timeline nextSequence records)
    {timeline' : List SnapshotTimelineEntry} {shown : SnapshotTimelineEntry}
    (hsub : ∀ entry ∈ timeline', entry = shown ∨ entry ∈ timeline)
    (hlt : shown.sequence < nextSequence)
    (hlive : ∃ message ∈ messages, message.id = shown.canonicalId)
    (hrecord : ∀ record ∈ records, record.sequence = shown.sequence → record.id = shown.canonicalId)
    : AgreedAt isTool pending messages timeline' nextSequence records :=
  { h with
    timeline_lt := by
      intro entry hentry
      cases hsub entry hentry with
      | inl heq =>
        rw [heq]
        exact hlt
      | inr hmem => exact h.timeline_lt entry hmem
    shown := by
      intro entry hentry hkind
      cases hsub entry hentry with
      | inl heq =>
        rw [heq]
        exact ⟨hlive, hrecord⟩
      | inr hmem => exact h.shown entry hmem hkind }

/--
There is one record of a message.
-/
theorem idx_eq_of_id_eq (h : AgreedAt isTool pending messages timeline nextSequence records)
    {i j : Nat} {a b : Record} (ha : records[i]? = some a) (hb : records[j]? = some b)
    (hid : a.id = b.id) (htool : ¬isTool b.id)
    : i = j := by
  have hdistinct := List.pairwise_iff_getElem.mp h.distinct
  rw [List.getElem?_eq_some_iff] at ha hb
  rcases ha with ⟨hi, ha⟩
  rcases hb with ⟨hj, hb⟩
  rcases Nat.lt_trichotomy i j with hlt | heq | hgt
  . have := hdistinct i j (by simpa using hi) (by simpa using hj) hlt
    simp only [List.getElem_map, ha, hb, hid] at this
    exact absurd (this trivial) htool
  . exact heq
  . have := hdistinct j i (by simpa using hj) (by simpa using hi) hgt
    simp only [List.getElem_map, ha, hb, hid] at this
    exact absurd (this trivial) htool

/--
The record of the pending message is written.
-/
theorem writeRecord {message : SnapshotMessage}
    (h : AgreedAt isTool (some message.id) messages timeline nextSequence records)
    (hmessage : message ∈ messages) {index : Nat} {old : Record}
    (hold : records[index]? = some old) (hid : old.id = message.id)
    : AgreedAt isTool none messages timeline nextSequence
        (records.set index { old with message := some message }) := by
  have htool := h.message message hmessage
  have hcases : ∀ record ∈ records.set index { old with message := some message },
      record ∈ records ∧ record.id ≠ message.id
        ∨ record = { old with message := some message } := by
    intro record hrecord
    rw [List.mem_iff_getElem?] at hrecord
    rcases hrecord with ⟨i, hi⟩
    rw [List.getElem?_set] at hi
    split at hi
    . split at hi
      . exact .inr (Option.some.inj hi).symm
      . contradiction
    . next hne =>
      refine .inl ⟨List.mem_of_getElem? hi, ?_⟩
      intro heq
      rw [← hid] at heq htool
      exact absurd (h.idx_eq_of_id_eq hold hi heq.symm (heq ▸ htool)) hne
  have hnodup := List.inj_on_of_nodup_map h.nodup
  constructor
  case nodup => exact h.nodup
  case message => exact h.message
  case recorded =>
    intro record hrecord htool _
    cases hcases record hrecord with
    | inl hother =>
      exact h.recorded record hother.1 htool fun heq => hother.2 (Option.some.inj heq).symm
    | inr heq =>
      rw [heq]
      rfl
  case live =>
    intro live hlive record hrecord heq _
    cases hcases record hrecord with
    | inl hother =>
      exact h.live live hlive record hother.1 heq fun heq => hother.2 (Option.some.inj heq).symm
    | inr hnew =>
      subst hnew
      have : message = live := hnodup hmessage hlive (hid.symm.trans heq)
      rw [this]
  case distinct =>
    rw [List.map_set_of_eq hold (by rfl)]
    exact h.distinct
  case sequences =>
    rw [List.map_set_of_eq hold (by rfl)]
    exact h.sequences
  case record_lt =>
    intro record hrecord
    cases hcases record hrecord with
    | inl hother => exact h.record_lt record hother.1
    | inr heq =>
      rw [heq]
      exact h.record_lt old (List.mem_of_getElem? hold)
  case timeline_lt => exact h.timeline_lt
  case shown =>
    intro shown hshown hkind
    have hlive := h.shown shown hshown hkind
    refine ⟨hlive.1, ?_⟩
    intro record hrecord hsequence
    cases hcases record hrecord with
    | inl hother => exact hlive.2 record hother.1 hsequence
    | inr heq =>
      subst heq
      exact hlive.2 old (List.mem_of_getElem? hold) hsequence

/--
A pending message without a record has nothing to agree with.
-/
theorem unrecorded {id : String}
    (h : AgreedAt isTool (some id) messages timeline nextSequence records)
    (hnone : ∀ record ∈ records, record.id ≠ id)
    : AgreedAt isTool none messages timeline nextSequence records :=
  { h with
    recorded := fun record hrecord htool _ =>
      h.recorded record hrecord htool fun heq => hnone record hrecord (Option.some.inj heq).symm
    live := fun message hmessage record hrecord hid _ =>
      h.live message hmessage record hrecord hid
        fun heq => hnone record hrecord (Option.some.inj heq).symm }

end AgreedAt

variable {isTool : String → Prop} {pending : Option String}

namespace SessionSnapshot

def records (s : SessionSnapshot) : List Record :=
  s.history.map (·.record)

def AgreedBut (isTool : String → Prop) (pending : Option String) (s : SessionSnapshot) : Prop :=
  AgreedAt isTool pending s.messages s.timeline s.nextSequence s.records

/--
Evicting the oldest entries of the history changes nothing.
-/
theorem Evicts.agreed {s t : SessionSnapshot} {history : List SnapshotHistoryEntry}
    (hevicts : s.Evicts history t)
    (h : AgreedAt isTool pending s.messages s.timeline s.nextSequence (history.map (·.record)))
    : t.AgreedBut isTool pending := by
  rcases hevicts with ⟨gone, historyBytes, unavailableCount, rfl⟩
  exact h.sublist ((List.drop_sublist gone history).map _)

theorem map_record_modify {history : List SnapshotHistoryEntry} {index : Nat}
    {update : SnapshotHistoryEntry → SnapshotHistoryEntry}
    (hupdate : ∀ entry, (update entry).record = entry.record)
    : (history.modify index update).map (·.record) = history.map (·.record) := by
  apply List.ext_getElem?
  intro i
  rw [List.getElem?_map, List.getElem?_map, List.getElem?_modify]
  cases history[i]? with
  | none => rfl
  | some entry =>
    dsimp only [Option.map_eq_map, Option.map_some]
    split
    . rw [hupdate]
    . rfl

/--
The operations on tools keep the agreement, and give out no sequence.
-/
theorem keptByTools_agreed (isTool : String → Prop) (pending : Option String) (nextSequence : Nat)
    : KeptByTools (fun _ => False) fun s =>
        s.AgreedBut isTool pending ∧ s.nextSequence = nextSequence := by
  constructor
  . simp
  . intro s h tools activeToolIds subagentHeaders
    exact h
  . intro s h keep
    exact ⟨h.1.timeline_subset List.filter_sublist.subset, h.2⟩
  . intro s h index hindex update hupdate
    apply Except.Yields.mono (mutateHistoryEntryAt_evicts s index update).anyError
    intro t hevicts
    constructor
    . apply hevicts.agreed
      rw [map_record_modify]
      . exact h.1
      . intro entry
        cases hupdate entry with
        | intro tool htool => rw [htool, SnapshotHistoryEntry.record_withTool]
    . rcases hevicts with ⟨gone, historyBytes, unavailableCount, rfl⟩
      exact h.2
  . intro s h entry hentry position
    refine ⟨?_, h.2⟩
    apply h.1.timeline_tool fun shown hshown => List.eq_or_mem_of_mem_insertIdx hshown
    . rfl
    . exact h.1.record_lt entry.record (List.mem_map_of_mem hentry)

theorem keptByEvents_agreed : KeptByEvents (fun _ => False) (AgreedBut isTool pending) := by
  have htools := fun s : SessionSnapshot => keptByTools_agreed isTool pending s.nextSequence
  constructor
  case toKeptByTools =>
    constructor
    . simp
    . intro s h tools activeToolIds subagentHeaders
      exact h
    . intro s h keep
      exact ((htools s).filterTimeline ⟨h, rfl⟩ keep).1
    . intro s h index hindex update hupdate
      apply Except.Yields.mono ((htools s).mutate ⟨h, rfl⟩ hindex hupdate)
      intro t ht
      exact ht.1
    . intro s h entry hentry position
      exact ((htools s).insertTool ⟨h, rfl⟩ hentry position).1
  case sameTranscript =>
    intro s t h hsame
    rcases hsame with ⟨hmessages, htimeline, hnext, hhistory, -, -⟩
    unfold AgreedBut records
    rw [hmessages, htimeline, hnext, hhistory]
    exact h

/-! Writing the record of a message -/

theorem map_record_modify_message {history : List SnapshotHistoryEntry} {index : Nat}
    (hindex : index < history.length) (message : SnapshotMessage)
    : (history.modify index fun entry => { entry with message := some message }).map (·.record)
        =
      (history.map (·.record)).set index
        { (history[index]).record with message := some message } := by
  have hentry : history[index]? = some history[index] := List.getElem?_eq_getElem hindex
  rw [List.modify_eq_set_getElem?, hentry]
  exact List.map_set

theorem updateHistoryMessage_agreed {s : SessionSnapshot} {message : SnapshotMessage}
    (h : s.AgreedBut isTool (some message.id)) (hmessage : message ∈ s.messages)
    : (s.updateHistoryMessage message).Yields (fun _ => False) (AgreedBut isTool none) := by
  unfold updateHistoryMessage
  split
  . next index hidx =>
    have hindex := historyMessageIdx_eq_some hidx
    apply Except.Yields.mono (mutateHistoryEntryAt_evicts s index _).anyError
    intro t hevicts
    apply hevicts.agreed
    rw [map_record_modify_message hindex.1]
    apply AgreedAt.writeRecord h hmessage
    . simp [records, hindex.1]
    . exact hindex.2
  . next hnone =>
    apply AgreedAt.unrecorded h
    intro record hrecord
    unfold records at hrecord
    rw [List.mem_map] at hrecord
    rcases hrecord with ⟨entry, hentry, heq⟩
    rw [← heq]
    exact historyMessageIdx_eq_none hnone entry hentry

/--
An entry is still the one of `s`, or it had the id.
-/
def Rewrites (s : SessionSnapshot) (id : String) (t : SessionSnapshot) : Prop :=
  ∀ entry' ∈ t.history, entry' ∈ s.history
    ∨ ∃ entry ∈ s.history, entry.canonicalId = id ∧ entry'.sequence = entry.sequence

theorem updateHistoryMessage_rewrites (s : SessionSnapshot) (message : SnapshotMessage)
    : (s.updateHistoryMessage message).Yields (fun _ => False) (s.Rewrites message.id) := by
  unfold updateHistoryMessage
  split
  . next index hidx =>
    have hindex := historyMessageIdx_eq_some hidx
    apply Except.Yields.mono (mutateHistoryEntryAt_evicts s index _).anyError
    rintro t ⟨gone, historyBytes, unavailableCount, rfl⟩ entry' hentry'
    have hmem := List.mem_of_mem_drop hentry'
    rw [List.mem_iff_getElem?] at hmem
    rcases hmem with ⟨i, hi⟩
    rw [List.getElem?_modify] at hi
    cases hentry : s.history[i]? with
    | none =>
      rw [hentry] at hi
      contradiction
    | some entry =>
      rw [hentry] at hi
      have hentry' := Option.some.inj hi
      dsimp only at hentry'
      split at hentry'
      . next heq =>
        subst heq
        have hget := List.getElem?_eq_some_iff.mp hentry
        right
        refine ⟨entry, List.mem_of_getElem? hentry, ?_, ?_⟩
        . rw [← hget.2]
          exact hindex.2
        . rw [← hentry']
      . left
        rw [← hentry']
        exact List.mem_of_getElem? hentry
  . intro entry' hentry'
    exact .inl hentry'

/-! A new entry -/

def newEntry (s : SessionSnapshot) (kind : SnapshotTimelineKind) (id : String)
    : SnapshotHistoryEntry :=
  { sequence := s.nextSequence, kind, canonicalId := id, message := none, tool := none }

/--
What `push_timeline` does.
-/
structure Pushes (s : SessionSnapshot) (kind : SnapshotTimelineKind) (id : String)
    (t : SessionSnapshot) : Prop where
  messages : t.messages = s.messages
  nextSequence : t.nextSequence = saturatingAdd U64_MAX s.nextSequence 1
  timeline : ∀ shown ∈ t.timeline,
    shown = { sequence := s.nextSequence, kind, canonicalId := id } ∨ shown ∈ s.timeline
  history : ∃ gone, t.history = (s.history ++ [s.newEntry kind id]).drop gone

@[simp]
theorem countTimelineEntry_messages (s : SessionSnapshot) (kind : SnapshotTimelineKind)
    : (s.countTimelineEntry kind).messages = s.messages := by
  cases kind <;> rfl

theorem pushTimeline_pushes (s : SessionSnapshot) (kind : SnapshotTimelineKind) (id : String)
    : (s.pushTimeline kind id).Yields (fun _ => False) (s.Pushes kind id) := by
  unfold pushTimeline
  apply Except.Yields.mono (pushHistory_evicts _ _).anyError
  rintro t ⟨gone, historyBytes, unavailableCount, rfl⟩
  constructor
  . exact countTimelineEntry_messages s kind
  . rfl
  . intro shown hshown
    rw [List.mem_append, List.mem_singleton] at hshown
    cases hshown with
    | inl hmem =>
      right
      split at hmem
      . exact List.mem_of_mem_tail hmem
      . exact hmem
    | inr heq => exact .inl heq
  . refine ⟨gone, ?_⟩
    cases kind <;> rfl

section

variable {s t : SessionSnapshot} {kind : SnapshotTimelineKind} {id : String}

theorem Pushes.history_subset (h : s.Pushes kind id t)
    : ∀ entry ∈ t.history, entry ∈ s.history ∨ entry = s.newEntry kind id := by
  intro entry hentry
  rcases h.history with ⟨gone, heq⟩
  rw [heq] at hentry
  have hmem := List.mem_of_mem_drop hentry
  rwa [List.mem_append, List.mem_singleton] at hmem

theorem Pushes.records_sublist (h : s.Pushes kind id t)
    : t.records.Sublist (s.records ++ [(s.newEntry kind id).record]) := by
  rcases h.history with ⟨gone, heq⟩
  unfold records
  rw [heq]
  have hsub := (List.drop_sublist gone (s.history ++ [s.newEntry kind id])).map (·.record)
  rwa [List.map_append] at hsub

theorem Pushes.nextSequence_succ (h : s.Pushes kind id t) (hlt : s.nextSequence < U64_MAX)
    : t.nextSequence = s.nextSequence + 1 := by
  rw [h.nextSequence]
  apply saturatingAdd_of_le
  omega

theorem Pushes.tool_agreed (hpushes : s.Pushes .tool id t) (h : s.AgreedBut isTool pending)
    (hlt : s.nextSequence < U64_MAX) (hid : isTool id)
    : t.AgreedBut isTool pending := by
  have hadd := (AgreedAt.addRecord h (.inl hid)).sublist hpushes.records_sublist
  unfold AgreedBut
  rw [hpushes.messages, hpushes.nextSequence_succ hlt]
  apply hadd.timeline_tool hpushes.timeline
  . rfl
  . exact Nat.lt_succ_self _

theorem Pushes.message_agreed (hpushes : s.Pushes kind id t) (h : s.AgreedBut isTool none)
    (hlt : s.nextSequence < U64_MAX) (hid : ¬isTool id) (hlive : ∀ old ∈ s.messages, old.id ≠ id)
    (hrecords : ∀ record ∈ s.records, record.id ≠ id) {message : SnapshotMessage}
    (hmessage : message.id = id)
    : ({ t with messages := t.messages ++ [message] } : SessionSnapshot).AgreedBut isTool
        (some message.id) := by
  subst hmessage
  have hadd := (AgreedAt.addMessage h hid hlive).addRecord (.inr ⟨rfl, hrecords⟩)
  have hshow := hadd.showMessage hpushes.timeline (Nat.lt_succ_self _)
    ⟨message, List.mem_append_right _ (List.mem_singleton_self _), rfl⟩
  unfold AgreedBut
  dsimp only
  rw [hpushes.messages, hpushes.nextSequence_succ hlt]
  apply (hshow ?_).sublist hpushes.records_sublist
  intro record hrecord hsequence
  rw [List.mem_append, List.mem_singleton] at hrecord
  cases hrecord with
  | inl hmem => exact absurd hsequence (Nat.ne_of_lt (AgreedAt.record_lt h record hmem))
  | inr heq => rw [heq]

end

/-! The chunks of a message -/

/--
A chunk for the message is written to the newest entry of its id, if the message is live.
-/
def Writes (s : SessionSnapshot) (id : String) (entry : SnapshotHistoryEntry) : Prop :=
  (∃ message ∈ s.messages, message.id = id) ∧ s.lastHistoryEntry id = some entry

/--
What the other entries have recorded is still there, unless the entry is gone.
-/
def KeepsOthers (s : SessionSnapshot) (id : String) (t : SessionSnapshot) : Prop :=
  ∀ entry ∈ s.history, ¬s.Writes id entry →
    ∀ entry' ∈ t.history, entry'.sequence = entry.sequence → entry'.message = entry.message

theorem AgreedBut.eq_of_sequence_eq {s : SessionSnapshot} (h : s.AgreedBut isTool pending)
    {a b : SnapshotHistoryEntry} (ha : a ∈ s.history) (hb : b ∈ s.history)
    (heq : a.sequence = b.sequence)
    : a = b := by
  have hnodup := AgreedAt.sequences h
  unfold records at hnodup
  rw [List.map_map] at hnodup
  exact List.inj_on_of_nodup_map hnodup ha hb heq

theorem AgreedBut.lastHistoryEntry_eq {s : SessionSnapshot} (h : s.AgreedBut isTool pending)
    {entry : SnapshotHistoryEntry} (hentry : entry ∈ s.history) (hid : ¬isTool entry.canonicalId)
    : s.lastHistoryEntry entry.canonicalId = some entry := by
  unfold lastHistoryEntry
  cases hfind : s.history.reverse.find? (·.canonicalId == entry.canonicalId) with
  | none =>
    rw [List.find?_eq_none] at hfind
    have := hfind entry (List.mem_reverse.mpr hentry)
    simp at this
  | some last =>
    have hlast := List.mem_reverse.mp (List.mem_of_find?_eq_some hfind)
    have heq := List.find?_some hfind
    rw [beq_iff_eq] at heq
    rw [List.mem_iff_getElem?] at hentry hlast
    rcases hentry with ⟨i, hi⟩
    rcases hlast with ⟨j, hj⟩
    have hidx : j = i := by
      apply AgreedAt.idx_eq_of_id_eq h (a := last.record) (b := entry.record)
      . simp [records, hj]
      . simp [records, hi]
      . exact heq
      . exact hid
    rw [← hj, ← hi, hidx]

theorem makeRoomForMessage_agreed {s : SessionSnapshot} (h : s.AgreedBut isTool pending)
    : s.makeRoomForMessage.Yields (fun _ => False) fun t =>
        t.AgreedBut isTool pending ∧ t.messages ⊆ s.messages ∧ t.history = s.history
          ∧ t.nextSequence = s.nextSequence := by
  unfold makeRoomForMessage
  split
  . split
    . simp
    . next removed messages heq =>
      refine ⟨?_, ?_, rfl, rfl⟩
      . unfold AgreedBut at h
        rw [heq] at h
        exact h.dropMessage
      . rw [heq]
        exact List.subset_cons_self removed messages
  . exact ⟨h, List.Subset.refl _, rfl, rfl⟩

/--
A message the history knows nothing of gets an entry of its own.
-/
theorem insertMessage_spec {s : SessionSnapshot} (h : s.AgreedBut isTool none)
    (hlt : s.nextSequence < U64_MAX) {id : String} (hid : ¬isTool id)
    (hlive : ∀ old ∈ s.messages, old.id ≠ id) (hnone : ∀ entry ∈ s.history, entry.canonicalId ≠ id)
    (role : MessageRole) (content : String) (contentBlock : Option Json)
    : (s.insertMessage id role content contentBlock).Yields (fun _ => False) fun t =>
        t.AgreedBut isTool none ∧ s.KeepsOthers id t := by
  unfold insertMessage
  apply Except.Yields.bind (pushTimeline_pushes s _ id)
  intro t hpushes
  have hrecords : ∀ record ∈ s.records, record.id ≠ id := by
    intro record hrecord
    unfold records at hrecord
    rw [List.mem_map] at hrecord
    rcases hrecord with ⟨entry, hentry, heq⟩
    rw [← heq]
    exact hnone entry hentry
  apply Except.Yields.and
  . apply updateHistoryMessage_agreed
    . exact hpushes.message_agreed h hlt hid hlive hrecords rfl
    . exact List.mem_append_right _ (List.mem_singleton_self _)
  . apply Except.Yields.mono (updateHistoryMessage_rewrites _ _)
    intro u hrewrites entry hentry _ entry' hentry' heq
    have hlt := AgreedAt.record_lt h entry.record (List.mem_map_of_mem hentry)
    -- The entry that was just pushed has a sequence of its own.
    have hold : ∀ e ∈ t.history, e.sequence = entry.sequence → e = entry := by
      intro e he hsequence
      cases hpushes.history_subset e he with
      | inl hmem => exact h.eq_of_sequence_eq hmem hentry hsequence
      | inr hnew =>
        rw [hnew] at hsequence
        exact absurd hsequence (Nat.ne_of_gt hlt)
    cases hrewrites entry' hentry' with
    | inl hmem => rw [hold entry' hmem heq]
    | inr hwritten =>
      rcases hwritten with ⟨e, he, hid, hsequence⟩
      rw [hold e he (hsequence.symm.trans heq)] at hid
      exact absurd hid (hnone entry hentry)

theorem appendMessage_spec {s : SessionSnapshot} (h : s.AgreedBut isTool none)
    (hlt : s.nextSequence < U64_MAX) {id : String} (hid : ¬isTool id)
    (hknown : s.messages.any (·.id == id)
      ∨ ∀ entry ∈ s.history, entry.canonicalId = id → entry.message = none)
    (role : MessageRole) (content : String) (contentBlock : Option Json)
    : (s.appendMessage id role content contentBlock).Yields (fun _ => False) fun t =>
        t.AgreedBut isTool none ∧ s.KeepsOthers id t := by
  unfold appendMessage
  split
  . next message hfind =>
    have hmessage := List.mem_of_find?_eq_some hfind
    have heq := List.find?_some hfind
    rw [beq_iff_eq] at heq
    have hold : s.messages[s.messages.findIdx (·.id == id)]? = some message := by
      rw [← List.find?_eq_getElem?_findIdx, hfind]
    have hlt := (List.getElem?_eq_some_iff.mp hold).1
    apply Except.Yields.and
    . apply updateHistoryMessage_agreed
      . exact AgreedAt.setMessage h hold rfl
      . exact List.mem_set hlt _
    . apply Except.Yields.mono (updateHistoryMessage_rewrites _ _)
      intro u hrewrites entry hentry hwrites entry' hentry' hsequence
      cases hrewrites entry' hentry' with
      | inl hmem => rw [h.eq_of_sequence_eq hmem hentry hsequence]
      | inr hwritten =>
        rcases hwritten with ⟨e, he, hid', hsequence'⟩
        rw [h.eq_of_sequence_eq he hentry (hsequence'.symm.trans hsequence)] at hid'
        have hlast := h.lastHistoryEntry_eq hentry (by rw [hid']; exact h.message message hmessage)
        rw [hid', heq] at hlast
        exact absurd ⟨⟨message, hmessage, heq⟩, hlast⟩ hwrites
  . next hfind =>
    rw [List.find?_eq_none] at hfind
    have hlive : ∀ old ∈ s.messages, old.id ≠ id := by simpa using hfind
    have hnone : ∀ entry ∈ s.history, entry.canonicalId ≠ id := by
      intro entry hentry heq
      cases hknown with
      | inl hmem =>
        rw [List.any_eq_true] at hmem
        rcases hmem with ⟨message, hmessage, hid⟩
        exact hfind message hmessage hid
      | inr hunrecorded =>
        have hrecorded := AgreedAt.recorded h entry.record (List.mem_map_of_mem hentry)
          (fun htool => hid (heq ▸ htool)) (by simp)
        have hmessage : entry.record.message = none := hunrecorded entry hentry heq
        rw [hmessage] at hrecorded
        contradiction
    apply Except.Yields.bind (makeRoomForMessage_agreed h)
    rintro t ⟨hagreed, hmessages, hhistory, hnext⟩
    rw [← hhistory] at hnone
    rw [← hnext] at hlt
    apply Except.Yields.mono (insertMessage_spec hagreed hlt hid
      (fun old hold => hlive old (hmessages hold)) hnone _ _ _)
    rintro u ⟨hagreed', hkeeps⟩
    refine ⟨hagreed', ?_⟩
    intro entry hentry _ entry' hentry' heq
    rw [← hhistory] at hentry
    refine hkeeps entry hentry ?_ entry' hentry' heq
    rintro ⟨⟨message, hmem, hid⟩, -⟩
    exact hlive message (hmessages hmem) hid

theorem attachTurnUsage_agreed {s : SessionSnapshot} (h : s.AgreedBut isTool none)
    (usage : BridgeTurnUsageSnapshot)
    : (s.attachTurnUsage usage).Yields (fun _ => False) (AgreedBut isTool none) := by
  unfold attachTurnUsage
  split
  . exact h
  . split
    . exact h
    . next hold =>
      apply updateHistoryMessage_agreed
      . exact AgreedAt.setMessage h hold rfl
      . exact List.mem_set (List.getElem?_eq_some_iff.mp hold).1 _

/-! The claims about the transcript -/

/--
Every message and every reasoning of the timeline that is still in the history carries the live
message there.
-/
def Agrees (s : SessionSnapshot) : Prop :=
  ∀ shown ∈ s.timeline, shown.kind ≠ .tool →
    ∀ entry ∈ s.history, entry.sequence = shown.sequence →
      entry.canonicalId = shown.canonicalId
        ∧ ∃ message, s.messages.find? (·.id == shown.canonicalId) = some message
          ∧ entry.message = some message

theorem AgreedBut.agrees {s : SessionSnapshot} (h : s.AgreedBut isTool none) : s.Agrees := by
  intro shown hshown hkind entry hentry hsequence
  have hlive := AgreedAt.shown h shown hshown hkind
  have hrecord : entry.record ∈ s.records := List.mem_map_of_mem hentry
  have hid : entry.canonicalId = shown.canonicalId := hlive.2 entry.record hrecord hsequence
  refine ⟨hid, ?_⟩
  rcases hlive.1 with ⟨message, hmessage, heq⟩
  refine ⟨message, ?_, AgreedAt.live h message hmessage entry.record hrecord (hid.trans heq.symm) (by simp)⟩
  cases hfind : s.messages.find? (·.id == shown.canonicalId) with
  | none =>
    rw [List.find?_eq_none] at hfind
    have := hfind message hmessage
    simp [heq] at this
  | some found =>
    have hfound := List.find?_some hfind
    rw [beq_iff_eq] at hfound
    have : found = message := List.inj_on_of_nodup_map (AgreedAt.nodup h)
      (List.mem_of_find?_eq_some hfind) hmessage (hfound.trans heq.symm)
    rw [this]

end SessionSnapshot

/-! Runs -/

namespace Transcript

/--
An event is applied, or the hash set of the active tools changes the order it is iterated in.
-/
inductive Label where
  | apply (event : CanonicalEvent)
  | iterate (activeToolIds : List String)

def step (s : SessionSnapshot) : Label → Option SessionSnapshot
  | .apply event => (s.apply event).toOption
  | .iterate activeToolIds =>
    if activeToolIds.isPerm s.activeToolIds then some { s with activeToolIds } else none

/--
Every chunk is for a message that is live or that the history has not recorded, and `next_sequence` has
not saturated.
-/
def findsRecord (s : SessionSnapshot) (label : Label) : Bool :=
  decide (s.nextSequence < U64_MAX) &&
    match label with
    | .apply (.messageChunk _ _ _ _ _ _ id _ _) =>
      s.messages.any (·.id == id)
        || s.history.all fun entry => entry.canonicalId != id || entry.message.isNone
    | _ => true

/--
No id is used for a message and for a tool.
-/
def DisjointIds (labels : List Label) : Prop :=
  ∀ event event', .apply event ∈ labels → .apply event' ∈ labels →
    ∀ id, event.chunkId? = some id → event'.toolCallId? ≠ some id

def IsTool (labels : List Label) (id : String) : Prop :=
  ∃ event, .apply event ∈ labels ∧ event.toolCallId? = some id

variable {isTool : String → Prop}

theorem apply_spec {s : SessionSnapshot} (h : s.AgreedBut isTool none) {event : CanonicalEvent}
    (hguard : findsRecord s (.apply event))
    (hchunk : ∀ id, event.chunkId? = some id → ¬isTool id)
    (htool : ∀ id, event.toolCallId? = some id → isTool id)
    : (s.apply event).Yields (fun _ => False) fun t =>
        t.AgreedBut isTool none ∧ ∀ id, event.chunkId? = some id → s.KeepsOthers id t := by
  have hlt : s.nextSequence < U64_MAX := by
    unfold findsRecord at hguard
    rw [Bool.and_eq_true, decide_eq_true_eq] at hguard
    exact hguard.1
  cases hid : event.chunkId? with
  | some id =>
    cases event with
    | messageChunk _ _ _ _ _ role id' content contentBlock =>
      have heq : id' = id := Option.some.inj hid
      subst heq
      have hknown : s.messages.any (·.id == id') ∨ ∀ entry ∈ s.history,
          entry.canonicalId = id' → entry.message = none := by
        simpa [findsRecord, hlt, or_iff_not_imp_left] using hguard
      apply Except.Yields.mono (SessionSnapshot.appendMessage_spec h hlt (hchunk id' rfl) hknown _ _ _)
      rintro t ⟨hagreed, hkeeps⟩
      refine ⟨hagreed, ?_⟩
      intro id hid
      rw [← Option.some.inj hid]
      exact hkeeps
    | _ => contradiction
  | none =>
    have hkeeps : (s.apply event).Yields (fun _ => False) (SessionSnapshot.AgreedBut isTool none) := by
      apply SessionSnapshot.apply_keeps SessionSnapshot.keptByEvents_agreed.runs h
      . intro id role content contentBlock hid'
        rw [hid] at hid'
        contradiction
      . intro id generation projection hid'
        apply SessionSnapshot.applyTool_keeps SessionSnapshot.keptByEvents_agreed.toKeptByTools
          (SessionSnapshot.keptByTools_agreed isTool none s.nextSequence) (fun t ht => ht.1) ⟨h, rfl⟩
        intro t ht
        apply Except.Yields.mono (SessionSnapshot.pushTimeline_pushes t _ _)
        intro u hpushes
        exact hpushes.tool_agreed ht.1 (ht.2 ▸ hlt) (htool id hid')
      . intro t usage ht
        exact SessionSnapshot.attachTurnUsage_agreed ht usage
    apply Except.Yields.mono hkeeps
    intro t ht
    refine ⟨ht, ?_⟩
    intro id hid'
    contradiction

theorem step_agreed {s t : SessionSnapshot} (h : s.AgreedBut isTool none) {label : Label}
    (hguard : findsRecord s label)
    (hchunk : ∀ event, label = .apply event → ∀ id, event.chunkId? = some id → ¬isTool id)
    (htool : ∀ event, label = .apply event → ∀ id, event.toolCallId? = some id → isTool id)
    (hstep : step s label = some t)
    : t.AgreedBut isTool none := by
  cases label with
  | apply event =>
    have hspec := apply_spec h hguard (hchunk event rfl) (htool event rfl)
    unfold step at hstep
    rw [Except.toOption_eq_some] at hstep
    exact (hspec.of_ok hstep).1
  | iterate activeToolIds =>
    unfold step at hstep
    dsimp only at hstep
    split at hstep
    . rw [← Option.some.inj hstep]
      exact h
    . contradiction

theorem exec_agreed {labels run : List Label} (hdisjoint : DisjointIds labels)
    (hrun : ∀ label ∈ run, label ∈ labels) {s t : SessionSnapshot}
    (h : s.AgreedBut (IsTool labels) none) (hmeets : Meets step (findsRecord · ·) s run)
    (hexec : exec step s run = some t)
    : t.AgreedBut (IsTool labels) none := by
  refine exec_invariant ?_ h (hmeets.and hrun) hexec
  intro s label t h hguard hstep
  apply step_agreed h hguard.1 _ _ hstep
  . rintro event rfl id hid ⟨event', hmem, htool⟩
    exact hdisjoint event event' hguard.2 hmem id hid htool
  . rintro event rfl id hid
    exact ⟨event, hguard.2, hid⟩

/--
In every run whose chunks find the record they belong to, the transcript agrees with the history in
every state, and no chunk changes what the history has recorded of another message.
-/
theorem agrees_of_exec {agentId threadId : String} {labels : List Label} {s : SessionSnapshot}
    (hdisjoint : DisjointIds labels)
    (hmeets : Meets step (findsRecord · ·) (.new agentId threadId) labels)
    (hexec : exec step (.new agentId threadId) labels = some s)
    : s.Agrees ∧ ∀ before event after, labels = before ++ .apply event :: after →
        ∀ id, event.chunkId? = some id →
          ∃ t u, exec step (.new agentId threadId) before = some t ∧ t.apply event = .ok u
            ∧ t.KeepsOthers id u := by
  have hinit : (SessionSnapshot.new agentId threadId).AgreedBut (IsTool labels) none := AgreedAt.nil
  constructor
  . exact (exec_agreed hdisjoint (fun _ h => h) hinit hmeets hexec).agrees
  . rintro before event after heq id hid
    have hmem : .apply event ∈ labels := by rw [heq]; simp
    rw [heq, exec_append, Option.bind_eq_some_iff] at hexec
    rcases hexec with ⟨t, hbefore, hafter⟩
    rw [exec_cons_eq_some] at hafter
    rcases hafter with ⟨u, hstep, -⟩
    have hsplit := meets_append (heq ▸ hmeets) hbefore
    have ht := exec_agreed hdisjoint (by rw [heq]; simp +contextual) hinit hsplit.1 hbefore
    have hok := Except.toOption_eq_some.mp hstep
    refine ⟨t, u, hbefore, hok, ?_⟩
    have hspec := apply_spec ht hsplit.2.1
      (fun id hid htool => by
        rcases htool with ⟨event', hmem', htool⟩
        exact hdisjoint event event' hmem hmem' id hid htool)
      (fun id hid => ⟨event, hmem, hid⟩)
    exact (hspec.of_ok hok).2 id hid

def chunk (id content : String) : Label :=
  .apply (.messageChunk "agent" "thread" none none none .agent id content none)

theorem disjointIds_of_chunks {labels : List Label}
    (h : ∀ label ∈ labels, ∃ id content, label = chunk id content)
    : DisjointIds labels := by
  intro event event' _ hmem id _ htool
  rcases h _ hmem with ⟨id', content, heq⟩
  injection heq with heq
  rw [heq] at htool
  contradiction

/--
Two messages take turns.
-/
def alternating : List Label :=
  [chunk "a" "1", chunk "b" "2", chunk "a" "3"]

theorem agrees_of_alternating
    : ∃ s, exec step (.new "agent" "thread") alternating = some s
        ∧ s.Agrees ∧ ∀ before event after, alternating = before ++ .apply event :: after →
          ∀ id, event.chunkId? = some id →
            ∃ t u, exec step (.new "agent" "thread") before = some t ∧ t.apply event = .ok u
              ∧ t.KeepsOthers id u := by
  have hdisjoint : DisjointIds alternating := by
    apply disjointIds_of_chunks
    intro label hlabel
    simp only [alternating, List.mem_cons, List.not_mem_nil, or_false] at hlabel
    rcases hlabel with rfl | rfl | rfl <;> exact ⟨_, _, rfl⟩
  have hmeets : Meets step (findsRecord · ·) (.new "agent" "thread") alternating := by
    decide +kernel
  have hrun : (exec step (.new "agent" "thread") alternating).isSome := by decide +kernel
  obtain ⟨s, hexec⟩ := Option.isSome_iff_exists.mp hrun
  exact ⟨s, hexec, agrees_of_exec hdisjoint hmeets hexec⟩

/--
A message returns after 128 others have pushed it out of the live messages.
-/
def returning : List Label :=
  (List.range 129).map (fun i => chunk (toString i) "a") ++ [chunk "0" "b"]

theorem not_agrees_of_returning
    : ¬ ∀ labels s, DisjointIds labels → exec step (.new "agent" "thread") labels = some s →
        s.Agrees ∧ ∀ before event after, labels = before ++ .apply event :: after →
          ∀ id, event.chunkId? = some id →
            ∃ t u, exec step (.new "agent" "thread") before = some t ∧ t.apply event = .ok u
              ∧ t.KeepsOthers id u := by
  intro h
  have hrun : (exec step (.new "agent" "thread") returning).any (fun s =>
      s.timeline.any fun shown => decide (shown.kind ≠ .tool) && s.history.any fun entry =>
        decide (entry.sequence = shown.sequence) && entry.message.isNone) = true := by
    decide +kernel
  have hdisjoint : DisjointIds returning := by
    apply disjointIds_of_chunks
    intro label hlabel
    simp only [returning, List.mem_append, List.mem_map, List.mem_singleton] at hlabel
    rcases hlabel with ⟨i, -, rfl⟩ | rfl <;> exact ⟨_, _, rfl⟩
  obtain ⟨s, hexec, hlost⟩ := (Option.any_eq_true _ _).mp hrun
  simp only [List.any_eq_true, Bool.and_eq_true, decide_eq_true_eq, Option.isNone_iff_eq_none]
    at hlost
  obtain ⟨shown, hshown, hkind, entry, hentry, hsequence, hnone⟩ := hlost
  obtain ⟨-, message, -, hmessage⟩ :=
    (h returning s hdisjoint hexec).1 shown hshown hkind entry hentry hsequence
  rw [hnone] at hmessage
  exact absurd hmessage (by simp)

end Transcript

end Snapshot
