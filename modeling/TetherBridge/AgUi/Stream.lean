import Mathlib.Data.List.Nodup
import TetherBridge.AgUi.Project
import TetherBridge.Data.Spans

/-!
This module contains how the events of a projection read as a stream of runs, and what the projector
keeps of the spans that are open in it.
-/

namespace AgUi

open Acp Snapshot Spans Transition

/--
What is started and ended within a run.
-/
inductive Span where
  | text (messageId : String)
  | reasoning (messageId : String)
  | call (toolCallId : String)
  deriving DecidableEq, Repr

def AgUiEvent.mark (runId : String) : AgUiEvent → Option (Mark String Span)
  | .runStarted _ runId => some (.runStarted runId)
  | .runFinished _ runId => some (.runEnded runId)
  | .runError _ _ => some (.runEnded runId)
  | .textMessageStart messageId _ => some (.started runId (.text messageId))
  | .textMessageContent messageId _ => some (.content runId (.text messageId))
  | .textMessageEnd messageId => some (.ended runId (.text messageId))
  | .reasoningMessageStart messageId _ => some (.started runId (.reasoning messageId))
  | .reasoningMessageContent messageId _ => some (.content runId (.reasoning messageId))
  | .reasoningMessageEnd messageId => some (.ended runId (.reasoning messageId))
  | .toolCallStart toolCallId _ => some (.started runId (.call toolCallId))
  | .toolCallArgs toolCallId _ => some (.content runId (.call toolCallId))
  | .toolCallEnd toolCallId => some (.ended runId (.call toolCallId))
  | .toolCallResult .. => none
  | .custom .. => none
  | .activitySnapshot .. => none

/--
The marks of the events of a thread.
-/
def marks (threadId : String) (events : List AgUiEventEnvelope) : List (Mark String Span) :=
  events.filterMap fun envelope =>
    if envelope.threadId = threadId then envelope.event.mark envelope.runId else none

def eventMarks (runId : String) (events : List AgUiEvent) : List (Mark String Span) :=
  events.filterMap (·.mark runId)

@[simp]
theorem marks_nil (threadId : String) : marks threadId [] = [] := rfl

@[simp]
theorem marks_append (threadId : String) (events events' : List AgUiEventEnvelope)
    : marks threadId (events ++ events') = marks threadId events ++ marks threadId events' :=
  List.filterMap_append

@[simp]
theorem eventMarks_nil (runId : String) : eventMarks runId [] = [] := rfl

@[simp]
theorem eventMarks_append (runId : String) (events events' : List AgUiEvent)
    : eventMarks runId (events ++ events') = eventMarks runId events ++ eventMarks runId events' :=
  List.filterMap_append

@[simp]
theorem marks_envelopes (run : AgUiRunState) (threadId : String) (events : List AgUiEvent)
    : marks threadId (events.map (run.envelope threadId)) = eventMarks run.runId events := by
  unfold marks eventMarks
  rw [List.filterMap_map]
  congr 1
  funext event
  exact if_pos rfl

theorem marks_of_ne {threadId other : String} (hne : other ≠ threadId)
    {events : List AgUiEventEnvelope} (h : ∀ envelope ∈ events, envelope.threadId = other)
    : marks threadId events = [] := by
  unfold marks
  rw [List.filterMap_eq_nil_iff]
  intro envelope henvelope
  apply if_neg
  rw [h envelope henvelope]
  exact hne

/--
Events that neither start, fill nor end anything.
-/
def Silent (events : List AgUiEvent) : Prop :=
  ∀ event ∈ events, ∀ runId, event.mark runId = none

theorem Silent.eventMarks {events : List AgUiEvent} (h : Silent events) (runId : String)
    : eventMarks runId events = [] := by
  unfold AgUi.eventMarks
  rw [List.filterMap_eq_nil_iff]
  intro event hevent
  exact h event hevent runId

theorem Silent.leads {events : List AgUiEvent} (h : Silent events) (shape : Shape String Span)
    (runId : String)
    : Leads shape shape (AgUi.eventMarks runId events) := by
  rw [h.eventMarks]
  exact .refl shape

theorem silent_nil : Silent [] := by
  intro event hevent
  contradiction

theorem Silent.append {events events' : List AgUiEvent} (h : Silent events) (h' : Silent events')
    : Silent (events ++ events') := by
  intro event hevent
  rw [List.mem_append] at hevent
  cases hevent with
  | inl hevent => exact h event hevent
  | inr hevent => exact h' event hevent

theorem silent_structuredChunks (x : Crates) (name canonicalId : String) (value : Json)
    : Silent (structuredChunks x name canonicalId value) := by
  intro event hevent runId
  unfold structuredChunks at hevent
  dsimp only at hevent
  split at hevent
  . rw [List.mem_singleton] at hevent
    rw [hevent]
    rfl
  . rw [List.mem_map] at hevent
    rcases hevent with ⟨piece, -, rfl⟩
    rfl

theorem silent_transcriptTruncation (canonicalId : String) (maxBytes : Nat)
    : Silent [transcriptTruncation canonicalId maxBytes] := by
  intro event hevent runId
  rw [List.mem_singleton] at hevent
  rw [hevent]
  rfl

theorem silent_subagentActivityEvent (parentThreadId toolCallId : String)
    (childThreadId : Option String) (status : String) (latest : Option String)
    : Silent [subagentActivityEvent parentThreadId toolCallId childThreadId status latest] := by
  intro event hevent runId
  rw [List.mem_singleton] at hevent
  rw [hevent]
  rfl

/-! Entries of a map -/

section

variable {α : Type} {key : String} {value : α} {entries : List (String × α)}

theorem lookup_insertEntry_self : (insertEntry key value entries).lookup key = some value := by
  induction entries with
  | nil => simp [insertEntry, List.lookup_nil, List.lookup_cons]
  | cons entry entries ih =>
    rcases entry with ⟨k, v⟩
    unfold insertEntry
    split
    . simp [List.lookup_nil, List.lookup_cons]
    . next hne =>
      have hbeq : (key == k) = false := by
        rw [beq_eq_false_iff_ne]
        exact Ne.symm hne
      simp only [List.lookup_nil, List.lookup_cons, hbeq, ih]

theorem lookup_insertEntry_of_ne {other : String} (hne : other ≠ key)
    : (insertEntry key value entries).lookup other = entries.lookup other := by
  have hkey : (other == key) = false := by
    rw [beq_eq_false_iff_ne]
    exact hne
  induction entries with
  | nil => simp only [insertEntry, List.lookup_nil, List.lookup_cons, hkey]
  | cons entry entries ih =>
    rcases entry with ⟨k, v⟩
    unfold insertEntry
    split
    . next heq => simp only [List.lookup_nil, List.lookup_cons, heq, hkey]
    . simp only [List.lookup_nil, List.lookup_cons, ih]

theorem mem_insertEntry {entry : String × α} (h : entry ∈ insertEntry key value entries)
    : entry = (key, value) ∨ entry ∈ entries := by
  induction entries with
  | nil => simpa [insertEntry] using h
  | cons first entries ih =>
    unfold insertEntry at h
    split at h
    . rw [List.mem_cons] at h
      exact h.imp_right (List.mem_cons_of_mem first)
    . rw [List.mem_cons] at h
      cases h with
      | inl heq => exact .inr (heq ▸ List.mem_cons_self)
      | inr hmem => exact (ih hmem).imp_right (List.mem_cons_of_mem first)

theorem nodup_insertEntry (h : (entries.map (·.1)).Nodup)
    : ((insertEntry key value entries).map (·.1)).Nodup := by
  induction entries with
  | nil => simp [insertEntry]
  | cons entry entries ih =>
    rw [List.map_cons, List.nodup_cons] at h
    unfold insertEntry
    split
    . next heq =>
      rw [List.map_cons, List.nodup_cons]
      rw [heq] at h
      exact h
    . next hne =>
      rw [List.map_cons, List.nodup_cons]
      refine ⟨?_, ih h.2⟩
      intro hmem
      rw [List.mem_map] at hmem
      rcases hmem with ⟨other, hother, heq⟩
      cases mem_insertEntry hother with
      | inl hnew =>
        rw [hnew] at heq
        exact hne heq.symm
      | inr hold =>
        apply h.1
        rw [← heq]
        exact List.mem_map_of_mem hold

theorem lookup_eq_some_iff (h : (entries.map (·.1)).Nodup)
    : entries.lookup key = some value ↔ (key, value) ∈ entries := by
  induction entries with
  | nil => simp [List.lookup_nil, List.lookup_cons]
  | cons entry entries ih =>
    rcases entry with ⟨k, v⟩
    rw [List.map_cons, List.nodup_cons] at h
    rw [List.mem_cons, Prod.mk.injEq]
    cases hkey : key == k with
    | true =>
      rw [beq_iff_eq] at hkey
      simp only [List.lookup_nil, List.lookup_cons, hkey, beq_self_eq_true, true_and, Option.some.injEq]
      constructor
      . intro heq
        exact .inl heq.symm
      . intro hmem
        cases hmem with
        | inl heq => exact heq.symm
        | inr hmem => exact absurd (List.mem_map_of_mem hmem) h.1
    | false =>
      simp only [List.lookup_nil, List.lookup_cons, hkey, ih h.2]
      rw [beq_eq_false_iff_ne] at hkey
      simp [hkey]

end

/-! What the projector keeps open -/

/--
A tool call whose end is still to come.
-/
def AgUiToolState.IsOpen (tool : AgUiToolState) : Prop :=
  tool.ended = false ∧ tool.subagentActivity = false

def AgUiRunState.IsOpen (run : AgUiRunState) : Span → Prop
  | .text messageId => run.openUserId = some messageId ∨ run.openMessageId = some messageId
  | .reasoning messageId => run.openReasoningId = some messageId
  | .call toolCallId => ∃ tool, run.tools.lookup toolCallId = some tool ∧ tool.IsOpen

def AgUiRunState.shape (run : AgUiRunState) : Shape String Span :=
  some (run.runId, run.IsOpen)

def AgUiProjector.shape (s : AgUiProjector) (threadId : String) : Shape String Span :=
  (s.runs threadId).bind AgUiRunState.shape

def AgUiRunState.openCallIds (tools : List (String × AgUiToolState)) : List String :=
  (tools.filter fun entry => !entry.2.ended && !entry.2.subagentActivity).map (·.1)

structure AgUiRunState.Sound (run : AgUiRunState) : Prop where
  toolIds : (run.tools.map (·.1)).Nodup
  started : ∀ entry ∈ run.tools, entry.2.started = true
  slots : ∀ messageId, run.openUserId = some messageId → run.openMessageId ≠ some messageId

structure AgUiProjector.Sound (s : AgUiProjector) : Prop where
  runs : ∀ threadId run, s.runs threadId = some run → run.Sound
  observed_le : s.observedRuns.length ≤ OBSERVED_RUN_CAPACITY

/--
Two states of a run that the stream cannot tell apart.
-/
structure AgUiRunState.SameSpans (run run' : AgUiRunState) : Prop where
  runId : run'.runId = run.runId
  openUserId : run'.openUserId = run.openUserId
  openMessageId : run'.openMessageId = run.openMessageId
  openReasoningId : run'.openReasoningId = run.openReasoningId
  calls : ∀ toolCallId, run'.IsOpen (.call toolCallId) ↔ run.IsOpen (.call toolCallId)

theorem AgUiRunState.SameSpans.leads {run run' : AgUiRunState} (h : run.SameSpans run')
    : Leads run.shape run'.shape [] := by
  unfold AgUiRunState.shape
  rw [h.runId]
  apply Leads.of_iff
  intro span
  cases span with
  | text messageId =>
    unfold AgUiRunState.IsOpen
    rw [h.openUserId, h.openMessageId]
  | reasoning messageId =>
    unfold AgUiRunState.IsOpen
    rw [h.openReasoningId]
  | call toolCallId => exact (h.calls toolCallId).symm

namespace AgUiRunState

variable {run : AgUiRunState}

theorem eventMarks_toolCallEnds (runId : String) (tools : List (String × AgUiToolState))
    : eventMarks runId (toolCallEnds tools)
        =
      ((openCallIds tools).map Span.call).map (Mark.ended runId) := by
  unfold eventMarks toolCallEnds openCallIds
  rw [List.filterMap_filterMap, List.map_map, List.map_map, ← List.filterMap_eq_map,
    List.filterMap_filter]
  congr 1
  funext entry
  dsimp only
  split <;> rfl

theorem mem_openCallIds (h : run.Sound) (toolCallId : String)
    : toolCallId ∈ openCallIds run.tools ↔ run.IsOpen (.call toolCallId) := by
  simp only [openCallIds, List.mem_map, List.mem_filter, Bool.and_eq_true, Bool.not_eq_true', IsOpen,
    lookup_eq_some_iff h.toolIds, AgUiToolState.IsOpen]
  constructor
  . rintro ⟨⟨other, tool⟩, ⟨hmem, htool⟩, rfl⟩
    exact ⟨tool, hmem, htool⟩
  . rintro ⟨tool, hmem, htool⟩
    exact ⟨(toolCallId, tool), ⟨hmem, htool⟩, rfl⟩

/--
The calls that are open are ended one after the other.
-/
theorem leads_toolCallEnds (h : run.Sound) {isOpen : Span → Prop}
    (hopen : ∀ toolCallId, run.IsOpen (.call toolCallId) → isOpen (.call toolCallId))
    : Leads (some (run.runId, isOpen))
        (some (run.runId, fun span => isOpen span ∧ ∀ toolCallId, span = .call toolCallId →
          ¬run.IsOpen (.call toolCallId)))
        (eventMarks run.runId (toolCallEnds run.tools)) := by
  have hnodup : ((openCallIds run.tools).map Span.call).Nodup := by
    apply List.Nodup.map
    . intro a b hab
      injection hab
    . apply List.Nodup.sublist _ h.toolIds
      exact List.filter_sublist.map _
  have hends : ∀ span ∈ (openCallIds run.tools).map Span.call, isOpen span := by
    intro span hspan
    rw [List.mem_map] at hspan
    rcases hspan with ⟨toolCallId, hid, rfl⟩
    exact hopen toolCallId ((mem_openCallIds h toolCallId).mp hid)
  rw [eventMarks_toolCallEnds]
  apply (leads_endeds hnodup hends).congr
  intro span
  rw [and_comm, List.mem_map]
  apply and_congr_right
  intro _
  constructor
  . rintro hnot toolCallId rfl hcall
    exact hnot ⟨toolCallId, (mem_openCallIds h toolCallId).mpr hcall, rfl⟩
  . rintro hnot ⟨toolCallId, hid, rfl⟩
    exact hnot toolCallId rfl ((mem_openCallIds h toolCallId).mp hid)

theorem leads_textMessageEnd {runId : String} {isOpen : Span → Prop} {messageId : Option String}
    (h : ∀ id, messageId = some id → isOpen (.text id))
    : Leads (some (runId, isOpen))
        (some (runId, fun span => isOpen span ∧ ∀ id, messageId = some id → span ≠ .text id))
        (eventMarks runId (textMessageEnd messageId)) := by
  cases messageId with
  | none =>
    apply Leads.of_iff
    simp
  | some id =>
    apply (leads_ended (h id rfl)).congr
    intro span
    simp [and_comm]

theorem leads_reasoningMessageEnd {runId : String} {isOpen : Span → Prop}
    {messageId : Option String} (h : ∀ id, messageId = some id → isOpen (.reasoning id))
    : Leads (some (runId, isOpen))
        (some (runId, fun span => isOpen span ∧ ∀ id, messageId = some id → span ≠ .reasoning id))
        (eventMarks runId (reasoningMessageEnd messageId)) := by
  cases messageId with
  | none =>
    apply Leads.of_iff
    simp
  | some id =>
    apply (leads_ended (h id rfl)).congr
    intro span
    simp [and_comm]

/--
Closing a run ends everything that is open in it.
-/
theorem leads_close (h : run.Sound)
    : Leads run.shape (some (run.runId, fun _ => False)) (eventMarks run.runId (run.close false)) := by
  unfold close shape
  simp only [eventMarks_append, Bool.false_eq_true, ↓reduceIte, eventMarks_nil, List.append_nil,
    List.append_assoc]
  apply (leads_textMessageEnd (fun id hid => .inl hid)).trans
  apply (leads_textMessageEnd _).trans
  . apply (leads_reasoningMessageEnd _).trans
    . apply (leads_toolCallEnds h _).congr
      . intro span
        simp only [iff_false]
        rintro ⟨⟨⟨⟨hopen, huser⟩, hmessage⟩, hreasoning⟩, hcalls⟩
        cases span with
        | text messageId =>
          cases hopen with
          | inl hid => exact huser messageId hid rfl
          | inr hid => exact hmessage messageId hid rfl
        | reasoning messageId => exact hreasoning messageId hopen rfl
        | call toolCallId => exact hcalls toolCallId rfl hopen
      . intro toolCallId hopen
        simp [hopen]
    . intro id hid
      refine ⟨⟨hid, ?_⟩, ?_⟩ <;> simp
  . intro id hid
    refine ⟨.inr hid, ?_⟩
    intro other hother heq
    injection heq with heq
    rw [← heq] at hother
    exact h.slots id hother hid

theorem leads_close_ended (h : run.Sound)
    : Leads run.shape none
        (eventMarks run.runId (run.close false) ++ [Mark.runEnded run.runId]) :=
  (leads_close h).trans (leads_runEnded fun _ h => h)

/--
A superseded run ends with an error.
-/
theorem leads_close_superseded (h : run.Sound)
    : Leads run.shape none (eventMarks run.runId (run.close true)) := by
  have hmarks : eventMarks run.runId (run.close true)
      = eventMarks run.runId (run.close false) ++ [Mark.runEnded run.runId] := by
    unfold close
    simp only [↓reduceIte, Bool.false_eq_true, List.append_nil, eventMarks_append]
    rfl
  rw [hmarks]
  exact leads_close_ended h

end AgUiRunState

end AgUi
