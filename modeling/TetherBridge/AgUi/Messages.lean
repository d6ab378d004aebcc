import TetherBridge.AgUi.Runs

/-!
This module contains the run an event goes to, and what a message chunk adds to the stream of it.
-/

namespace AgUi

open Acp Snapshot Spans Transition

variable {x : Crates} {run run' : AgUiRunState}

/-! Messages -/

/--
The span that a chunk of the role is part of.
-/
def spanOf (role : MessageRole) (messageId : String) : Span :=
  if role = .thought then .reasoning messageId else .text messageId

/--
A message of the user would be started under the id of the agent's message that is still open.
-/
def AgUiRunState.restarts (run : AgUiRunState) (role : MessageRole) (messageId : String) : Bool :=
  role == .user && run.openMessageId == some messageId

namespace AgUiRunState

theorem openMessage_runId (run : AgUiRunState) (role : MessageRole) (messageId : String)
    : (run.openMessage role messageId).1.runId = run.runId := by
  unfold openMessage
  cases role <;> rfl

theorem openMessage_tools (run : AgUiRunState) (role : MessageRole) (messageId : String)
    : (run.openMessage role messageId).1.tools = run.tools := by
  unfold openMessage
  cases role <;> rfl

theorem openMessage_isOpen (run : AgUiRunState) (role : MessageRole) (messageId : String)
    : (run.openMessage role messageId).1.IsOpen (spanOf role messageId) := by
  unfold openMessage spanOf
  cases role with
  | user => exact .inl rfl
  | agent => exact .inr rfl
  | thought => rfl

theorem openMessage_sound (h : run.Sound) {role : MessageRole} {messageId : String}
    (hrestarts : run.restarts role messageId = false)
    : (run.openMessage role messageId).1.Sound := by
  constructor
  . rw [openMessage_tools]
    exact h.toolIds
  . rw [openMessage_tools]
    exact h.started
  . unfold openMessage
    cases role with
    | user =>
      intro id hid
      injection hid with hid
      rw [← hid]
      simpa [restarts] using hrestarts
    | agent =>
      intro id hid
      contradiction
    | thought => exact h.slots

theorem leads_start {isOpen : Span → Prop} {event : AgUiEvent} {span : Span}
    (hrun : run'.runId = run.runId) (hmark : event.mark run.runId = some (.started run.runId span))
    (hnot : ¬isOpen span) (hopen : ∀ other, other = span ∨ isOpen other ↔ run'.IsOpen other)
    : Leads (some (run.runId, isOpen)) run'.shape (eventMarks run.runId [event]) := by
  have hmarks : eventMarks run.runId [event] = [Mark.started run.runId span] := by
    simp [eventMarks, hmark]
  unfold shape
  rw [hrun, hmarks]
  exact (leads_started hnot).congr hopen

theorem leads_openMessage (h : run.Sound) {role : MessageRole} {messageId : String}
    (hrestarts : run.restarts role messageId = false)
    : Leads run.shape (run.openMessage role messageId).1.shape
        (eventMarks run.runId (run.openMessage role messageId).2) := by
  unfold openMessage
  cases role with
  | agent =>
    dsimp only
    rw [eventMarks_append]
    apply (leads_textMessageEnd (fun id hid => .inl hid)).trans
    split
    . next hsame =>
      apply Leads.of_iff
      intro span
      cases span with
      | text id =>
        simp only [IsOpen, hsame]
        constructor
        . rintro ⟨hopen, huser⟩
          cases hopen with
          | inl hid => exact absurd rfl (huser id hid)
          | inr hid => exact .inr hid
        . rintro (hid | hid)
          . contradiction
          . refine ⟨.inr hid, ?_⟩
            rintro other hother heq
            injection heq with heq
            rw [← heq] at hother
            exact h.slots id hother (hsame.trans hid)
      | reasoning id => simp [IsOpen]
      | call toolCallId => simp [IsOpen]
    . next hother =>
      rw [eventMarks_append]
      apply (leads_textMessageEnd _).trans
      . apply leads_start
        . rfl
        . rfl
        . rintro ⟨⟨hopen, huser⟩, hmessage⟩
          cases hopen with
          | inl hid => exact huser messageId hid rfl
          | inr hid => exact hother hid
        . intro span
          cases span with
          | text id =>
            simp only [IsOpen, Span.text.injEq, Option.some.injEq, reduceCtorEq, false_or]
            constructor
            . rintro (heq | ⟨⟨hopen, huser⟩, hmessage⟩)
              . exact heq.symm
              . cases hopen with
                | inl hid => exact absurd rfl (huser id hid)
                | inr hid => exact absurd rfl (hmessage id hid)
            . intro heq
              exact .inl heq.symm
          | reasoning id => simp [IsOpen]
          | call toolCallId => simp [IsOpen]
      . intro id hid
        refine ⟨.inr hid, ?_⟩
        intro other hother heq
        injection heq with heq
        rw [← heq] at hother
        exact h.slots id hother hid
  | thought =>
    dsimp only
    split
    . next hsame =>
      apply Leads.of_iff
      intro span
      cases span <;> simp [IsOpen, hsame]
    . next hother =>
      rw [eventMarks_append]
      apply (leads_reasoningMessageEnd (fun id hid => hid)).trans
      apply leads_start
      . rfl
      . rfl
      . rintro ⟨hopen, -⟩
        exact hother hopen
      . intro span
        cases span with
        | text id => simp [IsOpen]
        | reasoning id =>
          simp only [IsOpen, Span.reasoning.injEq, Option.some.injEq]
          constructor
          . rintro (heq | ⟨hid, hreasoning⟩)
            . exact heq.symm
            . exact absurd rfl (hreasoning id hid)
          . intro heq
            exact .inl heq.symm
        | call toolCallId => simp [IsOpen]
  | user =>
    have hmessage : run.openMessageId ≠ some messageId := by simpa [restarts] using hrestarts
    dsimp only
    split
    . next hsame =>
      apply Leads.of_iff
      intro span
      cases span <;> simp [IsOpen, hsame]
    . next hother =>
      rw [eventMarks_append]
      apply (leads_textMessageEnd (fun id hid => .inl hid)).trans
      apply leads_start
      . rfl
      . rfl
      . rintro ⟨hopen, huser⟩
        cases hopen with
        | inl hid => exact hother hid
        | inr hid => exact hmessage hid
      . intro span
        cases span with
        | text id =>
          simp only [IsOpen, Span.text.injEq, Option.some.injEq]
          constructor
          . rintro (heq | ⟨hopen, huser⟩)
            . exact .inl heq.symm
            . cases hopen with
              | inl hid => exact absurd rfl (huser id hid)
              | inr hid => exact .inr hid
          . rintro (heq | hid)
            . exact .inl heq.symm
            . refine .inr ⟨.inr hid, ?_⟩
              intro other huser heq
              injection heq with heq
              rw [← heq] at huser
              exact h.slots id huser hid
        | reasoning id => simp [IsOpen]
        | call toolCallId => simp [IsOpen]

theorem eventMarks_messageChunks (runId : String) (role : MessageRole) (messageId content : String)
    : ∀ mark ∈ eventMarks runId (messageChunks (role == .thought) messageId content),
        mark = .content runId (spanOf role messageId) := by
  intro mark hmark
  unfold eventMarks messageChunks at hmark
  rw [List.mem_filterMap] at hmark
  rcases hmark with ⟨event, hevent, hmark⟩
  rw [List.mem_map] at hevent
  rcases hevent with ⟨chunk, -, rfl⟩
  cases role <;> exact (Option.some.inj hmark).symm

/--
What a chunk changes in the run besides its open messages is not seen in the stream.
-/
theorem SameSpans.of_eq (hrunId : run'.runId = run.runId) (huser : run'.openUserId = run.openUserId)
    (hmessage : run'.openMessageId = run.openMessageId)
    (hreasoning : run'.openReasoningId = run.openReasoningId) (htools : run'.tools = run.tools)
    : run.SameSpans run' := by
  refine ⟨hrunId, huser, hmessage, hreasoning, ?_⟩
  intro toolCallId
  unfold IsOpen
  rw [htools]

theorem Sound.of_eq (h : run.Sound) (huser : run'.openUserId = run.openUserId)
    (hmessage : run'.openMessageId = run.openMessageId) (htools : run'.tools = run.tools)
    : run'.Sound := by
  refine ⟨?_, ?_, ?_⟩
  . rw [htools]
    exact h.toolIds
  . rw [htools]
    exact h.started
  . rw [huser, hmessage]
    exact h.slots

theorem silent_blockEvents (role : MessageRole) (messageId : String) (contentBlock : Option Json)
    : Silent (blockEvents x role messageId contentBlock) := by
  cases contentBlock with
  | none => exact silent_nil
  | some contentBlock => exact silent_structuredChunks x _ _ _

/--
A chunk opens its message and fills it.
-/
theorem leads_projectChunk (h : run.Sound) {role : MessageRole} {messageId : String}
    (hrestarts : run.restarts role messageId = false) (content : String) (contentBlock : Option Json)
    : let result := run.projectChunk x role messageId content contentBlock
      result.1.Sound ∧ Leads run.shape result.1.shape (eventMarks run.runId result.2) := by
  unfold projectChunk
  dsimp only
  generalize hbounded : run.boundedLiveContent messageId content = bounded
  generalize hmarked : (if (!bounded.2.2 && isTruncatedBlock contentBlock
      && !bounded.1.truncatedMessages.contains messageId) = true then
    { bounded.1 with truncatedMessages := messageId :: bounded.1.truncatedMessages }
    else bounded.1) = marked
  have hspans : run.SameSpans marked ∧ marked.Sound ∧ marked.restarts role messageId = false := by
    rw [← hmarked, ← hbounded]
    unfold boundedLiveContent
    refine ⟨?_, ?_, ?_⟩
    . split <;> exact SameSpans.of_eq rfl rfl rfl rfl rfl
    . split <;> exact h.of_eq rfl rfl rfl
    . rw [← hrestarts]
      split <;> rfl
  rcases hspans with ⟨hspans, hsound, hrestarts'⟩
  refine ⟨openMessage_sound hsound hrestarts', ?_⟩
  rw [eventMarks_append, eventMarks_append, eventMarks_append]
  have hblock := (silent_blockEvents (x := x) role messageId contentBlock).leads run.shape run.runId
  have htruncation : Silent (if (bounded.2.2 || !bounded.2.2
      && isTruncatedBlock contentBlock && !bounded.1.truncatedMessages.contains messageId) = true then
      [transcriptTruncation messageId MAX_MESSAGE_TOTAL_BYTES] else []) := by
    split
    . exact silent_transcriptTruncation messageId MAX_MESSAGE_TOTAL_BYTES
    . exact silent_nil
  have hopening := hspans.leads.trans (leads_openMessage hsound hrestarts')
  rw [hspans.runId] at hopening
  refine ((hblock.trans (htruncation.leads run.shape run.runId)).trans hopening).trans ?_
  have hopen := openMessage_isOpen marked role messageId
  have hrunId := openMessage_runId marked role messageId
  unfold shape
  rw [hrunId, hspans.runId]
  split
  . exact .refl _
  . apply leads_contents hopen
    exact eventMarks_messageChunks run.runId role messageId bounded.2.1

end AgUiRunState

namespace AgUiProjector

variable {s : AgUiProjector} {threadId : String}

/--
A step of one run.
-/
theorem updateRun_emits {events : List AgUiEvent} (hrun : s.runs threadId = some run)
    (hleads : run.Sound → run'.Sound ∧ Leads run.shape run'.shape (eventMarks run.runId events))
    : Emits s (events.map (run.envelope threadId))
        { s with runs := update s.runs threadId (some run') } := by
  intro hsound
  have hstep := hleads (hsound.runs threadId run hrun)
  refine ⟨?_, ?_⟩
  . apply update_sound hsound
    intro current hcurrent
    rw [← Option.some.inj hcurrent]
    exact hstep.1
  . intro other
    unfold shape
    by_cases hne : threadId = other
    . subst hne
      dsimp only
      rw [hrun, update_self, marks_envelopes]
      exact hstep.2
    . dsimp only
      rw [update_of_ne (Ne.symm hne), marks_envelopes_of_ne _ hne]
      exact .refl _

/--
The run that an event with these ids goes to: the one of the thread, or a new one that is only observed.
-/
def receivingRun (s : AgUiProjector) (threadId : String) (runId sourceTurnId : Option String)
    : Option AgUiRunState :=
  let observed : AgUiRunState := { runId := observedRunId threadId, sourceTurnId := none }
  ((s.runs threadId).or (if s.observes threadId runId sourceTurnId then some observed else none)).filter
    (·.accepts runId sourceTurnId)

/--
Opening the observed run of the thread, if the event does, does not give it up again.
-/
def keepsObserved (s : AgUiProjector) (threadId : String) (runId sourceTurnId : Option String)
    : Bool :=
  !s.observes threadId runId sourceTurnId || s.makesRoomFor threadId

theorem keepsObserved_emits {runId sourceTurnId : Option String}
    (hkeeps : s.keepsObserved threadId runId sourceTurnId)
    : Emits s (s.ensureObservedRun threadId runId sourceTurnId).2
        (s.ensureObservedRun threadId runId sourceTurnId).1 := by
  apply ensureObservedRun_emits
  intro hobserves
  simpa [keepsObserved, hobserves] using hkeeps

theorem ensureObservedRun_receives (hsound : s.Sound) {runId sourceTurnId : Option String}
    (hkeeps : s.keepsObserved threadId runId sourceTurnId)
    : ((s.ensureObservedRun threadId runId sourceTurnId).1.runs threadId).filter
        (·.accepts runId sourceTurnId) = s.receivingRun threadId runId sourceTurnId := by
  unfold ensureObservedRun receivingRun
  split
  . next hobserves =>
    have hroom : s.makesRoomFor threadId := by simpa [keepsObserved, hobserves] using hkeeps
    have hafter := (expireObservedRuns_observe hsound hroom).2.2.1
    have hnone : s.runs threadId = none := by
      unfold observes at hobserves
      simp only [Bool.not_eq_true', Bool.or_eq_false_iff] at hobserves
      simpa using hobserves.1.2
    unfold observe at hafter
    dsimp only at hafter ⊢
    rw [hafter, update_self, hnone]
    rfl
  . next hobserves =>
    rw [Option.or_none]

theorem projectMessage_emits {runId sourceTurnId : Option String} {role : MessageRole}
    {messageId content : String} {contentBlock : Option Json}
    (hkeeps : !(content.isEmpty && contentBlock.isNone) → s.keepsObserved threadId runId sourceTurnId)
    (hrestarts : !(content.isEmpty && contentBlock.isNone) →
      ∀ run, s.receivingRun threadId runId sourceTurnId = some run →
        run.restarts role messageId = false)
    : Emits s (s.projectMessage x threadId runId sourceTurnId role messageId content contentBlock).2
        (s.projectMessage x threadId runId sourceTurnId role messageId content contentBlock).1 := by
  intro hsound
  unfold projectMessage
  split
  . exact Emits.refl s hsound
  . next hsaid =>
    rw [Bool.not_eq_true, ← Bool.not_eq_true'] at hsaid
    have hensure := keepsObserved_emits (hkeeps hsaid)
    have hreceives := ensureObservedRun_receives hsound (hkeeps hsaid)
    dsimp only
    split
    . exact hensure hsound
    . next run hrun =>
      have hchunk : run.Sound → _ := fun h =>
        AgUiRunState.leads_projectChunk (x := x) h
          (hrestarts hsaid run (hreceives.symm.trans hrun)) content contentBlock
      rw [Option.filter_eq_some_iff] at hrun
      exact hensure.trans (updateRun_emits hrun.1 hchunk) hsound

end AgUiProjector

end AgUi
