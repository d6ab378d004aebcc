import TetherBridge.AgUi.Messages

/-!
This module contains what tool updates and the progress of a sub-agent add to the stream. A call is ended
when its tool is terminal; a tool that becomes a sub-agent while its call is open leaves it open.
-/

namespace AgUi

open Acp Snapshot Spans Transition

variable {x : Crates} {run : AgUiRunState}

namespace AgUiToolState

variable {state state' state'' : AgUiToolState}

/--
Two states of a tool that announce and end it alike.
-/
structure SameCall (state state' : AgUiToolState) : Prop where
  started : state'.started = state.started
  ended : state'.ended = state.ended
  subagentActivity : state'.subagentActivity = state.subagentActivity

theorem SameCall.refl (state : AgUiToolState) : state.SameCall state :=
  ⟨rfl, rfl, rfl⟩

theorem SameCall.trans (h : state.SameCall state') (h' : state'.SameCall state'')
    : state.SameCall state'' :=
  ⟨h'.started.trans h.started, h'.ended.trans h.ended,
    h'.subagentActivity.trans h.subagentActivity⟩

theorem applyResult_sameCall (state : AgUiToolState) (content : Option String)
    : state.SameCall (state.applyResult x content) := by
  unfold applyResult
  split <;> exact ⟨rfl, rfl, rfl⟩

theorem applyStructured_sameCall (state : AgUiToolState) (toolCallId : String) (tool : ToolUpdate)
    : state.SameCall (state.applyStructured x toolCallId tool).1 := by
  unfold applyStructured
  dsimp only
  split <;> exact ⟨rfl, rfl, rfl⟩

theorem applyStructured_resultContent (state : AgUiToolState) (toolCallId : String)
    (tool : ToolUpdate)
    : (state.applyStructured x toolCallId tool).1.resultContent = state.resultContent := by
  unfold applyStructured
  dsimp only
  split <;> rfl

theorem announce_resultContent (state : AgUiToolState) (toolCallId : String) (tool : ToolUpdate)
    : let announced := (state.announce toolCallId tool).1
      (announced.applyResult x (announced.updatedContent tool.content)).resultContent
        = (state.applyResult x (state.updatedContent tool.content)).resultContent := by
  unfold announce applyResult
  dsimp only
  split
  . next h =>
    split
    . rfl
    . next h' => exact absurd h h'
  . next h =>
    split
    . next h' => exact absurd h' h
    . rfl

theorem renderCard_sameCall (state : AgUiToolState) (threadId toolCallId : String)
    (childThreadId : Option String) (revision status : String) (latest : Option String)
    : state.SameCall
        (state.renderCard threadId toolCallId childThreadId revision status latest).1 := by
  unfold renderCard
  split <;> exact ⟨rfl, rfl, rfl⟩

theorem silent_renderCard (state : AgUiToolState) (threadId toolCallId : String)
    (childThreadId : Option String) (revision status : String) (latest : Option String)
    : Silent (state.renderCard threadId toolCallId childThreadId revision status latest).2 := by
  unfold renderCard
  split
  . exact silent_nil
  . exact silent_subagentActivityEvent threadId toolCallId childThreadId status latest

theorem renderMeta_sameCall (state : AgUiToolState) (toolCallId : String) (tool : ToolUpdate)
    : state.SameCall (state.renderMeta x toolCallId tool).1 := by
  unfold renderMeta
  dsimp only
  split <;> exact ⟨rfl, rfl, rfl⟩

theorem silent_renderMeta (state : AgUiToolState) (toolCallId : String) (tool : ToolUpdate)
    : Silent (state.renderMeta x toolCallId tool).2 := by
  unfold renderMeta
  dsimp only
  split
  . exact silent_structuredChunks x _ _ _
  . exact silent_nil

theorem silent_resultEvents (state : AgUiToolState)
    (runId toolCallId previousContent content : String) (revision : Option String)
    (tool : ToolUpdate)
    : Silent (state.resultEvents x runId toolCallId previousContent content revision tool) := by
  unfold resultEvents
  split
  . exact silent_nil
  . split
    . intro event hevent runId
      rw [List.mem_map] at hevent
      rcases hevent with ⟨chunk, -, rfl⟩
      rfl
    . exact silent_structuredChunks x _ _ _

theorem silent_structuredEvents (state : AgUiToolState) (toolCallId : String)
    : Silent (state.structuredEvents x toolCallId) := by
  unfold structuredEvents
  split
  . exact silent_nil
  . exact silent_structuredChunks x _ _ _

end AgUiToolState

namespace AgUiProjector

variable {s : AgUiProjector} {threadId : String}

/--
A tool whose text names a child runs a sub-agent from then on; any other tool stays what it is.
-/
structure FollowsCall (state : AgUiToolState) (named : Bool) (state' : AgUiToolState) : Prop where
  started : state'.started = state.started
  subagentActivity : state'.subagentActivity = (state.subagentActivity || named)
  ended : state'.subagentActivity = false → state'.ended = state.ended

theorem FollowsCall.trans {state state' state'' : AgUiToolState} {named : Bool}
    (h : FollowsCall state named state') (h' : state'.SameCall state'')
    : FollowsCall state named state'' := by
  refine ⟨h'.started.trans h.started, h'.subagentActivity.trans h.subagentActivity, ?_⟩
  intro hactivity
  rw [h'.ended]
  apply h.ended
  rw [← h'.subagentActivity]
  exact hactivity

theorem FollowsCall.after {state state' state'' : AgUiToolState} {named : Bool}
    (h : FollowsCall state' named state'') (h' : state.SameCall state')
    : FollowsCall state named state'' := by
  refine ⟨h.started.trans h'.started, ?_, ?_⟩
  . rw [h.subagentActivity, h'.subagentActivity]
  . intro hactivity
    exact (h.ended hactivity).trans h'.ended

theorem FollowsCall.refl (state : AgUiToolState) : FollowsCall state false state := by
  refine ⟨rfl, ?_, fun _ => rfl⟩
  rw [Bool.or_false]

theorem followChild_call (s : AgUiProjector) (threadId : String) (run : AgUiRunState)
    (toolCallId : String) (state : AgUiToolState) (tool : ToolUpdate) (task : TaskSubagent)
    (childThreadId : String)
    : FollowsCall state true
        (s.followChild threadId run toolCallId state tool task childThreadId).1
      ∧ Silent (s.followChild threadId run toolCallId state tool task childThreadId).2.2 := by
  have hlink : FollowsCall state true (state.linkChild tool task childThreadId) := by
    have hactivity : (state.linkChild tool task childThreadId).subagentActivity = true := by
      unfold AgUiToolState.linkChild
      dsimp only
      split
      . rfl
      . split <;> rfl
    refine ⟨?_, ?_, ?_⟩
    . unfold AgUiToolState.linkChild
      dsimp only
      split
      . rfl
      . split <;> rfl
    . rw [hactivity, Bool.or_true]
    . rw [hactivity]
      intro h
      contradiction
  unfold followChild
  dsimp only
  split
  . exact ⟨hlink.trans (AgUiToolState.renderCard_sameCall _ _ _ _ _ _ _),
      AgUiToolState.silent_renderCard _ _ _ _ _ _ _⟩
  . exact ⟨hlink.trans (AgUiToolState.renderCard_sameCall _ _ _ _ _ _ _),
      AgUiToolState.silent_renderCard _ _ _ _ _ _ _⟩

theorem followUnnamed_call (s : AgUiProjector) (threadId toolCallId : String)
    (state : AgUiToolState) (tool : ToolUpdate)
    : state.SameCall (s.followUnnamed threadId toolCallId state tool).1
      ∧ Silent (s.followUnnamed threadId toolCallId state tool).2.2 := by
  unfold followUnnamed
  dsimp only
  split
  . exact ⟨.refl state, silent_nil⟩
  . split
    . split
      . exact ⟨.refl state, silent_nil⟩
      . exact ⟨AgUiToolState.renderCard_sameCall _ _ _ _ _ _ _,
          AgUiToolState.silent_renderCard _ _ _ _ _ _ _⟩
    . split
      . split
        . exact ⟨AgUiToolState.renderCard_sameCall _ _ _ _ _ _ _,
            AgUiToolState.silent_renderCard _ _ _ _ _ _ _⟩
        . exact ⟨AgUiToolState.renderCard_sameCall _ _ _ _ _ _ _,
            AgUiToolState.silent_renderCard _ _ _ _ _ _ _⟩
      . exact ⟨AgUiToolState.renderCard_sameCall _ _ _ _ _ _ _,
          AgUiToolState.silent_renderCard _ _ _ _ _ _ _⟩

theorem followSubagent_call (s : AgUiProjector) (agentId threadId : String) (run : AgUiRunState)
    (toolCallId : String) (state : AgUiToolState) (tool : ToolUpdate)
    : FollowsCall state (namedChild x agentId state.resultContent).isSome
        (s.followSubagent x agentId threadId run toolCallId state tool).1
      ∧ Silent (s.followSubagent x agentId threadId run toolCallId state tool).2.2 := by
  unfold followSubagent
  cases namedChild x agentId state.resultContent with
  | none =>
    have hunnamed := followUnnamed_call s threadId toolCallId state tool
    exact ⟨(FollowsCall.refl state).trans hunnamed.1, hunnamed.2⟩
  | some child => exact followChild_call s threadId run toolCallId state tool child.1 child.2

/--
Whether the text of the tool names a child once the update is applied.
-/
def namesChild (x : Crates) (agentId : String) (state : AgUiToolState) (tool : ToolUpdate) : Bool :=
  (namedChild x agentId
    (state.applyResult x (state.updatedContent tool.content)).resultContent).isSome

/--
A tool update announces and ends the call, and may turn the tool into a sub-agent. The rest of what it
adds is not seen.
-/
theorem updateTool_call (s : AgUiProjector) (agentId threadId : String) (run : AgUiRunState)
    (toolCallId : String) (state : AgUiToolState) (tool : ToolUpdate)
    : let result := s.updateTool x agentId threadId run toolCallId state tool
      FollowsCall (state.announce toolCallId tool).1 (namesChild x agentId state tool) result.1
        ∧ ∀ runId, eventMarks runId result.2.2
          = eventMarks runId (state.announce toolCallId tool).2 := by
  unfold updateTool
  dsimp only
  generalize hannounced : state.announce toolCallId tool = announced
  generalize hupdated : announced.1.updatedContent tool.content = content
  generalize hstructured : (announced.1.applyResult x content).applyStructured x toolCallId tool
    = structured
  have hstate : announced.1.SameCall structured.1 := by
    rw [← hstructured]
    exact (announced.1.applyResult_sameCall content).trans
      (AgUiToolState.applyStructured_sameCall _ toolCallId tool)
  have hcontent : structured.1.resultContent
      = (state.applyResult x (state.updatedContent tool.content)).resultContent := by
    rw [← hstructured, AgUiToolState.applyStructured_resultContent, ← hupdated, ← hannounced]
    exact AgUiToolState.announce_resultContent state toolCallId tool
  have hcalls := followSubagent_call (x := x) s agentId threadId run toolCallId structured.1 tool
  rw [hcontent] at hcalls
  generalize s.followSubagent x agentId threadId run toolCallId structured.1 tool = followed at hcalls ⊢
  refine ⟨(hcalls.1.after hstate).trans (followed.1.renderMeta_sameCall toolCallId tool), ?_⟩
  intro runId
  rw [eventMarks_append, eventMarks_append, eventMarks_append, eventMarks_append,
    hcalls.2.eventMarks, (followed.1.silent_renderMeta toolCallId tool).eventMarks, List.append_nil,
    List.append_nil]
  split
  . rw [(AgUiToolState.silent_resultEvents _ _ _ _ _ _ _).eventMarks, List.append_nil]
    split
    . rw [(AgUiToolState.silent_structuredEvents _ _).eventMarks, List.append_nil]
    . rw [eventMarks_nil, List.append_nil]
  . rw [eventMarks_nil, List.append_nil]
    split
    . rw [(AgUiToolState.silent_structuredEvents _ _).eventMarks, List.append_nil]
    . rw [eventMarks_nil, List.append_nil]

end AgUiProjector

/-! The call of a tool -/

/--
A tool whose call is announced but not ended becomes a sub-agent, and its call is never ended.
-/
def AgUiRunState.hidesCall (x : Crates) (agentId : String) (run : AgUiRunState) (toolCallId : String)
    (tool : ToolUpdate) : Bool :=
  let prior := (run.tools.lookup toolCallId).getD {}
  let state := AgUiProjector.classify prior tool
  if state.subagentActivity then
    prior.started && !prior.ended && !prior.subagentActivity
  else
    !state.ended && !tool.terminal && AgUiProjector.namesChild x agentId state tool

namespace AgUiRunState

theorem insertTool_sound (h : run.Sound) (toolCallId : String) {state : AgUiToolState}
    (hstarted : state.started = true)
    : ({ run with tools := insertEntry toolCallId state run.tools } : AgUiRunState).Sound := by
  refine ⟨nodup_insertEntry h.toolIds, ?_, h.slots⟩
  intro entry hentry
  cases mem_insertEntry hentry with
  | inl heq =>
    rw [heq]
    exact hstarted
  | inr hmem => exact h.started entry hmem

/--
What is open in the run, were the call open or not.
-/
def openWith (run : AgUiRunState) (toolCallId : String) (called : Prop) : Span → Prop :=
  fun span => if span = .call toolCallId then called else run.IsOpen span

theorem openWith_self (run : AgUiRunState) (toolCallId : String) (called : Prop)
    : run.openWith toolCallId called (.call toolCallId) ↔ called := by
  simp [openWith]

theorem leads_call_before (run : AgUiRunState) {toolCallId : String} {called : Prop}
    (hcalled : run.IsOpen (.call toolCallId) ↔ called)
    : Leads run.shape (some (run.runId, run.openWith toolCallId called)) [] := by
  apply Leads.of_iff
  intro span
  unfold openWith
  split
  . next heq =>
    rw [heq]
    exact hcalled
  . rfl

theorem leads_call_after (run : AgUiRunState) {toolCallId : String} {called : Prop}
    {state : AgUiToolState} (hcalled : state.IsOpen ↔ called)
    : Leads (some (run.runId, run.openWith toolCallId called))
        ({ run with tools := insertEntry toolCallId state run.tools } : AgUiRunState).shape [] := by
  apply Leads.of_iff
  intro span
  unfold openWith
  split
  . next heq =>
    rw [heq, ← hcalled]
    unfold IsOpen
    dsimp only
    rw [lookup_insertEntry_self]
    simp
  . next hne =>
    cases span with
    | text messageId => rfl
    | reasoning messageId => rfl
    | call other =>
      unfold IsOpen
      dsimp only
      rw [lookup_insertEntry_of_ne]
      rintro rfl
      exact hne rfl

theorem leads_call_start (run : AgUiRunState) (toolCallId : String)
    : Leads (some (run.runId, run.openWith toolCallId False))
        (some (run.runId, run.openWith toolCallId True))
        [Mark.started run.runId (.call toolCallId), Mark.content run.runId (.call toolCallId)] := by
  have hstarted : Leads (some (run.runId, run.openWith toolCallId False))
      (some (run.runId, run.openWith toolCallId True))
      [Mark.started run.runId (.call toolCallId)] := by
    apply (leads_started _).congr
    . intro span
      unfold openWith
      split
      . next heq => simp [heq]
      . next hne => simp [hne]
    . rw [openWith_self]
      exact not_false
  exact hstarted.trans (leads_content ((openWith_self run toolCallId True).mpr trivial))

theorem leads_call_end (run : AgUiRunState) (toolCallId : String)
    : Leads (some (run.runId, run.openWith toolCallId True))
        (some (run.runId, run.openWith toolCallId False))
        (eventMarks run.runId [.toolCallEnd toolCallId]) := by
  apply (leads_ended ((openWith_self run toolCallId True).mpr trivial)).congr
  intro span
  unfold openWith
  split
  . next heq => simp [heq]
  . next hne => simp [hne]

/--
After the update, the call is open if it neither was over nor is.
-/
theorem leads_announce (h : run.Sound) (toolCallId : String) (tool : ToolUpdate)
    (hactivity : (AgUiProjector.classify ((run.tools.lookup toolCallId).getD {}) tool).subagentActivity
      = false)
    : let state := AgUiProjector.classify ((run.tools.lookup toolCallId).getD {}) tool
      Leads run.shape
        (some (run.runId, run.openWith toolCallId (state.ended = false ∧ tool.terminal = false)))
        (eventMarks run.runId (state.announce toolCallId tool).2) := by
  intro state
  have hfirst : Leads run.shape (some (run.runId, run.openWith toolCallId (state.ended = false)))
      (eventMarks run.runId (if !state.started && !state.subagentActivity then
        [.toolCallStart toolCallId
          (bound (if isBlank tool.title then toolKindDebug tool.kind else tool.title) 256),
          .toolCallArgs toolCallId "\x7b\x7d"]
        else [])) := by
    cases hlookup : run.tools.lookup toolCallId with
    | none =>
      have hstate : state = AgUiProjector.classify {} tool := by
        unfold state
        rw [hlookup]
        rfl
      have hended : (state.ended = false) = True := by
        rw [hstate]
        exact eq_true rfl
      have hstarted : (!state.started && !state.subagentActivity) = true := by
        rw [hactivity, hstate]
        rfl
      have hcalled : run.IsOpen (.call toolCallId) ↔ False := by simp [IsOpen, hlookup]
      rw [if_pos hstarted, hended]
      exact (run.leads_call_before hcalled).trans (run.leads_call_start toolCallId)
    | some prior =>
      have hstate : state = AgUiProjector.classify prior tool := by
        unfold state
        rw [hlookup]
        rfl
      have hprior : prior.started = true :=
        h.started _ ((lookup_eq_some_iff h.toolIds).mp hlookup)
      have hstarted : ¬(!state.started && !state.subagentActivity) = true := by
        have hsame : state.started = prior.started := by rw [hstate]; rfl
        rw [hsame, hprior]
        exact Bool.false_ne_true
      rw [if_neg hstarted]
      apply run.leads_call_before
      have hpriorActivity : prior.subagentActivity = false := by
        have hall : state.subagentActivity = false := hactivity
        rw [hstate] at hall
        unfold AgUiProjector.classify at hall
        simp only [Bool.or_eq_false_iff] at hall
        exact hall.1.1
      have hended : state.ended = prior.ended := by rw [hstate]; rfl
      rw [hended]
      simp [IsOpen, hlookup, AgUiToolState.IsOpen, hpriorActivity]
  unfold AgUiToolState.announce
  dsimp only
  rw [eventMarks_append]
  apply hfirst.trans
  by_cases hended : state.ended = false
  . by_cases hterminal : tool.terminal = true
    . have hfinish : (tool.terminal && !state.ended && !state.subagentActivity) = true := by
        rw [hterminal, hended, hactivity]
        rfl
      have hnot : (state.ended = false ∧ tool.terminal = false) = False := by simp [hterminal]
      rw [if_pos hfinish, hnot, eq_true hended]
      exact run.leads_call_end toolCallId
    . have hfinish : ¬(tool.terminal && !state.ended && !state.subagentActivity) = true := by
        simp [hterminal]
      have hstill : (state.ended = false ∧ tool.terminal = false) = (state.ended = false) := by
        simp [hterminal]
      rw [if_neg hfinish, hstill]
      exact .refl _
  . have hfinish : ¬(tool.terminal && !state.ended && !state.subagentActivity) = true := by
      simp [hended]
    have hstill : (state.ended = false ∧ tool.terminal = false) = (state.ended = false) := by
      simp [hended]
    rw [if_neg hfinish, hstill]
    exact .refl _

/--
An update that does not hide the call leaves it open exactly when the tool is not over.
-/
theorem leads_updateTool (h : run.Sound) (s : AgUiProjector) {agentId : String} (threadId : String)
    {toolCallId : String} {tool : ToolUpdate} (hhides : run.hidesCall x agentId toolCallId tool = false)
    : let result := s.updateTool x agentId threadId run toolCallId
        (AgUiProjector.classify ((run.tools.lookup toolCallId).getD {}) tool) tool
      let run' : AgUiRunState := { run with tools := insertEntry toolCallId result.1 run.tools }
      run'.Sound ∧ Leads run.shape run'.shape (eventMarks run.runId result.2.2) := by
  have hcall := AgUiProjector.updateTool_call (x := x) s agentId threadId run toolCallId
    (AgUiProjector.classify ((run.tools.lookup toolCallId).getD {}) tool) tool
  unfold hidesCall at hhides
  dsimp only at hcall hhides ⊢
  generalize hstate : AgUiProjector.classify ((run.tools.lookup toolCallId).getD {}) tool = state
    at hcall hhides ⊢
  generalize s.updateTool x agentId threadId run toolCallId state tool = result at hcall ⊢
  refine ⟨insertTool_sound h toolCallId hcall.1.started, ?_⟩
  rw [hcall.2]
  have hannounced : (state.announce toolCallId tool).1.ended = (state.ended || tool.terminal)
      ∧ (state.announce toolCallId tool).1.subagentActivity = state.subagentActivity := ⟨rfl, rfl⟩
  cases hactivity : state.subagentActivity with
  | true =>
    have hsilent : (state.announce toolCallId tool).2 = [] := by
      simp [AgUiToolState.announce, hactivity]
    have hbefore : run.IsOpen (.call toolCallId) ↔ False := by
      rw [if_pos hactivity] at hhides
      simp only [IsOpen, iff_false, not_exists, not_and]
      intro prior hlookup hopen
      have hstarted := h.started _ ((lookup_eq_some_iff h.toolIds).mp hlookup)
      rw [hlookup, Option.getD_some, hstarted, hopen.1, hopen.2] at hhides
      contradiction
    have hafter : result.1.IsOpen ↔ False := by
      have hagent := hcall.1.subagentActivity
      rw [hannounced.2, hactivity, Bool.true_or] at hagent
      simp [AgUiToolState.IsOpen, hagent]
    rw [hsilent]
    exact (run.leads_call_before hbefore).trans (run.leads_call_after hafter)
  | false =>
    have hopened := leads_announce h toolCallId tool (by rw [hstate]; exact hactivity)
    rw [hstate] at hopened
    have hafter : result.1.IsOpen ↔ (state.ended = false ∧ tool.terminal = false) := by
      rw [if_neg (by rw [hactivity]; exact Bool.false_ne_true)] at hhides
      have hagent := hcall.1.subagentActivity
      have hended := hcall.1.ended
      rw [hannounced.2, hactivity, Bool.false_or] at hagent
      rw [hannounced.1] at hended
      unfold AgUiToolState.IsOpen
      constructor
      . rintro ⟨hopen, hordinary⟩
        rw [hended hordinary, Bool.or_eq_false_iff] at hopen
        exact hopen
      . rintro ⟨hopen, hterminal⟩
        rw [hopen, hterminal] at hhides
        have hordinary : result.1.subagentActivity = false := by
          rw [hagent]
          exact hhides
        rw [hended hordinary, hopen, hterminal]
        exact ⟨rfl, hordinary⟩
    have hleads := hopened.trans (run.leads_call_after hafter)
    rw [List.append_nil] at hleads
    exact hleads

end AgUiRunState

namespace AgUiProjector

variable {s : AgUiProjector} {threadId : String}

theorem projectTool_emits {agentId : String} {runId sourceTurnId : Option String}
    {toolCallId : String} {tool : ToolUpdate}
    (hkeeps : s.keepsObserved threadId runId sourceTurnId)
    (hhides : ∀ run, s.receivingRun threadId runId sourceTurnId = some run →
      run.hidesCall x agentId toolCallId tool = false)
    : Emits s (s.projectTool x agentId threadId runId sourceTurnId toolCallId tool).2
        (s.projectTool x agentId threadId runId sourceTurnId toolCallId tool).1 := by
  intro hsound
  have hensure := keepsObserved_emits hkeeps
  have hreceives := ensureObservedRun_receives hsound hkeeps
  unfold projectTool
  dsimp only
  split
  . exact hensure hsound
  . next run hrun =>
    have hhides := hhides run (hreceives.symm.trans hrun)
    rw [Option.filter_eq_some_iff] at hrun
    have hupdate := hensure.trans (updateRun_emits hrun.1 fun h =>
      AgUiRunState.leads_updateTool h (s.ensureObservedRun threadId runId sourceTurnId).1 threadId
        hhides) hsound
    generalize (s.ensureObservedRun threadId runId sourceTurnId).1.updateTool x agentId threadId run
      toolCallId (classify ((run.tools.lookup toolCallId).getD {}) tool) tool = result at hupdate ⊢
    have hclose := closeObservedRuns_emits result.2.1.finished.toList
      { (s.ensureObservedRun threadId runId sourceTurnId).1 with
        runs := update (s.ensureObservedRun threadId runId sourceTurnId).1.runs threadId
          (some { run with tools := insertEntry toolCallId result.1 run.tools })
        subagentLinks := result.2.1.subagentLinks }
      ⟨hupdate.1.runs, hupdate.1.observed_le⟩
    refine ⟨⟨hclose.1.runs, hclose.1.observed_le⟩, ?_⟩
    intro other
    rw [marks_append]
    exact (hupdate.2 other).trans (hclose.2 other)

/-! The progress of a sub-agent -/

theorem rememberTerminal_emits (s : AgUiProjector) (link : SubagentActivityLink) (status : String)
    : Emits s [] (s.rememberTerminal link status) := by
  unfold rememberTerminal
  split
  . exact .refl s
  . next run hrun =>
    split
    . exact .refl s
    . next tool hlookup =>
      split
      . apply @updateRun_emits run _ s _ [] hrun
        intro h
        have hstarted := h.started _ ((lookup_eq_some_iff h.toolIds).mp hlookup)
        refine ⟨AgUiRunState.insertTool_sound h _ hstarted, ?_⟩
        have hcalled : run.IsOpen (.call link.toolCallId) ↔ tool.IsOpen := by
          simp [AgUiRunState.IsOpen, hlookup]
        exact (run.leads_call_before hcalled).trans (run.leads_call_after Iff.rfl)
      . exact .refl s

theorem renderProgress_emits (s : AgUiProjector) (threadId : String)
    (link current : SubagentActivityLink) (progress : SubagentProgress)
    : Emits s (s.renderProgress threadId link current progress).2
        (s.renderProgress threadId link current progress).1 := by
  unfold renderProgress
  dsimp only
  split
  . exact .refl s
  . have hcard : ∀ other, marks other [link.activity progress.status (current.latest progress)] = [] := by
      intro other
      by_cases hne : link.parentThreadId = other
      . simp [marks, SubagentActivityLink.activity, subagentActivityEvent, AgUiEvent.mark]
      . exact marks_singleton_of_ne hne
    generalize ({ current with
      lastRendered := some (progress.status ++ "\x00" ++ current.latest progress) }
      : SubagentActivityLink) = rendered
    have hpaint : Emits s [link.activity progress.status (current.latest progress)]
        { s with subagentLinks := insertEntry threadId rendered s.subagentLinks } :=
      Emits.of_runs_eq rfl rfl hcard
    split
    . have hremember := rememberTerminal_emits
        { s with subagentLinks := insertEntry threadId rendered s.subagentLinks } link progress.status
      have hforget := Emits.relink (rememberTerminal
        { s with subagentLinks := insertEntry threadId rendered s.subagentLinks } link progress.status)
        (removeEntry threadId (rememberTerminal
          { s with subagentLinks := insertEntry threadId rendered s.subagentLinks } link
          progress.status).subagentLinks)
      exact hpaint.trans (hremember.trans (hforget.trans (closeObservedRun_emits _ threadId)))
    . exact hpaint

theorem applyProgress_emits (s : AgUiProjector) (threadId : String)
    (link current : SubagentActivityLink) (progress : Option SubagentProgress)
    : Emits s (s.applyProgress threadId link current progress).2
        (s.applyProgress threadId link current progress).1 := by
  unfold applyProgress
  split
  . exact .relink s _
  . dsimp only
    split
    . exact .relink s _
    . exact (Emits.relink s _).trans (renderProgress_emits _ _ _ _ _)

theorem projectSubagentProgress_emits (s : AgUiProjector) (canonical : CanonicalEvent)
    : Emits s (s.projectSubagentProgress canonical).2 (s.projectSubagentProgress canonical).1 := by
  unfold projectSubagentProgress
  split
  . exact .refl s
  . split
    . exact .refl s
    . dsimp only
      split
      . exact .refl s
      . exact applyProgress_emits s _ _ _ _

end AgUiProjector

end AgUi
