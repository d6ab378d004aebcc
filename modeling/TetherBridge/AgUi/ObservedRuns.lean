import TetherBridge.AgUi.WellFormed

/-!
This module contains in which runs the list of the observed runs and the table of all runs stay in step.
-/

namespace AgUi

open Acp Snapshot Transition

namespace AgUiProjector

/--
The thread is in the run that was opened because it was observed, not by a client.
-/
def implicit (s : AgUiProjector) (threadId : String) : Bool :=
  (s.runs threadId).any fun run => run.runId == observedRunId threadId && run.sourceTurnId.isNone

/--
The list has the threads with such a run, each once.
-/
structure Listed (s : AgUiProjector) : Prop where
  nodup : s.observedRuns.Nodup
  mem_iff : ∀ threadId, threadId ∈ s.observedRuns ↔ s.implicit threadId

structure InStep (s : AgUiProjector) : Prop extends Listed s where
  observed_le : s.observedRuns.length ≤ OBSERVED_RUN_CAPACITY

variable {x : Crates} {s s' s'' : AgUiProjector} {threadId : String}

theorem Listed.of_eq (h : s.Listed) (hobserved : s'.observedRuns = s.observedRuns)
    (himplicit : ∀ threadId, s'.implicit threadId = s.implicit threadId)
    : s'.Listed where
  nodup := by
    rw [hobserved]
    exact h.nodup
  mem_iff threadId := by
    rw [hobserved, himplicit]
    exact h.mem_iff threadId

theorem implicit_of_runs (hruns : s'.runs = s.runs) (threadId : String) : s'.implicit threadId = s.implicit threadId := by
  unfold implicit
  rw [hruns]

theorem implicit_update {run : Option AgUiRunState} (hruns : s'.runs = update s.runs threadId run) (other : String)
    : s'.implicit other
        =
      if other = threadId then run.any fun run => run.runId == observedRunId threadId && run.sourceTurnId.isNone
      else s.implicit other := by
  unfold implicit
  rw [hruns]
  unfold update
  by_cases heq : other = threadId
  . subst heq
    simp
  . simp [heq]

/--
A step that opens no run, and closes observed ones only.
-/
structure Shrinks (s s' : AgUiProjector) : Prop where
  listed : s.Listed → s'.Listed
  sublist : s'.observedRuns.Sublist s.observedRuns
  absent : ∀ threadId, s.runs threadId = none → s'.runs threadId = none
  stays : ∀ threadId ∈ s.observedRuns, s.runs threadId = none → threadId ∈ s'.observedRuns

theorem Shrinks.of_eq (hobserved : s'.observedRuns = s.observedRuns) (hruns : s'.runs = s.runs) : Shrinks s s' where
  listed h := h.of_eq hobserved (implicit_of_runs hruns)
  sublist := by rw [hobserved]
  absent threadId h := by rwa [hruns]
  stays threadId hmem _ := by rwa [hobserved]

theorem Shrinks.refl (s : AgUiProjector) : Shrinks s s :=
  .of_eq rfl rfl

theorem Shrinks.trans (h : Shrinks s s') (h' : Shrinks s' s'') : Shrinks s s'' where
  listed hlisted := h'.listed (h.listed hlisted)
  sublist := h'.sublist.trans h.sublist
  absent threadId hnone := h'.absent threadId (h.absent threadId hnone)
  stays threadId hmem hnone := h'.stays threadId (h.stays threadId hmem hnone) (h.absent threadId hnone)

theorem closeObservedRun_shrinks (s : AgUiProjector) (threadId : String) : Shrinks s (s.closeObservedRun threadId).1 := by
  unfold closeObservedRun
  split
  . exact .refl s
  . next run hrun =>
    split
    . exact .refl s
    . dsimp only
      refine .trans ?_ (.of_eq (markThreadClosed_observedRuns _ threadId) (markThreadClosed_runs _ threadId))
      exact {
        listed := by
          intro h
          exact {
            nodup := h.nodup.filter _
            mem_iff := by
              intro other
              rw [implicit_update (s := s) rfl, List.mem_filter, h.mem_iff]
              by_cases heq : other = threadId
              . simp [heq]
              . simp [heq] }
        sublist := List.filter_sublist
        absent := by
          intro other hnone
          dsimp only
          unfold update
          split
          . rfl
          . exact hnone
        stays := by
          intro other hmem hnone
          rw [List.mem_filter]
          refine ⟨hmem, ?_⟩
          rw [bne_iff_ne]
          rintro rfl
          rw [hrun] at hnone
          contradiction }

theorem closeObservedRuns_shrinks (threadIds : List String) (s : AgUiProjector)
    : Shrinks s (closeObservedRuns threadIds s).1 := by
  induction threadIds generalizing s with
  | nil => exact .refl s
  | cons threadId threadIds ih => exact (closeObservedRun_shrinks s threadId).trans (ih _)

/-! Opening a run -/

theorem closeObservedRun_of_implicit (h : s.implicit threadId)
    : (s.closeObservedRun threadId).1.observedRuns = s.observedRuns.filter (· != threadId)
        ∧ (s.closeObservedRun threadId).1.runs = update s.runs threadId none := by
  unfold implicit at h
  rw [Option.any_eq_true] at h
  rcases h with ⟨run, hrun, hself⟩
  rw [Bool.and_eq_true, beq_iff_eq] at hself
  unfold closeObservedRun
  rw [hrun]
  dsimp only
  rw [if_neg (by simp [hself.1])]
  exact ⟨markThreadClosed_observedRuns _ threadId, markThreadClosed_runs _ threadId⟩

/--
The oldest thread of the list is closed, and no other.
-/
theorem giveUpObservedRun_oldest {oldest : String} {rest : List String} (h : s.Listed)
    (hobserved : s.observedRuns = oldest :: rest)
    : let result := ({ s with observedRuns := rest } : AgUiProjector).giveUpObservedRun oldest
      result.1.observedRuns = rest ∧ result.1.runs = update s.runs oldest none := by
  have himplicit : s.implicit oldest := by
    rw [← h.mem_iff, hobserved]
    exact List.mem_cons_self
  have hnone : (({ s with observedRuns := rest } : AgUiProjector).runs oldest).any (·.sourceTurnId.isNone) := by
    unfold implicit at himplicit
    rw [Option.any_eq_true] at himplicit ⊢
    rcases himplicit with ⟨run, hrun, hself⟩
    rw [Bool.and_eq_true] at hself
    exact ⟨run, hrun, hself.2⟩
  have hnodup := h.nodup
  rw [hobserved, List.nodup_cons] at hnodup
  have hclose := closeObservedRun_of_implicit (s := { s with observedRuns := rest }) himplicit
  have hfilter : rest.filter (· != oldest) = rest := by
    rw [List.filter_eq_self]
    intro other hother
    rw [bne_iff_ne]
    rintro rfl
    exact hnodup.1 hother
  unfold giveUpObservedRun
  dsimp only at hclose ⊢
  rw [if_pos hnone, hclose.1, hclose.2, hfilter]
  exact ⟨rfl, rfl⟩

theorem observe_listed (h : s.Listed) (hnone : s.runs threadId = none) : (s.observe threadId).Listed := by
  have hfresh : threadId ∉ s.observedRuns := by
    rw [h.mem_iff]
    unfold implicit
    rw [hnone]
    simp
  unfold observe
  exact {
    nodup := by
      rw [List.nodup_append]
      refine ⟨h.nodup, List.nodup_singleton _, ?_⟩
      rintro other hother last hlast rfl
      rw [List.mem_singleton] at hlast
      exact hfresh (hlast ▸ hother)
    mem_iff := by
      intro other
      rw [implicit_update (s := s) rfl, List.mem_append, List.mem_singleton, h.mem_iff]
      by_cases heq : other = threadId
      . simp [heq]
      . simp [heq] }

/--
What opening an observed run does to the list: the thread comes last, and when the list was full, the first thread of
it is closed.
-/
structure Opens (s : AgUiProjector) (threadId : String) (s' : AgUiProjector) : Prop where
  listed : s'.Listed
  room : s.observedRuns.length < OBSERVED_RUN_CAPACITY → s' = s.observe threadId
  full : ∀ oldest rest, s.observedRuns = oldest :: rest → s.observedRuns.length = OBSERVED_RUN_CAPACITY →
    s'.observedRuns = rest ++ [threadId] ∧ s'.runs = update (s.observe threadId).runs oldest none

theorem runs_of_observes {runId sourceTurnId : Option String} (h : s.observes threadId runId sourceTurnId)
    : s.runs threadId = none := by
  unfold observes at h
  simp only [Bool.not_eq_true', Bool.or_eq_false_iff] at h
  simpa using h.1.2

theorem ensureObservedRun_opens {runId sourceTurnId : Option String} (h : s.InStep)
    (hobserves : s.observes threadId runId sourceTurnId)
    : Opens s threadId (s.ensureObservedRun threadId runId sourceTurnId).1 := by
  have hlisted := observe_listed h.toListed (runs_of_observes hobserves)
  have hlength : (s.observe threadId).observedRuns.length = s.observedRuns.length + 1 := by
    unfold observe
    simp
  have hensure : (s.ensureObservedRun threadId runId sourceTurnId).1
      = (expireObservedRuns (s.observe threadId).observedRuns.length (s.observe threadId)).1 := by
    unfold ensureObservedRun
    rw [if_pos hobserves]
    rfl
  rw [hensure]
  by_cases hroom : s.observedRuns.length < OBSERVED_RUN_CAPACITY
  . rw [expireObservedRuns_of_le (by omega)]
    exact ⟨hlisted, fun _ => rfl, fun _ _ _ hfull => absurd hfull (Nat.ne_of_lt hroom)⟩
  . cases hobserved : s.observedRuns with
    | nil =>
      rw [hobserved] at hroom
      exact absurd (by decide) hroom
    | cons oldest rest =>
      have hle := h.observed_le
      have hobserve : (s.observe threadId).observedRuns = oldest :: (rest ++ [threadId]) := by
        unfold observe
        dsimp only
        rw [hobserved]
        rfl
      have hfull : (rest ++ [threadId]).length = OBSERVED_RUN_CAPACITY := by
        rw [hobserved, List.length_cons] at hle hroom
        rw [List.length_append, List.length_singleton]
        omega
      rw [expireObservedRuns_of_succ hobserve hfull]
      have hgiveUp := giveUpObservedRun_oldest hlisted hobserve
      have hself : (s.observe threadId).implicit oldest := by
        rw [← hlisted.mem_iff, hobserve]
        exact List.mem_cons_self
      dsimp only at hgiveUp
      generalize ({ s.observe threadId with observedRuns := rest ++ [threadId] } : AgUiProjector).giveUpObservedRun oldest
        = result at hgiveUp ⊢
      refine ⟨?_, fun hlt => absurd hlt hroom, ?_⟩
      . have hnodup := hlisted.nodup
        rw [hobserve, List.nodup_cons] at hnodup
        constructor
        . rw [hgiveUp.1]
          exact hnodup.2
        . intro other
          have hbefore := hlisted.mem_iff other
          rw [hobserve, List.mem_cons] at hbefore
          rw [hgiveUp.1, implicit_update hgiveUp.2]
          by_cases heq : other = oldest
          . subst heq
            simpa using hnodup.1
          . rw [if_neg heq, ← hbefore]
            simp [heq]
      . rintro _ _ heq -
        rw [hobserved, List.cons.injEq] at heq
        rcases heq with ⟨rfl, rfl⟩
        exact hgiveUp

/-! Events of a run -/

/--
A run that goes on under its ids is the same run.
-/
theorem update_shrinks {run : AgUiRunState} (run' : AgUiRunState) (hrun : s.runs threadId = some run)
    (hruns : s'.runs = update s.runs threadId (some run')) (hobserved : s'.observedRuns = s.observedRuns)
    (hrunId : run'.runId = run.runId) (hturnId : run'.sourceTurnId = run.sourceTurnId)
    : Shrinks s s' where
  listed h := by
    apply h.of_eq hobserved
    intro other
    rw [implicit_update hruns]
    split
    . next heq =>
      unfold implicit
      rw [heq, hrun, Option.any_some, Option.any_some, hrunId, hturnId]
    . rfl
  sublist := by rw [hobserved]
  absent other hnone := by
    have hne : other ≠ threadId := by
      rintro rfl
      rw [hrun] at hnone
      contradiction
    rw [hruns, update_of_ne hne, hnone]
  stays other hmem _ := by rwa [hobserved]

theorem rememberTerminal_shrinks (s : AgUiProjector) (link : SubagentActivityLink) (status : String)
    : Shrinks s (s.rememberTerminal link status) := by
  unfold rememberTerminal
  split
  . exact .refl s
  . next run hrun =>
    split
    . exact .refl s
    . split
      . next tool _ _ =>
        exact update_shrinks
          { run with
            tools := insertEntry link.toolCallId { tool with subagentTerminalStatus := some status } run.tools }
          hrun rfl rfl rfl rfl
      . exact .refl s

theorem renderProgress_shrinks (s : AgUiProjector) (threadId : String) (link current : SubagentActivityLink)
    (progress : SubagentProgress)
    : Shrinks s (s.renderProgress threadId link current progress).1 := by
  have hlinks : ∀ (s : AgUiProjector) links, Shrinks s { s with subagentLinks := links } := fun s links => .of_eq rfl rfl
  unfold renderProgress
  dsimp only
  split
  . exact .refl s
  . split
    . exact (hlinks s _).trans ((rememberTerminal_shrinks _ link progress.status).trans
        ((hlinks _ _).trans (closeObservedRun_shrinks _ threadId)))
    . exact hlinks s _

theorem applyProgress_shrinks (s : AgUiProjector) (threadId : String) (link current : SubagentActivityLink)
    (progress : Option SubagentProgress)
    : Shrinks s (s.applyProgress threadId link current progress).1 := by
  have hlinks : ∀ links, Shrinks s { s with subagentLinks := links } := fun links => .of_eq rfl rfl
  cases progress with
  | none => exact hlinks _
  | some progress =>
    unfold applyProgress
    dsimp only
    generalize (current.track progress).remember progress.revision = remembered
    split
    . exact hlinks _
    . exact (hlinks _).trans (renderProgress_shrinks _ threadId link _ progress)

theorem projectSubagentProgress_shrinks (s : AgUiProjector) (canonical : CanonicalEvent)
    : Shrinks s (s.projectSubagentProgress canonical).1 := by
  unfold projectSubagentProgress
  split
  . exact .refl s
  . split
    . exact .refl s
    . dsimp only
      split
      . exact .refl s
      . exact applyProgress_shrinks s _ _ _ _

theorem linkSubagent_shrinks (s : AgUiProjector) (parentThreadId parentRunId : String)
    (parentSourceTurnId : Option String) (toolCallId childThreadId : String)
    : Shrinks s (s.linkSubagent parentThreadId parentRunId parentSourceTurnId toolCallId childThreadId).1 := by
  unfold linkSubagent
  split
  . exact .refl s
  . exact .of_eq rfl rfl

theorem projectChunk_runId (run : AgUiRunState) (role : MessageRole) (messageId content : String)
    (contentBlock : Option Json)
    : let projected := (run.projectChunk x role messageId content contentBlock).1
      projected.runId = run.runId ∧ projected.sourceTurnId = run.sourceTurnId := by
  have hbounded : (run.boundedLiveContent messageId content).1.runId = run.runId
      ∧ (run.boundedLiveContent messageId content).1.sourceTurnId = run.sourceTurnId := ⟨rfl, rfl⟩
  have hopen : ∀ run : AgUiRunState, (run.openMessage role messageId).1.runId = run.runId
      ∧ (run.openMessage role messageId).1.sourceTurnId = run.sourceTurnId := by
    intro run
    cases role <;> exact ⟨rfl, rfl⟩
  unfold AgUiRunState.projectChunk
  dsimp only at hbounded ⊢
  generalize run.boundedLiveContent messageId content = bounded at hbounded ⊢
  rw [(hopen _).1, (hopen _).2]
  split
  . exact hbounded
  . exact hbounded

/--
What a step may do to the list: threads leave it, and one more comes last.
-/
structure Moves (s s' : AgUiProjector) : Prop where
  inStep : s'.InStep
  ordered : ∃ kept opened, s'.observedRuns = kept ++ opened ∧ kept.Sublist s.observedRuns ∧ opened.length ≤ 1

theorem Shrinks.moves (h : Shrinks s s') (hin : s.InStep) : Moves s s' where
  inStep := {
    toListed := h.listed hin.toListed
    observed_le := Nat.le_trans h.sublist.length_le hin.observed_le }
  ordered := ⟨s'.observedRuns, [], (List.append_nil _).symm, h.sublist, Nat.zero_le _⟩

theorem Moves.shrinks (h : Moves s s') (h' : Shrinks s' s'') : Moves s s'' where
  inStep := (h'.moves h.inStep).inStep
  ordered := by
    rcases h.ordered with ⟨kept, opened, heq, hkept, hopened⟩
    have hsublist := h'.sublist
    rw [heq, List.sublist_append_iff] at hsublist
    rcases hsublist with ⟨kept', opened', heq', hkept', hopened'⟩
    exact ⟨kept', opened', heq', hkept'.trans hkept, Nat.le_trans hopened'.length_le hopened⟩

theorem Shrinks.then_moves (h : Shrinks s s') (h' : Moves s' s'') : Moves s s'' where
  inStep := h'.inStep
  ordered := by
    rcases h'.ordered with ⟨kept, opened, heq, hkept, hopened⟩
    exact ⟨kept, opened, heq, hkept.trans h.sublist, hopened⟩

theorem ensureObservedRun_moves (h : s.InStep) (threadId : String) (runId sourceTurnId : Option String)
    : Moves s (s.ensureObservedRun threadId runId sourceTurnId).1 := by
  by_cases hobserves : s.observes threadId runId sourceTurnId
  . have hopens := ensureObservedRun_opens h hobserves
    have hle := h.observed_le
    by_cases hroom : s.observedRuns.length < OBSERVED_RUN_CAPACITY
    . have hobserve := hopens.room hroom
      have hobserved : (s.observe threadId).observedRuns = s.observedRuns ++ [threadId] := rfl
      refine ⟨⟨hopens.listed, ?_⟩, s.observedRuns, [threadId], ?_, .refl _, Nat.le_refl 1⟩
      . rw [hobserve, hobserved, List.length_append, List.length_singleton]
        omega
      . rw [hobserve, hobserved]
    . cases hobserved : s.observedRuns with
      | nil =>
        rw [hobserved] at hroom
        exact absurd (by decide) hroom
      | cons oldest rest =>
        have hfull := hopens.full oldest rest hobserved (by omega)
        rw [hobserved, List.length_cons] at hle
        refine ⟨⟨hopens.listed, ?_⟩, rest, [threadId], hfull.1, ?_, Nat.le_refl 1⟩
        . rw [hfull.1, List.length_append, List.length_singleton]
          exact hle
        . rw [hobserved]
          exact List.sublist_cons_self _ _
  . unfold ensureObservedRun
    rw [if_neg hobserves]
    exact (Shrinks.refl s).moves h

theorem projectMessage_moves (h : s.InStep) (threadId : String) (runId sourceTurnId : Option String)
    (role : MessageRole) (messageId content : String) (contentBlock : Option Json)
    : Moves s (s.projectMessage x threadId runId sourceTurnId role messageId content contentBlock).1 := by
  have hensure := ensureObservedRun_moves h threadId runId sourceTurnId
  unfold projectMessage
  split
  . exact (Shrinks.refl s).moves h
  . dsimp only
    split
    . exact hensure
    . next run hrun =>
      rw [Option.filter_eq_some_iff] at hrun
      have hids := projectChunk_runId (x := x) run role messageId content contentBlock
      exact hensure.shrinks (update_shrinks _ hrun.1 rfl rfl hids.1 hids.2)

theorem projectTool_moves (h : s.InStep) (agentId threadId : String) (runId sourceTurnId : Option String)
    (toolCallId : String) (tool : ToolUpdate)
    : Moves s (s.projectTool x agentId threadId runId sourceTurnId toolCallId tool).1 := by
  have hensure := ensureObservedRun_moves h threadId runId sourceTurnId
  have hclosed : ∀ (s : AgUiProjector) closedThreads, Shrinks s { s with closedThreads } := fun s _ => .of_eq rfl rfl
  unfold projectTool
  dsimp only
  split
  . exact hensure
  . next run hrun =>
    rw [Option.filter_eq_some_iff] at hrun
    generalize (s.ensureObservedRun threadId runId sourceTurnId).1 = ensured at hensure hrun ⊢
    dsimp only
    generalize ensured.updateTool x agentId threadId run toolCallId
      (classify ((run.tools.lookup toolCallId).getD {}) tool) tool = updated
    have hupdate : ∀ tools links, Shrinks ensured
        { ensured with runs := update ensured.runs threadId (some { run with tools }), subagentLinks := links } :=
      fun tools _ => update_shrinks { run with tools } hrun.1 rfl rfl rfl rfl
    exact hensure.shrinks ((hupdate _ _).trans ((closeObservedRuns_shrinks _ _).trans (hclosed _ _)))

/-! Runs of a client -/

/--
The list still has a thread whose run is gone.
-/
structure Stale (s : AgUiProjector) (threadId : String) : Prop where
  mem : threadId ∈ s.observedRuns
  absent : s.runs threadId = none

/--
What the table loses when a client starts or ends a run. The list stays as it is.
-/
structure Drops (s : AgUiProjector) (threadId : String) (s' : AgUiProjector) : Prop where
  runs : s'.runs = update s.runs threadId none
  observedRuns : s'.observedRuns = s.observedRuns

theorem Drops.shrinks (h : s.Drops threadId s') (himplicit : ¬s.implicit threadId) : Shrinks s s' where
  listed hlisted := by
    apply hlisted.of_eq h.observedRuns
    intro other
    rw [implicit_update h.runs, Option.any_none]
    split
    . next heq =>
      rw [heq]
      simpa using himplicit
    . rfl
  sublist := by rw [h.observedRuns]
  absent other hnone := by
    rw [h.runs]
    unfold update
    split
    . rfl
    . exact hnone
  stays other hmem _ := by rwa [h.observedRuns]

theorem Drops.stale (h : s.Drops threadId s') (hlisted : s.Listed) (himplicit : s.implicit threadId)
    : s'.Stale threadId where
  mem := by
    rw [h.observedRuns, hlisted.mem_iff]
    exact himplicit
  absent := by rw [h.runs, update_self]

theorem Stale.shrinks (h : s.Stale threadId) (hshrinks : Shrinks s s') : s'.Stale threadId where
  mem := hshrinks.stays threadId h.mem h.absent
  absent := hshrinks.absent threadId h.absent

theorem Stale.not_listed (h : s.Stale threadId) : ¬s.Listed := by
  intro hlisted
  have himplicit := (hlisted.mem_iff threadId).mp h.mem
  unfold implicit at himplicit
  rw [h.absent] at himplicit
  contradiction

/--
A run of a client is opened for a thread that has none.
-/
structure StartsRun (s : AgUiProjector) (threadId : String) (s' : AgUiProjector) : Prop where
  absent : s.runs threadId = none
  runs : ∃ run : AgUiRunState, run.sourceTurnId.isSome ∧ s'.runs = update s.runs threadId (some run)
  observedRuns : s'.observedRuns = s.observedRuns

theorem StartsRun.implicit_eq (h : s.StartsRun threadId s') (other : String) : s'.implicit other = s.implicit other := by
  rcases h.runs with ⟨run, hturnId, hruns⟩
  rw [implicit_update hruns, Option.any_some]
  split
  . next heq =>
    unfold implicit
    rw [heq, h.absent, Option.any_none]
    rw [← Option.not_isNone, Bool.not_eq_true'] at hturnId
    rw [hturnId, Bool.and_false]
  . rfl

theorem Moves.startsRun (h : Moves s s') (hstarts : s'.StartsRun threadId s'') : Moves s s'' where
  inStep := {
    toListed := h.inStep.toListed.of_eq hstarts.observedRuns hstarts.implicit_eq
    observed_le := by
      rw [hstarts.observedRuns]
      exact h.inStep.observed_le }
  ordered := by
    rw [hstarts.observedRuns]
    exact h.ordered

theorem Stale.startsRun (h : s.Stale threadId) (hstarts : s.StartsRun threadId s') : ¬s'.Listed := by
  intro hlisted
  have hmem := h.mem
  rw [← hstarts.observedRuns, hlisted.mem_iff, hstarts.implicit_eq] at hmem
  unfold implicit at hmem
  rw [h.absent] at hmem
  contradiction

theorem startRun_startsRun (s : AgUiProjector) (threadId runId sourceTurnId : String)
    : ∃ dropped settled,
        s.Drops threadId dropped
          ∧ Shrinks dropped settled
          ∧ settled.StartsRun threadId (s.startRun threadId runId sourceTurnId).1 := by
  have hturnId : ({ runId, sourceTurnId := some sourceTurnId } : AgUiRunState).sourceTurnId.isSome := rfl
  unfold startRun
  dsimp only
  split
  . next hnone =>
    have hupdate : update s.runs threadId none = s.runs := by
      funext other
      unfold update
      split
      . next heq => rw [heq, hnone]
      . rfl
    exact ⟨s, s, ⟨hupdate.symm, rfl⟩, .refl s, ⟨hnone, ⟨_, hturnId, rfl⟩, rfl⟩⟩
  . next previous hprevious =>
    let dropped : AgUiProjector :=
      { s with
        closedThreads := s.closedThreads.filter (· != threadId)
        runs := update s.runs threadId none }
    have hclose := closeObservedRuns_shrinks (childThreadsToClose "failed" previous) dropped
    exact ⟨dropped, (closeObservedRuns (childThreadsToClose "failed" previous) dropped).1, ⟨rfl, rfl⟩, hclose,
      ⟨hclose.absent threadId (update_self s.runs threadId none), ⟨_, hturnId, rfl⟩, rfl⟩⟩

theorem endRun_drops {run : AgUiRunState} {runId : String} (hrun : s.runs threadId = some run)
    (hrunId : run.runId = runId) (sourceTurnId : String) (outcome : RunEnd)
    : ∃ dropped,
        s.Drops threadId dropped ∧ Shrinks dropped (s.endRun threadId runId sourceTurnId outcome).1 := by
  have hmark : ∀ (s : AgUiProjector) links, Shrinks s { s.markThreadClosed threadId with subagentLinks := links } :=
    fun s links => .of_eq rfl rfl
  have hclose := closeObservedRuns_shrinks (childThreadsToClose outcome.fallbackStatus run)
    { s with runs := update s.runs threadId none }
  unfold endRun
  rw [hrun]
  dsimp only
  rw [if_neg (by simp [hrunId])]
  exact ⟨{ s with runs := update s.runs threadId none }, ⟨rfl, rfl⟩, hclose.trans (hmark _ _)⟩

theorem startRun_moves (h : s.InStep) (himplicit : ¬s.implicit threadId) (runId sourceTurnId : String)
    : Moves s (s.startRun threadId runId sourceTurnId).1 := by
  rcases startRun_startsRun s threadId runId sourceTurnId with ⟨dropped, settled, hdrops, hshrinks, hstarts⟩
  exact (((hdrops.shrinks himplicit).trans hshrinks).moves h).startsRun hstarts

/--
The thread of an observed run stays in the list when a client starts a run of it.
-/
theorem not_startRun_listed (h : s.InStep) (himplicit : s.implicit threadId) (runId sourceTurnId : String)
    : ¬(s.startRun threadId runId sourceTurnId).1.Listed := by
  rcases startRun_startsRun s threadId runId sourceTurnId with ⟨dropped, settled, hdrops, hshrinks, hstarts⟩
  exact ((hdrops.stale h.toListed himplicit).shrinks hshrinks).startsRun hstarts

/--
The end of a run that a client names by the id of the observed one.
-/
def endsImplicit (s : AgUiProjector) (threadId runId : String) : Bool :=
  s.implicit threadId && runId == observedRunId threadId

theorem endRun_moves {runId : String} (h : s.InStep) (hends : ¬s.endsImplicit threadId runId) (sourceTurnId : String)
    (outcome : RunEnd)
    : Moves s (s.endRun threadId runId sourceTurnId outcome).1 := by
  cases hrun : s.runs threadId with
  | none =>
    unfold endRun
    rw [hrun]
    exact (Shrinks.refl s).moves h
  | some run =>
    by_cases hrunId : run.runId = runId
    . have himplicit : ¬s.implicit threadId := by
        intro himplicit
        apply hends
        unfold endsImplicit
        rw [himplicit, Bool.true_and, ← hrunId]
        unfold implicit at himplicit
        rw [hrun, Option.any_some, Bool.and_eq_true] at himplicit
        exact himplicit.1
      rcases endRun_drops hrun hrunId sourceTurnId outcome with ⟨dropped, hdrops, hshrinks⟩
      exact ((hdrops.shrinks himplicit).trans hshrinks).moves h
    . unfold endRun
      rw [hrun]
      dsimp only
      rw [if_pos (by simpa using hrunId)]
      exact (Shrinks.refl s).moves h

theorem not_endRun_listed {runId : String} (h : s.InStep) (hends : s.endsImplicit threadId runId) (sourceTurnId : String)
    (outcome : RunEnd)
    : ¬(s.endRun threadId runId sourceTurnId outcome).1.Listed := by
  unfold endsImplicit at hends
  rw [Bool.and_eq_true, beq_iff_eq] at hends
  have hrun := hends.1
  unfold implicit at hrun
  rw [Option.any_eq_true] at hrun
  rcases hrun with ⟨run, hrun, hself⟩
  rw [Bool.and_eq_true, beq_iff_eq] at hself
  rcases endRun_drops hrun (hself.1.trans hends.2.symm) sourceTurnId outcome with ⟨dropped, hdrops, hshrinks⟩
  exact ((hdrops.stale h.toListed hends.1).shrinks hshrinks).not_listed

/-! One canonical event -/

/--
The event neither starts a run of a client in place of an observed one, nor ends an observed one by its id.
-/
def keepsObservedRuns (s : AgUiProjector) : CanonicalEvent → Bool
  | .runStarted _ threadId _ _ _ => !s.implicit threadId
  | .runFinished _ threadId runId _ _ _ => !s.endsImplicit threadId runId
  | .runFailed _ threadId runId _ _ _ => !s.endsImplicit threadId runId
  | _ => true

theorem projectEvent_moves {canonical : CanonicalEvent} (h : s.InStep) (hkeeps : s.keepsObservedRuns canonical)
    : Moves s (s.projectEvent x canonical).1 := by
  unfold keepsObservedRuns at hkeeps
  unfold projectEvent
  split
  . exact startRun_moves h (by simpa using hkeeps) _ _
  . exact projectMessage_moves h _ _ _ _ _ _ _
  . exact projectTool_moves h _ _ _ _ _ _
  . exact endRun_moves h (by simpa using hkeeps) _ _
  . exact endRun_moves h (by simpa using hkeeps) _ _
  . refine Shrinks.moves ?_ h
    exact .of_eq rfl rfl
  . split
    . exact (Shrinks.refl s).moves h
    . exact (Shrinks.refl s).moves h

theorem not_projectEvent_listed {canonical : CanonicalEvent} (h : s.InStep) (hkeeps : ¬s.keepsObservedRuns canonical)
    : ¬(s.projectEvent x canonical).1.Listed := by
  unfold keepsObservedRuns at hkeeps
  unfold projectEvent
  split at hkeeps
  . exact not_startRun_listed h (by simpa using hkeeps) _ _
  . exact not_endRun_listed h (by simpa using hkeeps) _ _
  . exact not_endRun_listed h (by simpa using hkeeps) _ _
  . contradiction

/--
The link of the thread to its parent settles with this event, and that closes the observed run of the thread.
-/
def settlesSubagent (s : AgUiProjector) (threadId : String) (canonical : CanonicalEvent) : Bool :=
  let (eventRunId, eventGeneration, _) := canonicalChildRunCorrelation canonical
  (s.subagentLinks.lookup threadId).any fun link =>
    !link.ignores eventRunId eventGeneration
      && (subagentProgress canonical).any fun progress =>
        let (current, known) := (link.track progress).remember progress.revision
        !known
          && isTerminalSubagentStatus progress.status
          && current.lastRendered != some (progress.status ++ "\x00" ++ current.latest progress)

/--
The event neither starts a run of a client in place of an observed one, nor ends an observed one by its id. It may end
one that closes before, together with the link of its thread.
-/
def keepsInStep (s : AgUiProjector) (canonical : CanonicalEvent) : Bool :=
  match canonical with
  | .runStarted _ threadId _ _ _ => !s.implicit threadId
  | .runFinished _ threadId runId _ _ _ => !s.endsImplicit threadId runId || s.settlesSubagent threadId canonical
  | .runFailed _ threadId runId _ _ _ => !s.endsImplicit threadId runId || s.settlesSubagent threadId canonical
  | _ => true

theorem rememberTerminal_implicit (s : AgUiProjector) (link : SubagentActivityLink) (status threadId : String)
    : (s.rememberTerminal link status).implicit threadId = s.implicit threadId := by
  unfold rememberTerminal
  split
  . rfl
  . next run hrun =>
    split
    . rfl
    . split
      . rw [implicit_update (s := s) rfl]
        split
        . next heq =>
          unfold implicit
          rw [heq, hrun]
          rfl
        . rfl
      . rfl

theorem not_closeObservedRun_implicit (himplicit : s.implicit threadId)
    : (s.closeObservedRun threadId).1.implicit threadId = false := by
  have hclose := closeObservedRun_of_implicit himplicit
  rw [implicit_update hclose.2, if_pos rfl, Option.any_none]

theorem renderProgress_implicit (himplicit : s.implicit threadId) (link current : SubagentActivityLink)
    (progress : SubagentProgress)
    : (s.renderProgress threadId link current progress).1.implicit threadId
        =
      !(isTerminalSubagentStatus progress.status
        && current.lastRendered != some (progress.status ++ "\x00" ++ current.latest progress)) := by
  unfold renderProgress
  dsimp only
  split
  . next hrendered =>
    rw [himplicit, hrendered, bne_self_eq_false, Bool.and_false]
    rfl
  . next hrendered =>
    have hbne : (current.lastRendered != some (progress.status ++ "\x00" ++ current.latest progress)) = true := by
      rw [bne_iff_ne]
      exact hrendered
    rw [hbne, Bool.and_true]
    split
    . next hterminal =>
      rw [hterminal]
      have hremember : ∀ (s : AgUiProjector) links, s.implicit threadId →
          ({ s.rememberTerminal link progress.status with subagentLinks := links } : AgUiProjector).implicit threadId := by
        intro s links himplicit
        rw [← rememberTerminal_implicit s link progress.status] at himplicit
        exact himplicit
      apply not_closeObservedRun_implicit
      apply hremember
      exact himplicit
    . next hterminal =>
      rw [Bool.not_eq_true] at hterminal
      rw [hterminal]
      exact himplicit

theorem applyProgress_implicit (himplicit : s.implicit threadId) (link current : SubagentActivityLink)
    (progress : SubagentProgress)
    : (s.applyProgress threadId link current (some progress)).1.implicit threadId
        =
      !(!((current.track progress).remember progress.revision).2
        && isTerminalSubagentStatus progress.status
        && ((current.track progress).remember progress.revision).1.lastRendered
          != some (progress.status ++ "\x00"
            ++ ((current.track progress).remember progress.revision).1.latest progress)) := by
  unfold applyProgress
  dsimp only
  generalize (current.track progress).remember progress.revision = remembered
  split
  . next hknown =>
    rw [hknown]
    exact himplicit
  . next hknown =>
    rw [Bool.not_eq_true] at hknown
    rw [hknown, Bool.not_false, Bool.true_and]
    exact renderProgress_implicit (by exact himplicit) link remembered.1 progress

theorem projectSubagentProgress_implicit {canonical : CanonicalEvent} {eventRunId : Option String}
    {eventGeneration : Option Nat} (hthread : canonical.threadId? = some threadId)
    (hcorrelation : canonicalChildRunCorrelation canonical = (eventRunId, eventGeneration, false))
    (himplicit : s.implicit threadId)
    : (s.projectSubagentProgress canonical).1.implicit threadId = !s.settlesSubagent threadId canonical := by
  unfold projectSubagentProgress settlesSubagent
  rw [hthread, hcorrelation]
  dsimp only
  cases s.subagentLinks.lookup threadId with
  | none => exact himplicit
  | some link =>
    rw [Option.any_some]
    dsimp only
    split
    . next hignores =>
      rw [hignores]
      exact himplicit
    . next hignores =>
      rw [Bool.not_eq_true] at hignores
      rw [hignores, Bool.not_false, Bool.true_and, if_neg Bool.false_ne_true]
      cases subagentProgress canonical with
      | none => exact himplicit
      | some progress => exact applyProgress_implicit himplicit link link progress

/--
A thread that is in an observed run after the sub-agents were told was in it before.
-/
theorem implicit_of_projectSubagentProgress {canonical : CanonicalEvent} (h : s.InStep)
    (himplicit : (s.projectSubagentProgress canonical).1.implicit threadId)
    : s.implicit threadId := by
  have hprogress := projectSubagentProgress_shrinks s canonical
  rw [← (hprogress.listed h.toListed).mem_iff] at himplicit
  rw [← h.mem_iff]
  exact hprogress.sublist.subset himplicit

theorem startRun_implicit (s : AgUiProjector) (agentId threadId runId sourceTurnId : String) (generation : Nat)
    : (s.projectSubagentProgress (.runStarted agentId threadId runId sourceTurnId generation)).1.implicit threadId
        =
      s.implicit threadId := by
  unfold projectSubagentProgress
  dsimp only [CanonicalEvent.threadId?]
  split
  . rfl
  . split
    . rfl
    . rfl

theorem endsImplicit_iff {canonical : CanonicalEvent} {eventRunId : Option String}
    {eventGeneration : Option Nat} {runId : String} (h : s.InStep) (hthread : canonical.threadId? = some threadId)
    (hcorrelation : canonicalChildRunCorrelation canonical = (eventRunId, eventGeneration, false))
    : !(s.projectSubagentProgress canonical).1.endsImplicit threadId runId
        ↔
      !s.endsImplicit threadId runId || s.settlesSubagent threadId canonical := by
  unfold endsImplicit
  by_cases himplicit : s.implicit threadId
  . rw [projectSubagentProgress_implicit hthread hcorrelation himplicit, himplicit]
    cases s.settlesSubagent threadId canonical with
    | false => simp
    | true => simp
  . have hafter : ¬(s.projectSubagentProgress canonical).1.implicit threadId := fun hafter =>
      himplicit (implicit_of_projectSubagentProgress h hafter)
    simp [himplicit, hafter]

theorem keepsInStep_iff {canonical : CanonicalEvent} (h : s.InStep)
    : s.keepsInStep canonical ↔ (s.projectSubagentProgress canonical).1.keepsObservedRuns canonical := by
  cases canonical with
  | runStarted agentId threadId runId sourceTurnId generation =>
    dsimp only [keepsInStep, keepsObservedRuns]
    rw [startRun_implicit]
  | runFinished agentId threadId runId sourceTurnId generation stopReason => exact (endsImplicit_iff h rfl rfl).symm
  | runFailed agentId threadId runId sourceTurnId generation message => exact (endsImplicit_iff h rfl rfl).symm
  | _ => exact Iff.rfl

theorem projectCanonical_moves_iff {canonical : CanonicalEvent} (h : s.InStep)
    : Moves s (s.projectCanonical x canonical).1 ↔ s.keepsInStep canonical := by
  have hprogress := projectSubagentProgress_shrinks s canonical
  have hin := (hprogress.moves h).inStep
  rw [keepsInStep_iff h]
  constructor
  . intro hmoves
    by_contra hkeeps
    exact not_projectEvent_listed hin hkeeps hmoves.inStep.toListed
  . intro hkeeps
    exact hprogress.then_moves (projectEvent_moves hin hkeeps)

end AgUiProjector

/-! Runs of the projector -/

namespace Streaming

variable (x : Crates)

/--
A step keeps the list and the table in step, and the run that has to make room is the oldest one.
-/
structure Tracks (s : Streaming) (label : ProjectorLabel) : Prop where
  moves : ∀ s', s.step x label = some s' → AgUiProjector.Moves s.projector s'.projector
  opens : ∀ canonical threadId runId sourceTurnId,
    let told := (s.projector.projectSubagentProgress canonical).1
    told.observes threadId runId sourceTurnId →
      AgUiProjector.Opens told threadId (told.ensureObservedRun threadId runId sourceTurnId).1

def KeepsInStep (s : Streaming) : ProjectorLabel → Prop
  | .projectCanonical canonical => s.projector.keepsInStep canonical
  | _ => True

instance (s : Streaming) (label : ProjectorLabel) : Decidable (s.KeepsInStep label) :=
  match label with
  | .projectCanonical _ => inferInstanceAs (Decidable (_ = true))
  | .linkSubagent .. => inferInstanceAs (Decidable True)
  | .iterateThreads _ => inferInstanceAs (Decidable True)
  | .iterateLinks _ => inferInstanceAs (Decidable True)
  | .iterateTools .. => inferInstanceAs (Decidable True)

variable {x} {s s' : Streaming}

theorem step_moves {label : ProjectorLabel} (h : s.projector.InStep) (hkeeps : s.KeepsInStep label)
    (hstep : s.step x label = some s')
    : AgUiProjector.Moves s.projector s'.projector := by
  cases label with
  | projectCanonical canonical =>
    injection hstep with hstep
    rw [← hstep]
    exact (AgUiProjector.projectCanonical_moves_iff h).mpr hkeeps
  | linkSubagent parentThreadId parentRunId parentSourceTurnId toolCallId childThreadId =>
    injection hstep with hstep
    rw [← hstep]
    exact (AgUiProjector.linkSubagent_shrinks s.projector _ _ _ _ _).moves h
  | iterateThreads closedThreads =>
    dsimp only [step] at hstep
    split at hstep
    . injection hstep with hstep
      rw [← hstep]
      refine AgUiProjector.Shrinks.moves ?_ h
      exact .of_eq rfl rfl
    . contradiction
  | iterateLinks childThreadIds =>
    dsimp only [step] at hstep
    split at hstep
    . injection hstep with hstep
      rw [← hstep]
      refine AgUiProjector.Shrinks.moves ?_ h
      exact .of_eq rfl rfl
    . contradiction
  | iterateTools threadId toolCallIds =>
    dsimp only [step] at hstep
    rw [Option.bind_eq_some_iff] at hstep
    rcases hstep with ⟨run, hrun, hstep⟩
    split at hstep
    . injection hstep with hstep
      rw [← hstep]
      refine AgUiProjector.Shrinks.moves ?_ h
      exact AgUiProjector.update_shrinks { run with tools := reorder toolCallIds run.tools } hrun rfl rfl rfl rfl
    . contradiction

theorem tracks_iff {label : ProjectorLabel} (h : s.projector.InStep) : s.Tracks x label ↔ s.KeepsInStep label := by
  constructor
  . intro htracks
    cases label with
    | projectCanonical canonical => exact (AgUiProjector.projectCanonical_moves_iff h).mp (htracks.moves _ rfl)
    | _ => trivial
  . intro hkeeps
    constructor
    . intro s' hstep
      exact step_moves h hkeeps hstep
    . intro canonical threadId runId sourceTurnId told hobserves
      have htold := ((AgUiProjector.projectSubagentProgress_shrinks s.projector canonical).moves h).inStep
      exact AgUiProjector.ensureObservedRun_opens htold hobserves

theorem inStep_init : ({} : AgUiProjector).InStep where
  nodup := List.nodup_nil
  mem_iff threadId := by
    unfold AgUiProjector.implicit
    simp
  observed_le := Nat.zero_le _

/--
All steps of a run keep the list and the table in step exactly if in none of them a client takes over an observed run.
-/
theorem meets_tracks_iff (labels : List ProjectorLabel)
    : Meets (step x) (Tracks x) {} labels ↔ Meets (step x) KeepsInStep {} labels := by
  suffices hgeneral : ∀ s : Streaming, s.projector.InStep →
      (Meets (step x) (Tracks x) s labels ↔ Meets (step x) KeepsInStep s labels) from hgeneral {} inStep_init
  induction labels with
  | nil => exact fun _ _ => Iff.rfl
  | cons label labels ih =>
    intro s h
    rw [meets_cons, meets_cons, tracks_iff h]
    constructor
    . rintro ⟨hkeeps, hrest⟩
      refine ⟨hkeeps, ?_⟩
      intro s' hstep
      exact (ih s' (step_moves h hkeeps hstep).inStep).mp (hrest s' hstep)
    . rintro ⟨hkeeps, hrest⟩
      refine ⟨hkeeps, ?_⟩
      intro s' hstep
      exact (ih s' (step_moves h hkeeps hstep).inStep).mpr (hrest s' hstep)

/--
In such a run, the list has exactly the threads in observed runs at any time.
-/
theorem inStep_of_exec {labels : List ProjectorLabel} (hmeets : Meets (step x) KeepsInStep {} labels)
    (hexec : exec (step x) {} labels = some s)
    : s.projector.InStep :=
  exec_invariant (I := fun s => s.projector.InStep) (fun _ _ _ h hkeeps hstep => (step_moves h hkeeps hstep).inStep)
    inStep_init hmeets hexec

/--
A child is observed before its client starts a run of it, and stays in the list.
-/
theorem not_inStep_of_superseded
    : ∃ s ∈ exec (step readCrates) {}
        [.projectCanonical (.messageChunk "a" "t" none none none .agent "m" "Hi" none),
          .projectCanonical (.runStarted "a" "t" "r" "s" 1)],
        ¬s.projector.InStep := by
  refine ⟨_, rfl, ?_⟩
  intro h
  have himplicit := (h.mem_iff "t").mp (by decide +kernel)
  revert himplicit
  decide +kernel

end Streaming

end AgUi
