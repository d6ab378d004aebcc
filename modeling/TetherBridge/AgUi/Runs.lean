import TetherBridge.AgUi.Stream

/-!
This module contains what opening and closing runs adds to the stream: for every thread, the events lead
from the spans the projector kept open before to those it keeps open after.
-/

namespace AgUi

open Acp Snapshot Spans Transition

/--
The events account for what the step did to the run of every thread.
-/
def Emits (s : AgUiProjector) (events : List AgUiEventEnvelope) (s' : AgUiProjector) : Prop :=
  s.Sound → s'.Sound ∧ ∀ threadId, Leads (s.shape threadId) (s'.shape threadId) (marks threadId events)

namespace Emits

variable {s s' s'' : AgUiProjector} {events events' : List AgUiEventEnvelope}

theorem trans (h : Emits s events s') (h' : Emits s' events' s'')
    : Emits s (events ++ events') s'' := by
  intro hsound
  have hfirst := h hsound
  have hsecond := h' hfirst.1
  refine ⟨hsecond.1, ?_⟩
  intro threadId
  rw [marks_append]
  exact (hfirst.2 threadId).trans (hsecond.2 threadId)

/--
The step only touched what the stream does not depend on.
-/
theorem of_runs_eq (hruns : s'.runs = s.runs) (hobserved : s'.observedRuns = s.observedRuns)
    (hmarks : ∀ threadId, marks threadId events = [])
    : Emits s events s' := by
  intro hsound
  refine ⟨⟨?_, ?_⟩, ?_⟩
  . rw [hruns]
    exact hsound.runs
  . rw [hobserved]
    exact hsound.observed_le
  . intro threadId
    unfold AgUiProjector.shape
    rw [hruns, hmarks]
    exact .refl _

theorem refl (s : AgUiProjector) : Emits s [] s :=
  of_runs_eq rfl rfl fun _ => rfl

theorem relink (s : AgUiProjector) (links : List (String × SubagentActivityLink))
    : Emits s [] { s with subagentLinks := links } :=
  of_runs_eq rfl rfl fun _ => rfl

end Emits

@[simp]
theorem update_self {α : Type} (map : String → α) (key : String) (value : α)
    : update map key value key = value := by
  simp [update]

theorem update_of_ne {α : Type} {map : String → α} {key other : String} {value : α}
    (hne : other ≠ key)
    : update map key value other = map other := by
  simp [update, hne]

theorem marks_envelopes_of_ne (run : AgUiRunState) {threadId other : String} (hne : threadId ≠ other)
    (events : List AgUiEvent)
    : marks other (events.map (run.envelope threadId)) = [] := by
  apply marks_of_ne hne
  intro envelope henvelope
  rw [List.mem_map] at henvelope
  rcases henvelope with ⟨event, -, rfl⟩
  rfl

theorem marks_singleton_of_ne {envelope : AgUiEventEnvelope} {threadId : String}
    (hne : envelope.threadId ≠ threadId)
    : marks threadId [envelope] = [] := by
  simp [marks, hne]

theorem marks_singleton {envelope : AgUiEventEnvelope} {mark : Mark String Span}
    (hmark : envelope.event.mark envelope.runId = some mark)
    : marks envelope.threadId [envelope] = [mark] := by
  simp [marks, hmark]

namespace AgUiProjector

variable {s : AgUiProjector} {threadId other : String}

@[simp]
theorem markThreadClosed_runs (s : AgUiProjector) (threadId : String)
    : (s.markThreadClosed threadId).runs = s.runs := rfl

@[simp]
theorem markThreadClosed_observedRuns (s : AgUiProjector) (threadId : String)
    : (s.markThreadClosed threadId).observedRuns = s.observedRuns := rfl

/-! Closing runs that are only observed -/

/--
Closing the observed run of a thread does not touch another one.
-/
theorem closeObservedRun_other (hne : threadId ≠ other)
    : (s.closeObservedRun threadId).1.runs other = s.runs other
        ∧ marks other (s.closeObservedRun threadId).2 = [] := by
  unfold closeObservedRun
  split
  . exact ⟨rfl, rfl⟩
  . split
    . exact ⟨rfl, rfl⟩
    . refine ⟨update_of_ne (Ne.symm hne), ?_⟩
      dsimp only
      rw [marks_append, marks_envelopes_of_ne _ hne, marks_singleton_of_ne hne]
      rfl

theorem closeObservedRun_absent (h : s.runs threadId = none)
    : s.closeObservedRun threadId = (s, []) := by
  unfold closeObservedRun
  rw [h]

theorem closeObservedRun_observed_le (s : AgUiProjector) (threadId : String)
    : (s.closeObservedRun threadId).1.observedRuns.length ≤ s.observedRuns.length := by
  unfold closeObservedRun
  split
  . exact Nat.le_refl _
  . split
    . exact Nat.le_refl _
    . exact List.length_filter_le _ _

theorem closeObservedRun_sound (h : ∀ threadId run, s.runs threadId = some run → run.Sound)
    (threadId : String)
    : ∀ other run, (s.closeObservedRun threadId).1.runs other = some run → run.Sound := by
  unfold closeObservedRun
  split
  . exact h
  . split
    . exact h
    . intro other run hrun
      rw [markThreadClosed_runs] at hrun
      dsimp only at hrun
      by_cases hne : other = threadId
      . rw [hne, update_self] at hrun
        contradiction
      . rw [update_of_ne hne] at hrun
        exact h other run hrun

theorem closeObservedRun_leads (h : ∀ threadId run, s.runs threadId = some run → run.Sound)
    (threadId other : String)
    : Leads (s.shape other) ((s.closeObservedRun threadId).1.shape other)
        (marks other (s.closeObservedRun threadId).2) := by
  by_cases hne : threadId = other
  . subst hne
    unfold closeObservedRun
    split
    . exact .refl _
    . next run hrun =>
      split
      . exact .refl _
      . next hid =>
        simp only [bne_iff_ne, ne_eq, not_not] at hid
        unfold shape
        rw [markThreadClosed_runs, hrun, marks_append, marks_envelopes]
        dsimp only
        have hfinished := @marks_singleton
          ⟨threadId, run.runId, none, .runFinished threadId run.runId⟩ _ rfl
        rw [update_self, ← hid, hfinished]
        exact AgUiRunState.leads_close_ended (h threadId run hrun)
  . have hother := closeObservedRun_other (s := s) hne
    unfold shape
    rw [hother.1, hother.2]
    exact .refl _

theorem closeObservedRun_emits (s : AgUiProjector) (threadId : String)
    : Emits s (s.closeObservedRun threadId).2 (s.closeObservedRun threadId).1 := by
  intro hsound
  refine ⟨⟨closeObservedRun_sound hsound.runs threadId, ?_⟩,
    closeObservedRun_leads hsound.runs threadId⟩
  exact Nat.le_trans (closeObservedRun_observed_le s threadId) hsound.observed_le

theorem closeObservedRuns_emits (threadIds : List String) (s : AgUiProjector)
    : Emits s (closeObservedRuns threadIds s).2 (closeObservedRuns threadIds s).1 := by
  induction threadIds generalizing s with
  | nil => exact .refl s
  | cons threadId threadIds ih => exact (closeObservedRun_emits s threadId).trans (ih _)

/--
A thread without a run is not touched.
-/
theorem closeObservedRuns_absent (threadIds : List String) {s : AgUiProjector}
    (h : s.runs other = none)
    : (closeObservedRuns threadIds s).1.runs other = none
        ∧ marks other (closeObservedRuns threadIds s).2 = [] := by
  induction threadIds generalizing s with
  | nil => exact ⟨h, rfl⟩
  | cons threadId threadIds ih =>
    unfold closeObservedRuns
    dsimp only
    have hfirst : (s.closeObservedRun threadId).1.runs other = none
        ∧ marks other (s.closeObservedRun threadId).2 = [] := by
      by_cases hne : threadId = other
      . rw [hne, closeObservedRun_absent h]
        exact ⟨h, rfl⟩
      . rw [← h]
        exact closeObservedRun_other hne
    have hrest := ih hfirst.1
    refine ⟨hrest.1, ?_⟩
    rw [marks_append, hfirst.2, hrest.2]
    rfl

/-! Opening a run that is only observed -/

theorem giveUpObservedRun_other (hne : threadId ≠ other)
    : (s.giveUpObservedRun threadId).1.runs other = s.runs other
        ∧ marks other (s.giveUpObservedRun threadId).2 = [] := by
  unfold giveUpObservedRun
  split
  . exact closeObservedRun_other hne
  . exact ⟨rfl, rfl⟩

theorem giveUpObservedRun_observed_le (s : AgUiProjector) (threadId : String)
    : (s.giveUpObservedRun threadId).1.observedRuns.length ≤ s.observedRuns.length := by
  unfold giveUpObservedRun
  split
  . exact closeObservedRun_observed_le s threadId
  . exact Nat.le_refl _

theorem giveUpObservedRun_emits (s : AgUiProjector) (threadId : String)
    : Emits s (s.giveUpObservedRun threadId).2 (s.giveUpObservedRun threadId).1 := by
  unfold giveUpObservedRun
  split
  . exact closeObservedRun_emits s threadId
  . exact .refl s

theorem expireObservedRuns_of_le {rounds : Nat} (hle : s.observedRuns.length ≤ OBSERVED_RUN_CAPACITY)
    : expireObservedRuns rounds s = (s, []) := by
  cases rounds with
  | zero => rfl
  | succ rounds =>
    unfold expireObservedRuns
    split
    . rfl
    . exact if_neg (by omega)

/--
With one thread too many, the oldest one is given up and no other.
-/
theorem expireObservedRuns_of_succ {oldest : String} {observedRuns : List String}
    (hobserved : s.observedRuns = oldest :: observedRuns)
    (hlength : observedRuns.length = OBSERVED_RUN_CAPACITY)
    : expireObservedRuns s.observedRuns.length s
        =
      ({ s with observedRuns } : AgUiProjector).giveUpObservedRun oldest := by
  have hle := giveUpObservedRun_observed_le { s with observedRuns } oldest
  dsimp only at hle
  have hover : s.observedRuns.length > OBSERVED_RUN_CAPACITY := by
    rw [hobserved, List.length_cons]
    omega
  have hrounds : s.observedRuns.length = observedRuns.length + 1 := by
    rw [hobserved, List.length_cons]
  rw [hrounds]
  unfold expireObservedRuns
  split
  . next hnil =>
    rw [hobserved] at hnil
    contradiction
  . next oldest' observedRuns' heq =>
    rw [hobserved] at heq
    injection heq with holdest hrest
    subst holdest hrest
    rw [if_pos hover]
    dsimp only
    rw [expireObservedRuns_of_le (by omega), List.append_nil]

/--
Whether making room for the observed run of a thread gives up another thread.
-/
def makesRoomFor (s : AgUiProjector) (threadId : String) : Bool :=
  s.observedRuns.length < OBSERVED_RUN_CAPACITY || s.observedRuns.head? != some threadId

theorem freshRun_sound (runId : String) (sourceTurnId : Option String)
    : ({ runId, sourceTurnId } : AgUiRunState).Sound := by
  constructor <;> simp

theorem leads_freshRun (runId : String) (sourceTurnId : Option String)
    : Leads none ({ runId, sourceTurnId } : AgUiRunState).shape [Mark.runStarted runId] := by
  apply leads_runStarted.congr
  intro span
  cases span <;> simp [AgUiRunState.IsOpen, List.lookup_nil, List.lookup_cons]

/--
The state in which the observed run of the thread is there, but not yet announced.
-/
def observe (s : AgUiProjector) (threadId : String) : AgUiProjector :=
  { s with
    runs := update s.runs threadId
      (some { runId := observedRunId threadId, sourceTurnId := none })
    observedRuns := s.observedRuns ++ [threadId] }

/--
Expiring observed runs leaves the thread alone that room is made for.
-/
theorem expireObservedRuns_observe (hsound : s.Sound) (hroom : s.makesRoomFor threadId)
    : let result := expireObservedRuns (s.observe threadId).observedRuns.length (s.observe threadId)
      result.1.Sound
        ∧ (∀ other, Leads ((s.observe threadId).shape other) (result.1.shape other)
          (marks other result.2))
        ∧ result.1.runs threadId = (s.observe threadId).runs threadId
        ∧ marks threadId result.2 = [] := by
  have hruns : ∀ other run, (s.observe threadId).runs other = some run → run.Sound := by
    intro other run hrun
    unfold observe at hrun
    dsimp only at hrun
    by_cases hne : other = threadId
    . rw [hne, update_self] at hrun
      rw [← Option.some.inj hrun]
      exact freshRun_sound _ _
    . rw [update_of_ne hne] at hrun
      exact hsound.runs other run hrun
  have hle := hsound.observed_le
  have hlength : (s.observe threadId).observedRuns.length = s.observedRuns.length + 1 := by
    unfold observe
    simp
  dsimp only
  by_cases hlt : s.observedRuns.length < OBSERVED_RUN_CAPACITY
  . rw [expireObservedRuns_of_le (by omega)]
    have hobserved : (s.observe threadId).observedRuns.length ≤ OBSERVED_RUN_CAPACITY := by omega
    exact ⟨⟨hruns, hobserved⟩, fun other => .refl _, rfl, rfl⟩
  . cases hobserved : s.observedRuns with
    | nil =>
      rw [hobserved] at hlt
      exact absurd (by decide) hlt
    | cons oldest rest =>
      have hne : oldest ≠ threadId := by
        unfold makesRoomFor at hroom
        rw [hobserved] at hroom hlt
        simp only [Bool.or_eq_true, decide_eq_true_eq, hlt, false_or] at hroom
        simpa using hroom
      have hobserve : (s.observe threadId).observedRuns = oldest :: (rest ++ [threadId]) := by
        unfold observe
        dsimp only
        rw [hobserved]
        rfl
      rw [hobserved, List.length_cons] at hle hlt
      have hrest : (rest ++ [threadId]).length = OBSERVED_RUN_CAPACITY := by
        rw [List.length_append, List.length_singleton]
        omega
      rw [expireObservedRuns_of_succ hobserve hrest]
      have hsound' : ({ s.observe threadId with observedRuns := rest ++ [threadId] }
          : AgUiProjector).Sound := ⟨hruns, Nat.le_of_eq hrest⟩
      have hemits := giveUpObservedRun_emits _ oldest hsound'
      exact ⟨hemits.1, hemits.2, giveUpObservedRun_other hne⟩

theorem ensureObservedRun_emits {runId sourceTurnId : Option String}
    (hroom : s.observes threadId runId sourceTurnId → s.makesRoomFor threadId)
    : Emits s (s.ensureObservedRun threadId runId sourceTurnId).2
        (s.ensureObservedRun threadId runId sourceTurnId).1 := by
  intro hsound
  unfold ensureObservedRun
  split
  . next hobserves =>
    have hexpire := expireObservedRuns_observe hsound (hroom hobserves)
    refine ⟨hexpire.1, ?_⟩
    intro other
    dsimp only
    rw [marks_append]
    by_cases hne : threadId = other
    . subst hne
      have hruns : s.runs threadId = none := by
        unfold observes at hobserves
        simp only [Bool.not_eq_true', Bool.or_eq_false_iff] at hobserves
        simpa using hobserves.1.2
      have hstarted := @marks_singleton
        ⟨threadId, observedRunId threadId, none, .runStarted threadId (observedRunId threadId)⟩ _ rfl
      have hshape : s.shape threadId = none := by
        unfold shape
        rw [hruns]
        rfl
      rw [hshape]
      have hfresh := leads_freshRun (observedRunId threadId) none
      have hafter := hexpire.2.2.1
      have hsilent := hexpire.2.2.2
      unfold observe at hafter hsilent
      dsimp only at hafter hsilent
      rw [update_self] at hafter
      unfold shape
      rw [hafter, hsilent]
      exact hstarted ▸ hfresh
    . have hother := hexpire.2.1 other
      have hbefore : (s.observe threadId).shape other = s.shape other := by
        unfold shape observe
        dsimp only
        rw [update_of_ne (Ne.symm hne)]
      rw [marks_singleton_of_ne hne, List.append_nil]
      rw [hbefore] at hother
      exact hother
  . exact Emits.refl s hsound

/-! Starting and ending runs -/

theorem settleSubagent_isOpen (fallbackStatus : String) (tool : AgUiToolState)
    : (settleSubagent fallbackStatus tool).IsOpen ↔ tool.IsOpen := by
  unfold settleSubagent isUnsettled AgUiToolState.IsOpen
  split
  . next hunsettled =>
    rw [Bool.and_eq_true, Bool.not_eq_true'] at hunsettled
    simp [hunsettled]
  . rfl

theorem settleSubagent_started (fallbackStatus : String) (tool : AgUiToolState)
    : (settleSubagent fallbackStatus tool).started = tool.started := by
  unfold settleSubagent
  split <;> rfl

theorem lookup_map {α : Type} (f : α → α) (key : String) (entries : List (String × α))
    : (entries.map fun (k, v) => (k, f v)).lookup key = (entries.lookup key).map f := by
  induction entries with
  | nil => rfl
  | cons entry entries ih =>
    rcases entry with ⟨k, v⟩
    simp only [List.map_cons, List.lookup_nil, List.lookup_cons, ih]
    split <;> rfl

/--
The tools of a run that ends are settled, which neither opens nor ends a call.
-/
theorem settledRun_sameSpans {run : AgUiRunState} (hrun : run.Sound) (fallbackStatus : String)
    : run.SameSpans { run with
        tools := run.tools.map fun (toolCallId, tool) =>
          (toolCallId, settleSubagent fallbackStatus tool) }
      ∧ ({ run with
        tools := run.tools.map fun (toolCallId, tool) =>
          (toolCallId, settleSubagent fallbackStatus tool) } : AgUiRunState).Sound := by
  have hkeys : (run.tools.map fun (toolCallId, tool) =>
      (toolCallId, settleSubagent fallbackStatus tool)).map (·.1) = run.tools.map (·.1) := by
    rw [List.map_map]
    rfl
  constructor
  . refine ⟨rfl, rfl, rfl, rfl, ?_⟩
    intro toolCallId
    simp only [AgUiRunState.IsOpen, lookup_map, Option.map_eq_some_iff]
    constructor
    . rintro ⟨-, ⟨tool, hlookup, rfl⟩, hopen⟩
      exact ⟨tool, hlookup, (settleSubagent_isOpen fallbackStatus tool).mp hopen⟩
    . rintro ⟨tool, hlookup, hopen⟩
      exact ⟨_, ⟨tool, hlookup, rfl⟩, (settleSubagent_isOpen fallbackStatus tool).mpr hopen⟩
  . refine ⟨?_, ?_, hrun.slots⟩
    . dsimp only
      rw [hkeys]
      exact hrun.toolIds
    . intro entry hentry
      rw [List.mem_map] at hentry
      rcases hentry with ⟨⟨toolCallId, tool⟩, hmem, rfl⟩
      dsimp only
      rw [settleSubagent_started]
      exact hrun.started _ hmem

theorem terminalizeRunSubagents_leads (hsound : s.Sound) {run : AgUiRunState} (hrun : run.Sound)
    (habsent : s.runs threadId = none) (fallbackStatus : String)
    : let result := s.terminalizeRunSubagents threadId run fallbackStatus
      result.1.Sound
        ∧ (∀ other, threadId ≠ other →
          Leads (s.shape other) (result.1.shape other) (marks other result.2.2))
        ∧ result.1.runs threadId = none
        ∧ marks threadId result.2.2 = []
        ∧ run.SameSpans result.2.1
        ∧ result.2.1.Sound := by
  have hclose := closeObservedRuns_emits (childThreadsToClose fallbackStatus run) s hsound
  have habsent' := closeObservedRuns_absent (childThreadsToClose fallbackStatus run) habsent
  have hspans := settledRun_sameSpans hrun fallbackStatus
  unfold terminalizeRunSubagents
  dsimp only
  refine ⟨hclose.1, ?_, habsent'.1, ?_, hspans⟩
  . intro other hne
    rw [marks_append, marks_envelopes_of_ne _ hne]
    exact hclose.2 other
  . rw [marks_append, marks_envelopes, habsent'.2, List.append_nil]
    apply Silent.eventMarks
    intro event hevent runId
    rw [List.mem_filterMap] at hevent
    rcases hevent with ⟨entry, -, hentry⟩
    split at hentry
    . rw [← Option.some.inj hentry]
      rfl
    . contradiction

theorem update_sound (hsound : s.Sound) {run : Option AgUiRunState}
    (hrun : ∀ current, run = some current → current.Sound)
    : ({ s with runs := update s.runs threadId run } : AgUiProjector).Sound := by
  refine ⟨?_, hsound.observed_le⟩
  intro other current hcurrent
  dsimp only at hcurrent
  by_cases hne : other = threadId
  . rw [hne, update_self] at hcurrent
    exact hrun current hcurrent
  . rw [update_of_ne hne] at hcurrent
    exact hsound.runs other current hcurrent

theorem endRun_emits (s : AgUiProjector) (threadId runId sourceTurnId : String) {outcome : RunEnd}
    (houtcome : outcome.event.mark runId = some (.runEnded runId))
    : Emits s (s.endRun threadId runId sourceTurnId outcome).2
        (s.endRun threadId runId sourceTurnId outcome).1 := by
  intro hsound
  unfold endRun
  split
  . exact Emits.refl s hsound
  . next run hrun =>
    split
    . exact Emits.refl s hsound
    . next hid =>
      simp only [bne_iff_ne, ne_eq, not_not] at hid
      have hremoved : ({ s with runs := update s.runs threadId none } : AgUiProjector).Sound :=
        update_sound hsound fun _ h => by contradiction
      have hterminal := terminalizeRunSubagents_leads hremoved (hsound.runs threadId run hrun)
        (update_self s.runs threadId none) outcome.fallbackStatus
      dsimp only at hterminal ⊢
      rcases hterminal with ⟨hsound', hothers, habsent, hsilent, hspans, hrun'⟩
      refine ⟨⟨hsound'.runs, hsound'.observed_le⟩, ?_⟩
      intro other
      by_cases hne : threadId = other
      . subst hne
        have hended := @marks_singleton ⟨threadId, runId, some sourceTurnId, outcome.event⟩ _ houtcome
        rw [marks_append, marks_append, hsilent, marks_envelopes, hended, List.nil_append]
        unfold shape
        rw [hrun]
        dsimp only
        rw [markThreadClosed_runs, habsent, ← hid, ← hspans.runId]
        exact hspans.leads.trans (AgUiRunState.leads_close_ended hrun')
      . rw [marks_append, marks_append, marks_envelopes_of_ne _ hne, marks_singleton_of_ne hne,
          List.append_nil, List.append_nil]
        have hother := hothers other hne
        unfold shape at hother ⊢
        dsimp only at hother
        rwa [update_of_ne (Ne.symm hne)] at hother

/--
A new run of the thread starts in a state that has none.
-/
theorem freshRun_emits (habsent : s.runs threadId = none) (runId : String)
    (sourceTurnId : Option String)
    : let run : AgUiRunState := { runId, sourceTurnId }
      Emits s [run.envelope threadId (.runStarted threadId runId)]
        { s with runs := update s.runs threadId (some run) } := by
  intro run hsound
  refine ⟨?_, ?_⟩
  . apply update_sound hsound
    intro current hcurrent
    rw [← Option.some.inj hcurrent]
    exact freshRun_sound runId sourceTurnId
  . intro other
    unfold shape
    by_cases hne : threadId = other
    . subst hne
      have hstarted := @marks_singleton (run.envelope threadId (.runStarted threadId runId)) _ rfl
      dsimp only
      rw [habsent, update_self]
      exact hstarted ▸ leads_freshRun runId sourceTurnId
    . dsimp only
      rw [update_of_ne (Ne.symm hne), marks_singleton_of_ne hne]
      exact .refl _

/--
The run that a new one supersedes ends with an error.
-/
theorem supersede_emits {run : AgUiRunState} (hrun : s.runs threadId = some run)
    : let result :=
        ({ s with runs := update s.runs threadId none } : AgUiProjector).terminalizeRunSubagents
          threadId run "failed"
      Emits s (result.2.2 ++ (result.2.1.close true).map (result.2.1.envelope threadId)) result.1
        ∧ (s.Sound → result.1.runs threadId = none) := by
  have hterminal : s.Sound → _ := fun hsound =>
    @terminalizeRunSubagents_leads _ threadId
      (@update_sound _ threadId hsound none fun _ h => by contradiction) run
      (hsound.runs threadId run hrun) (update_self s.runs threadId none) "failed"
  dsimp only at hterminal ⊢
  refine ⟨?_, fun hsound => (hterminal hsound).2.2.1⟩
  intro hsound
  rcases hterminal hsound with ⟨hsound', hothers, habsent, hsilent, hspans, hrun'⟩
  refine ⟨hsound', ?_⟩
  intro other
  by_cases hne : threadId = other
  . subst hne
    rw [marks_append, hsilent, marks_envelopes, List.nil_append]
    unfold shape
    rw [hrun, habsent]
    exact hspans.leads.trans (AgUiRunState.leads_close_superseded hrun')
  . rw [marks_append, marks_envelopes_of_ne _ hne, List.append_nil]
    have hother := hothers other hne
    unfold shape at hother ⊢
    dsimp only at hother
    rwa [update_of_ne (Ne.symm hne)] at hother

theorem startRun_emits (s : AgUiProjector) (threadId runId sourceTurnId : String)
    : Emits s (s.startRun threadId runId sourceTurnId).2 (s.startRun threadId runId sourceTurnId).1 := by
  unfold startRun
  dsimp only
  split
  . next hnone =>
    intro hsound
    have hfresh := freshRun_emits hnone runId (some sourceTurnId) ⟨hsound.runs, hsound.observed_le⟩
    exact ⟨⟨hfresh.1.runs, hfresh.1.observed_le⟩, hfresh.2⟩
  . next previous hprevious =>
    have hsupersede := supersede_emits
      (s := { s with closedThreads := s.closedThreads.filter (· != threadId) }) hprevious
    intro hsound
    have hsound₀ : ({ s with closedThreads := s.closedThreads.filter (· != threadId) }
        : AgUiProjector).Sound := ⟨hsound.runs, hsound.observed_le⟩
    have hemits := hsupersede.1 hsound₀
    have hfresh := freshRun_emits (hsupersede.2 hsound₀) runId (some sourceTurnId) hemits.1
    refine ⟨⟨hfresh.1.runs, hfresh.1.observed_le⟩, ?_⟩
    intro other
    rw [marks_append]
    exact (hemits.2 other).trans (hfresh.2 other)

end AgUiProjector

end AgUi
