import TetherBridge.AgUi.Tools

/-!
This module contains the stream a projector produces from any sequence of canonical events: for every
thread it is a sequence of runs in which nothing is left open, as long as no step restarts a message, hides
a call, or gives up an observed run it is opening.
-/

namespace AgUi

open Acp Snapshot Spans Transition

variable (x : Crates)

/--
A projector with what it has streamed so far.
-/
structure Streaming where
  projector : AgUiProjector := {}
  output : List AgUiEventEnvelope := []

/--
Besides the canonical events, the link to a child may come from elsewhere, and the order in which a map is
iterated is arbitrary.
-/
inductive ProjectorLabel where
  | projectCanonical (canonical : CanonicalEvent)
  | linkSubagent (parentThreadId parentRunId : String) (parentSourceTurnId : Option String)
      (toolCallId childThreadId : String)
  | iterateThreads (closedThreads : List String)
  | iterateLinks (childThreadIds : List String)
  | iterateTools (threadId : String) (toolCallIds : List String)

/--
The entries of a map in another order of its keys.
-/
def reorder {α : Type} (keys : List String) (entries : List (String × α)) : List (String × α) :=
  keys.filterMap fun key => (entries.lookup key).map fun value => (key, value)

namespace Streaming

variable (s : Streaming)

def emit (result : AgUiProjector × List AgUiEventEnvelope) : Streaming :=
  { projector := result.1, output := s.output ++ result.2 }

def step : ProjectorLabel → Option Streaming
  | .projectCanonical canonical => some (s.emit (s.projector.projectCanonical x canonical))
  | .linkSubagent parentThreadId parentRunId parentSourceTurnId toolCallId childThreadId =>
    let (projector, _) := s.projector.linkSubagent parentThreadId parentRunId parentSourceTurnId
      toolCallId childThreadId
    some { s with projector }
  | .iterateThreads closedThreads =>
    if closedThreads.isPerm s.projector.closedThreads then
      some { s with projector := { s.projector with closedThreads } }
    else
      none
  | .iterateLinks childThreadIds =>
    if childThreadIds.isPerm (s.projector.subagentLinks.map (·.1)) then
      some { s with
        projector :=
          { s.projector with subagentLinks := reorder childThreadIds s.projector.subagentLinks } }
    else
      none
  | .iterateTools threadId toolCallIds =>
    (s.projector.runs threadId).bind fun run =>
      if toolCallIds.isPerm (run.tools.map (·.1)) then
        some { s with
          projector :=
            { s.projector with
              runs := update s.projector.runs threadId
                (some { run with tools := reorder toolCallIds run.tools }) } }
      else
        none

end Streaming

/--
The event neither restarts a message, nor hides a call, nor gives up the observed run it opens.
-/
def AgUiProjector.leavesNothingOpen (s : AgUiProjector) : CanonicalEvent → Bool
  | .messageChunk _ threadId runId sourceTurnId _ role messageId content contentBlock =>
    (content.isEmpty && contentBlock.isNone)
      || (s.keepsObserved threadId runId sourceTurnId
        && (s.receivingRun threadId runId sourceTurnId).all fun run => !run.restarts role messageId)
  | .tool agentId threadId runId sourceTurnId _ toolCallId kind status title content
      structuredContent locations =>
    s.keepsObserved threadId runId sourceTurnId
      && (s.receivingRun threadId runId sourceTurnId).all fun run =>
        !run.hidesCall x agentId toolCallId
          { kind, status, title, content, structuredContent, locations }
  | _ => true

def Streaming.Allowed (s : Streaming) : ProjectorLabel → Prop
  | .projectCanonical canonical => s.projector.leavesNothingOpen x canonical
  | _ => True

/-! One canonical event -/

namespace AgUiProjector

variable {x : Crates} {s : AgUiProjector} {threadId : String} {run : AgUiRunState}

/--
What decides which run an event goes to.
-/
structure SameRuns (s s' : AgUiProjector) : Prop where
  runs : s'.runs = s.runs
  closedThreads : s'.closedThreads = s.closedThreads
  observedRuns : s'.observedRuns = s.observedRuns

theorem SameRuns.leavesNothingOpen {s' : AgUiProjector} (h : s.SameRuns s')
    (canonical : CanonicalEvent)
    : s'.leavesNothingOpen x canonical = s.leavesNothingOpen x canonical := by
  rcases h with ⟨hruns, hclosed, hobserved⟩
  unfold AgUiProjector.leavesNothingOpen keepsObserved receivingRun observes makesRoomFor
  rw [hruns, hclosed, hobserved]

/--
As long as the sub-agent is running, its progress only repaints the card.
-/
theorem renderProgress_sameRuns (s : AgUiProjector) (threadId : String)
    (link current : SubagentActivityLink) {progress : SubagentProgress}
    (hrunning : progress.status = "running")
    : s.SameRuns (s.renderProgress threadId link current progress).1 := by
  unfold renderProgress
  dsimp only
  split
  . exact ⟨rfl, rfl, rfl⟩
  . have hterminal : isTerminalSubagentStatus progress.status = false := by
      rw [hrunning]
      decide
    rw [hterminal]
    exact ⟨rfl, rfl, rfl⟩

theorem applyProgress_sameRuns (s : AgUiProjector) (threadId : String)
    (link current : SubagentActivityLink) {progress : Option SubagentProgress}
    (hrunning : ∀ shown, progress = some shown → shown.status = "running")
    : s.SameRuns (s.applyProgress threadId link current progress).1 := by
  unfold applyProgress
  split
  . exact ⟨rfl, rfl, rfl⟩
  . next shown =>
    dsimp only
    split
    . exact ⟨rfl, rfl, rfl⟩
    . generalize ((current.track shown).remember shown.revision).1 = remembered
      have hrender := renderProgress_sameRuns
        { s with subagentLinks := insertEntry threadId remembered s.subagentLinks } threadId link
        remembered (hrunning shown rfl)
      exact ⟨hrender.runs, hrender.closedThreads, hrender.observedRuns⟩

theorem projectSubagentProgress_sameRuns (s : AgUiProjector) {canonical : CanonicalEvent}
    (hrunning : ∀ progress, subagentProgress canonical = some progress → progress.status = "running")
    : s.SameRuns (s.projectSubagentProgress canonical).1 := by
  unfold projectSubagentProgress
  split
  . exact ⟨rfl, rfl, rfl⟩
  . split
    . exact ⟨rfl, rfl, rfl⟩
    . dsimp only
      split
      . exact ⟨rfl, rfl, rfl⟩
      . exact applyProgress_sameRuns s _ _ _ hrunning

theorem messageProgress_running {agentId threadId : String} {runId sourceTurnId : Option String}
    {generation : Option Nat} {role : MessageRole} {messageId content : String}
    {contentBlock : Option Json} {progress : SubagentProgress}
    (h : subagentProgress (.messageChunk agentId threadId runId sourceTurnId generation role messageId
      content contentBlock) = some progress)
    : progress.status = "running" := by
  dsimp only [subagentProgress] at h
  split at h
  . contradiction
  . injection h with h
    rw [← h]

theorem toolProgress_running {toolCallId title : String} {status : ToolCallStatus}
    {progress : SubagentProgress} (h : toolProgress toolCallId status title = some progress)
    : progress.status = "running" := by
  unfold toolProgress at h
  dsimp only at h
  split at h
  . contradiction
  . injection h with h
    rw [← h]
  . injection h with h
    rw [← h]
  . injection h with h
    rw [← h]

/--
An event that could leave something open comes from a sub-agent that is running.
-/
theorem leavesNothingOpen_of_progress {canonical : CanonicalEvent}
    (hallowed : s.leavesNothingOpen x canonical)
    : (s.projectSubagentProgress canonical).1.leavesNothingOpen x canonical := by
  cases canonical with
  | messageChunk agentId threadId runId sourceTurnId generation role messageId content contentBlock =>
    have hsame := @projectSubagentProgress_sameRuns s (.messageChunk agentId threadId runId sourceTurnId
      generation role messageId content contentBlock) fun progress => messageProgress_running
    rw [hsame.leavesNothingOpen]
    exact hallowed
  | tool agentId threadId runId sourceTurnId generation toolCallId kind status title content
      structuredContent locations =>
    have hsame := @projectSubagentProgress_sameRuns s (.tool agentId threadId runId sourceTurnId
      generation toolCallId kind status title content structuredContent locations)
      fun progress => toolProgress_running
    rw [hsame.leavesNothingOpen]
    exact hallowed
  | _ => rfl

theorem sessionEvent_emits (s : AgUiProjector) (threadId : String) {event : AgUiEvent}
    (hevent : Silent [event]) {s' : AgUiProjector} (hruns : s'.runs = s.runs)
    (hobserved : s'.observedRuns = s.observedRuns)
    : Emits s (s.sessionEvent threadId event) s' := by
  apply Emits.of_runs_eq hruns hobserved
  intro other
  have hsilent : ∀ runId, event.mark runId = none := hevent event List.mem_cons_self
  unfold sessionEvent
  split <;> simp [marks, AgUiRunState.envelope, hsilent]

theorem silent_sessionUpdate {canonical : CanonicalEvent} {threadId : String} {event : AgUiEvent}
    (h : sessionUpdate canonical = some (threadId, event))
    : Silent [event] := by
  intro other hother runId
  rw [List.mem_singleton] at hother
  subst hother
  unfold sessionUpdate at h
  split at h
  all_goals
    first
    | contradiction
    | injection h with h
      injection h with _ h
      rw [← h]
      rfl

theorem mark_runEnd (threadId runId : String) (stopReason : StopReason)
    : (runEnd threadId runId stopReason).event.mark runId = some (.runEnded runId) := by
  cases stopReason <;> rfl

theorem projectEvent_emits {canonical : CanonicalEvent} (hallowed : s.leavesNothingOpen x canonical)
    : Emits s (s.projectEvent x canonical).2 (s.projectEvent x canonical).1 := by
  unfold projectEvent
  split
  . exact startRun_emits s _ _ _
  . next content contentBlock =>
    simp only [AgUiProjector.leavesNothingOpen, Bool.or_eq_true, Bool.and_eq_true] at hallowed
    apply projectMessage_emits
    . intro hsaid
      cases hallowed with
      | inl hempty => simp [hempty.1, hempty.2] at hsaid
      | inr hopen => exact hopen.1
    . intro hsaid run hrun
      cases hallowed with
      | inl hempty => simp [hempty.1, hempty.2] at hsaid
      | inr hopen =>
        rw [hrun] at hopen
        simpa using hopen.2
  . simp only [AgUiProjector.leavesNothingOpen, Bool.and_eq_true] at hallowed
    apply projectTool_emits hallowed.1
    intro run hrun
    rw [hrun] at hallowed
    simpa using hallowed.2
  . exact endRun_emits s _ _ _ (mark_runEnd _ _ _)
  . exact endRun_emits s _ _ _ rfl
  . exact sessionEvent_emits s _ (by intro event hevent runId; simp_all; rfl) rfl rfl
  . split
    . next hupdate => exact sessionEvent_emits s _ (silent_sessionUpdate hupdate) rfl rfl
    . exact .refl s

theorem projectCanonical_emits {canonical : CanonicalEvent}
    (hallowed : s.leavesNothingOpen x canonical)
    : Emits s (s.projectCanonical x canonical).2 (s.projectCanonical x canonical).1 :=
  (projectSubagentProgress_emits s canonical).trans
    (projectEvent_emits (leavesNothingOpen_of_progress hallowed))

/-! Maps in another order -/

section

variable {α : Type} {entries : List (String × α)} {keys : List String}

theorem lookup_reorder (keys : List String) (entries : List (String × α)) (key : String)
    : (reorder keys entries).lookup key = if key ∈ keys then entries.lookup key else none := by
  induction keys with
  | nil => rfl
  | cons first keys ih =>
    unfold reorder at ih ⊢
    rw [List.filterMap_cons]
    by_cases hkey : key = first
    . subst hkey
      cases hlookup : entries.lookup key with
      | none =>
        rw [hlookup] at ih
        simpa using ih
      | some value => simp [List.lookup_nil, List.lookup_cons]
    . have hbeq : (key == first) = false := by
        rw [beq_eq_false_iff_ne]
        exact hkey
      cases entries.lookup first with
      | none => simpa [hkey] using ih
      | some value => simpa [hkey, List.lookup_nil, List.lookup_cons, hbeq] using ih

theorem keys_reorder_sublist (keys : List String) (entries : List (String × α))
    : ((reorder keys entries).map (·.1)).Sublist keys := by
  induction keys with
  | nil => exact .slnil
  | cons first keys ih =>
    unfold reorder at ih ⊢
    rw [List.filterMap_cons]
    cases entries.lookup first with
    | none => exact ih.cons first
    | some value => exact ih.cons_cons first

theorem lookup_reorder_of_perm (hperm : keys.Perm (entries.map (·.1))) (key : String)
    : (reorder keys entries).lookup key = entries.lookup key := by
  rw [lookup_reorder]
  split
  . rfl
  . next hmem =>
    rw [hperm.mem_iff] at hmem
    symm
    rw [List.lookup_eq_none_iff]
    intro entry hentry
    rw [bne_iff_ne]
    rintro rfl
    exact hmem (List.mem_map_of_mem hentry)

end

theorem iterateTools_emits (hrun : s.runs threadId = some run) {toolCallIds : List String}
    (hperm : toolCallIds.Perm (run.tools.map (·.1)))
    : Emits s []
        { s with
          runs := update s.runs threadId
            (some { run with tools := reorder toolCallIds run.tools }) } := by
  apply @updateRun_emits run _ s threadId [] hrun
  intro h
  have hnodup : ((reorder toolCallIds run.tools).map (·.1)).Nodup :=
    (hperm.nodup_iff.mpr h.toolIds).sublist (keys_reorder_sublist toolCallIds run.tools)
  constructor
  . refine ⟨hnodup, ?_, h.slots⟩
    intro entry hentry
    have hlookup := (lookup_eq_some_iff hnodup).mpr hentry
    rw [lookup_reorder_of_perm hperm] at hlookup
    exact h.started entry ((lookup_eq_some_iff h.toolIds).mp hlookup)
  . apply AgUiRunState.SameSpans.leads
    refine ⟨rfl, rfl, rfl, rfl, ?_⟩
    intro toolCallId
    unfold AgUiRunState.IsOpen
    dsimp only
    rw [lookup_reorder_of_perm hperm]

theorem linkSubagent_emits (s : AgUiProjector) (parentThreadId parentRunId : String)
    (parentSourceTurnId : Option String) (toolCallId childThreadId : String)
    : Emits s []
        (s.linkSubagent parentThreadId parentRunId parentSourceTurnId toolCallId childThreadId).1 := by
  unfold linkSubagent
  split
  . exact .refl s
  . exact .relink s _

end AgUiProjector

/-! Runs of the projector -/

namespace Streaming

variable {x : Crates} {s s' : Streaming}

/--
The output of every thread leads to what the projector keeps open for it.
-/
def Sound (s : Streaming) : Prop :=
  s.projector.Sound
    ∧ ∀ threadId, Leads none (s.projector.shape threadId) (marks threadId s.output)

theorem sound_init : ({} : Streaming).Sound := by
  refine ⟨⟨?_, ?_⟩, ?_⟩
  . intro threadId run hrun
    contradiction
  . exact Nat.zero_le _
  . intro threadId
    exact .refl none

theorem Sound.emits (h : s.Sound) {projector : AgUiProjector} {events : List AgUiEventEnvelope}
    (hemits : Emits s.projector events projector)
    : ({ projector, output := s.output ++ events } : Streaming).Sound := by
  have hstep := hemits h.1
  refine ⟨hstep.1, ?_⟩
  intro threadId
  rw [marks_append]
  exact (h.2 threadId).trans (hstep.2 threadId)

theorem Sound.unseen (h : s.Sound) {projector : AgUiProjector}
    (hemits : Emits s.projector [] projector)
    : ({ s with projector } : Streaming).Sound := by
  have hstep := h.emits hemits
  rw [List.append_nil] at hstep
  exact hstep

theorem sound_step {label : ProjectorLabel} (h : s.Sound) (hallowed : s.Allowed x label)
    (hstep : s.step x label = some s')
    : s'.Sound := by
  cases label with
  | projectCanonical canonical =>
    injection hstep with hstep
    rw [← hstep]
    exact h.emits (AgUiProjector.projectCanonical_emits hallowed)
  | linkSubagent parentThreadId parentRunId parentSourceTurnId toolCallId childThreadId =>
    injection hstep with hstep
    rw [← hstep]
    exact h.unseen (AgUiProjector.linkSubagent_emits _ _ _ _ _ _)
  | iterateThreads closedThreads =>
    dsimp only [step] at hstep
    split at hstep
    . injection hstep with hstep
      rw [← hstep]
      exact h.unseen (Emits.of_runs_eq rfl rfl fun _ => rfl)
    . contradiction
  | iterateLinks childThreadIds =>
    dsimp only [step] at hstep
    split at hstep
    . injection hstep with hstep
      rw [← hstep]
      exact h.unseen (.relink s.projector _)
    . contradiction
  | iterateTools threadId toolCallIds =>
    dsimp only [step] at hstep
    rw [Option.bind_eq_some_iff] at hstep
    rcases hstep with ⟨run, hrun, hstep⟩
    split at hstep
    . next hperm =>
      injection hstep with hstep
      rw [← hstep]
      rw [List.isPerm_iff] at hperm
      exact h.unseen (AgUiProjector.iterateTools_emits hrun hperm)
    . contradiction

/--
In every run whose steps leave nothing open, the output of every thread is well formed.
-/
theorem wellFormed_of_exec {labels : List ProjectorLabel}
    (hmeets : Meets (step x) (Allowed x) {} labels) (hexec : exec (step x) {} labels = some s)
    (threadId : String)
    : WellFormed (marks threadId s.output) := by
  have hsound := exec_invariant (fun _ _ _ => sound_step) sound_init hmeets hexec
  exact (hsound.2 threadId).wellFormed

instance (s : Streaming) (label : ProjectorLabel) : Decidable (s.Allowed x label) :=
  match label with
  | .projectCanonical _ => inferInstanceAs (Decidable (_ = true))
  | .linkSubagent .. => inferInstanceAs (Decidable True)
  | .iterateThreads _ => inferInstanceAs (Decidable True)
  | .iterateLinks _ => inferInstanceAs (Decidable True)
  | .iterateTools .. => inferInstanceAs (Decidable True)

/--
What the crates compute on the events below.
-/
def readCrates : Crates where
  sha256 := fun _ => "fe28eef0b91fadd99f2d08e10b471d3c07cc3ffa8de0c2b74a45150c1153a8e4"
  toText := fun _ => "\x7b\"kind\":\"read\",\"status\":\"in_progress\",\"title\":\"Read\",\"toolCallId\":\"c\"\x7d"
  base64 := fun text => if text = "a" then "YQ" else "Yw"

/--
A run reads a file and answers.
-/
def readAndAnswer (content : FieldUpdate String) : List ProjectorLabel :=
  [.projectCanonical (.runStarted "a" "t" "r" "s" 1),
    .projectCanonical (.tool "a" "t" (some "r") (some "s") (some 1) "c" .read .inProgress "Read"
      .unchanged .unchanged .unchanged),
    .projectCanonical (.tool "a" "t" (some "r") (some "s") (some 1) "c" .read .inProgress "Read"
      content .unchanged .unchanged),
    .projectCanonical (.messageChunk "a" "t" (some "r") (some "s") (some 1) .agent "m" "Hi" none),
    .projectCanonical (.runFinished "a" "t" "r" "s" 1 .endTurn)]

theorem wellFormed_of_readAndAnswer
    : (exec (step readCrates) {} (readAndAnswer .unchanged)).isSome
        ∧ ∀ s, exec (step readCrates) {} (readAndAnswer .unchanged) = some s →
          WellFormed (marks "t" s.output) := by
  refine ⟨by decide +kernel, ?_⟩
  intro s hexec
  exact wellFormed_of_exec (by decide +kernel) hexec "t"

/--
The text of the tool names a task after its call was announced, and the call is never ended.
-/
theorem not_wellFormed_of_task
    : ∃ s ∈ exec (step readCrates) {} (readAndAnswer (.set "<task id=\"c\" state=\"running\">")),
        ¬WellFormed (marks "t" s.output) := by
  decide +kernel

end Streaming

end AgUi
