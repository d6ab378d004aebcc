import TetherBridge.Acp.Prompt
import TetherBridge.Session.Impl

/-!
This module contains the steering of a session over the OpenCode harness: the running turn is reserved, its
abort is requested, and the new prompt is sent in its place.
-/

namespace Session

open Acp Snapshot

/--
What is used of the `url` crate: parsing, the segments that are pushed onto a path, after an empty last one
was popped where that is asked for, and the pairs that are appended to a query.
-/
structure Urls (Url : Type) where
  parse : String → Option Url
  pushSegments : Url → Bool → List String → Option Url
  appendPair : Url → String → String → Url

structure SessionContext where
  httpBase : String
  sessionId : String
  cwd : String

inductive OpenCodeRequest (Url : Type) where
  | abort (url : Url)
  | prompt (url : Url) (parts : List OpenCodePromptPart)
  deriving DecidableEq

/--
What the server makes of the requests: the status it answers with or the failure to get one, and what the
session hears of it until then.
-/
structure Server (Url : Type) where
  answer : OpenCodeRequest Url → Except HarnessError Nat
  arrivals : OpenCodeRequest Url → List CanonicalEvent

def isSuccess (status : Nat) : Bool :=
  200 ≤ status && status < 300

section

variable {Url : Type} (urls : Urls Url) (context : SessionContext)

def sessionUrl : Except HarnessError Url :=
  match urls.parse context.httpBase with
  | none => .error .invalidUrl
  | some url =>
    match urls.pushSegments url true ["session", context.sessionId] with
    | none => .error .invalidUrl
    | some url => .ok url

def sessionActionUrl (action : String) : Except HarnessError Url := do
  let url ← sessionUrl urls context
  match urls.pushSegments url false [action] with
  | none => .error .invalidUrl
  | some url => .ok (urls.appendPair url "directory" context.cwd)

/--
`OpenCodeHarnessAdapter::steer`: the requests that are sent, and what comes of it.
-/
def openCodeSteer (server : Server Url) (prompt : List ContentBlock)
    : List (OpenCodeRequest Url) × Except HarnessError Unit :=
  match sessionActionUrl urls context "abort" with
  | .error e => ([], .error e)
  | .ok url =>
    let abort := OpenCodeRequest.abort url
    match server.answer abort with
    | .error e => ([abort], .error e)
    | .ok status =>
      if !isSuccess status then
        ([abort], .error (.http status))
      else
        match openCodePromptParts prompt with
        | .error e => ([abort], .error e)
        | .ok parts =>
          match sessionActionUrl urls context "prompt_async" with
          | .error e => ([abort], .error e)
          | .ok url =>
            let request := OpenCodeRequest.prompt url parts
            match server.answer request with
            | .error e => ([abort, request], .error e)
            | .ok status =>
              if status != 204 && !isSuccess status then
                ([abort, request], .error (.http status))
              else
                ([abort, request], .ok ())

inductive SteerError where
  | unsupported (message : String)
  | harness (error : HarnessError)
  deriving DecidableEq

structure SteerOutcome (Url : Type) where
  session : SessionState
  requests : List (OpenCodeRequest Url)
  result : Except SteerError Unit

/--
The session takes in what the agent says.
-/
def arrive (s : SessionState) (events : List CanonicalEvent) : Except Panic SessionState :=
  events.foldlM (fun s event => (s.emit event).map (·.1)) s

/--
The blocks of the prompt as they are shown in the transcript.
-/
def steeredChunks (s : SessionState) (runId sourceTurnId : String) (generation : Nat)
    (prompt : List ContentBlock) : List CanonicalEvent :=
  let messageId :=
    s.snapshot.threadId ++ "::user::" ++ sourceTurnId ++ "::steer::" ++ toString generation
  prompt.map fun block =>
    let (content, contentBlock) :=
      match block with
      | .text text _ => (text, none)
      | block => ("", some block.toValue)
    .messageChunk s.snapshot.agentId s.snapshot.threadId (some runId) (some sourceTurnId)
      (some generation) .user messageId content contentBlock

/--
`AgentManager::steer` once it has come to the harness.
-/
def steer (server : Server Url) (s : SessionState) (runId sourceTurnId : String) (generation : Nat)
    (prompt : List ContentBlock) : Except Panic (SteerOutcome Url) :=
  match s.reserveHandoff runId sourceTurnId generation with
  | .error e => .ok { session := s, requests := [], result := .error (.unsupported e) }
  | .ok reserved => do
    let (requests, result) := openCodeSteer urls context server prompt
    let s ← arrive reserved (requests.flatMap server.arrivals)
    match result with
    | .error e => return { session := s.releaseHandoff, requests, result := .error (.harness e) }
    | .ok () =>
      match s.admitHandoff runId sourceTurnId with
      | .error e => return { session := s.releaseHandoff, requests, result := .error (.unsupported e) }
      | .ok started => do
        let (s, generation, _) ← started
        let s ← arrive s (steeredChunks s runId sourceTurnId generation prompt)
        return { session := s, requests, result := .ok () }

/-! What is promised of a steer -/

/--
The turn is the one that runs, and the server accepts its abort.
-/
def Accepts (server : Server Url) (s : SessionState) (runId sourceTurnId : String) (generation : Nat)
    : Prop :=
  (∃ reserved, s.reserveHandoff runId sourceTurnId generation = .ok reserved)
    ∧ (∃ url status, sessionActionUrl urls context "abort" = .ok url
      ∧ server.answer (.abort url) = .ok status ∧ isSuccess status)
    ∧ ∃ url, sessionActionUrl urls context "prompt_async" = .ok url

/--
What a turn would accept is sent as one part for each block, and a prompt that cannot be converted leaves
the turn and the session alone.
-/
structure SteersCleanly (fromValue : Json → Option ContentBlock) (server : Server Url) (s : SessionState)
    (runId sourceTurnId : String) (generation : Nat) (prompt : List ContentBlock)
    (outcome : SteerOutcome Url) : Prop where
  sent : ∀ params, bridgePrompt fromValue params = .ok prompt
    → (∀ block ∈ prompt, block.isText ∨ block.isLink)
    → Accepts urls context server s runId sourceTurnId generation
    → ∃ abortUrl url parts, outcome.requests = [.abort abortUrl, .prompt url parts]
      ∧ List.Forall₂ ContentBlock.Carries prompt parts
  refused : ∀ e, openCodePromptParts prompt = .error e
    → outcome.requests = [] ∧ outcome.session.generationState = s.generationState

variable {urls context} {server : Server Url} {s : SessionState} {runId sourceTurnId : String}
  {generation : Nat} {prompt : List ContentBlock} {outcome : SteerOutcome Url}

theorem steer_of_stale {e : String} (hstale : s.reserveHandoff runId sourceTurnId generation = .error e)
    (hok : steer urls context server s runId sourceTurnId generation prompt = .ok outcome)
    : outcome.requests = [] ∧ outcome.session = s := by
  unfold steer at hok
  rw [hstale] at hok
  injection hok with hok
  rw [← hok]
  exact ⟨rfl, rfl⟩

theorem reserveHandoff_eq_ok {reserved : SessionState}
    (h : s.reserveHandoff runId sourceTurnId generation = .ok reserved)
    : s.generationState = .active generation
        ∧ reserved = { s with generationState := .handoff generation false } := by
  unfold SessionState.reserveHandoff at h
  split at h
  . next hmatches =>
    injection h with h
    exact ⟨hmatches.2.2.2, h.symm⟩
  . contradiction

/--
Whatever comes of it, the requests are those of the harness.
-/
theorem steer_requests {reserved : SessionState}
    (hreserve : s.reserveHandoff runId sourceTurnId generation = .ok reserved)
    (hok : steer urls context server s runId sourceTurnId generation prompt = .ok outcome)
    : outcome.requests = (openCodeSteer urls context server prompt).1
        ∧ ∃ arrived, arrive reserved
            ((openCodeSteer urls context server prompt).1.flatMap server.arrivals) = .ok arrived
          ∧ ∀ e, (openCodeSteer urls context server prompt).2 = .error e
            → outcome.session = arrived.releaseHandoff := by
  unfold steer at hok
  rw [hreserve] at hok
  dsimp only at hok
  rw [Except.bind_eq_ok] at hok
  rcases hok with ⟨arrived, harrived, hok⟩
  cases hresult : (openCodeSteer urls context server prompt).2 with
  | error e =>
    rw [hresult] at hok
    injection hok with hok
    rw [← hok]
    exact ⟨rfl, arrived, harrived, fun _ _ => rfl⟩
  | ok done =>
    rw [hresult] at hok
    dsimp only at hok
    split at hok
    . injection hok with hok
      rw [← hok]
      refine ⟨rfl, arrived, harrived, ?_⟩
      intro e he
      contradiction
    . rw [Except.bind_eq_ok] at hok
      rcases hok with ⟨started, -, hok⟩
      rw [Except.bind_eq_ok] at hok
      rcases hok with ⟨shown, -, hok⟩
      injection hok with hok
      rw [← hok]
      refine ⟨rfl, arrived, harrived, ?_⟩
      intro e he
      contradiction

theorem openCodeSteer_of_invalidUrl {e : HarnessError}
    (hurl : sessionActionUrl urls context "abort" = .error e)
    : openCodeSteer urls context server prompt = ([], .error e) := by
  unfold openCodeSteer
  rw [hurl]

theorem openCodeSteer_ne_nil {url : Url} (hurl : sessionActionUrl urls context "abort" = .ok url)
    : (openCodeSteer urls context server prompt).1 ≠ [] := by
  unfold openCodeSteer
  rw [hurl]
  dsimp only
  repeat' split
  all_goals exact List.cons_ne_nil _ _

/--
A steer is clean exactly when the prompt consists of texts, unless it never comes to a request: the turn is
not the one that runs, or the address of the server is not valid.
-/
theorem steersCleanly_iff (fromValue : Json → Option ContentBlock)
    (hok : steer urls context server s runId sourceTurnId generation prompt = .ok outcome)
    : SteersCleanly urls context fromValue server s runId sourceTurnId generation prompt outcome
        ↔ (∀ block ∈ prompt, block.isText)
          ∨ (∃ e, s.reserveHandoff runId sourceTurnId generation = .error e)
          ∨ ∃ e, sessionActionUrl urls context "abort" = .error e := by
  constructor
  . intro h
    by_contra hnot
    rw [not_or, not_or] at hnot
    rcases hnot with ⟨htexts, hfresh, hvalid⟩
    push Not at htexts
    rcases htexts with ⟨block, hmem, hblock⟩
    have hempty := (h.refused _ (openCodePromptParts_of_not_text hmem hblock)).1
    cases hreserve : s.reserveHandoff runId sourceTurnId generation with
    | error e => exact hfresh ⟨e, hreserve⟩
    | ok reserved =>
      cases hurl : sessionActionUrl urls context "abort" with
      | error e => exact hvalid ⟨e, hurl⟩
      | ok url =>
        rw [(steer_requests hreserve hok).1] at hempty
        exact openCodeSteer_ne_nil hurl hempty
  . rintro (htexts | ⟨e, hstale⟩ | ⟨e, hurl⟩)
    . rcases openCodePromptParts_of_texts htexts with ⟨parts, hparts, hcarries⟩
      constructor
      . rintro params - - ⟨⟨reserved, hreserve⟩, ⟨abortUrl, status, habort, hanswer, hsuccess⟩, url, hurl⟩
        refine ⟨abortUrl, url, parts, ?_, hcarries⟩
        rw [(steer_requests hreserve hok).1]
        unfold openCodeSteer
        rw [habort]
        dsimp only
        rw [hanswer]
        dsimp only
        rw [hsuccess, hparts, hurl]
        dsimp only
        cases server.answer (.prompt url parts) with
        | error e => rfl
        | ok status =>
          dsimp only
          rw [Bool.not_true, if_neg Bool.false_ne_true]
          split <;> rfl
      . intro e he
        rw [hparts] at he
        contradiction
    . rcases steer_of_stale hstale hok with ⟨hrequests, hsession⟩
      constructor
      . rintro params - - ⟨⟨reserved, hreserve⟩, -⟩
        rw [hstale] at hreserve
        contradiction
      . intro _ _
        exact ⟨hrequests, congrArg _ hsession⟩
    . constructor
      . rintro params - - ⟨-, ⟨url, status, habort, -⟩, -⟩
        rw [hurl] at habort
        contradiction
      . intro _ _
        cases hreserve : s.reserveHandoff runId sourceTurnId generation with
        | error e =>
          rcases steer_of_stale hreserve hok with ⟨hrequests, hsession⟩
          exact ⟨hrequests, congrArg _ hsession⟩
        | ok reserved =>
          rcases steer_requests hreserve hok with ⟨hrequests, arrived, harrived, hreleased⟩
          rw [openCodeSteer_of_invalidUrl hurl] at hrequests harrived hreleased
          injection harrived with harrived
          rcases reserveHandoff_eq_ok hreserve with ⟨hactive, hreserved⟩
          refine ⟨hrequests, ?_⟩
          rw [hreleased e rfl, ← harrived, hreserved, hactive]
          rfl

end

/--
A session in its first run.
-/
def SessionState.running : SessionState where
  snapshot := { SessionSnapshot.new "agent" "thread" with
    activeRunId := some "run", activeSourceTurnId := some "turn", activeGeneration := some 1 }
  nextGeneration := 1
  generationState := .active 1

def plainUrls : Urls String where
  parse text := some text
  pushSegments url _ segments := some ("/".intercalate (url :: segments))
  appendPair url key value := url ++ "?" ++ key ++ "=" ++ value

def localContext : SessionContext where
  httpBase := "http://localhost:4096"
  sessionId := "source"
  cwd := "project"

/--
A server that accepts everything. The agent reports the end of the turn that is aborted.
-/
def obligingServer : Server String where
  answer
    | .abort _ => .ok 200
    | .prompt .. => .ok 204
  arrivals
    | .abort _ => [.runFinished "agent" "thread" "run" "turn" 1 .cancelled]
    | .prompt .. => []

def turnInput (block : Json) : Json :=
  .object [("input", .array [block])]

theorem steersCleanly_text
    : ∃ outcome, bridgePrompt (fun _ => none) (turnInput (.string "go on")) = .ok [.text "go on" []]
        ∧ steer plainUrls localContext obligingServer .running "run" "turn" 1 [.text "go on" []] = .ok outcome
        ∧ SteersCleanly plainUrls localContext (fun _ => none) obligingServer .running "run" "turn" 1
          [.text "go on" []] outcome := by
  have hrun : (steer plainUrls localContext obligingServer .running "run" "turn" 1
      [.text "go on" []]).toOption.isSome := by
    decide +kernel
  rw [Option.isSome_iff_exists] at hrun
  rcases hrun with ⟨outcome, houtcome⟩
  rw [Except.toOption_eq_some] at houtcome
  refine ⟨outcome, rfl, houtcome, ?_⟩
  rw [steersCleanly_iff _ houtcome]
  left
  intro block hmem
  rw [List.mem_singleton] at hmem
  rw [hmem]
  rfl

def mention : Json :=
  .object [("type", .string "mention"), ("path", .string "/notes.txt")]

theorem promptBlock_mention
    : promptBlock (fun _ => none) mention = .ok (.resourceLink "/notes.txt" "/notes.txt" none []) := by
  have hvisible : (some "/notes.txt").filter (fun value => !(Text.trim value.toList).isEmpty)
      = some "/notes.txt" := by
    decide +kernel
  simp [promptBlock, mention, visibleMember, Json.get, Json.asStr, List.lookup_cons, List.lookup_nil,
    hvisible, -Option.filter_some]

/--
A mention becomes a link, and the turn is aborted before the link is refused.
-/
theorem not_steersCleanly_mention
    : bridgePrompt (fun _ => none) (turnInput mention) = .ok [.resourceLink "/notes.txt" "/notes.txt" none []]
      ∧ openCodePromptParts [.resourceLink "/notes.txt" "/notes.txt" none []] = .error .unsupportedContent
      ∧ SessionState.running.generationState = .active 1
      ∧ (steer plainUrls localContext obligingServer .running "run" "turn" 1
          [.resourceLink "/notes.txt" "/notes.txt" none []]).toOption.map
            (fun outcome => (outcome.requests, outcome.session.generationState))
        = some ([.abort "http://localhost:4096/session/source/abort?directory=project"], .terminal) := by
  refine ⟨?_, ?_, rfl, ?_⟩
  . have hinput : ((turnInput mention).get "input").bind Json.asArray = some [mention] := rfl
    unfold bridgePrompt
    rw [hinput]
    dsimp only
    rw [List.mapM_cons, promptBlock_mention]
    rfl
  . exact openCodePromptParts_of_not_text List.mem_cons_self (by decide)
  . decide +kernel

end Session
