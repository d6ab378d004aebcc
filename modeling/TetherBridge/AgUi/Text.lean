import TetherBridge.AgUi.WellFormed
import TetherBridge.Snapshot.Messages

/-!
This module contains the two places a text chunk goes to: the live stream and the snapshot of its session.
Both bound the text of a message on their own, and for a message that began in the run and has been live
since they carry the same text.
-/

namespace AgUi

open Acp Snapshot Transition

variable (x : Crates)

/--
What `acp/handlers.rs` adds to a text it has cut.
-/
def truncationBlock : Json :=
  .object
    [("type", .string "truncation"),
      ("truncated", .bool true),
      ("maxBytes", natJson MAX_MESSAGE_TOTAL_BYTES)]

structure TextChunk where
  agentId : String
  runId : Option String
  sourceTurnId : Option String
  generation : Option Nat
  role : MessageRole
  messageId : String
  content : String
  cut : Bool

def TextChunk.block (chunk : TextChunk) : Option Json :=
  if chunk.cut then some truncationBlock else none

def TextChunk.event (threadId : String) (chunk : TextChunk) : CanonicalEvent :=
  .messageChunk chunk.agentId threadId chunk.runId chunk.sourceTurnId chunk.generation chunk.role
    chunk.messageId chunk.content chunk.block

/-! What the stream and the snapshot say about a message -/

def AgUiEvent.delta? (messageId : String) : AgUiEvent → Option String
  | .textMessageContent id delta => if id = messageId then some delta else none
  | .reasoningMessageContent id delta => if id = messageId then some delta else none
  | _ => none

def AgUiEvent.announcesTruncation (messageId : String) : AgUiEvent → Bool
  | .custom name value =>
    name == "dappercode.dev/transcript-truncated"
      && (value.get "canonicalId").bind Json.asStr == some messageId
  | _ => false

/--
The text a client has received for the message.
-/
def deltas (threadId messageId : String) (events : List AgUiEventEnvelope) : String :=
  String.join (events.filterMap fun envelope =>
    if envelope.threadId = threadId then envelope.event.delta? messageId else none)

def announced (threadId messageId : String) (events : List AgUiEventEnvelope) : Bool :=
  events.any fun envelope =>
    decide (envelope.threadId = threadId) && envelope.event.announcesTruncation messageId

def storedText (message : SnapshotMessage) : String :=
  String.join (message.parts.filterMap partText)

/-! A session with its stream -/

structure LiveSession where
  projector : AgUiProjector
  snapshot : SessionSnapshot
  output : List AgUiEventEnvelope := []
  fed : List TextChunk := []

namespace LiveSession

def step (threadId : String) (s : LiveSession) (chunk : TextChunk) : Option LiveSession :=
  (s.snapshot.apply (chunk.event threadId)).toOption.map fun snapshot =>
    let (projector, events) := s.projector.projectCanonical x (chunk.event threadId)
    { projector, snapshot, output := s.output ++ events, fed := s.fed ++ [chunk] }

variable (s : LiveSession)

def isLive (messageId : String) : Bool :=
  s.snapshot.messages.any (·.id == messageId)

def isFed (messageId : String) : Bool :=
  s.fed.any (·.messageId == messageId)

def isCut (messageId : String) : Bool :=
  s.fed.any fun chunk => chunk.messageId == messageId && chunk.cut

/--
The first chunk of the message finds it absent from the live window, and each later one finds it there
and not cut.
-/
def Continues (messageId : String) (s : LiveSession) (chunk : TextChunk) : Prop :=
  chunk.messageId = messageId →
    s.isLive messageId = s.isFed messageId ∧ s.isCut messageId = false

/--
A message of the run that is live has the text that was streamed for it, and is truncated if and only if
that was announced.
-/
def SameText (threadId messageId : String) : Prop :=
  s.isFed messageId → ∀ message ∈ s.snapshot.messages, message.id = messageId →
    storedText message = deltas threadId messageId s.output
      ∧ message.truncated = announced threadId messageId s.output

instance (messageId : String) (s : LiveSession) (chunk : TextChunk)
    : Decidable (s.Continues messageId chunk) :=
  inferInstanceAs (Decidable (_ → _))

instance (threadId messageId : String) : Decidable (s.SameText threadId messageId) :=
  inferInstanceAs (Decidable (_ → _))

end LiveSession

/-! Texts that are cut into chunks -/

theorem toList_join (texts : List String)
    : (String.join texts).toList = (texts.map String.toList).flatten := by
  induction texts with
  | nil => rfl
  | cons text texts ih => simp [ih]

theorem join_append (texts texts' : List String)
    : String.join (texts ++ texts') = String.join texts ++ String.join texts' := by
  apply String.toList_inj.mp
  simp [toList_join]

theorem flatten_utf8Chunks {maxBytes : Nat} (hmax : 4 ≤ maxBytes) {rounds : Nat} {value : List Char}
    (hrounds : value.length ≤ rounds)
    : (utf8Chunks maxBytes rounds value).flatten = value := by
  induction rounds generalizing value with
  | zero =>
    rw [Nat.le_zero, List.length_eq_zero_iff] at hrounds
    rw [hrounds]
    rfl
  | succ rounds ih =>
    unfold utf8Chunks
    split
    . next hempty =>
      rw [List.isEmpty_iff] at hempty
      rw [hempty]
      rfl
    . next hempty =>
      rw [List.isEmpty_iff] at hempty
      have hne := Text.takeBytes_ne_nil hmax hempty
      have hpos := List.length_pos_of_ne_nil hne
      have hsplit := List.prefix_iff_eq_append.mp (Text.takeBytes_prefix maxBytes value)
      dsimp only
      rw [List.flatten_cons, ih]
      . exact hsplit
      . rw [List.length_drop]
        omega

theorem join_chunks {maxBytes : Nat} (hmax : 4 ≤ maxBytes) (value : String)
    : String.join (chunks maxBytes value) = value := by
  apply String.toList_inj.mp
  have hflatten := flatten_utf8Chunks hmax (Nat.le_of_eq (String.length_toList (s := value)))
  unfold chunks
  rw [toList_join, List.map_map]
  have hid : (String.toList ∘ String.ofList) = (id : List Char → List Char) := by
    funext chars
    exact String.toList_ofList
  rw [hid, List.map_id]
  exact hflatten

/--
Both sides bound a text that grows in the same way.
-/
theorem boundedAppend_eq {text : String} {max : Nat} (h : text.utf8ByteSize ≤ max) (content : String)
    : boundedAppend text content max
        =
      (text ++ bound content (max - text.utf8ByteSize),
        decide ((bound content (max - text.utf8ByteSize)).utf8ByteSize < content.utf8ByteSize)) := by
  unfold boundedAppend
  split
  . next hfull =>
    have hnone : max - text.utf8ByteSize = 0 := by omega
    have hbound : bound content 0 = "" := by
      rw [← String.utf8ByteSize_eq_zero_iff]
      exact Nat.le_zero.mp (utf8ByteSize_bound_le content 0)
    have htext : bound text max = text := if_neg (by omega)
    rw [hnone, hbound, htext, String.append_empty]
    congr 1
    rw [Bool.eq_iff_iff, Bool.not_eq_true', decide_eq_true_eq, String.utf8ByteSize_empty,
      Nat.pos_iff_ne_zero, ne_eq, String.utf8ByteSize_eq_zero_iff, ← Bool.not_eq_true,
      String.isEmpty_iff]
  . rfl

/-! What a chunk adds to the stream -/

/--
Events that neither carry text nor announce a truncation.
-/
def Wordless (events : List AgUiEvent) : Prop :=
  ∀ event ∈ events, ∀ messageId, event.delta? messageId = none ∧ ¬event.announcesTruncation messageId

theorem wordless_nil : Wordless [] := by
  intro event hevent
  contradiction

theorem Wordless.append {events events' : List AgUiEvent} (h : Wordless events)
    (h' : Wordless events')
    : Wordless (events ++ events') := by
  intro event hevent
  rw [List.mem_append] at hevent
  cases hevent with
  | inl hevent => exact h event hevent
  | inr hevent => exact h' event hevent

theorem wordless_structuredChunks (canonicalId : String) (value : Json)
    : Wordless (structuredChunks x "dappercode.dev/message-content" canonicalId value) := by
  intro event hevent messageId
  unfold structuredChunks at hevent
  dsimp only at hevent
  split at hevent
  . rw [List.mem_singleton] at hevent
    rw [hevent]
    exact ⟨rfl, Bool.false_ne_true⟩
  . rw [List.mem_map] at hevent
    rcases hevent with ⟨piece, -, rfl⟩
    exact ⟨rfl, Bool.false_ne_true⟩

theorem wordless_textMessageEnd (id : Option String) : Wordless (AgUiRunState.textMessageEnd id) := by
  intro event hevent messageId
  unfold AgUiRunState.textMessageEnd at hevent
  simp only [Option.mem_toList, Option.map_eq_some_iff] at hevent
  rcases hevent with ⟨id, -, rfl⟩
  exact ⟨rfl, Bool.false_ne_true⟩

theorem wordless_reasoningMessageEnd (id : Option String)
    : Wordless (AgUiRunState.reasoningMessageEnd id) := by
  intro event hevent messageId
  unfold AgUiRunState.reasoningMessageEnd at hevent
  simp only [Option.mem_toList, Option.map_eq_some_iff] at hevent
  rcases hevent with ⟨id, -, rfl⟩
  exact ⟨rfl, Bool.false_ne_true⟩

theorem wordless_openMessage (run : AgUiRunState) (role : MessageRole) (messageId : String)
    : Wordless (run.openMessage role messageId).2 := by
  have hstart : ∀ event, (∃ id, event = .textMessageStart messageId id
      ∨ event = .reasoningMessageStart messageId id) → Wordless [event] := by
    rintro event ⟨id, rfl | rfl⟩ other hother messageId <;>
    . rw [List.mem_singleton] at hother
      rw [hother]
      exact ⟨rfl, Bool.false_ne_true⟩
  unfold AgUiRunState.openMessage
  cases role with
  | agent =>
    apply (wordless_textMessageEnd run.openUserId).append
    split
    . exact wordless_nil
    . exact (wordless_textMessageEnd run.openMessageId).append (hstart _ ⟨_, .inl rfl⟩)
  | thought =>
    dsimp only
    split
    . exact wordless_nil
    . exact (wordless_reasoningMessageEnd run.openReasoningId).append (hstart _ ⟨_, .inr rfl⟩)
  | user =>
    dsimp only
    split
    . exact wordless_nil
    . exact (wordless_textMessageEnd run.openUserId).append (hstart _ ⟨_, .inl rfl⟩)

/--
What the events say about the text of a message: the deltas, and whether its truncation is announced.
-/
structure Says (messageId : String) (events : List AgUiEvent) (text : String) (truncation : Bool)
    : Prop where
  text : String.join (events.filterMap (·.delta? messageId)) = text
  truncation : events.any (·.announcesTruncation messageId) = truncation

theorem Wordless.isSilent {events : List AgUiEvent} (h : Wordless events) (messageId : String)
    : Says messageId events "" false := by
  constructor
  . have hnone : events.filterMap (·.delta? messageId) = [] := by
      rw [List.filterMap_eq_nil_iff]
      intro event hevent
      exact (h event hevent messageId).1
    rw [hnone]
    rfl
  . rw [List.any_eq_false]
    intro event hevent
    exact (h event hevent messageId).2

theorem Says.append {messageId : String} {events events' : List AgUiEvent} {text text' : String}
    {truncation truncation' : Bool} (h : Says messageId events text truncation)
    (h' : Says messageId events' text' truncation')
    : Says messageId (events ++ events') (text ++ text') (truncation || truncation') := by
  constructor
  . rw [List.filterMap_append, join_append, h.text, h'.text]
  . rw [List.any_append, h.truncation, h'.truncation]

theorem says_messageChunks (reasoning : Bool) (messageId other content : String)
    : Says other (messageChunks reasoning messageId content)
        (if messageId = other then content else "") false := by
  have hannounces : (messageChunks reasoning messageId content).any (·.announcesTruncation other)
      = false := by
    rw [List.any_eq_false]
    intro event hevent
    unfold messageChunks at hevent
    rw [List.mem_map] at hevent
    rcases hevent with ⟨chunk, -, rfl⟩
    cases reasoning <;> exact Bool.false_ne_true
  refine ⟨?_, hannounces⟩
  unfold messageChunks
  rw [List.filterMap_map]
  have hdelta : ((·.delta? other) ∘ fun chunk =>
      if reasoning then AgUiEvent.reasoningMessageContent messageId chunk
      else .textMessageContent messageId chunk)
      = fun chunk => if messageId = other then some chunk else none := by
    funext chunk
    cases reasoning <;> rfl
  rw [hdelta]
  split
  . rw [List.filterMap_some]
    exact join_chunks (by decide) content
  . rw [List.filterMap_none]
    rfl

theorem says_transcriptTruncation (messageId other : String) (maxBytes : Nat)
    : Says other [transcriptTruncation messageId maxBytes] "" (decide (messageId = other)) := by
  refine ⟨rfl, ?_⟩
  rw [Bool.eq_iff_iff]
  simp [transcriptTruncation, AgUiEvent.announcesTruncation, Json.get, Json.asStr, List.lookup_nil, List.lookup_cons]

namespace AgUiRunState

/--
The part of a chunk that still fits into its message.
-/
def fitting (run : AgUiRunState) (messageId content : String) : String :=
  bound content (MAX_MESSAGE_TOTAL_BYTES - run.messageBytes messageId)

/--
Whether a chunk is the first of its message that is truncated.
-/
def truncates (run : AgUiRunState) (messageId content : String) (contentBlock : Option Json) : Bool :=
  !run.truncatedMessages.contains messageId
    && (decide ((run.fitting messageId content).utf8ByteSize < content.utf8ByteSize)
      || isTruncatedBlock contentBlock)

/--
What a chunk leaves of the state of its run.
-/
structure Takes (run : AgUiRunState) (messageId content : String) (contentBlock : Option Json)
    (run' : AgUiRunState) : Prop where
  runId : run'.runId = run.runId
  sourceTurnId : run'.sourceTurnId = run.sourceTurnId
  messageBytes : run'.messageBytes = update run.messageBytes messageId
    (saturatingAdd USIZE_MAX (run.messageBytes messageId)
      (run.fitting messageId content).utf8ByteSize)
  truncatedMessages : run'.truncatedMessages
    = if run.truncates messageId content contentBlock then messageId :: run.truncatedMessages
      else run.truncatedMessages

variable {x}

theorem openMessage_takes {run run' : AgUiRunState} {messageId content : String}
    {contentBlock : Option Json} (h : run.Takes messageId content contentBlock run')
    (role : MessageRole)
    : run.Takes messageId content contentBlock (run'.openMessage role messageId).1 := by
  unfold openMessage
  cases role <;> exact ⟨h.runId, h.sourceTurnId, h.messageBytes, h.truncatedMessages⟩

theorem wordless_blockEvents (role : MessageRole) (messageId : String) (contentBlock : Option Json)
    : Wordless (blockEvents x role messageId contentBlock) := by
  cases contentBlock with
  | none => exact wordless_nil
  | some contentBlock => exact wordless_structuredChunks x messageId _

/--
The message is marked truncated by its text, or else by its block, but only once.
-/
theorem boundedLiveContent_truncates (run : AgUiRunState) (messageId content : String)
    (contentBlock : Option Json)
    : let bounded := run.boundedLiveContent messageId content
      let blockTruncated := !bounded.2.2 && isTruncatedBlock contentBlock
        && !bounded.1.truncatedMessages.contains messageId
      (bounded.2.2 || blockTruncated) = run.truncates messageId content contentBlock
        ∧ (if blockTruncated then messageId :: bounded.1.truncatedMessages
            else bounded.1.truncatedMessages)
          = if run.truncates messageId content contentBlock then messageId :: run.truncatedMessages
            else run.truncatedMessages := by
  unfold boundedLiveContent truncates fitting
  dsimp only
  by_cases hknown : messageId ∈ run.truncatedMessages
  . simp [hknown]
  . by_cases hcut : (bound content (MAX_MESSAGE_TOTAL_BYTES
        - run.messageBytes messageId)).utf8ByteSize < content.utf8ByteSize
    . simp [hknown, hcut]
    . simp [hknown, hcut]

theorem projectChunk_says (run : AgUiRunState) (role : MessageRole) (messageId content : String)
    (contentBlock : Option Json) (other : String)
    : let result := run.projectChunk x role messageId content contentBlock
      run.Takes messageId content contentBlock result.1
        ∧ Says other result.2 (if messageId = other then run.fitting messageId content else "")
          (decide (messageId = other) && run.truncates messageId content contentBlock) := by
  have htruncates := run.boundedLiveContent_truncates messageId content contentBlock
  have hbytes : (run.boundedLiveContent messageId content).1.messageBytes
      = update run.messageBytes messageId (saturatingAdd USIZE_MAX (run.messageBytes messageId)
        (run.fitting messageId content).utf8ByteSize) := rfl
  have hfitting : (run.boundedLiveContent messageId content).2.1 = run.fitting messageId content := rfl
  have hrunId : (run.boundedLiveContent messageId content).1.runId = run.runId := rfl
  have hturnId : (run.boundedLiveContent messageId content).1.sourceTurnId = run.sourceTurnId := rfl
  unfold projectChunk
  dsimp only at htruncates ⊢
  generalize run.boundedLiveContent messageId content = bounded at *
  rcases htruncates with ⟨hnewly, hlist⟩
  rw [hnewly, hfitting]
  constructor
  . apply openMessage_takes
    split
    . next hblock =>
      rw [if_pos hblock] at hlist
      exact ⟨hrunId, hturnId, hbytes, hlist⟩
    . next hblock =>
      rw [if_neg hblock] at hlist
      exact ⟨hrunId, hturnId, hbytes, hlist⟩
  . have htruncation : Says other (if run.truncates messageId content contentBlock then
        [transcriptTruncation messageId MAX_MESSAGE_TOTAL_BYTES] else []) ""
        (decide (messageId = other) && run.truncates messageId content contentBlock) := by
      split
      . next htrue =>
        rw [htrue, Bool.and_true]
        exact says_transcriptTruncation messageId other _
      . next hfalse =>
        rw [Bool.not_eq_true] at hfalse
        rw [hfalse, Bool.and_false]
        exact wordless_nil.isSilent other
    have hcontents : Says other (if (run.fitting messageId content).isEmpty then []
        else messageChunks (role == .thought) messageId (run.fitting messageId content))
        (if messageId = other then run.fitting messageId content else "") false := by
      split
      . next hempty =>
        rw [String.isEmpty_iff] at hempty
        rw [hempty, ite_self]
        exact wordless_nil.isSilent other
      . exact says_messageChunks _ messageId other _
    have hopening (marked : AgUiRunState) := ((((wordless_blockEvents (x := x) role messageId
      contentBlock).isSilent other).append htruncation).append
      ((wordless_openMessage marked role messageId).isSilent other)).append hcontents
    simp only [String.empty_append, Bool.false_or, Bool.or_false] at hopening
    exact hopening _

/--
A message without text to come is left as it is.
-/
theorem fitting_empty (run : AgUiRunState) (messageId : String) : run.fitting messageId "" = "" :=
  rfl

theorem truncates_empty (run : AgUiRunState) (messageId : String)
    : run.truncates messageId "" none = false := by
  unfold truncates
  rw [fitting_empty]
  exact Bool.and_false _

end AgUiRunState

theorem deltas_append (threadId messageId : String) (events events' : List AgUiEventEnvelope)
    : deltas threadId messageId (events ++ events')
        =
      deltas threadId messageId events ++ deltas threadId messageId events' := by
  unfold deltas
  rw [List.filterMap_append, join_append]

theorem announced_append (threadId messageId : String) (events events' : List AgUiEventEnvelope)
    : announced threadId messageId (events ++ events')
        =
      (announced threadId messageId events || announced threadId messageId events') :=
  List.any_append

theorem Says.stream {messageId : String} {events : List AgUiEvent} {text : String}
    {truncation : Bool} (h : Says messageId events text truncation) (run : AgUiRunState)
    (threadId : String)
    : deltas threadId messageId (events.map (run.envelope threadId)) = text
        ∧ announced threadId messageId (events.map (run.envelope threadId)) = truncation := by
  constructor
  . rw [← h.text]
    unfold deltas
    rw [List.filterMap_map]
    congr 2
    funext event
    exact if_pos rfl
  . rw [← h.truncation]
    unfold announced
    rw [List.any_map]
    congr 1
    funext event
    simp [AgUiRunState.envelope]

/--
The card of a sub-agent carries no text of a message.
-/
theorem activity_wordless (link : SubagentActivityLink) (status latest threadId messageId : String)
    : deltas threadId messageId [link.activity status latest] = ""
        ∧ announced threadId messageId [link.activity status latest] = false := by
  have hdelta : (link.activity status latest).event.delta? messageId = none := rfl
  have hannounces : (link.activity status latest).event.announcesTruncation messageId = false := rfl
  constructor
  . simp [deltas, hdelta]
  . simp [announced, hannounces]

namespace AgUiProjector

variable {x} {s : AgUiProjector} {threadId : String} {run : AgUiRunState}

/--
As long as the sub-agent is running, its progress carries no text of a message.
-/
theorem projectSubagentProgress_wordless (s : AgUiProjector) {canonical : CanonicalEvent}
    (hrunning : ∀ progress, subagentProgress canonical = some progress → progress.status = "running")
    (threadId messageId : String)
    : deltas threadId messageId (s.projectSubagentProgress canonical).2 = ""
        ∧ announced threadId messageId (s.projectSubagentProgress canonical).2 = false := by
  unfold projectSubagentProgress
  split
  . exact ⟨rfl, rfl⟩
  . split
    . exact ⟨rfl, rfl⟩
    . dsimp only
      split
      . exact ⟨rfl, rfl⟩
      . unfold applyProgress
        split
        . exact ⟨rfl, rfl⟩
        . next progress hprogress =>
          have hterminal : isTerminalSubagentStatus progress.status = false := by
            rw [hrunning progress hprogress]
            decide
          unfold renderProgress
          dsimp only
          rw [hterminal]
          generalize (if (canonicalChildRunCorrelation canonical).2.2 = true then _ else _) = current
          split
          . exact ⟨rfl, rfl⟩
          . split
            . exact ⟨rfl, rfl⟩
            . exact activity_wordless _ _ _ threadId messageId

theorem projectMessage_receives (hrun : s.runs threadId = some run) {chunk : TextChunk}
    (haccepts : run.accepts chunk.runId chunk.sourceTurnId)
    : s.projectMessage x threadId chunk.runId chunk.sourceTurnId chunk.role chunk.messageId
        chunk.content chunk.block
        =
      if chunk.content.isEmpty && !chunk.cut then
        (s, [])
      else
        let (projected, events) := run.projectChunk x chunk.role chunk.messageId chunk.content
          chunk.block
        ({ s with runs := update s.runs threadId (some projected) },
          events.map (run.envelope threadId)) := by
  have hobserves : s.observes threadId chunk.runId chunk.sourceTurnId = false := by
    simp [observes, hrun]
  have hnone : chunk.block.isNone = !chunk.cut := by
    unfold TextChunk.block
    cases chunk.cut <;> rfl
  unfold projectMessage ensureObservedRun
  rw [hobserves, hnone]
  split
  . rfl
  . dsimp only [Bool.false_eq_true, ↓reduceIte]
    simp [hrun, Option.filter, haccepts]

/--
What a chunk of the run does to the state of a message and to its stream.
-/
structure Streams (threadId messageId : String) (run : AgUiRunState) (chunk : TextChunk)
    (run' : AgUiRunState) (events : List AgUiEventEnvelope) : Prop where
  runId : run'.runId = run.runId
  sourceTurnId : run'.sourceTurnId = run.sourceTurnId
  other : chunk.messageId ≠ messageId →
    run'.messageBytes messageId = run.messageBytes messageId
      ∧ run'.truncatedMessages.contains messageId = run.truncatedMessages.contains messageId
      ∧ deltas threadId messageId events = ""
      ∧ announced threadId messageId events = false
  same : chunk.messageId = messageId → run.messageBytes messageId ≤ MAX_MESSAGE_TOTAL_BYTES →
    run'.messageBytes messageId
        = run.messageBytes messageId + (run.fitting messageId chunk.content).utf8ByteSize
      ∧ run'.truncatedMessages.contains messageId = (run.truncatedMessages.contains messageId
        || run.truncates messageId chunk.content chunk.block)
      ∧ deltas threadId messageId events = run.fitting messageId chunk.content
      ∧ announced threadId messageId events = run.truncates messageId chunk.content
        chunk.block

theorem streams_chunk (run : AgUiRunState) (threadId messageId : String) (chunk : TextChunk)
    : let result := run.projectChunk x chunk.role chunk.messageId chunk.content
        chunk.block
      Streams threadId messageId run chunk result.1 (result.2.map (run.envelope threadId)) := by
  have hsays := run.projectChunk_says (x := x) chunk.role chunk.messageId chunk.content
    chunk.block messageId
  dsimp only at hsays ⊢
  rcases hsays with ⟨htakes, hsays⟩
  have hstream := hsays.stream run threadId
  refine ⟨htakes.runId, htakes.sourceTurnId, ?_, ?_⟩
  . intro hne
    rw [if_neg hne, decide_eq_false hne, Bool.false_and] at hstream
    refine ⟨?_, ?_, hstream⟩
    . rw [htakes.messageBytes, update_of_ne (Ne.symm hne)]
    . rw [htakes.truncatedMessages]
      split
      . rw [List.contains_cons, beq_eq_false_iff_ne.mpr (Ne.symm hne), Bool.false_or]
      . rfl
  . rintro rfl hbytes
    rw [if_pos rfl, decide_eq_true rfl, Bool.true_and] at hstream
    refine ⟨?_, ?_, hstream⟩
    . have hfits := utf8ByteSize_bound_le chunk.content
        (MAX_MESSAGE_TOTAL_BYTES - run.messageBytes chunk.messageId)
      have hmax : MAX_MESSAGE_TOTAL_BYTES ≤ USIZE_MAX := by decide
      rw [htakes.messageBytes, update_self]
      apply saturatingAdd_of_le
      unfold AgUiRunState.fitting
      omega
    . rw [htakes.truncatedMessages]
      split
      . next htruncates => rw [List.contains_cons, beq_self_eq_true, htruncates, Bool.or_true, Bool.true_or]
      . next htruncates =>
        rw [Bool.not_eq_true] at htruncates
        rw [htruncates, Bool.or_false]

theorem Streams.refl (run : AgUiRunState) (threadId messageId : String) {chunk : TextChunk}
    (hempty : chunk.content = "") (hcut : chunk.cut = false)
    : Streams threadId messageId run chunk run [] := by
  have hblock : chunk.block = none := by
    unfold TextChunk.block
    rw [hcut]
    rfl
  refine ⟨rfl, rfl, fun _ => ⟨rfl, rfl, rfl, rfl⟩, ?_⟩
  intro _ _
  rw [hempty, hblock, AgUiRunState.fitting_empty, AgUiRunState.truncates_empty, Bool.or_false]
  exact ⟨rfl, rfl, rfl, rfl⟩

/--
The progress of a sub-agent may be shown before the chunk.
-/
theorem Streams.after {run' : AgUiRunState} {messageId : String} {chunk : TextChunk}
    {progress events : List AgUiEventEnvelope} (h : Streams threadId messageId run chunk run' events)
    (hprogress : deltas threadId messageId progress = ""
      ∧ announced threadId messageId progress = false)
    : Streams threadId messageId run chunk run' (progress ++ events) := by
  refine ⟨h.runId, h.sourceTurnId, ?_, ?_⟩
  . rw [deltas_append, announced_append, hprogress.1, hprogress.2, String.empty_append, Bool.false_or]
    exact h.other
  . rw [deltas_append, announced_append, hprogress.1, hprogress.2, String.empty_append, Bool.false_or]
    exact h.same

theorem projectCanonical_streams (hrun : s.runs threadId = some run) {chunk : TextChunk}
    (haccepts : run.accepts chunk.runId chunk.sourceTurnId) (messageId : String)
    : let result := s.projectCanonical x (chunk.event threadId)
      ∃ run', result.1.runs threadId = some run'
        ∧ Streams threadId messageId run chunk run' result.2 := by
  have hrunning : ∀ progress, subagentProgress (chunk.event threadId) = some progress →
      progress.status = "running" := fun progress => messageProgress_running
  have hsame := s.projectSubagentProgress_sameRuns hrunning
  have hprogress := s.projectSubagentProgress_wordless hrunning threadId messageId
  have hmessage := projectMessage_receives (x := x) (hsame.runs ▸ hrun) haccepts
  unfold TextChunk.event at hsame hprogress hmessage ⊢
  unfold projectCanonical projectEvent
  dsimp only
  rw [hmessage]
  split
  . next hempty =>
    rw [Bool.and_eq_true, String.isEmpty_iff, Bool.not_eq_true'] at hempty
    exact ⟨run, hsame.runs ▸ hrun, (Streams.refl run threadId messageId hempty.1 hempty.2).after hprogress⟩
  . exact ⟨_, update_self _ _ _, (streams_chunk run threadId messageId chunk).after hprogress⟩

end AgUiProjector

/-! What a chunk adds to the message of the snapshot -/

theorem storedText_nil {message : SnapshotMessage} (h : message.parts = [])
    : storedText message = "" := by
  unfold storedText
  rw [h]
  rfl

theorem join_singleton (text : String) : String.join [text] = text := by
  apply String.toList_inj.mp
  simp [toList_join]

/--
The parts of a message whose chunks were all text.
-/
def IsText (parts : List Json) (text : String) : Prop :=
  (parts = [] ∧ text = "") ∨ parts = [textPart text]

theorem IsText.join {parts : List Json} {text : String} (h : IsText parts text)
    : String.join (parts.filterMap partText) = text := by
  cases h with
  | inl h =>
    rw [h.1, h.2]
    rfl
  | inr h =>
    rw [h, List.filterMap_cons, partText_textPart]
    exact join_singleton text

theorem IsText.length_le {parts : List Json} {text : String} (h : IsText parts text)
    : parts.length ≤ 1 := by
  cases h with
  | inl h =>
    rw [h.1]
    exact Nat.zero_le 1
  | inr h =>
    rw [h]
    exact Nat.le_refl 1

/--
The text of a message grows by as much of the chunk as fits.
-/
theorem appendMessageText_isText {parts : List Json} {text : String} (h : IsText parts text)
    (hsize : text.utf8ByteSize ≤ MAX_TEXT_BYTES) (content : String)
    : let fitting := bound content (MAX_TEXT_BYTES - text.utf8ByteSize)
      IsText (appendMessageText parts content).1 (text ++ fitting)
        ∧ (appendMessageText parts content).2
          = decide (fitting.utf8ByteSize < content.utf8ByteSize) := by
  dsimp only
  by_cases hempty : content = ""
  . subst hempty
    have hnone : bound "" (MAX_TEXT_BYTES - text.utf8ByteSize) = "" := rfl
    rw [hnone, String.append_empty]
    exact ⟨h, rfl⟩
  . have hsaid : ¬content.isEmpty = true := by
      rw [String.isEmpty_iff]
      exact hempty
    unfold appendMessageText
    rw [if_neg hsaid]
    cases h with
    | inl h =>
      have hroom : ¬parts.length ≥ MAX_MESSAGE_PARTS := by
        rw [h.1]
        decide
      rw [h.2, String.utf8ByteSize_empty, Nat.sub_zero, String.empty_append]
      rw [h.1] at hroom ⊢
      exact ⟨.inr rfl, rfl⟩
    | inr h =>
      rw [h, List.getLast?_singleton, Option.bind_some, partText_textPart]
      dsimp only
      rw [boundedAppend_eq hsize]
      exact ⟨.inr rfl, rfl⟩

theorem appendStructuredPart_truncationBlock {parts : List Json} (h : parts.length ≤ 1)
    : (appendStructuredPart parts truncationBlock).1 = parts ++ [truncationBlock] := by
  have hroom : ¬parts.length ≥ MAX_MESSAGE_PARTS := by
    have hparts : MAX_MESSAGE_PARTS = 64 := rfl
    omega
  unfold appendStructuredPart
  rw [if_neg hroom]
  rfl

/-! A message of the run -/

namespace LiveSession

variable {x} {threadId messageId : String} {run run' : AgUiRunState} {s s' : LiveSession}

/--
The run and the message agree on how much text there is.
-/
structure Grows (messageId : String) (run : AgUiRunState) (message : SnapshotMessage) (text : String)
    : Prop where
  parts : IsText message.parts text
  bytes : run.messageBytes messageId = text.utf8ByteSize
  le : text.utf8ByteSize ≤ MAX_MESSAGE_TOTAL_BYTES
  truncated : run.truncatedMessages.contains messageId = message.truncated

structure Agrees (threadId messageId : String) (run : AgUiRunState) (s : LiveSession)
    (message : SnapshotMessage) : Prop where
  text : storedText message = deltas threadId messageId s.output
  truncated : message.truncated = announced threadId messageId s.output
  grows : s.isCut messageId = false →
    Grows messageId run message (deltas threadId messageId s.output)

structure Carries (threadId messageId : String) (run : AgUiRunState) (s : LiveSession) : Prop where
  unfed : s.isFed messageId = false →
    run.messageBytes messageId = 0
      ∧ run.truncatedMessages.contains messageId = false
      ∧ s.isCut messageId = false
      ∧ deltas threadId messageId s.output = ""
      ∧ announced threadId messageId s.output = false
  fed : s.isFed messageId = true →
    s.snapshot.messagesOf messageId = []
      ∨ ∃ message, s.snapshot.messagesOf messageId = [message]
        ∧ Agrees threadId messageId run s message

theorem isLive_eq_false_iff : s.isLive messageId = false ↔ s.snapshot.messagesOf messageId = [] := by
  unfold isLive SessionSnapshot.messagesOf
  rw [List.any_eq_false, List.filter_eq_nil_iff]

/--
A message that began in the run starts out with nothing.
-/
theorem Carries.grows_blank (h : Carries threadId messageId run s)
    (hfed : s.isFed messageId = false) (role : MessageRole)
    : Grows messageId run (SessionSnapshot.blankMessage messageId role)
        (deltas threadId messageId s.output) := by
  rcases h.unfed hfed with ⟨hbytes, htruncated, -, hdeltas, -⟩
  rw [hdeltas]
  exact ⟨.inl ⟨rfl, rfl⟩, hbytes, Nat.zero_le _, htruncated⟩

/--
A chunk adds the same to the stream as to the message.
-/
theorem Grows.step {message : SnapshotMessage} {text : String} (h : Grows messageId run message text)
    {chunk : TextChunk} {events : List AgUiEventEnvelope}
    (hstreams : AgUiProjector.Streams threadId messageId run chunk run' events)
    (hid : chunk.messageId = messageId)
    : let message' := SessionSnapshot.withChunk message chunk.content chunk.block
      storedText message' = text ++ deltas threadId messageId events
        ∧ message'.truncated = (message.truncated || announced threadId messageId events)
        ∧ (chunk.cut = false →
          Grows messageId run' message' (text ++ deltas threadId messageId events)) := by
  have hbytes : run.messageBytes messageId ≤ MAX_MESSAGE_TOTAL_BYTES := by
    rw [h.bytes]
    exact h.le
  rcases hstreams.same hid hbytes with ⟨hbytes', htruncated', hdeltas, hannounced⟩
  have hfitting : run.fitting messageId chunk.content
      = bound chunk.content (MAX_TEXT_BYTES - text.utf8ByteSize) := by
    unfold AgUiRunState.fitting
    rw [h.bytes]
    rfl
  have happend := appendMessageText_isText h.parts h.le chunk.content
  have hfits := utf8ByteSize_bound_le chunk.content (MAX_TEXT_BYTES - text.utf8ByteSize)
  dsimp only at happend ⊢
  rw [hdeltas, hannounced, hfitting]
  unfold AgUiRunState.truncates at htruncated' ⊢
  rw [hfitting] at htruncated' ⊢
  rw [h.truncated] at htruncated' ⊢
  unfold SessionSnapshot.withChunk appendChunk
  generalize appendMessageText message.parts chunk.content = appended at happend ⊢
  cases hcut : chunk.cut with
  | false =>
    have hblock : chunk.block = none := by
      unfold TextChunk.block
      rw [hcut]
      rfl
    have hnone : AgUiRunState.isTruncatedBlock none = false := rfl
    rw [hblock, hnone, Bool.or_false] at htruncated' ⊢
    dsimp only
    rw [happend.2]
    refine ⟨happend.1.join, ?_, ?_⟩
    . cases message.truncated <;> rfl
    . intro _
      refine ⟨happend.1, ?_, ?_, ?_⟩
      . rw [hbytes', h.bytes, String.utf8ByteSize_append, hfitting]
      . have hmax : MAX_TEXT_BYTES = MAX_MESSAGE_TOTAL_BYTES := rfl
        have hle := h.le
        rw [String.utf8ByteSize_append]
        omega
      . rw [htruncated']
        cases message.truncated <;> rfl
  | true =>
    have hblock : chunk.block = some truncationBlock := by
      unfold TextChunk.block
      rw [hcut]
      rfl
    have hmarked : ((truncationBlock.get "truncated").bind Json.asBool).getD false = true := rfl
    have hsome : AgUiRunState.isTruncatedBlock (some truncationBlock) = true := rfl
    rw [hblock, hsome]
    dsimp only
    refine ⟨?_, ?_, ?_⟩
    . unfold storedText
      dsimp only
      rw [appendStructuredPart_truncationBlock happend.1.length_le, List.filterMap_append, join_append,
        happend.1.join]
      exact String.append_empty
    . rw [hmarked]
      cases message.truncated <;> simp
    . intro h
      contradiction

/-! Runs of chunks -/

theorem step_eq_some {chunk : TextChunk} (h : step x threadId s chunk = some s')
    : ∃ snapshot, s.snapshot.apply (chunk.event threadId) = .ok snapshot
        ∧ s' = { projector := (s.projector.projectCanonical x (chunk.event threadId)).1
                 snapshot
                 output := s.output ++ (s.projector.projectCanonical x (chunk.event threadId)).2
                 fed := s.fed ++ [chunk] } := by
  unfold step at h
  rw [Option.map_eq_some_iff] at h
  rcases h with ⟨snapshot, hok, rfl⟩
  rw [Except.toOption_eq_some] at hok
  exact ⟨snapshot, hok, rfl⟩

/--
A chunk of another message leaves the message as it is, or takes it out of the live window.
-/
theorem Carries.other (h : Carries threadId messageId run s) {chunk : TextChunk}
    (hne : chunk.messageId ≠ messageId) {events : List AgUiEventEnvelope}
    (hstreams : AgUiProjector.Streams threadId messageId run chunk run' events)
    {projector : AgUiProjector} {snapshot : SessionSnapshot}
    (hothers : snapshot.messagesOf messageId = s.snapshot.messagesOf messageId
      ∨ snapshot.messagesOf messageId = (s.snapshot.messagesOf messageId).tail)
    : Carries threadId messageId run'
        { projector, snapshot, output := s.output ++ events, fed := s.fed ++ [chunk] } := by
  rcases hstreams.other hne with ⟨hbytes, htruncated, hdeltas, hannounced⟩
  have hid : (chunk.messageId == messageId) = false := beq_eq_false_iff_ne.mpr hne
  have hfed : (s.fed ++ [chunk]).any (·.messageId == messageId) = s.isFed messageId := by
    simp [isFed, hid]
  have hcut : (s.fed ++ [chunk]).any (fun chunk => chunk.messageId == messageId && chunk.cut)
      = s.isCut messageId := by
    simp [isCut, hid]
  constructor
  . unfold isFed isCut
    dsimp only
    rw [hfed, hcut, hbytes, htruncated, deltas_append, announced_append, hdeltas, hannounced,
      String.append_empty, Bool.or_false]
    exact h.unfed
  . unfold isFed
    dsimp only
    rw [hfed]
    intro hisFed
    cases h.fed hisFed with
    | inl hgone =>
      left
      cases hothers with
      | inl heq => rw [heq, hgone]
      | inr heq => rw [heq, hgone]; rfl
    | inr hlive =>
      rcases hlive with ⟨message, honly, hagrees⟩
      cases hothers with
      | inl heq =>
        right
        refine ⟨message, heq.trans honly, ?_, ?_, ?_⟩
        . dsimp only
          rw [deltas_append, hdeltas, String.append_empty]
          exact hagrees.text
        . dsimp only
          rw [announced_append, hannounced, Bool.or_false]
          exact hagrees.truncated
        . unfold isCut
          dsimp only
          rw [hcut, deltas_append, hdeltas, String.append_empty]
          intro hnot
          have hgrows := hagrees.grows hnot
          exact ⟨hgrows.parts, hbytes.trans hgrows.bytes, hgrows.le, htruncated.trans hgrows.truncated⟩
      | inr heq =>
        left
        rw [heq, honly]
        rfl

/--
A chunk of the message adds to it what it adds to the stream.
-/
theorem Grows.carries {message : SnapshotMessage}
    (hgrows : Grows messageId run message (deltas threadId messageId s.output)) {chunk : TextChunk}
    (hid : chunk.messageId = messageId) {events : List AgUiEventEnvelope}
    (hstreams : AgUiProjector.Streams threadId messageId run chunk run' events)
    (htruncated : message.truncated = announced threadId messageId s.output) {projector : AgUiProjector} {snapshot : SessionSnapshot}
    (honly : snapshot.messagesOf messageId
      = [SessionSnapshot.withChunk message chunk.content chunk.block])
    : Carries threadId messageId run'
        { projector, snapshot, output := s.output ++ events, fed := s.fed ++ [chunk] } := by
  have hstep := hgrows.step hstreams hid
  dsimp only at hstep
  rcases hstep with ⟨htext, hmarked, hnext⟩
  have hbeq : (chunk.messageId == messageId) = true := beq_iff_eq.mpr hid
  constructor
  . intro hfed
    simp [isFed, hbeq] at hfed
  . intro _
    right
    refine ⟨_, honly, ?_, ?_, ?_⟩
    . dsimp only
      rw [deltas_append]
      exact htext
    . dsimp only
      rw [announced_append, hmarked, htruncated]
    . intro hstill
      dsimp only
      rw [deltas_append]
      apply hnext
      unfold isCut at hstill
      dsimp only at hstill
      rw [List.any_append, List.any_cons, hbeq, Bool.true_and, List.any_nil, Bool.or_false,
        Bool.or_eq_false_iff] at hstill
      exact hstill.2

/--
The run of the thread accepts the chunks, and carries the message.
-/
structure Follows (threadId messageId : String) (accepted : AgUiRunState) (s : LiveSession) : Prop where
  carried : ∃ run, s.projector.runs threadId = some run ∧ run.runId = accepted.runId
    ∧ run.sourceTurnId = accepted.sourceTurnId ∧ Carries threadId messageId run s

theorem accepts_congr (hrunId : run'.runId = run.runId) (hturnId : run'.sourceTurnId = run.sourceTurnId)
    (runId sourceTurnId : Option String)
    : run'.accepts runId sourceTurnId = run.accepts runId sourceTurnId := by
  unfold AgUiRunState.accepts
  rw [hrunId, hturnId]

theorem follows_step {accepted : AgUiRunState} {chunk : TextChunk}
    (h : Follows threadId messageId accepted s)
    (haccepts : accepted.accepts chunk.runId chunk.sourceTurnId)
    (hcontinues : s.Continues messageId chunk) (hstep : step x threadId s chunk = some s')
    : Follows threadId messageId accepted s' := by
  rcases h.carried with ⟨run, hrun, hrunId, hturnId, hcarries⟩
  rw [← accepts_congr hrunId hturnId] at haccepts
  rcases AgUiProjector.projectCanonical_streams (x := x) hrun haccepts messageId with
    ⟨run', hrun', hstreams⟩
  rcases step_eq_some hstep with ⟨snapshot, hok, rfl⟩
  have htakes := (SessionSnapshot.appendMessage_takesChunk s.snapshot chunk.messageId chunk.role
    chunk.content chunk.block).of_ok hok
  refine ⟨run', hrun', hstreams.runId.trans hrunId, hstreams.sourceTurnId.trans hturnId, ?_⟩
  by_cases hid : chunk.messageId = messageId
  . have hlive := hcontinues hid
    cases hfed : s.isFed messageId with
    | false =>
      rw [hfed, isLive_eq_false_iff] at hlive
      have hgrows := hcarries.grows_blank hfed chunk.role
      apply hgrows.carries hid hstreams (hcarries.unfed hfed).2.2.2.2.symm
      rw [← hid] at hlive ⊢
      exact htakes.absent hlive.1
    | true =>
      rw [hfed] at hlive
      cases hcarries.fed hfed with
      | inl hgone =>
        rw [← isLive_eq_false_iff, hlive.1] at hgone
        contradiction
      | inr hkept =>
        rcases hkept with ⟨message, honly, hagrees⟩
        apply (hagrees.grows hlive.2).carries hid hstreams hagrees.truncated
        rw [← hid] at honly ⊢
        exact htakes.present message honly
  . exact hcarries.other hid hstreams (htakes.others messageId (Ne.symm hid))

/--
A run that has just started has no text.
-/
theorem carries_init {projector : AgUiProjector} {snapshot : SessionSnapshot} (threadId messageId : String)
    (runId : String) (sourceTurnId : Option String)
    : Carries threadId messageId { runId, sourceTurnId } { projector, snapshot } := by
  refine ⟨fun _ => ⟨rfl, rfl, rfl, rfl, rfl⟩, ?_⟩
  intro hfed
  contradiction

/--
Within a run, a message that began in it and has been live since carries the text of its deltas, and is
truncated exactly when the stream announces that.
-/
theorem sameText_of_exec {projector : AgUiProjector} {snapshot : SessionSnapshot} {threadId runId : String}
    {sourceTurnId : Option String} {messageId : String} {chunks : List TextChunk}
    (hrun : projector.runs threadId = some { runId, sourceTurnId })
    (haccepts : ∀ chunk ∈ chunks,
      ({ runId, sourceTurnId } : AgUiRunState).accepts chunk.runId chunk.sourceTurnId)
    (hmeets : Meets (step x threadId) (Continues messageId) { projector, snapshot } chunks)
    (hexec : exec (step x threadId) { projector, snapshot } chunks = some s)
    : s.SameText threadId messageId := by
  have hfollows := exec_invariant
    (fun _ _ _ h hguard => follows_step h hguard.2 hguard.1)
    ⟨_, hrun, rfl, rfl, carries_init threadId messageId runId sourceTurnId⟩
    (hmeets.and haccepts) hexec
  rcases hfollows.carried with ⟨run, -, -, -, hcarries⟩
  intro hfed message hmessage hid
  have hmem : message ∈ s.snapshot.messagesOf messageId := by
    unfold SessionSnapshot.messagesOf
    rw [List.mem_filter]
    exact ⟨hmessage, beq_iff_eq.mpr hid⟩
  cases hcarries.fed hfed with
  | inl hgone =>
    rw [hgone] at hmem
    contradiction
  | inr hlive =>
    rcases hlive with ⟨only, honly, hagrees⟩
    rw [honly, List.mem_singleton] at hmem
    rw [hmem]
    exact ⟨hagrees.text, hagrees.truncated⟩

/--
No text reaches another crate.
-/
def noCrates : Crates :=
  { sha256 := fun _ => "", toText := fun _ => "", base64 := fun _ => "" }

def runChunk (runId messageId content : String) : TextChunk :=
  { agentId := "a"
    runId := some runId
    sourceTurnId := none
    generation := some 1
    role := .agent
    messageId
    content
    cut := false }

/--
The first run of a session has started.
-/
def opened : LiveSession :=
  { projector := (AgUiProjector.startRun {} "t" "r" "s").1
    snapshot := .new "a" "t" }

/--
Two messages take turns.
-/
def takingTurns : List TextChunk :=
  [runChunk "r" "m" "Hi", runChunk "r" "n" "Well", runChunk "r" "m" " there"]

theorem sameText_of_takingTurns
    : (exec (step noCrates "t") opened takingTurns).isSome
        ∧ ∀ s, exec (step noCrates "t") opened takingTurns = some s → s.SameText "t" "m" := by
  refine ⟨by decide +kernel, ?_⟩
  intro s hexec
  have haccepts : ∀ chunk ∈ takingTurns, ({ runId := "r", sourceTurnId := some "s" }
      : AgUiRunState).accepts chunk.runId chunk.sourceTurnId := by decide
  exact sameText_of_exec rfl haccepts (by decide +kernel) hexec

/--
A message returns after 128 others have pushed it out of the live window.
-/
def returning : List TextChunk :=
  (List.range 129).map (fun i => runChunk "r" (toString i) "a") ++ [runChunk "r" "0" "b"]

/--
The second run of a session has started.
-/
def resumed : Option LiveSession :=
  (exec (step noCrates "t") opened [runChunk "r" "m" "Hi"]).map fun s =>
    { projector := (s.projector.startRun "t" "q" "u").1, snapshot := s.snapshot }

/--
The snapshot starts a message over that returns, and goes on with one of an earlier run.
-/
theorem not_sameText_of_returning
    : (∃ s ∈ exec (step noCrates "t") opened returning, ¬s.SameText "t" "0")
        ∧ ∃ s ∈ resumed.bind fun s => exec (step noCrates "t") s [runChunk "q" "m" " there"],
          ¬s.SameText "t" "m" := by
  constructor
  . decide +kernel
  . decide +kernel

end LiveSession

end AgUi
