import Mathlib.Data.List.Dedup
import TetherBridge.Snapshot.History

/-!
This module contains where a fork of a session stops: the boundary that a message names, and the turns that the
fork keeps.
-/

namespace Text

/--
`str::rsplit_once`.
-/
def rsplitOnce (pattern s : List Char) : Option (List Char × List Char) :=
  (rfind pattern s).map fun (before, rest) => (before, rest.drop pattern.length)

end Text

namespace Snapshot

open Acp List

structure ForkBoundaryMessage where
  messageId : String
  firstText : String
  firstTextTruncated : Bool
  rawMessageIdHint : Option String
  deriving DecidableEq

inductive ForkBoundaryKind where
  | beforeRequest (request : ForkBoundaryMessage)
  | endOfHistory (newestRequest : ForkBoundaryMessage)
  deriving DecidableEq

structure ForkBoundary where
  ordinal : Nat
  kind : ForkBoundaryKind
  deriving DecidableEq

/--
The id that the agent itself uses for a message: exported parts are `export:<id>:<part>`, live ones are wrapped.
-/
def rawOpencodeMessageId (messageId : String) : Option String :=
  let exported := (isPrefixOf? "export:".toList messageId.toList).bind fun rest =>
    (Text.splitOnce [':'] rest).map (·.1)
  let item := (Text.rsplitOnce "::item::".toList messageId.toList).map (·.2)
  let candidate := (exported.or item).getD messageId.toList
  if "msg_".toList.isPrefixOf candidate then some (String.ofList candidate) else none

def messageMatchesId (message : SnapshotMessage) (messageId : String) : Bool :=
  let targetRawId := rawOpencodeMessageId messageId
  let messageRawId := rawOpencodeMessageId message.id
  message.id == messageId || targetRawId.any (some · == messageRawId)

def describeUserMessage (message : SnapshotMessage) : ForkBoundaryMessage :=
  let firstText := String.ofList (Text.trim ((message.parts.findSome? partText).getD "").toList)
  { messageId := message.id
    firstText
    firstTextTruncated := message.truncated
    rawMessageIdHint := rawOpencodeMessageId message.id }

def SnapshotMessage.isUser (message : SnapshotMessage) : Bool :=
  message.role == .user

namespace SessionSnapshot

/--
The messages of the history.
-/
def historyMessages (s : SessionSnapshot) : List SnapshotMessage :=
  (s.history.filter (·.kind == .message)).filterMap (·.message)

def completeForkBoundary (s : SessionSnapshot) (messageId : String) : Option ForkBoundary :=
  if s.unavailableCount != 0 || s.history.head?.any (·.sequence != 0) then
    none
  else do
    let messages := s.historyMessages
    let target ← messages.findIdx? (messageMatchesId · messageId)
    let message ← messages[target]?
    -- the target itself is excluded when it is the request, and included when it is a response
    let ordinal := ((messages.take target).filter (·.isUser)).length
    let kind ←
      if message.isUser then
        some (.beforeRequest (describeUserMessage message))
      else
        match (messages.drop (target + 1)).find? (·.isUser) with
        | some nextRequest => some (.beforeRequest (describeUserMessage nextRequest))
        | none =>
          ((messages.take target).reverse.find? (·.isUser)).map fun newestRequest =>
            .endOfHistory (describeUserMessage newestRequest)
    return { ordinal, kind }

end SessionSnapshot

/-! Which messages are one request -/

/--
Stored messages with one identity are parts of one message of the agent.
-/
def messageIdentity (messageId : String) : String ⊕ String :=
  match rawOpencodeMessageId messageId with
  | some rawId => .inr rawId
  | none => .inl messageId

theorem messageMatchesId_iff {message : SnapshotMessage} {messageId : String}
    : messageMatchesId message messageId ↔ messageIdentity message.id = messageIdentity messageId := by
  unfold messageMatchesId messageIdentity
  by_cases heq : message.id = messageId
  . simp [heq]
  . cases rawOpencodeMessageId messageId with
    | none => cases rawOpencodeMessageId message.id <;> simp [heq]
    | some targetRawId =>
      cases rawOpencodeMessageId message.id with
      | none => simp [heq]
      | some messageRawId =>
        simp only [heq, Option.any_some, beq_iff_eq, Option.some.injEq, Sum.inr.injEq, beq_eq_false_iff_ne.mpr heq,
          Bool.false_or]
        exact eq_comm

theorem messageMatchesId_congr {message : SnapshotMessage} {messageId other : String}
    (h : messageIdentity messageId = messageIdentity other)
    : messageMatchesId message messageId = messageMatchesId message other := by
  rw [Bool.eq_iff_iff, messageMatchesId_iff, messageMatchesId_iff, h]

def SnapshotMessage.identity (message : SnapshotMessage) : String ⊕ String :=
  messageIdentity message.id

/--
The user requests among the messages. One that is stored as several messages counts once.
-/
def requestsOf (messages : List SnapshotMessage) : List (String ⊕ String) :=
  ((messages.filter (·.isUser)).map (·.identity)).dedup

/--
A message begins a turn when it is the first of its request.
-/
def opensTurn (earlier : List SnapshotMessage) (message : SnapshotMessage) : Bool :=
  message.isUser && !earlier.any fun other => other.isUser && messageMatchesId other message.id

/--
What a turn has besides the messages so far.
-/
def restOfTurn : List SnapshotMessage → List SnapshotMessage → List SnapshotMessage
  | _, [] => []
  | earlier, message :: messages =>
    if opensTurn earlier message then [] else message :: restOfTurn (earlier ++ [message]) messages

/--
What a fork keeps: the messages before the request that bounds it.
-/
def ForkBoundary.keeps (boundary : ForkBoundary) (messages : List SnapshotMessage) : List SnapshotMessage :=
  match boundary.kind with
  | .beforeRequest request =>
    messages.takeWhile fun message => !(message.isUser && messageMatchesId message request.messageId)
  | .endOfHistory _ => messages

namespace SessionSnapshot

/--
The id names the message `target`, which stands between the others.
-/
structure Names (s : SessionSnapshot) (messageId : String) (before : List SnapshotMessage)
    (target : SnapshotMessage) (after : List SnapshotMessage) : Prop where
  messages : s.historyMessages = before ++ target :: after
  before_ne : ∀ message ∈ before, messageMatchesId message messageId = false
  named : messageMatchesId target messageId = true

/--
Nothing of the history was evicted.
-/
def Complete (s : SessionSnapshot) : Prop :=
  s.unavailableCount = 0 ∧ ∀ entry, s.history.head? = some entry → entry.sequence = 0

/--
The messages a fork at `target` is to keep: all before a request, or the turn of a response too.
-/
def turnsKept (before : List SnapshotMessage) (target : SnapshotMessage) (after : List SnapshotMessage)
    : List SnapshotMessage :=
  if target.isUser then before else before ++ target :: restOfTurn (before ++ [target]) after

/--
A fork at the message keeps whole turns, and the ordinal of its boundary counts the requests in them. A response
in a history without any request belongs to no turn.
-/
structure ForksAt (s : SessionSnapshot) (messageId : String) : Prop where
  incomplete : ¬s.Complete → s.completeForkBoundary messageId = none
  complete : s.Complete → ∀ before target after, s.Names messageId before target after →
    s.historyMessages.any (·.isUser) → ∃ boundary, s.completeForkBoundary messageId = some boundary
      ∧ boundary.keeps s.historyMessages = turnsKept before target after
      ∧ boundary.ordinal = (requestsOf (turnsKept before target after)).length

/--
The requests up to the one that bounds the fork, this one included when it comes after the named response.
-/
def boundaryRequests (before : List SnapshotMessage) (target : SnapshotMessage) (after : List SnapshotMessage)
    : List SnapshotMessage :=
  before.filter (·.isUser) ++ if target.isUser then [] else (after.filter (·.isUser)).take 1

/--
No request up to the boundary is stored as several messages.
-/
def RequestsStoredOnce (s : SessionSnapshot) (messageId : String) : Prop :=
  s.Complete → ∀ before target after, s.Names messageId before target after →
    ((boundaryRequests before target after).map (·.identity)).Nodup

theorem complete_iff {s : SessionSnapshot}
    : s.Complete ↔ (s.unavailableCount != 0 || s.history.head?.any (·.sequence != 0)) = false := by
  unfold Complete
  cases s.history.head? <;> simp

theorem completeForkBoundary_of_incomplete {s : SessionSnapshot} (h : ¬s.Complete) (messageId : String)
    : s.completeForkBoundary messageId = none := by
  rw [complete_iff, Bool.not_eq_false] at h
  unfold completeForkBoundary
  rw [if_pos h]

/--
What the function returns at a message that the id names.
-/
theorem completeForkBoundary_of_names {s : SessionSnapshot} (hs : s.Complete) {messageId : String}
    {before : List SnapshotMessage} {target : SnapshotMessage} {after : List SnapshotMessage}
    (h : s.Names messageId before target after)
    : s.completeForkBoundary messageId =
      (if target.isUser then
        some (.beforeRequest (describeUserMessage target))
      else
        match after.find? (·.isUser) with
        | some nextRequest => some (.beforeRequest (describeUserMessage nextRequest))
        | none =>
          (before.reverse.find? (·.isUser)).map fun newestRequest =>
            .endOfHistory (describeUserMessage newestRequest)).map fun kind =>
        { ordinal := (before.filter (·.isUser)).length, kind } := by
  have hindex : s.historyMessages.findIdx? (messageMatchesId · messageId) = some before.length := by
    rw [h.messages, findIdx?_append, findIdx?_eq_none_iff.mpr h.before_ne, findIdx?_cons, if_pos h.named]
    simp
  have hget : s.historyMessages[before.length]? = some target := by
    rw [h.messages]
    simp
  have hbefore : s.historyMessages.take before.length = before := by
    rw [h.messages, take_left]
  have hafter : s.historyMessages.drop (before.length + 1) = after := by
    rw [h.messages]
    simp
  rw [complete_iff] at hs
  unfold completeForkBoundary
  rw [if_neg (by rw [hs]; exact Bool.false_ne_true)]
  dsimp only
  rw [hindex]
  dsimp only [Option.bind_eq_bind, Option.bind_some]
  rw [hget]
  dsimp only [Option.bind_some]
  rw [hbefore, hafter]
  split
  . rfl
  . cases after.find? (·.isUser) with
    | some nextRequest => rfl
    | none => cases before.reverse.find? (·.isUser) <;> rfl

end SessionSnapshot

/-! The turns a boundary keeps -/

theorem length_requestsOf_iff {messages : List SnapshotMessage}
    : (messages.filter (·.isUser)).length = (requestsOf messages).length
        ↔ ((messages.filter (·.isUser)).map (·.identity)).Nodup := by
  unfold requestsOf
  rw [← length_map (·.identity), ← dedup_eq_self]
  constructor
  . intro hlength
    exact (dedup_sublist _).eq_of_length hlength.symm
  . intro hdedup
    rw [hdedup]

theorem requestsOf_congr {messages others : List SnapshotMessage}
    (h : messages.filter (·.isUser) = others.filter (·.isUser)) : requestsOf messages = requestsOf others := by
  unfold requestsOf
  rw [h]

theorem restOfTurn_append {gap : List SnapshotMessage} (hgap : ∀ message ∈ gap, message.isUser = false)
    (earlier messages : List SnapshotMessage)
    : restOfTurn earlier (gap ++ messages) = gap ++ restOfTurn (earlier ++ gap) messages := by
  induction gap generalizing earlier with
  | nil => simp
  | cons message gap ih =>
    have hopens : opensTurn earlier message = false := by
      unfold opensTurn
      rw [hgap message mem_cons_self, Bool.false_and]
    have hrest := ih (fun other hother => hgap other (mem_cons_of_mem message hother)) (earlier ++ [message])
    rw [append_assoc, singleton_append] at hrest
    rw [cons_append, restOfTurn, hopens, if_neg Bool.false_ne_true, hrest, cons_append]

theorem opensTurn_iff {earlier : List SnapshotMessage} {message : SnapshotMessage} (huser : message.isUser = true)
    : opensTurn earlier message ↔ message.identity ∉ (earlier.filter (·.isUser)).map (·.identity) := by
  unfold opensTurn
  rw [huser, Bool.true_and, Bool.not_eq_true', any_eq_false, mem_map]
  constructor
  . rintro hnone ⟨other, hother, hidentity⟩
    rcases mem_filter.mp hother with ⟨hmem, hisUser⟩
    apply hnone other hmem
    rw [hisUser, Bool.true_and]
    exact messageMatchesId_iff.mpr hidentity
  . intro hnone other hmem hmatches
    rw [Bool.and_eq_true] at hmatches
    apply hnone
    exact ⟨other, mem_filter.mpr ⟨hmem, hmatches.1⟩, messageMatchesId_iff.mp hmatches.2⟩

/--
A boundary at a user message keeps what is before the first message of its request.
-/
theorem keeps_beforeRequest {messages after : List SnapshotMessage} {request : SnapshotMessage}
    (huser : request.isUser = true) (ordinal : Nat) (hopens : opensTurn messages request = true)
    : ForkBoundary.keeps { ordinal, kind := .beforeRequest (describeUserMessage request) }
        (messages ++ request :: after) = messages := by
  unfold ForkBoundary.keeps describeUserMessage
  dsimp only
  unfold opensTurn at hopens
  rw [huser, Bool.true_and, Bool.not_eq_true', any_eq_false] at hopens
  have hself : messageMatchesId request request.id = true := messageMatchesId_iff.mpr rfl
  rw [takeWhile_append_of_pos]
  . rw [takeWhile_cons_of_neg (by rw [huser, hself]; decide), append_nil]
  . intro message hmessage
    rw [Bool.not_eq_true', ← Bool.not_eq_true]
    exact hopens message hmessage

theorem length_takeWhile_append_lt {p : α → Bool} {xs : List α} (h : ∃ x ∈ xs, p x = false) (ys : List α)
    : ((xs ++ ys).takeWhile p).length < xs.length := by
  induction xs with
  | nil => simp at h
  | cons x xs ih =>
    rw [cons_append]
    cases hx : p x with
    | true =>
      rw [takeWhile_cons_of_pos hx, length_cons, length_cons]
      apply Nat.succ_lt_succ
      apply ih
      rcases h with ⟨y, hy, hpy⟩
      rcases mem_cons.mp hy with rfl | hy
      . rw [hx] at hpy
        contradiction
      . exact ⟨y, hy, hpy⟩
    | false =>
      rw [takeWhile_cons_of_neg (by rw [hx]; decide)]
      exact Nat.succ_pos _

theorem length_keeps_lt {messages : List SnapshotMessage} {request : SnapshotMessage}
    (huser : request.isUser = true) (ordinal : Nat) (hopens : opensTurn messages request = false)
    (after : List SnapshotMessage)
    : (ForkBoundary.keeps { ordinal, kind := .beforeRequest (describeUserMessage request) }
        (messages ++ after)).length < messages.length := by
  unfold opensTurn at hopens
  rw [huser, Bool.true_and, Bool.not_eq_false', any_eq_true] at hopens
  rcases hopens with ⟨other, hother, hmatches⟩
  apply length_takeWhile_append_lt
  refine ⟨other, hother, ?_⟩
  rw [Bool.not_eq_false']
  exact hmatches

namespace SessionSnapshot

variable {s : SessionSnapshot} {messageId : String} {before : List SnapshotMessage} {target : SnapshotMessage}
  {after : List SnapshotMessage}

/--
What is wanted of the boundary at a message that the id names.
-/
def ForksAtTarget (s : SessionSnapshot) (messageId : String) (before : List SnapshotMessage)
    (target : SnapshotMessage) (after : List SnapshotMessage) : Prop :=
  s.historyMessages.any (·.isUser) → ∃ boundary, s.completeForkBoundary messageId = some boundary
    ∧ boundary.keeps s.historyMessages = turnsKept before target after
    ∧ boundary.ordinal = (requestsOf (turnsKept before target after)).length

theorem forksAtTarget_of_request (hs : s.Complete) (h : s.Names messageId before target after)
    (huser : target.isUser = true)
    : s.ForksAtTarget messageId before target after
        ↔ ((boundaryRequests before target after).map (·.identity)).Nodup := by
  have hboundary := completeForkBoundary_of_names hs h
  rw [if_pos huser, Option.map_some] at hboundary
  have hopens : opensTurn before target = true := by
    unfold opensTurn
    rw [huser, Bool.true_and, Bool.not_eq_true', any_eq_false]
    intro message hmessage hmatches
    rw [Bool.and_eq_true] at hmatches
    have hidentity : messageIdentity target.id = messageIdentity messageId := messageMatchesId_iff.mp h.named
    rw [messageMatchesId_congr hidentity, h.before_ne message hmessage] at hmatches
    exact Bool.false_ne_true hmatches.2
  have hkept : turnsKept before target after = before := if_pos huser
  have hrequests : boundaryRequests before target after = before.filter (·.isUser) := by
    unfold boundaryRequests
    rw [if_pos huser, append_nil]
  have hany : s.historyMessages.any (·.isUser) = true := by
    rw [h.messages, any_append, any_cons, huser, Bool.true_or, Bool.or_true]
  rw [hrequests, ← length_requestsOf_iff]
  unfold ForksAtTarget
  rw [hkept, hboundary]
  constructor
  . intro hforks
    rcases hforks hany with ⟨boundary, hsome, -, hordinal⟩
    injection hsome with hsome
    rw [← hsome] at hordinal
    exact hordinal
  . intro hordinal _
    refine ⟨_, rfl, ?_, hordinal⟩
    rw [h.messages]
    exact keeps_beforeRequest huser _ hopens

theorem forksAtTarget_of_nextRequest (hs : s.Complete) (h : s.Names messageId before target after)
    (huser : target.isUser = false) {gap : List SnapshotMessage} {nextRequest : SnapshotMessage}
    {rest : List SnapshotMessage} (hafter : after = gap ++ nextRequest :: rest)
    (hgap : ∀ message ∈ gap, message.isUser = false) (hnext : nextRequest.isUser = true)
    : s.ForksAtTarget messageId before target after
        ↔ ((boundaryRequests before target after).map (·.identity)).Nodup := by
  subst hafter
  have hboundary := completeForkBoundary_of_names hs h
  have hfind : (gap ++ nextRequest :: rest).find? (·.isUser) = some nextRequest := by
    rw [find?_append, find?_eq_none.mpr (by simpa using hgap), find?_cons_of_pos hnext]
    rfl
  rw [if_neg (by rw [huser]; decide), hfind] at hboundary
  dsimp only [Option.map_some] at hboundary
  have hgapUsers : gap.filter (·.isUser) = [] := by
    simpa [filter_eq_nil_iff] using hgap
  have hturnUsers : (before ++ target :: gap).filter (·.isUser) = before.filter (·.isUser) := by
    rw [filter_append, filter_cons_of_neg (by rw [huser]; decide), hgapUsers, append_nil]
  have hrequests : boundaryRequests before target (gap ++ nextRequest :: rest)
      = before.filter (·.isUser) ++ [nextRequest] := by
    unfold boundaryRequests
    rw [if_neg (by rw [huser]; decide), filter_append, hgapUsers, nil_append, filter_cons_of_pos hnext]
    rfl
  have hmessages : s.historyMessages = (before ++ target :: gap) ++ nextRequest :: rest := by
    rw [h.messages, append_assoc, cons_append]
  have hany : s.historyMessages.any (·.isUser) = true := by
    rw [hmessages, any_append, any_cons, hnext, Bool.true_or, Bool.or_true]
  have hkept : turnsKept before target (gap ++ nextRequest :: rest)
      = (before ++ target :: gap) ++ restOfTurn (before ++ target :: gap) (nextRequest :: rest) := by
    unfold turnsKept
    rw [if_neg (by rw [huser]; decide), restOfTurn_append hgap]
    simp only [append_assoc, cons_append, nil_append]
  have hopensIff := @opensTurn_iff (before ++ target :: gap) nextRequest hnext
  rw [hturnUsers] at hopensIff
  rw [hrequests, map_append, map_singleton, nodup_append_comm, singleton_append, nodup_cons, ← hopensIff,
    ← length_requestsOf_iff]
  unfold ForksAtTarget
  rw [hboundary, hkept]
  cases hopens : opensTurn (before ++ target :: gap) nextRequest with
  | true =>
    rw [restOfTurn, hopens, if_pos rfl, append_nil, requestsOf_congr hturnUsers]
    constructor
    . intro hforks
      rcases hforks hany with ⟨boundary, hsome, -, hordinal⟩
      injection hsome with hsome
      rw [← hsome] at hordinal
      exact ⟨rfl, hordinal⟩
    . rintro ⟨-, hordinal⟩ _
      refine ⟨_, rfl, ?_, hordinal⟩
      rw [hmessages]
      exact keeps_beforeRequest hnext _ hopens
  | false =>
    constructor
    . intro hforks
      rcases hforks hany with ⟨boundary, hsome, hkeeps, -⟩
      injection hsome with hsome
      have hlt := length_keeps_lt hnext (before.filter (·.isUser)).length hopens (nextRequest :: rest)
      rw [← hmessages, hsome, hkeeps, length_append] at hlt
      omega
    . rintro ⟨hfalse, -⟩
      contradiction

theorem forksAtTarget_of_lastTurn (hs : s.Complete) (h : s.Names messageId before target after)
    (huser : target.isUser = false) (hafter : ∀ message ∈ after, message.isUser = false)
    : s.ForksAtTarget messageId before target after
        ↔ ((boundaryRequests before target after).map (·.identity)).Nodup := by
  have hboundary := completeForkBoundary_of_names hs h
  have hfind : after.find? (·.isUser) = none := find?_eq_none.mpr (by simpa using hafter)
  rw [if_neg (by rw [huser]; decide), hfind] at hboundary
  dsimp only at hboundary
  have hafterUsers : after.filter (·.isUser) = [] := by
    simpa [filter_eq_nil_iff] using hafter
  have hturnUsers : (before ++ target :: after).filter (·.isUser) = before.filter (·.isUser) := by
    rw [filter_append, filter_cons_of_neg (by rw [huser]; decide), hafterUsers, append_nil]
  have hrequests : boundaryRequests before target after = before.filter (·.isUser) := by
    unfold boundaryRequests
    rw [if_neg (by rw [huser]; decide), hafterUsers, take_nil, append_nil]
  have hkept : turnsKept before target after = before ++ target :: after := by
    have hrest := restOfTurn_append hafter (before ++ [target]) []
    rw [append_nil, restOfTurn, append_nil] at hrest
    unfold turnsKept
    rw [if_neg (by rw [huser]; decide), hrest]
  rw [hrequests, ← length_requestsOf_iff, ← requestsOf_congr hturnUsers]
  unfold ForksAtTarget
  rw [hboundary, hkept, h.messages]
  cases hnewest : before.reverse.find? (·.isUser) with
  | none =>
    -- without a request there is no turn to keep, and nothing to count
    have hnone : ∀ message ∈ before, message.isUser = false := by
      simpa using hnewest
    have husers : before.filter (·.isUser) = [] := by
      simpa [filter_eq_nil_iff] using hnone
    have hany : (before ++ target :: after).any (·.isUser) = false := by
      rw [any_append, any_cons, huser, any_eq_false.mpr (by simpa using hnone),
        any_eq_false.mpr (by simpa using hafter)]
      rfl
    rw [hany, requestsOf_congr hturnUsers]
    unfold requestsOf
    rw [husers]
    simp
  | some newestRequest =>
    have hany : (before ++ target :: after).any (·.isUser) = true := by
      have hmem := mem_reverse.mp (mem_of_find?_eq_some hnewest)
      have hnewestUser : newestRequest.isUser = true := find?_some hnewest
      exact any_eq_true.mpr ⟨newestRequest, mem_append_left _ hmem, hnewestUser⟩
    constructor
    . intro hforks
      rcases hforks hany with ⟨boundary, hsome, -, hordinal⟩
      injection hsome with hsome
      rw [← hsome] at hordinal
      exact hordinal
    . intro hordinal _
      exact ⟨_, rfl, rfl, hordinal⟩

theorem forksAtTarget_iff (hs : s.Complete) (h : s.Names messageId before target after)
    : s.ForksAtTarget messageId before target after
        ↔ ((boundaryRequests before target after).map (·.identity)).Nodup := by
  cases huser : target.isUser with
  | true => exact forksAtTarget_of_request hs h huser
  | false =>
    cases hnext : after.find? (·.isUser) with
    | none =>
      have hafter : ∀ message ∈ after, message.isUser = false := by
        simpa using hnext
      exact forksAtTarget_of_lastTurn hs h huser hafter
    | some nextRequest =>
      rcases find?_eq_some_iff_append.mp hnext with ⟨hnextUser, gap, rest, hafter, hgap⟩
      refine forksAtTarget_of_nextRequest hs h huser hafter ?_ hnextUser
      intro message hmessage
      rw [← Bool.not_eq_true']
      exact hgap message hmessage

/--
A fork keeps whole turns, and counts them, exactly when each request up to its boundary is one stored message.
-/
theorem forksAt_iff (s : SessionSnapshot) (messageId : String)
    : s.ForksAt messageId ↔ s.RequestsStoredOnce messageId := by
  constructor
  . intro h hs before target after hnames
    exact (forksAtTarget_iff hs hnames).mp (h.complete hs before target after hnames)
  . intro h
    constructor
    . intro hs
      exact completeForkBoundary_of_incomplete hs messageId
    . intro hs before target after hnames
      exact (forksAtTarget_iff hs hnames).mpr (h hs before target after hnames)

end SessionSnapshot

theorem Reachable.foldlM {operations : List Operation} {s t : SessionSnapshot} (h : Reachable s)
    (hexec : operations.foldlM SessionSnapshot.perform s = .ok t) : Reachable t := by
  induction operations generalizing s with
  | nil =>
    injection hexec with hexec
    exact hexec ▸ h
  | cons operation operations ih =>
    rw [foldlM_cons] at hexec
    cases hperform : s.perform operation with
    | error e =>
      rw [hperform] at hexec
      cases hexec
    | ok u =>
      rw [hperform] at hexec
      exact ih (.perform operation h hperform) hexec

/--
A request that was exported in two parts, and the next one.
-/
def exportedParts : List Operation :=
  [("export:msg_a:0", MessageRole.user), ("export:msg_a:1", .user), ("export:msg_b:0", .agent),
    ("export:msg_c:0", .user)].map
      fun (id, role) => Operation.apply (.messageChunk "agent" "thread" none none none role id id none)

/--
The first turn is all there is before the second request, but its ordinal is two.
-/
theorem not_forksAt_exportedParts
    : ∃ s, exportedParts.foldlM SessionSnapshot.perform (.new "agent" "thread") = .ok s ∧ Reachable s
        ∧ s.Complete ∧ (s.completeForkBoundary "export:msg_c:0").map (·.ordinal) = some 2
        ∧ ¬s.ForksAt "export:msg_c:0" := by
  have hrun : ((exportedParts.foldlM SessionSnapshot.perform (.new "agent" "thread")).toOption).any (fun s =>
      decide (s.unavailableCount = 0)
        && decide (s.history.head?.map (·.sequence) = some 0)
        && decide ((s.completeForkBoundary "export:msg_c:0").map (·.ordinal) = some 2)
        && decide (s.historyMessages.map (fun message => (message.id, message.isUser))
          = [("export:msg_a:0", true), ("export:msg_a:1", true), ("export:msg_b:0", false),
            ("export:msg_c:0", true)])) = true := by
    decide +kernel
  rcases (Option.any_eq_true _ _).mp hrun with ⟨s, hexec, hcheck⟩
  rw [Except.toOption_eq_some] at hexec
  simp only [Bool.and_eq_true, decide_eq_true_eq] at hcheck
  rcases hcheck with ⟨⟨⟨hunavailable, hfirst⟩, hordinal⟩, hmessages⟩
  have hcomplete : s.Complete := by
    refine ⟨hunavailable, ?_⟩
    intro entry hentry
    rw [hentry] at hfirst
    injection hfirst
  refine ⟨s, hexec, .foldlM (.new "agent" "thread") hexec, hcomplete, hordinal, ?_⟩
  intro h
  simp only [map_eq_cons_iff, map_eq_nil_iff, Prod.mk.injEq] at hmessages
  rcases hmessages with ⟨first, _, hall, ⟨hfirstId, hfirstUser⟩, second, _, rfl, ⟨hsecondId, hsecondUser⟩, reply, _,
    rfl, ⟨hreplyId, hreplyUser⟩, last, _, rfl, ⟨hlastId, hlastUser⟩, rfl⟩
  have hnames : s.Names "export:msg_c:0" [first, second, reply] last [] := by
    refine ⟨hall, ?_, ?_⟩
    . intro message hmessage
      simp only [mem_cons, not_mem_nil, or_false] at hmessage
      unfold messageMatchesId
      rcases hmessage with rfl | rfl | rfl
      . rw [hfirstId]
        decide +kernel
      . rw [hsecondId]
        decide +kernel
      . rw [hreplyId]
        decide +kernel
    . unfold messageMatchesId
      rw [hlastId]
      decide +kernel
  have hnodup := (SessionSnapshot.forksAtTarget_iff hcomplete hnames).mp (h.complete hcomplete _ _ _ hnames)
  have hsame : messageIdentity "export:msg_a:0" = messageIdentity "export:msg_a:1" := by
    decide +kernel
  have hrequests : SessionSnapshot.boundaryRequests [first, second, reply] last [] = [first, second] := by
    unfold SessionSnapshot.boundaryRequests
    simp [hfirstUser, hsecondUser, hreplyUser, hlastUser]
  rw [hrequests] at hnodup
  simp [SnapshotMessage.identity, hfirstId, hsecondId, hsame] at hnodup

end Snapshot
