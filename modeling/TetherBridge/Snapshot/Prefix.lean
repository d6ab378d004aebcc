import TetherBridge.Snapshot.Messages
import TetherBridge.Snapshot.History

/-!
This module contains what the bounded text of a message or of a tool keeps of the chunks that were added to
it: a prefix of them, as long as no chunk fits into the room that a cut has left.
-/

namespace Snapshot

open Acp

/-! Chunks that are added to a text -/

def appendAll (max : Nat) : List String → String → String
  | [], text => text
  | chunk :: chunks, text => appendAll max chunks (boundedAppend text chunk max).1

/--
Whether one of the chunks is cut.
-/
def anyCut (max : Nat) : List String → String → Bool
  | [], _ => false
  | chunk :: chunks, text => (boundedAppend text chunk max).2 || anyCut max chunks (boundedAppend text chunk max).1

def joined (chunks : List String) : List Char :=
  (chunks.map String.toList).flatten

/--
No chunk that comes after bytes were dropped begins with a character that has room in what the cut has left.
-/
def FillsNoGap (max : Nat) : List Char → List String → Prop
  | _, [] => True
  | sofar, chunk :: chunks =>
    (max < Text.size sofar → ¬Text.StartsWithin (max - Text.size (Text.takeBytes max sofar)) chunk.toList)
      ∧ FillsNoGap max (sofar ++ chunk.toList) chunks

instance FillsNoGap.decidable (max : Nat)
    : (chunks : List String) → (sofar : List Char) → Decidable (FillsNoGap max sofar chunks)
  | [], _ => inferInstanceAs (Decidable True)
  | _ :: chunks, _ =>
    have := FillsNoGap.decidable max chunks
    inferInstanceAs (Decidable (_ ∧ _))

/--
The stored text is a prefix of the chunks within the limit, and it is known whether it is a proper one.
-/
structure StoresPrefix (max : Nat) (sofar : List Char) (chunks : List String) (stored : String)
    (truncated : Bool) : Prop where
  size : stored.utf8ByteSize ≤ max
  isPrefix : stored.toList <+: sofar ++ joined chunks
  truncated : truncated = true ↔ stored.toList ≠ sofar ++ joined chunks

section

variable {max : Nat} {text chunk : String}

theorem toList_bound (value : String) (max : Nat) : (bound value max).toList = Text.takeBytes max value.toList := by
  unfold bound
  split
  . rw [String.toList_ofList]
  . next hfits =>
    rw [Text.takeBytes_of_le]
    rw [← Text.utf8ByteSize_eq]
    omega

theorem toList_boundedAppend (h : text.utf8ByteSize ≤ max)
    : (boundedAppend text chunk max).1.toList
        = text.toList ++ Text.takeBytes (max - text.utf8ByteSize) chunk.toList := by
  unfold boundedAppend
  split
  . next hfull =>
    have hnone : Text.takeBytes (max - text.utf8ByteSize) chunk.toList = [] := by
      rw [Text.takeBytes_eq_nil, Nat.sub_eq_zero_of_le hfull]
      cases chunk.toList with
      | nil => exact id
      | cons c cs =>
        intro hfits
        exact Nat.not_lt.mpr hfits c.utf8Size_pos
    rw [hnone, List.append_nil, toList_bound, Text.takeBytes_of_le]
    rwa [← Text.utf8ByteSize_eq]
  . dsimp only
    rw [String.toList_append, toList_bound]

theorem size_boundedAppend_le (h : text.utf8ByteSize ≤ max)
    : (boundedAppend text chunk max).1.utf8ByteSize ≤ max := by
  rw [Text.utf8ByteSize_eq, toList_boundedAppend h, Text.size_append, ← Text.utf8ByteSize_eq]
  have hrest := Text.size_takeBytes_le (max - text.utf8ByteSize) chunk.toList
  omega

theorem boundedAppend_cut
    : (boundedAppend text chunk max).2 = true
        ↔ Text.takeBytes (max - text.utf8ByteSize) chunk.toList ≠ chunk.toList := by
  unfold boundedAppend
  split
  . next hfull =>
    have hroom : max - text.utf8ByteSize = 0 := Nat.sub_eq_zero_of_le hfull
    rw [hroom, Bool.not_eq_true', ← Bool.not_eq_true, String.isEmpty_iff, ← String.toList_eq_nil_iff]
    cases chunk.toList with
    | nil => simp [Text.takeBytes]
    | cons c cs =>
      have hpos := c.utf8Size_pos
      rw [Text.takeBytes, if_neg (by omega)]
      simp
  . dsimp only
    rw [decide_eq_true_eq, Text.utf8ByteSize_eq, Text.utf8ByteSize_eq chunk, toList_bound,
      Text.size_takeBytes_lt]

/-! Chunks that fill no gap -/

variable {sofar : List Char}

theorem toList_boundedAppend_of_fits (htext : text.toList = Text.takeBytes max sofar)
    (hchunk : max < Text.size sofar →
      ¬Text.StartsWithin (max - Text.size (Text.takeBytes max sofar)) chunk.toList)
    : (boundedAppend text chunk max).1.toList = Text.takeBytes max (sofar ++ chunk.toList) := by
  have hsize : text.utf8ByteSize = Text.size (Text.takeBytes max sofar) := by
    rw [Text.utf8ByteSize_eq, htext]
  rw [toList_boundedAppend (hsize ▸ Text.size_takeBytes_le max sofar), htext, hsize]
  by_cases hle : Text.size sofar ≤ max
  . rw [Text.takeBytes_of_le hle, Text.takeBytes_append_of_le hle]
  . have hlt : max < Text.size sofar := Nat.lt_of_not_le hle
    rw [Text.takeBytes_append_of_lt hlt, Text.takeBytes_eq_nil.mpr (hchunk hlt), List.append_nil]

theorem boundedAppend_cut_or (htext : text.toList = Text.takeBytes max sofar)
    : (boundedAppend text chunk max).2 = true ∨ Text.takeBytes max sofar ≠ sofar
        ↔ Text.takeBytes max (sofar ++ chunk.toList) ≠ sofar ++ chunk.toList := by
  have hsize : text.utf8ByteSize = Text.size (Text.takeBytes max sofar) := by
    rw [Text.utf8ByteSize_eq, htext]
  rw [boundedAppend_cut, hsize]
  by_cases hle : Text.size sofar ≤ max
  . rw [Text.takeBytes_of_le hle, Text.takeBytes_append_of_le hle]
    simp
  . have hlt : max < Text.size sofar := Nat.lt_of_not_le hle
    have hcut := Text.size_takeBytes_le max sofar
    have hsofar : Text.takeBytes max sofar ≠ sofar := by
      rw [← Text.size_takeBytes_lt]
      omega
    have hmore : Text.takeBytes max (sofar ++ chunk.toList) ≠ sofar ++ chunk.toList := by
      rw [← Text.size_takeBytes_lt, Text.takeBytes_append_of_lt hlt, Text.size_append]
      omega
    exact iff_of_true (.inr hsofar) hmore

theorem anyCut_cons (chunk : String) (chunks : List String)
    : anyCut max (chunk :: chunks) text
        = ((boundedAppend text chunk max).2 || anyCut max chunks (boundedAppend text chunk max).1) := rfl

theorem joined_cons (chunk : String) (chunks : List String)
    : joined (chunk :: chunks) = chunk.toList ++ joined chunks := rfl

theorem joined_append (chunks : List String) (chunk : String)
    : joined (chunks ++ [chunk]) = joined chunks ++ chunk.toList := by
  simp [joined]

theorem appendAll_append (chunks : List String) (chunk text : String)
    : appendAll max (chunks ++ [chunk]) text = (boundedAppend (appendAll max chunks text) chunk max).1 := by
  induction chunks generalizing text with
  | nil => rfl
  | cons other chunks ih => exact ih _

theorem anyCut_append (chunks : List String) (chunk text : String)
    : anyCut max (chunks ++ [chunk]) text
        = (anyCut max chunks text || (boundedAppend (appendAll max chunks text) chunk max).2) := by
  induction chunks generalizing text with
  | nil => simp [anyCut, appendAll]
  | cons other chunks ih =>
    rw [List.cons_append, anyCut_cons, ih, anyCut_cons, Bool.or_assoc]
    rfl

/--
What is stored is all that fits.
-/
theorem toList_appendAll {chunks : List String} (htext : text.toList = Text.takeBytes max sofar)
    (h : FillsNoGap max sofar chunks)
    : (appendAll max chunks text).toList = Text.takeBytes max (sofar ++ joined chunks) := by
  induction chunks generalizing text sofar with
  | nil =>
    rw [joined, List.map_nil, List.flatten_nil, List.append_nil]
    exact htext
  | cons chunk chunks ih =>
    rw [joined_cons, ← List.append_assoc]
    exact ih (toList_boundedAppend_of_fits htext h.1) h.2

theorem anyCut_or {chunks : List String} (htext : text.toList = Text.takeBytes max sofar)
    (h : FillsNoGap max sofar chunks)
    : anyCut max chunks text = true ∨ Text.takeBytes max sofar ≠ sofar
        ↔ Text.takeBytes max (sofar ++ joined chunks) ≠ sofar ++ joined chunks := by
  induction chunks generalizing text sofar with
  | nil =>
    rw [joined, List.map_nil, List.flatten_nil, List.append_nil]
    simp [anyCut]
  | cons chunk chunks ih =>
    have hrest := ih (toList_boundedAppend_of_fits htext h.1) h.2
    rw [joined_cons, ← List.append_assoc, ← hrest, ← boundedAppend_cut_or htext, anyCut_cons, Bool.or_eq_true,
      or_right_comm, or_comm]

/--
What is stored is only ever added to.
-/
theorem prefix_appendAll (chunks : List String) {text : String} (h : text.utf8ByteSize ≤ max)
    : text.toList <+: (appendAll max chunks text).toList := by
  induction chunks generalizing text with
  | nil => exact List.prefix_rfl
  | cons chunk chunks ih =>
    have hstep : text.toList <+: (boundedAppend text chunk max).1.toList := by
      rw [toList_boundedAppend h]
      exact List.prefix_append _ _
    exact hstep.trans (ih (size_boundedAppend_le h))

theorem size_appendAll_le (chunks : List String) {text : String} (h : text.utf8ByteSize ≤ max)
    : (appendAll max chunks text).utf8ByteSize ≤ max := by
  induction chunks generalizing text with
  | nil => exact h
  | cons chunk chunks ih => exact ih (size_boundedAppend_le h)

/--
A character that fits into the room a cut has left is not the one that was cut off.
-/
theorem not_prefix_of_gap (htext : text.toList = Text.takeBytes max sofar) (hlt : max < Text.size sofar)
    (hchunk : Text.StartsWithin (max - Text.size (Text.takeBytes max sofar)) chunk.toList)
    (chunks : List String) (rest : List Char)
    : ¬(appendAll max (chunk :: chunks) text).toList <+: sofar ++ rest := by
  have hsize : text.utf8ByteSize = Text.size (Text.takeBytes max sofar) := by
    rw [Text.utf8ByteSize_eq, htext]
  have hle : text.utf8ByteSize ≤ max := hsize ▸ Text.size_takeBytes_le max sofar
  intro hprefix
  have hnext := (prefix_appendAll chunks (size_boundedAppend_le hle)).trans hprefix
  rcases Text.takeBytes_split hlt with ⟨d, others, hsplit, hlarge⟩
  cases hcs : chunk.toList with
  | nil =>
    rw [hcs] at hchunk
    exact hchunk
  | cons c cs =>
    rw [hcs] at hchunk
    have hfits : c.utf8Size ≤ max - Text.size (Text.takeBytes max sofar) := hchunk
    rw [toList_boundedAppend hle, hcs, hsize, Text.takeBytes, if_pos hfits, htext] at hnext
    generalize Text.takeBytes max sofar = kept at *
    rw [hsplit, List.append_assoc, List.prefix_append_right_inj, List.cons_append,
      List.cons_prefix_cons] at hnext
    rw [hnext.1] at hfits
    omega

theorem fillsNoGap_of_prefix {chunks : List String} (htext : text.toList = Text.takeBytes max sofar)
    (h : (appendAll max chunks text).toList <+: sofar ++ joined chunks)
    : FillsNoGap max sofar chunks := by
  induction chunks generalizing text sofar with
  | nil => trivial
  | cons chunk chunks ih =>
    have hchunk : max < Text.size sofar →
        ¬Text.StartsWithin (max - Text.size (Text.takeBytes max sofar)) chunk.toList := by
      intro hlt hfits
      exact not_prefix_of_gap htext hlt hfits chunks _ h
    rw [joined_cons, ← List.append_assoc] at h
    exact ⟨hchunk, ih (toList_boundedAppend_of_fits htext hchunk) h⟩

/--
The text is kept as it should exactly when no gap is filled.
-/
theorem storesPrefix_iff (chunks : List String) (h : text.utf8ByteSize ≤ max)
    : StoresPrefix max text.toList chunks (appendAll max chunks text) (anyCut max chunks text)
        ↔ FillsNoGap max text.toList chunks := by
  have htext : text.toList = Text.takeBytes max text.toList := by
    rw [Text.takeBytes_of_le]
    rwa [← Text.utf8ByteSize_eq]
  constructor
  . intro hstores
    exact fillsNoGap_of_prefix htext hstores.isPrefix
  . intro hfills
    have hkept := toList_appendAll htext hfills
    have hcut := anyCut_or htext hfills
    rw [← htext] at hcut
    refine ⟨size_appendAll_le chunks h, ?_, ?_⟩
    . rw [hkept]
      exact Text.takeBytes_prefix _ _
    . rw [hkept, ← hcut]
      simp

end

/-! The text part of a message -/

/--
The part a text is stored as. There is none for no text.
-/
def textParts (text : String) : List Json :=
  if text = "" then [] else [textPart text]

/--
The parts of a message, and whether it is marked as truncated.
-/
structure Body where
  parts : List Json
  truncated : Bool

def Body.addText (body : Body) (chunk : String) : Body :=
  let (parts, truncated) := appendChunk body.parts body.truncated chunk none
  { parts, truncated }

/--
A chunk for these parts goes to a new text part.
-/
def OpensText (parts : List Json) : Prop :=
  parts.getLast?.bind partText = none

theorem appendMessageText_textParts {before : List Json} (hopens : OpensText before)
    (hroom : before.length < MAX_MESSAGE_PARTS) {text : String} (htext : text.utf8ByteSize ≤ MAX_TEXT_BYTES)
    (chunk : String)
    : appendMessageText (before ++ textParts text) chunk
        = (before ++ textParts (boundedAppend text chunk MAX_TEXT_BYTES).1,
          (boundedAppend text chunk MAX_TEXT_BYTES).2) := by
  unfold appendMessageText
  split
  . next hempty =>
    rw [String.isEmpty_iff] at hempty
    subst hempty
    have hsame : (boundedAppend text "" MAX_TEXT_BYTES).1 = text := by
      apply String.toList_inj.mp
      rw [toList_boundedAppend htext]
      exact List.append_nil _
    have hcut : (boundedAppend text "" MAX_TEXT_BYTES).2 = false := by
      rw [← Bool.not_eq_true, boundedAppend_cut]
      exact not_not_intro rfl
    rw [hsame, hcut]
  . next hempty =>
    rw [String.isEmpty_iff] at hempty
    by_cases hnone : text = ""
    . subst hnone
      unfold OpensText at hopens
      rw [textParts, if_pos rfl, List.append_nil, hopens]
      dsimp only
      rw [if_neg (Nat.not_le.mpr hroom)]
      have hbounded : boundedAppend "" chunk MAX_TEXT_BYTES
          = (bound chunk MAX_TEXT_BYTES,
            decide ((bound chunk MAX_TEXT_BYTES).utf8ByteSize < chunk.utf8ByteSize)) := by
        unfold boundedAppend
        rw [if_neg (by decide), String.utf8ByteSize_empty, Nat.sub_zero]
        dsimp only
        rw [String.empty_append]
      have hsome : bound chunk MAX_TEXT_BYTES ≠ "" := by
        rw [Ne, ← String.toList_eq_nil_iff, toList_bound]
        apply Text.takeBytes_ne_nil (by decide)
        rwa [Ne, String.toList_eq_nil_iff]
      rw [hbounded, textParts, if_neg hsome]
    . have hsome : (boundedAppend text chunk MAX_TEXT_BYTES).1 ≠ "" := by
        rw [Ne, ← String.toList_eq_nil_iff, toList_boundedAppend htext, List.append_eq_nil_iff,
          String.toList_eq_nil_iff]
        exact fun hnil => hnone hnil.1
      rw [textParts, if_neg hnone, List.getLast?_append_of_ne_nil _ (List.cons_ne_nil _ _),
        List.getLast?_singleton, Option.bind_some, partText_textPart, textParts, if_neg hsome,
        List.dropLast_concat]

theorem foldl_addText {before : List Json} (hopens : OpensText before)
    (hroom : before.length < MAX_MESSAGE_PARTS) (chunks : List String) {text : String}
    (htext : text.utf8ByteSize ≤ MAX_TEXT_BYTES) (truncated : Bool)
    : chunks.foldl Body.addText { parts := before ++ textParts text, truncated }
        = { parts := before ++ textParts (appendAll MAX_TEXT_BYTES chunks text)
            truncated := truncated || anyCut MAX_TEXT_BYTES chunks text } := by
  induction chunks generalizing text truncated with
  | nil => simp [appendAll, anyCut]
  | cons chunk chunks ih =>
    have hstep : Body.addText { parts := before ++ textParts text, truncated } chunk
        = { parts := before ++ textParts (boundedAppend text chunk MAX_TEXT_BYTES).1
            truncated := truncated || (boundedAppend text chunk MAX_TEXT_BYTES).2 } := by
      unfold Body.addText appendChunk
      rw [appendMessageText_textParts hopens hroom htext]
    rw [List.foldl_cons, hstep, ih (size_boundedAppend_le htext), anyCut_cons, Bool.or_assoc]
    rfl

/--
Without room for a part all text is dropped.
-/
theorem appendMessageText_of_full {before : List Json} (hopens : OpensText before)
    (hfull : MAX_MESSAGE_PARTS ≤ before.length) (chunk : String)
    : appendMessageText before chunk = (before, decide (chunk.toList ≠ [])) := by
  unfold appendMessageText
  unfold OpensText at hopens
  split
  . next hempty =>
    rw [String.isEmpty_iff] at hempty
    subst hempty
    rfl
  . next hempty =>
    rw [String.isEmpty_iff, ← String.toList_eq_nil_iff] at hempty
    rw [hopens]
    dsimp only
    rw [decide_eq_true hempty]

theorem foldl_addText_of_full {before : List Json} (hopens : OpensText before)
    (hfull : MAX_MESSAGE_PARTS ≤ before.length) (chunks : List String) (truncated : Bool)
    : chunks.foldl Body.addText { parts := before, truncated }
        = { parts := before, truncated := truncated || decide (joined chunks ≠ []) } := by
  induction chunks generalizing truncated with
  | nil => simp [joined]
  | cons chunk chunks ih =>
    have hstep : Body.addText { parts := before, truncated } chunk
        = { parts := before, truncated := truncated || decide (chunk.toList ≠ []) } := by
      unfold Body.addText appendChunk
      rw [appendMessageText_of_full hopens hfull]
    rw [List.foldl_cons, hstep, ih, joined_cons, Bool.or_assoc]
    congr 2
    cases chunk.toList <;> simp

/--
The message takes no chunk with this operation.
-/
def Operation.SparesMessage (id : String) : Operation → Prop
  | .apply event => event.chunkId? ≠ some id
  | _ => True

namespace SessionSnapshot

variable {s t : SessionSnapshot} {id : String}

def bodiesOf (s : SessionSnapshot) (id : String) : List Body :=
  (s.messagesOf id).map fun message => { parts := message.parts, truncated := message.truncated }

/--
The message is as it was, or it is not live any more.
-/
def KeepsBody (id : String) (bodies : List Body) (s : SessionSnapshot) : Prop :=
  s.bodiesOf id = bodies ∨ s.bodiesOf id = bodies.tail

theorem KeepsBody.congr {bodies : List Body} (h : s.KeepsBody id bodies) (hmessages : t.messages = s.messages)
    : t.KeepsBody id bodies := by
  unfold KeepsBody bodiesOf messagesOf at h ⊢
  rwa [hmessages]

theorem keptByEvents_body (id : String) (bodies : List Body)
    : KeptByEvents (fun _ => False) (KeepsBody id bodies) := by
  constructor
  case toKeptByTools =>
    constructor
    . simp
    . intro s h tools activeToolIds subagentHeaders
      exact h
    . intro s h keep
      exact h
    . intro s h index _ update _
      apply Except.Yields.mono (mutateHistoryEntryAt_evicts s index update).anyError
      intro t hevicts
      exact h.congr hevicts.messages
    . intro s h entry _ position
      exact h
  case sameTranscript =>
    intro s t h hsame
    exact h.congr hsame.1

theorem map_filter_set {p : α → Bool} {f : α → β} {xs : List α} {index : Nat} {x y : α}
    (hx : xs[index]? = some x) (hp : p y = p x) (hf : f y = f x)
    : ((xs.set index y).filter p).map f = (xs.filter p).map f := by
  induction xs generalizing index with
  | nil => rfl
  | cons z xs ih =>
    cases index with
    | zero =>
      rw [List.getElem?_cons_zero] at hx
      injection hx with hx
      subst hx
      rw [List.set_cons_zero, List.filter_cons, List.filter_cons, hp]
      split
      . rw [List.map_cons, List.map_cons, hf]
      . rfl
    | succ index =>
      rw [List.getElem?_cons_succ] at hx
      rw [List.set_cons_succ, List.filter_cons, List.filter_cons]
      split
      . rw [List.map_cons, List.map_cons, ih hx]
      . exact ih hx

theorem attachTurnUsage_body {bodies : List Body} (h : s.KeepsBody id bodies) (usage : BridgeTurnUsageSnapshot)
    : (s.attachTurnUsage usage).Yields (fun _ => False) (KeepsBody id bodies) := by
  unfold attachTurnUsage
  split
  . exact h
  . split
    . exact h
    . next message hmessage =>
      apply Except.Yields.mono (updateHistoryMessage_messages _ _)
      intro t ht
      unfold KeepsBody bodiesOf messagesOf at h ⊢
      rw [ht, map_filter_set hmessage]
      . exact h
      . rfl
      . rfl

theorem TakesChunk.keepsBody {other : String} {role : MessageRole} {content : String}
    {contentBlock : Option Json} (h : s.TakesChunk other role content contentBlock t) (hne : id ≠ other)
    : t.KeepsBody id (s.bodiesOf id) := by
  unfold KeepsBody bodiesOf
  rcases h.others id hne with heq | heq
  . exact .inl (by rw [heq])
  . exact .inr (by rw [heq, List.map_tail])

/--
A chunk of text is added to the body of its message, which may begin with it.
-/
theorem TakesChunk.body {role : MessageRole} {content : String} (h : s.TakesChunk id role content none t)
    {body : Body} (hbody : s.bodiesOf id = [] ∧ body = ⟨[], false⟩ ∨ s.bodiesOf id = [body])
    : t.bodiesOf id = [body.addText content] := by
  unfold bodiesOf at hbody ⊢
  rcases hbody with ⟨hnone, rfl⟩ | hone
  . rw [h.absent (List.map_eq_nil_iff.mp hnone)]
    rfl
  . rw [List.map_eq_singleton_iff] at hone
    rcases hone with ⟨message, hmessage, rfl⟩
    rw [h.present message hmessage]
    rfl

theorem perform_body (s : SessionSnapshot) {operation : Operation} (hspares : operation.SparesMessage id)
    : (s.perform operation).Yields (fun _ => False) (KeepsBody id (s.bodiesOf id)) := by
  have rules := keptByEvents_body id (s.bodiesOf id)
  have h : s.KeepsBody id (s.bodiesOf id) := .inl rfl
  cases operation with
  | apply event =>
    apply apply_keeps rules.runs h
    . intro other role content contentBlock hchunk
      apply Except.Yields.mono (appendMessage_takesChunk s other role content contentBlock)
      intro t htakes
      apply htakes.keepsBody
      rintro rfl
      exact hspares hchunk
    . intro other generation projection _
      apply applyTool_keeps rules.toKeptByTools rules.toKeptByTools (fun _ h => h) h
      intro s h
      apply Except.Yields.mono (pushTimeline_messages s .tool other)
      intro t ht
      exact h.congr ht
    . intro s usage h
      exact attachTurnUsage_body h usage
  | markSubagentTerminal childSessionId status =>
    apply Except.Yields.bind (markSubagentTerminal_keeps rules.updates h childSessionId status)
    intro result h
    exact h
  | markSubagentToolTerminal toolCallId status toolStatus =>
    apply Except.Yields.bind (markSubagentToolTerminal_keeps rules.updates h toolCallId status toolStatus)
    intro result h
    exact h
  | settleUnresolvedSubagentsWithoutRun =>
    exact settleUnresolvedSubagentsWithoutRun_keeps rules.updates h

/--
A run in which the chunks are added to a message. It may begin with the message, and stays live.
-/
inductive AddsText (id : String) (s : SessionSnapshot) : List String → SessionSnapshot → Prop where
  | start : AddsText id s [] s
  | chunk {chunks : List String} {t u : SessionSnapshot} {agentId threadId : String}
      {runId sourceTurnId : Option String} {generation : Option Nat} {role : MessageRole} {content : String}
      (h : AddsText id s chunks t)
      (hok : t.apply (.messageChunk agentId threadId runId sourceTurnId generation role id content none) = .ok u)
    : AddsText id s (chunks ++ [content]) u
  | other {chunks : List String} {t u : SessionSnapshot} {operation : Operation} (h : AddsText id s chunks t)
      (hspares : operation.SparesMessage id) (hok : t.perform operation = .ok u)
      (hlive : u.messagesOf id = [] → t.messagesOf id = [])
    : AddsText id s chunks u
  | reorder {chunks : List String} {t : SessionSnapshot} {activeToolIds : List String}
      (h : AddsText id s chunks t) (hperm : activeToolIds.Perm t.activeToolIds)
    : AddsText id s chunks { t with activeToolIds }

theorem AddsText.body {chunks : List String} (h : AddsText id s chunks t) {body : Body}
    (hbody : s.bodiesOf id = [] ∧ body = ⟨[], false⟩ ∨ s.bodiesOf id = [body])
    : (chunks = [] ∧ t.bodiesOf id = [] ∧ body = ⟨[], false⟩) ∨ t.bodiesOf id = [chunks.foldl Body.addText body] := by
  induction h with
  | start =>
    cases hbody with
    | inl hnone => exact .inl ⟨rfl, hnone⟩
    | inr hone => exact .inr hone
  | @chunk chunks t u _ _ _ _ _ role content _ hok ih =>
    right
    have happend : t.appendMessage id role content none = .ok u := hok
    have htakes := (appendMessage_takesChunk t id role content none).of_ok happend
    rw [List.foldl_append]
    apply htakes.body
    cases ih with
    | inl hnone => exact .inl ⟨hnone.2.1, by rw [hnone.1]; exact hnone.2.2⟩
    | inr hone => exact .inr hone
  | other _ hspares hok hlive ih =>
    have hkeeps := (perform_body _ hspares).of_ok hok
    cases ih with
    | inl hnone =>
      left
      refine ⟨hnone.1, ?_, hnone.2.2⟩
      rcases hkeeps with heq | heq <;> rw [heq, hnone.2.1]
      rfl
    | inr hone =>
      right
      rcases hkeeps with heq | heq
      . rw [heq, hone]
      . rw [hone, List.tail_cons] at heq
        have hgone := hlive (List.map_eq_nil_iff.mp heq)
        unfold bodiesOf at hone
        rw [hgone] at hone
        contradiction
  | reorder _ _ ih => exact ih

/--
The text parts that the chunks have been stored as hold a prefix of them.
-/
def KeepsMessageText (before : List Json) (chunks : List String) (body : Body) : Prop :=
  ∃ text, body.parts = before ++ textParts text ∧ StoresPrefix MAX_TEXT_BYTES [] chunks text body.truncated

theorem textParts_inj {text other : String} (h : textParts text = textParts other) : text = other := by
  unfold textParts at h
  split at h
  . next hnone =>
    split at h
    . next hother => rw [hnone, hother]
    . contradiction
  . split at h
    . contradiction
    . injection h with h _
      have hsome := congrArg partText h
      rw [partText_textPart, partText_textPart] at hsome
      injection hsome

theorem AddsText.keepsText_iff {chunks : List String} (h : AddsText id s chunks t) (hchunks : chunks ≠ [])
    {before : List Json} (hopens : OpensText before)
    (hbody : s.bodiesOf id = [] ∧ before = [] ∨ s.bodiesOf id = [⟨before, false⟩])
    : ∃ body, t.bodiesOf id = [body]
        ∧ (KeepsMessageText before chunks body
          ↔ before.length < MAX_MESSAGE_PARTS → FillsNoGap MAX_TEXT_BYTES [] chunks) := by
  have hstart : s.bodiesOf id = [] ∧ (⟨before, false⟩ : Body) = ⟨[], false⟩ ∨ s.bodiesOf id = [⟨before, false⟩] := by
    rcases hbody with ⟨hnone, rfl⟩ | hone
    . exact .inl ⟨hnone, rfl⟩
    . exact .inr hone
  have hlive := (h.body hstart).resolve_left fun hnone => hchunks hnone.1
  refine ⟨_, hlive, ?_⟩
  by_cases hroom : before.length < MAX_MESSAGE_PARTS
  . have hempty : "".utf8ByteSize ≤ MAX_TEXT_BYTES := by decide
    have hfold := foldl_addText hopens hroom chunks hempty false
    have hnone : before ++ textParts "" = before := List.append_nil before
    rw [hnone, Bool.false_or] at hfold
    rw [hfold, imp_iff_right hroom]
    have hiff := storesPrefix_iff chunks hempty
    constructor
    . rintro ⟨text, htext, hstores⟩
      rw [← textParts_inj (List.append_cancel_left htext)] at hstores
      exact hiff.mp hstores
    . intro hfills
      exact ⟨_, rfl, hiff.mpr hfills⟩
  . refine iff_of_true ?_ fun hlt => absurd hlt hroom
    rw [foldl_addText_of_full hopens (Nat.le_of_not_lt hroom)]
    refine ⟨"", (List.append_nil before).symm, by decide, List.nil_prefix, ?_⟩
    rw [Bool.false_or, decide_eq_true_eq]
    exact ne_comm

end SessionSnapshot

end Snapshot
