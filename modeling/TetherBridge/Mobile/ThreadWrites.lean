import Mathlib.Logic.Relation
import TetherBridge.Mobile.ThreadReducer

/-!
This module contains the steps that every event but a snapshot and the start of a run is made of, and under which ids an
event writes messages.
-/

namespace Mobile.Thread

/-! Steps -/

/--
The message is a result of the tool call.
-/
def Body.isResultOf (toolCallId : String) : Body → Bool
  | .tool id _ _ => id == toolCallId
  | _ => false

/--
Only what describes the message has changed, not what it says.
-/
structure Amends (message message' : ChatMessage) : Prop where
  id : message'.id = message.id
  body : message'.body = message.body
  parts : message'.parts = message.parts

theorem Amends.refl (message : ChatMessage) : Amends message message :=
  ⟨rfl, rfl, rfl⟩

theorem Amends.trans {message message' message'' : ChatMessage} (h : Amends message message')
    (h' : Amends message' message'')
    : Amends message message'' :=
  ⟨h'.id.trans h.id, h'.body.trans h.body, h'.parts.trans h.parts⟩

open AgUiThreadMessageState

/--
Messages are written or dropped under the ids only. A result of a sub-agent is written only in the place of another one.
-/
inductive Step (written : String → Prop) : AgUiThreadMessageState → AgUiThreadMessageState → Prop where
  | upsert (current : AgUiThreadMessageState) (message : ChatMessage) (runId time : String)
      (hid : written message.id)
      (hresult : ∀ toolCallId ∈ current.subagentToolCallIds, message.body.isResultOf toolCallId →
        ∃ other ∈ current.messages, other.body.isResultOf toolCallId)
      : Step written current (current.upsertMessage message runId time)
  | keep (current : AgUiThreadMessageState) (keep : ChatMessage → Bool)
      (hkeep : ∀ message ∈ current.messages, keep message = false → written message.id)
      : Step written current (current.keepMessages keep)
  | amend (current : AgUiThreadMessageState) (f : ChatMessage → ChatMessage) (hf : ∀ message, Amends message (f message))
      : Step written current { current with messages := current.messages.map f }
  | note (current next : AgUiThreadMessageState) (hmessages : next.messages = current.messages)
      (hindex : next.messageIndexById = current.messageIndexById)
      (hsubagents : current.subagentToolCallIds ⊆ next.subagentToolCallIds)
      : Step written current next

abbrev Steps (written : String → Prop) : AgUiThreadMessageState → AgUiThreadMessageState → Prop :=
  Relation.ReflTransGen (Step written)

section

variable {written written' : String → Prop} {current next last : AgUiThreadMessageState}

theorem Step.mono (hle : ∀ id, written id → written' id) (h : Step written current next) : Step written' current next := by
  cases h with
  | upsert message runId time hid hresult => exact .upsert _ message runId time (hle _ hid) hresult
  | keep keep hkeep => exact .keep _ keep fun message hmem hdrop => hle _ (hkeep message hmem hdrop)
  | amend f hf => exact .amend _ f hf
  | note _ hmessages hindex hsubagents => exact .note _ _ hmessages hindex hsubagents

theorem Steps.mono (hle : ∀ id, written id → written' id) (h : Steps written current next)
    : Steps written' current next := by
  induction h with
  | refl => exact .refl
  | tail _ hstep ih => exact ih.tail (hstep.mono hle)

theorem Steps.note (h : Steps written current next) (hmessages : last.messages = next.messages)
    (hindex : last.messageIndexById = next.messageIndexById)
    (hsubagents : next.subagentToolCallIds ⊆ last.subagentToolCallIds)
    : Steps written current last :=
  h.tail (.note _ _ hmessages hindex hsubagents)

end

/-! Finding a message -/

section

variable {current : AgUiThreadMessageState} {id : String} {message : ChatMessage}

theorem getElem?_of_findMessageIndex {index : Nat} (h : current.findMessageIndex id = some index)
    : ∃ message, current.messages[index]? = some message ∧ message.id = id := by
  have hsearch : ∀ index, current.messages.findIdx? (·.id == id) = some index →
      ∃ message, current.messages[index]? = some message ∧ message.id = id := by
    intro index hfind
    rw [List.findIdx?_eq_some_iff_getElem] at hfind
    obtain ⟨hlt, hid, -⟩ := hfind
    exact ⟨_, List.getElem?_eq_getElem hlt, eq_of_beq hid⟩
  unfold findMessageIndex at h
  split at h
  . next indexed _ =>
    split at h
    . next hany =>
      injection h with h
      subst h
      rw [Option.any_eq_true] at hany
      obtain ⟨message, hmessage, hid⟩ := hany
      exact ⟨message, hmessage, eq_of_beq hid⟩
    . exact hsearch index h
  . exact hsearch index h

theorem mem_of_findMessage (h : current.findMessage id = some message) : message ∈ current.messages ∧ message.id = id := by
  unfold findMessage at h
  rw [Option.bind_eq_some_iff] at h
  obtain ⟨index, hindex, hmessage⟩ := h
  obtain ⟨other, hother, hid⟩ := getElem?_of_findMessageIndex hindex
  rw [hother] at hmessage
  injection hmessage with hmessage
  subst hmessage
  exact ⟨List.mem_of_getElem? hother, hid⟩

end

/-! The bodies of messages -/

@[simp]
theorem isResultOf_withText (toolCallId content : String) (body : Body)
    : (body.withText content).isResultOf toolCallId = body.isResultOf toolCallId := by
  cases body <;> rfl

theorem isResultOf_textMessage (toolCallId id : String) (role : TextRole) (content : String) (name : Option String)
    (createdAt : String)
    : (textMessage id role content name createdAt).body.isResultOf toolCallId = false := by
  cases role <;> rfl

theorem textMessage_id (id : String) (role : TextRole) (content : String) (name : Option String) (createdAt : String)
    : (textMessage id role content name createdAt).id = id := by
  cases role <;> rfl

/--
The card of a sub-agent may get another content, and is otherwise as it comes.
-/
theorem preserveKnownSubAgentThreadLink_eq (existing : Option ChatMessage) (incoming : ChatMessage)
    : preserveKnownSubAgentThreadLink existing incoming = incoming
        ∨ ∃ activityType content content', incoming.body = .activity activityType content
          ∧ preserveKnownSubAgentThreadLink existing incoming
              = { incoming with body := .activity activityType content' } := by
  unfold preserveKnownSubAgentThreadLink
  split
  . next activityType content hbody =>
    dsimp only
    split
    . exact .inl rfl
    . split
      . exact .inl rfl
      . split
        . exact .inl rfl
        . exact .inr ⟨activityType, content, _, hbody, rfl⟩
  . exact .inl rfl

@[simp]
theorem preserveKnownSubAgentThreadLink_id (existing : Option ChatMessage) (incoming : ChatMessage)
    : (preserveKnownSubAgentThreadLink existing incoming).id = incoming.id := by
  rcases preserveKnownSubAgentThreadLink_eq existing incoming with heq | ⟨_, _, _, _, heq⟩ <;> rw [heq]

@[simp]
theorem isResultOf_preserveKnownSubAgentThreadLink (toolCallId : String) (existing : Option ChatMessage)
    (incoming : ChatMessage)
    : (preserveKnownSubAgentThreadLink existing incoming).body.isResultOf toolCallId
        =
      incoming.body.isResultOf toolCallId := by
  rcases preserveKnownSubAgentThreadLink_eq existing incoming with heq | ⟨_, _, _, hbody, heq⟩
  . rw [heq]
  . rw [heq, hbody]
    rfl

theorem stampToolMeta_amends (toolMeta : ChatToolMeta) (message : ChatMessage)
    : Amends message (stampToolMeta toolMeta message) := by
  unfold stampToolMeta
  dsimp only
  split
  . split
    . exact .refl message
    . exact ⟨rfl, rfl, rfl⟩
  . exact .refl message

theorem settleReasoning_amends (terminal : String → Bool) (message : ChatMessage)
    : Amends message (settleReasoning terminal message) := by
  unfold settleReasoning
  split
  . exact ⟨rfl, rfl, rfl⟩
  . exact .refl message

theorem complete_amends (terminal : String → Bool) (completedAt : Option String) (message : ChatMessage)
    : Amends message (complete terminal completedAt message) := by
  unfold complete
  cases completedAt with
  | none => exact .refl message
  | some time =>
    dsimp only
    split
    . exact .refl message
    . exact ⟨rfl, rfl, rfl⟩

/-! What the functions of the reducer do -/

section

variable (current : AgUiThreadMessageState)

/--
A message that no tool sends can be written at any time.
-/
theorem steps_upsert {message : ChatMessage} {messageId : String} (runId time : String) (hid : message.id = messageId)
    (hresult : ∀ toolCallId, message.body.isResultOf toolCallId = false)
    : Steps (· = messageId) current (current.upsertMessage message runId time) := by
  apply Relation.ReflTransGen.single
  apply Step.upsert
  . exact hid
  . intro toolCallId _ hself
    rw [hresult toolCallId] at hself
    contradiction

/--
A message that is there can be written again, as long as it stays a result or no result.
-/
theorem steps_rewrite {message existing : ChatMessage} {messageId : String} (runId time : String)
    (hfind : current.findMessage messageId = some existing) (hid : message.id = existing.id)
    (hresult : ∀ toolCallId, message.body.isResultOf toolCallId = existing.body.isResultOf toolCallId)
    : Steps (· = messageId) current (current.upsertMessage message runId time) := by
  obtain ⟨hmem, hexisting⟩ := mem_of_findMessage hfind
  apply Relation.ReflTransGen.single
  apply Step.upsert
  . exact hid.trans hexisting
  . intro toolCallId _ hself
    rw [hresult toolCallId] at hself
    exact ⟨existing, hmem, hself⟩

theorem steps_amend (f : ChatMessage → ChatMessage) (hf : ∀ message, Amends message (f message)) (written : String → Prop)
    : Steps written current { current with messages := current.messages.map f } :=
  .single (.amend current f hf)

theorem steps_rememberReplacement (messageId : String) (replaced : Option String) (written : String → Prop)
    : Steps written current (current.rememberReplacement messageId replaced) := by
  unfold rememberReplacement
  split
  . exact .refl
  . exact .single (.note _ _ rfl rfl fun _ hmem => hmem)

theorem steps_appendPlainText (messageId delta runId time : String) (defaultRole : TextRole)
    : Steps (· = messageId) current (current.appendPlainText messageId delta runId time defaultRole) := by
  unfold appendPlainText
  dsimp only
  cases hfind : current.findMessage messageId with
  | none =>
    apply steps_upsert
    . exact textMessage_id messageId defaultRole _ none time
    . exact fun toolCallId => isResultOf_textMessage toolCallId messageId defaultRole _ none time
  | some existing =>
    apply steps_rewrite current runId time hfind
    . rfl
    . exact fun toolCallId => isResultOf_withText toolCallId _ _

theorem steps_appendReasoning (messageId delta runId time : String)
    : Steps (· = messageId) current (current.appendReasoning messageId delta runId time) := by
  unfold appendReasoning
  cases hfind : current.findMessage messageId with
  | none => exact steps_upsert current runId time rfl fun _ => rfl
  | some existing =>
    apply steps_rewrite current runId time hfind
    . rfl
    . exact fun toolCallId => isResultOf_withText toolCallId _ _

theorem steps_appendText (messageId delta runId time : String) (defaultRole : Option TextRole)
    : Steps (· = messageId) current (current.appendText messageId delta runId time defaultRole) := by
  unfold appendText
  cases defaultRole with
  | none => exact steps_appendReasoning current messageId delta runId time
  | some defaultRole =>
    dsimp only
    split
    . exact steps_appendReasoning current messageId delta runId time
    . exact steps_appendPlainText current messageId delta runId time defaultRole

theorem steps_startText (messageId : String) (role : TextRole) (name : Option String) (runId time : String)
    : Steps (· = messageId) current (current.startText messageId role name runId time) := by
  unfold startText
  split
  . exact .refl
  . exact steps_upsert current runId time (textMessage_id messageId role "" name time)
      fun toolCallId => isResultOf_textMessage toolCallId messageId role "" name time

theorem steps_startReasoning (messageId runId time : String)
    : Steps (· = messageId) current (current.startReasoning messageId runId time) := by
  unfold startReasoning
  split
  . exact .refl
  . exact steps_upsert current runId time rfl fun _ => rfl

theorem steps_settle (terminal : String → Bool) (completedAt : Option String) (written : String → Prop)
    : Steps written current (current.settle terminal completedAt) :=
  steps_amend current _ (fun message => (settleReasoning_amends terminal message).trans (complete_amends _ _ _)) written

theorem steps_markTerminal (messageId : String) (completedAt : Option String) (written : String → Prop)
    : Steps written current (current.markTerminal messageId completedAt) :=
  (steps_settle current _ completedAt written).note rfl rfl fun _ hmem => hmem

theorem steps_markRunTerminal (runId : String) (completedAt : Option String) (written : String → Prop)
    : Steps written current (current.markRunTerminal runId completedAt) := by
  unfold markRunTerminal
  dsimp only
  split
  . exact .refl
  . exact (steps_settle current _ completedAt written).note rfl rfl fun _ hmem => hmem

/-! Tool calls -/

theorem steps_startToolCall (runId toolCallId toolCallName : String) (parentMessageId : Option String) (time : String)
    : Steps (· = parentMessageId.getD ("tool-call:" ++ toolCallId)) current
        (current.startToolCall runId toolCallId toolCallName parentMessageId time) := by
  have hsteps : ∀ messageId, Steps (· = messageId) current
      (current.upsertMessage (current.toolCallMessage messageId toolCallId toolCallName time) runId time) := by
    intro messageId
    unfold toolCallMessage
    dsimp only
    cases hfind : current.findMessage messageId with
    | none => exact steps_upsert current runId time rfl fun _ => rfl
    | some existing =>
      dsimp only
      split
      . next content toolCalls hbody =>
        apply steps_rewrite current runId time hfind
        . rfl
        . intro toolCallId
          rw [hbody]
          rfl
      . exact steps_upsert current runId time rfl fun _ => rfl
  unfold startToolCall
  dsimp only
  apply (hsteps (parentMessageId.getD ("tool-call:" ++ toolCallId))).note <;> dsimp only
  exact fun _ hmem => hmem

/--
A call without a message is started under its own id.
-/
def callIds (toolCallId : String) : List String :=
  ["tool-call:" ++ toolCallId, (current.toolCallMessageIdByCallId.lookup toolCallId).getD ("tool-call:" ++ toolCallId)]

theorem steps_appendToolArgs (runId toolCallId delta time : String)
    : Steps (· ∈ callIds current toolCallId) current (current.appendToolArgs runId toolCallId delta time) := by
  unfold appendToolArgs
  dsimp only
  generalize hstarted : (if current.isStarted toolCallId = true then current
    else current.startToolCall runId toolCallId "tool" none time) = started
  have hsteps : Steps (· ∈ callIds current toolCallId) current started := by
    subst hstarted
    split
    . exact .refl
    . apply (steps_startToolCall current runId toolCallId "tool" none time).mono
      rintro id rfl
      exact List.mem_cons_self
  split
  . next message hfind =>
    split
    . next content toolCalls hbody =>
      have hid : ∀ id, id = (current.toolCallMessageIdByCallId.lookup toolCallId).getD ("tool-call:" ++ toolCallId) →
          id ∈ callIds current toolCallId := by
        rintro id rfl
        exact List.mem_cons_of_mem _ List.mem_cons_self
      apply hsteps.trans
      apply Steps.mono hid
      apply steps_rewrite started runId time hfind
      . rfl
      . intro toolCallId
        rw [hbody]
        rfl
    . exact hsteps
  . exact hsteps

theorem steps_stamped (toolCallId : String) (written : String → Prop)
    : Steps written current (current.stamped toolCallId) := by
  unfold stamped
  split
  . next toolMeta _ => exact steps_amend current _ (stampToolMeta_amends toolMeta) written
  . exact .refl

theorem steps_upsertToolResult (runId messageId toolCallId content time : String)
    (hsubagent : toolCallId ∉ current.subagentToolCallIds)
    : Steps (· = messageId) current (current.upsertToolResult runId messageId toolCallId content time) := by
  have hupsert : Steps (· = messageId) current
      (current.upsertMessage { id := messageId, body := .tool toolCallId content none, createdAt := time } runId time) := by
    apply Relation.ReflTransGen.single
    apply Step.upsert
    . rfl
    . intro other hother hself
      have heq : toolCallId = other := eq_of_beq hself
      subst heq
      contradiction
  have hstamped := hupsert.trans (steps_stamped _ toolCallId (· = messageId))
  unfold upsertToolResult
  dsimp only
  apply Steps.note hstamped <;> dsimp only
  exact fun _ hmem => hmem

theorem steps_keep (keep : ChatMessage → Bool) (written : String → Prop)
    (hkeep : ∀ message ∈ current.messages, keep message = false → written message.id)
    : Steps written current (current.keepMessages keep) :=
  .single (.keep current keep hkeep)

theorem steps_appendToolResult (runId messageId toolCallId delta time : String)
    (hsubagent : toolCallId ∉ current.subagentToolCallIds)
    : Steps (· ∈ messageId :: (current.toolResultMessageIdByCallId.lookup toolCallId).toList) current
        (current.appendToolResult runId messageId toolCallId delta time) := by
  have hhead : ∀ id, id = messageId → id ∈ messageId :: (current.toolResultMessageIdByCallId.lookup toolCallId).toList := by
    rintro id rfl
    exact List.mem_cons_self
  unfold appendToolResult
  split
  . exact (steps_upsertToolResult current runId messageId toolCallId delta time hsubagent).mono hhead
  . next previousId hprevious =>
    unfold truthy at hprevious
    rw [Option.filter_eq_some_iff] at hprevious
    have hresult : ∀ (next : AgUiThreadMessageState) (text : String), toolCallId ∉ next.subagentToolCallIds →
        Steps (· ∈ messageId :: (current.toolResultMessageIdByCallId.lookup toolCallId).toList) next
          (next.upsertToolResult runId messageId toolCallId text time) :=
      fun next text hnot => (steps_upsertToolResult next runId messageId toolCallId text time hnot).mono hhead
    dsimp only
    split
    . refine Relation.ReflTransGen.trans (steps_keep current _ _ ?_) (hresult _ _ hsubagent)
      intro message _ hdrop
      have hid : message.id = previousId := by simpa using hdrop
      rw [hprevious.1, hid]
      exact List.mem_cons_of_mem _ List.mem_cons_self
    . exact hresult current _ hsubagent

theorem subset_including (id : String) (ids : List String) : ids ⊆ including id ids := by
  unfold including
  split
  . exact fun _ hmem => hmem
  . exact List.subset_append_left _ _

theorem steps_reduceActivitySnapshot (runId messageId activityType : String) (content : Json) (time : String)
    : Steps
        (· ∈ messageId :: (subAgentCallId (.activity activityType content)).toList.flatMap fun toolCallId =>
          (current.toolCallMessageIdByCallId.lookup toolCallId).toList
          ++ (current.toolResultMessageIdByCallId.lookup toolCallId).toList)
        current (current.reduceActivitySnapshot runId messageId activityType content time) := by
  unfold reduceActivitySnapshot createActivityMessage
  dsimp only
  have hcard : ∀ (next : AgUiThreadMessageState), Steps (· = messageId) next
      (next.upsertMessage (preserveKnownSubAgentThreadLink (next.findMessage messageId)
        { id := messageId, body := .activity activityType content, createdAt := time }) runId time) := by
    intro next
    apply steps_upsert
    . exact preserveKnownSubAgentThreadLink_id _ _
    . intro toolCallId
      exact isResultOf_preserveKnownSubAgentThreadLink toolCallId _ _
  cases hcall : subAgentCallId (.activity activityType content) with
  | none =>
    apply (hcard current).mono
    rintro id rfl
    exact List.mem_cons_self
  | some toolCallId =>
    refine Relation.ReflTransGen.trans ?_ ((hcard _).mono ?_)
    . unfold withoutGenericTool suppress
      dsimp only
      refine Steps.note (steps_keep current _ _ ?_) rfl rfl (subset_including _ _)
      intro message _ hdrop
      rw [Option.toList_some, List.flatMap_singleton]
      apply List.mem_cons_of_mem
      have hmem : some message.id = current.toolCallMessageIdByCallId.lookup toolCallId
          ∨ some message.id = current.toolResultMessageIdByCallId.lookup toolCallId := by
        simpa [or_iff_not_imp_left] using hdrop
      rw [List.mem_append]
      rcases hmem with heq | heq
      . exact .inl (heq ▸ List.mem_singleton_self _)
      . exact .inr (heq ▸ List.mem_singleton_self _)
    . rintro id rfl
      exact List.mem_cons_self

theorem steps_updateEncryptedValue (entityId encryptedValue : String) (ofToolCall : Bool)
    : Steps (· ∈ entityId :: (current.toolCallMessageIdByCallId.lookup entityId).toList) current
        (current.updateEncryptedValue entityId encryptedValue ofToolCall) := by
  unfold updateEncryptedValue
  split
  . split
    . next message hfind =>
      apply Steps.mono ?_ (steps_rewrite current _ _ hfind _ _)
      . rintro id rfl
        exact List.mem_cons_self
      . rfl
      . exact fun _ => rfl
    . exact .refl
  . split
    . next message hfind =>
      rw [Option.bind_eq_some_iff] at hfind
      obtain ⟨messageId, hlookup, hfind⟩ := hfind
      unfold truthy at hlookup
      rw [Option.filter_eq_some_iff] at hlookup
      split
      . next content toolCalls hbody =>
        apply Steps.mono ?_ (steps_rewrite current _ _ hfind _ _)
        . rintro id rfl
          rw [hlookup.1]
          exact List.mem_cons_of_mem _ List.mem_cons_self
        . rfl
        . intro toolCallId
          rw [hbody]
          rfl
      . exact .refl
    . exact .refl

end

end Mobile.Thread
