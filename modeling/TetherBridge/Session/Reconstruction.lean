import TetherBridge.Snapshot.HeldMessages
import TetherBridge.Session.Impl
import TetherBridge.Transition.Basic

/-!
This module contains the ids that a session gives to messages which come without one, and what a reconstruction
does to them: it is rolled back exactly, and an id that is given to a new message is not one that is still held.
-/

namespace Session

open Acp Std Snapshot Transition

/--
The name of the variant, as `Debug` prints it.
-/
def roleDebug : MessageRole → String
  | .user => "User"
  | .agent => "Agent"
  | .thought => "Thought"

def historyMessageId (threadId : String) (serial : Nat) (role : MessageRole) : String :=
  threadId ++ ":history-" ++ serial.repr ++ ":" ++ roleDebug role

def liveMessageId (threadId : String) (generation serial : Nat) (role : MessageRole) : String :=
  threadId ++ ":" ++ generation.repr ++ ":" ++ serial.repr ++ ":" ++ roleDebug role

theorem not_mem_repr {c : Char} (hc : c.isDigit = false) (n : Nat) : c ∉ n.repr.toList := by
  intro hmem
  rw [Text.isDigit_of_mem_repr hmem] at hc
  cases hc

theorem serial_of_suffix {n m : Nat} {rest rest' : List Char}
    (h : n.repr.toList ++ ':' :: rest = m.repr.toList ++ ':' :: rest')
    : n = m ∧ rest = rest' := by
  have hsplit := Text.append_cons_inj (not_mem_repr (by decide) n) (not_mem_repr (by decide) m) h
  exact ⟨Text.repr_injective (String.toList_inj.mp hsplit.1), hsplit.2⟩

theorem toList_historyMessageId (threadId : String) (serial : Nat) (role : MessageRole)
    : (historyMessageId threadId serial role).toList
        = threadId.toList ++ (":history-".toList ++ (serial.repr.toList ++ ':' :: (roleDebug role).toList)) := by
  unfold historyMessageId
  simp only [String.toList_append, List.append_assoc]
  rfl

theorem toList_liveMessageId (threadId : String) (generation serial : Nat) (role : MessageRole)
    : (liveMessageId threadId generation serial role).toList
        = threadId.toList ++ (':' :: (generation.repr.toList
          ++ ':' :: (serial.repr.toList ++ ':' :: (roleDebug role).toList))) := by
  unfold liveMessageId
  simp only [String.toList_append, List.append_assoc]
  rfl

/--
The serial of an id can be read off.
-/
theorem historyMessageId_inj {threadId : String} {serial other : Nat} {role otherRole : MessageRole}
    (h : historyMessageId threadId serial role = historyMessageId threadId other otherRole)
    : serial = other := by
  have hlist := congrArg String.toList h
  rw [toList_historyMessageId, toList_historyMessageId, List.append_cancel_left_eq, List.append_cancel_left_eq] at hlist
  exact (serial_of_suffix hlist).1

theorem liveMessageId_inj {threadId : String} {generation serial otherGeneration other : Nat}
    {role otherRole : MessageRole}
    (h : liveMessageId threadId generation serial role = liveMessageId threadId otherGeneration other otherRole)
    : serial = other := by
  have hlist := congrArg String.toList h
  rw [toList_liveMessageId, toList_liveMessageId, List.append_cancel_left_eq, List.cons_eq_cons] at hlist
  exact (serial_of_suffix (serial_of_suffix hlist.2).2).1

theorem historyMessageId_ne_liveMessageId {threadId : String} {serial generation other : Nat}
    {role otherRole : MessageRole}
    : historyMessageId threadId serial role ≠ liveMessageId threadId generation other otherRole := by
  intro h
  have hlist := congrArg String.toList h
  rw [toList_historyMessageId, toList_liveMessageId, List.append_cancel_left_eq] at hlist
  have hprefix : ":history-".toList = ':' :: 'h' :: "istory-".toList := rfl
  rw [ hprefix, List.cons_append, List.cons_append, List.cons_eq_cons] at hlist
  have hrest := hlist.2
  cases hrepr : generation.repr.toList with
  | nil =>
    rw [hrepr, List.nil_append, List.cons_eq_cons] at hrest
    exact absurd hrest.1 (by decide)
  | cons c cs =>
    rw [hrepr, List.cons_append, List.cons_eq_cons] at hrest
    have hmem : 'h' ∈ generation.repr.toList := by
      rw [hrepr, ← hrest.1]
      exact List.mem_cons_self
    exact absurd hmem (not_mem_repr (by decide) generation)

def suppliedMessageId (role : MessageRole) (id : String) : String :=
  match role with
  | .user => id
  | .agent => id ++ "::agent"
  | .thought => id ++ "::thought"

/--
The state of a session together with the serial of its live messages.
-/
structure MessageSession where
  inner : SessionState
  liveSerial : Nat := 0

namespace MessageSession

def new (agentId threadId : String) : MessageSession :=
  { inner := .new agentId threadId }

variable (s : MessageSession)

/--
A replayed message begins whenever the speaker changes.
-/
def historyMessage (role : MessageRole) : MessageSession :=
  if s.inner.historyRole = some role then
    s
  else
    { s with
      inner := { s.inner with
        historyRole := some role
        historySerial := saturatingAdd U64_MAX s.inner.historySerial 1 } }

def openMessage (role : MessageRole) (generation : Nat) : MessageSession × String :=
  let serial := saturatingAdd U64_MAX s.liveSerial 1
  let id := liveMessageId s.inner.snapshot.threadId generation serial role
  ({ s with
      inner := { s.inner with openMessages := s.inner.openMessages.insert generation (role, id) }
      liveSerial := serial }, id)

def messageIdForGeneration (role : MessageRole) (supplied : Option String) (generation : Option Nat)
    : MessageSession × String :=
  match supplied, generation with
  | some id, _ => (s, suppliedMessageId role id)
  | none, none =>
    let s := s.historyMessage role
    (s, historyMessageId s.inner.snapshot.threadId s.inner.historySerial role)
  | none, some generation =>
    match s.inner.openMessages[generation]? with
    | some (openRole, id) => if openRole = role then (s, id) else s.openMessage role generation
    | none => s.openMessage role generation

def beginInitialReconstruction : SessionState :=
  { s.inner with
    snapshot := { s.inner.snapshot with historyReconstruction := true }
    reconstructionBackup := some (.new s.inner.snapshot.agentId s.inner.snapshot.threadId) }

/--
What happens to a session. A chunk is received and given an id; the other events of `emit` and of `seed_history`
have the id they come with.
-/
inductive Step where
  | receive (role : MessageRole) (supplied : Option String) (operation : Option (String × String × Nat))
      (content : String) (contentBlock : Option Json)
  | emit (event : CanonicalEvent)
  | seedHistory (events : List CanonicalEvent)
  | perform (operation : Operation)
  | admitPrompt (runId sourceTurnId : String)
  | admitHandoff (runId sourceTurnId : String)
  | reserveHandoff (runId sourceTurnId : String) (generation : Nat)
  | releaseHandoff
  | markCancelling
  | beginReconstruction
  | beginInitialReconstruction
  | finishReconstruction (commit : Bool)

def chunkEvent (role : MessageRole) (messageId : String) (operation : Option (String × String × Nat))
    (content : String) (contentBlock : Option Json) : CanonicalEvent :=
  .messageChunk s.inner.snapshot.agentId s.inner.snapshot.threadId (operation.map (·.1)) (operation.map (·.2.1))
    (operation.map (·.2.2)) role messageId content contentBlock

def emit (event : CanonicalEvent) : Option MessageSession :=
  (s.inner.emit event).toOption.map fun (inner, _) => { s with inner }

def answerAdmission (answer : Except String (Except Panic (SessionState × Nat × CanonicalEvent))) : Option MessageSession :=
  match answer with
  | .error _ => some s
  | .ok started => started.toOption.map fun (inner, _, _) => { s with inner }

/--
A reconstruction holds the operation lock until it is finished, so the methods that take it wait.
-/
def locked : Bool :=
  s.inner.reconstructionBackup.isSome

def step (s : MessageSession) : Step → Option MessageSession
  | .receive role supplied operation content contentBlock =>
    let (s, messageId) := s.messageIdForGeneration role supplied (operation.map (·.2.2))
    s.emit (s.chunkEvent role messageId operation content contentBlock)
  | .emit event => s.emit event
  | .seedHistory events => (s.inner.seedHistory events).toOption.map fun (inner, _) => { s with inner }
  | .perform operation =>
    (s.inner.snapshot.perform operation).toOption.map fun snapshot => { s with inner := { s.inner with snapshot } }
  | .admitPrompt runId sourceTurnId =>
    if s.locked then none else s.answerAdmission (s.inner.admitPrompt runId sourceTurnId)
  | .admitHandoff runId sourceTurnId =>
    if s.locked then none else s.answerAdmission (s.inner.admitHandoff runId sourceTurnId)
  | .reserveHandoff runId sourceTurnId generation =>
    if s.locked then
      none
    else
      match s.inner.reserveHandoff runId sourceTurnId generation with
      | .error _ => some s
      | .ok inner => some { s with inner }
  | .releaseHandoff => if s.locked then none else some { s with inner := s.inner.releaseHandoff }
  | .markCancelling => some { s with inner := s.inner.markCancelling.1 }
  | .beginReconstruction =>
    if s.locked then
      none
    else
      match s.inner.beginReconstruction with
      | .error _ => some s
      | .ok inner => some { s with inner }
  | .beginInitialReconstruction =>
    if s.locked then none else some { s with inner := s.beginInitialReconstruction }
  | .finishReconstruction commit =>
    if s.locked then (s.inner.finishReconstruction commit).toOption.map fun inner => { s with inner } else none

/-! Rolling back -/

/--
What a reconstruction goes back to: the snapshot and the cursor of the history ids.
-/
structure SavedAs (snapshot : SessionSnapshot) (cursor : Option MessageRole × Nat) (s : MessageSession) : Prop where
  backup : s.inner.reconstructionBackup = some snapshot
  cursor : s.inner.reconstructionHistoryCursor = some cursor

variable {s} {t : MessageSession} {snapshot : SessionSnapshot} {cursor : Option MessageRole × Nat}

theorem SavedAs.congr (h : s.SavedAs snapshot cursor)
    (hbackup : t.inner.reconstructionBackup = s.inner.reconstructionBackup)
    (hcursor : t.inner.reconstructionHistoryCursor = s.inner.reconstructionHistoryCursor)
    : t.SavedAs snapshot cursor :=
  ⟨hbackup.trans h.backup, hcursor.trans h.cursor⟩

theorem messageIdForGeneration_saved (h : s.SavedAs snapshot cursor) (role : MessageRole) (supplied : Option String)
    (generation : Option Nat)
    : (s.messageIdForGeneration role supplied generation).1.SavedAs snapshot cursor := by
  unfold messageIdForGeneration
  split
  . exact h
  . dsimp only
    unfold historyMessage
    split
    . exact h
    . exact h.congr rfl rfl
  . split
    . split
      . exact h
      . exact h.congr rfl rfl
    . exact h.congr rfl rfl

theorem settleGeneration_frame {s t : SessionState} {generation : Nat} (h : s.settleGeneration generation = some t)
    : ∃ generationState openMessages, t = { s with generationState, openMessages }
        ∧ ∀ (other : Nat) opened, openMessages[other]? = some opened → s.openMessages[other]? = some opened := by
  have herase : ∀ (other : Nat) opened, (s.openMessages.erase generation)[other]? = some opened →
      s.openMessages[other]? = some opened := by
    intro other opened hopened
    rw [TreeMap.getElem?_erase] at hopened
    split at hopened
    . cases hopened
    . exact hopened
  unfold SessionState.settleGeneration at h
  split at h
  case h_4 => cases h
  all_goals
    split at h
    . exact ⟨_, _, (Option.some.inj h).symm, herase⟩
    . cases h

/--
Before the event is applied, a run may be settled and a message may be closed.
-/
theorem prepareEmit_frame {s t : SessionState} {event : CanonicalEvent} (h : s.prepareEmit event = some t)
    : ∃ generationState openMessages, t = { s with generationState, openMessages }
        ∧ ∀ (other : Nat) opened, openMessages[other]? = some opened → s.openMessages[other]? = some opened := by
  unfold SessionState.prepareEmit at h
  split at h
  . exact settleGeneration_frame h
  . exact settleGeneration_frame h
  . split at h
    . exact ⟨_, _, (Option.some.inj h).symm, fun _ _ hopened => hopened⟩
    . refine ⟨_, _, (Option.some.inj h).symm, ?_⟩
      intro other opened hopened
      rw [TreeMap.getElem?_erase] at hopened
      split at hopened
      . cases hopened
      . exact hopened
  . exact ⟨_, _, (Option.some.inj h).symm, fun _ _ hopened => hopened⟩

theorem emit_eq_some {event : CanonicalEvent} (h : s.emit event = some t)
    : t = s ∨ ∃ generationState openMessages snapshot,
        t = { s with inner := { s.inner with generationState, openMessages, snapshot } }
          ∧ s.inner.snapshot.apply event = .ok snapshot
          ∧ ∀ (other : Nat) opened, openMessages[other]? = some opened → s.inner.openMessages[other]? = some opened := by
  unfold emit at h
  rcases Option.map_eq_some_iff.mp h with ⟨⟨inner, sent⟩, hemit, rfl⟩
  rw [Except.toOption_eq_some] at hemit
  rcases SessionState.emit_eq_ok hemit with ⟨-, rfl, -⟩ | ⟨prepared, snapshot, hprepared, happly, rfl, -⟩
  . exact .inl rfl
  . rcases prepareEmit_frame hprepared with ⟨generationState, openMessages, rfl, hopened⟩
    exact .inr ⟨generationState, openMessages, snapshot, rfl, happly, hopened⟩

theorem emit_saved {event : CanonicalEvent} (h : s.SavedAs snapshot cursor) (hstep : s.emit event = some t)
    : t.SavedAs snapshot cursor := by
  rcases emit_eq_some hstep with rfl | ⟨_, _, _, rfl, -⟩
  . exact h
  . exact h.congr rfl rfl

/--
As long as the reconstruction is not finished, what it goes back to stays the same.
-/
theorem step_saved {label : Step} (h : s.SavedAs snapshot cursor) (hlabel : ∀ commit, label ≠ .finishReconstruction commit)
    (hstep : s.step label = some t)
    : t.SavedAs snapshot cursor := by
  have hlocked : s.locked = true := by
    unfold locked
    rw [h.backup]
    rfl
  cases label with
  | receive role supplied operation content contentBlock =>
    exact emit_saved (messageIdForGeneration_saved h role supplied _) hstep
  | emit event => exact emit_saved h hstep
  | seedHistory events =>
    rcases Option.map_eq_some_iff.mp hstep with ⟨⟨inner, sent⟩, hseed, rfl⟩
    rw [Except.toOption_eq_some] at hseed
    rcases SessionState.seedHistory_eq_ok hseed with ⟨rfl, -⟩ | ⟨_, -, rfl, -⟩
    . exact h
    . exact h.congr rfl rfl
  | perform operation =>
    rcases Option.map_eq_some_iff.mp hstep with ⟨_, -, rfl⟩
    exact h.congr rfl rfl
  | markCancelling =>
    injection hstep with hstep
    subst hstep
    unfold SessionState.markCancelling
    split <;> exact h.congr rfl rfl
  | finishReconstruction commit => exact absurd rfl (hlabel commit)
  | admitPrompt | admitHandoff | reserveHandoff | releaseHandoff | beginReconstruction | beginInitialReconstruction =>
    unfold step at hstep
    dsimp only at hstep
    rw [if_pos hlocked] at hstep
    cases hstep

theorem exec_saved {labels : List Step} (h : s.SavedAs snapshot cursor)
    (hlabels : ∀ label ∈ labels, ∀ commit, label ≠ .finishReconstruction commit)
    (hexec : exec step s labels = some t)
    : t.SavedAs snapshot cursor := by
  induction labels generalizing s with
  | nil =>
    injection hexec with hexec
    exact hexec ▸ h
  | cons label labels ih =>
    rcases exec_cons_eq_some.mp hexec with ⟨u, hstep, hrest⟩
    exact ih (step_saved h (hlabels label List.mem_cons_self) hstep)
      (fun other hother => hlabels other (List.mem_cons_of_mem label hother)) hrest

/--
Without a commit the snapshot and the cursor are back.
-/
theorem finishReconstruction_rollsBack (h : s.SavedAs snapshot cursor)
    : ∃ u, s.step (.finishReconstruction false) = some u ∧ u.inner.snapshot = snapshot
        ∧ (u.inner.historyRole, u.inner.historySerial) = cursor := by
  have hlocked : s.locked = true := by
    unfold locked
    rw [h.backup]
    rfl
  unfold step SessionState.finishReconstruction
  dsimp only
  rw [if_pos hlocked, h.backup]
  dsimp only
  unfold SessionState.reconstructed SessionState.restoreCursor
  rw [h.cursor]
  exact ⟨_, rfl, rfl, rfl⟩

theorem beginReconstruction_saved {inner : SessionState} (h : s.inner.beginReconstruction = .ok inner)
    : SavedAs s.inner.snapshot (s.inner.historyRole, s.inner.historySerial) { s with inner } := by
  unfold SessionState.beginReconstruction at h
  split at h
  case h_4 =>
    injection h with h
    subst h
    exact ⟨rfl, rfl⟩
  all_goals cases h

/-! The ids that are given out -/

/--
The id is not one that was given out after these serials.
-/
structure Below (threadId : String) (historySerial liveSerial : Nat) (id : String) : Prop where
  history : ∀ serial role, id = historyMessageId threadId serial role → serial ≤ historySerial
  live : ∀ generation serial role, id = liveMessageId threadId generation serial role → serial ≤ liveSerial

/--
The id is not of the form that the session gives out itself.
-/
structure Foreign (threadId id : String) : Prop where
  history : ∀ serial role, id ≠ historyMessageId threadId serial role
  live : ∀ generation serial role, id ≠ liveMessageId threadId generation serial role

variable {threadId : String}

theorem Foreign.below {id : String} (h : Foreign threadId id) (historySerial liveSerial : Nat)
    : Below threadId historySerial liveSerial id :=
  ⟨fun serial role hid => absurd hid (h.history serial role),
    fun generation serial role hid => absurd hid (h.live generation serial role)⟩

theorem Below.mono {historySerial historySerial' liveSerial liveSerial' : Nat} {id : String}
    (h : Below threadId historySerial liveSerial id) (hhistory : historySerial ≤ historySerial')
    (hlive : liveSerial ≤ liveSerial')
    : Below threadId historySerial' liveSerial' id :=
  ⟨fun serial role hid => Nat.le_trans (h.history serial role hid) hhistory,
    fun generation serial role hid => Nat.le_trans (h.live generation serial role hid) hlive⟩

theorem below_historyMessageId {serial historySerial : Nat} (hle : serial ≤ historySerial) (liveSerial : Nat)
    (role : MessageRole)
    : Below threadId historySerial liveSerial (historyMessageId threadId serial role) where
  history other otherRole hid := by
    rw [← historyMessageId_inj hid]
    exact hle
  live generation other otherRole hid := absurd hid historyMessageId_ne_liveMessageId

theorem below_liveMessageId {serial liveSerial : Nat} (hle : serial ≤ liveSerial) (historySerial generation : Nat)
    (role : MessageRole)
    : Below threadId historySerial liveSerial (liveMessageId threadId generation serial role) where
  history other otherRole hid := absurd hid.symm historyMessageId_ne_liveMessageId
  live otherGeneration other otherRole hid := by
    rw [← liveMessageId_inj hid]
    exact hle

/--
The serial the history ids go on with when the transcript from before is restored.
-/
def savedSerial (s : MessageSession) : Nat :=
  match s.inner.reconstructionHistoryCursor with
  | some (_, serial) => serial
  | none => s.inner.historySerial

/--
The messages that are held, and those a reconstruction may go back to, have ids that were given out already.
-/
structure Issued (threadId : String) (s : MessageSession) : Prop where
  held : s.inner.snapshot.HoldsMessages threadId (Below threadId s.inner.historySerial s.liveSerial)
  saved : ∀ previous, s.inner.reconstructionBackup = some previous →
    previous.HoldsMessages threadId (Below threadId s.savedSerial s.liveSerial)
  opened : ∀ (generation : Nat) role id, s.inner.openMessages[generation]? = some (role, id) →
    ∃ serial, serial ≤ s.liveSerial ∧ id = liveMessageId threadId generation serial role
  historySerial_le : s.inner.historySerial ≤ U64_MAX
  savedSerial_le : s.savedSerial ≤ U64_MAX
  liveSerial_le : s.liveSerial ≤ U64_MAX

namespace Issued

theorem init (agentId threadId : String) : Issued threadId (.new agentId threadId) where
  held := SessionSnapshot.new_holdsMessages agentId threadId
  saved _ hprevious := by
    cases hprevious
  opened generation role id hopened := by
    have hempty : (∅ : TreeMap Nat (MessageRole × String))[generation]? = some (role, id) := hopened
    simp at hempty
  historySerial_le := Nat.zero_le _
  savedSerial_le := Nat.zero_le _
  liveSerial_le := Nat.zero_le _

/--
The snapshot and the run go on, and messages may be closed.
-/
theorem withSnapshot (h : s.Issued threadId) {snapshot : SessionSnapshot}
    (hsnapshot : snapshot.HoldsMessages threadId (Below threadId s.inner.historySerial s.liveSerial))
    (generationState : GenerationState) (nextGeneration : Nat)
    {openMessages : TreeMap Nat (MessageRole × String)}
    (hopened : ∀ (generation : Nat) opened, openMessages[generation]? = some opened →
      s.inner.openMessages[generation]? = some opened)
    : Issued threadId
        { s with inner := { s.inner with snapshot, generationState, nextGeneration, openMessages } } where
  held := hsnapshot
  saved := h.saved
  opened generation role id hid := h.opened generation role id (hopened generation (role, id) hid)
  historySerial_le := h.historySerial_le
  savedSerial_le := h.savedSerial_le
  liveSerial_le := h.liveSerial_le

theorem emit (h : s.Issued threadId) {event : CanonicalEvent}
    (hchunk : ∀ id, event.chunkId? = some id → Below threadId s.inner.historySerial s.liveSerial id)
    (hstep : s.emit event = some t)
    : t.Issued threadId := by
  rcases emit_eq_some hstep with rfl | ⟨generationState, openMessages, snapshot, rfl, happly, hopened⟩
  . exact h
  . exact h.withSnapshot ((SessionSnapshot.apply_holdsMessages h.held hchunk).of_ok happly) generationState _ hopened

theorem historyMessage (h : s.Issued threadId) (role : MessageRole) : (s.historyMessage role).Issued threadId := by
  unfold MessageSession.historyMessage
  split
  . exact h
  . have hle := le_saturatingAdd h.historySerial_le 1
    have hsaved : s.savedSerial ≤ savedSerial { s with
        inner := { s.inner with
          historyRole := some role
          historySerial := saturatingAdd U64_MAX s.inner.historySerial 1 } } := by
      unfold savedSerial
      dsimp only
      cases s.inner.reconstructionHistoryCursor with
      | none => exact hle
      | some cursor => exact Nat.le_refl _
    constructor
    . exact h.held.mono fun _ hid => hid.mono hle (Nat.le_refl _)
    . intro previous hprevious
      exact (h.saved previous hprevious).mono fun _ hid => hid.mono hsaved (Nat.le_refl _)
    . exact h.opened
    . exact saturatingAdd_le _ _ _
    . have hmax := h.savedSerial_le
      unfold savedSerial at hmax ⊢
      dsimp only
      cases hcursor : s.inner.reconstructionHistoryCursor with
      | none => exact saturatingAdd_le _ _ _
      | some cursor =>
        rw [hcursor] at hmax
        exact hmax
    . exact h.liveSerial_le

theorem openMessage (h : s.Issued threadId) (role : MessageRole) (generation : Nat)
    : (s.openMessage role generation).1.Issued threadId := by
  have hle := le_saturatingAdd h.liveSerial_le 1
  unfold MessageSession.openMessage
  constructor
  . exact h.held.mono fun _ hid => hid.mono (Nat.le_refl _) hle
  . intro previous hprevious
    exact (h.saved previous hprevious).mono fun _ hid => hid.mono (Nat.le_refl _) hle
  . intro other openRole id hid
    dsimp only at hid
    rw [TreeMap.getElem?_insert] at hid
    split at hid
    . next heq =>
      rw [Std.compare_eq_iff_eq] at heq
      injection hid with hid
      injection hid with hrole hid
      subst heq hrole
      exact ⟨_, Nat.le_refl _, by rw [← hid, h.held.threadId]⟩
    . rcases h.opened other openRole id hid with ⟨serial, hserial, hid⟩
      exact ⟨serial, Nat.le_trans hserial hle, hid⟩
  . exact h.historySerial_le
  . exact h.savedSerial_le
  . exact saturatingAdd_le _ _ _

/--
The id that is given out counts as given out from then on.
-/
theorem messageIdForGeneration (h : s.Issued threadId) (role : MessageRole) {supplied : Option String}
    (hsupplied : ∀ id, supplied = some id → Foreign threadId (suppliedMessageId role id)) (generation : Option Nat)
    : (s.messageIdForGeneration role supplied generation).1.Issued threadId
        ∧ Below threadId (s.messageIdForGeneration role supplied generation).1.inner.historySerial
          (s.messageIdForGeneration role supplied generation).1.liveSerial
          (s.messageIdForGeneration role supplied generation).2 := by
  cases supplied with
  | some id =>
    unfold MessageSession.messageIdForGeneration
    exact ⟨h, (hsupplied id rfl).below _ _⟩
  | none =>
    cases generation with
    | none =>
      unfold MessageSession.messageIdForGeneration
      have hissued := h.historyMessage role
      refine ⟨hissued, ?_⟩
      dsimp only
      rw [hissued.held.threadId]
      exact below_historyMessageId (Nat.le_refl _) _ role
    | some generation =>
      have hnew : (s.openMessage role generation).1.Issued threadId
          ∧ Below threadId (s.openMessage role generation).1.inner.historySerial
            (s.openMessage role generation).1.liveSerial (s.openMessage role generation).2 := by
        refine ⟨h.openMessage role generation, ?_⟩
        unfold MessageSession.openMessage
        dsimp only
        rw [h.held.threadId]
        exact below_liveMessageId (Nat.le_refl _) _ generation role
      unfold MessageSession.messageIdForGeneration
      dsimp only
      split
      . next openRole id hopened =>
        split
        . rcases h.opened generation openRole id hopened with ⟨serial, hserial, hid⟩
          refine ⟨h, ?_⟩
          rw [hid]
          exact below_liveMessageId hserial _ generation openRole
        . exact hnew
      . exact hnew

theorem startRun (h : s.Issued threadId) {runId sourceTurnId : String} {inner : SessionState} {generation : Nat}
    {event : CanonicalEvent} (hstart : s.inner.startRun runId sourceTurnId = .ok (inner, generation, event))
    : Issued threadId { s with inner } := by
  rcases SessionState.startRun_eq_ok hstart with ⟨-, hevent, snapshot, happly, rfl⟩
  refine h.withSnapshot ?_ _ _ fun _ _ hopened => hopened
  apply (SessionSnapshot.apply_holdsMessages h.held ?_).of_ok happly
  intro id hid
  rw [hevent] at hid
  cases hid

theorem answerAdmission (h : s.Issued threadId) {answer : Except String (Except Panic (SessionState × Nat × CanonicalEvent))}
    (hanswer : ∀ started, answer = .ok started →
      ∃ runId sourceTurnId, started = s.inner.startRun runId sourceTurnId)
    (hstep : s.answerAdmission answer = some t)
    : t.Issued threadId := by
  unfold MessageSession.answerAdmission at hstep
  split at hstep
  . injection hstep with hstep
    exact hstep ▸ h
  . next started =>
    rcases Option.map_eq_some_iff.mp hstep with ⟨⟨inner, generation, event⟩, hstarted, rfl⟩
    rcases hanswer started rfl with ⟨runId, sourceTurnId, hstart⟩
    rw [Except.toOption_eq_some, hstart] at hstarted
    exact h.startRun hstarted

theorem beginReconstruction (h : s.Issued threadId) {inner : SessionState}
    (hbegin : s.inner.beginReconstruction = .ok inner)
    : Issued threadId { s with inner } := by
  unfold SessionState.beginReconstruction at hbegin
  split at hbegin
  case h_4 =>
    injection hbegin with hbegin
    subst hbegin
    have hthread := h.held.threadId
    subst hthread
    constructor
    . exact (SessionSnapshot.new_holdsMessages s.inner.snapshot.agentId s.inner.snapshot.threadId).congr rfl rfl rfl
    . intro previous hprevious
      injection hprevious with hprevious
      exact hprevious ▸ h.held
    . intro generation role id hid
      dsimp only at hid
      simp at hid
    . exact Nat.zero_le _
    . exact h.historySerial_le
    . exact h.liveSerial_le
  all_goals cases hbegin

theorem beginInitialReconstruction (h : s.Issued threadId)
    : Issued threadId { s with inner := s.beginInitialReconstruction } where
  held := h.held.congr rfl rfl rfl
  saved previous hprevious := by
    injection hprevious with hprevious
    subst hprevious
    have hthread := h.held.threadId
    subst hthread
    exact SessionSnapshot.new_holdsMessages s.inner.snapshot.agentId s.inner.snapshot.threadId
  opened := h.opened
  historySerial_le := h.historySerial_le
  savedSerial_le := h.savedSerial_le
  liveSerial_le := h.liveSerial_le

/--
The snapshot the session goes on with holds ids from below the serial it goes on with.
-/
theorem reconstructed (h : s.Issued threadId) {previous : SessionSnapshot}
    (hbackup : s.inner.reconstructionBackup = some previous) (commit : Bool)
    : (s.inner.reconstructed previous commit).1.HoldsMessages threadId
        (Below threadId (s.inner.restoreCursor (s.inner.reconstructed previous commit).2).historySerial s.liveSerial) := by
  have hprevious := h.saved previous hbackup
  have hrestored : (s.inner.restoreCursor true).historySerial = s.savedSerial := by
    unfold SessionState.restoreCursor savedSerial
    cases s.inner.reconstructionHistoryCursor <;> rfl
  have hkept : s.inner.restoreCursor false = s.inner := by
    unfold SessionState.restoreCursor
    cases s.inner.reconstructionHistoryCursor <;> rfl
  unfold SessionState.reconstructed
  split
  . dsimp only
    rw [hrestored]
    exact hprevious
  . split
    . dsimp only
      rw [hrestored]
      exact SessionSnapshot.restoreTranscriptFrom_holdsMessages h.held.threadId hprevious
    . dsimp only
      rw [hkept]
      exact h.held

theorem restoreCursor_frame (h : s.Issued threadId) (restored : Bool)
    : (s.inner.restoreCursor restored).historySerial ≤ U64_MAX
        ∧ (s.inner.restoreCursor restored).openMessages = s.inner.openMessages := by
  have hsaved := h.savedSerial_le
  unfold savedSerial at hsaved
  unfold SessionState.restoreCursor
  cases hcursor : s.inner.reconstructionHistoryCursor with
  | none => exact ⟨h.historySerial_le, rfl⟩
  | some cursor =>
    rw [hcursor] at hsaved
    dsimp only
    split
    . exact ⟨hsaved, rfl⟩
    . exact ⟨h.historySerial_le, rfl⟩

theorem finishReconstruction (h : s.Issued threadId) {commit : Bool} {inner : SessionState}
    (hfinish : s.inner.finishReconstruction commit = .ok inner)
    : Issued threadId { s with inner } := by
  unfold SessionState.finishReconstruction at hfinish
  split at hfinish
  . next hbackup =>
    injection hfinish with hfinish
    subst hfinish
    refine ⟨h.held, ?_, h.opened, h.historySerial_le, h.historySerial_le, h.liveSerial_le⟩
    intro previous hprevious
    dsimp only at hprevious
    rw [hbackup] at hprevious
    cases hprevious
  . next previous hbackup =>
    have hheld := h.reconstructed hbackup commit
    have hcursor := h.restoreCursor_frame (s.inner.reconstructed previous commit).2
    generalize s.inner.reconstructed previous commit = result at hfinish hheld hcursor
    rcases result with ⟨snapshot, restored⟩
    dsimp only at hfinish hheld hcursor
    have hissued : ∀ settled : SessionSnapshot, settled.HoldsMessages threadId
        (Below threadId (s.inner.restoreCursor restored).historySerial s.liveSerial) → Issued threadId
          { s with inner := { s.inner.restoreCursor restored with
            reconstructionHistoryCursor := none, reconstructionBackup := none, snapshot := settled } } := by
      intro settled hsettled
      refine ⟨hsettled, ?_, ?_, hcursor.1, hcursor.1, h.liveSerial_le⟩
      . intro other hother
        cases hother
      . rw [hcursor.2]
        exact h.opened
    split at hfinish
    . rw [Except.bind_eq_ok] at hfinish
      rcases hfinish with ⟨settled, hsettle, hfinish⟩
      injection hfinish with hfinish
      subst hfinish
      apply hissued
      apply (SessionSnapshot.settleUnresolvedSubagentsWithoutRun_keeps
        SessionSnapshot.keptByTools_messages.updates _).of_ok hsettle
      exact hheld.congr rfl rfl rfl
    . injection hfinish with hfinish
      subst hfinish
      exact hissued snapshot hheld

end Issued

/--
A chunk that comes with an id of its own does not come with one that the session may give out.
-/
def Step.Foreign (threadId : String) : Step → Prop
  | .receive role supplied _ _ _ => ∀ id, supplied = some id → MessageSession.Foreign threadId (suppliedMessageId role id)
  | .emit event => ∀ id, event.chunkId? = some id → MessageSession.Foreign threadId id
  | .seedHistory events => ∀ event ∈ events, ∀ id, event.chunkId? = some id → MessageSession.Foreign threadId id
  | .perform operation => ∀ event, operation = .apply event → ∀ id, event.chunkId? = some id →
    MessageSession.Foreign threadId id
  | _ => True

theorem foldlM_holdsMessages {P : String → Prop} {events : List CanonicalEvent} {before after : SessionSnapshot}
    (h : before.HoldsMessages threadId P) (hchunk : ∀ event ∈ events, ∀ id, event.chunkId? = some id → P id)
    (hfold : events.foldlM SessionSnapshot.apply before = .ok after)
    : after.HoldsMessages threadId P := by
  induction events generalizing before with
  | nil =>
    injection hfold with hfold
    exact hfold ▸ h
  | cons event events ih =>
    rw [List.foldlM_cons, Except.bind_eq_ok] at hfold
    rcases hfold with ⟨middle, happly, hrest⟩
    have hmiddle := (SessionSnapshot.apply_holdsMessages h (hchunk event List.mem_cons_self)).of_ok happly
    exact ih hmiddle (fun other hother => hchunk other (List.mem_cons_of_mem event hother)) hrest

theorem step_issued {label : Step} (h : s.Issued threadId) (hforeign : label.Foreign threadId)
    (hstep : s.step label = some t)
    : t.Issued threadId := by
  cases label with
  | receive role supplied operation content contentBlock =>
    have hid := h.messageIdForGeneration role hforeign (operation.map (·.2.2))
    apply hid.1.emit _ hstep
    intro id hchunk
    injection hchunk with hchunk
    rw [← hchunk]
    exact hid.2
  | emit event =>
    apply h.emit _ hstep
    intro id hchunk
    exact (hforeign id hchunk).below _ _
  | seedHistory events =>
    rcases Option.map_eq_some_iff.mp hstep with ⟨⟨inner, sent⟩, hseed, rfl⟩
    rw [Except.toOption_eq_some] at hseed
    rcases SessionState.seedHistory_eq_ok hseed with ⟨rfl, -⟩ | ⟨snapshot, hfold, rfl, -⟩
    . exact h
    . refine h.withSnapshot ?_ _ _ fun _ _ hopened => hopened
      exact foldlM_holdsMessages h.held (fun event hevent id hchunk =>
        (hforeign event hevent id hchunk).below _ _) hfold
  | perform operation =>
    rcases Option.map_eq_some_iff.mp hstep with ⟨snapshot, hperform, rfl⟩
    rw [Except.toOption_eq_some] at hperform
    refine h.withSnapshot ?_ _ _ fun _ _ hopened => hopened
    apply (SessionSnapshot.perform_holdsMessages h.held ?_).of_ok hperform
    intro event hevent id hchunk
    exact (hforeign event hevent id hchunk).below _ _
  | admitPrompt runId sourceTurnId =>
    unfold step at hstep
    dsimp only at hstep
    split at hstep
    . cases hstep
    . refine h.answerAdmission ?_ hstep
      intro started hstarted
      unfold SessionState.admitPrompt at hstarted
      split at hstarted
      case h_4 => exact ⟨runId, sourceTurnId, (Except.ok.inj hstarted).symm⟩
      all_goals cases hstarted
  | admitHandoff runId sourceTurnId =>
    unfold step at hstep
    dsimp only at hstep
    split at hstep
    . cases hstep
    . refine h.answerAdmission ?_ hstep
      intro started hstarted
      unfold SessionState.admitHandoff at hstarted
      split at hstarted
      case h_1 => exact ⟨runId, sourceTurnId, (Except.ok.inj hstarted).symm⟩
      all_goals cases hstarted
  | reserveHandoff runId sourceTurnId generation =>
    unfold step SessionState.reserveHandoff at hstep
    dsimp only at hstep
    split at hstep
    . cases hstep
    . split at hstep
      . injection hstep with hstep
        exact hstep ▸ h
      . next inner hreserved =>
        injection hstep with hstep
        subst hstep
        split at hreserved
        . injection hreserved with hreserved
          subst hreserved
          exact h.withSnapshot h.held _ _ fun _ _ hopened => hopened
        . cases hreserved
  | releaseHandoff =>
    unfold step at hstep
    dsimp only at hstep
    split at hstep
    . cases hstep
    . injection hstep with hstep
      subst hstep
      unfold SessionState.releaseHandoff
      split
      . exact h.withSnapshot h.held _ _ fun _ _ hopened => hopened
      all_goals exact h
  | markCancelling =>
    injection hstep with hstep
    subst hstep
    unfold SessionState.markCancelling
    split
    . exact h.withSnapshot h.held _ _ fun _ _ hopened => hopened
    all_goals exact h
  | beginReconstruction =>
    unfold step at hstep
    dsimp only at hstep
    split at hstep
    . cases hstep
    . split at hstep
      . injection hstep with hstep
        exact hstep ▸ h
      . next inner hbegin =>
        injection hstep with hstep
        exact hstep ▸ h.beginReconstruction hbegin
  | beginInitialReconstruction =>
    unfold step at hstep
    dsimp only at hstep
    split at hstep
    . cases hstep
    . injection hstep with hstep
      exact hstep ▸ h.beginInitialReconstruction
  | finishReconstruction commit =>
    unfold step at hstep
    dsimp only at hstep
    split at hstep
    . rcases Option.map_eq_some_iff.mp hstep with ⟨inner, hfinish, rfl⟩
      rw [Except.toOption_eq_some] at hfinish
      exact h.finishReconstruction hfinish
    . cases hstep

theorem exec_issued {labels : List Step} (h : s.Issued threadId)
    (hforeign : ∀ label ∈ labels, label.Foreign threadId) (hexec : exec step s labels = some t)
    : t.Issued threadId := by
  induction labels generalizing s with
  | nil =>
    injection hexec with hexec
    exact hexec ▸ h
  | cons label labels ih =>
    rcases exec_cons_eq_some.mp hexec with ⟨u, hstep, hrest⟩
    exact ih (step_issued h (hforeign label List.mem_cons_self) hstep)
      (fun other hother => hforeign other (List.mem_cons_of_mem label hother)) hrest

/--
A chunk without an id does not continue the message that is open.
-/
def StartsMessage (s : MessageSession) (role : MessageRole) : Option Nat → Prop
  | none => s.inner.historyRole ≠ some role
  | some generation => ∀ id, s.inner.openMessages[generation]? ≠ some (role, id)

theorem Issued.messageId_fresh (h : s.Issued threadId) (hhistory : s.inner.historySerial < U64_MAX)
    (hlive : s.liveSerial < U64_MAX) {role : MessageRole} {generation : Option Nat}
    (hstarts : s.StartsMessage role generation)
    : (s.messageIdForGeneration role none generation).2 ∉ s.inner.snapshot.messageIds := by
  intro hmem
  have hbelow := h.held.of_mem hmem
  cases generation with
  | none =>
    unfold MessageSession.messageIdForGeneration MessageSession.historyMessage at hbelow
    dsimp only at hbelow
    rw [if_neg hstarts, h.held.threadId] at hbelow
    have hle := hbelow.history _ _ rfl
    dsimp only at hle
    rw [saturatingAdd_of_le (by omega)] at hle
    omega
  | some generation =>
    have hnew : s.messageIdForGeneration role none (some generation) = s.openMessage role generation := by
      unfold MessageSession.messageIdForGeneration
      dsimp only
      split
      . next openRole id hopened =>
        rw [if_neg]
        rintro rfl
        exact hstarts id hopened
      . rfl
    rw [hnew] at hbelow
    unfold MessageSession.openMessage at hbelow
    dsimp only at hbelow
    rw [h.held.threadId] at hbelow
    have hle := hbelow.live _ _ _ rfl
    rw [saturatingAdd_of_le (by omega)] at hle
    omega

end MessageSession

/--
A reconstruction that is not committed leaves the snapshot and the cursor of the history ids as they were, and at
any time the id for a new message is not the id of a message that is held.
-/
theorem reconstruction_exact (agentId threadId : String)
    : (∀ (s : MessageSession) inner replayed t, s.inner.beginReconstruction = .ok inner →
        (∀ label ∈ replayed, ∀ commit, label ≠ .finishReconstruction commit) →
        exec MessageSession.step { s with inner } replayed = some t →
        ∃ u, t.step (.finishReconstruction false) = some u ∧ u.inner.snapshot = s.inner.snapshot
          ∧ (u.inner.historyRole, u.inner.historySerial) = (s.inner.historyRole, s.inner.historySerial))
      ∧ ∀ labels s, (∀ label ∈ labels, MessageSession.Step.Foreign threadId label) →
        exec MessageSession.step (.new agentId threadId) labels = some s →
        s.inner.historySerial < U64_MAX → s.liveSerial < U64_MAX →
        ∀ role generation, s.StartsMessage role generation →
          (s.messageIdForGeneration role none generation).2 ∉ s.inner.snapshot.messageIds := by
  constructor
  . intro s inner replayed t hbegin hreplayed hexec
    have hsaved := MessageSession.exec_saved (MessageSession.beginReconstruction_saved hbegin) hreplayed hexec
    exact MessageSession.finishReconstruction_rollsBack hsaved
  . intro labels s hforeign hexec hhistory hlive role generation hstarts
    exact (MessageSession.exec_issued (.init agentId threadId) hforeign hexec).messageId_fresh hhistory hlive hstarts

/--
A history of one message that is replayed, with an id of its own or without.
-/
def replayedPrompt (supplied : Option String) : List MessageSession.Step :=
  [.beginReconstruction, .receive .user supplied none "hello" none, .finishReconstruction true]

theorem reconstruction_exact_replayedPrompt
    : ∃ s, exec MessageSession.step (.new "agent" "thread") (replayedPrompt none) = some s
        ∧ s.inner.snapshot.messageIds = ["thread:history-1:User", "thread:history-1:User"]
        ∧ (s.messageIdForGeneration .agent none none).2 ∉ s.inner.snapshot.messageIds := by
  have hrun : (exec MessageSession.step (.new "agent" "thread") (replayedPrompt none)).any (fun s =>
      decide (s.inner.snapshot.messageIds = ["thread:history-1:User", "thread:history-1:User"])
        && decide (s.inner.historySerial = 1) && decide (s.liveSerial = 0)
        && decide (s.inner.historyRole = some .user)) = true := by
    decide +kernel
  rcases (Option.any_eq_true _ _).mp hrun with ⟨s, hexec, hcheck⟩
  simp only [Bool.and_eq_true, decide_eq_true_eq] at hcheck
  rcases hcheck with ⟨⟨⟨hids, hhistory⟩, hlive⟩, hrole⟩
  refine ⟨s, hexec, hids, ?_⟩
  apply (reconstruction_exact "agent" "thread").2 (replayedPrompt none) s _ hexec
  . rw [hhistory]
    decide
  . rw [hlive]
    decide
  . show s.inner.historyRole ≠ some .agent
    rw [hrole]
    decide
  . intro label hlabel
    simp only [replayedPrompt, List.mem_cons, List.not_mem_nil, or_false] at hlabel
    rcases hlabel with rfl | rfl | rfl
    . trivial
    . intro id hid
      cases hid
    . trivial

/--
The agent has given the message the id that the session gives to its first one.
-/
theorem not_fresh_suppliedId
    : ∃ s, exec MessageSession.step (.new "agent" "thread") (replayedPrompt (some "thread:history-1:User")) = some s
        ∧ s.StartsMessage .user none
        ∧ (s.messageIdForGeneration .user none none).2 ∈ s.inner.snapshot.messageIds := by
  have hrun : (exec MessageSession.step (.new "agent" "thread")
      (replayedPrompt (some "thread:history-1:User"))).any (fun s =>
        decide (s.inner.historyRole = none)
          && decide ((s.messageIdForGeneration .user none none).2 ∈ s.inner.snapshot.messageIds)) = true := by
    decide +kernel
  rcases (Option.any_eq_true _ _).mp hrun with ⟨s, hexec, hcheck⟩
  simp only [Bool.and_eq_true, decide_eq_true_eq] at hcheck
  refine ⟨s, hexec, ?_, hcheck.2⟩
  show s.inner.historyRole ≠ some .user
  rw [hcheck.1]
  decide

end Session
