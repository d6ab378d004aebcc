import TetherBridge.Transition.Basic
import TetherBridge.Snapshot.Run
import TetherBridge.Session.Impl

/-!
This module contains concurrent calls on a session. A call applies its events under the lock and sends
them to the mailbox after it has released it. When the calls send in the order in which they left the
lock, the mailbox replays to the snapshot.
-/

namespace Session

open Acp Snapshot Transition

/--
A call that has left the lock and still has events to send. An admission holds the operation lock
until it has sent its event.
-/
structure Sender where
  admission : Bool
  unsent : List CanonicalEvent

/--
A session with its calls in progress, in the order in which they left the lock. `applied` are the
events that were applied so far and go to the mailbox.
-/
structure SharedSession where
  inner : SessionState
  sending : List Sender := []
  events : List CanonicalEvent := []
  applied : List CanonicalEvent := []

inductive Section where
  | emit (event : CanonicalEvent)
  | admitPrompt (runId sourceTurnId : String)
  | reserveHandoff (runId sourceTurnId : String) (generation : Nat)
  | admitHandoff (runId sourceTurnId : String)
  | releaseHandoff
  | markCancelling
  | seedHistory (events : List CanonicalEvent)
  | send (index : Nat)

namespace SharedSession

def new (agentId threadId : String) : SharedSession :=
  { inner := .new agentId threadId }

variable (s : SharedSession)

def operationLock : Bool :=
  s.sending.any (·.admission)

/--
The call leaves the lock with the events it has to send.
-/
def leave (inner : SessionState) (sender : Sender) : SharedSession :=
  { s with
    inner
    sending := if sender.unsent.isEmpty then s.sending else s.sending ++ [sender]
    applied := s.applied ++ sender.unsent }

def answerAdmission (answer : Except String (Except Panic (SessionState × Nat × CanonicalEvent)))
    : Option SharedSession :=
  match answer with
  | .error _ => some s
  | .ok (.error _) => none
  | .ok (.ok (inner, _, event)) => some (s.leave inner { admission := true, unsent := [event] })

/--
One call puts its next event into the mailbox.
-/
def send (index : Nat) : Option SharedSession :=
  match s.sending[index]? with
  | some { admission, unsent := event :: rest } =>
    some { s with
      events := s.events ++ [event]
      sending :=
        if rest.isEmpty then s.sending.eraseIdx index
        else s.sending.set index { admission, unsent := rest } }
  | _ => none

def step (s : SharedSession) : Section → Option SharedSession
  | .emit event =>
    match s.inner.emit event with
    | .error _ => none
    | .ok (inner, sent) => some (s.leave inner { admission := false, unsent := sent })
  | .admitPrompt runId sourceTurnId =>
    if s.operationLock then none else s.answerAdmission (s.inner.admitPrompt runId sourceTurnId)
  | .reserveHandoff runId sourceTurnId generation =>
    if s.operationLock then
      none
    else
      match s.inner.reserveHandoff runId sourceTurnId generation with
      | .error _ => some s
      | .ok inner => some { s with inner }
  | .admitHandoff runId sourceTurnId =>
    if s.operationLock then none else s.answerAdmission (s.inner.admitHandoff runId sourceTurnId)
  | .releaseHandoff =>
    if s.operationLock then none else some { s with inner := s.inner.releaseHandoff }
  | .markCancelling => some { s with inner := s.inner.markCancelling.1 }
  | .seedHistory events =>
    match s.inner.seedHistory events with
    | .error _ => none
    | .ok (inner, sent) => some (s.leave inner { admission := false, unsent := sent })
  | .send index => s.send index

def unsent : List CanonicalEvent :=
  s.sending.flatMap (·.unsent)

end SharedSession

/--
The condition on a section: an event is sent by the call that left the lock first.
-/
def sendsInOrder : Section → Bool
  | .send index => index == 0
  | _ => true

/--
The invariant: what is in the mailbox and what is still to be sent is what was applied, in this order.
-/
structure Replays (initial : SessionSnapshot) (s : SharedSession) : Prop where
  applied : s.events ++ s.unsent = s.applied
  replayed : s.applied.foldlM SessionSnapshot.apply initial = .ok s.inner.snapshot
  live : s.inner.snapshot.historyReconstruction = false

namespace Replays

variable {initial : SessionSnapshot} {s : SharedSession}

theorem init (agentId threadId : String) : Replays (.new agentId threadId) (.new agentId threadId) := by
  constructor <;> rfl

/--
A call that leaves the lock has applied the events it goes on to send.
-/
theorem leave (h : Replays initial s) {inner : SessionState} {sender : Sender}
    (hfold : sender.unsent.foldlM SessionSnapshot.apply s.inner.snapshot = .ok inner.snapshot)
    (hlive : inner.snapshot.historyReconstruction = false)
    : Replays initial (s.leave inner sender) := by
  constructor
  . unfold SharedSession.leave SharedSession.unsent
    dsimp only
    rw [← h.applied, List.append_assoc]
    congr 1
    split
    . next hempty =>
      rw [List.isEmpty_iff.mp hempty, List.append_nil]
      rfl
    . rw [List.flatMap_append, List.flatMap_singleton]
      rfl
  . unfold SharedSession.leave
    dsimp only
    rw [List.foldlM_append, h.replayed]
    exact hfold
  . exact hlive

theorem withInner (h : Replays initial s) {inner : SessionState}
    (hsnapshot : inner.snapshot = s.inner.snapshot)
    : Replays initial { s with inner } := by
  constructor
  . exact h.applied
  . dsimp only
    rw [hsnapshot]
    exact h.replayed
  . dsimp only
    rw [hsnapshot]
    exact h.live

theorem send (h : Replays initial s) {t : SharedSession} (hsend : s.send 0 = some t)
    : Replays initial t := by
  unfold SharedSession.send at hsend
  split at hsend
  . next admission event rest hhead =>
    rw [← Option.some.inj hsend]
    refine ⟨?_, h.replayed, h.live⟩
    have happlied := h.applied
    unfold SharedSession.unsent at happlied ⊢
    cases hsending : s.sending with
    | nil =>
      rw [hsending] at hhead
      contradiction
    | cons sender sending =>
      rw [hsending, List.getElem?_cons_zero] at hhead
      rw [hsending, Option.some.inj hhead] at happlied
      rw [← happlied]
      dsimp only
      split <;> simp_all
  . contradiction

theorem apply_live {t : SessionSnapshot} {event : CanonicalEvent} {u : SessionSnapshot}
    (hok : t.apply event = .ok u) (hlive : t.historyReconstruction = false)
    : u.historyReconstruction = false :=
  ((SessionSnapshot.apply_runs t event).of_ok hok).2.trans hlive

theorem emit (h : Replays initial s) {event : CanonicalEvent} {inner : SessionState}
    {sent : List CanonicalEvent} (hemit : s.inner.emit event = .ok (inner, sent))
    : Replays initial (s.leave inner { admission := false, unsent := sent }) := by
  cases SessionState.emit_eq_ok hemit with
  | inl hdropped =>
    rcases hdropped with ⟨-, rfl, rfl⟩
    exact h.leave rfl h.live
  | inr happlied =>
    rcases happlied with ⟨prepared, snapshot, hprepare, hok, rfl, rfl⟩
    rw [SessionState.prepareEmit_snapshot hprepare] at hok
    have hlive := apply_live hok h.live
    rw [hlive, if_neg Bool.false_ne_true]
    apply h.leave _ hlive
    rw [List.foldlM_cons, hok]
    rfl

theorem seedHistory (h : Replays initial s) {events : List CanonicalEvent} {inner : SessionState}
    {sent : List CanonicalEvent} (hseed : s.inner.seedHistory events = .ok (inner, sent))
    : Replays initial (s.leave inner { admission := false, unsent := sent }) := by
  cases SessionState.seedHistory_eq_ok hseed with
  | inl hkept =>
    rcases hkept with ⟨rfl, rfl⟩
    exact h.leave rfl h.live
  | inr hseeded =>
    rcases hseeded with ⟨snapshot, hfold, rfl, rfl⟩
    have hlive : snapshot.historyReconstruction = false := by
      have hkeeps : (events.foldlM SessionSnapshot.apply s.inner.snapshot).Yields (fun _ => False)
          fun t => t.historyReconstruction = false := by
        apply Except.yields_foldlM
        . intro t event ht
          apply (SessionSnapshot.apply_runs t event).mono
          intro u hu
          exact hu.2.trans ht
        . exact h.live
      exact hkeeps.of_ok hfold
    rw [hlive, if_neg Bool.false_ne_true]
    exact h.leave hfold hlive

theorem answerAdmission (h : Replays initial s) (runId sourceTurnId : String)
    {answer : Except String (Except Panic (SessionState × Nat × CanonicalEvent))}
    (hanswer : ∀ result, answer = .ok result → result = s.inner.startRun runId sourceTurnId)
    {t : SharedSession} (hstep : s.answerAdmission answer = some t)
    : Replays initial t := by
  unfold SharedSession.answerAdmission at hstep
  split at hstep
  . exact Option.some.inj hstep ▸ h
  . contradiction
  . next inner generation event =>
    rw [← Option.some.inj hstep]
    have hstart := hanswer _ rfl
    rcases SessionState.startRun_eq_ok hstart.symm with ⟨-, -, snapshot, hok, rfl⟩
    apply h.leave _ (apply_live hok h.live)
    rw [List.foldlM_cons, hok]
    rfl

/--
Every section keeps the invariant, as long as the events are sent in order.
-/
theorem step {t : SharedSession} (h : Replays initial s) {label : Section}
    (hguard : sendsInOrder label) (hstep : s.step label = some t)
    : Replays initial t := by
  cases label with
  | emit event =>
    dsimp only [SharedSession.step] at hstep
    split at hstep
    . contradiction
    . next hemit => exact Option.some.inj hstep ▸ h.emit hemit
  | admitPrompt runId sourceTurnId =>
    dsimp only [SharedSession.step] at hstep
    split at hstep
    . contradiction
    . apply h.answerAdmission runId sourceTurnId _ hstep
      intro result hresult
      unfold SessionState.admitPrompt at hresult
      split at hresult <;> simp_all
  | reserveHandoff runId sourceTurnId generation =>
    dsimp only [SharedSession.step] at hstep
    split at hstep
    . contradiction
    . split at hstep
      . exact Option.some.inj hstep ▸ h
      . next hreserve =>
        rw [← Option.some.inj hstep]
        apply h.withInner
        unfold SessionState.reserveHandoff at hreserve
        split at hreserve
        . injection hreserve with hreserve
          rw [← hreserve]
        . contradiction
  | admitHandoff runId sourceTurnId =>
    dsimp only [SharedSession.step] at hstep
    split at hstep
    . contradiction
    . apply h.answerAdmission runId sourceTurnId _ hstep
      intro result hresult
      unfold SessionState.admitHandoff at hresult
      split at hresult <;> simp_all
  | releaseHandoff =>
    dsimp only [SharedSession.step] at hstep
    split at hstep
    . contradiction
    . rw [← Option.some.inj hstep]
      apply h.withInner
      unfold SessionState.releaseHandoff
      split <;> rfl
  | markCancelling =>
    rw [← Option.some.inj hstep]
    apply h.withInner
    unfold SessionState.markCancelling
    split <;> rfl
  | seedHistory events =>
    dsimp only [SharedSession.step] at hstep
    split at hstep
    . contradiction
    . next hseed => exact Option.some.inj hstep ▸ h.seedHistory hseed
  | send index =>
    have hindex : index = 0 := by simpa [sendsInOrder] using hguard
    subst hindex
    exact h.send hstep

end Replays

/--
In every run whose calls send in the order in which they left the lock, the mailbox holds the first of
the applied events in the order they were applied in, and once no call is in progress it replays to the
snapshot.
-/
theorem mailbox_of_exec {agentId threadId : String} {sections : List Section} {s : SharedSession}
    (hmeets : Meets SharedSession.step (fun _ label => sendsInOrder label) (.new agentId threadId)
      sections)
    (hexec : exec SharedSession.step (.new agentId threadId) sections = some s)
    : s.events <+: s.applied
        ∧ (s.sending = [] → s.events.foldlM SessionSnapshot.apply (.new agentId threadId)
          = .ok s.inner.snapshot) := by
  have h : Replays (.new agentId threadId) s :=
    exec_invariant (fun s label t h hguard hstep => h.step hguard hstep) (Replays.init _ _) hmeets
      hexec
  refine ⟨⟨s.unsent, h.applied⟩, ?_⟩
  intro hquiet
  have happlied := h.applied
  unfold SharedSession.unsent at happlied
  rw [hquiet, List.flatMap_nil, List.append_nil] at happlied
  rw [happlied]
  exact h.replayed

def emitChunk (id : String) : Section :=
  .emit (.messageChunk "agent" "thread" none none none .agent id "text" none)

/--
A prompt is admitted and two chunks are emitted at the same time, which send in order.
-/
def inOrder : List Section :=
  [.admitPrompt "run" "turn", emitChunk "a", .send 0, emitChunk "b", .send 0, .send 0]

theorem mailbox_of_inOrder
    : ∃ s, exec SharedSession.step (.new "agent" "thread") inOrder = some s
        ∧ s.events <+: s.applied
        ∧ (s.sending = [] → s.events.foldlM SessionSnapshot.apply (.new "agent" "thread")
          = .ok s.inner.snapshot) := by
  have hmeets : Meets SharedSession.step (fun _ label => sendsInOrder label)
      (.new "agent" "thread") inOrder := by
    decide +kernel
  have hrun : (exec SharedSession.step (.new "agent" "thread") inOrder).isSome := by decide +kernel
  obtain ⟨s, hexec⟩ := Option.isSome_iff_exists.mp hrun
  exact ⟨s, hexec, mailbox_of_exec hmeets hexec⟩

/--
The second of two chunks overtakes the first one between the lock and the mailbox.
-/
def overtaken : List Section :=
  [emitChunk "a", emitChunk "b", .send 1, .send 0]

theorem not_mailbox_of_overtaken
    : ¬ ∀ sections s, exec SharedSession.step (.new "agent" "thread") sections = some s →
        s.events <+: s.applied
          ∧ (s.sending = [] → s.events.foldlM SessionSnapshot.apply (.new "agent" "thread")
            = .ok s.inner.snapshot) := by
  intro h
  have hrun : (exec SharedSession.step (.new "agent" "thread") overtaken).any (fun s =>
      decide (s.events.map (·.chunkId?) = [some "b", some "a"])
        && decide (s.applied.map (·.chunkId?) = [some "a", some "b"])) = true := by
    decide +kernel
  obtain ⟨s, hexec, hcrossed⟩ := (Option.any_eq_true _ _).mp hrun
  simp only [Bool.and_eq_true, decide_eq_true_eq] at hcrossed
  obtain ⟨rest, heq⟩ := (h overtaken s hexec).1
  have hids := congrArg (List.map (·.chunkId?)) heq
  rw [List.map_append, hcrossed.1, hcrossed.2] at hids
  simp at hids

end Session
