import TetherBridge.Acp.InteractionSteps

/-!
This module contains the moves of a registry: every step receives a request, ends some of the pending ones, uses a
responder, emits an event, or changes nothing of the entries but their order.
-/

namespace Acp

variable {formats : TextFormats}

/--
The uuid a step draws.
-/
def Action.uuid? : Action → Option Uuid
  | .registerPermission _ _ uuid => some uuid
  | .registerElicitation _ _ uuid => some uuid
  | _ => none

/--
No uuid is drawn twice.
-/
def FreshUuid (world : World) (action : Action) : Prop :=
  ∀ uuid ∈ action.uuid?, uuid ∉ world.registered.map (·.uuid)

instance (world : World) (action : Action) : Decidable (FreshUuid world action) :=
  inferInstanceAs (Decidable (∀ uuid ∈ action.uuid?, uuid ∉ world.registered.map (·.uuid)))

def requestIdOf (agentId threadId : String) (uuid : Uuid) : String :=
  "acp-interaction:" ++ agentId ++ ":" ++ threadId ++ ":" ++ uuid.text

theorem uuid_eq_of_requestIdOf_eq {agentId threadId agentId' threadId' : String} {uuid uuid' : Uuid}
    (h : requestIdOf agentId threadId uuid = requestIdOf agentId' threadId' uuid')
    : uuid = uuid' := by
  unfold requestIdOf at h
  rw [← String.toList_inj] at h
  simp only [String.toList_append] at h
  have hlength : uuid.text.toList.length = uuid'.text.toList.length := by
    rw [String.length_toList, String.length_toList, uuid.length_eq, uuid'.length_eq]
  have htext := (List.append_inj' h hlength).2
  rw [String.toList_inj] at htext
  cases uuid
  cases uuid'
  dsimp only at htext
  subst htext
  rfl

namespace InteractionState

/--
How the entry of a permission is built.
-/
structure IsEntryOf (state : InteractionState) (responder : Nat) (uuid : Uuid) (entry : PermissionEntry)
    : Prop where
  responder : entry.responder = responder
  sessionId : entry.sessionId = entry.request.sessionId
  summary : ∃ agentId threadId turnId,
    entry.summary = permissionSummary (requestIdOf agentId threadId uuid) ((state.nextOrder + 1) % 2 ^ 64)
      agentId threadId turnId entry.request

structure IsFormOf (state : InteractionState) (request : CreateElicitationRequest) (responder : Nat) (uuid : Uuid)
    (entry : ElicitationEntry)
    : Prop where
  responder : entry.responder = responder
  schema : request.mode = .form entry.schema
  summary : ∃ agentId threadId turnId,
    entry.summary = elicitationSummary (requestIdOf agentId threadId uuid) ((state.nextOrder + 1) % 2 ^ 64)
      agentId threadId turnId request

def addPermission (state : InteractionState) (entry : PermissionEntry) : InteractionState :=
  { { state with nextOrder := (state.nextOrder + 1) % 2 ^ 64 }.bumpEpoch entry.sessionId with
    permissions := state.permissions.assign entry.summary.requestId entry }

theorem epochOf_addPermission (state : InteractionState) (entry : PermissionEntry) (sessionId : String)
    : (state.addPermission entry).epochOf sessionId
        = if sessionId = entry.sessionId then min (state.epochOf entry.sessionId + 1) (2 ^ 64 - 1)
          else state.epochOf sessionId :=
  epochOf_bumpEpoch { state with nextOrder := (state.nextOrder + 1) % 2 ^ 64 } entry.sessionId sessionId

def addElicitation (state : InteractionState) (entry : ElicitationEntry) : InteractionState :=
  { { state with nextOrder := (state.nextOrder + 1) % 2 ^ 64 }.bumpEpoch entry.sessionId with
    elicitations := state.elicitations.assign entry.summary.requestId entry }

theorem epochOf_addElicitation (state : InteractionState) (entry : ElicitationEntry) (sessionId : String)
    : (state.addElicitation entry).epochOf sessionId
        = if sessionId = entry.sessionId then min (state.epochOf entry.sessionId + 1) (2 ^ 64 - 1)
          else state.epochOf sessionId :=
  epochOf_bumpEpoch { state with nextOrder := (state.nextOrder + 1) % 2 ^ 64 } entry.sessionId sessionId

/--
What a request is answered with that does not become pending.
-/
def Refuses : Request → Answer → Prop
  | .permission _, answer => answer = .permission .cancelled
  | .elicitation request, answer =>
    answer = .elicitation .cancel
      ∨ request.mode = .other ∧ answer = .methodNotFound "only form elicitation is supported"

/--
A request is refused, or it gets an entry.
-/
inductive Registers (state : InteractionState) (responder : Nat) (uuid : Uuid)
    : Request → InteractionState × Received → Prop
  | refuse (request : Request) (answer : Answer) (h : Refuses request answer)
      : Registers state responder uuid request (state, .answer answer)
  | permission (entry : PermissionEntry) (hentry : state.IsEntryOf responder uuid entry)
      (hcapacity : state.atCapacity maxPendingGlobal maxPendingPerSession entry.sessionId = false)
      : Registers state responder uuid (.permission entry.request)
          (state.addPermission entry, .permissionRequested entry.sessionId entry.summary)
  | elicitation (request : CreateElicitationRequest) (entry : ElicitationEntry)
      (hentry : state.IsFormOf request responder uuid entry)
      (hcapacity : state.atCapacity maxPendingGlobal maxPendingPerSession entry.sessionId = false)
      : Registers state responder uuid (.elicitation request)
          (state.addElicitation entry, .elicitationRequested entry.sessionId entry.summary)

theorem registers_registerPermission (state : InteractionState) (request : RequestPermissionRequest)
    (responder : Nat) (lease : Option SessionView) (uuid : Uuid)
    : Registers state responder uuid (.permission request)
        (state.registerPermission maxPendingGlobal maxPendingPerSession request responder lease uuid) := by
  unfold registerPermission
  split
  . exact .refuse _ _ rfl
  . next snapshot =>
    split
    . exact .refuse _ _ rfl
    . next generation hgeneration =>
      dsimp only
      split
      . exact .refuse _ _ rfl
      . next hcapacity =>
        have hfree := Bool.eq_false_iff.mpr hcapacity
        exact .permission
          { request, responder, sessionId := request.sessionId, generation,
            summary := permissionSummary _ _ snapshot.agentId snapshot.threadId _ request }
          ⟨rfl, rfl, snapshot.agentId, snapshot.threadId, _, rfl⟩ hfree

theorem registers_registerElicitation (state : InteractionState) (request : CreateElicitationRequest)
    (responder : Nat) (lease : Option SessionView) (uuid : Uuid)
    : Registers state responder uuid (.elicitation request)
        (state.registerElicitation maxPendingGlobal maxPendingPerSession request responder lease uuid) := by
  unfold registerElicitation
  split
  . next sessionId toolCallId snapshot hscope =>
    split
    . next schema hmode =>
      split
      . exact .refuse _ _ (.inl rfl)
      . next generation hgeneration =>
        dsimp only
        split
        . exact .refuse _ _ (.inl rfl)
        . next hcapacity =>
          have hfree := Bool.eq_false_iff.mpr hcapacity
          exact .elicitation request
            { schema, responder, sessionId, generation,
              summary := elicitationSummary _ _ snapshot.agentId snapshot.threadId _ request }
            ⟨rfl, hmode, snapshot.agentId, snapshot.threadId, _, rfl⟩ hfree
    . next hmode => exact .refuse _ _ (.inr ⟨hmode, rfl⟩)
  . exact .refuse _ _ (.inl rfl)

end InteractionState

namespace World

open InteractionState

/--
What a step does.
-/
inductive Moves (formats : TextFormats) (world : World) (action : Action) : World → Prop
  | receive {request : Request} {uuid : Uuid} {result : InteractionState × Received}
      (huuid : action.uuid? = some uuid)
      (hregisters : Registers world.state world.requests.length uuid request result)
      : Moves formats world action (world.receive request uuid result)
  | finish {decisions : List Decision} {watched : List (ResolvedKind × String)} {state : InteractionState}
      {settlements : List Settlement} (onError : OnError) (hends : Ends formats decisions world.state (state, settlements))
      (hdecisions : ∀ decision ∈ world.decisions, decision ∈ decisions)
      : Moves formats world action
          { world with state, tasks := world.tasks ++ [.settle settlements onError], decisions, watched }
  | idle (decisions : List Decision) (watched : List (ResolvedKind × String)) (steers : List (String × Nat))
      (hdecisions : ∀ decision ∈ world.decisions, decision ∈ decisions)
      : Moves formats world action { world with decisions, watched, steers }
  | rehash {permissions : List (String × PermissionEntry)} {elicitations : List (String × ElicitationEntry)}
      (hpermissions : permissions.Perm world.state.permissions)
      (helicitations : elicitations.Perm world.state.elicitations)
      : Moves formats world action
          { world with state := { world.state with permissions, elicitations } }
  | respond {index : Nat} {succeeds : Bool} {world' : World} (haction : action = .respond index succeeds)
      (h : world.respond index succeeds = some world')
      : Moves formats world action world'
  | emit {index : Nat} {session : Option SessionView} {world' : World} (haction : action = .emit index session)
      (h : world.emit index session = some world')
      : Moves formats world action world'

theorem moves_call {world : World} {action : Action} (decision : Option Decision)
    {result : Except InteractionError (InteractionState × Settlement)}
    (hends : ∀ state settlement, result = .ok (state, settlement) →
      Ends formats (world.decisions ++ decision.toList) world.state (state, [settlement]))
    : Moves formats world action (world.call decision result) := by
  have hdecisions : ∀ old ∈ world.decisions, old ∈ world.decisions ++ decision.toList :=
    fun old hold => List.mem_append_left _ hold
  unfold call
  dsimp only
  split
  . exact .idle _ world.watched world.steers hdecisions
  . next state settlement => exact @Moves.finish _ _ _ _ world.watched _ _ .proceed (hends state settlement rfl) hdecisions

theorem moves_of_step {world world' : World} {action : Action} (hkeyed : world.state.Keyed)
    (hfit : world.state.EpochsFit) (h : step formats world action = some world')
    : Moves formats world action world' := by
  unfold step at h
  cases action with
  | registerPermission request lease uuid =>
    cases h
    exact .receive rfl (registers_registerPermission _ _ _ _ _)
  | registerElicitation request lease uuid =>
    cases h
    exact .receive rfl (registers_registerElicitation _ _ _ _ _)
  | resolvePermission threadId requestId optionId =>
    cases h
    apply moves_call
    intro state settlement hok
    exact ends_resolvePermission hkeyed hfit hok (List.mem_append_right _ List.mem_cons_self)
  | cancelPermission threadId requestId =>
    cases h
    apply moves_call
    intro state settlement hok
    exact ends_cancelPermission hkeyed hfit hok
  | acceptElicitation threadId requestId values =>
    cases h
    apply moves_call
    intro state settlement hok
    exact ends_acceptElicitation hkeyed hfit hok (List.mem_append_right _ List.mem_cons_self)
  | declineElicitation threadId requestId =>
    cases h
    apply moves_call
    intro state settlement hok
    exact ends_finishElicitation hkeyed hfit hok nofun
  | cancelElicitation threadId requestId =>
    cases h
    apply moves_call
    intro state settlement hok
    exact ends_finishElicitation hkeyed hfit hok nofun
  | cancelSession sessionId generation =>
    cases h
    exact .finish _ (ends_cancelSession hfit sessionId generation) fun _ hold => hold
  | prepareSteer sessionId =>
    dsimp only at h
    split at h
    . cases h
      exact .idle _ _ _ fun _ hold => hold
    . next state settlements epoch hprepare =>
      cases h
      exact .finish _ (ends_prepareSteer hfit hprepare) fun _ hold => hold
  | steer sessionId epoch =>
    cases h
    split
    . exact .idle _ _ _ fun _ hold => hold
    . exact .idle _ _ _ fun _ hold => hold
  | drain =>
    cases h
    exact .finish _ (ends_drain hfit) fun _ hold => hold
  | peerCancels index =>
    dsimp only at h
    rw [Option.map_eq_some_iff] at h
    rcases h with ⟨⟨kind, requestId⟩, -, rfl⟩
    cases kind with
    | permission =>
      dsimp only
      split
      . exact .idle _ _ _ fun _ hold => hold
      . next state settlement hresult =>
        exact .finish _ (ends_cancelPermissionFromPeer hkeyed hfit hresult) fun _ hold => hold
    | elicitation =>
      dsimp only
      split
      . exact .idle _ _ _ fun _ hold => hold
      . next state settlement hresult =>
        exact .finish _ (ends_cancelElicitationFromPeer hkeyed hfit hresult) fun _ hold => hold
  | rehash permissions elicitations =>
    dsimp only at h
    split at h
    . next hperm =>
      cases h
      exact .rehash (List.perm_pick hperm.1) (List.perm_pick hperm.2)
    . contradiction
  | respond index succeeds => exact .respond rfl h
  | emit index session => exact .emit rfl h

/--
The entries are found under ids that were registered, and no id was registered twice.
-/
structure Sound (world : World) : Prop where
  keyed : world.state.Keyed
  fit : world.state.EpochsFit
  permissions : ∀ entry ∈ world.state.permissions, entry.1 ∈ world.registered.map (·.requestId)
  elicitations : ∀ entry ∈ world.state.elicitations, entry.1 ∈ world.registered.map (·.requestId)
  ids : ∀ registration ∈ world.registered, ∃ agentId threadId,
    registration.requestId = requestIdOf agentId threadId registration.uuid
  uuids : (world.registered.map (·.uuid)).Nodup

theorem epochOf_init (sessionId : String) : init.state.epochOf sessionId = 0 := rfl

theorem sound_init : init.Sound where
  keyed := ⟨List.keyed_nil, List.keyed_nil⟩
  fit sessionId := by
    rw [epochOf_init]
    exact Nat.zero_le _
  permissions entry hentry := absurd hentry List.not_mem_nil
  elicitations entry hentry := absurd hentry List.not_mem_nil
  ids registration hregistration := absurd hregistration List.not_mem_nil
  uuids := List.nodup_nil

/--
An id with a new uuid is a new one.
-/
theorem Sound.requestId_not_mem {world : World} (h : world.Sound) {uuid : Uuid}
    (hfresh : uuid ∉ world.registered.map (·.uuid)) (agentId threadId : String)
    : requestIdOf agentId threadId uuid ∉ world.registered.map (·.requestId) := by
  intro hmem
  rw [List.mem_map] at hmem
  rcases hmem with ⟨registration, hregistration, heq⟩
  obtain ⟨agentId', threadId', hid⟩ := h.ids registration hregistration
  have huuid := uuid_eq_of_requestIdOf_eq (hid.symm.trans heq)
  exact hfresh (huuid ▸ List.mem_map_of_mem hregistration)

theorem Sound.permission_new {world : World} (h : world.Sound) {uuid : Uuid}
    (hfresh : uuid ∉ world.registered.map (·.uuid)) {responder : Nat} {entry : PermissionEntry}
    (hentry : world.state.IsEntryOf responder uuid entry)
    : entry.summary.requestId ∉ world.registered.map (·.requestId)
      ∧ entry.summary.requestId ∉ world.state.permissions.map (·.1) := by
  obtain ⟨agentId, threadId, turnId, hsummary⟩ := hentry.summary
  have hid : entry.summary.requestId = requestIdOf agentId threadId uuid := by
    rw [hsummary]
    rfl
  have hnew := h.requestId_not_mem hfresh agentId threadId
  rw [hid]
  refine ⟨hnew, ?_⟩
  intro hmem
  rw [List.mem_map] at hmem
  rcases hmem with ⟨stored, hstored, heq⟩
  exact hnew (heq ▸ h.permissions stored hstored)

theorem Sound.elicitation_new {world : World} (h : world.Sound) {uuid : Uuid}
    (hfresh : uuid ∉ world.registered.map (·.uuid)) {request : CreateElicitationRequest} {responder : Nat}
    {entry : ElicitationEntry} (hentry : world.state.IsFormOf request responder uuid entry)
    : entry.summary.requestId ∉ world.registered.map (·.requestId)
      ∧ entry.summary.requestId ∉ world.state.elicitations.map (·.1) := by
  obtain ⟨agentId, threadId, turnId, hsummary⟩ := hentry.summary
  have hid : entry.summary.requestId = requestIdOf agentId threadId uuid := by
    rw [hsummary]
    rfl
  have hnew := h.requestId_not_mem hfresh agentId threadId
  rw [hid]
  refine ⟨hnew, ?_⟩
  intro hmem
  rw [List.mem_map] at hmem
  rcases hmem with ⟨stored, hstored, heq⟩
  exact hnew (heq ▸ h.elicitations stored hstored)

theorem Sound.nodup_requestIds {world : World} (h : world.Sound)
    : (world.registered.map (·.requestId)).Nodup := by
  have hids := h.ids
  have huuids := h.uuids
  generalize world.registered = registered at hids huuids
  apply List.Nodup.map_on
  . intro a ha b hb heq
    obtain ⟨agentId, threadId, hid⟩ := hids a ha
    obtain ⟨agentId', threadId', hid'⟩ := hids b hb
    have huuid := uuid_eq_of_requestIdOf_eq (hid.symm.trans (heq.trans hid'))
    exact List.inj_on_of_nodup_map huuids ha hb huuid
  . exact List.Nodup.of_map _ huuids

theorem respond_eq_some {world world' : World} {index : Nat} {succeeds : Bool}
    (h : world.respond index succeeds = some world')
    : (∃ responder answer, world.tasks[index]? = some (.received responder (.answer answer))
        ∧ world' = { world with
            answers := world.answers ++ [(responder, answer)], tasks := world.tasks.eraseIdx index })
      ∨ ∃ settlement settlements onError, world.tasks[index]? = some (.settle (settlement :: settlements) onError)
        ∧ world' = { world with
            answers := world.answers ++ [(settlement.responder, settlement.answer)]
            tasks := world.tasks.set index (.resolve settlement (!succeeds) settlements onError) } := by
  unfold respond at h
  split at h
  . next responder answer htask =>
    cases h
    exact .inl ⟨responder, answer, htask, rfl⟩
  . next settlement settlements onError htask =>
    cases h
    exact .inr ⟨settlement, settlements, onError, htask, rfl⟩
  . contradiction

theorem emit_eq_some {world world' : World} {index : Nat} {session : Option SessionView}
    (h : world.emit index session = some world')
    : (∃ responder sessionId summary,
        world.tasks[index]? = some (.received responder (.permissionRequested sessionId summary))
        ∧ world' = { world with
            events := world.events ++ [.permissionRequested sessionId summary]
            watched := world.watched ++ [(.permission, summary.requestId)]
            tasks := world.tasks.eraseIdx index })
      ∨ (∃ responder sessionId summary,
        world.tasks[index]? = some (.received responder (.elicitationRequested sessionId summary))
        ∧ world' = { world with
            events := world.events ++ (session.map fun _ => .elicitationRequested sessionId summary).toList
            watched := world.watched ++ [(.elicitation, summary.requestId)]
            tasks := world.tasks.eraseIdx index })
      ∨ (∃ settlement settlements,
        world.tasks[index]? = some (.resolve settlement true settlements .return)
        ∧ world' = { world with
            events := world.events ++ (session.map settlement.event).toList
            dropped := world.dropped ++ settlements
            tasks := world.tasks.eraseIdx index })
      ∨ (∃ settlement failed settlements onError,
        world.tasks[index]? = some (.resolve settlement failed settlements onError)
        ∧ world' = { world with
            events := world.events ++ (session.map settlement.event).toList
            tasks := world.tasks.set index (.settle settlements (onError.after failed)) })
      ∨ ∃ onError, world.tasks[index]? = some (.settle [] onError)
        ∧ world' = { world with
            events := world.events ++ onError.event session, tasks := world.tasks.eraseIdx index } := by
  unfold emit at h
  split at h
  . next responder sessionId summary htask =>
    cases h
    exact .inl ⟨responder, sessionId, summary, htask, rfl⟩
  . next responder sessionId summary htask =>
    cases h
    exact .inr (.inl ⟨responder, sessionId, summary, htask, rfl⟩)
  . next settlement failed settlements onError htask =>
    dsimp only at h
    split at h
    . next hreturn =>
      cases h
      rw [Bool.and_eq_true, decide_eq_true_eq] at hreturn
      rcases hreturn with ⟨rfl, rfl⟩
      exact .inr (.inr (.inl ⟨settlement, settlements, htask, rfl⟩))
    . cases h
      exact .inr (.inr (.inr (.inl ⟨settlement, failed, settlements, onError, htask, rfl⟩)))
  . next onError htask =>
    cases h
    exact .inr (.inr (.inr (.inr ⟨onError, htask, rfl⟩)))
  . contradiction

theorem respond_frame {world world' : World} {index : Nat} {succeeds : Bool}
    (h : world.respond index succeeds = some world')
    : world'.state = world.state ∧ world'.registered = world.registered ∧ world'.requests = world.requests
      ∧ world'.decisions = world.decisions := by
  rcases respond_eq_some h with ⟨_, _, _, rfl⟩ | ⟨_, _, _, _, rfl⟩
  . exact ⟨rfl, rfl, rfl, rfl⟩
  . exact ⟨rfl, rfl, rfl, rfl⟩

theorem emit_frame {world world' : World} {index : Nat} {session : Option SessionView}
    (h : world.emit index session = some world')
    : world'.state = world.state ∧ world'.registered = world.registered ∧ world'.requests = world.requests
      ∧ world'.decisions = world.decisions := by
  rcases emit_eq_some h with ⟨_, _, _, _, rfl⟩ | ⟨_, _, _, _, rfl⟩ | ⟨_, _, _, rfl⟩ | ⟨_, _, _, _, _, rfl⟩
    | ⟨_, _, rfl⟩
  . exact ⟨rfl, rfl, rfl, rfl⟩
  . exact ⟨rfl, rfl, rfl, rfl⟩
  . exact ⟨rfl, rfl, rfl, rfl⟩
  . exact ⟨rfl, rfl, rfl, rfl⟩
  . exact ⟨rfl, rfl, rfl, rfl⟩

/--
What is registered has an id with its uuid.
-/
theorem Sound.registered_append {world : World} (h : world.Sound) (registration : Registration)
    (hfresh : registration.uuid ∉ world.registered.map (·.uuid)) {agentId threadId : String}
    (hid : registration.requestId = requestIdOf agentId threadId registration.uuid)
    : (∀ other ∈ world.registered ++ [registration], ∃ agentId threadId,
        other.requestId = requestIdOf agentId threadId other.uuid)
      ∧ ((world.registered ++ [registration]).map (·.uuid)).Nodup := by
  constructor
  . intro other hother
    rw [List.mem_append, List.mem_singleton] at hother
    rcases hother with hold | rfl
    . exact h.ids other hold
    . exact ⟨agentId, threadId, hid⟩
  . rw [List.map_append, List.map_singleton]
    exact List.nodup_append.mpr ⟨h.uuids, List.nodup_singleton _, by
      rintro a ha b hb rfl
      exact hfresh ((List.mem_singleton.mp hb) ▸ ha)⟩

theorem Sound.receive {world : World} (h : world.Sound) {request : Request} {uuid : Uuid}
    {result : InteractionState × Received} (hfresh : uuid ∉ world.registered.map (·.uuid))
    (hregisters : Registers world.state world.requests.length uuid request result)
    : (world.receive request uuid result).Sound := by
  cases hregisters with
  | refuse request answer hrefuses =>
    have hregistered : (world.receive request uuid (world.state, .answer answer)).registered = world.registered :=
      List.append_nil _
    exact ⟨h.keyed, h.fit, hregistered ▸ h.permissions, hregistered ▸ h.elicitations, hregistered ▸ h.ids,
      hregistered ▸ h.uuids⟩
  | permission entry hentry hcapacity =>
    obtain ⟨agentId, threadId, turnId, hsummary⟩ := hentry.summary
    have hid : entry.summary.requestId = requestIdOf agentId threadId uuid := by
      rw [hsummary]
      rfl
    obtain ⟨hids, huuids⟩ := h.registered_append ⟨world.requests.length, entry.sessionId,
      entry.summary.threadId, entry.summary.requestId, uuid⟩ hfresh hid
    refine ⟨⟨h.keyed.permissions.assign entry, h.keyed.elicitations⟩, h.fit.bumpEpoch entry.sessionId, ?_, ?_, hids,
      huuids⟩
    . intro stored hstored
      rw [show (world.receive _ _ _).registered = world.registered ++ [_] from rfl, List.map_append,
        List.mem_append]
      rcases List.mem_assign hstored with rfl | hold
      . exact .inr (List.mem_singleton.mpr rfl)
      . exact .inl (h.permissions stored hold)
    . intro stored hstored
      rw [show (world.receive _ _ _).registered = world.registered ++ [_] from rfl, List.map_append,
        List.mem_append]
      exact .inl (h.elicitations stored hstored)
  | elicitation request entry hentry hcapacity =>
    obtain ⟨agentId, threadId, turnId, hsummary⟩ := hentry.summary
    have hid : entry.summary.requestId = requestIdOf agentId threadId uuid := by
      rw [hsummary]
      rfl
    obtain ⟨hids, huuids⟩ := h.registered_append ⟨world.requests.length, entry.sessionId,
      entry.summary.threadId, entry.summary.requestId, uuid⟩ hfresh hid
    refine ⟨⟨h.keyed.permissions, h.keyed.elicitations.assign entry⟩, h.fit.bumpEpoch entry.sessionId, ?_, ?_, hids,
      huuids⟩
    . intro stored hstored
      rw [show (world.receive _ _ _).registered = world.registered ++ [_] from rfl, List.map_append,
        List.mem_append]
      exact .inl (h.permissions stored hstored)
    . intro stored hstored
      rw [show (world.receive _ _ _).registered = world.registered ++ [_] from rfl, List.map_append,
        List.mem_append]
      rcases List.mem_assign hstored with rfl | hold
      . exact .inr (List.mem_singleton.mpr rfl)
      . exact .inl (h.elicitations stored hold)

theorem Sound.of_extracts {world : World} (h : world.Sound) {decisions : List Decision}
    {permission : PermissionEntry → Bool} {elicitation : ElicitationEntry → Bool}
    {ofPermission : PermissionEntry → Settlement} {ofElicitation : ElicitationEntry → Settlement}
    {state : InteractionState} {settlements : List Settlement}
    (hextracts : Extracts formats decisions world.state permission elicitation ofPermission ofElicitation
      (state, settlements))
    {world' : World} (hstate : world'.state = state)
    (hregistered : world'.registered = world.registered)
    : world'.Sound where
  keyed := by
    rw [hstate]
    refine ⟨?_, ?_⟩
    . rw [hextracts.permissions]
      exact h.keyed.permissions.filter _
    . rw [hextracts.elicitations]
      exact h.keyed.elicitations.filter _
  fit := hstate ▸ hextracts.fit
  permissions := by
    rw [hstate, hextracts.permissions, hregistered]
    intro entry hentry
    exact h.permissions entry (List.mem_of_mem_filter hentry)
  elicitations := by
    rw [hstate, hextracts.elicitations, hregistered]
    intro entry hentry
    exact h.elicitations entry (List.mem_of_mem_filter hentry)
  ids := hregistered ▸ h.ids
  uuids := hregistered ▸ h.uuids

theorem Sound.step {world world' : World} {action : Action} (h : world.Sound) (hfresh : FreshUuid world action)
    (hstep : step formats world action = some world')
    : world'.Sound := by
  cases moves_of_step h.keyed h.fit hstep with
  | receive huuid hregisters => exact h.receive (hfresh _ huuid) hregisters
  | finish onError hends hdecisions =>
    obtain ⟨_, _, _, _, hextracts⟩ := hends
    exact h.of_extracts hextracts rfl rfl
  | idle decisions watched steers hdecisions => exact ⟨h.keyed, h.fit, h.permissions, h.elicitations, h.ids, h.uuids⟩
  | rehash hpermissions helicitations =>
    exact ⟨⟨h.keyed.permissions.perm hpermissions, h.keyed.elicitations.perm helicitations⟩, h.fit,
      fun entry hentry => h.permissions entry (hpermissions.subset hentry),
      fun entry hentry => h.elicitations entry (helicitations.subset hentry), h.ids, h.uuids⟩
  | respond haction hrespond =>
    obtain ⟨hstate, hregistered, -⟩ := respond_frame hrespond
    exact ⟨hstate ▸ h.keyed, hstate ▸ h.fit, hstate ▸ hregistered ▸ h.permissions,
      hstate ▸ hregistered ▸ h.elicitations, hregistered ▸ h.ids, hregistered ▸ h.uuids⟩
  | emit haction hemit =>
    obtain ⟨hstate, hregistered, -⟩ := emit_frame hemit
    exact ⟨hstate ▸ h.keyed, hstate ▸ h.fit, hstate ▸ hregistered ▸ h.permissions,
      hstate ▸ hregistered ▸ h.elicitations, hregistered ▸ h.ids, hregistered ▸ h.uuids⟩

theorem sound_of_exec {actions : List Action} {world : World}
    (hmeets : Transition.Meets (step formats) FreshUuid init actions)
    (hexec : Transition.exec (step formats) init actions = some world)
    : world.Sound :=
  Transition.exec_invariant (fun _ _ _ h hfresh hstep => h.step hfresh hstep) sound_init hmeets hexec

end World

/-! A permission that a client grants -/

def anyFormat : TextFormats where
  isMatch _ _ := some true
  isUrl _ := true
  isDate _ := true
  isDateTime _ := true

def grantUuid : Uuid := ⟨"4ae3cbbb-3cb6-4d83-b5a0-a0bd8cbe8d52", by decide⟩

def grantRequest : RequestPermissionRequest where
  sessionId := "session"
  toolCallId := "call"
  title := some "Run tests"
  kind := some .execute
  status := none
  options := [⟨"allow", "Allow", .allowOnce⟩, ⟨"reject", "Reject", .rejectOnce⟩]

def grantSession : SessionView where
  agentId := "agent"
  threadId := "thread"
  activeSourceTurnId := some "turn"
  generation := some 1

def grantActions : List Action :=
  [.registerPermission grantRequest (some grantSession) grantUuid, .emit 0 (some grantSession),
    .resolvePermission "thread" (requestIdOf "agent" "thread" grantUuid) "allow", .respond 0 true,
    .emit 0 (some grantSession), .emit 0 (some grantSession)]

/--
The permission is pending.
-/
def grantAsked : List Action :=
  grantActions.take 2

theorem meets_grantAsked : Transition.Meets (World.step anyFormat) FreshUuid .init grantAsked := by
  decide

theorem meets_grantActions : Transition.Meets (World.step anyFormat) FreshUuid .init grantActions := by
  decide

end Acp
