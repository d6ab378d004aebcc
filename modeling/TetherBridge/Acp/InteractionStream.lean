import TetherBridge.Acp.InteractionLedger

/-!
This module contains what the stream of events says of the pending requests: while no method is at work, those are
pending which were announced and not resolved.
-/

namespace Acp

variable {formats : TextFormats}

/--
Whether it is one request id.
-/
def ofRequestId (requestId : String) : Measure where
  permission entry := if entry.summary.requestId = requestId then 1 else 0
  elicitation entry := if entry.summary.requestId = requestId then 1 else 0
  settlement settlement := if settlement.requestId = requestId then 1 else 0
  settle_permission _ _ _ _ := rfl
  settle_elicitation _ _ _ _ := rfl

def InteractionEvent.requestedId : InteractionEvent → Option String
  | .permissionRequested _ summary => some summary.requestId
  | .elicitationRequested _ summary => some summary.requestId
  | _ => none

def InteractionEvent.resolvedId : InteractionEvent → Option String
  | .permissionResolved _ _ _ requestId _ => some requestId
  | .elicitationResolved _ _ _ requestId _ => some requestId
  | _ => none

/--
How often a task is to announce the request.
-/
def Task.unannounced (requestId : String) : Task → Nat
  | .received _ (.permissionRequested _ summary) => if summary.requestId = requestId then 1 else 0
  | .received _ (.elicitationRequested _ summary) => if summary.requestId = requestId then 1 else 0
  | _ => 0

/--
How often a task is to report that the request is resolved.
-/
def Task.unresolved (requestId : String) : Task → Nat
  | .received _ _ => 0
  | .settle settlements _ => List.weigh (ofRequestId requestId).settlement settlements
  | .resolve settlement _ settlements _ =>
    (ofRequestId requestId).settlement settlement + List.weigh (ofRequestId requestId).settlement settlements

/--
The session of an event is there when it is emitted.
-/
def Action.SessionPresent : Action → Prop
  | .emit _ session => session.isSome
  | _ => True

instance : DecidablePred Action.SessionPresent
  | .emit _ session => inferInstanceAs (Decidable (session.isSome = true))
  | .registerPermission .. => isTrue trivial
  | .registerElicitation .. => isTrue trivial
  | .resolvePermission .. => isTrue trivial
  | .cancelPermission .. => isTrue trivial
  | .acceptElicitation .. => isTrue trivial
  | .declineElicitation .. => isTrue trivial
  | .cancelElicitation .. => isTrue trivial
  | .cancelSession .. => isTrue trivial
  | .prepareSteer _ => isTrue trivial
  | .steer .. => isTrue trivial
  | .drain => isTrue trivial
  | .peerCancels _ => isTrue trivial
  | .rehash .. => isTrue trivial
  | .respond .. => isTrue trivial

namespace World

open InteractionState

def requestedIds (world : World) : List String :=
  world.events.filterMap InteractionEvent.requestedId

def resolvedIds (world : World) : List String :=
  world.events.filterMap InteractionEvent.resolvedId

def pendingIds (world : World) : List String :=
  world.state.permissions.map (·.2.summary.requestId) ++ world.state.elicitations.map (·.2.summary.requestId)

/--
Each id that was registered is announced once and resolved once, sooner or later.
-/
structure Streamed (world : World) : Prop where
  requested : ∀ requestId, world.requestedIds.count requestId + List.weigh (Task.unannounced requestId) world.tasks
    = (world.registered.map (·.requestId)).count requestId
  resolved : ∀ requestId, world.resolvedIds.count requestId + (world.dropped.map (·.requestId)).count requestId
      + (List.weigh (Task.unresolved requestId) world.tasks + (ofRequestId requestId).held world.state)
    = (world.registered.map (·.requestId)).count requestId

theorem count_requestedIds (world : World) (event : InteractionEvent) (requestId : String)
    : ((world.events ++ [event]).filterMap InteractionEvent.requestedId).count requestId
        = world.requestedIds.count requestId + if event.requestedId = some requestId then 1 else 0 := by
  rw [List.filterMap_append, List.count_append, List.filterMap_cons, List.filterMap_nil]
  unfold requestedIds
  cases event.requestedId with
  | none => simp
  | some other => simp [List.count_singleton]

theorem count_resolvedIds (world : World) (event : InteractionEvent) (requestId : String)
    : ((world.events ++ [event]).filterMap InteractionEvent.resolvedId).count requestId
        = world.resolvedIds.count requestId + if event.resolvedId = some requestId then 1 else 0 := by
  rw [List.filterMap_append, List.count_append, List.filterMap_cons, List.filterMap_nil]
  unfold resolvedIds
  cases event.resolvedId with
  | none => simp
  | some other => simp [List.count_singleton]

theorem requestedId_event (settlement : Settlement) (session : SessionView)
    : (settlement.event session).requestedId = none := by
  unfold Settlement.event
  cases settlement.kind <;> rfl

theorem resolvedId_event (settlement : Settlement) (session : SessionView)
    : (settlement.event session).resolvedId = some settlement.requestId := by
  unfold Settlement.event
  cases settlement.kind <;> rfl

theorem filterMap_event (onError : OnError) (session : Option SessionView)
    : (onError.event session).filterMap InteractionEvent.requestedId = []
      ∧ (onError.event session).filterMap InteractionEvent.resolvedId = [] := by
  unfold OnError.event
  split
  . exact ⟨rfl, rfl⟩
  . exact ⟨rfl, rfl⟩

theorem Streamed.receive {world : World} (hsound : world.Sound) (h : world.Streamed) {request : Request}
    {uuid : Uuid} {result : InteractionState × Received} (hfresh : uuid ∉ world.registered.map (·.uuid))
    (hregisters : Registers world.state world.requests.length uuid request result)
    : (world.receive request uuid result).Streamed := by
  have hrequested := h.requested
  have hresolved := h.resolved
  unfold World.receive
  cases hregisters with
  | refuse request answer hrefuses =>
    constructor
    . intro requestId
      have := hrequested requestId
      dsimp only [Received.registration]
      rw [List.append_nil, List.weigh_append, List.weigh_cons, List.weigh_nil]
      exact this
    . intro requestId
      have := hresolved requestId
      dsimp only [Received.registration]
      rw [List.append_nil, List.weigh_append, List.weigh_cons, List.weigh_nil]
      exact this
  | permission entry hentry hcapacity =>
    have hnew := (hsound.permission_new hfresh hentry).2
    constructor
    . intro requestId
      have := hrequested requestId
      dsimp only [Received.registration]
      rw [List.map_append, List.count_append, List.weigh_append, List.weigh_cons, List.weigh_nil,
        List.map_singleton, List.count_singleton]
      simp only [beq_iff_eq]
      dsimp only [Task.unannounced, requestedIds] at this ⊢
      omega
    . intro requestId
      have := hresolved requestId
      dsimp only [Received.registration]
      rw [List.map_append, List.count_append, List.weigh_append, List.weigh_cons, List.weigh_nil,
        List.map_singleton, List.count_singleton, Measure.held_addPermission _ hnew]
      simp only [beq_iff_eq]
      dsimp only [Task.unresolved, resolvedIds, ofRequestId] at this ⊢
      omega
  | elicitation request entry hentry hcapacity =>
    have hnew := (hsound.elicitation_new hfresh hentry).2
    constructor
    . intro requestId
      have := hrequested requestId
      dsimp only [Received.registration]
      rw [List.map_append, List.count_append, List.weigh_append, List.weigh_cons, List.weigh_nil,
        List.map_singleton, List.count_singleton]
      simp only [beq_iff_eq]
      dsimp only [Task.unannounced, requestedIds] at this ⊢
      omega
    . intro requestId
      have := hresolved requestId
      dsimp only [Received.registration]
      rw [List.map_append, List.count_append, List.weigh_append, List.weigh_cons, List.weigh_nil,
        List.map_singleton, List.count_singleton, Measure.held_addElicitation _ hnew]
      simp only [beq_iff_eq]
      dsimp only [Task.unresolved, resolvedIds, ofRequestId] at this ⊢
      omega

theorem Streamed.respond {world world' : World} {index : Nat} {succeeds : Bool} (h : world.Streamed)
    (hrespond : world.respond index succeeds = some world')
    : world'.Streamed := by
  have hrequested := h.requested
  have hresolved := h.resolved
  rcases respond_eq_some hrespond with ⟨other, answer, htask, rfl⟩ | ⟨settlement, settlements, onError, htask, rfl⟩
  . constructor
    . intro requestId
      have hold := hrequested requestId
      have htasks := List.weigh_eraseIdx (w := Task.unannounced requestId) htask
      dsimp only [Task.unannounced, requestedIds] at hold htasks ⊢
      omega
    . intro requestId
      have hold := hresolved requestId
      have htasks := List.weigh_eraseIdx (w := Task.unresolved requestId) htask
      dsimp only [Task.unresolved, resolvedIds] at hold htasks ⊢
      omega
  . constructor
    . intro requestId
      have hold := hrequested requestId
      have htasks := List.weigh_set (w := Task.unannounced requestId) htask
        (.resolve settlement (!succeeds) settlements onError)
      dsimp only [Task.unannounced, requestedIds] at hold htasks ⊢
      omega
    . intro requestId
      have hold := hresolved requestId
      have htasks := List.weigh_set (w := Task.unresolved requestId) htask
        (.resolve settlement (!succeeds) settlements onError)
      dsimp only [Task.unresolved, resolvedIds] at hold htasks ⊢
      rw [List.weigh_cons] at htasks
      omega

theorem Streamed.emit {world world' : World} {index : Nat} {session : Option SessionView} (h : world.Streamed)
    (hpresent : session.isSome) (hemit : world.emit index session = some world')
    : world'.Streamed := by
  obtain ⟨view, rfl⟩ := Option.isSome_iff_exists.mp hpresent
  have hrequested := h.requested
  have hresolved := h.resolved
  rcases emit_eq_some hemit with ⟨_, sessionId, summary, htask, rfl⟩ | ⟨_, sessionId, summary, htask, rfl⟩
    | ⟨settlement, settlements, htask, rfl⟩ | ⟨settlement, failed, settlements, onError, htask, rfl⟩
    | ⟨onError, htask, rfl⟩
  . constructor
    . intro requestId
      have hold := hrequested requestId
      have htasks := List.weigh_eraseIdx (w := Task.unannounced requestId) htask
      have hevents := count_requestedIds world (.permissionRequested sessionId summary) requestId
      simp only [InteractionEvent.requestedId, Option.some.injEq, Task.unannounced] at hevents htasks
      unfold requestedIds at hold hevents ⊢
      dsimp only
      omega
    . intro requestId
      have hold := hresolved requestId
      have htasks := List.weigh_eraseIdx (w := Task.unresolved requestId) htask
      have hevents := count_resolvedIds world (.permissionRequested sessionId summary) requestId
      simp only [InteractionEvent.resolvedId, reduceCtorEq, if_false, Task.unresolved] at hevents htasks
      unfold resolvedIds at hold hevents ⊢
      dsimp only
      omega
  . constructor
    . intro requestId
      have hold := hrequested requestId
      have htasks := List.weigh_eraseIdx (w := Task.unannounced requestId) htask
      have hevents := count_requestedIds world (.elicitationRequested sessionId summary) requestId
      simp only [InteractionEvent.requestedId, Option.some.injEq, Task.unannounced] at hevents htasks
      unfold requestedIds at hold hevents ⊢
      dsimp only [Option.map_some, Option.toList_some]
      omega
    . intro requestId
      have hold := hresolved requestId
      have htasks := List.weigh_eraseIdx (w := Task.unresolved requestId) htask
      have hevents := count_resolvedIds world (.elicitationRequested sessionId summary) requestId
      simp only [InteractionEvent.resolvedId, reduceCtorEq, if_false, Task.unresolved] at hevents htasks
      unfold resolvedIds at hold hevents ⊢
      dsimp only [Option.map_some, Option.toList_some]
      omega
  . constructor
    . intro requestId
      have hold := hrequested requestId
      have htasks := List.weigh_eraseIdx (w := Task.unannounced requestId) htask
      have hevents := count_requestedIds world (settlement.event view) requestId
      simp only [requestedId_event, reduceCtorEq, if_false, Task.unannounced] at hevents htasks
      unfold requestedIds at hold hevents ⊢
      dsimp only [Option.map_some, Option.toList_some]
      omega
    . intro requestId
      have hold := hresolved requestId
      have htasks := List.weigh_eraseIdx (w := Task.unresolved requestId) htask
      have hcount := List.count_map_eq_weigh (·.requestId) requestId settlements
      have hevents := count_resolvedIds world (settlement.event view) requestId
      simp only [resolvedId_event, Option.some.injEq] at hevents
      unfold resolvedIds at hold hevents ⊢
      dsimp only [Option.map_some, Option.toList_some, Task.unresolved, ofRequestId] at hold htasks ⊢
      rw [List.map_append, List.count_append, hcount]
      omega
  . constructor
    . intro requestId
      have hold := hrequested requestId
      have htasks := List.weigh_set (w := Task.unannounced requestId) htask
        (.settle settlements (onError.after failed))
      have hevents := count_requestedIds world (settlement.event view) requestId
      simp only [requestedId_event, reduceCtorEq, if_false, Task.unannounced] at hevents htasks
      unfold requestedIds at hold hevents ⊢
      dsimp only [Option.map_some, Option.toList_some]
      omega
    . intro requestId
      have hold := hresolved requestId
      have htasks := List.weigh_set (w := Task.unresolved requestId) htask
        (.settle settlements (onError.after failed))
      have hevents := count_resolvedIds world (settlement.event view) requestId
      simp only [resolvedId_event, Option.some.injEq] at hevents
      unfold resolvedIds at hold hevents ⊢
      dsimp only [Option.map_some, Option.toList_some, Task.unresolved, ofRequestId] at hold htasks ⊢
      omega
  . obtain ⟨hnone, hnone'⟩ := filterMap_event onError (some view)
    constructor
    . intro requestId
      have hold := hrequested requestId
      have htasks := List.weigh_eraseIdx (w := Task.unannounced requestId) htask
      unfold requestedIds at hold ⊢
      dsimp only [Task.unannounced] at htasks ⊢
      rw [List.filterMap_append, hnone, List.append_nil]
      omega
    . intro requestId
      have hold := hresolved requestId
      have htasks := List.weigh_eraseIdx (w := Task.unresolved requestId) htask
      unfold resolvedIds at hold ⊢
      dsimp only [Task.unresolved] at htasks ⊢
      rw [List.weigh_nil] at htasks
      rw [List.filterMap_append, hnone', List.append_nil]
      omega

theorem Streamed.step {world world' : World} {action : Action} (hsound : world.Sound) (h : world.Streamed)
    (hfresh : FreshUuid world action) (hpresent : action.SessionPresent)
    (hstep : World.step formats world action = some world')
    : world'.Streamed := by
  cases moves_of_step hsound.keyed hsound.fit hstep with
  | @receive request uuid result huuid hregisters => exact h.receive hsound (hfresh _ huuid) hregisters
  | @finish decisions watched state settlements onError hends hdecisions =>
    obtain ⟨_, _, _, _, hextracts⟩ := hends
    constructor
    . intro requestId
      have hold := h.requested requestId
      rw [List.weigh_append, List.weigh_cons, List.weigh_nil]
      exact hold
    . intro requestId
      have hold := h.resolved requestId
      have hheld := Measure.held_extracts (ofRequestId requestId) hextracts
      unfold resolvedIds at hold ⊢
      dsimp only at hheld ⊢
      rw [List.weigh_append, List.weigh_cons, List.weigh_nil]
      dsimp only [Task.unresolved]
      omega
  | idle decisions watched steers hdecisions => exact ⟨h.requested, h.resolved⟩
  | rehash hpermissions helicitations =>
    refine ⟨h.requested, ?_⟩
    intro requestId
    rw [Measure.held_perm _ hpermissions helicitations]
    exact h.resolved requestId
  | respond haction hrespond => exact h.respond hrespond
  | emit haction hemit =>
    rw [haction] at hpresent
    exact h.emit hpresent hemit

theorem held_ofRequestId (world : World) (requestId : String)
    : (ofRequestId requestId).held world.state = world.pendingIds.count requestId := by
  unfold pendingIds
  rw [List.count_append, List.count_map_eq_weigh, List.count_map_eq_weigh]
  rfl

/--
While no method is at work and none was left with an error, the pending requests are those that were announced and not
resolved, and no request was announced or resolved twice.
-/
theorem pending_iff_requested_not_resolved {actions : List Action} {world : World}
    (hmeets : Transition.Meets (World.step formats) (fun world action => FreshUuid world action ∧ action.SessionPresent)
      init actions)
    (hexec : Transition.exec (World.step formats) init actions = some world) (hidle : world.tasks = [])
    (hdropped : world.dropped = [])
    : world.requestedIds.Nodup ∧ world.resolvedIds.Nodup
      ∧ ∀ requestId, requestId ∈ world.pendingIds
          ↔ requestId ∈ world.requestedIds ∧ requestId ∉ world.resolvedIds := by
  have hinvariant : world.Sound ∧ world.Streamed :=
    Transition.exec_invariant (I := fun world => world.Sound ∧ world.Streamed)
      (fun _ _ _ h hguard hstep => ⟨h.1.step hguard.1 hstep, h.2.step h.1 hguard.1 hguard.2 hstep⟩)
      ⟨sound_init, fun _ => rfl, fun _ => rfl⟩ hmeets hexec
  have hone : ∀ requestId, (world.registered.map (·.requestId)).count requestId ≤ 1 := by
    intro requestId
    exact List.nodup_iff_count_le_one.mp hinvariant.1.nodup_requestIds requestId
  have hrequested : ∀ requestId, world.requestedIds.count requestId
      = (world.registered.map (·.requestId)).count requestId := by
    intro requestId
    have := hinvariant.2.requested requestId
    rwa [hidle, List.weigh_nil] at this
  have hresolved : ∀ requestId, world.resolvedIds.count requestId + world.pendingIds.count requestId
      = world.requestedIds.count requestId := by
    intro requestId
    have := hinvariant.2.resolved requestId
    rw [hidle, hdropped, List.weigh_nil, held_ofRequestId, ← hrequested, List.map_nil, List.count_nil] at this
    omega
  refine ⟨?_, ?_, ?_⟩
  . rw [List.nodup_iff_count_le_one]
    intro requestId
    rw [hrequested]
    exact hone requestId
  . rw [List.nodup_iff_count_le_one]
    intro requestId
    have := hone requestId
    have := hrequested requestId
    have := hresolved requestId
    omega
  . intro requestId
    have := hone requestId
    have := hrequested requestId
    have := hresolved requestId
    rw [← List.count_pos_iff, ← List.count_pos_iff, ← List.count_pos_iff]
    omega

theorem pending_iff_requested_not_resolved_granted
    : ∃ world, Transition.exec (World.step anyFormat) init grantActions = some world
        ∧ world.requestedIds.Nodup ∧ world.resolvedIds.Nodup
        ∧ ∀ requestId, requestId ∈ world.pendingIds
            ↔ requestId ∈ world.requestedIds ∧ requestId ∉ world.resolvedIds :=
  ⟨_, rfl, pending_iff_requested_not_resolved
    (Transition.Meets.and meets_grantActions (by decide)) rfl rfl rfl⟩

end World

end Acp
