import TetherBridge.Acp.InteractionMoves

/-!
This module contains how many requests are pending at most, and in which order a client is shown them: the one in which
they were registered.
-/

namespace Acp

variable {formats : TextFormats}

namespace World

open InteractionState

/--
How many requests of a session are pending.
-/
def pendingOf (world : World) (sessionId : String) : Nat :=
  world.state.permissions.countP (fun entry => entry.2.request.sessionId = sessionId)
    + world.state.elicitations.countP fun entry => entry.2.sessionId = sessionId

structure Limited (world : World) : Prop where
  total : world.state.permissions.length + world.state.elicitations.length ≤ maxPendingGlobal
  session : ∀ sessionId, world.pendingOf sessionId ≤ maxPendingPerSession

theorem Limited.of_sublist {world world' : World} (h : world.Limited)
    (hpermissions : world'.state.permissions.Subperm world.state.permissions)
    (helicitations : world'.state.elicitations.Subperm world.state.elicitations)
    : world'.Limited where
  total := Nat.le_trans (Nat.add_le_add hpermissions.length_le helicitations.length_le) h.total
  session sessionId := by
    have hold := h.session sessionId
    unfold pendingOf at hold ⊢
    exact Nat.le_trans (Nat.add_le_add (hpermissions.countP_le _) (helicitations.countP_le _)) hold

theorem not_atCapacity {state : InteractionState} {sessionId : String}
    (h : state.atCapacity maxPendingGlobal maxPendingPerSession sessionId = false)
    : state.permissions.length + state.elicitations.length < maxPendingGlobal
      ∧ state.permissions.countP (fun entry => entry.2.request.sessionId = sessionId)
          + state.elicitations.countP (fun entry => entry.2.sessionId = sessionId) < maxPendingPerSession := by
  unfold atCapacity at h
  simp only [Bool.or_eq_false_iff, decide_eq_false_iff_not, ge_iff_le, Nat.not_le] at h
  exact h

theorem Limited.receive {world : World} (hsound : world.Sound) (h : world.Limited) {request : Request}
    {uuid : Uuid} {result : InteractionState × Received} (hfresh : uuid ∉ world.registered.map (·.uuid))
    (hregisters : Registers world.state world.requests.length uuid request result)
    : (world.receive request uuid result).Limited := by
  cases hregisters with
  | refuse request answer hrefuses => exact ⟨h.total, h.session⟩
  | permission entry hentry hcapacity =>
    have hnew := (hsound.permission_new hfresh hentry).2
    have hassign : (world.state.addPermission entry).permissions
        = world.state.permissions ++ [(entry.summary.requestId, entry)] := List.assign_of_not_mem hnew entry
    obtain ⟨htotal, hsession⟩ := not_atCapacity hcapacity
    constructor
    . change (world.state.addPermission entry).permissions.length + world.state.elicitations.length ≤ _
      rw [hassign, List.length_append, List.length_singleton]
      omega
    . intro sessionId
      have hold := h.session sessionId
      unfold pendingOf at hold ⊢
      change (world.state.addPermission entry).permissions.countP _ + world.state.elicitations.countP _ ≤ _
      rw [hassign, List.countP_append, List.countP_singleton]
      split
      . next heq =>
        rw [decide_eq_true_eq] at heq
        rw [hentry.sessionId, heq] at hsession
        omega
      . exact hold
  | elicitation request entry hentry hcapacity =>
    have hnew := (hsound.elicitation_new hfresh hentry).2
    have hassign : (world.state.addElicitation entry).elicitations
        = world.state.elicitations ++ [(entry.summary.requestId, entry)] := List.assign_of_not_mem hnew entry
    obtain ⟨htotal, hsession⟩ := not_atCapacity hcapacity
    constructor
    . change world.state.permissions.length + (world.state.addElicitation entry).elicitations.length ≤ _
      rw [hassign, List.length_append, List.length_singleton]
      omega
    . intro sessionId
      have hold := h.session sessionId
      unfold pendingOf at hold ⊢
      change world.state.permissions.countP _ + (world.state.addElicitation entry).elicitations.countP _ ≤ _
      rw [hassign, List.countP_append, List.countP_singleton]
      split
      . next heq =>
        rw [decide_eq_true_eq] at heq
        rw [heq] at hsession
        omega
      . exact hold

theorem Limited.step {world world' : World} {action : Action} (hsound : world.Sound) (h : world.Limited)
    (hfresh : FreshUuid world action) (hstep : World.step formats world action = some world')
    : world'.Limited := by
  cases moves_of_step hsound.keyed hsound.fit hstep with
  | receive huuid hregisters => exact h.receive hsound (hfresh _ huuid) hregisters
  | finish onError hends hdecisions =>
    obtain ⟨_, _, _, _, hextracts⟩ := hends
    apply h.of_sublist
    . rw [hextracts.permissions]
      exact List.filter_sublist.subperm
    . rw [hextracts.elicitations]
      exact List.filter_sublist.subperm
  | idle decisions watched steers hdecisions => exact ⟨h.total, h.session⟩
  | rehash hpermissions helicitations => exact h.of_sublist hpermissions.subperm helicitations.subperm
  | respond haction hrespond =>
    have hstate := (respond_frame hrespond).1
    exact h.of_sublist (hstate ▸ List.Subperm.refl _) (hstate ▸ List.Subperm.refl _)
  | emit haction hemit =>
    have hstate := (emit_frame hemit).1
    exact h.of_sublist (hstate ▸ List.Subperm.refl _) (hstate ▸ List.Subperm.refl _)

/--
Whatever the agents ask for, there are never more than 128 requests pending, and never more than 16 of one session.
-/
theorem pending_le_limits {actions : List Action} {world : World}
    (hmeets : Transition.Meets (World.step formats) FreshUuid init actions)
    (hexec : Transition.exec (World.step formats) init actions = some world)
    : world.state.permissions.length + world.state.elicitations.length ≤ 128
      ∧ ∀ sessionId, world.pendingOf sessionId ≤ 16 := by
  have hinvariant : world.Sound ∧ world.Limited :=
    Transition.exec_invariant (I := fun world => world.Sound ∧ world.Limited)
      (fun _ _ _ h hfresh hstep => ⟨h.1.step hfresh hstep, h.2.step h.1 hfresh hstep⟩)
      ⟨sound_init, Nat.zero_le _, fun _ => Nat.zero_le _⟩ hmeets hexec
  exact ⟨hinvariant.2.total, hinvariant.2.session⟩

theorem pending_le_limits_granted
    : ∃ world, Transition.exec (World.step anyFormat) init grantAsked = some world
        ∧ world.state.permissions.length + world.state.elicitations.length ≤ 128
        ∧ ∀ sessionId, world.pendingOf sessionId ≤ 16 :=
  ⟨_, rfl, pending_le_limits meets_grantAsked rfl⟩

/--
The order of a pending request is the number of the registration that it was.
-/
structure Ordered (world : World) : Prop where
  length_le : world.registered.length ≤ world.requests.length
  nextOrder : world.requests.length < 2 ^ 64 → world.state.nextOrder = world.registered.length
  permissions : world.requests.length < 2 ^ 64 → ∀ entry ∈ world.state.permissions,
    0 < entry.2.summary.requestedOrder
      ∧ (world.registered.map (·.requestId))[entry.2.summary.requestedOrder - 1]? = some entry.2.summary.requestId
  elicitations : world.requests.length < 2 ^ 64 → ∀ entry ∈ world.state.elicitations,
    0 < entry.2.summary.requestedOrder
      ∧ (world.registered.map (·.requestId))[entry.2.summary.requestedOrder - 1]? = some entry.2.summary.requestId

theorem getElem?_append_of_some {xs ys : List String} {index : Nat} {x : String} (h : xs[index]? = some x)
    : (xs ++ ys)[index]? = some x := by
  rw [List.getElem?_append_left (List.getElem?_eq_some_iff.mp h).1]
  exact h

theorem Ordered.receive {world : World} (h : world.Ordered) {request : Request} {uuid : Uuid}
    {result : InteractionState × Received}
    (hregisters : Registers world.state world.requests.length uuid request result)
    : (world.receive request uuid result).Ordered := by
  have hlength : (world.receive request uuid result).requests.length = world.requests.length + 1 :=
    List.length_append
  have hle := h.length_le
  cases hregisters with
  | refuse request answer hrefuses =>
    have hregistered : (world.receive request uuid (world.state, .answer answer)).registered = world.registered :=
      List.append_nil _
    refine ⟨?_, ?_, ?_, ?_⟩
    . rw [hlength, hregistered]
      omega
    . rw [hlength, hregistered]
      intro hlt
      exact h.nextOrder (by omega)
    . rw [hlength, hregistered]
      intro hlt
      exact h.permissions (by omega)
    . rw [hlength, hregistered]
      intro hlt
      exact h.elicitations (by omega)
  | permission entry hentry hcapacity =>
    obtain ⟨agentId, threadId, turnId, hsummary⟩ := hentry.summary
    refine ⟨?_, ?_, ?_, ?_⟩
    . rw [hlength]
      simpa [World.receive, Received.registration] using hle
    . rw [hlength]
      intro hlt
      have hnext := h.nextOrder (by omega)
      change (world.state.nextOrder + 1) % 2 ^ 64 = (world.registered ++ [_]).length
      rw [List.length_append, List.length_singleton, hnext]
      omega
    . rw [hlength]
      intro hlt stored hstored
      have hnext := h.nextOrder (by omega)
      change _ ∧ ((world.registered ++ [_]).map _)[_]? = _
      rw [List.map_append]
      rcases List.mem_assign hstored with rfl | hold
      . have horder : entry.summary.requestedOrder = world.registered.length + 1 := by
          rw [hsummary]
          change (world.state.nextOrder + 1) % 2 ^ 64 = _
          omega
        rw [horder]
        refine ⟨Nat.succ_pos _, ?_⟩
        rw [Nat.add_sub_cancel, List.getElem?_append_right (by simp), List.length_map, Nat.sub_self]
        rfl
      . have hplace := h.permissions (by omega) stored hold
        exact ⟨hplace.1, getElem?_append_of_some hplace.2⟩
    . rw [hlength]
      intro hlt stored hstored
      change _ ∧ ((world.registered ++ [_]).map _)[_]? = _
      rw [List.map_append]
      have hplace := h.elicitations (by omega) stored hstored
      exact ⟨hplace.1, getElem?_append_of_some hplace.2⟩
  | elicitation request entry hentry hcapacity =>
    obtain ⟨agentId, threadId, turnId, hsummary⟩ := hentry.summary
    refine ⟨?_, ?_, ?_, ?_⟩
    . rw [hlength]
      simpa [World.receive, Received.registration] using hle
    . rw [hlength]
      intro hlt
      have hnext := h.nextOrder (by omega)
      change (world.state.nextOrder + 1) % 2 ^ 64 = (world.registered ++ [_]).length
      rw [List.length_append, List.length_singleton, hnext]
      omega
    . rw [hlength]
      intro hlt stored hstored
      change _ ∧ ((world.registered ++ [_]).map _)[_]? = _
      rw [List.map_append]
      have hplace := h.permissions (by omega) stored hstored
      exact ⟨hplace.1, getElem?_append_of_some hplace.2⟩
    . rw [hlength]
      intro hlt stored hstored
      have hnext := h.nextOrder (by omega)
      change _ ∧ ((world.registered ++ [_]).map _)[_]? = _
      rw [List.map_append]
      rcases List.mem_assign hstored with rfl | hold
      . have horder : entry.summary.requestedOrder = world.registered.length + 1 := by
          rw [hsummary]
          change (world.state.nextOrder + 1) % 2 ^ 64 = _
          omega
        rw [horder]
        refine ⟨Nat.succ_pos _, ?_⟩
        rw [Nat.add_sub_cancel, List.getElem?_append_right (by simp), List.length_map, Nat.sub_self]
        rfl
      . have hplace := h.elicitations (by omega) stored hold
        exact ⟨hplace.1, getElem?_append_of_some hplace.2⟩

theorem Ordered.of_subset {world world' : World} (h : world.Ordered)
    (hrequests : world'.requests = world.requests) (hregistered : world'.registered = world.registered)
    (hnextOrder : world'.state.nextOrder = world.state.nextOrder)
    (hpermissions : world'.state.permissions ⊆ world.state.permissions)
    (helicitations : world'.state.elicitations ⊆ world.state.elicitations)
    : world'.Ordered where
  length_le := by
    rw [hrequests, hregistered]
    exact h.length_le
  nextOrder := by
    rw [hrequests, hregistered, hnextOrder]
    exact h.nextOrder
  permissions := by
    rw [hrequests, hregistered]
    exact fun hlt entry hentry => h.permissions hlt entry (hpermissions hentry)
  elicitations := by
    rw [hrequests, hregistered]
    exact fun hlt entry hentry => h.elicitations hlt entry (helicitations hentry)

theorem Ordered.step {world world' : World} {action : Action} (hsound : world.Sound) (h : world.Ordered)
    (hstep : World.step formats world action = some world')
    : world'.Ordered := by
  cases moves_of_step hsound.keyed hsound.fit hstep with
  | receive huuid hregisters => exact h.receive hregisters
  | finish onError hends hdecisions =>
    obtain ⟨_, _, _, _, hextracts⟩ := hends
    refine h.of_subset rfl rfl hextracts.nextOrder ?_ ?_
    . rw [hextracts.permissions]
      exact List.filter_subset_self _
    . rw [hextracts.elicitations]
      exact List.filter_subset_self _
  | idle decisions watched steers hdecisions => exact ⟨h.length_le, h.nextOrder, h.permissions, h.elicitations⟩
  | rehash hpermissions helicitations => exact h.of_subset rfl rfl rfl hpermissions.subset helicitations.subset
  | respond haction hrespond =>
    obtain ⟨hstate, hregistered, hrequests, -⟩ := respond_frame hrespond
    exact h.of_subset hrequests hregistered (hstate ▸ rfl) (hstate ▸ List.Subset.refl _)
      (hstate ▸ List.Subset.refl _)
  | emit haction hemit =>
    obtain ⟨hstate, hregistered, hrequests, -⟩ := emit_frame hemit
    exact h.of_subset hrequests hregistered (hstate ▸ rfl) (hstate ▸ List.Subset.refl _)
      (hstate ▸ List.Subset.refl _)

end World

end Acp
