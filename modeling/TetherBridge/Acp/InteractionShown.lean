import TetherBridge.Acp.InteractionMoves

/-!
This module contains what a client can do about the requests it is shown: each can be answered under the ids it is shown
with, by the options it is shown, and a form by the values it asks for.
-/

namespace Acp

variable {formats : TextFormats}

namespace World

open InteractionState

/--
A summary shows the options and the fields of its request.
-/
structure Shown (world : World) : Prop where
  permissions : ∀ entry ∈ world.state.permissions,
    entry.2.summary.options.map (·.id) = entry.2.request.options.map (·.optionId)
  elicitations : ∀ entry ∈ world.state.elicitations, entry.2.summary.fields
    = entry.2.schema.properties.map fun (name, property) => fieldSummary name property entry.2.schema

theorem Shown.of_subset {world world' : World} (h : world.Shown)
    (hpermissions : world'.state.permissions ⊆ world.state.permissions)
    (helicitations : world'.state.elicitations ⊆ world.state.elicitations)
    : world'.Shown where
  permissions entry hentry := h.permissions entry (hpermissions hentry)
  elicitations entry hentry := h.elicitations entry (helicitations hentry)

theorem Shown.receive {world : World} (h : world.Shown) {request : Request} {uuid : Uuid}
    {result : InteractionState × Received}
    (hregisters : Registers world.state world.requests.length uuid request result)
    : (world.receive request uuid result).Shown := by
  cases hregisters with
  | refuse request answer hrefuses => exact ⟨h.permissions, h.elicitations⟩
  | permission entry hentry hcapacity =>
    obtain ⟨agentId, threadId, turnId, hsummary⟩ := hentry.summary
    refine ⟨?_, h.elicitations⟩
    intro stored hstored
    rcases List.mem_assign hstored with rfl | hstored
    . rw [hsummary]
      simp [permissionSummary, Function.comp_def]
    . exact h.permissions stored hstored
  | elicitation request entry hentry hcapacity =>
    obtain ⟨agentId, threadId, turnId, hsummary⟩ := hentry.summary
    refine ⟨h.permissions, ?_⟩
    intro stored hstored
    rcases List.mem_assign hstored with rfl | hstored
    . rw [hsummary]
      simp only [elicitationSummary, hentry.schema]
    . exact h.elicitations stored hstored

theorem Shown.step {world world' : World} {action : Action} (hsound : world.Sound) (h : world.Shown)
    (hstep : World.step formats world action = some world')
    : world'.Shown := by
  cases moves_of_step hsound.keyed hsound.fit hstep with
  | receive huuid hregisters => exact h.receive hregisters
  | finish onError hends hdecisions =>
    obtain ⟨_, _, _, _, hextracts⟩ := hends
    apply h.of_subset
    . rw [hextracts.permissions]
      exact List.filter_subset_self _
    . rw [hextracts.elicitations]
      exact List.filter_subset_self _
  | idle decisions watched steers hdecisions => exact ⟨h.permissions, h.elicitations⟩
  | rehash hpermissions helicitations => exact h.of_subset hpermissions.subset helicitations.subset
  | respond haction hrespond =>
    have hstate := (respond_frame hrespond).1
    exact h.of_subset (hstate ▸ List.Subset.refl _) (hstate ▸ List.Subset.refl _)
  | emit haction hemit =>
    have hstate := (emit_frame hemit).1
    exact h.of_subset (hstate ▸ List.Subset.refl _) (hstate ▸ List.Subset.refl _)

end World

namespace InteractionState

variable {state : InteractionState}

/--
What a client is shown is an entry that is found under the ids it is shown with.
-/
theorem Keyed.of_mem_pendingPermissions (hkeyed : state.Keyed) {summary : PendingPermissionSummary}
    (h : summary ∈ state.pendingPermissions)
    : ∃ entry, entry.summary = summary ∧ (summary.requestId, entry) ∈ state.permissions
        ∧ state.ownedPermission summary.threadId summary.requestId = .ok entry := by
  unfold pendingPermissions at h
  rw [List.mem_mergeSort, List.mem_map] at h
  rcases h with ⟨⟨key, entry⟩, hmem, rfl⟩
  have hkey : key = entry.summary.requestId := (hkeyed.permissions.stored _ hmem).symm
  subst hkey
  refine ⟨entry, rfl, hmem, ?_⟩
  unfold ownedPermission
  dsimp only
  rw [List.lookup_of_mem hkeyed.permissions.nodup hmem]
  exact if_neg fun hne => hne rfl

theorem Keyed.of_mem_pendingElicitations (hkeyed : state.Keyed) {summary : PendingElicitationSummary}
    (h : summary ∈ state.pendingElicitations)
    : ∃ entry, entry.summary = summary ∧ (summary.requestId, entry) ∈ state.elicitations
        ∧ state.ownedElicitation summary.threadId summary.requestId = .ok entry := by
  unfold pendingElicitations at h
  rw [List.mem_mergeSort, List.mem_map] at h
  rcases h with ⟨⟨key, entry⟩, hmem, rfl⟩
  have hkey : key = entry.summary.requestId := (hkeyed.elicitations.stored _ hmem).symm
  subst hkey
  refine ⟨entry, rfl, hmem, ?_⟩
  unfold ownedElicitation
  dsimp only
  rw [List.lookup_of_mem hkeyed.elicitations.nodup hmem]
  exact if_neg fun hne => hne rfl

end InteractionState

namespace World

open InteractionState

/--
Each pending permission can be answered by each option that is shown of it, and by no other one.
-/
theorem permission_answerable {actions : List Action} {world : World}
    (hmeets : Transition.Meets (World.step formats) FreshUuid init actions)
    (hexec : Transition.exec (World.step formats) init actions = some world)
    : ∀ summary ∈ world.state.pendingPermissions, ∀ optionId,
        (∃ result, world.state.resolvePermission summary.threadId summary.requestId optionId = .ok result)
          ↔ optionId ∈ summary.options.map (·.id) := by
  obtain ⟨hsound, hshown⟩ : world.Sound ∧ world.Shown :=
    Transition.exec_invariant (I := fun world => world.Sound ∧ world.Shown)
      (fun _ _ _ h hfresh hstep => ⟨h.1.step hfresh hstep, h.2.step h.1 hstep⟩)
      ⟨sound_init, fun entry hentry => absurd hentry List.not_mem_nil,
        fun entry hentry => absurd hentry List.not_mem_nil⟩ hmeets hexec
  intro summary hsummary optionId
  obtain ⟨entry, rfl, hmem, howned⟩ := hsound.keyed.of_mem_pendingPermissions hsummary
  have hoptions := hshown.permissions _ hmem
  have hany : (entry.request.options.any fun option => option.optionId == optionId) = true
      ↔ optionId ∈ entry.summary.options.map (·.id) := by
    rw [hoptions]
    simp
  unfold resolvePermission
  rw [howned, ← hany]
  constructor
  . rintro ⟨result, hresult⟩
    obtain ⟨_, hentry, hrest⟩ := Except.bind_eq_ok.mp hresult
    cases hentry
    split at hrest
    . next hfound => exact hfound
    . contradiction
  . intro hfound
    exact ⟨_, Except.bind_eq_ok.mpr ⟨entry, rfl, if_pos hfound⟩⟩

theorem permission_answerable_granted
    : ∃ world, Transition.exec (World.step anyFormat) init grantAsked = some world
        ∧ ∀ summary ∈ world.state.pendingPermissions, ∀ optionId,
          (∃ result, world.state.resolvePermission summary.threadId summary.requestId optionId = .ok result)
            ↔ optionId ∈ summary.options.map (·.id) :=
  ⟨_, rfl, permission_answerable meets_grantAsked rfl⟩

/--
A form that asks for a password.
-/
def formAsked : List Action :=
  [.registerElicitation
    { scope := .session "session" none
      mode := .form {
        properties := [("password", .string
          { title := none, description := none, minLength := none, maxLength := none, pattern := none, format := none,
            default := some "secret", enumValues := none, oneOf := none, metadata := none })]
        required := some ["password"] }
      message := "Log in" } (some grantSession) grantUuid]

theorem meets_formAsked : Transition.Meets (World.step anyFormat) FreshUuid .init formAsked := by
  decide

end World

end Acp
