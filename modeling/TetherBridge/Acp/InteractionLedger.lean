import TetherBridge.Acp.InteractionMoves

/-!
This module contains where the responder of a request is: it is in one place as long as it is not used, and then it is
used once.
-/

namespace Acp

variable {formats : TextFormats}

/--
What an entry counts for, which its settlement counts for afterwards.
-/
structure Measure where
  permission : PermissionEntry → Nat
  elicitation : ElicitationEntry → Nat
  settlement : Settlement → Nat
  settle_permission : ∀ entry sessionId answer outcome,
    settlement (PermissionEntry.settle entry sessionId answer outcome) = permission entry
  settle_elicitation : ∀ entry sessionId action outcome,
    settlement (ElicitationEntry.settle entry sessionId action outcome) = elicitation entry

namespace Measure

def held (m : Measure) (state : InteractionState) : Nat :=
  List.weigh (fun entry => m.permission entry.2) state.permissions
    + List.weigh (fun entry => m.elicitation entry.2) state.elicitations

/--
What is taken out counts for as much as it did.
-/
theorem held_extracts (m : Measure) {decisions : List Decision} {state : InteractionState}
    {permission : PermissionEntry → Bool} {elicitation : ElicitationEntry → Bool}
    {ofPermission : PermissionEntry → Settlement} {ofElicitation : ElicitationEntry → Settlement}
    {result : InteractionState × List Settlement}
    (h : state.Extracts formats decisions permission elicitation ofPermission ofElicitation result)
    : m.held result.1 + List.weigh m.settlement result.2 = m.held state := by
  have hpermissions : List.weigh m.settlement
      ((state.permissions.filter fun entry => permission entry.2).map fun entry => ofPermission entry.2)
      = List.weigh (fun entry => m.permission entry.2) (state.permissions.filter fun entry => permission entry.2) := by
    rw [List.weigh_map]
    apply List.weigh_congr
    intro entry hentry
    rw [List.mem_filter] at hentry
    obtain ⟨_, _, _, heq, -⟩ := h.settlesPermission entry hentry.1 hentry.2
    rw [heq, m.settle_permission]
  have helicitations : List.weigh m.settlement
      ((state.elicitations.filter fun entry => elicitation entry.2).map fun entry => ofElicitation entry.2)
      = List.weigh (fun entry => m.elicitation entry.2)
          (state.elicitations.filter fun entry => elicitation entry.2) := by
    rw [List.weigh_map]
    apply List.weigh_congr
    intro entry hentry
    rw [List.mem_filter] at hentry
    obtain ⟨_, _, _, heq, -⟩ := h.settlesElicitation entry hentry.1 hentry.2
    rw [heq, m.settle_elicitation]
  have hsplit := List.weigh_filter_add_weigh_filter_not (w := fun entry => m.permission entry.2)
    (fun entry => permission entry.2) state.permissions
  have hsplit' := List.weigh_filter_add_weigh_filter_not (w := fun entry => m.elicitation entry.2)
    (fun entry => elicitation entry.2) state.elicitations
  unfold held
  rw [h.permissions, h.elicitations, h.settlements, List.weigh_append, hpermissions, helicitations]
  omega

theorem held_perm (m : Measure) {state : InteractionState} {permissions : List (String × PermissionEntry)}
    {elicitations : List (String × ElicitationEntry)} (hpermissions : permissions.Perm state.permissions)
    (helicitations : elicitations.Perm state.elicitations)
    : m.held { state with permissions, elicitations } = m.held state := by
  unfold held
  rw [List.weigh_perm hpermissions, List.weigh_perm helicitations]

theorem held_addPermission (m : Measure) {state : InteractionState} {entry : PermissionEntry}
    (hnew : entry.summary.requestId ∉ state.permissions.map (·.1))
    : m.held (state.addPermission entry) = m.held state + m.permission entry := by
  unfold held InteractionState.addPermission
  dsimp only
  rw [List.assign_of_not_mem hnew, List.weigh_append, List.weigh_cons, List.weigh_nil,
    InteractionState.bumpEpoch_elicitations]
  dsimp only
  omega

theorem held_addElicitation (m : Measure) {state : InteractionState} {entry : ElicitationEntry}
    (hnew : entry.summary.requestId ∉ state.elicitations.map (·.1))
    : m.held (state.addElicitation entry) = m.held state + m.elicitation entry := by
  unfold held InteractionState.addElicitation
  dsimp only
  rw [List.assign_of_not_mem hnew, List.weigh_append, List.weigh_cons, List.weigh_nil,
    InteractionState.bumpEpoch_permissions]
  dsimp only
  omega

end Measure

/--
Whether it is one responder.
-/
def ofResponder (responder : Nat) : Measure where
  permission entry := if entry.responder = responder then 1 else 0
  elicitation entry := if entry.responder = responder then 1 else 0
  settlement settlement := if settlement.responder = responder then 1 else 0
  settle_permission _ _ _ _ := rfl
  settle_elicitation _ _ _ _ := rfl

/--
How often a task has the responder, to use it later.
-/
def Task.unanswered (responder : Nat) : Task → Nat
  | .received other (.answer _) => if other = responder then 1 else 0
  | .received _ _ => 0
  | .settle settlements _ => List.weigh (ofResponder responder).settlement settlements
  | .resolve _ _ settlements _ => List.weigh (ofResponder responder).settlement settlements

namespace World

open InteractionState

def answered (world : World) (responder : Nat) : Nat :=
  (world.answers.map (·.1)).count responder

def abandoned (world : World) (responder : Nat) : Nat :=
  (world.dropped.map (·.responder)).count responder

/--
How often the responder is in the registry or has been taken out by a task that has not used it yet.
-/
def unanswered (world : World) (responder : Nat) : Nat :=
  List.weigh (Task.unanswered responder) world.tasks + (ofResponder responder).held world.state

/--
There is one responder for each request that was received.
-/
def Accounted (world : World) : Prop :=
  ∀ responder, world.answered responder + world.abandoned responder + world.unanswered responder
    = if responder < world.requests.length then 1 else 0

/--
Receiving a request adds one responder to those that are not used yet.
-/
theorem unanswered_receive {world : World} (h : world.Sound) {request : Request} {uuid : Uuid}
    {result : InteractionState × Received} (hfresh : uuid ∉ world.registered.map (·.uuid))
    (hregisters : Registers world.state world.requests.length uuid request result) (responder : Nat)
    : (world.receive request uuid result).unanswered responder
        = world.unanswered responder + if world.requests.length = responder then 1 else 0 := by
  unfold unanswered receive
  dsimp only
  rw [List.weigh_append, List.weigh_cons, List.weigh_nil]
  cases hregisters with
  | refuse request answer hrefuses =>
    dsimp only [Task.unanswered]
    omega
  | permission entry hentry hcapacity =>
    have hnew := (h.permission_new hfresh hentry).2
    rw [Measure.held_addPermission _ hnew]
    dsimp only [Task.unanswered, ofResponder]
    rw [hentry.responder]
    omega
  | elicitation request entry hentry hcapacity =>
    have hnew := (h.elicitation_new hfresh hentry).2
    rw [Measure.held_addElicitation _ hnew]
    dsimp only [Task.unanswered, ofResponder]
    rw [hentry.responder]
    omega

theorem Accounted.respond {world world' : World} {index : Nat} {succeeds : Bool} (h : world.Accounted)
    (hrespond : world.respond index succeeds = some world')
    : world'.Accounted := by
  intro responder
  have hold := h responder
  unfold answered unanswered abandoned at hold ⊢
  rcases respond_eq_some hrespond with ⟨other, answer, htask, rfl⟩ | ⟨settlement, settlements, onError, htask, rfl⟩
  . have htasks := List.weigh_eraseIdx (w := Task.unanswered responder) htask
    dsimp only [Task.unanswered] at htasks ⊢
    rw [List.map_append, List.count_append, List.map_singleton, List.count_singleton]
    simp only [beq_iff_eq]
    omega
  . have htasks := List.weigh_set (w := Task.unanswered responder) htask
      (.resolve settlement (!succeeds) settlements onError)
    dsimp only [Task.unanswered] at htasks ⊢
    rw [List.weigh_cons] at htasks
    rw [List.map_append, List.count_append, List.map_singleton, List.count_singleton]
    simp only [beq_iff_eq]
    dsimp only [ofResponder] at htasks hold ⊢
    omega

theorem Accounted.emit {world world' : World} {index : Nat} {session : Option SessionView} (h : world.Accounted)
    (hemit : world.emit index session = some world')
    : world'.Accounted := by
  intro responder
  have hold := h responder
  unfold answered unanswered abandoned at hold ⊢
  rcases emit_eq_some hemit with ⟨_, _, _, htask, rfl⟩ | ⟨_, _, _, htask, rfl⟩ | ⟨_, settlements, htask, rfl⟩
    | ⟨_, failed, settlements, onError, htask, rfl⟩ | ⟨_, htask, rfl⟩
  . have htasks := List.weigh_eraseIdx (w := Task.unanswered responder) htask
    dsimp only [Task.unanswered] at htasks ⊢
    omega
  . have htasks := List.weigh_eraseIdx (w := Task.unanswered responder) htask
    dsimp only [Task.unanswered] at htasks ⊢
    omega
  . have htasks := List.weigh_eraseIdx (w := Task.unanswered responder) htask
    have hcount := List.count_map_eq_weigh (·.responder) responder settlements
    dsimp only [Task.unanswered, ofResponder] at htasks hold ⊢
    rw [List.map_append, List.count_append, hcount]
    omega
  . have htasks := List.weigh_set (w := Task.unanswered responder) htask (.settle settlements (onError.after failed))
    dsimp only [Task.unanswered] at htasks ⊢
    omega
  . have htasks := List.weigh_eraseIdx (w := Task.unanswered responder) htask
    dsimp only [Task.unanswered] at htasks ⊢
    rw [List.weigh_nil] at htasks
    omega

theorem Accounted.step {world world' : World} {action : Action} (hsound : world.Sound) (h : world.Accounted)
    (hfresh : FreshUuid world action) (hstep : step formats world action = some world')
    : world'.Accounted := by
  cases moves_of_step hsound.keyed hsound.fit hstep with
  | @receive request uuid result huuid hregisters =>
    intro responder
    have hold := h responder
    rw [unanswered_receive hsound (hfresh _ huuid) hregisters]
    have hlength : (world.receive request uuid result).requests.length = world.requests.length + 1 :=
      List.length_append
    rw [hlength]
    change world.answered responder + world.abandoned responder + _ = _
    split at hold <;> split <;> split <;> omega
  | @finish decisions watched state settlements onError hends hdecisions =>
    obtain ⟨_, _, _, _, hextracts⟩ := hends
    intro responder
    have hold := h responder
    have hheld := Measure.held_extracts (ofResponder responder) hextracts
    unfold answered abandoned unanswered at hold ⊢
    dsimp only at hheld ⊢
    rw [List.weigh_append, List.weigh_cons, List.weigh_nil]
    dsimp only [Task.unanswered]
    omega
  | idle decisions watched steers hdecisions => exact h
  | rehash hpermissions helicitations =>
    intro responder
    have hold := h responder
    unfold answered abandoned unanswered at hold ⊢
    rw [Measure.held_perm _ hpermissions helicitations]
    exact hold
  | respond haction hrespond => exact h.respond hrespond
  | emit haction hemit => exact h.emit hemit

/--
Each request that was received is answered once at most, and is not forgotten: its responder is used, or it is in the
registry or with a task, or it was left behind by a steer that has returned with an error.
-/
theorem answered_once {actions : List Action} {world : World}
    (hmeets : Transition.Meets (World.step formats) FreshUuid init actions)
    (hexec : Transition.exec (World.step formats) init actions = some world) (responder : Nat)
    : world.answered responder + world.abandoned responder + world.unanswered responder
        = if responder < world.requests.length then 1 else 0 := by
  have hinvariant : world.Sound ∧ world.Accounted :=
    Transition.exec_invariant (I := fun world => world.Sound ∧ world.Accounted)
      (fun _ _ _ h hfresh hstep => ⟨h.1.step hfresh hstep, h.2.step h.1 hfresh hstep⟩)
      ⟨sound_init, fun _ => rfl⟩ hmeets hexec
  exact hinvariant.2 responder

theorem answered_once_granted
    : ∃ world, Transition.exec (World.step anyFormat) init grantActions = some world
        ∧ world.answered 0 + world.abandoned 0 + world.unanswered 0 = if 0 < world.requests.length then 1 else 0 :=
  ⟨_, rfl, answered_once meets_grantActions rfl 0⟩

end World

end Acp
