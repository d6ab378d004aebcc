import TetherBridge.Acp.ElicitationForms
import TetherBridge.Acp.InteractionWorld

/-!
This module contains what the sections of `InteractionRegistry` do: a request is refused or it gets an entry, and every
call that ends a request takes entries out and settles them. Each step of a registry is one of a few moves.
-/

namespace Acp

variable {formats : TextFormats} {decisions : List Decision}

/--
An option with this id is on offer.
-/
def RequestPermissionRequest.Offers (request : RequestPermissionRequest) (optionId : String) : Prop :=
  ∃ option ∈ request.options, option.optionId = optionId

/--
An option with this id declines.
-/
def RequestPermissionRequest.Rejects (request : RequestPermissionRequest) (optionId : String) : Prop :=
  ∃ option ∈ request.options, option.optionId = optionId
    ∧ (option.kind = .rejectOnce ∨ option.kind = .rejectAlways)

theorem PermissionEntry.rejects_rejectOption {entry : PermissionEntry} {optionId : String}
    (h : entry.rejectOption = some optionId)
    : entry.request.Rejects optionId := by
  unfold rejectOption at h
  rw [Option.map_eq_some_iff] at h
  rcases h with ⟨option, hoption, rfl⟩
  rw [Option.or_eq_some_iff] at hoption
  rcases hoption with honce | ⟨-, halways⟩
  . have hkind := List.find?_some honce
    exact ⟨option, List.mem_of_find?_eq_some honce, rfl, .inl (of_decide_eq_true hkind)⟩
  . have hkind := List.find?_some halways
    exact ⟨option, List.mem_of_find?_eq_some halways, rfl, .inr (of_decide_eq_true hkind)⟩

/--
A permission is cancelled or declined, unless a client has selected an option that is on offer.
-/
def PermissionEntry.Settles (decisions : List Decision) (entry : PermissionEntry) (settlement : Settlement) : Prop :=
  ∃ sessionId answer outcome, settlement = entry.settle sessionId answer outcome
    ∧ ∀ optionId, answer = .selected optionId →
      entry.request.Rejects optionId
        ∨ entry.request.Offers optionId
          ∧ .select entry.summary.threadId entry.summary.requestId optionId ∈ decisions

/--
A form is cancelled or declined, unless a client has filled it in as it asks for.
-/
def ElicitationEntry.Settles (formats : TextFormats) (decisions : List Decision) (entry : ElicitationEntry)
    (settlement : Settlement) : Prop :=
  ∃ sessionId action outcome, settlement = entry.settle sessionId action outcome
    ∧ ∀ values, action = .accept values →
      Conforms formats entry.schema values
        ∧ .accept entry.summary.threadId entry.summary.requestId values ∈ decisions

namespace InteractionState

/--
Entries are found under the ids of their requests.
-/
structure Keyed (state : InteractionState) : Prop where
  permissions : List.Keyed (fun entry : PermissionEntry => entry.summary.requestId) state.permissions
  elicitations : List.Keyed (fun entry : ElicitationEntry => entry.summary.requestId) state.elicitations

/--
The epochs fit into an `u64`.
-/
def EpochsFit (state : InteractionState) : Prop :=
  ∀ sessionId, state.epochOf sessionId ≤ 2 ^ 64 - 1

/--
The entries that pass a test are taken out, and each is settled.
-/
structure Extracts (formats : TextFormats) (decisions : List Decision) (state : InteractionState)
    (permission : PermissionEntry → Bool) (elicitation : ElicitationEntry → Bool)
    (ofPermission : PermissionEntry → Settlement) (ofElicitation : ElicitationEntry → Settlement)
    (result : InteractionState × List Settlement)
    : Prop where
  nextOrder : result.1.nextOrder = state.nextOrder
  permissions : result.1.permissions = state.permissions.filter fun entry => !permission entry.2
  elicitations : result.1.elicitations = state.elicitations.filter fun entry => !elicitation entry.2
  settlements : result.2
    = (state.permissions.filter fun entry => permission entry.2).map (fun entry => ofPermission entry.2)
      ++ (state.elicitations.filter fun entry => elicitation entry.2).map fun entry => ofElicitation entry.2
  fit : result.1.EpochsFit
  epochOf_le : ∀ sessionId, state.epochOf sessionId ≤ result.1.epochOf sessionId
  settlesPermission : ∀ entry ∈ state.permissions, permission entry.2 →
    entry.2.Settles decisions (ofPermission entry.2)
  settlesElicitation : ∀ entry ∈ state.elicitations, elicitation entry.2 →
    entry.2.Settles formats decisions (ofElicitation entry.2)

/-! Epochs -/

theorem epochOf_bumpEpoch (state : InteractionState) (sessionId other : String)
    : (state.bumpEpoch sessionId).epochOf other
        = if other = sessionId then min (state.epochOf sessionId + 1) (2 ^ 64 - 1) else state.epochOf other := by
  unfold bumpEpoch epochOf
  dsimp only
  rw [List.lookup_assign]
  split
  . rfl
  . rfl

theorem EpochsFit.forgetting {state : InteractionState} (h : state.EpochsFit)
    (permissions : List (String × PermissionEntry)) (elicitations : List (String × ElicitationEntry))
    : EpochsFit { state with permissions, elicitations } := h

theorem EpochsFit.extractIf {state : InteractionState} (h : state.EpochsFit)
    (permission : PermissionEntry → Bool) (elicitation : ElicitationEntry → Bool)
    : (state.extractIf permission elicitation).EpochsFit := h

theorem EpochsFit.bumpEpoch {state : InteractionState} (h : state.EpochsFit) (sessionId : String)
    : (state.bumpEpoch sessionId).EpochsFit := by
  intro other
  rw [epochOf_bumpEpoch]
  split
  . exact Nat.min_le_right _ _
  . exact h other

theorem EpochsFit.epochOf_le_bumpEpoch {state : InteractionState} (h : state.EpochsFit) (sessionId other : String)
    : state.epochOf other ≤ (state.bumpEpoch sessionId).epochOf other := by
  rw [epochOf_bumpEpoch]
  split
  . next heq =>
    subst heq
    exact Nat.le_min.mpr ⟨Nat.le_succ _, h other⟩
  . exact Nat.le_refl _

theorem EpochsFit.bumpEpochs {state : InteractionState} (h : state.EpochsFit) (sessionIds : List String)
    : (state.bumpEpochs sessionIds).EpochsFit
      ∧ ∀ other, state.epochOf other ≤ (state.bumpEpochs sessionIds).epochOf other := by
  unfold InteractionState.bumpEpochs
  induction sessionIds generalizing state with
  | nil => exact ⟨h, fun _ => Nat.le_refl _⟩
  | cons sessionId sessionIds ih =>
    have hrest := ih (h.bumpEpoch sessionId)
    exact ⟨hrest.1, fun other => Nat.le_trans (h.epochOf_le_bumpEpoch sessionId other) (hrest.2 other)⟩

theorem EpochsFit.bumpEpochIf {state : InteractionState} (h : state.EpochsFit) (sessionId : String) (taken : Bool)
    : (state.bumpEpochIf sessionId taken).EpochsFit
      ∧ ∀ other, state.epochOf other ≤ (state.bumpEpochIf sessionId taken).epochOf other := by
  unfold InteractionState.bumpEpochIf
  cases taken with
  | true => exact ⟨h.bumpEpoch sessionId, h.epochOf_le_bumpEpoch sessionId⟩
  | false => exact ⟨h, fun _ => Nat.le_refl _⟩

@[simp]
theorem bumpEpoch_permissions (state : InteractionState) (sessionId : String)
    : (state.bumpEpoch sessionId).permissions = state.permissions := rfl

@[simp]
theorem bumpEpoch_elicitations (state : InteractionState) (sessionId : String)
    : (state.bumpEpoch sessionId).elicitations = state.elicitations := rfl

@[simp]
theorem bumpEpoch_nextOrder (state : InteractionState) (sessionId : String)
    : (state.bumpEpoch sessionId).nextOrder = state.nextOrder := rfl

/--
What moving epochs leaves as it was.
-/
structure SameEntries (state state' : InteractionState) : Prop where
  nextOrder : state'.nextOrder = state.nextOrder
  permissions : state'.permissions = state.permissions
  elicitations : state'.elicitations = state.elicitations

theorem sameEntries_bumpEpochs (state : InteractionState) (sessionIds : List String)
    : SameEntries state (state.bumpEpochs sessionIds) := by
  unfold bumpEpochs
  induction sessionIds generalizing state with
  | nil => exact ⟨rfl, rfl, rfl⟩
  | cons sessionId sessionIds ih =>
    have hrest := ih (state.bumpEpoch sessionId)
    exact ⟨hrest.nextOrder, hrest.permissions, hrest.elicitations⟩

theorem sameEntries_bumpEpochIf (state : InteractionState) (sessionId : String) (taken : Bool)
    : SameEntries state (state.bumpEpochIf sessionId taken) := by
  unfold bumpEpochIf
  cases taken with
  | true => exact ⟨rfl, rfl, rfl⟩
  | false => exact ⟨rfl, rfl, rfl⟩

/-! Taking entries out -/

variable {state : InteractionState} {requestId threadId : String}

theorem extracts_removePermission (hkeyed : state.Keyed) (hfit : state.EpochsFit) {entry : PermissionEntry}
    (h : state.permissions.lookup requestId = some entry) {settlement : Settlement}
    (hsettles : entry.Settles decisions settlement)
    : Extracts formats decisions state (fun entry => entry.summary.requestId = requestId) (fun _ => false)
        (fun _ => settlement) (fun entry => entry.settle "" .cancel "")
        (state.removePermission requestId entry, [settlement]) where
  nextOrder := rfl
  permissions := hkeyed.permissions.forget_eq requestId
  elicitations := by simp [removePermission]
  settlements := by
    rw [hkeyed.permissions.filter_eq h, List.filter_false]
    rfl
  fit := EpochsFit.bumpEpoch (hfit.forgetting _ _) entry.sessionId
  epochOf_le := EpochsFit.epochOf_le_bumpEpoch (hfit.forgetting _ _) entry.sessionId
  settlesPermission := by
    intro found hmem hfound
    have heq := hkeyed.permissions.eq_of_mem h hmem (of_decide_eq_true hfound)
    rw [heq]
    exact hsettles
  settlesElicitation := by
    intro _ _ hcontra
    contradiction

theorem extracts_removeElicitation (hkeyed : state.Keyed) (hfit : state.EpochsFit) {entry : ElicitationEntry}
    (h : state.elicitations.lookup requestId = some entry) {settlement : Settlement}
    (hsettles : entry.Settles formats decisions settlement)
    : Extracts formats decisions state (fun _ => false) (fun entry => entry.summary.requestId = requestId)
        (fun entry => entry.settle "" .cancelled "") (fun _ => settlement)
        (state.removeElicitation requestId entry, [settlement]) where
  nextOrder := rfl
  permissions := by simp [removeElicitation]
  elicitations := hkeyed.elicitations.forget_eq requestId
  settlements := by
    rw [hkeyed.elicitations.filter_eq h, List.filter_false]
    rfl
  fit := EpochsFit.bumpEpoch (hfit.forgetting _ _) entry.sessionId
  epochOf_le := EpochsFit.epochOf_le_bumpEpoch (hfit.forgetting _ _) entry.sessionId
  settlesPermission := by
    intro _ _ hcontra
    contradiction
  settlesElicitation := by
    intro found hmem hfound
    have heq := hkeyed.elicitations.eq_of_mem h hmem (of_decide_eq_true hfound)
    rw [heq]
    exact hsettles

/--
Some entries are taken out and settled in one of the allowed ways.
-/
def Ends (formats : TextFormats) (decisions : List Decision) (state : InteractionState)
    (result : InteractionState × List Settlement) : Prop :=
  ∃ permission elicitation ofPermission ofElicitation,
    Extracts formats decisions state permission elicitation ofPermission ofElicitation result

theorem ownedPermission_eq_ok {entry : PermissionEntry} (h : state.ownedPermission threadId requestId = .ok entry)
    : state.permissions.lookup requestId = some entry ∧ entry.summary.threadId = threadId := by
  unfold ownedPermission at h
  split at h
  . contradiction
  . next found hlookup =>
    split at h
    . contradiction
    . next hthread =>
      cases h
      exact ⟨hlookup, Decidable.of_not_not hthread⟩

theorem ownedElicitation_eq_ok {entry : ElicitationEntry}
    (h : state.ownedElicitation threadId requestId = .ok entry)
    : state.elicitations.lookup requestId = some entry ∧ entry.summary.threadId = threadId := by
  unfold ownedElicitation at h
  split at h
  . contradiction
  . next found hlookup =>
    split at h
    . contradiction
    . next hthread =>
      cases h
      exact ⟨hlookup, Decidable.of_not_not hthread⟩

theorem Keyed.requestId_eq (hkeyed : state.Keyed) {entry : PermissionEntry}
    (h : state.permissions.lookup requestId = some entry)
    : entry.summary.requestId = requestId :=
  hkeyed.permissions.stored _ (List.mem_of_lookup h)

theorem Keyed.requestId_eq' (hkeyed : state.Keyed) {entry : ElicitationEntry}
    (h : state.elicitations.lookup requestId = some entry)
    : entry.summary.requestId = requestId :=
  hkeyed.elicitations.stored _ (List.mem_of_lookup h)

theorem ends_resolvePermission (hkeyed : state.Keyed) (hfit : state.EpochsFit) {optionId : String}
    {state' : InteractionState} {settlement : Settlement}
    (h : state.resolvePermission threadId requestId optionId = .ok (state', settlement))
    (hdecision : .select threadId requestId optionId ∈ decisions)
    : Ends formats decisions state (state', [settlement]) := by
  unfold resolvePermission at h
  obtain ⟨entry, howned, hrest⟩ := Except.bind_eq_ok.mp h
  obtain ⟨hlookup, rfl⟩ := ownedPermission_eq_ok howned
  split at hrest
  . next hoffers =>
    cases hrest
    refine ⟨_, _, _, _, extracts_removePermission hkeyed hfit hlookup ⟨_, _, _, rfl, ?_⟩⟩
    intro optionId' heq
    cases heq
    right
    constructor
    . rw [List.any_eq_true] at hoffers
      rcases hoffers with ⟨option, hoption, heq⟩
      exact ⟨option, hoption, eq_of_beq heq⟩
    . rw [hkeyed.requestId_eq hlookup]
      exact hdecision
  . contradiction

theorem ends_cancelPermission (hkeyed : state.Keyed) (hfit : state.EpochsFit)
    {state' : InteractionState} {settlement : Settlement}
    (h : state.cancelPermission threadId requestId = .ok (state', settlement))
    : Ends formats decisions state (state', [settlement]) := by
  unfold cancelPermission at h
  obtain ⟨entry, howned, hrest⟩ := Except.bind_eq_ok.mp h
  obtain ⟨hlookup, -⟩ := ownedPermission_eq_ok howned
  cases hrest
  exact ⟨_, _, _, _, extracts_removePermission hkeyed hfit hlookup ⟨_, _, _, rfl, nofun⟩⟩

theorem ends_acceptElicitation (hkeyed : state.Keyed) (hfit : state.EpochsFit) {values : Values}
    {state' : InteractionState} {settlement : Settlement}
    (h : state.acceptElicitation formats threadId requestId values = .ok (state', settlement))
    (hdecision : .accept threadId requestId values ∈ decisions)
    : Ends formats decisions state (state', [settlement]) := by
  unfold acceptElicitation at h
  obtain ⟨entry, howned, hrest⟩ := Except.bind_eq_ok.mp h
  obtain ⟨hlookup, rfl⟩ := ownedElicitation_eq_ok howned
  obtain ⟨_, hvalid, hrest⟩ := Except.bind_eq_ok.mp hrest
  cases hrest
  refine ⟨_, _, _, _, extracts_removeElicitation hkeyed hfit hlookup ⟨_, _, _, rfl, ?_⟩⟩
  intro values' heq
  cases heq
  refine ⟨validateElicitation_eq_ok_iff.mp hvalid, ?_⟩
  rw [hkeyed.requestId_eq' hlookup]
  exact hdecision

theorem ends_finishElicitation (hkeyed : state.Keyed) (hfit : state.EpochsFit) {action : ElicitationAction}
    {resolution : String} {state' : InteractionState} {settlement : Settlement}
    (h : state.finishElicitation threadId requestId action resolution = .ok (state', settlement))
    (haction : ∀ values, action ≠ .accept values)
    : Ends formats decisions state (state', [settlement]) := by
  unfold finishElicitation at h
  obtain ⟨entry, howned, hrest⟩ := Except.bind_eq_ok.mp h
  obtain ⟨hlookup, -⟩ := ownedElicitation_eq_ok howned
  cases hrest
  exact ⟨_, _, _, _, extracts_removeElicitation hkeyed hfit hlookup
    ⟨_, _, _, rfl, fun values heq => absurd heq (haction values)⟩⟩

theorem ends_cancelPermissionFromPeer (hkeyed : state.Keyed) (hfit : state.EpochsFit)
    {state' : InteractionState} {settlement : Settlement}
    (h : state.cancelPermissionFromPeer requestId = some (state', settlement))
    : Ends formats decisions state (state', [settlement]) := by
  unfold cancelPermissionFromPeer at h
  rw [Option.map_eq_some_iff] at h
  rcases h with ⟨entry, hlookup, heq⟩
  cases heq
  exact ⟨_, _, _, _, extracts_removePermission hkeyed hfit hlookup ⟨_, _, _, rfl, nofun⟩⟩

theorem ends_cancelElicitationFromPeer (hkeyed : state.Keyed) (hfit : state.EpochsFit)
    {state' : InteractionState} {settlement : Settlement}
    (h : state.cancelElicitationFromPeer requestId = some (state', settlement))
    : Ends formats decisions state (state', [settlement]) := by
  unfold cancelElicitationFromPeer at h
  rw [Option.map_eq_some_iff] at h
  rcases h with ⟨entry, hlookup, heq⟩
  cases heq
  exact ⟨_, _, _, _, extracts_removeElicitation hkeyed hfit hlookup ⟨_, _, _, rfl, nofun⟩⟩

theorem ends_cancelSession (hfit : state.EpochsFit) (sessionId : String) (generation : Option Nat)
    : Ends formats decisions state (state.cancelSession sessionId generation) := by
  have hsame := sameEntries_bumpEpochIf (state.extractIf
    (fun entry => entry.sessionId = sessionId && generation = some entry.generation)
    (fun entry => entry.sessionId = sessionId && generation = some entry.generation)) sessionId
  have hbump := (hfit.extractIf (fun entry => entry.sessionId = sessionId && generation = some entry.generation)
    (fun entry => entry.sessionId = sessionId && generation = some entry.generation)).bumpEpochIf sessionId
  refine ⟨fun entry => entry.sessionId = sessionId && generation = some entry.generation,
    fun entry => entry.sessionId = sessionId && generation = some entry.generation,
    fun entry => entry.settle sessionId .cancelled "cancelled",
    fun entry => entry.settle sessionId .cancel "cancelled",
    (hsame _).nextOrder, (hsame _).permissions, (hsame _).elicitations, rfl, ?_, ?_, ?_, ?_⟩
  . exact (hbump _).1
  . exact (hbump _).2
  . intro entry _ _
    exact ⟨_, _, _, rfl, nofun⟩
  . intro entry _ _
    exact ⟨_, _, _, rfl, nofun⟩

theorem steerPlans_eq_ok {sessionId : String} {entries : List (String × PermissionEntry)} {plans : List Settlement}
    (h : steerPlans sessionId entries = .ok plans)
    : plans = entries.map (fun entry =>
        entry.2.settle sessionId (.selected (entry.2.rejectOption.getD "")) (entry.2.rejectOption.getD ""))
      ∧ ∀ entry ∈ entries, entry.2.rejectOption.isSome := by
  induction entries generalizing plans with
  | nil =>
    cases h
    exact ⟨rfl, by simp⟩
  | cons entry entries ih =>
    rcases entry with ⟨id, entry⟩
    rw [steerPlans] at h
    split at h
    . contradiction
    . next optionId hreject =>
      obtain ⟨rest, hrest, heq⟩ := Except.bind_eq_ok.mp h
      cases heq
      obtain ⟨rfl, hall⟩ := ih hrest
      constructor
      . rw [List.map_cons, hreject, Option.getD_some]
      . rw [List.forall_mem_cons, hreject]
        exact ⟨rfl, hall⟩

theorem ends_prepareSteer (hfit : state.EpochsFit) {sessionId : String} {state' : InteractionState}
    {settlements : List Settlement} {epoch : Nat}
    (h : state.prepareSteer sessionId = .ok (state', settlements, epoch))
    : Ends formats decisions state (state', settlements) := by
  unfold prepareSteer at h
  obtain ⟨plans, hplans, heq⟩ := Except.bind_eq_ok.mp h
  cases heq
  obtain ⟨rfl, hall⟩ := steerPlans_eq_ok hplans
  have hsame := sameEntries_bumpEpochIf (state.extractIf
    (fun entry => decide (entry.request.sessionId = sessionId)) fun entry => decide (entry.sessionId = sessionId))
    sessionId
  have hbump := (hfit.extractIf (fun entry => decide (entry.request.sessionId = sessionId))
    fun entry => decide (entry.sessionId = sessionId)).bumpEpochIf sessionId
  refine ⟨fun entry => entry.request.sessionId = sessionId, fun entry => entry.sessionId = sessionId,
    fun entry => entry.settle sessionId (.selected (entry.rejectOption.getD "")) (entry.rejectOption.getD ""),
    fun entry => entry.settle sessionId .cancel "cancelled",
    (hsame _).nextOrder, (hsame _).permissions, (hsame _).elicitations, rfl, ?_, ?_, ?_, ?_⟩
  . exact (hbump _).1
  . exact (hbump _).2
  . intro entry hmem htaken
    refine ⟨_, _, _, rfl, ?_⟩
    intro optionId heq
    cases heq
    have hsome := hall entry (List.mem_filter.mpr ⟨hmem, htaken⟩)
    rw [Option.isSome_iff_exists] at hsome
    rcases hsome with ⟨optionId, hreject⟩
    rw [hreject, Option.getD_some]
    exact .inl (PermissionEntry.rejects_rejectOption hreject)
  . intro entry _ _
    exact ⟨_, _, _, rfl, nofun⟩

theorem epoch_of_prepareSteer {sessionId : String} {state' : InteractionState} {settlements : List Settlement}
    {epoch : Nat} (h : state.prepareSteer sessionId = .ok (state', settlements, epoch))
    : epoch = state'.epochOf sessionId := by
  unfold prepareSteer at h
  obtain ⟨plans, hplans, heq⟩ := Except.bind_eq_ok.mp h
  cases heq
  rfl

theorem ends_drain (hfit : state.EpochsFit)
    : Ends formats decisions state state.drain := by
  rcases state with ⟨nextOrder, sessionEpochs, permissions, elicitations⟩
  have hfirst := EpochsFit.bumpEpochs (hfit.forgetting [] []) (permissions.map (·.2.sessionId))
  have hsecond := hfirst.1.bumpEpochs (elicitations.map (·.2.sessionId))
  have hsame := sameEntries_bumpEpochs ⟨nextOrder, sessionEpochs, [], []⟩ (permissions.map (·.2.sessionId))
  have hsame' := sameEntries_bumpEpochs (bumpEpochs ⟨nextOrder, sessionEpochs, [], []⟩
    (permissions.map (·.2.sessionId))) (elicitations.map (·.2.sessionId))
  refine ⟨fun _ => true, fun _ => true, fun entry => entry.settle entry.sessionId .cancelled "cancelled",
    fun entry => entry.settle entry.sessionId .cancel "cancelled", ?_, ?_, ?_, ?_, ?_, ?_, ?_, ?_⟩
  . exact hsame'.nextOrder.trans hsame.nextOrder
  . rw [List.filter_eq_nil_iff.mpr (by simp)]
    exact hsame'.permissions.trans hsame.permissions
  . rw [List.filter_eq_nil_iff.mpr (by simp)]
    exact hsame'.elicitations.trans hsame.elicitations
  . rw [List.filter_eq_self.mpr (by simp), List.filter_eq_self.mpr (by simp)]
    rfl
  . exact hsecond.1
  . intro sessionId
    exact Nat.le_trans (hfirst.2 sessionId) (hsecond.2 sessionId)
  . intro entry _ _
    exact ⟨_, _, _, rfl, nofun⟩
  . intro entry _ _
    exact ⟨_, _, _, rfl, nofun⟩

end InteractionState

end Acp
