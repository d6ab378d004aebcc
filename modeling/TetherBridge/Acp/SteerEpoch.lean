import TetherBridge.Acp.InteractionMoves

/-!
This module contains what the interaction epoch of a session is good for: a steer that is sent under the epoch it was
prepared with is sent while nothing of its session is pending, and nothing was registered since.
-/

namespace Acp

variable {formats : TextFormats}

namespace World

open InteractionState

/--
The requests of a session that were ever pending.
-/
def registeredOf (world : World) (sessionId : String) : List Registration :=
  world.registered.filter fun registration => registration.sessionId = sessionId

/--
The epoch has not gone back, and if it has not moved, no request of the session was registered meanwhile.
-/
structure Follows (sessionId : String) (before world : World) : Prop where
  epochOf_le : before.state.epochOf sessionId ≤ world.state.epochOf sessionId
  registeredOf_eq : world.state.epochOf sessionId = before.state.epochOf sessionId →
    before.state.epochOf sessionId < 2 ^ 64 - 1 → world.registeredOf sessionId = before.registeredOf sessionId

theorem Follows.of_le {sessionId : String} {before world world' : World} (h : Follows sessionId before world)
    (hle : world.state.epochOf sessionId ≤ world'.state.epochOf sessionId)
    (hregistered : world'.registered = world.registered)
    : Follows sessionId before world' where
  epochOf_le := Nat.le_trans h.epochOf_le hle
  registeredOf_eq heq hlt := by
    have hsame : world.state.epochOf sessionId = before.state.epochOf sessionId :=
      Nat.le_antisymm (heq ▸ hle) h.epochOf_le
    unfold registeredOf
    rw [hregistered]
    exact h.registeredOf_eq hsame hlt

/--
A registration moves the epoch of its session, and leaves the other sessions as they are.
-/
theorem Follows.register {sessionId : String} {before world world' : World} (h : Follows sessionId before world)
    (hfit : world.state.EpochsFit) {registration : Registration}
    (hregistered : world'.registered = world.registered ++ [registration])
    (hepoch : world'.state.epochOf sessionId = if sessionId = registration.sessionId then
      min (world.state.epochOf registration.sessionId + 1) (2 ^ 64 - 1) else world.state.epochOf sessionId)
    : Follows sessionId before world' := by
  have hle := h.epochOf_le
  have hmax := hfit sessionId
  by_cases hsession : sessionId = registration.sessionId
  . rw [if_pos hsession, ← hsession] at hepoch
    constructor
    . rw [hepoch]
      omega
    . intro heq hlt
      omega
  . rw [if_neg hsession] at hepoch
    constructor
    . rw [hepoch]
      exact hle
    . intro heq hlt
      rw [hepoch] at heq
      unfold registeredOf
      rw [hregistered, List.filter_append, List.filter_cons_of_neg (by simpa using Ne.symm hsession),
        List.filter_nil, List.append_nil]
      exact h.registeredOf_eq heq hlt

theorem Follows.step {sessionId : String} {before world world' : World} {action : Action} (hsound : world.Sound)
    (h : Follows sessionId before world) (hstep : World.step formats world action = some world')
    : Follows sessionId before world' := by
  cases moves_of_step hsound.keyed hsound.fit hstep with
  | receive huuid hregisters =>
    cases hregisters with
    | refuse request answer hrefuses => exact h.of_le (Nat.le_refl _) (List.append_nil _)
    | permission entry hentry hcapacity => exact h.register hsound.fit rfl (epochOf_addPermission _ _ _)
    | elicitation request entry hentry hcapacity => exact h.register hsound.fit rfl (epochOf_addElicitation _ _ _)
  | finish onError hends hdecisions =>
    obtain ⟨_, _, _, _, hextracts⟩ := hends
    exact h.of_le (hextracts.epochOf_le sessionId) rfl
  | idle decisions watched steers hdecisions => exact h.of_le (Nat.le_refl _) rfl
  | rehash hpermissions helicitations => exact h.of_le (Nat.le_refl _) rfl
  | respond haction hrespond =>
    obtain ⟨hstate, hregistered, -⟩ := respond_frame hrespond
    exact h.of_le (hstate ▸ Nat.le_refl _) hregistered
  | emit haction hemit =>
    obtain ⟨hstate, hregistered, -⟩ := emit_frame hemit
    exact h.of_le (hstate ▸ Nat.le_refl _) hregistered

theorem follows_of_exec (sessionId : String) {actions : List Action} {before after : World}
    (hsound : before.Sound) (hmeets : Transition.Meets (World.step formats) FreshUuid before actions)
    (hexec : Transition.exec (World.step formats) before actions = some after)
    : Follows sessionId before after := by
  have hinvariant : after.Sound ∧ Follows sessionId before after :=
    Transition.exec_invariant (I := fun world => world.Sound ∧ Follows sessionId before world)
      (fun _ _ _ h hfresh hstep => ⟨h.1.step hfresh hstep, h.2.step h.1 hstep⟩)
      ⟨hsound, Nat.le_refl _, fun _ _ => rfl⟩ hmeets hexec
  exact hinvariant.2

/--
What `with_verified_steer_epoch` tests when it sends.
-/
theorem verified_of_steers_ne {world world' : World} {sessionId : String} {epoch : Nat}
    (hstep : World.step formats world (.steer sessionId epoch) = some world')
    (hsent : world'.steers ≠ world.steers)
    : world.state.epochOf sessionId = epoch
      ∧ (∀ entry ∈ world.state.permissions, entry.2.sessionId ≠ sessionId)
      ∧ ∀ entry ∈ world.state.elicitations, entry.2.sessionId ≠ sessionId := by
  unfold World.step at hstep
  rw [Option.some.injEq] at hstep
  subst hstep
  split at hsent
  . next hverified =>
    unfold verifySteerEpoch at hverified
    simpa [and_assoc] using hverified
  . exact absurd rfl hsent

/--
A steer that is sent under the epoch `prepare_steer` has returned is sent while no permission and no form of the session
is pending, and after none was registered meanwhile, whatever else has happened.
-/
theorem steer_after_prepare {actions between : List Action} {before after sent : World} {sessionId : String}
    {state : InteractionState} {settlements : List Settlement} {epoch : Nat}
    (hmeets : Transition.Meets (World.step formats) FreshUuid init (actions ++ .prepareSteer sessionId :: between))
    (hbefore : Transition.exec (World.step formats) init actions = some before)
    (hprepare : before.state.prepareSteer sessionId = .ok (state, settlements, epoch))
    (hafter : Transition.exec (World.step formats) before (.prepareSteer sessionId :: between) = some after)
    (hepoch : epoch < 2 ^ 64 - 1)
    (hsteer : World.step formats after (.steer sessionId epoch) = some sent) (hsent : sent.steers ≠ after.steers)
    : (∀ entry ∈ after.state.permissions, entry.2.sessionId ≠ sessionId)
      ∧ (∀ entry ∈ after.state.elicitations, entry.2.sessionId ≠ sessionId)
      ∧ after.registeredOf sessionId = before.registeredOf sessionId := by
  obtain ⟨hfirst, hrest⟩ := Transition.meets_append hmeets hbefore
  have hsound := sound_of_exec hfirst hbefore
  obtain ⟨prepared, hstep, hbetween⟩ := Transition.exec_cons_eq_some.mp hafter
  have hsound' := hsound.step hrest.1 hstep
  have hfollows := follows_of_exec sessionId hsound' (hrest.2 prepared hstep) hbetween
  have hprepared : prepared = before.spawn state (.settle settlements .return) := by
    unfold World.step at hstep
    dsimp only at hstep
    rw [hprepare] at hstep
    exact (Option.some.inj hstep).symm
  have hreturned := epoch_of_prepareSteer hprepare
  obtain ⟨hverified, hpermissions, helicitations⟩ := verified_of_steers_ne hsteer hsent
  have hsame : after.state.epochOf sessionId = prepared.state.epochOf sessionId := by
    rw [hverified, hreturned, hprepared]
    rfl
  refine ⟨hpermissions, helicitations, ?_⟩
  rw [hfollows.registeredOf_eq hsame (by rw [← hsame, hverified]; exact hepoch), hprepared]
  rfl

/--
The permission is rejected for a steer.
-/
def grantRejected : List Action :=
  [.respond 0 true, .emit 0 (some grantSession)]

theorem meets_grantRejected
    : Transition.Meets (World.step anyFormat) FreshUuid init
        (grantAsked ++ .prepareSteer "session" :: grantRejected) := by
  decide

theorem steer_after_prepare_granted
    : ∃ before after, Transition.exec (World.step anyFormat) init grantAsked = some before
        ∧ Transition.exec (World.step anyFormat) before (.prepareSteer "session" :: grantRejected) = some after
        ∧ (∀ entry ∈ after.state.permissions, entry.2.sessionId ≠ "session")
        ∧ (∀ entry ∈ after.state.elicitations, entry.2.sessionId ≠ "session")
        ∧ after.registeredOf "session" = before.registeredOf "session" :=
  ⟨_, _, rfl, rfl, steer_after_prepare meets_grantRejected rfl rfl rfl (by decide) rfl (by decide)⟩

end World

end Acp
