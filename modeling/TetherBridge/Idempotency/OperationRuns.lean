import TetherBridge.Idempotency.Operations
import TetherBridge.Idempotency.SubmissionRuns

/-!
This module contains what the store of operations keeps over its requests, writes that fail and restarts, and
what both stores keep: each order is the order of what is stored, and a file that is written is within its
budget, drops the oldest results only and is loaded as it was written.
-/

namespace Idempotency

open Transition

/--
The order goes along with the values and stays within its limit.
-/
structure Within {β : Type} (limit : Nat) (aged : Aged String β) : Prop where
  ordered : aged.WellOrdered
  length_le : aged.order.length ≤ limit

section

variable {β : Type} {limit : Nat} {aged : Aged String β}

theorem within_empty (limit : Nat) : Within limit ({} : Aged String β) :=
  ⟨⟨List.nodup_nil, by simp⟩, Nat.zero_le limit⟩

theorem within_trimPending (h : aged.order.Nodup) (limit : Nat) : Within limit (trimPending limit aged) :=
  ⟨wellOrdered_trimPending h limit, length_trimPending_le limit aged⟩

theorem within_trimDedupe (h : aged.Listed) (limit : Nat) : Within limit (trimDedupe limit aged) :=
  ⟨(h.trimTo limit).retainListed, Aged.length_trimTo_le limit aged⟩

theorem Within.trimDedupe (h : Within limit aged) : trimDedupe limit aged = aged := by
  unfold Idempotency.trimDedupe
  rw [Aged.trimTo_of_le h.length_le, Aged.retainListed_of_wellOrdered h.ordered]

theorem Within.trimPending (h : Within limit aged) : trimPending limit aged = aged :=
  trimPending_of_wellOrdered h.ordered h.length_le

theorem Within.reserve (h : Within limit aged) (id : String) (operation : β)
    : Within limit (DurableOperationDedupe.reserve limit id operation aged) :=
  within_trimPending (h.ordered.put id operation).nodup limit

theorem Within.forget (h : Within limit aged) (id : String) : Within limit (aged.forget id) :=
  ⟨h.ordered.forget id, Nat.le_trans (List.length_filter_le ..) h.length_le⟩

/--
A result whose id is new is put to the end of the order.
-/
theorem Within.record (h : Within limit aged) {id : String} (hnew : id ∉ aged.values) (result : β)
    : Within limit (DurableOperationDedupe.record limit id result aged) := by
  have hput := h.ordered.put id result
  unfold Aged.put at hput
  rw [if_neg hnew] at hput
  exact ⟨(hput.trimTo limit).wellOrdered hput.listed, Aged.length_trimTo_le limit _⟩

theorem Within.of_rest (h : Within limit aged) {rest : Aged String β} (hrest : rest.Rest aged)
    : Within limit rest :=
  ⟨hrest.wellOrdered h.ordered.listed, Nat.le_trans hrest.order.length_le h.length_le⟩

end

namespace DurableOperationDedupe

variable {state : DurableOperationDedupe}

structure Sound (state : DurableOperationDedupe) : Prop where
  threadCreateResults : Within SUBMISSION_DEDUPE_LIMIT state.threadCreateResults
  threadCreatePending : Within SUBMISSION_DEDUPE_LIMIT state.threadCreatePending
  threadForkResults : Within SUBMISSION_DEDUPE_LIMIT state.threadForkResults
  threadForkPending : Within SUBMISSION_DEDUPE_LIMIT state.threadForkPending
  approvalResolutionResults : Within APPROVAL_RESOLUTION_DEDUPE_LIMIT state.approvalResolutionResults
  approvalResolutionPending : Within APPROVAL_RESOLUTION_DEDUPE_LIMIT state.approvalResolutionPending

/--
The orders of a file have no key twice, and its results are all there.
-/
structure Loadable (state : DurableOperationDedupe) : Prop where
  threadCreateResults : state.threadCreateResults.Listed
  threadCreatePending : state.threadCreatePending.order.Nodup
  threadForkResults : state.threadForkResults.Listed
  threadForkPending : state.threadForkPending.order.Nodup
  approvalResolutionResults : state.approvalResolutionResults.Listed
  approvalResolutionPending : state.approvalResolutionPending.order.Nodup

theorem Sound.loadable (h : state.Sound) : state.Loadable where
  threadCreateResults := h.threadCreateResults.ordered.listed
  threadCreatePending := h.threadCreatePending.ordered.nodup
  threadForkResults := h.threadForkResults.ordered.listed
  threadForkPending := h.threadForkPending.ordered.nodup
  approvalResolutionResults := h.approvalResolutionResults.ordered.listed
  approvalResolutionPending := h.approvalResolutionPending.ordered.nodup

theorem sound_empty : ({} : DurableOperationDedupe).Sound where
  threadCreateResults := within_empty _
  threadCreatePending := within_empty _
  threadForkResults := within_empty _
  threadForkPending := within_empty _
  approvalResolutionResults := within_empty _
  approvalResolutionPending := within_empty _

/-! Reserving, releasing and recording -/

theorem Sound.reserve (h : state.Sound) (reservation : Reservation) : (reservation.reserve state).Sound := by
  cases reservation with
  | threadCreate submissionId =>
    exact { h with threadCreatePending := h.threadCreatePending.reserve submissionId () }
  | threadFork submissionId operation =>
    exact { h with threadForkPending := h.threadForkPending.reserve submissionId operation }
  | approvalResolution resolutionId operation =>
    exact { h with approvalResolutionPending := h.approvalResolutionPending.reserve resolutionId operation }

theorem Sound.release (h : state.Sound) (id : String) (kind : OperationKind) : (state.release id kind).Sound := by
  cases kind with
  | threadCreate => exact { h with threadCreatePending := h.threadCreatePending.forget id }
  | threadFork => exact { h with threadForkPending := h.threadForkPending.forget id }
  | approvalResolution => exact { h with approvalResolutionPending := h.approvalResolutionPending.forget id }

def HasResult (state : DurableOperationDedupe) (id : String) : OperationKind → Prop
  | .threadCreate => id ∈ state.threadCreateResults.values
  | .threadFork => id ∈ state.threadForkResults.values
  | .approvalResolution => id ∈ state.approvalResolutionResults.values

theorem not_hasResult_of_answers {id : String} {kind : OperationKind} (h : ¬state.answers id kind)
    : ¬state.HasResult id kind := by
  cases kind <;> simp_all [answers, HasResult]

@[simp]
theorem hasResult_reserve (reservation : Reservation) (id : String) (kind : OperationKind)
    : (reservation.reserve state).HasResult id kind ↔ state.HasResult id kind := by
  cases reservation <;> cases kind <;> rfl

@[simp]
theorem hasResult_release (released id : String) (kind other : OperationKind)
    : (state.release released other).HasResult id kind ↔ state.HasResult id kind := by
  cases other <;> cases kind <;> rfl

theorem hasResult_record {completion : Completion} {kind : OperationKind} (hkind : kind ≠ completion.kind)
    (recorded id : String)
    : (completion.record state recorded).HasResult id kind ↔ state.HasResult id kind := by
  cases completion <;> cases kind <;> first | rfl | exact absurd rfl hkind

theorem Sound.record (h : state.Sound) {id : String} {completion : Completion}
    (hnew : ¬state.HasResult id completion.kind)
    : (completion.record state id).Sound := by
  cases completion with
  | threadCreate thread =>
    exact { h with
      threadCreateResults := h.threadCreateResults.record hnew _
      threadCreatePending := h.threadCreatePending.forget id }
  | threadFork sourceThreadId messageId thread =>
    exact { h with
      threadForkResults := h.threadForkResults.record hnew _
      threadForkPending := h.threadForkPending.forget id }
  | approvalResolution result =>
    exact { h with
      approvalResolutionResults := h.approvalResolutionResults.record hnew result
      approvalResolutionPending := h.approvalResolutionPending.forget id }

/-! Compaction -/

/--
What compaction leaves: all that is pending, and the results less the oldest ones, of the kinds in turn.
-/
structure Compacted (file state : DurableOperationDedupe) : Prop where
  pending : file.threadCreatePending = state.threadCreatePending
    ∧ file.threadForkPending = state.threadForkPending
    ∧ file.approvalResolutionPending = state.approvalResolutionPending
  threadCreateResults : file.threadCreateResults.Rest state.threadCreateResults
  threadForkResults : file.threadForkResults.Rest state.threadForkResults
  approvalResolutionResults : file.approvalResolutionResults.Rest state.approvalResolutionResults
  createsFirst : file.threadCreateResults.order ≠ [] → file.threadForkResults = state.threadForkResults
  forksNext : file.threadCreateResults.order ≠ [] ∨ file.threadForkResults.order ≠ [] →
    file.approvalResolutionResults = state.approvalResolutionResults

variable {file : DurableOperationDedupe}

theorem compacted_self (h : state.Sound) : Compacted state state where
  pending := ⟨rfl, rfl, rfl⟩
  threadCreateResults := h.threadCreateResults.ordered.rest
  threadForkResults := h.threadForkResults.ordered.rest
  approvalResolutionResults := h.approvalResolutionResults.ordered.rest
  createsFirst _ := rfl
  forksNext _ := rfl

theorem Compacted.sound (h : Compacted file state) (hstate : state.Sound) : file.Sound where
  threadCreateResults := hstate.threadCreateResults.of_rest h.threadCreateResults
  threadCreatePending := h.pending.1 ▸ hstate.threadCreatePending
  threadForkResults := hstate.threadForkResults.of_rest h.threadForkResults
  threadForkPending := h.pending.2.1 ▸ hstate.threadForkPending
  approvalResolutionResults := hstate.approvalResolutionResults.of_rest h.approvalResolutionResults
  approvalResolutionPending := h.pending.2.2 ▸ hstate.approvalResolutionPending

theorem Compacted.dropResult (h : Compacted file state) (hstate : state.Sound)
    : Compacted file.dropResult state := by
  have hfile := h.sound hstate
  unfold DurableOperationDedupe.dropResult
  split
  . next hne =>
    exact { h with
      threadCreateResults := (hfile.threadCreateResults.ordered.dropOldest 1).trans h.threadCreateResults
      createsFirst := fun _ => h.createsFirst hne
      forksNext := fun _ => h.forksNext (.inl hne) }
  . next hcreate =>
    split
    . next hne =>
      exact { h with
        threadForkResults := (hfile.threadForkResults.ordered.dropOldest 1).trans h.threadForkResults
        createsFirst := fun hcreates => absurd hcreates hcreate
        forksNext := fun _ => h.forksNext (.inr hne) }
    . next hfork =>
      exact { h with
        approvalResolutionResults :=
          (hfile.approvalResolutionResults.ordered.dropOldest 1).trans h.approvalResolutionResults
        forksNext := fun hor => absurd hor (not_or.mpr ⟨hcreate, hfork⟩) }

theorem Compacted.dropResults (h : Compacted file state) (hstate : state.Sound) (count : Nat)
    : Compacted (dropResults count file) state := by
  induction count generalizing file with
  | zero => exact h
  | succ count ih =>
    unfold DurableOperationDedupe.dropResults
    split
    . exact h
    . exact ih (h.dropResult hstate)

theorem Compacted.eq_pendingOnly (h : Compacted file state) (hcount : file.resultCount = 0)
    : file = state.pendingOnly := by
  unfold resultCount at hcount
  have hcreates := h.threadCreateResults.eq_of_nil (List.length_eq_zero_iff.mp (by omega))
  have hforks := h.threadForkResults.eq_of_nil (List.length_eq_zero_iff.mp (by omega))
  have happrovals := h.approvalResolutionResults.eq_of_nil (List.length_eq_zero_iff.mp (by omega))
  rcases h.pending with ⟨hcreatePending, hforkPending, happrovalPending⟩
  rcases file with ⟨_, _, _, _, _, _⟩
  dsimp only at *
  subst hcreates hforks happrovals hcreatePending hforkPending happrovalPending
  rfl

theorem exists_durable (h : state.Sound)
    (hpending : state.pendingOnly.toJson.bytes ≤ OPERATION_DEDUPE_MAX_BYTES)
    : ∃ file, state.durable = some file ∧ Compacted file state
        ∧ file.toJson.bytes ≤ OPERATION_DEDUPE_MAX_BYTES := by
  unfold durable
  rw [if_neg (by omega)]
  apply Compaction.run_rule (P := fun file => Compacted file state)
  . intro batch file _ hfile
    exact hfile.dropResults h batch
  . intro file hfile hcount
    rw [hfile.eq_pendingOnly hcount]
    exact hpending
  . exact compacted_self h

theorem durable_compacted (h : state.Sound) (hdurable : state.durable = some file) : Compacted file state := by
  by_cases hpending : state.pendingOnly.toJson.bytes ≤ OPERATION_DEDUPE_MAX_BYTES
  . rcases exists_durable h hpending with ⟨other, hother, hcompacted, -⟩
    rw [hdurable, Option.some.injEq] at hother
    exact hother ▸ hcompacted
  . unfold durable at hdurable
    rw [if_pos (by omega)] at hdurable
    contradiction

/-! What is loaded -/

theorem loadOperationDedupe_of_sound (h : state.Sound) {bytes : Nat} (hbytes : bytes ≤ OPERATION_DEDUPE_MAX_BYTES)
    : loadOperationDedupe (.found { bytes, content := .ok state }) = .ok state := by
  unfold loadOperationDedupe
  dsimp only
  rw [if_neg (by omega), h.threadCreateResults.trimDedupe, h.threadForkResults.trimDedupe,
    h.approvalResolutionResults.trimDedupe, h.threadCreatePending.trimPending, h.threadForkPending.trimPending,
    h.approvalResolutionPending.trimPending]

theorem loadOperationDedupe_sound {file : ReadResult DurableOperationDedupe}
    (hfile : ∀ bytes content, file = .found { bytes, content := .ok content } → content.Loadable)
    (hload : loadOperationDedupe file = .ok state)
    : state.Sound := by
  unfold loadOperationDedupe at hload
  split at hload
  . injection hload with hload
    exact hload ▸ sound_empty
  . contradiction
  . next found =>
    split at hload
    . contradiction
    . split at hload
      . contradiction
      . next content hcontent =>
        injection hload with hload
        have hloadable : content.Loadable := by
          apply hfile found.bytes
          rw [← hcontent]
        rw [← hload]
        exact {
          threadCreateResults := within_trimDedupe hloadable.threadCreateResults _
          threadCreatePending := within_trimPending hloadable.threadCreatePending _
          threadForkResults := within_trimDedupe hloadable.threadForkResults _
          threadForkPending := within_trimPending hloadable.threadForkPending _
          approvalResolutionResults := within_trimDedupe hloadable.approvalResolutionResults _
          approvalResolutionPending := within_trimPending hloadable.approvalResolutionPending _ }

end DurableOperationDedupe

/-! The requests -/

namespace OperationStore

variable {s : OperationStore}

/--
What is stored, in memory and in the file.
-/
structure Stored (s : OperationStore) : Prop where
  state : s.state.Sound
  file : ∀ bytes content, s.file = .found { bytes, content := .ok content } → content.Loadable

structure Sound (s : OperationStore) : Prop extends s.Stored where
  active : ∀ kind id, s.active kind = some id → ¬s.state.HasResult id kind

theorem persistOperationDedupe_state (s : OperationStore) (outcome : WriteOutcome)
    : (s.persistOperationDedupe outcome).1.state = s.state
        ∧ (s.persistOperationDedupe outcome).1.active = s.active := by
  unfold persistOperationDedupe
  split
  . exact ⟨rfl, rfl⟩
  . cases outcome <;> exact ⟨rfl, rfl⟩

theorem persistOperationDedupe_file (s : OperationStore) (outcome : WriteOutcome)
    : (s.persistOperationDedupe outcome).1.file = s.file
        ∨ ∃ durable, s.state.durable = some durable
            ∧ (s.persistOperationDedupe outcome).1.file
                = .found { bytes := durable.toJson.bytes, content := .ok durable } := by
  unfold persistOperationDedupe
  cases hdurable : s.state.durable with
  | none => exact .inl rfl
  | some durable =>
    rcases outcome with _ | ⟨_ | _, error⟩
    . exact .inr ⟨durable, rfl, rfl⟩
    . exact .inl rfl
    . exact .inr ⟨durable, rfl, rfl⟩

theorem Stored.persist (h : s.Stored) (outcome : WriteOutcome) : (s.persistOperationDedupe outcome).1.Stored := by
  refine ⟨by rw [(persistOperationDedupe_state s outcome).1]; exact h.state, ?_⟩
  intro bytes content hcontent
  rcases persistOperationDedupe_file s outcome with hfile | ⟨durable, hdurable, hfile⟩
  . exact h.file bytes content (hfile ▸ hcontent)
  . rw [hfile] at hcontent
    injection hcontent with hcontent
    injection hcontent with _ hcontent
    injection hcontent with hcontent
    rw [← hcontent]
    exact ((DurableOperationDedupe.durable_compacted h.state hdurable).sound h.state).loadable

/--
An update leaves the state that was meant or, when the write fails, the one before.
-/
theorem updateOperationDedupe_state (s : OperationStore) (state : DurableOperationDedupe)
    (outcome rollback : WriteOutcome)
    : (s.updateOperationDedupe state outcome rollback).1.active = s.active
        ∧ ((s.updateOperationDedupe state outcome rollback).1.state = state
          ∨ (s.updateOperationDedupe state outcome rollback).1.state = s.state) := by
  have hpersist := persistOperationDedupe_state { s with state } outcome
  unfold updateOperationDedupe
  cases hresult : { s with state }.persistOperationDedupe outcome with
  | mk s' answer =>
    rw [hresult] at hpersist
    cases answer with
    | ok => exact ⟨hpersist.2, .inl hpersist.1⟩
    | error error =>
      have hback := persistOperationDedupe_state { s' with state := s.state } rollback
      exact ⟨hback.2.trans hpersist.2, .inr hback.1⟩

theorem Stored.update (h : s.Stored) {state : DurableOperationDedupe} (hstate : state.Sound)
    (outcome rollback : WriteOutcome)
    : (s.updateOperationDedupe state outcome rollback).1.Stored := by
  have hwith : { s with state }.Stored := ⟨hstate, h.file⟩
  have hpersisted := hwith.persist outcome
  unfold updateOperationDedupe
  cases hresult : { s with state }.persistOperationDedupe outcome with
  | mk s' answer =>
    rw [hresult] at hpersisted
    cases answer with
    | ok => exact hpersisted
    | error error =>
      have hback : { s' with state := s.state }.Stored := ⟨h.state, hpersisted.file⟩
      exact hback.persist rollback

theorem start_sound {file : ReadResult DurableOperationDedupe}
    (hfile : ∀ bytes content, file = .found { bytes, content := .ok content } → content.Loadable)
    (hstart : start file = some s)
    : s.Sound := by
  unfold start at hstart
  rcases Option.map_eq_some_iff.mp hstart with ⟨state, hload, rfl⟩
  rw [Except.toOption_eq_some] at hload
  exact ⟨⟨DurableOperationDedupe.loadOperationDedupe_sound hfile hload, hfile⟩, fun _ _ hid => nomatch hid⟩

theorem reserve_sound {reservation : Reservation} {writes : Writes} {t : OperationStore} (h : s.Sound)
    (hstep : s.step (.reserve reservation writes) = some t)
    : t.Sound := by
  unfold step at hstep
  dsimp only at hstep
  split at hstep
  . contradiction
  . next hfree =>
    rw [not_or] at hfree
    have hnew := DurableOperationDedupe.not_hasResult_of_answers hfree.2
    have hupdated := h.toStored.update (h.state.reserve reservation) writes.outcome writes.rollback
    have hstates := updateOperationDedupe_state s (reservation.reserve s.state) writes.outcome writes.rollback
    have hresults : ∀ kind id,
        (s.updateOperationDedupe (reservation.reserve s.state) writes.outcome writes.rollback).1.state.HasResult id kind
          ↔ s.state.HasResult id kind := by
      intro kind id
      rcases hstates.2 with hstate | hstate
      . rw [hstate, DurableOperationDedupe.hasResult_reserve]
      . rw [hstate]
    cases hresult : s.updateOperationDedupe (reservation.reserve s.state) writes.outcome writes.rollback with
    | mk s' answer =>
      rw [hresult] at hstep hupdated hstates hresults
      cases answer with
      | ok =>
        injection hstep with hstep
        rw [← hstep]
        refine ⟨⟨hupdated.state, hupdated.file⟩, fun kind id hid => ?_⟩
        unfold setActive at hid ⊢
        dsimp only at hid ⊢
        rw [hresults]
        split at hid
        . next hkind =>
          injection hid with hid
          rw [hkind, ← hid]
          exact hnew
        . rw [hstates.1] at hid
          exact h.active kind id hid
      | error error =>
        injection hstep with hstep
        rw [← hstep]
        have hreleased := updateOperationDedupe_state s' (s'.state.release reservation.id reservation.kind)
          writes.release writes.releaseRollback
        refine ⟨hupdated.update (hupdated.state.release reservation.id reservation.kind) _ _, fun kind id hid => ?_⟩
        rw [hreleased.1, hstates.1] at hid
        have hold := h.active kind id hid
        rw [← hresults] at hold
        rcases hreleased.2 with hstate | hstate
        . rw [hstate, DurableOperationDedupe.hasResult_release]
          exact hold
        . rw [hstate]
          exact hold

/--
A request ends: it gives up its lock, and no result of another kind is new.
-/
theorem Sound.endRequest (h : s.Sound) {state : DurableOperationDedupe} (hstate : state.Sound) (kind : OperationKind)
    (hothers : ∀ other id, other ≠ kind → state.HasResult id other → s.state.HasResult id other)
    (outcome rollback : WriteOutcome)
    : ((s.updateOperationDedupe state outcome rollback).1.setActive kind none).Sound := by
  have hupdated := h.toStored.update hstate outcome rollback
  have hstates := updateOperationDedupe_state s state outcome rollback
  refine ⟨⟨hupdated.state, hupdated.file⟩, fun other id hid => ?_⟩
  unfold setActive at hid ⊢
  dsimp only at hid ⊢
  split at hid
  . contradiction
  . next hne =>
    rw [hstates.1] at hid
    have hold := h.active other id hid
    rcases hstates.2 with hstate | hstate
    . rw [hstate]
      exact fun hresult => hold (hothers other id hne hresult)
    . rw [hstate]
      exact hold

theorem step_sound {label : Step} {t : OperationStore} (h : s.Sound) (hstep : s.step label = some t) : t.Sound := by
  cases label with
  | reserve reservation writes => exact reserve_sound h hstep
  | complete completion outcome rollback =>
    rcases Option.map_eq_some_iff.mp hstep with ⟨id, hid, rfl⟩
    apply h.endRequest (h.state.record (h.active completion.kind id hid))
    intro other recorded hne
    exact (DurableOperationDedupe.hasResult_record hne id recorded).mp
  | failDefinitively kind outcome rollback =>
    rcases Option.map_eq_some_iff.mp hstep with ⟨id, hid, rfl⟩
    apply h.endRequest (h.state.release id kind)
    intro other recorded _
    exact (DurableOperationDedupe.hasResult_release id recorded other kind).mp
  | failIndeterminately kind =>
    rcases Option.map_eq_some_iff.mp hstep with ⟨id, hid, rfl⟩
    refine ⟨⟨h.state, h.file⟩, fun other id hid => ?_⟩
    unfold setActive at hid
    dsimp only at hid
    split at hid
    . contradiction
    . exact h.active other id hid
  | persist outcome =>
    injection hstep with hstep
    rcases persistOperationDedupe_state s outcome with ⟨hstate, hactive⟩
    rw [← hstep]
    refine ⟨h.toStored.persist outcome, ?_⟩
    rw [hstate, hactive]
    exact h.active
  | restart => exact start_sound h.file hstep

/-! What is written and loaded again -/

/--
Everything that is said about the file the store writes: it fits, has all that is pending and the results less
the oldest ones, drops nothing when everything fits, and is loaded as it is.
-/
structure Persists (s : OperationStore) (file : DurableOperationDedupe) : Prop where
  durable : s.state.durable = some file
  bytes_le : file.toJson.bytes ≤ OPERATION_DEDUPE_MAX_BYTES
  compacted : DurableOperationDedupe.Compacted file s.state
  whole : s.state.toJson.bytes ≤ OPERATION_DEDUPE_MAX_BYTES → file = s.state
  loaded : loadOperationDedupe (.found { bytes := file.toJson.bytes, content := .ok file }) = .ok file

theorem Stored.persists (h : s.Stored) (hpending : s.state.pendingOnly.toJson.bytes ≤ OPERATION_DEDUPE_MAX_BYTES)
    : ∃ file, s.Persists file := by
  rcases DurableOperationDedupe.exists_durable h.state hpending with ⟨file, hdurable, hcompacted, hbytes⟩
  refine ⟨file, hdurable, hbytes, hcompacted, ?_, ?_⟩
  . intro hfits
    have hsize : DurableOperationDedupe.resultCompaction.size s.state ≤ OPERATION_DEDUPE_MAX_BYTES := hfits
    unfold DurableOperationDedupe.durable at hdurable
    rw [if_neg (by omega), Compaction.run_of_le hsize] at hdurable
    injection hdurable with hdurable
    exact hdurable.symm
  . exact DurableOperationDedupe.loadOperationDedupe_of_sound (hcompacted.sound h.state) hbytes

/--
When what is pending does not fit, nothing is written and an update is taken back.
-/
theorem updateOperationDedupe_of_oversize (state : DurableOperationDedupe)
    (hpending : OPERATION_DEDUPE_MAX_BYTES < state.pendingOnly.toJson.bytes) (outcome rollback : WriteOutcome)
    : (s.updateOperationDedupe state outcome rollback).1.state = s.state := by
  have hdurable : state.durable = none := by
    unfold DurableOperationDedupe.durable
    rw [if_pos hpending]
  unfold updateOperationDedupe
  have hpersist : { s with state }.persistOperationDedupe outcome
      = ({ s with state, dirty := true },
        .error "failed to persist request idempotency: pending operation idempotency state exceeds its byte budget") := by
    unfold persistOperationDedupe
    rw [hdurable]
  rw [hpersist]
  exact (persistOperationDedupe_state _ rollback).1

end OperationStore

/-! Both stores -/

/--
The start of a bridge whose files have orders without repetitions, such as all files the bridge writes.
-/
def SubmissionStore.StartsFrom (file : ReadResult DurableQueueReceiptFile) (s : SubmissionStore) : Prop :=
  start true file = some s ∧ ∀ bytes content, file = .found { bytes, content := .ok content } → content.Loadable

def OperationStore.StartsFrom (file : ReadResult DurableOperationDedupe) (s : OperationStore) : Prop :=
  start file = some s ∧ ∀ bytes content, file = .found { bytes, content := .ok content } → content.Loadable

/--
Trimming leaves an order of what is stored. Over the calls, failed writes and restarts the stores keep such
orders, and what they write is within the budget and is loaded as it was written.
-/
theorem stores_compact
    : (∀ {β : Type} (limit : Nat) (aged : Aged String β),
        (aged.order.Nodup → Within limit (trimPending limit aged))
          ∧ (aged.Listed → Within limit (trimDedupe limit aged)))
      ∧ (∀ file start labels s, SubmissionStore.StartsFrom file start →
        exec SubmissionStore.step start labels = some s →
        Within SUBMISSION_DEDUPE_LIMIT s.results ∧ Within SUBMISSION_DEDUPE_LIMIT (trimQueuePending s.pending)
          ∧ ∃ written, s.Persists written)
      ∧ ∀ file start labels s, OperationStore.StartsFrom file start →
        exec OperationStore.step start labels = some s →
        s.state.Sound
          ∧ (s.state.pendingOnly.toJson.bytes ≤ OPERATION_DEDUPE_MAX_BYTES → ∃ written, s.Persists written)
          ∧ ∀ state : DurableOperationDedupe, OPERATION_DEDUPE_MAX_BYTES < state.pendingOnly.toJson.bytes →
            ∀ outcome rollback, (s.updateOperationDedupe state outcome rollback).1.state = s.state := by
  refine ⟨?_, ?_, ?_⟩
  . intro β limit aged
    exact ⟨fun hnodup => within_trimPending hnodup limit, fun hlisted => within_trimDedupe hlisted limit⟩
  . intro file start labels s hstart hexec
    have hsound : s.Sound := exec_invariant' (fun _ _ _ hs hstep => SubmissionStore.step_sound hs hstep)
      (SubmissionStore.start_sound hstart.2 hstart.1) hexec
    refine ⟨⟨hsound.submissions.results, hsound.submissions.results_length⟩, ?_, hsound.persists⟩
    exact ⟨wellOrdered_trimQueuePending hsound.submissions.pending.nodup, length_trimQueuePending_le s.pending⟩
  . intro file start labels s hstart hexec
    have hsound : s.Sound := exec_invariant' (fun _ _ _ hs hstep => OperationStore.step_sound hs hstep)
      (OperationStore.start_sound hstart.2 hstart.1) hexec
    refine ⟨hsound.state, hsound.toStored.persists, fun state hpending outcome rollback => ?_⟩
    exact OperationStore.updateOperationDedupe_of_oversize state hpending outcome rollback

/-- A turn that was started. -/
def sentResult : BridgeQueueSubmissionReceipt where
  submissionId := "sent"
  threadId := "thread"
  disposition := .sent
  turnId := some "turn"

/-- A message that was queued. -/
def queuedResult : BridgeQueueSubmissionReceipt where
  submissionId := "queued"
  threadId := "thread"
  disposition := .queued
  turnId := none

def sendAndRestart : List SubmissionStore.Step :=
  [.reserve "sent" "thread" true .written .written, .rememberResult sentResult .written, .restart,
    .rememberResult queuedResult .written]

theorem exists_sendAndRestart
    : ∃ s, exec SubmissionStore.step {} sendAndRestart = some s ∧ s.results.order = ["sent", "queued"]
        ∧ s.results.values.lookup "queued" = some queuedResult
        ∧ ∃ loaded, loadSubmissionStore s.file = .ok loaded ∧ loaded.results.order = ["sent"]
          ∧ loaded.results.values.lookup "queued" = none := by
  have hrun : (exec SubmissionStore.step {} sendAndRestart).any (fun s =>
      s.results.order = ["sent", "queued"] ∧ s.results.values.lookup "queued" = some queuedResult
        ∧ (loadSubmissionStore s.file).toOption.any fun loaded =>
            loaded.results.order = ["sent"] ∧ loaded.results.values.lookup "queued" = none) := by
    decide +kernel
  rcases (Option.any_eq_true ..).mp hrun with ⟨s, hexec, hs⟩
  rcases of_decide_eq_true hs with ⟨horder, hqueued, hloaded⟩
  rcases (Option.any_eq_true ..).mp hloaded with ⟨loaded, hload, hl⟩
  rw [Except.toOption_eq_some] at hload
  exact ⟨s, hexec, horder, hqueued, loaded, hload, of_decide_eq_true hl⟩

theorem stores_compact_sendAndRestart
    : ∃ s, exec SubmissionStore.step {} sendAndRestart = some s ∧ s.results.order = ["sent", "queued"]
        ∧ Within SUBMISSION_DEDUPE_LIMIT s.results ∧ ∃ written, s.Persists written := by
  rcases exists_sendAndRestart with ⟨s, hexec, horder, -⟩
  have hstart : SubmissionStore.StartsFrom .notFound {} := ⟨rfl, fun _ _ hfound => nomatch hfound⟩
  rcases stores_compact.2.1 .notFound {} sendAndRestart s hstart hexec with ⟨hwithin, -, hpersists⟩
  exact ⟨s, hexec, horder, hwithin, hpersists⟩

/--
A file in which the order names a result twice.
-/
def listedTwice : DurableQueueReceiptFile where
  receipts :=
    { values := AList.singleton "sent" { threadId := "thread", turnId := "turn" }, order := ["sent", "sent"] }

/--
A file can be loaded to an order with repetitions, and a queued message is in memory only.
-/
theorem not_sameAsLoaded
    : (∃ loaded, loadSubmissionStore (.found { bytes := listedTwice.toJson.bytes, content := .ok listedTwice })
          = .ok loaded ∧ ¬loaded.results.order.Nodup)
        ∧ ∃ s, exec SubmissionStore.step {} sendAndRestart = some s
          ∧ ∃ loaded, loadSubmissionStore s.file = .ok loaded
            ∧ loaded.results.values.lookup "queued" ≠ s.results.values.lookup "queued" := by
  refine ⟨?_, ?_⟩
  . have hload : (loadSubmissionStore (.found { bytes := listedTwice.toJson.bytes, content := .ok listedTwice })
        ).toOption.any (fun loaded => loaded.results.order = ["sent", "sent"]) := by
      decide +kernel
    rcases (Option.any_eq_true ..).mp hload with ⟨loaded, hloaded, horder⟩
    rw [Except.toOption_eq_some] at hloaded
    refine ⟨loaded, hloaded, ?_⟩
    rw [of_decide_eq_true horder]
    decide
  . rcases exists_sendAndRestart with ⟨s, hexec, -, hqueued, loaded, hload, -, hnone⟩
    refine ⟨s, hexec, loaded, hload, ?_⟩
    rw [hnone, hqueued]
    exact Option.some_ne_none queuedResult |>.symm

end Idempotency
