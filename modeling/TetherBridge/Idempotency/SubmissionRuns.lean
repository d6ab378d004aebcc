import TetherBridge.Idempotency.Submissions
import TetherBridge.Data.Outcome
import TetherBridge.Transition.Basic

/-!
This module contains what the store of submissions keeps over its calls, writes that fail and restarts: the
orders go along with what they order, and a file that is written is within its budget, has the youngest
results and is loaded as it was written.
-/

namespace Idempotency

open Transition

/-! Trimming -/

theorem trimPending_rest {β : Type} {pending : Aged String β} (h : pending.order.Nodup) (limit : Nat)
    : (trimPending limit pending).Rest (pending.listMissing (· ≤ ·)) :=
  (Aged.wellOrdered_listMissing _ h).trimTo limit

theorem wellOrdered_trimPending {β : Type} {pending : Aged String β} (h : pending.order.Nodup) (limit : Nat)
    : (trimPending limit pending).WellOrdered :=
  (trimPending_rest h limit).wellOrdered (Aged.wellOrdered_listMissing _ h).listed

theorem length_trimPending_le {β : Type} (limit : Nat) (pending : Aged String β)
    : (trimPending limit pending).order.length ≤ limit :=
  Aged.length_trimTo_le limit _

theorem trimPending_of_wellOrdered {β : Type} {pending : Aged String β} (h : pending.WellOrdered) {limit : Nat}
    (hlength : pending.order.length ≤ limit)
    : trimPending limit pending = pending := by
  unfold trimPending
  rw [Aged.listMissing_of_wellOrdered h, Aged.trimTo_of_le hlength]

theorem wellOrdered_trimQueuePending {pending : Aged String String} (h : pending.order.Nodup)
    : (trimQueuePending pending).WellOrdered := by
  unfold trimQueuePending
  exact wellOrdered_trimPending h SUBMISSION_DEDUPE_LIMIT

theorem length_trimQueuePending_le (pending : Aged String String)
    : (trimQueuePending pending).order.length ≤ SUBMISSION_DEDUPE_LIMIT := by
  unfold trimQueuePending
  exact length_trimPending_le SUBMISSION_DEDUPE_LIMIT pending

/-! What is written of the results -/

theorem foldl_recordReceipt (results : Table String BridgeQueueSubmissionReceipt) (ids : List String)
    (receipts : Aged String DurableQueueReceipt)
    : (ids.foldl (recordReceipt results) receipts).order
          = receipts.order ++ ids.filter (fun id => (durableReceipt results id).isSome)
        ∧ ∀ key, (ids.foldl (recordReceipt results) receipts).values.lookup key
            = if key ∈ ids ∧ (durableReceipt results key).isSome then durableReceipt results key
              else receipts.values.lookup key := by
  induction ids generalizing receipts with
  | nil => simp
  | cons id ids ih =>
    rw [List.foldl_cons]
    rcases ih (recordReceipt results receipts id) with ⟨horder, hlookup⟩
    rw [horder]
    refine ⟨?_, fun key => ?_⟩
    . unfold recordReceipt
      cases hreceipt : durableReceipt results id with
      | none => simp [hreceipt]
      | some receipt => simp [hreceipt]
    . rw [hlookup]
      by_cases hkey : key = id
      . subst hkey
        unfold recordReceipt
        cases hreceipt : durableReceipt results key with
        | none => simp
        | some receipt => simp
      . have hother : (recordReceipt results receipts id).values.lookup key = receipts.values.lookup key := by
          unfold recordReceipt
          split
          . rfl
          . exact AList.lookup_insert_ne hkey
        simp only [List.mem_cons, hkey, false_or, hother]

namespace DurableQueueSubmissions

variable {submissions : DurableQueueSubmissions}

theorem order_snapshot (submissions : DurableQueueSubmissions)
    : submissions.snapshot.receipts.order
        =
      submissions.results.order.filter fun id => (durableReceipt submissions.results.values id).isSome := by
  unfold snapshot
  rw [(foldl_recordReceipt _ _ _).1]
  rfl

theorem lookup_snapshot (submissions : DurableQueueSubmissions) (id : String)
    : submissions.snapshot.receipts.values.lookup id
        =
      if id ∈ submissions.snapshot.receipts.order then durableReceipt submissions.results.values id else none := by
  simp only [order_snapshot, List.mem_filter]
  unfold snapshot
  rw [(foldl_recordReceipt _ _ _).2]
  rfl

theorem wellOrdered_snapshot (h : submissions.results.order.Nodup) : submissions.snapshot.receipts.WellOrdered where
  nodup := by
    rw [order_snapshot]
    exact h.filter _
  mem_iff id := by
    rw [← AList.lookup_isSome, lookup_snapshot]
    split
    . next hid =>
      have hsent := hid
      rw [order_snapshot] at hsent
      exact iff_of_true hid (List.mem_filter.mp hsent).2
    . next hid => simp [hid]

/--
A file that compaction leaves.
-/
structure Compacted (file snapshot : DurableQueueReceiptFile) : Prop where
  receipts : file.receipts.Rest snapshot.receipts
  pending : file.pending.Rest snapshot.pending
  receiptsFirst : file.receipts.order ≠ [] → file.pending = snapshot.pending

theorem exists_durable (hresults : submissions.results.order.Nodup) (hpending : submissions.pending.order.Nodup)
    : ∃ file, submissions.durable = some file ∧ Compacted file submissions.snapshot
        ∧ file.toJson.bytes ≤ QUEUE_RECEIPT_STORE_MAX_BYTES := by
  have hreceipts : submissions.snapshot.receipts.WellOrdered := wellOrdered_snapshot hresults
  have htrimmed : submissions.snapshot.pending.WellOrdered := wellOrdered_trimQueuePending hpending
  apply Compaction.run_rule (P := fun file => Compacted file submissions.snapshot)
  . intro batch file _ h
    unfold receiptCompaction
    dsimp only
    split
    . next hempty =>
      refine ⟨h.receipts, ?_, fun hne => absurd hempty hne⟩
      exact ((h.pending.wellOrdered htrimmed.listed).dropOldest _).trans h.pending
    . next hne =>
      refine ⟨?_, h.pending, fun _ => h.receiptsFirst hne⟩
      exact ((h.receipts.wellOrdered hreceipts.listed).dropOldest _).trans h.receipts
  . intro file h hcount
    have hlengths : file.receipts.order.length + file.pending.order.length = 0 := hcount
    have hfile : file = {} := by
      have hreceipts := h.receipts.eq_of_nil (List.length_eq_zero_iff.mp (by omega))
      have hpending := h.pending.eq_of_nil (List.length_eq_zero_iff.mp (by omega))
      rcases file with ⟨receipts, pending⟩
      dsimp only at hreceipts hpending
      rw [hreceipts, hpending]
    rw [hfile]
    decide +kernel
  . exact ⟨hreceipts.rest, htrimmed.rest, fun _ => rfl⟩

end DurableQueueSubmissions

/-! What is loaded -/

/--
The orders of a file have no key twice, and its results are all there.
-/
structure DurableQueueReceiptFile.Loadable (file : DurableQueueReceiptFile) : Prop where
  receipts : file.receipts.Listed
  pending : file.pending.order.Nodup

theorem loadSubmissionStore_of_wellOrdered {file : DurableQueueReceiptFile} {bytes : Nat}
    (hreceipts : file.receipts.WellOrdered) (hpending : file.pending.WellOrdered)
    (hlength : file.receipts.order.length ≤ SUBMISSION_DEDUPE_LIMIT)
    (hpendingLength : file.pending.order.length ≤ SUBMISSION_DEDUPE_LIMIT)
    (hbytes : bytes ≤ QUEUE_RECEIPT_STORE_MAX_BYTES)
    : loadSubmissionStore (.found { bytes, content := .ok file })
        =
      .ok {
        results := { values := Table.mapValues loadedReceipt file.receipts.values, order := file.receipts.order }
        pending := file.pending
      } := by
  unfold loadSubmissionStore
  dsimp only
  rw [if_neg (by omega), Aged.trimTo_of_le hlength, Aged.retainListed_of_wellOrdered hreceipts]
  unfold trimQueuePending
  rw [trimPending_of_wellOrdered hpending hpendingLength]

/--
The results and the pending submissions go along with their orders, which stay within their limit.
-/
structure DurableQueueSubmissions.Sound (submissions : DurableQueueSubmissions) : Prop where
  results : submissions.results.WellOrdered
  results_length : submissions.results.order.length ≤ SUBMISSION_DEDUPE_LIMIT
  keyed : ∀ id receipt, submissions.results.values.lookup id = some receipt → receipt.submissionId = id
  pending : submissions.pending.Listed
  pending_length : submissions.pending.order.length ≤ SUBMISSION_DEDUPE_LIMIT

theorem loadSubmissionStore_sound {file : ReadResult DurableQueueReceiptFile}
    {submissions : DurableQueueSubmissions}
    (hfile : ∀ bytes content, file = .found { bytes, content := .ok content } → content.Loadable)
    (hload : loadSubmissionStore file = .ok submissions)
    : submissions.Sound := by
  unfold loadSubmissionStore at hload
  split at hload
  . injection hload with hload
    rw [← hload]
    refine ⟨⟨List.nodup_nil, by simp⟩, Nat.zero_le _, by simp, ⟨List.nodup_nil, by simp⟩, Nat.zero_le _⟩
  . contradiction
  . next found =>
    split at hload
    . contradiction
    . split at hload
      . contradiction
      . next state hcontent =>
        injection hload with hload
        have hloadable : state.Loadable := by
          apply hfile found.bytes
          rw [← hcontent]
        have hreceipts := (hloadable.receipts.trimTo SUBMISSION_DEDUPE_LIMIT).retainListed
        have hlength := Aged.length_trimTo_le SUBMISSION_DEDUPE_LIMIT state.receipts
        rw [← hload]
        constructor
        . dsimp only
          refine ⟨hreceipts.nodup, fun id => ?_⟩
          dsimp only
          rw [← AList.lookup_isSome, Table.lookup_mapValues, Option.isSome_map, AList.lookup_isSome]
          exact hreceipts.mem_iff id
        . dsimp only
          exact hlength
        . intro id receipt hreceipt
          dsimp only at hreceipt
          rw [Table.lookup_mapValues, Option.map_eq_some_iff] at hreceipt
          rcases hreceipt with ⟨durable, -, rfl⟩
          rfl
        . dsimp only
          exact (wellOrdered_trimQueuePending hloadable.pending).listed
        . dsimp only
          exact length_trimQueuePending_le state.pending

/-! The calls of the store -/

namespace SubmissionStore

variable {s : SubmissionStore}

structure Sound (s : SubmissionStore) : Prop where
  submissions : s.toDurableQueueSubmissions.Sound
  file : ∀ bytes content, s.file = .found { bytes, content := .ok content } → content.Loadable

theorem persistSubmissionStore_submissions (s : SubmissionStore) (outcome : WriteOutcome)
    : (s.persistSubmissionStore outcome).1.toDurableQueueSubmissions = s.toDurableQueueSubmissions := by
  unfold persistSubmissionStore
  split
  . split
    . rfl
    . cases outcome <;> rfl
  . rfl

theorem durable_loadable (h : s.Sound) {durable : DurableQueueReceiptFile} (hdurable : s.durable = some durable)
    : durable.Loadable := by
  rcases DurableQueueSubmissions.exists_durable h.submissions.results.nodup h.submissions.pending.nodup
    with ⟨file, hfile, hcompacted, -⟩
  rw [hdurable, Option.some.injEq] at hfile
  subst hfile
  have hreceipts := DurableQueueSubmissions.wellOrdered_snapshot h.submissions.results.nodup
  have hpending : s.snapshot.pending.WellOrdered := wellOrdered_trimQueuePending h.submissions.pending.nodup
  exact ⟨(hcompacted.receipts.wellOrdered hreceipts.listed).listed,
    (hcompacted.pending.wellOrdered hpending.listed).nodup⟩

theorem Sound.persist (h : s.Sound) (outcome : WriteOutcome) : (s.persistSubmissionStore outcome).1.Sound := by
  refine ⟨?_, ?_⟩
  . rw [persistSubmissionStore_submissions]
    exact h.submissions
  . intro bytes content hcontent
    have hfile : (s.persistSubmissionStore outcome).1.file = s.file
        ∨ ∃ durable, s.durable = some durable
            ∧ (s.persistSubmissionStore outcome).1.file
                = .found { bytes := durable.toJson.bytes, content := .ok durable } := by
      unfold persistSubmissionStore
      split
      . cases hdurable : s.durable with
        | none => exact .inl rfl
        | some durable =>
          rcases outcome with _ | ⟨_ | _, error⟩
          . exact .inr ⟨durable, rfl, rfl⟩
          . exact .inl rfl
          . exact .inr ⟨durable, rfl, rfl⟩
      . exact .inl rfl
    rcases hfile with hfile | ⟨durable, hdurable, hfile⟩
    . exact h.file bytes content (hfile ▸ hcontent)
    . rw [hfile] at hcontent
      injection hcontent with hcontent
      injection hcontent with _ hcontent
      injection hcontent with hcontent
      exact hcontent ▸ durable_loadable h hdurable

theorem Sound.withPending (h : s.Sound) {pending : Aged String String} (hlisted : pending.Listed)
    (hlength : pending.order.length ≤ SUBMISSION_DEDUPE_LIMIT)
    : { s with pending }.Sound :=
  ⟨{ h.submissions with pending := hlisted, pending_length := hlength }, h.file⟩

theorem Sound.persistPending (h : s.Sound) {pending : Aged String String} (hlisted : pending.Listed)
    (hlength : pending.order.length ≤ SUBMISSION_DEDUPE_LIMIT) (outcome rollback : WriteOutcome)
    : (s.persistPending pending outcome rollback).1.Sound := by
  have hpersisted := (h.withPending hlisted hlength).persist outcome
  unfold SubmissionStore.persistPending
  split
  . next hpersist =>
    rw [hpersist] at hpersisted
    exact hpersisted
  . next hpersist =>
    rw [hpersist] at hpersisted
    exact (hpersisted.withPending h.submissions.pending h.submissions.pending_length).persist rollback

theorem Sound.answerCompleted (h : s.Sound) (result : BridgeQueueSubmissionReceipt) (threadId : String)
    (outcome : WriteOutcome)
    : (s.answerCompleted result threadId outcome).1.Sound := by
  unfold SubmissionStore.answerCompleted
  split
  . exact h
  . exact h.persist outcome

theorem Sound.forgetPending (h : s.Sound) (submissionId : String)
    : { s with pending := s.pending.forget submissionId }.Sound :=
  h.withPending (h.submissions.pending.forget submissionId)
    (Nat.le_trans (List.length_filter_le ..) h.submissions.pending_length)

theorem Sound.reservePending (h : s.Sound) (submissionId threadId : String) (outcome rollback : WriteOutcome)
    : (s.persistPending (trimQueuePending (s.pending.put submissionId threadId)) outcome rollback).1.Sound :=
  h.persistPending (wellOrdered_trimQueuePending (h.submissions.pending.put submissionId threadId).nodup).listed
    (length_trimQueuePending_le _) outcome rollback

theorem Sound.withResults (h : s.Sound) {results : Aged String BridgeQueueSubmissionReceipt}
    (hordered : results.WellOrdered) (hlength : results.order.length ≤ SUBMISSION_DEDUPE_LIMIT)
    (hkeyed : ∀ id receipt, results.values.lookup id = some receipt → receipt.submissionId = id)
    : { s with results }.Sound :=
  ⟨{ h.submissions with results := hordered, results_length := hlength, keyed := hkeyed }, h.file⟩

theorem Sound.forgetResult (h : s.Sound) (submissionId : String)
    : { s with results := s.results.forget submissionId }.Sound := by
  apply h.withResults (h.submissions.results.forget submissionId)
  . exact Nat.le_trans (List.length_filter_le ..) h.submissions.results_length
  . intro id receipt hreceipt
    by_cases hid : id = submissionId
    . subst hid
      rw [show (s.results.forget id).values = s.results.values.erase id from rfl, AList.lookup_erase] at hreceipt
      contradiction
    . rw [show (s.results.forget submissionId).values = s.results.values.erase submissionId from rfl,
        AList.lookup_erase_ne hid] at hreceipt
      exact h.submissions.keyed id receipt hreceipt

theorem Sound.rememberResult (h : s.Sound) (result : BridgeQueueSubmissionReceipt)
    : { s with results := (s.results.put result.submissionId result).trimTo SUBMISSION_DEDUPE_LIMIT }.Sound := by
  have hput := h.submissions.results.put result.submissionId result
  have hrest := hput.trimTo SUBMISSION_DEDUPE_LIMIT
  apply h.withResults (hrest.wellOrdered hput.listed) (Aged.length_trimTo_le _ _)
  intro id receipt hreceipt
  rw [hrest.lookup] at hreceipt
  split at hreceipt
  . by_cases hid : id = result.submissionId
    . subst hid
      rw [show (s.results.put result.submissionId result).values
        = s.results.values.insert result.submissionId result from rfl, AList.lookup_insert] at hreceipt
      injection hreceipt with hreceipt
      rw [hreceipt]
    . rw [show (s.results.put result.submissionId result).values
        = s.results.values.insert result.submissionId result from rfl, AList.lookup_insert_ne hid] at hreceipt
      exact h.submissions.keyed id receipt hreceipt
  . contradiction

theorem start_sound {hasPath : Bool} {file : ReadResult DurableQueueReceiptFile}
    (hfile : ∀ bytes content, file = .found { bytes, content := .ok content } → content.Loadable)
    (hstart : start hasPath file = some s)
    : s.Sound := by
  unfold start at hstart
  rcases Option.map_eq_some_iff.mp hstart with ⟨submissions, hload, rfl⟩
  rw [Except.toOption_eq_some] at hload
  exact ⟨loadSubmissionStore_sound hfile hload, hfile⟩

theorem Sound.reserve (h : s.Sound) (submissionId threadId : String) (persists : Bool)
    (outcome rollback : WriteOutcome)
    : (s.reserveSubmission submissionId threadId persists outcome rollback).1.Sound := by
  unfold reserveSubmission
  split
  . exact h
  . split
    . exact h.answerCompleted _ threadId outcome
    . split
      . exact h.reservePending submissionId threadId outcome rollback
      . refine h.withPending ⟨h.submissions.pending.nodup, fun id hid => ?_⟩ h.submissions.pending_length
        exact (AList.mem_insert s.pending.values).mpr (.inr (h.submissions.pending.valued id hid))

theorem step_sound {label : Step} {t : SubmissionStore} (h : s.Sound) (hstep : s.step label = some t)
    : t.Sound := by
  cases label with
  | lookup submissionId threadId outcome =>
    injection hstep with hstep
    subst hstep
    unfold lookupSubmission
    split
    . exact h
    . split
      . exact h.answerCompleted _ threadId outcome
      . exact h
  | reserve submissionId threadId persists outcome rollback =>
    injection hstep with hstep
    exact hstep ▸ h.reserve submissionId threadId persists outcome rollback
  | release submissionId outcome =>
    injection hstep with hstep
    subst hstep
    unfold releaseSubmission
    split
    . exact (h.forgetPending submissionId).persist outcome
    . exact h
  | markDispatchPending submissionId threadId outcome rollback =>
    injection hstep with hstep
    exact hstep ▸ h.reservePending submissionId threadId outcome rollback
  | forgetResult submissionId outcome =>
    injection hstep with hstep
    exact hstep ▸ ((h.forgetResult submissionId).forgetPending submissionId).persist outcome
  | rememberResult result outcome =>
    injection hstep with hstep
    exact hstep ▸ ((h.rememberResult result).forgetPending result.submissionId).persist outcome
  | persist outcome =>
    injection hstep with hstep
    exact hstep ▸ h.persist outcome
  | restart => exact start_sound h.file hstep

/-! What is written and loaded again -/

/--
Everything that is said about the file the store writes: it fits, has the youngest of the results that are
durable, drops pending submissions only when it has no results, and drops nothing when everything fits.
Loading it gives these results as they are in memory.
-/
structure Persists (s : SubmissionStore) (file : DurableQueueReceiptFile) : Prop where
  durable : s.durable = some file
  bytes_le : file.toJson.bytes ≤ QUEUE_RECEIPT_STORE_MAX_BYTES
  results : file.receipts.order <:+ s.results.order.filter fun id => (durableReceipt s.results.values id).isSome
  pending : file.pending.Rest (trimQueuePending s.pending)
  receiptsFirst : file.receipts.order ≠ [] → file.pending = trimQueuePending s.pending
  whole : s.snapshot.toJson.bytes ≤ QUEUE_RECEIPT_STORE_MAX_BYTES → file = s.snapshot
  loaded : ∃ loaded,
    loadSubmissionStore (.found { bytes := file.toJson.bytes, content := .ok file }) = .ok loaded
      ∧ loaded.results.order = file.receipts.order
      ∧ (∀ id, loaded.results.values.lookup id
          = if id ∈ file.receipts.order then s.results.values.lookup id else none)
      ∧ loaded.pending = file.pending

theorem loadedReceipt_of_durable {results : Table String BridgeQueueSubmissionReceipt} {id : String}
    (hkeyed : ∀ id receipt, results.lookup id = some receipt → receipt.submissionId = id)
    (hdurable : (durableReceipt results id).isSome)
    : (durableReceipt results id).map (loadedReceipt id) = results.lookup id := by
  unfold durableReceipt at *
  cases hlookup : results.lookup id with
  | none => rfl
  | some response =>
    rw [hlookup] at hdurable
    have hid := hkeyed id response hlookup
    rcases response with ⟨submissionId, threadId, disposition, turnId⟩
    cases disposition with
    | queued => contradiction
    | sent =>
      cases turnId with
      | none => contradiction
      | some turnId =>
        dsimp only at hid
        subst hid
        rfl

theorem Sound.persists (h : s.Sound) : ∃ file, s.Persists file := by
  have hreceipts := DurableQueueSubmissions.wellOrdered_snapshot h.submissions.results.nodup
  have hpending : s.snapshot.pending.WellOrdered := wellOrdered_trimQueuePending h.submissions.pending.nodup
  rcases DurableQueueSubmissions.exists_durable h.submissions.results.nodup h.submissions.pending.nodup
    with ⟨file, hdurable, hcompacted, hbytes⟩
  have horder := hcompacted.receipts.order
  rw [DurableQueueSubmissions.order_snapshot] at horder
  have hlength : file.receipts.order.length ≤ SUBMISSION_DEDUPE_LIMIT :=
    calc
      file.receipts.order.length ≤ _ := horder.length_le
      _ ≤ s.results.order.length := List.length_filter_le ..
      _ ≤ SUBMISSION_DEDUPE_LIMIT := h.submissions.results_length
  have hpendingLength : file.pending.order.length ≤ SUBMISSION_DEDUPE_LIMIT :=
    Nat.le_trans hcompacted.pending.order.length_le (length_trimQueuePending_le s.pending)
  refine ⟨file, hdurable, hbytes, horder, hcompacted.pending, hcompacted.receiptsFirst, ?_, ?_⟩
  . intro hfits
    unfold DurableQueueSubmissions.durable at hdurable
    rw [Compaction.run_of_le hfits] at hdurable
    injection hdurable with hdurable
    exact hdurable.symm
  . refine ⟨_, loadSubmissionStore_of_wellOrdered (hcompacted.receipts.wellOrdered hreceipts.listed)
      (hcompacted.pending.wellOrdered hpending.listed) hlength hpendingLength hbytes, rfl, ?_, rfl⟩
    intro id
    dsimp only
    rw [Table.lookup_mapValues, hcompacted.receipts.lookup]
    split
    . next hid =>
      rw [DurableQueueSubmissions.lookup_snapshot, if_pos (hcompacted.receipts.order.subset hid)]
      exact loadedReceipt_of_durable h.submissions.keyed (List.mem_filter.mp (horder.subset hid)).2
    . rfl

/--
What a persisting call leaves in the file.
-/
theorem Persists.written {file : DurableQueueReceiptFile} (h : s.Persists file) (hpath : s.hasPath)
    : s.persistSubmissionStore .written
        =
      ({ s with file := .found { bytes := file.toJson.bytes, content := .ok file }, dirty := false }, .ok ()) := by
  unfold persistSubmissionStore
  rw [if_pos hpath, h.durable]
  rfl

end SubmissionStore

end Idempotency
