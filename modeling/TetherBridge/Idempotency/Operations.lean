import TetherBridge.Idempotency.Submissions

/-!
This module contains the store of operations in `app_state.rs` and the requests in `websocket_transport.rs`
that use it: thread creations, forks and approval resolutions that are pending or have a result.
-/

namespace Idempotency

def OPERATION_DEDUPE_MAX_BYTES : Nat := 16 * 1024 * 1024
def APPROVAL_RESOLUTION_DEDUPE_LIMIT : Nat := 1024

/-! What is stored -/

structure BridgeThreadCreateResponse where
  submissionId : String
  thread : Json

structure BridgeThreadForkResponse where
  submissionId : String
  thread : Json

structure BridgeThreadForkCacheEntry where
  sourceThreadId : String
  messageId : String
  response : BridgeThreadForkResponse

structure PendingForkOperation where
  sourceThreadId : String
  messageId : String

structure PendingApprovalOperation where
  requestId : String
  decision : String

def BridgeThreadCreateResponse.toJson (response : BridgeThreadCreateResponse) : Json :=
  .object [("submissionId", .string response.submissionId), ("thread", response.thread)]

def BridgeThreadForkResponse.toJson (response : BridgeThreadForkResponse) : Json :=
  .object [("submissionId", .string response.submissionId), ("thread", response.thread)]

def BridgeThreadForkCacheEntry.toJson (entry : BridgeThreadForkCacheEntry) : Json :=
  .object
    [("sourceThreadId", .string entry.sourceThreadId), ("messageId", .string entry.messageId),
      ("response", entry.response.toJson)]

def PendingForkOperation.toJson (operation : PendingForkOperation) : Json :=
  .object [("sourceThreadId", .string operation.sourceThreadId), ("messageId", .string operation.messageId)]

def PendingApprovalOperation.toJson (operation : PendingApprovalOperation) : Json :=
  .object [("requestId", .string operation.requestId), ("decision", .string operation.decision)]

/--
The state of the store and the content of `operation-idempotency.json`. A set is a table without values.
-/
structure DurableOperationDedupe where
  threadCreateResults : Aged String BridgeThreadCreateResponse := {}
  threadCreatePending : Aged String Unit := {}
  threadForkResults : Aged String BridgeThreadForkCacheEntry := {}
  threadForkPending : Aged String PendingForkOperation := {}
  approvalResolutionResults : Aged String Json := {}
  approvalResolutionPending : Aged String PendingApprovalOperation := {}

namespace DurableOperationDedupe

variable (state : DurableOperationDedupe)

def toJson : Json :=
  .object
    [("threadCreateResults", tableJson BridgeThreadCreateResponse.toJson state.threadCreateResults.values),
      ("threadCreateOrder", orderJson state.threadCreateResults.order),
      ("threadCreatePending", orderJson state.threadCreatePending.values.keys),
      ("threadCreatePendingOrder", orderJson state.threadCreatePending.order),
      ("threadForkResults", tableJson BridgeThreadForkCacheEntry.toJson state.threadForkResults.values),
      ("threadForkOrder", orderJson state.threadForkResults.order),
      ("threadForkPending", tableJson PendingForkOperation.toJson state.threadForkPending.values),
      ("threadForkPendingOrder", orderJson state.threadForkPending.order),
      ("approvalResolutionResults", tableJson id state.approvalResolutionResults.values),
      ("approvalResolutionOrder", orderJson state.approvalResolutionResults.order),
      ("approvalResolutionPending",
        tableJson PendingApprovalOperation.toJson state.approvalResolutionPending.values),
      ("approvalResolutionPendingOrder", orderJson state.approvalResolutionPending.order)]

/-! Reserving and releasing -/

def reserve {β : Type} (limit : Nat) (submissionId : String) (operation : β) (pending : Aged String β)
    : Aged String β :=
  trimPending limit (pending.put submissionId operation)

def reserveThreadCreate (submissionId : String) : DurableOperationDedupe :=
  { state with
    threadCreatePending := reserve SUBMISSION_DEDUPE_LIMIT submissionId () state.threadCreatePending }

def releaseThreadCreate (submissionId : String) : DurableOperationDedupe :=
  { state with threadCreatePending := state.threadCreatePending.forget submissionId }

def reserveThreadFork (submissionId : String) (operation : PendingForkOperation) : DurableOperationDedupe :=
  { state with
    threadForkPending := reserve SUBMISSION_DEDUPE_LIMIT submissionId operation state.threadForkPending }

def releaseThreadFork (submissionId : String) : DurableOperationDedupe :=
  { state with threadForkPending := state.threadForkPending.forget submissionId }

def reserveApprovalResolution (resolutionId : String) (operation : PendingApprovalOperation)
    : DurableOperationDedupe :=
  { state with
    approvalResolutionPending :=
      reserve APPROVAL_RESOLUTION_DEDUPE_LIMIT resolutionId operation state.approvalResolutionPending }

def releaseApprovalResolution (resolutionId : String) : DurableOperationDedupe :=
  { state with approvalResolutionPending := state.approvalResolutionPending.forget resolutionId }

/-! The results of the requests -/

/--
Insert a result. Its id is appended to the order without a look at what is there.
-/
def record {β : Type} (limit : Nat) (submissionId : String) (result : β) (results : Aged String β)
    : Aged String β :=
  Aged.trimTo limit
    { values := results.values.insert submissionId result, order := results.order ++ [submissionId] }

def recordThreadCreate (response : BridgeThreadCreateResponse) : DurableOperationDedupe :=
  { state with
    threadCreateResults := record SUBMISSION_DEDUPE_LIMIT response.submissionId response state.threadCreateResults }
  |>.releaseThreadCreate response.submissionId

def recordThreadFork (entry : BridgeThreadForkCacheEntry) : DurableOperationDedupe :=
  { state with
    threadForkResults :=
      record SUBMISSION_DEDUPE_LIMIT entry.response.submissionId entry state.threadForkResults }
  |>.releaseThreadFork entry.response.submissionId

def recordApprovalResolution (resolutionId : String) (result : Json) : DurableOperationDedupe :=
  { state with
    approvalResolutionResults :=
      record APPROVAL_RESOLUTION_DEDUPE_LIMIT resolutionId result state.approvalResolutionResults }
  |>.releaseApprovalResolution resolutionId

/-! Compaction -/

/--
The state without its results.
-/
def pendingOnly : DurableOperationDedupe :=
  { state with threadCreateResults := {}, threadForkResults := {}, approvalResolutionResults := {} }

def resultCount : Nat :=
  state.threadCreateResults.order.length + state.threadForkResults.order.length
    + state.approvalResolutionResults.order.length

/--
Drop the oldest result: of a creation if there is one, else of a fork, else of an approval.
-/
def dropResult : DurableOperationDedupe :=
  if state.threadCreateResults.order ≠ [] then
    { state with threadCreateResults := state.threadCreateResults.dropOldest 1 }
  else if state.threadForkResults.order ≠ [] then
    { state with threadForkResults := state.threadForkResults.dropOldest 1 }
  else
    { state with approvalResolutionResults := state.approvalResolutionResults.dropOldest 1 }

def dropResults : Nat → DurableOperationDedupe → DurableOperationDedupe
  | 0, state => state
  | count + 1, state => if state.resultCount = 0 then state else dropResults count state.dropResult

theorem resultCount_dropResult (h : 0 < state.resultCount)
    : state.dropResult.resultCount + 1 = state.resultCount := by
  unfold dropResult
  split
  . next hne =>
    have hpos := List.length_pos_of_ne_nil hne
    unfold resultCount
    dsimp only
    rw [Aged.order_dropOldest, List.length_drop]
    omega
  . next hcreate =>
    rw [not_not] at hcreate
    split
    . next hne =>
      have hpos := List.length_pos_of_ne_nil hne
      unfold resultCount
      dsimp only
      rw [Aged.order_dropOldest, List.length_drop]
      omega
    . next hfork =>
      rw [not_not] at hfork
      unfold resultCount at *
      dsimp only
      rw [hcreate, hfork] at h ⊢
      rw [Aged.order_dropOldest, List.length_drop]
      simp only [List.length_nil] at h ⊢
      omega

theorem resultCount_dropResults (count : Nat)
    : (dropResults count state).resultCount = state.resultCount - count := by
  induction count generalizing state with
  | zero => rfl
  | succ count ih =>
    unfold dropResults
    split
    . omega
    . rw [ih]
      have hdrop := resultCount_dropResult state (by omega)
      omega

def resultCompaction : Compaction DurableOperationDedupe where
  size state := state.toJson.bytes
  count := resultCount
  drop := dropResults
  count_drop batch state hbatch hcount := by
    rw [resultCount_dropResults]
    omega

/--
What is written, unless the pending operations are too many.
-/
@[irreducible]
def durable : Option DurableOperationDedupe :=
  if OPERATION_DEDUPE_MAX_BYTES < state.pendingOnly.toJson.bytes then none
  else resultCompaction.run USIZE_MAX OPERATION_DEDUPE_MAX_BYTES state

end DurableOperationDedupe

/-! Loading -/

def trimDedupe {β : Type} (limit : Nat) (results : Aged String β) : Aged String β :=
  (results.trimTo limit).retainListed

def loadOperationDedupe (file : ReadResult DurableOperationDedupe) : Except String DurableOperationDedupe :=
  match file with
  | .notFound => .ok {}
  | .failed error => .error ("failed to read operation idempotency state: " ++ error)
  | .found file =>
    if OPERATION_DEDUPE_MAX_BYTES < file.bytes then
      .error ("operation idempotency state exceeds " ++ toString OPERATION_DEDUPE_MAX_BYTES ++ " bytes")
    else
      match file.content with
      | .error error => .error ("invalid operation idempotency state: " ++ error)
      | .ok state =>
        .ok {
          threadCreateResults := trimDedupe SUBMISSION_DEDUPE_LIMIT state.threadCreateResults
          threadForkResults := trimDedupe SUBMISSION_DEDUPE_LIMIT state.threadForkResults
          approvalResolutionResults :=
            trimDedupe APPROVAL_RESOLUTION_DEDUPE_LIMIT state.approvalResolutionResults
          threadCreatePending := trimPending SUBMISSION_DEDUPE_LIMIT state.threadCreatePending
          threadForkPending := trimPending SUBMISSION_DEDUPE_LIMIT state.threadForkPending
          approvalResolutionPending :=
            trimPending APPROVAL_RESOLUTION_DEDUPE_LIMIT state.approvalResolutionPending
        }

/-! The requests -/

inductive OperationKind where
  | threadCreate
  | threadFork
  | approvalResolution
  deriving DecidableEq, Repr

/--
What a request reserves.
-/
inductive Reservation where
  | threadCreate (submissionId : String)
  | threadFork (submissionId : String) (operation : PendingForkOperation)
  | approvalResolution (resolutionId : String) (operation : PendingApprovalOperation)

namespace Reservation

def kind : Reservation → OperationKind
  | .threadCreate _ => .threadCreate
  | .threadFork _ _ => .threadFork
  | .approvalResolution _ _ => .approvalResolution

def id : Reservation → String
  | .threadCreate submissionId => submissionId
  | .threadFork submissionId _ => submissionId
  | .approvalResolution resolutionId _ => resolutionId

def reserve (state : DurableOperationDedupe) : Reservation → DurableOperationDedupe
  | .threadCreate submissionId => state.reserveThreadCreate submissionId
  | .threadFork submissionId operation => state.reserveThreadFork submissionId operation
  | .approvalResolution resolutionId operation => state.reserveApprovalResolution resolutionId operation

end Reservation

def DurableOperationDedupe.release (state : DurableOperationDedupe) (id : String)
    : OperationKind → DurableOperationDedupe
  | .threadCreate => state.releaseThreadCreate id
  | .threadFork => state.releaseThreadFork id
  | .approvalResolution => state.releaseApprovalResolution id

/--
Whether a request with this id is answered from the store: it has a result, or its outcome is pending.
-/
def DurableOperationDedupe.answers (state : DurableOperationDedupe) (id : String) : OperationKind → Bool
  | .threadCreate => id ∈ state.threadCreateResults.values || id ∈ state.threadCreatePending.values
  | .threadFork => id ∈ state.threadForkResults.values || id ∈ state.threadForkPending.values
  | .approvalResolution =>
    id ∈ state.approvalResolutionResults.values || id ∈ state.approvalResolutionPending.values

/--
The result of a request whose id is known.
-/
inductive Completion where
  | threadCreate (thread : Json)
  | threadFork (sourceThreadId messageId : String) (thread : Json)
  | approvalResolution (result : Json)

namespace Completion

def kind : Completion → OperationKind
  | .threadCreate _ => .threadCreate
  | .threadFork _ _ _ => .threadFork
  | .approvalResolution _ => .approvalResolution

def record (state : DurableOperationDedupe) (id : String) : Completion → DurableOperationDedupe
  | .threadCreate thread => state.recordThreadCreate { submissionId := id, thread }
  | .threadFork sourceThreadId messageId thread =>
    state.recordThreadFork { sourceThreadId, messageId, response := { submissionId := id, thread } }
  | .approvalResolution result => state.recordApprovalResolution id result

end Completion

/--
The store, its file, and the id of the request that holds the lock of each kind after it was reserved.
-/
structure OperationStore where
  state : DurableOperationDedupe
  dirty : Bool := false
  file : ReadResult DurableOperationDedupe := .notFound
  active : OperationKind → Option String := fun _ => none

namespace OperationStore

variable (s : OperationStore)

def persistOperationDedupe (outcome : WriteOutcome) : OperationStore × Except String Unit :=
  match s.state.durable with
  | none =>
    ({ s with dirty := true },
      .error "failed to persist request idempotency: pending operation idempotency state exceeds its byte budget")
  | some durable =>
    let file := outcome.publish durable.toJson.bytes durable s.file
    match outcome with
    | .written => ({ s with file, dirty := false }, .ok ())
    | .failed _ error => ({ s with file, dirty := true }, .error ("failed to persist request idempotency: " ++ error))

/--
Change the state and persist it. When the write fails the state is set back, and written once more.
-/
def updateOperationDedupe (state : DurableOperationDedupe) (outcome rollback : WriteOutcome)
    : OperationStore × Except String Unit :=
  match { s with state }.persistOperationDedupe outcome with
  | (s', .ok ()) => (s', .ok ())
  | (s', .error error) => ({ s' with state := s.state }.persistOperationDedupe rollback |>.1, .error error)

/--
The writes of one request, in turn.
-/
structure Writes where
  outcome : WriteOutcome
  rollback : WriteOutcome
  release : WriteOutcome
  releaseRollback : WriteOutcome

/--
The steps of the requests of a kind, of which one has the lock, and what is independent of them.
-/
inductive Step where
  | reserve (reservation : Reservation) (writes : Writes)
  | complete (completion : Completion) (outcome rollback : WriteOutcome)
  | failDefinitively (kind : OperationKind) (outcome rollback : WriteOutcome)
  | failIndeterminately (kind : OperationKind)
  | persist (outcome : WriteOutcome)
  | restart

def setActive (kind : OperationKind) (id : Option String) : OperationStore :=
  { s with active := fun other => if other = kind then id else s.active other }

def start (file : ReadResult DurableOperationDedupe) : Option OperationStore :=
  (loadOperationDedupe file).toOption.map fun state => { state, file }

def step : Step → Option OperationStore
  | .reserve reservation writes =>
    if (s.active reservation.kind).isSome ∨ s.state.answers reservation.id reservation.kind then none
    else
      match s.updateOperationDedupe (reservation.reserve s.state) writes.outcome writes.rollback with
      | (s', .ok ()) => some (s'.setActive reservation.kind (some reservation.id))
      | (s', .error _) =>
        some (s'.updateOperationDedupe (s'.state.release reservation.id reservation.kind)
          writes.release writes.releaseRollback).1
  | .complete completion outcome rollback =>
    (s.active completion.kind).map fun id =>
      (s.updateOperationDedupe (completion.record s.state id) outcome rollback).1.setActive completion.kind none
  | .failDefinitively kind outcome rollback =>
    (s.active kind).map fun id =>
      (s.updateOperationDedupe (s.state.release id kind) outcome rollback).1.setActive kind none
  | .failIndeterminately kind => (s.active kind).map fun _ => s.setActive kind none
  | .persist outcome => some (s.persistOperationDedupe outcome).1
  | .restart => start s.file

end OperationStore

end Idempotency
