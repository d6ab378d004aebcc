import Mathlib.Data.String.Basic
import TetherBridge.Data.Aged
import TetherBridge.Data.Json

/-!
This module contains the store of submissions in `queue_service.rs`: what is remembered of the ones that
have been answered and of the ones whose outcome is pending, and the file it is written to and loaded from.
-/

namespace Idempotency

def USIZE_MAX : Nat := 2 ^ 64 - 1
def SUBMISSION_DEDUPE_LIMIT : Nat := 1024
def QUEUE_RECEIPT_STORE_MAX_BYTES : Nat := 1024 * 1024

/-! Files -/

/--
A file is its length and the value that `serde_json` reads from it, or the error.
-/
structure StoredFile (φ : Type) where
  bytes : Nat
  content : Except String φ

/--
The outcomes of `tokio::fs::read`.
-/
inductive ReadResult (φ : Type) where
  | notFound
  | failed (error : String)
  | found (file : StoredFile φ)

/--
The outcomes of `atomic_write_private`. A write that fails has published the new file or has left the old one.
-/
inductive WriteOutcome where
  | written
  | failed (published : Bool) (error : String)

/--
The file after a write.
-/
def WriteOutcome.publish {φ : Type} (outcome : WriteOutcome) (bytes : Nat) (content : φ) (before : ReadResult φ)
    : ReadResult φ :=
  match outcome with
  | .written | .failed true _ => .found { bytes, content := .ok content }
  | .failed false _ => before

def tableJson {β : Type} (toJson : β → Json) (table : Table String β) : Json :=
  .object (table.entries.map fun entry => (entry.1, toJson entry.2))

def orderJson (order : List String) : Json :=
  .array (order.map .string)

/--
What `trim_queue_pending`, `trim_pending_map` and `trim_pending_set` do.
-/
def trimPending {β : Type} (limit : Nat) (pending : Aged String β) : Aged String β :=
  (pending.listMissing (· ≤ ·)).trimTo limit

/-! The submissions -/

inductive BridgeThreadQueueDisposition where
  | queued
  | sent
  deriving DecidableEq, Repr

structure BridgeQueueSubmissionReceipt where
  submissionId : String
  threadId : String
  disposition : BridgeThreadQueueDisposition
  turnId : Option String
  deriving DecidableEq, Repr

structure DurableQueueReceipt where
  threadId : String
  turnId : String
  deriving DecidableEq, Repr

def DurableQueueReceipt.toJson (receipt : DurableQueueReceipt) : Json :=
  .object [("threadId", .string receipt.threadId), ("turnId", .string receipt.turnId)]

/--
The results that are kept, and the threads of the pending submissions.
-/
structure DurableQueueSubmissions where
  results : Aged String BridgeQueueSubmissionReceipt := {}
  pending : Aged String String := {}

/--
The content of `queue-idempotency.json`.
-/
structure DurableQueueReceiptFile where
  receipts : Aged String DurableQueueReceipt := {}
  pending : Aged String String := {}

def DurableQueueReceiptFile.toJson (file : DurableQueueReceiptFile) : Json :=
  .object
    [("receipts", tableJson DurableQueueReceipt.toJson file.receipts.values),
      ("order", orderJson file.receipts.order),
      ("pending", tableJson .string file.pending.values),
      ("pendingOrder", orderJson file.pending.order)]

def trimQueuePending (pending : Aged String String) : Aged String String :=
  trimPending SUBMISSION_DEDUPE_LIMIT pending

/-! Loading -/

def loadedReceipt (submissionId : String) (receipt : DurableQueueReceipt) : BridgeQueueSubmissionReceipt where
  submissionId
  threadId := receipt.threadId
  disposition := .sent
  turnId := some receipt.turnId

def loadSubmissionStore (file : ReadResult DurableQueueReceiptFile) : Except String DurableQueueSubmissions :=
  match file with
  | .notFound => .ok {}
  | .failed error => .error ("failed to read queue idempotency state: " ++ error)
  | .found file =>
    if QUEUE_RECEIPT_STORE_MAX_BYTES < file.bytes then
      .error ("queue idempotency state exceeds " ++ toString QUEUE_RECEIPT_STORE_MAX_BYTES ++ " bytes")
    else
      match file.content with
      | .error error => .error ("invalid queue idempotency state: " ++ error)
      | .ok state =>
        let receipts := (state.receipts.trimTo SUBMISSION_DEDUPE_LIMIT).retainListed
        .ok {
          results := { values := Table.mapValues loadedReceipt receipts.values, order := receipts.order }
          pending := trimQueuePending state.pending
        }

/-! Writing -/

/--
What is written of a result: a turn that was started.
-/
def durableReceipt (results : Table String BridgeQueueSubmissionReceipt) (submissionId : String)
    : Option DurableQueueReceipt :=
  match results.lookup submissionId with
  | none => none
  | some response =>
    if response.disposition = .sent then
      response.turnId.map fun turnId => { threadId := response.threadId, turnId }
    else none

def recordReceipt (results : Table String BridgeQueueSubmissionReceipt)
    (receipts : Aged String DurableQueueReceipt) (submissionId : String)
    : Aged String DurableQueueReceipt :=
  match durableReceipt results submissionId with
  | none => receipts
  | some receipt =>
    { values := receipts.values.insert submissionId receipt, order := receipts.order ++ [submissionId] }

/--
What is written when nothing has to be dropped.
-/
def DurableQueueSubmissions.snapshot (submissions : DurableQueueSubmissions) : DurableQueueReceiptFile where
  receipts := submissions.results.order.foldl (recordReceipt submissions.results.values) {}
  pending := trimQueuePending submissions.pending

/--
The results are dropped before the pending submissions.
-/
def receiptCompaction : Compaction DurableQueueReceiptFile where
  size file := file.toJson.bytes
  count file := file.receipts.order.length + file.pending.order.length
  drop batch file :=
    if file.receipts.order = [] then
      { file with pending := file.pending.dropOldest (min batch file.pending.order.length) }
    else
      { file with receipts := file.receipts.dropOldest (min batch file.receipts.order.length) }
  count_drop batch file hbatch hcount := by
    split
    . next hempty =>
      rw [hempty] at hcount ⊢
      rw [Aged.order_dropOldest, List.length_drop]
      simp only [List.length_nil] at hcount ⊢
      omega
    . next hne =>
      have hpos := List.length_pos_of_ne_nil hne
      dsimp only
      rw [Aged.order_dropOldest, List.length_drop]
      omega

/--
What is written.
-/
def DurableQueueSubmissions.durable (submissions : DurableQueueSubmissions) : Option DurableQueueReceiptFile :=
  receiptCompaction.run USIZE_MAX QUEUE_RECEIPT_STORE_MAX_BYTES submissions.snapshot

/--
The part of `BridgeQueueService` that is about submissions, with the file if there is a path for one.
-/
structure SubmissionStore extends DurableQueueSubmissions where
  dirty : Bool := false
  hasPath : Bool := true
  file : ReadResult DurableQueueReceiptFile := .notFound

namespace SubmissionStore

variable (s : SubmissionStore)

def persistSubmissionStore (outcome : WriteOutcome) : SubmissionStore × Except String Unit :=
  if s.hasPath then
    match s.durable with
    | none => ({ s with dirty := true }, .error "queue idempotency state exceeds its byte budget")
    | some durable =>
      let file := outcome.publish durable.toJson.bytes durable s.file
      match outcome with
      | .written => ({ s with file, dirty := false }, .ok ())
      | .failed _ error =>
        ({ s with file, dirty := true }, .error ("failed to persist queue idempotency state: " ++ error))
  else
    ({ s with dirty := false }, .ok ())

/--
What a submission is answered that is pending.
-/
def pendingError (pendingThreadId threadId : String) : String :=
  if pendingThreadId ≠ threadId then "submissionId is already bound to another thread"
  else
    "submission outcome is indeterminate after a worker interruption; refresh the thread before choosing a new submissionId"

/--
Answer a submission that has a result already.
-/
def answerCompleted (result : BridgeQueueSubmissionReceipt) (threadId : String) (outcome : WriteOutcome)
    : SubmissionStore × Except String (Option BridgeQueueSubmissionReceipt) :=
  if result.threadId ≠ threadId then
    (s, .error "submissionId is already bound to another thread")
  else
    let (s, answer) := s.persistSubmissionStore outcome
    (s, answer.map fun _ => some result)

/--
Persist a change of the pending submissions. When the write fails they are set back, and written once more.
-/
def persistPending (pending : Aged String String) (outcome rollback : WriteOutcome)
    : SubmissionStore × Except String Unit :=
  match { s with pending }.persistSubmissionStore outcome with
  | (s', .ok ()) => (s', .ok ())
  | (s', .error error) => ({ s' with pending := s.pending }.persistSubmissionStore rollback |>.1, .error error)

def lookupSubmission (submissionId threadId : String) (outcome : WriteOutcome)
    : SubmissionStore × Except String (Option BridgeQueueSubmissionReceipt) :=
  match s.pending.values.lookup submissionId with
  | some pendingThreadId => (s, .error (pendingError pendingThreadId threadId))
  | none =>
    match s.results.values.lookup submissionId with
    | some result => s.answerCompleted result threadId outcome
    | none => (s, .ok none)

def reserveSubmission (submissionId threadId : String) (persists : Bool) (outcome rollback : WriteOutcome)
    : SubmissionStore × Except String (Option BridgeQueueSubmissionReceipt) :=
  match s.pending.values.lookup submissionId with
  | some pendingThreadId => (s, .error (pendingError pendingThreadId threadId))
  | none =>
    match s.results.values.lookup submissionId with
    | some result => s.answerCompleted result threadId outcome
    | none =>
      if persists then
        let (s, answer) :=
          s.persistPending (trimQueuePending (s.pending.put submissionId threadId)) outcome rollback
        (s, answer.map fun _ => none)
      else
        -- A submission that is only queued is not put into the order, and not written.
        let pending := { s.pending with values := s.pending.values.insert submissionId threadId }
        ({ s with pending }, .ok none)

def releaseSubmission (submissionId : String) (outcome : WriteOutcome) : SubmissionStore × Except String Unit :=
  if submissionId ∈ s.pending.values then
    { s with pending := s.pending.forget submissionId }.persistSubmissionStore outcome
  else
    (s, .ok ())

def markSubmissionDispatchPending (submissionId threadId : String) (outcome rollback : WriteOutcome)
    : SubmissionStore × Except String Unit :=
  s.persistPending (trimQueuePending (s.pending.put submissionId threadId)) outcome rollback

def forgetSubmissionResult (submissionId : String) (outcome : WriteOutcome)
    : SubmissionStore × Except String Unit :=
  let results := s.results.forget submissionId
  let pending := s.pending.forget submissionId
  { s with results, pending }.persistSubmissionStore outcome

def rememberSubmissionResult (result : BridgeQueueSubmissionReceipt) (outcome : WriteOutcome)
    : SubmissionStore × Except String Unit :=
  let results := (s.results.put result.submissionId result).trimTo SUBMISSION_DEDUPE_LIMIT
  let pending := s.pending.forget result.submissionId
  { s with results, pending }.persistSubmissionStore outcome

/--
The calls of the store, each under its lock, and a restart of the bridge.
-/
inductive Step where
  | lookup (submissionId threadId : String) (outcome : WriteOutcome)
  | reserve (submissionId threadId : String) (persists : Bool) (outcome rollback : WriteOutcome)
  | release (submissionId : String) (outcome : WriteOutcome)
  | markDispatchPending (submissionId threadId : String) (outcome rollback : WriteOutcome)
  | forgetResult (submissionId : String) (outcome : WriteOutcome)
  | rememberResult (result : BridgeQueueSubmissionReceipt) (outcome : WriteOutcome)
  | persist (outcome : WriteOutcome)
  | restart

/--
A bridge that cannot load the file does not start.
-/
def start (hasPath : Bool) (file : ReadResult DurableQueueReceiptFile) : Option SubmissionStore :=
  (loadSubmissionStore file).toOption.map fun submissions =>
    { toDurableQueueSubmissions := submissions, hasPath, file }

def step : Step → Option SubmissionStore
  | .lookup submissionId threadId outcome => some (s.lookupSubmission submissionId threadId outcome).1
  | .reserve submissionId threadId persists outcome rollback =>
    some (s.reserveSubmission submissionId threadId persists outcome rollback).1
  | .release submissionId outcome => some (s.releaseSubmission submissionId outcome).1
  | .markDispatchPending submissionId threadId outcome rollback =>
    some (s.markSubmissionDispatchPending submissionId threadId outcome rollback).1
  | .forgetResult submissionId outcome => some (s.forgetSubmissionResult submissionId outcome).1
  | .rememberResult result outcome => some (s.rememberSubmissionResult result outcome).1
  | .persist outcome => some (s.persistSubmissionStore outcome).1
  | .restart => start s.hasPath s.file

end SubmissionStore

end Idempotency
