import TetherBridge.Data.Js
import TetherBridge.Data.Recent

/-!
This module contains `SubmissionController` and its `SubmissionIdempotencyCache`: the submissions that are
begun, fail and succeed, what is remembered of the failed ones in memory and in a file, and restarts that
load the file.
-/

namespace Mobile

open Js

def FAILED_SUBMISSION_LIMIT : Nat := 32
def SUBMISSION_IDEMPOTENCY_LIMIT : Nat := 32
def SUBMISSION_IDEMPOTENCY_TTL_MS : Nat := 24 * 60 * 60 * 1000

/--
What is submitted, and where. `JSON.stringify` of the four is the key of a retry in memory: it is the
same for two requests only if they are the same.
-/
structure SubmissionRequest where
  scopeKey : String
  draft : String
  mentions : List String
  localImages : List String
  deriving DecidableEq

/-! The hash of a request -/

def fnv1a (value : List UInt32) (seed : UInt32) : UInt32 :=
  value.foldl (fun hash code => (hash ^^^ code) * 0x01000193) seed

def hashSubmissionRequest (request : SubmissionRequest) : List Char :=
  let payload := stringifyArray
    [stringifyString request.draft, stringifyStrings request.mentions,
      stringifyStrings request.localImages]
  let codes := payload.flatMap charCodes
  let low := fnv1a codes 0x811c9dc5
  let high := fnv1a codes (0x9e3779b9 ^^^ low)
  hex8 low ++ hex8 high

def buildKey (scopeKey : String) (requestHash : List Char) : List Char :=
  scopeKey.toList ++ [Char.ofNat 0] ++ requestHash

def SubmissionRequest.storeKey (request : SubmissionRequest) : List Char :=
  buildKey request.scopeKey (hashSubmissionRequest request)

/-! The store -/

structure SubmissionIdempotencyRecord where
  submissionId : String
  updatedAt : Nat
  deriving DecidableEq

/--
The entries of the store, in the order of the keys of the object.
-/
abbrev SubmissionEntries := List (List Char × SubmissionIdempotencyRecord)

def isFresh (now : Nat) (entry : List Char × SubmissionIdempotencyRecord) : Bool :=
  now - entry.2.updatedAt ≤ SUBMISSION_IDEMPOTENCY_TTL_MS

def pruneSubmissionIdempotencyEntries (entries : SubmissionEntries) (now : Nat) : SubmissionEntries :=
  ((entries.filter (isFresh now)).insertionSort fun a b => a.2.updatedAt ≤ b.2.updatedAt).keepLast
    SUBMISSION_IDEMPOTENCY_LIMIT

def parseSubmissionIdempotencyEntry (entry : List Char × SubmissionIdempotencyRecord)
    : Option (List Char × SubmissionIdempotencyRecord) :=
  let submissionId := trim entry.2.submissionId
  if trimChars entry.1 ≠ [] ∧ submissionId ≠ "" then
    some (entry.1, { entry.2 with submissionId })
  else
    none

/--
The entries of a file. A file is modelled by the entries that were printed to it.
-/
def parseSubmissionIdempotencyEntries (entries : SubmissionEntries) (now : Nat) : SubmissionEntries :=
  pruneSubmissionIdempotencyEntries (entries.filterMap parseSubmissionIdempotencyEntry) now

/-! The controller -/

inductive SubmissionStatus where
  | outstanding
  | failed
  | succeeded
  /-- was outstanding or failed before a restart -/
  | gone
  deriving DecidableEq

structure ComposerSubmission where
  id : String
  request : SubmissionRequest
  clearedRevision : Option Nat := none
  status : SubmissionStatus := .outstanding

structure SubmissionDraftSnapshot where
  scopeKey : String
  value : String
  revision : Nat

/--
A failure after which its request was not begun again.
-/
structure Retry where
  request : SubmissionRequest
  id : String
  failedAt : Nat
  /-- which failure it was -/
  ordinal : Nat
  /-- the app was restarted since -/
  restarted : Bool := false

structure SubmissionApp where
  /-- the submissions that can be retried, by their place among `submissions` -/
  failed : List (SubmissionRequest × Nat) := []
  counter : Nat := 0
  entries : SubmissionEntries := []
  loaded : Bool := false
  /-- what `load` has read -/
  read : Option SubmissionEntries := none
  writes : List SubmissionEntries := []
  file : SubmissionEntries := []
  now : Nat := 0
  submissions : List ComposerSubmission := []
  succeeded : List String := []
  failures : Nat := 0
  retries : List Retry := []

inductive SubmissionLabel where
  /-- `begin`, with what `createId` and the nonce would be -/
  | begins (request : SubmissionRequest) (createdId nonce : String)
  | markCleared (index revision : Nat)
  | fails (index : Nat) (current : SubmissionDraftSnapshot)
  | succeeds (index : Nat)
  /-- the next write of the chain ends -/
  | write (ok : Bool)
  /-- `load` has read the file, or could not -/
  | read (ok : Bool)
  | finishLoad
  | restart
  | wait (duration : Nat)

namespace SubmissionApp

variable (s : SubmissionApp)

/--
The id of the submission of this session that would be retried.
-/
def failedId (request : SubmissionRequest) : Option String :=
  (s.failed.lookup request).bind fun index => s.submissions[index]?.map (·.id)

def lookup (request : SubmissionRequest) : Option String :=
  match s.entries.lookup request.storeKey with
  | some record =>
    if s.now - record.updatedAt ≤ SUBMISSION_IDEMPOTENCY_TTL_MS then some record.submissionId else none
  | none => none

/--
What `begin` takes from the store.
-/
def persistedId (request : SubmissionRequest) : Option String :=
  (s.lookup request).filter fun id => id ≠ ""

/--
The id a request is begun with again.
-/
def retryId (request : SubmissionRequest) : Option String :=
  match s.failedId request with
  | some id => some id
  | none => s.persistedId request

/--
`lookup` deletes an entry that is too old.
-/
def forgetExpired (request : SubmissionRequest) : SubmissionEntries :=
  match s.entries.lookup request.storeKey with
  | some record =>
    if s.now - record.updatedAt ≤ SUBMISSION_IDEMPOTENCY_TTL_MS then s.entries
    else s.entries.forget request.storeKey
  | none => s.entries

def createSubmissionId (createdId nonce : String) : String :=
  if trim createdId ≠ "" then
    trim createdId
  else
    "submission-" ++ nonce ++ "-" ++ String.ofList (toRadix 36 (s.counter + 1))

def setSubmission (index : Nat) (submission : ComposerSubmission) : SubmissionApp :=
  { s with submissions := s.submissions.set index submission }

def addSubmission (id : String) (request : SubmissionRequest) : SubmissionApp :=
  { s with submissions := s.submissions ++ [{ id, request }] }

def dropRetries (p : Retry → Bool) : SubmissionApp :=
  { s with retries := s.retries.filter fun retry => !p retry }

/--
`begin`: retry what failed in this session, else take the id from the store, else a new one.
-/
def begins (request : SubmissionRequest) (createdId nonce : String) : Option SubmissionApp :=
  let s' := s.dropRetries fun retry => retry.request = request
  match s.failed.lookup request with
  | some index =>
    s.submissions[index]?.map fun submission =>
      { s' with failed := s.failed.forget request }.setSubmission index
        { submission with clearedRevision := none, status := .outstanding }
  | none =>
    let s' := { s' with entries := s.forgetExpired request }
    match s.persistedId request with
    | some id => some (s'.addSubmission id request)
    | none =>
      some ({ s' with counter := s.counter + 1 }.addSubmission (s.createSubmissionId createdId nonce)
        request)

/--
`persist`: the entries are written after those of earlier calls.
-/
def persist (entries : SubmissionEntries) : SubmissionApp :=
  { s with entries, writes := s.writes ++ [entries] }

def record (request : SubmissionRequest) (submissionId : String) : SubmissionApp :=
  s.persist (pruneSubmissionIdempotencyEntries
    (s.entries.assign request.storeKey { submissionId, updatedAt := s.now }) s.now)

def clear (request : SubmissionRequest) : SubmissionApp :=
  if s.entries.any fun entry => entry.1 = request.storeKey then
    s.persist (s.entries.forget request.storeKey)
  else
    s

/--
Whether the draft of a failed submission is put back into the composer.
-/
def restoresDraft (submission : ComposerSubmission) (current : SubmissionDraftSnapshot) : Bool :=
  submission.clearedRevision.isSome && current.scopeKey == submission.request.scopeKey
    && submission.clearedRevision == some current.revision && current.value == ""

def fails (index : Nat) (current : SubmissionDraftSnapshot) : Option (SubmissionApp × Bool) :=
  match s.submissions[index]? with
  | some submission =>
    if submission.status = .gone then
      none
    else
      let retry : Retry :=
        { request := submission.request, id := submission.id, failedAt := s.now,
          ordinal := s.failures + 1 }
      let s' := (s.dropRetries fun retry => retry.request = submission.request).record
        submission.request submission.id
      some ({ s' with
          failed := (s.failed.touch submission.request index).keepLast FAILED_SUBMISSION_LIMIT
          failures := s.failures + 1
          retries := s'.retries ++ [retry] }.setSubmission index { submission with status := .failed },
        restoresDraft submission current)
  | none => none

def succeeds (index : Nat) : Option SubmissionApp :=
  match s.submissions[index]? with
  | some submission =>
    if submission.status = .gone then
      none
    else
      let s' := (s.dropRetries fun retry => retry.id = submission.id).clear submission.request
      some ({ s' with
          failed := s.failed.forget submission.request
          succeeded := submission.id :: s.succeeded }.setSubmission index
        { submission with status := .succeeded })
  | none => none

def markCleared (index revision : Nat) : Option SubmissionApp :=
  s.submissions[index]?.map fun submission =>
    s.setSubmission index { submission with clearedRevision := some revision }

def write (ok : Bool) : Option SubmissionApp :=
  match s.writes with
  | entries :: writes => some { s with writes, file := if ok then entries else s.file }
  | [] => none

def readFile (ok : Bool) : Option SubmissionApp :=
  if s.loaded || s.read.isSome then none else some { s with read := some (if ok then s.file else []) }

def finishLoad : Option SubmissionApp :=
  s.read.map fun raw =>
    { s with entries := parseSubmissionIdempotencyEntries raw s.now, loaded := true, read := none }

/--
The app starts again: what is in memory is lost, and writes that have not ended.
-/
def restart : SubmissionApp :=
  { s with
    failed := []
    counter := 0
    entries := []
    loaded := false
    read := none
    writes := []
    submissions := s.submissions.map fun submission =>
      if submission.status = .succeeded then submission else { submission with status := .gone }
    retries := s.retries.map fun retry => { retry with restarted := true } }

def step (s : SubmissionApp) : SubmissionLabel → Option SubmissionApp
  | .begins request createdId nonce => s.begins request createdId nonce
  | .markCleared index revision => s.markCleared index revision
  | .fails index current => (s.fails index current).map (·.1)
  | .succeeds index => s.succeeds index
  | .write ok => s.write ok
  | .read ok => s.readFile ok
  | .finishLoad => s.finishLoad
  | .restart => some s.restart
  | .wait duration => some { s with now := s.now + duration }

end SubmissionApp

end Mobile
