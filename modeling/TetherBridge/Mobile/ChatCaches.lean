import Mathlib.Data.List.Sort
import TetherBridge.Data.Js
import TetherBridge.Data.Json
import TetherBridge.Data.PurgeQueue
import TetherBridge.Data.Recent

/-!
This module contains the two caches of the chats of a profile: the snapshots of chats and their summaries,
the calls that write them, and the calls that delete them.
-/

namespace Mobile

open PurgeQueue

/--
What the caches use of dates and of the collation of strings.
-/
structure Intl where
  /-- `Date.parse`, none for `NaN` -/
  parseDate : String → Option Int
  /-- `new Date(now).toISOString()` -/
  toISOString : Nat → String
  localeCompare : String → String → Int

variable (intl : Intl)

/--
Keep entries in their order as long as there is room for them.
-/
def boundEntries {ε : Type} (maxEntries maxBytes : Nat) (entryBytes : ε → Nat)
    : List ε → List ε → Nat → List ε
  | [], entries, _ => entries
  | entry :: ordered, entries, cacheBytes =>
    if maxEntries ≤ entries.length then
      entries
    else
      let separatorBytes := if 0 < entries.length then 1 else 0
      if maxBytes < cacheBytes + separatorBytes + entryBytes entry then
        boundEntries maxEntries maxBytes entryBytes ordered entries cacheBytes
      else
        boundEntries maxEntries maxBytes entryBytes ordered (entries ++ [entry])
          (cacheBytes + separatorBytes + entryBytes entry)

/-! Snapshots -/

def CHAT_SNAPSHOT_CACHE_VERSION : Nat := 1
def CHAT_SNAPSHOT_CACHE_MAX_ENTRIES : Nat := 20
def CHAT_SNAPSHOT_CACHE_MAX_BYTES : Nat := 8 * 1024 * 1024

def optionalText : Option String → Json
  | some text => .string text
  | none => .null

structure ChatSnapshotCacheEntry where
  chatId : String
  /-- the chat, its id included -/
  chat : Json
  cachedAt : String
  lastAccessedAt : String

def ChatSnapshotCacheEntry.toJson (entry : ChatSnapshotCacheEntry) : Json :=
  .object [("chat", entry.chat), ("cachedAt", .string entry.cachedAt),
    ("lastAccessedAt", .string entry.lastAccessedAt)]

structure ChatSnapshotCache where
  profileId : String
  selectedChatId : Option String
  updatedAt : String
  entries : List ChatSnapshotCacheEntry

def ChatSnapshotCache.toJson (cache : ChatSnapshotCache) : Json :=
  .object [("version", .number (toString CHAT_SNAPSHOT_CACHE_VERSION)),
    ("profileId", .string cache.profileId), ("selectedChatId", optionalText cache.selectedChatId),
    ("updatedAt", .string cache.updatedAt),
    ("entries", .array (cache.entries.map ChatSnapshotCacheEntry.toJson))]

/--
The selected chat comes first, then those that were accessed last.
-/
def compareSnapshots (selectedChatId : Option String) (left right : ChatSnapshotCacheEntry) : Int :=
  if some left.chatId = selectedChatId then -1
  else if some right.chatId = selectedChatId then 1
  else intl.localeCompare right.lastAccessedAt left.lastAccessedAt

def boundChatSnapshotCache (cache : ChatSnapshotCache) : ChatSnapshotCache :=
  let ordered := cache.entries.insertionSort fun left right =>
    compareSnapshots intl cache.selectedChatId left right ≤ 0
  let entries := boundEntries CHAT_SNAPSHOT_CACHE_MAX_ENTRIES CHAT_SNAPSHOT_CACHE_MAX_BYTES
    (fun entry => entry.toJson.bytes) ordered [] { cache with entries := [] }.toJson.bytes
  { cache with
    selectedChatId :=
      if entries.any fun entry => some entry.chatId = cache.selectedChatId then cache.selectedChatId
      else none
    entries }

inductive SnapshotCall where
  | save (cache : ChatSnapshotCache)

def saveChatSnapshotCache (cache : ChatSnapshotCache) (generation : Nat) : Program Json :=
  .check generation <|
  .makeDirectory <|
  -- A purge can have come while the directory was made.
  .check generation <|
  .write (boundChatSnapshotCache intl cache).toJson .done

def SnapshotCall.program : SnapshotCall → Nat → Program Json
  | .save cache => saveChatSnapshotCache intl cache

/-! Summaries -/

def CHAT_SUMMARY_CACHE_VERSION : Nat := 1
def CHAT_SUMMARY_CACHE_MAX_ENTRIES : Nat := 200
def CHAT_SUMMARY_CACHE_MAX_BYTES : Nat := 512 * 1024
def CHAT_SUMMARY_CACHE_MAX_AGE_MS : Int := 30 * 24 * 60 * 60 * 1000

structure ChatSummary where
  id : String
  title : String
  status : String
  createdAt : String
  updatedAt : String
  statusUpdatedAt : String
  lastMessagePreview : String
  /-- the optional properties that are there -/
  optional : List (String × Json)

def ChatSummary.toJson (summary : ChatSummary) : Json :=
  .object ([("id", .string summary.id), ("title", .string summary.title),
    ("status", .string summary.status), ("createdAt", .string summary.createdAt),
    ("updatedAt", .string summary.updatedAt), ("statusUpdatedAt", .string summary.statusUpdatedAt),
    ("lastMessagePreview", .string summary.lastMessagePreview)] ++ summary.optional)

structure ChatSummaryCacheEntry where
  summary : ChatSummary
  cachedAt : String

def ChatSummaryCacheEntry.toJson (entry : ChatSummaryCacheEntry) : Json :=
  .object [("summary", entry.summary.toJson), ("cachedAt", .string entry.cachedAt)]

structure ChatSummaryCache where
  profileId : String
  updatedAt : String
  lastSuccessfulRefreshAt : Option String
  entries : List ChatSummaryCacheEntry

def ChatSummaryCache.toJson (cache : ChatSummaryCache) : Json :=
  .object [("version", .number (toString CHAT_SUMMARY_CACHE_VERSION)),
    ("profileId", .string cache.profileId), ("updatedAt", .string cache.updatedAt),
    ("lastSuccessfulRefreshAt", optionalText cache.lastSuccessfulRefreshAt),
    ("entries", .array (cache.entries.map ChatSummaryCacheEntry.toJson))]

def createEmptyChatSummaryCache (profileId now : String) : ChatSummaryCache :=
  { profileId, updatedAt := now, lastSuccessfulRefreshAt := none, entries := [] }

def isChatStatus (value : String) : Bool :=
  value = "idle" || value = "running" || value = "error" || value = "complete"

def isTimestamp (value : String) : Bool :=
  (intl.parseDate value).isSome

def optionalString (source : Json) (key : String) : List (String × Json) :=
  match source.get key with
  | some (.string text) => [(key, .string text)]
  | _ => []

def optionalNullableString (source : Json) (key : String) : List (String × Json) :=
  match source.get key with
  | some (.string text) => [(key, .string text)]
  | some .null => [(key, .null)]
  | _ => []

def optionalNumber (source : Json) (key : String) : List (String × Json) :=
  match source.get key with
  | some (.number literal) => [(key, .number literal)]
  | _ => []

def optionalNullableNumber (source : Json) (key : String) : List (String × Json) :=
  match source.get key with
  | some (.number literal) => [(key, .number literal)]
  | some .null => [(key, .null)]
  | _ => []

def optionalBoolean (source : Json) (key : String) : List (String × Json) :=
  match source.get key with
  | some (.bool value) => [(key, .bool value)]
  | _ => []

def normalizeSummary (value : Json) : Option ChatSummary := do
  let text (key : String) : Option String := (value.get key).bind Json.asStr
  let id ← text "id"
  let title ← text "title"
  let status ← text "status"
  let createdAt ← text "createdAt"
  let updatedAt ← text "updatedAt"
  let statusUpdatedAt ← text "statusUpdatedAt"
  let lastMessagePreview ← text "lastMessagePreview"
  guard (Js.trim id ≠ "" ∧ isChatStatus status ∧ isTimestamp intl createdAt ∧ isTimestamp intl updatedAt
    ∧ isTimestamp intl statusUpdatedAt)
  return {
    id, title, status, createdAt, updatedAt, statusUpdatedAt, lastMessagePreview
    optional :=
      optionalBoolean value "timestampsSynthesized" ++ optionalString value "cwd"
        ++ optionalNullableString value "agentId" ++ optionalString value "modelProvider"
        ++ optionalString value "agentNickname" ++ optionalString value "agentRole"
        ++ optionalString value "sourceKind" ++ optionalString value "parentThreadId"
        ++ optionalNumber value "subAgentDepth" ++ optionalString value "lastRunStartedAt"
        ++ optionalString value "lastRunFinishedAt" ++ optionalNumber value "lastRunDurationMs"
        ++ optionalNullableNumber value "lastRunExitCode" ++ optionalBoolean value "lastRunTimedOut"
        ++ optionalString value "lastError" }

def normalizeEntry (value : Json) : Option ChatSummaryCacheEntry := do
  let summary ← (value.get "summary").bind (normalizeSummary intl)
  let cachedAt ← (value.get "cachedAt").bind Json.asStr
  guard (isTimestamp intl cachedAt)
  return { summary, cachedAt }

def boundChatSummaryCache (cache : ChatSummaryCache) : ChatSummaryCache :=
  let ordered := cache.entries.insertionSort fun left right =>
    intl.localeCompare right.summary.updatedAt left.summary.updatedAt ≤ 0
  { cache with
    entries := boundEntries CHAT_SUMMARY_CACHE_MAX_ENTRIES CHAT_SUMMARY_CACHE_MAX_BYTES
      (fun entry => entry.toJson.bytes) ordered [] { cache with entries := [] }.toJson.bytes }

def normalizeTimestamp (value : Option Json) (fallback : Nat) : String :=
  match value with
  | some (.string text) => if isTimestamp intl text then text else intl.toISOString fallback
  | _ => intl.toISOString fallback

def normalizeNullableTimestamp (value : Option Json) : Option String :=
  match value with
  | some (.string text) => if isTimestamp intl text then some text else none
  | _ => none

/--
The cache a file holds, which may have been written by anyone. A file is modelled by its JSON value.
-/
def parseChatSummaryCache (raw : Json) (profileId : String) (now : Nat) : ChatSummaryCache :=
  let empty := createEmptyChatSummaryCache profileId (intl.toISOString now)
  if (raw.get "profileId").bind Json.asStr = some profileId then
    match raw.get "version", raw.get "entries" with
    | some (.number version), some (.array entries) =>
      if version = toString CHAT_SUMMARY_CACHE_VERSION then
        boundChatSummaryCache intl
          { profileId
            updatedAt := normalizeTimestamp intl (raw.get "updatedAt") now
            lastSuccessfulRefreshAt := normalizeNullableTimestamp intl (raw.get "lastSuccessfulRefreshAt")
            entries := (entries.filterMap (normalizeEntry intl)).filter fun entry =>
              (now : Int) - (intl.parseDate entry.cachedAt).getD 0 ≤ CHAT_SUMMARY_CACHE_MAX_AGE_MS }
      else
        empty
    | _, _ => empty
  else
    empty

def shouldReplaceSummary (existing incoming : ChatSummary) : Bool :=
  let updatedAtDiff := intl.localeCompare incoming.updatedAt existing.updatedAt
  updatedAtDiff > 0
    || (updatedAtDiff = 0 && intl.localeCompare incoming.statusUpdatedAt existing.statusUpdatedAt ≥ 0)

/--
Add the summaries that are valid and not older than those with their ids.
-/
def addSummaries (entriesById : List (String × ChatSummaryCacheEntry)) (incoming : List Json) (now : String)
    : List (String × ChatSummaryCacheEntry) :=
  incoming.foldl (fun entriesById value =>
    match normalizeSummary intl value with
    | none => entriesById
    | some normalized =>
      let entry : ChatSummaryCacheEntry := { summary := normalized, cachedAt := now }
      match entriesById.lookup normalized.id with
      | none => entriesById.assign normalized.id entry
      | some existing =>
        if shouldReplaceSummary intl existing.summary normalized then
          entriesById.assign normalized.id entry
        else
          entriesById) entriesById

def mergeChatSummaryCache (cache : ChatSummaryCache) (incoming : List Json) (now : String)
    : ChatSummaryCache :=
  let entriesById := cache.entries.foldl (fun entriesById entry =>
    entriesById.assign entry.summary.id entry) []
  boundChatSummaryCache intl
    { profileId := cache.profileId
      updatedAt := now
      lastSuccessfulRefreshAt := some now
      entries := (addSummaries intl entriesById incoming now).map (·.2) }

def removeChatSummaryFromCache (cache : ChatSummaryCache) (chatId now : String) : ChatSummaryCache :=
  let normalizedId := Js.trim chatId
  boundChatSummaryCache intl
    { cache with
      updatedAt := now
      entries := cache.entries.filter fun entry => entry.summary.id ≠ normalizedId }

def reconcileChatSummaryCache (cache : ChatSummaryCache) (authoritative : List Json) (now : String)
    : ChatSummaryCache :=
  boundChatSummaryCache intl
    { profileId := cache.profileId
      updatedAt := now
      lastSuccessfulRefreshAt := some now
      entries := (addSummaries intl [] authoritative now).map (·.2) }

variable (profileId : String)

def readCache (file : Option Json) (now : Nat) : ChatSummaryCache :=
  match file with
  | some raw => parseChatSummaryCache intl raw profileId now
  | none => createEmptyChatSummaryCache profileId (intl.toISOString now)

inductive SummaryCall where
  | save (cache : ChatSummaryCache)
  | persist (summaries : List Json) (now : String)
  | reconcile (summaries : List Json) (now : String)
  | deleteSummary (chatId now : String)

def writeCache (cache : ChatSummaryCache) : Program Json :=
  .makeDirectory <| .write cache.toJson .done

/--
Write what an update makes of the file, if the generation is current.
-/
def updateCache (update : ChatSummaryCache → ChatSummaryCache) (generation : Nat) : Program Json :=
  .check generation <|
  .read fun file now =>
  writeCache (update (readCache intl profileId file now))

/--
The whole cache is written, whatever the generation is.
-/
def saveChatSummaryCache (cache : ChatSummaryCache) : Program Json :=
  writeCache (boundChatSummaryCache intl cache)

def persistChatSummaries (summaries : List Json) (now : String) : Nat → Program Json :=
  updateCache intl profileId fun current => mergeChatSummaryCache intl current summaries now

def reconcilePersistedChatSummaries (summaries : List Json) (now : String) : Nat → Program Json :=
  updateCache intl profileId fun current => reconcileChatSummaryCache intl current summaries now

def deletePersistedChatSummary (chatId now : String) : Nat → Program Json :=
  updateCache intl profileId fun current => removeChatSummaryFromCache intl current chatId now

def SummaryCall.program : SummaryCall → Nat → Program Json
  | .save cache => fun _ => saveChatSummaryCache intl cache
  | .persist summaries now => persistChatSummaries intl profileId summaries now
  | .reconcile summaries now => reconcilePersistedChatSummaries intl profileId summaries now
  | .deleteSummary chatId now => deletePersistedChatSummary intl profileId chatId now

def SummaryCall.gated : SummaryCall → Bool
  | .save _ => false
  | _ => true

/-! The caches of a profile -/

structure ProfileCaches where
  snapshots : State Json SnapshotCall := {}
  summaries : State Json SummaryCall := {}

/--
A purge of the snapshots is `deleteChatSnapshotCache`, one of the summaries `deleteChatSummaryCache`.
-/
inductive CacheLabel where
  | snapshots (label : Label SnapshotCall)
  | summaries (label : Label SummaryCall)

namespace ProfileCaches

variable (s : ProfileCaches)

/--
A cache of another profile has another file.
-/
def snapshotStep (label : Label SnapshotCall) : Option ProfileCaches :=
  let next := (s.snapshots.step (SnapshotCall.program intl) (fun _ => true) label).map fun snapshots =>
    { s with snapshots }
  match label with
  | .call (.save cache) _ => if cache.profileId = profileId then next else none
  | _ => next

def summaryStep (label : Label SummaryCall) : Option ProfileCaches :=
  let next := (s.summaries.step (SummaryCall.program intl profileId) SummaryCall.gated label).map
    fun summaries => { s with summaries }
  match label with
  | .call (.save cache) _ => if cache.profileId = profileId then next else none
  | .call (.deleteSummary chatId _) _ => if Js.trim chatId = "" then some s else next
  | _ => next

def step (s : ProfileCaches) : CacheLabel → Option ProfileCaches
  | .snapshots label => s.snapshotStep intl profileId label
  | .summaries label => s.summaryStep intl profileId label

end ProfileCaches

end Mobile
