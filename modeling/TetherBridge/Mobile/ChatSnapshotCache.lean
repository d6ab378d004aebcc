import TetherBridge.Data.Fitting
import TetherBridge.Data.Stringify

/-!
This module contains the snapshots of chats that the mobile app keeps on disk, as `chatSnapshotCache.ts` bounds, writes and
reads them.
-/

namespace Mobile

namespace ChatSnapshots

/--
A number, as it is printed.
-/
def CHAT_SNAPSHOT_CACHE_VERSION : String := "1"
def CHAT_SNAPSHOT_CACHE_MAX_ENTRIES : Nat := 20
def CHAT_SNAPSHOT_CACHE_MAX_BYTES : Nat := 8 * 1024 * 1024
def CHAT_SNAPSHOT_CACHE_MAX_AGE_MS : Int := 30 * 24 * 60 * 60 * 1000
def CHAT_SNAPSHOT_INLINE_PAYLOAD_MAX_BYTES : Nat := 64 * 1024

/--
What the platform decides.
-/
structure Platform where
  /-- `Date.parse`, which has no value where it gives `NaN`. -/
  dateParse : String → Option Int
  /-- `new Date(time).toISOString()` -/
  toISOString : Int → String
  localeCompare : String → String → Ordering
  /-- `MessageSchema.safeParse(message).success` -/
  messageSchema : Json → Bool

/-! Objects -/

def mapField (key : String) (f : Json → Json) : Json → Json
  | .object fields => .object (fields.map fun field => if field.1 = key then (key, f field.2) else field)
  | value => value

def deleteField (key : String) : Json → Json
  | .object fields => .object (fields.filter (·.1 ≠ key))
  | value => value

def mapArray (f : Json → Json) : Json → Json
  | .array values => .array (values.map f)
  | value => value

def isString : Option Json → Bool
  | some (.string _) => true
  | _ => false

def getString (key : String) (value : Json) : Option String :=
  (value.get key).bind Json.asStr

/-! What a chat is -/

def isChatMessagePart (value : Json) : Bool :=
  match getString "type" value with
  | some "text" => isString (value.get "text")
  | some "image" => true
  | some "audio" => true
  | some "resourceLink" => isString (value.get "uri")
  | some "resource" =>
    match value.get "resource" with
    | some (.object _) => true
    | _ => false
  | _ => false

def isChatMessage (p : Platform) (value : Json) : Bool :=
  p.messageSchema value
    && isString (value.get "createdAt")
    && match value.get "parts" with
      | none => true
      | some (.array parts) => parts.all isChatMessagePart
      | some _ => false

def isChat (p : Platform) (value : Json) : Bool :=
  (getString "id" value).any (· ≠ "")
    && ["title", "status", "createdAt", "updatedAt", "statusUpdatedAt", "lastMessagePreview"].all
      (fun key => isString (value.get key))
    && match value.get "messages" with
      | some (.array messages) => messages.all (isChatMessage p)
      | _ => false

/-! What is not written to disk -/

def isOversizedPayload : Option String → Bool
  | some value => CHAT_SNAPSHOT_INLINE_PAYLOAD_MAX_BYTES < Js.length value.toList
  | none => false

def isOversizedValue : Option Json → Bool
  | some value => CHAT_SNAPSHOT_INLINE_PAYLOAD_MAX_BYTES < Js.length (Js.stringify value)
  | none => false

def sanitizePartForCache (part : Json) : Json :=
  if (getString "type" part = some "image" ∨ getString "type" part = some "audio")
      ∧ isOversizedPayload (getString "data" part) then
    deleteField "data" part
  else if getString "type" part = some "resource"
      ∧ isOversizedPayload ((part.get "resource").bind (getString "blob")) then
    mapField "resource" (deleteField "blob") part
  else
    part

def sanitizeToolMetaForCache (toolMeta : Json) : Json :=
  let withoutContent := if isOversizedValue (toolMeta.get "content") then deleteField "content" toolMeta else toolMeta
  if isOversizedValue (toolMeta.get "locations") then deleteField "locations" withoutContent else withoutContent

/--
A field that is `undefined` is not written.
-/
def sanitizeMessageForCache (message : Json) : Json :=
  mapField "toolMeta" sanitizeToolMetaForCache (mapField "parts" (mapArray sanitizePartForCache) message)

def sanitizeChatForCache (chat : Json) : Json :=
  mapField "messages" (mapArray sanitizeMessageForCache) chat

/-! The cache -/

structure ChatSnapshotCacheEntry where
  chat : Json
  cachedAt : String
  lastAccessedAt : String

structure ChatSnapshotCache where
  profileId : String
  selectedChatId : Option String
  updatedAt : String
  entries : List ChatSnapshotCacheEntry

def ChatSnapshotCacheEntry.chatId (entry : ChatSnapshotCacheEntry) : Option String :=
  getString "id" entry.chat

/--
The chat of the entry has the id, if there is one.
-/
def ChatSnapshotCacheEntry.hasId (entry : ChatSnapshotCacheEntry) (id : Option String) : Bool :=
  id.isSome && entry.chatId == id

def ChatSnapshotCacheEntry.toJson (entry : ChatSnapshotCacheEntry) : Json :=
  .object [("chat", entry.chat), ("cachedAt", .string entry.cachedAt),
    ("lastAccessedAt", .string entry.lastAccessedAt)]

def ChatSnapshotCache.toJson (cache : ChatSnapshotCache) : Json :=
  .object [("version", .number CHAT_SNAPSHOT_CACHE_VERSION), ("profileId", .string cache.profileId),
    ("selectedChatId", cache.selectedChatId.elim .null .string), ("updatedAt", .string cache.updatedAt),
    ("entries", .array (cache.entries.map ChatSnapshotCacheEntry.toJson))]

def ChatSnapshotCacheEntry.bytes (entry : ChatSnapshotCacheEntry) : Nat :=
  Js.utf8ByteLength (Js.stringify entry.toJson)

def ChatSnapshotCache.bytes (cache : ChatSnapshotCache) : Nat :=
  Js.utf8ByteLength (Js.stringify cache.toJson)

def createEmptyChatSnapshotCache (profileId now : String) : ChatSnapshotCache :=
  { profileId, selectedChatId := none, updatedAt := now, entries := [] }

section

variable (p : Platform)

def compareAccess (left right : ChatSnapshotCacheEntry) : Ordering :=
  p.localeCompare right.lastAccessedAt left.lastAccessedAt

def compareEntries (selectedChatId : Option String) (left right : ChatSnapshotCacheEntry) : Ordering :=
  if left.hasId selectedChatId then .lt
  else if right.hasId selectedChatId then .gt
  else compareAccess p left right

/--
`sort`, which is stable.
-/
def sortEntries (compare : ChatSnapshotCacheEntry → ChatSnapshotCacheEntry → Ordering)
    (entries : List ChatSnapshotCacheEntry) : List ChatSnapshotCacheEntry :=
  entries.mergeSort fun left right => (compare left right).isLE

def boundChatSnapshotCache (cache : ChatSnapshotCache) : ChatSnapshotCache :=
  let ordered := sortEntries (compareEntries p cache.selectedChatId) cache.entries
  let entries := List.fitting ChatSnapshotCacheEntry.bytes CHAT_SNAPSHOT_CACHE_MAX_ENTRIES CHAT_SNAPSHOT_CACHE_MAX_BYTES
    0 { cache with entries := [] }.bytes ordered
  { cache with
    selectedChatId := if entries.any (·.hasId cache.selectedChatId) then cache.selectedChatId else none
    entries }

def normalizeCacheEntry (value : Json) : Option ChatSnapshotCacheEntry :=
  match value.get "chat", value.get "cachedAt", value.get "lastAccessedAt" with
  | some chat, some (.string cachedAt), some (.string lastAccessedAt) =>
    if isChat p chat ∧ (p.dateParse cachedAt).isSome ∧ (p.dateParse lastAccessedAt).isSome then
      some { chat := sanitizeChatForCache chat, cachedAt, lastAccessedAt }
    else
      none
  | _, _, _ => none

/--
The text is given as the value that `JSON.parse` reads from it, or none if it fails. An empty cache is dated by the clock.
-/
def parseChatSnapshotCache (raw : Option Json) (profileId : String) (now : Int) (clock : String) : ChatSnapshotCache :=
  match raw with
  | none => createEmptyChatSnapshotCache profileId clock
  | some record =>
    match record.get "version", record.get "profileId", record.get "entries" with
    | some (.number version), some (.string recorded), some (.array rawEntries) =>
      if version ≠ CHAT_SNAPSHOT_CACHE_VERSION ∨ recorded ≠ profileId then
        createEmptyChatSnapshotCache profileId clock
      else
        let entries := sortEntries (compareAccess p)
          ((rawEntries.filterMap (normalizeCacheEntry p)).filter fun entry =>
            (p.dateParse entry.cachedAt).any fun time => now - time ≤ CHAT_SNAPSHOT_CACHE_MAX_AGE_MS)
        boundChatSnapshotCache p
          { profileId
            selectedChatId := (getString "selectedChatId" record).filter fun id => entries.any (·.hasId (some id))
            updatedAt := ((getString "updatedAt" record).filter fun text => (p.dateParse text).isSome).getD
              (p.toISOString now)
            entries }
    | _, _, _ => createEmptyChatSnapshotCache profileId clock

/--
The entries that are bounded.
-/
def offeredEntries (cache : ChatSnapshotCache) (selectedChatId : Option String) (chat : Option Json) (now : String)
    : List ChatSnapshotCacheEntry :=
  let entries := cache.entries.filter fun entry => !entry.hasId (chat.bind (getString "id"))
  match chat.filter (isChat p) with
  | some chat => { chat := sanitizeChatForCache chat, cachedAt := now, lastAccessedAt := now } :: entries
  | none =>
    match entries.findIdx? (·.hasId selectedChatId) with
    | some index => entries.modify index fun entry => { entry with lastAccessedAt := now }
    | none => entries

def normalizedSelection (selectedChatId : Option String) : Option String :=
  (selectedChatId.map Js.trim).filter (· ≠ "")

def updateChatSnapshotCache (cache : ChatSnapshotCache) (selectedChatId : Option String) (chat : Option Json)
    (now : String) : ChatSnapshotCache :=
  boundChatSnapshotCache p
    { profileId := cache.profileId
      selectedChatId := normalizedSelection selectedChatId
      updatedAt := now
      entries := offeredEntries p cache (normalizedSelection selectedChatId) chat now }

end

end ChatSnapshots

end Mobile
