import Mathlib.Data.List.SplitOn
import TetherBridge.Acp.Identity
import TetherBridge.Snapshot.Types

/-!
This module contains the `DurableSessionIndex` of `acp/manager.rs`: the sessions the bridge remembers and
the file they are kept in. A file is its length and the JSON it holds, if it holds JSON.
-/

namespace Acp

open Snapshot

def MAX_SESSIONS : Nat := 2048
def SESSION_INDEX_VERSION : Nat := 2
def MAX_SESSION_INDEX_BYTES : Nat := 256 * 1024
def MAX_SESSION_CWD_BYTES : Nat := 4096

/-! Paths -/

structure PathBuf where
  bytes : List UInt8
  deriving DecidableEq

namespace PathBuf

variable (path : PathBuf)

def slash : UInt8 := 47
def dot : UInt8 := 46

def ofString (text : String) : PathBuf :=
  { bytes := text.toByteArray.data.toList }

def toStr : Option String :=
  String.fromUTF8? ⟨path.bytes.toArray⟩

def isAbsolute : Bool :=
  path.bytes.head? == some slash

/--
What kind of component a segment of a path is, in the order in which components compare, with its name.
-/
def component (segment : List UInt8) : Option (Nat × List UInt8) :=
  if segment = [] ∨ segment = [dot] then none
  else if segment = [dot, dot] then some (2, [])
  else some (3, segment)

/--
`Path::components`, which decide whether two paths are equal and how they compare.
-/
def components : List (Nat × List UInt8) :=
  let segments := path.bytes.splitOn slash
  let leading := if path.isAbsolute then [(0, [])] else if segments.head? = some [dot] then [(1, [])] else []
  leading ++ segments.filterMap component

end PathBuf

/-! Entries -/

structure SessionIndexEntry where
  agentId : String
  acpSessionId : String
  cwd : PathBuf
  title : Option String := none
  parentAcpSessionId : Option String := none
  forkedFromAcpSessionId : Option String := none

def isControl (c : Char) : Bool :=
  c.toNat < 0x20 || (0x7f ≤ c.toNat && c.toNat < 0xa0)

def validSessionTitle (title : String) : Bool :=
  let title := Text.trim title.toList
  !title.isEmpty && Text.size title ≤ 256 && !title.any isControl

namespace SessionIndexEntry

variable (entry : SessionIndexEntry)

def identity : AgentSessionId :=
  { agentId := entry.agentId, acpSessionId := entry.acpSessionId }

def isSession (other : SessionIndexEntry) : Bool :=
  entry.agentId == other.agentId && entry.acpSessionId == other.acpSessionId

/--
The derived `PartialEq`.
-/
def same (other : SessionIndexEntry) : Bool :=
  entry.agentId == other.agentId
    && entry.acpSessionId == other.acpSessionId
    && entry.cwd.components == other.cwd.components
    && entry.title == other.title
    && entry.parentAcpSessionId == other.parentAcpSessionId
    && entry.forkedFromAcpSessionId == other.forkedFromAcpSessionId

instance : Ord (Nat × List UInt8) := lexOrd

/--
The derived `Ord`.
-/
def cmp : SessionIndexEntry → SessionIndexEntry → Ordering :=
  compareLex (compareOn agentId) <|
    compareLex (compareOn acpSessionId) <|
      compareLex (compareOn fun entry => entry.cwd.components) <|
        compareLex (compareOn title) <|
          compareLex (compareOn parentAcpSessionId) (compareOn forkedFromAcpSessionId)

def le (other : SessionIndexEntry) : Bool :=
  (cmp entry other).isLE

/--
Whether another session of the same agent may be recorded as the origin of one.
-/
def validOrigin (session : AgentSessionId) (origin : String) : Bool :=
  origin != session.acpSessionId && (AgentSessionId.new session.agentId origin).isSome

def valid : Bool :=
  (AgentSessionId.new entry.agentId entry.acpSessionId).isSome
    && entry.cwd.isAbsolute
    && entry.cwd.bytes.length ≤ MAX_SESSION_CWD_BYTES
    && entry.title.all validSessionTitle
    && entry.parentAcpSessionId.all (validOrigin entry.identity)
    && entry.forkedFromAcpSessionId.all (validOrigin entry.identity)

/--
What becomes of an entry that another one of the same session is inserted over.
-/
def merge (existing : SessionIndexEntry) : SessionIndexEntry :=
  { entry with
    title := if entry.title.isNone then existing.title else entry.title
    parentAcpSessionId :=
      if existing.parentAcpSessionId.isSome || entry.parentAcpSessionId.isNone then
        existing.parentAcpSessionId
      else
        entry.parentAcpSessionId
    forkedFromAcpSessionId :=
      if entry.forkedFromAcpSessionId.isNone then existing.forkedFromAcpSessionId
      else entry.forkedFromAcpSessionId }

end SessionIndexEntry

/-! The file -/

def optionalField (key : String) (value : Option String) : List (String × Json) :=
  (value.map fun value => (key, Json.string value)).toList

/--
`Serialize`, which fails for a path that is not UTF-8.
-/
def SessionIndexEntry.toJson (entry : SessionIndexEntry) : Option Json :=
  entry.cwd.toStr.map fun cwd =>
    .object
      ([("agentId", .string entry.agentId),
        ("acpSessionId", .string entry.acpSessionId),
        ("cwd", .string cwd)]
        ++ optionalField "title" entry.title
        ++ optionalField "parentAcpSessionId" entry.parentAcpSessionId
        ++ optionalField "forkedFromAcpSessionId" entry.forkedFromAcpSessionId)

def indexFileJson (entries : List SessionIndexEntry) : Option Json :=
  (entries.mapM SessionIndexEntry.toJson).map fun sessions =>
    .object [("version", natJson SESSION_INDEX_VERSION), ("sessions", .array sessions)]

/--
`Option<String>`, of which `null` is the empty one.
-/
def optionalText : Option Json → Option (Option String)
  | none => some none
  | some .null => some none
  | some (.string value) => some (some value)
  | some _ => none

/--
A field is given once, and there are no others.
-/
def hasFields (names : List String) (fields : List (String × Json)) : Bool :=
  (fields.map (·.1)).Nodup && fields.all fun field => names.contains field.1

def textField (fields : List (String × Json)) (key : String) : Option String :=
  (fields.lookup key).bind Json.asStr

/--
`Deserialize`, from an object or from the sequence of the fields.
-/
def SessionIndexEntry.ofJson : Json → Option SessionIndexEntry
  | .object fields => do
    guard (hasFields ["agentId", "acpSessionId", "cwd", "title", "parentAcpSessionId",
      "forkedFromAcpSessionId"] fields)
    let agentId ← textField fields "agentId"
    let acpSessionId ← textField fields "acpSessionId"
    let cwd ← textField fields "cwd"
    let title ← optionalText (fields.lookup "title")
    let parentAcpSessionId ← optionalText (fields.lookup "parentAcpSessionId")
    let forkedFromAcpSessionId ← optionalText (fields.lookup "forkedFromAcpSessionId")
    return { agentId, acpSessionId, cwd := .ofString cwd, title, parentAcpSessionId,
             forkedFromAcpSessionId }
  | .array (.string agentId :: .string acpSessionId :: .string cwd :: rest) => do
    guard (rest.length ≤ 3)
    let title ← optionalText rest[0]?
    let parentAcpSessionId ← optionalText rest[1]?
    let forkedFromAcpSessionId ← optionalText rest[2]?
    return { agentId, acpSessionId, cwd := .ofString cwd, title, parentAcpSessionId,
             forkedFromAcpSessionId }
  | _ => none

/--
An unsigned integer, which a serializer prints in digits.
-/
def asNat : Json → Option Nat
  | .number literal =>
    let digits := literal.toList
    if digits.all Char.isDigit then
      some (digits.foldl (fun value digit => value * 10 + (digit.toNat - '0'.toNat)) 0)
    else
      none
  | _ => none

def indexFileOfJson : Json → Option (Nat × List SessionIndexEntry)
  | .object fields => do
    guard (hasFields ["version", "sessions"] fields)
    let version ← (fields.lookup "version").bind asNat
    let sessions ← (fields.lookup "sessions").bind Json.asArray
    return (version, ← sessions.mapM SessionIndexEntry.ofJson)
  | .array [version, sessions] => do
    return (← asNat version, ← (← sessions.asArray).mapM SessionIndexEntry.ofJson)
  | _ => none

structure IndexFile where
  bytes : Nat
  json : Option Json

/-! Loading -/

/--
`Vec::dedup_by`: of neighbours that are the same session, the first one stays.
-/
def dedupSessions : List SessionIndexEntry → List SessionIndexEntry
  | [] => []
  | entry :: rest =>
    match dedupSessions rest with
    | [] => [entry]
    | next :: kept => if next.isSession entry then entry :: kept else entry :: next :: kept

def sanitizeIndexEntries (entries : List SessionIndexEntry) : List SessionIndexEntry :=
  (dedupSessions ((entries.filter (·.valid)).mergeSort SessionIndexEntry.le)).take MAX_SESSIONS

def parseIndexFile (json : Json) : List SessionIndexEntry :=
  match indexFileOfJson json with
  | some (version, sessions) =>
    if version = SESSION_INDEX_VERSION then sanitizeIndexEntries sessions else []
  | none => []

/--
The entries `load` takes from what it read: a file, or none.
-/
def loadEntries : Option IndexFile → List SessionIndexEntry
  | none => []
  | some file =>
    if file.bytes ≤ MAX_SESSION_INDEX_BYTES then (file.json.map parseIndexFile).getD [] else []

/-! The index -/

/--
The index with the file at its path, if it has a path.
-/
structure DurableSessionIndex where
  hasPath : Bool
  entries : List SessionIndexEntry
  file : Option IndexFile

namespace DurableSessionIndex

def load (hasPath : Bool) (file : Option IndexFile) : DurableSessionIndex :=
  { hasPath, entries := if hasPath then loadEntries file else [], file }

/--
Insert one entry, and whether that changed anything.
-/
def insertEntry (entry : SessionIndexEntry)
    : List SessionIndexEntry → List SessionIndexEntry × Bool
  | [] => ([entry], true)
  | existing :: rest =>
    if existing.isSession entry then
      let merged := entry.merge existing
      if existing.same merged then (existing :: rest, false) else (merged :: rest, true)
    else
      let (rest, changed) := insertEntry entry rest
      (existing :: rest, changed)

def stage : List SessionIndexEntry → List SessionIndexEntry → List SessionIndexEntry × Bool
  | staged, [] => (staged, false)
  | staged, entry :: entries =>
    let (staged, changed) := insertEntry entry staged
    let (staged, changed') := stage staged entries
    (staged, changed || changed')

/--
Sort the entries, and drop the first ones of those that are too many.
-/
def bounded (staged : List SessionIndexEntry) : List SessionIndexEntry :=
  let staged := staged.mergeSort SessionIndexEntry.le
  staged.drop (staged.length - MAX_SESSIONS)

variable (s : DurableSessionIndex)

/--
`persist` answers whether it succeeded; `writes` is whether the write does.
-/
def persist (staged : List SessionIndexEntry) (writes : Bool) : DurableSessionIndex × Bool :=
  if s.hasPath then
    match indexFileJson staged with
    | none => (s, false)
    | some json =>
      if writes then
        ({ s with entries := staged, file := some { bytes := json.bytes, json := some json } }, true)
      else
        (s, false)
  else
    ({ s with entries := staged }, true)

def insertEntries (entries : List SessionIndexEntry) (writes : Bool) : DurableSessionIndex × Bool :=
  let (staged, changed) := stage s.entries entries
  if changed then s.persist (bounded staged) writes else (s, true)

def removeAll (identities : List AgentSessionId) (writes : Bool) : DurableSessionIndex × Bool :=
  let staged := s.entries.filter fun entry => !identities.contains entry.identity
  if staged.length = s.entries.length then (s, true) else s.persist staged writes

end DurableSessionIndex

inductive IndexLabel where
  | load
  | insertEntries (entries : List SessionIndexEntry) (writes : Bool)
  | removeAll (identities : List AgentSessionId) (writes : Bool)

/--
One operation on the index; it is loaded again when the bridge restarts.
-/
def DurableSessionIndex.step (s : DurableSessionIndex) : IndexLabel → Option DurableSessionIndex
  | .load => some (.load s.hasPath s.file)
  | .insertEntries entries writes => some (s.insertEntries entries writes).1
  | .removeAll identities writes => some (s.removeAll identities writes).1

end Acp
