import TetherBridge.Transition.Basic
import TetherBridge.Acp.Identity
import TetherBridge.Snapshot.Header
import Mathlib.Logic.Function.Basic

/-!
This module contains the discovery of the child sessions that running task tools have spawned: a task for
each tool call polls the children of its parent, and all of them share what is claimed and what is tracked.
-/

namespace Session

open Acp Std Snapshot Transition

def SUBAGENT_DISCOVERY_ATTEMPTS : Nat := 120
def MAX_CLAIMED_SUBAGENTS : Nat := 512
def MAX_TRACKED_SUBAGENT_GENERATIONS : Nat := 2048

structure HarnessChildSession where
  title : Option String
  acpSessionId : String
  deriving DecidableEq

/--
A child with its thread id.
-/
abbrev Candidate := HarnessChildSession × String

/--
The thread of the parent, and the id of the tool call.
-/
abbrev ToolKey := String × String

/--
A key that cannot be forged by ids that contain the separator.
-/
def discoveryKey (key : ToolKey) : String :=
  toString key.1.utf8ByteSize ++ "\x01" ++ key.1 ++ "\x01" ++ key.2

/--
`decode` is `AgentSessionId::decode`.
-/
def childThreadId (decode : String → Option AgentSessionId) (base64 : String → String)
    (parentThreadId childSessionId : String) : Option String :=
  (decode parentThreadId).bind fun parent =>
    (AgentSessionId.new parent.agentId childSessionId).map (·.encode base64)

def childMatchesToolTitle (childTitle : Option String) (toolTitle : String) : Bool :=
  let toolTitle := Text.toAsciiLowercase (Text.trim toolTitle.toList)
  if toolTitle.isEmpty || toolTitle == "task".toList then
    false
  else
    childTitle.any fun title => toolTitle.isPrefixOf (Text.toAsciiLowercase (Text.trim title.toList))

def selectSpawnedChild (candidates : List Candidate) (toolTitle : String) (baseline : List String)
    : Option Candidate :=
  ((candidates.find? fun candidate => childMatchesToolTitle candidate.1.title toolTitle).or
    (match candidates.filter fun candidate => !baseline.contains candidate.2 with
      | [first] => some first
      | _ => none)).or
    (match candidates with
      | [only] => some only
      | _ => none)

/--
What a task has chosen, and from what.
-/
structure Pick where
  child : Candidate
  toolTitle : String
  candidates : List Candidate
  baseline : List String

/--
Where a task is between two of the sections it shares with others. `looking` is between the check that a
child is not claimed and the one that it is not tracked.
-/
inductive DiscoveryPhase where
  | waiting
  | listing (toolTitle : String)
  | checking (toolTitle : String) (children : List HarnessChildSession) (candidates : List Candidate)
  | looking (toolTitle : String) (child : Candidate) (children : List HarnessChildSession)
      (candidates : List Candidate)
  | claiming (pick : Pick)
  | adopting (pick : Pick)
  | ending

/--
`discover_subagent_session`: the polls it has begun, and the children of its first one.
-/
structure Discovery where
  attempts : Nat := 0
  baseline : Option (List String) := none
  phase : DiscoveryPhase := .waiting

namespace Discovery

variable (d : Discovery)

/--
`continue`: the next poll, unless it was the last one.
-/
def goOn : Discovery :=
  { d with phase := if d.attempts < SUBAGENT_DISCOVERY_ATTEMPTS then .waiting else .ending }

/--
A poll begins with the parent, where it can be read.
-/
def read (toolCallId : String) (parent : Option SessionSnapshot) : Option Discovery :=
  match d.phase with
  | .waiting =>
    let d := { d with attempts := d.attempts + 1 }
    match parent with
    | none => some { d with phase := .ending }
    | some parent =>
      match parent.tools[toolCallId]? with
      | none => some d.goOn
      | some tool =>
        if isTerminalStatus tool.status then
          some { d with phase := .ending }
        else
          some { d with phase := .listing tool.title }
  | _ => none

def list (children : List HarnessChildSession) : Option Discovery :=
  match d.phase with
  | .listing toolTitle => some { d with phase := .checking toolTitle children [] }
  | _ => none

def select (toolTitle : String) (candidates : List Candidate) : Discovery :=
  let baseline := d.baseline.getD (candidates.map (·.2))
  let d := { d with baseline := some baseline }
  match selectSpawnedChild candidates toolTitle baseline with
  | none => d.goOn
  | some child => { d with phase := .claiming { child, toolTitle, candidates, baseline } }

/--
The next child is passed over when it is claimed. Once there is none left, one is chosen.
-/
def check (threadOf : String → Option String) (claimed : List String) : Option Discovery :=
  match d.phase with
  | .checking toolTitle (child :: children) candidates =>
    match threadOf child.acpSessionId with
    | none => some { d with phase := .checking toolTitle children candidates }
    | some threadId =>
      if claimed.contains threadId then
        some { d with phase := .checking toolTitle children candidates }
      else
        some { d with phase := .looking toolTitle (child, threadId) children candidates }
  | .checking toolTitle [] candidates => some (d.select toolTitle candidates)
  | _ => none

/--
`tracks_subagent_generation`
-/
def look (tracked : List String) : Option Discovery :=
  match d.phase with
  | .looking toolTitle child children candidates =>
    if tracked.contains child.2 then
      some { d with phase := .checking toolTitle children candidates }
    else
      some { d with phase := .checking toolTitle children (candidates ++ [child]) }
  | _ => none

end Discovery

/--
`note_subagent_link`, as far as it matters who is tracked. A full table gives up any one entry.
-/
def noteLink (tracked : List String) (threadId : String) (evicted : Option String)
    : Option (List String) :=
  if threadId ∈ tracked then
    some tracked
  else if tracked.length ≥ MAX_TRACKED_SUBAGENT_GENERATIONS then
    match evicted with
    | none => none
    | some evicted => if evicted ∈ tracked then some (tracked.erase evicted ++ [threadId]) else none
  else
    some (tracked ++ [threadId])

/--
What the discoveries share, the tasks, and the links they have made.
-/
structure Discoveries where
  polling : List String := []
  claimed : List String := []
  tracked : List String := []
  tasks : ToolKey → Option Discovery := fun _ => none
  links : List (ToolKey × Pick) := []

/--
The sections of the tasks, in any order. A tool is reported to the event pump, and a link may also be noted
for a tool that names its child itself.
-/
inductive DiscoveryStep where
  | report (key : ToolKey)
  | read (key : ToolKey) (parent : Option SessionSnapshot)
  | list (key : ToolKey) (children : List HarnessChildSession)
  | check (key : ToolKey)
  | look (key : ToolKey)
  | claim (key : ToolKey)
  | adopt (key : ToolKey) (adopted : Bool) (evicted : Option String)
  | finish (key : ToolKey)
  | link (threadId : String) (evicted : Option String)

namespace Discoveries

variable (threadOf : String → String → Option String) (s : Discoveries)

def setTask (key : ToolKey) (d : Discovery) : Discoveries :=
  { s with tasks := Function.update s.tasks key (some d) }

def report (key : ToolKey) : Discoveries :=
  if s.polling.contains (discoveryKey key) then
    s
  else
    { s.setTask key {} with polling := s.polling ++ [discoveryKey key] }

def claim (key : ToolKey) : Option Discoveries :=
  (s.tasks key).bind fun d =>
    match d.phase with
    | .claiming pick =>
      let claimed := if s.claimed.length ≥ MAX_CLAIMED_SUBAGENTS then [] else s.claimed
      some { s.setTask key { d with phase := .adopting pick } with claimed := claimed.insert pick.child.2 }
    | _ => none

def adopt (key : ToolKey) (adopted : Bool) (evicted : Option String) : Option Discoveries :=
  (s.tasks key).bind fun d =>
    match d.phase with
    | .adopting pick =>
      let s := s.setTask key { d with phase := .ending }
      if adopted then
        (noteLink s.tracked pick.child.2 evicted).map fun tracked =>
          { s with tracked, links := s.links ++ [(key, pick)] }
      else
        some s
    | _ => none

def finish (key : ToolKey) : Option Discoveries :=
  (s.tasks key).bind fun d =>
    match d.phase with
    | .ending =>
      some { s with
        tasks := Function.update s.tasks key none
        polling := s.polling.filter (· != discoveryKey key) }
    | _ => none

def step (s : Discoveries) : DiscoveryStep → Option Discoveries
  | .report key => some (s.report key)
  | .read key parent => ((s.tasks key).bind (·.read key.2 parent)).map (s.setTask key)
  | .list key children => ((s.tasks key).bind (·.list children)).map (s.setTask key)
  | .check key => ((s.tasks key).bind (·.check (threadOf key.1) s.claimed)).map (s.setTask key)
  | .look key => ((s.tasks key).bind (·.look s.tracked)).map (s.setTask key)
  | .claim key => s.claim key
  | .adopt key adopted evicted => s.adopt key adopted evicted
  | .finish key => s.finish key
  | .link threadId evicted =>
    (noteLink s.tracked threadId evicted).map fun tracked => { s with tracked }

end Discoveries

/-! Keys -/

theorem discoveryKey_injective : Function.Injective discoveryKey := by
  have hdigits : ∀ n : Nat, '\x01' ∉ (toString n : String).toList := by
    intro n hmem
    exact absurd (Text.isDigit_of_mem_repr hmem) (by decide)
  rintro ⟨parent, tool⟩ ⟨parent', tool'⟩ h
  have hlist := congrArg String.toList h
  unfold discoveryKey at hlist
  have hseparator : ("\x01" : String).toList = ['\x01'] := rfl
  simp only [String.toList_append, hseparator, List.append_assoc, List.cons_append, List.nil_append]
    at hlist
  rcases Text.append_cons_inj (hdigits _) (hdigits _) hlist with ⟨hsize, hrest⟩
  have hsize := Text.repr_injective (String.toList_inj.mp hsize)
  rw [Text.utf8ByteSize_eq, Text.utf8ByteSize_eq] at hsize
  rcases Text.append_inj_of_size hrest hsize with ⟨hparent, htool⟩
  injection htool with _ htool
  exact Prod.ext (String.toList_inj.mp hparent) (String.toList_inj.mp htool)

end Session
