import TetherBridge.Snapshot.HeldTools
import TetherBridge.Snapshot.ToolText

/-!
This module contains how an ACP `ToolCallUpdate` becomes a canonical event, and what the update of a tool leaves
as it was.
-/

namespace Handlers

open Acp Snapshot

def MAX_TOOL_TEXT_CHUNK_BYTES : Nat := 64 * 1024
def MAX_STRUCTURED_ITEMS : Nat := 64
def MAX_LOCATION_ITEMS : Nat := 32
def MAX_STRUCTURED_VALUE_BYTES : Nat := 16 * 1024
def MAX_STRUCTURED_FIELDS : Nat := 64

def boundText (value : String) (max : Nat) : String :=
  if value.utf8ByteSize > max then String.ofList (Text.takeBytes max value.toList) else value

def appendBounded (target value : String) (max : Nat) : String :=
  let remaining := max - target.utf8ByteSize
  if remaining = 0 then target else target ++ boundText value remaining

mutual

/--
The number is that of the fields kept so far.
-/
def redactJson : Json → Nat → Json × Nat
  | .array values, fields =>
    let (values, fields) := redactValues MAX_STRUCTURED_FIELDS values fields
    (.array values, fields)
  | .object values, fields =>
    let (values, fields) := redactFields [] values fields
    (.object values, fields)
  | .string value, fields => (.string (boundText value MAX_STRUCTURED_VALUE_BYTES), fields)
  | .null, fields => (.null, fields)
  | .bool value, fields => (.bool value, fields)
  | .number literal, fields => (.number literal, fields)

/--
Redact the first `count` values.
-/
def redactValues : Nat → List Json → Nat → List Json × Nat
  | _, [], fields => ([], fields)
  | 0, _ :: _, fields => ([], fields)
  | count + 1, value :: values, fields =>
    let (value, fields) := redactJson value fields
    let (values, fields) := redactValues count values fields
    (value :: values, fields)

/--
Redact the fields that are kept; `kept` are the fields so far.
-/
def redactFields : List (String × Json) → List (String × Json) → Nat → List (String × Json) × Nat
  | kept, [], fields => (kept, fields)
  | kept, (key, value) :: values, fields =>
    if key == "rawInput" || key == "rawOutput" || key == "_meta" then
      redactFields kept values fields
    else if fields ≥ MAX_STRUCTURED_FIELDS then
      redactFields kept values fields
    else
      let (value, fields) := redactJson value (fields + 1)
      redactFields (Json.insertField (boundText key 256) value kept) values fields

end

def boundJson (value : Json) : Json :=
  let (value, _) := redactJson value 0
  if value.bytes ≤ MAX_STRUCTURED_VALUE_BYTES then
    value
  else
    .object [("type", .string "truncated"), ("truncated", .bool true)]

/--
An item of tool content or a location: the text of a text block, and what `serde_json::to_value` makes of it.
-/
structure ToolCallContent where
  text : Option String
  value : Option Json

def boundedValues (values : List ToolCallContent) (maxItems : Nat) : List Json :=
  ((values.take maxItems).filterMap (·.value)).map boundJson

def boundedToolValues (content : List ToolCallContent) : List Json :=
  boundedValues content MAX_STRUCTURED_ITEMS

/--
The loop of `tool_content` over the texts.
-/
def toolContentLoop : String → List String → String
  | output, [] => output
  | output, text :: texts =>
    let output :=
      if output.isEmpty then output else appendBounded output "\n" MAX_TOOL_TEXT_CHUNK_BYTES
    let output := appendBounded output text MAX_TOOL_TEXT_CHUNK_BYTES
    if output.utf8ByteSize = MAX_TOOL_TEXT_CHUNK_BYTES then output else toolContentLoop output texts

def toolContent (content : List ToolCallContent) : String :=
  toolContentLoop "" (content.filterMap (·.text))

/--
A `ToolCallUpdate`. What an update does not name is absent.
-/
structure ToolCallUpdate where
  toolCallId : String
  kind : Option ToolKind
  status : Option ToolCallStatus
  title : Option String
  content : Option (List ToolCallContent)
  locations : Option (List ToolCallContent)

/--
The branch of `handle_session_notification` for an update; `operation` is the run the notification is for.
-/
def toolCallUpdateEvent (agentId : String) (snapshot : SessionSnapshot) (operation : Option (String × String × Nat))
    (update : ToolCallUpdate) : CanonicalEvent :=
  let existing := snapshot.tools[update.toolCallId]?
  let runId := operation.map (·.1)
  let sourceTurnId := operation.map (·.2.1)
  let generation := operation.map (·.2.2)
  .tool agentId snapshot.threadId runId sourceTurnId ((existing.bind (·.generation)).or generation)
    update.toolCallId
    ((update.kind.or (existing.map (·.kind))).getD .other)
    ((update.status.or (existing.map (·.status))).getD .pending)
    ((update.title.or (existing.map (·.title))).getD "")
    (match update.content with
    | some content => .append (toolContent content)
    | none => .unchanged)
    (match update.content with
    | some content => .append (boundedToolValues content)
    | none => .unchanged)
    (match update.locations with
    | some locations => .append (boundedValues locations MAX_LOCATION_ITEMS)
    | none => .unchanged)

end Handlers

namespace Snapshot

open Acp Std Handlers

/-! What `projectTool` makes of a tool -/

theorem ensureDurableSubagentHeader_content {tool other : SnapshotTool} (hcontent : tool.content = other.content)
    (hstatus : tool.status = other.status) (header : String)
    : (ensureDurableSubagentHeader tool header).content = (ensureDurableSubagentHeader other header).content := by
  unfold ensureDurableSubagentHeader
  rw [hcontent, hstatus]

namespace SessionSnapshot

/--
The header of the tool was brought in line with its status.
-/
def ShowsHeader (header : Option String) (status : ToolCallStatus) (content shown : String) : Prop :=
  ∃ present, header = some present ∧ ∀ tool : SnapshotTool, tool.content = content → tool.status = status →
    (ensureDurableSubagentHeader tool present).content = shown

/--
The tool an event leaves has the fields of the event, and what the event does not change of those it had.
-/
structure Projects (toolCallId : String) (generation : Option Nat) (projection : ToolProjection)
    (existing : Option SnapshotTool) (result : SessionSnapshot × SnapshotTool) : Prop where
  content : result.2.content = (applyToolText ((existing.map (·.content)).getD "") projection.content).1
    ∨ generation = none ∧ isTerminalStatus projection.status
      ∧ ShowsHeader result.1.subagentHeaders[toolCallId]? projection.status
        (applyToolText ((existing.map (·.content)).getD "") projection.content).1 result.2.content
  generation : result.2.generation = generation
  kind : result.2.kind = projection.kind
  status : result.2.status = projection.status
  title : result.2.title = bound projection.title MAX_TEXT_BYTES
  structuredContent : result.2.structuredContent =
    (applyToolValues ((existing.map (·.structuredContent)).getD []) projection.structuredContent
      MAX_TOOL_STRUCTURED_ITEMS).1
  locations : result.2.locations =
    (applyToolValues ((existing.map (·.locations)).getD []) projection.locations MAX_TOOL_LOCATIONS).1

theorem withHeader_fields (tool : SnapshotTool) (header : Option String)
    : ((header.map (ensureDurableSubagentHeader tool)).getD tool).generation = tool.generation
        ∧ ((header.map (ensureDurableSubagentHeader tool)).getD tool).kind = tool.kind
        ∧ ((header.map (ensureDurableSubagentHeader tool)).getD tool).status = tool.status
        ∧ ((header.map (ensureDurableSubagentHeader tool)).getD tool).title = tool.title
        ∧ (((header.map (ensureDurableSubagentHeader tool)).getD tool).content = tool.content
          ∨ ShowsHeader header tool.status tool.content
            ((header.map (ensureDurableSubagentHeader tool)).getD tool).content) := by
  cases header with
  | none => exact ⟨rfl, rfl, rfl, rfl, .inl rfl⟩
  | some header =>
    refine ⟨rfl, rfl, rfl, rfl, .inr ⟨header, rfl, ?_⟩⟩
    intro other hcontent hstatus
    exact ensureDurableSubagentHeader_content hcontent hstatus header

theorem projectTool_projects (s : SessionSnapshot) (id : String) (generation : Option Nat)
    (projection : ToolProjection) (existing : Option SnapshotTool)
    : Projects id generation projection existing (s.projectTool id generation projection existing) := by
  unfold projectTool
  dsimp only
  split
  . next hreplayed =>
    rw [Bool.and_eq_true, Option.isNone_iff_eq_none] at hreplayed
    dsimp only
    generalize hheader : (settleReplayedHeader _ id projection.status)[id]? = header
    constructor
    . dsimp only
      rw [hheader]
      rcases (withHeader_fields _ header).2.2.2.2 with hcontent | hcontent
      . exact .inl hcontent
      . exact .inr ⟨hreplayed.1, hreplayed.2, hcontent⟩
    . exact (withHeader_fields _ header).1
    . exact (withHeader_fields _ header).2.1
    . exact (withHeader_fields _ header).2.2.1
    . exact (withHeader_fields _ header).2.2.2.1
    . rfl
    . rfl
  . constructor
    . exact .inl rfl
    all_goals rfl

end SessionSnapshot

theorem keptByWrites_title : KeptByWrites fun tool => tool.title.utf8ByteSize ≤ MAX_TEXT_BYTES where
  status h _ := h
  durable h _ := h
  project _ s id generation projection := by
    rw [(s.projectTool_projects id generation projection _).title]
    exact utf8ByteSize_bound_le projection.title MAX_TEXT_BYTES

namespace SessionSnapshot

variable {s t : SessionSnapshot} {id : String}

/--
The tool as the newest history entry that has it shows it.
-/
def retainedTool (s : SessionSnapshot) (id : String) : Option SnapshotTool :=
  (s.history.reverse.find? fun entry => entry.canonicalId == id && entry.tool.isSome).bind (·.tool)

/--
The event is applied to what the snapshot has of the tool once there is room for it.
-/
theorem applyTool_projects {existing : Option SnapshotTool} (generation : Option Nat) (projection : ToolProjection)
    (hplaced : (s.makeRoomForTool id >>= fun t => t.placeNewTool id).Yields (fun _ => False)
      fun (placed : SessionSnapshot × Option SnapshotTool) => placed.1.tools[id]?.or placed.2 = existing)
    : (s.applyTool id generation projection).Yields (fun _ => False) fun t =>
        ∃ result, Projects id generation projection existing result ∧ t.tools[id]? = some result.2
          ∧ t.subagentHeaders = result.1.subagentHeaders := by
  unfold applyTool
  rw [← bind_assoc]
  apply Except.Yields.bind hplaced
  rintro ⟨u, retained⟩ hexisting
  dsimp only at hexisting ⊢
  have htools : (u.trackTool id generation (isTerminalStatus projection.status)).tools = u.tools := by
    unfold trackTool
    split
    . split <;> rfl
    . rfl
  rw [htools, hexisting]
  have hprojects := (u.trackTool id generation (isTerminalStatus projection.status)).projectTool_projects id generation
    projection existing
  generalize (u.trackTool id generation (isTerminalStatus projection.status)).projectTool id generation projection
    existing = result at hprojects
  rcases result with ⟨v, tool⟩
  dsimp only
  have hwritten := attachOrUpdateHistoryTool_frame { v with tools := v.tools.insert id tool } tool
  apply Except.Yields.mono hwritten
  rintro t ⟨hheaders, hlive⟩
  refine ⟨(v, tool), hprojects, ?_, hheaders⟩
  rw [hlive]
  exact TreeMap.getElem?_insert_self

/-! Where the update finds the tool -/

theorem placed_of_live {tool : SnapshotTool} (hlive : s.tools[id]? = some tool)
    : (s.makeRoomForTool id >>= fun t => t.placeNewTool id).Yields (fun _ => False)
        fun (placed : SessionSnapshot × Option SnapshotTool) => placed.1.tools[id]?.or placed.2 = some tool := by
  have hcontains : s.tools.contains id = true := by
    rw [TreeMap.contains_eq_isSome_getElem?, hlive]
    rfl
  unfold makeRoomForTool placeNewTool
  rw [hcontains, Bool.not_true, Bool.and_false, if_neg Bool.false_ne_true]
  change Except.Yields _ _ (if _ then _ else _)
  rw [if_pos hcontains]
  change s.tools[id]?.or none = _
  rw [hlive]
  rfl

theorem expireTombstones_of_le (h : s.retainedToolTombstones.length ≤ MAX_ACTIVE_TOOL_TOMBSTONES) (rounds : Nat)
    : expireTombstones rounds s = .ok s := by
  cases rounds with
  | zero => rfl
  | succ rounds =>
    unfold expireTombstones
    rw [if_neg (Nat.not_lt.mpr h)]

/--
Without the oldest live tool there is at most one more tombstone, which is that tool.
-/
theorem tombstones_eraseTool (oldest : String) {subagentHeaders : TreeMap String String}
    (hheaders : ∀ (id header : String), subagentHeaders[id]? = some header → s.subagentHeaders[id]? = some header)
    (timeline : List SnapshotTimelineEntry)
    : (retainedToolTombstones { s with tools := s.tools.erase oldest, subagentHeaders, timeline }).length
        ≤ s.retainedToolTombstones.length + 1 := by
  have hsubset : retainedToolTombstones { s with tools := s.tools.erase oldest, subagentHeaders, timeline }
      ⊆ oldest :: s.retainedToolTombstones := by
    intro id hid
    by_cases heq : id = oldest
    . exact heq ▸ List.mem_cons_self
    . apply List.mem_cons_of_mem
      unfold retainedToolTombstones at hid ⊢
      rw [List.mem_dedup, List.mem_filter, List.mem_append] at hid ⊢
      rcases hid with ⟨hmem, htombstone⟩
      unfold isRetainedToolTombstone at htombstone ⊢
      have hgone : (s.tools.erase oldest).contains id = s.tools.contains id := by
        rw [TreeMap.contains_erase, bne_iff_ne.mpr (mt Std.compare_eq_iff_eq.mp (Ne.symm heq)), Bool.true_and]
      dsimp only at hmem htombstone
      rw [hgone] at htombstone
      cases hheader : subagentHeaders[id]? with
      | none =>
        have hactive : id ∈ s.activeToolIds := by
          rcases hmem with hmem | hmem
          . rw [TreeMap.mem_keys, TreeMap.mem_iff_isSome_getElem?, hheader] at hmem
            cases hmem
          . exact hmem
        rw [Bool.and_eq_true] at htombstone ⊢
        refine ⟨.inr hactive, htombstone.1, ?_⟩
        rw [List.contains_iff_mem.mpr hactive, Bool.true_or]
      | some header =>
        have hkept := hheaders id header hheader
        rw [hheader, ← hkept] at htombstone
        refine ⟨.inl ?_, htombstone⟩
        rw [TreeMap.mem_keys, TreeMap.mem_iff_isSome_getElem?, hkept]
        rfl
  exact ((List.nodup_dedup _).subperm hsubset).length_le

/--
Making room for a tool that is not live gives up nothing that the snapshot has of it, as long as there is room
for one more tombstone.
-/
theorem makeRoomForTool_retains (hroom : s.tools.size < MAX_TOOLS
      ∨ s.retainedToolTombstones.length < MAX_ACTIVE_TOOL_TOMBSTONES)
    : (s.makeRoomForTool id).Yields (fun _ => False) fun t => t.history = s.history := by
  unfold makeRoomForTool
  split
  . next hfull =>
    rw [Bool.and_eq_true, decide_eq_true_eq] at hfull
    unfold evictOldestTool
    split
    . simp
    . next entry _ =>
      have hheaders : ∀ (id header : String), (if !s.activeToolIds.contains entry.canonicalId
          && !headerUnresolved s.subagentHeaders[entry.canonicalId]? then s.subagentHeaders.erase entry.canonicalId
          else s.subagentHeaders)[id]? = some header → s.subagentHeaders[id]? = some header := by
        intro id header hheader
        split at hheader
        . rw [TreeMap.getElem?_erase] at hheader
          split at hheader
          . cases hheader
          . exact hheader
        . exact hheader
      have htombstones := s.tombstones_eraseTool entry.canonicalId hheaders
        (s.timeline.filter (·.canonicalId != entry.canonicalId))
      unfold enforceActiveToolTombstoneBounds
      rw [expireTombstones_of_le (Nat.le_trans htombstones (by omega))]
      rfl
  . rfl

theorem expireTombstones_tools (rounds : Nat)
    : (expireTombstones rounds s).Yields (fun _ => False) fun t => t.tools = s.tools := by
  induction rounds generalizing s with
  | zero => rfl
  | succ rounds ih =>
    unfold expireTombstones
    split
    . split
      . rfl
      . unfold expireTombstone
        rw [bind_assoc]
        apply Except.Yields.bind (settleHistory_tools s _ _ _).anyError
        rintro t ⟨htools, -, -⟩
        apply Except.Yields.mono ih
        intro u hu
        exact hu.trans htools
    . rfl

theorem makeRoomForTool_absent (hlive : s.tools[id]? = none)
    : (s.makeRoomForTool id).Yields (fun _ => False) fun t => t.tools[id]? = none := by
  unfold makeRoomForTool evictOldestTool
  split
  . split
    . simp
    . next entry _ =>
      apply Except.Yields.mono (expireTombstones_tools _)
      intro t htools
      rw [htools]
      exact getElem?_erase_of_eq_none hlive _
  . exact hlive

theorem placed_of_retained {room : SessionSnapshot} {tool : SnapshotTool} (hlive : s.tools[id]? = none)
    (hroom : s.makeRoomForTool id = .ok room) (hretained : room.retainedTool id = some tool)
    : (s.makeRoomForTool id >>= fun t => t.placeNewTool id).Yields (fun _ => False)
        fun (placed : SessionSnapshot × Option SnapshotTool) => placed.1.tools[id]?.or placed.2 = some tool := by
  have hlive := (makeRoomForTool_absent hlive).of_ok hroom
  rcases Option.bind_eq_some_iff.mp hretained with ⟨priorEntry, hprior, htool⟩
  have hcontains : room.tools.contains id = false := by
    rw [TreeMap.contains_eq_isSome_getElem?, hlive]
    rfl
  rw [hroom]
  change (room.placeNewTool id).Yields _ _
  unfold placeNewTool placeTool
  rw [hcontains, if_neg Bool.false_ne_true, hprior]
  change room.tools[id]?.or priorEntry.tool = some tool
  rw [hlive, htool]
  rfl

end SessionSnapshot

/-! What an update leaves as it was -/

/--
The fields the update does not name are as they were.
-/
structure KeepsFields (update : ToolCallUpdate) (before after : SnapshotTool) : Prop where
  status : update.status = none → after.status = before.status
  title : update.title = none → after.title = before.title
  kind : update.kind = none → after.kind = before.kind

/--
Content and locations are as they were. Only the header of a tool that has ended and belongs to no run is brought
in line with its status.
-/
structure KeepsContent (update : ToolCallUpdate) (header : Option String) (before after : SnapshotTool)
    : Prop where
  content : update.content = none → after.content = before.content
    ∨ after.generation = none ∧ isTerminalStatus after.status
      ∧ SessionSnapshot.ShowsHeader header after.status before.content after.content
  structuredContent : update.content = none → after.structuredContent = before.structuredContent
  locations : update.locations = none → after.locations = before.locations

theorem SessionSnapshot.Projects.keepsContent {id : String} {generation : Option Nat} {projection : ToolProjection}
    {before : SnapshotTool} {result : SessionSnapshot × SnapshotTool}
    (h : Projects id generation projection (some before) result) {update : ToolCallUpdate}
    (hcontent : update.content = none → projection.content = .unchanged ∧ projection.structuredContent = .unchanged)
    (hlocations : update.locations = none → projection.locations = .unchanged)
    : KeepsContent update result.1.subagentHeaders[id]? before result.2 where
  content habsent := by
    have hkept := h.content
    rw [(hcontent habsent).1] at hkept
    rw [h.generation, h.status]
    exact hkept
  structuredContent habsent := by
    rw [h.structuredContent, (hcontent habsent).2]
    rfl
  locations habsent := by
    rw [h.locations, hlocations habsent]
    rfl

/--
An update of a tool that is live leaves what it does not name as it was. Of a tool that is only in the history it
leaves the content and the locations that the history has once there is room for the tool, and these are the
recorded ones unless there are too many tombstones.
-/
theorem partialUpdate_keeps {s t : SessionSnapshot} (hs : Reachable s) (agentId : String)
    (operation : Option (String × String × Nat)) (update : ToolCallUpdate)
    (hok : s.apply (toolCallUpdateEvent agentId s operation update) = .ok t)
    : (∀ tool, s.tools[update.toolCallId]? = some tool → ∃ after, t.tools[update.toolCallId]? = some after
          ∧ KeepsFields update tool after
          ∧ KeepsContent update t.subagentHeaders[update.toolCallId]? tool after)
      ∧ (s.tools[update.toolCallId]? = none → ∀ room, s.makeRoomForTool update.toolCallId = .ok room →
          (∀ tool, room.retainedTool update.toolCallId = some tool →
            ∃ after, t.tools[update.toolCallId]? = some after
              ∧ KeepsContent update t.subagentHeaders[update.toolCallId]? tool after)
          ∧ (s.tools.size < MAX_TOOLS ∨ s.retainedToolTombstones.length < MAX_ACTIVE_TOOL_TOMBSTONES →
            room.retainedTool update.toolCallId = s.retainedTool update.toolCallId)) := by
  unfold toolCallUpdateEvent at hok
  have happly := hok
  unfold SessionSnapshot.apply at happly
  dsimp only at happly
  generalize hprojection : SessionSnapshot.ToolProjection.mk _ _ _ _ _ _ = projection at happly
  have hcontent : update.content = none →
      projection.content = .unchanged ∧ projection.structuredContent = .unchanged := by
    intro habsent
    rw [← hprojection, habsent]
    exact ⟨rfl, rfl⟩
  have hlocations : update.locations = none → projection.locations = .unchanged := by
    intro habsent
    rw [← hprojection, habsent]
  constructor
  . intro tool hlive
    rcases (SessionSnapshot.applyTool_projects _ projection (SessionSnapshot.placed_of_live hlive)).of_ok happly
      with ⟨result, hresult, hafter, hheaders⟩
    refine ⟨result.2, hafter, ?_, ?_⟩
    . have htitle : (bound tool.title MAX_TEXT_BYTES) = tool.title := by
        have hbounded := (hs.holdsTools keptByWrites_title).live update.toolCallId tool hlive
        exact if_neg (Nat.not_lt.mpr hbounded)
      rw [hlive] at hprojection
      constructor
      . intro habsent
        rw [hresult.status, ← hprojection, habsent]
        rfl
      . intro habsent
        rw [hresult.title, ← hprojection, habsent]
        exact htitle
      . intro habsent
        rw [hresult.kind, ← hprojection, habsent]
        rfl
    . rw [hheaders]
      exact hresult.keepsContent hcontent hlocations
  . intro hlive room hroom
    constructor
    . intro tool hretained
      rcases (SessionSnapshot.applyTool_projects _ projection
        (SessionSnapshot.placed_of_retained hlive hroom hretained)).of_ok happly with ⟨result, hresult, hafter, hheaders⟩
      refine ⟨result.2, hafter, ?_⟩
      rw [hheaders]
      exact hresult.keepsContent hcontent hlocations
    . intro hspare
      have hhistory := (SessionSnapshot.makeRoomForTool_retains hspare).of_ok hroom
      unfold SessionSnapshot.retainedTool
      rw [hhistory]

/-! A replayed update -/

/--
A sub-agent that is replayed: the call says that it runs, the update only that it has completed.
-/
def replayedTask : CanonicalEvent :=
  .tool "agent" "thread" none none none "t" .other .inProgress "task" (.set "<task id=\"child\" state=\"running\">")
    (.set []) (.set [])

def completedUpdate : ToolCallUpdate :=
  { toolCallId := "t", kind := none, status := some .completed, title := none, content := none, locations := none }

theorem exists_replayedTask
    : ∃ s t tool after, (SessionSnapshot.new "agent" "thread").apply replayedTask = .ok s
        ∧ s.apply (toolCallUpdateEvent "agent" s none completedUpdate) = .ok t
        ∧ s.tools["t"]? = some tool ∧ t.tools["t"]? = some after ∧ after.content ≠ tool.content := by
  have hrun : ((SessionSnapshot.new "agent" "thread").apply replayedTask).toOption.any (fun s =>
      (s.apply (toolCallUpdateEvent "agent" s none completedUpdate)).toOption.any fun t =>
        s.tools["t"]?.any fun tool => t.tools["t"]?.any fun after => after.content != tool.content) = true := by
    decide +kernel
  rcases (Option.any_eq_true _ _).mp hrun with ⟨s, hs, hrun⟩
  rcases (Option.any_eq_true _ _).mp hrun with ⟨t, ht, hrun⟩
  rcases (Option.any_eq_true _ _).mp hrun with ⟨tool, htool, hrun⟩
  rcases (Option.any_eq_true _ _).mp hrun with ⟨after, hafter, hrun⟩
  rw [Except.toOption_eq_some] at hs ht
  exact ⟨s, t, tool, after, hs, ht, htool, hafter, bne_iff_ne.mp hrun⟩

theorem partialUpdate_keeps_replayedTask
    : ∃ s t tool after, (SessionSnapshot.new "agent" "thread").apply replayedTask = .ok s
        ∧ s.apply (toolCallUpdateEvent "agent" s none completedUpdate) = .ok t
        ∧ s.tools["t"]? = some tool ∧ t.tools["t"]? = some after
        ∧ KeepsFields completedUpdate tool after
        ∧ KeepsContent completedUpdate t.subagentHeaders["t"]? tool after := by
  rcases exists_replayedTask with ⟨s, t, tool, _, hs, ht, htool, -, -⟩
  have hreachable : Reachable s := .perform (.apply replayedTask) (.new "agent" "thread") hs
  rcases (partialUpdate_keeps hreachable "agent" none completedUpdate ht).1 tool htool with ⟨after, hafter, hkeeps⟩
  exact ⟨s, t, tool, after, hs, ht, htool, hafter, hkeeps⟩

/--
The update has no content, but the content that is recorded changes.
-/
theorem not_keepsContent_replayedTask
    : ∃ s t tool after, Reachable s
        ∧ s.apply (toolCallUpdateEvent "agent" s none completedUpdate) = .ok t
        ∧ s.tools["t"]? = some tool ∧ t.tools["t"]? = some after
        ∧ completedUpdate.content = none ∧ after.content ≠ tool.content := by
  rcases exists_replayedTask with ⟨s, t, tool, after, hs, ht, htool, hafter, hcontent⟩
  exact ⟨s, t, tool, after, .perform (.apply replayedTask) (.new "agent" "thread") hs, ht, htool, hafter, rfl, hcontent⟩

end Snapshot
