import TetherBridge.Snapshot.ToolLedger

/-!
This module contains what becomes of the tools of a run when it ends: none is left open, wherever the
snapshot still holds it, and the ids of the open ones are known at any time.
-/

namespace Snapshot

open Acp Std

namespace SessionSnapshot

variable {isTool : String → Prop} {pending : List String} {ledger : Ledger} {s t : SessionSnapshot}

/-! Settling the active tools -/

theorem getElem?_setToolStatus (status : ToolCallStatus) (toolCallId id : String)
    : (s.setToolStatus status toolCallId).tools[id]?
        = if id = toolCallId then s.tools[id]?.map fun tool => { tool with status } else s.tools[id]? := by
  unfold setToolStatus
  cases htool : s.tools[toolCallId]? with
  | none =>
    dsimp only
    split
    . next heq =>
      subst heq
      rw [htool]
      rfl
    . rfl
  | some tool =>
    dsimp only
    rw [TreeMap.getElem?_insert]
    by_cases heq : toolCallId = id
    . subst heq
      rw [if_pos Std.compare_self, if_pos rfl, htool]
      rfl
    . have hcompare : ¬compare toolCallId id = .eq := by
        rw [Std.compare_eq_iff_eq]
        exact heq
      rw [if_neg hcompare, if_neg (Ne.symm heq)]

/--
All but the live tools is as before.
-/
def SameBesidesTools (s t : SessionSnapshot) : Prop :=
  t.history = s.history ∧ t.activeToolIds = s.activeToolIds ∧ t.subagentHeaders = s.subagentHeaders
    ∧ t.activeGeneration = s.activeGeneration

theorem setToolStatus_sameBesidesTools (status : ToolCallStatus) (toolCallId : String)
    : s.SameBesidesTools (s.setToolStatus status toolCallId) := by
  unfold setToolStatus
  split <;> exact ⟨rfl, rfl, rfl, rfl⟩

/--
The live ones of the tools get the status.
-/
theorem foldl_setToolStatus (status : ToolCallStatus) (ids : List String) (s : SessionSnapshot)
    : (∀ id, (ids.foldl (·.setToolStatus status) s).tools[id]?
        = if id ∈ ids then s.tools[id]?.map fun tool => { tool with status } else s.tools[id]?)
      ∧ s.SameBesidesTools (ids.foldl (·.setToolStatus status) s) := by
  induction ids generalizing s with
  | nil => exact ⟨fun id => (if_neg List.not_mem_nil).symm, rfl, rfl, rfl, rfl⟩
  | cons head ids ih =>
    rcases ih (s.setToolStatus status head) with ⟨htools, hsame⟩
    rcases setToolStatus_sameBesidesTools (s := s) status head with ⟨hhistory, hactive, hheaders, hgeneration⟩
    refine ⟨?_, hsame.1.trans hhistory, hsame.2.1.trans hactive, hsame.2.2.1.trans hheaders,
      hsame.2.2.2.trans hgeneration⟩
    intro id
    rw [List.foldl_cons, htools, getElem?_setToolStatus]
    by_cases hhead : id = head
    . subst hhead
      rw [if_pos rfl, if_pos List.mem_cons_self]
      split
      . rw [Option.map_map]
        rfl
      . rfl
    . rw [if_neg hhead]
      have hmem : id ∈ head :: ids ↔ id ∈ ids := by
        rw [List.mem_cons, or_iff_right hhead]
      rw [if_congr hmem rfl rfl]

/--
Live tools that are settled still have to be written to the history.
-/
theorem TracksBut.settleLive (h : s.TracksBut isTool [] ledger) {ids : List String}
    {status : ToolCallStatus}
    (htools : ∀ id, t.tools[id]?
        = if id ∈ ids then s.tools[id]?.map fun tool => { tool with status } else s.tools[id]?)
    (hhistory : t.history = s.history)
    : t.TracksBut isTool (ids.filter (s.tools.contains ·))
        (ledger.settle (ids.filter (s.tools.contains ·)) status) := by
  have hslots : t.slots = s.slots := by
    unfold slots
    rw [hhistory]
  refine ⟨?_, ?_, ?_, hslots ▸ h.sole⟩
  . intro id tool hlive
    rw [htools] at hlive
    by_cases hmem : id ∈ ids
    . rw [if_pos hmem, Option.map_eq_some_iff] at hlive
      rcases hlive with ⟨old, hold, rfl⟩
      have hmemLive : id ∈ ids.filter (s.tools.contains ·) := by
        rw [List.mem_filter, TreeMap.contains_eq_isSome_getElem?, hold]
        exact ⟨hmem, rfl⟩
      rcases h.live id old hold with ⟨hid, htool, hledger⟩
      refine ⟨hid, htool, ?_⟩
      rw [Ledger.settle_of_mem _ hmemLive, hledger]
      rfl
    . rw [if_neg hmem] at hlive
      rw [Ledger.settle_of_not_mem]
      . exact h.live id tool hlive
      . rw [List.mem_filter]
        exact fun hmem' => hmem hmem'.1
  . intro id tool hkept
    rw [hslots] at hkept
    refine ⟨(h.kept id tool hkept).1, ?_⟩
    intro hnot
    rw [Ledger.settle_of_not_mem _ hnot]
    exact (h.kept id tool hkept).2 List.not_mem_nil
  . intro id hwhole htool
    rw [hslots] at hwhole
    exact absurd (h.whole id hwhole htool) List.not_mem_nil

theorem SameTools.refl (s : SessionSnapshot) : s.SameTools s :=
  ⟨rfl, rfl, rfl, rfl⟩

theorem SameTools.trans {u : SessionSnapshot} (h : s.SameTools t) (h' : t.SameTools u) : s.SameTools u :=
  ⟨h'.1.trans h.1, h'.2.1.trans h.2.1, h'.2.2.1.trans h.2.2.1, h'.2.2.2.trans h.2.2.2⟩

theorem foldlM_attachOrUpdateHistoryTool (updates : List SnapshotTool)
    (h : s.TracksBut isTool (updates.map (·.id)) ledger)
    (hupdates : ∀ tool ∈ updates, isTool tool.id ∧ ledger tool.id = some tool.record)
    : (updates.foldlM attachOrUpdateHistoryTool s).Yields (fun _ => False) fun t =>
        t.TracksBut isTool [] ledger ∧ s.SameTools t := by
  induction updates generalizing s with
  | nil => exact ⟨h, .refl s⟩
  | cons tool updates ih =>
    rcases hupdates tool List.mem_cons_self with ⟨htool, hledger⟩
    apply Except.Yields.bind (attachOrUpdateHistoryTool_tracks h htool hledger)
    rintro t ⟨ht, hsame⟩
    apply Except.Yields.mono (ih ht fun tool hmem => hupdates tool (List.mem_cons_of_mem _ hmem))
    rintro u ⟨hu, hsame'⟩
    exact ⟨hu, hsame.trans hsame'⟩

theorem settleRetainedTool_tracks (h : s.TracksBut isTool [] ledger) (status : ToolCallStatus)
    {id : String} (hlive : s.tools.contains id → ledger.settle [id] status = ledger)
    : (s.settleRetainedTool status id).Yields (fun _ => False) fun t =>
        t.TracksBut isTool [] (ledger.settle [id] status) ∧ s.SameTools t := by
  unfold settleRetainedTool
  split
  . next hcontains =>
    rw [hlive hcontains]
    exact ⟨h, .refl s⟩
  . next hcontains =>
    apply settleHistory_tracks h
    rw [TreeMap.contains_eq_isSome_getElem?, Option.not_isSome_iff_eq_none] at hcontains
    exact hcontains

/--
The tools that are not live are settled. Those that are have the status already.
-/
theorem foldlM_settleRetainedTool (status : ToolCallStatus) (ids : List String)
    (h : s.TracksBut isTool [] ledger)
    (hlive : ∀ id ∈ ids, s.tools.contains id → ledger.settle [id] status = ledger)
    : (ids.foldlM (settleRetainedTool · status) s).Yields (fun _ => False) fun t =>
        t.TracksBut isTool [] (ledger.settle ids status) ∧ s.SameTools t := by
  induction ids generalizing s ledger with
  | nil => exact ⟨(Ledger.settle_nil ledger status).symm ▸ h, .refl s⟩
  | cons id ids ih =>
    apply Except.Yields.bind (settleRetainedTool_tracks h status (hlive id List.mem_cons_self))
    rintro t ⟨ht, hsame⟩
    apply Except.Yields.mono (ih ht ?_)
    . rintro u ⟨hu, hsame'⟩
      rw [Ledger.settle_settle] at hu
      exact ⟨hu, hsame.trans hsame'⟩
    . intro other hother hcontains
      rw [hsame.1] at hcontains
      have hsettled := hlive other (List.mem_cons_of_mem _ hother) hcontains
      calc (ledger.settle [id] status).settle [other] status
        _ = ledger.settle [id, other] status := ledger.settle_settle [id] [other] status
        _ = ledger.settle [other, id] status := by
          apply ledger.settle_congr
          intro key
          rw [List.mem_pair, List.mem_pair, or_comm]
        _ = (ledger.settle [other] status).settle [id] status :=
          (ledger.settle_settle [other] [id] status).symm
        _ = ledger.settle [id] status := by rw [hsettled]

/--
No header that is kept has become an unresolved one.
-/
def ResolvesHeaders (s t : SessionSnapshot) : Prop :=
  ∀ id : String, headerUnresolved t.subagentHeaders[id]? → headerUnresolved s.subagentHeaders[id]?

/--
The headers of tools that are not live may be forgotten.
-/
def ForgetsHeaders (s t : SessionSnapshot) : Prop :=
  t.tools = s.tools ∧ t.activeToolIds = s.activeToolIds ∧ t.history = s.history
    ∧ t.activeGeneration = s.activeGeneration ∧ s.ResolvesHeaders t

theorem forgetRetainedHeader_forgets (id : String) : s.ForgetsHeaders (s.forgetRetainedHeader id) := by
  unfold forgetRetainedHeader
  split
  . exact ⟨rfl, rfl, rfl, rfl, fun _ h => h⟩
  . refine ⟨rfl, rfl, rfl, rfl, ?_⟩
    intro other h
    dsimp only at h
    rw [TreeMap.getElem?_erase] at h
    split at h
    . contradiction
    . exact h

theorem foldl_forgetRetainedHeader (ids : List String) (s : SessionSnapshot)
    : s.ForgetsHeaders (ids.foldl (·.forgetRetainedHeader) s) := by
  induction ids generalizing s with
  | nil => exact ⟨rfl, rfl, rfl, rfl, fun _ h => h⟩
  | cons id ids ih =>
    rcases ih (s.forgetRetainedHeader id) with ⟨htools, hactive, hhistory, hgeneration, hheaders⟩
    rcases s.forgetRetainedHeader_forgets id with ⟨htools', hactive', hhistory', hgeneration', hheaders'⟩
    refine ⟨htools.trans htools', hactive.trans hactive', hhistory.trans hhistory',
      hgeneration.trans hgeneration', ?_⟩
    intro other h
    exact hheaders' other (hheaders other h)

theorem TracksBut.forgets (h : s.TracksBut isTool pending ledger) (hforgets : s.ForgetsHeaders t)
    : t.TracksBut isTool pending ledger := by
  apply h.congr hforgets.1
  unfold slots
  rw [hforgets.2.2.1]

/--
The tools are settled, and whoever has an open header had one before.
-/
structure Settles (isTool : String → Prop) (ledger : Ledger) (s t : SessionSnapshot) : Prop where
  tracks : t.TracksBut isTool [] ledger
  activeGeneration : t.activeGeneration = s.activeGeneration
  headers : s.ResolvesHeaders t

theorem ids_filterMap (h : s.TracksBut isTool pending ledger) (ids : List String)
    : (ids.filterMap (s.tools[·]?)).map (·.id) = ids.filter (s.tools.contains ·) := by
  rw [List.map_filterMap, ← List.filterMap_eq_filter]
  apply List.filterMap_congr
  intro id _
  rw [Option.guard_apply, TreeMap.contains_eq_isSome_getElem?]
  cases htool : s.tools[id]? with
  | none => rfl
  | some tool =>
    rw [Option.map_some, (h.live id tool htool).1]
    rfl

theorem terminalizeActiveTools_settles (h : s.TracksBut isTool [] ledger) (status : ToolCallStatus)
    : (s.terminalizeActiveTools status).Yields (fun _ => False) fun t =>
        s.Settles isTool (ledger.settle s.activeToolIds status) t
          ∧ t.activeToolIds = s.activeToolIds := by
  unfold terminalizeActiveTools
  dsimp only
  rcases foldl_setToolStatus status s.activeToolIds s with ⟨htools, hhistory, hactive, hheaders, hgeneration⟩
  generalize s.activeToolIds.foldl (·.setToolStatus status) s = t at *
  have hcontains : ∀ id, t.tools.contains id = s.tools.contains id := by
    intro id
    rw [TreeMap.contains_eq_isSome_getElem?, htools, TreeMap.contains_eq_isSome_getElem?]
    split
    . rw [Option.isSome_map]
    . rfl
  have hsettled := h.settleLive htools hhistory
  have hids := ids_filterMap hsettled s.activeToolIds
  rw [List.filter_congr fun id _ => hcontains id] at hids
  have hupdates : ∀ tool ∈ s.activeToolIds.filterMap (t.tools[·]?), isTool tool.id
      ∧ ledger.settle (s.activeToolIds.filter (s.tools.contains ·)) status tool.id = some tool.record := by
    intro tool hmem
    rw [List.mem_filterMap] at hmem
    rcases hmem with ⟨id, -, hlive⟩
    rcases hsettled.live id tool hlive with ⟨hid, htool, hledger⟩
    rw [hid]
    exact ⟨htool, hledger⟩
  apply Except.Yields.bind (foldlM_attachOrUpdateHistoryTool _ (hids ▸ hsettled) hupdates)
  rintro u ⟨hu, hsame⟩
  apply Except.Yields.bind (foldlM_settleRetainedTool status s.activeToolIds hu ?_)
  . rintro v ⟨hv, hsame'⟩
    rw [Ledger.settle_settle] at hv
    have hforgets := v.foldl_forgetRetainedHeader s.activeToolIds
    generalize s.activeToolIds.foldl (·.forgetRetainedHeader) v = w at *
    have hsame := hsame.trans hsame'
    refine ⟨⟨?_, ?_, ?_⟩, ?_⟩
    . have heq : ledger.settle (s.activeToolIds.filter (s.tools.contains ·) ++ s.activeToolIds) status
          = ledger.settle s.activeToolIds status := by
        apply ledger.settle_congr
        intro id
        rw [List.mem_append, List.mem_filter]
        exact ⟨fun hmem => hmem.elim (·.1) fun hmem => hmem, .inr⟩
      rw [← heq]
      exact hv.forgets hforgets
    . exact hforgets.2.2.2.1.trans (hsame.2.2.2.trans hgeneration)
    . intro id hunresolved
      have := hforgets.2.2.2.2 id hunresolved
      rw [hsame.2.2.1, hheaders] at this
      exact this
    . exact hforgets.2.1.trans (hsame.2.1.trans hactive)
  . intro id hmem hlive
    rw [hsame.1, hcontains] at hlive
    rw [Ledger.settle_settle]
    apply ledger.settle_congr
    intro other
    rw [List.mem_append, List.mem_singleton]
    refine ⟨fun hmem' => hmem'.elim (fun hmem' => hmem') ?_, .inl⟩
    rintro rfl
    exact List.mem_filter.mpr ⟨hmem, hlive⟩

/-! Settling the sub-agents of a run -/

/--
A tool is settled where it is.
-/
theorem settleTool_tracks (h : s.TracksBut isTool [] ledger) (toolCallId : String)
    (status : ToolCallStatus) (header : Option String)
    : (s.settleTool toolCallId status header).Yields (fun _ => False) fun t =>
        t.TracksBut isTool [] (ledger.settle [toolCallId] status) ∧ t.activeToolIds = s.activeToolIds
          ∧ t.subagentHeaders = s.subagentHeaders ∧ t.activeGeneration = s.activeGeneration := by
  unfold settleTool
  split
  . next tool hlive =>
    rcases h.live toolCallId tool hlive with ⟨hid, htool, hledger⟩
    dsimp only
    rcases record_ensureDurableSubagentHeader { tool with status } header with ⟨hrecord, hsame⟩
    generalize (header.map (ensureDurableSubagentHeader { tool with status })).getD { tool with status }
      = settled at *
    have hsettledId : settled.id = toolCallId := hsame.trans hid
    have hsettled : ledger.settle [toolCallId] status settled.id = some settled.record := by
      rw [hsettledId, Ledger.settle_of_mem _ List.mem_cons_self, hledger, hrecord]
      rfl
    have htracks : TracksBut isTool [settled.id] (ledger.settle [toolCallId] status)
        { s with tools := s.tools.insert toolCallId settled } := by
      refine ⟨?_, ?_, ?_, h.sole⟩
      . intro id live hlive'
        dsimp only at hlive'
        rw [TreeMap.getElem?_insert] at hlive'
        split at hlive'
        . next heq =>
          rw [Std.compare_eq_iff_eq] at heq
          subst heq
          injection hlive' with hlive'
          subst hlive'
          exact ⟨hsettledId, htool, hsettledId ▸ hsettled⟩
        . next hne =>
          rw [Std.compare_eq_iff_eq] at hne
          rw [Ledger.settle_of_not_mem _ (by rwa [List.mem_singleton, eq_comm])]
          exact h.live id live hlive'
      . intro id kept hkept
        refine ⟨(h.kept id kept hkept).1, ?_⟩
        rw [hsettledId]
        intro hnot
        rw [Ledger.settle_of_not_mem _ hnot]
        exact (h.kept id kept hkept).2 List.not_mem_nil
      . intro id hwhole htool'
        exact absurd (h.whole id hwhole htool') List.not_mem_nil
    apply Except.Yields.mono (attachOrUpdateHistoryTool_tracks htracks (hsettledId ▸ htool) hsettled)
    rintro t ⟨ht, -, hactive, hheaders, hgeneration⟩
    exact ⟨ht, hactive, hheaders, hgeneration⟩
  . next hlive =>
    apply Except.Yields.mono (settleHistory_tracks h hlive status header)
    rintro t ⟨ht, -, hactive, hheaders, hgeneration⟩
    exact ⟨ht, hactive, hheaders, hgeneration⟩

theorem setHeaderState_same (toolCallId status : String)
    : (s.setHeaderState toolCallId status).tools = s.tools
        ∧ (s.setHeaderState toolCallId status).slots = s.slots
        ∧ (s.setHeaderState toolCallId status).activeToolIds = s.activeToolIds
        ∧ (s.setHeaderState toolCallId status).activeGeneration = s.activeGeneration := by
  unfold setHeaderState
  split <;> exact ⟨rfl, rfl, rfl, rfl⟩

theorem updateSubagentToolTerminal_tracks (h : s.TracksBut isTool [] ledger) (toolCallId status : String)
    (toolStatus : ToolCallStatus)
    : (s.updateSubagentToolTerminal toolCallId status toolStatus).Yields (fun _ => False) fun t =>
        t.TracksBut isTool [] (ledger.settle [toolCallId] toolStatus)
          ∧ t.activeToolIds = s.activeToolIds.filter (· != toolCallId)
          ∧ t.activeGeneration = s.activeGeneration := by
  unfold updateSubagentToolTerminal
  dsimp only
  rcases s.setHeaderState_same toolCallId status with ⟨htools, hslots, hactive, hgeneration⟩
  apply Except.Yields.bind (settleTool_tracks (h.congr htools (hslots ▸ .refl _)) _ _ _)
  rintro t ⟨ht, hactive', -, hgeneration'⟩
  have hforgets := forgetRetainedHeader_forgets
    (s := { t with activeToolIds := t.activeToolIds.filter (· != toolCallId) }) toolCallId
  refine ⟨?_, ?_, ?_⟩
  . apply TracksBut.forgets _ hforgets
    exact ht.congr rfl (.refl _)
  . rw [hforgets.2.1, hactive', hactive]
  . rw [hforgets.2.2.2.1, hgeneration', hgeneration]

theorem foldlM_updateSubagentToolTerminal (ids : List String) (h : s.TracksBut isTool [] ledger)
    (status : String) (toolStatus : ToolCallStatus)
    : (ids.foldlM (updateSubagentToolTerminal · · status toolStatus) s).Yields (fun _ => False) fun t =>
        t.TracksBut isTool [] (ledger.settle ids toolStatus) ∧ t.activeToolIds ⊆ s.activeToolIds
          ∧ t.activeGeneration = s.activeGeneration := by
  induction ids generalizing s ledger with
  | nil => exact ⟨(Ledger.settle_nil ledger toolStatus).symm ▸ h, List.Subset.refl _, rfl⟩
  | cons id ids ih =>
    apply Except.Yields.bind (updateSubagentToolTerminal_tracks h id status toolStatus)
    rintro t ⟨ht, hactive, hgeneration⟩
    apply Except.Yields.mono (ih ht)
    rintro u ⟨hu, hactive', hgeneration'⟩
    rw [Ledger.settle_settle] at hu
    refine ⟨hu, List.Subset.trans hactive' ?_, hgeneration'.trans hgeneration⟩
    rw [hactive]
    exact List.filter_subset_self _

theorem TracksBut.of_toolGeneration (h : s.TracksBut isTool [] ledger) {id : String} {generation : Nat}
    (hgeneration : s.toolGeneration id = some generation)
    : ∃ status, ledger id = some (some generation, status) := by
  unfold toolGeneration at hgeneration
  rw [Option.or_eq_some_iff] at hgeneration
  rcases hgeneration with hlive | ⟨-, hkept⟩
  . rw [Option.bind_eq_some_iff] at hlive
    rcases hlive with ⟨tool, htool, hgeneration⟩
    refine ⟨tool.status, ?_⟩
    rw [(h.live id tool htool).2.2, SnapshotTool.record, hgeneration]
  . rw [Option.bind_eq_some_iff] at hkept
    rcases hkept with ⟨tool, htool, hgeneration⟩
    rw [Option.bind_eq_some_iff] at htool
    rcases htool with ⟨entry, hentry, htool⟩
    have hmem : (id, some tool) ∈ s.slots := by
      have hid := List.find?_some hentry
      rw [beq_iff_eq] at hid
      rw [← hid, ← htool]
      exact List.mem_map_of_mem (List.mem_reverse.mp (List.mem_of_find?_eq_some hentry))
    refine ⟨tool.status, ?_⟩
    rw [(h.kept id tool hmem).2 List.not_mem_nil, SnapshotTool.record, hgeneration]

/--
The tools of the generation that a failed or cancelled run leaves with an open header.
-/
def OpenSubagents (s : SessionSnapshot) (ledger : Ledger) (generation : Nat) (ids : List String) : Prop :=
  ∀ id ∈ ids, headerUnresolved s.subagentHeaders[id]?
    ∧ ∃ status, ledger id = some (some generation, status)

theorem terminalizeUnresolvedSubagents_tracks (h : s.TracksBut isTool [] ledger) {status : String}
    (hstatus : isFailedSubagentState status.toList) (generation : Nat)
    : (s.terminalizeUnresolvedSubagents status generation).Yields (fun _ => False) fun t =>
        ∃ ids, s.OpenSubagents ledger generation ids
          ∧ t.TracksBut isTool [] (ledger.settle ids .failed)
          ∧ t.activeGeneration = s.activeGeneration := by
  unfold terminalizeUnresolvedSubagents
  dsimp only
  rw [if_pos hstatus]
  apply Except.Yields.mono (foldlM_updateSubagentToolTerminal _ h status .failed)
  rintro t ⟨ht, -, hgeneration⟩
  refine ⟨_, ?_, ht, hgeneration⟩
  intro id hmem
  rw [List.mem_filter, beq_iff_eq] at hmem
  refine ⟨?_, h.of_toolGeneration hmem.2⟩
  unfold unresolvedSubagents at hmem
  exact (List.mem_filter.mp hmem.1).2

/--
The open tools are settled with the status, and with it the sub-agents that are left open.
-/
def EndsRun (isTool : String → Prop) (ledger : Ledger) (generation : Nat) (status : ToolCallStatus)
    (s t : SessionSnapshot) : Prop :=
  ∃ ids, s.OpenSubagents ledger generation ids ∧ (status = .completed → ids = [])
    ∧ t.TracksBut isTool [] ((ledger.settle s.activeToolIds status).settle ids .failed)

theorem failRun_ends (h : s.TracksBut isTool [] ledger) {status : String}
    (hstatus : isFailedSubagentState status.toList) (generation : Nat)
    : (s.terminalizeActiveTools .failed >>= (terminalizeUnresolvedSubagents · status generation)).Yields
        (fun _ => False) (s.EndsRun isTool ledger generation .failed) := by
  apply Except.Yields.bind (terminalizeActiveTools_settles h .failed)
  rintro t ⟨ht, -⟩
  apply Except.Yields.mono (terminalizeUnresolvedSubagents_tracks ht.tracks hstatus generation)
  rintro u ⟨ids, hids, hu, -⟩
  refine ⟨ids, ?_, fun hcompleted => by contradiction, hu⟩
  intro id hmem
  rcases hids id hmem with ⟨hunresolved, hledger⟩
  refine ⟨ht.headers id hunresolved, ?_⟩
  rcases hledger with ⟨status, hledger⟩
  by_cases hactive : id ∈ s.activeToolIds
  . rw [Ledger.settle_of_mem _ hactive, Option.map_eq_some_iff] at hledger
    rcases hledger with ⟨⟨generation', status'⟩, hledger, heq⟩
    injection heq with heq
    dsimp only at heq
    exact ⟨status', by rw [hledger, heq]⟩
  . rw [Ledger.settle_of_not_mem _ hactive] at hledger
    exact ⟨status, hledger⟩

/-! The tools of the active run -/

/--
The ids that are followed are those of the open tools of the active generation.
-/
structure Accounted (isTool : String → Prop) (ledger : Ledger) (s : SessionSnapshot) : Prop extends
    TracksBut isTool [] ledger s where
  active : ∀ generation, s.activeGeneration = some generation → ∀ id, id ∈ s.activeToolIds
    ↔ ∃ status, ledger id = some (some generation, status) ∧ ¬isTerminalStatus status

/--
The snapshot is accounted for, and the run it is in goes on with no more open tools than before.
-/
def GoesOn (isTool : String → Prop) (s t : SessionSnapshot) : Prop :=
  (∃ ledger, t.Accounted isTool ledger) ∧ t.activeToolIds ⊆ s.activeToolIds
    ∧ t.activeGeneration = s.activeGeneration

/--
A tool that is given up is closed.
-/
theorem expireTombstone_accounted (h : s.Accounted isTool ledger) {expired : String}
    (hretained : s.isRetainedToolTombstone expired)
    : (s.expireTombstone expired).Yields (fun _ => False) (s.GoesOn isTool) := by
  have hlive : s.tools[expired]? = none := by
    unfold isRetainedToolTombstone at hretained
    rw [Bool.and_eq_true, Bool.not_eq_true', TreeMap.contains_eq_isSome_getElem?,
      Option.isSome_eq_false_iff, Option.isNone_iff_eq_none] at hretained
    exact hretained.1
  unfold expireTombstone
  apply Except.Yields.bind (settleHistory_tracks h.toTracksBut hlive _ _)
  rintro t ⟨ht, -, hactive, -, hgeneration⟩
  refine ⟨⟨ledger.settle [expired] .failed, ⟨ht.congr rfl (.refl _), ?_⟩⟩, ?_, hgeneration⟩
  . intro generation hsome id
    dsimp only at hsome ⊢
    rw [List.mem_filter, bne_iff_ne, hactive, h.active generation (hgeneration ▸ hsome)]
    by_cases heq : id = expired
    . subst heq
      refine ⟨fun hne => absurd rfl hne.2, ?_⟩
      rintro ⟨status, hledger, hopen⟩
      rw [Ledger.settle_of_mem _ List.mem_cons_self, Option.map_eq_some_iff] at hledger
      rcases hledger with ⟨record, -, heq⟩
      injection heq with _ hstatus
      subst hstatus
      exact absurd rfl hopen
    . rw [Ledger.settle_of_not_mem _ (by rwa [List.mem_singleton])]
      exact and_iff_left heq
  . dsimp only
    rw [hactive]
    exact List.filter_subset_self _

theorem GoesOn.trans {u : SessionSnapshot} (h : s.GoesOn isTool t) (h' : t.GoesOn isTool u)
    : s.GoesOn isTool u :=
  ⟨h'.1, List.Subset.trans h'.2.1 h.2.1, h'.2.2.trans h.2.2⟩

theorem expireTombstones_accounted (rounds : Nat) (h : s.Accounted isTool ledger)
    : (expireTombstones rounds s).Yields (fun _ => False) (s.GoesOn isTool) := by
  induction rounds generalizing s ledger with
  | zero => exact ⟨⟨ledger, h⟩, List.Subset.refl _, rfl⟩
  | succ rounds ih =>
    unfold expireTombstones
    split
    . split
      . exact ⟨⟨ledger, h⟩, List.Subset.refl _, rfl⟩
      . next expired hexpired =>
        apply Except.Yields.bind (expireTombstone_accounted h (expiredTombstone_retained hexpired))
        intro t ht
        rcases ht.1 with ⟨ledger, hledger⟩
        apply Except.Yields.mono (ih hledger)
        intro u hu
        exact ht.trans hu
    . exact ⟨⟨ledger, h⟩, List.Subset.refl _, rfl⟩

theorem makeRoomForTool_accounted (h : s.Accounted isTool ledger) (id : String)
    : (s.makeRoomForTool id).Yields (fun _ => False) (s.GoesOn isTool) := by
  unfold makeRoomForTool
  split
  . unfold evictOldestTool
    split
    . simp
    . next entry _ =>
      refine expireTombstones_accounted _ (?_ : Accounted isTool ledger _)
      refine ⟨⟨?_, h.kept, h.whole, h.sole⟩, h.active⟩
      intro id tool hlive
      dsimp only at hlive
      rw [TreeMap.getElem?_erase] at hlive
      split at hlive
      . contradiction
      . exact h.live id tool hlive
  . exact ⟨⟨ledger, h⟩, List.Subset.refl _, rfl⟩

theorem pushTimeline_tracks (h : s.TracksBut isTool [] ledger) (kind : SnapshotTimelineKind) {id : String}
    (hnew : isTool id → ∀ tool, (id, tool) ∉ s.slots)
    : (s.pushTimeline kind id).Yields (fun _ => False) fun t =>
        t.TracksBut isTool [id] ledger ∧ s.SameTools t := by
  unfold pushTimeline
  apply Except.Yields.mono (pushHistory_evicts _ _).anyError
  intro t hevicts
  rcases hevicts.slots with ⟨hslots, htools, hactive, hheaders, hgeneration⟩
  have hcount : (s.countTimelineEntry kind).history = s.history
      ∧ s.SameTools (s.countTimelineEntry kind) := by
    cases kind <;> exact ⟨rfl, rfl, rfl, rfl, rfl⟩
  generalize s.countTimelineEntry kind = counted at *
  rcases hcount with ⟨hhistory, hsame⟩
  dsimp only at hslots htools hactive hheaders hgeneration
  rw [hhistory, List.map_append] at hslots
  change t.slots.Sublist (s.slots ++ [(id, none)]) at hslots
  refine ⟨⟨?_, ?_, ?_, ?_⟩, hsame.trans ⟨htools, hactive, hheaders, hgeneration⟩⟩
  . intro other tool hlive
    rw [htools, hsame.1] at hlive
    exact h.live other tool hlive
  . intro other tool hkept
    rcases List.mem_append.mp (hslots.subset hkept) with hold | hpushed
    . exact ⟨(h.kept other tool hold).1, fun _ => (h.kept other tool hold).2 List.not_mem_nil⟩
    . rw [List.mem_singleton] at hpushed
      injection hpushed with _ hpushed
      contradiction
  . intro other hwhole htool
    rcases List.mem_append.mp (hslots.subset hwhole) with hold | hpushed
    . exact absurd (h.whole other hold htool) List.not_mem_nil
    . rw [List.mem_singleton] at hpushed
      injection hpushed with hpushed _
      rw [hpushed]
      exact List.mem_cons_self
  . apply List.Pairwise.sublist hslots
    rw [List.pairwise_append]
    refine ⟨h.sole, List.pairwise_singleton _ _, ?_⟩
    rintro ⟨other, tool⟩ hold slot hpushed htool heq
    rw [List.mem_singleton] at hpushed
    subst hpushed
    dsimp only at htool heq
    subst heq
    exact hnew htool tool hold

theorem placeNewTool_tracks (h : s.TracksBut isTool [] ledger) {id : String} (htool : isTool id)
    : (s.placeNewTool id).Yields (fun _ => False) fun (t, _) =>
        t.TracksBut isTool [id] ledger ∧ t.activeToolIds = s.activeToolIds
          ∧ t.activeGeneration = s.activeGeneration := by
  unfold placeNewTool
  split
  . exact ⟨h.mono (List.nil_subset _), rfl, rfl⟩
  . unfold placeTool
    split
    . refine ⟨(h.congr ?_ ?_).mono (List.nil_subset _), ?_, ?_⟩
      . rfl
      . exact .refl _
      . rfl
      . rfl
    . next hnone =>
      have hidle : (s.forgetIdleHeader id).tools = s.tools ∧ (s.forgetIdleHeader id).slots = s.slots
          ∧ (s.forgetIdleHeader id).activeToolIds = s.activeToolIds
          ∧ (s.forgetIdleHeader id).activeGeneration = s.activeGeneration := by
        unfold forgetIdleHeader
        split <;> exact ⟨rfl, rfl, rfl, rfl⟩
      rcases hidle with ⟨htools, hslots, hactive, hgeneration⟩
      have hnew : isTool id → ∀ tool, (id, tool) ∉ (s.forgetIdleHeader id).slots := by
        intro _ tool hmem
        rw [hslots] at hmem
        cases tool with
        | none => exact absurd (h.whole id hmem htool) List.not_mem_nil
        | some tool =>
          rcases List.mem_map.mp hmem with ⟨entry, hentry, hslot⟩
          injection hslot with hid htool
          rw [List.find?_eq_none] at hnone
          apply hnone entry (List.mem_reverse.mpr hentry)
          rw [hid, htool]
          exact Bool.and_eq_true_iff.mpr ⟨beq_self_eq_true id, rfl⟩
      apply Except.Yields.bind (pushTimeline_tracks (h.congr htools (hslots ▸ .refl _)) .tool hnew)
      rintro t ⟨ht, -, hactive', -, hgeneration'⟩
      exact ⟨ht, hactive'.trans hactive, hgeneration'.trans hgeneration⟩

theorem mem_trackTool {id : String} {generation : Option Nat}
    (hforeign : generation ≠ s.activeGeneration → id ∉ s.activeToolIds) (terminal : Bool)
    (other : String)
    : other ∈ (s.trackTool id generation terminal).activeToolIds
        ↔ if other = id then generation = s.activeGeneration ∧ ¬terminal else other ∈ s.activeToolIds := by
  unfold trackTool
  split
  . next hgeneration =>
    split
    . next hterminal =>
      dsimp only
      rw [List.mem_filter, bne_iff_ne]
      split
      . next heq => exact ⟨fun h => absurd heq h.2, fun h => absurd hterminal h.2⟩
      . next hne => exact and_iff_left hne
    . next hterminal =>
      dsimp only
      rw [List.mem_insert_iff]
      split
      . next heq => exact ⟨fun _ => ⟨hgeneration, hterminal⟩, fun _ => .inl heq⟩
      . next hne => exact or_iff_right hne
  . next hgeneration =>
    split
    . next heq =>
      rw [heq]
      exact ⟨fun h => absurd h (hforeign hgeneration), fun h => absurd h.1 hgeneration⟩
    . rfl

theorem trackTool_same (id : String) (generation : Option Nat) (terminal : Bool)
    : (s.trackTool id generation terminal).tools = s.tools
        ∧ (s.trackTool id generation terminal).slots = s.slots
        ∧ (s.trackTool id generation terminal).activeGeneration = s.activeGeneration := by
  unfold trackTool
  split
  . split <;> exact ⟨rfl, rfl, rfl⟩
  . exact ⟨rfl, rfl, rfl⟩

theorem projectTool_same (id : String) (generation : Option Nat) (projection : ToolProjection)
    (existing : Option SnapshotTool)
    : (s.projectTool id generation projection existing).1.tools = s.tools
        ∧ (s.projectTool id generation projection existing).1.slots = s.slots
        ∧ (s.projectTool id generation projection existing).1.activeToolIds = s.activeToolIds
        ∧ (s.projectTool id generation projection existing).1.activeGeneration = s.activeGeneration := by
  unfold projectTool
  dsimp only
  split <;> exact ⟨rfl, rfl, rfl, rfl⟩

theorem projectTool_record (id : String) (generation : Option Nat) (projection : ToolProjection)
    (existing : Option SnapshotTool)
    : (s.projectTool id generation projection existing).2.id = id
        ∧ (s.projectTool id generation projection existing).2.record = (generation, projection.status) := by
  unfold projectTool
  dsimp only
  split
  . dsimp only [SnapshotTool.record]
    generalize ((_ : TreeMap String String)[id]?) = header
    cases header <;> exact ⟨rfl, rfl⟩
  . exact ⟨rfl, rfl⟩

/--
A tool that is written live is what the ledger says from now on.
-/
theorem TracksBut.note {tool : SnapshotTool} (h : s.TracksBut isTool [tool.id] ledger)
    (htool : isTool tool.id)
    : TracksBut isTool [tool.id] (ledger.note tool.id tool.record)
        { s with tools := s.tools.insert tool.id tool } := by
  refine ⟨?_, ?_, h.whole, h.sole⟩
  . intro id live hlive
    dsimp only at hlive
    rw [TreeMap.getElem?_insert] at hlive
    split at hlive
    . next heq =>
      rw [Std.compare_eq_iff_eq] at heq
      subst heq
      injection hlive with hlive
      subst hlive
      exact ⟨rfl, htool, Function.update_self _ _ _⟩
    . next hne =>
      rw [Std.compare_eq_iff_eq] at hne
      unfold Ledger.note
      rw [Function.update_of_ne (Ne.symm hne)]
      exact h.live id live hlive
  . intro id kept hkept
    refine ⟨(h.kept id kept hkept).1, ?_⟩
    intro hnot
    rw [List.mem_singleton] at hnot
    unfold Ledger.note
    rw [Function.update_of_ne hnot]
    apply (h.kept id kept hkept).2
    rwa [List.mem_singleton]

theorem applyTool_accounted (h : s.Accounted isTool ledger) {id : String} (htool : isTool id)
    {generation : Option Nat} (hforeign : generation ≠ s.activeGeneration → id ∉ s.activeToolIds)
    (projection : ToolProjection)
    : (s.applyTool id generation projection).Yields (fun _ => False) fun t =>
        ∃ ledger, t.Accounted isTool ledger := by
  unfold applyTool
  apply Except.Yields.bind (makeRoomForTool_accounted h id)
  rintro roomy ⟨⟨ledger, h⟩, hactive, hgeneration⟩
  rw [← hgeneration] at hforeign
  replace hforeign := fun hne hmem => hforeign hne (hactive hmem)
  apply Except.Yields.bind (placeNewTool_tracks h.toTracksBut htool)
  rintro ⟨placed, retainedTool⟩ ⟨hplaced, hactive, hgeneration⟩
  dsimp only at hplaced hactive hgeneration ⊢
  rw [← hactive, ← hgeneration] at hforeign
  have hmem := mem_trackTool hforeign (isTerminalStatus projection.status)
  rcases placed.trackTool_same id generation (isTerminalStatus projection.status)
    with ⟨htools, hslots, hgeneration'⟩
  generalize placed.trackTool id generation (isTerminalStatus projection.status) = tracked at *
  generalize tracked.tools[id]?.or retainedTool = existing
  rcases tracked.projectTool_same id generation projection existing
    with ⟨htools', hslots', hactive', hgeneration''⟩
  rcases tracked.projectTool_record id generation projection existing with ⟨hid, hrecord⟩
  generalize tracked.projectTool id generation projection existing = projected at *
  rcases projected with ⟨projected, tool⟩
  dsimp only at *
  subst hid
  have htracks : projected.TracksBut isTool [tool.id] ledger :=
    hplaced.congr (htools'.trans htools) (by rw [hslots', hslots])
  apply Except.Yields.mono (attachOrUpdateHistoryTool_tracks (htracks.note htool) htool
    (Function.update_self _ _ _))
  rintro t ⟨ht, -, hactiveT, -, hgenerationT⟩
  refine ⟨_, ht, ?_⟩
  intro active hsome other
  dsimp only at hactiveT hgenerationT
  rw [hactiveT, hactive', hmem]
  rw [hgenerationT, hgeneration'', hgeneration'] at hsome
  unfold Ledger.note
  split
  . next heq =>
    subst heq
    rw [Function.update_self, hrecord, hsome]
    constructor
    . rintro ⟨hgeneration, hopen⟩
      exact ⟨_, by rw [hgeneration], hopen⟩
    . rintro ⟨status, heq, hopen⟩
      injection heq with heq
      injection heq with hgeneration hstatus
      rw [hstatus]
      exact ⟨hgeneration, hopen⟩
  . next hne =>
    rw [Function.update_of_ne hne, hactive]
    exact h.active active (hgeneration ▸ hsome) other

/-! A message event -/

theorem Accounted.congr (h : s.Accounted isTool ledger) (hsame : s.SameTools t)
    (hslots : t.slots.Sublist s.slots)
    : t.Accounted isTool ledger := by
  refine ⟨h.toTracksBut.congr hsame.1 hslots, ?_⟩
  intro generation hsome id
  rw [hsame.2.1]
  exact h.active generation (hsame.2.2.2 ▸ hsome) id

theorem updateHistoryMessage_same (message : SnapshotMessage)
    : (s.updateHistoryMessage message).Yields (fun _ => False) fun t =>
        t.slots.Sublist s.slots ∧ s.SameTools t := by
  unfold updateHistoryMessage
  split
  . next index _ =>
    apply Except.Yields.mono (mutateHistoryEntryAt_evicts _ _ _).anyError
    intro t hevicts
    rcases hevicts.slots with ⟨hslots, htools, hactive, hheaders, hgeneration⟩
    rw [map_modify_of_eq] at hslots
    . exact ⟨hslots, htools, hactive, hheaders, hgeneration⟩
    . intro entry
      rfl
  . exact ⟨.refl _, .refl s⟩

theorem TracksBut.drop {id : String} (h : s.TracksBut isTool (id :: pending) ledger) (hid : ¬isTool id)
    : s.TracksBut isTool pending ledger where
  live := h.live
  kept other tool hkept := by
    refine ⟨(h.kept other tool hkept).1, ?_⟩
    intro hnot
    apply (h.kept other tool hkept).2
    rw [List.mem_cons, not_or]
    refine ⟨?_, hnot⟩
    rintro rfl
    exact hid (h.kept other tool hkept).1
  whole other hwhole hother := by
    rcases List.mem_cons.mp (h.whole other hwhole hother) with heq | hmem
    . exact absurd (heq ▸ hother) hid
    . exact hmem
  sole := h.sole

theorem appendMessage_accounted (h : s.Accounted isTool ledger) {id : String} (hid : ¬isTool id)
    (role : MessageRole) (content : String) (contentBlock : Option Json)
    : (s.appendMessage id role content contentBlock).Yields (fun _ => False)
        (Accounted isTool ledger) := by
  unfold appendMessage
  split
  . dsimp only
    apply Except.Yields.mono (updateHistoryMessage_same _)
    rintro t ⟨hslots, hsame⟩
    exact h.congr hsame hslots
  . have hroom : s.makeRoomForMessage.Yields (fun _ => False) (Accounted isTool ledger) := by
      unfold makeRoomForMessage
      split
      . split
        . simp
        . exact h.congr ⟨rfl, rfl, rfl, rfl⟩ (.refl _)
      . exact h
    apply Except.Yields.bind hroom
    intro roomy h
    unfold insertMessage
    apply Except.Yields.bind (pushTimeline_tracks h.toTracksBut _ (absurd · hid))
    rintro pushed ⟨hpushed, hsame⟩
    dsimp only
    apply Except.Yields.mono (updateHistoryMessage_same _)
    rintro t ⟨hslots, hsame'⟩
    have hsame := hsame.trans hsame'
    refine ⟨(hpushed.drop hid).congr hsame'.1 hslots, ?_⟩
    intro generation hsome other
    rw [hsame.2.1]
    exact h.active generation (hsame.2.2.2 ▸ hsome) other

theorem attachTurnUsage_accounted (h : s.Accounted isTool ledger) (usage : BridgeTurnUsageSnapshot)
    : (s.attachTurnUsage usage).Yields (fun _ => False) (Accounted isTool ledger) := by
  unfold attachTurnUsage
  split
  . exact h
  . split
    . exact h
    . dsimp only
      apply Except.Yields.mono (updateHistoryMessage_same _)
      rintro t ⟨hslots, hsame⟩
      exact h.congr hsame hslots

/-! The start and the end of a run -/

/--
What is known is no more than what the snapshot holds.
-/
theorem TracksBut.within (h : s.TracksBut isTool [] ledger)
    : ∃ known : Ledger, s.TracksBut isTool [] known
        ∧ ∀ id record, known id = some record → ∃ tool, s.Holds id tool ∧ tool.record = record := by
  classical
  have hknown : ∀ id tool, s.Holds id tool
      → (if ∃ tool, s.Holds id tool then ledger id else none) = some tool.record := by
    intro id tool hholds
    rw [if_pos ⟨tool, hholds⟩]
    exact (h.holds hholds).2
  refine ⟨fun id => if ∃ tool, s.Holds id tool then ledger id else none, ⟨?_, ?_, h.whole, h.sole⟩, ?_⟩
  . intro id tool hlive
    rcases h.live id tool hlive with ⟨hid, htool, -⟩
    exact ⟨hid, htool, hknown id tool (.inl hlive)⟩
  . intro id tool hkept
    exact ⟨(h.kept id tool hkept).1, fun _ => hknown id tool (.inr hkept)⟩
  . intro id record hrecord
    dsimp only at hrecord
    split at hrecord
    . next hholds =>
      rcases hholds with ⟨tool, hholds⟩
      refine ⟨tool, hholds, ?_⟩
      rw [(h.holds hholds).2] at hrecord
      exact Option.some.inj hrecord
    . contradiction

/--
A tool that is settled, or that was not open before, is not open.
-/
theorem not_settled_of_open {ids others : List String} {status : ToolCallStatus} (hstatus : isTerminalStatus status)
    {id : String} {record : Option Nat × ToolCallStatus}
    (hledger : (ledger.settle ids status).settle others .failed id = some record)
    (hopen : ¬isTerminalStatus record.2)
    : id ∉ ids ∧ ledger id = some record := by
  by_cases hothers : id ∈ others
  . rw [Ledger.settle_of_mem _ hothers, Option.map_eq_some_iff] at hledger
    rcases hledger with ⟨old, -, rfl⟩
    exact absurd rfl hopen
  . rw [Ledger.settle_of_not_mem _ hothers] at hledger
    by_cases hids : id ∈ ids
    . rw [Ledger.settle_of_mem _ hids, Option.map_eq_some_iff] at hledger
      rcases hledger with ⟨old, -, rfl⟩
      exact absurd hstatus hopen
    . rw [Ledger.settle_of_not_mem _ hids] at hledger
      exact ⟨hids, hledger⟩

/--
What the events promise of tools: a run starts with a generation of which no tool is open, unless it goes
on, and a tool that is followed is not taken over by another generation.
-/
def Expects (s : SessionSnapshot) : CanonicalEvent → Prop
  | .runStarted _ _ _ _ generation =>
    s.activeGeneration = some generation
      ∨ ∀ id tool, s.Holds id tool → tool.generation = some generation → isTerminalStatus tool.status
  | .tool _ _ _ _ generation toolCallId .. =>
    generation = s.activeGeneration ∨ toolCallId ∉ s.activeToolIds
  | _ => True

theorem startRun_accounted (h : s.Accounted isTool ledger) {generation : Nat}
    (hexpects : s.activeGeneration = some generation
      ∨ ∀ id tool, s.Holds id tool → tool.generation = some generation → isTerminalStatus tool.status)
    : s.abandonActiveRun.Yields (fun _ => False) fun t => ∃ known, t.TracksBut isTool [] known
        ∧ ∀ id status, known id = some (some generation, status) → isTerminalStatus status := by
  rcases h.toTracksBut.within with ⟨known, htracks, hheld⟩
  have hopen : ∀ id status, known id = some (some generation, status) → ¬isTerminalStatus status
      → s.activeGeneration = some generation ∧ id ∈ s.activeToolIds := by
    intro id status hknown hopen
    rcases hheld id _ hknown with ⟨tool, hholds, hrecord⟩
    injection hrecord with hgeneration hstatus
    rcases hexpects with hactive | hclosed
    . refine ⟨hactive, ?_⟩
      rw [h.active generation hactive]
      refine ⟨status, ?_, hopen⟩
      rw [(h.holds hholds).2, SnapshotTool.record, hgeneration, hstatus]
    . rw [← hstatus] at hopen
      exact absurd (hclosed id tool hholds hgeneration) hopen
  unfold abandonActiveRun
  split
  . next active hactive =>
    apply Except.Yields.mono (failRun_ends htracks (by decide) active)
    rintro t ⟨ids, -, -, ht⟩
    refine ⟨_, ht, ?_⟩
    intro id status hknown
    by_contra hstatus
    rcases not_settled_of_open rfl hknown hstatus with ⟨hnot, hold⟩
    exact hnot (hopen id status hold hstatus).2
  . next hnone =>
    refine ⟨known, htracks, ?_⟩
    intro id status hknown
    by_contra hstatus
    rw [(hopen id status hknown hstatus).1] at hnone
    contradiction

/--
The generation an event ends, and the status its open tools get.
-/
def endOfRun? : CanonicalEvent → Option (Nat × ToolCallStatus)
  | .runFinished _ _ _ _ generation stopReason =>
    some (generation, if stopReason == .cancelled then .failed else .completed)
  | .runFailed _ _ _ _ generation _ => some (generation, .failed)
  | _ => none

theorem apply_endsRun (h : s.TracksBut isTool [] ledger) {event : CanonicalEvent} {generation : Nat}
    {status : ToolCallStatus} (hend : endOfRun? event = some (generation, status))
    (hactive : s.activeGeneration = some generation)
    : (s.apply event).Yields (fun _ => False) fun t =>
        s.EndsRun isTool ledger generation status t ∧ t.activeToolIds = [] ∧ t.activeGeneration = none := by
  have hclear : ∀ {t : SessionSnapshot}, s.EndsRun isTool ledger generation status t
      → s.EndsRun isTool ledger generation status t.clearActiveRun := by
    rintro t ⟨ids, hopen, hcompleted, ht⟩
    exact ⟨ids, hopen, hcompleted, ht.congr rfl (.refl _)⟩
  cases event with
  | runFinished agentId threadId runId sourceTurnId generation' stopReason =>
    injection hend with hend
    injection hend with hgeneration hstatus
    subst hgeneration
    unfold apply
    dsimp only
    rw [if_pos hactive]
    have hends : (s.settleFinishedRun generation' stopReason).Yields (fun _ => False)
        (s.EndsRun isTool ledger generation' status) := by
      unfold settleFinishedRun
      rw [← hstatus]
      split
      . exact failRun_ends h (by decide) generation'
      . apply Except.Yields.mono (terminalizeActiveTools_settles h .completed)
        rintro t ⟨ht, -⟩
        refine ⟨[], ?_, fun _ => rfl, ?_⟩
        . intro id hmem
          contradiction
        . rw [Ledger.settle_nil]
          exact ht.tracks
    apply Except.Yields.bind hends
    intro t ht
    exact ⟨hclear ht, rfl, rfl⟩
  | runFailed agentId threadId runId sourceTurnId generation' message =>
    injection hend with hend
    injection hend with hgeneration hstatus
    subst hgeneration hstatus
    unfold apply
    dsimp only
    rw [if_pos hactive, ← bind_assoc]
    apply Except.Yields.bind (failRun_ends h (by decide) generation')
    intro t ht
    exact ⟨hclear ht, rfl, rfl⟩
  | _ => contradiction

theorem apply_accounted (h : s.Accounted isTool ledger) {event : CanonicalEvent}
    (hrespects : (Operation.apply event).Respects isTool) (hexpects : s.Expects event)
    : (s.apply event).Yields (fun _ => False) fun t => ∃ ledger, t.Accounted isTool ledger := by
  cases hend : endOfRun? event with
  | some ended =>
    rcases ended with ⟨generation, status⟩
    by_cases hactive : s.activeGeneration = some generation
    . apply Except.Yields.mono (apply_endsRun h.toTracksBut hend hactive)
      rintro t ⟨⟨ids, -, -, ht⟩, -, hnone⟩
      refine ⟨_, ht, ?_⟩
      intro generation hsome
      rw [hnone] at hsome
      contradiction
    . have hsame : s.apply event = .ok s := by
        cases event with
        | runFinished agentId threadId runId sourceTurnId generation' stopReason =>
          injection hend with hend
          injection hend with hgeneration
          subst hgeneration
          exact if_neg hactive
        | runFailed agentId threadId runId sourceTurnId generation' message =>
          injection hend with hend
          injection hend with hgeneration
          subst hgeneration
          exact if_neg hactive
        | _ => contradiction
      rw [hsame]
      exact ⟨ledger, h⟩
  | none =>
    cases event with
    | runStarted agentId threadId runId sourceTurnId generation =>
      apply Except.Yields.bind (startRun_accounted h hexpects)
      rintro t ⟨known, ht, hclosed⟩
      refine ⟨known, ht.congr rfl (.refl _), ?_⟩
      intro generation' hsome id
      injection hsome with hsome
      subst hsome
      refine ⟨fun hmem => absurd hmem List.not_mem_nil, ?_⟩
      rintro ⟨status, hknown, hopen⟩
      exact absurd (hclosed id status hknown) hopen
    | runFinished => contradiction
    | runFailed => contradiction
    | messageChunk agentId threadId runId sourceTurnId generation role messageId content contentBlock =>
      apply Except.Yields.mono (appendMessage_accounted h (hrespects.1 messageId rfl) role content contentBlock)
      intro t ht
      exact ⟨ledger, ht⟩
    | tool agentId threadId runId sourceTurnId generation toolCallId =>
      apply applyTool_accounted h (hrespects.2 toolCallId rfl)
      intro hne
      exact hexpects.resolve_left hne
    | turnTokenUsage =>
      apply Except.Yields.mono (attachTurnUsage_accounted (h.congr ?_ ?_) _)
      . intro t ht
        exact ⟨ledger, ht⟩
      . exact ⟨rfl, rfl, rfl, rfl⟩
      . exact .refl _
    | _ => exact ⟨ledger, h.congr ⟨rfl, rfl, rfl, rfl⟩ (.refl _)⟩

/-! The runs -/

/--
The ids that are followed are those of the open tools of the run, as far as the snapshot still holds them.
-/
def FollowsTools (s : SessionSnapshot) : Prop :=
  ∀ generation, s.activeGeneration = some generation → ∀ id tool, s.Holds id tool →
    (id ∈ s.activeToolIds ↔ tool.generation = some generation ∧ ¬isTerminalStatus tool.status)

/--
The run of the generation has ended. A tool that had ended before is as it was, unless the run did not
finish and the header still showed a sub-agent at work.
-/
structure ClosesRun (generation : Nat) (status : ToolCallStatus) (s t : SessionSnapshot) : Prop where
  closed : ∀ id tool, t.Holds id tool → tool.generation = some generation → isTerminalStatus tool.status
  kept : ∀ id tool tool', s.Holds id tool → isTerminalStatus tool.status → t.Holds id tool' →
    tool'.status = tool.status
      ∨ (status = .failed ∧ tool'.status = .failed ∧ tool.generation = some generation
        ∧ headerUnresolved s.subagentHeaders[id]?)
  idle : t.activeToolIds = []

theorem Accounted.follows (h : s.Accounted isTool ledger) : s.FollowsTools := by
  intro generation hactive id tool hholds
  rw [h.active generation hactive, (h.holds hholds).2]
  constructor
  . rintro ⟨status, hrecord, hopen⟩
    injection Option.some.inj hrecord with hgeneration hstatus
    rw [hstatus]
    exact ⟨hgeneration, hopen⟩
  . rintro ⟨hgeneration, hopen⟩
    exact ⟨tool.status, by rw [SnapshotTool.record, hgeneration], hopen⟩

theorem Accounted.closesRun (h : s.Accounted isTool ledger) {event : CanonicalEvent} {generation : Nat}
    {status : ToolCallStatus} (hend : endOfRun? event = some (generation, status))
    (hactive : s.activeGeneration = some generation) (hok : s.apply event = .ok t)
    : s.ClosesRun generation status t := by
  rcases (apply_endsRun h.toTracksBut hend hactive).of_ok hok with ⟨⟨ids, hopen, hcompleted, ht⟩, hidle, -⟩
  have hstatus : status = .completed ∨ status = .failed := by
    cases event with
    | runFinished agentId threadId runId sourceTurnId generation' stopReason =>
      injection hend with hend
      injection hend with _ hstatus
      subst hstatus
      split
      . exact .inr rfl
      . exact .inl rfl
    | runFailed =>
      injection hend with hend
      injection hend with _ hstatus
      exact .inr hstatus.symm
    | _ => contradiction
  have hterminal : isTerminalStatus status := by
    rcases hstatus with rfl | rfl <;> rfl
  refine ⟨?_, ?_, hidle⟩
  . intro id tool hholds hgeneration
    by_contra hstill
    rcases not_settled_of_open hterminal (ht.holds hholds).2 hstill with ⟨hnot, hledger⟩
    apply hnot
    rw [h.active generation hactive]
    exact ⟨tool.status, by rw [hledger, SnapshotTool.record, hgeneration], hstill⟩
  . intro id tool tool' hholds hwas hholds'
    have hledger := (h.holds hholds).2
    have hledger' := (ht.holds hholds').2
    have hnot : id ∉ s.activeToolIds := by
      intro hmem
      exact ((h.follows generation hactive id tool hholds).mp hmem).2 hwas
    by_cases hmem : id ∈ ids
    . right
      rcases hopen id hmem with ⟨hunresolved, status', hrecord⟩
      rw [Ledger.settle_of_mem _ hmem, Ledger.settle_of_not_mem _ hnot, hledger] at hledger'
      injection Option.some.inj hledger' with _ hfailed
      rw [hledger] at hrecord
      injection Option.some.inj hrecord with hgeneration _
      refine ⟨hstatus.resolve_left ?_, hfailed.symm, hgeneration, hunresolved⟩
      intro hcompleted'
      rw [hcompleted hcompleted'] at hmem
      contradiction
    . left
      rw [Ledger.settle_of_not_mem _ hmem, Ledger.settle_of_not_mem _ hnot, hledger] at hledger'
      injection Option.some.inj hledger' with _ hsame
      exact hsame.symm

end SessionSnapshot

/--
The snapshots a session can hold when its events use different ids for messages and for tools, and promise
what is expected of them.
-/
inductive ReachableInRuns (isTool : String → Prop) : SessionSnapshot → Prop where
  | new (agentId threadId : String) : ReachableInRuns isTool (.new agentId threadId)
  | apply {s t : SessionSnapshot} {event : CanonicalEvent} (h : ReachableInRuns isTool s)
      (hrespects : (Operation.apply event).Respects isTool) (hexpects : s.Expects event)
      (hok : s.apply event = .ok t)
    : ReachableInRuns isTool t
  | reorder {s : SessionSnapshot} {activeToolIds : List String} (h : ReachableInRuns isTool s)
      (hperm : activeToolIds.Perm s.activeToolIds)
    : ReachableInRuns isTool { s with activeToolIds }

namespace ReachableInRuns

variable {isTool : String → Prop} {s : SessionSnapshot}

theorem accounted (h : ReachableInRuns isTool s) : ∃ ledger, s.Accounted isTool ledger := by
  induction h with
  | new agentId threadId =>
    refine ⟨fun _ => none, ⟨?_, ?_, ?_, .nil⟩, ?_⟩
    . intro id tool hlive
      contradiction
    . intro id tool hkept
      contradiction
    . intro id hwhole
      contradiction
    . intro generation hsome
      contradiction
  | apply h hrespects hexpects hok ih =>
    rcases ih with ⟨ledger, hledger⟩
    exact (SessionSnapshot.apply_accounted hledger hrespects hexpects).of_ok hok
  | reorder h hperm ih =>
    rcases ih with ⟨ledger, hledger⟩
    refine ⟨ledger, hledger.toTracksBut.congr rfl (.refl _), ?_⟩
    intro generation hsome id
    rw [← hledger.active generation hsome]
    exact hperm.mem_iff

/--
No tool outlives its run.
-/
theorem toolsEndWithRun (h : ReachableInRuns isTool s)
    : s.FollowsTools ∧ ∀ event generation status t,
        SessionSnapshot.endOfRun? event = some (generation, status) → s.activeGeneration = some generation
          → s.apply event = .ok t → s.ClosesRun generation status t := by
  rcases h.accounted with ⟨ledger, hledger⟩
  exact ⟨hledger.follows, fun _ _ _ _ => hledger.closesRun⟩

end ReachableInRuns

namespace SessionSnapshot

def applyAll (events : List CanonicalEvent) : Except Panic SessionSnapshot :=
  events.foldlM apply (.new "agent" "thread")

def runStarted (generation : Nat) : CanonicalEvent :=
  .runStarted "agent" "thread" "run" "turn" generation

def runFailed (generation : Nat) : CanonicalEvent :=
  .runFailed "agent" "thread" "run" "turn" generation "lost"

def called (generation : Nat) (status : ToolCallStatus) (content : FieldUpdate String := .unchanged)
    : CanonicalEvent :=
  .tool "agent" "thread" none none (some generation) "t" .other status "work" content .unchanged .unchanged

def working : FieldUpdate String :=
  .set "<task id=\"c\" state=\"running\">"

def liveRecord (s : SessionSnapshot) : Option (Option Nat × ToolCallStatus) :=
  s.tools["t"]?.map (·.record)

def keptRecords (s : SessionSnapshot) : List (Option (Option Nat × ToolCallStatus)) :=
  s.history.map fun entry => entry.tool.map (·.record)

theorem toolsEndWithRun_called
    : ∃ s t, (applyAll [runStarted 1, called 1 .pending]) = .ok s ∧ s.apply (runFailed 1) = .ok t
        ∧ s.liveRecord = some (some 1, .pending) ∧ s.activeToolIds = ["t"]
        ∧ t.liveRecord = some (some 1, .failed)
        ∧ s.FollowsTools ∧ s.ClosesRun 1 .failed t := by
  have hrun : ((applyAll [runStarted 1, called 1 .pending]).toOption.bind fun s =>
      (s.apply (runFailed 1)).toOption.map fun t =>
        (s.liveRecord, s.activeToolIds, t.liveRecord))
      = some (some (some 1, .pending), ["t"], some (some 1, .failed)) := by
    decide +kernel
  rw [Option.bind_eq_some_iff] at hrun
  rcases hrun with ⟨s, hs, hrun⟩
  rw [Option.map_eq_some_iff] at hrun
  rcases hrun with ⟨t, ht, hrecords⟩
  rw [Except.toOption_eq_some] at hs ht
  simp only [Prod.mk.injEq] at hrecords
  refine ⟨s, t, hs, ht, hrecords.1, hrecords.2.1, hrecords.2.2, ?_⟩
  have hreachable : ReachableInRuns (· = "t") s ∧ s.activeGeneration = some 1 := by
    unfold applyAll at hs
    rw [List.foldlM_cons, Except.bind_eq_ok] at hs
    rcases hs with ⟨started, hstarted, hs⟩
    rw [List.foldlM_cons, Except.bind_eq_ok] at hs
    rcases hs with ⟨s', hcalled, hs⟩
    injection hs with hs
    subst hs
    have hactive : started.activeGeneration = some 1 := ((apply_runs _ _).of_ok hstarted).1
    refine ⟨.apply (.apply (.new "agent" "thread") ⟨?_, ?_⟩ ?_ hstarted) ⟨?_, ?_⟩ ?_ hcalled,
      ((apply_runs _ _).of_ok hcalled).1.trans hactive⟩
    . intro id hid
      contradiction
    . intro id hid
      contradiction
    . right
      intro id tool hholds
      rcases hholds with hlive | hkept
      . contradiction
      . contradiction
    . intro id hid
      contradiction
    . intro id hid
      injection hid with hid
      exact hid.symm
    . exact .inl hactive.symm
  have hends := hreachable.1.toolsEndWithRun
  exact ⟨hends.1, hends.2 (runFailed 1) 1 .failed t rfl hreachable.2 ht⟩

/--
A tool that has completed is failed with its run when its header still shows a sub-agent at work, and when
it was another generation that completed it. A tool that is open when its run starts stays open when the run
ends, and so does the entry of a tool whose id a message has taken over.
-/
theorem outlivesRun
    : ((applyAll [runStarted 1, called 1 .inProgress working, called 1 .completed]).toOption.map liveRecord
          = some (some (some 1, .completed))
        ∧ (applyAll [runStarted 1, called 1 .inProgress working, called 1 .completed, runFailed 1]).toOption.map
            liveRecord
          = some (some (some 1, .failed)))
      ∧ ((applyAll [runStarted 1, called 1 .pending, called 2 .completed]).toOption.map liveRecord
          = some (some (some 2, .completed))
        ∧ (applyAll [runStarted 1, called 1 .pending, called 2 .completed, runFailed 1]).toOption.map liveRecord
          = some (some (some 2, .failed)))
      ∧ (applyAll [runStarted 1, called 2 .pending, runStarted 2, runFailed 2]).toOption.map liveRecord
          = some (some (some 2, .pending))
      ∧ (applyAll [runStarted 1, called 1 .pending,
            .messageChunk "agent" "thread" none none none .agent "t" "x" none, called 1 .completed,
            runFailed 1]).toOption.map keptRecords
          = some [some (some 1, .pending), some (some 1, .completed)] := by
  refine ⟨⟨?_, ?_⟩, ⟨?_, ?_⟩, ?_, ?_⟩ <;> decide +kernel

end SessionSnapshot

end Snapshot
