import TetherBridge.Snapshot.Page
import TetherBridge.Snapshot.ToolRuns

/-!
This module contains what the history has of the tools: the entry of a live tool has it as a client gets it
with the live window.
-/

namespace Snapshot

open Acp Std

namespace SessionSnapshot

variable {isTool : String → Prop} {pending : List String} {s t : SessionSnapshot}

/--
Each tool has one entry, which has the tool under its id, and that of a live tool has it as the live window
shows it. The entries of the pending ones are still to be written.
-/
structure ShadowsBut (isTool : String → Prop) (pending : List String) (s : SessionSnapshot) : Prop where
  live : ∀ (id : String) (tool : SnapshotTool), s.tools[id]? = some tool → tool.id = id ∧ isTool id
  kept : ∀ (id : String) (tool : SnapshotTool), (id, some tool) ∈ s.slots → tool.id = id ∧ isTool id
  whole : ∀ id, (id, none) ∈ s.slots → isTool id → id ∈ pending
  sole : s.Sole isTool
  mirror : ∀ (id : String) (tool kept : SnapshotTool), s.tools[id]? = some tool → id ∉ pending →
    (id, some kept) ∈ s.slots → kept = s.windowTool id tool

theorem ShadowsBut.mono (h : s.ShadowsBut isTool pending) {pending' : List String}
    (hsubset : pending ⊆ pending')
    : s.ShadowsBut isTool pending' where
  live := h.live
  kept := h.kept
  whole id hwhole htool := hsubset (h.whole id hwhole htool)
  sole := h.sole
  mirror id tool kept hlive hnot := h.mirror id tool kept hlive fun hmem => hnot (hsubset hmem)

/--
Some history entries may be gone, and live tools and their headers are as before.
-/
theorem ShadowsBut.congr (h : s.ShadowsBut isTool pending)
    (htools : ∀ (id : String) (tool : SnapshotTool), t.tools[id]? = some tool → s.tools[id]? = some tool)
    (hheaders : ∀ (id : String) (tool : SnapshotTool), t.tools[id]? = some tool → id ∉ pending →
      t.subagentHeaders[id]? = s.subagentHeaders[id]?)
    (hslots : t.slots.Sublist s.slots)
    : t.ShadowsBut isTool pending where
  live id tool hlive := h.live id tool (htools id tool hlive)
  kept id tool hkept := h.kept id tool (hslots.subset hkept)
  whole id hwhole htool := h.whole id (hslots.subset hwhole) htool
  sole := h.sole.sublist hslots
  mirror id tool kept hlive hnot hkept := by
    rw [h.mirror id tool kept (htools id tool hlive) hnot (hslots.subset hkept)]
    unfold windowTool
    rw [hheaders id tool hlive hnot]

theorem ShadowsBut.sameTools (h : s.ShadowsBut isTool pending) (htools : t.tools = s.tools)
    (hheaders : t.subagentHeaders = s.subagentHeaders) (hslots : t.slots.Sublist s.slots)
    : t.ShadowsBut isTool pending := by
  apply h.congr _ _ hslots
  . rw [htools]
    exact fun _ _ hlive => hlive
  . rw [hheaders]
    exact fun _ _ _ _ => rfl

theorem getElem?_erase_of_ne {β : Type} {map : TreeMap String β} {id other : String} (hne : id ≠ other)
    : (map.erase id)[other]? = map[other]? := by
  rw [TreeMap.getElem?_erase, if_neg]
  rw [Std.compare_eq_iff_eq]
  exact hne

/-! Writing the entry of a tool -/

/--
The entry of a live tool is written.
-/
theorem attachOrUpdateHistoryTool_shadows {tool : SnapshotTool}
    (h : s.ShadowsBut isTool (tool.id :: pending)) (hlive : s.tools[tool.id]? = some tool)
    : (s.attachOrUpdateHistoryTool tool).Yields (fun _ => False) fun t =>
        t.ShadowsBut isTool pending ∧ s.SameTools t := by
  have hwritten : s.attachOrUpdateHistoryTool tool = (s.lastHistoryIdx tool.id).elim (.ok s) fun index =>
      s.mutateHistoryEntryAt index fun entry => { entry with tool := some (s.windowTool tool.id tool) } := by
    unfold attachOrUpdateHistoryTool windowTool
    cases s.subagentHeaders[tool.id]? with
    | none =>
      dsimp only
      cases s.lastHistoryIdx tool.id <;> rfl
    | some header =>
      have hid : (ensureDurableSubagentHeader tool header).id = tool.id := rfl
      dsimp only
      rw [hid]
      cases s.lastHistoryIdx tool.id <;> rfl
  have htool := (h.live tool.id tool hlive).2
  rw [hwritten]
  cases hindex : s.lastHistoryIdx tool.id with
  | none =>
    rw [Option.elim_none]
    refine ⟨⟨h.live, h.kept, ?_, h.sole, ?_⟩, .refl s⟩
    . intro id hwhole hid
      rcases List.mem_cons.mp (h.whole id hwhole hid) with rfl | hmem
      . exact absurd hwhole (not_mem_slots hindex _)
      . exact hmem
    . intro id other kept hother hnot hkept
      apply h.mirror id other kept hother _ hkept
      rw [List.mem_cons, not_or]
      refine ⟨?_, hnot⟩
      rintro rfl
      exact not_mem_slots hindex _ hkept
  | some index =>
    rw [Option.elim_some]
    apply Except.Yields.mono (mutateHistoryEntryAt_evicts _ _ _).anyError
    intro t hevicts
    rcases hevicts.slots with ⟨hslots, htools, hactive, hheaders, hgeneration⟩
    have hwindow : ∀ id other, t.windowTool id other = s.windowTool id other := by
      intro id other
      unfold windowTool
      rw [hheaders]
    refine ⟨⟨?_, ?_, ?_, ?_, ?_⟩, htools, hactive, hheaders, hgeneration⟩
    . rw [htools]
      exact h.live
    . intro id kept hkept
      rcases mem_modify_lastHistoryIdx h.sole hindex (hslots.subset hkept) with ⟨hold, -⟩ | ⟨entry, -, hentry, hslot⟩
      . exact h.kept id kept hold
      . injection hslot with hid hkept
        injection hkept with hkept
        dsimp only at hid hkept
        rw [hid, hentry, hkept]
        exact ⟨(windowTool_id s tool.id tool), htool⟩
    . intro id hwhole hid
      rcases mem_modify_lastHistoryIdx h.sole hindex (hslots.subset hwhole) with ⟨hold, hne⟩ | ⟨entry, -, -, hslot⟩
      . rcases List.mem_cons.mp (h.whole id hold hid) with heq | hmem
        . exact absurd heq (hne htool)
        . exact hmem
      . injection hslot with _ hwhole
        contradiction
    . apply (modify_sole h.sole index _).sublist hslots
      intro entry
      rfl
    . intro id other kept hother hnot hkept
      rw [htools] at hother
      rw [hwindow]
      rcases mem_modify_lastHistoryIdx h.sole hindex (hslots.subset hkept) with ⟨hold, hne⟩ | ⟨entry, -, hentry, hslot⟩
      . apply h.mirror id other kept hother _ hold
        rw [List.mem_cons, not_or]
        exact ⟨hne htool, hnot⟩
      . injection hslot with hid hkept
        injection hkept with hkept
        dsimp only at hid hkept
        rw [hid, hentry] at hother ⊢
        rw [hlive, Option.some_inj] at hother
        rw [hkept, hother]

/--
A tool that is not live is settled in its entry.
-/
theorem settleHistory_shadows (h : s.ShadowsBut isTool pending) {toolCallId : String}
    (hlive : s.tools[toolCallId]? = none) (status : ToolCallStatus) (header : Option String)
    : (s.settleHistory toolCallId status header).Yields (fun _ => False) fun t =>
        t.ShadowsBut isTool pending ∧ s.SameTools t := by
  unfold settleHistory
  split
  . next index hindex =>
    apply Except.Yields.mono (mutateHistoryEntryAt_evicts _ _ _).anyError
    intro t hevicts
    rcases hevicts.slots with ⟨hslots, htools, hactive, hheaders, hgeneration⟩
    -- What the settled entry has is what it had, apart from the status and the text.
    have hsettled : ∀ id kept, (id, kept) ∈ t.slots → (id, kept) ∈ s.slots
        ∨ (id = toolCallId ∧ ∃ tool settled, (id, some tool) ∈ s.slots ∧ kept = some settled
          ∧ settled.id = tool.id) := by
      intro id kept hkept
      rcases mem_modify_lastHistoryIdx h.sole hindex (hslots.subset hkept) with ⟨hold, -⟩ | ⟨entry, hentry, hid, hslot⟩
      . exact .inl hold
      . have hmem : entry.slot ∈ s.slots := List.mem_map_of_mem hentry
        unfold settleHistoryTool at hslot
        cases htool : entry.tool with
        | none =>
          rw [htool] at hslot
          rw [hslot]
          exact .inl hmem
        | some tool =>
          rw [htool] at hslot
          injection hslot with hidEq hkept
          dsimp only at hidEq
          refine .inr ⟨hidEq.trans hid, tool, _, ?_, hkept, ?_⟩
          . have hslot : entry.slot = (id, some tool) := by
              rw [hidEq, ← htool]
              rfl
            rw [← hslot]
            exact hmem
          . exact (record_ensureDurableSubagentHeader { tool with status } header).2
    refine ⟨⟨?_, ?_, ?_, ?_, ?_⟩, htools, hactive, hheaders, hgeneration⟩
    . rw [htools]
      exact h.live
    . intro id kept hkept
      rcases hsettled id _ hkept with hold | ⟨-, tool, settled, hold, heq, hid⟩
      . exact h.kept id kept hold
      . injection heq with heq
        rw [heq, hid]
        exact h.kept id tool hold
    . intro id hwhole
      rcases hsettled id _ hwhole with hold | ⟨-, tool, settled, -, heq, -⟩
      . exact h.whole id hold
      . contradiction
    . apply (modify_sole h.sole index _).sublist hslots
      intro entry
      rcases settleHistoryTool_eq status header entry with ⟨tool, heq⟩
      rw [heq]
    . intro id tool kept htool hnot hkept
      rw [htools] at htool
      have hwindow : t.windowTool id tool = s.windowTool id tool := by
        unfold windowTool
        rw [hheaders]
      rw [hwindow]
      rcases hsettled id _ hkept with hold | ⟨heq, -⟩
      . exact h.mirror id tool kept htool hnot hold
      . rw [heq, hlive] at htool
        contradiction
  . exact ⟨h, .refl s⟩

/-! Settling tools -/

theorem foldlM_attachOrUpdateHistoryTool_shadows (updates : List SnapshotTool)
    (h : s.ShadowsBut isTool pending) (hupdates : ∀ tool ∈ updates, s.tools[tool.id]? = some tool)
    (hpending : ∀ id ∈ pending, ∃ tool ∈ updates, tool.id = id)
    : (updates.foldlM attachOrUpdateHistoryTool s).Yields (fun _ => False) fun t =>
        t.ShadowsBut isTool [] ∧ s.SameTools t := by
  induction updates generalizing s pending with
  | nil =>
    refine ⟨h.mono ?_, .refl s⟩
    intro id hid
    rcases hpending id hid with ⟨tool, htool, -⟩
    contradiction
  | cons tool updates ih =>
    have hfirst : s.ShadowsBut isTool (tool.id :: pending.filter (· != tool.id)) := by
      apply h.mono
      intro id hid
      rw [List.mem_cons, List.mem_filter, bne_iff_ne]
      by_cases heq : id = tool.id
      . exact .inl heq
      . exact .inr ⟨hid, heq⟩
    apply Except.Yields.bind (attachOrUpdateHistoryTool_shadows hfirst (hupdates tool List.mem_cons_self))
    rintro t ⟨ht, hsame⟩
    apply Except.Yields.mono (ih ht ?_ ?_)
    . rintro u ⟨hu, hsame'⟩
      exact ⟨hu, hsame.trans hsame'⟩
    . intro other hother
      rw [hsame.1]
      exact hupdates other (List.mem_cons_of_mem _ hother)
    . intro id hid
      rw [List.mem_filter, bne_iff_ne] at hid
      rcases hpending id hid.1 with ⟨other, hother, heq⟩
      rcases List.mem_cons.mp hother with rfl | hmem
      . exact absurd heq.symm hid.2
      . exact ⟨other, hmem, heq⟩

theorem foldlM_settleRetainedTool_shadows (status : ToolCallStatus) (ids : List String)
    (h : s.ShadowsBut isTool [])
    : (ids.foldlM (settleRetainedTool · status) s).Yields (fun _ => False) (ShadowsBut isTool []) := by
  induction ids generalizing s with
  | nil => exact h
  | cons id ids ih =>
    have hsettled : (s.settleRetainedTool status id).Yields (fun _ => False) (ShadowsBut isTool []) := by
      unfold settleRetainedTool
      split
      . exact h
      . next hcontains =>
        rw [TreeMap.contains_eq_isSome_getElem?, Option.not_isSome_iff_eq_none] at hcontains
        exact Except.Yields.mono (settleHistory_shadows h hcontains _ _) fun t ht => ht.1
    apply Except.Yields.bind hsettled
    intro t ht
    exact ih ht

theorem forgetRetainedHeader_shadows (h : s.ShadowsBut isTool []) (id : String)
    : (s.forgetRetainedHeader id).ShadowsBut isTool [] := by
  unfold forgetRetainedHeader
  split
  . exact h
  . next hcontains =>
    refine h.congr (fun _ _ hlive => hlive) ?_ (List.Sublist.refl _)
    intro other tool hlive _
    apply getElem?_erase_of_ne
    rintro rfl
    rw [TreeMap.contains_eq_isSome_getElem?, hlive] at hcontains
    exact hcontains rfl

theorem foldl_forgetRetainedHeader_shadows (ids : List String) (h : s.ShadowsBut isTool [])
    : (ids.foldl (·.forgetRetainedHeader) s).ShadowsBut isTool [] := by
  induction ids generalizing s with
  | nil => exact h
  | cons id ids ih => exact ih (forgetRetainedHeader_shadows h id)

theorem terminalizeActiveTools_shadows (h : s.ShadowsBut isTool []) (status : ToolCallStatus)
    : (s.terminalizeActiveTools status).Yields (fun _ => False) (ShadowsBut isTool []) := by
  unfold terminalizeActiveTools
  dsimp only
  rcases foldl_setToolStatus status s.activeToolIds s with ⟨htools, hhistory, hactive, hheaders, hgeneration⟩
  generalize s.activeToolIds.foldl (·.setToolStatus status) s = t at *
  have hslots : t.slots = s.slots := by
    unfold slots
    rw [hhistory]
  have hlive : ∀ (id : String) (tool : SnapshotTool), t.tools[id]? = some tool →
      ∃ old, s.tools[id]? = some old ∧ tool.id = old.id ∧ (id ∉ s.activeToolIds → tool = old) := by
    intro id tool htool
    rw [htools] at htool
    split at htool
    . next hmem =>
      rw [Option.map_eq_some_iff] at htool
      rcases htool with ⟨old, hold, rfl⟩
      exact ⟨old, hold, rfl, fun hnot => absurd hmem hnot⟩
    . exact ⟨tool, htool, rfl, fun _ => rfl⟩
  have hsettled : t.ShadowsBut isTool (s.activeToolIds.filter (t.tools.contains ·)) := by
    refine ⟨?_, ?_, ?_, ?_, ?_⟩
    . intro id tool htool
      rcases hlive id tool htool with ⟨old, hold, heq, -⟩
      rw [heq]
      exact h.live id old hold
    . rw [hslots]
      exact h.kept
    . intro id hwhole hid
      rw [hslots] at hwhole
      exact absurd (h.whole id hwhole hid) List.not_mem_nil
    . unfold Sole
      rw [hslots]
      exact h.sole
    . intro id tool kept htool hnot hkept
      rcases hlive id tool htool with ⟨old, hold, -, heq⟩
      rw [List.mem_filter, TreeMap.contains_eq_isSome_getElem?, htool] at hnot
      have hnot' : id ∉ s.activeToolIds := fun hmem => hnot ⟨hmem, rfl⟩
      rw [hslots] at hkept
      rw [heq hnot', h.mirror id old kept hold List.not_mem_nil hkept]
      unfold windowTool
      rw [hheaders]
  apply Except.Yields.bind (foldlM_attachOrUpdateHistoryTool_shadows _ hsettled ?_ ?_)
  . rintro u ⟨hu, -⟩
    apply Except.Yields.bind (foldlM_settleRetainedTool_shadows status s.activeToolIds hu)
    intro v hv
    exact foldl_forgetRetainedHeader_shadows _ hv
  . intro tool hmem
    rw [List.mem_filterMap] at hmem
    rcases hmem with ⟨id, -, htool⟩
    rw [(hsettled.live id tool htool).1]
    exact htool
  . intro id hid
    rw [List.mem_filter, TreeMap.contains_eq_isSome_getElem?, Option.isSome_iff_exists] at hid
    rcases hid with ⟨hactiveId, tool, htool⟩
    exact ⟨tool, List.mem_filterMap.mpr ⟨id, hactiveId, htool⟩, (hsettled.live id tool htool).1⟩

/--
A live tool is replaced, and its entry is written.
-/
theorem insert_attach_shadows {tool : SnapshotTool} (h : s.ShadowsBut isTool [tool.id]) (htool : isTool tool.id)
    : (attachOrUpdateHistoryTool { s with tools := s.tools.insert tool.id tool } tool).Yields (fun _ => False)
        (ShadowsBut isTool []) := by
  have hlookup : ∀ (id : String), (s.tools.insert tool.id tool)[id]?
      = if tool.id = id then some tool else s.tools[id]? := by
    intro id
    rw [TreeMap.getElem?_insert]
    simp only [Std.compare_eq_iff_eq]
  apply Except.Yields.mono (attachOrUpdateHistoryTool_shadows ?_ ?_)
  . intro t ht
    exact ht.1
  . refine ⟨?_, h.kept, h.whole, h.sole, ?_⟩
    . intro id other hother
      dsimp only at hother
      rw [hlookup] at hother
      split at hother
      . next heq =>
        injection hother with hother
        subst hother
        exact ⟨heq, heq ▸ htool⟩
      . exact h.live id other hother
    . intro id other kept hother hnot hkept
      dsimp only at hother
      rw [hlookup] at hother
      split at hother
      . next heq => exact absurd (List.mem_singleton.mpr heq.symm) hnot
      . exact h.mirror id other kept hother hnot hkept
  . dsimp only
    rw [hlookup, if_pos rfl]

theorem updateSubagentToolTerminal_shadows (h : s.ShadowsBut isTool []) (toolCallId status : String)
    (toolStatus : ToolCallStatus)
    : (s.updateSubagentToolTerminal toolCallId status toolStatus).Yields (fun _ => False)
        (ShadowsBut isTool []) := by
  unfold updateSubagentToolTerminal
  dsimp only
  rcases s.setHeaderState_same toolCallId status with ⟨htools, hslots, -, -⟩
  have hheaders : ∀ id, id ≠ toolCallId →
      (s.setHeaderState toolCallId status).subagentHeaders[id]? = s.subagentHeaders[id]? := by
    intro id hne
    unfold setHeaderState
    split
    . dsimp only
      rw [TreeMap.getElem?_insert, if_neg]
      rw [Std.compare_eq_iff_eq]
      exact Ne.symm hne
    . rfl
  have hpending : (s.setHeaderState toolCallId status).ShadowsBut isTool [toolCallId] := by
    apply (h.mono (List.nil_subset _)).congr
    . rw [htools]
      exact fun _ _ hlive => hlive
    . intro id _ _ hnot
      exact hheaders id fun heq => hnot (List.mem_singleton.mpr heq)
    . rw [hslots]
  generalize (s.setHeaderState toolCallId status) = u at *
  have hsettled : (u.settleTool toolCallId toolStatus u.subagentHeaders[toolCallId]?).Yields (fun _ => False)
      (ShadowsBut isTool []) := by
    unfold settleTool
    split
    . next tool hlive =>
      rcases hpending.live toolCallId tool hlive with ⟨hid, htool⟩
      dsimp only
      have hsame := (record_ensureDurableSubagentHeader { tool with status := toolStatus }
        u.subagentHeaders[toolCallId]?).2
      generalize (u.subagentHeaders[toolCallId]?.map
        (ensureDurableSubagentHeader { tool with status := toolStatus })).getD
          { tool with status := toolStatus } = settled at *
      have hsettledId : settled.id = toolCallId := hsame.trans hid
      rw [← hsettledId] at hpending htool ⊢
      exact insert_attach_shadows hpending htool
    . next hlive =>
      have hnone : u.ShadowsBut isTool [] := by
        apply h.congr
        . rw [htools]
          exact fun _ _ hlive => hlive
        . intro id tool hlive' _
          apply hheaders
          rintro rfl
          rw [hlive] at hlive'
          contradiction
        . rw [hslots]
      exact Except.Yields.mono (settleHistory_shadows hnone hlive _ _) fun t ht => ht.1
  apply Except.Yields.bind hsettled
  intro t ht
  apply forgetRetainedHeader_shadows
  exact ht.sameTools rfl rfl (List.Sublist.refl _)

theorem terminalizeUnresolvedSubagents_shadows (h : s.ShadowsBut isTool []) (status : String) (generation : Nat)
    : (s.terminalizeUnresolvedSubagents status generation).Yields (fun _ => False) (ShadowsBut isTool []) := by
  unfold terminalizeUnresolvedSubagents
  apply Except.yields_foldlM
  . intro s id h
    exact updateSubagentToolTerminal_shadows h _ _ _
  . exact h

theorem settleUnresolvedSubagentsWithoutRun_shadows (h : s.ShadowsBut isTool [])
    : s.settleUnresolvedSubagentsWithoutRun.Yields (fun _ => False) (ShadowsBut isTool []) := by
  unfold settleUnresolvedSubagentsWithoutRun
  split
  . exact h
  . apply Except.yields_foldlM
    . intro s id h
      exact updateSubagentToolTerminal_shadows h _ _ _
    . exact h

theorem markSubagentToolTerminal_shadows (h : s.ShadowsBut isTool []) (toolCallId status : String)
    (toolStatus : ToolCallStatus)
    : (s.markSubagentToolTerminal toolCallId status toolStatus).Yields (fun _ => False)
        (ShadowsBut isTool [] ·.1) := by
  unfold markSubagentToolTerminal
  split
  . apply Except.Yields.bind (updateSubagentToolTerminal_shadows h _ _ _)
    intro s h
    exact h
  . exact h

theorem markSubagentTerminal_shadows (h : s.ShadowsBut isTool []) (childSessionId status : String)
    : (s.markSubagentTerminal childSessionId status).Yields (fun _ => False) (ShadowsBut isTool [] ·.1) := by
  unfold markSubagentTerminal
  dsimp only
  split
  . exact h
  . exact markSubagentToolTerminal_shadows h _ _ _

/--
The tools and sub-agents of a run that did not complete.
-/
theorem failRun_shadows (h : s.ShadowsBut isTool []) (status : String) (generation : Nat)
    : (s.terminalizeActiveTools .failed >>= (terminalizeUnresolvedSubagents · status generation)).Yields
        (fun _ => False) (ShadowsBut isTool []) := by
  apply Except.Yields.bind (terminalizeActiveTools_shadows h _)
  intro s h
  exact terminalizeUnresolvedSubagents_shadows h _ _

theorem abandonActiveRun_shadows (h : s.ShadowsBut isTool [])
    : s.abandonActiveRun.Yields (fun _ => False) (ShadowsBut isTool []) := by
  unfold abandonActiveRun
  split
  . exact failRun_shadows h _ _
  . exact h

theorem settleFinishedRun_shadows (h : s.ShadowsBut isTool []) (generation : Nat) (stopReason : StopReason)
    : (s.settleFinishedRun generation stopReason).Yields (fun _ => False) (ShadowsBut isTool []) := by
  unfold settleFinishedRun
  split
  . exact failRun_shadows h _ _
  . exact terminalizeActiveTools_shadows h _

/-! A tool event -/

theorem expireTombstones_shadows (rounds : Nat) (h : s.ShadowsBut isTool [])
    : (expireTombstones rounds s).Yields (fun _ => False) (ShadowsBut isTool []) := by
  induction rounds generalizing s with
  | zero => exact h
  | succ rounds ih =>
    unfold expireTombstones
    split
    . split
      . exact h
      . next expired hexpired =>
        have hretained := expiredTombstone_retained hexpired
        have hlive : s.tools[expired]? = none := by
          unfold isRetainedToolTombstone at hretained
          rw [Bool.and_eq_true, Bool.not_eq_true', TreeMap.contains_eq_isSome_getElem?,
            Option.isSome_eq_false_iff, Option.isNone_iff_eq_none] at hretained
          exact hretained.1
        have hexpire : (s.expireTombstone expired).Yields (fun _ => False) (ShadowsBut isTool []) := by
          unfold expireTombstone
          apply Except.Yields.bind (settleHistory_shadows h hlive _ _)
          rintro t ⟨ht, hsame⟩
          refine ht.congr (fun _ _ hlive' => hlive') ?_ (List.Sublist.refl _)
          intro other tool hother _
          apply getElem?_erase_of_ne
          rintro rfl
          dsimp only at hother
          rw [hsame.1, hlive] at hother
          contradiction
        apply Except.Yields.bind hexpire
        intro t ht
        exact ih ht
    . exact h

theorem makeRoomForTool_shadows (h : s.ShadowsBut isTool []) (id : String)
    : (s.makeRoomForTool id).Yields (fun _ => False) (ShadowsBut isTool []) := by
  unfold makeRoomForTool
  split
  . unfold evictOldestTool
    split
    . simp
    . next entry _ =>
      apply expireTombstones_shadows
      have hlive : ∀ (id : String) (tool : SnapshotTool), (s.tools.erase entry.canonicalId)[id]? = some tool →
          s.tools[id]? = some tool ∧ entry.canonicalId ≠ id := by
        intro id tool hlive
        rw [TreeMap.getElem?_erase] at hlive
        split at hlive
        . contradiction
        . next hne =>
          rw [Std.compare_eq_iff_eq] at hne
          exact ⟨hlive, hne⟩
      refine h.congr (fun id tool hlive' => (hlive id tool hlive').1) ?_ (List.Sublist.refl _)
      intro id tool hlive' _
      dsimp only
      split
      . exact getElem?_erase_of_ne (hlive id tool hlive').2
      . rfl
  . exact h

theorem pushTimeline_shadows (h : s.ShadowsBut isTool []) (kind : SnapshotTimelineKind) {id : String}
    (hnew : isTool id → ∀ tool, (id, tool) ∉ s.slots)
    : (s.pushTimeline kind id).Yields (fun _ => False) fun t =>
        t.ShadowsBut isTool [id] ∧ (¬isTool id → t.ShadowsBut isTool []) := by
  unfold pushTimeline
  apply Except.Yields.mono (pushHistory_evicts _ _).anyError
  intro t hevicts
  rcases hevicts.slots with ⟨hslots, htools, hactive, hheaders, hgeneration⟩
  have hcount : (s.countTimelineEntry kind).history = s.history
      ∧ s.SameTools (s.countTimelineEntry kind) := by
    cases kind <;> exact ⟨rfl, rfl, rfl, rfl, rfl⟩
  generalize s.countTimelineEntry kind = counted at *
  rcases hcount with ⟨hhistory, hsame⟩
  dsimp only at hslots htools hactive hheaders hgeneration
  rw [hhistory, List.map_append] at hslots
  change t.slots.Sublist (s.slots ++ [(id, none)]) at hslots
  have hold : ∀ other tool, (other, some tool) ∈ t.slots → (other, some tool) ∈ s.slots := by
    intro other tool hkept
    rcases List.mem_append.mp (hslots.subset hkept) with hold | hpushed
    . exact hold
    . rw [List.mem_singleton] at hpushed
      injection hpushed with _ hpushed
      contradiction
  have hwhole : ∀ other, (other, none) ∈ t.slots → isTool other → other = id := by
    intro other hwhole htool
    rcases List.mem_append.mp (hslots.subset hwhole) with hold | hpushed
    . exact absurd (h.whole other hold htool) List.not_mem_nil
    . rw [List.mem_singleton] at hpushed
      injection hpushed
  have hpushed : ∀ pending, (∀ other, (other, none) ∈ t.slots → isTool other → other ∈ pending) →
      t.ShadowsBut isTool pending := by
    intro pending hpending
    refine ⟨?_, fun other tool hkept => h.kept other tool (hold other tool hkept), hpending, ?_, ?_⟩
    . rw [htools, hsame.1]
      exact h.live
    . apply List.Pairwise.sublist hslots
      rw [List.pairwise_append]
      refine ⟨h.sole, List.pairwise_singleton _ _, ?_⟩
      rintro ⟨other, tool⟩ hold slot hpushed htool heq
      rw [List.mem_singleton] at hpushed
      subst hpushed
      dsimp only at htool heq
      subst heq
      exact hnew htool tool hold
    . intro other tool kept hlive _ hkept
      rw [htools, hsame.1] at hlive
      rw [h.mirror other tool kept hlive List.not_mem_nil (hold other kept hkept)]
      unfold windowTool
      rw [hheaders, hsame.2.2.1]
  refine ⟨hpushed [id] ?_, fun hnot => hpushed [] ?_⟩
  . intro other hnone htool
    exact List.mem_singleton.mpr (hwhole other hnone htool)
  . intro other hnone htool
    rw [hwhole other hnone htool] at htool
    exact absurd htool hnot

theorem placeNewTool_shadows (h : s.ShadowsBut isTool []) {id : String} (htool : isTool id)
    : (s.placeNewTool id).Yields (fun _ => False) (ShadowsBut isTool [id] ·.1) := by
  unfold placeNewTool
  split
  . exact h.mono (List.nil_subset _)
  . next hcontains =>
    have hother : ∀ (other : String) (tool : SnapshotTool), s.tools[other]? = some tool → id ≠ other := by
      rintro other tool hlive rfl
      rw [TreeMap.contains_eq_isSome_getElem?, hlive] at hcontains
      exact hcontains rfl
    unfold placeTool
    split
    . next entry _ =>
      change ShadowsBut isTool [id] _
      refine ShadowsBut.mono (?_ : ShadowsBut isTool [] _) (List.nil_subset _)
      refine h.congr (fun _ _ hlive => hlive) ?_ (List.Sublist.refl _)
      intro other tool hlive _
      dsimp only
      split
      . rw [TreeMap.getElem?_insert, if_neg]
        rw [Std.compare_eq_iff_eq]
        exact hother other tool hlive
      . rfl
    . next hnone =>
      have hidle : (s.forgetIdleHeader id).ShadowsBut isTool [] ∧ (s.forgetIdleHeader id).slots = s.slots := by
        unfold forgetIdleHeader
        split
        . exact ⟨h, rfl⟩
        . refine ⟨h.congr (fun _ _ hlive => hlive) ?_ (List.Sublist.refl _), rfl⟩
          intro other tool hlive _
          exact getElem?_erase_of_ne (hother other tool hlive)
      have hnew : isTool id → ∀ tool, (id, tool) ∉ (s.forgetIdleHeader id).slots := by
        intro _ tool hmem
        rw [hidle.2] at hmem
        cases tool with
        | none => exact absurd (h.whole id hmem htool) List.not_mem_nil
        | some tool =>
          rcases List.mem_map.mp hmem with ⟨entry, hentry, hslot⟩
          injection hslot with hid htool
          rw [List.find?_eq_none] at hnone
          apply hnone entry (List.mem_reverse.mpr hentry)
          rw [hid, htool]
          exact Bool.and_eq_true_iff.mpr ⟨beq_self_eq_true id, rfl⟩
      apply Except.Yields.bind (pushTimeline_shadows hidle.1 .tool hnew)
      intro t ht
      exact ht.1

theorem refreshHeader_of_ne {id other : String} (hne : other ≠ id) (terminal : Bool) (content : String)
    : (s.refreshHeader id terminal content).1[other]? = s.subagentHeaders[other]? := by
  unfold refreshHeader
  split
  . rfl
  . dsimp only
    split
    . rfl
    . rw [TreeMap.getElem?_insert, if_neg]
      rw [Std.compare_eq_iff_eq]
      exact Ne.symm hne

theorem settleReplayedHeader_of_ne {id other : String} (hne : other ≠ id) (status : ToolCallStatus)
    : (s.settleReplayedHeader id status)[other]? = s.subagentHeaders[other]? := by
  unfold settleReplayedHeader
  split
  . rfl
  . split
    . dsimp only
      rw [TreeMap.getElem?_insert, if_neg]
      rw [Std.compare_eq_iff_eq]
      exact Ne.symm hne
    . rfl

theorem projectTool_headers {id other : String} (hne : other ≠ id) (generation : Option Nat)
    (projection : ToolProjection) (existing : Option SnapshotTool)
    : (s.projectTool id generation projection existing).1.subagentHeaders[other]? = s.subagentHeaders[other]? := by
  unfold projectTool
  dsimp only
  split
  . dsimp only
    rw [settleReplayedHeader_of_ne hne]
    exact refreshHeader_of_ne hne _ _
  . exact refreshHeader_of_ne hne _ _

theorem applyTool_shadows (h : s.ShadowsBut isTool []) {id : String} (htool : isTool id)
    (generation : Option Nat) (projection : ToolProjection)
    : (s.applyTool id generation projection).Yields (fun _ => False) (ShadowsBut isTool []) := by
  unfold applyTool
  apply Except.Yields.bind (makeRoomForTool_shadows h id)
  intro roomy h
  apply Except.Yields.bind (placeNewTool_shadows h htool)
  rintro ⟨placed, retainedTool⟩ hplaced
  dsimp only at hplaced ⊢
  have htracked : (placed.trackTool id generation (isTerminalStatus projection.status)).ShadowsBut isTool [id] := by
    unfold trackTool
    split
    . split <;> exact hplaced.sameTools rfl rfl (List.Sublist.refl _)
    . exact hplaced
  generalize placed.trackTool id generation (isTerminalStatus projection.status) = tracked at *
  generalize tracked.tools[id]?.or retainedTool = existing
  have hheaders : ∀ other, other ≠ id → (tracked.projectTool id generation projection existing).1.subagentHeaders[other]?
      = tracked.subagentHeaders[other]? := fun other hne => projectTool_headers hne _ _ _
  rcases tracked.projectTool_same id generation projection existing with ⟨htools, hslots, -, -⟩
  rcases tracked.projectTool_record id generation projection existing with ⟨hid, -⟩
  generalize tracked.projectTool id generation projection existing = projected at *
  rcases projected with ⟨projected, tool⟩
  dsimp only at *
  subst hid
  apply insert_attach_shadows _ htool
  apply htracked.congr
  . rw [htools]
    exact fun _ _ hlive => hlive
  . intro other _ _ hnot
    exact hheaders other fun heq => hnot (List.mem_singleton.mpr heq)
  . rw [hslots]

/-! The events -/

/--
The entry of a message is written, which is no tool's.
-/
theorem updateHistoryMessage_shadows (h : s.ShadowsBut isTool []) (message : SnapshotMessage)
    : (s.updateHistoryMessage message).Yields (fun _ => False) (ShadowsBut isTool []) := by
  unfold updateHistoryMessage
  split
  . next index _ =>
    apply Except.Yields.mono (mutateHistoryEntryAt_evicts _ _ _).anyError
    intro t hevicts
    rcases hevicts.slots with ⟨hslots, htools, -, hheaders, -⟩
    refine h.sameTools htools hheaders (hslots.trans ?_)
    rw [map_modify_of_eq]
    . exact List.Sublist.refl _
    . exact fun _ => rfl
  . exact h

theorem appendMessage_shadows (h : s.ShadowsBut isTool []) {id : String} (hid : ¬isTool id)
    (role : MessageRole) (content : String) (contentBlock : Option Json)
    : (s.appendMessage id role content contentBlock).Yields (fun _ => False) (ShadowsBut isTool []) := by
  unfold appendMessage
  split
  . apply updateHistoryMessage_shadows
    exact h.sameTools rfl rfl (List.Sublist.refl _)
  . have hroom : s.makeRoomForMessage.Yields (fun _ => False) (ShadowsBut isTool []) := by
      unfold makeRoomForMessage
      split
      . split
        . simp
        . exact h.sameTools rfl rfl (List.Sublist.refl _)
      . exact h
    apply Except.Yields.bind hroom
    intro t ht
    unfold insertMessage
    apply Except.Yields.bind (pushTimeline_shadows ht (timelineKind role) fun htool => absurd htool hid)
    intro u hu
    apply updateHistoryMessage_shadows
    exact (hu.2 hid).sameTools rfl rfl (List.Sublist.refl _)

theorem attachTurnUsage_shadows (h : s.ShadowsBut isTool []) (usage : BridgeTurnUsageSnapshot)
    : (s.attachTurnUsage usage).Yields (fun _ => False) (ShadowsBut isTool []) := by
  unfold attachTurnUsage
  split
  . exact h
  . split
    . exact h
    . apply updateHistoryMessage_shadows
      exact h.sameTools rfl rfl (List.Sublist.refl _)

theorem apply_shadows (h : s.ShadowsBut isTool []) {event : CanonicalEvent}
    (hchunk : ∀ id, event.chunkId? = some id → ¬isTool id)
    (htool : ∀ id, event.toolCallId? = some id → isTool id)
    : (s.apply event).Yields (fun _ => False) (ShadowsBut isTool []) := by
  unfold apply
  split
  case h_1 =>
    apply Except.Yields.bind (abandonActiveRun_shadows h)
    intro t ht
    exact ht.sameTools rfl rfl (List.Sublist.refl _)
  case h_2 =>
    split
    . apply Except.Yields.bind (settleFinishedRun_shadows h _ _)
      intro t ht
      exact ht.sameTools rfl rfl (List.Sublist.refl _)
    . exact h
  case h_3 =>
    split
    . apply Except.Yields.bind (terminalizeActiveTools_shadows h _)
      intro t ht
      apply Except.Yields.bind (terminalizeUnresolvedSubagents_shadows ht _ _)
      intro u hu
      exact hu.sameTools rfl rfl (List.Sublist.refl _)
    . exact h
  case h_4 => exact appendMessage_shadows h (hchunk _ rfl) _ _ _
  case h_5 => exact applyTool_shadows h (htool _ rfl) _ _
  case h_8 =>
    apply attachTurnUsage_shadows
    exact h.sameTools rfl rfl (List.Sublist.refl _)
  all_goals first | exact h | exact h.sameTools rfl rfl (List.Sublist.refl _)

theorem perform_shadows (h : s.ShadowsBut isTool []) {operation : Operation}
    (hrespects : operation.Respects isTool)
    : (s.perform operation).Yields (fun _ => False) (ShadowsBut isTool []) := by
  cases operation with
  | apply event => exact apply_shadows h hrespects.1 hrespects.2
  | markSubagentTerminal childSessionId status =>
    apply Except.Yields.bind (markSubagentTerminal_shadows h childSessionId status)
    intro result h
    exact h
  | markSubagentToolTerminal toolCallId status toolStatus =>
    apply Except.Yields.bind (markSubagentToolTerminal_shadows h toolCallId status toolStatus)
    intro result h
    exact h
  | settleUnresolvedSubagentsWithoutRun => exact settleUnresolvedSubagentsWithoutRun_shadows h

theorem new_shadows (agentId threadId : String) : (new agentId threadId).ShadowsBut isTool [] := by
  constructor <;> simp [new, slots, Sole]

end SessionSnapshot

theorem ReachableWith.shadows {isTool : String → Prop} {s : SessionSnapshot} (h : ReachableWith isTool s)
    : s.ShadowsBut isTool [] := by
  induction h with
  | new agentId threadId => exact SessionSnapshot.new_shadows agentId threadId
  | perform _ hrespects hok ih => exact (SessionSnapshot.perform_shadows ih hrespects).of_ok hok
  | restore _ _ _ ih => exact ih.sameTools rfl rfl (List.Sublist.refl _)
  | reorder _ _ ih => exact ih.sameTools rfl rfl (List.Sublist.refl _)

end Snapshot
