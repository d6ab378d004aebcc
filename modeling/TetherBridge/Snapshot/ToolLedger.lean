import TetherBridge.Snapshot.Live
import TetherBridge.Snapshot.Run

/-!
This module contains what is known of the tools of a snapshot from the events that were applied to it. A
tool may be live, or only have a history entry, and either one says the same of it.
-/

namespace Snapshot

open Acp Std

/--
What is known of a tool from the events that were applied: its generation and its status.
-/
abbrev Ledger := String → Option (Option Nat × ToolCallStatus)

namespace Ledger

variable (ledger : Ledger)

def settle (ids : List String) (status : ToolCallStatus) : Ledger := fun id =>
  if id ∈ ids then (ledger id).map fun record => (record.1, status) else ledger id

def note (id : String) (record : Option Nat × ToolCallStatus) : Ledger :=
  Function.update ledger id (some record)

theorem settle_settle (ids others : List String) (status : ToolCallStatus)
    : (ledger.settle ids status).settle others status = ledger.settle (ids ++ others) status := by
  funext id
  unfold settle
  by_cases hids : id ∈ ids
  . rw [if_pos hids, if_pos (List.mem_append_left _ hids)]
    split
    . rw [Option.map_map]
      rfl
    . rfl
  . rw [if_neg hids]
    by_cases hothers : id ∈ others
    . rw [if_pos hothers, if_pos (List.mem_append_right _ hothers)]
    . rw [if_neg hothers, if_neg]
      rw [List.mem_append, not_or]
      exact ⟨hids, hothers⟩

theorem settle_nil (status : ToolCallStatus) : ledger.settle [] status = ledger := by
  funext id
  exact if_neg List.not_mem_nil

theorem settle_congr {ids others : List String} (status : ToolCallStatus)
    (h : ∀ id, id ∈ ids ↔ id ∈ others)
    : ledger.settle ids status = ledger.settle others status := by
  funext id
  exact if_congr (h id) rfl rfl

theorem settle_of_mem {ids : List String} {status : ToolCallStatus} {id : String} (h : id ∈ ids)
    : ledger.settle ids status id = (ledger id).map fun record => (record.1, status) :=
  if_pos h

theorem settle_of_not_mem {ids : List String} {status : ToolCallStatus} {id : String} (h : id ∉ ids)
    : ledger.settle ids status id = ledger id :=
  if_neg h

end Ledger

def SnapshotTool.record (tool : SnapshotTool) : Option Nat × ToolCallStatus :=
  (tool.generation, tool.status)

/--
What is said of a tool in a history entry.
-/
def SnapshotHistoryEntry.slot (entry : SnapshotHistoryEntry) : String × Option SnapshotTool :=
  (entry.canonicalId, entry.tool)

namespace SessionSnapshot

def slots (s : SessionSnapshot) : List (String × Option SnapshotTool) :=
  s.history.map (·.slot)

/--
The snapshot still knows the tool, live or from its history.
-/
def Holds (s : SessionSnapshot) (id : String) (tool : SnapshotTool) : Prop :=
  s.tools[id]? = some tool ∨ (id, some tool) ∈ s.slots

/--
Each tool has one history entry.
-/
def Sole (isTool : String → Prop) (s : SessionSnapshot) : Prop :=
  s.slots.Pairwise fun a b => isTool a.1 → a.1 ≠ b.1

variable {isTool : String → Prop} {pending : List String} {ledger : Ledger} {s t : SessionSnapshot}

/--
The tools that are live, or have a history entry, are as the ledger says. The entries of the pending ones
are still to be written.
-/
structure TracksBut (isTool : String → Prop) (pending : List String) (ledger : Ledger)
    (s : SessionSnapshot) : Prop where
  live : ∀ id tool, s.tools[id]? = some tool → tool.id = id ∧ isTool id ∧ ledger id = some tool.record
  kept : ∀ id tool, (id, some tool) ∈ s.slots → isTool id ∧ (id ∉ pending → ledger id = some tool.record)
  whole : ∀ id, (id, none) ∈ s.slots → isTool id → id ∈ pending
  sole : s.slots.Pairwise fun a b => isTool a.1 → a.1 ≠ b.1

theorem TracksBut.holds (h : s.TracksBut isTool [] ledger) {id : String} {tool : SnapshotTool}
    (hholds : s.Holds id tool)
    : isTool id ∧ ledger id = some tool.record := by
  rcases hholds with hlive | hkept
  . exact (h.live id tool hlive).2
  . exact ⟨(h.kept id tool hkept).1, (h.kept id tool hkept).2 List.not_mem_nil⟩

theorem TracksBut.mono (h : s.TracksBut isTool pending ledger) {pending' : List String}
    (hsubset : pending ⊆ pending')
    : s.TracksBut isTool pending' ledger where
  live := h.live
  kept id tool hkept := ⟨(h.kept id tool hkept).1, fun hnot => (h.kept id tool hkept).2 (hnot <| hsubset ·)⟩
  whole id hwhole htool := hsubset (h.whole id hwhole htool)
  sole := h.sole

/--
Some history entries may be gone, and all else that tools are read from is as before.
-/
theorem TracksBut.congr (h : s.TracksBut isTool pending ledger) (htools : t.tools = s.tools)
    (hslots : t.slots.Sublist s.slots)
    : t.TracksBut isTool pending ledger where
  live id tool hlive := h.live id tool (htools ▸ hlive)
  kept id tool hkept := h.kept id tool (hslots.subset hkept)
  whole id hwhole htool := h.whole id (hslots.subset hwhole) htool
  sole := h.sole.sublist hslots

theorem Evicts.slots {history : List SnapshotHistoryEntry} (h : s.Evicts history t)
    : t.slots.Sublist (history.map (·.slot)) ∧ t.tools = s.tools ∧ t.activeToolIds = s.activeToolIds
        ∧ t.subagentHeaders = s.subagentHeaders ∧ t.activeGeneration = s.activeGeneration := by
  rcases h with ⟨gone, historyBytes, unavailableCount, rfl⟩
  refine ⟨?_, rfl, rfl, rfl, rfl⟩
  exact (List.drop_sublist gone history).map _

/--
The fields that are left alone when the history is written.
-/
def SameTools (s t : SessionSnapshot) : Prop :=
  t.tools = s.tools ∧ t.activeToolIds = s.activeToolIds ∧ t.subagentHeaders = s.subagentHeaders
    ∧ t.activeGeneration = s.activeGeneration

/-! Writing the newest entry of a tool -/

/--
Where each tool has one entry, the newest entry of an id is the only one.
-/
theorem mem_modify_lastHistoryIdx (hsole : s.Sole isTool) {id : String} {index : Nat}
    (hindex : s.lastHistoryIdx id = some index) {update : SnapshotHistoryEntry → SnapshotHistoryEntry}
    {slot : String × Option SnapshotTool} (hslot : slot ∈ (s.history.modify index update).map (·.slot))
    : (slot ∈ s.slots ∧ (isTool id → slot.1 ≠ id))
      ∨ ∃ entry ∈ s.history, entry.canonicalId = id ∧ slot = (update entry).slot := by
  rcases lastIdx?_eq_some hindex with ⟨hlt, hid⟩
  rw [beq_iff_eq] at hid
  rw [List.mem_map] at hslot
  rcases hslot with ⟨entry', hentry', rfl⟩
  rw [List.mem_iff_getElem?] at hentry'
  rcases hentry' with ⟨i, hi⟩
  rw [List.getElem?_modify] at hi
  cases hentry : s.history[i]? with
  | none =>
    rw [hentry] at hi
    contradiction
  | some entry =>
    rw [hentry] at hi
    have heq' := Option.some.inj hi
    dsimp only at heq'
    have hmem := List.mem_of_getElem? hentry
    split at heq'
    . next heq =>
      subst heq
      right
      rcases List.getElem?_eq_some_iff.mp hentry with ⟨_, hget⟩
      rw [hget] at hid
      exact ⟨entry, hmem, hid, by rw [heq']⟩
    . next hne =>
      left
      rw [← heq']
      refine ⟨List.mem_map_of_mem hmem, ?_⟩
      intro htool heq
      change entry.canonicalId = id at heq
      have hpairwise := hsole
      unfold Sole slots at hpairwise
      rw [List.pairwise_map, List.pairwise_iff_getElem] at hpairwise
      rcases List.getElem?_eq_some_iff.mp hentry with ⟨hi', hget⟩
      rcases Nat.lt_or_gt_of_ne hne with hlt' | hlt'
      . apply hpairwise index i hlt hi' hlt'
        . change isTool s.history[index].canonicalId
          rw [hid]
          exact htool
        . change s.history[index].canonicalId = s.history[i].canonicalId
          rw [hid, hget, heq]
      . apply hpairwise i index hi' hlt hlt'
        . change isTool s.history[i].canonicalId
          rw [hget, heq]
          exact htool
        . change s.history[i].canonicalId = s.history[index].canonicalId
          rw [hid, hget, heq]

theorem map_modify_of_eq {f : α → α} {g : α → β} (h : ∀ x, g (f x) = g x) (xs : List α) (index : Nat)
    : (xs.modify index f).map g = xs.map g := by
  apply List.ext_getElem?
  intro i
  rw [List.getElem?_map, List.getElem?_map, List.getElem?_modify]
  cases xs[i]? with
  | none => rfl
  | some x =>
    rw [Option.map_eq_map, Option.map_some, Option.map_some, Option.map_some]
    split
    . rw [h]
    . rfl

theorem modify_sole (hsole : s.Sole isTool) (index : Nat)
    {update : SnapshotHistoryEntry → SnapshotHistoryEntry}
    (hupdate : ∀ entry, (update entry).canonicalId = entry.canonicalId)
    : ((s.history.modify index update).map (·.slot)).Pairwise fun a b => isTool a.1 → a.1 ≠ b.1 := by
  unfold Sole slots at hsole
  rw [List.pairwise_map] at hsole ⊢
  have hold : (s.history.map (·.canonicalId)).Pairwise fun a b => isTool a → a ≠ b := List.pairwise_map.mpr hsole
  rw [← map_modify_of_eq hupdate s.history index] at hold
  exact List.pairwise_map.mp hold

theorem record_ensureDurableSubagentHeader (tool : SnapshotTool) (header : Option String)
    : ((header.map (ensureDurableSubagentHeader tool)).getD tool).record = tool.record
        ∧ ((header.map (ensureDurableSubagentHeader tool)).getD tool).id = tool.id := by
  cases header <;> exact ⟨rfl, rfl⟩

theorem writeHistoryTool_tracks {id : String} {tool : SnapshotTool}
    (h : s.TracksBut isTool (id :: pending) ledger) (htool : isTool id)
    (hledger : ledger id = some tool.record) {index : Nat} (hindex : s.lastHistoryIdx id = some index)
    : (s.mutateHistoryEntryAt index fun entry => { entry with tool := some tool }).Yields
        (fun _ => False) fun t => t.TracksBut isTool pending ledger ∧ s.SameTools t := by
  apply Except.Yields.mono (mutateHistoryEntryAt_evicts _ _ _).anyError
  intro t hevicts
  rcases hevicts.slots with ⟨hslots, htools, hactive, hheaders, hgeneration⟩
  refine ⟨⟨?_, ?_, ?_, ?_⟩, htools, hactive, hheaders, hgeneration⟩
  . intro other live hlive
    exact h.live other live (htools ▸ hlive)
  . intro other kept hkept
    rcases mem_modify_lastHistoryIdx h.sole hindex (hslots.subset hkept) with ⟨hold, hne⟩ | ⟨entry, -, hentry, hslot⟩
    . refine ⟨(h.kept other kept hold).1, ?_⟩
      intro hnot
      apply (h.kept other kept hold).2
      rw [List.mem_cons, not_or]
      exact ⟨hne htool, hnot⟩
    . injection hslot with hid hkept
      injection hkept with hkept
      dsimp only at hid hkept
      rw [hid, hentry, hkept]
      exact ⟨htool, fun _ => hledger⟩
  . intro other hwhole hother
    rcases mem_modify_lastHistoryIdx h.sole hindex (hslots.subset hwhole) with ⟨hold, hne⟩ | ⟨entry, -, -, hslot⟩
    . rcases List.mem_cons.mp (h.whole other hold hother) with heq | hmem
      . exact absurd heq (hne htool)
      . exact hmem
    . injection hslot with _ hwhole
      contradiction
  . apply (modify_sole h.sole index _).sublist hslots
    intro entry
    rfl

theorem not_mem_slots {id : String} (hnone : s.lastHistoryIdx id = none) (tool : Option SnapshotTool)
    : (id, tool) ∉ s.slots := by
  intro hmem
  rcases List.mem_map.mp hmem with ⟨entry, hentry, hslot⟩
  have hid := lastIdx?_eq_none hnone entry hentry
  rw [beq_eq_false_iff_ne] at hid
  exact hid (congrArg Prod.fst hslot)

theorem TracksBut.unwritten {id : String} (h : s.TracksBut isTool (id :: pending) ledger)
    (hnone : s.lastHistoryIdx id = none)
    : s.TracksBut isTool pending ledger where
  live := h.live
  kept other tool hkept := by
    refine ⟨(h.kept other tool hkept).1, ?_⟩
    intro hnot
    apply (h.kept other tool hkept).2
    rw [List.mem_cons, not_or]
    refine ⟨?_, hnot⟩
    rintro rfl
    exact not_mem_slots hnone _ hkept
  whole other hwhole hother := by
    rcases List.mem_cons.mp (h.whole other hwhole hother) with heq | hmem
    . subst heq
      exact absurd hwhole (not_mem_slots hnone _)
    . exact hmem
  sole := h.sole

/--
The entry of a tool is written as the ledger says.
-/
theorem attachOrUpdateHistoryTool_tracks {tool : SnapshotTool}
    (h : s.TracksBut isTool (tool.id :: pending) ledger) (htool : isTool tool.id)
    (hledger : ledger tool.id = some tool.record)
    : (s.attachOrUpdateHistoryTool tool).Yields (fun _ => False) fun t =>
        t.TracksBut isTool pending ledger ∧ s.SameTools t := by
  unfold attachOrUpdateHistoryTool
  cases s.subagentHeaders[tool.id]? with
  | none =>
    dsimp only
    split
    . next index hindex => exact writeHistoryTool_tracks h htool hledger hindex
    . next hnone => exact ⟨h.unwritten hnone, rfl, rfl, rfl, rfl⟩
  | some header =>
    have hid : (ensureDurableSubagentHeader tool header).id = tool.id := rfl
    have hrecord : (ensureDurableSubagentHeader tool header).record = tool.record := rfl
    rw [← hrecord] at hledger
    dsimp only
    rw [hid]
    split
    . next index hindex => exact writeHistoryTool_tracks h htool hledger hindex
    . next hnone => exact ⟨h.unwritten hnone, rfl, rfl, rfl, rfl⟩

/--
A tool that is not live is settled in its entry.
-/
theorem settleHistory_tracks (h : s.TracksBut isTool [] ledger) {toolCallId : String}
    (hlive : s.tools[toolCallId]? = none) (status : ToolCallStatus) (header : Option String)
    : (s.settleHistory toolCallId status header).Yields (fun _ => False) fun t =>
        t.TracksBut isTool [] (ledger.settle [toolCallId] status) ∧ s.SameTools t := by
  have hsettled : ∀ id, id ≠ toolCallId → ledger.settle [toolCallId] status id = ledger id := by
    intro id hne
    apply Ledger.settle_of_not_mem
    rw [List.mem_singleton]
    exact hne
  have hstill : ∀ id tool, s.tools[id]? = some tool → id ≠ toolCallId := by
    rintro id tool htool rfl
    rw [hlive] at htool
    contradiction
  unfold settleHistory
  split
  . next index hindex =>
    apply Except.Yields.mono (mutateHistoryEntryAt_evicts _ _ _).anyError
    intro t hevicts
    rcases hevicts.slots with ⟨hslots, htools, hactive, hheaders, hgeneration⟩
    refine ⟨⟨?_, ?_, ?_, ?_⟩, htools, hactive, hheaders, hgeneration⟩
    . intro id live hlive'
      rw [htools] at hlive'
      rw [hsettled id (hstill id live hlive')]
      exact h.live id live hlive'
    . intro id kept hkept
      rcases mem_modify_lastHistoryIdx h.sole hindex (hslots.subset hkept) with ⟨hold, hne⟩ | ⟨entry, hentry, hid, hslot⟩
      . have hkept := h.kept id kept hold
        refine ⟨hkept.1, fun _ => ?_⟩
        by_cases heq : id = toolCallId
        . exact absurd heq (hne (heq ▸ hkept.1))
        . rw [hsettled id heq]
          exact hkept.2 List.not_mem_nil
      . unfold settleHistoryTool at hslot
        cases htool : entry.tool with
        | none =>
          rw [htool] at hslot
          injection hslot with _ hslot
          dsimp only at hslot
          rw [htool] at hslot
          contradiction
        | some tool =>
          rw [htool] at hslot
          injection hslot with hidEq hslot
          injection hslot with hslot
          dsimp only at hidEq
          have hold : (toolCallId, some tool) ∈ s.slots := by
            rw [← hid, ← htool]
            exact List.mem_map_of_mem hentry
          have hkept := h.kept toolCallId tool hold
          rw [hidEq, hid]
          refine ⟨hkept.1, fun _ => ?_⟩
          rw [Ledger.settle_of_mem _ List.mem_cons_self, hkept.2 List.not_mem_nil, hslot,
            (record_ensureDurableSubagentHeader _ _).1]
          rfl
    . intro id hwhole htoolId
      rcases mem_modify_lastHistoryIdx h.sole hindex (hslots.subset hwhole) with ⟨hold, -⟩ | ⟨entry, hentry, hid, hslot⟩
      . exact h.whole id hold htoolId
      . unfold settleHistoryTool at hslot
        cases htool : entry.tool with
        | none =>
          rw [htool] at hslot
          have hmem : (id, none) ∈ s.slots := by
            rw [hslot]
            exact List.mem_map_of_mem hentry
          exact h.whole id hmem htoolId
        | some tool =>
          rw [htool] at hslot
          injection hslot with _ hslot
          contradiction
    . apply (modify_sole h.sole index _).sublist hslots
      intro entry
      rcases settleHistoryTool_eq status header entry with ⟨tool, heq⟩
      rw [heq]
  . next hnone =>
    refine ⟨⟨?_, ?_, h.whole, h.sole⟩, rfl, rfl, rfl, rfl⟩
    . intro id live hlive'
      rw [hsettled id (hstill id live hlive')]
      exact h.live id live hlive'
    . intro id kept hkept
      rw [hsettled]
      . exact h.kept id kept hkept
      . rintro rfl
        exact not_mem_slots hnone _ hkept

end SessionSnapshot

end Snapshot
