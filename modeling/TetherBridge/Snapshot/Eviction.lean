import Mathlib.Data.List.Perm.Subperm
import TetherBridge.Snapshot.Apply
import TetherBridge.Data.Outcome

/-!
This module contains what writing the history does to the rest of the snapshot: nothing, and the
oldest entries may go. With it the loop of `enforce_active_tool_tombstone_bounds` is shown to end by
itself within the rounds `expireTombstones` is given.
-/

namespace Snapshot

open Acp Std

namespace SessionSnapshot

/--
`t` is `s` with another history, of which the oldest entries are gone.
-/
def Evicts (s : SessionSnapshot) (history : List SnapshotHistoryEntry) (t : SessionSnapshot)
    : Prop :=
  ∃ gone historyBytes unavailableCount,
    t = { s with history := history.drop gone, historyBytes, unavailableCount }

theorem historyEntryBytes_measures (entry : SnapshotHistoryEntry)
    : (historyEntryBytes entry).Yields (· = .fullToolSnapshot) fun _ => True := by
  unfold historyEntryBytes
  split <;> simp

theorem evictHistory_drops (history : List SnapshotHistoryEntry) (historyBytes unavailableCount : Nat)
    : (evictHistory history historyBytes unavailableCount).Yields (· = .fullToolSnapshot)
        fun (history', _, _) => ∃ gone, history' = history.drop gone := by
  induction history generalizing historyBytes unavailableCount with
  | nil =>
    unfold evictHistory
    split
    . simp
    . exact ⟨0, rfl⟩
  | cons removed history ih =>
    unfold evictHistory
    split
    . apply Except.Yields.bind (historyEntryBytes_measures removed)
      intro removedBytes _
      apply Except.Yields.mono (ih _ _)
      intro result h
      cases h with
      | intro gone h => exact ⟨gone + 1, h⟩
    . exact ⟨0, rfl⟩

theorem enforceHistoryBounds_evicts (s : SessionSnapshot)
    : s.enforceHistoryBounds.Yields (· = .fullToolSnapshot) (s.Evicts s.history) := by
  unfold enforceHistoryBounds
  apply Except.Yields.bind (evictHistory_drops _ _ _)
  intro result h
  cases h with
  | intro gone h => exact ⟨gone, _, _, by rw [← h]⟩

theorem pushHistory_evicts (s : SessionSnapshot) (entry : SnapshotHistoryEntry)
    : (s.pushHistory entry).Yields (· = .fullToolSnapshot) (s.Evicts (s.history ++ [entry])) := by
  unfold pushHistory
  apply Except.Yields.bind (historyEntryBytes_measures entry)
  intro bytes _
  exact enforceHistoryBounds_evicts _

theorem mutateHistoryEntryAt_evicts (s : SessionSnapshot) (index : Nat)
    (update : SnapshotHistoryEntry → SnapshotHistoryEntry)
    : (s.mutateHistoryEntryAt index update).Yields (· = .fullToolSnapshot)
        (s.Evicts (s.history.modify index update)) := by
  unfold mutateHistoryEntryAt
  split
  . simp
  . next entry hentry =>
    rw [List.modify_eq_set_getElem?, hentry]
    apply Except.Yields.bind (historyEntryBytes_measures entry)
    intro oldBytes _
    apply Except.Yields.bind (historyEntryBytes_measures (update entry))
    intro newBytes _
    exact enforceHistoryBounds_evicts _

/--
Settling a tool in the history leaves the fields alone that the tombstones are read from.
-/
theorem settleHistory_tools (s : SessionSnapshot) (toolCallId : String) (status : ToolCallStatus)
    (header : Option String)
    : (s.settleHistory toolCallId status header).Yields (fun _ => False) fun t =>
        t.tools = s.tools ∧ t.activeToolIds = s.activeToolIds
          ∧ t.subagentHeaders = s.subagentHeaders := by
  unfold settleHistory
  split
  . apply Except.Yields.mono (mutateHistoryEntryAt_evicts _ _ _).anyError
    rintro t ⟨gone, historyBytes, unavailableCount, rfl⟩
    exact ⟨rfl, rfl, rfl⟩
  . exact ⟨rfl, rfl, rfl⟩

/-! The tools that are only remembered -/

theorem mem_retainedToolTombstones (s : SessionSnapshot) (id : String)
    : id ∈ s.retainedToolTombstones ↔ s.isRetainedToolTombstone id := by
  unfold retainedToolTombstones
  rw [List.mem_dedup, List.mem_filter]
  constructor
  . intro h
    exact h.2
  . intro h
    refine ⟨?_, h⟩
    rw [List.mem_append, TreeMap.mem_keys, TreeMap.mem_iff_isSome_getElem?]
    unfold isRetainedToolTombstone at h
    simp only [Bool.and_eq_true, Bool.or_eq_true, List.contains_iff_mem] at h
    cases h.2 with
    | inl hactive => exact .inr hactive
    | inr hheader =>
      left
      cases hget : s.subagentHeaders[id]? with
      | none =>
        rw [hget] at hheader
        contradiction
      | some header => rfl

theorem nodup_retainedToolTombstones (s : SessionSnapshot) : s.retainedToolTombstones.Nodup := by
  unfold retainedToolTombstones
  apply List.nodup_dedup

theorem mem_of_minByKey_eq_some {key : α → Nat} {xs : List α} {x : α} (h : minByKey key xs = some x)
    : x ∈ xs := by
  induction xs with
  | nil => simp [minByKey] at h
  | cons y ys ih =>
    unfold minByKey at h
    split at h
    . simp_all
    . split at h <;> simp_all

theorem expiredTombstone_retained {s : SessionSnapshot} {expired : String}
    (h : s.expiredTombstone = some expired)
    : s.isRetainedToolTombstone expired := by
  unfold expiredTombstone at h
  rw [Option.or_eq_some_iff, Option.map_eq_some_iff] at h
  cases h with
  | inl h =>
    cases h with
    | intro entry hentry =>
      have hmem := mem_of_minByKey_eq_some hentry.1
      rw [List.mem_filter] at hmem
      rw [← hentry.2]
      exact hmem.2
  | inr h => exact List.find?_some h.2

theorem retainedToolTombstones_of_expiredTombstone_eq_none {s : SessionSnapshot}
    (h : s.expiredTombstone = none)
    : s.retainedToolTombstones = [] := by
  unfold expiredTombstone at h
  rw [Option.or_eq_none_iff, List.find?_eq_none] at h
  unfold retainedToolTombstones
  rw [List.filter_eq_nil_iff.mpr h.2]
  rfl

/--
A round of the loop gives up one tombstone and adds none.
-/
theorem expireTombstone_length_lt {s : SessionSnapshot} {expired : String}
    (h : s.isRetainedToolTombstone expired)
    : (s.expireTombstone expired).Yields (fun _ => False) fun t =>
        t.retainedToolTombstones.length < s.retainedToolTombstones.length := by
  unfold expireTombstone
  apply Except.Yields.bind (settleHistory_tools s _ _ _)
  rintro t ⟨htools, hactive, hheaders⟩
  have hmem := (mem_retainedToolTombstones s expired).mpr h
  have hpos := List.length_pos_of_mem hmem
  have hlength := List.length_erase_of_mem hmem
  refine Nat.lt_of_le_of_lt (m := (s.retainedToolTombstones.erase expired).length) ?_ (by omega)
  apply List.Subperm.length_le
  apply List.Nodup.subperm (nodup_retainedToolTombstones _)
  intro id hid
  rw [mem_retainedToolTombstones] at hid
  unfold isRetainedToolTombstone at hid
  simp only [htools, hactive, hheaders, TreeMap.getElem?_erase, Bool.and_eq_true, Bool.or_eq_true,
    List.contains_iff_mem, List.mem_filter, bne_iff_ne] at hid
  have hne : id ≠ expired := by
    rintro rfl
    simp [headerUnresolved, isUnresolvedState] at hid
  rw [List.mem_erase_of_ne hne, mem_retainedToolTombstones]
  have hcompare : ¬compare expired id = .eq := by
    rw [Std.compare_eq_iff_eq]
    exact Ne.symm hne
  rw [if_neg hcompare] at hid
  unfold isRetainedToolTombstone
  simp only [Bool.and_eq_true, Bool.or_eq_true, List.contains_iff_mem]
  exact ⟨hid.1, hid.2.imp_left fun h => h.1⟩

theorem expireTombstones_length_le (rounds : Nat) {s : SessionSnapshot}
    (h : s.retainedToolTombstones.length ≤ rounds)
    : (expireTombstones rounds s).Yields (fun _ => False) fun t =>
        t.retainedToolTombstones.length ≤ MAX_ACTIVE_TOOL_TOMBSTONES := by
  induction rounds generalizing s with
  | zero =>
    simp only [expireTombstones, Except.yields_ok]
    omega
  | succ rounds ih =>
    unfold expireTombstones
    split
    . split
      . next hnone =>
        rw [Except.yields_ok, retainedToolTombstones_of_expiredTombstone_eq_none hnone]
        exact Nat.zero_le _
      . next hsome =>
        apply Except.Yields.bind (expireTombstone_length_lt (expiredTombstone_retained hsome))
        intro t ht
        apply ih
        omega
    . next hle =>
      rw [Except.yields_ok]
      omega

/--
The loop ends because its condition fails, never because the rounds are used up.
-/
theorem enforceActiveToolTombstoneBounds_length_le (s : SessionSnapshot)
    : s.enforceActiveToolTombstoneBounds.Yields (fun _ => False) fun t =>
        t.retainedToolTombstones.length ≤ MAX_ACTIVE_TOOL_TOMBSTONES :=
  expireTombstones_length_le _ (Nat.le_refl _)

end SessionSnapshot

end Snapshot
