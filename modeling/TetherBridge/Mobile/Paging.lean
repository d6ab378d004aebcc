import TetherBridge.Data.Keyed
import TetherBridge.Mobile.Continuation

/-!
This module contains what a transcript holds after its pages were merged: every entry of a page that the
client reads, and besides them the live window.
-/

namespace Mobile

open Acp Snapshot List

def SnapshotPageEntry.shown (entry : SnapshotPageEntry) : SnapshotTimelineEntry :=
  { sequence := entry.sequence, kind := entry.kind, canonicalId := entry.canonicalId }

/-! What the entries of the pages write -/

/--
The newest value that is written under a key.
-/
def written (key : β → κ) (value : α → Option β) (entries : List α) [DecidableEq κ] (k : κ) : Option β :=
  (entries.filterMap value).reverse.find? fun b => key b = k

theorem written_append [DecidableEq κ] {key : β → κ} {value : α → Option β} (entries later : List α) (k : κ)
    : written key value (entries ++ later) k
        = (written key value later k).or (written key value entries k) := by
  unfold written
  rw [filterMap_append, reverse_append, find?_append]

theorem written_singleton [DecidableEq κ] {key : β → κ} {value : α → Option β} (entry : α) (k : κ)
    : written key value [entry] k = (value entry).filter fun b => key b = k := by
  unfold written
  cases hvalue : value entry with
  | none =>
    rw [filterMap_cons_none hvalue]
    rfl
  | some b =>
    rw [filterMap_cons_some hvalue, filterMap_nil, reverse_singleton, find?_singleton, Option.filter_some]

/--
Where no two entries write different values under one key, a map holds what is written and what it held
under the other keys.
-/
theorem mem_iff_written [DecidableEq κ] {key : β → κ} {value : α → Option β} {entries : List α}
    {base now : List β} (hbase : (base.map key).Nodup) (hnow : (now.map key).Nodup)
    (hfind : ∀ k, (now.find? fun b => key b = k)
      = (written key value entries k).or (base.find? fun b => key b = k))
    (hunique : ∀ a ∈ entries, ∀ x, value a = some x → ∀ b ∈ entries, ∀ y, value b = some y →
      key x = key y → x = y)
    (x : β)
    : x ∈ now ↔ (∃ a ∈ entries, value a = some x)
        ∨ (x ∈ base ∧ ∀ a ∈ entries, ∀ y, value a = some y → key y ≠ key x) := by
  have hmem : x ∈ now ↔ (now.find? fun b => key b = key x) = some x := by
    rw [find?_key_eq_some_iff hnow]
    exact (and_iff_left rfl).symm
  rw [hmem, hfind]
  by_cases hwritten : ∃ a ∈ entries, ∃ y, value a = some y ∧ key y = key x
  . rcases hwritten with ⟨a, ha, y, hy, hkey⟩
    have hfound : written key value entries (key x) = some y := by
      unfold written
      cases hcases : (entries.filterMap value).reverse.find? fun b => key b = key x with
      | none =>
        rw [find?_eq_none] at hcases
        exact absurd (decide_eq_true hkey) (hcases y (mem_reverse.mpr (mem_filterMap.mpr ⟨a, ha, hy⟩)))
      | some found =>
        have hfoundKey := find?_some hcases
        rw [decide_eq_true_eq] at hfoundKey
        rcases mem_filterMap.mp (mem_reverse.mp (mem_of_find?_eq_some hcases)) with ⟨b, hb, hfound⟩
        rw [hunique a ha y hy b hb found hfound (hkey.trans hfoundKey.symm)]
    rw [hfound, Option.some_or, Option.some_inj]
    constructor
    . rintro rfl
      exact .inl ⟨a, ha, hy⟩
    . rintro (⟨b, hb, hx⟩ | ⟨-, hnone⟩)
      . exact hunique a ha y hy b hb x hx hkey
      . exact absurd hkey (hnone a ha y hy)
  . push Not at hwritten
    have hnone : written key value entries (key x) = none := by
      unfold written
      rw [find?_eq_none]
      intro y hy heq
      rcases mem_filterMap.mp (mem_reverse.mp hy) with ⟨a, ha, hvalue⟩
      exact hwritten a ha y hvalue (of_decide_eq_true heq)
    rw [hnone, Option.none_or, find?_key_eq_some_iff hbase]
    constructor
    . intro hx
      exact .inr ⟨hx.1, hwritten⟩
    . rintro (⟨a, ha, hx⟩ | ⟨hx, -⟩)
      . exact absurd rfl (hwritten a ha x hx)
      . exact ⟨hx, rfl⟩

namespace Merge

/--
The three maps hold what the entries wrote, and besides it what they held at first.
-/
structure Holds (base : Merge) (entries : List SnapshotPageEntry) (merge : Merge) : Prop where
  timelineKeyed : Keyed (·.sequence) merge.timeline
  messagesKeyed : Keyed (·.id) merge.messages
  toolsKeyed : Keyed (·.id) merge.tools
  timeline : ∀ sequence, merge.timeline.lookup sequence
    = (written (·.sequence) (some ·.shown) entries sequence).or (base.timeline.lookup sequence)
  messages : ∀ id, merge.messages.lookup id
    = (written (·.id) (·.message) entries id).or (base.messages.lookup id)
  tools : ∀ id, merge.tools.lookup id
    = (written (·.id) (·.tool) entries id).or (base.tools.lookup id)

variable {base merge : Merge} {entries : List SnapshotPageEntry}

theorem Holds.add (h : base.Holds entries merge) (entry : SnapshotPageEntry)
    : base.Holds (entries ++ [entry]) (merge.add entry) := by
  refine ⟨h.timelineKeyed.assign entry.shown, ?_, ?_, ?_, ?_, ?_⟩
  . unfold Merge.add
    cases entry.message with
    | none => exact h.messagesKeyed
    | some message => exact h.messagesKeyed.assign message
  . unfold Merge.add
    cases entry.tool with
    | none => exact h.toolsKeyed
    | some tool => exact h.toolsKeyed.assign tool
  . intro sequence
    rw [written_append, written_singleton, Option.filter_some, Option.or_assoc, ← h.timeline]
    unfold Merge.add
    dsimp only
    rw [lookup_assign]
    by_cases heq : sequence = entry.sequence
    . simp [heq, SnapshotPageEntry.shown]
    . simp [heq, Ne.symm heq, SnapshotPageEntry.shown]
  . intro id
    rw [written_append, written_singleton, Option.or_assoc, ← h.messages]
    unfold Merge.add
    cases entry.message with
    | none => rfl
    | some message =>
      dsimp only
      rw [lookup_assign, Option.filter_some]
      by_cases heq : id = message.id
      . simp [heq]
      . simp [heq, Ne.symm heq]
  . intro id
    rw [written_append, written_singleton, Option.or_assoc, ← h.tools]
    unfold Merge.add
    cases entry.tool with
    | none => rfl
    | some tool =>
      dsimp only
      rw [lookup_assign, Option.filter_some]
      by_cases heq : id = tool.id
      . simp [heq]
      . simp [heq, Ne.symm heq]

theorem Holds.foldl (h : base.Holds entries merge) (later : List SnapshotPageEntry)
    : base.Holds (entries ++ later) (later.foldl Merge.add merge) := by
  induction later generalizing entries merge with
  | nil => rwa [append_nil]
  | cons entry later ih =>
    have hadd := ih (h.add entry)
    rwa [append_assoc, singleton_append] at hadd

/--
What counts as added: the first entry for a sequence that the map did not hold.
-/
theorem addedByKind_foldl (later : List SnapshotPageEntry) (merge : Merge)
    (hnodup : (later.map (·.sequence)).Nodup) (kind : SnapshotTimelineKind)
    : (later.foldl Merge.add merge).addedByKind kind
        = merge.addedByKind kind + later.countP fun entry =>
            entry.kind = kind ∧ merge.timeline.lookup entry.sequence = none := by
  induction later generalizing merge with
  | nil => simp
  | cons entry later ih =>
    rw [map_cons, nodup_cons] at hnodup
    rw [foldl_cons, ih _ hnodup.2, countP_cons]
    have hrest : (later.countP fun other => decide
          (other.kind = kind ∧ (merge.add entry).timeline.lookup other.sequence = none))
        = later.countP fun other => decide
          (other.kind = kind ∧ merge.timeline.lookup other.sequence = none) := by
      apply countP_congr
      intro other hother
      have hne : other.sequence ≠ entry.sequence := by
        intro heq
        exact hnodup.1 (heq ▸ mem_map_of_mem hother)
      unfold Merge.add
      dsimp only
      rw [lookup_assign, if_neg hne]
    rw [hrest]
    unfold Merge.add
    dsimp only
    cases hlookup : merge.timeline.lookup entry.sequence with
    | some old =>
      rw [Option.isSome_some, if_pos rfl]
      simp
    | none =>
      rw [Option.isSome_none, if_neg Bool.false_ne_true]
      by_cases hkind : entry.kind = kind
      . subst hkind
        rw [Function.update_self]
        simp
        omega
      . rw [Function.update_of_ne (Ne.symm hkind)]
        simp [hkind]

end Merge

/-! Merging a page -/

theorem mapBy_spec [DecidableEq κ] [BEq κ] [LawfulBEq κ] {key : β → κ} {values : List β}
    (hnodup : (values.map key).Nodup)
    : Keyed key (mapBy key values)
        ∧ ∀ k, (mapBy key values).lookup k = values.find? fun value => key value = k := by
  have heq : mapBy key values = values.map fun value => (key value, value) := by
    unfold mapBy
    rw [foldl_assign_of_nodup key (by rwa [map_nil, nil_append]), nil_append]
  have hkeyed : Keyed key (mapBy key values) := by
    rw [heq]
    refine ⟨?_, ?_⟩
    . rw [map_map]
      exact hnodup
    . intro entry hentry
      rw [mem_map] at hentry
      rcases hentry with ⟨value, -, rfl⟩
      rfl
  refine ⟨hkeyed, fun k => ?_⟩
  rw [← hkeyed.find?_values, heq, map_map]
  congr 1
  exact map_id values

/--
The entries are shown, and besides them what the base shows.
-/
structure Displays (base : RawAcpSnapshot) (entries : List SnapshotPageEntry) (t : RawAcpSnapshot) : Prop where
  sorted : t.timeline.Pairwise (·.sequence < ·.sequence)
  messageIds : (t.messages.map (·.id)).Nodup
  toolIds : (t.tools.map (·.id)).Nodup
  timeline : ∀ sequence, (t.timeline.find? fun shown => shown.sequence = sequence)
    = (written (·.sequence) (some ·.shown) entries sequence).or
        (base.timeline.find? fun shown => shown.sequence = sequence)
  messages : ∀ id, (t.messages.find? fun message => message.id = id)
    = (written (·.id) (·.message) entries id).or (base.messages.find? fun message => message.id = id)
  tools : ∀ id, (t.tools.find? fun tool => tool.id = id)
    = (written (·.id) (·.tool) entries id).or (base.tools.find? fun tool => tool.id = id)

namespace Displays

variable {base t t' : RawAcpSnapshot} {entries : List SnapshotPageEntry} {page : SnapshotPageResponse}

theorem sequences_nodup {timeline : List SnapshotTimelineEntry}
    (h : timeline.Pairwise (·.sequence < ·.sequence))
    : (timeline.map (·.sequence)).Nodup :=
  pairwise_map.mpr (h.imp Nat.ne_of_lt)

theorem start (h : Displays base entries t) : (Merge.start t).Holds [] (Merge.start t) where
  timelineKeyed := (mapBy_spec (sequences_nodup h.sorted)).1
  messagesKeyed := (mapBy_spec h.messageIds).1
  toolsKeyed := (mapBy_spec h.toolIds).1
  timeline _ := rfl
  messages _ := rfl
  tools _ := rfl

/--
The timeline in its order.
-/
theorem sort_timeline {timeline : List (Nat × SnapshotTimelineEntry)} (h : Keyed (·.sequence) timeline)
    : ((timeline.map (·.2)).mergeSort (·.sequence ≤ ·.sequence)).Pairwise (·.sequence < ·.sequence)
        ∧ ∀ sequence, (((timeline.map (·.2)).mergeSort (·.sequence ≤ ·.sequence)).find?
            fun shown => shown.sequence = sequence) = timeline.lookup sequence := by
  have hperm := mergeSort_perm (timeline.map (·.2)) fun a b => decide (a.sequence ≤ b.sequence)
  have hle := @pairwise_mergeSort _ (fun a b : SnapshotTimelineEntry => decide (a.sequence ≤ b.sequence))
    (by
      intro a b c hab hbc
      rw [decide_eq_true_eq] at hab hbc ⊢
      omega)
    (by
      intro a b
      rw [Bool.or_eq_true, decide_eq_true_eq, decide_eq_true_eq]
      omega) (timeline.map (·.2))
  generalize (timeline.map (·.2)).mergeSort (fun a b => decide (a.sequence ≤ b.sequence)) = sorted at *
  have hnodup : (sorted.map (·.sequence)).Nodup := (hperm.map _).nodup_iff.mpr h.nodup_values
  refine ⟨?_, fun sequence => ?_⟩
  . have hne := pairwise_map.mp hnodup
    refine hle.imp₂ ?_ hne
    intro a b hab hne
    rw [decide_eq_true_eq] at hab
    omega
  . rw [← h.find?_values]
    apply Option.ext
    intro shown
    rw [find?_key_eq_some_iff hnodup, find?_key_eq_some_iff h.nodup_values, hperm.mem_iff]

theorem merge (h : Displays base entries t) (hmerge : mergeSnapshotPage t page = .ok t')
    : Displays base (entries ++ page.entries) t' := by
  unfold mergeSnapshotPage at hmerge
  dsimp only at hmerge
  split at hmerge
  . contradiction
  . have hholds := h.start.foldl page.entries
    rw [nil_append] at hholds
    injection hmerge with hmerge
    generalize page.entries.foldl Merge.add (Merge.start t) = merge at *
    subst hmerge
    have hsort := sort_timeline hholds.timelineKeyed
    refine ⟨hsort.1, hholds.messagesKeyed.nodup_values, hholds.toolsKeyed.nodup_values, ?_, ?_, ?_⟩
    . intro sequence
      rw [hsort.2, hholds.timeline, written_append, Option.or_assoc, ← h.timeline]
      congr 1
      exact (mapBy_spec (sequences_nodup h.sorted)).2 sequence
    . intro id
      dsimp only
      rw [hholds.messagesKeyed.find?_values, hholds.messages, written_append, Option.or_assoc, ← h.messages]
      congr 1
      exact (mapBy_spec h.messageIds).2 id
    . intro id
      dsimp only
      rw [hholds.toolsKeyed.find?_values, hholds.tools, written_append, Option.or_assoc, ← h.tools]
      congr 1
      exact (mapBy_spec h.toolIds).2 id

end Displays

/--
A page of the revision that the chat was read at is merged.
-/
theorem mergeSnapshotPage_of_revision {snapshot : RawAcpSnapshot} {page : SnapshotPageResponse}
    {continuation : SnapshotContinuation} (hcontinuation : snapshot.continuation = some continuation)
    (hrevision : page.revision = continuation.revision)
    : ∃ merged, mergeSnapshotPage snapshot page = .ok merged
        ∧ (∀ kind, merged.collection kind = (snapshot.collection kind).map
          (updateCollection page (page.entries.foldl Merge.add (.start snapshot)).addedByKind kind))
        ∧ merged.continuation = some {
          continuation with
          revision := page.revision
          unavailableCount := page.unavailableCount
          earliestAvailableSequence := page.earliestAvailableSequence
          latestAvailableSequence := page.latestAvailableSequence } := by
  unfold mergeSnapshotPage
  have hcurrent : ((snapshot.continuation.map (·.revision)).filter (page.revision ≠ ·)) = none := by
    rw [hcontinuation, Option.map_some, Option.filter_some]
    exact if_neg (by simp [hrevision])
  dsimp only
  rw [hcurrent, hcontinuation]
  refine ⟨_, rfl, ?_, rfl⟩
  intro kind
  cases kind <;> rfl

/--
A page of another revision changes nothing.
-/
theorem mergeSnapshotPage_of_ne {snapshot : RawAcpSnapshot} {page : SnapshotPageResponse}
    {continuation : SnapshotContinuation} (hcontinuation : snapshot.continuation = some continuation)
    (hrevision : page.revision ≠ continuation.revision)
    : mergeSnapshotPage snapshot page
        = .error { expectedRevision := continuation.revision, pageRevision := page.revision } := by
  unfold mergeSnapshotPage
  have hstale : ((snapshot.continuation.map (·.revision)).filter (page.revision ≠ ·))
      = some continuation.revision := by
    rw [hcontinuation, Option.map_some, Option.filter_some]
    exact if_pos (by simp [hrevision])
  dsimp only
  rw [hstale]

end Mobile
