import TetherBridge.Snapshot.Eviction
import TetherBridge.Snapshot.History
import TetherBridge.Snapshot.Page

/-!
This module contains what a client reads that asks for one page of the history after the other, forwards or
backwards, while the session goes on between two pages.
-/

namespace Snapshot

open Acp List

/-! What happens between two pages -/

/--
The session goes on: entries may be added, written and evicted.
-/
inductive Grows (s : SessionSnapshot) : SessionSnapshot → Prop where
  | refl : Grows s s
  | perform {t u : SessionSnapshot} (h : Grows s t) (operation : Operation) (hok : t.perform operation = .ok u)
    : Grows s u
  | reorder {t : SessionSnapshot} {activeToolIds : List String} (h : Grows s t)
      (hperm : activeToolIds.Perm t.activeToolIds)
    : Grows s { t with activeToolIds }

namespace SessionSnapshot

variable {s t : SessionSnapshot}

/--
The thread is the same, no sequence is given out again, and no evicted entry comes back.
-/
structure Advances (s t : SessionSnapshot) : Prop where
  threadId : t.threadId = s.threadId
  nextSequence : s.nextSequence ≤ t.nextSequence
  unavailableCount : s.unavailableCount ≤ t.unavailableCount

theorem Advances.refl (s : SessionSnapshot) : s.Advances s :=
  ⟨rfl, Nat.le_refl _, Nat.le_refl _⟩

theorem Advances.trans {u : SessionSnapshot} (h : s.Advances t) (h' : t.Advances u) : s.Advances u :=
  ⟨h'.threadId.trans h.threadId, Nat.le_trans h.nextSequence h'.nextSequence,
    Nat.le_trans h.unavailableCount h'.unavailableCount⟩

/--
What has been counted and given out so far is known, and the counters are machine integers.
-/
structure AdvancedFrom (s t : SessionSnapshot) : Prop extends s.Advances t where
  next_le : t.nextSequence ≤ U64_MAX
  unavailable_le : t.unavailableCount ≤ U64_MAX

theorem evictHistory_counts (history : List SnapshotHistoryEntry) {historyBytes unavailableCount : Nat}
    (hle : unavailableCount ≤ U64_MAX)
    : (evictHistory history historyBytes unavailableCount).Yields (fun _ => False)
        fun (result : List SnapshotHistoryEntry × Nat × Nat) =>
          unavailableCount ≤ result.2.2 ∧ result.2.2 ≤ U64_MAX := by
  induction history generalizing historyBytes unavailableCount with
  | nil =>
    unfold evictHistory
    split
    . simp
    . exact ⟨Nat.le_refl _, hle⟩
  | cons removed history ih =>
    unfold evictHistory
    split
    . apply Except.Yields.bind (historyEntryBytes_measures removed).anyError
      intro removedBytes _
      apply Except.Yields.mono (ih (saturatingAdd_le U64_MAX unavailableCount 1))
      rintro result ⟨hcount, hmax⟩
      exact ⟨Nat.le_trans (le_saturatingAdd hle 1) hcount, hmax⟩
    . exact ⟨Nat.le_refl _, hle⟩

theorem enforceHistoryBounds_advances (h : s.AdvancedFrom t)
    : t.enforceHistoryBounds.Yields (fun _ => False) s.AdvancedFrom := by
  unfold enforceHistoryBounds
  apply Except.Yields.bind (evictHistory_counts t.history h.unavailable_le)
  rintro ⟨history, historyBytes, unavailableCount⟩ ⟨hcount, hmax⟩
  exact ⟨⟨h.threadId, h.nextSequence, Nat.le_trans h.unavailableCount hcount⟩, h.next_le, hmax⟩

theorem mutateHistoryEntryAt_advances (h : s.AdvancedFrom t) (index : Nat)
    (update : SnapshotHistoryEntry → SnapshotHistoryEntry)
    : (t.mutateHistoryEntryAt index update).Yields (fun _ => False) s.AdvancedFrom := by
  unfold mutateHistoryEntryAt
  split
  . simp
  . next entry _ =>
    apply Except.Yields.bind (historyEntryBytes_measures entry).anyError
    intro oldBytes _
    apply Except.Yields.bind (historyEntryBytes_measures (update entry)).anyError
    intro newBytes _
    apply enforceHistoryBounds_advances
    exact ⟨⟨h.threadId, h.nextSequence, h.unavailableCount⟩, h.next_le, h.unavailable_le⟩

theorem pushTimeline_advances (h : s.AdvancedFrom t) (kind : SnapshotTimelineKind) (canonicalId : String)
    : (t.pushTimeline kind canonicalId).Yields (fun _ => False) s.AdvancedFrom := by
  unfold pushTimeline pushHistory
  apply Except.Yields.bind (historyEntryBytes_measures _).anyError
  intro bytes _
  apply enforceHistoryBounds_advances
  have hnext := Nat.le_trans h.nextSequence (le_saturatingAdd h.next_le 1)
  have hmax := saturatingAdd_le U64_MAX t.nextSequence 1
  cases kind <;> exact ⟨⟨h.threadId, hnext, h.unavailableCount⟩, hmax, h.unavailable_le⟩

theorem keptByTools_advances (s : SessionSnapshot) : KeptByTools (fun _ => False) s.AdvancedFrom := by
  constructor
  . simp
  . intro t h tools activeToolIds subagentHeaders
    exact ⟨⟨h.threadId, h.nextSequence, h.unavailableCount⟩, h.next_le, h.unavailable_le⟩
  . intro t h keep
    exact ⟨⟨h.threadId, h.nextSequence, h.unavailableCount⟩, h.next_le, h.unavailable_le⟩
  . intro t h index _ update _
    exact mutateHistoryEntryAt_advances h index update
  . intro t h entry _ position
    exact ⟨⟨h.threadId, h.nextSequence, h.unavailableCount⟩, h.next_le, h.unavailable_le⟩

theorem AdvancedFrom.congr {u : SessionSnapshot} (h : s.AdvancedFrom t) (hthread : u.threadId = t.threadId)
    (hnext : u.nextSequence = t.nextSequence) (hunavailable : u.unavailableCount = t.unavailableCount)
    : s.AdvancedFrom u := by
  refine ⟨⟨hthread.trans h.threadId, ?_, ?_⟩, ?_, ?_⟩
  . rw [hnext]
    exact h.nextSequence
  . rw [hunavailable]
    exact h.unavailableCount
  . rw [hnext]
    exact h.next_le
  . rw [hunavailable]
    exact h.unavailable_le

theorem updateHistoryMessage_advances (h : s.AdvancedFrom t) (message : SnapshotMessage)
    : (t.updateHistoryMessage message).Yields (fun _ => False) s.AdvancedFrom := by
  unfold updateHistoryMessage
  split
  . exact mutateHistoryEntryAt_advances h _ _
  . exact h

theorem appendMessage_advances (h : s.AdvancedFrom t) (id : String) (role : MessageRole) (content : String)
    (contentBlock : Option Json)
    : (t.appendMessage id role content contentBlock).Yields (fun _ => False) s.AdvancedFrom := by
  unfold appendMessage
  split
  . apply updateHistoryMessage_advances
    exact h.congr rfl rfl rfl
  . have hroom : t.makeRoomForMessage.Yields (fun _ => False) s.AdvancedFrom := by
      unfold makeRoomForMessage
      split
      . split
        . simp
        . exact h.congr rfl rfl rfl
      . exact h
    apply Except.Yields.bind hroom
    intro u h
    unfold insertMessage
    apply Except.Yields.bind (pushTimeline_advances h _ _)
    intro v h
    apply updateHistoryMessage_advances
    exact h.congr rfl rfl rfl

theorem attachTurnUsage_advances (h : s.AdvancedFrom t) (usage : BridgeTurnUsageSnapshot)
    : (t.attachTurnUsage usage).Yields (fun _ => False) s.AdvancedFrom := by
  unfold attachTurnUsage
  split
  . exact h
  . split
    . exact h
    . apply updateHistoryMessage_advances
      exact h.congr rfl rfl rfl

theorem apply_advances (h : s.AdvancedFrom t) (event : CanonicalEvent)
    : (t.apply event).Yields (fun _ => False) s.AdvancedFrom := by
  have rules := keptByTools_advances s
  unfold apply
  split
  case h_1 =>
    apply Except.Yields.bind (abandonActiveRun_keeps rules.updates h)
    intro u h
    exact h.congr rfl rfl rfl
  case h_2 =>
    split
    . apply Except.Yields.bind (settleFinishedRun_keeps rules.updates h _ _)
      intro u h
      exact h.congr rfl rfl rfl
    . exact h
  case h_3 =>
    split
    . apply Except.Yields.bind (terminalizeActiveTools_keeps rules.updates h _)
      intro u h
      apply Except.Yields.bind (terminalizeUnresolvedSubagents_keeps rules.updates h _ _)
      intro v h
      exact h.congr rfl rfl rfl
    . exact h
  case h_4 => exact appendMessage_advances h _ _ _ _
  case h_5 =>
    apply applyTool_keeps rules rules (fun _ h => h) h
    intro u h
    exact pushTimeline_advances h _ _
  case h_8 =>
    apply attachTurnUsage_advances
    exact h.congr rfl rfl rfl
  all_goals first | exact h | exact h.congr rfl rfl rfl

theorem perform_advances (h : s.AdvancedFrom t) (operation : Operation)
    : (t.perform operation).Yields (fun _ => False) s.AdvancedFrom := by
  have rules := (keptByTools_advances s).updates
  cases operation with
  | apply event => exact apply_advances h event
  | markSubagentTerminal childSessionId status =>
    apply Except.Yields.bind (markSubagentTerminal_keeps rules h childSessionId status)
    intro result h
    exact h
  | markSubagentToolTerminal toolCallId status toolStatus =>
    apply Except.Yields.bind (markSubagentToolTerminal_keeps rules h toolCallId status toolStatus)
    intro result h
    exact h
  | settleUnresolvedSubagentsWithoutRun => exact settleUnresolvedSubagentsWithoutRun_keeps rules h

end SessionSnapshot

theorem Grows.advances {s t : SessionSnapshot} (h : Grows s t) (hnext : s.nextSequence ≤ U64_MAX)
    (hunavailable : s.unavailableCount ≤ U64_MAX)
    : s.AdvancedFrom t := by
  induction h with
  | refl => exact ⟨.refl s, hnext, hunavailable⟩
  | perform _ operation hok ih => exact (SessionSnapshot.perform_advances ih operation).of_ok hok
  | reorder _ _ ih => exact ih.congr rfl rfl rfl

theorem Grows.reachable {s t : SessionSnapshot} (h : Grows s t) (hs : Reachable s) : Reachable t := by
  induction h with
  | refl => exact hs
  | perform _ operation hok ih => exact .perform operation ih hok
  | reorder _ hperm ih => exact .reorder ih hperm

/-! Reading the pages -/

/--
Read forwards: the next page is asked for after the last entry, of the session as it is by then, as long as a
page says that there is more.
-/
def readAfter (limit : Nat) : Option SnapshotCursor → List SessionSnapshot → Except String (List SnapshotPage)
  | _, [] => .ok []
  | after, s :: later =>
    match s.page none after limit with
    | .error e => .error e
    | .ok page =>
      if page.hasMoreAfter then (readAfter limit page.afterCursor later).map (page :: ·) else .ok [page]

/--
Read backwards: the next page is asked for before the first entry.
-/
def readBefore (limit : Nat) : SnapshotCursor → List SessionSnapshot → Except String (List SnapshotPage)
  | _, [] => .ok []
  | before, s :: later =>
    match s.page (some before) none limit with
    | .error e => .error e
    | .ok page =>
      match page.hasMoreBefore, page.beforeCursor with
      | true, some before => (readBefore limit before later).map (page :: ·)
      | _, _ => .ok [page]

/--
What is on the pages.
-/
def entriesOf (pages : List SnapshotPage) : List SnapshotHistoryEntry :=
  pages.flatMap (·.entries)

namespace SessionSnapshot

variable {s : SessionSnapshot}

/--
The history holds the sequences that were given out and not evicted.
-/
structure Windowed (s : SessionSnapshot) : Prop where
  sequences : Consecutive (·.sequence) s.unavailableCount s.history
  next : s.unavailableCount + s.history.length = s.nextSequence

/--
A cursor of an earlier page of the thread.
-/
def Accepts (s : SessionSnapshot) (cursor : SnapshotCursor) : Prop :=
  cursor.threadId = s.threadId ∧ cursor.revision ≤ s.nextSequence

theorem decode_of_accepts {cursor : SnapshotCursor} (h : s.Accepts cursor) : s.decode cursor = .ok cursor :=
  if_pos h

def pageLimit (limit : Nat) : Nat :=
  min (max limit 1) MAX_SNAPSHOT_PAGE_SIZE

theorem pageLimit_pos (limit : Nat) : 0 < pageLimit limit := by
  unfold pageLimit MAX_SNAPSHOT_PAGE_SIZE
  omega

/--
The sequences a page forwards begins with at the earliest.
-/
def startAfter : Option SnapshotCursor → Nat
  | none => 0
  | some cursor => cursor.sequence + 1

theorem pageEntries_after (hs : s.Windowed) (after : Option SnapshotCursor) (limit : Nat)
    : s.pageEntries none after limit = (s.history.drop (startAfter after - s.unavailableCount)).take limit := by
  cases after with
  | none =>
    unfold pageEntries startAfter
    rw [Nat.zero_sub, drop_zero]
  | some cursor =>
    unfold pageEntries startAfter
    dsimp only
    rw [hs.sequences.filter_lt]

/--
A page forwards from `start` on holds the sequences below `stop`, of those that are retained.
-/
structure Covers (s : SessionSnapshot) (start stop : Nat) (page : SnapshotPage) : Prop where
  entries : page.entries.Sublist s.history
  unavailable : page.unavailableCount = s.unavailableCount
  numbers : Consecutive (·.sequence) (max start s.unavailableCount) page.entries
  extent : stop = max start s.unavailableCount + page.entries.length
  more : page.hasMoreAfter = true → page.entries ≠ [] ∧
    ∃ cursor, page.afterCursor = some cursor ∧ startAfter (some cursor) = stop ∧ s.Accepts cursor
  ended : page.hasMoreAfter = false → s.nextSequence ≤ stop

theorem pageAfter_covers (hs : s.Windowed) (hlt : s.nextSequence < U64_MAX) {after : Option SnapshotCursor}
    (hafter : ∀ cursor, after = some cursor → s.Accepts cursor) (limit : Nat)
    : ∃ page stop, s.page none after limit = .ok page ∧ s.Covers (startAfter after) stop page := by
  have hdecode : s.decode? after = .ok after := by
    cases after with
    | none => rfl
    | some cursor =>
      have hsome : s.decode? (some cursor) = (s.decode cursor).map some := rfl
      rw [hsome, decode_of_accepts (hafter cursor rfl)]
      rfl
  have hpage : ∃ page, s.page none after limit = .ok page
      ∧ page.entries = (s.history.drop (startAfter after - s.unavailableCount)).take (pageLimit limit)
      ∧ page.unavailableCount = s.unavailableCount
      ∧ page.afterCursor = (page.entries.getLast?.map (·.sequence)).map s.cursor
      ∧ page.hasMoreAfter = decide ((page.entries.getLast?.map (·.sequence)).getD U64_MAX
        < (s.history.getLast?.map (·.sequence)).getD U64_MAX) := by
    unfold page
    rw [if_neg (by simp), hdecode]
    refine ⟨_, rfl, ?_, rfl, rfl, rfl⟩
    exact pageEntries_after hs after _
  rcases hpage with ⟨page, hok, hentries, hunavailable, hcursor, hmore⟩
  have hstart : max (startAfter after) s.unavailableCount
      = s.unavailableCount + (startAfter after - s.unavailableCount) := by
    omega
  have hnumbers : Consecutive (·.sequence) (max (startAfter after) s.unavailableCount) page.entries := by
    rw [hentries, hstart]
    exact hs.sequences.part _ _
  have hlatest : ∀ entry, s.history.getLast? = some entry → entry.sequence + 1 = s.nextSequence := by
    intro entry hlast
    rw [← hs.next]
    exact hs.sequences.getLast hlast
  refine ⟨page, _, hok, ?_, hunavailable, hnumbers, rfl, ?_, ?_⟩
  . rw [hentries]
    exact (take_sublist _ _).trans (drop_sublist _ _)
  . intro hmoreAfter
    rw [hmore, decide_eq_true_eq] at hmoreAfter
    cases hlast : page.entries.getLast? with
    | none =>
      rw [hlast] at hmoreAfter
      cases hnewest : s.history.getLast? with
      | none =>
        rw [hnewest] at hmoreAfter
        exact absurd hmoreAfter (Nat.lt_irrefl _)
      | some entry =>
        rw [hnewest] at hmoreAfter
        have hsequence := hlatest entry hnewest
        dsimp only [Option.map_none, Option.getD_none, Option.map_some, Option.getD_some] at hmoreAfter
        omega
    | some entry =>
      have hsequence := hnumbers.getLast hlast
      refine ⟨?_, s.cursor entry.sequence, ?_, hsequence, rfl, Nat.le_refl _⟩
      . intro hnil
        rw [hnil] at hlast
        contradiction
      . rw [hcursor, hlast]
        rfl
  . intro hmoreAfter
    rw [hmore, decide_eq_false_iff_not] at hmoreAfter
    cases hlast : page.entries.getLast? with
    | none =>
      -- an empty page leaves nothing of the history
      rw [getLast?_eq_none_iff] at hlast
      have hempty := hlast
      rw [hentries, take_eq_nil_iff, drop_eq_nil_iff] at hempty
      have hle := hempty.resolve_left (Nat.ne_of_gt (pageLimit_pos limit))
      rw [hstart, ← hs.next]
      omega
    | some entry =>
      have hsequence := hnumbers.getLast hlast
      rw [hlast] at hmoreAfter
      cases hnewest : s.history.getLast? with
      | none =>
        rw [getLast?_eq_none_iff] at hnewest
        have hempty := hs.next
        rw [hnewest, length_nil] at hempty
        omega
      | some newest =>
        rw [hnewest] at hmoreAfter
        have hnewestSequence := hlatest newest hnewest
        dsimp only [Option.map_some, Option.getD_some] at hmoreAfter
        omega

theorem pageEntries_before (hs : s.Windowed) (before : SnapshotCursor) (limit : Nat)
    : s.pageEntries (some before) none limit
        = (s.history.take (before.sequence - s.unavailableCount)).drop
          ((s.history.take (before.sequence - s.unavailableCount)).length - limit) := by
  have hfilter : s.history.reverse.filter (fun entry => entry.sequence < before.sequence)
      = (s.history.take (before.sequence - s.unavailableCount)).reverse := by
    rw [filter_reverse, hs.sequences.filter_gt]
  unfold pageEntries
  dsimp only
  rw [hfilter, take_reverse, reverse_reverse]

/--
Where the entries before a cursor end.
-/
def endBefore (s : SessionSnapshot) (before : SnapshotCursor) : Nat :=
  max s.unavailableCount (min before.sequence s.nextSequence)

/--
A page backwards holds the sequences from `start` on.
-/
structure CoversBack (s : SessionSnapshot) (before : SnapshotCursor) (start : Nat) (page : SnapshotPage) : Prop where
  entries : page.entries.Sublist s.history
  unavailable : page.unavailableCount = s.unavailableCount
  numbers : Consecutive (·.sequence) start page.entries
  start_le : s.unavailableCount ≤ start
  extent : start + page.entries.length = s.endBefore before
  more : page.hasMoreBefore = true → page.entries ≠ [] ∧
    ∃ cursor, page.beforeCursor = some cursor ∧ cursor.sequence = start ∧ s.Accepts cursor
  ended : page.hasMoreBefore = false → start ≤ s.unavailableCount

theorem pageBefore_covers (hs : s.Windowed) {before : SnapshotCursor} (hbefore : s.Accepts before) (limit : Nat)
    : ∃ page start, s.page (some before) none limit = .ok page ∧ s.CoversBack before start page := by
  have hdecode : s.decode? (some before) = .ok (some before) := by
    have hsome : s.decode? (some before) = (s.decode before).map some := rfl
    rw [hsome, decode_of_accepts hbefore]
    rfl
  have hpage : ∃ page, s.page (some before) none limit = .ok page
      ∧ page.entries = (s.history.take (before.sequence - s.unavailableCount)).drop
        ((s.history.take (before.sequence - s.unavailableCount)).length - pageLimit limit)
      ∧ page.unavailableCount = s.unavailableCount
      ∧ page.beforeCursor = (page.entries.head?.map (·.sequence)).map s.cursor
      ∧ page.hasMoreBefore = decide ((page.entries.head?.map (·.sequence)).getD 0
        > (s.history.head?.map (·.sequence)).getD 0) := by
    unfold page
    rw [if_neg (by simp), hdecode]
    refine ⟨_, rfl, ?_, rfl, rfl, rfl⟩
    exact pageEntries_before hs before _
  rcases hpage with ⟨page, hok, hentries, hunavailable, hcursor, hmore⟩
  have hnext := hs.next
  have hpos := pageLimit_pos limit
  have hkept : (s.history.take (before.sequence - s.unavailableCount)).length
      = min (before.sequence - s.unavailableCount) s.history.length := length_take
  generalize hskip : (s.history.take (before.sequence - s.unavailableCount)).length - pageLimit limit = skip at *
  have hlength : page.entries.length = (s.history.take (before.sequence - s.unavailableCount)).length - skip := by
    rw [hentries, length_drop]
  have hnumbers : Consecutive (·.sequence) (s.unavailableCount + skip) page.entries := by
    rw [hentries, drop_take]
    exact hs.sequences.part _ _
  have hextent : s.unavailableCount + skip + page.entries.length = s.endBefore before := by
    unfold endBefore
    omega
  refine ⟨page, _, hok, ?_, hunavailable, hnumbers, Nat.le_add_right _ _, hextent, ?_, ?_⟩
  . rw [hentries]
    exact (drop_sublist _ _).trans (take_sublist _ _)
  . intro hmoreBefore
    rw [hmore, decide_eq_true_eq] at hmoreBefore
    cases hfirst : page.entries.head? with
    | none =>
      rw [hfirst] at hmoreBefore
      exact absurd hmoreBefore (Nat.not_lt_zero _)
    | some entry =>
      refine ⟨?_, s.cursor entry.sequence, ?_, ?_, rfl, Nat.le_refl _⟩
      . intro hnil
        rw [hnil] at hfirst
        contradiction
      . rw [hcursor, hfirst]
        rfl
      . rw [head?_eq_getElem?] at hfirst
        exact hnumbers 0 entry hfirst
  . intro hmoreBefore
    rw [hmore, decide_eq_false_iff_not] at hmoreBefore
    cases hfirst : page.entries.head? with
    | none =>
      -- a page is only empty when nothing before the cursor is retained
      rw [head?_eq_none_iff] at hfirst
      rw [hfirst, length_nil] at hlength
      omega
    | some entry =>
      rw [hfirst] at hmoreBefore
      rw [head?_eq_getElem?] at hfirst
      have hsequence := hnumbers 0 entry hfirst
      cases hearliest : s.history.head? with
      | none =>
        rw [head?_eq_none_iff] at hearliest
        rw [hentries, hearliest, take_nil, drop_nil] at hfirst
        contradiction
      | some earliest =>
        rw [hearliest] at hmoreBefore
        rw [head?_eq_getElem?] at hearliest
        have hearliestSequence := hs.sequences 0 earliest hearliest
        dsimp only [Option.map_some, Option.getD_some] at hmoreBefore hsequence hearliestSequence
        omega

end SessionSnapshot

/-! A reading -/

theorem mem_entriesOf {pages : List SnapshotPage} {entry : SnapshotHistoryEntry}
    : entry ∈ entriesOf pages ↔ ∃ page ∈ pages, entry ∈ page.entries :=
  mem_flatMap

/--
The pages are those of the snapshots they were read of. `ordered` is what is on them in the order of the
history, `more` whether a page says that there is more to read, `InRange` the sequences that are to be read.
-/
structure Reads (snapshots : List SessionSnapshot) (pages : List SnapshotPage)
    (ordered : List SnapshotHistoryEntry) (more : SnapshotPage → Bool) (InRange : Nat → Prop) : Prop where
  length_le : pages.length ≤ snapshots.length
  retained : ∀ (i : Nat) (page : SnapshotPage) (s : SessionSnapshot), pages[i]? = some page →
    snapshots[i]? = some s → page.entries.Sublist s.history ∧ page.unavailableCount = s.unavailableCount
  sorted : ordered.Pairwise (·.sequence < ·.sequence)
  inRange : ∀ entry ∈ ordered, InRange entry.sequence
  stops : ∀ (i : Nat) (page : SnapshotPage), pages[i]? = some page → more page = false → pages.length = i + 1
  whole : ∀ (i : Nat) (page : SnapshotPage) (s : SessionSnapshot), pages[i]? = some page →
    snapshots[i]? = some s → more page = false → ∀ sequence, InRange sequence → sequence < s.nextSequence →
      (∃ entry ∈ ordered, entry.sequence = sequence) ∨ ∃ page ∈ pages, sequence < page.unavailableCount
  ends : (∀ page ∈ pages, more page = true) →
    pages.length = snapshots.length ∧ pages.length ≤ ordered.length

namespace Reads

variable {snapshots : List SessionSnapshot} {pages : List SnapshotPage} {ordered : List SnapshotHistoryEntry}
  {more : SnapshotPage → Bool} {InRange : Nat → Prop} {s : SessionSnapshot} {page : SnapshotPage}

theorem nil (more : SnapshotPage → Bool) (InRange : Nat → Prop) : Reads [] [] [] more InRange := by
  constructor <;> simp

/--
A page that says it is the last one ends the reading.
-/
theorem last (hentries : page.entries.Sublist s.history) (hunavailable : page.unavailableCount = s.unavailableCount)
    (hsorted : page.entries.Pairwise (·.sequence < ·.sequence))
    (hinRange : ∀ entry ∈ page.entries, InRange entry.sequence) (hmore : more page = false)
    (hwhole : ∀ sequence, InRange sequence → sequence < s.nextSequence →
      (∃ entry ∈ page.entries, entry.sequence = sequence) ∨ sequence < page.unavailableCount)
    : Reads (s :: snapshots) [page] page.entries more InRange where
  length_le := Nat.succ_le_succ (Nat.zero_le _)
  retained i other t hother ht := by
    cases i with
    | zero =>
      injection hother with hother
      injection ht with ht
      subst hother ht
      exact ⟨hentries, hunavailable⟩
    | succ i => contradiction
  sorted := hsorted
  inRange := hinRange
  stops i other hother _ := by
    cases i with
    | zero => rfl
    | succ i => contradiction
  whole i other t hother ht _ sequence hin hlt := by
    cases i with
    | zero =>
      injection ht with ht
      subst ht
      rcases hwhole sequence hin hlt with hread | hevicted
      . exact .inl hread
      . exact .inr ⟨page, mem_cons_self, hevicted⟩
    | succ i => contradiction
  ends hall := by
    rw [hall page mem_cons_self] at hmore
    contradiction

/--
A page that says that there is more is followed by a reading of the rest.
-/
theorem cons {InRest : Nat → Prop} {all : List SnapshotHistoryEntry} (h : Reads snapshots pages ordered more InRest)
    (hentries : page.entries.Sublist s.history) (hunavailable : page.unavailableCount = s.unavailableCount)
    (hmore : more page = true) (hne : page.entries ≠ [])
    (hall : ∀ entry, entry ∈ all ↔ entry ∈ page.entries ∨ entry ∈ ordered)
    (hlength : all.length = page.entries.length + ordered.length)
    (hsorted : all.Pairwise (·.sequence < ·.sequence)) (hinRange : ∀ entry ∈ all, InRange entry.sequence)
    (hsplit : ∀ sequence, InRange sequence →
      InRest sequence ∨ (∃ entry ∈ page.entries, entry.sequence = sequence) ∨ sequence < page.unavailableCount)
    : Reads (s :: snapshots) (page :: pages) all more InRange where
  length_le := Nat.succ_le_succ h.length_le
  retained i other t hother ht := by
    cases i with
    | zero =>
      injection hother with hother
      injection ht with ht
      subst hother ht
      exact ⟨hentries, hunavailable⟩
    | succ i => exact h.retained i other t hother ht
  sorted := hsorted
  inRange := hinRange
  stops i other hother hended := by
    cases i with
    | zero =>
      injection hother with hother
      rw [← hother, hmore] at hended
      contradiction
    | succ i => exact congrArg (· + 1) (h.stops i other hother hended)
  whole i other t hother ht hended sequence hin hlt := by
    cases i with
    | zero =>
      injection hother with hother
      rw [← hother, hmore] at hended
      contradiction
    | succ i =>
      rcases hsplit sequence hin with hrest | ⟨entry, hentry, heq⟩ | hevicted
      . rcases h.whole i other t hother ht hended sequence hrest hlt with ⟨entry, hentry, heq⟩ | ⟨page, hpage, hevicted⟩
        . exact .inl ⟨entry, (hall entry).mpr (.inr hentry), heq⟩
        . exact .inr ⟨page, mem_cons_of_mem _ hpage, hevicted⟩
      . exact .inl ⟨entry, (hall entry).mpr (.inl hentry), heq⟩
      . exact .inr ⟨page, mem_cons_self, hevicted⟩
  ends hmoreAll := by
    have hrest := h.ends fun other hother => hmoreAll other (mem_cons_of_mem _ hother)
    have hpos := length_pos_of_ne_nil hne
    rw [length_cons, length_cons, hlength]
    omega

end Reads

section

variable {snapshots : List SessionSnapshot} {s : SessionSnapshot}

theorem readAfter_reads (hwindowed : ∀ s ∈ snapshots, s.Windowed ∧ s.nextSequence < U64_MAX)
    (hgrows : snapshots.Pairwise SessionSnapshot.Advances) (limit : Nat) {after : Option SnapshotCursor}
    (hafter : ∀ cursor, after = some cursor → ∀ s ∈ snapshots, s.Accepts cursor)
    : ∃ pages, readAfter limit after snapshots = .ok pages
        ∧ Reads snapshots pages (entriesOf pages) (·.hasMoreAfter) (SessionSnapshot.startAfter after ≤ ·) := by
  induction snapshots generalizing after with
  | nil => exact ⟨[], rfl, .nil _ _⟩
  | cons s later ih =>
    rw [pairwise_cons] at hgrows
    rcases hwindowed s mem_cons_self with ⟨hs, hlt⟩
    rcases SessionSnapshot.pageAfter_covers hs hlt (fun cursor hcursor => hafter cursor hcursor s mem_cons_self) limit
      with ⟨page, stop, hok, hcovers⟩
    have hextent := hcovers.extent
    have hunavailable := hcovers.unavailable
    have hread : ∀ sequence, SessionSnapshot.startAfter after ≤ sequence → sequence < stop →
        (∃ entry ∈ page.entries, entry.sequence = sequence) ∨ sequence < page.unavailableCount := by
      intro sequence hle hlt
      by_cases hevicted : sequence < page.unavailableCount
      . exact .inr hevicted
      . exact .inl (hcovers.numbers.mem (by omega) (by omega))
    have hfrom : ∀ entry ∈ page.entries, SessionSnapshot.startAfter after ≤ entry.sequence ∧ entry.sequence < stop := by
      intro entry hentry
      have hbounds := hcovers.numbers.bounds hentry
      omega
    cases hmore : page.hasMoreAfter with
    | false =>
      have hended := hcovers.ended hmore
      refine ⟨[page], ?_, ?_⟩
      . unfold readAfter
        rw [hok]
        dsimp only
        rw [hmore, if_neg Bool.false_ne_true]
      . have hentriesOf : entriesOf [page] = page.entries := by
          simp [entriesOf]
        rw [hentriesOf]
        refine .last hcovers.entries hunavailable hcovers.numbers.sorted (fun entry hentry => (hfrom entry hentry).1)
          hmore ?_
        intro sequence hle hlt
        exact hread sequence hle (by omega)
    | true =>
      rcases hcovers.more hmore with ⟨hne, cursor, hcursor, hstop, haccepts⟩
      have hlater : ∀ other, some cursor = some other → ∀ t ∈ later, t.Accepts other := by
        rintro other hother t ht
        injection hother with hother
        subst hother
        have hadvances := hgrows.1 t ht
        exact ⟨haccepts.1.trans hadvances.threadId.symm, Nat.le_trans haccepts.2 hadvances.nextSequence⟩
      rcases ih (fun t ht => hwindowed t (mem_cons_of_mem s ht)) hgrows.2 hlater with ⟨pages, hpages, hreads⟩
      rw [hstop] at hreads
      refine ⟨page :: pages, ?_, ?_⟩
      . unfold readAfter
        rw [hok]
        dsimp only
        rw [hmore, if_pos rfl, hcursor, hpages]
        rfl
      . have hentriesOf : entriesOf (page :: pages) = page.entries ++ entriesOf pages := flatMap_cons
        rw [hentriesOf]
        refine hreads.cons hcovers.entries hunavailable hmore hne (fun entry => mem_append) length_append ?_ ?_ ?_
        . refine pairwise_append.mpr ⟨hcovers.numbers.sorted, hreads.sorted, ?_⟩
          intro entry hentry other hother
          exact Nat.lt_of_lt_of_le (hfrom entry hentry).2 (hreads.inRange other hother)
        . intro entry hentry
          rcases mem_append.mp hentry with hentry | hentry
          . exact (hfrom entry hentry).1
          . exact Nat.le_trans (by omega) (hreads.inRange entry hentry)
        . intro sequence hle
          by_cases hlt : sequence < stop
          . exact .inr (hread sequence hle hlt)
          . exact .inl (Nat.le_of_not_lt hlt)

theorem readBefore_reads (hwindowed : ∀ s ∈ snapshots, s.Windowed)
    (hgrows : snapshots.Pairwise SessionSnapshot.Advances) (limit : Nat) {before : SnapshotCursor}
    (hbefore : ∀ s ∈ snapshots, s.Accepts before) {given : Nat} (hgiven : ∀ s ∈ snapshots, given ≤ s.nextSequence)
    (hfirst : ∀ s, snapshots.head? = some s → s.nextSequence = given ∨ before.sequence ≤ given)
    : ∃ pages, readBefore limit before snapshots = .ok pages
        ∧ Reads snapshots pages (entriesOf pages.reverse) (·.hasMoreBefore)
          fun sequence => sequence < before.sequence ∧ sequence < given := by
  induction snapshots generalizing before given with
  | nil => exact ⟨[], rfl, .nil _ _⟩
  | cons s later ih =>
    rw [pairwise_cons] at hgrows
    have hs := hwindowed s mem_cons_self
    have hgivenHere := hgiven s mem_cons_self
    have hfirstHere := hfirst s rfl
    rcases SessionSnapshot.pageBefore_covers hs (hbefore s mem_cons_self) limit with ⟨page, start, hok, hcovers⟩
    have hextent := hcovers.extent
    have hstart := hcovers.start_le
    have hunavailable := hcovers.unavailable
    unfold SessionSnapshot.endBefore at hextent
    have hread : ∀ sequence, sequence < before.sequence ∧ sequence < given → start ≤ sequence →
        ∃ entry ∈ page.entries, entry.sequence = sequence := by
      rintro sequence ⟨hltBefore, hltGiven⟩ hle
      exact hcovers.numbers.mem hle (by omega)
    have hbelow : ∀ entry ∈ page.entries,
        start ≤ entry.sequence ∧ entry.sequence < before.sequence ∧ entry.sequence < given := by
      intro entry hentry
      have hbounds := hcovers.numbers.bounds hentry
      omega
    cases hmore : page.hasMoreBefore with
    | false =>
      have hended := hcovers.ended hmore
      refine ⟨[page], ?_, ?_⟩
      . unfold readBefore
        rw [hok]
        dsimp only
        rw [hmore]
      . have hentriesOf : entriesOf [page].reverse = page.entries := by
          simp [entriesOf]
        rw [hentriesOf]
        refine .last hcovers.entries hunavailable hcovers.numbers.sorted (fun entry hentry => (hbelow entry hentry).2)
          hmore ?_
        intro sequence hin _
        by_cases hle : start ≤ sequence
        . exact .inl (hread sequence hin hle)
        . exact .inr (by omega)
    | true =>
      rcases hcovers.more hmore with ⟨hne, cursor, hcursor, hsequence, haccepts⟩
      have hpos := length_pos_of_ne_nil hne
      have hlater : ∀ t ∈ later, t.Accepts cursor := by
        intro t ht
        have hadvances := hgrows.1 t ht
        exact ⟨haccepts.1.trans hadvances.threadId.symm, Nat.le_trans haccepts.2 hadvances.nextSequence⟩
      rcases ih (fun t ht => hwindowed t (mem_cons_of_mem s ht)) hgrows.2 hlater
        (fun t ht => hgiven t (mem_cons_of_mem s ht)) (fun _ _ => .inr (by omega)) with ⟨pages, hpages, hreads⟩
      refine ⟨page :: pages, ?_, ?_⟩
      . unfold readBefore
        rw [hok]
        dsimp only
        rw [hmore, hcursor]
        dsimp only
        rw [hpages]
        rfl
      . have hentriesOf : entriesOf (page :: pages).reverse = entriesOf pages.reverse ++ page.entries := by
          simp [entriesOf]
        rw [hentriesOf]
        refine hreads.cons hcovers.entries hunavailable hmore hne
          (fun entry => mem_append.trans or_comm) (length_append.trans (Nat.add_comm _ _)) ?_ ?_ ?_
        . refine pairwise_append.mpr ⟨hreads.sorted, hcovers.numbers.sorted, ?_⟩
          intro entry hentry other hother
          have hlt := (hreads.inRange entry hentry).1
          have hle := (hbelow other hother).1
          omega
        . intro entry hentry
          rcases mem_append.mp hentry with hentry | hentry
          . have hlt := hreads.inRange entry hentry
            omega
          . exact (hbelow entry hentry).2
        . intro sequence hin
          by_cases hle : start ≤ sequence
          . exact .inr (.inl (hread sequence hin hle))
          . exact .inl ⟨by omega, hin.2⟩

end

/-! Reading the whole history -/

/--
Every entry is read once, in the order of the sequences, as long as it is retained until its page is read; what
was lost shows in the unavailable count of a page, and the reading ends.
-/
structure ReadsOnce (snapshots : List SessionSnapshot) (pages : List SnapshotPage)
    (ordered : List SnapshotHistoryEntry) (more : SnapshotPage → Bool) (InRange : Nat → Prop) (bound : Nat) : Prop where
  retained : ∀ (i : Nat) (page : SnapshotPage) (s : SessionSnapshot), pages[i]? = some page →
    snapshots[i]? = some s → page.entries.Sublist s.history ∧ page.unavailableCount = s.unavailableCount
  sorted : ordered.Pairwise (·.sequence < ·.sequence)
  whole : ∀ (i : Nat) (page : SnapshotPage) (s : SessionSnapshot), pages[i]? = some page →
    snapshots[i]? = some s → more page = false →
      ∀ entry ∈ s.history, InRange entry.sequence → ∃ read ∈ ordered, read.sequence = entry.sequence
  lost : ∀ (i : Nat) (page : SnapshotPage) (s : SessionSnapshot), pages[i]? = some page →
    snapshots[i]? = some s → more page = false → ∀ sequence, InRange sequence → sequence < s.nextSequence →
      (∃ read ∈ ordered, read.sequence = sequence) ∨ ∃ page ∈ pages, sequence < page.unavailableCount
  ends : bound < snapshots.length → ∃ page ∈ pages, more page = false

theorem length_le_of_sorted {entries : List SnapshotHistoryEntry} {bound : Nat}
    (hsorted : entries.Pairwise (·.sequence < ·.sequence)) (hlt : ∀ entry ∈ entries, entry.sequence < bound)
    : entries.length ≤ bound := by
  have hnodup : (entries.map (·.sequence)).Nodup := by
    rw [Nodup, pairwise_map]
    exact hsorted.imp Nat.ne_of_lt
  have hsub : entries.map (·.sequence) ⊆ range bound := by
    intro sequence hsequence
    rcases mem_map.mp hsequence with ⟨entry, hentry, rfl⟩
    exact mem_range.mpr (hlt entry hentry)
  have hle := (hnodup.subperm hsub).length_le
  rwa [length_map, length_range] at hle

theorem Reads.of_mem {snapshots : List SessionSnapshot} {pages : List SnapshotPage}
    {ordered : List SnapshotHistoryEntry} {more : SnapshotPage → Bool} {InRange : Nat → Prop} {page : SnapshotPage}
    (h : Reads snapshots pages ordered more InRange) (hpage : page ∈ pages)
    : ∃ s ∈ snapshots, page.entries.Sublist s.history ∧ page.unavailableCount = s.unavailableCount := by
  rcases mem_iff_getElem?.mp hpage with ⟨i, hi⟩
  have hlt : i < snapshots.length := Nat.lt_of_lt_of_le (List.getElem?_eq_some_iff.mp hi).1 h.length_le
  have hs := getElem?_eq_getElem hlt
  exact ⟨_, mem_of_getElem? hs, h.retained i page _ hi hs⟩

theorem Reads.once {snapshots : List SessionSnapshot} {pages : List SnapshotPage}
    {ordered : List SnapshotHistoryEntry} {more : SnapshotPage → Bool} {InRange : Nat → Prop} {bound : Nat}
    (h : Reads snapshots pages ordered more InRange) (hwindowed : ∀ s ∈ snapshots, s.Windowed)
    (hgrows : snapshots.Pairwise SessionSnapshot.Advances) (hbound : ∀ entry ∈ ordered, entry.sequence < bound)
    : ReadsOnce snapshots pages ordered more InRange bound where
  retained := h.retained
  sorted := h.sorted
  whole i page s hpage hs hended entry hentry hin := by
    have hwindow := hwindowed s (mem_of_getElem? hs)
    have hbounds := hwindow.sequences.bounds hentry
    rw [hwindow.next] at hbounds
    rcases h.whole i page s hpage hs hended entry.sequence hin hbounds.2 with hread | ⟨other, hother, hevicted⟩
    . exact hread
    -- what an earlier page had lost is not retained later
    . rcases mem_iff_getElem?.mp hother with ⟨j, hj⟩
      have hlt := (List.getElem?_eq_some_iff.mp hj).1
      rw [h.stops i page hpage hended] at hlt
      have hsnapshot : j < snapshots.length := by
        have := (List.getElem?_eq_some_iff.mp hs).1
        omega
      have ht := getElem?_eq_getElem hsnapshot
      have hkept := (h.retained j other _ hj ht).2
      have hle : snapshots[j].unavailableCount ≤ s.unavailableCount := by
        by_cases heq : j = i
        . subst heq
          rw [ht] at hs
          injection hs with hs
          rw [hs]
        . have hi := List.getElem?_eq_some_iff.mp hs
          rw [← hi.2]
          exact (pairwise_iff_getElem.mp hgrows j i hsnapshot hi.1 (by omega)).unavailableCount
      omega
  lost := h.whole
  ends hlt := by
    by_contra hnone
    push Not at hnone
    have hall : ∀ page ∈ pages, more page = true := fun page hpage => by
      rw [← Bool.not_eq_false]
      exact hnone page hpage
    have hends := h.ends hall
    have hle := length_le_of_sorted h.sorted hbound
    omega

theorem Reachable.windowed {s : SessionSnapshot} (h : Reachable s) (hlt : s.nextSequence < U64_MAX) : s.Windowed where
  sequences := h.bounded.sequences hlt
  next := h.bounded.next hlt

theorem Grows.advancesTo {s t : SessionSnapshot} (h : Grows s t) (hs : s.Windowed) (hlt : s.nextSequence < U64_MAX)
    : s.Advances t := by
  have hnext := hs.next
  exact (h.advances (by omega) (by omega)).toAdvances

/--
Reading forwards from the beginning and backwards from a cursor read each retained entry once.
-/
theorem readsOnce {snapshots : List SessionSnapshot} (hreachable : ∀ s ∈ snapshots, Reachable s)
    (hlt : ∀ s ∈ snapshots, s.nextSequence < U64_MAX) (hgrows : snapshots.Pairwise Grows) (limit : Nat)
    : (∀ bound, (∀ s ∈ snapshots, s.nextSequence ≤ bound) →
        ∃ pages, readAfter limit none snapshots = .ok pages
          ∧ ReadsOnce snapshots pages (entriesOf pages) (·.hasMoreAfter) (fun _ => True) bound)
      ∧ ∀ before, (∀ s, snapshots.head? = some s → s.Accepts before) →
        ∃ pages, readBefore limit before snapshots = .ok pages
          ∧ ReadsOnce snapshots pages (entriesOf pages.reverse) (·.hasMoreBefore)
            (fun sequence => sequence < before.sequence
              ∧ ∀ s, snapshots.head? = some s → sequence < s.nextSequence) before.sequence := by
  have hwindowed : ∀ s ∈ snapshots, s.Windowed := fun s hs => (hreachable s hs).windowed (hlt s hs)
  have hadvances : snapshots.Pairwise SessionSnapshot.Advances := by
    refine hgrows.imp_of_mem ?_
    intro s t hs _ h
    exact h.advancesTo (hwindowed s hs) (hlt s hs)
  constructor
  . intro bound hbound
    have hnone : ∀ cursor, none = some cursor → ∀ s ∈ snapshots, s.Accepts cursor := by
      intro cursor hcursor
      contradiction
    rcases readAfter_reads (fun s hs => ⟨hwindowed s hs, hlt s hs⟩) hadvances limit hnone with ⟨pages, hpages, hreads⟩
    have hall : (SessionSnapshot.startAfter none ≤ ·) = fun _ => True := by
      funext sequence
      exact eq_true (Nat.zero_le sequence)
    rw [hall] at hreads
    refine ⟨pages, hpages, hreads.once hwindowed hadvances ?_⟩
    intro entry hentry
    rcases mem_entriesOf.mp hentry with ⟨page, hpage, hmem⟩
    rcases hreads.of_mem hpage with ⟨s, hs, hsub, -⟩
    have hbounds := (hwindowed s hs).sequences.bounds (hsub.subset hmem)
    have hnext := (hwindowed s hs).next
    have hle := hbound s hs
    omega
  . intro before hbefore
    cases snapshots with
    | nil =>
      refine ⟨[], rfl, ?_⟩
      constructor <;> simp [entriesOf]
    | cons first later =>
      have hadvancesFirst : ∀ s ∈ first :: later, first.Advances s := by
        intro s hs
        rcases mem_cons.mp hs with rfl | hs
        . exact .refl s
        . exact (pairwise_cons.mp hadvances).1 s hs
      have haccepts : ∀ s ∈ first :: later, s.Accepts before := by
        intro s hs
        have hfirst := hbefore first rfl
        have hadvancesHere := hadvancesFirst s hs
        exact ⟨hfirst.1.trans hadvancesHere.threadId.symm, Nat.le_trans hfirst.2 hadvancesHere.nextSequence⟩
      have hhead : ∀ s, (first :: later).head? = some s →
          s.nextSequence = first.nextSequence ∨ before.sequence ≤ first.nextSequence := by
        intro s hs
        injection hs with hs
        exact .inl (by rw [hs])
      rcases readBefore_reads hwindowed hadvances limit haccepts (fun s hs => (hadvancesFirst s hs).nextSequence) hhead
        with ⟨pages, hpages, hreads⟩
      have hrange : (fun sequence => sequence < before.sequence ∧ sequence < first.nextSequence)
          = fun sequence => sequence < before.sequence
            ∧ ∀ s, (first :: later).head? = some s → sequence < s.nextSequence := by
        funext sequence
        simp
      rw [hrange] at hreads
      refine ⟨pages, hpages, hreads.once hwindowed hadvances ?_⟩
      intro entry hentry
      exact (hreads.inRange entry hentry).1

/--
A message and another one that comes while the page with the first is read. The two are on a page each.
-/
def Operation.another : Operation :=
  .apply (.messageChunk "agent" "thread" none none none .agent "n" "again" none)

theorem exists_twoMessages
    : ∃ s t, (SessionSnapshot.new "agent" "thread").perform .hello = .ok s ∧ s.perform .another = .ok t
        ∧ s.history.length = 1 ∧ s.nextSequence = 1 ∧ t.history.map (·.sequence) = [0, 1] ∧ t.nextSequence = 2
        ∧ ∃ page, t.page none none 1 = .ok page ∧ page.hasMoreBefore = false
          ∧ page.entries.map (·.sequence) = [0] := by
  have hrun : (((SessionSnapshot.new "agent" "thread").perform .hello).toOption.bind fun s =>
      (s.perform .another).toOption.bind fun t => (t.page none none 1).toOption.map fun page =>
        (s.history.length, s.nextSequence, t.history.map (·.sequence), t.nextSequence, page.hasMoreBefore,
          page.entries.map (·.sequence))) = some (1, 1, [0, 1], 2, false, [0]) := by
    decide +kernel
  rcases Option.bind_eq_some_iff.mp hrun with ⟨s, hs, hrun⟩
  rcases Option.bind_eq_some_iff.mp hrun with ⟨t, ht, hrun⟩
  rcases Option.map_eq_some_iff.mp hrun with ⟨page, hpage, hrun⟩
  rw [Except.toOption_eq_some] at hs ht hpage
  simp only [Prod.mk.injEq] at hrun
  rcases hrun with ⟨hfirst, hone, hhistory, hnext, hmore, hentries⟩
  exact ⟨s, t, hs, ht, hfirst, hone, hhistory, hnext, page, hpage, hmore, hentries⟩

theorem readsOnce_hello
    : ∃ s t, Grows (.new "agent" "thread") s ∧ Grows s t ∧ s.history.length = 1 ∧ t.history.length = 2
        ∧ ∃ pages, readAfter 1 none [s, t] = .ok pages
          ∧ ReadsOnce [s, t] pages (entriesOf pages) (·.hasMoreAfter) (fun _ => True) 2 := by
  rcases exists_twoMessages with ⟨s, t, hs, ht, hfirst, hone, hhistory, hnext, -⟩
  have hgrows : Grows s t := .perform .refl .another ht
  have hreachable : Reachable s := .perform .hello (.new "agent" "thread") hs
  have hsecond : t.history.length = 2 := by
    rw [← length_map, hhistory]
    rfl
  refine ⟨s, t, .perform .refl .hello hs, hgrows, hfirst, hsecond, ?_⟩
  apply (readsOnce ?_ ?_ ?_ 1).1 2
  . simp [hone, hnext]
  . simp [hreachable, hgrows.reachable hreachable]
  . have hlt : 2 < U64_MAX := by
      decide
    simp [hone, hnext, hlt, Nat.lt_trans Nat.one_lt_two hlt]
  . simp [hgrows]

/--
The first page without a cursor is the oldest one, so there is nothing before it.
-/
theorem not_readBack_withoutCursor
    : ∃ s page, Reachable s ∧ s.page none none 1 = .ok page ∧ page.hasMoreBefore = false
        ∧ ∃ entry ∈ s.history, ∀ read ∈ page.entries, read.sequence ≠ entry.sequence := by
  rcases exists_twoMessages with ⟨s, t, hs, ht, -, -, hhistory, -, page, hpage, hmore, hentries⟩
  have hreachable : Reachable t := .perform .another (.perform .hello (.new "agent" "thread") hs) ht
  have hmem : 1 ∈ t.history.map (·.sequence) := by
    rw [hhistory]
    decide
  rcases mem_map.mp hmem with ⟨entry, hentry, hsequence⟩
  refine ⟨t, page, hreachable, hpage, hmore, entry, hentry, ?_⟩
  intro read hread
  have hzero : read.sequence ∈ page.entries.map (·.sequence) := mem_map_of_mem hread
  rw [hentries, mem_singleton] at hzero
  rw [hzero, hsequence]
  decide

end Snapshot
