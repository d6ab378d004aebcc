import TetherBridge.Mobile.Paging
import TetherBridge.Snapshot.Recorded
import TetherBridge.Snapshot.Shadowed

/-!
This module contains what a client has of a transcript that does not change meanwhile, once it has loaded all
earlier entries it is offered.
-/

namespace Snapshot

open Acp List Mobile Std

namespace SessionSnapshot

/-! The entries a client asks for -/

variable (s : SessionSnapshot)

/--
What a client shows when it has read the thread.
-/
def window : RawAcpSnapshot :=
  toRawAcpSnapshot s.bridge

def readSnapshotPage (cursor : SnapshotCursor) (limit : Nat) : Except String SnapshotPageResponse :=
  match s.page (some cursor) none limit with
  | .ok page => .ok (readSnapshotPageResponse page)
  | .error _ => .error "invalid opaque ACP pagination cursor"

/--
Load earlier entries once.
-/
def load (chat : RawAcpSnapshot) : RawAcpSnapshot :=
  (loadEarlier s.readSnapshotPage chat).chat chat

/--
Where the live window starts: at the oldest entry of the first kind that has entries both in the window and
left out of it.
-/
def firstCursor : Option SnapshotCursor :=
  (([.message, .reasoning, .tool].map s.collectionMetadata).find? fun collection =>
    collection.omittedCount > 0 && collection.beforeCursor.isSome).bind (·.beforeCursor)

/--
The history before the first cursor, from its newest entry on.
-/
def earlier : List SnapshotHistoryEntry :=
  match s.firstCursor with
  | some cursor => s.history.reverse.filter (·.sequence < cursor.sequence)
  | none => []

/--
The live window shows the entry.
-/
def Showing (entry : SnapshotHistoryEntry) : Prop :=
  ∃ shown ∈ s.timeline, shown.sequence = entry.sequence

instance (entry : SnapshotHistoryEntry) : Decidable (s.Showing entry) :=
  inferInstanceAs (Decidable (∃ shown ∈ s.timeline, _))

/--
The entries of a kind that a client reads and did not have.
-/
def added (entries : List SnapshotHistoryEntry) (kind : SnapshotTimelineKind) : Nat :=
  entries.countP fun entry => Js.trim entry.canonicalId ≠ "" ∧ entry.kind = kind ∧ ¬s.Showing entry

/--
The entries that were left out of the live window are not all on the pages so far.
-/
def LeavesOut (entries : List SnapshotHistoryEntry) : Prop :=
  ∃ kind, s.added entries kind < (s.collectionMetadata kind).omittedCount

/--
The entry is on the first page, or on a later page that is asked for.
-/
def AsksFor (entry : SnapshotHistoryEntry) : Prop :=
  ∃ i, s.earlier[i]? = some entry
    ∧ (i < MAX_SNAPSHOT_PAGE_SIZE
      ∨ s.LeavesOut (s.earlier.take (i / MAX_SNAPSHOT_PAGE_SIZE * MAX_SNAPSHOT_PAGE_SIZE)))

/-! Sequences -/

theorem filter_lt_of_decreasing {f : α → Nat} {xs : List α} (h : xs.Pairwise fun a b => f b < f a)
    {i : Nat} {x : α} (hx : xs[i]? = some x)
    : xs.filter (fun y => f y < f x) = xs.drop (i + 1) := by
  induction xs generalizing i with
  | nil => contradiction
  | cons y xs ih =>
    rw [pairwise_cons] at h
    cases i with
    | zero =>
      rw [getElem?_cons_zero] at hx
      injection hx with hx
      subst hx
      rw [filter_cons_of_neg (by simp), drop_succ_cons, drop_zero, filter_eq_self]
      intro z hz
      exact decide_eq_true (h.1 z hz)
    | succ i =>
      rw [getElem?_cons_succ] at hx
      have hlt := h.1 x (mem_of_getElem? hx)
      rw [filter_cons_of_neg (by rw [decide_eq_true_eq]; omega), drop_succ_cons]
      exact ih h.2 hx

/--
The history is in the order of its sequences.
-/
def Ordered : Prop :=
  s.history.Pairwise (·.sequence < ·.sequence)

variable {s}

theorem Ordered.earlier (h : s.Ordered) : s.earlier.Pairwise fun a b => b.sequence < a.sequence := by
  unfold SessionSnapshot.earlier
  split
  . apply Pairwise.filter
    rw [pairwise_reverse]
    exact h
  . exact Pairwise.nil

/--
The entries before an entry that was on a page.
-/
theorem Ordered.before (h : s.Ordered) {i : Nat} {entry : SnapshotHistoryEntry}
    (hentry : s.earlier[i]? = some entry)
    : s.history.reverse.filter (·.sequence < entry.sequence) = s.earlier.drop (i + 1) := by
  rw [← filter_lt_of_decreasing h.earlier hentry]
  have hmem := mem_of_getElem? hentry
  unfold SessionSnapshot.earlier at hmem ⊢
  cases hcursor : s.firstCursor with
  | some cursor =>
    rw [hcursor] at hmem
    dsimp only at hmem ⊢
    rw [filter_filter]
    apply filter_congr
    intro other hother
    rw [mem_filter, decide_eq_true_eq] at hmem
    have hlt := hmem.2
    by_cases hbefore : other.sequence < entry.sequence
    . have : other.sequence < cursor.sequence := by omega
      simp [hbefore, this]
    . simp [hbefore]
  | none =>
    rw [hcursor] at hmem
    contradiction

/--
A page has more before it when it does not end with the oldest entry.
-/
theorem Ordered.hasMoreBefore (h : s.Ordered) {i : Nat} {entry : SnapshotHistoryEntry}
    (hentry : s.earlier[i]? = some entry)
    : (entry.sequence > (s.history.head?.map (·.sequence)).getD 0) ↔ i + 1 < s.earlier.length := by
  have hdrop := h.before hentry
  have hlength : s.earlier.length - (i + 1)
      = (s.history.reverse.filter (·.sequence < entry.sequence)).length := by
    rw [hdrop, length_drop]
  have hmem := mem_of_getElem? hentry
  have hhistory : entry ∈ s.history := by
    unfold SessionSnapshot.earlier at hmem
    split at hmem
    . exact mem_reverse.mp (mem_of_mem_filter hmem)
    . contradiction
  unfold Ordered at h
  cases hcases : s.history with
  | nil =>
    rw [hcases] at hhistory
    contradiction
  | cons oldest rest =>
    rw [hcases, pairwise_cons] at h
    rw [head?_cons, Option.map_some, Option.getD_some]
    have hi := (List.getElem?_eq_some_iff.mp hentry).1
    constructor
    . intro hlt
      have hpos : 0 < (s.history.reverse.filter (·.sequence < entry.sequence)).length := by
        apply length_pos_of_mem (a := oldest)
        rw [mem_filter, mem_reverse, hcases]
        exact ⟨mem_cons_self, decide_eq_true hlt⟩
      omega
    . intro hlt
      have hpos : 0 < (s.history.reverse.filter (·.sequence < entry.sequence)).length := by omega
      rcases exists_mem_of_length_pos hpos with ⟨older, holder⟩
      rw [mem_filter, mem_reverse, hcases, decide_eq_true_eq, mem_cons] at holder
      rcases holder.1 with rfl | hmem
      . exact holder.2
      . have := h.1 older hmem
        omega

/-! One page -/

/--
The chat shows the entries that were asked for so far, and knows what is left out.
-/
structure Loaded (s : SessionSnapshot) (asked : List SnapshotHistoryEntry) (chat : RawAcpSnapshot) : Prop where
  shows : ∃ entries, entries.Perm (asked.filterMap parseSnapshotPageEntry)
    ∧ Displays s.window entries chat
  continuation : ∃ continuation, chat.continuation = some continuation
    ∧ continuation.revision = s.nextSequence ∧ continuation.maxPageSize = MAX_SNAPSHOT_PAGE_SIZE
  omitted : ∀ kind, ∃ metadata, chat.collection kind = some metadata
    ∧ metadata.omittedCount = (s.collectionMetadata kind).omittedCount - s.added asked kind

/--
The cursor a page leaves behind for all kinds.
-/
def nextCursor (s : SessionSnapshot) (asked : Nat) : Option SnapshotCursor :=
  if asked < s.earlier.length then
    (s.earlier[asked - 1]?).map fun entry => s.cursor entry.sequence
  else
    none

/--
The timeline and the history are in the order of their sequences, and what both have is the same there.
-/
structure Sequenced (s : SessionSnapshot) : Prop where
  history : s.Ordered
  timeline : s.timeline.Pairwise (·.sequence < ·.sequence)
  same : ∀ shown ∈ s.timeline, ∀ entry ∈ s.history, entry.sequence = shown.sequence →
    entry.kind = shown.kind ∧ entry.canonicalId = shown.canonicalId

theorem mem_history_of_earlier {entry : SnapshotHistoryEntry} (h : entry ∈ s.earlier) : entry ∈ s.history := by
  unfold SessionSnapshot.earlier at h
  split at h
  . exact mem_reverse.mp (mem_of_mem_filter h)
  . contradiction

theorem Sequenced.window_find? (h : s.Sequenced) {entry : SnapshotHistoryEntry} (hentry : entry ∈ s.history)
    (hid : entry.canonicalId ≠ "")
    : (s.window.timeline.find? fun shown => shown.sequence = entry.sequence) = none ↔ ¬s.Showing entry := by
  rw [find?_eq_none]
  constructor
  . rintro hnone ⟨shown, hshown, heq⟩
    apply hnone shown
    . change shown ∈ s.timeline.filter (·.canonicalId ≠ "")
      rw [mem_filter, ← (h.same shown hshown entry hentry heq.symm).2]
      exact ⟨hshown, decide_eq_true hid⟩
    . exact decide_eq_true heq
  . intro hnot shown hshown heq
    exact hnot ⟨shown, mem_of_mem_filter hshown, of_decide_eq_true heq⟩

/--
The page before an entry.
-/
theorem page_before (s : SessionSnapshot) (sequence : Nat)
    : ∃ page, s.page (some (s.cursor sequence)) none MAX_SNAPSHOT_PAGE_SIZE = .ok page
        ∧ page.entries
          = ((s.history.reverse.filter (·.sequence < sequence)).take MAX_SNAPSHOT_PAGE_SIZE).reverse
        ∧ page.beforeCursor = (page.entries.head?.map (·.sequence)).map s.cursor
        ∧ page.hasMoreBefore = decide ((page.entries.head?.map (·.sequence)).getD 0
          > (s.history.head?.map (·.sequence)).getD 0)
        ∧ page.revision = s.nextSequence := by
  unfold page
  rw [if_neg (by simp)]
  have hdecode : s.decode? (some (s.cursor sequence)) = .ok (some (s.cursor sequence)) := by
    unfold decode? decode cursor
    simp [Except.map]
  rw [hdecode]
  exact ⟨_, rfl, rfl, rfl, rfl, rfl⟩

theorem parseSnapshotPageEntry_eq_some {entry : SnapshotHistoryEntry} {read : SnapshotPageEntry}
    (h : parseSnapshotPageEntry entry = some read)
    : Js.trim entry.canonicalId ≠ "" ∧ read.sequence = entry.sequence ∧ read.kind = entry.kind := by
  unfold parseSnapshotPageEntry at h
  dsimp only at h
  split at h
  . contradiction
  . next hid =>
    injection h with h
    subst h
    exact ⟨hid, rfl, rfl⟩

/--
What is read of distinct entries is distinct.
-/
theorem nodup_parsed {entries : List SnapshotHistoryEntry} (h : (entries.map (·.sequence)).Nodup)
    : ((entries.filterMap parseSnapshotPageEntry).map (·.sequence)).Nodup := by
  induction entries with
  | nil => exact nodup_nil
  | cons entry entries ih =>
    rw [map_cons, nodup_cons] at h
    cases hread : parseSnapshotPageEntry entry with
    | none =>
      rw [filterMap_cons_none hread]
      exact ih h.2
    | some read =>
      rw [filterMap_cons_some hread, map_cons, nodup_cons]
      refine ⟨?_, ih h.2⟩
      intro hmem
      rw [mem_map] at hmem
      rcases hmem with ⟨other, hother, heq⟩
      rw [mem_filterMap] at hother
      rcases hother with ⟨source, hsource, hparse⟩
      apply h.1
      rw [← (parseSnapshotPageEntry_eq_some hread).2.1, ← heq, (parseSnapshotPageEntry_eq_some hparse).2.1]
      exact mem_map_of_mem hsource

theorem Ordered.nodup_earlier (h : s.Ordered) : (s.earlier.map (·.sequence)).Nodup :=
  pairwise_map.mpr (h.earlier.imp fun hlt => (Nat.ne_of_lt hlt).symm)

/--
What the entries of a kind add to a chat that does not show them.
-/
theorem countP_parsed (h : s.Sequenced) {entries : List SnapshotHistoryEntry} (hsub : entries ⊆ s.history)
    {timeline : List (Nat × SnapshotTimelineEntry)}
    (htimeline : ∀ entry ∈ entries, timeline.lookup entry.sequence
      = s.window.timeline.find? fun shown => shown.sequence = entry.sequence)
    (kind : SnapshotTimelineKind)
    : ((entries.filterMap parseSnapshotPageEntry).countP fun read =>
        read.kind = kind ∧ timeline.lookup read.sequence = none) = s.added entries kind := by
  unfold added
  induction entries with
  | nil => rfl
  | cons entry entries ih =>
    have hentry := hsub mem_cons_self
    have ih := ih (fun other hother => hsub (mem_cons_of_mem _ hother))
      fun other hother => htimeline other (mem_cons_of_mem _ hother)
    rw [countP_cons, ← ih]
    cases hread : parseSnapshotPageEntry entry with
    | none =>
      have hid : Js.trim entry.canonicalId = "" := by
        unfold parseSnapshotPageEntry at hread
        dsimp only at hread
        split at hread
        . assumption
        . contradiction
      rw [filterMap_cons_none hread, if_neg (by simp [hid]), Nat.add_zero]
    | some read =>
      rcases parseSnapshotPageEntry_eq_some hread with ⟨hid, hsequence, hkind⟩
      have hne : entry.canonicalId ≠ "" := by
        rintro heq
        rw [heq] at hid
        exact hid rfl
      have hnew : timeline.lookup read.sequence = none ↔ ¬s.Showing entry := by
        rw [hsequence, htimeline entry mem_cons_self]
        exact h.window_find? hentry hne
      have hiff : read.kind = kind ∧ timeline.lookup read.sequence = none
          ↔ Js.trim entry.canonicalId ≠ "" ∧ entry.kind = kind ∧ ¬s.Showing entry := by
        rw [hkind, hnew]
        exact ⟨fun hnew => ⟨hid, hnew⟩, fun hnew => hnew.2⟩
      rw [filterMap_cons_some hread, countP_cons, decide_eq_decide.mpr hiff]

theorem written_eq_none [DecidableEq κ] {key : β → κ} {value : α → Option β} {entries : List α} {k : κ}
    (h : ∀ entry ∈ entries, ∀ b, value entry = some b → key b ≠ k)
    : written key value entries k = none := by
  unfold written
  rw [find?_eq_none]
  intro b hb heq
  rw [mem_reverse, mem_filterMap] at hb
  rcases hb with ⟨entry, hentry, hvalue⟩
  exact h entry hentry b hvalue (of_decide_eq_true heq)

theorem take_add_page (xs : List α) (n size : Nat)
    : xs.take (n + size) = xs.take n ++ (xs.drop n).take size :=
  take_add

theorem added_append (s : SessionSnapshot) (entries later : List SnapshotHistoryEntry)
    (kind : SnapshotTimelineKind)
    : s.added (entries ++ later) kind = s.added entries kind + s.added later kind :=
  countP_append

/--
The oldest entry of a page is where the next page ends.
-/
theorem Ordered.nextCursor_page (h : s.Ordered) (n : Nat)
    : (if decide ((((s.earlier.drop n).take MAX_SNAPSHOT_PAGE_SIZE).getLast?.map (·.sequence)).getD 0
          > (s.history.head?.map (·.sequence)).getD 0) then
        (((s.earlier.drop n).take MAX_SNAPSHOT_PAGE_SIZE).getLast?.map (·.sequence)).map s.cursor
      else
        none) = s.nextCursor (n + MAX_SNAPSHOT_PAGE_SIZE) := by
  unfold nextCursor
  by_cases hlt : n + MAX_SNAPSHOT_PAGE_SIZE < s.earlier.length
  . have hlast : ((s.earlier.drop n).take MAX_SNAPSHOT_PAGE_SIZE).getLast?
        = s.earlier[n + MAX_SNAPSHOT_PAGE_SIZE - 1]? := by
      rw [getLast?_eq_getElem?, length_take, length_drop, getElem?_take, getElem?_drop]
      have : MAX_SNAPSHOT_PAGE_SIZE = 100 := rfl
      rw [if_pos (by omega)]
      congr 1
      omega
    rcases hentry : s.earlier[n + MAX_SNAPSHOT_PAGE_SIZE - 1]? with - | entry
    . rw [getElem?_eq_none_iff] at hentry
      omega
    . have hmore := h.hasMoreBefore hentry
      have : MAX_SNAPSHOT_PAGE_SIZE = 100 := rfl
      rw [if_pos hlt, hlast, hentry, Option.map_some, Option.getD_some,
        if_pos (decide_eq_true (hmore.mpr (by omega)))]
      rfl
  . rw [if_neg hlt]
    rcases hlast : ((s.earlier.drop n).take MAX_SNAPSHOT_PAGE_SIZE).getLast? with - | entry
    . rw [if_neg]
      simp
    . have hindex : s.earlier[s.earlier.length - 1]? = some entry := by
        rw [← hlast, take_of_length_le (by rw [length_drop]; omega), getLast?_drop]
        have hnonempty : ((s.earlier.drop n).take MAX_SNAPSHOT_PAGE_SIZE) ≠ [] := by
          intro hnil
          rw [hnil] at hlast
          contradiction
        have hdrop : n < s.earlier.length := by
          by_contra hle
          rw [drop_of_length_le (Nat.le_of_not_lt hle), take_nil] at hnonempty
          exact hnonempty rfl
        rw [if_neg (Nat.not_le_of_lt hdrop), getLast?_eq_getElem?]
      have hmore := h.hasMoreBefore hindex
      rw [if_neg]
      rw [Option.map_some, Option.getD_some, decide_eq_true_eq, hmore]
      omega

/--
A page shows the entries it is asked for.
-/
theorem Loaded.load (hs : s.Sequenced) {n : Nat} {chat : RawAcpSnapshot}
    (h : s.Loaded (s.earlier.take n) chat) {sequence : Nat}
    (hcursor : chat.readBeforeCursor = some (s.cursor sequence))
    (hrest : s.history.reverse.filter (·.sequence < sequence) = s.earlier.drop n)
    : s.Loaded (s.earlier.take (n + MAX_SNAPSHOT_PAGE_SIZE)) (s.load chat)
        ∧ ∀ kind metadata, (s.load chat).collection kind = some metadata →
          metadata.beforeCursor = s.nextCursor (n + MAX_SNAPSHOT_PAGE_SIZE) := by
  rcases h.shows with ⟨entries, hperm, hshows⟩
  rcases h.continuation with ⟨continuation, hcontinuation, hrevision, hsize⟩
  rcases s.page_before sequence with ⟨page, hpage, hentries, hbefore, hmore, hpageRevision⟩
  rw [hrest] at hentries
  have hread : s.readSnapshotPage (s.cursor sequence) MAX_SNAPSHOT_PAGE_SIZE
      = .ok (readSnapshotPageResponse page) := by
    unfold SessionSnapshot.readSnapshotPage
    rw [hpage]
  have hnodup := hs.history.nodup_earlier
  rw [← take_append_drop n s.earlier, map_append, nodup_append] at hnodup
  have hsubset : (s.earlier.drop n).take MAX_SNAPSHOT_PAGE_SIZE ⊆ s.earlier := fun entry hmem =>
    mem_of_mem_drop (mem_of_mem_take hmem)
  have hreversed : (readSnapshotPageResponse page).entries
      = (((s.earlier.drop n).take MAX_SNAPSHOT_PAGE_SIZE).reverse).filterMap parseSnapshotPageEntry := by
    rw [← hentries]
    rfl
  rcases mergeSnapshotPage_of_revision hcontinuation
    (show (readSnapshotPageResponse page).revision = _ from hpageRevision.trans hrevision.symm) with ⟨merged, hmerge, hcollections, hmergedContinuation⟩
  have hload : s.load chat = merged := by
    unfold SessionSnapshot.load loadEarlier
    rw [hcontinuation, hcursor]
    dsimp only
    rw [hsize, if_neg (by decide), hread]
    dsimp only
    rw [hmerge]
    rfl
  rw [hload]
  refine ⟨⟨?_, ?_, ?_⟩, ?_⟩
  . refine ⟨_, ?_, hshows.merge hmerge⟩
    rw [take_add_page, filterMap_append, hreversed]
    exact hperm.append ((reverse_perm _).filterMap _)
  . exact ⟨_, hmergedContinuation, hpageRevision, hsize⟩
  . intro kind
    rcases h.omitted kind with ⟨metadata, hmetadata, homitted⟩
    refine ⟨_, (hcollections kind).trans (by rw [hmetadata]; rfl), ?_⟩
    unfold updateCollection
    dsimp only
    have hdistinct : ((readSnapshotPageResponse page).entries.map (·.sequence)).Nodup := by
      rw [hreversed]
      apply nodup_parsed
      rw [map_reverse, nodup_reverse]
      exact hnodup.2.1.sublist ((take_sublist _ _).map _)
    have hadded := Merge.addedByKind_foldl _ (.start chat) hdistinct kind
    have hcount : ((((s.earlier.drop n).take MAX_SNAPSHOT_PAGE_SIZE).reverse.filterMap
          parseSnapshotPageEntry).countP fun read =>
            read.kind = kind ∧ (Merge.start chat).timeline.lookup read.sequence = none)
        = s.added ((s.earlier.drop n).take MAX_SNAPSHOT_PAGE_SIZE).reverse kind := by
      apply countP_parsed hs fun entry hentry => mem_history_of_earlier (hsubset (mem_reverse.mp hentry))
      intro entry hentry
      have hlookup := (mapBy_spec (Displays.sequences_nodup hshows.sorted)).2 entry.sequence
      refine hlookup.trans ?_
      rw [hshows.timeline, written_eq_none, Option.none_or]
      intro read hreadmem shown hshown heq
      injection hshown with hshown
      subst hshown
      rcases mem_filterMap.mp (hperm.subset hreadmem) with ⟨source, hsource, hparse⟩
      apply hnodup.2.2 _ (mem_map_of_mem hsource) _ (mem_map_of_mem (mem_of_mem_take (mem_reverse.mp hentry)))
      rw [← (parseSnapshotPageEntry_eq_some hparse).2.1]
      exact heq
    have hreverse : s.added ((s.earlier.drop n).take MAX_SNAPSHOT_PAGE_SIZE).reverse kind
        = s.added ((s.earlier.drop n).take MAX_SNAPSHOT_PAGE_SIZE) kind := countP_reverse
    rw [hadded, hreversed, hcount, take_add_page, added_append, homitted, hreverse]
    change _ - (0 + _) = _
    omega
  . intro kind metadata hmetadata
    rw [hcollections kind] at hmetadata
    rw [Option.map_eq_some_iff] at hmetadata
    rcases hmetadata with ⟨old, -, rfl⟩
    change (if page.hasMoreBefore then page.beforeCursor else none) = _
    rw [hmore, hbefore, hentries, head?_reverse]
    exact hs.history.nextCursor_page n

/-! All pages -/

/--
After a page the cursor is the same for all kinds.
-/
theorem Loaded.readBeforeCursor {asked : List SnapshotHistoryEntry} {chat : RawAcpSnapshot}
    (h : s.Loaded asked chat) {cursor : Option SnapshotCursor}
    (hcursor : ∀ kind metadata, chat.collection kind = some metadata → metadata.beforeCursor = cursor)
    : (s.LeavesOut asked → chat.readBeforeCursor = cursor)
        ∧ (¬s.LeavesOut asked → chat.readBeforeCursor = none) := by
  rcases h.omitted .message with ⟨message, hmessage, hmessages⟩
  rcases h.omitted .reasoning with ⟨reasoning, hreasoning, hreasonings⟩
  rcases h.omitted .tool with ⟨tool, htool, htools⟩
  have hmessageCursor := hcursor .message message hmessage
  have hreasoningCursor := hcursor .reasoning reasoning hreasoning
  have htoolCursor := hcursor .tool tool htool
  have hcollections : chat.collections = [message, reasoning, tool] := by
    unfold RawAcpSnapshot.collections
    change chat.messageCollection = _ at hmessage
    change chat.reasoningCollection = _ at hreasoning
    change chat.toolCollection = _ at htool
    rw [hmessage, hreasoning, htool]
    rfl
  unfold RawAcpSnapshot.readBeforeCursor
  rw [hcollections]
  constructor
  . rintro ⟨kind, hkind⟩
    cases hcases : cursor with
    | none =>
      rw [hcases] at hmessageCursor hreasoningCursor htoolCursor
      simp [find?_cons, hmessageCursor, hreasoningCursor, htoolCursor]
    | some cursor =>
      rw [hcases] at hmessageCursor hreasoningCursor htoolCursor
      have hsome : 0 < message.omittedCount ∨ 0 < reasoning.omittedCount ∨ 0 < tool.omittedCount := by
        cases kind <;> omega
      simp only [find?_cons, find?_nil, hmessageCursor, hreasoningCursor, htoolCursor, Option.isSome_some,
        Bool.and_true, gt_iff_lt]
      by_cases hm : 0 < message.omittedCount
      . simp [hm, hmessageCursor]
      . by_cases hr : 0 < reasoning.omittedCount
        . simp [hm, hr, hreasoningCursor]
        . have ht : 0 < tool.omittedCount := by omega
          simp [hm, hr, ht, htoolCursor]
  . intro hnone
    unfold LeavesOut at hnone
    push Not at hnone
    have hm := hnone .message
    have hr := hnone .reasoning
    have ht := hnone .tool
    have hm : message.omittedCount = 0 := by omega
    have hr : reasoning.omittedCount = 0 := by omega
    have ht : tool.omittedCount = 0 := by omega
    simp [find?_cons, hm, hr, ht]

/--
From a page on, pages are loaded until the history or what was left out is at its end.
-/
theorem Loaded.loads (hs : s.Sequenced) {rounds : Nat} (n : Nat) (hrounds : s.earlier.length ≤ n + rounds)
    (hn : 0 < n) {chat : RawAcpSnapshot} (h : s.Loaded (s.earlier.take n) chat)
    (hcursor : ∀ kind metadata, chat.collection kind = some metadata →
      metadata.beforeCursor = s.nextCursor n)
    : ∃ pages, (s.load^[pages] chat).exhausted
        ∧ s.Loaded (s.earlier.take (n + pages * MAX_SNAPSHOT_PAGE_SIZE)) (s.load^[pages] chat)
        ∧ (n + pages * MAX_SNAPSHOT_PAGE_SIZE < s.earlier.length →
          ¬s.LeavesOut (s.earlier.take (n + pages * MAX_SNAPSHOT_PAGE_SIZE)))
        ∧ ∀ page < pages, s.LeavesOut (s.earlier.take (n + page * MAX_SNAPSHOT_PAGE_SIZE)) := by
  induction rounds using Nat.strong_induction_on generalizing n chat with
  | h rounds ih =>
    have hread := h.readBeforeCursor hcursor
    by_cases hmore : n < s.earlier.length ∧ s.LeavesOut (s.earlier.take n)
    . rcases hentry : s.earlier[n - 1]? with - | entry
      . rw [getElem?_eq_none_iff] at hentry
        omega
      . have hnext : chat.readBeforeCursor = some (s.cursor entry.sequence) := by
          rw [hread.1 hmore.2]
          unfold nextCursor
          rw [if_pos hmore.1, hentry]
          rfl
        have hrest := hs.history.before hentry
        rw [Nat.sub_add_cancel hn] at hrest
        rcases h.load hs hnext hrest with ⟨hloaded, hcursor'⟩
        have hpage : MAX_SNAPSHOT_PAGE_SIZE = 100 := rfl
        rcases ih (rounds - MAX_SNAPSHOT_PAGE_SIZE) (by omega) (n + MAX_SNAPSHOT_PAGE_SIZE) (by omega) (by omega)
          hloaded hcursor' with ⟨pages, hexhausted, hall, hend, hbefore⟩
        have hshift : ∀ page, n + MAX_SNAPSHOT_PAGE_SIZE + page * MAX_SNAPSHOT_PAGE_SIZE
            = n + (page + 1) * MAX_SNAPSHOT_PAGE_SIZE := by
          intro page
          rw [Nat.succ_mul]
          omega
        rw [hshift] at hall hend
        refine ⟨pages + 1, hexhausted, hall, hend, ?_⟩
        intro page hlt
        cases page with
        | zero =>
          rw [Nat.zero_mul, Nat.add_zero]
          exact hmore.2
        | succ page =>
          rw [← hshift]
          exact hbefore page (by omega)
    . refine ⟨0, ?_, ?_, ?_, fun page hlt => absurd hlt (Nat.not_lt_zero page)⟩
      . change chat.readBeforeCursor.isNone
        by_cases hleaves : s.LeavesOut (s.earlier.take n)
        . rw [hread.1 hleaves]
          unfold nextCursor
          rw [if_neg fun hlt => hmore ⟨hlt, hleaves⟩]
          rfl
        . rw [hread.2 hleaves]
          rfl
      . rw [Nat.zero_mul, Nat.add_zero]
        exact h
      . rw [Nat.zero_mul, Nat.add_zero]
        exact fun hlt hleaves => hmore ⟨hlt, hleaves⟩

/-! The whole transcript -/

/--
Each id of the transcript is that of one entry.
-/
structure DistinctIds (s : SessionSnapshot) : Prop where
  history : (s.history.map (·.canonicalId)).Nodup
  timeline : ∀ shown ∈ s.timeline, ∀ entry ∈ s.history, entry.canonicalId = shown.canonicalId →
    entry.sequence = shown.sequence

/--
The history keeps what is live as the live window shows it.
-/
structure Mirrors (s : SessionSnapshot) : Prop where
  messageId : ∀ entry ∈ s.history, ∀ message, entry.message = some message →
    message.id = entry.canonicalId
  toolId : ∀ entry ∈ s.history, ∀ tool, entry.tool = some tool → tool.id = entry.canonicalId
  message : ∀ entry ∈ s.history, s.Showing entry → ∀ message, entry.message = some message →
    message ∈ s.messages
  tool : ∀ entry ∈ s.history, s.Showing entry → ∀ tool, entry.tool = some tool →
    ∃ live, s.tools[tool.id]? = some live ∧ s.windowTool tool.id live = tool
  messageIds : (s.messages.map (·.id)).Nodup
  toolIds : ∀ (id : String) (tool : SnapshotTool), s.tools[id]? = some tool → tool.id = id
  liveMessage : ∀ message ∈ s.messages, ∃ shown ∈ s.timeline, shown.canonicalId = message.id
  liveTool : ∀ (id : String) (tool : SnapshotTool), s.tools[id]? = some tool →
    ∃ shown ∈ s.timeline, shown.canonicalId = id

theorem mem_bridge_tools {tool : SnapshotTool}
    : tool ∈ s.bridge.tools ↔ ∃ id live, s.tools[id]? = some live ∧ s.windowTool id live = tool := by
  change tool ∈ (s.tools.map s.windowTool).toList.map (·.2) ↔ _
  rw [mem_map]
  constructor
  . rintro ⟨⟨id, shown⟩, hmem, rfl⟩
    rw [TreeMap.mem_toList_iff_getElem?_eq_some, TreeMap.getElem?_map, Option.map_eq_some_iff] at hmem
    rcases hmem with ⟨live, hlive, heq⟩
    exact ⟨id, live, hlive, heq⟩
  . rintro ⟨id, live, hlive, rfl⟩
    refine ⟨(id, s.windowTool id live), ?_, rfl⟩
    rw [TreeMap.mem_toList_iff_getElem?_eq_some, TreeMap.getElem?_map, hlive]
    rfl

theorem Mirrors.nodup_tools (h : s.Mirrors) : (s.bridge.tools.map (·.id)).Nodup := by
  change (((s.tools.map s.windowTool).toList.map (·.2)).map (·.id)).Nodup
  have hids : ((s.tools.map s.windowTool).toList.map (·.2)).map (·.id)
      = (s.tools.map s.windowTool).toList.map (·.1) := by
    rw [map_map]
    apply map_congr_left
    rintro ⟨id, shown⟩ hmem
    rw [TreeMap.mem_toList_iff_getElem?_eq_some, TreeMap.getElem?_map, Option.map_eq_some_iff] at hmem
    rcases hmem with ⟨live, hlive, rfl⟩
    exact (s.windowTool_id id live).trans (h.toolIds id live hlive)
  rw [hids, Nodup, pairwise_map]
  apply TreeMap.distinct_keys_toList.imp
  intro a b hne heq
  apply hne
  rw [heq]
  exact Std.compare_self

/--
The chat before the first page.
-/
theorem window_shows (hs : s.Sequenced) (hmirrors : s.Mirrors) : Displays s.window [] s.window where
  sorted := hs.timeline.filter _
  messageIds := by
    have hnodup : ((s.messages.map parseSnapshotMessage).map (·.id)).Nodup := by
      rw [map_map]
      exact hmirrors.messageIds
    exact hnodup.sublist (filter_sublist.map _)
  toolIds := by
    have hnodup : ((s.bridge.tools.map parseSnapshotTool).map (·.id)).Nodup := by
      rw [map_map]
      exact hmirrors.nodup_tools
    exact hnodup.sublist (filter_sublist.map _)
  timeline _ := rfl
  messages _ := rfl
  tools _ := rfl

theorem window_loaded (hs : s.Sequenced) (hmirrors : s.Mirrors) : s.Loaded [] s.window where
  shows := ⟨[], .refl _, window_shows hs hmirrors⟩
  continuation := ⟨_, rfl, rfl, rfl⟩
  omitted kind := by
    refine ⟨s.collectionMetadata kind, ?_, rfl⟩
    cases kind <;> rfl

theorem window_readBeforeCursor (s : SessionSnapshot) : s.window.readBeforeCursor = s.firstCursor := rfl

/--
A cursor of the live window is one of this revision.
-/
theorem firstCursor_eq {cursor : SnapshotCursor} (h : s.firstCursor = some cursor)
    : cursor = s.cursor cursor.sequence := by
  unfold firstCursor at h
  rw [Option.bind_eq_some_iff] at h
  rcases h with ⟨metadata, hfind, hbefore⟩
  have hmem := mem_of_find?_eq_some hfind
  rw [mem_map] at hmem
  rcases hmem with ⟨kind, -, rfl⟩
  unfold collectionMetadata at hbefore
  rw [Option.map_eq_some_iff] at hbefore
  rcases hbefore with ⟨sequence, -, rfl⟩
  rfl

theorem LeavesOut.of_take {m n : Nat} (hle : m ≤ n) (h : s.LeavesOut (s.earlier.take n))
    : s.LeavesOut (s.earlier.take m) := by
  rcases h with ⟨kind, hlt⟩
  refine ⟨kind, Nat.lt_of_le_of_lt ?_ hlt⟩
  exact (take_sublist_take_left hle).countP_le

/--
Loading ends, and the client has asked for all it asks for.
-/
theorem loads (hs : s.Sequenced) (hmirrors : s.Mirrors)
    : ∃ pages asked, (s.load^[pages] s.window).exhausted ∧ s.Loaded asked (s.load^[pages] s.window)
        ∧ asked ⊆ s.history ∧ ∀ entry, entry ∈ asked ↔ s.AsksFor entry := by
  have hstart := window_loaded hs hmirrors
  cases hcursor : s.firstCursor with
  | none =>
    refine ⟨0, [], ?_, hstart, nil_subset _, ?_⟩
    . change s.window.readBeforeCursor.isNone
      rw [window_readBeforeCursor, hcursor]
      rfl
    . intro entry
      have hearlier : s.earlier = [] := by
        unfold SessionSnapshot.earlier
        rw [hcursor]
      refine ⟨fun hmem => absurd hmem not_mem_nil, ?_⟩
      rintro ⟨i, hi, -⟩
      rw [hearlier] at hi
      contradiction
  | some cursor =>
    have hfirst : s.window.readBeforeCursor = some (s.cursor cursor.sequence) := by
      rw [window_readBeforeCursor, hcursor, ← firstCursor_eq hcursor]
    have hrest : s.history.reverse.filter (·.sequence < cursor.sequence) = s.earlier.drop 0 := by
      unfold SessionSnapshot.earlier
      rw [hcursor, drop_zero]
    rw [← take_zero (l := s.earlier)] at hstart
    rcases hstart.load hs hfirst hrest with ⟨hloaded, hnext⟩
    rw [Nat.zero_add] at hloaded hnext
    rcases hloaded.loads hs MAX_SNAPSHOT_PAGE_SIZE (Nat.le_add_left _ _) (by decide) hnext
      with ⟨pages, hexhausted, hall, hend, hbefore⟩
    refine ⟨pages + 1, _, hexhausted, hall, ?_, ?_⟩
    . exact fun entry hmem => mem_history_of_earlier (mem_of_mem_take hmem)
    have hpage : MAX_SNAPSHOT_PAGE_SIZE = 100 := rfl
    intro entry
    rw [mem_iff_getElem?]
    constructor
    . rintro ⟨i, hi⟩
      rw [getElem?_take] at hi
      split at hi
      . next hlt =>
        refine ⟨i, hi, ?_⟩
        by_cases hfirst : i < MAX_SNAPSHOT_PAGE_SIZE
        . exact .inl hfirst
        . have hleaves := hbefore (i / MAX_SNAPSHOT_PAGE_SIZE - 1) (by rw [hpage] at *; omega)
          have heq : MAX_SNAPSHOT_PAGE_SIZE + (i / MAX_SNAPSHOT_PAGE_SIZE - 1) * MAX_SNAPSHOT_PAGE_SIZE
              = i / MAX_SNAPSHOT_PAGE_SIZE * MAX_SNAPSHOT_PAGE_SIZE := by
            rw [hpage] at *
            omega
          rw [heq] at hleaves
          exact .inr hleaves
      . contradiction
    . rintro ⟨i, hi, hasked⟩
      refine ⟨i, ?_⟩
      rw [getElem?_take, if_pos, hi]
      have hlength := (List.getElem?_eq_some_iff.mp hi).1
      by_contra hle
      rcases hasked with hfirst | hleaves
      . omega
      . apply hend (by omega)
        apply hleaves.of_take
        rw [hpage] at *
        omega

/--
What a chat shows once it has asked for the entries.
-/
structure ShowsAsked (s : SessionSnapshot) (asked : List SnapshotHistoryEntry) (chat : RawAcpSnapshot)
    : Prop where
  sorted : chat.timeline.Pairwise (·.sequence < ·.sequence)
  messageIds : (chat.messages.map (·.id)).Nodup
  toolIds : (chat.tools.map (·.id)).Nodup
  timeline : ∀ shown, shown ∈ chat.timeline
    ↔ (∃ entry ∈ asked, Js.trim entry.canonicalId ≠ "" ∧ shown
        = { sequence := entry.sequence, kind := entry.kind, canonicalId := Js.trim entry.canonicalId })
      ∨ (shown ∈ s.window.timeline
        ∧ ∀ entry ∈ asked, Js.trim entry.canonicalId ≠ "" → entry.sequence ≠ shown.sequence)
  messages : ∀ message, message ∈ chat.messages
    ↔ (∃ entry ∈ asked, Js.trim entry.canonicalId ≠ ""
        ∧ ∃ kept, entry.message = some kept ∧ parseSnapshotPageMessage kept = message)
      ∨ (message ∈ s.window.messages
        ∧ ∀ entry ∈ asked, Js.trim entry.canonicalId ≠ "" →
          ∀ kept, entry.message = some kept → kept.id ≠ message.id)
  tools : ∀ tool, tool ∈ chat.tools
    ↔ (∃ entry ∈ asked, Js.trim entry.canonicalId ≠ ""
        ∧ ∃ kept, entry.tool = some kept ∧ parseSnapshotPageTool kept = tool)
      ∨ (tool ∈ s.window.tools
        ∧ ∀ entry ∈ asked, Js.trim entry.canonicalId ≠ "" →
          ∀ kept, entry.tool = some kept → kept.id ≠ tool.id)

/--
What the entries of the pages write, in terms of the entries of the history.
-/
theorem exists_parsed {entries : List SnapshotPageEntry} {asked : List SnapshotHistoryEntry}
    (hperm : entries.Perm (asked.filterMap parseSnapshotPageEntry)) {P : SnapshotPageEntry → Prop}
    : (∃ read ∈ entries, P read)
        ↔ ∃ entry ∈ asked, Js.trim entry.canonicalId ≠ "" ∧ P {
          sequence := entry.sequence
          kind := entry.kind
          canonicalId := Js.trim entry.canonicalId
          message := entry.message.map parseSnapshotPageMessage
          tool := entry.tool.map parseSnapshotPageTool } := by
  constructor
  . rintro ⟨read, hread, hp⟩
    rcases mem_filterMap.mp (hperm.subset hread) with ⟨entry, hentry, hparse⟩
    unfold parseSnapshotPageEntry at hparse
    dsimp only at hparse
    split at hparse
    . contradiction
    . next hid =>
      injection hparse with hparse
      subst hparse
      exact ⟨entry, hentry, hid, hp⟩
  . rintro ⟨entry, hentry, hid, hp⟩
    refine ⟨_, hperm.symm.subset (mem_filterMap.mpr ⟨entry, hentry, ?_⟩), hp⟩
    unfold parseSnapshotPageEntry
    exact if_neg hid

theorem forall_parsed {entries : List SnapshotPageEntry} {asked : List SnapshotHistoryEntry}
    (hperm : entries.Perm (asked.filterMap parseSnapshotPageEntry)) {P : SnapshotPageEntry → Prop}
    : (∀ read ∈ entries, P read)
        ↔ ∀ entry ∈ asked, Js.trim entry.canonicalId ≠ "" → P {
          sequence := entry.sequence
          kind := entry.kind
          canonicalId := Js.trim entry.canonicalId
          message := entry.message.map parseSnapshotPageMessage
          tool := entry.tool.map parseSnapshotPageTool } := by
  have hexists := not_congr (exists_parsed hperm (P := fun read => ¬P read))
  push Not at hexists
  exact hexists

theorem DistinctIds.eq_of_canonicalId (h : s.DistinctIds) {a b : SnapshotHistoryEntry} (ha : a ∈ s.history)
    (hb : b ∈ s.history) (heq : a.canonicalId = b.canonicalId)
    : a = b :=
  inj_on_of_nodup_map h.history ha hb heq

theorem Ordered.eq_of_sequence (h : s.Ordered) {a b : SnapshotHistoryEntry} (ha : a ∈ s.history)
    (hb : b ∈ s.history) (heq : a.sequence = b.sequence)
    : a = b :=
  inj_on_of_nodup_map (pairwise_map.mpr (h.imp Nat.ne_of_lt)) ha hb heq

theorem parseSnapshotPageEntry_kept {entry : SnapshotHistoryEntry} {read : SnapshotPageEntry}
    (h : parseSnapshotPageEntry entry = some read)
    : read.message = entry.message.map parseSnapshotPageMessage
        ∧ read.tool = entry.tool.map parseSnapshotPageTool := by
  unfold parseSnapshotPageEntry at h
  dsimp only at h
  split at h
  . contradiction
  . injection h with h
    subst h
    exact ⟨rfl, rfl⟩

theorem Loaded.showsAsked (hs : s.Sequenced) (hmirrors : s.Mirrors) (hdistinct : s.DistinctIds)
    {asked : List SnapshotHistoryEntry} (hsub : asked ⊆ s.history) {chat : RawAcpSnapshot}
    (h : s.Loaded asked chat)
    : s.ShowsAsked asked chat := by
  rcases h.shows with ⟨entries, hperm, hshows⟩
  have hwindow := window_shows hs hmirrors
  have hsource : ∀ read ∈ entries, ∃ entry ∈ s.history, parseSnapshotPageEntry entry = some read := by
    intro read hread
    rcases mem_filterMap.mp (hperm.subset hread) with ⟨entry, hentry, hparse⟩
    exact ⟨entry, hsub hentry, hparse⟩
  refine ⟨hshows.sorted, hshows.messageIds, hshows.toolIds, ?_, ?_, ?_⟩
  . intro shown
    rw [mem_iff_written (Displays.sequences_nodup hwindow.sorted) (Displays.sequences_nodup hshows.sorted)
      hshows.timeline, exists_parsed hperm, forall_parsed hperm]
    . simp only [SnapshotPageEntry.shown, Option.some_inj, eq_comm (b := shown), forall_eq']
    . intro a ha x hx b hb y hy heq
      injection hx with hx
      injection hy with hy
      subst hx hy
      rcases hsource a ha with ⟨e, he, hae⟩
      rcases hsource b hb with ⟨f, hf, hbf⟩
      have hsame : e = f := by
        apply hs.history.eq_of_sequence he hf
        rw [← (parseSnapshotPageEntry_eq_some hae).2.1, ← (parseSnapshotPageEntry_eq_some hbf).2.1]
        exact heq
      rw [hsame, hbf] at hae
      injection hae with hae
      rw [hae]
  . intro message
    rw [mem_iff_written hwindow.messageIds hshows.messageIds hshows.messages, exists_parsed hperm,
      forall_parsed hperm]
    . simp only [Option.map_eq_some_iff, forall_exists_index, and_imp, forall_apply_eq_imp_iff₂]
      rfl
    . intro a ha x hx b hb y hy heq
      rcases hsource a ha with ⟨e, he, hae⟩
      rcases hsource b hb with ⟨f, hf, hbf⟩
      have hx' := hx
      have hy' := hy
      rw [(parseSnapshotPageEntry_kept hae).1, Option.map_eq_some_iff] at hx'
      rw [(parseSnapshotPageEntry_kept hbf).1, Option.map_eq_some_iff] at hy'
      rcases hx' with ⟨kept, hkept, rfl⟩
      rcases hy' with ⟨kept', hkept', rfl⟩
      have hsame : e = f := by
        apply hdistinct.eq_of_canonicalId he hf
        rw [← hmirrors.messageId e he kept hkept, ← hmirrors.messageId f hf kept' hkept']
        exact heq
      subst hsame
      rw [hkept, Option.some_inj] at hkept'
      rw [hkept']
  . intro tool
    rw [mem_iff_written hwindow.toolIds hshows.toolIds hshows.tools, exists_parsed hperm,
      forall_parsed hperm]
    . simp only [Option.map_eq_some_iff, forall_exists_index, and_imp, forall_apply_eq_imp_iff₂]
      rfl
    . intro a ha x hx b hb y hy heq
      rcases hsource a ha with ⟨e, he, hae⟩
      rcases hsource b hb with ⟨f, hf, hbf⟩
      have hx' := hx
      have hy' := hy
      rw [(parseSnapshotPageEntry_kept hae).2, Option.map_eq_some_iff] at hx'
      rw [(parseSnapshotPageEntry_kept hbf).2, Option.map_eq_some_iff] at hy'
      rcases hx' with ⟨kept, hkept, rfl⟩
      rcases hy' with ⟨kept', hkept', rfl⟩
      have hsame : e = f := by
        apply hdistinct.eq_of_canonicalId he hf
        rw [← hmirrors.toolId e he kept hkept, ← hmirrors.toolId f hf kept' hkept']
        exact heq
      subst hsame
      rw [hkept, Option.some_inj] at hkept'
      rw [hkept']

/--
The whole transcript: every retained history entry once and in its place, with the message or the tool that
the server retains for it, and the live window as it was.
-/
structure Reassembles (s : SessionSnapshot) (chat : RawAcpSnapshot) : Prop where
  sorted : chat.timeline.Pairwise (·.sequence < ·.sequence)
  messageIds : (chat.messages.map (·.id)).Nodup
  toolIds : (chat.tools.map (·.id)).Nodup
  retained : ∀ entry ∈ s.history,
    { sequence := entry.sequence, kind := entry.kind, canonicalId := entry.canonicalId } ∈ chat.timeline
  messages : ∀ entry ∈ s.history, ∀ message, entry.message = some message →
    parseSnapshotMessage message ∈ chat.messages
  tools : ∀ entry ∈ s.history, ∀ tool, entry.tool = some tool → parseSnapshotTool tool ∈ chat.tools
  liveTimeline : s.window.timeline ⊆ chat.timeline
  liveMessages : s.window.messages ⊆ chat.messages
  liveTools : s.window.tools ⊆ chat.tools

/--
The entry reaches the client as it is: either on a page, where the id must not be trimmed and no usage may be
lost, or in the live window.
-/
structure Recovers (s : SessionSnapshot) (entry : SnapshotHistoryEntry) : Prop where
  asked : s.AsksFor entry → Js.trim entry.canonicalId ≠ "" →
    Js.trim entry.canonicalId = entry.canonicalId ∧ ∀ message, entry.message = some message → message.usage = none
  live : ¬(s.AsksFor entry ∧ Js.trim entry.canonicalId ≠ "") → entry.canonicalId ≠ "" ∧ s.Showing entry

theorem parseSnapshotPageMessage_eq {message : SnapshotMessage}
    : parseSnapshotPageMessage message = parseSnapshotMessage message ↔ message.usage = none := by
  unfold parseSnapshotPageMessage parseSnapshotMessage
  constructor
  . intro h
    injection h with _ _ _ _ husage
    exact Option.map_eq_none_iff.mp husage.symm
  . intro h
    rw [h]
    rfl

theorem mem_window_messages {message : RawMessage}
    : message ∈ s.window.messages ↔ ∃ live ∈ s.messages, live.id ≠ "" ∧ parseSnapshotMessage live = message := by
  have hrole : ∀ role, roleName role ≠ "" := by
    intro role
    cases role <;> decide
  change message ∈ (s.messages.map parseSnapshotMessage).filter _ ↔ _
  rw [mem_filter, mem_map]
  constructor
  . rintro ⟨⟨live, hlive, rfl⟩, hid⟩
    exact ⟨live, hlive, (of_decide_eq_true hid).1, rfl⟩
  . rintro ⟨live, hlive, hid, rfl⟩
    exact ⟨⟨live, hlive, rfl⟩, decide_eq_true ⟨hid, hrole live.role⟩⟩

theorem mem_window_tools {tool : RawTool}
    : tool ∈ s.window.tools ↔ ∃ shown ∈ s.bridge.tools, shown.id ≠ "" ∧ parseSnapshotTool shown = tool := by
  change tool ∈ (s.bridge.tools.map parseSnapshotTool).filter _ ↔ _
  rw [mem_filter, mem_map]
  constructor
  . rintro ⟨⟨shown, hshown, rfl⟩, hid⟩
    exact ⟨shown, hshown, of_decide_eq_true hid, rfl⟩
  . rintro ⟨shown, hshown, hid, rfl⟩
    exact ⟨⟨shown, hshown, rfl⟩, decide_eq_true hid⟩

theorem mem_window_timeline {shown : SnapshotTimelineEntry}
    : shown ∈ s.window.timeline ↔ shown ∈ s.timeline ∧ shown.canonicalId ≠ "" := by
  change shown ∈ s.timeline.filter _ ↔ _
  rw [mem_filter, decide_eq_true_eq]

theorem trim_ne {id : String} (h : Js.trim id ≠ "") : id ≠ "" := by
  rintro rfl
  exact h rfl

/--
What the client shows is the whole transcript if it recovers every entry.
-/
theorem ShowsAsked.reassembles (hs : s.Sequenced) (hmirrors : s.Mirrors) (hdistinct : s.DistinctIds)
    {asked : List SnapshotHistoryEntry} (hsub : asked ⊆ s.history)
    (hasked : ∀ entry, entry ∈ asked ↔ s.AsksFor entry) {chat : RawAcpSnapshot}
    (h : s.ShowsAsked asked chat) (hrecovers : ∀ entry ∈ s.history, s.Recovers entry)
    : s.Reassembles chat := by
  refine ⟨h.sorted, h.messageIds, h.toolIds, ?_, ?_, ?_, ?_, ?_, ?_⟩
  . intro entry hentry
    rw [h.timeline]
    by_cases hread : s.AsksFor entry ∧ Js.trim entry.canonicalId ≠ ""
    . refine .inl ⟨entry, (hasked entry).mpr hread.1, hread.2, ?_⟩
      rw [((hrecovers entry hentry).asked hread.1 hread.2).1]
    . rcases (hrecovers entry hentry).live hread with ⟨hid, shown, hshown, heq⟩
      rcases hs.same shown hshown entry hentry heq.symm with ⟨hkind, hcanonicalId⟩
      have hsame : shown
          = { sequence := entry.sequence, kind := entry.kind, canonicalId := entry.canonicalId } := by
        rw [← heq, hkind, hcanonicalId]
      refine .inr ⟨mem_window_timeline.mpr ⟨hsame ▸ hshown, hid⟩, ?_⟩
      intro other hother htrim hsequence
      have hsame : other = entry := hs.history.eq_of_sequence (hsub hother) hentry hsequence
      rw [hsame] at hother htrim
      exact hread ⟨(hasked entry).mp hother, htrim⟩
  . intro entry hentry message hmessage
    rw [h.messages]
    by_cases hread : s.AsksFor entry ∧ Js.trim entry.canonicalId ≠ ""
    . refine .inl ⟨entry, (hasked entry).mpr hread.1, hread.2, message, hmessage, ?_⟩
      exact parseSnapshotPageMessage_eq.mpr (((hrecovers entry hentry).asked hread.1 hread.2).2 message hmessage)
    . rcases (hrecovers entry hentry).live hread with ⟨hid, hshowing⟩
      have hname := hmirrors.messageId entry hentry message hmessage
      refine .inr ⟨mem_window_messages.mpr ⟨message, ?_, hname ▸ hid, rfl⟩, ?_⟩
      . exact hmirrors.message entry hentry hshowing message hmessage
      . intro other hother htrim kept hkept heq
        have hname' := hmirrors.messageId other (hsub hother) kept hkept
        have hsame : other = entry := by
          apply hdistinct.eq_of_canonicalId (hsub hother) hentry
          rw [← hname', ← hname]
          exact heq
        rw [hsame] at hother htrim
        exact hread ⟨(hasked entry).mp hother, htrim⟩
  . intro entry hentry tool htool
    rw [h.tools]
    by_cases hread : s.AsksFor entry ∧ Js.trim entry.canonicalId ≠ ""
    . exact .inl ⟨entry, (hasked entry).mpr hread.1, hread.2, tool, htool, rfl⟩
    . rcases (hrecovers entry hentry).live hread with ⟨hid, hshowing⟩
      have hname := hmirrors.toolId entry hentry tool htool
      refine .inr ⟨mem_window_tools.mpr ⟨tool, ?_, hname ▸ hid, rfl⟩, ?_⟩
      . rcases hmirrors.tool entry hentry hshowing tool htool with ⟨live, hlive, heq⟩
        exact mem_bridge_tools.mpr ⟨tool.id, live, hlive, heq⟩
      . intro other hother htrim kept hkept heq
        have hname' := hmirrors.toolId other (hsub hother) kept hkept
        have hsame : other = entry := by
          apply hdistinct.eq_of_canonicalId (hsub hother) hentry
          rw [← hname', ← hname]
          exact heq
        rw [hsame] at hother htrim
        exact hread ⟨(hasked entry).mp hother, htrim⟩
  . intro shown hshown
    rw [h.timeline]
    by_cases hread : ∃ entry ∈ asked, Js.trim entry.canonicalId ≠ "" ∧ entry.sequence = shown.sequence
    . rcases hread with ⟨entry, hentry, htrim, heq⟩
      have hrecovers := (hrecovers entry (hsub hentry)).asked ((hasked entry).mp hentry) htrim
      rcases hs.same shown (mem_window_timeline.mp hshown).1 entry (hsub hentry) heq with ⟨hkind, hcanonicalId⟩
      refine .inl ⟨entry, hentry, htrim, ?_⟩
      rw [hrecovers.1, heq, hkind, hcanonicalId]
    . push Not at hread
      exact .inr ⟨hshown, hread⟩
  . intro message hmessage
    rw [h.messages]
    by_cases hread : ∃ entry ∈ asked, Js.trim entry.canonicalId ≠ ""
        ∧ ∃ kept, entry.message = some kept ∧ kept.id = message.id
    . rcases hread with ⟨entry, hentry, htrim, kept, hkept, heq⟩
      have hrecovers := (hrecovers entry (hsub hentry)).asked ((hasked entry).mp hentry) htrim
      rcases mem_window_messages.mp hmessage with ⟨live, hlive, -, rfl⟩
      rcases hmirrors.liveMessage live hlive with ⟨shown, hshown, hid⟩
      have hname := hmirrors.messageId entry (hsub hentry) kept hkept
      have hsequence : entry.sequence = shown.sequence := by
        apply hdistinct.timeline shown hshown entry (hsub hentry)
        rw [hid, ← hname]
        exact heq
      have hkeptLive := hmirrors.message entry (hsub hentry) ⟨shown, hshown, hsequence.symm⟩ kept hkept
      have hsame : kept = live := inj_on_of_nodup_map hmirrors.messageIds hkeptLive hlive heq
      subst hsame
      exact .inl ⟨entry, hentry, htrim, kept, hkept, parseSnapshotPageMessage_eq.mpr (hrecovers.2 kept hkept)⟩
    . push Not at hread
      exact .inr ⟨hmessage, hread⟩
  . intro tool htool
    rw [h.tools]
    by_cases hread : ∃ entry ∈ asked, Js.trim entry.canonicalId ≠ ""
        ∧ ∃ kept, entry.tool = some kept ∧ kept.id = tool.id
    . rcases hread with ⟨entry, hentry, htrim, kept, hkept, heq⟩
      rcases mem_window_tools.mp htool with ⟨windowed, hwindowed, -, rfl⟩
      rcases mem_bridge_tools.mp hwindowed with ⟨id, live, hlive, rfl⟩
      rcases hmirrors.liveTool id live hlive with ⟨shown, hshown, hid⟩
      have hname := hmirrors.toolId entry (hsub hentry) kept hkept
      have hkeptId : kept.id = id := heq.trans ((s.windowTool_id id live).trans (hmirrors.toolIds id live hlive))
      have hsequence : entry.sequence = shown.sequence := by
        apply hdistinct.timeline shown hshown entry (hsub hentry)
        rw [hid, ← hname, hkeptId]
      rcases hmirrors.tool entry (hsub hentry) ⟨shown, hshown, hsequence.symm⟩ kept hkept with ⟨live', hlive', hsame⟩
      rw [hkeptId, hlive, Option.some_inj] at hlive'
      subst hlive'
      rw [hkeptId] at hsame
      exact .inl ⟨entry, hentry, htrim, kept, hkept, by rw [hsame]; rfl⟩
    . push Not at hread
      exact .inr ⟨htool, hread⟩

/--
And only then.
-/
theorem ShowsAsked.recovers (hs : s.Sequenced)
    {asked : List SnapshotHistoryEntry} (hsub : asked ⊆ s.history)
    (hasked : ∀ entry, entry ∈ asked ↔ s.AsksFor entry) {chat : RawAcpSnapshot}
    (h : s.ShowsAsked asked chat) (hwhole : s.Reassembles chat) {entry : SnapshotHistoryEntry}
    (hentry : entry ∈ s.history)
    : s.Recovers entry := by
  have hretained := hwhole.retained entry hentry
  constructor
  . intro hasks htrim
    have hmem := (hasked entry).mpr hasks
    refine ⟨?_, ?_⟩
    . have hread := (h.timeline _).mpr (.inl ⟨entry, hmem, htrim, rfl⟩)
      have hsame := inj_on_of_nodup_map (Displays.sequences_nodup h.sorted) hread hretained rfl
      injection hsame
    . intro message hmessage
      have hread := (h.messages _).mpr (.inl ⟨entry, hmem, htrim, message, hmessage, rfl⟩)
      have hkept := hwhole.messages entry hentry message hmessage
      exact parseSnapshotPageMessage_eq.mp (inj_on_of_nodup_map h.messageIds hread hkept rfl)
  . intro hnot
    rcases (h.timeline _).mp hretained with ⟨other, hother, htrim, heq⟩ | ⟨hwindow, -⟩
    . injection heq with hsequence
      have hsame : entry = other := hs.history.eq_of_sequence hentry (hsub hother) hsequence
      rw [← hsame] at hother htrim
      exact absurd ⟨(hasked entry).mp hother, htrim⟩ hnot
    . rw [mem_window_timeline] at hwindow
      exact ⟨hwindow.2, _, hwindow.1, rfl⟩

/-! Reachable snapshots -/

/--
The sequences that a number of the client holds exactly.
-/
def MAX_SAFE_INTEGER : Nat := 9007199254740991

variable {isTool : String → Prop}

theorem ordered_of_live (h : s.Live isTool) (hlt : s.nextSequence < U64_MAX) : s.Ordered := by
  have hsequences := h.bounded.sequences hlt
  unfold Ordered
  rw [pairwise_iff_getElem]
  intro i j hi hj hij
  have hfirst := hsequences i s.history[i] (getElem?_eq_getElem hi)
  have hsecond := hsequences j s.history[j] (getElem?_eq_getElem hj)
  dsimp only at hfirst hsecond
  omega

theorem mem_tools_of_shown (h : s.LiveWindow isTool) {shown : SnapshotTimelineEntry} (hshown : shown ∈ s.timeline)
    (hkind : shown.kind = .tool)
    : ∃ tool, s.tools[shown.canonicalId]? = some tool := by
  have hmem : shown.canonicalId ∈ s.timeline.filterMap SnapshotTimelineEntry.toolCall? := by
    rw [mem_filterMap]
    refine ⟨shown, hshown, ?_⟩
    unfold SnapshotTimelineEntry.toolCall?
    exact if_pos hkind
  have hkey := h.tools.subset hmem
  rw [TreeMap.mem_keys, TreeMap.mem_iff_contains, TreeMap.contains_eq_isSome_getElem?] at hkey
  exact Option.isSome_iff_exists.mp hkey

theorem mem_messages_of_shown (h : s.LiveWindow isTool) {shown : SnapshotTimelineEntry} (hshown : shown ∈ s.timeline)
    (hkind : shown.kind ≠ .tool)
    : ∃ message ∈ s.messages, message.id = shown.canonicalId := by
  have hmem : (shown.kind, shown.canonicalId) ∈ s.timeline.filterMap SnapshotTimelineEntry.message? := by
    rw [mem_filterMap]
    refine ⟨shown, hshown, ?_⟩
    unfold SnapshotTimelineEntry.message?
    exact if_neg hkind
  rw [h.messages, mem_map] at hmem
  rcases hmem with ⟨message, hmessage, heq⟩
  injection heq with _ hid
  exact ⟨message, hmessage, hid⟩

theorem sequenced_of_reachable (h : ReachableWith isTool s) (hlt : s.nextSequence < U64_MAX) : s.Sequenced where
  history := ordered_of_live h.live hlt
  timeline := h.liveWindow.sorted hlt
  same shown hshown entry hentry heq := by
    have hid := (h.live.sequenced hlt).recorded shown hshown entry hentry heq
    refine ⟨?_, hid⟩
    by_cases hkind : shown.kind = .tool
    . rw [hkind, h.recorded.recorded.kinds entry hentry, hid]
      rcases mem_tools_of_shown h.liveWindow hshown hkind with ⟨tool, htool⟩
      exact (h.shadows.live _ tool htool).2
    . exact (h.recorded.filed hlt).same shown hshown hkind entry hentry heq

theorem mirrors_of_reachable (h : ReachableWith isTool s) (hlt : s.nextSequence < U64_MAX)
    (hdistinct : s.DistinctIds)
    : s.Mirrors where
  messageId entry hentry message hmessage := (h.recorded.recorded.names entry hentry message hmessage).1
  toolId entry hentry tool htool := by
    have hslot : (entry.canonicalId, some tool) ∈ s.slots := by
      rw [← htool]
      exact mem_map_of_mem hentry
    exact (h.shadows.kept _ tool hslot).1
  message entry hentry hshowing message hmessage := by
    rcases hshowing with ⟨shown, hshown, heq⟩
    rcases (sequenced_of_reachable h hlt).same shown hshown entry hentry heq.symm with ⟨hkind, hid⟩
    rcases h.recorded.recorded.names entry hentry message hmessage with ⟨hname, hnot⟩
    have hne : shown.kind ≠ .tool := by
      rw [← hkind, ne_eq, h.recorded.recorded.kinds entry hentry, ← hname]
      exact hnot
    rcases mem_messages_of_shown h.liveWindow hshown hne with ⟨live, hlive, hliveId⟩
    have hfound : messageEntry s.history live.id = some entry := by
      have hp : (entry.canonicalId == live.id && entry.message.isSome) = true := by
        rw [hmessage, hliveId, hid, beq_self_eq_true]
        rfl
      cases hcases : messageEntry s.history live.id with
      | none =>
        unfold messageEntry at hcases
        rw [find?_eq_none] at hcases
        exact absurd hp (hcases entry (mem_reverse.mpr hentry))
      | some found =>
        have hfoundIs := find?_some hcases
        rw [Bool.and_eq_true, beq_iff_eq] at hfoundIs
        have hmem := mem_reverse.mp (mem_of_find?_eq_some hcases)
        rw [hdistinct.eq_of_canonicalId hmem hentry (hfoundIs.1.trans (hliveId.trans hid.symm))]
    have hmirror := h.recorded.recorded.mirror live hlive (by simp) entry hfound
    rw [hmessage, Option.some_inj] at hmirror
    rw [hmirror]
    exact hlive
  tool entry hentry hshowing tool htool := by
    rcases hshowing with ⟨shown, hshown, heq⟩
    rcases (sequenced_of_reachable h hlt).same shown hshown entry hentry heq.symm with ⟨hkind, hid⟩
    have hslot : (entry.canonicalId, some tool) ∈ s.slots := by
      rw [← htool]
      exact mem_map_of_mem hentry
    rcases h.shadows.kept _ tool hslot with ⟨hname, htoolId⟩
    have hshownKind : shown.kind = .tool := by
      rw [← hkind]
      exact (h.recorded.recorded.kinds entry hentry).mpr htoolId
    rcases mem_tools_of_shown h.liveWindow hshown hshownKind with ⟨live, hlive⟩
    rw [← hid] at hlive
    refine ⟨live, hname ▸ hlive, ?_⟩
    rw [hname]
    exact (h.shadows.mirror _ live tool hlive not_mem_nil hslot).symm
  messageIds := h.recorded.recorded.ids
  toolIds id tool hlive := (h.shadows.live id tool hlive).1
  liveMessage message hmessage := by
    have hmem : message.shown ∈ s.timeline.filterMap SnapshotTimelineEntry.message? := by
      rw [h.liveWindow.messages]
      exact mem_map_of_mem hmessage
    rw [mem_filterMap] at hmem
    rcases hmem with ⟨shown, hshown, heq⟩
    unfold SnapshotTimelineEntry.message? at heq
    split at heq
    . contradiction
    . injection heq with heq
      injection heq with _ hid
      exact ⟨shown, hshown, hid⟩
  liveTool id tool hlive := by
    have hkey : id ∈ s.tools.keys := by
      rw [TreeMap.mem_keys, TreeMap.mem_iff_contains, TreeMap.contains_eq_isSome_getElem?, hlive]
      rfl
    have hmem := h.liveWindow.tools.symm.subset hkey
    rw [mem_filterMap] at hmem
    rcases hmem with ⟨shown, hshown, heq⟩
    unfold SnapshotTimelineEntry.toolCall? at heq
    split at heq
    . injection heq with hid
      exact ⟨shown, hshown, hid⟩
    . contradiction

/--
Loading ends, and then the whole transcript is shown. A page of another revision changes nothing.
-/
structure PagesBack (s : SessionSnapshot) : Prop where
  ends : ∃ pages, (s.load^[pages] s.window).exhausted
  whole : ∀ pages, (s.load^[pages] s.window).exhausted → s.Reassembles (s.load^[pages] s.window)
  stale : ∀ pages page, page.revision ≠ s.nextSequence →
    (loadEarlier (fun _ _ => .ok page) (s.load^[pages] s.window)).chat (s.load^[pages] s.window)
      = s.load^[pages] s.window

theorem load_of_exhausted {chat : RawAcpSnapshot} (h : chat.exhausted) : s.load chat = chat := by
  unfold RawAcpSnapshot.exhausted at h
  rw [Option.isNone_iff_eq_none] at h
  unfold SessionSnapshot.load loadEarlier
  rw [h]
  cases chat.continuation <;> rfl

/--
Once nothing is left to load, nothing changes any more.
-/
theorem eq_of_exhausted {m n : Nat} {chat : RawAcpSnapshot} (hm : (s.load^[m] chat).exhausted)
    (hn : (s.load^[n] chat).exhausted)
    : s.load^[m] chat = s.load^[n] chat := by
  wlog hle : m ≤ n generalizing m n
  . exact (this hn hm (Nat.le_of_not_le hle)).symm
  . rw [← Nat.sub_add_cancel hle, Function.iterate_add_apply]
    exact (Function.iterate_fixed (load_of_exhausted hm) (n - m)).symm

theorem load_revision (s : SessionSnapshot) (chat : RawAcpSnapshot)
    : (s.load chat).continuation.map (·.revision) = chat.continuation.map (·.revision) := by
  unfold SessionSnapshot.load loadEarlier
  split
  . next continuation beforeCursor hcontinuation _ =>
    dsimp only
    split
    . rfl
    . next page _ =>
      split
      . rfl
      . next merged hmerge =>
        by_cases hrevision : page.revision = continuation.revision
        . rcases mergeSnapshotPage_of_revision hcontinuation hrevision with ⟨_, heq, -, hmerged⟩
          rw [hmerge] at heq
          injection heq with heq
          subst heq
          change merged.continuation.map (·.revision) = _
          rw [hmerged, hcontinuation, Option.map_some, Option.map_some, ← hrevision]
        . rw [mergeSnapshotPage_of_ne hcontinuation hrevision] at hmerge
          contradiction
  . rfl

theorem stale_page (pages : Nat) {page : SnapshotPageResponse} (hrevision : page.revision ≠ s.nextSequence)
    : (loadEarlier (fun _ _ => .ok page) (s.load^[pages] s.window)).chat (s.load^[pages] s.window)
        = s.load^[pages] s.window := by
  have hcurrent : (s.load^[pages] s.window).continuation.map (·.revision) = some s.nextSequence := by
    induction pages with
    | zero => rfl
    | succ pages ih => rw [Function.iterate_succ_apply', load_revision, ih]
  generalize s.load^[pages] s.window = chat at *
  rw [Option.map_eq_some_iff] at hcurrent
  rcases hcurrent with ⟨continuation, hcontinuation, heq⟩
  unfold loadEarlier
  rw [hcontinuation]
  split
  . next h _ =>
    injection h with h
    subst h
    dsimp only
    rw [mergeSnapshotPage_of_ne hcontinuation (heq ▸ hrevision)]
    rfl
  . rfl

/--
Loading earlier entries ends with the whole transcript if and only if each retained entry is recovered. The
sequences must be ones that the client's numbers hold.
-/
theorem pagesBack_iff (h : ReachableWith isTool s) (hdistinct : s.DistinctIds)
    (hsafe : s.nextSequence ≤ MAX_SAFE_INTEGER)
    : s.PagesBack ↔ ∀ entry ∈ s.history, s.Recovers entry := by
  have hlt : s.nextSequence < U64_MAX := Nat.lt_of_le_of_lt hsafe (by decide)
  have hs := sequenced_of_reachable h hlt
  have hmirrors := mirrors_of_reachable h hlt hdistinct
  rcases loads hs hmirrors with ⟨pages, asked, hexhausted, hloaded, hsub, hasked⟩
  have hshows := hloaded.showsAsked hs hmirrors hdistinct hsub
  constructor
  . intro hback entry hentry
    exact hshows.recovers hs hsub hasked (hback.whole pages hexhausted) hentry
  . intro hrecovers
    refine ⟨⟨pages, hexhausted⟩, ?_, fun pages page hrevision => stale_page pages hrevision⟩
    intro other hother
    rw [eq_of_exhausted hother hexhausted]
    exact hshows.reassembles hs hmirrors hdistinct hsub hasked hrecovers

/-! Runs of messages -/

def chunkOf (role : MessageRole) (id : String) : Operation :=
  .apply (.messageChunk "agent" "thread" none none none role id "a" none)

theorem reachable_of_chunks {operations : List Operation} (h : ReachableWith (fun _ => False) s)
    (hoperations : ∀ operation ∈ operations, ∃ role id, operation = chunkOf role id) {t : SessionSnapshot}
    (hrun : operations.foldlM perform s = .ok t)
    : ReachableWith (fun _ => False) t := by
  induction operations generalizing s with
  | nil =>
    injection hrun with hrun
    exact hrun ▸ h
  | cons operation operations ih =>
    rcases hoperations operation mem_cons_self with ⟨role, id, rfl⟩
    rw [foldlM_cons, Except.bind_eq_ok] at hrun
    rcases hrun with ⟨u, hperform, hrun⟩
    apply ih (.perform h _ hperform) (fun other hother => hoperations other (mem_cons_of_mem _ hother)) hrun
    simp [chunkOf, Operation.Respects, CanonicalEvent.toolCallId?]

/--
A message for each number below 129, of which the first is not live any more.
-/
def manyMessages : List Operation :=
  (List.range 129).map fun i => chunkOf .agent (toString i)

/--
A reasoning is pushed out of the live window by 128 messages.
-/
def reasoningFirst : List Operation :=
  chunkOf .thought "thought" :: (List.range 128).map fun i => chunkOf .agent (toString i)

theorem distinctIds_of_subset {ids : List String} (hnodup : ids.Nodup)
    (hids : s.history.map (·.canonicalId) = ids)
    (hsub : s.timeline.map (fun shown => (shown.sequence, shown.canonicalId))
      ⊆ s.history.map fun entry => (entry.sequence, entry.canonicalId))
    : s.DistinctIds where
  history := hids ▸ hnodup
  timeline shown hshown entry hentry heq := by
    rcases mem_map.mp (hsub (mem_map_of_mem hshown)) with ⟨other, hother, hpair⟩
    injection hpair with hsequence hid
    have hsame : other = entry :=
      inj_on_of_nodup_map (hids ▸ hnodup) hother hentry (hid.trans heq.symm)
    exact hsame ▸ hsequence

theorem nodup_numbers {n : Nat} : ((List.range n).map (toString : Nat → String)).Nodup :=
  nodup_range.map Text.repr_injective

theorem pagesBack_manyMessages
    : ∃ s, manyMessages.foldlM perform (.new "agent" "thread") = .ok s
        ∧ s.history.length = 129 ∧ s.timeline.length = 128 ∧ s.PagesBack := by
  have hrun : ((manyMessages.foldlM perform (.new "agent" "thread")).toOption).any (fun s =>
      decide (s.nextSequence ≤ MAX_SAFE_INTEGER)
        && decide (s.history.map (·.canonicalId) = (List.range 129).map toString)
        && decide (s.timeline.map (fun shown => (shown.sequence, shown.canonicalId))
          = s.history.tail.map fun entry => (entry.sequence, entry.canonicalId))
        && decide (s.earlier.map (·.sequence) = (s.history.take 1).map (·.sequence))
        && s.history.all fun entry =>
          decide (entry.canonicalId ≠ "" ∧ Js.trim entry.canonicalId = entry.canonicalId)
            && entry.message.all fun message => message.usage.isNone) = true := by
    decide +kernel
  rcases (Option.any_eq_true _ _).mp hrun with ⟨s, hexec, hcheck⟩
  rw [Except.toOption_eq_some] at hexec
  simp only [Bool.and_eq_true, decide_eq_true_eq] at hcheck
  rcases hcheck with ⟨⟨⟨⟨hsafe, hids⟩, htimeline⟩, hearlier⟩, hentries⟩
  have hlength : s.history.length = 129 := by
    rw [← length_map (·.canonicalId), hids, length_map, length_range]
  have hreachable : ReachableWith (fun _ => False) s := by
    apply reachable_of_chunks (.new "agent" "thread") _ hexec
    intro operation hmem
    rcases mem_map.mp hmem with ⟨i, -, rfl⟩
    exact ⟨.agent, toString i, rfl⟩
  have hdistinct : s.DistinctIds := by
    apply distinctIds_of_subset nodup_numbers hids
    rw [htimeline]
    exact map_subset _ fun _ => mem_of_mem_tail
  refine ⟨s, hexec, hlength, ?_, ?_⟩
  . rw [← length_map (fun shown => (shown.sequence, shown.canonicalId)), htimeline, length_map, length_tail,
      hlength]
  rw [pagesBack_iff hreachable hdistinct hsafe]
  intro entry hentry
  rw [all_eq_true] at hentries
  have hcheck := hentries entry hentry
  simp only [Bool.and_eq_true, decide_eq_true_eq] at hcheck
  rcases hcheck with ⟨⟨hid, htrim⟩, husage⟩
  refine ⟨fun _ _ => ⟨htrim, ?_⟩, fun hnot => ⟨hid, ?_⟩⟩
  . intro message hmessage
    rw [hmessage] at husage
    exact Option.isNone_iff_eq_none.mp husage
  cases hhistory : s.history with
  | nil =>
    rw [hhistory] at hlength
    cases hlength
  | cons first rest =>
    rw [hhistory, take_succ_cons, take_zero] at hearlier
    rw [hhistory, mem_cons] at hentry
    rcases hentry with rfl | hentry
    -- the first entry is all there is before the first cursor
    . cases hasked : s.earlier with
      | nil =>
        rw [hasked] at hearlier
        cases hearlier
      | cons other others =>
        rw [hasked] at hearlier
        injection hearlier with hsequence _
        have hordered := ordered_of_live hreachable.live (Nat.lt_of_le_of_lt hsafe (by decide))
        have hother : other ∈ s.history :=
          mem_history_of_earlier (hasked ▸ mem_cons_self)
        have hsame : other = entry :=
          hordered.eq_of_sequence hother (hhistory ▸ mem_cons_self) hsequence
        refine absurd ⟨⟨0, ?_, .inl (by decide)⟩, htrim.symm ▸ hid⟩ hnot
        rw [hasked, hsame]
        rfl
    . have hshown : (entry.sequence, entry.canonicalId)
          ∈ s.timeline.map fun shown => (shown.sequence, shown.canonicalId) := by
        rw [htimeline, hhistory]
        exact mem_map.mpr ⟨entry, hentry, rfl⟩
      rcases mem_map.mp hshown with ⟨shown, hmem, hpair⟩
      injection hpair with hsequence _
      exact ⟨shown, hmem, hsequence⟩

/--
The reasoning is in the history, but there is no cursor to load it from.
-/
theorem not_pagesBack_reasoningFirst
    : ∃ s, reasoningFirst.foldlM perform (.new "agent" "thread") = .ok s
        ∧ ReachableWith (fun _ => False) s ∧ s.DistinctIds ∧ s.nextSequence ≤ MAX_SAFE_INTEGER
        ∧ ¬s.PagesBack := by
  have hrun : ((reasoningFirst.foldlM perform (.new "agent" "thread")).toOption).any (fun s =>
      decide (s.nextSequence ≤ MAX_SAFE_INTEGER)
        && decide (s.history.map (·.canonicalId) = "thought" :: (List.range 128).map toString)
        && decide (s.timeline.map (fun shown => (shown.sequence, shown.canonicalId))
          = s.history.tail.map fun entry => (entry.sequence, entry.canonicalId))
        && s.window.exhausted
        && s.window.timeline.all (·.canonicalId != "thought")) = true := by
    decide +kernel
  rcases (Option.any_eq_true _ _).mp hrun with ⟨s, hexec, hcheck⟩
  rw [Except.toOption_eq_some] at hexec
  simp only [Bool.and_eq_true, decide_eq_true_eq] at hcheck
  rcases hcheck with ⟨⟨⟨⟨hsafe, hids⟩, htimeline⟩, hexhausted⟩, hmissing⟩
  have hnodup : ("thought" :: (List.range 128).map toString).Nodup := by
    refine nodup_cons.mpr ⟨?_, nodup_numbers⟩
    decide +kernel
  refine ⟨s, hexec, ?_, ?_, hsafe, ?_⟩
  . apply reachable_of_chunks (.new "agent" "thread") _ hexec
    intro operation hmem
    rcases mem_cons.mp hmem with rfl | hmem
    . exact ⟨.thought, "thought", rfl⟩
    . rcases mem_map.mp hmem with ⟨i, -, rfl⟩
      exact ⟨.agent, toString i, rfl⟩
  . apply distinctIds_of_subset hnodup hids
    rw [htimeline]
    exact map_subset _ fun _ => mem_of_mem_tail
  . intro hback
    have hthought : "thought" ∈ s.history.map (·.canonicalId) := by
      rw [hids]
      exact mem_cons_self
    rcases mem_map.mp hthought with ⟨entry, hentry, hid⟩
    have hkept := (hback.whole 0 hexhausted).retained entry hentry
    rw [all_eq_true] at hmissing
    simpa [hid] using hmissing _ hkept

end SessionSnapshot

end Snapshot
