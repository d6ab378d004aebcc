import Mathlib.Data.List.Perm.Subperm
import TetherBridge.Acp.SessionIndex
import TetherBridge.Transition.Basic

/-!
This module contains what a restart keeps of the session index: what an insert has acknowledged is in the
index with its title and parent, unless it is among the first of too many sessions, and what is written is
loaded again as long as it is not too long to be read.
-/

namespace Acp

open Snapshot Transition

/-! The order of the entries -/

namespace SessionIndexEntry

instance : Std.TransOrd (Nat × List UInt8) :=
  inferInstanceAs (Std.TransCmp (compareLex _ _))

instance : Std.TransCmp cmp :=
  inferInstanceAs (Std.TransCmp (compareLex _ _))

theorem le_trans (a b c : SessionIndexEntry) (h : a.le b) (h' : b.le c) : a.le c :=
  Std.TransCmp.isLE_trans h h'

theorem le_total (a b : SessionIndexEntry) : a.le b || b.le a := by
  have hswap : cmp a b = (cmp b a).swap := Std.OrientedCmp.eq_swap
  unfold le
  rw [hswap]
  cases cmp b a <;> rfl

theorem pairwise_mergeSort (entries : List SessionIndexEntry)
    : (entries.mergeSort le).Pairwise (le · ·) :=
  List.pairwise_mergeSort le_trans le_total entries

theorem isSession_iff (entry other : SessionIndexEntry)
    : entry.isSession other ↔ entry.identity = other.identity := by
  simp [isSession, identity]

end SessionIndexEntry

/-! Loading what was written -/

theorem PathBuf.ofString_of_toStr {path : PathBuf} {text : String} (h : path.toStr = some text)
    : PathBuf.ofString text = path := by
  unfold toStr String.fromUTF8? at h
  split at h
  . injection h with h
    rw [← h]
    rfl
  . contradiction

theorem optionalText_lookup (value : Option String)
    : optionalText (value.map Json.string) = some value := by
  cases value <;> rfl

theorem SessionIndexEntry.ofJson_toJson {entry : SessionIndexEntry} {json : Json}
    (h : entry.toJson = some json)
    : SessionIndexEntry.ofJson json = some entry := by
  unfold toJson at h
  rw [Option.map_eq_some_iff] at h
  rcases h with ⟨cwd, hcwd, rfl⟩
  rcases entry with ⟨agentId, acpSessionId, path, title, parent, forked⟩
  have hpath := PathBuf.ofString_of_toStr hcwd
  dsimp only at hpath
  subst hpath
  cases title <;> cases parent <;> cases forked <;> rfl

theorem mapM_ofJson {entries : List SessionIndexEntry} {sessions : List Json}
    (h : entries.mapM SessionIndexEntry.toJson = some sessions)
    : sessions.mapM SessionIndexEntry.ofJson = some entries := by
  induction entries generalizing sessions with
  | nil =>
    injection h with h
    rw [← h]
    rfl
  | cons entry entries ih =>
    rw [List.mapM_cons] at h
    simp only [Option.bind_eq_bind, Option.bind_eq_some_iff, Option.pure_def, Option.some.injEq] at h
    rcases h with ⟨json, hjson, rest, hrest, rfl⟩
    rw [List.mapM_cons, SessionIndexEntry.ofJson_toJson hjson, ih hrest]
    rfl

theorem indexFileOfJson_indexFileJson {entries : List SessionIndexEntry} {json : Json}
    (h : indexFileJson entries = some json)
    : indexFileOfJson json = some (SESSION_INDEX_VERSION, entries) := by
  unfold indexFileJson at h
  rw [Option.map_eq_some_iff] at h
  rcases h with ⟨sessions, hsessions, rfl⟩
  have hread := mapM_ofJson hsessions
  have hversion : asNat (natJson SESSION_INDEX_VERSION) = some SESSION_INDEX_VERSION := by
    decide +kernel
  have hfields : hasFields ["version", "sessions"]
      [("version", natJson SESSION_INDEX_VERSION), ("sessions", .array sessions)] = true := rfl
  unfold indexFileOfJson
  simp [guard, hfields, List.lookup_nil, List.lookup_cons, hversion, Json.asArray, hread]

/-! What the loader keeps -/

theorem dedupSessions_of_nodup {entries : List SessionIndexEntry}
    (h : (entries.map (·.identity)).Nodup)
    : dedupSessions entries = entries := by
  induction entries with
  | nil => rfl
  | cons entry entries ih =>
    rw [List.map_cons, List.nodup_cons] at h
    unfold dedupSessions
    rw [ih h.2]
    cases entries with
    | nil => rfl
    | cons next rest =>
      dsimp only
      rw [if_neg]
      rw [SessionIndexEntry.isSession_iff]
      intro heq
      apply h.1
      rw [← heq]
      exact List.mem_map_of_mem List.mem_cons_self

/--
The entries as a loader leaves them.
-/
structure Sanitized (entries : List SessionIndexEntry) : Prop where
  valid : ∀ entry ∈ entries, entry.valid
  sorted : entries.Pairwise (SessionIndexEntry.le · ·)
  sessions : (entries.map (·.identity)).Nodup
  length_le : entries.length ≤ MAX_SESSIONS

theorem Sanitized.sublist {entries kept : List SessionIndexEntry} (h : Sanitized entries)
    (hsublist : kept.Sublist entries)
    : Sanitized kept where
  valid entry hentry := h.valid entry (hsublist.subset hentry)
  sorted := h.sorted.sublist hsublist
  sessions := h.sessions.sublist (hsublist.map _)
  length_le := Nat.le_trans hsublist.length_le h.length_le

theorem sanitizeIndexEntries_of_sanitized {entries : List SessionIndexEntry} (h : Sanitized entries)
    : sanitizeIndexEntries entries = entries := by
  unfold sanitizeIndexEntries
  rw [List.filter_eq_self.mpr h.valid, List.mergeSort_of_pairwise h.sorted,
    dedupSessions_of_nodup h.sessions, List.take_of_length_le h.length_le]

theorem dedupSessions_sublist (entries : List SessionIndexEntry)
    : (dedupSessions entries).Sublist entries := by
  induction entries with
  | nil => exact .slnil
  | cons entry entries ih =>
    unfold dedupSessions
    split
    . exact List.singleton_sublist.mpr List.mem_cons_self
    . next next kept heq =>
      rw [heq] at ih
      split
      . exact (List.Sublist.trans (List.sublist_cons_self next kept) ih).cons_cons entry
      . exact ih.cons_cons entry

/-! Entries of one session stand together in a sorted list -/

/--
The order of the identities, which the order of the entries refines.
-/
def AgentSessionId.cmp : AgentSessionId → AgentSessionId → Ordering :=
  compareLex (compareOn agentId) (compareOn acpSessionId)

instance : Std.TransCmp AgentSessionId.cmp :=
  inferInstanceAs (Std.TransCmp (compareLex _ _))

theorem AgentSessionId.eq_of_cmp {a b : AgentSessionId} (h : cmp a b = .eq) : a = b := by
  unfold cmp compareLex at h
  rw [Ordering.then_eq_eq] at h
  have hagent : a.agentId = b.agentId := Std.compare_eq_iff_eq.mp h.1
  have hsession : a.acpSessionId = b.acpSessionId := Std.compare_eq_iff_eq.mp h.2
  rcases a with ⟨agentId, acpSessionId⟩
  dsimp only at hagent hsession
  rw [hagent, hsession]

theorem SessionIndexEntry.identity_isLE {a b : SessionIndexEntry} (h : a.le b)
    : (AgentSessionId.cmp a.identity b.identity).isLE := by
  have hcmp : SessionIndexEntry.cmp a b
      = (AgentSessionId.cmp a.identity b.identity).then
        (compareLex (compareOn fun entry : SessionIndexEntry => entry.cwd.components)
          (compareLex (compareOn title)
            (compareLex (compareOn parentAcpSessionId) (compareOn forkedFromAcpSessionId))) a b) := by
    unfold SessionIndexEntry.cmp AgentSessionId.cmp
    simp only [compareLex, Ordering.then_assoc]
    rfl
  unfold le at h
  rw [hcmp] at h
  cases hid : AgentSessionId.cmp a.identity b.identity with
  | lt => rfl
  | eq => rfl
  | gt =>
    rw [hid] at h
    contradiction

theorem pairwise_dedupSessions {entries : List SessionIndexEntry}
    (h : entries.Pairwise (SessionIndexEntry.le · ·))
    : (dedupSessions entries).Pairwise fun a b => a.identity ≠ b.identity := by
  induction entries with
  | nil => exact .nil
  | cons entry entries ih =>
    rw [List.pairwise_cons] at h
    have hrest := ih h.2
    have hsorted := h.2.sublist (dedupSessions_sublist entries)
    have hmem := (dedupSessions_sublist entries).subset
    unfold dedupSessions
    split
    . exact List.pairwise_singleton _ _
    . next next kept heq =>
      rw [heq] at hrest hsorted hmem
      split
      . next hsame =>
        rw [SessionIndexEntry.isSession_iff] at hsame
        rw [List.pairwise_cons] at hrest ⊢
        rw [← hsame]
        exact hrest
      . next hother =>
        rw [SessionIndexEntry.isSession_iff] at hother
        rw [List.pairwise_cons]
        refine ⟨?_, hrest⟩
        intro later hlater hid
        apply hother
        have hfirst := SessionIndexEntry.identity_isLE (h.1 next (hmem List.mem_cons_self))
        rw [List.pairwise_cons] at hsorted
        rw [List.mem_cons] at hlater
        cases hlater with
        | inl heq => rw [hid, heq]
        | inr hlater =>
          have hsecond := SessionIndexEntry.identity_isLE (hsorted.1 later hlater)
          rw [← hid] at hsecond
          exact (AgentSessionId.eq_of_cmp (Std.OrientedCmp.isLE_antisymm hfirst hsecond)).symm

theorem sanitized_sanitizeIndexEntries (entries : List SessionIndexEntry)
    : Sanitized (sanitizeIndexEntries entries) := by
  have hsorted := SessionIndexEntry.pairwise_mergeSort (entries.filter (·.valid))
  have hsublist := dedupSessions_sublist
    ((entries.filter (·.valid)).mergeSort SessionIndexEntry.le)
  unfold sanitizeIndexEntries
  constructor
  . intro entry hentry
    have hmem := hsublist.subset ((List.take_sublist _ _).subset hentry)
    rw [(List.mergeSort_perm _ _).mem_iff, List.mem_filter] at hmem
    exact hmem.2
  . exact (hsorted.sublist hsublist).sublist (List.take_sublist _ _)
  . have hpairwise := (pairwise_dedupSessions hsorted).sublist (List.take_sublist MAX_SESSIONS _)
    exact List.pairwise_map.mpr hpairwise
  . exact List.length_take_le _ _

theorem sanitized_nil : Sanitized [] := by
  refine ⟨?_, .nil, .nil, Nat.zero_le _⟩
  intro entry hentry
  contradiction

theorem sanitized_loadEntries (file : Option IndexFile) : Sanitized (loadEntries file) := by
  unfold loadEntries
  split
  . exact sanitized_nil
  . split
    . next file _ =>
      cases file.json with
      | none => exact sanitized_nil
      | some json =>
        rw [Option.map_some, Option.getD_some]
        unfold parseIndexFile
        split
        . split
          . exact sanitized_sanitizeIndexEntries _
          . exact sanitized_nil
        . exact sanitized_nil
    . exact sanitized_nil

/--
What is written is loaded again, if it is not too long.
-/
theorem loadEntries_of_written {entries : List SessionIndexEntry} (h : Sanitized entries) {json : Json}
    (hjson : indexFileJson entries = some json) (hfits : json.bytes ≤ MAX_SESSION_INDEX_BYTES)
    : loadEntries (some { bytes := json.bytes, json := some json }) = entries := by
  have hread := indexFileOfJson_indexFileJson hjson
  unfold loadEntries
  dsimp only
  rw [if_pos hfits, Option.map_some, Option.getD_some]
  unfold parseIndexFile
  rw [hread]
  exact (if_pos rfl).trans (sanitizeIndexEntries_of_sanitized h)

/-! Inserting -/

namespace DurableSessionIndex

theorem merge_valid {entry existing : SessionIndexEntry} (hentry : entry.valid)
    (hexisting : existing.valid) (hid : existing.identity = entry.identity)
    : (entry.merge existing).valid := by
  have hmerged : (entry.merge existing).identity = entry.identity := rfl
  simp only [SessionIndexEntry.valid, Bool.and_eq_true, hid, hmerged] at hentry hexisting ⊢
  refine ⟨⟨⟨hentry.1.1.1, ?_⟩, ?_⟩, ?_⟩
  . unfold SessionIndexEntry.merge
    dsimp only
    split
    . exact hexisting.1.1.2
    . exact hentry.1.1.2
  . unfold SessionIndexEntry.merge
    dsimp only
    split
    . exact hexisting.1.2
    . exact hentry.1.2
  . unfold SessionIndexEntry.merge
    dsimp only
    split
    . exact hexisting.2
    . exact hentry.2

/--
The entry of a session.
-/
def sessionOf (entries : List SessionIndexEntry) (identity : AgentSessionId)
    : Option SessionIndexEntry :=
  entries.find? (·.identity == identity)

/--
An insert keeps the sessions that are there, and adds the one of the entry if it is new.
-/
theorem sessions_insertEntry (entry : SessionIndexEntry) (entries : List SessionIndexEntry)
    : (insertEntry entry entries).1.map (·.identity)
        =
      if entry.identity ∈ entries.map (·.identity) then entries.map (·.identity)
      else entries.map (·.identity) ++ [entry.identity] := by
  induction entries with
  | nil => rfl
  | cons existing rest ih =>
    unfold insertEntry
    by_cases hsame : existing.isSession entry
    . rw [if_pos hsame]
      rw [SessionIndexEntry.isSession_iff] at hsame
      have hmem : entry.identity ∈ (existing :: rest).map (·.identity) := by
        rw [List.map_cons, hsame]
        exact List.mem_cons_self
      rw [if_pos hmem]
      dsimp only
      split
      . rfl
      . rw [List.map_cons, List.map_cons, hsame]
        rfl
    . rw [if_neg hsame]
      rw [SessionIndexEntry.isSession_iff] at hsame
      dsimp only
      rw [List.map_cons, ih]
      by_cases hmem : entry.identity ∈ rest.map (·.identity)
      . have hcons : entry.identity ∈ (existing :: rest).map (·.identity) :=
          List.mem_cons_of_mem _ hmem
        rw [if_pos hmem, if_pos hcons]
        rfl
      . rw [if_neg hmem, if_neg]
        . rfl
        . rw [List.map_cons, List.mem_cons]
          rintro (heq | hmem')
          . exact hsame heq.symm
          . exact hmem hmem'

/--
What merging keeps holds of all entries after an insert, if it holds of those before and of the new one.
-/
theorem forall_insertEntry {P : SessionIndexEntry → Prop}
    (hmerge : ∀ entry existing, P entry → P existing → existing.identity = entry.identity →
      P (entry.merge existing))
    {entry : SessionIndexEntry} {entries : List SessionIndexEntry} (hentry : P entry)
    (h : ∀ existing ∈ entries, P existing)
    : ∀ kept ∈ (insertEntry entry entries).1, P kept := by
  induction entries with
  | nil =>
    intro kept hkept
    rw [List.mem_singleton.mp hkept]
    exact hentry
  | cons existing rest ih =>
    have hexisting := h existing List.mem_cons_self
    have hrest : ∀ other ∈ rest, P other := fun other hother =>
      h other (List.mem_cons_of_mem existing hother)
    unfold insertEntry
    split
    . next hsame =>
      rw [SessionIndexEntry.isSession_iff] at hsame
      dsimp only
      split
      . exact h
      . intro kept hkept
        rw [List.mem_cons] at hkept
        cases hkept with
        | inl heq =>
          rw [heq]
          exact hmerge entry existing hentry hexisting hsame
        | inr hmem => exact hrest kept hmem
    . intro kept hkept
      rw [List.mem_cons] at hkept
      cases hkept with
      | inl heq =>
        rw [heq]
        exact hexisting
      | inr hmem => exact ih hrest kept hmem

theorem insertEntry_unchanged {entry : SessionIndexEntry} {entries : List SessionIndexEntry}
    (h : (insertEntry entry entries).2 = false)
    : (insertEntry entry entries).1 = entries := by
  induction entries with
  | nil => contradiction
  | cons existing rest ih =>
    unfold insertEntry at h ⊢
    by_cases hsame : existing.isSession entry
    . rw [if_pos hsame] at h ⊢
      dsimp only at h ⊢
      split at h
      . next hunchanged => rw [if_pos hunchanged]
      . contradiction
    . rw [if_neg hsame] at h ⊢
      dsimp only at h ⊢
      rw [ih h]

/--
What is recorded about a session: its title and its parent.
-/
def titleOf (entries : List SessionIndexEntry) (identity : AgentSessionId) : Option String :=
  (sessionOf entries identity).bind (·.title)

def parentOf (entries : List SessionIndexEntry) (identity : AgentSessionId) : Option String :=
  (sessionOf entries identity).bind (·.parentAcpSessionId)

theorem sessionOf_cons_self {entry : SessionIndexEntry} {entries : List SessionIndexEntry}
    {identity : AgentSessionId} (h : entry.identity = identity)
    : sessionOf (entry :: entries) identity = some entry := by
  have hfound : (entry.identity == identity) = true := beq_iff_eq.mpr h
  unfold sessionOf
  rw [List.find?_cons, hfound]

theorem sessionOf_cons_of_ne {entry : SessionIndexEntry} {entries : List SessionIndexEntry}
    {identity : AgentSessionId} (h : entry.identity ≠ identity)
    : sessionOf (entry :: entries) identity = sessionOf entries identity := by
  unfold sessionOf
  rw [List.find?_cons_of_neg]
  rw [beq_iff_eq]
  exact h

theorem sessionOf_insertEntry_of_ne {entry : SessionIndexEntry} {identity : AgentSessionId}
    (hne : entry.identity ≠ identity) (entries : List SessionIndexEntry)
    : sessionOf (insertEntry entry entries).1 identity = sessionOf entries identity := by
  induction entries with
  | nil => exact sessionOf_cons_of_ne hne
  | cons existing rest ih =>
    unfold insertEntry
    by_cases hsame : existing.isSession entry
    . rw [if_pos hsame]
      rw [SessionIndexEntry.isSession_iff] at hsame
      have hother : existing.identity ≠ identity := by
        rw [hsame]
        exact hne
      dsimp only
      split
      . rfl
      . rw [sessionOf_cons_of_ne hother]
        exact sessionOf_cons_of_ne hne
    . rw [if_neg hsame]
      dsimp only
      by_cases hid : existing.identity = identity
      . rw [sessionOf_cons_self hid, sessionOf_cons_self hid]
      . rw [sessionOf_cons_of_ne hid, sessionOf_cons_of_ne hid, ih]

/--
A title that is given replaces the one that is there; a parent that is there stays.
-/
theorem sessionOf_insertEntry_self (entry : SessionIndexEntry) (entries : List SessionIndexEntry)
    : ∃ kept, sessionOf (insertEntry entry entries).1 entry.identity = some kept
        ∧ kept.title = entry.title.or (titleOf entries entry.identity)
        ∧ kept.parentAcpSessionId
          = (parentOf entries entry.identity).or entry.parentAcpSessionId := by
  induction entries with
  | nil =>
    refine ⟨entry, sessionOf_cons_self rfl, ?_, ?_⟩
    . exact (Option.or_none).symm
    . rfl
  | cons existing rest ih =>
    unfold insertEntry
    by_cases hsame : existing.isSession entry
    . rw [if_pos hsame]
      rw [SessionIndexEntry.isSession_iff] at hsame
      unfold titleOf parentOf
      rw [sessionOf_cons_self hsame, Option.bind_some, Option.bind_some]
      have htitle : (entry.merge existing).title = entry.title.or existing.title := by
        unfold SessionIndexEntry.merge
        cases entry.title <;> rfl
      have hparent : (entry.merge existing).parentAcpSessionId
          = existing.parentAcpSessionId.or entry.parentAcpSessionId := by
        unfold SessionIndexEntry.merge
        cases existing.parentAcpSessionId <;> cases entry.parentAcpSessionId <;> rfl
      dsimp only
      split
      . next hunchanged =>
        simp only [SessionIndexEntry.same, Bool.and_eq_true, beq_iff_eq] at hunchanged
        refine ⟨existing, sessionOf_cons_self hsame, ?_, ?_⟩
        . rw [← htitle]
          exact hunchanged.1.1.2
        . rw [← hparent]
          exact hunchanged.1.2
      . exact ⟨entry.merge existing, sessionOf_cons_self rfl, htitle, hparent⟩
    . rw [if_neg hsame]
      rw [SessionIndexEntry.isSession_iff] at hsame
      unfold titleOf parentOf at ih ⊢
      dsimp only
      rw [sessionOf_cons_of_ne hsame, sessionOf_cons_of_ne hsame]
      exact ih

/-! Inserting several -/

def entriesOf (entries : List SessionIndexEntry) (identity : AgentSessionId)
    : List SessionIndexEntry :=
  entries.filter (·.identity == identity)

/--
The title a session has once the entries are inserted: the last one that is given.
-/
def mergedTitle (entries inserted : List SessionIndexEntry) (identity : AgentSessionId)
    : Option String :=
  ((entriesOf inserted identity).filterMap (·.title)).getLast?.or (titleOf entries identity)

/--
The parent a session has once the entries are inserted: the first one that is given.
-/
def mergedParent (entries inserted : List SessionIndexEntry) (identity : AgentSessionId)
    : Option String :=
  (parentOf entries identity).or ((entriesOf inserted identity).filterMap (·.parentAcpSessionId)).head?

theorem entriesOf_cons_self (entry : SessionIndexEntry) (entries : List SessionIndexEntry)
    : entriesOf (entry :: entries) entry.identity
        =
      entry :: entriesOf entries entry.identity := by
  have hself : (entry.identity == entry.identity) = true := beq_self_eq_true _
  unfold entriesOf
  rw [List.filter_cons, if_pos hself]

theorem entriesOf_cons_of_ne {entry : SessionIndexEntry} {identity : AgentSessionId}
    (h : entry.identity ≠ identity) (entries : List SessionIndexEntry)
    : entriesOf (entry :: entries) identity = entriesOf entries identity := by
  unfold entriesOf
  rw [List.filter_cons_of_neg]
  rw [beq_iff_eq]
  exact h

theorem mergedTitle_cons (entries : List SessionIndexEntry) (entry : SessionIndexEntry)
    (inserted : List SessionIndexEntry) (identity : AgentSessionId)
    : mergedTitle entries (entry :: inserted) identity
        =
      mergedTitle (insertEntry entry entries).1 inserted identity := by
  unfold mergedTitle
  by_cases hid : entry.identity = identity
  . subst hid
    rcases sessionOf_insertEntry_self entry entries with ⟨kept, hkept, htitle, -⟩
    have hnew : titleOf (insertEntry entry entries).1 entry.identity
        = entry.title.or (titleOf entries entry.identity) := by
      rw [← htitle]
      unfold titleOf
      rw [hkept]
      rfl
    rw [entriesOf_cons_self, hnew]
    cases htitle : entry.title with
    | none =>
      rw [List.filterMap_cons_none htitle]
      rfl
    | some title =>
      rw [List.filterMap_cons_some htitle, List.getLast?_cons]
      cases (List.filterMap (·.title) (entriesOf inserted entry.identity)).getLast? <;> rfl
  . have hsame : titleOf (insertEntry entry entries).1 identity = titleOf entries identity := by
      unfold titleOf
      rw [sessionOf_insertEntry_of_ne hid]
    rw [hsame, entriesOf_cons_of_ne hid]

theorem mergedParent_cons (entries : List SessionIndexEntry) (entry : SessionIndexEntry)
    (inserted : List SessionIndexEntry) (identity : AgentSessionId)
    : mergedParent entries (entry :: inserted) identity
        =
      mergedParent (insertEntry entry entries).1 inserted identity := by
  unfold mergedParent
  by_cases hid : entry.identity = identity
  . subst hid
    rcases sessionOf_insertEntry_self entry entries with ⟨kept, hkept, -, hparent⟩
    have hnew : parentOf (insertEntry entry entries).1 entry.identity
        = (parentOf entries entry.identity).or entry.parentAcpSessionId := by
      rw [← hparent]
      unfold parentOf
      rw [hkept]
      rfl
    rw [entriesOf_cons_self, hnew, Option.or_assoc]
    cases hparent : entry.parentAcpSessionId with
    | none =>
      rw [List.filterMap_cons_none hparent]
      rfl
    | some parent =>
      rw [List.filterMap_cons_some hparent]
      rfl
  . have hsame : parentOf (insertEntry entry entries).1 identity = parentOf entries identity := by
      unfold parentOf
      rw [sessionOf_insertEntry_of_ne hid]
    rw [hsame, entriesOf_cons_of_ne hid]

theorem titleOf_stage (entries inserted : List SessionIndexEntry) (identity : AgentSessionId)
    : titleOf (stage entries inserted).1 identity = mergedTitle entries inserted identity := by
  induction inserted generalizing entries with
  | nil => rfl
  | cons entry inserted ih =>
    rw [mergedTitle_cons, ← ih]
    rfl

theorem parentOf_stage (entries inserted : List SessionIndexEntry) (identity : AgentSessionId)
    : parentOf (stage entries inserted).1 identity = mergedParent entries inserted identity := by
  induction inserted generalizing entries with
  | nil => exact (Option.or_none).symm
  | cons entry inserted ih =>
    rw [mergedParent_cons, ← ih]
    rfl

theorem stage_unchanged {entries inserted : List SessionIndexEntry}
    (h : (stage entries inserted).2 = false)
    : (stage entries inserted).1 = entries := by
  induction inserted generalizing entries with
  | nil => rfl
  | cons entry inserted ih =>
    unfold stage at h ⊢
    dsimp only at h ⊢
    rw [Bool.or_eq_false_iff] at h
    rw [ih h.2, insertEntry_unchanged h.1]

theorem mem_sessions_insertEntry (entry : SessionIndexEntry) (entries : List SessionIndexEntry)
    (identity : AgentSessionId)
    : identity ∈ (insertEntry entry entries).1.map (·.identity)
        ↔
      identity ∈ entries.map (·.identity) ∨ identity = entry.identity := by
  rw [sessions_insertEntry]
  split
  . next hmem =>
    constructor
    . exact Or.inl
    . rintro (h | rfl)
      . exact h
      . exact hmem
  . rw [List.mem_append, List.mem_singleton]

theorem nodup_insertEntry (entry : SessionIndexEntry) {entries : List SessionIndexEntry}
    (h : (entries.map (·.identity)).Nodup)
    : ((insertEntry entry entries).1.map (·.identity)).Nodup := by
  rw [sessions_insertEntry]
  split
  . exact h
  . next hmem =>
    rw [List.nodup_append]
    refine ⟨h, List.nodup_cons.mpr ⟨List.not_mem_nil, .nil⟩, ?_⟩
    intro a ha b hb heq
    rw [List.mem_singleton] at hb
    rw [heq, hb] at ha
    exact hmem ha

theorem mem_sessions_stage (entries inserted : List SessionIndexEntry) (identity : AgentSessionId)
    : identity ∈ (stage entries inserted).1.map (·.identity)
        ↔
      identity ∈ (entries ++ inserted).map (·.identity) := by
  induction inserted generalizing entries with
  | nil => rw [List.append_nil, stage]
  | cons entry inserted ih =>
    unfold stage
    dsimp only
    rw [ih, List.map_append, List.map_append, List.mem_append, List.mem_append,
      mem_sessions_insertEntry, List.map_cons, List.mem_cons, or_assoc]

theorem nodup_stage {entries : List SessionIndexEntry} (inserted : List SessionIndexEntry)
    (h : (entries.map (·.identity)).Nodup)
    : ((stage entries inserted).1.map (·.identity)).Nodup := by
  induction inserted generalizing entries with
  | nil => exact h
  | cons entry inserted ih => exact ih (nodup_insertEntry entry h)

theorem forall_stage {P : SessionIndexEntry → Prop}
    (hmerge : ∀ entry existing, P entry → P existing → existing.identity = entry.identity →
      P (entry.merge existing))
    {entries inserted : List SessionIndexEntry} (hinserted : ∀ entry ∈ inserted, P entry)
    (h : ∀ existing ∈ entries, P existing)
    : ∀ kept ∈ (stage entries inserted).1, P kept := by
  induction inserted generalizing entries with
  | nil => exact h
  | cons entry inserted ih =>
    have hentry := hinserted entry List.mem_cons_self
    apply ih
    . intro other hother
      exact hinserted other (List.mem_cons_of_mem entry hother)
    . exact forall_insertEntry hmerge hentry h

theorem valid_stage {entries inserted : List SessionIndexEntry}
    (hinserted : ∀ entry ∈ inserted, entry.valid) (h : ∀ existing ∈ entries, existing.valid)
    : ∀ kept ∈ (stage entries inserted).1, kept.valid :=
  forall_stage (fun _ _ => merge_valid) hinserted h

/-! Dropping the first of too many -/

theorem bounded_sublist (staged : List SessionIndexEntry)
    : (bounded staged).Sublist (staged.mergeSort SessionIndexEntry.le) :=
  List.drop_sublist _ _

theorem length_bounded_le (staged : List SessionIndexEntry) : (bounded staged).length ≤ MAX_SESSIONS := by
  unfold bounded
  rw [List.length_drop]
  omega

theorem sanitized_bounded {staged : List SessionIndexEntry} (hvalid : ∀ entry ∈ staged, entry.valid)
    (hnodup : (staged.map (·.identity)).Nodup)
    : Sanitized (bounded staged) := by
  have hperm := List.mergeSort_perm staged SessionIndexEntry.le
  have hsublist := bounded_sublist staged
  constructor
  . intro entry hentry
    exact hvalid entry (hperm.mem_iff.mp (hsublist.subset hentry))
  . exact (SessionIndexEntry.pairwise_mergeSort staged).sublist hsublist
  . exact ((hperm.map _).nodup_iff.mpr hnodup).sublist (hsublist.map _)
  . exact length_bounded_le staged

/--
What is not kept stands before all that is, and as many are kept as there may be.
-/
theorem mem_bounded_or {staged : List SessionIndexEntry} {entry : SessionIndexEntry}
    (h : entry ∈ staged)
    : entry ∈ bounded staged
        ∨ (bounded staged).length = MAX_SESSIONS ∧ ∀ kept ∈ bounded staged, entry.le kept := by
  have hsorted := SessionIndexEntry.pairwise_mergeSort staged
  rw [← (List.mergeSort_perm staged SessionIndexEntry.le).mem_iff] at h
  unfold bounded
  dsimp only
  generalize staged.mergeSort SessionIndexEntry.le = sorted at h hsorted
  rw [← List.take_append_drop (sorted.length - MAX_SESSIONS) sorted] at h hsorted
  rw [List.pairwise_append] at hsorted
  rw [List.mem_append] at h
  cases h with
  | inl hdropped =>
    right
    constructor
    . have hlength := List.length_pos_of_mem hdropped
      rw [List.length_take] at hlength
      rw [List.length_drop]
      omega
    . exact hsorted.2.2 entry hdropped
  | inr hkept => exact .inl hkept

theorem sessionOf_of_mem {entries : List SessionIndexEntry}
    (hnodup : (entries.map (·.identity)).Nodup) {entry : SessionIndexEntry} (h : entry ∈ entries)
    : sessionOf entries entry.identity = some entry := by
  induction entries with
  | nil => contradiction
  | cons existing rest ih =>
    rw [List.map_cons, List.nodup_cons] at hnodup
    rw [List.mem_cons] at h
    cases h with
    | inl heq =>
      rw [heq]
      exact sessionOf_cons_self rfl
    | inr hmem =>
      rw [sessionOf_cons_of_ne]
      . exact ih hnodup.2 hmem
      . intro heq
        apply hnodup.1
        rw [heq]
        exact List.mem_map_of_mem hmem

/-! Runs -/

/--
The entries are as a loader leaves them, and a loader that reads the file now finds them.
-/
structure Durable (s : DurableSessionIndex) : Prop where
  sanitized : Sanitized s.entries
  loads : s.hasPath → loadEntries s.file = s.entries

/--
The session has what was recorded before and what the inserted entries add to it.
-/
def Recorded (before inserted after : List SessionIndexEntry) (identity : AgentSessionId) : Prop :=
  ∃ kept, sessionOf after identity = some kept
    ∧ kept.title = mergedTitle before inserted identity
    ∧ kept.parentAcpSessionId = mergedParent before inserted identity

/--
The index is full, with sessions that all come after this one.
-/
def Outrun (after : List SessionIndexEntry) (identity : AgentSessionId) : Prop :=
  after.length = MAX_SESSIONS
    ∧ ∀ kept ∈ after, AgentSessionId.cmp identity kept.identity = .lt

/--
What a step writes is not too long to be read.
-/
def Fits (s s' : DurableSessionIndex) : Prop :=
  s.hasPath → s' ≠ s → ∀ file ∈ s'.file, file.bytes ≤ MAX_SESSION_INDEX_BYTES

/--
Valid entries are inserted, and what is written can be read.
-/
def Allowed (s : DurableSessionIndex) (label : IndexLabel) : Prop :=
  match label with
  | .load => True
  | .insertEntries entries writes =>
    (∀ entry ∈ entries, entry.valid) ∧ s.Fits (s.insertEntries entries writes).1
  | .removeAll identities writes => s.Fits (s.removeAll identities writes).1

variable {s s' : DurableSessionIndex}

theorem durable_load (hasPath : Bool) (file : Option IndexFile) : (load hasPath file).Durable := by
  unfold load
  cases hasPath with
  | false => exact ⟨sanitized_nil, fun h => absurd h Bool.false_ne_true⟩
  | true => exact ⟨sanitized_loadEntries file, fun _ => rfl⟩

theorem hasPath_persist (s : DurableSessionIndex) (staged : List SessionIndexEntry) (writes : Bool)
    : (s.persist staged writes).1.hasPath = s.hasPath := by
  unfold persist
  split
  . split
    . rfl
    . split <;> rfl
  . rfl

theorem hasPath_insertEntries (s : DurableSessionIndex) (entries : List SessionIndexEntry)
    (writes : Bool)
    : (s.insertEntries entries writes).1.hasPath = s.hasPath := by
  unfold insertEntries
  dsimp only
  split
  . exact hasPath_persist s _ writes
  . rfl

theorem durable_persist (h : s.Durable) {staged : List SessionIndexEntry} (hstaged : Sanitized staged)
    {writes : Bool} (hfits : s.Fits (s.persist staged writes).1)
    : (s.persist staged writes).1.Durable := by
  by_cases hsame : (s.persist staged writes).1 = s
  . rw [hsame]
    exact h
  . by_cases hpath : s.hasPath
    . have hread := hfits hpath hsame
      unfold persist at hread hsame ⊢
      rw [if_pos hpath] at hread hsame ⊢
      cases hjson : indexFileJson staged with
      | none =>
        rw [hjson] at hsame
        contradiction
      | some json =>
        rw [hjson] at hread hsame
        dsimp only at hread hsame ⊢
        by_cases hwrites : writes
        . rw [if_pos hwrites] at hread ⊢
          exact ⟨hstaged, fun _ => loadEntries_of_written hstaged hjson (hread _ rfl)⟩
        . rw [if_neg hwrites] at hsame
          contradiction
    . unfold persist
      rw [if_neg hpath]
      exact ⟨hstaged, fun hpath' => absurd hpath' hpath⟩

theorem persist_ok {staged : List SessionIndexEntry} {writes : Bool}
    (h : (s.persist staged writes).2 = true)
    : (s.persist staged writes).1.entries = staged := by
  unfold persist at h ⊢
  by_cases hpath : s.hasPath
  . rw [if_pos hpath] at h ⊢
    cases hjson : indexFileJson staged with
    | none =>
      rw [hjson] at h
      contradiction
    | some json =>
      rw [hjson] at h
      dsimp only at h ⊢
      split
      . rfl
      . next hwrites =>
        rw [if_neg hwrites] at h
        contradiction
  . rw [if_neg hpath]

theorem durable_insertEntries (h : s.Durable) {entries : List SessionIndexEntry} {writes : Bool}
    (hvalid : ∀ entry ∈ entries, entry.valid) (hfits : s.Fits (s.insertEntries entries writes).1)
    : (s.insertEntries entries writes).1.Durable := by
  unfold insertEntries at hfits ⊢
  dsimp only at hfits ⊢
  split
  . next hchanged =>
    rw [if_pos hchanged] at hfits
    apply durable_persist h _ hfits
    apply sanitized_bounded
    . exact valid_stage hvalid h.sanitized.valid
    . exact nodup_stage entries h.sanitized.sessions
  . exact h

theorem durable_removeAll (h : s.Durable) {identities : List AgentSessionId} {writes : Bool}
    (hfits : s.Fits (s.removeAll identities writes).1)
    : (s.removeAll identities writes).1.Durable := by
  unfold removeAll at hfits ⊢
  dsimp only at hfits ⊢
  split
  . exact h
  . next hremoved =>
    rw [if_neg hremoved] at hfits
    exact durable_persist h (h.sanitized.sublist List.filter_sublist) hfits

theorem durable_step {label : IndexLabel} (h : s.Durable) (hallowed : s.Allowed label)
    (hstep : s.step label = some s')
    : s'.Durable := by
  cases label with
  | load =>
    injection hstep with hstep
    rw [← hstep]
    exact durable_load s.hasPath s.file
  | insertEntries entries writes =>
    injection hstep with hstep
    rw [← hstep]
    exact durable_insertEntries h hallowed.1 hallowed.2
  | removeAll identities writes =>
    injection hstep with hstep
    rw [← hstep]
    exact durable_removeAll h hallowed

/-! What an insert acknowledges -/

theorem recorded_of_mem {before inserted after : List SessionIndexEntry}
    (hnodup : (after.map (·.identity)).Nodup) (hstaged : ((stage before inserted).1.map (·.identity)).Nodup)
    {kept : SessionIndexEntry} (hkept : kept ∈ (stage before inserted).1) (hafter : kept ∈ after)
    : Recorded before inserted after kept.identity := by
  have hfound := sessionOf_of_mem hstaged hkept
  refine ⟨kept, sessionOf_of_mem hnodup hafter, ?_, ?_⟩
  . rw [← titleOf_stage, titleOf, hfound, Option.bind_some]
  . rw [← parentOf_stage, parentOf, hfound, Option.bind_some]

/--
A session that was there or is inserted is recorded, if it is not one of the first of too many.
-/
theorem recorded_or_outrun (h : s.Durable) {entries : List SessionIndexEntry} {writes : Bool}
    (hok : (s.insertEntries entries writes).2 = true) {identity : AgentSessionId}
    (hidentity : identity ∈ (s.entries ++ entries).map (·.identity))
    : Recorded s.entries entries (s.insertEntries entries writes).1.entries identity
        ∨ Outrun (s.insertEntries entries writes).1.entries identity := by
  have hnodup := nodup_stage entries h.sanitized.sessions
  rw [← mem_sessions_stage, List.mem_map] at hidentity
  rcases hidentity with ⟨kept, hkept, rfl⟩
  unfold insertEntries at hok ⊢
  dsimp only at hok ⊢
  by_cases hchanged : (stage s.entries entries).2
  . rw [if_pos hchanged] at hok ⊢
    rw [persist_ok hok]
    have hperm := List.mergeSort_perm (stage s.entries entries).1 SessionIndexEntry.le
    have hbounded : ((bounded (stage s.entries entries).1).map (·.identity)).Nodup :=
      ((hperm.map _).nodup_iff.mpr hnodup).sublist ((bounded_sublist _).map _)
    by_cases hmem : kept ∈ bounded (stage s.entries entries).1
    . left
      exact recorded_of_mem hbounded hnodup hkept hmem
    . right
      cases mem_bounded_or hkept with
      | inl hmem' => exact absurd hmem' hmem
      | inr hfull =>
        refine ⟨hfull.1, ?_⟩
        intro later hlater
        have hle := SessionIndexEntry.identity_isLE (hfull.2 later hlater)
        cases hcmp : AgentSessionId.cmp kept.identity later.identity with
        | lt => rfl
        | gt =>
          rw [hcmp] at hle
          exact absurd hle Bool.false_ne_true
        | eq =>
          have hlater' := (bounded_sublist _).subset hlater
          rw [hperm.mem_iff] at hlater'
          have hfound := sessionOf_of_mem hnodup hlater'
          rw [← AgentSessionId.eq_of_cmp hcmp, sessionOf_of_mem hnodup hkept] at hfound
          injection hfound with hfound
          rw [← hfound] at hlater
          exact absurd hlater hmem
  . rw [if_neg hchanged]
    left
    rw [Bool.not_eq_true] at hchanged
    apply recorded_of_mem h.sanitized.sessions hnodup hkept
    rw [← stage_unchanged hchanged]
    exact hkept

/--
After every run, an insert that answers that it succeeded has recorded every session that was there and
every one that it inserts, if it is not one of the first of too many, and they are loaded again.
-/
theorem durable_of_exec {hasPath : Bool} {file : Option IndexFile} {labels : List IndexLabel}
    {entries : List SessionIndexEntry} {writes : Bool}
    (hmeets : Meets step Allowed (load hasPath file) (labels ++ [.insertEntries entries writes]))
    (hexec : exec step (load hasPath file) labels = some s)
    (hok : (s.insertEntries entries writes).2 = true)
    : (s.hasPath →
        loadEntries (s.insertEntries entries writes).1.file = (s.insertEntries entries writes).1.entries)
      ∧ ∀ identity ∈ (s.entries ++ entries).map (·.identity),
        Recorded s.entries entries (s.insertEntries entries writes).1.entries identity
          ∨ Outrun (s.insertEntries entries writes).1.entries identity := by
  rcases meets_append hmeets hexec with ⟨hmeets, hallowed, -⟩
  have hdurable := exec_invariant (fun _ _ _ => durable_step) (durable_load hasPath file) hmeets hexec
  refine ⟨?_, fun _ => recorded_or_outrun hdurable hok⟩
  intro hpath
  apply (durable_insertEntries hdurable hallowed.1 hallowed.2).loads
  rw [hasPath_insertEntries]
  exact hpath

def session (acpSessionId : String) : SessionIndexEntry where
  agentId := "a"
  acpSessionId
  cwd := .ofString "/"

/--
A session is listed, and then again with a title.
-/
theorem durable_of_title
    : let listed := ((load true none).insertEntries [session "s"] true).1
      let inserted := [{ session "s" with title := some "Fix" }]
      (listed.hasPath →
        loadEntries (listed.insertEntries inserted true).1.file
          = (listed.insertEntries inserted true).1.entries)
      ∧ ∀ identity ∈ (listed.entries ++ inserted).map (·.identity),
        Recorded listed.entries inserted (listed.insertEntries inserted true).1.entries identity
          ∨ Outrun (listed.insertEntries inserted true).1.entries identity := by
  intro listed inserted
  apply @durable_of_exec listed true none [.insertEntries [session "s"] true] inserted true
  . refine ⟨⟨by decide +kernel, fun _ _ => by decide +kernel⟩, ?_⟩
    intro t hstep
    injection hstep with hstep
    rw [← hstep]
    exact ⟨⟨by decide +kernel, fun _ _ => by decide +kernel⟩, fun _ _ => trivial⟩
  . rfl
  . decide +kernel

/-! Too many sessions -/

/--
One session more than are kept.
-/
def manySessions : List SessionIndexEntry :=
  (List.range (MAX_SESSIONS + 1)).map fun n => session (toString n)

theorem valid_session {n : Nat} (h : n < 10000) : (session (toString n)).valid := by
  have hsize : (toString n).utf8ByteSize ≤ MAX_COMPONENT_BYTES :=
    Nat.le_trans (Text.utf8ByteSize_repr_le 3 n h) (by decide)
  have hnonempty : (toString n).isEmpty = false := by
    rw [← Bool.not_eq_true, String.isEmpty_iff]
    exact Nat.repr_ne_empty
  have hzero : (toString n).toList.contains '\x00' = false := by
    rw [← Bool.not_eq_true, List.contains_iff_mem]
    intro hmem
    exact absurd (Text.isDigit_of_mem_repr hmem) (by decide)
  have hagent : "a".isEmpty = false ∧ "a".utf8ByteSize ≤ MAX_COMPONENT_BYTES
      ∧ "a".toList.all AgentSessionId.isAgentIdChar := by
    decide
  have hid : (session (toString n)).identity.validate := by
    simp only [AgentSessionId.validate, session, SessionIndexEntry.identity, hagent, hnonempty, hsize,
      hzero, Nat.not_lt.mpr]
    rfl
  have hcwd : (PathBuf.ofString "/").isAbsolute
      ∧ (PathBuf.ofString "/").bytes.length ≤ MAX_SESSION_CWD_BYTES := by
    decide +kernel
  have hnew : (AgentSessionId.new "a" (toString n)).isSome := by
    unfold AgentSessionId.new
    split
    . rfl
    . contradiction
  simp only [SessionIndexEntry.valid, session, hnew, hcwd, decide_true, Option.all_none, Bool.and_true]

theorem forall_manySessions {P : SessionIndexEntry → Prop}
    (h : ∀ n < MAX_SESSIONS + 1, P (session (toString n)))
    : ∀ entry ∈ manySessions, P entry := by
  intro entry hentry
  unfold manySessions at hentry
  rw [List.mem_map] at hentry
  rcases hentry with ⟨n, hn, rfl⟩
  exact h n (List.mem_range.mp hn)

theorem nodup_manySessions : (manySessions.map (·.identity)).Nodup := by
  unfold manySessions
  rw [List.map_map]
  apply List.Pairwise.map _ _ List.nodup_range
  intro a b hne h
  injection h with hagent hsession
  exact hne (Text.repr_injective hsession)

theorem indexFileJson_isSome {entries : List SessionIndexEntry}
    (h : ∀ entry ∈ entries, entry.cwd.toStr.isSome)
    : (indexFileJson entries).isSome := by
  unfold indexFileJson
  rw [Option.isSome_map]
  induction entries with
  | nil => rfl
  | cons entry entries ih =>
    have hentry : entry.toJson.isSome := by
      unfold SessionIndexEntry.toJson
      rw [Option.isSome_map]
      exact h entry List.mem_cons_self
    have hentries := ih fun other hother => h other (List.mem_cons_of_mem entry hother)
    rw [Option.isSome_iff_exists] at hentry hentries
    rcases hentry with ⟨json, hjson⟩
    rcases hentries with ⟨sessions, hsessions⟩
    rw [List.mapM_cons, hjson, hsessions]
    rfl

theorem persist_writes {staged : List SessionIndexEntry}
    (h : ∀ entry ∈ staged, entry.cwd.toStr.isSome)
    : (s.persist staged true).2 = true := by
  have hjson := indexFileJson_isSome h
  rw [Option.isSome_iff_exists] at hjson
  rcases hjson with ⟨json, hjson⟩
  unfold persist
  rw [hjson]
  split <;> rfl

theorem insertEntries_writes {entries : List SessionIndexEntry}
    (hentries : ∀ entry ∈ entries, entry.cwd.toStr.isSome)
    (h : ∀ entry ∈ s.entries, entry.cwd.toStr.isSome)
    : (s.insertEntries entries true).2 = true := by
  unfold insertEntries
  dsimp only
  split
  . apply persist_writes
    intro entry hentry
    have hmem := (List.mergeSort_perm _ _).mem_iff.mp ((bounded_sublist _).subset hentry)
    apply @forall_stage (fun entry => entry.cwd.toStr.isSome) _ s.entries entries hentries h entry hmem
    exact fun _ _ hentry _ _ => hentry
  . rfl

theorem insertEntries_manySessions
    : ((load true none).insertEntries manySessions true).2 = true := by
  have hroot : (PathBuf.ofString "/").toStr.isSome := by
    decide +kernel
  apply insertEntries_writes
  . exact forall_manySessions fun _ _ => hroot
  . intro entry hentry
    exact absurd hentry List.not_mem_nil

theorem length_insertEntries_le (hlength : s.entries.length ≤ MAX_SESSIONS)
    {entries : List SessionIndexEntry} {writes : Bool} (hok : (s.insertEntries entries writes).2 = true)
    : (s.insertEntries entries writes).1.entries.length ≤ MAX_SESSIONS := by
  unfold insertEntries at hok ⊢
  dsimp only at hok ⊢
  split
  . next hchanged =>
    rw [if_pos hchanged] at hok
    rw [persist_ok hok]
    exact length_bounded_le _
  . exact hlength

/--
All are inserted into an empty index, which answers that it succeeded and forgets one of them.
-/
theorem not_recorded_of_manySessions
    : (∀ entry ∈ manySessions, entry.valid)
        ∧ ((load true none).insertEntries manySessions true).2 = true
        ∧ ¬∀ entry ∈ manySessions,
          (sessionOf ((load true none).insertEntries manySessions true).1.entries
            entry.identity).isSome := by
  have hvalid : ∀ n < MAX_SESSIONS + 1, (session (toString n)).valid := by
    intro n hn
    unfold MAX_SESSIONS at hn
    apply valid_session
    omega
  refine ⟨forall_manySessions hvalid, insertEntries_manySessions, ?_⟩
  intro hall
  have hempty : (load true none).entries.length ≤ MAX_SESSIONS := Nat.zero_le _
  have hlength := length_insertEntries_le hempty insertEntries_manySessions
  generalize ((load true none).insertEntries manySessions true).1.entries = kept at hall hlength
  have hsubset : manySessions.map (·.identity) ⊆ kept.map (·.identity) := by
    intro identity hidentity
    rw [List.mem_map] at hidentity
    rcases hidentity with ⟨entry, hentry, rfl⟩
    have hfound := hall entry hentry
    unfold sessionOf at hfound
    rw [List.find?_isSome] at hfound
    rcases hfound with ⟨found, hmem, heq⟩
    rw [beq_iff_eq] at heq
    rw [← heq]
    exact List.mem_map_of_mem hmem
  have hle := (nodup_manySessions.subperm hsubset).length_le
  rw [List.length_map, List.length_map] at hle
  have hmany : manySessions.length = MAX_SESSIONS + 1 := by
    unfold manySessions
    rw [List.length_map, List.length_range]
  omega

end DurableSessionIndex

end Acp
