import TetherBridge.Mobile.ChatSnapshotFields
import TetherBridge.Transition.Basic

/-!
This module contains what holds of the snapshots in every run of updates: they are bounded in number and in bytes, the
selected chat stays, and what is written is read back.
-/

namespace Mobile

namespace ChatSnapshots

/-! Bytes -/

def ChatSnapshotCache.header (cache : ChatSnapshotCache) : ChatSnapshotCache :=
  { cache with entries := [] }

/--
What is written before the entries.
-/
def ChatSnapshotCache.opening (cache : ChatSnapshotCache) : List Char :=
  '\x7b' :: [','].intercalate (Js.stringifyFields
    [("version", .number CHAT_SNAPSHOT_CACHE_VERSION), ("profileId", .string cache.profileId),
      ("selectedChatId", cache.selectedChatId.elim .null .string), ("updatedAt", .string cache.updatedAt)])
    ++ ',' :: Js.stringifyString "entries" ++ [':', '[']

theorem stringify_toJson (cache : ChatSnapshotCache)
    : Js.stringify cache.toJson
        = cache.opening ++ [','].intercalate (cache.entries.map fun entry => Js.stringify entry.toJson)
          ++ [']', '\x7d'] := by
  unfold ChatSnapshotCache.toJson ChatSnapshotCache.opening
  rw [Js.stringify]
  simp only [Js.stringifyFields, Js.stringify, Js.stringifyArray, Js.stringifyValues_eq_map, List.map_map,
    List.intercalate_cons_cons, List.intercalate_singleton, List.append_assoc, List.cons_append, List.nil_append]
  rfl

theorem bytes_eq (cache : ChatSnapshotCache)
    : cache.bytes = cache.header.bytes + cache.entries.joinedCost ChatSnapshotCacheEntry.bytes 0 := by
  have hcost : (cache.entries.map fun entry => Js.stringify entry.toJson).joinedCost Js.utf8ByteLength 0
      = cache.entries.joinedCost ChatSnapshotCacheEntry.bytes 0 := List.joinedCost_map _ 0 cache.entries
  have hheader : Js.stringify cache.header.toJson = cache.opening ++ [] ++ [']', '\x7d'] :=
    stringify_toJson cache.header
  unfold ChatSnapshotCache.bytes
  rw [stringify_toJson, hheader]
  simp only [Js.utf8ByteLength_append, Js.utf8ByteLength_intercalate, Js.utf8ByteLength_nil, hcost]
  omega

/-! Ranking -/

/--
Sorting does not move the entries among which the order is right.
-/
theorem filter_sortEntries {compare : ChatSnapshotCacheEntry → ChatSnapshotCacheEntry → Ordering}
    (htrans : ∀ a b c, (compare a b).isLE → (compare b c).isLE → (compare a c).isLE)
    (htotal : ∀ a b, ((compare a b).isLE || (compare b a).isLE) = true) (q : ChatSnapshotCacheEntry → Bool)
    (entries : List ChatSnapshotCacheEntry) (h : (entries.filter q).Pairwise fun a b => (compare a b).isLE)
    : (sortEntries compare entries).filter q = entries.filter q :=
  List.filter_mergeSort htrans htotal h

section

variable {p : Platform} (hp : p.Lawful)
include hp

theorem compareAccess_trans (a b c : ChatSnapshotCacheEntry) (hab : (compareAccess p a b).isLE)
    (hbc : (compareAccess p b c).isLE)
    : (compareAccess p a c).isLE :=
  hp.localeCompare_trans _ _ _ hbc hab

theorem compareAccess_total (a b : ChatSnapshotCacheEntry)
    : ((compareAccess p a b).isLE || (compareAccess p b a).isLE) = true := by
  rw [Bool.or_eq_true]
  exact (hp.localeCompare_total b.lastAccessedAt a.lastAccessedAt)

theorem compareEntries_trans (selected : Option String) (a b c : ChatSnapshotCacheEntry)
    (hab : (compareEntries p selected a b).isLE) (hbc : (compareEntries p selected b c).isLE)
    : (compareEntries p selected a c).isLE := by
  unfold compareEntries at hab hbc ⊢
  cases ha : a.hasId selected with
  | true => rfl
  | false =>
    cases hb : b.hasId selected with
    | true =>
      rw [ha, hb] at hab
      exact absurd hab Bool.false_ne_true
    | false =>
      cases hc : c.hasId selected with
      | true =>
        rw [hb, hc] at hbc
        exact absurd hbc Bool.false_ne_true
      | false =>
        rw [ha, hb] at hab
        rw [hb, hc] at hbc
        exact compareAccess_trans hp a b c hab hbc

theorem compareEntries_total (selected : Option String) (a b : ChatSnapshotCacheEntry)
    : ((compareEntries p selected a b).isLE || (compareEntries p selected b a).isLE) = true := by
  unfold compareEntries
  cases a.hasId selected with
  | true => rfl
  | false =>
    cases b.hasId selected with
    | true => rfl
    | false => exact compareAccess_total hp a b

omit hp in
/--
Among entries that are not selected only the time of access counts.
-/
theorem compareEntries_of_not {selected : Option String} {a b : ChatSnapshotCacheEntry} (ha : a.hasId selected = false)
    (hb : b.hasId selected = false)
    : compareEntries p selected a b = compareAccess p a b := by
  unfold compareEntries
  rw [ha, hb]
  rfl

omit hp in
theorem compareEntries_first (selected : Option String) (a b : ChatSnapshotCacheEntry) (ha : a.hasId selected = false)
    (hb : b.hasId selected = true)
    : (compareEntries p selected a b).isLE = false := by
  unfold compareEntries
  rw [ha, hb]
  rfl

def Ranked (p : Platform) (selected : Option String) (entries : List ChatSnapshotCacheEntry) : Prop :=
  entries.Pairwise fun a b => (compareEntries p selected a b).isLE

theorem ranked_sortEntries (selected : Option String) (entries : List ChatSnapshotCacheEntry)
    : Ranked p selected (sortEntries (compareEntries p selected) entries) :=
  List.pairwise_mergeSort (compareEntries_trans hp selected) (compareEntries_total hp selected) entries

omit hp in
theorem Ranked.sortEntries_eq {selected : Option String} {entries : List ChatSnapshotCacheEntry}
    (h : Ranked p selected entries)
    : sortEntries (compareEntries p selected) entries = entries :=
  List.mergeSort_of_pairwise h

omit hp in
/--
A selection that no entry has does not count.
-/
theorem Ranked.unselected {selected : Option String} {entries : List ChatSnapshotCacheEntry} (h : Ranked p selected entries)
    (hnone : ∀ entry ∈ entries, entry.hasId selected = false)
    : Ranked p none entries := by
  refine List.Pairwise.imp_of_mem ?_ h
  intro a b ha hb hle
  rw [compareEntries_of_not (hnone a ha) (hnone b hb)] at hle
  exact hle

omit hp in
theorem eq_of_hasId {selected : Option String} {entries : List ChatSnapshotCacheEntry}
    (hnodup : (entries.map ChatSnapshotCacheEntry.chatId).Nodup) {a b : ChatSnapshotCacheEntry} (ha : a ∈ entries)
    (hb : b ∈ entries) (hida : a.hasId selected = true) (hidb : b.hasId selected = true)
    : a = b := by
  unfold ChatSnapshotCacheEntry.hasId at hida hidb
  rw [Bool.and_eq_true, beq_iff_eq] at hida hidb
  exact List.inj_on_of_nodup_map hnodup ha hb (hida.2.trans hidb.2.symm)

/--
Entries that are ranked keep their order when they are first sorted by their time of access, and then ranked again.
-/
theorem Ranked.resort {selected : Option String} {entries : List ChatSnapshotCacheEntry} (h : Ranked p selected entries)
    (hnodup : (entries.map ChatSnapshotCacheEntry.chatId).Nodup)
    : sortEntries (compareEntries p selected) (sortEntries (compareAccess p) entries) = entries := by
  have hselected : ∀ R : ChatSnapshotCacheEntry → ChatSnapshotCacheEntry → Prop,
      (entries.filter (·.hasId selected)).Pairwise R := by
    intro R
    have hlist := (hnodup.of_map).filter (·.hasId selected)
    rw [List.Nodup] at hlist
    refine List.Pairwise.imp_of_mem ?_ hlist
    intro a b ha hb hne
    rw [List.mem_filter] at ha hb
    exact absurd (eq_of_hasId hnodup ha.1 hb.1 ha.2 hb.2) hne
  have hothers : (entries.filter (!·.hasId selected)).Pairwise fun a b => (compareAccess p a b).isLE := by
    refine List.Pairwise.imp_of_mem ?_ (List.Pairwise.filter (!·.hasId selected) h)
    intro a b ha hb hle
    rw [List.mem_filter, Bool.not_eq_true'] at ha hb
    rwa [compareEntries_of_not ha.2 hb.2] at hle
  have hfirst := filter_sortEntries (compareAccess_trans hp) (compareAccess_total hp) (·.hasId selected) entries
    (hselected _)
  have hrest := filter_sortEntries (compareAccess_trans hp) (compareAccess_total hp) (!·.hasId selected) entries hothers
  have hfirst' := filter_sortEntries (compareEntries_trans hp selected) (compareEntries_total hp selected)
    (·.hasId selected) (sortEntries (compareAccess p) entries) (hfirst ▸ hselected _)
  have hrest' := filter_sortEntries (compareEntries_trans hp selected) (compareEntries_total hp selected)
    (!·.hasId selected) (sortEntries (compareAccess p) entries) (hrest ▸ List.Pairwise.filter (!·.hasId selected) h)
  have hsplit := List.eq_filter_append h (compareEntries_first selected)
  have hsplit' := List.eq_filter_append (ranked_sortEntries hp selected (sortEntries (compareAccess p) entries))
    (compareEntries_first selected)
  rw [hsplit', hfirst', hrest', hfirst, hrest, ← hsplit]

end

/-! Bounding -/

theorem bytes_singleton (cache : ChatSnapshotCache) (entry : ChatSnapshotCacheEntry)
    : { cache with entries := [entry] }.bytes = cache.header.bytes + entry.bytes := by
  rw [bytes_eq]
  change cache.header.bytes + (0 + entry.bytes + 0) = _
  omega

/--
The bytes before the entries are counted with the selection that remains.
-/
def Accounted (cache : ChatSnapshotCache) : Prop :=
  { cache.header with selectedChatId := none }.bytes = cache.header.bytes
    ∨ (∃ entry ∈ cache.entries, entry.hasId cache.selectedChatId
        ∧ { cache with entries := [entry] }.bytes ≤ CHAT_SNAPSHOT_CACHE_MAX_BYTES)
    ∨ (cache.bytes ≤ CHAT_SNAPSHOT_CACHE_MAX_BYTES
        ∧ { cache with selectedChatId := none }.bytes ≤ CHAT_SNAPSHOT_CACHE_MAX_BYTES)

section

variable {p : Platform} {cache : ChatSnapshotCache}

def ranking (p : Platform) (cache : ChatSnapshotCache) : List ChatSnapshotCacheEntry :=
  sortEntries (compareEntries p cache.selectedChatId) cache.entries

def kept (cache : ChatSnapshotCache) (entries : List ChatSnapshotCacheEntry) : List ChatSnapshotCacheEntry :=
  List.fitting ChatSnapshotCacheEntry.bytes CHAT_SNAPSHOT_CACHE_MAX_ENTRIES CHAT_SNAPSHOT_CACHE_MAX_BYTES 0
    cache.header.bytes entries

theorem entries_bound : (boundChatSnapshotCache p cache).entries = kept cache (ranking p cache) := rfl

theorem ranking_perm (p : Platform) (cache : ChatSnapshotCache) : (ranking p cache).Perm cache.entries :=
  List.mergeSort_perm _ _

theorem kept_sublist (cache : ChatSnapshotCache) (entries : List ChatSnapshotCacheEntry)
    : (kept cache entries).Sublist entries :=
  List.fitting_sublist entries 0 _

theorem mem_of_mem_bound {entry : ChatSnapshotCacheEntry} (h : entry ∈ (boundChatSnapshotCache p cache).entries)
    : entry ∈ cache.entries :=
  (ranking_perm p cache).mem_iff.mp ((kept_sublist cache _).subset h)

theorem length_bound_le : (boundChatSnapshotCache p cache).entries.length ≤ CHAT_SNAPSHOT_CACHE_MAX_ENTRIES := by
  have hle : 0 + (kept cache (ranking p cache)).length ≤ CHAT_SNAPSHOT_CACHE_MAX_ENTRIES :=
    List.length_fitting_le (Nat.zero_le _) _ _
  rw [entries_bound]
  omega

theorem nodup_bound (h : (cache.entries.map ChatSnapshotCacheEntry.chatId).Nodup)
    : ((boundChatSnapshotCache p cache).entries.map ChatSnapshotCacheEntry.chatId).Nodup := by
  have hperm := ((ranking_perm p cache).map ChatSnapshotCacheEntry.chatId).nodup_iff.mpr h
  exact hperm.sublist ((kept_sublist cache _).map _)

theorem selected_bound (p : Platform) (cache : ChatSnapshotCache)
    : (boundChatSnapshotCache p cache).selectedChatId = cache.selectedChatId
      ∧ (∃ entry ∈ (boundChatSnapshotCache p cache).entries, entry.hasId cache.selectedChatId)
    ∨ (boundChatSnapshotCache p cache).selectedChatId = none
      ∧ ∀ entry ∈ (boundChatSnapshotCache p cache).entries, entry.hasId cache.selectedChatId = false := by
  have hself : (boundChatSnapshotCache p cache).selectedChatId
      = if (boundChatSnapshotCache p cache).entries.any (·.hasId cache.selectedChatId) then cache.selectedChatId
        else none := rfl
  rw [hself]
  cases hany : (boundChatSnapshotCache p cache).entries.any (·.hasId cache.selectedChatId) with
  | true =>
    rw [List.any_eq_true] at hany
    exact .inl ⟨rfl, hany⟩
  | false =>
    rw [List.any_eq_false] at hany
    exact .inr ⟨rfl, fun entry hentry => Bool.not_eq_true _ ▸ hany entry hentry⟩

theorem bound_eq_self (hranked : Ranked p cache.selectedChatId cache.entries)
    (hcount : cache.entries.length ≤ CHAT_SNAPSHOT_CACHE_MAX_ENTRIES)
    (hbytes : cache.bytes ≤ CHAT_SNAPSHOT_CACHE_MAX_BYTES)
    (hselected : cache.selectedChatId = none ∨ ∃ entry ∈ cache.entries, entry.hasId cache.selectedChatId)
    : boundChatSnapshotCache p cache = cache := by
  have hentries : (boundChatSnapshotCache p cache).entries = cache.entries := by
    rw [bytes_eq] at hbytes
    rw [entries_bound]
    unfold ranking kept
    rw [hranked.sortEntries_eq, List.fitting_eq_self (by omega) hbytes]
  have hselection : (boundChatSnapshotCache p cache).selectedChatId = cache.selectedChatId := by
    rcases selected_bound p cache with ⟨hsame, -⟩ | ⟨hnone, hall⟩
    . exact hsame
    . rcases hselected with hself | ⟨entry, hentry, hid⟩
      . rw [hnone, hself]
      . rw [hentries] at hall
        rw [hall entry hentry] at hid
        contradiction
  change { cache with
    selectedChatId := (boundChatSnapshotCache p cache).selectedChatId
    entries := (boundChatSnapshotCache p cache).entries } = cache
  rw [hentries, hselection]

theorem header_bound_of_selected {entry : ChatSnapshotCacheEntry} (hentry : entry ∈ (boundChatSnapshotCache p cache).entries)
    (hid : entry.hasId cache.selectedChatId)
    : (boundChatSnapshotCache p cache).header = cache.header
        ∧ (boundChatSnapshotCache p cache).selectedChatId = cache.selectedChatId := by
  rcases selected_bound p cache with ⟨hsame, -⟩ | ⟨-, hall⟩
  . refine ⟨?_, hsame⟩
    change { cache.header with selectedChatId := (boundChatSnapshotCache p cache).selectedChatId } = cache.header
    rw [hsame]
    rfl
  . rw [hall entry hentry] at hid
    contradiction

theorem header_bound (p : Platform) (cache : ChatSnapshotCache)
    : (boundChatSnapshotCache p cache).header = cache.header
        ∨ (boundChatSnapshotCache p cache).header = { cache.header with selectedChatId := none } := by
  rcases selected_bound p cache with ⟨-, entry, hentry, hid⟩ | ⟨hnone, -⟩
  . exact .inl (header_bound_of_selected hentry hid).1
  . right
    change { cache.header with selectedChatId := (boundChatSnapshotCache p cache).selectedChatId } = _
    rw [hnone]

variable (hp : p.Lawful)
include hp

/--
The selected entry stands first.
-/
theorem ranking_selected (hnodup : (cache.entries.map ChatSnapshotCacheEntry.chatId).Nodup)
    {entry : ChatSnapshotCacheEntry} (hentry : entry ∈ cache.entries) (hid : entry.hasId cache.selectedChatId)
    : ∃ rest, ranking p cache = entry :: rest := by
  have hsplit := List.eq_filter_append (ranked_sortEntries hp cache.selectedChatId cache.entries)
    (compareEntries_first cache.selectedChatId)
  have hmem : entry ∈ (ranking p cache).filter (·.hasId cache.selectedChatId) :=
    List.mem_filter.mpr ⟨(ranking_perm p cache).mem_iff.mpr hentry, hid⟩
  cases hfirst : (ranking p cache).filter (·.hasId cache.selectedChatId) with
  | nil =>
    rw [hfirst] at hmem
    contradiction
  | cons first rest =>
    have hfirstMem : first ∈ (ranking p cache).filter (·.hasId cache.selectedChatId) := by
      rw [hfirst]
      exact List.mem_cons_self
    rw [List.mem_filter] at hfirstMem
    have heq := eq_of_hasId hnodup ((ranking_perm p cache).mem_iff.mp hfirstMem.1) hentry hfirstMem.2 hid
    unfold ranking at hfirst ⊢
    rw [hfirst] at hsplit
    exact ⟨_, by rw [hsplit, heq]; rfl⟩

/--
The selected entry stays when it fits alone.
-/
theorem selected_mem_bound (hnodup : (cache.entries.map ChatSnapshotCacheEntry.chatId).Nodup)
    {entry : ChatSnapshotCacheEntry} (hentry : entry ∈ cache.entries) (hid : entry.hasId cache.selectedChatId)
    (hfits : { cache with entries := [entry] }.bytes ≤ CHAT_SNAPSHOT_CACHE_MAX_BYTES)
    : entry ∈ (boundChatSnapshotCache p cache).entries := by
  rcases ranking_selected hp hnodup hentry hid with ⟨rest, hranking⟩
  rw [bytes_singleton] at hfits
  have hnone : List.separator 0 = 0 := rfl
  rw [entries_bound, hranking, kept, List.fitting_of_fits (by decide) (by omega)]
  exact List.mem_cons_self

omit hp in
theorem joinedCost_bound_le (h : cache.bytes ≤ CHAT_SNAPSHOT_CACHE_MAX_BYTES) {entries : List ChatSnapshotCacheEntry}
    (hsublist : entries.Sublist (ranking p cache))
    : entries.joinedCost ChatSnapshotCacheEntry.bytes 0 ≤ cache.entries.joinedCost ChatSnapshotCacheEntry.bytes 0 := by
  rw [← List.joinedCost_perm (ranking_perm p cache) 0]
  exact List.joinedCost_le_of_sublist hsublist 0

/--
What the bytes of the cache are compared with: those of its header, or those of all that is offered.
-/
theorem accounted_cases (hnodup : (cache.entries.map ChatSnapshotCacheEntry.chatId).Nodup) (h : Accounted cache)
    (hempty : { cache.header with selectedChatId := none }.bytes ≤ CHAT_SNAPSHOT_CACHE_MAX_BYTES)
    : (boundChatSnapshotCache p cache).header.bytes = cache.header.bytes
        ∧ cache.header.bytes ≤ CHAT_SNAPSHOT_CACHE_MAX_BYTES
      ∨ cache.bytes ≤ CHAT_SNAPSHOT_CACHE_MAX_BYTES
        ∧ (boundChatSnapshotCache p cache).header.bytes
            + cache.entries.joinedCost ChatSnapshotCacheEntry.bytes 0 ≤ CHAT_SNAPSHOT_CACHE_MAX_BYTES := by
  rcases h with hsame | ⟨entry, hentry, hid, hfits⟩ | ⟨hall, hnone⟩
  . left
    refine ⟨?_, by omega⟩
    rcases header_bound p cache with hheader | hheader
    . rw [hheader]
    . rw [hheader, hsame]
  . left
    have hmem := selected_mem_bound hp hnodup hentry hid hfits
    rw [bytes_singleton] at hfits
    exact ⟨by rw [(header_bound_of_selected hmem hid).1], by omega⟩
  . right
    refine ⟨hall, ?_⟩
    rw [bytes_eq] at hall hnone
    rcases header_bound p cache with hheader | hheader
    . rw [hheader]
      exact hall
    . rw [hheader]
      exact hnone

theorem bytes_bound_le (hnodup : (cache.entries.map ChatSnapshotCacheEntry.chatId).Nodup) (h : Accounted cache)
    (hempty : { cache.header with selectedChatId := none }.bytes ≤ CHAT_SNAPSHOT_CACHE_MAX_BYTES)
    : (boundChatSnapshotCache p cache).bytes ≤ CHAT_SNAPSHOT_CACHE_MAX_BYTES := by
  rw [bytes_eq, entries_bound]
  rcases accounted_cases hp hnodup h hempty with ⟨hheader, hle⟩ | ⟨hall, hle⟩
  . rw [hheader]
    exact List.joinedCost_fitting_le hle 0 _
  . have hsub := joinedCost_bound_le hall (kept_sublist cache (ranking p cache))
    omega

/--
An entry is dropped only if those ranked before it that stay leave no room for it.
-/
theorem mem_bound_or (hnodup : (cache.entries.map ChatSnapshotCacheEntry.chatId).Nodup) (h : Accounted cache)
    (hempty : { cache.header with selectedChatId := none }.bytes ≤ CHAT_SNAPSHOT_CACHE_MAX_BYTES)
    {before after : List ChatSnapshotCacheEntry} {entry : ChatSnapshotCacheEntry}
    (hranking : ranking p cache = before ++ entry :: after)
    : entry ∈ (boundChatSnapshotCache p cache).entries
        ∨ ∃ stays, stays <+: (boundChatSnapshotCache p cache).entries ∧ stays.Sublist before
          ∧ (stays.length = CHAT_SNAPSHOT_CACHE_MAX_ENTRIES
            ∨ CHAT_SNAPSHOT_CACHE_MAX_BYTES < { boundChatSnapshotCache p cache with entries := stays ++ [entry] }.bytes) := by
  have hstart : kept cache before <+: kept cache (before ++ entry :: after) := by
    unfold kept
    rw [List.fitting_append]
    exact List.prefix_append _ _
  have hcount : (kept cache before).length ≤ CHAT_SNAPSHOT_CACHE_MAX_ENTRIES := by
    have hle : 0 + (kept cache before).length ≤ CHAT_SNAPSHOT_CACHE_MAX_ENTRIES :=
      List.length_fitting_le (Nat.zero_le _) _ _
    omega
  have hfits : entry ∈ kept cache (before ++ entry :: after)
      ∨ (kept cache before).length = CHAT_SNAPSHOT_CACHE_MAX_ENTRIES
      ∨ CHAT_SNAPSHOT_CACHE_MAX_BYTES < cache.header.bytes
          + (kept cache before ++ [entry]).joinedCost ChatSnapshotCacheEntry.bytes 0 :=
    List.mem_fitting_or hcount
  rw [entries_bound, hranking]
  rcases hfits with hmem | hfull | hexceeds
  . exact .inl hmem
  . exact .inr ⟨kept cache before, hstart, kept_sublist cache before, .inl hfull⟩
  . refine .inr ⟨kept cache before, hstart, kept_sublist cache before, .inr ?_⟩
    rw [bytes_eq]
    change _ < (boundChatSnapshotCache p cache).header.bytes
      + (kept cache before ++ [entry]).joinedCost ChatSnapshotCacheEntry.bytes 0
    rcases accounted_cases hp hnodup h hempty with ⟨hheader, -⟩ | ⟨hall, -⟩
    . rw [hheader]
      exact hexceeds
    . have hsublist : (kept cache before ++ [entry]).Sublist (ranking p cache) := by
        rw [hranking]
        exact (kept_sublist cache before).append (List.singleton_sublist.mpr List.mem_cons_self)
      have hsub := joinedCost_bound_le hall hsublist
      rw [bytes_eq] at hall
      omega

end

end ChatSnapshots

end Mobile
