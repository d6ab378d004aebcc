import Mathlib.Data.String.Basic
import TetherBridge.Mobile.ChatSnapshotBounds

/-!
This module contains the runs of updates of the snapshots, from the empty cache on, and what is read back after them.
-/

namespace Mobile

namespace ChatSnapshots

variable {p : Platform}

def IsTimestamp (p : Platform) (text : String) : Prop :=
  (p.dateParse text).isSome

/--
An entry as it is kept: payloads were left out before.
-/
structure Stored (p : Platform) (entry : ChatSnapshotCacheEntry) : Prop where
  isChat : isChat p entry.chat
  sanitized : sanitizeChatForCache entry.chat = entry.chat
  cachedAt : IsTimestamp p entry.cachedAt
  lastAccessedAt : IsTimestamp p entry.lastAccessedAt

/-! What is offered -/

def touch (now : String) (entry : ChatSnapshotCacheEntry) : ChatSnapshotCacheEntry :=
  { entry with lastAccessedAt := now }

theorem map_chatId_modify (now : String) (index : Nat) (entries : List ChatSnapshotCacheEntry)
    : (entries.modify index (touch now)).map ChatSnapshotCacheEntry.chatId
        = entries.map ChatSnapshotCacheEntry.chatId := by
  induction entries generalizing index with
  | nil => rw [List.modify_nil]
  | cons entry entries ih =>
    cases index with
    | zero => rfl
    | succ index => rw [List.modify_succ_cons, List.map_cons, List.map_cons, ih]

theorem forall_modify {P : ChatSnapshotCacheEntry → Prop} {now : String} (htouch : ∀ entry, P entry → P (touch now entry))
    {entries : List ChatSnapshotCacheEntry} (h : ∀ entry ∈ entries, P entry) (index : Nat)
    : ∀ entry ∈ entries.modify index (touch now), P entry := by
  induction entries generalizing index with
  | nil => rwa [List.modify_nil]
  | cons entry entries ih =>
    rw [List.forall_mem_cons] at h
    cases index with
    | zero =>
      rw [List.modify_zero_cons, List.forall_mem_cons]
      exact ⟨htouch entry h.1, h.2⟩
    | succ index =>
      rw [List.modify_succ_cons, List.forall_mem_cons]
      exact ⟨h.1, ih h.2 index⟩

/--
The entries of the other chats, of which the selected one may be touched.
-/
theorem offeredEntries_cases (p : Platform) (cache : ChatSnapshotCache) (selected : Option String) (chat : Option Json)
    (now : String)
    : (∃ given, chat = some given ∧ isChat p given
        ∧ offeredEntries p cache selected chat now
            = { chat := sanitizeChatForCache given, cachedAt := now, lastAccessedAt := now }
              :: cache.entries.filter fun entry => !entry.hasId (getString "id" given))
      ∨ (∀ given, chat = some given → ¬isChat p given)
        ∧ ∃ others, others = (cache.entries.filter fun entry => !entry.hasId (chat.bind (getString "id")))
          ∧ (offeredEntries p cache selected chat now = others
            ∨ ∃ index, offeredEntries p cache selected chat now = others.modify index (touch now)) := by
  unfold offeredEntries
  dsimp only
  cases chat with
  | none =>
    right
    refine ⟨nofun, _, rfl, ?_⟩
    rw [Option.filter_none]
    dsimp only
    split
    . next index _ => exact .inr ⟨index, rfl⟩
    . exact .inl rfl
  | some given =>
    by_cases hchat : isChat p given
    . left
      rw [Option.filter_some_pos hchat]
      exact ⟨given, rfl, hchat, rfl⟩
    . right
      refine ⟨fun given' heq => Option.some.inj heq ▸ hchat, _, rfl, ?_⟩
      rw [Option.filter_some_neg (by simpa using hchat)]
      dsimp only
      split
      . next index _ => exact .inr ⟨index, rfl⟩
      . exact .inl rfl

theorem getString_id_of_isChat {chat : Json} (h : isChat p chat) : ∃ id, getString "id" chat = some id := by
  unfold isChat at h
  rw [Bool.and_eq_true, Bool.and_eq_true] at h
  cases hid : getString "id" chat with
  | none =>
    rw [hid] at h
    exact absurd h.1.1 Bool.false_ne_true
  | some id => exact ⟨id, rfl⟩

theorem nodup_offeredEntries {cache : ChatSnapshotCache} (h : (cache.entries.map ChatSnapshotCacheEntry.chatId).Nodup)
    (selected : Option String) (chat : Option Json) (now : String)
    : ((offeredEntries p cache selected chat now).map ChatSnapshotCacheEntry.chatId).Nodup := by
  have hfilter : ∀ q : ChatSnapshotCacheEntry → Bool, ((cache.entries.filter q).map ChatSnapshotCacheEntry.chatId).Nodup :=
    fun q => h.sublist (List.filter_sublist.map _)
  rcases offeredEntries_cases p cache selected chat now with
    ⟨given, -, hchat, hoffered⟩ | ⟨-, others, rfl, hoffered | ⟨index, hoffered⟩⟩
  . rw [hoffered, List.map_cons, List.nodup_cons]
    refine ⟨?_, hfilter _⟩
    intro hmem
    rw [List.mem_map] at hmem
    rcases hmem with ⟨entry, hentry, heq⟩
    rw [List.mem_filter, Bool.not_eq_true'] at hentry
    have hid : entry.chatId = getString "id" given := heq.trans (getString_sanitizeChatForCache given)
    rcases getString_id_of_isChat hchat with ⟨id, hgiven⟩
    have hhas : entry.hasId (getString "id" given) = true := by
      unfold ChatSnapshotCacheEntry.hasId
      rw [hid, hgiven]
      simp
    rw [hhas] at hentry
    exact absurd hentry.2 Bool.false_ne_true.symm
  . rw [hoffered]
    exact hfilter _
  . rw [hoffered, map_chatId_modify]
    exact hfilter _

theorem stored_offeredEntries (hp : p.Lawful) {cache : ChatSnapshotCache} (h : ∀ entry ∈ cache.entries, Stored p entry)
    (selected : Option String) (chat : Option Json) {now : String} (hnow : IsTimestamp p now)
    : ∀ entry ∈ offeredEntries p cache selected chat now, Stored p entry := by
  have hfilter : ∀ q : ChatSnapshotCacheEntry → Bool, ∀ entry ∈ cache.entries.filter q, Stored p entry :=
    fun q entry hentry => h entry (List.mem_of_mem_filter hentry)
  rcases offeredEntries_cases p cache selected chat now with
    ⟨given, -, hchat, hoffered⟩ | ⟨-, others, rfl, hoffered | ⟨index, hoffered⟩⟩
  . rw [hoffered, List.forall_mem_cons]
    refine ⟨?_, hfilter _⟩
    exact {
      isChat := (isChat_sanitizeChatForCache hp given).trans hchat
      sanitized := sanitizeChatForCache_idem given
      cachedAt := hnow
      lastAccessedAt := hnow }
  . rw [hoffered]
    exact hfilter _
  . rw [hoffered]
    refine forall_modify ?_ (hfilter _) index
    intro entry hentry
    exact { hentry with lastAccessedAt := hnow }

/--
No chat is lost before the entries are bounded.
-/
theorem offers {cache : ChatSnapshotCache} {chat : Option Json}
    (hchat : ∀ given, chat = some given → isChat p given ∨ ∀ entry ∈ cache.entries, entry.hasId (getString "id" given) = false)
    (selected : Option String) (now : String) {entry : ChatSnapshotCacheEntry} (hentry : entry ∈ cache.entries)
    : entry.chatId ∈ (offeredEntries p cache selected chat now).map ChatSnapshotCacheEntry.chatId := by
  rcases offeredEntries_cases p cache selected chat now with
    ⟨given, -, -, hoffered⟩ | ⟨hinvalid, others, rfl, hoffered⟩
  . rw [hoffered, List.map_cons, List.mem_cons]
    cases hid : entry.hasId (getString "id" given) with
    | true =>
      left
      unfold ChatSnapshotCacheEntry.hasId at hid
      rw [Bool.and_eq_true, beq_iff_eq] at hid
      exact hid.2.trans (getString_sanitizeChatForCache given).symm
    | false => exact .inr (List.mem_map_of_mem (List.mem_filter.mpr ⟨hentry, by rw [hid]; rfl⟩))
  . have hall : (cache.entries.filter fun entry => !entry.hasId (chat.bind (getString "id"))) = cache.entries := by
      rw [List.filter_eq_self]
      intro entry hentry
      cases chat with
      | none => rfl
      | some given =>
        rw [Option.bind_some, (hchat given rfl).resolve_left (hinvalid given rfl) entry hentry]
        rfl
    rcases hoffered with hoffered | ⟨index, hoffered⟩
    . rw [hoffered, hall]
      exact List.mem_map_of_mem hentry
    . rw [hoffered, map_chatId_modify, hall]
      exact List.mem_map_of_mem hentry

/-! What holds of every cache -/

structure Bounded (p : Platform) (cache : ChatSnapshotCache) : Prop where
  nodup : (cache.entries.map ChatSnapshotCacheEntry.chatId).Nodup
  count : cache.entries.length ≤ CHAT_SNAPSHOT_CACHE_MAX_ENTRIES
  bytes : cache.bytes ≤ CHAT_SNAPSHOT_CACHE_MAX_BYTES
  ranked : Ranked p cache.selectedChatId cache.entries
  selected : cache.selectedChatId = none ∨ ∃ entry ∈ cache.entries, entry.hasId cache.selectedChatId
  stored : ∀ entry ∈ cache.entries, Stored p entry
  updatedAt : IsTimestamp p cache.updatedAt

theorem Bounded.bound_eq {cache : ChatSnapshotCache} (h : Bounded p cache) : boundChatSnapshotCache p cache = cache :=
  bound_eq_self h.ranked h.count h.bytes h.selected

theorem bounded_empty {profileId now : String} (hnow : IsTimestamp p now)
    (hbytes : (createEmptyChatSnapshotCache profileId now).bytes ≤ CHAT_SNAPSHOT_CACHE_MAX_BYTES)
    : Bounded p (createEmptyChatSnapshotCache profileId now) where
  nodup := List.nodup_nil
  count := Nat.zero_le _
  bytes := hbytes
  ranked := List.Pairwise.nil
  selected := .inl rfl
  stored := nofun
  updatedAt := hnow

/--
Bounding what is accounted for.
-/
theorem bounded_bound (hp : p.Lawful) {cache : ChatSnapshotCache}
    (hnodup : (cache.entries.map ChatSnapshotCacheEntry.chatId).Nodup) (hstored : ∀ entry ∈ cache.entries, Stored p entry)
    (hupdated : IsTimestamp p cache.updatedAt) (haccounted : Accounted cache)
    (hempty : { cache.header with selectedChatId := none }.bytes ≤ CHAT_SNAPSHOT_CACHE_MAX_BYTES)
    : Bounded p (boundChatSnapshotCache p cache) where
  nodup := nodup_bound hnodup
  count := length_bound_le
  bytes := bytes_bound_le hp hnodup haccounted hempty
  ranked := by
    have hranked : Ranked p cache.selectedChatId (boundChatSnapshotCache p cache).entries :=
      (ranked_sortEntries hp cache.selectedChatId cache.entries).sublist (kept_sublist cache _)
    rcases selected_bound p cache with ⟨hsame, -⟩ | ⟨hnone, hall⟩
    . rw [hsame]
      exact hranked
    . rw [hnone]
      exact hranked.unselected hall
  selected := by
    rcases selected_bound p cache with ⟨hsame, hany⟩ | ⟨hnone, -⟩
    . rw [hsame]
      exact .inr hany
    . exact .inl hnone
  stored entry hentry := hstored entry (mem_of_mem_bound hentry)
  updatedAt := hupdated

/-! Reading what was written -/

theorem normalizeCacheEntry_toJson {entry : ChatSnapshotCacheEntry} (h : Stored p entry)
    : normalizeCacheEntry p entry.toJson = some entry := by
  have hchat : entry.toJson.get "chat" = some entry.chat := rfl
  have hcached : entry.toJson.get "cachedAt" = some (.string entry.cachedAt) := rfl
  have haccessed : entry.toJson.get "lastAccessedAt" = some (.string entry.lastAccessedAt) := rfl
  unfold normalizeCacheEntry
  rw [hchat, hcached, haccessed]
  dsimp only
  rw [if_pos ⟨h.isChat, h.cachedAt, h.lastAccessedAt⟩, h.sanitized]

theorem filterMap_normalizeCacheEntry {entries : List ChatSnapshotCacheEntry} (h : ∀ entry ∈ entries, Stored p entry)
    : (entries.map ChatSnapshotCacheEntry.toJson).filterMap (normalizeCacheEntry p) = entries := by
  induction entries with
  | nil => rfl
  | cons entry entries ih =>
    rw [List.forall_mem_cons] at h
    rw [List.map_cons, List.filterMap_cons_some (normalizeCacheEntry_toJson h.1), ih h.2]

/--
No entry was written so long ago that it is dropped.
-/
def Fresh (p : Platform) (cache : ChatSnapshotCache) (now : Int) : Prop :=
  ∀ entry ∈ cache.entries, ∀ time, p.dateParse entry.cachedAt = some time → now - time ≤ CHAT_SNAPSHOT_CACHE_MAX_AGE_MS

theorem filter_fresh {cache : ChatSnapshotCache} {now : Int} (h : ∀ entry ∈ cache.entries, Stored p entry)
    (hfresh : Fresh p cache now)
    : (cache.entries.filter fun entry =>
        (p.dateParse entry.cachedAt).any fun time => now - time ≤ CHAT_SNAPSHOT_CACHE_MAX_AGE_MS) = cache.entries := by
  rw [List.filter_eq_self]
  intro entry hentry
  have htimestamp := (h entry hentry).cachedAt
  unfold IsTimestamp at htimestamp
  cases htime : p.dateParse entry.cachedAt with
  | none =>
    rw [htime] at htimestamp
    contradiction
  | some time => simpa using hfresh entry hentry time htime

theorem Bounded.parse_eq (hp : p.Lawful) {cache : ChatSnapshotCache} (h : Bounded p cache) {now : Int}
    (hfresh : Fresh p cache now) (clock : String)
    : parseChatSnapshotCache p (some cache.toJson) cache.profileId now clock = cache := by
  have hversion : cache.toJson.get "version" = some (.number CHAT_SNAPSHOT_CACHE_VERSION) := rfl
  have hprofile : cache.toJson.get "profileId" = some (.string cache.profileId) := rfl
  have hentries : cache.toJson.get "entries" = some (.array (cache.entries.map ChatSnapshotCacheEntry.toJson)) := rfl
  have hupdated : getString "updatedAt" cache.toJson = some cache.updatedAt := rfl
  have hselected : getString "selectedChatId" cache.toJson = cache.selectedChatId := by
    have hget : cache.toJson.get "selectedChatId" = some (cache.selectedChatId.elim .null .string) := rfl
    unfold getString
    rw [hget, Option.bind_some]
    cases cache.selectedChatId <;> rfl
  have hselection : (cache.selectedChatId.filter fun id =>
      (sortEntries (compareAccess p) cache.entries).any (·.hasId (some id))) = cache.selectedChatId := by
    cases hid : cache.selectedChatId with
    | none => rfl
    | some id =>
      rcases h.selected with hnone | ⟨entry, hentry, hhas⟩
      . rw [hid] at hnone
        contradiction
      . apply Option.filter_some_pos
        rw [List.any_eq_true]
        exact ⟨entry, (List.mergeSort_perm _ _).mem_iff.mpr hentry, hid ▸ hhas⟩
  have htimestamp : ((some cache.updatedAt).filter fun text => (p.dateParse text).isSome) = some cache.updatedAt :=
    Option.filter_some_pos h.updatedAt
  unfold parseChatSnapshotCache
  dsimp only
  rw [hversion, hprofile, hentries]
  dsimp only
  rw [if_neg (by simp), filterMap_normalizeCacheEntry h.stored, filter_fresh h.stored hfresh, hselected, hselection,
    hupdated, htimestamp, Option.getD_some]
  have hresort : ranking p { cache with entries := sortEntries (compareAccess p) cache.entries } = cache.entries :=
    h.ranked.resort hp h.nodup
  have hranking : ranking p cache = cache.entries := h.ranked.sortEntries_eq
  have hkept : kept cache cache.entries = cache.entries := by
    have hself := congrArg ChatSnapshotCache.entries h.bound_eq
    rw [entries_bound, hranking] at hself
    exact hself
  have hsame : boundChatSnapshotCache p { cache with entries := sortEntries (compareAccess p) cache.entries }
      = { cache with
        selectedChatId := if cache.entries.any (·.hasId cache.selectedChatId) then cache.selectedChatId else none } := by
    change { cache with
      selectedChatId := if (kept cache (ranking p _)).any (·.hasId cache.selectedChatId) then cache.selectedChatId else none
      entries := kept cache (ranking p _) } = _
    rw [hresort, hkept]
  have hbound := h.bound_eq
  change { cache with
    selectedChatId := if (kept cache (ranking p cache)).any (·.hasId cache.selectedChatId) then cache.selectedChatId else none
    entries := kept cache (ranking p cache) } = cache at hbound
  rw [hranking, hkept] at hbound
  exact hsame.trans hbound

/-! Updates -/

structure Call where
  selectedChatId : Option String
  chat : Option Json
  now : String

/--
The cache that an update bounds.
-/
def Call.offered (p : Platform) (cache : ChatSnapshotCache) (call : Call) : ChatSnapshotCache :=
  { profileId := cache.profileId
    selectedChatId := normalizedSelection call.selectedChatId
    updatedAt := call.now
    entries := offeredEntries p cache (normalizedSelection call.selectedChatId) call.chat call.now }

def step (p : Platform) (cache : ChatSnapshotCache) (call : Call) : Option ChatSnapshotCache :=
  some (updateChatSnapshotCache p cache call.selectedChatId call.chat call.now)

/--
The calls after which the bytes are counted rightly: the selection remains, or takes as many bytes as `null`, or everything
fits with it and without.
-/
structure Call.Meets (p : Platform) (cache : ChatSnapshotCache) (call : Call) : Prop where
  timestamp : IsTimestamp p call.now
  chat : ∀ given, call.chat = some given →
    isChat p given ∨ ∀ entry ∈ cache.entries, entry.hasId (getString "id" given) = false
  empty : (createEmptyChatSnapshotCache cache.profileId call.now).bytes ≤ CHAT_SNAPSHOT_CACHE_MAX_BYTES
  accounted : Accounted (call.offered p cache)

/--
What holds of a cache.
-/
structure Holds (p : Platform) (cache : ChatSnapshotCache) : Prop where
  distinct : (cache.entries.map ChatSnapshotCacheEntry.chatId).Nodup
  count : cache.entries.length ≤ CHAT_SNAPSHOT_CACHE_MAX_ENTRIES
  bytes : cache.bytes ≤ CHAT_SNAPSHOT_CACHE_MAX_BYTES
  idempotent : boundChatSnapshotCache p cache = cache
  parsed : ∀ now clock, Fresh p cache now →
    parseChatSnapshotCache p (some cache.toJson) cache.profileId now clock = cache

/--
What an update keeps.
-/
structure Keeps (p : Platform) (cache : ChatSnapshotCache) (call : Call) (updated : ChatSnapshotCache) : Prop where
  offers : ∀ entry ∈ cache.entries, entry.chatId ∈ (call.offered p cache).entries.map ChatSnapshotCacheEntry.chatId
  selected : ∀ entry ∈ (call.offered p cache).entries, entry.hasId (normalizedSelection call.selectedChatId) →
    { call.offered p cache with entries := [entry] }.bytes ≤ CHAT_SNAPSHOT_CACHE_MAX_BYTES →
    entry ∈ updated.entries ∧ updated.selectedChatId = normalizedSelection call.selectedChatId
  drops : ∀ before entry after, ranking p (call.offered p cache) = before ++ entry :: after →
    entry ∈ updated.entries
      ∨ ∃ stays, stays <+: updated.entries ∧ stays.Sublist before
        ∧ (stays.length = CHAT_SNAPSHOT_CACHE_MAX_ENTRIES
          ∨ CHAT_SNAPSHOT_CACHE_MAX_BYTES < { updated with entries := stays ++ [entry] }.bytes)

theorem Bounded.update (hp : p.Lawful) {cache : ChatSnapshotCache} (h : Bounded p cache) {call : Call}
    (hmeets : call.Meets p cache)
    : Bounded p (updateChatSnapshotCache p cache call.selectedChatId call.chat call.now) :=
  show Bounded p (boundChatSnapshotCache p (call.offered p cache)) from
    bounded_bound hp (nodup_offeredEntries h.nodup _ _ _) (stored_offeredEntries hp h.stored _ _ hmeets.timestamp)
      hmeets.timestamp hmeets.accounted hmeets.empty

theorem Bounded.holds (hp : p.Lawful) {cache : ChatSnapshotCache} (h : Bounded p cache) : Holds p cache where
  distinct := h.nodup
  count := h.count
  bytes := h.bytes
  idempotent := h.bound_eq
  parsed _ clock hfresh := h.parse_eq hp hfresh clock

theorem Bounded.keeps (hp : p.Lawful) {cache : ChatSnapshotCache} (h : Bounded p cache) {call : Call}
    (hmeets : call.Meets p cache)
    : Keeps p cache call (updateChatSnapshotCache p cache call.selectedChatId call.chat call.now) where
  offers entry hentry := offers hmeets.chat _ _ hentry
  selected entry hentry hid hfits := by
    have hmem := selected_mem_bound hp (nodup_offeredEntries h.nodup _ _ _) hentry hid hfits
    exact ⟨hmem, (header_bound_of_selected hmem hid).2⟩
  drops before entry after hranking :=
    mem_bound_or hp (nodup_offeredEntries h.nodup _ _ _) hmeets.accounted hmeets.empty hranking

/--
In every run of updates after each of which the bytes are counted rightly, the cache is bounded and can be read back, and
the next such update keeps the selected chat and drops another only when there is no room for it.
-/
theorem holds_of_exec (hp : p.Lawful) {profileId start : String} (hstart : IsTimestamp p start)
    (hempty : (createEmptyChatSnapshotCache profileId start).bytes ≤ CHAT_SNAPSHOT_CACHE_MAX_BYTES) {calls : List Call}
    (hmeets : Transition.Meets (step p) (fun cache call => call.Meets p cache)
      (createEmptyChatSnapshotCache profileId start) calls)
    {cache : ChatSnapshotCache}
    (hexec : Transition.exec (step p) (createEmptyChatSnapshotCache profileId start) calls = some cache)
    : Holds p cache
        ∧ ∀ call : Call, call.Meets p cache →
          Keeps p cache call (updateChatSnapshotCache p cache call.selectedChatId call.chat call.now) := by
  have hbounded : Bounded p cache := by
    refine Transition.exec_invariant ?_ (bounded_empty hstart hempty) hmeets hexec
    intro cache call updated h hcall hstep
    injection hstep with hstep
    subst hstep
    exact h.update hp hcall
  exact ⟨hbounded.holds hp, fun _ hcall => hbounded.keeps hp hcall⟩

/-! A run -/

def today : String := "2026-07-17T00:00:00.000Z"

def plainPlatform : Platform where
  dateParse text := if text = today then some 1784246400000 else none
  toISOString _ := today
  localeCompare := compare
  messageSchema _ := true

theorem plainPlatform_lawful : plainPlatform.Lawful where
  localeCompare_trans _ _ _ := @Std.TransCmp.isLE_trans String compare _ _ _ _
  localeCompare_total a b := by
    change (compare a b).isLE ∨ (compare b a).isLE
    cases hcompare : compare a b with
    | lt => exact .inl rfl
    | eq => exact .inl rfl
    | gt =>
      rw [Std.OrientedCmp.gt_iff_lt.mp hcompare]
      exact .inr rfl
  messageSchema_ignores _ _ _ _ := rfl

def chatTitled (title : String) : Json :=
  .object [("id", .string "b"), ("title", .string title), ("status", .string "idle"), ("createdAt", .string today),
    ("updatedAt", .string today), ("statusUpdatedAt", .string today), ("lastMessagePreview", .string ""),
    ("messages", .array [])]

theorem isChat_chatTitled (title : String) : isChat plainPlatform (chatTitled title) = true := by
  rfl

theorem sanitizeChatForCache_chatTitled (title : String) : sanitizeChatForCache (chatTitled title) = chatTitled title := by
  rfl

def titledEntry (title : String) : ChatSnapshotCacheEntry :=
  { chat := chatTitled title, cachedAt := today, lastAccessedAt := today }

theorem holds_of_titled
    : Holds plainPlatform (updateChatSnapshotCache plainPlatform (createEmptyChatSnapshotCache "profile-a" today)
        (some " b ") (some (chatTitled "Build")) today) := by
  have hmeets : Transition.Meets (step plainPlatform) (fun cache call => call.Meets plainPlatform cache)
      (createEmptyChatSnapshotCache "profile-a" today) [⟨some " b ", some (chatTitled "Build"), today⟩] := by
    refine ⟨⟨rfl, ?_, by decide +kernel, .inr (.inr ⟨by decide +kernel, by decide +kernel⟩)⟩, fun _ _ => trivial⟩
    intro given hgiven
    exact .inl (Option.some.inj hgiven ▸ isChat_chatTitled "Build")
  have hstart : IsTimestamp plainPlatform today := by
    unfold IsTimestamp
    rfl
  exact (holds_of_exec plainPlatform_lawful hstart (by decide +kernel) hmeets rfl).1

/-! A selection that is cleared -/

theorem escape_replicate (n : Nat) : (List.replicate n 'x').flatMap Js.escape = List.replicate n 'x' := by
  have hself : ∀ c ∈ List.replicate n 'x', Js.escape c = [c] := by
    intro c hc
    rw [List.eq_of_mem_replicate hc]
    rfl
  rw [List.flatMap_congr hself, List.flatMap_singleton']

theorem utf8ByteLength_replicate (n : Nat) : Js.utf8ByteLength (List.replicate n 'x') = n := by
  have hbytes : Js.codePointBytes 'x' = 1 := rfl
  rw [Js.utf8ByteLength_eq_sum, List.map_replicate, hbytes, List.sum_replicate_nat, Nat.mul_one]

theorem bytes_titledEntry (n : Nat)
    : (titledEntry (String.ofList (List.replicate n 'x'))).bytes = (titledEntry "").bytes + n := by
  unfold ChatSnapshotCacheEntry.bytes ChatSnapshotCacheEntry.toJson titledEntry chatTitled
  simp only [Js.stringify, Js.stringifyFields, Js.stringifyString, String.toList_ofList, escape_replicate,
    List.intercalate_cons_cons, List.intercalate_singleton, Js.utf8ByteLength_append, Js.utf8ByteLength_cons,
    utf8ByteLength_replicate]
  have hempty : Js.utf8ByteLength ("".toList.flatMap Js.escape) = 0 := rfl
  omega

/--
The title with which the entry fills the cache to its last byte.
-/
def fullTitle : String :=
  String.ofList (List.replicate (8 * 1024 * 1024 - 399) 'x')

/--
The selection counts three bytes while the entries are taken, and four when it is cleared.
-/
theorem not_holds_of_cleared
    : ¬Holds plainPlatform (updateChatSnapshotCache plainPlatform (createEmptyChatSnapshotCache "profile-a" today)
        (some "a") (some (chatTitled fullTitle)) today) := by
  intro h
  have hbytes : (titledEntry fullTitle).bytes = 289 + (8 * 1024 * 1024 - 399) := by
    have hempty : (titledEntry "").bytes = 289 := by decide +kernel
    rw [← hempty]
    exact bytes_titledEntry _
  let offered : ChatSnapshotCache :=
    { profileId := "profile-a", selectedChatId := some "a", updatedAt := today, entries := [titledEntry fullTitle] }
  have hoffered : offeredEntries plainPlatform (createEmptyChatSnapshotCache "profile-a" today) (some "a")
      (some (chatTitled fullTitle)) today = [titledEntry fullTitle] := by
    unfold offeredEntries
    dsimp only
    rw [Option.filter_some_pos (isChat_chatTitled fullTitle)]
    dsimp only
    rw [sanitizeChatForCache_chatTitled]
    rfl
  have hselection : normalizedSelection (some "a") = some "a" := by
    decide +kernel
  have hupdate : updateChatSnapshotCache plainPlatform (createEmptyChatSnapshotCache "profile-a" today) (some "a")
      (some (chatTitled fullTitle)) today = boundChatSnapshotCache plainPlatform offered := by
    unfold updateChatSnapshotCache
    rw [hselection, hoffered]
    rfl
  have hranking : ranking plainPlatform offered = [titledEntry fullTitle] := List.mergeSort_singleton _
  have hheader : offered.header.bytes = 110 := by decide +kernel
  have hentries : (boundChatSnapshotCache plainPlatform offered).entries = [titledEntry fullTitle] := by
    have hnone : List.separator 0 = 0 := rfl
    rw [entries_bound, hranking]
    unfold kept
    rw [hheader, List.fitting_of_fits (by decide) (by rw [hbytes, hnone]; decide)]
    rfl
  have hcleared : (boundChatSnapshotCache plainPlatform offered).header = { offered.header with selectedChatId := none } := by
    rcases selected_bound plainPlatform offered with ⟨-, entry, hentry, hid⟩ | ⟨hnone, -⟩
    . rw [hentries, List.mem_singleton] at hentry
      subst hentry
      have hother : (titledEntry fullTitle).hasId (some "a") = false := rfl
      exact absurd (hother.symm.trans hid) Bool.false_ne_true
    . change { offered.header with selectedChatId := (boundChatSnapshotCache plainPlatform offered).selectedChatId } = _
      rw [hnone]
  have hempty : ({ offered.header with selectedChatId := none } : ChatSnapshotCache).bytes = 111 := by decide +kernel
  have hcost : [titledEntry fullTitle].joinedCost ChatSnapshotCacheEntry.bytes 0 = (titledEntry fullTitle).bytes := by
    have hnone : List.separator 0 = 0 := rfl
    rw [List.joinedCost, List.joinedCost, hnone, Nat.zero_add, Nat.add_zero]
  have hmax : CHAT_SNAPSHOT_CACHE_MAX_BYTES = 8 * 1024 * 1024 := rfl
  have hle := h.bytes
  rw [hupdate, bytes_eq, hcleared, hempty, hentries, hcost, hbytes, hmax] at hle
  omega

end ChatSnapshots

end Mobile
