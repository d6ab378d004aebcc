import TetherBridge.Data.Js
import TetherBridge.Data.Recent

/-!
This module contains the listing of all chats by the mobile client, page after page. A server that pages
through a fixed list is listed completely, unless a page adds nothing to what is known already; and what
is not listed completely is marked as partial.
-/

namespace Mobile

namespace ChatList

open List

def MAX_CHAT_LIST_PAGES : Nat := 32

/--
A summary with the fields that listing reads. The time of the last update is a number.
-/
structure ChatSummary where
  id : String
  sourceKind : Option String := none
  updatedAt : Nat
  deriving DecidableEq

/--
A response to `thread/list`. An item of it is what `mapChatSummary` makes of it.
-/
structure AppServerListResponse where
  data : List (Option ChatSummary)
  nextCursor : Option String := none
  diagnostics : List String := []
  partialResult : Bool := false
  deriving DecidableEq

structure ChatListPage where
  chats : List ChatSummary
  nextCursor : Option String
  diagnostics : List String
  partialResult : Bool

structure ChatListResult where
  chats : List ChatSummary
  diagnostics : List String
  partialResult : Bool
  deriving DecidableEq

def isSubAgentSource (sourceKind : Option String) : Bool :=
  sourceKind.any fun kind => "subAgent".toList.isPrefixOf kind.toList

def normalizeCursor (cursor : Option String) : Option String :=
  (cursor.map Js.trim).filter (· ≠ "")

/--
Latest first; the sort is stable.
-/
def sortByUpdatedAt (chats : List ChatSummary) : List ChatSummary :=
  chats.mergeSort fun a b => b.updatedAt ≤ a.updatedAt

def mapChatListItems (listRaw : List (Option ChatSummary)) (includeSubAgents : Bool) : List ChatSummary :=
  sortByUpdatedAt (listRaw.reduceOption.filter fun item =>
    includeSubAgents || !isSubAgentSource item.sourceKind)

/--
A `Map` keeps the place of a key that is set again.
-/
def mergeChatSummariesById (previous incoming : List ChatSummary) : List ChatSummary :=
  let byId := (previous ++ incoming).foldl (fun byId chat => byId.assign chat.id chat) []
  sortByUpdatedAt (byId.map (·.2))

/--
What the client makes of a response.
-/
def fetchChatPage (response : AppServerListResponse) (includeSubAgents : Bool) : ChatListPage :=
  { chats := mapChatListItems response.data includeSubAgents
    nextCursor := response.nextCursor
    diagnostics := response.diagnostics
    partialResult := response.partialResult || !response.diagnostics.isEmpty }

/-! Listing all chats -/

/--
An empty cursor counts as none.
-/
def truthy (cursor : Option String) : Option String :=
  cursor.filter (· ≠ "")

/--
The variables of `fetchAllChats`, and the responses it has received.
-/
structure Listing where
  cursor : Option String := none
  chats : List ChatSummary := []
  diagnostics : List String := []
  partialResult : Bool := false
  seenCursors : List String := []
  received : List AppServerListResponse := []

/--
The server may answer a request as it likes, and differently each time.
-/
abbrev ListServer := Nat → Option String → AppServerListResponse

namespace Listing

variable (s : Listing)

/--
`Set.prototype.add`, in the order of insertion.
-/
def addDiagnostic (diagnostic : String) : Listing :=
  if diagnostic ∈ s.diagnostics then s else { s with diagnostics := s.diagnostics ++ [diagnostic] }

def addDiagnostics (diagnostics : List String) : Listing :=
  diagnostics.foldl addDiagnostic s

def stop (diagnostic : String) : Listing :=
  { s.addDiagnostic diagnostic with partialResult := true }

/--
One page was received.
-/
def takePage (response : AppServerListResponse) (includeSubAgents : Bool) : Listing :=
  let page := fetchChatPage response includeSubAgents
  { s.addDiagnostics page.diagnostics with
    cursor := page.nextCursor
    chats := mergeChatSummariesById s.chats page.chats
    partialResult := s.partialResult || page.partialResult
    seenCursors := s.seenCursors ++ (truthy s.cursor).toList
    received := s.received ++ [response] }

end Listing

/--
The loop, for as many pages as are still allowed.
-/
def fetchPages (server : ListServer) (includeSubAgents : Bool) : Nat → Listing → Listing
  | 0, s => s.stop "Chat listing reached the 32-page safety limit."
  | pages + 1, s =>
    if (truthy s.cursor).any fun cursor => s.seenCursors.contains cursor then
      s.stop "Chat listing repeated a page cursor."
    else
      let next := s.takePage (server s.received.length (normalizeCursor s.cursor)) includeSubAgents
      if (truthy next.cursor).isNone then
        next
      else if next.chats.length = s.chats.length then
        next.stop "Chat listing made no progress on a page."
      else
        fetchPages server includeSubAgents pages next

def listing (server : ListServer) (includeSubAgents : Bool) : Listing :=
  fetchPages server includeSubAgents MAX_CHAT_LIST_PAGES {}

def fetchAllChats (server : ListServer) (includeSubAgents : Bool) : ChatListResult :=
  let s := listing server includeSubAgents
  { chats := s.chats, diagnostics := s.diagnostics, partialResult := s.partialResult }

/-! Merging -/

theorem foldl_assign {entries : List (String × ChatSummary)} {chats : List ChatSummary}
    (hnodup : (entries.map (·.1) ++ chats.map (·.id)).Nodup)
    : chats.foldl (fun byId chat => byId.assign chat.id chat) entries
      = entries ++ chats.map fun chat => (chat.id, chat) := by
  induction chats generalizing entries with
  | nil => rw [map_nil, append_nil, foldl_nil]
  | cons chat chats ih =>
    have hnew : ∀ entry ∈ entries, entry.1 ≠ chat.id := by
      intro entry hentry heq
      rw [map_cons, nodup_append] at hnodup
      exact hnodup.2.2 entry.1 (mem_map_of_mem hentry) chat.id mem_cons_self heq
    have hassign : entries.assign chat.id chat = entries ++ [(chat.id, chat)] := by
      unfold List.assign
      rw [if_neg]
      rw [any_eq_true]
      rintro ⟨entry, hentry, heq⟩
      exact hnew entry hentry (of_decide_eq_true heq)
    rw [foldl_cons, hassign, ih, map_cons, append_assoc, singleton_append]
    rw [map_append, map_singleton, append_assoc, singleton_append]
    exact hnodup

theorem sortByUpdatedAt_perm (chats : List ChatSummary) : sortByUpdatedAt chats ~ chats :=
  mergeSort_perm chats _

theorem pairwise_sortByUpdatedAt (chats : List ChatSummary)
    : (sortByUpdatedAt chats).Pairwise fun a b => b.updatedAt ≤ a.updatedAt := by
  have hsorted := @pairwise_mergeSort _ (fun a b : ChatSummary => decide (b.updatedAt ≤ a.updatedAt))
    (by
      intro a b c hab hbc
      rw [decide_eq_true_eq] at hab hbc ⊢
      omega)
    (by
      intro a b
      rw [Bool.or_eq_true, decide_eq_true_eq, decide_eq_true_eq]
      omega) chats
  exact hsorted.imp fun h => of_decide_eq_true h

/--
Chats that are not known yet are all added.
-/
theorem mergeChatSummariesById_perm {previous incoming : List ChatSummary}
    (hnodup : ((previous ++ incoming).map (·.id)).Nodup)
    : mergeChatSummariesById previous incoming ~ previous ++ incoming := by
  unfold mergeChatSummariesById
  have hassign : (previous ++ incoming).foldl (fun byId chat => byId.assign chat.id chat) []
      = [] ++ (previous ++ incoming).map fun chat => (chat.id, chat) :=
    foldl_assign hnodup
  rw [hassign, nil_append]
  dsimp only
  rw [map_map, show ((·.2) ∘ fun chat : ChatSummary => (chat.id, chat)) = id from rfl, map_id]
  exact sortByUpdatedAt_perm _

/-! Any server -/

/--
There was a page to be received, and one that is still offered marks the result as partial.
-/
def Marked (s : Listing) : Prop :=
  s.received ≠ [] ∧ s.received.length ≤ MAX_CHAT_LIST_PAGES
    ∧ ∀ response ∈ s.received.getLast?, truthy response.nextCursor ≠ none → s.partialResult = true

/--
What was offered by one response is what was asked for next.
-/
def Followed (server : ListServer) (s : Listing) : Prop :=
  ∀ i response, s.received[i + 1]? = some response →
    ∃ previous, s.received[i]? = some previous
      ∧ response = server (i + 1) (normalizeCursor previous.nextCursor)

theorem addDiagnostic_eq (s : Listing) (diagnostic : String)
    : ∃ diagnostics, s.addDiagnostic diagnostic = { s with diagnostics } := by
  unfold Listing.addDiagnostic
  split
  . exact ⟨s.diagnostics, rfl⟩
  . exact ⟨_, rfl⟩

theorem addDiagnostics_eq (s : Listing) (added : List String)
    : ∃ diagnostics, s.addDiagnostics added = { s with diagnostics } := by
  unfold Listing.addDiagnostics
  induction added generalizing s with
  | nil => exact ⟨s.diagnostics, rfl⟩
  | cons diagnostic added ih =>
    rcases addDiagnostic_eq s diagnostic with ⟨known, hknown⟩
    rw [foldl_cons, hknown]
    exact ih _

theorem stop_eq (s : Listing) (diagnostic : String)
    : ∃ diagnostics, s.stop diagnostic = { s with diagnostics, partialResult := true } := by
  unfold Listing.stop
  rcases addDiagnostic_eq s diagnostic with ⟨diagnostics, hknown⟩
  rw [hknown]
  exact ⟨diagnostics, rfl⟩

theorem takePage_eq (s : Listing) (response : AppServerListResponse) (includeSubAgents : Bool)
    : ∃ diagnostics, s.takePage response includeSubAgents =
        { cursor := response.nextCursor
          chats := mergeChatSummariesById s.chats (mapChatListItems response.data includeSubAgents)
          diagnostics
          partialResult := s.partialResult || (response.partialResult || !response.diagnostics.isEmpty)
          seenCursors := s.seenCursors ++ (truthy s.cursor).toList
          received := s.received ++ [response] } := by
  unfold Listing.takePage
  dsimp only
  rcases addDiagnostics_eq s (fetchChatPage response includeSubAgents).diagnostics with ⟨diagnostics, hknown⟩
  rw [hknown]
  exact ⟨diagnostics, rfl⟩

/--
What holds before the next page is requested: the cursor is the one of the last response.
-/
structure Following (server : ListServer) (s : Listing) : Prop where
  followed : Followed server s
  cursor : s.cursor = s.received.getLast?.bind (·.nextCursor)

theorem Following.takePage {server : ListServer} {s : Listing} (h : Following server s)
    (includeSubAgents : Bool)
    : Following server
        (s.takePage (server s.received.length (normalizeCursor s.cursor)) includeSubAgents) := by
  rcases takePage_eq s (server s.received.length (normalizeCursor s.cursor)) includeSubAgents
    with ⟨diagnostics, htake⟩
  rw [htake]
  refine ⟨?_, ?_⟩
  . intro i response hresponse
    dsimp only at hresponse ⊢
    by_cases hlt : i + 1 < s.received.length
    . rw [getElem?_append_left hlt] at hresponse
      rw [getElem?_append_left (by omega)]
      exact h.followed i response hresponse
    . have hlength := (List.getElem?_eq_some_iff.mp hresponse).1
      rw [length_append, length_singleton] at hlength
      have hi : i + 1 = s.received.length := by omega
      rw [hi, getElem?_concat_length] at hresponse
      injection hresponse with hresponse
      have hsome : ∃ previous, s.received[i]? = some previous := ⟨_, List.getElem?_eq_getElem (by omega)⟩
      rcases hsome with ⟨previous, hprevious⟩
      refine ⟨previous, ?_, ?_⟩
      . rw [getElem?_append_left (by omega), hprevious]
      . rw [← hresponse, h.cursor, getLast?_eq_getElem?, ← hi, Nat.add_sub_cancel, hprevious]
        rfl
  . dsimp only
    rw [getLast?_concat]
    rfl

theorem fetchPages_followed {server : ListServer} {s : Listing} (h : Following server s)
    (includeSubAgents : Bool) (pages : Nat)
    : Followed server (fetchPages server includeSubAgents pages s) := by
  induction pages generalizing s with
  | zero =>
    unfold fetchPages
    rcases stop_eq s "Chat listing reached the 32-page safety limit." with ⟨_, hstop⟩
    rw [hstop]
    exact h.followed
  | succ pages ih =>
    have hnext := h.takePage includeSubAgents
    unfold fetchPages
    split
    . rcases stop_eq s "Chat listing repeated a page cursor." with ⟨_, hstop⟩
      rw [hstop]
      exact h.followed
    . dsimp only
      split
      . exact hnext.followed
      . split
        . rcases stop_eq (s.takePage (server s.received.length (normalizeCursor s.cursor)) includeSubAgents)
            "Chat listing made no progress on a page." with ⟨_, hstop⟩
          rw [hstop]
          exact hnext.followed
        . exact ih hnext

theorem fetchPages_marked (server : ListServer) (includeSubAgents : Bool) {pages : Nat} {s : Listing}
    (hpages : s.received.length + pages = MAX_CHAT_LIST_PAGES) (hstart : s.received = [] → s.cursor = none ∧ 0 < pages)
    : Marked (fetchPages server includeSubAgents pages s) := by
  induction pages generalizing s with
  | zero =>
    unfold fetchPages
    rcases stop_eq s "Chat listing reached the 32-page safety limit." with ⟨_, hstop⟩
    rw [hstop]
    refine ⟨?_, by dsimp only; omega, fun _ _ _ => rfl⟩
    intro hnil
    exact absurd (hstart hnil).2 (Nat.lt_irrefl 0)
  | succ pages ih =>
    unfold fetchPages
    split
    . next hseen =>
      rcases stop_eq s "Chat listing repeated a page cursor." with ⟨_, hstop⟩
      rw [hstop]
      refine ⟨?_, by dsimp only; omega, fun _ _ _ => rfl⟩
      intro hnil
      rw [(hstart hnil).1] at hseen
      contradiction
    . rcases takePage_eq s (server s.received.length (normalizeCursor s.cursor)) includeSubAgents
        with ⟨diagnostics, htake⟩
      rw [htake]
      dsimp only
      have hne : s.received ++ [server s.received.length (normalizeCursor s.cursor)] ≠ [] := by simp
      have hlength : (s.received ++ [server s.received.length (normalizeCursor s.cursor)]).length
          = s.received.length + 1 := by
        rw [length_append, length_singleton]
      split
      . next hnone =>
        refine ⟨hne, by dsimp only; omega, ?_⟩
        intro response hresponse hoffered
        dsimp only at hresponse
        rw [getLast?_concat] at hresponse
        injection hresponse with hresponse
        rw [← hresponse] at hoffered
        exact absurd (Option.isNone_iff_eq_none.mp hnone) hoffered
      . split
        . rcases stop_eq _ "Chat listing made no progress on a page." with ⟨_, hstop⟩
          rw [hstop]
          exact ⟨hne, by dsimp only; omega, fun _ _ _ => rfl⟩
        . apply ih
          . dsimp only
            omega
          . intro hnil
            exact absurd hnil hne

/-! A server that pages through a fixed list -/

structure FixedList where
  pages : List (List (Option ChatSummary))
  /-- the cursors of all pages but the first -/
  cursors : List String

namespace FixedList

variable (f : FixedList)

def page (i : Nat) : AppServerListResponse :=
  { data := (f.pages[i]?).getD [], nextCursor := f.cursors[i]? }

/--
A cursor that the list does not know begins nothing.
-/
def server : ListServer := fun _ cursor =>
  match cursor with
  | none => f.page 0
  | some cursor =>
    match f.cursors.idxOf? cursor with
    | some i => f.page (i + 1)
    | none => { data := [] }

/--
Cursors are distinct, and not blank or with blanks around them; sessions are distinct.
-/
structure Paged : Prop where
  pages : f.pages.length = f.cursors.length + 1
  few : f.pages.length ≤ MAX_CHAT_LIST_PAGES
  distinct : f.cursors.Nodup
  readable : ∀ cursor ∈ f.cursors, cursor ≠ "" ∧ Js.trim cursor = cursor
  sessions : (f.pages.flatten.reduceOption.map (·.id)).Nodup

def admits (includeSubAgents : Bool) (chat : ChatSummary) : Bool :=
  includeSubAgents || !isSubAgentSource chat.sourceKind

def admitted (includeSubAgents : Bool) (pages : List (List (Option ChatSummary))) : List ChatSummary :=
  pages.flatten.reduceOption.filter (admits includeSubAgents)

/--
Every page was requested, and every chat that is admitted is listed once, latest first.
-/
structure Complete (includeSubAgents : Bool) : Prop where
  requested : (listing f.server includeSubAgents).received = (range f.pages.length).map f.page
  listed : (fetchAllChats f.server includeSubAgents).chats ~ admitted includeSubAgents f.pages
  sorted : (fetchAllChats f.server includeSubAgents).chats.Pairwise fun a b => b.updatedAt ≤ a.updatedAt
  whole : (fetchAllChats f.server includeSubAgents).partialResult = false

/--
Every page but the last has a chat that is admitted.
-/
def Productive (includeSubAgents : Bool) : Prop :=
  ∀ page ∈ f.pages.dropLast, ∃ chat ∈ page.reduceOption, admits includeSubAgents chat

/--
What is known after some of the pages.
-/
structure Known (includeSubAgents : Bool) (count : Nat) (s : Listing) : Prop where
  received : s.received = (range count).map f.page
  cursor : s.cursor = if count = 0 then none else f.cursors[count - 1]?
  seen : s.seenCursors = f.cursors.take (count - 1)
  chats : s.chats ~ admitted includeSubAgents (f.pages.take count)
  sorted : s.chats.Pairwise fun a b => b.updatedAt ≤ a.updatedAt
  whole : s.partialResult = false

variable {f} {includeSubAgents : Bool} {count : Nat} {s : Listing}

theorem known_start : f.Known includeSubAgents 0 {} where
  received := rfl
  cursor := rfl
  seen := rfl
  chats := .nil
  sorted := .nil
  whole := rfl

theorem Paged.cursor_readable (h : f.Paged) {i : Nat} {cursor : String} (hi : f.cursors[i]? = some cursor)
    : truthy (some cursor) = some cursor ∧ normalizeCursor (some cursor) = some cursor := by
  have hreadable := h.readable cursor (mem_of_getElem? hi)
  unfold truthy normalizeCursor
  rw [Option.map_some, hreadable.2]
  have hfilter : (some cursor).filter (fun c => decide (c ≠ "")) = some cursor := by
    rw [Option.filter_some]
    exact if_pos (decide_eq_true hreadable.1)
  exact ⟨hfilter, hfilter⟩

theorem Paged.idxOf_cursor (h : f.Paged) {i : Nat} {cursor : String} (hi : f.cursors[i]? = some cursor)
    : f.cursors.idxOf? cursor = some i := by
  rw [List.idxOf?_eq_some_iff]
  rcases List.getElem?_eq_some_iff.mp hi with ⟨hlt, hget⟩
  refine ⟨hlt, hget, ?_⟩
  intro j hj heq
  have hj' : j < f.cursors.length := by omega
  have hsame : j = _ := h.distinct.getElem_inj_iff.mp (heq.trans hget.symm)
  omega

/--
The cursor of what is known is that of a page, which was not asked for yet.
-/
theorem Known.cursor_eq (h : f.Known includeSubAgents count s) (hpaged : f.Paged)
    (hcount : count < f.pages.length)
    : f.server s.received.length (normalizeCursor s.cursor) = f.page count
      ∧ ((truthy s.cursor).any fun cursor => s.seenCursors.contains cursor) = false
      ∧ (truthy s.cursor).toList = if count = 0 then [] else (f.cursors[count - 1]?).toList := by
  rw [h.cursor, h.seen]
  cases count with
  | zero =>
    exact ⟨rfl, rfl, rfl⟩
  | succ count =>
    have hpages := hpaged.pages
    rw [if_neg (Nat.succ_ne_zero count), if_neg (Nat.succ_ne_zero count), Nat.add_sub_cancel]
    have hsome : ∃ cursor, f.cursors[count]? = some cursor := ⟨_, List.getElem?_eq_getElem (by omega)⟩
    rcases hsome with ⟨cursor, hcursor⟩
    have hreadable := hpaged.cursor_readable hcursor
    rw [hcursor, hreadable.1, hreadable.2]
    refine ⟨?_, ?_, rfl⟩
    . unfold FixedList.server
      dsimp only
      rw [hpaged.idxOf_cursor hcursor]
    . rw [Option.any_some, Bool.eq_false_iff]
      intro hseen
      rw [List.contains_iff_mem, mem_take_iff_getElem] at hseen
      rcases hseen with ⟨j, hj, hget⟩
      have hidx := hpaged.idxOf_cursor (i := j) (List.getElem?_eq_some_iff.mpr ⟨by omega, hget⟩)
      rw [hpaged.idxOf_cursor hcursor] at hidx
      injection hidx with hidx
      omega

theorem admitted_append (includeSubAgents : Bool) (pages pages' : List (List (Option ChatSummary)))
    : admitted includeSubAgents (pages ++ pages')
      = admitted includeSubAgents pages ++ admitted includeSubAgents pages' := by
  unfold admitted
  unfold reduceOption
  rw [flatten_append, filterMap_append, filter_append]

theorem mapChatListItems_perm (data : List (Option ChatSummary)) (includeSubAgents : Bool)
    : mapChatListItems data includeSubAgents ~ admitted includeSubAgents [data] := by
  unfold mapChatListItems admitted
  rw [flatten_singleton]
  exact sortByUpdatedAt_perm _

theorem take_succ_pages (hcount : count < f.pages.length)
    : f.pages.take (count + 1) = f.pages.take count ++ [(f.page count).data] := by
  have hget := List.getElem?_eq_getElem hcount
  rw [take_add_one]
  unfold FixedList.page
  rw [hget]
  rfl

theorem Paged.nodup_take (h : f.Paged) (includeSubAgents : Bool) (count : Nat)
    : ((admitted includeSubAgents (f.pages.take count)).map (·.id)).Nodup := by
  refine Nodup.sublist ?_ h.sessions
  apply Sublist.map
  unfold admitted
  apply Sublist.trans filter_sublist
  have hflatten : (f.pages.take count).flatten <+ f.pages.flatten := by
    conv => rhs; rw [← take_append_drop count f.pages, flatten_append]
    exact sublist_append_left _ _
  exact hflatten.filterMap id

/--
The next page adds all of its chats that are admitted.
-/
theorem Known.takePage (h : f.Known includeSubAgents count s) (hpaged : f.Paged)
    (hcount : count < f.pages.length)
    : f.Known includeSubAgents (count + 1) (s.takePage (f.page count) includeSubAgents)
      ∧ (s.takePage (f.page count) includeSubAgents).chats.length
          = s.chats.length + (admitted includeSubAgents [(f.page count).data]).length := by
  rcases takePage_eq s (f.page count) includeSubAgents with ⟨diagnostics, htake⟩
  rw [htake]
  have hnew := h.chats.append (mapChatListItems_perm (f.page count).data includeSubAgents)
  rw [← admitted_append, ← take_succ_pages hcount] at hnew
  have hnodup : ((s.chats ++ mapChatListItems (f.page count).data includeSubAgents).map (·.id)).Nodup :=
    (hnew.map (·.id)).nodup_iff.mpr (hpaged.nodup_take includeSubAgents (count + 1))
  have hmerge := mergeChatSummariesById_perm hnodup
  have hcursor := (h.cursor_eq hpaged hcount).2.2
  refine ⟨⟨?_, ?_, ?_, hmerge.trans hnew, pairwise_sortByUpdatedAt _, ?_⟩, ?_⟩
  . dsimp only
    rw [h.received, range_succ, map_append, map_singleton]
  . rfl
  . dsimp only
    rw [h.seen, hcursor, Nat.add_sub_cancel]
    cases count with
    | zero => rfl
    | succ count =>
      rw [if_neg (Nat.succ_ne_zero count), Nat.add_sub_cancel, take_add_one]
  . dsimp only
    rw [h.whole]
    rfl
  . dsimp only
    rw [hmerge.length_eq, length_append, (mapChatListItems_perm _ _).length_eq]

/--
One round of the loop, when some pages are still to come.
-/
theorem Known.fetchPages_eq (h : f.Known includeSubAgents count s) (hpaged : f.Paged)
    (hcount : count < f.pages.length) (rounds : Nat)
    : fetchPages f.server includeSubAgents (rounds + 1) s =
        if count + 1 = f.pages.length then
          s.takePage (f.page count) includeSubAgents
        else if admitted includeSubAgents [(f.page count).data] = [] then
          (s.takePage (f.page count) includeSubAgents).stop "Chat listing made no progress on a page."
        else
          fetchPages f.server includeSubAgents rounds (s.takePage (f.page count) includeSubAgents) := by
  rcases h.cursor_eq hpaged hcount with ⟨hserver, hunseen, -⟩
  have hnext := h.takePage hpaged hcount
  have hpages := hpaged.pages
  conv => lhs; unfold fetchPages
  rw [hunseen, if_neg Bool.false_ne_true, hserver]
  dsimp only
  rw [hnext.1.cursor, if_neg (Nat.succ_ne_zero count), Nat.add_sub_cancel]
  by_cases hlast : count + 1 = f.pages.length
  . rw [if_pos hlast, if_pos]
    rw [getElem?_eq_none (by omega)]
    rfl
  . have hsome : ∃ cursor, f.cursors[count]? = some cursor := ⟨_, List.getElem?_eq_getElem (by omega)⟩
    rcases hsome with ⟨cursor, hcursor⟩
    rw [if_neg hlast, hcursor, (hpaged.cursor_readable hcursor).1, if_neg (by simp), hnext.2]
    by_cases hnil : admitted includeSubAgents [(f.page count).data] = []
    . rw [if_pos hnil, if_pos]
      rw [hnil, length_nil, Nat.add_zero]
    . rw [if_neg hnil, if_neg]
      have hpos := length_pos_of_ne_nil hnil
      omega

theorem Known.reachesEnd (h : f.Known includeSubAgents count s) (hpaged : f.Paged)
    (hcount : count < f.pages.length) {rounds : Nat} (hrounds : f.pages.length ≤ count + rounds)
    (hproductive : ∀ i, count ≤ i → i + 1 < f.pages.length → admitted includeSubAgents [(f.page i).data] ≠ [])
    : f.Known includeSubAgents f.pages.length (fetchPages f.server includeSubAgents rounds s) := by
  induction rounds generalizing count s with
  | zero => omega
  | succ rounds ih =>
    have hnext := (h.takePage hpaged hcount).1
    rw [h.fetchPages_eq hpaged hcount]
    split
    . next hlast =>
      rw [← hlast]
      exact hnext
    . next hmore =>
      rw [if_neg (hproductive count (Nat.le_refl _) (by omega))]
      apply ih hnext (by omega) (by omega)
      intro i hi
      exact hproductive i (by omega)

theorem Known.cutShort (h : f.Known includeSubAgents count s) (hpaged : f.Paged) {i : Nat} (hcount : count ≤ i)
    (hi : i + 1 < f.pages.length) (hnil : admitted includeSubAgents [(f.page i).data] = []) (rounds : Nat)
    : (fetchPages f.server includeSubAgents rounds s).partialResult = true := by
  induction rounds generalizing count s with
  | zero =>
    unfold fetchPages
    rcases stop_eq s "Chat listing reached the 32-page safety limit." with ⟨_, hstop⟩
    rw [hstop]
  | succ rounds ih =>
    have hnext := (h.takePage hpaged (by omega)).1
    rw [h.fetchPages_eq hpaged (by omega), if_neg (by omega)]
    split
    . rcases stop_eq (s.takePage (f.page count) includeSubAgents) "Chat listing made no progress on a page."
        with ⟨_, hstop⟩
      rw [hstop]
    . next hsome =>
      apply ih hnext
      rcases Nat.eq_or_lt_of_le hcount with heq | hlt
      . rw [heq] at hsome
        exact absurd hnil hsome
      . exact hlt

theorem productive_iff (f : FixedList) (includeSubAgents : Bool)
    : f.Productive includeSubAgents
      ↔ ∀ i, i + 1 < f.pages.length → admitted includeSubAgents [(f.page i).data] ≠ [] := by
  have hdata : ∀ {i : Nat} {page : List (Option ChatSummary)}, f.pages[i]? = some page →
      (admitted includeSubAgents [(f.page i).data] ≠ [] ↔ ∃ chat ∈ page.reduceOption, admits includeSubAgents chat) := by
    intro i page hpage
    unfold admitted FixedList.page
    rw [hpage, Option.getD_some, flatten_singleton, ne_eq, filter_eq_nil_iff]
    push Not
    rfl
  constructor
  . intro h i hi
    have hpage := List.getElem?_eq_getElem (l := f.pages) (i := i) (by omega)
    rw [hdata hpage]
    apply h
    rw [dropLast_eq_take]
    exact mem_of_getElem? (i := i) (by rw [getElem?_take_of_lt (by omega), hpage])
  . intro h page hpage
    rcases mem_iff_getElem?.mp hpage with ⟨i, hi⟩
    have hlt := (List.getElem?_eq_some_iff.mp hi).1
    rw [length_dropLast] at hlt
    rw [getElem?_dropLast, if_pos hlt] at hi
    exact (hdata hi).mp (h i (by omega))

/--
A fixed list is listed completely if and only if every page but the last adds a chat, and whatever a
server answers, the listing ends, it asks for what it was offered, and it says so if it has not reached
the end.
-/
theorem listed_iff (hpaged : f.Paged) (server : ListServer) (includeSubAgents : Bool)
    : (f.Complete includeSubAgents ↔ f.Productive includeSubAgents)
      ∧ Followed server (listing server includeSubAgents) ∧ Marked (listing server includeSubAgents) := by
  have hpages := hpaged.pages
  refine ⟨⟨?_, ?_⟩, ?_, ?_⟩
  . intro hcomplete
    rw [productive_iff]
    intro i hi hnil
    have hpartial := known_start.cutShort hpaged (Nat.zero_le i) hi hnil MAX_CHAT_LIST_PAGES
    have hwhole := hcomplete.whole
    exact Bool.false_ne_true (hwhole.symm.trans hpartial)
  . intro hproductive
    rw [productive_iff] at hproductive
    have hknown := known_start.reachesEnd hpaged (by omega)
      (show f.pages.length ≤ 0 + MAX_CHAT_LIST_PAGES by rw [Nat.zero_add]; exact hpaged.few)
      fun i _ hi => hproductive i hi
    refine ⟨hknown.received, ?_, hknown.sorted, hknown.whole⟩
    have hchats := hknown.chats
    rw [take_length] at hchats
    exact hchats
  . apply fetchPages_followed
    refine ⟨?_, rfl⟩
    intro i response hresponse
    contradiction
  . exact fetchPages_marked _ _ rfl fun _ => ⟨rfl, by decide⟩

def chat (id : String) (updatedAt : Nat) : Option ChatSummary :=
  some { id, updatedAt }

def subAgent (id : String) (updatedAt : Nat) : Option ChatSummary :=
  some { id, sourceKind := some "subAgent", updatedAt }

def twoPages : FixedList :=
  { pages := [[chat "a" 3, subAgent "b" 2], [chat "c" 1]], cursors := ["next"] }

theorem paged_twoPages : twoPages.Paged where
  pages := rfl
  few := by decide
  distinct := by decide
  readable := by decide
  sessions := by decide

theorem listed_twoPages : twoPages.Complete false := by
  have hproductive : twoPages.Productive false := by
    unfold Productive
    decide
  exact (listed_iff paged_twoPages twoPages.server false).1.mpr hproductive

/--
The second page has only sub-agents.
-/
def subAgentsBetween : FixedList :=
  { pages := [[chat "a" 3], [subAgent "b" 2], [chat "c" 1]], cursors := ["second", "third"] }

/--
It passes for a page that makes no progress: the third page is never requested.
-/
theorem not_complete_subAgentsBetween
    : subAgentsBetween.Paged
      ∧ fetchAllChats subAgentsBetween.server false =
          { chats := [{ id := "a", updatedAt := 3 }]
            diagnostics := ["Chat listing made no progress on a page."]
            partialResult := true }
      ∧ ¬subAgentsBetween.Complete false := by
  have hresult : fetchAllChats subAgentsBetween.server false =
      { chats := [{ id := "a", updatedAt := 3 }]
        diagnostics := ["Chat listing made no progress on a page."]
        partialResult := true } := by
    decide +kernel
  refine ⟨⟨rfl, by decide, by decide, by decide, by decide⟩, hresult, ?_⟩
  intro hcomplete
  have hwhole := hcomplete.whole
  rw [hresult] at hwhole
  contradiction

end FixedList

end ChatList

end Mobile
