import TetherBridge.Data.Outcome
import TetherBridge.Preview.Request

/-!
This module contains what the preview proxy forwards: which requests reach the same host with the same query, but without
the credentials of the session.
-/

namespace Preview

open Form

/-! Texts -/

theorem isText_append {text text' : Bytes} : IsText (text ++ text') ↔ IsText text ∧ IsText text' := by
  unfold IsText
  simp only [List.mem_append]
  exact ⟨fun h => ⟨fun b hb => h b (.inl hb), fun b hb => h b (.inr hb)⟩,
    fun h b hb => hb.elim (h.1 b) (h.2 b)⟩

theorem isText_percent (b : UInt8) : IsText (percent b) := by
  have hall : (percent b).all (fun b' => 0x20 < b' ∧ b' ≠ HASH) = true :=
    @forall_byte (fun b => (percent b).all (fun b' => 0x20 < b' ∧ b' ≠ HASH) = true) _ (by decide +kernel) b
  intro b' hb'
  simpa using List.all_eq_true.mp hall b' hb'

theorem isText_unreserved {b : UInt8} (h : isUnreserved b) : 0x20 < b ∧ b ≠ HASH :=
  @forall_byte (fun b => isUnreserved b → 0x20 < b ∧ b ≠ HASH) _ (by decide +kernel) b h

theorem isText_escape {set : UInt8 → Bool} {text : Bytes} (h : IsText text) : IsText (text.flatMap (escape set)) := by
  intro b' hb'
  rw [List.mem_flatMap] at hb'
  rcases hb' with ⟨b, hb, hb'⟩
  unfold escape at hb'
  split at hb'
  . exact isText_percent b b' hb'
  . rw [List.mem_singleton] at hb'
    exact hb' ▸ h b hb

theorem isText_serialize (component : Bytes) : IsText (component.flatMap serializeByte) := by
  intro b' hb'
  rw [List.mem_flatMap] at hb'
  rcases hb' with ⟨b, -, hb'⟩
  unfold serializeByte escape at hb'
  split at hb'
  . rw [List.mem_singleton] at hb'
    subst hb'
    decide
  . split at hb'
    . exact isText_percent b b' hb'
    . next hreserved =>
      rw [Bool.not_eq_true', Bool.not_eq_false] at hreserved
      rw [List.mem_singleton] at hb'
      exact hb' ▸ isText_unreserved hreserved

theorem isText_serializePair (pair : Bytes × Bytes) : IsText (serializePair pair) := by
  unfold serializePair
  rw [isText_append]
  refine ⟨isText_serialize _, ?_⟩
  intro b hb
  rcases List.mem_cons.mp hb with rfl | hb
  . decide
  . exact isText_serialize _ b hb

theorem isText_serializePairs (pairs : List (Bytes × Bytes)) : IsText (serializePairs pairs) := by
  unfold serializePairs
  induction pairs with
  | nil => exact fun b hb => by contradiction
  | cons pair pairs ih =>
    cases pairs with
    | nil =>
      rw [List.map_singleton, List.intercalate_singleton]
      exact isText_serializePair pair
    | cons next pairs =>
      rw [List.map_cons, List.intercalate_cons_of_ne_nil (by simp), isText_append, isText_append]
      refine ⟨⟨isText_serializePair pair, ?_⟩, ih⟩
      intro b hb
      rw [List.mem_singleton] at hb
      subst hb
      decide

/--
What is escaped in a query neither separates pairs nor is part of an escape.
-/
theorem spares_inSpecialQuerySet : Spares inSpecialQuerySet where
  loose :=
    @forall_byte (fun b => inSpecialQuerySet b → hexValue b = none ∧ b ≠ PERCENT) _ (by decide +kernel)
  separators := by decide

def pairsOf (query : Option Bytes) : List (Bytes × Bytes) :=
  parsePairs (query.getD [])

theorem pairsOf_escape (query : Option Bytes)
    : pairsOf (query.map (·.flatMap (escape inSpecialQuerySet))) = pairsOf query := by
  unfold pairsOf
  cases query with
  | none => rfl
  | some query => exact parsePairs_escape spares_inSpecialQuerySet query

/-! What is read from a URI -/

def BootstrapQuery.Keeps (pair : String × String) : Prop :=
  pair.1 ≠ "sid" ∧ pair.1 ≠ "st" ∧ pair.1 ≠ "frame"

instance (pair : String × String) : Decidable (BootstrapQuery.Keeps pair) :=
  inferInstanceAs (Decidable (_ ∧ _ ∧ _))

theorem read_retainedPairs (s : BootstrapQuery) (pair : String × String)
    : (s.read pair).retainedPairs = s.retainedPairs ++ [pair].filter (BootstrapQuery.Keeps ·) := by
  rcases pair with ⟨key, value⟩
  have hkeep : ∀ s : BootstrapQuery, BootstrapQuery.Keeps (key, value) →
      (s.retain (key, value)).retainedPairs
        = s.retainedPairs ++ [(key, value)].filter (BootstrapQuery.Keeps ·) := by
    intro s hkeeps
    rw [List.filter_cons_of_pos (by simpa using hkeeps)]
    rfl
  have hdrop : ¬BootstrapQuery.Keeps (key, value) →
      s.retainedPairs = s.retainedPairs ++ [(key, value)].filter (BootstrapQuery.Keeps ·) := by
    intro hkeeps
    rw [List.filter_cons_of_neg (by simpa using hkeeps), List.filter_nil, List.append_nil]
  unfold BootstrapQuery.read
  dsimp only
  split
  . next heq => exact hdrop fun hkeeps => hkeeps.1 heq
  . next hsid =>
    split
    . next heq => exact hdrop fun hkeeps => hkeeps.2.1 heq
    . next hst =>
      by_cases hframe : key = "frame"
      . subst hframe
        exact hdrop fun hkeeps => hkeeps.2.2 rfl
      . have hkeeps : BootstrapQuery.Keeps (key, value) := ⟨hsid, hst, hframe⟩
        split
        . exact hkeep _ hkeeps
        . split
          . exact hkeep _ hkeeps
          . split
            . exact hkeep _ hkeeps
            . split
              . exact hkeep _ hkeeps
              . exact hkeep _ hkeeps

theorem foldl_read_retainedPairs (pairs : List (String × String)) (s : BootstrapQuery)
    : (pairs.foldl BootstrapQuery.read s).retainedPairs
        = s.retainedPairs ++ pairs.filter (BootstrapQuery.Keeps ·) := by
  induction pairs generalizing s with
  | nil => rw [List.filter_nil, List.append_nil, List.foldl_nil]
  | cons pair pairs ih =>
    rw [List.foldl_cons, ih, read_retainedPairs, List.append_assoc, ← List.filter_append, List.singleton_append]

/-! The texts that are parsed -/

section

variable {c : UrlCrate} (hc : c.Lawful)
include hc

theorem isSpecial_of_parse {text : Bytes} {url : c.Url} (h : c.parse (PREVIEW_BASE ++ text) = .ok url)
    : c.IsSpecial url := by
  unfold UrlCrate.IsSpecial
  rw [hc.scheme_parse text url h]
  decide

/--
A path with a query is parsed as the path alone is, and gets the query.
-/
theorem parse_querySuffix {path : Bytes} {query : Option Bytes} (hpath : IsPath path)
    (hquery : ∀ text, query = some text → IsText text)
    : c.parse (PREVIEW_BASE ++ (path ++ querySuffix query))
        = (c.parse (PREVIEW_BASE ++ path)).map fun url => query.elim url fun text => c.setQuery url (some text) := by
  cases query with
  | none =>
    change c.parse (PREVIEW_BASE ++ (path ++ [])) = (c.parse (PREVIEW_BASE ++ path)).map id
    rw [List.append_nil]
    cases c.parse (PREVIEW_BASE ++ path) <;> rfl
  | some text =>
    rw [← List.append_assoc]
    exact hc.parse_query path text hpath (hquery text rfl)

theorem query_of_parse {path : Bytes} {query : Option Bytes} {url : c.Url} (hpath : IsPath path)
    (hquery : ∀ text, query = some text → IsText text)
    (h : c.parse (PREVIEW_BASE ++ (path ++ querySuffix query)) = .ok url)
    : c.query url = query.map (·.flatMap (escape inSpecialQuerySet)) := by
  rw [parse_querySuffix hc hpath hquery] at h
  cases hparse : c.parse (PREVIEW_BASE ++ path) with
  | error _ =>
    rw [hparse] at h
    contradiction
  | ok parsed =>
    rw [hparse] at h
    injection h with h
    rw [← h]
    cases query with
    | none => exact hc.query_parse path parsed hpath hparse
    | some text => exact hc.query_setQuery parsed (some text) (isSpecial_of_parse hc hparse)

theorem isText_of_parse {path : Bytes} {query : Option Bytes} {url : c.Url} (hpath : IsPath path)
    (hquery : ∀ text, query = some text → IsText text)
    (h : c.parse (PREVIEW_BASE ++ (path ++ querySuffix query)) = .ok url)
    : ∀ text, c.query url = some text → IsText text := by
  intro text htext
  rw [query_of_parse hc hpath hquery h, Option.map_eq_some_iff] at htext
  rcases htext with ⟨raw, hraw, rfl⟩
  exact isText_escape (hquery raw hraw)

theorem pairs_of_parse {path : Bytes} {query : Option Bytes} {url : c.Url} (hpath : IsPath path)
    (hquery : ∀ text, query = some text → IsText text)
    (h : c.parse (PREVIEW_BASE ++ (path ++ querySuffix query)) = .ok url)
    : pairsOf (c.query url) = pairsOf query := by
  rw [query_of_parse hc hpath hquery h, pairsOf_escape]

/-! The URL without the credentials -/

omit hc in
/--
The bytes of a name and its value.
-/
def utf8Pair (pair : String × String) : Bytes × Bytes :=
  (utf8 pair.1, utf8 pair.2)

theorem query_foldl_appendPair (pairs : List (String × String)) (url : c.Url) {query : Bytes}
    (hquery : c.query url = some query) (hne : query ≠ [])
    : c.query (pairs.foldl c.appendPair url)
        = some (query ++ (pairs.map utf8Pair).flatMap fun pair => AMPERSAND :: serializePair pair) := by
  induction pairs generalizing url query with
  | nil => rw [List.foldl_nil, hquery, List.map_nil, List.flatMap_nil, List.append_nil]
  | cons pair pairs ih =>
    have hpair : c.query (c.appendPair url pair) = some (query ++ [AMPERSAND] ++ serializePair (utf8Pair pair)) := by
      rw [hc.query_appendPair, hquery]
      cases query with
      | nil => contradiction
      | cons b query => rfl
    rw [List.foldl_cons, ih _ hpair (by simp), List.map_cons, List.flatMap_cons]
    simp only [List.append_assoc, List.cons_append, List.nil_append]

theorem pairs_withPairs {url : c.Url} (hspecial : c.IsSpecial url) (pairs : List (String × String))
    : pairsOf (c.query (withPairs c url pairs)) = pairs.map utf8Pair
        ∧ ∀ text, c.query (withPairs c url pairs) = some text → IsText text := by
  have hnone : c.query (c.setQuery url none) = none := hc.query_setQuery url none hspecial
  unfold withPairs
  cases pairs with
  | nil =>
    rw [List.foldl_nil, hnone]
    exact ⟨rfl, fun _ h => by contradiction⟩
  | cons pair pairs =>
    have hpair : c.query (c.appendPair (c.setQuery url none) pair) = some (serializePair (utf8Pair pair)) := by
      rw [hc.query_appendPair, hnone]
      rfl
    have hquery := query_foldl_appendPair hc pairs _ hpair (serializePair_ne_nil _)
    rw [← serializePairs_cons, ← List.map_cons] at hquery
    rw [List.foldl_cons, hquery]
    refine ⟨parsePairs_serializePairs _, ?_⟩
    intro text htext
    injection htext with htext
    exact htext ▸ isText_serializePairs _

theorem path_withPairs (url : c.Url) (pairs : List (String × String)) : c.path (withPairs c url pairs) = c.path url := by
  unfold withPairs
  have hfold : ∀ url, c.path (pairs.foldl c.appendPair url) = c.path url := by
    induction pairs with
    | nil => exact fun _ => rfl
    | cons pair pairs ih =>
      intro url
      rw [List.foldl_cons, ih, hc.path_appendPair]
  rw [hfold, hc.path_setQuery]

/-! The target -/

def upstreamScheme (websocket : Bool) (scheme : String) : String :=
  if websocket then (if scheme = "https" then "wss" else "ws") else scheme

def IsHttp (url : c.Url) : Prop :=
  c.scheme url = "http" ∨ c.scheme url = "https"

theorem normalize_ok {raw : String} {url : c.Url} (h : normalizeBrowserPreviewTargetUrl c raw = .ok url)
    : IsHttp url ∧ ∃ host, c.hostStr url = some host ∧ IsLoopback host := by
  unfold normalizeBrowserPreviewTargetUrl at h
  dsimp only at h
  simp only [bind, Except.bind, pure, Except.pure, throw, throwThe, MonadExceptOf.throw] at h
  split at h
  . exact nomatch h
  . split at h
    . exact nomatch h
    . next parsed _ =>
      split at h
      . exact nomatch h
      . next hscheme =>
        split at h
        . exact nomatch h
        . split at h
          . exact nomatch h
          . next host hhost =>
            split at h
            . next hloopback =>
              injection h with h
              have horigin := hc.originOf_clearFragment parsed
              unfold UrlCrate.originOf at horigin
              rw [Prod.mk.injEq, Prod.mk.injEq] at horigin
              rw [← h]
              refine ⟨?_, host, ?_, hloopback⟩
              . unfold IsHttp
                rw [horigin.1]
                by_contra hother
                exact hscheme (not_or.mp hother)
              . rw [horigin.2.1, hhost]
            . exact nomatch h

theorem decodeToken_ok {base64Decode : Bytes → Except String Bytes} {token : Bytes} {url : c.Url}
    (h : decodePreviewProxyOriginToken c base64Decode token = .ok url)
    : IsHttp url ∧ ∃ host, c.hostStr url = some host ∧ IsLoopback host := by
  unfold decodePreviewProxyOriginToken at h
  simp only [bind, Except.bind, pure, Except.pure, throw, throwThe, MonadExceptOf.throw] at h
  split at h
  . exact nomatch h
  . split at h
    . exact nomatch h
    . split at h
      . exact nomatch h
      . next decoded hnormalize =>
        injection h with h
        have hdecoded := normalize_ok hc hnormalize
        have horigin := (hc.originOf_clearFragment (c.setQuery decoded none)).trans (hc.originOf_setQuery decoded none)
        unfold UrlCrate.originOf at horigin
        rw [Prod.mk.injEq, Prod.mk.injEq] at horigin
        rw [← h]
        unfold IsHttp
        rw [horigin.1, horigin.2.1]
        exact hdecoded

/--
Where a request goes: to the target of the session, or to a loopback address that its path names.
-/
def IsTarget (base64Decode : Bytes → Except String Bytes) (sessionTargetUrl target : c.Url) : Prop :=
  target = sessionTargetUrl
    ∨ (∃ token, decodePreviewProxyOriginToken c base64Decode token = .ok target)
      ∧ ∃ host, c.hostStr target = some host ∧ IsLoopback host

omit hc in
theorem mem_of_mem_splitFirst {separator b : UInt8} {text : Bytes} (h : b ∈ (splitFirst separator text).2) : b ∈ text := by
  induction text with
  | nil => exact h
  | cons first text ih =>
    unfold splitFirst at h
    split at h
    . exact List.mem_cons_of_mem _ h
    . exact List.mem_cons_of_mem _ (ih h)

omit hc in
/--
What comes after the token in a path is a path.
-/
theorem isPath_remainder {path : Bytes} (h : IsPath path) (n : Nat)
    : IsPath (SLASH :: (splitFirst SLASH (path.drop n)).2) := by
  have hmem : ∀ b ∈ (splitFirst SLASH (path.drop n)).2, b ∈ path := fun b hb =>
    List.mem_of_mem_drop (mem_of_mem_splitFirst hb)
  constructor
  . intro b hb
    rcases List.mem_cons.mp hb with rfl | hb
    . decide
    . exact h.1 b (hmem b hb)
  . intro hb
    rcases List.mem_cons.mp hb with heq | hb
    . exact absurd heq (by decide)
    . exact h.2 (hmem _ hb)

theorem resolve_ok {base64Decode : Bytes → Except String Bytes} {session : c.Url} {path : Bytes} {query : Option Bytes}
    {target : PreviewRequestTarget c} (hsession : IsHttp session) (hpath : IsPath path)
    (hquery : ∀ text, query = some text → IsText text)
    (h : resolvePreviewRequestTarget c base64Decode session (path ++ querySuffix query) = .ok target)
    : IsTarget base64Decode session target.targetUrl
        ∧ IsHttp target.targetUrl
        ∧ ∃ path' query', target.pathAndQuery = path' ++ querySuffix query'
          ∧ IsPath path'
          ∧ (∀ text, query' = some text → IsText text)
          ∧ pairsOf query' = pairsOf query := by
  unfold resolvePreviewRequestTarget at h
  simp only [bind, Except.bind, pure, Except.pure, throw, throwThe, MonadExceptOf.throw] at h
  split at h
  . exact nomatch h
  . next parsed hparse =>
    split at h
    . split at h
      . exact nomatch h
      . split at h
        . exact nomatch h
        . next decoded hdecoded =>
          injection h with h
          have htarget := decodeToken_ok hc hdecoded
          rw [← h]
          refine ⟨.inr ⟨⟨_, hdecoded⟩, htarget.2⟩, htarget.1, _, c.query parsed, rfl, ?_,
            isText_of_parse hc hpath hquery hparse, pairs_of_parse hc hpath hquery hparse⟩
          exact isPath_remainder (hc.path_parse _ parsed hparse) _
    . injection h with h
      rw [← h]
      exact ⟨.inl rfl, hsession, path, query, rfl, hpath, hquery, rfl⟩

/--
The parts of a URL that are set leave its origin alone.
-/
theorem pairs_setQuery {upstream : c.Url} (hspecial : c.IsSpecial upstream) (path : Bytes) (query : Option Bytes)
    : c.originOf (c.setQuery (c.setPath upstream path) query) = c.originOf upstream
        ∧ pairsOf (c.query (c.setQuery (c.setPath upstream path) query)) = pairsOf query := by
  have hpath := hc.originOf_setPath upstream path
  have hscheme : c.IsSpecial (c.setPath upstream path) := by
    unfold UrlCrate.IsSpecial at hspecial ⊢
    unfold UrlCrate.originOf at hpath
    rw [Prod.mk.injEq] at hpath
    rw [hpath.1]
    exact hspecial
  rw [hc.originOf_setQuery, hpath, hc.query_setQuery _ _ hscheme]
  exact ⟨rfl, pairsOf_escape query⟩

omit hc in
theorem isSpecial_upstreamScheme {target : c.Url} (htarget : IsHttp target) (websocket : Bool)
    : upstreamScheme websocket (c.scheme target) ∈ ["http", "https", "ws", "wss"] := by
  unfold IsHttp at htarget
  unfold upstreamScheme
  cases websocket with
  | true =>
    rw [if_pos rfl]
    split <;> simp
  | false =>
    rw [if_neg Bool.false_ne_true]
    rcases htarget with htarget | htarget
    . simp [htarget]
    . simp [htarget]

theorem build_ok {target : c.Url} {path : Bytes} {query : Option Bytes} {websocket : Bool} {url : c.Url}
    (htarget : IsHttp target) (hpath : IsPath path) (hquery : ∀ text, query = some text → IsText text)
    (h : buildPreviewUpstreamUrl c target (path ++ querySuffix query) websocket = .ok url)
    : c.originOf url = (upstreamScheme websocket (c.scheme target), c.hostStr target, c.port target)
        ∧ pairsOf (c.query url) = pairsOf query := by
  unfold buildPreviewUpstreamUrl at h
  simp only [bind, Except.bind, pure, Except.pure, throw, throwThe, MonadExceptOf.throw] at h
  split at h
  . exact nomatch h
  . next parsed hparse =>
    have hpairs := pairs_of_parse hc hpath hquery hparse
    have hscheme := isSpecial_upstreamScheme htarget websocket
    suffices hupstream : ∃ upstream,
        c.originOf upstream = (upstreamScheme websocket (c.scheme target), c.hostStr target, c.port target)
          ∧ c.setQuery (c.setPath upstream (c.path parsed)) (c.query parsed) = url by
      rcases hupstream with ⟨upstream, horigin, hurl⟩
      have hspecial : c.IsSpecial upstream := by
        have hself := horigin
        unfold UrlCrate.originOf at hself
        rw [Prod.mk.injEq] at hself
        unfold UrlCrate.IsSpecial
        rw [hself.1]
        exact hscheme
      have hset := pairs_setQuery hc hspecial (c.path parsed) (c.query parsed)
      rw [← hurl]
      exact ⟨hset.1.trans horigin, hset.2.trans hpairs⟩
    split at h
    . next hwebsocket =>
      split at h
      . next upstream hupstream =>
        injection h with h
        refine ⟨upstream, ?_, h⟩
        rw [hc.originOf_setScheme _ _ _ hupstream]
        unfold upstreamScheme
        rw [if_pos hwebsocket]
      . exact nomatch h
    . next hwebsocket =>
      injection h with h
      refine ⟨target, ?_, h⟩
      unfold upstreamScheme
      rw [if_neg hwebsocket]
      rfl

/-! The request -/

/--
What is forwarded for a path with a query: the pairs of the query, to a target.
-/
theorem forward_ok {base64Decode : Bytes → Except String Bytes} {session : c.Url} {websocket : Bool} {path : Bytes}
    {query : Option Bytes} {url : c.Url} (hsession : IsHttp session) (hpath : IsPath path)
    (hquery : ∀ text, query = some text → IsText text)
    (h : (do
      let target ← resolvePreviewRequestTarget c base64Decode session (path ++ querySuffix query)
      buildPreviewUpstreamUrl c target.targetUrl target.pathAndQuery websocket) = .ok url)
    : (∃ target, IsTarget base64Decode session target
          ∧ c.originOf url = (upstreamScheme websocket (c.scheme target), c.hostStr target, c.port target))
        ∧ pairsOf (c.query url) = pairsOf query := by
  rw [Except.bind_eq_ok] at h
  rcases h with ⟨target, hresolve, hbuild⟩
  rcases resolve_ok hc hsession hpath hquery hresolve
    with ⟨htarget, hhttp, path', query', hforward, hpath', hquery', hpairs⟩
  rw [hforward] at hbuild
  have hbuilt := build_ok hc hhttp hpath' hquery' hbuild
  exact ⟨⟨target.targetUrl, htarget, hbuilt.1⟩, hbuilt.2.trans hpairs⟩

end

namespace Uri

def pairs (uri : Uri) : List (Bytes × Bytes) :=
  pairsOf uri.query

/--
The requests differ in the pairs `sid` and `st` only.
-/
structure SameButCredentials (uri uri' : Uri) : Prop where
  origin : uri'.origin = uri.origin
  path : uri'.pathAndQuery.map PathAndQuery.path = uri.pathAndQuery.map PathAndQuery.path
  pairs : uri'.pairs.filter (fun pair => pair.1 ≠ utf8 "sid" ∧ pair.1 ≠ utf8 "st")
    = uri.pairs.filter (fun pair => pair.1 ≠ utf8 "sid" ∧ pair.1 ≠ utf8 "st")

end Uri

/--
A pair that is meant for the application.
-/
def IsForwarded (pair : Bytes × Bytes) : Prop :=
  pair.1 ≠ utf8 "sid" ∧ pair.1 ≠ utf8 "st" ∧ pair.1 ≠ utf8 "frame"

instance (pair : Bytes × Bytes) : Decidable (IsForwarded pair) :=
  inferInstanceAs (Decidable (_ ∧ _ ∧ _))

/--
What the proxy is to do with a request: forward it to a target, with all pairs as they are, and without the credentials,
so that these make no difference.
-/
structure Transparent (c : UrlCrate) (base64Decode : Bytes → Except String Bytes) (session : c.Url) (websocket : Bool)
    (uri : Uri) (url : c.Url) : Prop where
  origin : ∃ target, IsTarget base64Decode session target
    ∧ c.originOf url = (upstreamScheme websocket (c.scheme target), c.hostStr target, c.port target)
  credentials : ∀ pair ∈ pairsOf (c.query url), pair.1 ≠ utf8 "sid" ∧ pair.1 ≠ utf8 "st"
  pairs : (pairsOf (c.query url)).filter (·.1 ≠ utf8 "frame") = uri.pairs.filter (IsForwarded ·)
  sameUrl : ∀ uri' : Uri, uri.SameButCredentials uri' →
    previewUpstreamUrl c base64Decode session websocket uri' = .ok url

def IsUtf8 (bytes : Bytes) : Prop :=
  ∃ text, utf8 text = bytes

section

variable {c : UrlCrate}

def lossyPair (c : UrlCrate) (pair : Bytes × Bytes) : String × String :=
  (c.lossy pair.1, c.lossy pair.2)

variable (hc : c.Lawful)
include hc

theorem utf8_injective {text text' : String} (h : utf8 text = utf8 text') : text = text' := by
  rw [← hc.lossy_utf8 text, ← hc.lossy_utf8 text', h]

theorem isUtf8_iff (bytes : Bytes) : IsUtf8 bytes ↔ utf8 (c.lossy bytes) = bytes := by
  constructor
  . rintro ⟨text, rfl⟩
    rw [hc.lossy_utf8]
  . intro h
    exact ⟨_, h⟩

/--
A text without a replacement character is read from its own bytes only.
-/
theorem lossy_eq_iff {text : String} (htext : '�' ∉ text.toList) (bytes : Bytes)
    : c.lossy bytes = text ↔ bytes = utf8 text := by
  constructor
  . intro h
    rw [← h]
    by_contra hne
    exact htext (h ▸ hc.lossy_replaces bytes (Ne.symm hne))
  . rintro rfl
    exact hc.lossy_utf8 text

theorem keeps_lossyPair (pair : Bytes × Bytes) : BootstrapQuery.Keeps (lossyPair c pair) ↔ IsForwarded pair := by
  unfold BootstrapQuery.Keeps IsForwarded lossyPair
  rw [ne_eq, ne_eq, ne_eq, lossy_eq_iff hc (by decide), lossy_eq_iff hc (by decide), lossy_eq_iff hc (by decide)]

/--
The pairs that are left of the query of a request.
-/
theorem retained_eq {url : c.Url} {pairs : List (Bytes × Bytes)} (h : pairsOf (c.query url) = pairs)
    : ((c.queryPairs url).foldl BootstrapQuery.read {}).retainedPairs
        = (pairs.filter (IsForwarded ·)).map (lossyPair c) := by
  have hpairs : c.queryPairs url = pairs.map (lossyPair c) := by
    rw [← h]
    rfl
  rw [foldl_read_retainedPairs, hpairs, List.filter_map]
  change [] ++ _ = _
  rw [List.nil_append]
  congr 1
  apply List.filter_congr
  intro pair _
  exact decide_eq_decide.mpr (keeps_lossyPair hc pair)

omit hc in
theorem location_isPath (uri : Uri) : IsPath uri.location := by
  unfold Uri.location
  cases hpath : uri.pathAndQuery with
  | none =>
    rw [Option.elim_none, List.append_nil]
    exact uri.origin_isPath
  | some pathAndQuery =>
    have hshown : IsPath pathAndQuery.shownPath := by
      unfold PathAndQuery.shownPath
      split
      . exact ⟨by intro b hb; rw [List.mem_singleton] at hb; subst hb; decide, by decide⟩
      . exact pathAndQuery.path_isPath
    rw [Option.elim_some]
    refine ⟨isText_append.mpr ⟨uri.origin_isPath.1, hshown.1⟩, ?_⟩
    rw [List.mem_append, not_or]
    exact ⟨uri.origin_isPath.2, hshown.2⟩

omit hc in
theorem query_isText (uri : Uri) : ∀ text, uri.query = some text → IsText text := by
  intro text htext
  unfold Uri.query at htext
  rw [Option.bind_eq_some_iff] at htext
  rcases htext with ⟨pathAndQuery, -, htext⟩
  exact pathAndQuery.query_isText text htext

omit hc in
theorem location_eq_of_same {uri uri' : Uri} (h : uri.SameButCredentials uri') : uri'.location = uri.location := by
  have hpath := h.path
  unfold Uri.location
  rw [h.origin]
  congr 1
  cases hself : uri.pathAndQuery with
  | none =>
    rw [hself, Option.map_none, Option.map_eq_none_iff] at hpath
    rw [hpath]
  | some pathAndQuery =>
    rw [hself, Option.map_some, Option.map_eq_some_iff] at hpath
    rcases hpath with ⟨pathAndQuery', hself', hpath⟩
    rw [hself']
    unfold PathAndQuery.shownPath
    rw [Option.elim_some, Option.elim_some, hpath]

/-! Requests whose URI is parsed -/

/--
The text that is left of a request, and the URL it is read from.
-/
theorem params_of_parse {uri : Uri} {url : c.Url} (h : c.parse (PREVIEW_BASE ++ uri.location) = .ok url)
    : ∃ parsed, c.parse (PREVIEW_BASE ++ uri.text) = .ok parsed
        ∧ (parsePreviewBootstrapParams c uri).sanitizedPathAndQuery
          = pathAndQueryOf c (withPairs c url ((uri.pairs.filter (IsForwarded ·)).map (lossyPair c))) := by
  have hparse := parse_querySuffix hc (location_isPath uri) (query_isText uri)
  rw [h] at hparse
  change c.parse (PREVIEW_BASE ++ uri.text) = .ok (uri.query.elim url fun text => c.setQuery url (some text)) at hparse
  have hpairs := pairs_of_parse hc (location_isPath uri) (query_isText uri) hparse
  have hreset : c.setQuery (uri.query.elim url fun text => c.setQuery url (some text)) none = c.setQuery url none := by
    cases uri.query with
    | none => rfl
    | some text => exact hc.setQuery_setQuery url (some text) none
  refine ⟨_, hparse, ?_⟩
  unfold parsePreviewBootstrapParams
  rw [hparse]
  dsimp only
  rw [retained_eq hc hpairs]
  unfold withPairs
  rw [hreset]
  rfl

theorem parse_location_of_parse {uri : Uri} {parsed : c.Url} (h : c.parse (PREVIEW_BASE ++ uri.text) = .ok parsed)
    : ∃ url, c.parse (PREVIEW_BASE ++ uri.location) = .ok url := by
  have hparse := parse_querySuffix hc (location_isPath uri) (query_isText uri)
  change c.parse (PREVIEW_BASE ++ uri.text) = _ at hparse
  rw [h] at hparse
  cases hlocation : c.parse (PREVIEW_BASE ++ uri.location) with
  | error _ =>
    rw [hlocation] at hparse
    exact nomatch hparse
  | ok url => exact ⟨url, rfl⟩

variable {base64Decode : Bytes → Except String Bytes} {session url : c.Url} {websocket : Bool} {uri : Uri}

/--
The pairs that reach the target, when the URI is parsed.
-/
theorem forward_of_parse (hsession : IsHttp session) {parsed : c.Url}
    (hparse : c.parse (PREVIEW_BASE ++ uri.text) = .ok parsed)
    (h : previewUpstreamUrl c base64Decode session websocket uri = .ok url)
    : (∃ target, IsTarget base64Decode session target
          ∧ c.originOf url = (upstreamScheme websocket (c.scheme target), c.hostStr target, c.port target))
        ∧ pairsOf (c.query url) = ((uri.pairs.filter (IsForwarded ·)).map (lossyPair c)).map utf8Pair := by
  rcases parse_location_of_parse hc hparse with ⟨location, hlocation⟩
  rcases params_of_parse hc hlocation with ⟨_, -, hparams⟩
  have hwith := pairs_withPairs hc (isSpecial_of_parse hc hlocation)
    ((uri.pairs.filter (IsForwarded ·)).map (lossyPair c))
  have hpath : IsPath (c.path (withPairs c location ((uri.pairs.filter (IsForwarded ·)).map (lossyPair c)))) := by
    rw [path_withPairs hc]
    exact hc.path_parse _ location hlocation
  unfold previewUpstreamUrl at h
  dsimp only at h
  rw [hparams] at h
  have hforward := forward_ok hc hsession hpath hwith.2 h
  exact ⟨hforward.1, hforward.2.trans hwith.1⟩

/--
Requests that differ in their credentials only are forwarded alike.
-/
theorem sameUrl_of_parse {parsed : c.Url} (hparse : c.parse (PREVIEW_BASE ++ uri.text) = .ok parsed) {uri' : Uri}
    (hsame : uri.SameButCredentials uri')
    : previewUpstreamUrl c base64Decode session websocket uri'
        = previewUpstreamUrl c base64Decode session websocket uri := by
  rcases parse_location_of_parse hc hparse with ⟨location, hlocation⟩
  have hlocation' := hlocation
  rw [← location_eq_of_same hsame] at hlocation'
  rcases params_of_parse hc hlocation with ⟨_, -, hparams⟩
  rcases params_of_parse hc hlocation' with ⟨_, -, hparams'⟩
  have hforwarded : ∀ pairs : List (Bytes × Bytes), pairs.filter (IsForwarded ·)
      = (pairs.filter fun pair => pair.1 ≠ utf8 "sid" ∧ pair.1 ≠ utf8 "st").filter (·.1 ≠ utf8 "frame") := by
    intro pairs
    rw [List.filter_filter]
    apply List.filter_congr
    intro pair _
    have hiff : IsForwarded pair ↔ pair.1 ≠ utf8 "frame" ∧ pair.1 ≠ utf8 "sid" ∧ pair.1 ≠ utf8 "st" :=
      ⟨fun h => ⟨h.2.2, h.1, h.2.1⟩, fun h => ⟨h.2.1, h.2.2, h.1⟩⟩
    rw [← Bool.decide_and]
    exact decide_eq_decide.mpr hiff
  unfold previewUpstreamUrl
  dsimp only
  rw [hparams, hparams', hforwarded, hforwarded, hsame.pairs]

/-! Requests whose URI is not parsed -/

omit hc in
theorem isPath_slash : IsPath [SLASH] :=
  ⟨by intro b hb; rw [List.mem_singleton] at hb; subst hb; decide, by decide⟩

omit hc in
/--
Then the path and the query are forwarded as they are.
-/
theorem params_of_error {message : String} (hparse : c.parse (PREVIEW_BASE ++ uri.text) = .error message)
    : ∃ path, (parsePreviewBootstrapParams c uri).sanitizedPathAndQuery = path ++ querySuffix uri.query
        ∧ IsPath path := by
  unfold parsePreviewBootstrapParams
  rw [hparse]
  dsimp only
  unfold Uri.query
  cases uri.pathAndQuery with
  | none => exact ⟨[SLASH], rfl, isPath_slash⟩
  | some pathAndQuery =>
    rw [Option.map_some, Option.bind_some]
    by_cases hempty : pathAndQuery.path = [] ∧ pathAndQuery.query = none
    . have hself : pathAndQuery.asStr = [SLASH] := if_pos hempty
      rw [hself, hempty.2]
      exact ⟨[SLASH], rfl, isPath_slash⟩
    . have hself : pathAndQuery.asStr = pathAndQuery.path ++ querySuffix pathAndQuery.query := if_neg hempty
      have hne : pathAndQuery.path ++ querySuffix pathAndQuery.query ≠ [] := by
        intro hnil
        rw [List.append_eq_nil_iff] at hnil
        apply hempty
        refine ⟨hnil.1, ?_⟩
        cases hquery : pathAndQuery.query with
        | none => rfl
        | some text =>
          rw [hquery] at hnil
          exact nomatch hnil.2
      refine ⟨pathAndQuery.path, ?_, pathAndQuery.path_isPath⟩
      rw [hself, Option.filter_some_pos (by simpa using hne)]
      rfl

theorem forward_of_error (hsession : IsHttp session) {message : String}
    (hparse : c.parse (PREVIEW_BASE ++ uri.text) = .error message)
    (h : previewUpstreamUrl c base64Decode session websocket uri = .ok url)
    : (∃ target, IsTarget base64Decode session target
          ∧ c.originOf url = (upstreamScheme websocket (c.scheme target), c.hostStr target, c.port target))
        ∧ pairsOf (c.query url) = uri.pairs := by
  rcases params_of_error hparse with ⟨path, hparams, hpath⟩
  unfold previewUpstreamUrl at h
  dsimp only at h
  rw [hparams] at h
  exact forward_ok hc hsession hpath (query_isText uri) h

omit hc in
/--
The request with credentials behind its query.
-/
theorem exists_withCredentials {pathAndQuery : PathAndQuery} (h : uri.pathAndQuery = some pathAndQuery)
    : ∃ uri' : Uri, uri.SameButCredentials uri' ∧ uri'.pairs = uri.pairs ++ [(utf8 "sid", utf8 "1")] := by
  have htext : IsText (pathAndQuery.query.getD [] ++ AMPERSAND :: serializePair (utf8 "sid", utf8 "1")) := by
    rw [isText_append]
    constructor
    . intro b hb
      cases hquery : pathAndQuery.query with
      | none =>
        rw [hquery] at hb
        contradiction
      | some text =>
        rw [hquery] at hb
        exact pathAndQuery.query_isText text hquery b hb
    . intro b hb
      rcases List.mem_cons.mp hb with rfl | hb
      . decide
      . exact isText_serializePair _ b hb
  let uri' : Uri :=
    { uri with
      pathAndQuery := some
        { pathAndQuery with
          query := some (pathAndQuery.query.getD [] ++ AMPERSAND :: serializePair (utf8 "sid", utf8 "1"))
          query_isText := by
            intro text heq
            injection heq with heq
            exact heq ▸ htext } }
  have hpairs : uri'.pairs = uri.pairs ++ [(utf8 "sid", utf8 "1")] := by
    have hquery : uri.query = pathAndQuery.query := by
      unfold Uri.query
      rw [h, Option.bind_some]
    change parsePairs (pathAndQuery.query.getD [] ++ AMPERSAND :: serializePair (utf8 "sid", utf8 "1")) = _
    rw [parsePairs_append_serializePair]
    unfold Uri.pairs pairsOf
    rw [hquery]
  refine ⟨uri', ⟨rfl, ?_, ?_⟩, hpairs⟩
  . rw [h]
    rfl
  . rw [hpairs, List.filter_append, List.filter_cons_of_neg (by simp), List.filter_nil, List.append_nil]

/--
When the URI of a request with a path is not parsed, credentials reach the target.
-/
theorem not_transparent_of_error (hsession : IsHttp session) {message : String}
    (hparse : c.parse (PREVIEW_BASE ++ uri.text) = .error message) {pathAndQuery : PathAndQuery}
    (hpath : uri.pathAndQuery = some pathAndQuery)
    : ¬Transparent c base64Decode session websocket uri url := by
  intro h
  rcases exists_withCredentials hpath with ⟨uri', hsame, hpairs⟩
  have hparse' : ∃ message, c.parse (PREVIEW_BASE ++ uri'.text) = .error message := by
    cases hresult : c.parse (PREVIEW_BASE ++ uri'.text) with
    | error message => exact ⟨message, rfl⟩
    | ok parsed =>
      rcases parse_location_of_parse hc hresult with ⟨location, hlocation⟩
      rw [location_eq_of_same hsame] at hlocation
      rcases params_of_parse hc hlocation with ⟨_, hok, -⟩
      rw [hparse] at hok
      exact nomatch hok
  rcases hparse' with ⟨message', hparse'⟩
  have hforward := forward_of_error hc hsession hparse' (h.sameUrl uri' hsame)
  have hmem : (utf8 "sid", utf8 "1") ∈ pairsOf (c.query url) := by
    rw [hforward.2, hpairs]
    exact List.mem_append_right _ List.mem_cons_self
  exact (h.credentials _ hmem).1 rfl

/-! Which requests are forwarded as they should be -/

theorem pairs_eq_iff (pairs : List (Bytes × Bytes))
    : (pairs.map (lossyPair c)).map utf8Pair = pairs ↔ ∀ pair ∈ pairs, IsUtf8 pair.1 ∧ IsUtf8 pair.2 := by
  have hpair : ∀ pair : Bytes × Bytes, utf8Pair (lossyPair c pair) = id pair ↔ IsUtf8 pair.1 ∧ IsUtf8 pair.2 := by
    intro pair
    rw [isUtf8_iff hc, isUtf8_iff hc]
    exact Prod.ext_iff
  rw [List.map_map]
  nth_rewrite 2 [← List.map_id pairs]
  rw [List.map_inj_left]
  exact ⟨fun h pair hmem => (hpair pair).mp (h pair hmem), fun h pair hmem => (hpair pair).mpr (h pair hmem)⟩

/--
No pair becomes a credential or a frame by being read and written.
-/
theorem isForwarded_of_mem {pairs : List (Bytes × Bytes)} {pair : Bytes × Bytes}
    (h : pair ∈ ((pairs.filter (IsForwarded ·)).map (lossyPair c)).map utf8Pair)
    : IsForwarded pair := by
  rw [List.map_map, List.mem_map] at h
  rcases h with ⟨raw, hraw, rfl⟩
  rw [List.mem_filter, decide_eq_true_eq, ← keeps_lossyPair hc] at hraw
  exact ⟨fun heq => hraw.2.1 (utf8_injective hc heq), fun heq => hraw.2.2.1 (utf8_injective hc heq),
    fun heq => hraw.2.2.2 (utf8_injective hc heq)⟩

theorem transparent_of_parse (hsession : IsHttp session)
    (h : previewUpstreamUrl c base64Decode session websocket uri = .ok url) {parsed : c.Url}
    (hparse : c.parse (PREVIEW_BASE ++ uri.text) = .ok parsed)
    : Transparent c base64Decode session websocket uri url
        ↔
      ∀ pair ∈ uri.pairs, IsForwarded pair → IsUtf8 pair.1 ∧ IsUtf8 pair.2 := by
  have hforward := forward_of_parse hc hsession hparse h
  have hall : ∀ pair ∈ pairsOf (c.query url), IsForwarded pair := by
    intro pair hmem
    rw [hforward.2] at hmem
    exact isForwarded_of_mem hc hmem
  have hfilter : (pairsOf (c.query url)).filter (·.1 ≠ utf8 "frame") = pairsOf (c.query url) := by
    rw [List.filter_eq_self]
    intro pair hmem
    simpa using (hall pair hmem).2.2
  have hpairs : (∀ pair ∈ uri.pairs, IsForwarded pair → IsUtf8 pair.1 ∧ IsUtf8 pair.2)
      ↔ pairsOf (c.query url) = uri.pairs.filter (IsForwarded ·) := by
    rw [hforward.2, pairs_eq_iff hc]
    simp only [List.mem_filter, decide_eq_true_eq, and_imp]
  rw [hpairs]
  constructor
  . intro htransparent
    rw [← htransparent.pairs, hfilter]
  . intro heq
    exact {
      origin := hforward.1
      credentials := fun pair hmem => ⟨(hall pair hmem).1, (hall pair hmem).2.1⟩
      pairs := by rw [hfilter, heq]
      sameUrl := fun uri' hsame => (sameUrl_of_parse hc hparse hsame).trans h }

end

/-! Some URLs -/

/--
`String::from_utf8_lossy` on what is UTF-8, or of which nothing is.
-/
def replaceInvalid (bytes : Bytes) : String :=
  (String.fromUTF8? bytes.toByteArray).getD "\uFFFD"

theorem toByteArray_utf8 (text : String) : (utf8 text).toByteArray = text.toByteArray :=
  String.utf8Encode_toList

theorem replaceInvalid_utf8 (text : String) : replaceInvalid (utf8 text) = text := by
  unfold replaceInvalid String.fromUTF8?
  rw [toByteArray_utf8, dif_pos text.isValidUTF8]
  exact String.toByteArray_inj.mp rfl

theorem utf8_replaceInvalid {bytes : Bytes} (h : utf8 (replaceInvalid bytes) ≠ bytes)
    : '\uFFFD' ∈ (replaceInvalid bytes).toList := by
  unfold replaceInvalid String.fromUTF8? at h ⊢
  split
  . next hvalid =>
    rw [dif_pos hvalid] at h
    refine absurd ?_ h
    have heq := toByteArray_utf8 (String.fromUTF8 bytes.toByteArray hvalid)
    have hdata := congrArg ByteArray.data heq
    change _ = bytes.toByteArray.data at hdata
    rw [List.data_toByteArray, List.data_toByteArray] at hdata
    exact (List.toArray_inj hdata)
  . decide

structure PlainUrl where
  scheme : String
  hostStr : String
  port : Option Nat
  path : Bytes
  query : Option Bytes

def PlainUrl.setQuery (url : PlainUrl) (query : Option Bytes) : PlainUrl :=
  { url with query := query.map (·.flatMap (escape inSpecialQuerySet)) }

instance (text : Bytes) : Decidable (IsText text) :=
  List.decidableBAll (fun b => 0x20 < b ∧ b ≠ HASH) text

instance (text : Bytes) : Decidable (IsPath text) :=
  inferInstanceAs (Decidable (IsText text ∧ QUESTION ∉ text))

/--
The URLs of the preview itself whose paths need no encoding.
-/
def PlainUrl.parse (text : Bytes) : Except String PlainUrl :=
  let rest := text.drop PREVIEW_BASE.length
  let path := rest.takeWhile (· ≠ QUESTION)
  if PREVIEW_BASE.isPrefixOf text ∧ path.head? = some SLASH ∧ IsPath path then
    let url := { scheme := "http", hostStr := "preview", port := none, path, query := none }
    .ok (if QUESTION ∈ rest then PlainUrl.setQuery url (some (rest.drop (path.length + 1))) else url)
  else
    .error "unsupported"

def plainUrls : UrlCrate where
  Url := PlainUrl
  parse := PlainUrl.parse
  scheme := PlainUrl.scheme
  username := fun _ => ""
  password := fun _ => none
  hostStr := fun url => some url.hostStr
  port := PlainUrl.port
  path := PlainUrl.path
  query := PlainUrl.query
  setScheme := fun url scheme => some { url with scheme }
  setPath := fun url path => { url with path }
  setQuery := PlainUrl.setQuery
  clearFragment := id
  lossy := replaceInvalid
  appendPair := fun url pair =>
    { url with
      query := some ((match url.query with
        | none | some [] => []
        | some query => query ++ [AMPERSAND]) ++ serializePair (utf8Pair pair)) }

theorem takeWhile_of_isPath {path : Bytes} (h : IsPath path) (rest : Bytes) (hrest : ∀ b ∈ rest.head?, b = QUESTION)
    : (path ++ rest).takeWhile (· ≠ QUESTION) = path := by
  have hall : ∀ b ∈ path, decide (b ≠ QUESTION) = true := by
    intro b hb
    exact decide_eq_true fun heq => h.2 (heq ▸ hb)
  rw [List.takeWhile_append_of_pos hall]
  cases rest with
  | nil => rw [List.takeWhile_nil, List.append_nil]
  | cons b rest =>
    rw [hrest b rfl, List.takeWhile_cons_of_neg (by simp), List.append_nil]

theorem isPrefixOf_append (before rest : Bytes) : before.isPrefixOf (before ++ rest) = true :=
  List.isPrefixOf_iff_prefix.mpr (List.prefix_append before rest)

def PlainUrl.ofPath (path : Bytes) : PlainUrl :=
  { scheme := "http", hostStr := "preview", port := none, path, query := none }

theorem parse_of_isPath {path : Bytes} (h : IsPath path)
    : PlainUrl.parse (PREVIEW_BASE ++ path)
        = if path.head? = some SLASH then .ok (PlainUrl.ofPath path) else .error "unsupported" := by
  have htake := takeWhile_of_isPath h [] nofun
  rw [List.append_nil] at htake
  unfold PlainUrl.parse
  dsimp only
  rw [List.drop_left, htake, isPrefixOf_append]
  by_cases hhead : path.head? = some SLASH
  . rw [if_pos hhead, if_pos ⟨rfl, hhead, h⟩, if_neg h.2]
    rfl
  . rw [if_neg hhead, if_neg fun hall => hhead hall.2.1]

theorem parse_of_isPath_query {path : Bytes} (h : IsPath path) (query : Bytes)
    : PlainUrl.parse (PREVIEW_BASE ++ path ++ QUESTION :: query)
        = if path.head? = some SLASH then
            .ok ((PlainUrl.ofPath path).setQuery (some query))
          else
            .error "unsupported" := by
  have htake := takeWhile_of_isPath h (QUESTION :: query) fun b hb => (Option.some.inj hb).symm
  unfold PlainUrl.parse
  dsimp only
  rw [List.append_assoc, List.drop_left, htake, isPrefixOf_append]
  by_cases hhead : path.head? = some SLASH
  . have hmem : QUESTION ∈ path ++ QUESTION :: query := List.mem_append_right _ List.mem_cons_self
    have hdrop : (path ++ QUESTION :: query).drop (path.length + 1) = query := by
      rw [← List.drop_drop, List.drop_left]
      rfl
    rw [if_pos hhead, if_pos ⟨rfl, hhead, h⟩, if_pos hmem, hdrop]
    rfl
  . rw [if_neg hhead, if_neg fun hall => hhead hall.2.1]

theorem scheme_path_of_parse {text : Bytes} {url : PlainUrl} (h : PlainUrl.parse text = .ok url)
    : url.scheme = "http" ∧ IsPath url.path := by
  unfold PlainUrl.parse at h
  dsimp only at h
  split at h
  . next hplain =>
    injection h with h
    subst h
    split
    . exact ⟨rfl, hplain.2.2⟩
    . exact ⟨rfl, hplain.2.2⟩
  . exact nomatch h

theorem plainUrls_lawful : plainUrls.Lawful where
  parse_query := by
    intro text query htext _
    change PlainUrl.parse _ = (PlainUrl.parse _).map _
    rw [parse_of_isPath htext, parse_of_isPath_query htext]
    split <;> rfl
  query_parse := by
    intro text url htext h
    change PlainUrl.parse _ = _ at h
    rw [parse_of_isPath htext] at h
    split at h
    . injection h with h
      exact h ▸ rfl
    . exact nomatch h
  scheme_parse := fun _ _ h => (scheme_path_of_parse h).1
  path_parse := fun _ _ h => (scheme_path_of_parse h).2
  query_setQuery _ _ _ := rfl
  path_setQuery _ _ := rfl
  setQuery_setQuery _ _ _ := rfl
  originOf_setQuery _ _ := rfl
  originOf_setPath _ _ := rfl
  originOf_setScheme url scheme url' h := by
    injection h with h
    rw [← h]
    rfl
  originOf_clearFragment _ := rfl
  query_appendPair _ _ := rfl
  path_appendPair _ _ := rfl
  lossy_utf8 := replaceInvalid_utf8
  lossy_replaces _ := utf8_replaceInvalid

/-! Some requests -/

def plainSession : PlainUrl :=
  { scheme := "http", hostStr := "localhost", port := some 3000, path := [SLASH], query := none }

def rootUri (query : Bytes) (h : IsText query) : Uri where
  origin := []
  pathAndQuery := some
    { path := [SLASH]
      query := some query
      path_isPath := isPath_slash
      query_isText := fun _ heq => Option.some.inj heq ▸ h }
  origin_isPath := ⟨nofun, nofun⟩

def searchUri : Uri :=
  rootUri (ascii "sid=1&q=a+b") (by decide)

def invalidUri : Uri :=
  rootUri (ascii "sid=1&q=%FF") (by decide)

def noTokens (_ : Bytes) : Except String Bytes :=
  .error "Invalid symbol"

theorem exists_of_isOk {ε α : Type} {result : Except ε α} (h : result.isOk = true) : ∃ value, result = .ok value := by
  cases result with
  | ok value => exact ⟨value, rfl⟩
  | error message => contradiction

end Preview
