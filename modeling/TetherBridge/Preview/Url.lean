import TetherBridge.Data.Form

/-!
This module contains the URLs of the `url` crate and the request URIs of the `http` crate as far as the preview proxy
uses them, with what their documentation says of them. The text of a URL is given as its bytes.
-/

namespace Preview

open Form

/--
The bytes of a text.
-/
def utf8 (s : String) : Bytes :=
  s.toList.flatMap String.utf8EncodeChar

def QUESTION : UInt8 := 0x3F
def HASH : UInt8 := 0x23
def SLASH : UInt8 := 0x2F

/--
The URLs of the `url` crate. An error is given by its text.
-/
structure UrlCrate where
  Url : Type
  parse : Bytes → Except String Url
  scheme : Url → String
  username : Url → String
  password : Url → Option String
  hostStr : Url → Option String
  port : Url → Option Nat
  path : Url → Bytes
  query : Url → Option Bytes
  setScheme : Url → String → Option Url
  setPath : Url → Bytes → Url
  setQuery : Url → Option Bytes → Url
  clearFragment : Url → Url
  /-- `String::from_utf8_lossy`, with which the crate reads the names and values of a query. -/
  lossy : Bytes → String
  /-- `query_pairs_mut().append_pair` -/
  appendPair : Url → String × String → Url

namespace UrlCrate

variable (c : UrlCrate)

/--
`query_pairs`
-/
def queryPairs (url : c.Url) : List (String × String) :=
  (parsePairs ((c.query url).getD [])).map fun pair => (c.lossy pair.1, c.lossy pair.2)

/--
The schemes with the same percent-encode set.
-/
def IsSpecial (url : c.Url) : Prop :=
  c.scheme url ∈ ["http", "https", "ws", "wss"]

def originOf (url : c.Url) : String × Option String × Option Nat :=
  (c.scheme url, c.hostStr url, c.port url)

end UrlCrate

/--
The bytes of a query that are percent-encoded: controls, space, `"`, `#`, `<`, `>`, `'` and what is not ASCII.
-/
def inSpecialQuerySet (b : UInt8) : Bool :=
  b ≤ 0x20 || b == 0x22 || b == 0x23 || b == 0x3C || b == 0x3E || b == 0x27 || 0x7E < b

/--
A text without blanks, controls, or the start of a fragment.
-/
def IsText (text : Bytes) : Prop :=
  ∀ b ∈ text, 0x20 < b ∧ b ≠ HASH

def IsPath (text : Bytes) : Prop :=
  IsText text ∧ QUESTION ∉ text

def querySuffix (query : Option Bytes) : Bytes :=
  query.elim [] (QUESTION :: ·)

/--
The start of the texts that the preview proxy parses.
-/
def PREVIEW_BASE : Bytes := ascii "http://preview"

/--
What the `url` crate documents.
-/
structure UrlCrate.Lawful (c : UrlCrate) : Prop where
  /-- A query is set as it is parsed. -/
  parse_query : ∀ text query, IsPath text → IsText query →
    c.parse (PREVIEW_BASE ++ text ++ QUESTION :: query)
      = (c.parse (PREVIEW_BASE ++ text)).map fun url => c.setQuery url (some query)
  query_parse : ∀ text url, IsPath text → c.parse (PREVIEW_BASE ++ text) = .ok url → c.query url = none
  scheme_parse : ∀ text url, c.parse (PREVIEW_BASE ++ text) = .ok url → c.scheme url = "http"
  path_parse : ∀ text url, c.parse (PREVIEW_BASE ++ text) = .ok url → IsPath (c.path url)
  query_setQuery : ∀ url query, c.IsSpecial url →
    c.query (c.setQuery url query) = query.map (·.flatMap (escape inSpecialQuerySet))
  path_setQuery : ∀ url query, c.path (c.setQuery url query) = c.path url
  setQuery_setQuery : ∀ url query query', c.setQuery (c.setQuery url query) query' = c.setQuery url query'
  originOf_setQuery : ∀ url query, c.originOf (c.setQuery url query) = c.originOf url
  originOf_setPath : ∀ url path, c.originOf (c.setPath url path) = c.originOf url
  originOf_setScheme : ∀ url scheme url', c.setScheme url scheme = some url' →
    c.originOf url' = (scheme, c.hostStr url, c.port url)
  originOf_clearFragment : ∀ url, c.originOf (c.clearFragment url) = c.originOf url
  /-- Pairs are appended in the form format, behind the pairs that are there. -/
  query_appendPair : ∀ url pair,
    c.query (c.appendPair url pair)
      = some ((match c.query url with
        | none | some [] => []
        | some query => query ++ [AMPERSAND]) ++ serializePair (utf8 pair.1, utf8 pair.2))
  path_appendPair : ∀ url pair, c.path (c.appendPair url pair) = c.path url
  lossy_utf8 : ∀ text, c.lossy (utf8 text) = text
  /-- What is not UTF-8 leaves a replacement character. -/
  lossy_replaces : ∀ bytes, utf8 (c.lossy bytes) ≠ bytes → '\uFFFD' ∈ (c.lossy bytes).toList

/--
The path of a request with its query, as they were sent.
-/
structure PathAndQuery where
  path : Bytes
  query : Option Bytes
  path_isPath : IsPath path
  query_isText : ∀ text, query = some text → IsText text

/--
The URI of a request. Its origin is what stands before the path: nothing, or a scheme and an authority, or an authority
alone, and then there is no path.
-/
@[ext]
structure Uri where
  origin : Bytes
  pathAndQuery : Option PathAndQuery
  origin_isPath : IsPath origin

/--
How a path is printed.
-/
def PathAndQuery.shownPath (pathAndQuery : PathAndQuery) : Bytes :=
  if pathAndQuery.path = [] then [SLASH] else pathAndQuery.path

def PathAndQuery.asStr (pathAndQuery : PathAndQuery) : Bytes :=
  if pathAndQuery.path = [] ∧ pathAndQuery.query = none then
    [SLASH]
  else
    pathAndQuery.path ++ querySuffix pathAndQuery.query

/--
What stands before the query when the URI is printed.
-/
def Uri.location (uri : Uri) : Bytes :=
  uri.origin ++ uri.pathAndQuery.elim [] PathAndQuery.shownPath

def Uri.query (uri : Uri) : Option Bytes :=
  uri.pathAndQuery.bind PathAndQuery.query

def Uri.text (uri : Uri) : Bytes :=
  uri.location ++ querySuffix uri.query

end Preview
