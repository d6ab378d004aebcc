import TetherBridge.Data.Text
import TetherBridge.Preview.Url

/-!
This module contains how `preview_proxy.rs` turns the URI of a request into the URL it forwards the request to.
-/

namespace Preview

open Form

def BROWSER_PREVIEW_PROXY_PREFIX : Bytes := ascii "/__dappercode_proxy__"

/-! The parameters of a preview -/

inductive PreviewShellMode where
  | desktop
  | overview
  deriving DecidableEq, Repr

inductive PreviewViewportPreset where
  | mobile
  | desktop
  deriving DecidableEq, Repr

structure PreviewViewportConfig where
  preset : PreviewViewportPreset
  width : Option Nat
  height : Option Nat
  deriving DecidableEq, Repr

def normalizedName (raw : String) : String :=
  String.ofList (Text.toAsciiLowercase (Text.trim raw.toList))

def parsePreviewViewportPreset (raw : String) : Option PreviewViewportPreset :=
  if normalizedName raw = "mobile" then some .mobile
  else if normalizedName raw = "desktop" then some .desktop
  else none

def parsePreviewShellMode (raw : String) : Option PreviewShellMode :=
  if normalizedName raw = "desktop" then some .desktop
  else if normalizedName raw = "overview" then some .overview
  else none

/--
`parse::<u32>`
-/
def parseU32 (text : List Char) : Option Nat :=
  let digits := if text.head? = some '+' then text.tail else text
  if digits.isEmpty || !digits.all Char.isDigit then
    none
  else
    some (digits.foldl (fun value digit => 10 * value + (digit.toNat - '0'.toNat)) 0) |>.filter (· < 2 ^ 32)

def normalizePreviewViewportDimension (raw : String) : Option Nat :=
  (parseU32 (Text.trim raw.toList)).filter fun value => 320 ≤ value && value ≤ 4096

def buildPreviewViewportConfig (preset : Option PreviewViewportPreset) (width height : Option Nat)
    : Option PreviewViewportConfig :=
  preset.map fun
    | .mobile => { preset := .mobile, width := none, height := none }
    | .desktop => { preset := .desktop, width, height }

structure PreviewBootstrapParams where
  sessionId : Option String := none
  bootstrapToken : Option String := none
  viewport : Option PreviewViewportConfig := none
  shellMode : Option PreviewShellMode := none
  rawFrame : Bool := false
  sanitizedPathAndQuery : Bytes

/--
What the loop over the pairs of the query has read.
-/
structure BootstrapQuery where
  sessionId : Option String := none
  bootstrapToken : Option String := none
  viewportPreset : Option PreviewViewportPreset := none
  viewportWidth : Option Nat := none
  viewportHeight : Option Nat := none
  shellMode : Option PreviewShellMode := none
  rawFrame : Bool := false
  retainedPairs : List (String × String) := []

namespace BootstrapQuery

def retain (s : BootstrapQuery) (pair : String × String) : BootstrapQuery :=
  { s with retainedPairs := s.retainedPairs ++ [pair] }

def read (s : BootstrapQuery) (pair : String × String) : BootstrapQuery :=
  let (key, value) := pair
  if key = "sid" then
    { s with sessionId := some value }
  else if key = "st" then
    { s with bootstrapToken := some value }
  else if key = "vp" then
    { s with viewportPreset := parsePreviewViewportPreset value }.retain pair
  else if key = "vw" then
    { s with viewportWidth := normalizePreviewViewportDimension value }.retain pair
  else if key = "vh" then
    { s with viewportHeight := normalizePreviewViewportDimension value }.retain pair
  else if key = "shell" then
    { s with shellMode := parsePreviewShellMode value }.retain pair
  else if key = "frame" then
    { s with rawFrame := value = "1" }
  else
    s.retain pair

end BootstrapQuery

section

variable (c : UrlCrate)

/--
The URL with other pairs for a query.
-/
def withPairs (url : c.Url) (pairs : List (String × String)) : c.Url :=
  pairs.foldl c.appendPair (c.setQuery url none)

def pathAndQueryOf (url : c.Url) : Bytes :=
  c.path url ++ querySuffix (c.query url)

def parsePreviewBootstrapParams (uri : Uri) : PreviewBootstrapParams :=
  match c.parse (PREVIEW_BASE ++ uri.text) with
  | .error _ =>
    { sanitizedPathAndQuery :=
        ((uri.pathAndQuery.map PathAndQuery.asStr).filter fun text => !text.isEmpty).getD [SLASH] }
  | .ok parsed =>
    let read := (c.queryPairs parsed).foldl BootstrapQuery.read {}
    { sessionId := read.sessionId
      bootstrapToken := read.bootstrapToken
      viewport := buildPreviewViewportConfig read.viewportPreset read.viewportWidth read.viewportHeight
      shellMode := read.shellMode
      rawFrame := read.rawFrame
      sanitizedPathAndQuery := pathAndQueryOf c (withPairs c parsed read.retainedPairs) }

/-! The target -/

/--
`trim_start_matches('[')` and `trim_end_matches(']')`
-/
def trimBrackets (host : List Char) : List Char :=
  ((host.dropWhile (· == '[')).reverse.dropWhile (· == ']')).reverse

def normalizedHost (host : String) : String :=
  String.ofList (Text.toAsciiLowercase (trimBrackets (Text.trim host.toList)))

def IsLoopback (host : String) : Prop :=
  normalizedHost host ∈ ["localhost", "127.0.0.1", "::1"]

instance (host : String) : Decidable (IsLoopback host) :=
  inferInstanceAs (Decidable (_ ∈ _))

def normalizeBrowserPreviewTargetUrl (raw : String) : Except String c.Url := do
  let trimmed := String.ofList (Text.trim raw.toList)
  if trimmed.isEmpty then
    throw "targetUrl must not be empty"
  let parsed ← (c.parse (utf8 trimmed)).mapError ("invalid targetUrl: " ++ ·)
  if c.scheme parsed ≠ "http" ∧ c.scheme parsed ≠ "https" then
    throw "targetUrl must use http:// or https://"
  if c.username parsed ≠ "" ∨ (c.password parsed).isSome then
    throw "targetUrl must not include username or password"
  match c.hostStr parsed with
  | none => throw "targetUrl host is required"
  | some host =>
    if IsLoopback host then
      return c.clearFragment parsed
    else
      throw "browser preview only supports localhost, 127.0.0.1, or ::1 targets"

/--
Decoding base64 may fail with an error.
-/
def decodePreviewProxyOriginToken (base64Decode : Bytes → Except String Bytes) (token : Bytes) : Except String c.Url := do
  let decoded ← (base64Decode token).mapError ("invalid proxied preview target: " ++ ·)
  match String.fromUTF8? decoded.toByteArray with
  | none => throw "invalid proxied preview target encoding"
  | some origin =>
    let url ← normalizeBrowserPreviewTargetUrl c origin
    return c.clearFragment (c.setQuery url none)

structure PreviewRequestTarget where
  targetUrl : c.Url
  pathAndQuery : Bytes
  proxyPathPrefix : Option Bytes

/--
A path is ASCII, and so are its blanks.
-/
def isAsciiBlank (b : UInt8) : Bool :=
  b == 0x20 || (0x09 ≤ b && b ≤ 0x0D)

def trimBytes (text : Bytes) : Bytes :=
  ((text.dropWhile isAsciiBlank).reverse.dropWhile isAsciiBlank).reverse

def resolvePreviewRequestTarget (base64Decode : Bytes → Except String Bytes) (sessionTargetUrl : c.Url)
    (sanitizedPathAndQuery : Bytes) : Except String (PreviewRequestTarget c) := do
  let parsed ← c.parse (PREVIEW_BASE ++ sanitizedPathAndQuery)
  let proxyPrefixWithSlash := BROWSER_PREVIEW_PROXY_PREFIX ++ [SLASH]
  if proxyPrefixWithSlash.isPrefixOf (c.path parsed) then
    let (segment, remainder) := splitFirst SLASH ((c.path parsed).drop proxyPrefixWithSlash.length)
    let targetToken := trimBytes segment
    if targetToken.isEmpty then
      throw "missing proxied preview target"
    let targetUrl ← decodePreviewProxyOriginToken c base64Decode targetToken
    return {
      targetUrl
      pathAndQuery := SLASH :: remainder ++ querySuffix (c.query parsed)
      proxyPathPrefix := some (BROWSER_PREVIEW_PROXY_PREFIX ++ SLASH :: targetToken) }
  else
    return { targetUrl := sessionTargetUrl, pathAndQuery := sanitizedPathAndQuery, proxyPathPrefix := none }

def buildPreviewUpstreamUrl (targetUrl : c.Url) (sanitizedPathAndQuery : Bytes) (websocket : Bool)
    : Except String c.Url := do
  let parsedPath ← c.parse (PREVIEW_BASE ++ sanitizedPathAndQuery)
  let upstreamUrl ←
    if websocket then
      let scheme := if c.scheme targetUrl = "https" then "wss" else "ws"
      match c.setScheme targetUrl scheme with
      | some upstreamUrl => pure upstreamUrl
      | none => throw "failed to rewrite websocket scheme"
    else
      pure targetUrl
  return c.setQuery (c.setPath upstreamUrl (c.path parsedPath)) (c.query parsedPath)

/--
The URL a request is forwarded to.
-/
def previewUpstreamUrl (base64Decode : Bytes → Except String Bytes) (sessionTargetUrl : c.Url) (websocket : Bool)
    (uri : Uri) : Except String c.Url := do
  let params := parsePreviewBootstrapParams c uri
  let target ← resolvePreviewRequestTarget c base64Decode sessionTargetUrl params.sanitizedPathAndQuery
  buildPreviewUpstreamUrl c target.targetUrl target.pathAndQuery websocket

end

end Preview
