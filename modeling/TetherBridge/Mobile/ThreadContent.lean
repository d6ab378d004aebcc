import TetherBridge.Data.Stringify
import TetherBridge.Data.Text

/-!
This module contains `agUiContent.ts`: the text a structured value is shown as, and which part of it a plain text does not
show already. A number is kept as the text it is printed as.
-/

namespace Mobile.Thread

/-! Reading values -/

def nonEmptyString (value : Option Json) : Option String :=
  ((value.bind Json.asStr).map Js.trim).filter (· ≠ "")

def record : Option Json → Option Json
  | some (.object fields) => some (.object fields)
  | _ => none

/--
The string under a key of a record.
-/
def text? (key : String) (value : Json) : Option String :=
  (value.get key).bind Json.asStr

def array? (key : String) (value : Json) : Option (List Json) :=
  (value.get key).bind Json.asArray

/--
What stands for `false` where a string is tested.
-/
def truthy (value : Option String) : Option String :=
  value.filter (· ≠ "")

/--
`[…].filter(Boolean).join('\n')`
-/
def joinLines (lines : List String) : String :=
  "\n".intercalate (lines.filter (· ≠ ""))

/-! Rendering -/

/--
`.replace(/[^a-z0-9]/gi, '').toLowerCase()`
-/
def contentType (entry : Json) : Option String :=
  (nonEmptyString (entry.get "type")).map fun type =>
    String.ofList ((type.toList.filter Char.isAlphanum).map Char.toLower)

def renderImage (entry : Json) : List String :=
  let url := (nonEmptyString (entry.get "url")).or <|
    (nonEmptyString (entry.get "imageUrl")).or (nonEmptyString (entry.get "image_url"))
  let data := nonEmptyString (entry.get "data")
  let mimeType := (nonEmptyString (entry.get "mimeType")).or (nonEmptyString (entry.get "mime_type"))
  let inline := data.bind fun data => mimeType.map fun mimeType => "data:" ++ mimeType ++ ";base64," ++ data
  match url.or inline with
  | some source => ["[image: " ++ source ++ "]"]
  | none => ["[image]"]

def renderAudio (entry : Json) : List String :=
  match (nonEmptyString (entry.get "mimeType")).or (nonEmptyString (entry.get "mime_type")) with
  | some mimeType => ["[audio: " ++ mimeType ++ "]"]
  | none => ["[audio]"]

def renderResourceLink (entry : Json) : List String :=
  match nonEmptyString (entry.get "uri") with
  | some uri =>
    let name := (nonEmptyString (entry.get "name")).filter (· ≠ uri)
    ["[file: " ++ uri ++ "]" ++ (name.map (" " ++ ·)).getD ""]
  | none => []

def renderResource (entry : Json) : List String :=
  let resource := record (entry.get "resource")
  let uri := nonEmptyString (resource.bind (Json.get "uri"))
  let text := nonEmptyString (resource.bind (Json.get "text"))
  ((uri.map fun uri => "[resource: " ++ uri ++ "]").getD "[resource]") :: text.toList

def renderTypedContent (type : Option String) (entry : Json) : Option (List String) :=
  match type with
  | some "text" =>
    some (if (nonEmptyString (entry.get "text")).isSome then (text? "text" entry).toList else [])
  | some "image" => some (renderImage entry)
  | some "audio" => some (renderAudio entry)
  | some "resourcelink" => some (renderResourceLink entry)
  | some "resource" => some (renderResource entry)
  | _ => none

/--
The three renderings below are given how the value under a key is rendered.
-/
def renderDiff (entry : Json) (nested : String → List String) : List String :=
  ["[diff: " ++ (nonEmptyString (entry.get "path")).getD "file" ++ "]"] ++ ["oldText", "newText"].flatMap nested

def renderTerminal (entry : Json) (nested : String → List String) : List String :=
  let terminalId := (nonEmptyString (entry.get "terminalId")).or (nonEmptyString (entry.get "terminal_id"))
  let header := match terminalId with
    | some terminalId => "[terminal: " ++ terminalId ++ "]"
    | none => "[terminal]"
  header :: ["output", "content"].flatMap nested

def renderNestedContent (entry : Json) (nested : String → List String) : List String :=
  let lines := ["content", "structuredContent", "structured_content", "locations", "result", "output"].flatMap nested
  if lines ≠ [] then
    lines
  else
    match nonEmptyString (entry.get "path") with
    | some path =>
      let line := match entry.get "line" with
        | some (.number literal) => if literal = "0" then "" else ":" ++ literal
        | _ => ""
      ["[location: " ++ path ++ line ++ "]"]
    | none => []

/--
The first argument is how many levels of the value are still looked at.
-/
def renderStructuredContent : Nat → Json → List String
  | 0, _ => []
  | levels + 1, .array values => values.flatMap (renderStructuredContent levels)
  | _ + 1, .string value => if Js.trim value ≠ "" then [value] else []
  | levels + 1, .object fields =>
    let entry := Json.object fields
    let nested key := ((entry.get key).map (renderStructuredContent levels)).getD []
    let type := contentType entry
    match renderTypedContent type entry with
    | some rendered => rendered
    | none =>
      match type with
      | some "content" => nested "content"
      | some "diff" => renderDiff entry nested
      | some "terminal" => renderTerminal entry nested
      | _ => renderNestedContent entry nested
  | _ + 1, _ => []

def renderAgUiCustomContent (value : Json) : String :=
  let structured := renderStructuredContent 5 value
  if structured ≠ [] then
    "\n".intercalate structured
  else
    match value with
    | .string value => value
    | value => String.ofList (Js.stringify value)

def isTextPart (part : Json) : Bool :=
  text? "type" part = some "text"

def partsMatchMessageContent (parts : Option (List Json)) (content : Option Json) : Bool :=
  match parts with
  | none => false
  | some parts =>
    !parts.isEmpty
      && match content with
        | some (.string content) =>
          parts.any (fun part => !isTextPart part) || joinLines (parts.map renderAgUiCustomContent) == content
        | _ => true

/-! What is left of a structured rendering -/

def endsLine (rest : List Char) : Bool :=
  rest.head?.all (· == '\n')

/--
What stands before and after the first occurrence of the needle on whole lines. The flag says whether a line starts here.
-/
def findWholeLineRun (needle : List Char) (atLineStart : Bool) : List Char → Option (List Char × List Char)
  | [] => if atLineStart && needle.isEmpty then some ([], []) else none
  | c :: cs =>
    if atLineStart && needle.isPrefixOf (c :: cs) && endsLine ((c :: cs).drop needle.length) then
      some ([], (c :: cs).drop needle.length)
    else
      (findWholeLineRun needle (c == '\n') cs).map fun (before, after) => (c :: before, after)

def trimNewlines (text : List Char) : List Char :=
  ((text.dropWhile (· == '\n')).reverse.dropWhile (· == '\n')).reverse

def structuredTextRemainder (text structured : String) : String :=
  if Js.trim structured = "" then
    ""
  else if Js.trim text = "" then
    structured
  else
    match findWholeLineRun (Js.trim text).toList true structured.toList with
    | none => if Text.contains (Js.trim structured).toList text.toList then "" else structured
    | some (before, after) =>
      let remainder := before ++ after
      if Js.trimChars remainder = [] then "" else String.ofList (trimNewlines remainder)

end Mobile.Thread
