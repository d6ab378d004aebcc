import Mathlib.Data.List.Forall2
import Mathlib.Data.List.SplitOn
import TetherBridge.Data.Json
import TetherBridge.Data.Text

/-!
This module contains the content blocks of a prompt: how `bridge_prompt` reads them from the input of a
turn, and how the OpenCode harness reads them back from their JSON.
-/

namespace Acp

/--
A `ContentBlock` under the names it has on the wire. The members that are not read here are in `more`.
-/
inductive ContentBlock where
  | text (text : String) (more : List (String × Json))
  | image (more : List (String × Json))
  | audio (more : List (String × Json))
  | resourceLink (name uri : String) (mimeType : Option String) (more : List (String × Json))
  | resource (more : List (String × Json))

namespace ContentBlock

def isText : ContentBlock → Bool
  | .text .. => true
  | _ => false

def isLink : ContentBlock → Bool
  | .resourceLink .. => true
  | _ => false

/--
`serde_json::to_value`.
-/
def toValue : ContentBlock → Json
  | .text value more => .object ([("type", .string "text"), ("text", .string value)] ++ more)
  | .image more => .object (("type", .string "image") :: more)
  | .audio more => .object (("type", .string "audio") :: more)
  | .resourceLink name uri mimeType more =>
    .object
      ([("type", .string "resource_link"), ("name", .string name), ("uri", .string uri)]
        ++ (mimeType.map fun mimeType => ("mimeType", Json.string mimeType)).toList ++ more)
  | .resource more => .object (("type", .string "resource") :: more)

end ContentBlock

/-! Paths -/

/--
`Path::file_name`: the last component, unless it leads to the parent.
-/
def fileName (path : String) : Option (List Char) :=
  let components := (path.toList.splitOn '/').filter fun name => name != [] && name != ['.']
  components.getLast?.filter (· != ['.', '.'])

/--
`Path::extension`: what follows the last dot of the file name, unless the name starts with it.
-/
def extension (path : String) : Option (List Char) :=
  ((fileName path).bind (Text.rfind ['.'])).bind fun (before, rest) =>
    if before.isEmpty then none else some (rest.drop 1)

def imageMimeType (path : String) : Option String :=
  match (extension path).map fun extension => String.ofList (Text.toAsciiLowercase extension) with
  | some "jpg" | some "jpeg" => some "image/jpeg"
  | some "png" => some "image/png"
  | some "gif" => some "image/gif"
  | some "webp" => some "image/webp"
  | _ => none

/-! The input of a turn -/

/--
A string member that is not blank.
-/
def visibleMember (key : String) (block : Json) : Option String :=
  ((block.get key).bind Json.asStr).filter fun value => !(Text.trim value.toList).isEmpty

section

variable (fromValue : Json → Option ContentBlock)

/--
One block of the input. `fromValue` is `serde_json::from_value` for a `ContentBlock`.
-/
def promptBlock (block : Json) : Except String ContentBlock :=
  match block.asStr with
  | some text => .ok (.text text [])
  | none =>
    match fromValue block with
    | some content => .ok content
    | none =>
      match (block.get "type").bind Json.asStr with
      | some "text" =>
        match (block.get "text").bind Json.asStr with
        | some text => .ok (.text text [])
        | none => .error "text input block requires text"
      | some "mention" =>
        match visibleMember "path" block with
        | some path => .ok (.resourceLink ((visibleMember "name" block).getD path) path none [])
        | none => .error "mention input block requires path"
      | some "localImage" =>
        match visibleMember "path" block with
        | some path =>
          let name := ((fileName path).map String.ofList).getD path
          .ok (.resourceLink name path (imageMimeType path) [])
        | none => .error "localImage input block requires path"
      | some other => .error ("unsupported input block type: " ++ other)
      | none => .error "input block requires type"

def bridgePrompt (params : Json) : Except String (List ContentBlock) :=
  match (params.get "input").bind Json.asArray with
  | none => .error "input must be an array"
  | some input => do
    let prompt ← input.mapM (promptBlock fromValue)
    if prompt.isEmpty then
      .error "ACP prompt requires at least one content block"
    else
      .ok prompt

end

/-! The parts of an OpenCode prompt -/

inductive HarnessError where
  | invalidUrl
  | timeout
  | request (message : String)
  | http (status : Nat)
  | responseTooLarge
  | invalidResponse (message : String)
  | unsupportedContent
  | statusTimeout
  deriving DecidableEq

inductive OpenCodePromptPart where
  | text (text : String)
  | file (mime url : String) (filename : Option String)
  deriving DecidableEq

def openCodePromptPart (block : ContentBlock) : Except HarnessError OpenCodePromptPart :=
  let value := block.toValue
  match (value.get "type").bind Json.asStr with
  | some "text" =>
    match (value.get "text").bind Json.asStr with
    | some text => .ok (.text text)
    | none => .error .unsupportedContent
  | some "resourceLink" =>
    match (value.get "uri").bind Json.asStr with
    | some url =>
      let filename := (value.get "name").bind Json.asStr
      let mime := ((value.get "mimeType").bind Json.asStr).getD "application/octet-stream"
      .ok (.file mime url filename)
    | none => .error .unsupportedContent
  | _ => .error .unsupportedContent

def openCodePromptParts (prompt : List ContentBlock) : Except HarnessError (List OpenCodePromptPart) :=
  prompt.mapM openCodePromptPart

/--
The part says what the block says.
-/
def ContentBlock.Carries : ContentBlock → OpenCodePromptPart → Prop
  | .text value _, .text sent => sent = value
  | .resourceLink _ uri _ _, .file _ url _ => url = uri
  | _, _ => False

theorem openCodePromptPart_text (text : String) (more : List (String × Json))
    : openCodePromptPart (.text text more) = .ok (.text text) := by
  simp [openCodePromptPart, ContentBlock.toValue, Json.get, Json.asStr, List.lookup_cons, List.lookup_nil]

theorem openCodePromptPart_of_not_text {block : ContentBlock} (h : ¬block.isText)
    : openCodePromptPart block = .error .unsupportedContent := by
  cases block with
  | text => exact absurd rfl h
  | _ =>
    simp [openCodePromptPart, ContentBlock.toValue, Json.get, Json.asStr, List.lookup_cons,
      List.lookup_nil]

/--
A prompt of texts is sent as it is.
-/
theorem openCodePromptParts_of_texts {prompt : List ContentBlock} (h : ∀ block ∈ prompt, block.isText)
    : ∃ parts, openCodePromptParts prompt = .ok parts ∧ List.Forall₂ ContentBlock.Carries prompt parts := by
  unfold openCodePromptParts
  induction prompt with
  | nil => exact ⟨[], rfl, .nil⟩
  | cons block prompt ih =>
    rcases ih fun block hmem => h block (List.mem_cons_of_mem _ hmem) with ⟨parts, hparts, hcarries⟩
    cases block with
    | text text more =>
      refine ⟨.text text :: parts, ?_, .cons rfl hcarries⟩
      rw [List.mapM_cons, openCodePromptPart_text, hparts]
      rfl
    | _ => exact absurd (h _ List.mem_cons_self) Bool.false_ne_true

/--
A block of any other kind is refused, and with it the prompt.
-/
theorem openCodePromptParts_of_not_text {prompt : List ContentBlock} {block : ContentBlock}
    (hmem : block ∈ prompt) (h : ¬block.isText)
    : openCodePromptParts prompt = .error .unsupportedContent := by
  unfold openCodePromptParts
  induction prompt with
  | nil => contradiction
  | cons head prompt ih =>
    rw [List.mapM_cons]
    by_cases hhead : head.isText
    . cases head with
      | text text more =>
        rcases List.mem_cons.mp hmem with heq | hmem
        . exact absurd hhead (heq ▸ h)
        . rw [openCodePromptPart_text, ih hmem]
          rfl
      | _ => contradiction
    . rw [openCodePromptPart_of_not_text hhead]
      rfl

/--
A mention, or an image of the device, is a link.
-/
theorem isLink_of_promptBlock {fromValue : Json → Option ContentBlock} {block : Json}
    {content : ContentBlock} (hvalue : fromValue block = none)
    (htype : (block.get "type").bind Json.asStr = some "mention"
      ∨ (block.get "type").bind Json.asStr = some "localImage")
    (hok : promptBlock fromValue block = .ok content)
    : content.isLink := by
  unfold promptBlock at hok
  have hstr : block.asStr = none := by
    cases block with
    | string value => simp [Json.get] at htype
    | _ => rfl
  rw [hstr, hvalue] at hok
  rcases htype with htype | htype
  all_goals
    rw [htype] at hok
    dsimp only at hok
    cases hpath : visibleMember "path" block with
    | none =>
      rw [hpath] at hok
      contradiction
    | some path =>
      rw [hpath] at hok
      injection hok with hok
      rw [← hok]
      rfl

end Acp
