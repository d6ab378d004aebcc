import TetherBridge.Mobile.UnifiedDiff

/-!
This module contains the unified diffs that git prints and what they say: files with their hunks and lines,
the text of a diff, and the document it should be read as.
-/

namespace Mobile.UnifiedDiff

/-! Files -/

inductive DiffLine where
  | context (text : Line)
  | add (text : Line)
  | remove (text : Line)
  | noNewline
  deriving DecidableEq, Repr

structure DiffHunk where
  oldStart : Nat
  newStart : Nat
  heading : Option Line := none
  lines : List DiffLine
  deriving DecidableEq, Repr

/--
A file that is added has no old path, one that is deleted no new one. `index`, `mode` and `similarity` are
what git prints on the lines of these names.
-/
structure DiffFile where
  oldPath : Option Line
  newPath : Option Line
  index : Line
  mode : Line
  similarity : Line
  hunks : List DiffHunk
  deriving DecidableEq, Repr

namespace DiffLine

def kind : DiffLine → UnifiedDiffLineKind
  | .context _ => .context
  | .add _ => .add
  | .remove _ => .remove
  | .noNewline => .metadata

/--
A line is read as what it is, with the numbers it has in the old and the new file.
-/
def reading (oldNumber newNumber : Nat) : DiffLine → UnifiedDiffLine
  | .context text =>
    { kind := .context, marker := ' ', content := text, oldLineNumber := some oldNumber,
      newLineNumber := some newNumber }
  | .add text =>
    { kind := .add, marker := '+', content := text, oldLineNumber := none, newLineNumber := some newNumber }
  | .remove text =>
    { kind := .remove, marker := '-', content := text, oldLineNumber := some oldNumber, newLineNumber := none }
  | .noNewline =>
    { kind := .metadata, marker := '\\', content := "No newline at end of file".toList, oldLineNumber := none,
      newLineNumber := none }

def text : DiffLine → Line
  | .context text => ' ' :: text
  | .add text => '+' :: text
  | .remove text => '-' :: text
  | .noNewline => "\\ No newline at end of file".toList

end DiffLine

/--
The lines with their numbers, from the first one of the hunk on.
-/
def readings (oldNumber newNumber : Nat) : List DiffLine → List UnifiedDiffLine
  | [] => []
  | line :: lines =>
    line.reading oldNumber newNumber
      :: readings (oldNumber + line.kind.inOld) (newNumber + line.kind.inNew) lines

def decimal (n : Nat) : Line :=
  Nat.toDigits 10 n

def rangeText (start count : Nat) : Line :=
  if count = 1 then decimal start else decimal start ++ [','] ++ decimal count

namespace DiffHunk

variable (hunk : DiffHunk)

def oldCount : Nat :=
  (hunk.lines.map (·.kind.inOld)).sum

def newCount : Nat :=
  (hunk.lines.map (·.kind.inNew)).sum

def additions : Nat :=
  (hunk.lines.map (·.kind.additions)).sum

def deletions : Nat :=
  (hunk.lines.map (·.kind.deletions)).sum

/--
What follows the ranges of a header.
-/
def headingText : Line :=
  match hunk.heading with
  | none => []
  | some heading => ' ' :: heading

def ranges : Line :=
  "@@ -".toList ++ rangeText hunk.oldStart hunk.oldCount ++ " +".toList
    ++ rangeText hunk.newStart hunk.newCount ++ " @@".toList

def header : Line :=
  hunk.ranges ++ hunk.headingText

def text : List Line :=
  hunk.header :: hunk.lines.map (·.text)

def reading : UnifiedDiffHunk where
  header := hunk.header
  oldStart := hunk.oldStart
  oldCount := hunk.oldCount
  newStart := hunk.newStart
  newCount := hunk.newCount
  lines := readings hunk.oldStart hunk.newStart hunk.lines

end DiffHunk

/-! Paths -/

/--
The characters for which a path is quoted: controls, the quote, the backslash and all that is not ASCII.
-/
def needsQuoting (c : Char) : Bool :=
  c.toNat < 0x20 || 0x7f ≤ c.toNat || c == '"' || c == '\\'

def octal (byte : UInt8) : Line :=
  ['\\'] ++ Js.lastDigits 8 3 byte.toNat

def quoteChar (c : Char) : Line :=
  if c = '"' then ['\\', '"']
  else if c = '\\' then ['\\', '\\']
  else if c = '\t' then ['\\', 't']
  else if c = '\n' then ['\\', 'n']
  else if c = '\r' then ['\\', 'r']
  else if c.toNat = 0x07 then ['\\', 'a']
  else if c.toNat = 0x08 then ['\\', 'b']
  else if c.toNat = 0x0b then ['\\', 'v']
  else if c.toNat = 0x0c then ['\\', 'f']
  else if needsQuoting c then (String.utf8EncodeChar c).flatMap octal
  else [c]

def quotePath (name : Line) : Line :=
  if name.any needsQuoting then ['"'] ++ name.flatMap quoteChar ++ ['"'] else name

/--
A path as it stands after `---` and `+++`. A tab ends a path that has a blank.
-/
def label (side : Char) : Option Line → Line
  | none => devNull
  | some path => quotePath ([side, '/'] ++ path) ++ if ' ' ∈ path then ['\t'] else []

namespace DiffFile

variable (file : DiffFile)

def additions : Nat :=
  (file.hunks.map (·.additions)).sum

def deletions : Nat :=
  (file.hunks.map (·.deletions)).sum

def gitLine : Line :=
  "diff --git ".toList ++ quotePath (['a', '/'] ++ (file.oldPath <|> file.newPath).getD []) ++ [' ']
    ++ quotePath (['b', '/'] ++ (file.newPath <|> file.oldPath).getD [])

/--
The extended header lines.
-/
def extended : List Line :=
  match file.oldPath, file.newPath with
  | none, _ => ["new file mode ".toList ++ file.mode]
  | _, none => ["deleted file mode ".toList ++ file.mode]
  | some oldPath, some newPath =>
    if oldPath = newPath then []
    else
      ["similarity index ".toList ++ file.similarity, "rename from ".toList ++ quotePath oldPath,
        "rename to ".toList ++ quotePath newPath]

def header : List Line :=
  file.extended
    ++ ["index ".toList ++ file.index, "--- ".toList ++ label 'a' file.oldPath,
      "+++ ".toList ++ label 'b' file.newPath]

def text : List Line :=
  file.gitLine :: file.header ++ file.hunks.flatMap (·.text)

def status : UnifiedDiffFileStatus :=
  match file.oldPath, file.newPath with
  | none, _ => .added
  | _, none => .deleted
  | some oldPath, some newPath => if oldPath = newPath then .modified else .renamed

def reading (index : Nat) : UnifiedDiffFile :=
  let displayPath := formatDisplayPath file.oldPath file.newPath
  { id := displayPath ++ [':'] ++ decimal index
    oldPath := file.oldPath
    newPath := file.newPath
    displayPath
    status := file.status
    additions := file.additions
    deletions := file.deletions
    hunks := file.hunks.map (·.reading) }

end DiffFile

/-! Documents -/

/--
The text of a diff. The bridge sends it without the line break at its end.
-/
def diffText (files : List DiffFile) : List Char :=
  List.intercalate ['\n'] (files.flatMap (·.text))

def document (files : List DiffFile) : UnifiedDiffDocument where
  files := files.mapIdx fun index file => file.reading index
  totalAdditions := (files.map (·.additions)).sum
  totalDeletions := (files.map (·.deletions)).sum

/-! What a diff may be -/

def MAX_SAFE_INTEGER : Nat := 2 ^ 53 - 1

/--
A text without line breaks.
-/
def Unbroken (text : Line) : Prop :=
  '\n' ∉ text ∧ '\r' ∉ text

def DiffLine.WellFormed : DiffLine → Prop
  | .context text | .add text | .remove text => Unbroken text
  | .noNewline => True

structure DiffHunk.WellFormed (hunk : DiffHunk) : Prop where
  heading : ∀ heading ∈ hunk.heading, Unbroken heading
  lines : ∀ line ∈ hunk.lines, line.WellFormed
  safe : hunk.oldStart + hunk.oldCount ≤ MAX_SAFE_INTEGER ∧ hunk.newStart + hunk.newCount ≤ MAX_SAFE_INTEGER

structure DiffFile.WellFormed (file : DiffFile) : Prop where
  oldPath : file.oldPath ≠ some []
  newPath : file.newPath ≠ some []
  paths : file.oldPath ≠ none ∨ file.newPath ≠ none
  index : Unbroken file.index
  mode : Unbroken file.mode
  similarity : Unbroken file.similarity
  hunks : ∀ hunk ∈ file.hunks, hunk.WellFormed

/-! What the parser can read -/

/--
No escape sequence for colors.
-/
def NoAnsi (text : Line) : Prop :=
  ∀ rest, rest <:+ text → afterAnsi rest = none

/--
A removed line does not start with `-- `, nor an added one with `++ `.
-/
def DiffLine.Readable : DiffLine → Prop
  | .context text => NoAnsi text
  | .add text => NoAnsi text ∧ ¬"++ ".toList <+: text
  | .remove text => NoAnsi text ∧ ¬"-- ".toList <+: text
  | .noNewline => True

structure DiffHunk.Readable (hunk : DiffHunk) : Prop where
  heading : ∀ heading ∈ hunk.heading, NoAnsi heading ∧ ∀ c ∈ heading, ¬isLineTerminator c
  lines : ∀ line ∈ hunk.lines, line.Readable

/--
The characters of a quoted path that `decodeGitPath` knows.
-/
def decodable (c : Char) : Bool :=
  (0x20 ≤ c.toNat && c.toNat < 0x7f) || c == '\t' || c == '\n' || c == '\r'

/--
A path that is not quoted does not end with a blank. A quoted one has no control characters besides tabs and
line breaks, is ASCII, and has no backslash before one of the letters `t`, `n` and `r`.
-/
def PathReadable (path : Line) : Prop :=
  if path.any needsQuoting then
    (∀ c ∈ path, decodable c) ∧ ∀ letter ∈ ['t', 'n', 'r'], ¬['\\', letter] <:+: path
  else path.getLast? ≠ some ' '

structure DiffFile.Readable (file : DiffFile) : Prop where
  oldPath : ∀ path ∈ file.oldPath, PathReadable path
  newPath : ∀ path ∈ file.newPath, PathReadable path
  hunks : ∀ hunk ∈ file.hunks, hunk.Readable

end Mobile.UnifiedDiff
