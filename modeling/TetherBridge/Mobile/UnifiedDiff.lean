import Mathlib.Algebra.Ring.Nat
import TetherBridge.Data.Js

/-!
This module contains `parseUnifiedGitDiff` of the mobile app, on the characters of a diff.
-/

namespace Mobile.UnifiedDiff

abbrev Line := List Char

/--
`metadata` is the kind `meta`.
-/
inductive UnifiedDiffLineKind where
  | context
  | add
  | remove
  | metadata
  deriving DecidableEq, Repr

structure UnifiedDiffLine where
  kind : UnifiedDiffLineKind
  /-- The field `prefix`. -/
  marker : Char
  content : Line
  oldLineNumber : Option Nat
  newLineNumber : Option Nat
  deriving DecidableEq, Repr

structure UnifiedDiffHunk where
  header : Line
  oldStart : Nat
  oldCount : Nat
  newStart : Nat
  newCount : Nat
  lines : List UnifiedDiffLine
  deriving DecidableEq, Repr

inductive UnifiedDiffFileStatus where
  | modified
  | added
  | deleted
  | renamed
  | binary
  deriving DecidableEq, Repr

structure UnifiedDiffFile where
  id : Line
  oldPath : Option Line
  newPath : Option Line
  displayPath : Line
  status : UnifiedDiffFileStatus
  additions : Nat
  deletions : Nat
  hunks : List UnifiedDiffHunk
  deriving DecidableEq, Repr

structure UnifiedDiffDocument where
  files : List UnifiedDiffFile
  totalAdditions : Nat
  totalDeletions : Nat
  deriving DecidableEq, Repr

structure InProgressFile where
  oldPath : Option Line
  newPath : Option Line
  displayPath : Line
  status : UnifiedDiffFileStatus := .modified
  additions : Nat := 0
  deletions : Nat := 0
  hunks : List UnifiedDiffHunk := []
  deriving DecidableEq, Repr

/--
What is left of a text after it started with another.
-/
def afterStart (start text : List Char) : Option (List Char) :=
  if start.isPrefixOf text then some (text.drop start.length) else none

/-! Escape sequences -/

def escape : Char := Char.ofNat 0x1b

def isAnsiParameter (c : Char) : Bool :=
  c.isDigit || c == ';'

/--
What follows a sequence of `ANSI_ESCAPE_PATTERN` at the start of the text.
-/
def afterAnsi : List Char → Option (List Char)
  | c :: '[' :: rest =>
    if c = escape then
      match rest.dropWhile isAnsiParameter with
      | 'm' :: after => some after
      | _ => none
    else none
  | _ => none

theorem length_afterAnsi {text after : List Char} (h : afterAnsi text = some after)
    : after.length < text.length := by
  unfold afterAnsi at h
  split at h
  . next c rest =>
    split at h
    . split at h
      . next drop hdrop =>
        injection h with h
        have hle := (List.dropWhile_suffix isAnsiParameter (l := rest)).length_le
        rw [hdrop, List.length_cons] at hle
        rw [← h, List.length_cons, List.length_cons]
        omega
      . contradiction
    . contradiction
  . contradiction

def stripAnsi : List Char → List Char
  | [] => []
  | c :: rest =>
    match _hafter : afterAnsi (c :: rest) with
    | some after => stripAnsi after
    | none => c :: stripAnsi rest
termination_by value => value.length
decreasing_by
  . exact length_afterAnsi _hafter
  . exact Nat.lt_succ_self _

/-! Hunk headers -/

/--
The digits that a text starts with, at least one, as a number.
-/
def parseDigits (text : List Char) : Option (Nat × List Char) :=
  let digits := text.takeWhile Char.isDigit
  if digits = [] then none
  else some (Nat.ofDigitChars 10 digits 0, text.dropWhile Char.isDigit)

/--
A start and a count, which is one if it is missing.
-/
def parseRange (text : List Char) : Option (Nat × Nat × List Char) :=
  match parseDigits text with
  | none => none
  | some (start, ',' :: rest) => (parseDigits rest).map fun (count, rest) => (start, count, rest)
  | some (start, rest) => some (start, 1, rest)

def isLineTerminator (c : Char) : Bool :=
  c == '\n' || c == '\r' || c.toNat == 0x2028 || c.toNat == 0x2029

/--
What may follow the ranges of a header: nothing, or white space and a text on one line.
-/
def isSection : List Char → Bool
  | [] => true
  | c :: text => Js.isWhitespace c && text.all fun d => !isLineTerminator d

/--
The match of `HUNK_HEADER_PATTERN`: the starts and the counts.
-/
def parseHunkHeader (line : Line) : Option (Nat × Nat × Nat × Nat) := do
  let old ← afterStart ['@', '@', ' ', '-'] line
  let (oldStart, oldCount, rest) ← parseRange old
  let new ← afterStart [' ', '+'] rest
  let (newStart, newCount, rest) ← parseRange new
  let trailing ← afterStart [' ', '@', '@'] rest
  if isSection trailing then some (oldStart, oldCount, newStart, newCount) else none

/-! Paths -/

/--
The tokens of a header so far, the one that is read, and how it is read.
-/
structure PayloadState where
  tokens : List Line := []
  current : Line := []
  inQuotes : Bool := false
  escaped : Bool := false

def PayloadState.read (s : PayloadState) (char : Char) : PayloadState :=
  if s.escaped then { s with current := s.current ++ [char], escaped := false }
  else if char = '\\' then { s with current := s.current ++ [char], escaped := true }
  else if char = '"' then { s with inQuotes := !s.inQuotes, current := s.current ++ [char] }
  else if !s.inQuotes && char = ' ' then
    if s.current ≠ [] then { s with tokens := s.tokens ++ [s.current], current := [] } else s
  else { s with current := s.current ++ [char] }

def splitDiffHeaderPayload (payload : Line) : Line × Line :=
  let s := payload.foldl PayloadState.read {}
  let tokens := if s.current ≠ [] then s.tokens ++ [s.current] else s.tokens
  (tokens[0]?.getD [], tokens[1]?.getD [])

/--
`String.prototype.replace` of every pair of characters by one.
-/
def replacePair (first second replacement : Char) : List Char → List Char
  | [] => []
  | [c] => [c]
  | c :: d :: rest =>
    if c = first ∧ d = second then replacement :: replacePair first second replacement rest
    else c :: replacePair first second replacement (d :: rest)

def decodeEscapes (inner : Line) : Line :=
  replacePair '\\' 'r' '\r'
    (replacePair '\\' 'n' '\n'
      (replacePair '\\' 't' '\t'
        (replacePair '\\' '"' '"'
          (replacePair '\\' '\\' '\\' inner))))

def decodeGitPath (rawPath : Line) : Line :=
  if rawPath.head? ≠ some '"' ∨ rawPath.getLast? ≠ some '"' ∨ rawPath.length < 2 then rawPath
  else decodeEscapes rawPath.tail.dropLast

def devNull : Line := "/dev/null".toList

def parsePatchPath (rawPath : Line) : Option Line :=
  let trimmed := Js.trimChars rawPath
  if trimmed = [] ∨ trimmed = devNull then none
  else
    let decoded := decodeGitPath trimmed
    if decoded = devNull then none
    else if ['a', '/'].isPrefixOf decoded ∨ ['b', '/'].isPrefixOf decoded then some (decoded.drop 2)
    else some decoded

def parseDiffHeaderPaths (line : Line) : Option Line × Option Line :=
  let payload := Js.trimChars (line.drop "diff --git ".length)
  let (leftRaw, rightRaw) := splitDiffHeaderPayload payload
  (parsePatchPath leftRaw, parsePatchPath rightRaw)

/--
A path counts as missing when it is empty.
-/
def given (path : Option Line) : Option Line :=
  path.filter (· ≠ [])

def formatDisplayPath (oldPath newPath : Option Line) : Line :=
  match given oldPath, given newPath with
  | some oldPath, some newPath =>
    if oldPath = newPath then newPath else oldPath ++ " -> ".toList ++ newPath
  | none, some newPath => newPath
  | some oldPath, none => oldPath
  | none, none => "unknown".toList

/-! Files -/

def applyFileMetadata (line : Line) (file : InProgressFile) : InProgressFile :=
  let file :=
    if "new file mode ".toList.isPrefixOf line then { file with status := .added }
    else if "deleted file mode ".toList.isPrefixOf line then { file with status := .deleted }
    else if "rename from ".toList.isPrefixOf line then
      { file with status := .renamed, oldPath := some (decodeGitPath (line.drop "rename from ".length)) }
    else if "rename to ".toList.isPrefixOf line then
      { file with status := .renamed, newPath := some (decodeGitPath (line.drop "rename to ".length)) }
    else if "Binary files ".toList.isPrefixOf line ∨ line = "GIT binary patch".toList then
      { file with status := .binary }
    else if "--- ".toList.isPrefixOf line then { file with oldPath := parsePatchPath (line.drop 4) }
    else if "+++ ".toList.isPrefixOf line then { file with newPath := parsePatchPath (line.drop 4) }
    else file
  { file with displayPath := formatDisplayPath file.oldPath file.newPath }

def finalizeFile (file : InProgressFile) (index : Nat) : UnifiedDiffFile :=
  let status :=
    if file.status = .modified then
      match given file.oldPath, given file.newPath with
      | none, some _ => .added
      | some _, none => .deleted
      | some oldPath, some newPath => if oldPath ≠ newPath then .renamed else .modified
      | none, none => .modified
    else file.status
  let displayPath := formatDisplayPath file.oldPath file.newPath
  { id := displayPath ++ [':'] ++ Nat.toDigits 10 index
    oldPath := file.oldPath
    newPath := file.newPath
    displayPath
    status
    additions := file.additions
    deletions := file.deletions
    hunks := file.hunks }

/-! The lines of a hunk -/

/--
How a line of a hunk is read. Its kind says which of the cursors go on, and which count it is in.
-/
def readHunkLine (oldCursor newCursor : Nat) (line : Line) : UnifiedDiffLine :=
  if ['+'].isPrefixOf line ∧ ¬"+++ ".toList.isPrefixOf line then
    { kind := .add, marker := '+', content := line.drop 1, oldLineNumber := none,
      newLineNumber := some newCursor }
  else if ['-'].isPrefixOf line ∧ ¬"--- ".toList.isPrefixOf line then
    { kind := .remove, marker := '-', content := line.drop 1, oldLineNumber := some oldCursor,
      newLineNumber := none }
  else if [' '].isPrefixOf line then
    { kind := .context, marker := ' ', content := line.drop 1, oldLineNumber := some oldCursor,
      newLineNumber := some newCursor }
  else if ['\\'].isPrefixOf line then
    { kind := .metadata, marker := '\\', content := Js.trimStart (line.drop 1), oldLineNumber := none,
      newLineNumber := none }
  else
    { kind := .metadata, marker := ' ', content := line, oldLineNumber := none, newLineNumber := none }

namespace UnifiedDiffLineKind

def inOld (kind : UnifiedDiffLineKind) : Nat :=
  match kind with
  | .context | .remove => 1
  | .add | .metadata => 0

def inNew (kind : UnifiedDiffLineKind) : Nat :=
  match kind with
  | .context | .add => 1
  | .remove | .metadata => 0

def additions (kind : UnifiedDiffLineKind) : Nat :=
  if kind = .add then 1 else 0

def deletions (kind : UnifiedDiffLineKind) : Nat :=
  if kind = .remove then 1 else 0

end UnifiedDiffLineKind

/-! The parser -/

structure ParserState where
  files : List UnifiedDiffFile := []
  currentFile : Option InProgressFile := none
  currentHunk : Option UnifiedDiffHunk := none
  oldCursor : Nat := 0
  newCursor : Nat := 0

namespace ParserState

variable (s : ParserState)

def flushHunk : ParserState :=
  match s.currentFile, s.currentHunk with
  | some file, some hunk =>
    { s with currentFile := some { file with hunks := file.hunks ++ [hunk] }, currentHunk := none }
  | _, _ => s

def flushFile : ParserState :=
  match s.flushHunk.currentFile with
  | none => s
  | some file =>
    { s.flushHunk with files := s.files ++ [finalizeFile file s.files.length], currentFile := none }

def startFile (line : Line) : ParserState :=
  let (oldPath, newPath) := parseDiffHeaderPaths line
  { s.flushFile with
    currentFile := some { oldPath, newPath, displayPath := formatDisplayPath oldPath newPath } }

def startHunk (line : Line) : ParserState :=
  match parseHunkHeader line with
  | none => s.flushHunk
  | some (oldStart, oldCount, newStart, newCount) =>
    { s.flushHunk with
      oldCursor := oldStart
      newCursor := newStart
      currentHunk := some { header := line, oldStart, oldCount, newStart, newCount, lines := [] } }

def readLine (file : InProgressFile) (hunk : UnifiedDiffHunk) (line : Line) : ParserState :=
  let read := readHunkLine s.oldCursor s.newCursor line
  { s with
    currentFile := some { file with
      additions := file.additions + read.kind.additions
      deletions := file.deletions + read.kind.deletions }
    currentHunk := some { hunk with lines := hunk.lines ++ [read] }
    oldCursor := s.oldCursor + read.kind.inOld
    newCursor := s.newCursor + read.kind.inNew }

def parseLine (rawLine : Line) : ParserState :=
  let line := stripAnsi rawLine
  if "diff --git ".toList.isPrefixOf line then s.startFile line
  else
    match s.currentFile with
    | none => s
    | some file =>
      if "@@ ".toList.isPrefixOf line then s.startHunk line
      else
        match s.currentHunk with
        | some hunk => s.readLine file hunk line
        | none => { s with currentFile := some (applyFileMetadata line file) }

end ParserState

/--
The replacements of `\r\n` and `\r` by `\n`.
-/
def normalizeLineBreaks : List Char → List Char
  | '\r' :: '\n' :: rest => '\n' :: normalizeLineBreaks rest
  | '\r' :: rest => '\n' :: normalizeLineBreaks rest
  | c :: rest => c :: normalizeLineBreaks rest
  | [] => []

def parseUnifiedGitDiff (rawDiff : List Char) : UnifiedDiffDocument :=
  let lines := (normalizeLineBreaks rawDiff).splitOn '\n'
  let files := (lines.foldl ParserState.parseLine {}).flushFile.files
  { files
    totalAdditions := (files.map (·.additions)).sum
    totalDeletions := (files.map (·.deletions)).sum }

end Mobile.UnifiedDiff
