import Mathlib.Data.String.Basic
import TetherBridge.Data.Slice

/-!
This module contains `parse_opencode_model_catalog` of `acp/manager.rs`. How a JSON text is read is a parameter, as
that is a crate's.
-/

namespace Acp

open Text

structure HarnessModelCatalogEntry where
  id : String
  displayName : String
  providerId : String
  providerName : String
  contextWindow : Option Nat
  reasoningEffort : List String
  deriving DecidableEq, Repr

/--
`reasoning` is the field of `capabilities`, `variants` are the keys of the map, `context` the field of `limit`.
-/
structure OpenCodeModelCatalogDocument where
  id : String
  providerId : String
  name : String
  context : Option Nat := none
  reasoning : Option Bool := none
  variants : List String := []
  deriving DecidableEq, Repr

def reasoningEfforts : List String :=
  ["none", "minimal", "low", "medium", "high", "xhigh", "max"]

def OpenCodeModelCatalogDocument.entry (document : OpenCodeModelCatalogDocument) : HarnessModelCatalogEntry :=
  let id := document.providerId ++ "/" ++ document.id
  { id
    displayName := if trim document.name.toList = [] then id else document.name
    providerId := document.providerId
    providerName := document.providerId
    contextWindow := document.context
    reasoningEffort :=
      if document.reasoning.getD false then
        (document.variants.filter fun value => reasoningEfforts.contains value).mergeSort (· ≤ ·)
      else [] }

def MAX_CATALOG_MODELS : Nat := 128

/--
The entries by their names, and no more than there may be.
-/
def catalog (models : List HarnessModelCatalogEntry) : List HarnessModelCatalogEntry :=
  (models.mergeSort fun left right => left.displayName ≤ right.displayName).take MAX_CATALOG_MODELS

structure CatalogState where
  objectStart : Option Nat := none
  depth : Nat := 0
  models : List HarnessModelCatalogEntry := []

def opensObject (line : List Char) : Bool :=
  (trim line).head? == some '{'

def countBraces (depth : Nat) (line : List Char) : Nat :=
  depth + (trim line).count '{' - (trim line).count '}'

/--
The offset of a line, as if each of those before it were ended by one byte.
-/
def byteOffset (previous : List BrokenLine) : Nat :=
  (previous.map fun line => size line.content + 1).sum

section

variable (fromStr : List Char → Option OpenCodeModelCatalogDocument) (text : List Char)

/--
There is no state after a slice that panics.
-/
def CatalogState.readLine (s : CatalogState) (byteOffset : Nat) (line : List Char) : Option CatalogState :=
  let s := if s.objectStart.isNone && opensObject line then { s with objectStart := some byteOffset, depth := 0 } else s
  match s.objectStart with
  | none => some s
  | some start =>
    let depth := countBraces s.depth line
    if depth = 0 then
      (slice start (byteOffset + size line) text).map fun object =>
        { objectStart := none, depth := 0, models := s.models ++ ((fromStr object).map (·.entry)).toList }
    else some { s with depth }

def readCatalogLines (previous : List BrokenLine) (s : CatalogState) : List BrokenLine → Option CatalogState
  | [] => some s
  | line :: rest =>
    (s.readLine fromStr text (byteOffset previous) line.content).bind fun s =>
      readCatalogLines (previous ++ [line]) s rest

/--
The parser has no result when a slice panics.
-/
def parseOpencodeModelCatalog : Option (List HarnessModelCatalogEntry) :=
  (readCatalogLines fromStr text [] {} (breakLines text)).map fun s => catalog s.models

end

/-! The objects of a text -/

/--
The lines up to the one after which as many braces were closed as opened.
-/
def takeObject (depth : Nat) : List BrokenLine → Option (List BrokenLine × List BrokenLine)
  | [] => none
  | line :: rest =>
    if countBraces depth line.content = 0 then some ([line], rest)
    else (takeObject (countBraces depth line.content) rest).map fun (object, after) => (line :: object, after)

theorem of_takeObject {depth : Nat} {lines object after : List BrokenLine}
    (h : takeObject depth lines = some (object, after))
    : lines = object ++ after ∧ object ≠ [] := by
  induction lines generalizing depth object with
  | nil => contradiction
  | cons line rest ih =>
    unfold takeObject at h
    split at h
    . simp only [Option.some.injEq, Prod.mk.injEq] at h
      rcases h with ⟨rfl, rfl⟩
      simp
    . rw [Option.map_eq_some_iff] at h
      rcases h with ⟨⟨found, rest'⟩, hfound, heq⟩
      simp only [Prod.mk.injEq] at heq
      rcases heq with ⟨rfl, rfl⟩
      rw [(ih hfound).1]
      simp

/--
The objects that are found by counting, each with the lines before it.
-/
def objects (previous : List BrokenLine) : List BrokenLine → List (List BrokenLine × List BrokenLine)
  | [] => []
  | line :: rest =>
    if opensObject line.content then
      match hobject : takeObject 0 (line :: rest) with
      | none => []
      | some (object, after) => (previous, object) :: objects (previous ++ object) after
    else objects (previous ++ [line]) rest
termination_by lines => lines.length
decreasing_by
  . rcases of_takeObject hobject with ⟨heq, hne⟩
    have hlength := congrArg List.length heq
    have hpos := List.length_pos_iff.mpr hne
    rw [List.length_append] at hlength
    omega
  . exact Nat.lt_succ_self _

section

variable {line : BrokenLine} {rest : List BrokenLine}

theorem objects_unfinished (hopens : opensObject line.content = true) (h : takeObject 0 (line :: rest) = none)
    (previous : List BrokenLine)
    : objects previous (line :: rest) = [] := by
  rw [objects, if_pos hopens]
  split
  . rfl
  . next hsome =>
    rw [h] at hsome
    contradiction

theorem objects_object {object after : List BrokenLine} (hopens : opensObject line.content = true)
    (h : takeObject 0 (line :: rest) = some (object, after)) (previous : List BrokenLine)
    : objects previous (line :: rest) = (previous, object) :: objects (previous ++ object) after := by
  rw [objects, if_pos hopens]
  split
  . next hnone =>
    rw [h] at hnone
    contradiction
  . next hsome =>
    rw [h] at hsome
    simp only [Option.some.injEq, Prod.mk.injEq] at hsome
    rw [hsome.1, hsome.2]

theorem objects_skipped (hopens : opensObject line.content = false) (previous : List BrokenLine)
    : objects previous (line :: rest) = objects (previous ++ [line]) rest := by
  rw [objects, if_neg (by simp [hopens])]

end

/--
Where the parser takes an object to stand.
-/
def sliceOf (text : List Char) (found : List BrokenLine × List BrokenLine) : Option (List Char) :=
  slice (byteOffset found.1) (byteOffset (found.1 ++ found.2) - 1) text

theorem byteOffset_append (previous lines : List BrokenLine)
    : byteOffset (previous ++ lines) = byteOffset previous + byteOffset lines := by
  simp [byteOffset]

theorem byteOffset_singleton (line : BrokenLine) : byteOffset [line] = size line.content + 1 := by
  simp [byteOffset]

section

variable {fromStr : List Char → Option OpenCodeModelCatalogDocument} {text : List Char}

def entriesOfObjects (fromStr : List Char → Option OpenCodeModelCatalogDocument) (objects : List (List Char))
    : List HarnessModelCatalogEntry :=
  objects.filterMap fun object => (fromStr object).map (·.entry)

/--
Inside of an object, nothing happens before it ends.
-/
theorem readCatalogLines_object {start depth : Nat} {models : List HarnessModelCatalogEntry}
    (previous lines : List BrokenLine)
    : readCatalogLines fromStr text previous { objectStart := some start, depth, models } lines
        =
      match takeObject depth lines with
      | none => some { objectStart := some start, depth := lines.foldl (fun depth line => countBraces depth line.content) depth, models }
      | some (object, after) =>
        (slice start (byteOffset (previous ++ object) - 1) text).bind fun found =>
          readCatalogLines fromStr text (previous ++ object)
            { models := models ++ entriesOfObjects fromStr [found] } after := by
  induction lines generalizing previous depth with
  | nil => rfl
  | cons line rest ih =>
    have hline : CatalogState.readLine fromStr text { objectStart := some start, depth, models } (byteOffset previous) line.content
        = if countBraces depth line.content = 0 then
            (slice start (byteOffset previous + size line.content) text).map fun object =>
              { objectStart := none, depth := 0, models := models ++ ((fromStr object).map (·.entry)).toList }
          else some { objectStart := some start, depth := countBraces depth line.content, models } := rfl
    have hoffset : byteOffset (previous ++ [line]) - 1 = byteOffset previous + size line.content := by
      rw [byteOffset_append, byteOffset_singleton]
      omega
    rw [readCatalogLines, hline, takeObject, List.foldl_cons]
    split
    . dsimp only
      rw [Option.bind_map, hoffset]
      congr 1
    . rw [Option.bind_some, ih]
      cases takeObject (countBraces depth line.content) rest with
      | none => rfl
      | some found => simp [List.append_assoc]

theorem entriesOfObjects_cons (object : List Char) (others : List (List Char))
    : entriesOfObjects fromStr (object :: others) = entriesOfObjects fromStr [object] ++ entriesOfObjects fromStr others :=
  List.filterMap_append (l := [object])

theorem readLine_closed {models : List HarnessModelCatalogEntry} {offset : Nat} {line : List Char}
    (h : opensObject line = false)
    : CatalogState.readLine fromStr text { models } offset line = some { models } := by
  unfold CatalogState.readLine
  rw [h]
  rfl

/--
A line that opens an object is read as the first one of it.
-/
theorem readCatalogLines_opens {models : List HarnessModelCatalogEntry} {line : BrokenLine}
    (h : opensObject line.content = true) (previous rest : List BrokenLine)
    : readCatalogLines fromStr text previous { models } (line :: rest)
        =
      readCatalogLines fromStr text previous { objectStart := some (byteOffset previous), depth := 0, models }
        (line :: rest) := by
  rw [readCatalogLines, readCatalogLines]
  unfold CatalogState.readLine
  rw [h]
  rfl

/--
The parser reads the objects that are found by counting, from where it takes them to stand.
-/
theorem readCatalogLines_models (previous lines : List BrokenLine) (models : List HarnessModelCatalogEntry)
    : (readCatalogLines fromStr text previous { models } lines).map (·.models)
        =
      ((objects previous lines).mapM (sliceOf text)).map fun found => models ++ entriesOfObjects fromStr found := by
  induction previous, lines using objects.induct generalizing models with
  | case1 previous => simp [readCatalogLines, objects, entriesOfObjects]
  | case2 previous line rest hopens hnone =>
    rw [readCatalogLines_opens hopens, readCatalogLines_object, hnone, objects_unfinished hopens hnone]
    simp [entriesOfObjects]
  | case3 previous line rest hopens object after hsome ih =>
    rw [readCatalogLines_opens hopens, readCatalogLines_object, hsome, objects_object hopens hsome, List.mapM_cons]
    unfold sliceOf
    dsimp only
    cases slice (byteOffset previous) (byteOffset (previous ++ object) - 1) text with
    | none => rfl
    | some found =>
      rw [Option.bind_some, ih]
      unfold sliceOf
      simp only [Option.bind_eq_bind, Option.bind_some]
      cases (objects (previous ++ object) after).mapM fun found =>
          slice (byteOffset found.1) (byteOffset (found.1 ++ found.2) - 1) text with
      | none => rfl
      | some others =>
        simp only [Option.map_some, Option.bind_some, Option.pure_def]
        rw [entriesOfObjects_cons found others, List.append_assoc]
  | case4 previous line rest hopens ih =>
    rw [Bool.not_eq_true] at hopens
    rw [readCatalogLines, readLine_closed hopens, Option.bind_some, ih, objects_skipped hopens]

theorem parseOpencodeModelCatalog_eq
    : parseOpencodeModelCatalog fromStr text
        =
      ((objects [] (breakLines text)).mapM (sliceOf text)).map fun found => catalog (entriesOfObjects fromStr found) := by
  have hmodels := @readCatalogLines_models fromStr text [] (breakLines text) []
  have hsplit : parseOpencodeModelCatalog fromStr text
      = ((readCatalogLines fromStr text [] {} (breakLines text)).map (·.models)).map catalog := by
    rw [Option.map_map]
    rfl
  rw [hsplit, hmodels, Option.map_map]
  rfl

end

/-! Slices that panic -/

def crlfs (lines : List BrokenLine) : Nat :=
  lines.countP (·.ending = crlf)

/--
The lines of an object, without the end of the last one.
-/
def objectText (object : List BrokenLine) : List Char :=
  rawText object.dropLast ++ (object.getLast?.map (·.content)).getD []

/--
Every object starts at a character boundary when it is moved towards the front by one byte for each `\r\n` before it,
and so does what follows it.
-/
def Aligned (text : List Char) : Prop :=
  ∀ found ∈ objects [] (breakLines text),
    IsBoundary (size (rawText found.1) - crlfs found.1) text
      ∧ IsBoundary (size (rawText found.1) + size (objectText found.2) - crlfs (found.1 ++ found.2.dropLast)) text

theorem byteOffset_ended {lines : List BrokenLine} (h : ∀ line ∈ lines, Ended line)
    : byteOffset lines = size (rawText lines) - crlfs lines ∧ crlfs lines ≤ size (rawText lines) := by
  induction lines with
  | nil => simp [byteOffset, crlfs]
  | cons line lines ih =>
    rw [List.forall_mem_cons] at h
    have hrest := ih h.2
    have hoffset := byteOffset_append [line] lines
    have hlf : size lf = 1 := rfl
    have hcrlf : size crlf = 2 := rfl
    rw [byteOffset_singleton] at hoffset
    rw [← List.singleton_append, hoffset, rawText_append, size_append]
    unfold crlfs at hrest ⊢
    rw [List.countP_append, rawText_cons, rawText_nil, List.append_nil, BrokenLine.raw, size_append]
    rcases h.1 with hending | hending
    . have hne : ¬line.ending = crlf := by
        rw [hending]
        decide
      rw [List.countP_singleton, if_neg (by simpa using hne), hending, hlf]
      omega
    . rw [List.countP_singleton, if_pos (by simpa using hending), hending, hcrlf]
      omega

/--
What is found are lines of the text, one after the other.
-/
theorem of_mem_objects {previous lines : List BrokenLine} {found : List BrokenLine × List BrokenLine}
    (h : found ∈ objects previous lines)
    : ∃ after, previous ++ lines = found.1 ++ found.2 ++ after ∧ found.2 ≠ [] := by
  induction previous, lines using objects.induct with
  | case1 previous => simp [objects] at h
  | case2 previous line rest hopens hnone =>
    rw [objects_unfinished hopens hnone] at h
    contradiction
  | case3 previous line rest hopens object after hsome ih =>
    rw [objects_object hopens hsome, List.mem_cons] at h
    rcases of_takeObject hsome with ⟨hlines, hne⟩
    rcases h with rfl | h
    . exact ⟨after, by rw [hlines, List.append_assoc], hne⟩
    . rcases ih h with ⟨more, hmore, hne⟩
      refine ⟨more, ?_, hne⟩
      rw [hlines, ← List.append_assoc, hmore]
  | case4 previous line rest hopens ih =>
    rw [Bool.not_eq_true] at hopens
    rw [objects_skipped hopens] at h
    rcases ih h with ⟨more, hmore, hne⟩
    refine ⟨more, ?_, hne⟩
    rw [← hmore, List.append_assoc, List.singleton_append]

theorem sliceOf_ne_none_iff {text : List Char} {found : List BrokenLine × List BrokenLine}
    (h : found ∈ objects [] (breakLines text))
    : sliceOf text found ≠ none
        ↔
      IsBoundary (size (rawText found.1) - crlfs found.1) text
        ∧ IsBoundary (size (rawText found.1) + size (objectText found.2) - crlfs (found.1 ++ found.2.dropLast)) text := by
  rcases of_mem_objects h with ⟨after, hlines, hne⟩
  rcases List.eq_nil_or_concat found.2 with hnil | ⟨lines, last, hobject⟩
  . contradiction
  rw [List.concat_eq_append] at hobject
  rw [List.nil_append, hobject] at hlines
  have hended : ∀ line ∈ found.1 ++ lines, Ended line := by
    intro line hline
    apply ended_breakLines text
    rw [hlines]
    have hdrop : (found.1 ++ (lines ++ [last]) ++ after).dropLast = found.1 ++ lines ++ ([last] ++ after).dropLast := by
      rw [← List.append_assoc, List.append_assoc, List.dropLast_append_of_ne_nil (by simp)]
    rw [hdrop]
    exact List.mem_append_left _ hline
  have hbefore := byteOffset_ended fun line hline => hended line (List.mem_append_left _ hline)
  have hwhole := byteOffset_ended hended
  have hdropLast : (lines ++ [last]).dropLast = lines := List.dropLast_concat
  have htext : objectText (lines ++ [last]) = rawText lines ++ last.content := by
    unfold objectText
    rw [hdropLast, List.getLast?_concat]
    rfl
  have hstop : byteOffset (found.1 ++ (lines ++ [last])) - 1 = byteOffset (found.1 ++ lines) + size last.content := by
    rw [← List.append_assoc, byteOffset_append, byteOffset_singleton]
    omega
  have hle : byteOffset found.1 ≤ byteOffset (found.1 ++ lines) + size last.content := by
    rw [byteOffset_append]
    omega
  have hsize : size (rawText found.1) + size (rawText lines ++ last.content) - crlfs (found.1 ++ lines)
      = byteOffset (found.1 ++ lines) + size last.content := by
    rw [hwhole.1]
    have hlines := hwhole.2
    rw [rawText_append, size_append] at hlines ⊢
    rw [size_append]
    omega
  unfold sliceOf
  rw [hobject, hstop, hdropLast, htext, hsize, ← hbefore.1]
  exact slice_ne_none_iff hle text

theorem mapM_ne_none_iff {α β : Type} {f : α → Option β} {l : List α}
    : l.mapM f ≠ none ↔ ∀ x ∈ l, f x ≠ none := by
  induction l with
  | nil => simp
  | cons x l ih =>
    rw [List.mapM_cons, List.forall_mem_cons, ← ih]
    cases f x with
    | none => simp
    | some y => cases l.mapM f <;> simp

/--
When the parser does not panic.
-/
theorem parseOpencodeModelCatalog_ne_none_iff (fromStr : List Char → Option OpenCodeModelCatalogDocument)
    (text : List Char)
    : parseOpencodeModelCatalog fromStr text ≠ none ↔ Aligned text := by
  rw [parseOpencodeModelCatalog_eq, Ne, Option.map_eq_none_iff, ← Ne, mapM_ne_none_iff]
  exact forall₂_congr fun found hfound => sliceOf_ne_none_iff hfound

end Acp
