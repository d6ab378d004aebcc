import Mathlib.Data.Bool.AllAny
import Mathlib.Data.List.SplitOn

/-!
This module contains `parse_porcelain_status_entries` of `services/git.rs`, what `git status --porcelain=v1 -z --branch`
prints, and which outputs are read back.
-/

namespace Git

abbrev Token := List Char

structure GitStatusEntry where
  path : Token
  originalPath : Option Token
  indexStatus : Char
  worktreeStatus : Char
  staged : Bool
  unstaged : Bool
  untracked : Bool
  deriving DecidableEq, Repr

/--
An entry with what follows from its letters.
-/
def statusEntry (indexStatus worktreeStatus : Char) (path : Token) (originalPath : Option Token) : GitStatusEntry :=
  let untracked := indexStatus == '?' && worktreeStatus == '?'
  { path
    originalPath
    indexStatus
    worktreeStatus
    staged := !(indexStatus == ' ' || indexStatus == '?')
    unstaged := untracked || worktreeStatus != ' '
    untracked }

def isRenameOrCopy (status : Char) : Bool :=
  status == 'R' || status == 'C'

def parseTokens : List Token → List GitStatusEntry
  | [] => []
  | token :: rest =>
    if ['#', '#', ' '].isPrefixOf token then parseTokens rest
    else
      let indexStatus := token[0]?.getD ' '
      let worktreeStatus := token[1]?.getD ' '
      let path := token.drop 3
      if path = [] then parseTokens rest
      else if isRenameOrCopy indexStatus then
        match rest with
        | [] => [statusEntry indexStatus worktreeStatus path none]
        | original :: rest => statusEntry indexStatus worktreeStatus path (some original) :: parseTokens rest
      else statusEntry indexStatus worktreeStatus path none :: parseTokens rest

def nul : Char := '\x00'

def parsePorcelainStatusEntries (raw : List Char) : List GitStatusEntry :=
  parseTokens ((raw.splitOn nul).filter (· ≠ []))

/-! What git prints -/

/--
The letters of the short format.
-/
def statusLetters : List Char :=
  [' ', 'M', 'T', 'A', 'D', 'R', 'C', 'U', '?', '!']

/--
A path of the status, with its letter in the index and in the worktree, and the path that it was renamed or copied
from.
-/
structure StatusLine where
  indexStatus : Char
  worktreeStatus : Char
  path : Token
  originalPath : Option Token
  deriving DecidableEq, Repr

namespace StatusLine

/--
What `-z` prints of a path.
-/
def Name (path : Token) : Prop :=
  path ≠ [] ∧ nul ∉ path

instance (path : Token) : Decidable (Name path) :=
  inferInstanceAs (Decidable (path ≠ [] ∧ nul ∉ path))

structure WellFormed (line : StatusLine) : Prop where
  indexStatus : line.indexStatus ∈ statusLetters
  worktreeStatus : line.worktreeStatus ∈ statusLetters
  path : Name line.path
  originalPath : ∀ original ∈ line.originalPath, Name original
  renamed : line.originalPath.isSome = (isRenameOrCopy line.indexStatus || isRenameOrCopy line.worktreeStatus)

def tokens (line : StatusLine) : List Token :=
  (line.indexStatus :: line.worktreeStatus :: ' ' :: line.path) :: line.originalPath.toList

def entry (line : StatusLine) : GitStatusEntry :=
  statusEntry line.indexStatus line.worktreeStatus line.path line.originalPath

end StatusLine

def branchToken (branch : Token) : Token :=
  ['#', '#', ' '] ++ branch

/--
Every token is ended by a NUL.
-/
def porcelainOutput (branch : Token) (lines : List StatusLine) : List Char :=
  (branchToken branch :: lines.flatMap (·.tokens)).flatMap (· ++ [nul])

/-! Reading back -/

/--
The text that ends with a NUL has an empty token at its end.
-/
theorem splitOn_ended {tokens : List Token} (h : ∀ token ∈ tokens, nul ∉ token)
    : (tokens.flatMap (· ++ [nul])).splitOn nul = tokens ++ [[]] := by
  have hjoin : tokens.flatMap (· ++ [nul]) = List.intercalate [nul] (tokens ++ [[]]) := by
    induction tokens with
    | nil => simp
    | cons token tokens ih =>
      rw [List.forall_mem_cons] at h
      rw [List.flatMap_cons, ih h.2, List.cons_append]
      cases tokens with
      | nil => simp
      | cons next tokens =>
        rw [List.cons_append, List.intercalate_cons_cons]
  rw [hjoin]
  apply List.splitOn_intercalate
  . intro token htoken
    rcases List.mem_append.mp htoken with htoken | htoken
    . exact h token htoken
    . simp_all
  . simp

theorem not_header {line : StatusLine} (h : line.WellFormed) (rest : Token)
    : ['#', '#', ' '].isPrefixOf (line.indexStatus :: line.worktreeStatus :: rest) = false := by
  have hletter : ∀ letter ∈ statusLetters, letter ≠ '#' := List.all_iff_forall_prop.mp (by decide)
  have hne : ('#' == line.indexStatus) = false := by
    simpa using (hletter line.indexStatus h.indexStatus).symm
  rw [List.isPrefixOf_cons_cons, hne, Bool.false_and]

theorem parseTokens_branch (branch : Token) (rest : List Token)
    : parseTokens (branchToken branch :: rest) = parseTokens rest := by
  have hheader : ['#', '#', ' '].isPrefixOf (branchToken branch) = true :=
    List.isPrefixOf_iff_prefix.mpr (List.prefix_append _ _)
  rw [parseTokens, if_pos hheader]

/--
The first token of a line makes an entry; the next one is taken for the original path when the letter of the index
says so.
-/
theorem parseTokens_line {line : StatusLine} (h : line.WellFormed) (rest : List Token)
    : parseTokens (line.tokens ++ rest)
        =
      if isRenameOrCopy line.indexStatus then line.entry :: parseTokens rest
      else { line.entry with originalPath := none } :: parseTokens (line.originalPath.toList ++ rest) := by
  have hpath := h.path.1
  unfold StatusLine.tokens
  rw [List.cons_append, parseTokens, not_header h]
  simp only [Bool.false_eq_true, if_false, List.getElem?_cons_zero, List.getElem?_cons_succ, Option.getD_some,
    List.drop_succ_cons, List.drop_zero, if_neg hpath]
  split
  . next hrenamed =>
    have hsome := h.renamed
    rw [hrenamed, Bool.true_or, Option.isSome_iff_exists] at hsome
    rcases hsome with ⟨original, horiginal⟩
    rw [horiginal, Option.toList_some, List.singleton_append]
    unfold StatusLine.entry
    rw [horiginal]
  . rfl

/--
Which outputs are read back: those without a path that was renamed or copied in the worktree only.
-/
theorem parseTokens_eq_iff {lines : List StatusLine} (h : ∀ line ∈ lines, line.WellFormed)
    : parseTokens (lines.flatMap (·.tokens)) = lines.map (·.entry)
        ↔
      ∀ line ∈ lines, isRenameOrCopy line.worktreeStatus → isRenameOrCopy line.indexStatus := by
  induction lines with
  | nil => simp [parseTokens]
  | cons line lines ih =>
    rw [List.forall_mem_cons] at h
    rw [List.flatMap_cons, parseTokens_line h.1, List.map_cons, List.forall_mem_cons, ← ih h.2]
    have hrenamed := h.1.renamed
    by_cases hindex : isRenameOrCopy line.indexStatus
    . rw [if_pos hindex, List.cons.injEq]
      simp [hindex]
    . rw [if_neg hindex, List.cons.injEq]
      rw [Bool.not_eq_true] at hindex
      rw [hindex, Bool.false_or] at hrenamed
      cases horiginal : line.originalPath with
      | none =>
        rw [horiginal] at hrenamed
        simp [StatusLine.entry, statusEntry, horiginal, ← hrenamed]
      | some original =>
        rw [horiginal] at hrenamed
        simp [StatusLine.entry, statusEntry, horiginal, ← hrenamed, hindex]

theorem filter_tokens {branch : Token} {lines : List StatusLine} (h : ∀ line ∈ lines, line.WellFormed)
    : (branchToken branch :: lines.flatMap StatusLine.tokens ++ [[]]).filter (· ≠ [])
        =
      branchToken branch :: lines.flatMap (·.tokens) := by
  have hkept : ∀ token ∈ branchToken branch :: lines.flatMap (·.tokens), decide (token ≠ []) = true := by
    intro token htoken
    rw [decide_eq_true_eq]
    rcases List.mem_cons.mp htoken with rfl | htoken
    . simp [branchToken]
    . rcases List.mem_flatMap.mp htoken with ⟨line, hline, htoken⟩
      rcases List.mem_cons.mp htoken with rfl | htoken
      . simp
      . exact ((h line hline).originalPath token (Option.mem_toList.mp htoken)).1
  rw [List.filter_append, List.filter_eq_self.mpr hkept]
  simp

theorem parsePorcelainStatusEntries_eq_iff (branch : Token) (hbranch : nul ∉ branch) (lines : List StatusLine)
    (h : ∀ line ∈ lines, line.WellFormed)
    : parsePorcelainStatusEntries (porcelainOutput branch lines) = lines.map (·.entry)
        ↔
      ∀ line ∈ lines, isRenameOrCopy line.worktreeStatus → isRenameOrCopy line.indexStatus := by
  have hletter : ∀ letter ∈ statusLetters, letter ≠ nul := List.all_iff_forall_prop.mp (by decide)
  have hunbroken : ∀ token ∈ branchToken branch :: lines.flatMap (·.tokens), nul ∉ token := by
    intro token htoken
    rcases List.mem_cons.mp htoken with rfl | htoken
    . have hmark : nul ∉ ['#', '#', ' '] := by decide
      unfold branchToken
      rw [List.mem_append]
      exact not_or.mpr ⟨hmark, hbranch⟩
    . rcases List.mem_flatMap.mp htoken with ⟨line, hline, htoken⟩
      rcases List.mem_cons.mp htoken with rfl | htoken
      . have hindex := hletter _ (h line hline).indexStatus
        have hworktree := hletter _ (h line hline).worktreeStatus
        have hspace : ' ' ≠ nul := by decide
        have hpath := (h line hline).path.2
        simp [hindex.symm, hworktree.symm, hspace.symm, hpath]
      . exact ((h line hline).originalPath token (Option.mem_toList.mp htoken)).2
  unfold parsePorcelainStatusEntries porcelainOutput
  rw [splitOn_ended hunbroken, filter_tokens h, parseTokens_branch]
  exact parseTokens_eq_iff h

/--
A file that is renamed in the index, and another one that is modified in the worktree.
-/
theorem parsePorcelainStatusEntries_renamed
    : parsePorcelainStatusEntries (porcelainOutput ['m'] [⟨'R', ' ', ['b'], some ['a']⟩, ⟨' ', 'M', ['c'], none⟩])
        =
      [⟨'R', ' ', ['b'], some ['a']⟩, ⟨' ', 'M', ['c'], none⟩].map StatusLine.entry := by
  apply (parsePorcelainStatusEntries_eq_iff ['m'] (by decide) _ ?_).mpr (by decide)
  simp only [List.forall_mem_cons, List.not_mem_nil, false_imp_iff, implies_true, and_true]
  exact ⟨⟨by decide, by decide, by decide, by simp; decide, by decide⟩,
    ⟨by decide, by decide, by decide, by simp, by decide⟩⟩

/--
The original path of a file that is renamed in the worktree becomes an entry of its own.
-/
theorem not_parsePorcelainStatusEntries_worktree
    : ¬∀ (branch : Token) (lines : List StatusLine), nul ∉ branch → (∀ line ∈ lines, line.WellFormed)
        → parsePorcelainStatusEntries (porcelainOutput branch lines) = lines.map (·.entry) := by
  intro h
  have hread := h ['m'] [⟨' ', 'R', ['b'], some ['a', '.', 't', 's']⟩] (by decide) (by
    rw [List.forall_mem_singleton]
    exact ⟨by decide, by decide, by decide, by simp; decide, by decide⟩)
  revert hread
  decide

end Git
