import TetherBridge.Mobile.DiffFiles

/-!
This module contains which diffs `parseUnifiedGitDiff` reads back as what they say.
-/

namespace Mobile.UnifiedDiff

/-! The lines of a text -/

theorem unbroken_append_iff {s t : Line} : Unbroken (s ++ t) ↔ Unbroken s ∧ Unbroken t := by
  unfold Unbroken
  simp only [List.mem_append, not_or]
  exact and_and_and_comm

theorem unbroken_of_printable {s : Line} (h : ∀ c ∈ s, printable c) : Unbroken s := by
  constructor <;>
  . intro hmem
    have hprintable := h _ hmem
    contradiction

theorem unbroken_keyword : ∀ keyword ∈ keywords, Unbroken keyword := by
  have hall : ∀ keyword ∈ keywords, keyword.all printable = true := List.all_iff_forall_prop.mp (by decide)
  intro keyword h
  exact unbroken_of_printable (List.all_eq_true.mp (hall keyword h))

theorem unbroken_label (side : Char) (path : Option Line) : Unbroken (label side path) := by
  cases path with
  | none =>
    have hall : ∀ c ∈ devNull, printable c := List.all_iff_forall_prop.mp (by decide)
    exact unbroken_of_printable hall
  | some path =>
    unfold label
    dsimp only
    rw [unbroken_append_iff]
    constructor
    . exact unbroken_of_printable (quotePath_printable _)
    . unfold Unbroken
      split <;> decide

theorem unbroken_ranges (hunk : DiffHunk) : Unbroken hunk.ranges := by
  have hdigit : ∀ c : Char, c.isDigit → printable c := by
    intro c hc
    have hle := Char.isDigit_iff_toNat.mp hc
    unfold printable
    have hzero : '0'.toNat = 48 := rfl
    have hnine : '9'.toNat = 57 := rfl
    simp
    omega
  have hdecimal : ∀ n, ∀ c ∈ decimal n, printable c := fun n c hc =>
    hdigit c (Nat.isDigit_of_mem_toDigits (by decide) (by decide) hc)
  have hrange : ∀ start count, ∀ c ∈ rangeText start count, printable c := by
    intro start count
    unfold rangeText
    split
    . exact hdecimal start
    . have hcomma : printable ',' = true := by decide
      intro c hc
      simp only [List.mem_append, List.mem_singleton] at hc
      rcases hc with (hc | rfl) | hc
      . exact hdecimal start c hc
      . exact hcomma
      . exact hdecimal count c hc
  have hold : ∀ c ∈ "@@ -".toList, printable c := List.all_iff_forall_prop.mp (by decide)
  have hnew : ∀ c ∈ " +".toList, printable c := List.all_iff_forall_prop.mp (by decide)
  have hend : ∀ c ∈ " @@".toList, printable c := List.all_iff_forall_prop.mp (by decide)
  apply unbroken_of_printable
  unfold DiffHunk.ranges
  intro c hc
  simp only [List.mem_append] at hc
  rcases hc with (((hc | hc) | hc) | hc) | hc
  . exact hold c hc
  . exact hrange _ _ c hc
  . exact hnew c hc
  . exact hrange _ _ c hc
  . exact hend c hc

theorem unbroken_hunk {hunk : DiffHunk} (h : hunk.WellFormed) : ∀ line ∈ hunk.text, Unbroken line := by
  unfold DiffHunk.text
  rw [List.forall_mem_cons, List.forall_mem_map]
  constructor
  . unfold DiffHunk.header
    rw [unbroken_append_iff]
    refine ⟨unbroken_ranges hunk, ?_⟩
    unfold DiffHunk.headingText
    cases hheading : hunk.heading with
    | none => exact unbroken_of_printable (by simp)
    | some heading =>
      have hblank : Unbroken [' '] := unbroken_of_printable (List.all_iff_forall_prop.mp (by decide))
      exact unbroken_append_iff.mpr ⟨hblank, h.heading heading hheading⟩
  . intro line hline
    have hmark : ∀ mark ∈ [' ', '+', '-'], ∀ text : Line, Unbroken text → Unbroken (mark :: text) := by
      intro mark hmark text htext
      refine unbroken_append_iff (s := [mark]).mpr ⟨?_, htext⟩
      have hall : ∀ mark ∈ [' ', '+', '-'], printable mark := List.all_iff_forall_prop.mp (by decide)
      exact unbroken_of_printable (List.forall_mem_singleton.mpr (hall mark hmark))
    have htext := h.lines line hline
    cases line with
    | context text => exact hmark ' ' (by simp) text htext
    | add text => exact hmark '+' (by simp) text htext
    | remove text => exact hmark '-' (by simp) text htext
    | noNewline =>
      exact unbroken_of_printable (List.all_iff_forall_prop.mp (by decide))

theorem unbroken_extended {file : DiffFile} (h : file.WellFormed) : ∀ line ∈ file.extended, Unbroken line := by
  have hkeyword : ∀ keyword ∈ keywords, ∀ rest : Line, Unbroken rest → Unbroken (keyword ++ rest) :=
    fun keyword hmem rest hrest => unbroken_append_iff.mpr ⟨unbroken_keyword keyword hmem, hrest⟩
  have hpath : ∀ path, Unbroken (quotePath path) := fun path => unbroken_of_printable (quotePath_printable path)
  unfold DiffFile.extended
  split
  . rw [List.forall_mem_singleton]
    exact hkeyword _ (by simp [keywords]) _ h.mode
  . rw [List.forall_mem_singleton]
    exact hkeyword _ (by simp [keywords]) _ h.mode
  . next oldPath newPath _ _ =>
    split
    . simp
    . simp only [List.forall_mem_cons, List.not_mem_nil, false_imp_iff, implies_true, and_true]
      exact ⟨hkeyword _ (by simp [keywords]) _ h.similarity, hkeyword _ (by simp [keywords]) _ (hpath oldPath),
        hkeyword _ (by simp [keywords]) _ (hpath newPath)⟩

theorem unbroken_text {file : DiffFile} (h : file.WellFormed) : ∀ line ∈ file.text, Unbroken line := by
  have hkeyword : ∀ keyword ∈ keywords, ∀ rest : Line, Unbroken rest → Unbroken (keyword ++ rest) :=
    fun keyword hmem rest hrest => unbroken_append_iff.mpr ⟨unbroken_keyword keyword hmem, hrest⟩
  have hgit : Unbroken file.gitLine := by
    have hstart : ∀ c ∈ "diff --git ".toList, printable c := List.all_iff_forall_prop.mp (by decide)
    unfold DiffFile.gitLine
    simp only [unbroken_append_iff]
    exact ⟨⟨⟨unbroken_of_printable hstart, unbroken_of_printable (quotePath_printable _)⟩,
      unbroken_of_printable (List.all_iff_forall_prop.mp (by decide))⟩, unbroken_of_printable (quotePath_printable _)⟩
  unfold DiffFile.text DiffFile.header
  intro line hline
  rw [List.cons_append, List.mem_cons, List.mem_append, List.mem_append] at hline
  rcases hline with rfl | (hline | hline) | hline
  . exact hgit
  . exact unbroken_extended h line hline
  . simp only [List.mem_cons, List.not_mem_nil, or_false] at hline
    rcases hline with rfl | rfl | rfl
    . exact hkeyword _ (by simp [keywords]) _ h.index
    . exact hkeyword _ (by simp [keywords]) _ (unbroken_label _ _)
    . exact hkeyword _ (by simp [keywords]) _ (unbroken_label _ _)
  . rcases List.mem_flatMap.mp hline with ⟨hunk, hhunk, hline⟩
    exact unbroken_hunk (h.hunks hunk hhunk) line hline

theorem normalizeLineBreaks_eq_self {s : List Char} (h : '\r' ∉ s) : normalizeLineBreaks s = s := by
  induction s using normalizeLineBreaks.induct with
  | case1 rest ih => simp at h
  | case2 rest hrest ih => simp at h
  | case3 c rest hother hreturn ih =>
    rw [normalizeLineBreaks, ih (List.not_mem_of_not_mem_cons h)]
    . exact hother
    . exact hreturn
  | case4 => rfl

theorem not_mem_intercalate {lines : List Line} (h : ∀ line ∈ lines, Unbroken line)
    : '\r' ∉ List.intercalate ['\n'] lines := by
  induction lines with
  | nil => simp
  | cons line lines ih =>
    rw [List.forall_mem_cons] at h
    cases lines with
    | nil => simpa using h.1.2
    | cons next lines =>
      rw [List.intercalate_cons_cons, List.mem_append, List.mem_append]
      simp only [not_or]
      exact ⟨⟨h.1.2, by decide⟩, ih h.2⟩

/--
The parser reads the lines that the text of a diff was made of.
-/
theorem lines_diffText {files : List DiffFile} (h : ∀ file ∈ files, file.WellFormed) (hsome : files ≠ [])
    : (normalizeLineBreaks (diffText files)).splitOn '\n' = files.flatMap (·.text) := by
  have hunbroken : ∀ line ∈ files.flatMap (·.text), Unbroken line := by
    intro line hline
    rcases List.mem_flatMap.mp hline with ⟨file, hfile, hline⟩
    exact unbroken_text (h file hfile) line hline
  unfold diffText
  rw [normalizeLineBreaks_eq_self (not_mem_intercalate hunbroken)]
  apply List.splitOn_intercalate
  . exact fun line hline => (hunbroken line hline).1
  . cases files with
    | nil => contradiction
    | cons file files => simp [DiffFile.text]

theorem parseUnifiedGitDiff_files {files : List DiffFile} (h : ∀ file ∈ files, file.WellFormed)
    : (parseUnifiedGitDiff (diffText files)).files = files.mapIdx fun index file => finalizeFile (readFile file) index := by
  by_cases hsome : files = []
  . subst hsome
    decide +kernel
  . have hready : (ParserState.flushFile {}).currentHunk = none := rfl
    have hfiles := ParserState.files_of_text hready files
    unfold parseUnifiedGitDiff
    dsimp only
    rw [lines_diffText h hsome, hfiles]
    simp [ParserState.flushFile, ParserState.flushHunk]

theorem map_reading {β : Type} (field : UnifiedDiffFile → β) (value : DiffFile → β)
    (h : ∀ file index, field (DiffFile.reading file index) = value file) (files : List DiffFile)
    : (document files).files.map field = files.map value := by
  unfold document
  apply List.ext_getElem
  . simp
  . intro index hlt hlt'
    simp [h]

/--
Which diffs are read back as what they say.
-/
theorem parseUnifiedGitDiff_eq_document_iff (files : List DiffFile) (h : ∀ file ∈ files, file.WellFormed)
    : parseUnifiedGitDiff (diffText files) = document files ↔ ∀ file ∈ files, file.Readable := by
  have hadditions := map_reading (·.additions) (·.additions) (fun _ _ => rfl) files
  have hdeletions := map_reading (·.deletions) (·.deletions) (fun _ _ => rfl) files
  have hdocument : parseUnifiedGitDiff (diffText files) = document files
      ↔ (parseUnifiedGitDiff (diffText files)).files = (document files).files := by
    constructor
    . exact congrArg UnifiedDiffDocument.files
    . intro hfiles
      have hadded : (parseUnifiedGitDiff (diffText files)).totalAdditions = (document files).totalAdditions := by
        have hsum : (parseUnifiedGitDiff (diffText files)).totalAdditions
            = ((parseUnifiedGitDiff (diffText files)).files.map (·.additions)).sum := rfl
        rw [hsum, hfiles, hadditions]
        rfl
      have hdeleted : (parseUnifiedGitDiff (diffText files)).totalDeletions = (document files).totalDeletions := by
        have hsum : (parseUnifiedGitDiff (diffText files)).totalDeletions
            = ((parseUnifiedGitDiff (diffText files)).files.map (·.deletions)).sum := rfl
        rw [hsum, hfiles, hdeletions]
        rfl
      generalize parseUnifiedGitDiff (diffText files) = read at *
      generalize document files = expected at *
      cases read
      cases expected
      simp_all
  rw [hdocument, parseUnifiedGitDiff_files h]
  unfold document
  rw [List.mapIdx_eq_mapIdx_iff]
  constructor
  . intro heq file hfile
    rcases List.getElem_of_mem hfile with ⟨index, hlt, rfl⟩
    exact (finalizeFile_eq_iff (h _ hfile) index).mp (heq index hlt)
  . intro hreadable index hlt
    exact (finalizeFile_eq_iff (h _ (List.getElem_mem hlt)) index).mpr (hreadable _ (List.getElem_mem hlt))

/--
A file from which one line is removed.
-/
def removal (line : Line) : DiffFile where
  oldPath := some "a.lua".toList
  newPath := some "a.lua".toList
  index := "1..2 100644".toList
  mode := []
  similarity := []
  hunks := [{ oldStart := 1, newStart := 1, lines := [.remove line, .context "x".toList] }]

theorem removal_wellFormed {line : Line} (h : Unbroken line) : ∀ file ∈ [removal line], file.WellFormed := by
  rw [List.forall_mem_singleton]
  exact {
    oldPath := by
      change some "a.lua".toList ≠ some []
      decide
    newPath := by
      change some "a.lua".toList ≠ some []
      decide
    paths := .inl (Option.some_ne_none _)
    index := by
      have hall : ∀ c ∈ "1..2 100644".toList, printable c := List.all_iff_forall_prop.mp (by decide)
      exact unbroken_of_printable hall
    mode := unbroken_of_printable (by simp [removal])
    similarity := unbroken_of_printable (by simp [removal])
    hunks := by
      unfold removal
      rw [List.forall_mem_singleton]
      refine ⟨by simp, ?_, ?_⟩
      rotate_left
      . simp [DiffHunk.oldCount, DiffHunk.newCount, DiffLine.kind, UnifiedDiffLineKind.inOld,
          UnifiedDiffLineKind.inNew, MAX_SAFE_INTEGER]
      simp only [List.forall_mem_cons, List.not_mem_nil, false_imp_iff, implies_true, and_true]
      exact ⟨h, unbroken_of_printable (List.all_iff_forall_prop.mp (by decide))⟩ }

theorem parseUnifiedGitDiff_removal
    : parseUnifiedGitDiff (diffText [removal "x".toList]) = document [removal "x".toList]
        ∧ ∀ file ∈ [removal "x".toList], file.Readable := by
  have hiff := parseUnifiedGitDiff_eq_document_iff [removal "x".toList]
    (removal_wellFormed (unbroken_of_printable (List.all_iff_forall_prop.mp (by decide))))
  have hread : parseUnifiedGitDiff (diffText [removal "x".toList]) = document [removal "x".toList] := by
    decide +kernel
  exact ⟨hread, hiff.mp hread⟩

/--
A line that starts with dashes is taken for the label of a file.
-/
theorem not_parseUnifiedGitDiff_dashes
    : ¬∀ files : List DiffFile, (∀ file ∈ files, file.WellFormed)
        → parseUnifiedGitDiff (diffText files) = document files := by
  intro h
  have hread := h [removal "-- x".toList] (removal_wellFormed (unbroken_of_printable (List.all_iff_forall_prop.mp (by decide))))
  revert hread
  decide +kernel

end Mobile.UnifiedDiff
