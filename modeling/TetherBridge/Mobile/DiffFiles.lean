import TetherBridge.Mobile.DiffHunks

/-!
This module contains what the parser does with the text of a file: its header opens it, its hunks are added to it
and counted, and the next file or the end of the diff closes it.
-/

namespace Mobile.UnifiedDiff

/-! Files -/

def InProgressFile.withHunk (file : InProgressFile) (hunk : UnifiedDiffHunk) : InProgressFile :=
  { file with
    hunks := file.hunks ++ [hunk]
    additions := file.additions + (hunk.lines.map (·.kind.additions)).sum
    deletions := file.deletions + (hunk.lines.map (·.kind.deletions)).sum }

/--
The lines of a hunk that was not found are read as metadata of the file.
-/
def readHunkInto (file : InProgressFile) (hunk : DiffHunk) : InProgressFile :=
  match readHunk hunk with
  | some read => file.withHunk read
  | none => hunk.lines.foldl (fun file line => applyFileMetadata (stripAnsi line.text) file) file

/--
A line that starts neither a file nor a hunk.
-/
def Plain (line : Line) : Prop :=
  "diff --git ".toList.isPrefixOf (stripAnsi line) = false ∧ "@@ ".toList.isPrefixOf (stripAnsi line) = false

theorem plain_text (line : DiffLine) : Plain line.text := by
  have hgit : "diff --git ".toList.head? = some 'd' := by decide
  have hhunk : "@@ ".toList.head? = some '@' := by decide
  rcases head?_stripAnsi_text line with ⟨mark, hmark, text, htext⟩
  have hne : 'd' ≠ mark ∧ '@' ≠ mark := by
    simp only [List.mem_cons, List.not_mem_nil, or_false] at hmark
    rcases hmark with rfl | rfl | rfl | rfl <;> decide
  unfold Plain
  rw [htext]
  exact ⟨isPrefixOf_cons_of_head_ne hgit hne.1, isPrefixOf_cons_of_head_ne hhunk hne.2⟩

namespace ParserState

/--
The parser is in `file`, with the hunks that it has read of it.
-/
structure In (s : ParserState) (files : List UnifiedDiffFile) (file : InProgressFile) : Prop where
  files : s.files = files
  currentFile : s.flushHunk.currentFile = some file

variable {s : ParserState} {files : List UnifiedDiffFile} {file : InProgressFile}

theorem files_flushHunk : s.flushHunk.files = s.files := by
  unfold flushHunk
  split <;> rfl

theorem currentHunk_flushHunk (h : s.currentFile ≠ none) : s.flushHunk.currentHunk = none := by
  unfold flushHunk
  split
  . rfl
  . next hnone =>
    cases hfile : s.currentFile with
    | none => contradiction
    | some file =>
      cases hhunk : s.currentHunk with
      | none => rfl
      | some hunk => exact absurd hhunk (hnone file hunk hfile)

theorem in_of_no_hunk (hfiles : s.files = files) (hhunk : s.currentHunk = none) (hfile : s.currentFile = some file)
    : s.In files file := by
  refine ⟨hfiles, ?_⟩
  unfold flushHunk
  rw [hfile, hhunk]
  exact hfile

theorem in_of_hunk {hunk : UnifiedDiffHunk} (hfiles : s.files = files) (hhunk : s.currentHunk = some hunk)
    (hfile : s.currentFile = some file)
    : s.In files { file with hunks := file.hunks ++ [hunk] } := by
  refine ⟨hfiles, ?_⟩
  unfold flushHunk
  rw [hfile, hhunk]

theorem In.currentFile_ne_none (h : s.In files file) : s.currentFile ≠ none := by
  intro hnone
  have hfile := h.currentFile
  unfold flushHunk at hfile
  simp [hnone] at hfile

theorem parseLine_of_plain {line : Line} (h : Plain line)
    : s.parseLine line
        =
      match s.currentFile, s.currentHunk with
      | none, _ => s
      | some file, some hunk => s.readLine file hunk (stripAnsi line)
      | some file, none => { s with currentFile := some (applyFileMetadata (stripAnsi line) file) } := by
  unfold parseLine
  dsimp only
  rw [h.1, h.2, if_neg (by decide)]
  cases s.currentFile with
  | none => rfl
  | some file => cases s.currentHunk <;> rfl

/--
In a hunk, its lines are added to it and counted.
-/
theorem foldl_lines_of_hunk {hunk : UnifiedDiffHunk} (lines : List DiffLine) (hfile : s.currentFile = some file)
    (hhunk : s.currentHunk = some hunk)
    : let read := readLines s.oldCursor s.newCursor (lines.map fun line => stripAnsi line.text)
      let after := (lines.map (·.text)).foldl parseLine s
      after.files = s.files
        ∧ after.currentHunk = some { hunk with lines := hunk.lines ++ read }
        ∧ after.currentFile = some { file with
            additions := file.additions + (read.map (·.kind.additions)).sum
            deletions := file.deletions + (read.map (·.kind.deletions)).sum } := by
  induction lines generalizing s file hunk with
  | nil => simp [readLines, hfile, hhunk]
  | cons line lines ih =>
    have hline : s.parseLine line.text = s.readLine file hunk (stripAnsi line.text) := by
      rw [parseLine_of_plain (plain_text line), hfile, hhunk]
    have hafter := ih (s := s.readLine file hunk (stripAnsi line.text)) rfl rfl
    dsimp only at hafter ⊢
    rw [List.map_cons, List.map_cons, List.foldl_cons, hline, readLines]
    rcases hafter with ⟨hfiles, hread, hcounted⟩
    refine ⟨hfiles, ?_, ?_⟩
    . rw [hread]
      simp [readLine]
    . rw [hcounted]
      simp [readLine, Nat.add_assoc]

/--
Outside of the hunks, the lines are metadata.
-/
theorem foldl_lines_of_no_hunk {lines : List Line} (hplain : ∀ line ∈ lines, Plain line)
    (hfile : s.currentFile = some file) (hhunk : s.currentHunk = none)
    : let after := lines.foldl parseLine s
      after.files = s.files
        ∧ after.currentHunk = none
        ∧ after.currentFile = some (lines.foldl (fun file line => applyFileMetadata (stripAnsi line) file) file) := by
  induction lines generalizing s file with
  | nil => exact ⟨rfl, hhunk, hfile⟩
  | cons line lines ih =>
    rw [List.forall_mem_cons] at hplain
    have hline : s.parseLine line = { s with currentFile := some (applyFileMetadata (stripAnsi line) file) } := by
      rw [parseLine_of_plain hplain.1, hfile, hhunk]
    dsimp only
    rw [List.foldl_cons, List.foldl_cons, hline]
    exact ih hplain.2 rfl hhunk

theorem parseLine_header (hfile : s.currentFile ≠ none) (hunk : DiffHunk)
    : s.parseLine hunk.header = s.startHunk (stripAnsi hunk.header) := by
  have hgit : "diff --git ".toList.head? = some 'd' := by decide
  have hranges : "@@ -".toList = "@@ ".toList ++ ['-'] := by decide
  have hhead : "@@ ".toList = '@' :: "@ ".toList := by decide
  have hstrip : ∃ rest, stripAnsi hunk.header = "@@ ".toList ++ rest := by
    rw [stripAnsi_header]
    unfold DiffHunk.ranges
    rw [hranges]
    simp only [List.append_assoc]
    exact ⟨_, rfl⟩
  rcases hstrip with ⟨rest, hstrip⟩
  have hother : "diff --git ".toList.isPrefixOf ("@@ ".toList ++ rest) = false := by
    rw [hhead]
    exact isPrefixOf_cons_of_head_ne hgit (by decide)
  unfold parseLine
  dsimp only
  rw [hstrip, hother, if_neg (by decide), isPrefixOf_append]
  cases hcurrent : s.currentFile with
  | none => contradiction
  | some file => rfl

theorem In.foldl_hunk (h : s.In files file) (hunk : DiffHunk)
    : (hunk.text.foldl parseLine s).In files (readHunkInto file hunk) := by
  have hfile := h.currentFile
  have hhunk := currentHunk_flushHunk h.currentFile_ne_none
  have hfiles : s.flushHunk.files = files := files_flushHunk.trans h.files
  unfold DiffHunk.text readHunkInto readHunk
  rw [List.foldl_cons, parseLine_header h.currentFile_ne_none]
  unfold startHunk
  cases parseHunkHeader (stripAnsi hunk.header) with
  | none =>
    have hplain : ∀ line ∈ hunk.lines.map (·.text), Plain line := by
      simpa using fun line _ => plain_text line
    rcases foldl_lines_of_no_hunk hplain hfile hhunk with ⟨hafter, hnone, hcurrent⟩
    exact in_of_no_hunk (hafter.trans hfiles) hnone (hcurrent.trans (congrArg some List.foldl_map))
  | some ranges =>
    rcases ranges with ⟨oldStart, oldCount, newStart, newCount⟩
    dsimp only
    rcases foldl_lines_of_hunk (s := { s.flushHunk with
        oldCursor := oldStart
        newCursor := newStart
        currentHunk := some { header := stripAnsi hunk.header, oldStart, oldCount, newStart, newCount, lines := [] } })
      hunk.lines hfile rfl with ⟨hafter, hread, hcurrent⟩
    exact in_of_hunk (hafter.trans hfiles) hread hcurrent

theorem In.foldl_hunks (h : s.In files file) (hunks : List DiffHunk)
    : ((hunks.flatMap (·.text)).foldl parseLine s).In files (hunks.foldl readHunkInto file) := by
  induction hunks generalizing s file with
  | nil => exact h
  | cons hunk hunks ih =>
    rw [List.flatMap_cons, List.foldl_append, List.foldl_cons]
    exact ih (h.foldl_hunk hunk)

theorem In.files_flushFile (h : s.In files file) : s.flushFile.files = files ++ [finalizeFile file files.length] := by
  unfold flushFile
  rw [h.currentFile, h.files]

end ParserState

/-! The header of a file -/

/--
What the lines of a header start with.
-/
def keywords : List Line :=
  ["new file mode ".toList, "deleted file mode ".toList, "similarity index ".toList, "rename from ".toList,
    "rename to ".toList, "index ".toList, "--- ".toList, "+++ ".toList]

theorem escape_not_mem_keywords : ∀ keyword ∈ keywords, escape ∉ keyword := by
  decide

theorem plain_keyword {keyword : Line} (h : keyword ∈ keywords) (rest : Line) : Plain (keyword ++ rest) := by
  have hgit : ∀ keyword ∈ keywords, ¬"diff --git ".toList <+: keyword ∧ ¬keyword <+: "diff --git ".toList := by
    decide
  have hhunk : ∀ keyword ∈ keywords, ¬"@@ ".toList <+: keyword ∧ ¬keyword <+: "@@ ".toList := by
    decide
  unfold Plain
  rw [stripAnsi_append (escape_not_mem_keywords keyword h)]
  exact ⟨isPrefixOf_append_of_ne (hgit keyword h).1 (hgit keyword h).2,
    isPrefixOf_append_of_ne (hhunk keyword h).1 (hhunk keyword h).2⟩

section

variable (rest : Line) (file : InProgressFile)

theorem applyFileMetadata_newFile
    : applyFileMetadata ("new file mode ".toList ++ rest) file
        =
      { file with status := .added, displayPath := formatDisplayPath file.oldPath file.newPath } := by
  unfold applyFileMetadata
  simp (disch := decide) only [isPrefixOf_append, if_true]

theorem applyFileMetadata_deletedFile
    : applyFileMetadata ("deleted file mode ".toList ++ rest) file
        =
      { file with status := .deleted, displayPath := formatDisplayPath file.oldPath file.newPath } := by
  unfold applyFileMetadata
  simp (disch := decide) only [isPrefixOf_append, isPrefixOf_append_of_ne, Bool.false_eq_true, if_true,
    if_false]

theorem applyFileMetadata_rename (keyword : Line) (h : keyword ∈ ["rename from ".toList, "rename to ".toList])
    : ∃ oldPath newPath displayPath, applyFileMetadata (keyword ++ rest) file
        = { file with status := .renamed, oldPath, newPath, displayPath } := by
  simp only [List.mem_cons, List.not_mem_nil, or_false] at h
  unfold applyFileMetadata
  rcases h with rfl | rfl
  all_goals
    simp (disch := decide) only [isPrefixOf_append, isPrefixOf_append_of_ne, Bool.false_eq_true, if_true,
      if_false]
    exact ⟨_, _, _, rfl⟩

theorem applyFileMetadata_index (keyword : Line) (h : keyword ∈ ["similarity index ".toList, "index ".toList])
    : applyFileMetadata (keyword ++ rest) file
        =
      { file with displayPath := formatDisplayPath file.oldPath file.newPath } := by
  simp only [List.mem_cons, List.not_mem_nil, or_false] at h
  unfold applyFileMetadata
  rcases h with rfl | rfl
  all_goals
    simp (disch := decide) only [isPrefixOf_append_of_ne, append_ne_of_not_prefix, Bool.false_eq_true,
      or_self, if_false]

theorem applyFileMetadata_oldLabel
    : applyFileMetadata ("--- ".toList ++ rest) file
        =
      { file with
        oldPath := parsePatchPath rest
        displayPath := formatDisplayPath (parsePatchPath rest) file.newPath } := by
  have hdrop : ("--- ".toList ++ rest).drop 4 = rest := List.drop_left' (by decide)
  unfold applyFileMetadata
  simp (disch := decide) only [isPrefixOf_append, isPrefixOf_append_of_ne, append_ne_of_not_prefix,
    Bool.false_eq_true, or_self, if_false, if_true, hdrop]

theorem applyFileMetadata_newLabel
    : applyFileMetadata ("+++ ".toList ++ rest) file
        =
      { file with
        newPath := parsePatchPath rest
        displayPath := formatDisplayPath file.oldPath (parsePatchPath rest) } := by
  have hdrop : ("+++ ".toList ++ rest).drop 4 = rest := List.drop_left' (by decide)
  unfold applyFileMetadata
  simp (disch := decide) only [isPrefixOf_append, isPrefixOf_append_of_ne, append_ne_of_not_prefix,
    Bool.false_eq_true, or_self, if_false, if_true, hdrop]

end

theorem escape_not_mem_label (side : Char) (path : Option Line) : escape ∉ label side path := by
  cases path with
  | none =>
    change escape ∉ devNull
    decide
  | some path =>
    unfold label
    dsimp only
    rw [List.mem_append, not_or]
    constructor
    . intro hmem
      have hprintable := quotePath_printable _ _ hmem
      contradiction
    . split <;> decide

/--
The file that the header of a diff opens.
-/
def openedFile (file : DiffFile) : InProgressFile :=
  let oldPath := parsePatchPath (label 'a' file.oldPath)
  let newPath := parsePatchPath (label 'b' file.newPath)
  { oldPath, newPath, displayPath := formatDisplayPath oldPath newPath, status := file.status }

theorem foldl_extended (file : DiffFile) (opened : InProgressFile) (hstatus : opened.status = .modified)
    : ∃ oldPath newPath displayPath,
        file.extended.foldl (fun opened line => applyFileMetadata (stripAnsi line) opened) opened
          = { opened with status := file.status, oldPath, newPath, displayPath } := by
  have hstrip : ∀ keyword ∈ keywords, ∀ rest, stripAnsi (keyword ++ rest) = keyword ++ stripAnsi rest :=
    fun keyword h => stripAnsi_append (escape_not_mem_keywords keyword h)
  unfold DiffFile.extended DiffFile.status
  split
  . rw [List.foldl_cons, List.foldl_nil, hstrip _ (by simp [keywords]), applyFileMetadata_newFile]
    exact ⟨_, _, _, rfl⟩
  . rw [List.foldl_cons, List.foldl_nil, hstrip _ (by simp [keywords]), applyFileMetadata_deletedFile]
    exact ⟨_, _, _, rfl⟩
  . next oldPath newPath _ _ =>
    split
    . rw [← hstatus]
      exact ⟨_, _, _, rfl⟩
    . rw [List.foldl_cons, List.foldl_cons, List.foldl_cons, List.foldl_nil, hstrip _ (by simp [keywords]),
        hstrip _ (by simp [keywords]), hstrip _ (by simp [keywords]), applyFileMetadata_index _ _ "similarity index ".toList (by simp)]
      rcases applyFileMetadata_rename (stripAnsi (quotePath oldPath))
        { opened with displayPath := formatDisplayPath opened.oldPath opened.newPath } "rename from ".toList
        (by simp) with ⟨_, _, _, hfrom⟩
      rw [hfrom]
      rcases applyFileMetadata_rename (stripAnsi (quotePath newPath)) _ "rename to ".toList (by simp)
        with ⟨_, _, _, hto⟩
      rw [hto]
      exact ⟨_, _, _, rfl⟩

/--
Whatever the paths were before the labels, these decide them.
-/
theorem foldl_header (file : DiffFile) (oldPath newPath : Option Line) (displayPath : Line)
    : file.header.foldl (fun opened line => applyFileMetadata (stripAnsi line) opened)
          { oldPath, newPath, displayPath }
        =
      openedFile file := by
  have hstrip : ∀ keyword ∈ keywords, ∀ rest, stripAnsi (keyword ++ rest) = keyword ++ stripAnsi rest :=
    fun keyword h => stripAnsi_append (escape_not_mem_keywords keyword h)
  rcases foldl_extended file { oldPath, newPath, displayPath } rfl with ⟨_, _, _, hextended⟩
  unfold DiffFile.header
  rw [List.foldl_append, hextended, List.foldl_cons, List.foldl_cons, List.foldl_cons, List.foldl_nil,
    hstrip _ (by simp [keywords]), hstrip _ (by simp [keywords]), hstrip _ (by simp [keywords]),
    applyFileMetadata_index _ _ "index ".toList (by simp), stripAnsi_eq_self (escape_not_mem_label 'a' file.oldPath),
    stripAnsi_eq_self (escape_not_mem_label 'b' file.newPath), applyFileMetadata_oldLabel,
    applyFileMetadata_newLabel]
  rfl

/-! Diffs -/

/--
What the parser makes of a file.
-/
def readFile (file : DiffFile) : InProgressFile :=
  file.hunks.foldl readHunkInto (openedFile file)

theorem plain_header (file : DiffFile) : ∀ line ∈ file.header, Plain line := by
  have hkeyword : ∀ line ∈ file.header, ∃ keyword ∈ keywords, ∃ rest, line = keyword ++ rest := by
    unfold DiffFile.header DiffFile.extended
    intro line hline
    rcases List.mem_append.mp hline with hline | hline
    . split at hline
      . simp only [List.mem_cons, List.not_mem_nil, or_false] at hline
        exact ⟨_, by simp [keywords], _, hline⟩
      . simp only [List.mem_cons, List.not_mem_nil, or_false] at hline
        exact ⟨_, by simp [keywords], _, hline⟩
      . split at hline
        . contradiction
        . simp only [List.mem_cons, List.not_mem_nil, or_false] at hline
          rcases hline with hline | hline | hline <;> exact ⟨_, by simp [keywords], _, hline⟩
    . simp only [List.mem_cons, List.not_mem_nil, or_false] at hline
      rcases hline with hline | hline | hline <;> exact ⟨_, by simp [keywords], _, hline⟩
  intro line hline
  rcases hkeyword line hline with ⟨keyword, hmem, rest, rfl⟩
  exact plain_keyword hmem rest

theorem escape_not_mem_gitLine (file : DiffFile) : escape ∉ file.gitLine := by
  have hgit : escape ∉ "diff --git ".toList := by decide
  have hpath : ∀ path, escape ∉ quotePath path := by
    intro path hmem
    have hprintable := quotePath_printable _ _ hmem
    contradiction
  unfold DiffFile.gitLine
  simp only [List.mem_append, hgit, hpath, or_self, or_false, false_or]
  decide

namespace ParserState

variable {s : ParserState}

theorem parseLine_gitLine (s : ParserState) (file : DiffFile) : s.parseLine file.gitLine = s.startFile file.gitLine := by
  have hstart : "diff --git ".toList.isPrefixOf file.gitLine = true := by
    unfold DiffFile.gitLine
    simp only [List.append_assoc]
    exact isPrefixOf_append _ _
  unfold parseLine
  dsimp only
  rw [stripAnsi_eq_self (escape_not_mem_gitLine file), if_pos hstart]

/--
A file ends the one before it.
-/
theorem In.of_text (hready : s.flushFile.currentHunk = none) (file : DiffFile)
    : (file.text.foldl parseLine s).In s.flushFile.files (readFile file) := by
  unfold DiffFile.text readFile
  rw [List.cons_append, List.foldl_cons, List.foldl_append, parseLine_gitLine]
  apply In.foldl_hunks
  rcases foldl_lines_of_no_hunk (s := s.startFile file.gitLine) (plain_header file) rfl hready
    with ⟨hfiles, hhunk, hfile⟩
  rw [foldl_header] at hfile
  exact in_of_no_hunk hfiles hhunk hfile

theorem In.ready {files : List UnifiedDiffFile} {file : InProgressFile} (h : s.In files file)
    : s.flushFile.currentHunk = none := by
  unfold flushFile
  rw [h.currentFile]
  exact currentHunk_flushHunk h.currentFile_ne_none

theorem files_of_text (hready : s.flushFile.currentHunk = none) (files : List DiffFile)
    : ((files.flatMap (·.text)).foldl parseLine s).flushFile.files
        =
      s.flushFile.files
        ++ files.mapIdx fun index file => finalizeFile (readFile file) (s.flushFile.files.length + index) := by
  induction files generalizing s with
  | nil => simp
  | cons file files ih =>
    have hfile := In.of_text hready file
    rw [List.flatMap_cons, List.foldl_append, ih hfile.ready, hfile.files_flushFile, List.mapIdx_cons]
    simp [Nat.add_assoc, Nat.add_comm 1]

end ParserState

/-! What is read back of a file -/

theorem hunks_applyFileMetadata (line : Line) (file : InProgressFile)
    : (applyFileMetadata line file).hunks = file.hunks := by
  unfold applyFileMetadata
  dsimp only
  iterate 7
    split
    . rfl
  rfl

theorem hunks_readHunkInto (file : InProgressFile) (hunk : DiffHunk)
    : (readHunkInto file hunk).hunks = file.hunks ++ (readHunk hunk).toList := by
  unfold readHunkInto
  cases readHunk hunk with
  | some read => rfl
  | none =>
    have hlines : ∀ lines : List DiffLine,
        (lines.foldl (fun file line => applyFileMetadata (stripAnsi line.text) file) file).hunks = file.hunks := by
      intro lines
      induction lines generalizing file with
      | nil => rfl
      | cons line lines ih => rw [List.foldl_cons, ih, hunks_applyFileMetadata]
    rw [hlines, Option.toList_none, List.append_nil]

/--
A hunk that is not found is missing.
-/
theorem hunks_foldl_readHunkInto (hunks : List DiffHunk) (file : InProgressFile)
    : (hunks.foldl readHunkInto file).hunks = file.hunks ++ hunks.filterMap readHunk := by
  induction hunks generalizing file with
  | nil => simp
  | cons hunk hunks ih =>
    rw [List.foldl_cons, ih, hunks_readHunkInto, List.append_assoc]
    cases hread : readHunk hunk <;> simp [hread]

theorem eq_some_of_filterMap_eq_map {α β : Type} {f : α → Option β} {g : α → β} {l : List α}
    (h : l.filterMap f = l.map g) : ∀ x ∈ l, f x = some (g x) := by
  induction l with
  | nil => simp
  | cons x l ih =>
    cases hx : f x with
    | none =>
      have hle := List.length_filterMap_le f l
      rw [List.filterMap_cons_none hx] at h
      have hlength := congrArg List.length h
      rw [List.length_map, List.length_cons] at hlength
      omega
    | some y =>
      rw [List.filterMap_cons_some hx, List.map_cons, List.cons.injEq] at h
      rw [List.forall_mem_cons]
      exact ⟨hx.trans (congrArg some h.1), ih h.2⟩

theorem sum_readings (count : UnifiedDiffLineKind → Nat) (oldNumber newNumber : Nat) (lines : List DiffLine)
    : ((readings oldNumber newNumber lines).map fun line => count line.kind).sum
        =
      (lines.map fun line => count line.kind).sum := by
  induction lines generalizing oldNumber newNumber with
  | nil => rfl
  | cons line lines ih =>
    rw [readings, List.map_cons, List.map_cons, List.sum_cons, List.sum_cons, ih, kind_reading]

theorem foldl_readHunkInto {hunks : List DiffHunk} (h : ∀ hunk ∈ hunks, hunk.Readable) (file : InProgressFile)
    : hunks.foldl readHunkInto file
        =
      { file with
        hunks := file.hunks ++ hunks.map (·.reading)
        additions := file.additions + (hunks.map (·.additions)).sum
        deletions := file.deletions + (hunks.map (·.deletions)).sum } := by
  induction hunks generalizing file with
  | nil => simp
  | cons hunk hunks ih =>
    rw [List.forall_mem_cons] at h
    have hread : readHunkInto file hunk = file.withHunk hunk.reading := by
      unfold readHunkInto
      rw [(readHunk_eq_iff hunk).mpr h.1]
    have hadditions : (hunk.reading.lines.map (·.kind.additions)).sum = hunk.additions :=
      sum_readings (·.additions) hunk.oldStart hunk.newStart hunk.lines
    have hdeletions : (hunk.reading.lines.map (·.kind.deletions)).sum = hunk.deletions :=
      sum_readings (·.deletions) hunk.oldStart hunk.newStart hunk.lines
    rw [List.foldl_cons, ih h.2, hread]
    unfold InProgressFile.withHunk
    rw [hadditions, hdeletions]
    simp [Nat.add_assoc]

theorem given_eq_self {path : Option Line} (h : path ≠ some []) : given path = path := by
  cases path with
  | none => rfl
  | some path =>
    unfold given
    rw [Option.filter_some, if_pos]
    simpa using h

theorem parsePatchPath_eq_iff {side : Char} (hside : side ∈ ['a', 'b']) (path : Option Line)
    : parsePatchPath (label side path) = path ↔ ∀ name ∈ path, PathReadable name := by
  cases path with
  | none =>
    have hnone : parsePatchPath (label side none) = none := by
      simp only [List.mem_cons, List.not_mem_nil, or_false] at hside
      rcases hside with rfl | rfl
      . exact parsePatchPath_none.1
      . exact parsePatchPath_none.2
    simp [hnone]
  | some path =>
    rw [parsePatchPath_label_iff hside]
    simp

/--
The paths decide about the status what the header said.
-/
theorem finalizeFile_opened {file : DiffFile} (hfile : file.WellFormed) (index : Nat)
    : finalizeFile
          { oldPath := file.oldPath
            newPath := file.newPath
            displayPath := formatDisplayPath file.oldPath file.newPath
            status := file.status
            additions := file.additions
            deletions := file.deletions
            hunks := file.hunks.map (·.reading) } index
        =
      file.reading index := by
  unfold finalizeFile DiffFile.reading
  rw [given_eq_self hfile.oldPath, given_eq_self hfile.newPath]
  simp only [UnifiedDiffFile.mk.injEq, true_and, and_true, decimal]
  split
  . next hmodified =>
    unfold DiffFile.status at hmodified ⊢
    cases hold : file.oldPath with
    | none =>
      rw [hold] at hmodified
      contradiction
    | some oldPath =>
      cases hnew : file.newPath with
      | none =>
        rw [hold, hnew] at hmodified
      | some newPath => by_cases heq : oldPath = newPath <;> simp [heq]
  . rfl

theorem finalizeFile_eq_iff {file : DiffFile} (hfile : file.WellFormed) (index : Nat)
    : finalizeFile (readFile file) index = file.reading index ↔ file.Readable := by
  have hread : (∀ hunk ∈ file.hunks, hunk.Readable) → readFile file =
      { openedFile file with
        additions := file.additions
        deletions := file.deletions
        hunks := file.hunks.map (·.reading) } := by
    intro hhunks
    unfold readFile
    rw [foldl_readHunkInto hhunks]
    unfold openedFile DiffFile.additions DiffFile.deletions
    simp
  constructor
  . intro heq
    have hhunks : ∀ hunk ∈ file.hunks, hunk.Readable := by
      have hmap : file.hunks.filterMap readHunk = file.hunks.map (·.reading) := by
        have hkept := hunks_foldl_readHunkInto file.hunks (openedFile file)
        exact hkept.symm.trans (congrArg UnifiedDiffFile.hunks heq)
      intro hunk hhunk
      exact (readHunk_eq_iff hunk).mp (eq_some_of_filterMap_eq_map hmap hunk hhunk)
    rw [hread hhunks] at heq
    exact {
      oldPath := (parsePatchPath_eq_iff (by decide) _).mp (congrArg UnifiedDiffFile.oldPath heq)
      newPath := (parsePatchPath_eq_iff (by decide) _).mp (congrArg UnifiedDiffFile.newPath heq)
      hunks := hhunks }
  . intro h
    rw [hread h.hunks, ← finalizeFile_opened hfile]
    unfold openedFile
    rw [(parsePatchPath_eq_iff (by decide) _).mpr h.oldPath, (parsePatchPath_eq_iff (by decide) _).mpr h.newPath]

end Mobile.UnifiedDiff
