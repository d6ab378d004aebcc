import TetherBridge.Mobile.DiffPaths

/-!
This module contains what the parser does with the text of a hunk, without escape sequences: how its header and
its lines are read, and for which hunks this is what the text says.
-/

namespace Mobile.UnifiedDiff

/-! Starts of texts -/

section

variable {start other text : List Char}

theorem isPrefixOf_append (start text : List Char) : start.isPrefixOf (start ++ text) = true :=
  List.isPrefixOf_iff_prefix.mpr (List.prefix_append start text)

theorem isPrefixOf_append_of_ne (hstart : ¬start <+: other) (hother : ¬other <+: start)
    : start.isPrefixOf (other ++ text) = false := by
  rw [← Bool.not_eq_true, List.isPrefixOf_iff_prefix]
  intro hprefix
  rcases List.prefix_or_prefix_of_prefix hprefix (List.prefix_append other text) with h | h
  . exact hstart h
  . exact hother h

theorem isPrefixOf_cons_of_head_ne {c d : Char} (hhead : start.head? = some d) (hne : d ≠ c)
    : start.isPrefixOf (c :: text) = false := by
  rw [← Bool.not_eq_true, List.isPrefixOf_iff_prefix]
  cases start with
  | nil => contradiction
  | cons e rest =>
    injection hhead with hhead
    rw [List.cons_prefix_cons]
    intro hprefix
    exact hne (hhead ▸ hprefix.1)

theorem append_ne_of_not_prefix {line : List Char} (hother : ¬other <+: line) : other ++ text ≠ line := by
  rintro rfl
  exact hother (List.prefix_append other text)

theorem afterStart_append : afterStart start (start ++ text) = some text := by
  unfold afterStart
  rw [if_pos (isPrefixOf_append start text), List.drop_left]

end

/-! Escape sequences -/

theorem afterAnsi_of_ne {c : Char} (h : c ≠ escape) (text : List Char) : afterAnsi (c :: text) = none := by
  unfold afterAnsi
  split
  . next heq =>
    injection heq with hc
    rw [if_neg (hc ▸ h)]
  . rfl

theorem stripAnsi_cons {c : Char} (h : c ≠ escape) (text : List Char)
    : stripAnsi (c :: text) = c :: stripAnsi text := by
  rw [stripAnsi]
  split
  . next hafter =>
    rw [afterAnsi_of_ne h] at hafter
    contradiction
  . rfl

theorem stripAnsi_append {s : List Char} (h : escape ∉ s) (text : List Char)
    : stripAnsi (s ++ text) = s ++ stripAnsi text := by
  induction s with
  | nil => rfl
  | cons c s ih =>
    rw [List.cons_append, stripAnsi_cons (List.ne_of_not_mem_cons h).symm, ih (List.not_mem_of_not_mem_cons h),
      List.cons_append]

theorem stripAnsi_eq_self {s : List Char} (h : escape ∉ s) : stripAnsi s = s := by
  have hnil : stripAnsi [] = [] := by rw [stripAnsi]
  have happend := stripAnsi_append h []
  rw [hnil, List.append_nil] at happend
  exact happend

theorem length_stripAnsi_le (text : List Char) : (stripAnsi text).length ≤ text.length := by
  induction text using stripAnsi.induct with
  | case1 =>
    rw [stripAnsi]
  | case2 c rest after hafter ih =>
    have hlt := length_afterAnsi hafter
    rw [stripAnsi]
    split
    . next found hfound =>
      rw [hafter, Option.some.injEq] at hfound
      subst hfound
      omega
    . simp_all
  | case3 c rest hafter ih =>
    rw [stripAnsi]
    split
    . simp_all
    . simp only [List.length_cons]
      omega

theorem noAnsi_cons_iff {c : Char} {text : Line} : NoAnsi (c :: text) ↔ afterAnsi (c :: text) = none ∧ NoAnsi text := by
  unfold NoAnsi
  constructor
  . intro h
    exact ⟨h _ (List.suffix_refl _), fun rest hrest => h rest (hrest.trans (List.suffix_cons c text))⟩
  . rintro ⟨hafter, h⟩ rest hrest
    rcases List.suffix_cons_iff.mp hrest with rfl | hrest
    . exact hafter
    . exact h rest hrest

theorem stripAnsi_eq_self_iff (text : Line) : stripAnsi text = text ↔ NoAnsi text := by
  induction text using stripAnsi.induct with
  | case1 =>
    have hnil : NoAnsi [] := by
      intro rest hrest
      rw [List.suffix_nil.mp hrest]
      rfl
    rw [stripAnsi]
    exact iff_of_true rfl hnil
  | case2 c rest after hafter ih =>
    have hlt := length_afterAnsi hafter
    have hle := length_stripAnsi_le after
    refine iff_of_false ?_ ?_
    . rw [stripAnsi]
      split
      . next found hfound =>
        rw [hafter, Option.some.injEq] at hfound
        subst hfound
        intro heq
        rw [heq] at hle
        omega
      . simp_all
    . rw [noAnsi_cons_iff, hafter]
      simp
  | case3 c rest hafter ih =>
    rw [noAnsi_cons_iff, stripAnsi]
    split
    . simp_all
    . rw [List.cons.injEq, ih]
      simp [hafter]

/-! Hunk headers -/

theorem parseDigits_decimal (n : Nat) {rest : List Char} (hrest : ∀ c ∈ rest.head?, c.isDigit = false)
    : parseDigits (decimal n ++ rest) = some (n, rest) := by
  have hdigits : ∀ c ∈ decimal n, c.isDigit = true := fun c hc =>
    Nat.isDigit_of_mem_toDigits (by decide) (by decide) hc
  have htake : (decimal n ++ rest).takeWhile Char.isDigit = decimal n := by
    rw [List.takeWhile_append_of_pos hdigits]
    cases rest with
    | nil => exact List.append_nil _
    | cons c rest => simp [hrest c rfl]
  have hdrop : (decimal n ++ rest).dropWhile Char.isDigit = rest := by
    rw [List.dropWhile_append_of_pos hdigits]
    exact Js.dropWhile_eq_self hrest
  have hsome : decimal n ≠ [] := Nat.toDigits_ne_nil
  have hread : Nat.ofDigitChars 10 (decimal n) 0 = n := Nat.ofDigitChars_ten_toDigits
  unfold parseDigits
  rw [htake, hdrop]
  dsimp only
  rw [if_neg hsome, hread]

theorem parseRange_rangeText (start count : Nat) {rest : List Char}
    (hrest : ∀ c ∈ rest.head?, c.isDigit = false ∧ c ≠ ',')
    : parseRange (rangeText start count ++ rest) = some (start, count, rest) := by
  have hdigit : ∀ c ∈ rest.head?, c.isDigit = false := fun c hc => (hrest c hc).1
  unfold parseRange rangeText
  by_cases hcount : count = 1
  . rw [if_pos hcount, parseDigits_decimal start hdigit, hcount]
    cases rest with
    | nil => rfl
    | cons c rest =>
      have hcomma : c ≠ ',' := (hrest c rfl).2
      simp [hcomma]
  . rw [if_neg hcount, List.append_assoc, List.append_assoc, List.singleton_append, parseDigits_decimal start (by simp)]
    change Option.map _ (parseDigits (decimal count ++ rest)) = _
    rw [parseDigits_decimal count hdigit]
    rfl

theorem parseHunkHeader_ranges (hunk : DiffHunk) (trailing : Line)
    : parseHunkHeader (hunk.ranges ++ trailing)
        =
      if isSection trailing then some (hunk.oldStart, hunk.oldCount, hunk.newStart, hunk.newCount) else none := by
  have hold : "@@ -".toList = ['@', '@', ' ', '-'] := by decide
  have hnew : " +".toList = [' ', '+'] := by decide
  have hend : " @@".toList = [' ', '@', '@'] := by decide
  unfold parseHunkHeader DiffHunk.ranges
  rw [hold, hnew, hend]
  simp only [List.append_assoc, Option.bind_eq_bind]
  rw [afterStart_append, Option.bind_some, parseRange_rangeText _ _ (by simp), Option.bind_some]
  dsimp only
  rw [afterStart_append, Option.bind_some, parseRange_rangeText _ _ (by simp), Option.bind_some]
  dsimp only
  rw [afterStart_append, Option.bind_some]

theorem escape_not_mem_ranges (hunk : DiffHunk) : escape ∉ hunk.ranges := by
  have hdecimal : ∀ n, escape ∉ decimal n := by
    intro n hmem
    have hdigit : escape.isDigit = true := Nat.isDigit_of_mem_toDigits (by decide) (by decide) hmem
    contradiction
  have hrange : ∀ start count, escape ∉ rangeText start count := by
    intro start count
    unfold rangeText
    split
    . exact hdecimal start
    . simp [hdecimal, show escape ≠ ',' by decide]
  have hold : escape ∉ "@@ -".toList := by decide
  have hnew : escape ∉ " +".toList := by decide
  have hend : escape ∉ " @@".toList := by decide
  unfold DiffHunk.ranges
  simp only [List.mem_append, hrange, hold, hnew, hend, or_self, not_false_eq_true]

theorem stripAnsi_header (hunk : DiffHunk)
    : stripAnsi hunk.header = hunk.ranges ++ stripAnsi hunk.headingText :=
  stripAnsi_append (escape_not_mem_ranges hunk) hunk.headingText

/-! The lines of a hunk -/

/--
The lines of a hunk that the parser is in, from the cursors on.
-/
def readLines (oldCursor newCursor : Nat) : List Line → List UnifiedDiffLine
  | [] => []
  | line :: lines =>
    let read := readHunkLine oldCursor newCursor line
    read :: readLines (oldCursor + read.kind.inOld) (newCursor + read.kind.inNew) lines

theorem stripAnsi_noNewline : stripAnsi DiffLine.noNewline.text = DiffLine.noNewline.text :=
  stripAnsi_eq_self (by decide)

/--
No line of a hunk looks like the start of another file or hunk.
-/
theorem head?_stripAnsi_text (line : DiffLine)
    : ∃ mark ∈ [' ', '+', '-', '\\'], ∃ text, stripAnsi line.text = mark :: text := by
  cases line with
  | noNewline =>
    refine ⟨'\\', by simp, DiffLine.noNewline.text.tail, ?_⟩
    rw [stripAnsi_noNewline]
    decide
  | context text => exact ⟨' ', by simp, stripAnsi text, stripAnsi_cons (by decide) text⟩
  | add text => exact ⟨'+', by simp, stripAnsi text, stripAnsi_cons (by decide) text⟩
  | remove text => exact ⟨'-', by simp, stripAnsi text, stripAnsi_cons (by decide) text⟩

theorem isPrefixOf_label {start : Line} {mark : Char} {rest : Line} (hstart : start = mark :: rest) (text : Line)
    : start.isPrefixOf (mark :: text) = true ↔ rest <+: text := by
  rw [hstart, List.isPrefixOf_iff_prefix, List.cons_prefix_cons]
  simp

section

variable {oldCursor newCursor : Nat} {text : Line}

theorem readHunkLine_context
    : readHunkLine oldCursor newCursor (' ' :: text) = DiffLine.reading oldCursor newCursor (.context text) := by
  have hadd : ['+'].isPrefixOf (' ' :: text) = false := rfl
  have hremove : ['-'].isPrefixOf (' ' :: text) = false := rfl
  have hcontext : [' '].isPrefixOf (' ' :: text) = true := isPrefixOf_append [' '] _
  unfold readHunkLine
  rw [if_neg (by simp [hadd]), if_neg (by simp [hremove]), if_pos hcontext]
  rfl

theorem readHunkLine_add (h : ¬"++ ".toList <+: text)
    : readHunkLine oldCursor newCursor ('+' :: text) = DiffLine.reading oldCursor newCursor (.add text) := by
  have hlabel : "+++ ".toList = '+' :: "++ ".toList := by decide
  have hadd : ['+'].isPrefixOf ('+' :: text) = true := isPrefixOf_append ['+'] _
  unfold readHunkLine
  rw [if_pos ⟨hadd, by rwa [isPrefixOf_label hlabel]⟩]
  rfl

theorem readHunkLine_remove (h : ¬"-- ".toList <+: text)
    : readHunkLine oldCursor newCursor ('-' :: text) = DiffLine.reading oldCursor newCursor (.remove text) := by
  have hlabel : "--- ".toList = '-' :: "-- ".toList := by decide
  have hadd : ['+'].isPrefixOf ('-' :: text) = false := rfl
  have hremove : ['-'].isPrefixOf ('-' :: text) = true := isPrefixOf_append ['-'] _
  unfold readHunkLine
  rw [if_neg (by simp [hadd]),
    if_pos ⟨hremove, by rwa [isPrefixOf_label hlabel]⟩]
  rfl

/--
A line of the file that looks like a label of a file is no longer an added or a removed one.
-/
theorem kind_readHunkLine_of_label {line : Line} (h : "+++ ".toList <+: line ∨ "--- ".toList <+: line)
    : (readHunkLine oldCursor newCursor line).kind = .metadata := by
  have hplus : "+++ ".toList = '+' :: "++ ".toList := by decide
  have hminus : "--- ".toList = '-' :: "-- ".toList := by decide
  rcases h with ⟨rest, rfl⟩ | ⟨rest, rfl⟩
  . have hlabel : "+++ ".toList.isPrefixOf ("+++ ".toList ++ rest) = true := isPrefixOf_append _ _
    have hremove : ['-'].isPrefixOf ("+++ ".toList ++ rest) = false := by
      rw [hplus]
      rfl
    have hcontext : [' '].isPrefixOf ("+++ ".toList ++ rest) = false := by
      rw [hplus]
      rfl
    unfold readHunkLine
    rw [if_neg (fun hread => hread.2 hlabel), if_neg (by simp [hremove]), if_neg (by simp [hcontext])]
    split <;> rfl
  . have hlabel : "--- ".toList.isPrefixOf ("--- ".toList ++ rest) = true := isPrefixOf_append _ _
    have hadd : ['+'].isPrefixOf ("--- ".toList ++ rest) = false := by
      rw [hminus]
      rfl
    have hcontext : [' '].isPrefixOf ("--- ".toList ++ rest) = false := by
      rw [hminus]
      rfl
    unfold readHunkLine
    rw [if_neg (by simp [hadd]), if_neg (fun hread => hread.2 hlabel), if_neg (by simp [hcontext])]
    split <;> rfl

end

theorem readHunkLine_eq_iff (oldCursor newCursor : Nat) (line : DiffLine)
    : readHunkLine oldCursor newCursor (stripAnsi line.text) = line.reading oldCursor newCursor ↔ line.Readable := by
  cases line with
  | context text =>
    change readHunkLine oldCursor newCursor (stripAnsi (' ' :: text)) = _ ↔ NoAnsi text
    rw [stripAnsi_cons (by decide), readHunkLine_context, ← stripAnsi_eq_self_iff]
    unfold DiffLine.reading
    simp only [UnifiedDiffLine.mk.injEq, true_and, and_true]
  | add text =>
    change readHunkLine oldCursor newCursor (stripAnsi ('+' :: text)) = _
      ↔ NoAnsi text ∧ ¬"++ ".toList <+: text
    rw [stripAnsi_cons (by decide), ← stripAnsi_eq_self_iff]
    by_cases hstart : "++ ".toList <+: stripAnsi text
    . refine iff_of_false (fun heq => ?_) fun h => h.2 (h.1 ▸ hstart)
      have hlabel : "+++ ".toList <+: '+' :: stripAnsi text := by
        rw [show "+++ ".toList = '+' :: "++ ".toList by decide]
        exact (List.prefix_cons_inj '+').mpr hstart
      have hkind : (readHunkLine oldCursor newCursor _).kind = .metadata := kind_readHunkLine_of_label (.inl hlabel)
      rw [heq] at hkind
      contradiction
    . rw [readHunkLine_add hstart]
      unfold DiffLine.reading
      simp only [UnifiedDiffLine.mk.injEq, true_and, and_true]
      exact ⟨fun h => ⟨h, h ▸ hstart⟩, And.left⟩
  | remove text =>
    change readHunkLine oldCursor newCursor (stripAnsi ('-' :: text)) = _
      ↔ NoAnsi text ∧ ¬"-- ".toList <+: text
    rw [stripAnsi_cons (by decide), ← stripAnsi_eq_self_iff]
    by_cases hstart : "-- ".toList <+: stripAnsi text
    . refine iff_of_false (fun heq => ?_) fun h => h.2 (h.1 ▸ hstart)
      have hlabel : "--- ".toList <+: '-' :: stripAnsi text := by
        rw [show "--- ".toList = '-' :: "-- ".toList by decide]
        exact (List.prefix_cons_inj '-').mpr hstart
      have hkind : (readHunkLine oldCursor newCursor _).kind = .metadata := kind_readHunkLine_of_label (.inr hlabel)
      rw [heq] at hkind
      contradiction
    . rw [readHunkLine_remove hstart]
      unfold DiffLine.reading
      simp only [UnifiedDiffLine.mk.injEq, true_and, and_true]
      exact ⟨fun h => ⟨h, h ▸ hstart⟩, And.left⟩
  | noNewline =>
    have htext : DiffLine.noNewline.text = '\\' :: ' ' :: "No newline at end of file".toList := by decide
    have hstart : Js.trimStart (' ' :: "No newline at end of file".toList) = "No newline at end of file".toList := by
      decide
    have hadd : ['+'].isPrefixOf ('\\' :: ' ' :: "No newline at end of file".toList) = false := rfl
    have hremove : ['-'].isPrefixOf ('\\' :: ' ' :: "No newline at end of file".toList) = false := rfl
    have hcontext : [' '].isPrefixOf ('\\' :: ' ' :: "No newline at end of file".toList) = false := rfl
    have hmark : ['\\'].isPrefixOf ('\\' :: ' ' :: "No newline at end of file".toList) = true :=
      isPrefixOf_append ['\\'] _
    refine iff_of_true ?_ trivial
    rw [stripAnsi_noNewline, htext]
    unfold readHunkLine
    rw [if_neg (by simp only [hadd, Bool.false_eq_true, false_and, not_false_eq_true]),
      if_neg (by simp only [hremove, Bool.false_eq_true, false_and, not_false_eq_true]),
      if_neg (by simp only [hcontext, Bool.false_eq_true, not_false_eq_true]), if_pos hmark, List.drop_one,
      List.tail_cons, hstart]
    rfl

theorem kind_reading (oldNumber newNumber : Nat) (line : DiffLine)
    : (line.reading oldNumber newNumber).kind = line.kind := by
  cases line <;> rfl

theorem readLines_eq_iff (oldCursor newCursor : Nat) (lines : List DiffLine)
    : readLines oldCursor newCursor (lines.map fun line => stripAnsi line.text) = readings oldCursor newCursor lines
        ↔
      ∀ line ∈ lines, line.Readable := by
  induction lines generalizing oldCursor newCursor with
  | nil => simp [readLines, readings]
  | cons line lines ih =>
    rw [List.map_cons, readLines, readings, List.cons.injEq, List.forall_mem_cons, readHunkLine_eq_iff]
    apply and_congr_right
    intro hreadable
    rw [(readHunkLine_eq_iff oldCursor newCursor line).mpr hreadable, kind_reading]
    exact ih _ _

/-! Hunks -/

/--
What the parser makes of a hunk. It finds none if it cannot read the header.
-/
def readHunk (hunk : DiffHunk) : Option UnifiedDiffHunk :=
  (parseHunkHeader (stripAnsi hunk.header)).map fun (oldStart, oldCount, newStart, newCount) =>
    { header := stripAnsi hunk.header, oldStart, oldCount, newStart, newCount,
      lines := readLines oldStart newStart (hunk.lines.map fun line => stripAnsi line.text) }

theorem heading_iff (hunk : DiffHunk)
    : isSection (stripAnsi hunk.headingText) ∧ stripAnsi hunk.headingText = hunk.headingText
        ↔
      ∀ heading ∈ hunk.heading, NoAnsi heading ∧ ∀ c ∈ heading, ¬isLineTerminator c := by
  unfold DiffHunk.headingText
  cases hunk.heading with
  | none =>
    have hnil : stripAnsi [] = [] := by rw [stripAnsi]
    simp [hnil, isSection]
  | some heading =>
    have hblank : Js.isWhitespace ' ' = true := by decide
    dsimp only
    rw [stripAnsi_cons (by decide), List.cons.injEq, stripAnsi_eq_self_iff]
    unfold isSection
    simp only [hblank, Bool.true_and, true_and, Option.mem_def, Option.some.injEq, forall_eq']
    constructor
    . rintro ⟨hsection, hansi⟩
      rw [(stripAnsi_eq_self_iff heading).mpr hansi] at hsection
      exact ⟨hansi, by simpa using hsection⟩
    . rintro ⟨hansi, hsection⟩
      rw [(stripAnsi_eq_self_iff heading).mpr hansi]
      exact ⟨by simpa using hsection, hansi⟩

theorem readHunk_eq_iff (hunk : DiffHunk) : readHunk hunk = some hunk.reading ↔ hunk.Readable := by
  have hreadable : hunk.Readable
      ↔ (isSection (stripAnsi hunk.headingText) ∧ stripAnsi hunk.headingText = hunk.headingText)
        ∧ ∀ line ∈ hunk.lines, line.Readable := by
    rw [heading_iff]
    exact ⟨fun h => ⟨h.heading, h.lines⟩, fun h => ⟨h.1, h.2⟩⟩
  rw [hreadable, ← readLines_eq_iff hunk.oldStart hunk.newStart]
  unfold readHunk DiffHunk.reading DiffHunk.header
  have hheader : stripAnsi (hunk.ranges ++ hunk.headingText) = hunk.ranges ++ stripAnsi hunk.headingText :=
    stripAnsi_header hunk
  rw [hheader, parseHunkHeader_ranges]
  split
  . next hsection => simp [hsection]
  . next hsection => simp [hsection]

end Mobile.UnifiedDiff
