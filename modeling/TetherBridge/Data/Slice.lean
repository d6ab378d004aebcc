import TetherBridge.Data.Text

/-!
This module contains byte offsets into a text, and its lines with the ends that they have.
-/

namespace Text

/-! Slices -/

/--
A text in two parts at a byte offset, if the offset is at a character boundary.
-/
def splitAtByte (offset : Nat) : List Char → Option (List Char × List Char)
  | [] => if offset = 0 then some ([], []) else none
  | c :: cs =>
    if offset = 0 then some ([], c :: cs)
    else if c.utf8Size ≤ offset then
      (splitAtByte (offset - c.utf8Size) cs).map fun (before, rest) => (c :: before, rest)
    else none

/--
`&s[start..stop]`, which panics when an offset is not at a character boundary.
-/
def slice (start stop : Nat) (s : List Char) : Option (List Char) :=
  if start ≤ stop then
    (splitAtByte start s).bind fun (_, rest) => (splitAtByte (stop - start) rest).map (·.1)
  else none

/--
`str::is_char_boundary`.
-/
def IsBoundary (offset : Nat) (s : List Char) : Prop :=
  ∃ before rest, s = before ++ rest ∧ size before = offset

theorem size_cons (c : Char) (s : List Char) : size (c :: s) = c.utf8Size + size s := by
  simp [size]

@[simp]
theorem size_nil : size [] = 0 := rfl

theorem splitAtByte_append (before rest : List Char)
    : splitAtByte (size before) (before ++ rest) = some (before, rest) := by
  induction before with
  | nil => cases rest <;> simp [splitAtByte]
  | cons c before ih =>
    have hpos := c.utf8Size_pos
    rw [List.cons_append, splitAtByte, size_cons, if_neg (by omega), if_pos (by omega), Nat.add_sub_cancel_left, ih]
    rfl

theorem of_splitAtByte {offset : Nat} {s before rest : List Char} (h : splitAtByte offset s = some (before, rest))
    : s = before ++ rest ∧ size before = offset := by
  induction s generalizing offset before with
  | nil =>
    unfold splitAtByte at h
    split at h
    . next hzero =>
      simp only [Option.some.injEq, Prod.mk.injEq] at h
      rcases h with ⟨rfl, rfl⟩
      exact ⟨rfl, hzero.symm⟩
    . contradiction
  | cons c cs ih =>
    unfold splitAtByte at h
    split at h
    . next hzero =>
      simp only [Option.some.injEq, Prod.mk.injEq] at h
      rcases h with ⟨rfl, rfl⟩
      exact ⟨rfl, hzero.symm⟩
    . split at h
      . next hfits =>
        rw [Option.map_eq_some_iff] at h
        rcases h with ⟨⟨first, second⟩, hrest, heq⟩
        simp only [Prod.mk.injEq] at heq
        rcases heq with ⟨rfl, rfl⟩
        rcases ih hrest with ⟨hcs, hsize⟩
        refine ⟨by rw [hcs, List.cons_append], ?_⟩
        rw [size_cons, hsize]
        omega
      . contradiction

theorem slice_append (before object rest : List Char)
    : slice (size before) (size before + size object) (before ++ object ++ rest) = some object := by
  unfold slice
  rw [if_pos (Nat.le_add_right _ _), List.append_assoc, splitAtByte_append, Option.bind_some]
  dsimp only
  rw [Nat.add_sub_cancel_left, splitAtByte_append]
  rfl

theorem of_slice {start stop : Nat} {s object : List Char} (h : slice start stop s = some object)
    : ∃ before rest, s = before ++ object ++ rest ∧ size before = start ∧ start + size object = stop := by
  unfold slice at h
  split at h
  . next hle =>
    rw [Option.bind_eq_some_iff] at h
    rcases h with ⟨⟨before, tail⟩, hstart, h⟩
    rw [Option.map_eq_some_iff] at h
    rcases h with ⟨⟨found, rest⟩, hstop, rfl⟩
    rcases of_splitAtByte hstart with ⟨rfl, hbefore⟩
    rcases of_splitAtByte hstop with ⟨rfl, hfound⟩
    refine ⟨before, rest, by rw [List.append_assoc], hbefore, ?_⟩
    dsimp only
    omega
  . contradiction

theorem slice_ne_none_iff {start stop : Nat} (hle : start ≤ stop) (s : List Char)
    : slice start stop s ≠ none ↔ IsBoundary start s ∧ IsBoundary stop s := by
  constructor
  . intro h
    rcases Option.ne_none_iff_exists'.mp h with ⟨object, hobject⟩
    rcases of_slice hobject with ⟨before, rest, rfl, hbefore, hstop⟩
    refine ⟨⟨before, object ++ rest, by rw [List.append_assoc], hbefore⟩, before ++ object, rest, rfl, ?_⟩
    rw [size_append]
    omega
  . rintro ⟨⟨before, tail, rfl, rfl⟩, ⟨upto, rest, heq, rfl⟩⟩
    have hobject : ∃ object, upto = before ++ object := by
      rcases List.append_eq_append_iff.mp heq with ⟨object, hupto, -⟩ | ⟨more, hbefore, -⟩
      . exact ⟨object, hupto⟩
      . rw [hbefore, size_append] at hle
        have hmore : more = [] := by
          by_contra hne
          have hpos := size_pos hne
          omega
        refine ⟨[], ?_⟩
        rw [hbefore, hmore]
        simp
    rcases hobject with ⟨object, rfl⟩
    rw [heq, size_append, slice_append]
    exact Option.some_ne_none _

/-! Lines -/

/--
A line and the characters that end it.
-/
structure BrokenLine where
  content : List Char
  ending : List Char
  deriving DecidableEq, Repr

namespace BrokenLine

def raw (line : BrokenLine) : List Char :=
  line.content ++ line.ending

end BrokenLine

def lf : List Char := ['\n']
def crlf : List Char := ['\r', '\n']

/--
`str::lines`, with the ends. A carriage return ends a line only together with a line feed.
-/
def breakLines : List Char → List BrokenLine
  | [] => []
  | '\n' :: rest => ⟨[], lf⟩ :: breakLines rest
  | '\r' :: '\n' :: rest => ⟨[], crlf⟩ :: breakLines rest
  | c :: rest =>
    match breakLines rest with
    | [] => [⟨[c], []⟩]
    | line :: lines => ⟨c :: line.content, line.ending⟩ :: lines

def rawText (lines : List BrokenLine) : List Char :=
  lines.flatMap (·.raw)

@[simp]
theorem rawText_nil : rawText [] = [] := rfl

theorem rawText_cons (line : BrokenLine) (lines : List BrokenLine)
    : rawText (line :: lines) = line.raw ++ rawText lines := List.flatMap_cons

theorem rawText_append (lines more : List BrokenLine)
    : rawText (lines ++ more) = rawText lines ++ rawText more := List.flatMap_append

theorem rawText_breakLines (s : List Char) : rawText (breakLines s) = s := by
  induction s using breakLines.induct with
  | case1 => rfl
  | case2 rest ih =>
    rw [breakLines, rawText_cons, ih]
    rfl
  | case3 rest ih =>
    rw [breakLines, rawText_cons, ih]
    rfl
  | case4 c rest hline hreturn hnil ih =>
    rw [breakLines, hnil]
    . rw [hnil, rawText_nil] at ih
      rw [← ih]
      rfl
    . exact hline
    . exact hreturn
  | case5 c rest hline hreturn line lines hcons ih =>
    rw [breakLines, hcons]
    . rw [hcons, rawText_cons] at ih
      dsimp only
      rw [rawText_cons, ← ih]
      rfl
    . exact hline
    . exact hreturn

def Ended (line : BrokenLine) : Prop :=
  line.ending = lf ∨ line.ending = crlf

/--
All lines have an end, except for the last one.
-/
theorem ended_breakLines (s : List Char) : ∀ line ∈ (breakLines s).dropLast, Ended line := by
  induction s using breakLines.induct with
  | case1 => simp [breakLines]
  | case2 rest ih =>
    rw [breakLines]
    intro line hline
    rcases List.eq_nil_or_concat (breakLines rest) with hnil | ⟨lines, last, hlines⟩
    . simp [hnil] at hline
    . rw [hlines, List.concat_eq_append] at ih hline
      rw [List.dropLast_concat] at ih
      rw [← List.cons_append, List.dropLast_concat, List.mem_cons] at hline
      rcases hline with rfl | hline
      . exact .inl rfl
      . exact ih line hline
  | case3 rest ih =>
    rw [breakLines]
    intro line hline
    rcases List.eq_nil_or_concat (breakLines rest) with hnil | ⟨lines, last, hlines⟩
    . simp [hnil] at hline
    . rw [hlines, List.concat_eq_append] at ih hline
      rw [List.dropLast_concat] at ih
      rw [← List.cons_append, List.dropLast_concat, List.mem_cons] at hline
      rcases hline with rfl | hline
      . exact .inr rfl
      . exact ih line hline
  | case4 c rest hline hreturn hnil ih =>
    rw [breakLines, hnil]
    . simp
    . exact hline
    . exact hreturn
  | case5 c rest hline hreturn line lines hcons ih =>
    rw [breakLines, hcons]
    . rw [hcons] at ih
      dsimp only
      cases lines with
      | nil => simp
      | cons next lines =>
        rw [List.dropLast_cons_cons, List.forall_mem_cons] at ih ⊢
        exact ih
    . exact hline
    . exact hreturn

theorem breakLines_append {content ending : List Char} (hline : '\n' ∉ content) (hreturn : '\r' ∉ content)
    (hending : ending = lf ∨ ending = crlf) (rest : List Char)
    : breakLines (content ++ ending ++ rest) = ⟨content, ending⟩ :: breakLines rest := by
  induction content with
  | nil =>
    rcases hending with rfl | rfl
    . rfl
    . rfl
  | cons c content ih =>
    have hrest := ih (List.not_mem_of_not_mem_cons hline) (List.not_mem_of_not_mem_cons hreturn)
    have hc : c ≠ '\n' := (List.ne_of_not_mem_cons hline).symm
    have hc' : c ≠ '\r' := (List.ne_of_not_mem_cons hreturn).symm
    rw [List.cons_append, List.cons_append, breakLines, hrest]
    . exact hc
    . intro _ heq
      exact absurd heq hc'

/--
Lines that are ended in one way.
-/
def endLines (ending : List Char) (lines : List (List Char)) : List BrokenLine :=
  lines.map (⟨·, ending⟩)

theorem breakLines_endLines {ending : List Char} (hending : ending = lf ∨ ending = crlf) {lines : List (List Char)}
    (h : ∀ line ∈ lines, '\n' ∉ line ∧ '\r' ∉ line)
    : breakLines (rawText (endLines ending lines)) = endLines ending lines := by
  induction lines with
  | nil => rfl
  | cons line lines ih =>
    rw [List.forall_mem_cons] at h
    unfold endLines at ih ⊢
    rw [List.map_cons, rawText_cons, BrokenLine.raw, breakLines_append h.1.1 h.1.2 hending, ih h.2]

end Text
