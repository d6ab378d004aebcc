import Mathlib.Data.Bool.AllAny
import TetherBridge.Mobile.DiffText

/-!
This module contains which paths `parsePatchPath` reads back from what git prints: `decodeGitPath` takes the
escape sequences back one after the other, so a backslash of the path is taken for the start of another one.
-/

namespace Mobile.UnifiedDiff

/-! Replacing pairs -/

section

variable {first second replacement c d : Char} {text : List Char}

theorem replacePair_of_ne (h : c ≠ first)
    : replacePair first second replacement (c :: text) = c :: replacePair first second replacement text := by
  cases text with
  | nil => rfl
  | cons d rest =>
    rw [replacePair, if_neg fun hmatch => h hmatch.1]

theorem replacePair_pair
    : replacePair first second replacement (first :: second :: text)
        =
      replacement :: replacePair first second replacement text := by
  rw [replacePair, if_pos ⟨rfl, rfl⟩]

theorem replacePair_of_head_ne (h : ∀ d ∈ text.head?, d ≠ second)
    : replacePair first second replacement (c :: text) = c :: replacePair first second replacement text := by
  cases text with
  | nil => rfl
  | cons d rest =>
    rw [replacePair, if_neg fun hmatch => h d rfl hmatch.2]

theorem length_replacePair_le (first second replacement : Char) (text : List Char)
    : (replacePair first second replacement text).length ≤ text.length := by
  induction text using replacePair.induct first second with
  | case1 => exact Nat.le_refl 0
  | case2 c => exact Nat.le_refl 1
  | case3 c d rest hmatch ih =>
    rw [replacePair, if_pos hmatch]
    simp only [List.length_cons]
    omega
  | case4 c d rest hmatch ih =>
    rw [replacePair, if_neg hmatch]
    simp only [List.length_cons] at *
    omega

theorem length_replacePair_lt (h : [first, second] <:+: text)
    : (replacePair first second replacement text).length < text.length := by
  rcases h with ⟨before, after, htext⟩
  rw [List.append_assoc] at htext
  subst htext
  induction hbefore : before.length using Nat.strongRecOn generalizing before with
  | ind count ih =>
    rcases before with _ | ⟨c, _ | ⟨d, rest⟩⟩
    . rw [List.nil_append, List.cons_append, List.cons_append, List.nil_append, replacePair_pair]
      have hle := length_replacePair_le first second replacement after
      simp only [List.length_cons]
      omega
    . have hle := length_replacePair_le first second replacement (second :: after)
      have hrest := ih 0 (by simp [← hbefore]) [] rfl
      simp only [List.cons_append, List.nil_append] at *
      rw [replacePair]
      split <;> simp only [List.length_cons] at * <;> omega
    . have hrest := ih rest.length (by rw [← hbefore, List.length_cons, List.length_cons]; omega) rest rfl
      have hmore := ih (d :: rest).length (by simp [← hbefore]) (d :: rest) rfl
      rw [List.cons_append, List.cons_append, replacePair]
      split <;> simp only [List.cons_append, List.length_cons] at * <;> omega

theorem replacePair_absent (h : ¬[first, second] <:+: text)
    : replacePair first second replacement text = text := by
  induction text using replacePair.induct first second with
  | case1 => rfl
  | case2 c => rfl
  | case3 c d rest hmatch ih =>
    rcases hmatch with ⟨rfl, rfl⟩
    exact absurd ⟨[], rest, rfl⟩ h
  | case4 c d rest hmatch ih =>
    rw [replacePair, if_neg hmatch, ih fun hpair => h (hpair.trans (List.suffix_cons c _).isInfix)]

theorem replacePair_decodable (hreplacement : decodable replacement) (h : ∀ c ∈ text, decodable c)
    : ∀ c ∈ replacePair first second replacement text, decodable c := by
  induction text using replacePair.induct first second with
  | case1 => exact h
  | case2 c => exact h
  | case3 c d rest hmatch ih =>
    rw [replacePair, if_pos hmatch]
    intro other hother
    rcases List.mem_cons.mp hother with rfl | hother
    . exact hreplacement
    . exact ih (fun c hc => h c (by simp [hc])) other hother
  | case4 c d rest hmatch ih =>
    rw [replacePair, if_neg hmatch]
    intro other hother
    rcases List.mem_cons.mp hother with rfl | hother
    . exact h _ List.mem_cons_self
    . exact ih (fun c hc => h c (List.mem_cons_of_mem _ hc)) other hother

end

/-! The escape sequences of a path -/

/--
The letter that stands for a character after a backslash.
-/
def letter (c : Char) : Char :=
  if c = '\t' then 't' else if c = '\n' then 'n' else if c = '\r' then 'r' else c

/--
A path in which some of the characters are still escaped.
-/
def escapeIn (escaped : List Char) (c : Char) : Line :=
  if c ∈ escaped then ['\\', letter c] else [c]

theorem quoteChar_of_decodable {c : Char} (h : decodable c)
    : quoteChar c = escapeIn ['\\', '"', '\t', '\n', '\r'] c := by
  by_cases hescaped : c ∈ ['\\', '"', '\t', '\n', '\r']
  . simp only [List.mem_cons, List.not_mem_nil, or_false] at hescaped
    rcases hescaped with rfl | rfl | rfl | rfl | rfl <;> rfl
  . have hprintable : 0x20 ≤ c.toNat ∧ c.toNat < 0x7f := by
      unfold decodable at h
      simp only [List.mem_cons, List.not_mem_nil, or_false, not_or] at hescaped
      simpa [hescaped] using h
    have hplain : needsQuoting c = false := by
      unfold needsQuoting
      simp only [List.mem_cons, List.not_mem_nil, or_false, not_or] at hescaped
      simp [hescaped, hprintable]
    unfold escapeIn
    rw [if_neg hescaped]
    unfold quoteChar
    simp only [List.mem_cons, List.not_mem_nil, or_false, not_or] at hescaped
    rw [if_neg hescaped.2.1, if_neg hescaped.1, if_neg hescaped.2.2.1, if_neg hescaped.2.2.2.1,
      if_neg hescaped.2.2.2.2, if_neg (by omega), if_neg (by omega), if_neg (by omega), if_neg (by omega),
      if_neg (by simp [hplain])]

section

variable {escaped : List Char}

theorem escapeIn_of_mem {c : Char} (h : c ∈ escaped) : escapeIn escaped c = ['\\', letter c] := by
  unfold escapeIn
  rw [if_pos h]

theorem escapeIn_of_not_mem {c : Char} (h : c ∉ escaped) : escapeIn escaped c = [c] := by
  unfold escapeIn
  rw [if_neg h]

theorem escapeIn_cons_of_ne {c other : Char} (h : c ≠ other) : escapeIn (other :: escaped) c = escapeIn escaped c := by
  unfold escapeIn
  simp [h]

/--
A pair of which the second character is not the letter of an escaped one leaves the escape sequences alone.
-/
theorem replacePair_escapeIn {second replacement c : Char} {rest : List Char} (hc : c ≠ '\\')
    (hletters : ∀ c ∈ escaped, letter c ≠ second ∧ letter c ≠ '\\')
    : replacePair '\\' second replacement (escapeIn escaped c ++ rest)
        =
      escapeIn escaped c ++ replacePair '\\' second replacement rest := by
  by_cases hmem : c ∈ escaped
  . rw [escapeIn_of_mem hmem]
    simp only [List.cons_append, List.nil_append]
    rw [replacePair_of_head_ne, replacePair_of_ne (hletters c hmem).2]
    intro d hd
    injection hd with hd
    exact hd ▸ (hletters c hmem).1
  . rw [escapeIn_of_not_mem hmem]
    exact replacePair_of_ne hc

theorem replacePair_backslash (hbackslash : '\\' ∉ escaped) (hletters : ∀ c ∈ escaped, letter c ≠ '\\')
    (text : Line)
    : replacePair '\\' '\\' '\\' (text.flatMap (escapeIn ('\\' :: escaped))) = text.flatMap (escapeIn escaped) := by
  induction text with
  | nil => rfl
  | cons c text ih =>
    rw [List.flatMap_cons, List.flatMap_cons]
    by_cases hc : c = '\\'
    . subst hc
      rw [escapeIn_of_mem List.mem_cons_self, escapeIn_of_not_mem hbackslash, ← ih]
      exact replacePair_pair
    . rw [escapeIn_cons_of_ne hc, replacePair_escapeIn hc fun c hmem => ⟨hletters c hmem, hletters c hmem⟩, ih]

/--
What follows a backslash of the path does not start with a character that is still escaped.
-/
theorem head?_flatMap_escapeIn {c : Char} (hc : c ∈ escaped) (hbackslash : c ≠ '\\') (text : Line)
    : ∀ d ∈ (text.flatMap (escapeIn escaped)).head?, d ≠ c := by
  intro d hd
  cases text with
  | nil => contradiction
  | cons e text =>
    rw [List.flatMap_cons] at hd
    by_cases he : e ∈ escaped
    . rw [escapeIn_of_mem he] at hd
      injection hd with hd
      exact hd ▸ hbackslash.symm
    . rw [escapeIn_of_not_mem he] at hd
      injection hd with hd
      rintro rfl
      exact he (hd ▸ hc)

theorem replacePair_quote (hbackslash : '\\' ∉ escaped) (hquote : '"' ∉ escaped)
    (hletters : ∀ c ∈ escaped, letter c ≠ '"' ∧ letter c ≠ '\\') (text : Line)
    : replacePair '\\' '"' '"' (text.flatMap (escapeIn ('"' :: escaped))) = text.flatMap (escapeIn escaped) := by
  induction text with
  | nil => rfl
  | cons c text ih =>
    rw [List.flatMap_cons, List.flatMap_cons]
    by_cases hc : c = '"'
    . subst hc
      rw [escapeIn_of_mem List.mem_cons_self, escapeIn_of_not_mem hquote, ← ih]
      exact replacePair_pair
    . rw [escapeIn_cons_of_ne hc]
      by_cases hback : c = '\\'
      . subst hback
        rw [escapeIn_of_not_mem hbackslash, ← ih]
        exact replacePair_of_head_ne (head?_flatMap_escapeIn List.mem_cons_self (by decide) text)
      . rw [replacePair_escapeIn hback hletters, ih]

/--
A control character is read back, and so is a backslash of the path with the letter of it.
-/
theorem replacePair_control (control : Char) (hcontrol : control ≠ '\\') (hbackslash : '\\' ∉ escaped)
    (hfresh : control ∉ escaped) (hletter : letter control ≠ '\\') (hplain : letter control ∉ control :: escaped)
    (hletters : ∀ c ∈ escaped, letter c ≠ letter control ∧ letter c ≠ '\\') (text : Line)
    : replacePair '\\' (letter control) control (text.flatMap (escapeIn (control :: escaped)))
        =
      (replacePair '\\' (letter control) control text).flatMap (escapeIn escaped) := by
  have hback : '\\' ∉ control :: escaped := by simp [hcontrol.symm, hbackslash]
  have hskip : ∀ c rest, c ≠ '\\' →
      replacePair '\\' (letter control) control (escapeIn (control :: escaped) c ++ rest)
        = escapeIn escaped c ++ replacePair '\\' (letter control) control rest := by
    intro c rest hc
    by_cases heq : c = control
    . subst heq
      rw [escapeIn_of_mem List.mem_cons_self, escapeIn_of_not_mem hfresh]
      exact replacePair_pair
    . rw [escapeIn_cons_of_ne heq]
      exact replacePair_escapeIn hc hletters
  induction text using replacePair.induct '\\' (letter control) with
  | case1 => rfl
  | case2 c =>
    by_cases hc : c = '\\'
    . subst hc
      rw [replacePair, List.flatMap_cons, List.flatMap_cons, escapeIn_of_not_mem hback,
        escapeIn_of_not_mem hbackslash]
      rfl
    . rw [List.flatMap_cons, hskip c _ hc]
      rfl
  | case3 c d rest hmatch ih =>
    rcases hmatch with ⟨rfl, rfl⟩
    rw [replacePair_pair, List.flatMap_cons, List.flatMap_cons, List.flatMap_cons, escapeIn_of_not_mem hback,
      escapeIn_of_not_mem hplain, escapeIn_of_not_mem hfresh, ← ih]
    exact replacePair_pair
  | case4 c d rest hmatch ih =>
    have hquoted : (c :: d :: rest).flatMap (escapeIn (control :: escaped))
        = escapeIn (control :: escaped) c ++ (d :: rest).flatMap (escapeIn (control :: escaped)) := List.flatMap_cons
    have hread : (c :: replacePair '\\' (letter control) control (d :: rest)).flatMap (escapeIn escaped)
        = escapeIn escaped c ++ (replacePair '\\' (letter control) control (d :: rest)).flatMap (escapeIn escaped) :=
      List.flatMap_cons
    rw [replacePair, if_neg hmatch, hquoted, hread, ← ih]
    by_cases hc : c = '\\'
    . subst hc
      rw [escapeIn_of_not_mem hback, escapeIn_of_not_mem hbackslash]
      apply replacePair_of_head_ne
      intro e he heq
      rw [List.flatMap_cons] at he
      by_cases hd : d ∈ control :: escaped
      . rw [escapeIn_of_mem hd] at he
        injection he with he
        exact hletter (heq ▸ he).symm
      . rw [escapeIn_of_not_mem hd] at he
        injection he with he
        exact hmatch ⟨rfl, he.trans heq⟩
    . exact hskip c _ hc

end

theorem decodeEscapes_quoteChar {path : Line} (h : ∀ c ∈ path, decodable c)
    : decodeEscapes (path.flatMap quoteChar)
        =
      replacePair '\\' 'r' '\r' (replacePair '\\' 'n' '\n' (replacePair '\\' 't' '\t' path)) := by
  have hquoted : path.flatMap quoteChar = path.flatMap (escapeIn ['\\', '"', '\t', '\n', '\r']) := by
    rw [List.flatMap_def, List.flatMap_def, List.map_congr_left fun c hc => quoteChar_of_decodable (h c hc)]
  have hback : replacePair '\\' '\\' '\\' (path.flatMap (escapeIn ['\\', '"', '\t', '\n', '\r']))
      = path.flatMap (escapeIn ['"', '\t', '\n', '\r']) :=
    replacePair_backslash (by decide) (List.all_iff_forall_prop.mp (by decide)) path
  have hquote : replacePair '\\' '"' '"' (path.flatMap (escapeIn ['"', '\t', '\n', '\r']))
      = path.flatMap (escapeIn ['\t', '\n', '\r']) :=
    replacePair_quote (by decide) (by decide) (List.all_iff_forall_prop.mp (by decide)) path
  have htab : ∀ text : Line, replacePair '\\' 't' '\t' (text.flatMap (escapeIn ['\t', '\n', '\r']))
      = (replacePair '\\' 't' '\t' text).flatMap (escapeIn ['\n', '\r']) :=
    replacePair_control '\t' (by decide) (by decide) (by decide) (by decide) (by decide)
      (List.all_iff_forall_prop.mp (by decide))
  have hline : ∀ text : Line, replacePair '\\' 'n' '\n' (text.flatMap (escapeIn ['\n', '\r']))
      = (replacePair '\\' 'n' '\n' text).flatMap (escapeIn ['\r']) :=
    replacePair_control '\n' (by decide) (by decide) (by decide) (by decide) (by decide)
      (List.all_iff_forall_prop.mp (by decide))
  have hreturn : ∀ text : Line, replacePair '\\' 'r' '\r' (text.flatMap (escapeIn ['\r']))
      = (replacePair '\\' 'r' '\r' text).flatMap (escapeIn []) :=
    replacePair_control '\r' (by decide) (by decide) (by decide) (by decide) (by decide)
      (List.all_iff_forall_prop.mp (by decide))
  have hplain : ∀ text : Line, text.flatMap (escapeIn []) = text := List.flatMap_singleton'
  unfold decodeEscapes
  rw [hquoted, hback, hquote, htab, hline, hreturn, hplain]

def printable (c : Char) : Bool :=
  0x20 ≤ c.toNat && c.toNat < 0x7f

theorem decodable_of_printable {c : Char} (h : printable c) : decodable c := by
  unfold printable at h
  unfold decodable
  rw [h]
  rfl

theorem octal_printable (byte : UInt8) : ∀ c ∈ octal byte, printable c := by
  have hdigit : ∀ n < 8, printable (Js.digitChar n) := by decide
  intro c hc
  unfold octal Js.lastDigits Js.lastDigits Js.lastDigits Js.lastDigits at hc
  simp only [List.nil_append, List.cons_append, List.mem_cons, List.not_mem_nil, or_false] at hc
  rcases hc with rfl | rfl | rfl | rfl
  . decide
  all_goals exact hdigit _ (Nat.mod_lt _ (by decide))

theorem printable_of_plain {c : Char} (h : needsQuoting c = false) : printable c := by
  unfold needsQuoting at h
  unfold printable
  simp_all

theorem quoteChar_printable (c : Char) : ∀ d ∈ quoteChar c, printable d := by
  unfold quoteChar
  iterate 9
    split
    . exact List.all_iff_forall_prop.mp (by decide)
  split
  . intro d hd
    rcases List.mem_flatMap.mp hd with ⟨byte, -, hbyte⟩
    exact octal_printable byte d hbyte
  . next hplain =>
    intro d hd
    rw [List.mem_singleton] at hd
    exact printable_of_plain (hd ▸ Bool.not_eq_true _ ▸ hplain)

theorem quotePath_printable (name : Line) : ∀ c ∈ quotePath name, printable c := by
  unfold quotePath
  split
  . intro c hc
    simp only [List.mem_append, List.mem_singleton, List.mem_flatMap] at hc
    rcases hc with (rfl | ⟨d, -, hd⟩) | rfl
    . decide
    . exact quoteChar_printable d c hd
    . decide
  . next hplain =>
    intro c hc
    rw [List.any_eq_true] at hplain
    exact printable_of_plain (Bool.not_eq_true _ ▸ fun hneeds => hplain ⟨c, hc, hneeds⟩)

/--
`decodeGitPath` reads a quoted path back when it knows all of its characters, and no backslash of it stands before
a letter of an escape sequence.
-/
theorem decodeEscapes_eq_iff {path : Line}
    : decodeEscapes (path.flatMap quoteChar) = path
        ↔
      (∀ c ∈ path, decodable c) ∧ ∀ letter ∈ ['t', 'n', 'r'], ¬['\\', letter] <:+: path := by
  constructor
  . intro heq
    have hdecodable : ∀ c ∈ path, decodable c := by
      rw [← heq]
      have hquoted : ∀ c ∈ path.flatMap quoteChar, decodable c := by
        intro c hc
        rcases List.mem_flatMap.mp hc with ⟨d, -, hd⟩
        exact decodable_of_printable (quoteChar_printable d c hd)
      unfold decodeEscapes
      iterate 5 apply replacePair_decodable (by decide)
      exact hquoted
    refine ⟨hdecodable, ?_⟩
    rw [decodeEscapes_quoteChar hdecodable] at heq
    have hreturn := length_replacePair_le '\\' 'r' '\r'
      (replacePair '\\' 'n' '\n' (replacePair '\\' 't' '\t' path))
    have hline := length_replacePair_le '\\' 'n' '\n' (replacePair '\\' 't' '\t' path)
    have htab : ¬['\\', 't'] <:+: path := by
      intro hpair
      have hlt : (replacePair '\\' 't' '\t' path).length < path.length := length_replacePair_lt hpair
      rw [heq] at hreturn
      omega
    rw [replacePair_absent htab] at heq hreturn hline
    have hnewline : ¬['\\', 'n'] <:+: path := by
      intro hpair
      have hlt : (replacePair '\\' 'n' '\n' path).length < path.length := length_replacePair_lt hpair
      rw [heq] at hreturn
      omega
    rw [replacePair_absent hnewline] at heq
    have hcarriage : ¬['\\', 'r'] <:+: path := by
      intro hpair
      have hlt : (replacePair '\\' 'r' '\r' path).length < path.length := length_replacePair_lt hpair
      rw [heq] at hlt
      omega
    simp [htab, hnewline, hcarriage]
  . rintro ⟨hdecodable, hpairs⟩
    rw [decodeEscapes_quoteChar hdecodable, replacePair_absent (hpairs 't' (by decide)),
      replacePair_absent (hpairs 'n' (by decide)), replacePair_absent (hpairs 'r' (by decide))]

/-! Labels -/

theorem trimEnd_append {s u : List Char} (hlast : ∀ c ∈ s.getLast?, Js.isWhitespace c = false)
    : Js.trimEnd (s ++ u) = s ++ Js.trimEnd u := by
  unfold Js.trimEnd
  rw [List.reverse_append, List.dropWhile_append]
  split
  . next hempty =>
    rw [List.isEmpty_iff.mp hempty, Js.dropWhile_eq_self, List.reverse_reverse, List.reverse_nil, List.append_nil]
    intro c hc
    rw [List.head?_reverse] at hc
    exact hlast c hc
  . rw [List.reverse_append, List.reverse_reverse]

theorem trimEnd_append_of_blank {s u : List Char} (hblank : ∀ c ∈ u, Js.isWhitespace c)
    : Js.trimEnd (s ++ u) = Js.trimEnd s := by
  unfold Js.trimEnd
  have hdrop : u.reverse.dropWhile Js.isWhitespace = [] := by
    rw [List.dropWhile_eq_nil_iff]
    simpa using hblank
  rw [List.reverse_append, List.dropWhile_append, hdrop]
  rfl

theorem trimChars_of_head {c : Char} {text : List Char} (hc : Js.isWhitespace c = false)
    : Js.trimChars (c :: text) = c :: Js.trimEnd text := by
  unfold Js.trimChars Js.trimStart
  rw [List.dropWhile_cons, hc]
  exact trimEnd_append (s := [c]) (by simpa using hc)

/--
The only blank of a path that is not quoted is the space.
-/
theorem isWhitespace_of_plain {c : Char} (h : needsQuoting c = false) : Js.isWhitespace c = true ↔ c = ' ' := by
  constructor
  . intro hblank
    have hcode : c.toNat = ' '.toNat := by
      unfold needsQuoting at h
      unfold Js.isWhitespace at hblank
      simp at h hblank
      have hspace : ' '.toNat = 32 := rfl
      omega
    exact Char.toNat_inj.mp hcode
  . rintro rfl
    rfl

theorem trimEnd_eq_self_iff {text : List Char} (hplain : ∀ c ∈ text, needsQuoting c = false)
    : Js.trimEnd text = text ↔ text.getLast? ≠ some ' ' := by
  unfold Js.trimEnd
  rw [List.reverse_eq_iff]
  constructor
  . intro heq hlast
    have hblank : Js.isWhitespace ' ' = false := by
      apply Js.head?_dropWhile
      rw [heq, List.head?_reverse]
      exact hlast
    contradiction
  . intro hlast
    apply Js.dropWhile_eq_self
    intro c hc
    rw [List.head?_reverse] at hc
    rw [← Bool.not_eq_true, isWhitespace_of_plain (hplain c (List.mem_of_getLast? hc))]
    rintro rfl
    exact hlast hc

theorem tab_blank (path : Line) : ∀ c ∈ (if ' ' ∈ path then ['\t'] else []), Js.isWhitespace c := by
  split <;> exact List.all_iff_forall_prop.mp (by decide)

theorem cons_ne_devNull {c : Char} (h : c ≠ '/') (text : Line) : c :: text ≠ devNull := by
  have hhead : devNull.head? = some '/' := by decide
  intro heq
  rw [← heq, List.head?_cons, Option.some.injEq] at hhead
  exact h hhead

theorem trimChars_quoted {tab : Line} (htab : ∀ c ∈ tab, Js.isWhitespace c) (body : Line)
    : Js.trimChars (['"'] ++ body ++ ['"'] ++ tab) = '"' :: (body ++ ['"']) := by
  have hend : Js.trimEnd tab = [] := trimEnd_append_of_blank (s := []) htab
  have hlast : ∀ c ∈ (body ++ ['"']).getLast?, Js.isWhitespace c = false := by
    rw [List.getLast?_concat]
    intro c hc
    rw [Option.mem_some_iff] at hc
    subst hc
    decide
  rw [List.append_assoc, List.append_assoc, List.singleton_append, trimChars_of_head (by decide),
    ← List.append_assoc, trimEnd_append hlast, hend, List.append_nil]

theorem decodeGitPath_quoted (body : Line) : decodeGitPath ('"' :: (body ++ ['"'])) = decodeEscapes body := by
  have hlast : ('"' :: (body ++ ['"'])).getLast? = some '"' := by
    rw [← List.cons_append, List.getLast?_concat]
  unfold decodeGitPath
  rw [if_neg, List.tail_cons, List.dropLast_concat]
  rw [hlast, List.head?_cons, List.length_cons, List.length_append]
  simp

/--
`parsePatchPath` reads a label after the side that the label begins with.
-/
theorem parsePatchPath_label {side : Char} (hside : side ∈ ['a', 'b']) (path : Line)
    : parsePatchPath (label side (some path))
        =
      some (if path.any needsQuoting then decodeEscapes (path.flatMap quoteChar) else Js.trimEnd path) := by
  have hsides : ∀ side ∈ ['a', 'b'], needsQuoting side = false ∧ Js.isWhitespace side = false ∧ side ≠ '\\'
      ∧ quoteChar side = [side] ∧ side ≠ '"' ∧ side ≠ '/' :=
    List.all_iff_forall_prop.mp (by decide)
  rcases hsides side hside with ⟨hplain, hblank, hback, hquote, hmark, hslash⟩
  have hany : ([side, '/'] ++ path).any needsQuoting = path.any needsQuoting := by
    rw [List.any_append]
    simp [hplain, show needsQuoting '/' = false by decide]
  -- What is read after the side decides nothing about how the path is found.
  have hfound : ∀ read : Line, (if side :: '/' :: read = devNull then none
      else if ['a', '/'].isPrefixOf (side :: '/' :: read) ∨ ['b', '/'].isPrefixOf (side :: '/' :: read)
        then some ((side :: '/' :: read).drop 2)
      else some (side :: '/' :: read)) = some read := by
    intro read
    rw [if_neg, if_pos]
    . rfl
    . simp only [List.mem_cons, List.not_mem_nil, or_false] at hside
      rcases hside with rfl | rfl <;> simp
    . exact cons_ne_devNull hslash _
  have htab := tab_blank path
  unfold label quotePath
  dsimp only
  rw [hany]
  generalize (if ' ' ∈ path then ['\t'] else []) = tab at htab
  by_cases hquoted : path.any needsQuoting
  . rw [if_pos hquoted, if_pos hquoted]
    have hbody : ([side, '/'] ++ path).flatMap quoteChar = side :: '/' :: path.flatMap quoteChar := by
      rw [List.flatMap_append, List.flatMap_cons, List.flatMap_cons, hquote]
      rfl
    have hdecode : decodeEscapes (side :: '/' :: path.flatMap quoteChar)
        = side :: '/' :: decodeEscapes (path.flatMap quoteChar) := by
      have hnext : '/' ≠ '\\' := by decide
      unfold decodeEscapes
      simp only [replacePair_of_ne hback, replacePair_of_ne hnext]
    unfold parsePatchPath
    rw [hbody, trimChars_quoted htab]
    dsimp only
    rw [if_neg (not_or.mpr ⟨List.cons_ne_nil _ _, cons_ne_devNull (by decide) _⟩), decodeGitPath_quoted, hdecode]
    exact hfound _
  . rw [if_neg hquoted, if_neg hquoted]
    have htrim : Js.trimChars ([side, '/'] ++ path ++ tab) = side :: '/' :: Js.trimEnd path := by
      have hnext : Js.trimEnd ('/' :: path) = '/' :: Js.trimEnd path :=
        trimEnd_append (s := ['/']) (by simp [Js.isWhitespace])
      rw [List.append_assoc, List.cons_append, trimChars_of_head hblank, List.cons_append, List.nil_append,
        ← List.cons_append, trimEnd_append_of_blank htab, hnext]
    have hdecode : ∀ read : Line, decodeGitPath (side :: read) = side :: read := by
      intro read
      unfold decodeGitPath
      rw [if_pos (.inl (by simpa using hmark))]
    unfold parsePatchPath
    rw [htrim]
    dsimp only
    rw [if_neg (not_or.mpr ⟨List.cons_ne_nil _ _, cons_ne_devNull hslash _⟩), hdecode]
    exact hfound _

theorem parsePatchPath_label_iff {side : Char} (hside : side ∈ ['a', 'b']) (path : Line)
    : parsePatchPath (label side (some path)) = some path ↔ PathReadable path := by
  rw [parsePatchPath_label hside, Option.some.injEq]
  unfold PathReadable
  by_cases hquoted : path.any needsQuoting
  . rw [if_pos hquoted, if_pos hquoted]
    exact decodeEscapes_eq_iff
  . rw [if_neg hquoted, if_neg hquoted]
    apply trimEnd_eq_self_iff
    intro c hc
    rw [List.any_eq_true] at hquoted
    exact Bool.not_eq_true _ ▸ fun hneeds => hquoted ⟨c, hc, hneeds⟩

theorem parsePatchPath_none : parsePatchPath (label 'a' none) = none ∧ parsePatchPath (label 'b' none) = none := by
  decide

end Mobile.UnifiedDiff
