import Mathlib.Algebra.Ring.Nat

/-!
This module contains the string operations of the Rust standard library that the bridge uses, on the
characters of a string.
-/

namespace Text

/--
`char::is_whitespace`, the Unicode property `White_Space`.
-/
def isWhitespace (c : Char) : Bool :=
  let n := c.toNat
  (0x09 ≤ n && n ≤ 0x0d) || n == 0x20 || n == 0x85 || n == 0xa0 || n == 0x1680
    || (0x2000 ≤ n && n ≤ 0x200a) || n == 0x2028 || n == 0x2029 || n == 0x202f || n == 0x205f
    || n == 0x3000

/--
`str::trim`.
-/
def trim (s : List Char) : List Char :=
  ((s.dropWhile isWhitespace).reverse.dropWhile isWhitespace).reverse

/--
`str::to_ascii_lowercase`.
-/
def toAsciiLowercase (s : List Char) : List Char :=
  s.map Char.toLower

/--
`str::find`: what stands before the first occurrence of the pattern, and what begins with it.
-/
def find (pattern : List Char) : List Char → Option (List Char × List Char)
  | [] => if pattern.isEmpty then some ([], []) else none
  | c :: cs =>
    if pattern.isPrefixOf (c :: cs) then
      some ([], c :: cs)
    else
      (find pattern cs).map fun (before, rest) => (c :: before, rest)

/--
`str::rfind`: what stands before the last occurrence of the pattern, and what begins with it.
-/
def rfind (pattern : List Char) : List Char → Option (List Char × List Char)
  | [] => if pattern.isEmpty then some ([], []) else none
  | c :: cs =>
    match rfind pattern cs with
    | some (before, rest) => some (c :: before, rest)
    | none => if pattern.isPrefixOf (c :: cs) then some ([], c :: cs) else none

def contains (pattern s : List Char) : Bool :=
  (find pattern s).isSome

/--
`str::split_once`.
-/
def splitOnce (pattern s : List Char) : Option (List Char × List Char) :=
  (find pattern s).map fun (before, rest) => (before, rest.drop pattern.length)

/--
`str::lines`. A carriage return before the line feed is kept; callers trim it.
-/
def lines : List Char → List (List Char)
  | [] => []
  | c :: cs =>
    if c == '\n' then
      [] :: lines cs
    else
      match lines cs with
      | [] => [[c]]
      | line :: rest => (c :: line) :: rest

/--
`str::split_whitespace`.
-/
def splitWhitespace : List Char → List (List Char)
  | [] => []
  | c :: cs =>
    if isWhitespace c then
      splitWhitespace cs
    else
      match cs with
      | [] => [[c]]
      | d :: _ =>
        if isWhitespace d then
          [c] :: splitWhitespace cs
        else
          match splitWhitespace cs with
          | [] => [[c]]
          | word :: rest => (c :: word) :: rest

/--
The longest prefix of at most `max` bytes that ends at a character boundary.
-/
def takeBytes (max : Nat) : List Char → List Char
  | [] => []
  | c :: cs => if c.utf8Size ≤ max then c :: takeBytes (max - c.utf8Size) cs else []

/-! The bytes of a text -/

def size (s : List Char) : Nat :=
  (s.map Char.utf8Size).sum

theorem utf8ByteSize_ofList (s : List Char) : (String.ofList s).utf8ByteSize = size s := by
  induction s with
  | nil => rfl
  | cons c cs ih =>
    have hcons : String.ofList (c :: cs) = String.singleton c ++ String.ofList cs := by
      apply String.toList_inj.mp
      simp
    rw [hcons, String.utf8ByteSize_append, String.utf8ByteSize_singleton, ih]
    simp [size]

theorem utf8ByteSize_eq (s : String) : s.utf8ByteSize = size s.toList := by
  rw [← utf8ByteSize_ofList, String.ofList_toList]

theorem size_takeBytes_le (max : Nat) (s : List Char) : size (takeBytes max s) ≤ max := by
  induction s generalizing max with
  | nil => simp [takeBytes, size]
  | cons c cs ih =>
    unfold takeBytes
    split
    . next hfits =>
      have hrest := ih (max - c.utf8Size)
      simp only [size, List.map_cons, List.sum_cons] at hrest ⊢
      omega
    . simp [size]

theorem takeBytes_prefix (max : Nat) (s : List Char) : takeBytes max s <+: s := by
  induction s generalizing max with
  | nil => exact List.prefix_rfl
  | cons c cs ih =>
    unfold takeBytes
    split
    . exact List.prefix_cons_iff.mpr (.inr ⟨_, rfl, ih _⟩)
    . exact List.nil_prefix

/--
A limit of four bytes has room for any character.
-/
theorem takeBytes_ne_nil {max : Nat} {s : List Char} (hmax : 4 ≤ max) (h : s ≠ [])
    : takeBytes max s ≠ [] := by
  cases s with
  | nil => contradiction
  | cons c cs =>
    have hfits : c.utf8Size ≤ max := Nat.le_trans c.utf8Size_le_four hmax
    unfold takeBytes
    rw [if_pos hfits]
    exact List.cons_ne_nil _ _

/--
Two beginnings of a text that have as many bytes are the same.
-/
theorem append_inj_of_size {s s' t t' : List Char} (h : s ++ t = s' ++ t') (hsize : size s = size s')
    : s = s' ∧ t = t' := by
  induction s generalizing s' with
  | nil =>
    cases s' with
    | nil => exact ⟨rfl, h⟩
    | cons c cs =>
      have hpos := c.utf8Size_pos
      simp only [size, List.map_nil, List.sum_nil, List.map_cons, List.sum_cons] at hsize
      omega
  | cons c cs ih =>
    cases s' with
    | nil =>
      have hpos := c.utf8Size_pos
      simp only [size, List.map_nil, List.sum_nil, List.map_cons, List.sum_cons] at hsize
      omega
    | cons c' cs' =>
      rw [List.cons_append, List.cons_append] at h
      injection h with hc h
      subst hc
      simp only [size, List.map_cons, List.sum_cons] at hsize
      rcases ih h (Nat.add_left_cancel hsize) with ⟨rfl, ht⟩
      exact ⟨rfl, ht⟩

/--
A separator that neither beginning contains separates both texts at the same place.
-/
theorem append_cons_inj {s s' t t' : List Char} {separator : Char} (hs : separator ∉ s)
    (hs' : separator ∉ s') (h : s ++ separator :: t = s' ++ separator :: t')
    : s = s' ∧ t = t' := by
  induction s generalizing s' with
  | nil =>
    cases s' with
    | nil =>
      injection h with _ h
      exact ⟨rfl, h⟩
    | cons c cs =>
      injection h with hc _
      exact absurd (hc ▸ List.mem_cons_self) hs'
  | cons c cs ih =>
    cases s' with
    | nil =>
      injection h with hc _
      exact absurd (hc ▸ List.mem_cons_self) hs
    | cons c' cs' =>
      rw [List.cons_append, List.cons_append] at h
      injection h with hc h
      subst hc
      rw [List.mem_cons, not_or] at hs hs'
      rcases ih hs.2 hs'.2 h with ⟨rfl, ht⟩
      exact ⟨rfl, ht⟩

/-! Texts that are added to one another within a limit -/

theorem size_append (s t : List Char) : size (s ++ t) = size s + size t := by
  simp [size]

theorem takeBytes_append_of_le {max : Nat} {s : List Char} (h : size s ≤ max) (t : List Char)
    : takeBytes max (s ++ t) = s ++ takeBytes (max - size s) t := by
  induction s generalizing max with
  | nil => simp [size]
  | cons c cs ih =>
    simp only [size, List.map_cons, List.sum_cons] at h ih ⊢
    rw [List.cons_append, takeBytes, if_pos (by omega), ih (by omega), List.cons_append, Nat.sub_sub]

theorem takeBytes_of_le {max : Nat} {s : List Char} (h : size s ≤ max) : takeBytes max s = s := by
  have happend := takeBytes_append_of_le h []
  rwa [List.append_nil, takeBytes, List.append_nil] at happend

theorem takeBytes_append_of_lt {max : Nat} {s : List Char} (h : max < size s) (t : List Char)
    : takeBytes max (s ++ t) = takeBytes max s := by
  induction s generalizing max with
  | nil => simp [size] at h
  | cons c cs ih =>
    simp only [size, List.map_cons, List.sum_cons] at h ih
    rw [List.cons_append, takeBytes, takeBytes]
    split
    . have hrest : takeBytes (max - c.utf8Size) (cs ++ t) = takeBytes (max - c.utf8Size) cs :=
        ih (by omega)
      rw [hrest]
    . rfl

/--
What is cut off begins with a character that has no room.
-/
theorem takeBytes_split {max : Nat} {s : List Char} (h : max < size s)
    : ∃ c rest, s = takeBytes max s ++ c :: rest ∧ max - size (takeBytes max s) < c.utf8Size := by
  induction s generalizing max with
  | nil => simp [size] at h
  | cons c cs ih =>
    simp only [size, List.map_cons, List.sum_cons] at h ih
    rw [takeBytes]
    split
    . next hfits =>
      have hcut : max - c.utf8Size < (cs.map Char.utf8Size).sum := by omega
      rcases ih hcut with ⟨d, rest, hrest, hlt⟩
      refine ⟨d, rest, ?_, ?_⟩
      . rw [List.cons_append, ← hrest]
      . simp only [size, List.map_cons, List.sum_cons]
        omega
    . next hfits => exact ⟨c, cs, rfl, by simpa [size] using hfits⟩

theorem size_pos {s : List Char} (h : s ≠ []) : 0 < size s := by
  cases s with
  | nil => contradiction
  | cons c cs =>
    have hpos := c.utf8Size_pos
    simp only [size, List.map_cons, List.sum_cons]
    omega

theorem size_takeBytes_lt {max : Nat} {s : List Char}
    : size (takeBytes max s) < size s ↔ takeBytes max s ≠ s := by
  constructor
  . intro hlt heq
    rw [heq] at hlt
    exact Nat.lt_irrefl _ hlt
  . intro hne
    rcases takeBytes_prefix max s with ⟨rest, hrest⟩
    have hpos : 0 < size rest := by
      apply size_pos
      intro hnil
      rw [hnil, List.append_nil] at hrest
      exact hne hrest
    have hsize := congrArg size hrest
    rw [size_append] at hsize
    omega

theorem takeBytes_ne_iff {max : Nat} {s : List Char} : takeBytes max s ≠ s ↔ max < size s := by
  constructor
  . intro hne
    by_contra hle
    exact hne (takeBytes_of_le (Nat.le_of_not_lt hle))
  . intro hlt heq
    have hle := size_takeBytes_le max s
    rw [heq] at hle
    omega

/--
The text begins with a character that has room.
-/
def StartsWithin (room : Nat) : List Char → Prop
  | [] => False
  | c :: _ => c.utf8Size ≤ room

instance (room : Nat) : (s : List Char) → Decidable (StartsWithin room s)
  | [] => inferInstanceAs (Decidable False)
  | c :: _ => inferInstanceAs (Decidable (c.utf8Size ≤ room))

theorem takeBytes_eq_nil {max : Nat} {s : List Char} : takeBytes max s = [] ↔ ¬StartsWithin max s := by
  cases s with
  | nil => simp [takeBytes, StartsWithin]
  | cons c cs => simp [takeBytes, StartsWithin]

/-! Numbers in digits -/

theorem utf8Size_digitChar : ∀ digit < 10, (Nat.digitChar digit).utf8Size = 1 := by
  decide

theorem utf8ByteSize_repr_le (digits : Nat)
    : ∀ n, n < 10 ^ (digits + 1) → n.repr.utf8ByteSize ≤ digits + 1 := by
  induction digits with
  | zero =>
    intro n hn
    rw [Nat.repr_of_lt hn, String.utf8ByteSize_singleton, utf8Size_digitChar n hn]
  | succ digits ih =>
    intro n hn
    by_cases hlt : n < 10
    . rw [Nat.repr_of_lt hlt, String.utf8ByteSize_singleton, utf8Size_digitChar n hlt]
      omega
    . have hrest := ih (n / 10) (by omega)
      rw [Nat.repr_of_ge (by omega), String.utf8ByteSize_append, String.utf8ByteSize_singleton,
        utf8Size_digitChar _ (by omega)]
      omega

theorem repr_injective : Function.Injective Nat.repr := by
  intro a b h
  rw [← Nat.ofDigitChars_ten_toDigits (n := a), ← Nat.toList_repr, h, Nat.toList_repr,
    Nat.ofDigitChars_ten_toDigits]

theorem isDigit_of_mem_repr {n : Nat} {c : Char} (h : c ∈ n.repr.toList) : c.isDigit := by
  rw [Nat.toList_repr] at h
  exact Nat.isDigit_of_mem_toDigits (by decide) (by decide) h

end Text
