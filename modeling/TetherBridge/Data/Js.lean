import Mathlib.Data.List.TakeWhile

/-!
This module contains what the mobile app uses of the JavaScript standard library for strings, on the
characters of a string.
-/

namespace Js

/--
The characters `String.prototype.trim` removes: white space and line terminators.
-/
def isWhitespace (c : Char) : Bool :=
  let n := c.toNat
  (0x09 ≤ n && n ≤ 0x0d) || n == 0x20 || n == 0xa0 || n == 0x1680 || (0x2000 ≤ n && n ≤ 0x200a)
    || n == 0x2028 || n == 0x2029 || n == 0x202f || n == 0x205f || n == 0x3000 || n == 0xfeff

def trimStart (s : List Char) : List Char :=
  s.dropWhile isWhitespace

def trimEnd (s : List Char) : List Char :=
  (s.reverse.dropWhile isWhitespace).reverse

def trimChars (s : List Char) : List Char :=
  trimEnd (trimStart s)

def trim (s : String) : String :=
  String.ofList (trimChars s.toList)

/--
The code units `charCodeAt` reads.
-/
def charCodes (c : Char) : List UInt32 :=
  let n := c.toNat
  if n < 0x10000 then
    [n.toUInt32]
  else
    [(0xd800 + (n - 0x10000) / 0x400).toUInt32, (0xdc00 + (n - 0x10000) % 0x400).toUInt32]

def digitChar (digit : Nat) : Char :=
  if digit < 10 then Char.ofNat (0x30 + digit) else Char.ofNat (0x61 + (digit - 10))

/--
The last digits of a number, as many as are asked for.
-/
def lastDigits (radix : Nat) : Nat → Nat → List Char
  | 0, _ => []
  | count + 1, n => lastDigits radix count (n / radix) ++ [digitChar (n % radix)]

/--
How many digits a number has.
-/
def digitCount (radix : Nat) : Nat → Nat → Nat
  | 0, _ => 1
  | rounds + 1, n => if n < radix then 1 else digitCount radix rounds (n / radix) + 1

/--
`Number.prototype.toString` with a radix.
-/
def toRadix (radix n : Nat) : List Char :=
  lastDigits radix (digitCount radix n n) n

/--
`padStart(8, '0')` of the hexadecimal digits of a 32-bit number.
-/
def hex8 (n : UInt32) : List Char :=
  lastDigits 16 8 n.toNat

/--
How `JSON.stringify` prints a character of a string.
-/
def escape (c : Char) : List Char :=
  if c = '"' then ['\\', '"']
  else if c = '\\' then ['\\', '\\']
  else if c.toNat = 0x08 then ['\\', 'b']
  else if c.toNat = 0x09 then ['\\', 't']
  else if c.toNat = 0x0a then ['\\', 'n']
  else if c.toNat = 0x0c then ['\\', 'f']
  else if c.toNat = 0x0d then ['\\', 'r']
  else if c.toNat < 0x20 then ['\\', 'u', '0', '0'] ++ lastDigits 16 2 c.toNat
  else [c]

def stringifyString (s : String) : List Char :=
  ['"'] ++ s.toList.flatMap escape ++ ['"']

def stringifyArray (values : List (List Char)) : List Char :=
  ['['] ++ [','].intercalate values ++ [']']

def stringifyStrings (values : List String) : List Char :=
  stringifyArray (values.map stringifyString)

/-! Trimming -/

theorem dropWhile_eq_self {p : Char → Bool} {s : List Char} (h : ∀ c ∈ s.head?, p c = false)
    : s.dropWhile p = s := by
  cases s with
  | nil => rfl
  | cons c cs =>
    rw [List.dropWhile_cons, h c rfl]
    rfl

theorem trimChars_eq_self {s : List Char} (hhead : ∀ c ∈ s.head?, isWhitespace c = false)
    (hlast : ∀ c ∈ s.getLast?, isWhitespace c = false)
    : trimChars s = s := by
  unfold trimChars trimStart trimEnd
  rw [dropWhile_eq_self hhead, dropWhile_eq_self, List.reverse_reverse]
  intro c hc
  rw [List.head?_reverse] at hc
  exact hlast c hc

theorem head?_dropWhile {p : Char → Bool} {s : List Char} {c : Char} (h : c ∈ (s.dropWhile p).head?)
    : p c = false := by
  induction s with
  | nil => contradiction
  | cons d ds ih =>
    rw [List.dropWhile_cons] at h
    split at h
    . exact ih h
    . next hd =>
      rw [List.head?_cons, Option.mem_some_iff] at h
      rw [← h]
      exact Bool.not_eq_true _ ▸ hd

/--
What has been trimmed has no white space at either end.
-/
theorem trimChars_trimChars (s : List Char) : trimChars (trimChars s) = trimChars s := by
  apply trimChars_eq_self
  . intro c hc
    unfold trimChars trimEnd at hc
    have hsuffix := List.dropWhile_suffix isWhitespace (l := (trimStart s).reverse)
    have hprefix : (((trimStart s).reverse).dropWhile isWhitespace).reverse <+: trimStart s := by
      rw [← List.reverse_reverse (trimStart s)]
      exact List.reverse_prefix.mpr (by rw [List.reverse_reverse]; exact hsuffix)
    have hhead : c ∈ (trimStart s).head? := by
      rcases hprefix with ⟨rest, hrest⟩
      rw [← hrest, List.head?_append]
      rw [Option.mem_def] at hc
      rw [hc]
      rfl
    exact head?_dropWhile hhead
  . intro c hc
    unfold trimChars trimEnd at hc
    rw [List.getLast?_reverse] at hc
    exact head?_dropWhile hc

theorem trimChars_ne_nil {s : List Char} {c : Char} (hmem : c ∈ s) (hc : isWhitespace c = false)
    : trimChars s ≠ [] := by
  unfold trimChars trimEnd trimStart
  intro hnil
  rw [List.reverse_eq_nil_iff, List.dropWhile_eq_nil_iff] at hnil
  have hall : ∀ d ∈ s.dropWhile isWhitespace, isWhitespace d = true := by
    intro d hd
    exact hnil d (List.mem_reverse.mpr hd)
  rw [← List.takeWhile_append_dropWhile (p := isWhitespace) (l := s), List.mem_append] at hmem
  rcases hmem with hmem | hmem
  . rw [List.mem_takeWhile_imp hmem] at hc
    contradiction
  . rw [hall c hmem] at hc
    contradiction

theorem trim_trim (s : String) : trim (trim s) = trim s := by
  unfold trim
  rw [String.toList_ofList, trimChars_trimChars]

theorem trim_eq_self {s : String} (hhead : ∀ c ∈ s.toList.head?, isWhitespace c = false)
    (hlast : ∀ c ∈ s.toList.getLast?, isWhitespace c = false)
    : trim s = s := by
  unfold trim
  rw [trimChars_eq_self hhead hlast, String.ofList_toList]

/-! Numbers -/

theorem isWhitespace_digitChar {digit : Nat} (h : digit < 36) : isWhitespace (digitChar digit) = false := by
  have hall : ∀ digit : Fin 36, isWhitespace (digitChar digit) = false := by decide
  exact hall ⟨digit, h⟩

theorem getLast?_toRadix (radix n : Nat)
    : (toRadix radix n).getLast? = some (digitChar (n % radix)) := by
  have hcount : ∃ count, digitCount radix n n = count + 1 := by
    cases n with
    | zero => exact ⟨0, rfl⟩
    | succ n =>
      unfold digitCount
      split
      . exact ⟨0, rfl⟩
      . exact ⟨_, rfl⟩
  rcases hcount with ⟨count, hcount⟩
  unfold toRadix
  rw [hcount]
  exact List.getLast?_concat

end Js
