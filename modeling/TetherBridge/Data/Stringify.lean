import TetherBridge.Data.Fitting
import TetherBridge.Data.Js
import TetherBridge.Data.Json

/-!
This module contains the texts that `JSON.stringify` prints for values and their lengths in bytes.
-/

namespace Js

mutual

/--
`JSON.stringify`
-/
def stringify : Json → List Char
  | .null => "null".toList
  | .bool value => if value then "true".toList else "false".toList
  | .number literal => literal.toList
  | .string value => stringifyString value
  | .array values => stringifyArray (stringifyValues values)
  | .object fields => '\x7b' :: [','].intercalate (stringifyFields fields) ++ ['\x7d']

def stringifyValues : List Json → List (List Char)
  | [] => []
  | value :: values => stringify value :: stringifyValues values

def stringifyFields : List (String × Json) → List (List Char)
  | [] => []
  | (key, value) :: fields => (stringifyString key ++ ':' :: stringify value) :: stringifyFields fields

end

theorem stringifyValues_eq_map (values : List Json) : stringifyValues values = values.map stringify := by
  induction values with
  | nil => rfl
  | cons value values ih => rw [stringifyValues, ih, List.map_cons]

/--
`length`: the number of UTF-16 code units.
-/
def length (text : List Char) : Nat :=
  (text.flatMap charCodes).length

def codePointBytes (c : Char) : Nat :=
  if c.toNat ≤ 0x7f then 1 else if c.toNat ≤ 0x7ff then 2 else if c.toNat ≤ 0xffff then 3 else 4

def utf8ByteLength (text : List Char) : Nat :=
  text.foldl (fun bytes c => bytes + codePointBytes c) 0

theorem utf8ByteLength_eq_sum (text : List Char) : utf8ByteLength text = (text.map codePointBytes).sum := by
  have hfold : ∀ (bytes : Nat) (text : List Char),
      text.foldl (fun bytes c => bytes + codePointBytes c) bytes = bytes + (text.map codePointBytes).sum := by
    intro bytes text
    induction text generalizing bytes with
    | nil => rfl
    | cons c text ih =>
      rw [List.foldl_cons, ih, List.map_cons, List.sum_cons, Nat.add_assoc]
  unfold utf8ByteLength
  rw [hfold, Nat.zero_add]

@[simp]
theorem utf8ByteLength_nil : utf8ByteLength [] = 0 := rfl

theorem utf8ByteLength_cons (c : Char) (text : List Char)
    : utf8ByteLength (c :: text) = codePointBytes c + utf8ByteLength text := by
  simp only [utf8ByteLength_eq_sum, List.map_cons, List.sum_cons]

theorem utf8ByteLength_append (text text' : List Char)
    : utf8ByteLength (text ++ text') = utf8ByteLength text + utf8ByteLength text' := by
  simp only [utf8ByteLength_eq_sum, List.map_append, List.sum_append]

/--
What stands between two texts is a comma.
-/
theorem utf8ByteLength_intercalate (texts : List (List Char))
    : utf8ByteLength ([','].intercalate texts) = texts.joinedCost utf8ByteLength 0 := by
  have hrest : ∀ (taken : Nat) (text : List Char) (texts : List (List Char)), 0 < taken →
      1 + utf8ByteLength ([','].intercalate (text :: texts)) = (text :: texts).joinedCost utf8ByteLength taken := by
    intro taken text texts htaken
    have hseparator : List.separator taken = 1 := if_pos htaken
    induction texts generalizing taken text with
    | nil =>
      rw [List.intercalate_singleton, List.joinedCost, List.joinedCost, hseparator, Nat.add_zero]
    | cons next texts ih =>
      rw [List.intercalate_cons_of_ne_nil (by simp), List.joinedCost, ← ih (taken + 1) next (by omega) (if_pos (by omega)),
        utf8ByteLength_append, utf8ByteLength_append, hseparator]
      have hcomma : utf8ByteLength [','] = 1 := rfl
      omega
  cases texts with
  | nil => rfl
  | cons text texts =>
    cases texts with
    | nil =>
      rw [List.intercalate_singleton, List.joinedCost, List.joinedCost, Nat.add_zero]
      exact (Nat.zero_add _).symm
    | cons next texts =>
      have hnext := hrest 1 next texts (by omega)
      have hcomma : utf8ByteLength [','] = 1 := rfl
      have hnone : List.separator 0 = 0 := rfl
      rw [List.intercalate_cons_of_ne_nil (by simp), List.joinedCost, ← hnext, utf8ByteLength_append,
        utf8ByteLength_append, hnone]
      omega

end Js
