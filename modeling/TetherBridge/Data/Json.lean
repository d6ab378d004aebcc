import Mathlib.Algebra.Ring.Nat

/-!
This module contains JSON values as `serde_json` holds them and the length of their compact
serialization. A number is kept as the text it is printed as.
-/

inductive Json where
  | null
  | bool (value : Bool)
  | number (literal : String)
  | string (value : String)
  | array (values : List Json)
  | object (fields : List (String × Json))
  deriving Repr, Inhabited

namespace Json

/--
The bytes `serde_json` prints for one character of a string.
-/
def escapedBytes (c : Char) : Nat :=
  if c = '"' ∨ c = '\\' then
    2
  else if c.toNat < 0x20 then
    -- `\b`, `\t`, `\n`, `\f` and `\r` have a short form, the other controls print as `\u00XX`.
    if c.toNat ∈ [0x08, 0x09, 0x0a, 0x0c, 0x0d] then 2 else 6
  else
    c.utf8Size

/--
The length of a serialized string, its quotes included.
-/
def stringBytes (s : String) : Nat :=
  2 + (s.toList.map escapedBytes).sum

mutual

/--
The length of `serde_json::to_vec`.
-/
def bytes : Json → Nat
  | .null => 4
  | .bool b => if b then 4 else 5
  | .number literal => literal.utf8ByteSize
  | .string s => stringBytes s
  | .array values => 2 + valuesBytes values
  | .object fields => 2 + fieldsBytes fields

def valuesBytes : List Json → Nat
  | [] => 0
  | [v] => v.bytes
  | v :: vs => v.bytes + 1 + valuesBytes vs

def fieldsBytes : List (String × Json) → Nat
  | [] => 0
  | [(key, v)] => stringBytes key + 1 + v.bytes
  | (key, v) :: rest => stringBytes key + 1 + v.bytes + 1 + fieldsBytes rest

end

/--
`Value::get` with a string key.
-/
def get (key : String) : Json → Option Json
  | .object fields => fields.lookup key
  | _ => none

def asStr : Json → Option String
  | .string s => some s
  | _ => none

def asBool : Json → Option Bool
  | .bool b => some b
  | _ => none

def asArray : Json → Option (List Json)
  | .array values => some values
  | _ => none

/--
`Map::insert`: replace the value of the key, or add the key.
-/
def insertField (key : String) (value : Json) : List (String × Json) → List (String × Json)
  | [] => [(key, value)]
  | (k, v) :: rest => if k = key then (key, value) :: rest else (k, v) :: insertField key value rest

mutual

/--
The equality of values, for which the order of the fields of an object does not matter.
-/
def same : Json → Json → Bool
  | .null, .null => true
  | .bool a, .bool b => a == b
  | .number a, .number b => a == b
  | .string a, .string b => a == b
  | .array as, .array bs => sameValues as bs
  | .object as, .object bs => as.length == bs.length && sameFields as bs
  | _, _ => false

def sameValues : List Json → List Json → Bool
  | [], [] => true
  | a :: as, b :: bs => same a b && sameValues as bs
  | _, _ => false

def sameFields : List (String × Json) → List (String × Json) → Bool
  | [], _ => true
  | (key, a) :: as, bs =>
    (match bs.lookup key with
      | some b => same a b
      | none => false)
      && sameFields as bs

end

end Json
