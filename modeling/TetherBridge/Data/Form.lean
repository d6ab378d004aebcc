import Mathlib.Data.List.Basic

/-!
This module contains the `application/x-www-form-urlencoded` format on bytes: what a list of pairs is written as, which
pairs are read from any text, and that escaping more of the text does not change them.
-/

namespace Form

abbrev Bytes := List UInt8

/--
The bytes of an ASCII text.
-/
def ascii (s : String) : Bytes :=
  s.toList.map fun c => UInt8.ofNat c.toNat

def AMPERSAND : UInt8 := 0x26
def EQUALS : UInt8 := 0x3D
def PERCENT : UInt8 := 0x25
def PLUS : UInt8 := 0x2B
def SPACE : UInt8 := 0x20

/-! Percent-encoding -/

def hexDigit (n : UInt8) : UInt8 :=
  if n < 10 then n + 0x30 else n + 0x37

def hexValue (b : UInt8) : Option UInt8 :=
  if 0x30 ≤ b ∧ b ≤ 0x39 then
    some (b - 0x30)
  else if 0x41 ≤ b ∧ b ≤ 0x46 then
    some (b - 0x37)
  else if 0x61 ≤ b ∧ b ≤ 0x66 then
    some (b - 0x57)
  else
    none

def percent (b : UInt8) : Bytes :=
  [PERCENT, hexDigit (b / 16), hexDigit (b % 16)]

def hexByte (high low : UInt8) : Option UInt8 :=
  (hexValue high).bind fun high => (hexValue low).map fun low => 16 * high + low

/--
A `%` that no two digits follow stands for itself.
-/
def percentDecode : Bytes → Bytes
  | b :: high :: low :: rest =>
    if b = PERCENT then
      match hexByte high low with
      | some decoded => decoded :: percentDecode rest
      | none => b :: percentDecode (high :: low :: rest)
    else
      b :: percentDecode (high :: low :: rest)
  | b :: rest => b :: percentDecode rest
  | [] => []

/--
What a property says of each of the bytes can be checked on all of them.
-/
theorem forall_byte {P : UInt8 → Prop} [∀ b, Decidable (P b)] (h : ∀ n < 256, P (UInt8.ofNat n)) (b : UInt8) : P b := by
  have hbyte := h b.toNat b.toNat_lt
  rwa [UInt8.ofNat_toNat] at hbyte

theorem hexByte_percent (b : UInt8) : hexByte (hexDigit (b / 16)) (hexDigit (b % 16)) = some b :=
  @forall_byte (fun b => hexByte (hexDigit (b / 16)) (hexDigit (b % 16)) = some b) _ (by decide +kernel) b

theorem hexValue_percent : hexValue PERCENT = none := by
  decide

theorem percentDecode_cons_of_ne {b : UInt8} (h : b ≠ PERCENT) (rest : Bytes)
    : percentDecode (b :: rest) = b :: percentDecode rest := by
  match rest with
  | [] => rfl
  | [_] => rfl
  | _ :: _ :: _ => rw [percentDecode, if_neg h]

theorem percentDecode_percent (b : UInt8) (rest : Bytes) : percentDecode (percent b ++ rest) = b :: percentDecode rest := by
  unfold percent
  rw [List.cons_append, List.cons_append, List.cons_append, List.nil_append, percentDecode, if_pos rfl, hexByte_percent]

/--
The byte that the first two digits of a text stand for.
-/
def hexPrefix : Bytes → Option UInt8
  | high :: low :: _ => hexByte high low
  | _ => none

theorem percentDecode_of_hexPrefix_eq_none {rest : Bytes} (h : hexPrefix rest = none)
    : percentDecode (PERCENT :: rest) = PERCENT :: percentDecode rest := by
  match rest with
  | [] => rfl
  | [_] => rfl
  | high :: low :: rest =>
    change hexByte high low = none at h
    rw [percentDecode, if_pos rfl, h]

theorem hexPrefix_cons_of_none {b : UInt8} (h : hexValue b = none) (rest : Bytes) : hexPrefix (b :: rest) = none := by
  cases rest with
  | nil => rfl
  | cons low rest =>
    change hexByte b low = none
    unfold hexByte
    rw [h]
    rfl

/-! Escaping some of the bytes -/

def escape (set : UInt8 → Bool) (b : UInt8) : Bytes :=
  if set b then percent b else [b]

/--
A byte, and whether it is percent-encoded.
-/
def mark (entry : Bool × UInt8) : Bytes :=
  if entry.1 then percent entry.2 else [entry.2]

/--
Neither a digit nor `%`, so that no percent-encoded byte begins or ends with it.
-/
def IsLoose (b : UInt8) : Prop :=
  hexValue b = none ∧ b ≠ PERCENT

theorem hexPrefix_mark (entries : List (Bool × UInt8)) (h : ∀ entry ∈ entries, entry.1 → IsLoose entry.2)
    : hexPrefix (entries.flatMap mark) = hexPrefix (entries.map (·.2)) := by
  match entries with
  | [] => rfl
  | (true, high) :: rest =>
    have hhigh := h (true, high) List.mem_cons_self rfl
    rw [List.map_cons, hexPrefix_cons_of_none hhigh.1]
    exact hexPrefix_cons_of_none hexValue_percent _
  | [(false, high)] => rfl
  | (false, high) :: (true, low) :: rest =>
    have hlow := h (true, low) (List.mem_cons_of_mem _ List.mem_cons_self) rfl
    change hexByte high PERCENT = hexByte high low
    unfold hexByte
    rw [hexValue_percent, hlow.1]
  | (false, high) :: (false, low) :: rest => rfl

theorem isSome_of_hexByte {high low decoded : UInt8} (h : hexByte high low = some decoded)
    : hexValue high ≠ none ∧ hexValue low ≠ none := by
  unfold hexByte at h
  rw [Option.bind_eq_some_iff] at h
  rcases h with ⟨value, hhigh, hlow⟩
  rw [Option.map_eq_some_iff] at hlow
  rcases hlow with ⟨value', hlow, -⟩
  rw [hhigh, hlow]
  exact ⟨Option.some_ne_none _, Option.some_ne_none _⟩

theorem percentDecode_mark_cons {entry : Bool × UInt8} {entries : List (Bool × UInt8)}
    (h : ∀ entry ∈ entries, entry.1 → IsLoose entry.2)
    (hplain : entry.2 ≠ PERCENT ∨ hexPrefix (entries.map (·.2)) = none)
    (ih : percentDecode (entries.flatMap mark) = percentDecode (entries.map (·.2)))
    : percentDecode ((entry :: entries).flatMap mark) = percentDecode ((entry :: entries).map (·.2)) := by
  have hright : percentDecode ((entry :: entries).map (·.2)) = entry.2 :: percentDecode (entries.map (·.2)) := by
    rw [List.map_cons]
    by_cases hpercent : entry.2 = PERCENT
    . rw [hpercent]
      exact percentDecode_of_hexPrefix_eq_none (hplain.resolve_left (not_not.mpr hpercent))
    . exact percentDecode_cons_of_ne hpercent _
  rw [hright, List.flatMap_cons, ← ih]
  rcases entry with ⟨escaped, b⟩
  cases escaped with
  | true => exact percentDecode_percent b _
  | false =>
    by_cases hpercent : b = PERCENT
    . subst hpercent
      have hnone := hplain.resolve_left (not_not.mpr rfl)
      rw [← hexPrefix_mark _ h] at hnone
      exact percentDecode_of_hexPrefix_eq_none hnone
    . exact percentDecode_cons_of_ne hpercent _

/--
Percent-encoding some of the bytes does not change what the text stands for.
-/
theorem percentDecode_mark (entries : List (Bool × UInt8)) (h : ∀ entry ∈ entries, entry.1 → IsLoose entry.2)
    : percentDecode (entries.flatMap mark) = percentDecode (entries.map (·.2)) := by
  match entries with
  | [] => rfl
  | entry :: entries =>
    have hrest : ∀ entry ∈ entries, entry.1 → IsLoose entry.2 := fun entry hentry =>
      h entry (List.mem_cons_of_mem _ hentry)
    by_cases hplain : entry.2 ≠ PERCENT ∨ hexPrefix (entries.map (·.2)) = none
    . exact percentDecode_mark_cons hrest hplain (percentDecode_mark entries hrest)
    . push Not at hplain
      match entries with
      | [] => exact absurd rfl hplain.2
      | [_] => exact absurd rfl hplain.2
      | high :: low :: rest =>
        have hrest' : ∀ entry ∈ rest, entry.1 → IsLoose entry.2 := fun entry hentry =>
          hrest entry (List.mem_cons_of_mem _ (List.mem_cons_of_mem _ hentry))
        have ih := percentDecode_mark rest hrest'
        rcases Option.ne_none_iff_exists'.mp hplain.2 with ⟨decoded, hdecoded⟩
        change hexByte high.2 low.2 = some decoded at hdecoded
        have hdigits := isSome_of_hexByte hdecoded
        -- Neither the `%` nor a digit is encoded.
        have hunmarked : ∀ other ∈ entry :: high :: low :: rest, ¬IsLoose other.2 → mark other = [other.2] := by
          intro other hother htight
          exact if_neg fun hescaped => htight (h other hother hescaped)
        rw [List.flatMap_cons, List.flatMap_cons, List.flatMap_cons,
          hunmarked entry List.mem_cons_self (fun hloose => hloose.2 hplain.1),
          hunmarked high (List.mem_cons_of_mem _ List.mem_cons_self) (fun hloose => hdigits.1 hloose.1),
          hunmarked low (List.mem_cons_of_mem _ (List.mem_cons_of_mem _ List.mem_cons_self))
            (fun hloose => hdigits.2 hloose.1), hplain.1]
        change percentDecode (PERCENT :: high.2 :: low.2 :: rest.flatMap mark)
          = percentDecode (entry.2 :: high.2 :: low.2 :: rest.map (·.2))
        rw [hplain.1, percentDecode, if_pos rfl, hdecoded, percentDecode, if_pos rfl, hdecoded]
        dsimp only
        rw [ih]
termination_by entries.length

/-! Pairs -/

def plusToSpace (b : UInt8) : UInt8 :=
  if b = PLUS then SPACE else b

def decodeComponent (component : Bytes) : Bytes :=
  percentDecode (component.map plusToSpace)

/--
The text before the first separator, and the text after it.
-/
def splitFirst (separator : UInt8) : Bytes → Bytes × Bytes
  | [] => ([], [])
  | b :: rest =>
    if b = separator then
      ([], rest)
    else
      let (before, after) := splitFirst separator rest
      (b :: before, after)

def parsePair (sequence : Bytes) : Bytes × Bytes :=
  let (name, value) := splitFirst EQUALS sequence
  (decodeComponent name, decodeComponent value)

def parsePairs (text : Bytes) : List (Bytes × Bytes) :=
  ((text.splitOn AMPERSAND).filter (· ≠ [])).map parsePair

/--
Letters, digits and `*-._` stand for themselves, a space is a `+`.
-/
def isUnreserved (b : UInt8) : Bool :=
  (0x30 ≤ b && b ≤ 0x39) || (0x41 ≤ b && b ≤ 0x5A) || (0x61 ≤ b && b ≤ 0x7A)
    || b == 0x2A || b == 0x2D || b == 0x2E || b == 0x5F

def serializeByte (b : UInt8) : Bytes :=
  if b = SPACE then [PLUS] else escape (fun b => !isUnreserved b) b

def serializePair (pair : Bytes × Bytes) : Bytes :=
  pair.1.flatMap serializeByte ++ EQUALS :: pair.2.flatMap serializeByte

def serializePairs (pairs : List (Bytes × Bytes)) : Bytes :=
  [AMPERSAND].intercalate (pairs.map serializePair)

theorem serializePairs_cons (pair : Bytes × Bytes) (pairs : List (Bytes × Bytes))
    : serializePairs (pair :: pairs) = serializePair pair ++ pairs.flatMap fun pair => AMPERSAND :: serializePair pair := by
  unfold serializePairs
  induction pairs generalizing pair with
  | nil => rw [List.map_singleton, List.intercalate_singleton, List.flatMap_nil, List.append_nil]
  | cons next pairs ih =>
    rw [List.map_cons, List.intercalate_cons_of_ne_nil (by simp), ih next, List.flatMap_cons, List.append_assoc]
    rfl

/-! Reading what was written -/

theorem percent_ne (b : UInt8)
    : ∀ b' ∈ percent b, b' ≠ AMPERSAND ∧ b' ≠ EQUALS ∧ b' ≠ PLUS ∧ plusToSpace b' = b' := by
  have hall : (percent b).all (fun b' => b' ≠ AMPERSAND ∧ b' ≠ EQUALS ∧ b' ≠ PLUS ∧ plusToSpace b' = b') = true :=
    @forall_byte (fun b => (percent b).all
      (fun b' => b' ≠ AMPERSAND ∧ b' ≠ EQUALS ∧ b' ≠ PLUS ∧ plusToSpace b' = b') = true) _ (by decide +kernel) b
  intro b' hb'
  simpa using List.all_eq_true.mp hall b' hb'

theorem isUnreserved_ne {b : UInt8} (h : isUnreserved b)
    : b ≠ AMPERSAND ∧ b ≠ EQUALS ∧ b ≠ PERCENT ∧ plusToSpace b = b :=
  @forall_byte (fun b => isUnreserved b → b ≠ AMPERSAND ∧ b ≠ EQUALS ∧ b ≠ PERCENT ∧ plusToSpace b = b) _
    (by decide +kernel) b h

theorem decodeComponent_cons_serializeByte (b : UInt8) (rest : Bytes)
    : decodeComponent (serializeByte b ++ rest) = b :: decodeComponent rest := by
  unfold decodeComponent
  rw [List.map_append]
  unfold serializeByte escape
  split
  . next hspace =>
    rw [hspace]
    exact percentDecode_cons_of_ne (by decide) _
  . split
    . have hself : (percent b).map plusToSpace = percent b :=
        (List.map_congr_left fun b' hb' => (percent_ne b b' hb').2.2.2).trans (List.map_id _)
      rw [hself, percentDecode_percent]
    . next hreserved =>
      rw [Bool.not_eq_true', Bool.not_eq_false] at hreserved
      have hne := isUnreserved_ne hreserved
      rw [List.map_singleton, hne.2.2.2, List.singleton_append, percentDecode_cons_of_ne hne.2.2.1]

theorem decodeComponent_serialize (component : Bytes) : decodeComponent (component.flatMap serializeByte) = component := by
  induction component with
  | nil => rfl
  | cons b component ih => rw [List.flatMap_cons, decodeComponent_cons_serializeByte, ih]

theorem serialize_ne (component : Bytes) : ∀ b ∈ component.flatMap serializeByte, b ≠ AMPERSAND ∧ b ≠ EQUALS := by
  intro b' hb'
  rw [List.mem_flatMap] at hb'
  rcases hb' with ⟨b, -, hb'⟩
  unfold serializeByte escape at hb'
  split at hb'
  . rw [List.mem_singleton] at hb'
    subst hb'
    decide
  . split at hb'
    . have hne := percent_ne b b' hb'
      exact ⟨hne.1, hne.2.1⟩
    . next hreserved =>
      rw [Bool.not_eq_true', Bool.not_eq_false] at hreserved
      rw [List.mem_singleton] at hb'
      have hne := isUnreserved_ne hreserved
      rw [hb']
      exact ⟨hne.1, hne.2.1⟩

theorem splitFirst_append {separator : UInt8} {before : Bytes} (h : ∀ b ∈ before, b ≠ separator) (after : Bytes)
    : splitFirst separator (before ++ separator :: after) = (before, after) := by
  induction before with
  | nil =>
    rw [List.nil_append]
    exact if_pos rfl
  | cons b before ih =>
    rw [List.cons_append]
    unfold splitFirst
    rw [if_neg (h b List.mem_cons_self), ih fun b' hb' => h b' (List.mem_cons_of_mem _ hb')]

theorem parsePair_serializePair (pair : Bytes × Bytes) : parsePair (serializePair pair) = pair := by
  unfold parsePair serializePair
  rw [splitFirst_append fun b hb => (serialize_ne pair.1 b hb).2]
  dsimp only
  rw [decodeComponent_serialize, decodeComponent_serialize]

theorem serializePair_ne_nil (pair : Bytes × Bytes) : serializePair pair ≠ [] := by
  unfold serializePair
  simp

theorem ampersand_not_mem_serializePair (pair : Bytes × Bytes) : AMPERSAND ∉ serializePair pair := by
  unfold serializePair
  rw [List.mem_append, List.mem_cons]
  rintro (hmem | heq | hmem)
  . exact (serialize_ne pair.1 _ hmem).1 rfl
  . exact absurd heq (by decide)
  . exact (serialize_ne pair.2 _ hmem).1 rfl

theorem parsePairs_serializePairs (pairs : List (Bytes × Bytes)) : parsePairs (serializePairs pairs) = pairs := by
  unfold parsePairs serializePairs
  cases pairs with
  | nil => rfl
  | cons pair pairs =>
    have hsplit : ([AMPERSAND].intercalate ((pair :: pairs).map serializePair)).splitOn AMPERSAND
        = (pair :: pairs).map serializePair := by
      apply List.splitOn_intercalate
      . intro sequence hsequence
        rw [List.mem_map] at hsequence
        rcases hsequence with ⟨pair, -, rfl⟩
        exact ampersand_not_mem_serializePair pair
      . simp
    have hall : ((pair :: pairs).map serializePair).filter (· ≠ []) = (pair :: pairs).map serializePair := by
      rw [List.filter_eq_self]
      intro sequence hsequence
      rw [List.mem_map] at hsequence
      rcases hsequence with ⟨pair, -, rfl⟩
      simpa using serializePair_ne_nil pair
    rw [hsplit, hall, List.map_map]
    apply List.map_id''
    exact parsePair_serializePair

/--
A pair can be written behind any text.
-/
theorem parsePairs_append_serializePair (text : Bytes) (pair : Bytes × Bytes)
    : parsePairs (text ++ AMPERSAND :: serializePair pair) = parsePairs text ++ [pair] := by
  unfold parsePairs
  rw [List.splitOn_append_cons_self, List.splitOn_eq_singleton (ampersand_not_mem_serializePair pair),
    List.filter_append, List.map_append, List.filter_cons_of_pos (by simpa using serializePair_ne_nil pair),
    List.filter_nil, List.map_singleton, parsePair_serializePair]

/-! Reading what was escaped -/

/--
What a set of bytes to escape leaves alone.
-/
structure Spares (set : UInt8 → Bool) : Prop where
  loose : ∀ b, set b → IsLoose b
  separators : set AMPERSAND = false ∧ set EQUALS = false ∧ set PLUS = false

variable {set : UInt8 → Bool}

theorem decodeComponent_escape (h : Spares set) (component : Bytes)
    : decodeComponent (component.flatMap (escape set)) = decodeComponent component := by
  have hmarked : (component.flatMap (escape set)).map plusToSpace
      = (component.map fun b => (set b, plusToSpace b)).flatMap mark := by
    rw [List.map_flatMap, List.flatMap_map]
    apply List.flatMap_congr
    intro b _
    unfold escape mark
    by_cases hset : set b
    . have hne : b ≠ PLUS := by
        rintro rfl
        rw [h.separators.2.2] at hset
        contradiction
      have hself : plusToSpace b = b := if_neg hne
      rw [if_pos hset, if_pos hset, hself]
      exact (List.map_congr_left fun b' hb' => (percent_ne b b' hb').2.2.2).trans (List.map_id _)
    . rw [if_neg hset, if_neg hset, List.map_singleton]
  unfold decodeComponent
  rw [hmarked, percentDecode_mark, List.map_map]
  . rfl
  . intro entry hentry hescaped
    rw [List.mem_map] at hentry
    rcases hentry with ⟨b, -, rfl⟩
    have hne : b ≠ PLUS := by
      rintro rfl
      rw [h.separators.2.2] at hescaped
      contradiction
    have hself : plusToSpace b = b := if_neg hne
    dsimp only
    rw [hself]
    exact h.loose b hescaped

theorem escape_of_separator {separator : UInt8} (hseparator : set separator = false) : escape set separator = [separator] :=
  if_neg (by rw [hseparator]; exact Bool.false_ne_true)

/--
Escaping a byte other than the separator brings none.
-/
theorem not_mem_escape {separator b : UInt8} (hpercent : ∀ b, separator ∉ percent b) (hne : b ≠ separator)
    : separator ∉ escape set b := by
  unfold escape
  split
  . exact hpercent b
  . rw [List.mem_singleton]
    exact Ne.symm hne

theorem splitFirst_before {separator : UInt8} {before : Bytes} (h : separator ∉ before) (rest : Bytes)
    : splitFirst separator (before ++ rest) = (before ++ (splitFirst separator rest).1, (splitFirst separator rest).2) := by
  induction before with
  | nil => rfl
  | cons b before ih =>
    rw [List.mem_cons, not_or] at h
    rw [List.cons_append, splitFirst, if_neg (Ne.symm h.1), ih h.2]
    rfl

theorem splitFirst_escape {separator : UInt8} (hseparator : set separator = false)
    (hpercent : ∀ b, separator ∉ percent b) (bytes : Bytes)
    : splitFirst separator (bytes.flatMap (escape set))
        = ((splitFirst separator bytes).1.flatMap (escape set), (splitFirst separator bytes).2.flatMap (escape set)) := by
  induction bytes with
  | nil => rfl
  | cons b bytes ih =>
    rw [List.flatMap_cons, splitFirst.eq_def separator (b :: bytes)]
    dsimp only
    by_cases heq : b = separator
    . rw [if_pos heq, heq, escape_of_separator hseparator, List.singleton_append, splitFirst, if_pos rfl]
      rfl
    . rw [if_neg heq, splitFirst_before (not_mem_escape hpercent heq), ih]
      rfl

theorem splitOn_before {separator : UInt8} {before : Bytes} (h : separator ∉ before) (rest : Bytes)
    : (before ++ rest).splitOn separator = (rest.splitOn separator).modifyHead (before ++ ·) := by
  induction before with
  | nil => exact (congrFun List.modifyHead_id _).symm
  | cons b before ih =>
    rw [List.mem_cons, not_or] at h
    rw [List.cons_append, List.splitOn_cons_eq_if_modifyHead, if_neg (by simpa using Ne.symm h.1), ih h.2,
      List.modifyHead_modifyHead]
    rfl

theorem splitOn_escape {separator : UInt8} (hseparator : set separator = false)
    (hpercent : ∀ b, separator ∉ percent b) (bytes : Bytes)
    : (bytes.flatMap (escape set)).splitOn separator = (bytes.splitOn separator).map (·.flatMap (escape set)) := by
  induction bytes with
  | nil => rfl
  | cons b bytes ih =>
    rw [List.flatMap_cons, List.splitOn_cons_eq_if_modifyHead]
    by_cases heq : b = separator
    . rw [heq, escape_of_separator hseparator, List.singleton_append, List.splitOn_cons_eq_if_modifyHead,
        if_pos (beq_self_eq_true separator), if_pos (beq_self_eq_true separator), ih]
      rfl
    . rw [splitOn_before (not_mem_escape hpercent heq), ih, if_neg (by simpa using heq)]
      cases bytes.splitOn separator with
      | nil => rfl
      | cons first rest => simp

theorem flatMap_escape_ne_nil (sequence : Bytes) : sequence.flatMap (escape set) ≠ [] ↔ sequence ≠ [] := by
  cases sequence with
  | nil => simp
  | cons b sequence =>
    unfold escape percent
    rw [List.flatMap_cons]
    split <;> simp

theorem parsePair_escape (h : Spares set) (sequence : Bytes)
    : parsePair (sequence.flatMap (escape set)) = parsePair sequence := by
  unfold parsePair
  rw [splitFirst_escape h.separators.2.1 fun b hmem => (percent_ne b _ hmem).2.1 rfl]
  dsimp only
  rw [decodeComponent_escape h, decodeComponent_escape h]

/--
The pairs of a text do not change when some of its bytes are escaped.
-/
theorem parsePairs_escape (h : Spares set) (text : Bytes) : parsePairs (text.flatMap (escape set)) = parsePairs text := by
  unfold parsePairs
  rw [splitOn_escape h.separators.1 fun b hmem => (percent_ne b _ hmem).1 rfl, List.filter_map, List.map_map]
  have hfilter : ∀ sequence : Bytes, ((fun sequence => decide (sequence ≠ [])) ∘ fun sequence : Bytes => sequence.flatMap (escape set)) sequence
      = decide (sequence ≠ []) := fun sequence => decide_eq_decide.mpr (flatMap_escape_ne_nil sequence)
  rw [List.filter_congr fun sequence _ => hfilter sequence]
  apply List.map_congr_left
  intro sequence _
  exact parsePair_escape h sequence

end Form
