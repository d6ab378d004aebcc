import TetherBridge.Data.Keyed

/-!
This module contains lists whose elements have a key, together with a table of the index at which each key is found: what
keeps the table exact while the list is written.
-/

namespace List

variable {α : Type v} {κ : Type v} [DecidableEq κ] {key : α → κ}

/--
The table names the index of each key of the list, and nothing else.
-/
def Indexed (key : α → κ) (xs : List α) (entries : List (κ × Nat)) : Prop :=
  ∀ k i, entries.lookup k = some i ↔ (xs[i]?).map key = some k

/--
The table of a list, in which a later element hides an earlier one with its key.
-/
def indexTable (key : α → κ) (xs : List α) : List (κ × Nat) :=
  xs.zipIdx.foldl (fun entries entry => entries.assign (key entry.1) entry.2) []

variable {xs : List α} {entries : List (κ × Nat)} {x : α} {i : Nat}

theorem indexed_nil : Indexed key [] [] := by
  intro k i
  simp

theorem Indexed.nodup (h : Indexed key xs entries) : (xs.map key).Nodup := by
  rw [nodup_iff_getElem?_ne_getElem?]
  intro i j hij hj heq
  rw [length_map] at hj
  rw [getElem?_map, getElem?_map] at heq
  have hlt : i < xs.length := by omega
  rw [getElem?_eq_getElem hlt, getElem?_eq_getElem hj, Option.map_some, Option.map_some] at heq
  have hi := (h (key xs[i]) i).mpr (by rw [getElem?_eq_getElem hlt, Option.map_some])
  have hj := (h (key xs[i]) j).mpr (by rw [getElem?_eq_getElem hj, Option.map_some, heq])
  rw [hi] at hj
  injection hj with hsame
  omega

theorem Indexed.lookup_eq_none_iff (h : Indexed key xs entries) {k : κ}
    : entries.lookup k = none ↔ k ∉ xs.map key := by
  constructor
  . intro hnone hmem
    rw [mem_map] at hmem
    obtain ⟨y, hy, hkey⟩ := hmem
    obtain ⟨i, hi⟩ := mem_iff_getElem?.mp hy
    have hsome := (h k i).mpr (by rw [hi, Option.map_some, hkey])
    rw [hnone] at hsome
    contradiction
  . intro hnot
    cases hlookup : entries.lookup k with
    | none => rfl
    | some i =>
      have hkey := (h k i).mp hlookup
      rw [Option.map_eq_some_iff] at hkey
      obtain ⟨y, hy, hkey⟩ := hkey
      exact absurd (mem_map.mpr ⟨y, mem_of_getElem? hy, hkey⟩) hnot

/--
Searching the list finds what the table names.
-/
theorem Indexed.findIdx? (h : Indexed key xs entries) (k : κ)
    : xs.findIdx? (fun y => key y == k) = entries.lookup k := by
  cases hfind : xs.findIdx? fun y => key y == k with
  | none =>
    rw [findIdx?_eq_none_iff] at hfind
    symm
    rw [h.lookup_eq_none_iff, mem_map]
    rintro ⟨y, hy, hkey⟩
    have hne := hfind y hy
    rw [hkey, beq_self_eq_true] at hne
    contradiction
  | some i =>
    rw [findIdx?_eq_some_iff_getElem] at hfind
    obtain ⟨hi, hkey, -⟩ := hfind
    symm
    rw [h k i, getElem?_eq_getElem hi, Option.map_some, eq_of_beq hkey]

theorem Indexed.map (h : Indexed key xs entries) {f : α → α} (hf : ∀ y, key (f y) = key y)
    : Indexed key (xs.map f) entries := by
  intro k i
  have hkeys : (key ∘ f) = key := funext hf
  rw [h k i, getElem?_map, Option.map_map, hkeys]

theorem Indexed.set (h : Indexed key xs entries) (hkey : (xs[i]?).map key = some (key x))
    : Indexed key (xs.set i x) entries := by
  intro k j
  rw [h k j, getElem?_set]
  split
  . next heq =>
    subst heq
    split
    . rw [hkey, Option.map_some]
    . next hlt =>
      rw [getElem?_eq_none (Nat.le_of_not_lt hlt)] at hkey
      contradiction
  . rfl

theorem Indexed.append (h : Indexed key xs entries) (hnew : entries.lookup (key x) = none)
    : Indexed key (xs ++ [x]) (entries.assign (key x) xs.length) := by
  intro k i
  rw [lookup_assign, getElem?_append]
  split
  . next heq =>
    subst heq
    split
    . next hlt =>
      have hnot := h.lookup_eq_none_iff.mp hnew
      constructor
      . intro heq
        injection heq with heq
        omega
      . intro hkey
        rw [Option.map_eq_some_iff] at hkey
        obtain ⟨y, hy, hkey⟩ := hkey
        exact absurd (mem_map.mpr ⟨y, mem_of_getElem? hy, hkey⟩) hnot
    . next hge =>
      rw [Option.some_inj, getElem?_singleton]
      split
      . simp only [Option.map_some, iff_true]
        omega
      . simp only [Option.map_none, reduceCtorEq, iff_false]
        omega
  . next hne =>
    split
    . rw [h k i]
    . next hge =>
      rw [h k i, getElem?_eq_none (Nat.le_of_not_lt hge), getElem?_singleton]
      split
      . simp [Ne.symm hne]
      . rfl

/--
Writing the table again for a list without two elements of one key.
-/
theorem indexed_indexTable (hnodup : (xs.map key).Nodup) : Indexed key xs (indexTable key xs) := by
  have hfold : ∀ (seen rest : List α) (entries : List (κ × Nat)), ((seen ++ rest).map key).Nodup →
      Indexed key seen entries →
      Indexed key (seen ++ rest)
        ((rest.zipIdx seen.length).foldl (fun entries entry => entries.assign (key entry.1) entry.2) entries) := by
    intro seen rest
    induction rest generalizing seen with
    | nil =>
      intro entries _ h
      rw [append_nil]
      exact h
    | cons y rest ih =>
      intro entries hnodup h
      have hnew : entries.lookup (key y) = none := by
        rw [h.lookup_eq_none_iff]
        rw [map_append, map_cons, nodup_append] at hnodup
        intro hmem
        exact hnodup.2.2 _ hmem _ mem_cons_self rfl
      have hsplit : seen ++ y :: rest = (seen ++ [y]) ++ rest := by
        rw [append_assoc, singleton_append]
      have hrest := ih (seen ++ [y]) (entries.assign (key y) seen.length) (hsplit ▸ hnodup) (h.append hnew)
      rw [length_append, length_singleton] at hrest
      rw [hsplit, zipIdx_cons, foldl_cons]
      exact hrest
  exact hfold [] xs [] hnodup indexed_nil

end List
