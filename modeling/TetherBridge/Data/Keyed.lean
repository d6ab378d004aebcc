import TetherBridge.Data.Recent

/-!
This module contains maps from keys to values that have their key: what is found in such a map after its keys
were written, and what the list of its values contains.
-/

namespace List

variable {κ : Type u} {β : Type v} {key : β → κ}

/--
Keys occur once, and each value is stored under its key.
-/
structure Keyed (key : β → κ) (entries : List (κ × β)) : Prop where
  nodup : (entries.map (·.1)).Nodup
  stored : ∀ entry ∈ entries, key entry.2 = entry.1

theorem keyed_nil : Keyed key [] :=
  ⟨nodup_nil, by simp⟩

theorem Keyed.nodup_values {entries : List (κ × β)} (h : Keyed key entries)
    : ((entries.map (·.2)).map key).Nodup := by
  rw [map_map]
  have heq : entries.map (key ∘ (·.2)) = entries.map (·.1) := map_congr_left h.stored
  rw [heq]
  exact h.nodup

variable [DecidableEq κ]

/--
Where keys occur once, a key finds the one value that has it.
-/
theorem find?_key_eq_some_iff {values : List β} (hnodup : (values.map key).Nodup) {k : κ} {value : β}
    : values.find? (fun value => decide (key value = k)) = some value ↔ value ∈ values ∧ key value = k := by
  constructor
  . intro h
    have hkey := find?_some h
    exact ⟨mem_of_find?_eq_some h, of_decide_eq_true hkey⟩
  . rintro ⟨hmem, hkey⟩
    cases hfind : values.find? fun value => decide (key value = k) with
    | none =>
      rw [find?_eq_none] at hfind
      exact absurd (decide_eq_true hkey) (hfind value hmem)
    | some found =>
      have hfound := find?_some hfind
      rw [decide_eq_true_eq] at hfound
      rw [inj_on_of_nodup_map hnodup (mem_of_find?_eq_some hfind) hmem (hfound.trans hkey.symm)]

theorem map_assign_fst (k : κ) (value : β) (entries : List (κ × β))
    : (entries.assign k value).map (·.1)
        = if k ∈ entries.map (·.1) then entries.map (·.1) else entries.map (·.1) ++ [k] := by
  unfold assign
  have hany : (entries.any fun entry => entry.1 = k) = true ↔ k ∈ entries.map (·.1) := by
    rw [any_eq_true, mem_map]
    constructor
    . rintro ⟨entry, hentry, heq⟩
      exact ⟨entry, hentry, of_decide_eq_true heq⟩
    . rintro ⟨entry, hentry, heq⟩
      exact ⟨entry, hentry, decide_eq_true heq⟩
  split
  . next h =>
    rw [if_pos (hany.mp h), map_map]
    apply map_congr_left
    intro entry _
    dsimp only [Function.comp]
    split
    . next heq => exact heq.symm
    . rfl
  . next h =>
    rw [if_neg (fun hmem => h (hany.mpr hmem)), map_append, map_singleton]

theorem mem_assign {entries : List (κ × β)} {k : κ} {value : β} {entry : κ × β}
    (h : entry ∈ entries.assign k value)
    : entry = (k, value) ∨ entry ∈ entries := by
  unfold assign at h
  split at h
  . rw [mem_map] at h
    rcases h with ⟨old, hold, heq⟩
    split at heq
    . exact .inl heq.symm
    . exact .inr (heq ▸ hold)
  . rw [mem_append, mem_singleton] at h
    exact h.symm

theorem Keyed.assign {entries : List (κ × β)} (h : Keyed key entries) (value : β)
    : Keyed key (entries.assign (key value) value) where
  nodup := by
    rw [map_assign_fst]
    split
    . exact h.nodup
    . next hnew =>
      rw [nodup_append]
      refine ⟨h.nodup, nodup_singleton _, ?_⟩
      intro a ha b hb
      rw [mem_singleton] at hb
      rintro rfl
      exact hnew (hb ▸ ha)
  stored entry hentry := by
    rcases mem_assign hentry with rfl | hold
    . rfl
    . exact h.stored entry hold

theorem lookup_map_write [BEq κ] [LawfulBEq κ] (k : κ) (value : β) (entries : List (κ × β)) (other : κ)
    : (entries.map fun entry => if entry.1 = k then (k, value) else entry).lookup other
        = if other = k then (entries.lookup other).map fun _ => value else entries.lookup other := by
  induction entries with
  | nil => simp
  | cons entry entries ih =>
    rcases entry with ⟨name, stored⟩
    rw [map_cons, lookup_cons]
    by_cases hname : name = k
    . subst hname
      rw [if_pos rfl, lookup_cons]
      by_cases heq : other = name
      . subst heq
        simp
      . rw [beq_false_of_ne heq]
        exact ih
    . rw [if_neg hname, lookup_cons]
      by_cases heq : other = name
      . subst heq
        simp [hname]
      . rw [beq_false_of_ne heq]
        exact ih

theorem lookup_assign [BEq κ] [LawfulBEq κ] (k : κ) (value : β) (entries : List (κ × β)) (other : κ)
    : (entries.assign k value).lookup other = if other = k then some value else entries.lookup other := by
  unfold List.assign
  have hany : (entries.any fun entry => entry.1 = k) = (entries.lookup k).isSome := by
    induction entries with
    | nil => rfl
    | cons entry entries ih =>
      rw [any_cons, lookup_cons, ih]
      by_cases heq : entry.1 = k
      . simp [heq]
      . rw [decide_eq_false heq, beq_false_of_ne (Ne.symm heq), Bool.false_or]
  rw [hany]
  cases hlookup : entries.lookup k with
  | some old =>
    rw [Option.isSome_some, if_pos rfl, lookup_map_write]
    split
    . next heq => rw [heq, hlookup, Option.map_some]
    . rfl
  | none =>
    rw [Option.isSome_none, if_neg Bool.false_ne_true, lookup_append, lookup_cons, lookup_nil]
    by_cases heq : other = k
    . rw [if_pos heq, heq, hlookup, beq_self_eq_true]
      rfl
    . rw [if_neg heq, beq_false_of_ne heq, Option.or_none]

/--
The values of a map are found by their keys.
-/
theorem Keyed.find?_values [BEq κ] [LawfulBEq κ] {entries : List (κ × β)} (h : Keyed key entries) (k : κ)
    : (entries.map (·.2)).find? (fun value => decide (key value = k)) = entries.lookup k := by
  have hstored := h.stored
  clear h
  induction entries with
  | nil => rfl
  | cons entry entries ih =>
    rcases entry with ⟨name, value⟩
    have hname : key value = name := hstored _ mem_cons_self
    rw [map_cons, find?_cons, lookup_cons, hname]
    by_cases heq : k = name
    . rw [heq, beq_self_eq_true, decide_eq_true rfl]
    . rw [beq_false_of_ne heq, decide_eq_false (Ne.symm heq)]
      exact ih fun entry hentry => hstored entry (mem_cons_of_mem _ hentry)

/--
Where keys occur once, the map of an array is the array.
-/
theorem foldl_assign_of_nodup (key : β → κ) {values : List β} {entries : List (κ × β)}
    (hnodup : (entries.map (·.1) ++ values.map key).Nodup)
    : values.foldl (fun entries value => entries.assign (key value) value) entries
        = entries ++ values.map fun value => (key value, value) := by
  induction values generalizing entries with
  | nil => rw [foldl_nil, map_nil, append_nil]
  | cons value values ih =>
    rw [map_cons] at hnodup
    have hnew : key value ∉ entries.map (·.1) := by
      intro hmem
      exact (nodup_append.mp hnodup).2.2 _ hmem _ mem_cons_self rfl
    have hassign : entries.assign (key value) value = entries ++ [(key value, value)] := by
      unfold assign
      apply if_neg
      rw [any_eq_true]
      rintro ⟨entry, hentry, heq⟩
      exact hnew (mem_map.mpr ⟨entry, hentry, of_decide_eq_true heq⟩)
    rw [foldl_cons, hassign, ih, map_cons, append_assoc, singleton_append]
    rw [map_append, map_singleton, append_assoc, singleton_append]
    exact hnodup

end List
