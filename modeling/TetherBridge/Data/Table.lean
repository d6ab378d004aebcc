import Mathlib.Data.List.AList
import TetherBridge.Data.Weigh

/-!
This module contains keyed tables and the total weight of their values, and how it moves when one key is
written or erased.
-/

abbrev Table (κ : Type u) (β : Type v) := AList fun _ : κ => β

namespace Table

variable {κ : Type u} {β : Type v}

def size (table : Table κ β) : Nat :=
  table.keys.length

/--
The entries whose key is kept.
-/
def retain (keep : κ → Bool) (table : Table κ β) : Table κ β where
  entries := table.entries.filter fun entry => keep entry.1
  nodupKeys := table.nodupKeys.sublist List.filter_sublist

def mapValues {γ : Type v} (f : κ → β → γ) (table : Table κ β) : Table κ γ where
  entries := table.entries.map fun entry => ⟨entry.1, f entry.1 entry.2⟩
  nodupKeys := by
    unfold List.NodupKeys List.keys
    rw [List.map_map]
    exact table.nodupKeys

/--
The total weight of the values.
-/
def total (w : β → Nat) (table : Table κ β) : Nat :=
  table.entries.weigh fun entry => w entry.2

@[simp]
theorem size_empty : (∅ : Table κ β).size = 0 := rfl

@[simp]
theorem total_empty (w : β → Nat) : (∅ : Table κ β).total w = 0 := rfl

variable [DecidableEq κ]

/--
The weight of the value at a key.
-/
def weightAt (w : β → Nat) (key : κ) (table : Table κ β) : Nat :=
  (table.lookup key).elim 0 w

variable {table : Table κ β}

theorem dlookup_filter (keep : κ → Bool) (key : κ) (entries : List (Sigma fun _ : κ => β))
    : (entries.filter fun entry => keep entry.1).dlookup key = if keep key then entries.dlookup key else none := by
  induction entries with
  | nil => simp
  | cons entry entries ih =>
    rcases entry with ⟨other, value⟩
    by_cases hkey : key = other
    . subst hkey
      cases hkeep : keep key with
      | true =>
        rw [List.filter_cons, if_pos hkeep, List.dlookup_cons_eq, List.dlookup_cons_eq, if_pos rfl]
      | false =>
        rw [List.filter_cons, if_neg (by simp [hkeep]), ih, hkeep]
        rfl
    . rw [List.dlookup_cons_ne _ _ hkey, ← ih, List.filter_cons]
      split
      . rw [List.dlookup_cons_ne _ _ hkey]
      . rfl

theorem lookup_retain (keep : κ → Bool) (key : κ) (table : Table κ β)
    : (Table.retain keep table).lookup key = if keep key then table.lookup key else none :=
  dlookup_filter keep key table.entries

theorem dlookup_map {γ : Type v} (f : κ → β → γ) (key : κ) (entries : List (Sigma fun _ : κ => β))
    : (entries.map fun entry => (⟨entry.1, f entry.1 entry.2⟩ : Sigma fun _ : κ => γ)).dlookup key
        =
      (entries.dlookup key).map (f key) := by
  induction entries with
  | nil => simp
  | cons entry entries ih =>
    rcases entry with ⟨other, value⟩
    rw [List.map_cons]
    by_cases hkey : key = other
    . subst hkey
      rw [List.dlookup_cons_eq, List.dlookup_cons_eq]
      rfl
    . rw [List.dlookup_cons_ne _ _ hkey, List.dlookup_cons_ne _ _ hkey, ih]

theorem lookup_mapValues {γ : Type v} (f : κ → β → γ) (key : κ) (table : Table κ β)
    : (Table.mapValues f table).lookup key = (table.lookup key).map (f key) :=
  dlookup_map f key table.entries

/--
A table in which no key has a value is empty.
-/
theorem eq_empty (h : ∀ key, table.lookup key = none) : table = ∅ := by
  apply AList.ext
  rw [AList.empty_entries]
  rcases hentries : table.entries with _ | ⟨entry, entries⟩
  . rfl
  . have hkey := AList.lookup_eq_none.mp (h entry.1)
    rw [AList.mem_keys] at hkey
    unfold AList.keys at hkey
    simp [hentries] at hkey

theorem size_erase (key : κ) (h : (table.lookup key).isSome)
    : size (table.erase key) + 1 = table.size := by
  rw [AList.lookup_isSome, AList.mem_keys] at h
  have hpos := List.length_pos_of_mem h
  unfold size
  rw [AList.keys_erase, List.length_erase_of_mem h]
  omega

theorem size_erase_le (key : κ) : size (table.erase key) ≤ table.size := by
  unfold size
  rw [AList.keys_erase]
  exact List.length_erase_le

theorem size_insert_of_some {key : κ} (h : (table.lookup key).isSome) (value : β)
    : size (table.insert key value) = table.size := by
  have herase := size_erase key h
  unfold size at herase ⊢
  rw [AList.keys_erase] at herase
  rw [AList.keys_insert, List.length_cons]
  exact herase

theorem size_insert_of_none {key : κ} (h : table.lookup key = none) (value : β)
    : size (table.insert key value) = table.size + 1 := by
  rw [AList.lookup_eq_none, AList.mem_keys] at h
  unfold size
  rw [AList.keys_insert, List.length_cons, List.erase_of_not_mem h]

theorem weigh_kerase (w : β → Nat) (key : κ) (entries : List (Sigma fun _ : κ => β))
    : (entries.kerase key).weigh (fun entry => w entry.2) + (entries.dlookup key).elim 0 w
        =
      entries.weigh fun entry => w entry.2 := by
  induction entries with
  | nil => rfl
  | cons entry entries ih =>
    rcases entry with ⟨other, value⟩
    by_cases hkey : key = other
    . subst hkey
      have hself : List.kerase key (⟨key, value⟩ :: entries) = entries := List.kerase_cons_eq rfl
      rw [hself, List.dlookup_cons_eq, List.weigh_cons, Option.elim_some]
      dsimp only
      omega
    . rw [List.kerase_cons_ne hkey, List.dlookup_cons_ne _ _ hkey, List.weigh_cons, List.weigh_cons]
      omega

theorem total_erase (w : β → Nat) (key : κ) (table : Table κ β)
    : total w (table.erase key) + table.weightAt w key = table.total w :=
  weigh_kerase w key table.entries

theorem total_insert (w : β → Nat) (key : κ) (value : β) (table : Table κ β)
    : total w (table.insert key value) + table.weightAt w key = table.total w + w value := by
  have herase := weigh_kerase w key table.entries
  have hinsert : total w (table.insert key value)
      = w value + (table.entries.kerase key).weigh fun entry => w entry.2 := by
    unfold total
    rw [AList.entries_insert, List.weigh_cons]
  unfold weightAt total at *
  unfold AList.lookup
  omega

end Table
