import Mathlib.Data.List.Nodup
import TetherBridge.Data.Table

/-!
This module contains keyed values whose keys are also kept in the order of their age: what is left of them
when the oldest are dropped, and the compaction of a state until it fits a budget.
-/

/--
Values and the order in which their keys came, the oldest first.
-/
structure Aged (κ : Type u) (β : Type v) where
  values : Table κ β := ∅
  order : List κ := []

namespace Aged

variable {κ : Type u} {β : Type v} [DecidableEq κ]

def dropOldest : Nat → Aged κ β → Aged κ β
  | 0, aged => aged
  | _ + 1, ⟨values, []⟩ => ⟨values, []⟩
  | count + 1, ⟨values, oldest :: order⟩ => dropOldest count ⟨values.erase oldest, order⟩

/--
Drop the oldest key as long as there are more than `limit`.
-/
@[irreducible]
def trimTo (limit : Nat) (aged : Aged κ β) : Aged κ β :=
  aged.dropOldest (aged.order.length - limit)

/--
Keep only the values whose key is in the order.
-/
def retainListed (aged : Aged κ β) : Aged κ β :=
  { aged with values := Table.retain (· ∈ aged.order) aged.values }

/--
Take the keys without a value out of the order and append those that are not in it.
-/
def listMissing (le : κ → κ → Bool) (aged : Aged κ β) : Aged κ β :=
  let ordered := aged.order.filter (· ∈ aged.values)
  { aged with order := ordered ++ (aged.values.keys.filter (· ∉ ordered)).mergeSort le }

/--
Write a value; a key that is new becomes the youngest.
-/
def put (key : κ) (value : β) (aged : Aged κ β) : Aged κ β where
  values := aged.values.insert key value
  order := if key ∈ aged.values then aged.order else aged.order ++ [key]

def forget (key : κ) (aged : Aged κ β) : Aged κ β where
  values := aged.values.erase key
  order := aged.order.filter (· ≠ key)

/--
The order has every key that has a value exactly once, and no other.
-/
structure WellOrdered (aged : Aged κ β) : Prop where
  nodup : aged.order.Nodup
  mem_iff : ∀ key, key ∈ aged.order ↔ key ∈ aged.values

/--
Each key of the order has a value and is there once. There may be values whose key is not in the order.
-/
structure Listed (aged : Aged κ β) : Prop where
  nodup : aged.order.Nodup
  valued : ∀ key ∈ aged.order, key ∈ aged.values

/--
What is left when some of the oldest keys are dropped with their values.
-/
structure Rest (rest aged : Aged κ β) : Prop where
  order : rest.order <:+ aged.order
  lookup : ∀ key, rest.values.lookup key = if key ∈ rest.order then aged.values.lookup key else none

variable {aged : Aged κ β}

omit [DecidableEq κ] in
theorem WellOrdered.listed (h : aged.WellOrdered) : aged.Listed where
  nodup := h.nodup
  valued key hkey := (h.mem_iff key).mp hkey

theorem WellOrdered.lookup (h : aged.WellOrdered) (key : κ)
    : aged.values.lookup key = if key ∈ aged.order then aged.values.lookup key else none := by
  split
  . rfl
  . next hkey => rwa [AList.lookup_eq_none, ← h.mem_iff]

omit [DecidableEq κ] in
theorem WellOrdered.length_eq (h : aged.WellOrdered) : aged.order.length = aged.values.size := by
  refine (List.Perm.length_eq ?_)
  rw [List.perm_ext_iff_of_nodup h.nodup aged.values.keys_nodup]
  exact h.mem_iff

/-! What is left -/

theorem WellOrdered.rest (h : aged.WellOrdered) : Rest aged aged where
  order := List.suffix_rfl
  lookup := h.lookup

theorem Rest.trans {rest between : Aged κ β} (h : Rest rest between) (h' : Rest between aged) : Rest rest aged where
  order := h.order.trans h'.order
  lookup key := by
    rw [h.lookup, h'.lookup]
    split
    . next hkey => rw [if_pos (h.order.subset hkey)]
    . rfl

theorem Rest.wellOrdered {rest : Aged κ β} (h : Rest rest aged) (haged : aged.Listed) : rest.WellOrdered where
  nodup := haged.nodup.sublist h.order.sublist
  mem_iff key := by
    rw [← AList.lookup_isSome, h.lookup]
    split
    . next hkey => simpa [hkey] using AList.lookup_isSome.mpr (haged.valued key (h.order.subset hkey))
    . next hkey => simp [hkey]

theorem order_dropOldest (count : Nat) (aged : Aged κ β)
    : (aged.dropOldest count).order = aged.order.drop count := by
  induction count generalizing aged with
  | zero => rfl
  | succ count ih =>
    rcases aged with ⟨values, _ | ⟨oldest, order⟩⟩
    . rfl
    . exact ih ⟨values.erase oldest, order⟩

theorem lookup_dropOldest (count : Nat) (aged : Aged κ β) (key : κ)
    : (aged.dropOldest count).values.lookup key
        =
      if key ∈ aged.order.take count then none else aged.values.lookup key := by
  induction count generalizing aged with
  | zero => simp [dropOldest]
  | succ count ih =>
    rcases aged with ⟨values, _ | ⟨oldest, order⟩⟩
    . rfl
    . unfold dropOldest
      rw [ih, List.take_succ_cons]
      by_cases hkey : key = oldest
      . subst hkey
        rw [if_pos List.mem_cons_self, AList.lookup_erase, ite_self]
      . rw [AList.lookup_erase_ne hkey]
        simp [hkey]

theorem WellOrdered.dropOldest (h : aged.WellOrdered) (count : Nat) : Rest (aged.dropOldest count) aged where
  order := by
    rw [order_dropOldest]
    exact List.drop_suffix count aged.order
  lookup key := by
    rw [lookup_dropOldest, order_dropOldest, h.lookup key]
    have hsplit : key ∈ aged.order ↔ key ∈ aged.order.take count ∨ key ∈ aged.order.drop count := by
      rw [← List.mem_append, List.take_append_drop]
    have hdisjoint := (List.nodup_append'.mp ((List.take_append_drop count aged.order).symm ▸ h.nodup)).2.2
    by_cases htake : key ∈ aged.order.take count
    . rw [if_pos htake, if_neg (hdisjoint htake)]
    . by_cases hdrop : key ∈ aged.order.drop count
      . simp [htake, hdrop]
      . simp [htake, hdrop, hsplit]

theorem Listed.dropOldest (h : aged.Listed) (count : Nat) : (aged.dropOldest count).Listed where
  nodup := by
    rw [order_dropOldest]
    exact h.nodup.sublist (List.drop_sublist count aged.order)
  valued key hkey := by
    rw [order_dropOldest] at hkey
    have hdisjoint := (List.nodup_append'.mp ((List.take_append_drop count aged.order).symm ▸ h.nodup)).2.2
    rw [← AList.lookup_isSome, lookup_dropOldest, if_neg (fun htake => hdisjoint htake hkey), AList.lookup_isSome]
    exact h.valued key (List.mem_of_mem_drop hkey)

theorem length_trimTo_le (limit : Nat) (aged : Aged κ β) : (aged.trimTo limit).order.length ≤ limit := by
  unfold trimTo
  rw [order_dropOldest, List.length_drop]
  omega

theorem WellOrdered.trimTo (h : aged.WellOrdered) (limit : Nat) : Rest (aged.trimTo limit) aged := by
  unfold Aged.trimTo
  exact h.dropOldest _

theorem Listed.trimTo (h : aged.Listed) (limit : Nat) : (aged.trimTo limit).Listed := by
  unfold Aged.trimTo
  exact h.dropOldest _

theorem trimTo_of_le {limit : Nat} (h : aged.order.length ≤ limit) : aged.trimTo limit = aged := by
  unfold Aged.trimTo
  rw [Nat.sub_eq_zero_of_le h]
  rfl

/-! Writing and forgetting -/

theorem WellOrdered.put (h : aged.WellOrdered) (key : κ) (value : β) : (aged.put key value).WellOrdered := by
  unfold Aged.put
  split
  . next hkey =>
    refine ⟨h.nodup, fun other => ?_⟩
    rw [AList.mem_insert, h.mem_iff]
    exact ⟨.inr, fun hor => hor.elim (fun heq => heq ▸ hkey) id⟩
  . next hkey =>
    refine ⟨?_, fun other => ?_⟩
    . rw [← h.mem_iff] at hkey
      exact List.nodup_append'.mpr ⟨h.nodup, List.nodup_singleton key, by simpa using hkey⟩
    . rw [AList.mem_insert, List.mem_append, List.mem_singleton, h.mem_iff, or_comm]

theorem Listed.put (h : aged.Listed) (key : κ) (value : β) : (aged.put key value).Listed := by
  unfold Aged.put
  split
  . refine ⟨h.nodup, fun other hother => ?_⟩
    exact (AList.mem_insert aged.values).mpr (.inr (h.valued other hother))
  . next hkey =>
    refine ⟨?_, fun other hother => ?_⟩
    . refine List.nodup_append'.mpr ⟨h.nodup, List.nodup_singleton key, ?_⟩
      intro other hother hsame
      rw [List.mem_singleton] at hsame
      exact hkey (hsame ▸ h.valued other hother)
    . rw [AList.mem_insert]
      rw [List.mem_append, List.mem_singleton] at hother
      exact hother.symm.imp_right (h.valued other)

theorem WellOrdered.forget (h : aged.WellOrdered) (key : κ) : (aged.forget key).WellOrdered where
  nodup := h.nodup.filter _
  mem_iff other := by
    unfold Aged.forget
    simp [h.mem_iff, AList.mem_erase, and_comm]

theorem Listed.forget (h : aged.Listed) (key : κ) : (aged.forget key).Listed where
  nodup := h.nodup.filter _
  valued other hother := by
    unfold Aged.forget at *
    rw [List.mem_filter] at hother
    rw [AList.mem_erase]
    exact ⟨by simpa using hother.2, h.valued other hother.1⟩

theorem wellOrdered_listMissing (le : κ → κ → Bool) (h : aged.order.Nodup) : (aged.listMissing le).WellOrdered := by
  unfold listMissing
  refine ⟨?_, fun key => ?_⟩
  . refine List.nodup_append'.mpr ⟨h.filter _, ?_, ?_⟩
    . exact (List.mergeSort_perm _ le).nodup_iff.mpr (aged.values.keys_nodup.filter _)
    . intro key hkey hmissing
      rw [List.mem_mergeSort, List.mem_filter] at hmissing
      simp [hkey] at hmissing
  . by_cases hkey : key ∈ aged.order.filter (· ∈ aged.values)
    . simp only [List.mem_append, hkey, true_or, true_iff]
      simpa using (List.mem_filter.mp hkey).2
    . rw [List.mem_append, or_iff_right hkey, List.mem_mergeSort, List.mem_filter]
      simpa only [hkey, not_false_eq_true, decide_true, and_true] using AList.mem_keys.symm

theorem listMissing_of_wellOrdered (h : aged.WellOrdered) (le : κ → κ → Bool) : aged.listMissing le = aged := by
  have hordered : aged.order.filter (· ∈ aged.values) = aged.order := by
    apply List.filter_eq_self.mpr
    intro key hkey
    simpa using (h.mem_iff key).mp hkey
  have hmissing : aged.values.keys.filter (· ∉ aged.order) = [] := by
    apply List.filter_eq_nil_iff.mpr
    intro key hkey
    simpa using (h.mem_iff key).mpr (AList.mem_keys.mpr hkey)
  unfold listMissing
  dsimp only
  rw [hordered, hmissing, List.mergeSort_nil, List.append_nil]

theorem Rest.eq_of_nil {rest : Aged κ β} (h : rest.Rest aged) (hempty : rest.order = []) : rest = {} := by
  rcases rest with ⟨values, order⟩
  dsimp only at hempty
  subst hempty
  have hvalues : values = ∅ := by
    apply Table.eq_empty
    intro key
    simpa using h.lookup key
  rw [hvalues]

theorem lookup_retainListed (aged : Aged κ β) (key : κ)
    : aged.retainListed.values.lookup key = if key ∈ aged.order then aged.values.lookup key else none := by
  unfold retainListed
  rw [Table.lookup_retain]
  simp

theorem Listed.retainListed (h : aged.Listed) : aged.retainListed.WellOrdered where
  nodup := h.nodup
  mem_iff key := by
    rw [← AList.lookup_isSome, lookup_retainListed]
    split
    . next hkey => simpa [Aged.retainListed, hkey] using AList.lookup_isSome.mpr (h.valued key hkey)
    . next hkey => simp [Aged.retainListed, hkey]

theorem retainListed_of_wellOrdered (h : aged.WellOrdered) : aged.retainListed = aged := by
  have hvalues : Table.retain (· ∈ aged.order) aged.values = aged.values := by
    apply AList.ext
    apply List.filter_eq_self.mpr
    intro entry hentry
    have hkey : entry.1 ∈ aged.values := AList.mem_keys.mpr (List.mem_map_of_mem hentry)
    simpa using (h.mem_iff entry.1).mpr hkey
  unfold retainListed
  rw [hvalues]

end Aged

/--
A state of which entries can be dropped to make it smaller.
-/
structure Compaction (σ : Type u) where
  size : σ → Nat
  count : σ → Nat
  drop : Nat → σ → σ
  count_drop : ∀ batch s, 0 < batch → 0 < count s → count (drop batch s) < count s

namespace Compaction

/--
The entries that are dropped at once: their share of what is too much, but at least one. `cap` is the
largest machine integer.
-/
def batchSize (cap budget count size : Nat) : Nat :=
  max 1 ((min cap (count * (size - budget)) + size - 1) / size)

/--
Drop entries until what is left fits, `none` if it does not fit without any entry.
-/
def run (compaction : Compaction σ) (cap budget : Nat) (s : σ) : Option σ :=
  if compaction.size s ≤ budget then some s
  else if _h : compaction.count s = 0 then none
  else
    run compaction cap budget
      (compaction.drop (batchSize cap budget (compaction.count s) (compaction.size s)) s)
termination_by compaction.count s
decreasing_by exact compaction.count_drop _ s (Nat.le_max_left ..) (by omega)

variable {compaction : Compaction σ} {cap budget : Nat} {s : σ}

theorem run_of_le (h : compaction.size s ≤ budget) : compaction.run cap budget s = some s := by
  unfold run
  rw [if_pos h]

/--
What dropping entries preserves holds of what is left.
-/
theorem run_rule {P : σ → Prop}
    (hdrop : ∀ batch s, budget < compaction.size s → P s → P (compaction.drop batch s))
    (hempty : ∀ s, P s → compaction.count s = 0 → compaction.size s ≤ budget) (h : P s)
    : ∃ t, compaction.run cap budget s = some t ∧ P t ∧ compaction.size t ≤ budget := by
  induction hcount : compaction.count s using Nat.strongRecOn generalizing s with
  | ind count ih =>
    unfold run
    split
    . next hsize => exact ⟨s, rfl, h, hsize⟩
    . next hsize =>
      rw [dif_neg fun hzero => hsize (hempty s h hzero)]
      refine ih _ ?_ (hdrop _ s (by omega) h) rfl
      rw [← hcount]
      refine compaction.count_drop _ s (Nat.le_max_left ..) ?_
      have hne : compaction.count s ≠ 0 := fun hzero => hsize (hempty s h hzero)
      omega

end Compaction
