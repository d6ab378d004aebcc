import TetherBridge.Data.Keyed
import TetherBridge.Data.Weigh

/-!
This module contains what happens to the weight of keyed entries when one is added, when some are taken out, and
when their order changes.
-/

namespace List

variable {α : Type u} {κ : Type u} {β : Type v}

theorem weigh_filter_add_weigh_filter_not {w : α → Nat} (p : α → Bool) (xs : List α)
    : weigh w (xs.filter p) + weigh w (xs.filter fun x => !p x) = weigh w xs := by
  induction xs with
  | nil => rfl
  | cons x xs ih =>
    rw [filter_cons, filter_cons, weigh_cons]
    cases p x with
    | true =>
      simp only [if_true, Bool.not_true, Bool.false_eq_true, if_false, weigh_cons]
      omega
    | false =>
      simp only [Bool.false_eq_true, if_false, Bool.not_false, if_true, weigh_cons]
      omega

theorem weigh_perm {w : α → Nat} {xs ys : List α} (h : xs.Perm ys)
    : weigh w xs = weigh w ys := by
  induction h with
  | nil => rfl
  | cons x _ ih => rw [weigh_cons, weigh_cons, ih]
  | swap x y xs =>
    simp only [weigh_cons]
    omega
  | trans _ _ ih ih' => exact ih.trans ih'

theorem weigh_map (w : β → Nat) (f : α → β) (xs : List α)
    : weigh w (xs.map f) = weigh (fun x => w (f x)) xs := by
  induction xs with
  | nil => rfl
  | cons x xs ih => rw [map_cons, weigh_cons, weigh_cons, ih]

/--
The elements at these indices.
-/
def pick (indices : List Nat) (xs : List α) : List α :=
  indices.filterMap fun index => xs[index]?

theorem filterMap_range (xs : List α)
    : (range xs.length).filterMap (fun index => xs[index]?) = xs := by
  induction xs with
  | nil => rfl
  | cons x xs ih =>
    rw [length_cons, range_succ_eq_map, filterMap_cons, getElem?_cons_zero]
    dsimp only
    rw [filterMap_map]
    congr 1

theorem perm_pick {indices : List Nat} {xs : List α} (h : indices.Perm (range xs.length))
    : (pick indices xs).Perm xs := by
  have hperm := h.filterMap fun index => xs[index]?
  rw [filterMap_range] at hperm
  exact hperm

/--
A list of different elements all of which are the same one has just that one.
-/
theorem eq_singleton_of_forall {p : α → Bool} {xs : List α} {x : α} (hnodup : xs.Nodup) (hmem : x ∈ xs.filter p)
    (h : ∀ y ∈ xs.filter p, y = x)
    : xs.filter p = [x] := by
  have hfilter : (xs.filter p).Nodup := hnodup.filter p
  cases hlist : xs.filter p with
  | nil =>
    rw [hlist] at hmem
    contradiction
  | cons y ys =>
    rw [hlist] at h hfilter
    have hy := h y mem_cons_self
    subst hy
    rw [nodup_cons] at hfilter
    cases ys with
    | nil => rfl
    | cons z zs =>
      have hz := h z (mem_cons_of_mem _ mem_cons_self)
      subst hz
      exact absurd mem_cons_self hfilter.1

/--
Values that are found at increasing indices of a list are in its order.
-/
theorem map_sublist_drop {index : α → Nat} {f : α → β} {ys : List β} {xs : List α} (start : Nat)
    (hsorted : xs.Pairwise fun a b => index a < index b) (hstart : ∀ x ∈ xs, start ≤ index x)
    (hfound : ∀ x ∈ xs, ys[index x]? = some (f x))
    : (xs.map f).Sublist (ys.drop start) := by
  induction xs generalizing start with
  | nil => exact nil_sublist _
  | cons x xs ih =>
    rw [pairwise_cons] at hsorted
    have hhead := hfound x mem_cons_self
    have hle := hstart x mem_cons_self
    have hrest := ih (index x + 1) hsorted.2 (fun y hy => hsorted.1 y hy)
      (fun y hy => hfound y (mem_cons_of_mem _ hy))
    have hdrop : ys.drop (index x) = f x :: ys.drop (index x + 1) := by
      obtain ⟨hlt, heq⟩ := getElem?_eq_some_iff.mp hhead
      rw [drop_eq_getElem_cons hlt, heq]
    rw [map_cons]
    have hcons : (f x :: xs.map f).Sublist (ys.drop (index x)) := hdrop ▸ hrest.cons_cons (f x)
    exact hcons.trans (drop_sublist_drop_left ys hle)

/--
Values that are numbered by their places in a list, and sorted by these numbers, are in the order of the list.
-/
theorem map_mergeSort_sublist {order : α → Nat} {f : α → β} {xs : List α} {ys : List β}
    (hnodup : (xs.map f).Nodup) (hplaced : ∀ x ∈ xs, 0 < order x ∧ ys[order x - 1]? = some (f x))
    : ((xs.mergeSort fun a b => order a ≤ order b).map f).Sublist ys := by
  have hperm := mergeSort_perm xs fun a b => decide (order a ≤ order b)
  have hsorted : (xs.mergeSort fun a b => decide (order a ≤ order b)).Pairwise
      fun a b => decide (order a ≤ order b) = true := pairwise_mergeSort
    (fun a b c hab hbc => by
      rw [decide_eq_true_eq] at *
      omega)
    (fun a b => by
      rw [Bool.or_eq_true, decide_eq_true_eq, decide_eq_true_eq]
      omega) xs
  have hnodup' : ((xs.mergeSort fun a b => order a ≤ order b).map f).Nodup := (hperm.map f).nodup_iff.mpr hnodup
  have hplaced' : ∀ x ∈ xs.mergeSort fun a b => decide (order a ≤ order b),
      0 < order x ∧ ys[order x - 1]? = some (f x) :=
    fun x hmem => hplaced x (hperm.subset hmem)
  have hstrict : (xs.mergeSort fun a b => order a ≤ order b).Pairwise fun a b => order a - 1 < order b - 1 := by
    rw [Nodup, pairwise_map] at hnodup'
    refine (hsorted.and hnodup').imp_of_mem ?_
    rintro a b ha hb ⟨hle, hne⟩
    rw [decide_eq_true_eq] at hle
    obtain ⟨hpos, hfound⟩ := hplaced' a ha
    obtain ⟨hpos', hfound'⟩ := hplaced' b hb
    apply Nat.lt_of_not_le
    intro hge
    have heq : order a - 1 = order b - 1 := by omega
    rw [heq] at hfound
    exact hne (Option.some.inj (hfound.symm.trans hfound'))
  exact map_sublist_drop 0 hstrict (fun _ _ => Nat.zero_le _) fun x hmem => (hplaced' x hmem).2

section Keys

variable [DecidableEq κ] {key : κ} {value : β} {entries : List (κ × β)}

theorem assign_of_not_mem (h : key ∉ entries.map (·.1)) (value : β)
    : entries.assign key value = entries ++ [(key, value)] := by
  unfold assign
  apply if_neg
  rw [any_eq_true]
  rintro ⟨entry, hentry, heq⟩
  exact h (mem_map.mpr ⟨entry, hentry, of_decide_eq_true heq⟩)

/--
The entry of a key is the only one that is stored under it.
-/
theorem Keyed.eq_of_mem [BEq κ] [LawfulBEq κ] {ofValue : β → κ} (h : Keyed ofValue entries)
    (hlookup : entries.lookup key = some value) {entry : κ × β} (hmem : entry ∈ entries)
    (hkey : ofValue entry.2 = key)
    : entry.2 = value := by
  have hfound := mem_of_lookup hlookup
  have heq : entry.1 = key := (h.stored entry hmem).symm.trans hkey
  have hsame := inj_on_of_nodup_map h.nodup hmem hfound heq
  rw [hsame]

theorem lookup_of_mem [BEq κ] [LawfulBEq κ] (hnodup : (entries.map (·.1)).Nodup) (h : (key, value) ∈ entries)
    : entries.lookup key = some value := by
  induction entries with
  | nil => contradiction
  | cons entry entries ih =>
    rcases entry with ⟨name, stored⟩
    rw [map_cons, nodup_cons] at hnodup
    rw [lookup_cons]
    rcases mem_cons.mp h with heq | hmem
    . cases heq
      rw [beq_self_eq_true]
    . have hne : key ≠ name := by
        rintro rfl
        exact hnodup.1 (mem_map.mpr ⟨_, hmem, rfl⟩)
      rw [beq_false_of_ne hne]
      exact ih hnodup.2 hmem

theorem Keyed.forget_eq {ofValue : β → κ} (h : Keyed ofValue entries) (key : κ)
    : forget key entries = entries.filter fun entry => !decide (ofValue entry.2 = key) := by
  unfold forget
  apply filter_congr
  intro entry hentry
  rw [h.stored entry hentry, decide_not]

theorem Keyed.filter_eq [BEq κ] [LawfulBEq κ] {ofValue : β → κ} (h : Keyed ofValue entries)
    (hlookup : entries.lookup key = some value)
    : entries.filter (fun entry => decide (ofValue entry.2 = key)) = [(key, value)] := by
  have hmem := mem_of_lookup hlookup
  have hkey : ofValue value = key := h.stored _ hmem
  have hnodup : entries.Nodup := Nodup.of_map _ h.nodup
  apply eq_singleton_of_forall hnodup
  . exact mem_filter.mpr ⟨hmem, decide_eq_true hkey⟩
  . intro entry hentry
    rw [mem_filter, decide_eq_true_eq] at hentry
    have hvalue := h.eq_of_mem hlookup hentry.1 hentry.2
    have hname := (h.stored entry hentry.1).symm.trans hentry.2
    rw [← hvalue, ← hname]

theorem Keyed.filter {ofValue : β → κ} (h : Keyed ofValue entries) (p : κ × β → Bool)
    : Keyed ofValue (entries.filter p) where
  nodup := h.nodup.sublist (filter_sublist.map _)
  stored entry hentry := h.stored entry (mem_of_mem_filter hentry)

theorem Keyed.perm {ofValue : β → κ} {entries' : List (κ × β)} (h : Keyed ofValue entries)
    (hperm : entries'.Perm entries)
    : Keyed ofValue entries' where
  nodup := (hperm.map (·.1)).nodup_iff.mpr h.nodup
  stored entry hentry := h.stored entry (hperm.subset hentry)

end Keys

end List
