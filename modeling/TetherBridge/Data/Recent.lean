import Mathlib.Data.List.Sort

/-!
This module contains keyed lists in the order in which the keys were last written, of which only the last
ones are kept. A key is found as long as fewer others than the limit were written after it.
-/

namespace List

variable {κ : Type u} {β : Type v} [DecidableEq κ]

def forget (key : κ) (entries : List (κ × β)) : List (κ × β) :=
  entries.filter fun entry => entry.1 ≠ key

/--
Write a key at the end.
-/
def touch (key : κ) (value : β) (entries : List (κ × β)) : List (κ × β) :=
  forget key entries ++ [(key, value)]

/--
Keep the last ones.
-/
def keepLast (limit : Nat) (entries : List (κ × β)) : List (κ × β) :=
  entries.drop (entries.length - limit)

/--
The key has the value, and not more than so many keys were written after it.
-/
def Recent (key : κ) (value : β) (later : Nat) (entries : List (κ × β)) : Prop :=
  ∃ before after, entries = before ++ (key, value) :: after ∧ after.length ≤ later
    ∧ ∀ entry ∈ before, entry.1 ≠ key

variable {key other : κ} {value value' : β} {later : Nat} {entries : List (κ × β)}

theorem mem_forget {entry : κ × β} : entry ∈ forget key entries ↔ entry ∈ entries ∧ entry.1 ≠ key := by
  unfold forget
  rw [mem_filter, decide_eq_true_eq]

theorem forget_of_forall_ne (h : ∀ entry ∈ entries, entry.1 ≠ key) : forget key entries = entries := by
  unfold forget
  rw [filter_eq_self]
  intro entry hentry
  exact decide_eq_true (h entry hentry)

theorem Recent.lookup [BEq κ] [LawfulBEq κ] (h : Recent key value later entries)
    : entries.lookup key = some value := by
  rcases h with ⟨before, after, heq, -, hbefore⟩
  rw [lookup_eq_some_iff]
  refine ⟨before, after, heq, ?_⟩
  intro entry hentry
  exact bne_iff_ne.mpr (Ne.symm (hbefore entry hentry))

theorem mem_of_lookup [BEq κ] [LawfulBEq κ] (h : entries.lookup key = some value)
    : (key, value) ∈ entries := by
  rw [lookup_eq_some_iff] at h
  rcases h with ⟨before, after, rfl, -⟩
  exact mem_append_right _ mem_cons_self

theorem recent_touch (key : κ) (value : β) (entries : List (κ × β))
    : Recent key value 0 (touch key value entries) := by
  refine ⟨forget key entries, [], rfl, Nat.le_refl 0, ?_⟩
  intro entry hentry
  exact (mem_forget.mp hentry).2

theorem Recent.mono (h : Recent key value later entries) {later' : Nat} (hle : later ≤ later')
    : Recent key value later' entries := by
  rcases h with ⟨before, after, heq, hlength, hbefore⟩
  exact ⟨before, after, heq, Nat.le_trans hlength hle, hbefore⟩

theorem Recent.filter (h : Recent key value later entries) {p : κ × β → Bool} (hp : p (key, value))
    : Recent key value later (entries.filter p) := by
  rcases h with ⟨before, after, rfl, hlength, hbefore⟩
  refine ⟨before.filter p, after.filter p, ?_, ?_, ?_⟩
  . rw [filter_append, filter_cons_of_pos hp]
  . exact Nat.le_trans (length_filter_le p after) hlength
  . intro entry hentry
    exact hbefore entry (mem_of_mem_filter hentry)

theorem Recent.forget (h : Recent key value later entries) (hne : key ≠ other)
    : Recent key value later (forget other entries) := by
  apply h.filter
  exact decide_eq_true hne

theorem Recent.touch (h : Recent key value later entries) (hne : key ≠ other) (value' : β)
    : Recent key value (later + 1) (touch other value' entries) := by
  rcases h.forget hne with ⟨before, after, heq, hlength, hbefore⟩
  refine ⟨before, after ++ [(other, value')], ?_, ?_, hbefore⟩
  . unfold List.touch
    rw [heq, append_assoc, cons_append]
  . rw [length_append, length_singleton]
    omega

theorem Recent.keepLast (h : Recent key value later entries) {limit : Nat} (hlimit : later < limit)
    : Recent key value later (keepLast limit entries) := by
  rcases h with ⟨before, after, rfl, hlength, hbefore⟩
  unfold List.keepLast
  have hle : (before ++ (key, value) :: after).length - limit ≤ before.length := by
    rw [length_append, length_cons]
    omega
  rw [drop_append_of_le_length hle]
  refine ⟨before.drop _, after, rfl, hlength, ?_⟩
  intro entry hentry
  exact hbefore entry (mem_of_mem_drop hentry)

/--
Where keys occur once, what is found among some of the entries is found among all of them.
-/
theorem lookup_of_filter [BEq κ] [LawfulBEq κ] (hnodup : (entries.map (·.1)).Nodup) {p : κ × β → Bool}
    (h : (entries.filter p).lookup key = some value)
    : entries.lookup key = some value := by
  induction entries with
  | nil => contradiction
  | cons entry entries ih =>
    rcases entry with ⟨name, stored⟩
    rw [map_cons, nodup_cons] at hnodup
    rw [filter_cons] at h
    split at h
    . rw [lookup_cons] at h ⊢
      split at h
      . exact h
      . exact ih hnodup.2 h
    . have hrest := ih hnodup.2 h
      rw [lookup_cons]
      split
      . next heq =>
        have hmem : key ∈ entries.map (·.1) := mem_map_of_mem (f := (·.1)) (mem_of_lookup hrest)
        rw [eq_of_beq heq] at hmem
        exact absurd hmem hnodup.1
      . exact hrest

/-! Objects, where a key that is written again keeps its place -/

def assign (key : κ) (value : β) (entries : List (κ × β)) : List (κ × β) :=
  if entries.any fun entry => entry.1 = key then
    entries.map fun entry => if entry.1 = key then (key, value) else entry
  else
    entries ++ [(key, value)]

/--
Where keys occur once, a key is written at its place or at the end.
-/
theorem assign_spec (hnodup : (entries.map (·.1)).Nodup) (key : κ) (value : β)
    : ∃ before after, forget key entries = before ++ after
        ∧ assign key value entries = before ++ (key, value) :: after
        ∧ (after ≠ [] → ∃ entry ∈ entries, entry.1 = key) := by
  unfold assign
  split
  . next hany =>
    rw [any_eq_true] at hany
    rcases hany with ⟨entry, hentry, hkey⟩
    rw [decide_eq_true_eq] at hkey
    rcases append_of_mem hentry with ⟨before, after, rfl⟩
    rw [map_append, map_cons, nodup_append, nodup_cons] at hnodup
    have hbefore : ∀ other ∈ before, other.1 ≠ key := by
      intro other hother heq
      exact hnodup.2.2 other.1 (mem_map_of_mem hother) entry.1 mem_cons_self (heq.trans hkey.symm)
    have hafter : ∀ other ∈ after, other.1 ≠ key := by
      intro other hother heq
      apply hnodup.2.1.1
      rw [hkey, ← heq]
      exact mem_map_of_mem hother
    have hmap : ∀ {part : List (κ × β)}, (∀ other ∈ part, other.1 ≠ key) →
        (part.map fun entry => if entry.1 = key then (key, value) else entry) = part := by
      intro part hpart
      rw [map_congr_left (g := id), map_id]
      intro other hother
      rw [if_neg (hpart other hother)]
      rfl
    refine ⟨before, after, ?_, ?_, fun _ => ⟨entry, hentry, hkey⟩⟩
    . unfold List.forget
      rw [filter_append, filter_cons_of_neg (by simp [hkey])]
      exact congr (congrArg _ (forget_of_forall_ne hbefore)) (forget_of_forall_ne hafter)
    . rw [map_append, map_cons, if_pos hkey, hmap hbefore, hmap hafter]
  . next hnone =>
    refine ⟨entries, [], ?_, rfl, fun h => absurd rfl h⟩
    rw [append_nil]
    apply forget_of_forall_ne
    intro entry hentry heq
    apply hnone
    rw [any_eq_true]
    exact ⟨entry, hentry, decide_eq_true heq⟩

/-! Sorting by a number -/

/--
Where what comes later has the greater number, an element with the greatest one goes to the end.
-/
theorem insertionSort_middle {α : Type u} {f : α → Nat} {before after : List α} {x : α}
    (hsorted : (before ++ after).Pairwise fun a b => f a ≤ f b) (hle : ∀ y ∈ before, f y ≤ f x)
    (hlt : ∀ y ∈ after, f y < f x)
    : (before ++ x :: after).insertionSort (fun a b => f a ≤ f b) = before ++ after ++ [x] := by
  induction before with
  | nil =>
    rw [nil_append] at hsorted
    rw [nil_append, nil_append, insertionSort_cons,
      Pairwise.insertionSort_eq (r := fun a b => f a ≤ f b) hsorted]
    clear hsorted
    induction after with
    | nil => rfl
    | cons y after ih =>
      have hnot : ¬f x ≤ f y := Nat.not_le_of_lt (hlt y mem_cons_self)
      rw [orderedInsert_of_not_le (r := fun a b => f a ≤ f b) after hnot, ih, cons_append]
      intro z hz
      exact hlt z (mem_cons_of_mem y hz)
  | cons y before ih =>
    rw [cons_append, pairwise_cons] at hsorted
    rw [cons_append, insertionSort_cons_of_forall_rel (r := fun a b => f a ≤ f b), ih hsorted.2]
    . rw [cons_append, cons_append]
    . intro z hz
      exact hle z (mem_cons_of_mem y hz)
    . intro z hz
      rw [mem_append, mem_cons] at hz
      rcases hz with hz | rfl | hz
      . exact hsorted.1 z (mem_append_left _ hz)
      . exact hle y mem_cons_self
      . exact hsorted.1 z (mem_append_right _ hz)

end List
