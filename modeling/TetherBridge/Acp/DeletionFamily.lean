import Mathlib.Data.Finset.Insert
import Mathlib.Logic.Relation
import TetherBridge.Acp.IndexDurability

/-!
This module contains `indexed_deletion_family` of `acp/manager.rs`: the sessions that are deleted together with one,
by the parents that the index has for them.
-/

namespace Acp

structure FamilySearch where
  affected : List AgentSessionId
  seen : Finset String

namespace FamilySearch

/--
An entry whose id is not one of a session is marked as seen, and nothing else.
-/
def visit (root : AgentSessionId) (parentId : String) (s : FamilySearch) (entry : SessionIndexEntry) : FamilySearch :=
  if entry.agentId = root.agentId ∧ entry.parentAcpSessionId = some parentId ∧ entry.acpSessionId ∉ s.seen then
    { affected := s.affected ++ (AgentSessionId.new entry.agentId entry.acpSessionId).toList
      seen := insert entry.acpSessionId s.seen }
  else s

def visitAll (entries : List SessionIndexEntry) (root : AgentSessionId) (parentId : String) (s : FamilySearch)
    : FamilySearch :=
  entries.foldl (visit root parentId) s

def unseen (entries : List SessionIndexEntry) (s : FamilySearch) : Nat :=
  (entries.filter (·.acpSessionId ∉ s.seen)).length

theorem unseen_visit {entries : List SessionIndexEntry} {entry : SessionIndexEntry} (hentry : entry ∈ entries)
    (root : AgentSessionId) (parentId : String) (s : FamilySearch)
    : (s.visit root parentId entry).unseen entries + (s.visit root parentId entry).affected.length
        ≤
      s.unseen entries + s.affected.length := by
  unfold visit
  split
  . next hnew =>
    have hlt : (entries.filter (·.acpSessionId ∉ insert entry.acpSessionId s.seen)).length
        < (entries.filter (·.acpSessionId ∉ s.seen)).length := by
      have hsublist : (entries.filter (·.acpSessionId ∉ insert entry.acpSessionId s.seen)).Sublist
          (entries.filter (·.acpSessionId ∉ s.seen)) := by
        apply List.monotone_filter_right
        intro other hother
        simp only [Finset.mem_insert, not_or, decide_eq_true_eq] at hother ⊢
        exact hother.2
      apply lt_of_le_of_ne hsublist.length_le
      intro hlength
      have hmem : entry ∈ entries.filter (·.acpSessionId ∉ s.seen) := by
        rw [List.mem_filter]
        exact ⟨hentry, by simpa using hnew.2.2⟩
      rw [← hsublist.eq_of_length hlength, List.mem_filter] at hmem
      simp at hmem
    have hone : (AgentSessionId.new entry.agentId entry.acpSessionId).toList.length ≤ 1 := by
      cases AgentSessionId.new entry.agentId entry.acpSessionId <;> simp
    unfold unseen
    dsimp only
    rw [List.length_append]
    omega
  . exact Nat.le_refl _

theorem unseen_visitAll {entries visited : List SessionIndexEntry} (hvisited : visited ⊆ entries)
    (root : AgentSessionId) (parentId : String) (s : FamilySearch)
    : (s.visitAll visited root parentId).unseen entries + (s.visitAll visited root parentId).affected.length
        ≤
      s.unseen entries + s.affected.length := by
  induction visited generalizing s with
  | nil => exact Nat.le_refl _
  | cons entry visited ih =>
    have hrest := ih (List.subset_of_cons_subset hvisited) (s.visit root parentId entry)
    have hentry := unseen_visit (hvisited List.mem_cons_self) root parentId s
    exact hrest.trans hentry

end FamilySearch

namespace DurableSessionIndex

/--
Every session that was found is a parent in its turn.
-/
def deletionFamilyLoop (entries : List SessionIndexEntry) (root : AgentSessionId) (s : FamilySearch)
    (parentIndex : Nat) : List AgentSessionId :=
  if h : parentIndex < s.affected.length then
    deletionFamilyLoop entries root (s.visitAll entries root (s.affected.get ⟨parentIndex, h⟩).acpSessionId)
      (parentIndex + 1)
  else s.affected
termination_by s.unseen entries + s.affected.length - parentIndex
decreasing_by
  have hle := FamilySearch.unseen_visitAll (List.Subset.refl entries) root
    (s.affected.get ⟨parentIndex, h⟩).acpSessionId s
  omega

def indexedDeletionFamily (s : DurableSessionIndex) (root : AgentSessionId) : List AgentSessionId :=
  deletionFamilyLoop s.entries root { affected := [root], seen := {root.acpSessionId} } 0

end DurableSessionIndex

/-! Parents -/

/--
A session and its parent are of one agent.
-/
def IsChild (entries : List SessionIndexEntry) (parent child : AgentSessionId) : Prop :=
  ∃ entry ∈ entries,
    AgentSessionId.new entry.agentId entry.acpSessionId = some child
      ∧ entry.parentAcpSessionId = some parent.acpSessionId
      ∧ child.agentId = parent.agentId

/--
The chain of the parents of a session reaches another one.
-/
def Descends (entries : List SessionIndexEntry) : AgentSessionId → AgentSessionId → Prop :=
  Relation.ReflTransGen (IsChild entries)

theorem new_eq_some {agentId acpSessionId : String} {identity : AgentSessionId}
    (h : AgentSessionId.new agentId acpSessionId = some identity) : identity = { agentId, acpSessionId } := by
  unfold AgentSessionId.new at h
  split at h
  . injection h with h
    exact h.symm
  . contradiction

/--
When all entries are sessions, the relation is what the entries say.
-/
theorem isChild_iff {entries : List SessionIndexEntry} (h : ∀ entry ∈ entries, entry.identity.validate)
    {parent child : AgentSessionId}
    : IsChild entries parent child
        ↔
      ∃ entry ∈ entries, entry.identity = child ∧ entry.parentAcpSessionId = some parent.acpSessionId
        ∧ child.agentId = parent.agentId := by
  constructor
  . rintro ⟨entry, hentry, hnew, hparent⟩
    exact ⟨entry, hentry, (new_eq_some hnew).symm, hparent⟩
  . rintro ⟨entry, hentry, rfl, hparent⟩
    refine ⟨entry, hentry, ?_, hparent⟩
    exact if_pos (h entry hentry)

/-! The search -/

namespace FamilySearch

variable {entries : List SessionIndexEntry} {root : AgentSessionId} {s : FamilySearch}

/--
What holds at any time of the search: only sessions of the family were found, each of them once, and all that
were seen.
-/
structure Sound (entries : List SessionIndexEntry) (root : AgentSessionId) (s : FamilySearch) : Prop where
  head : s.affected.head? = some root
  nodup : s.affected.Nodup
  descends : ∀ identity ∈ s.affected, Descends entries root identity
  agent : ∀ identity ∈ s.affected, identity.agentId = root.agentId
  seen : ∀ identity ∈ s.affected, identity.acpSessionId ∈ s.seen
  found : ∀ identity, identity.validate → identity.agentId = root.agentId → identity.acpSessionId ∈ s.seen
    → identity ∈ s.affected

/--
What a search has found stays where it is.
-/
structure Grows (s s' : FamilySearch) : Prop where
  affected : s.affected <+: s'.affected
  seen : s.seen ⊆ s'.seen

theorem Grows.refl (s : FamilySearch) : Grows s s :=
  ⟨List.prefix_refl _, Finset.Subset.refl _⟩

theorem Grows.trans {s s' s'' : FamilySearch} (h : Grows s s') (h' : Grows s' s'') : Grows s s'' :=
  ⟨h.affected.trans h'.affected, h.seen.trans h'.seen⟩

theorem grows_visit (root : AgentSessionId) (parentId : String) (s : FamilySearch) (entry : SessionIndexEntry)
    : Grows s (s.visit root parentId entry) := by
  unfold visit
  split
  . exact ⟨List.prefix_append _ _, Finset.subset_insert _ _⟩
  . exact Grows.refl s

theorem grows_visitAll (visited : List SessionIndexEntry) (root : AgentSessionId) (parentId : String)
    (s : FamilySearch)
    : Grows s (s.visitAll visited root parentId) := by
  induction visited generalizing s with
  | nil => exact Grows.refl s
  | cons entry visited ih => exact (grows_visit root parentId s entry).trans (ih _)

theorem Sound.visit (h : s.Sound entries root) {parent : AgentSessionId} (hparent : parent ∈ s.affected)
    {entry : SessionIndexEntry} (hentry : entry ∈ entries)
    : (s.visit root parent.acpSessionId entry).Sound entries root := by
  unfold FamilySearch.visit
  split
  . next hnew =>
    rcases hnew with ⟨hagent, hchild, hunseen⟩
    have hfound : ∀ identity ∈ (AgentSessionId.new entry.agentId entry.acpSessionId).toList,
        identity = { agentId := entry.agentId, acpSessionId := entry.acpSessionId } := by
      intro identity hmem
      exact new_eq_some (Option.mem_toList.mp hmem)
    have hmember : ∀ identity ∈ s.affected ++ (AgentSessionId.new entry.agentId entry.acpSessionId).toList,
        identity ∈ s.affected ∨ identity ∈ (AgentSessionId.new entry.agentId entry.acpSessionId).toList :=
      fun identity hmem => List.mem_append.mp hmem
    exact {
      head := by
        dsimp only
        rw [List.head?_append, h.head]
        rfl
      nodup := by
        rw [List.nodup_append]
        refine ⟨h.nodup, by cases AgentSessionId.new entry.agentId entry.acpSessionId <;> simp, ?_⟩
        rintro identity hmem other hother rfl
        have hseen := h.seen identity hmem
        rw [hfound identity hother] at hseen
        contradiction
      descends := by
        intro identity hmem
        rcases hmember identity hmem with hmem | hmem
        . exact h.descends identity hmem
        . refine (h.descends parent hparent).tail ⟨entry, hentry, Option.mem_toList.mp hmem, hchild, ?_⟩
          rw [hfound identity hmem, h.agent parent hparent]
          exact hagent
      agent := by
        intro identity hmem
        rcases hmember identity hmem with hmem | hmem
        . exact h.agent identity hmem
        . rw [hfound identity hmem]
          exact hagent
      seen := by
        intro identity hmem
        rw [Finset.mem_insert]
        rcases hmember identity hmem with hmem | hmem
        . exact .inr (h.seen identity hmem)
        . exact .inl (congrArg AgentSessionId.acpSessionId (hfound identity hmem))
      found := by
        intro identity hvalid hidentity hseen
        dsimp only at hseen ⊢
        rw [List.mem_append]
        rcases Finset.mem_insert.mp hseen with hself | hseen
        . right
          have heq : identity = { agentId := entry.agentId, acpSessionId := entry.acpSessionId } := by
            rw [hagent, ← hidentity, ← hself]
          rw [Option.mem_toList]
          unfold AgentSessionId.new
          rw [← heq, if_pos hvalid]
        . exact .inl (h.found identity hvalid hidentity hseen) }
  . exact h

theorem Sound.visitAll (h : s.Sound entries root) {parent : AgentSessionId} (hparent : parent ∈ s.affected)
    {visited : List SessionIndexEntry} (hvisited : visited ⊆ entries)
    : (s.visitAll visited root parent.acpSessionId).Sound entries root := by
  induction visited generalizing s with
  | nil => exact h
  | cons entry visited ih =>
    have hgrows := grows_visit root parent.acpSessionId s entry
    exact ih (h.visit hparent (hvisited List.mem_cons_self)) (hgrows.affected.subset hparent)
      (List.subset_of_cons_subset hvisited)

/--
The entries that name a session as their parent are seen once it was visited.
-/
theorem seen_visitAll (visited : List SessionIndexEntry) (parentId : String) (s : FamilySearch)
    : ∀ entry ∈ visited, entry.agentId = root.agentId → entry.parentAcpSessionId = some parentId
        → entry.acpSessionId ∈ (s.visitAll visited root parentId).seen := by
  induction visited generalizing s with
  | nil => simp
  | cons first visited ih =>
    rw [List.forall_mem_cons]
    refine ⟨?_, ih (s.visit root parentId first)⟩
    intro hagent hparent
    apply (grows_visitAll visited root parentId (s.visit root parentId first)).seen
    unfold FamilySearch.visit
    split
    . exact Finset.mem_insert_self _ _
    . next hold =>
      by_contra hunseen
      exact hold ⟨hagent, hparent, hunseen⟩

/--
The children of the sessions before an index have been seen.
-/
def Visited (entries : List SessionIndexEntry) (root : AgentSessionId) (s : FamilySearch) (parentIndex : Nat) : Prop :=
  ∀ parent ∈ s.affected.take parentIndex, ∀ entry ∈ entries, entry.agentId = root.agentId
    → entry.parentAcpSessionId = some parent.acpSessionId → entry.acpSessionId ∈ s.seen

theorem Visited.visitAll {parentIndex : Nat} (h : Visited entries root s parentIndex)
    (hlt : parentIndex < s.affected.length)
    : Visited entries root (s.visitAll entries root (s.affected.get ⟨parentIndex, hlt⟩).acpSessionId)
        (parentIndex + 1) := by
  have hgrows := grows_visitAll entries root (s.affected.get ⟨parentIndex, hlt⟩).acpSessionId s
  have htake : (s.visitAll entries root (s.affected.get ⟨parentIndex, hlt⟩).acpSessionId).affected.take (parentIndex + 1)
      = s.affected.take parentIndex ++ [s.affected.get ⟨parentIndex, hlt⟩] := by
    rcases hgrows.affected with ⟨more, hmore⟩
    rw [← hmore, List.take_append_of_le_length hlt, List.take_succ_eq_append_getElem hlt]
    rfl
  intro parent hparent entry hentry hagent hchild
  rw [htake, List.mem_append, List.mem_singleton] at hparent
  rcases hparent with hparent | rfl
  . exact hgrows.seen (h parent hparent entry hentry hagent hchild)
  . exact seen_visitAll entries _ s entry hentry hagent hchild

end FamilySearch

namespace DurableSessionIndex

open FamilySearch

/--
A search that has visited all that it found has found the whole family.
-/
theorem mem_iff_descends {entries : List SessionIndexEntry} {root : AgentSessionId} {s : FamilySearch}
    (h : s.Sound entries root) (hvisited : s.Visited entries root s.affected.length) (identity : AgentSessionId)
    : identity ∈ s.affected ↔ Descends entries root identity := by
  constructor
  . exact h.descends identity
  . intro hdescends
    induction hdescends with
    | refl => exact List.mem_of_mem_head? h.head
    | tail _ hchild ih =>
      rcases hchild with ⟨entry, hentry, hnew, hparent, hagent⟩
      have hself := new_eq_some hnew
      have hroot := hagent.trans (h.agent _ ih)
      have hseen : entry.acpSessionId ∈ s.seen := by
        apply hvisited _ (by rwa [List.take_length]) entry hentry _ hparent
        rw [← hroot, hself]
      apply h.found
      . unfold AgentSessionId.new at hnew
        split at hnew
        . next hvalid =>
          injection hnew with hnew
          exact hnew ▸ hvalid
        . contradiction
      . exact hroot
      . rw [hself]
        exact hseen

theorem deletionFamilyLoop_exact {entries : List SessionIndexEntry} {root : AgentSessionId} {s : FamilySearch}
    {parentIndex : Nat} (h : s.Sound entries root) (hvisited : s.Visited entries root parentIndex)
    : let family := deletionFamilyLoop entries root s parentIndex
      family.head? = some root
        ∧ family.Nodup
        ∧ ∀ identity, identity ∈ family ↔ Descends entries root identity := by
  induction s, parentIndex using deletionFamilyLoop.induct entries root with
  | case1 s parentIndex hlt ih =>
    rw [deletionFamilyLoop, dif_pos hlt]
    exact ih (h.visitAll (List.get_mem _ _) (List.Subset.refl entries)) (hvisited.visitAll hlt)
  | case2 s parentIndex hge =>
    rw [deletionFamilyLoop, dif_neg hge]
    refine ⟨h.head, h.nodup, mem_iff_descends h ?_⟩
    unfold Visited at hvisited ⊢
    rw [List.take_of_length_le (Nat.le_of_not_lt hge)] at hvisited
    rwa [List.take_length]

/--
The family of a session is found whole, whatever the parents in the index are: they may be missing, or form cycles.
-/
theorem indexedDeletionFamily_exact (s : DurableSessionIndex) (root : AgentSessionId)
    : (s.indexedDeletionFamily root).head? = some root
        ∧ (s.indexedDeletionFamily root).Nodup
        ∧ ∀ identity, identity ∈ s.indexedDeletionFamily root ↔ Descends s.entries root identity := by
  apply deletionFamilyLoop_exact
  . exact {
      head := rfl
      nodup := List.nodup_singleton root
      descends := by
        rw [List.forall_mem_singleton]
        exact .refl
      agent := by simp
      seen := by simp
      found := by
        intro identity _ hagent hseen
        rw [Finset.mem_singleton] at hseen
        rw [List.mem_singleton]
        cases identity
        cases root
        simp_all }
  . simp [Visited]

end DurableSessionIndex

end Acp
