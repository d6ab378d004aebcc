import TetherBridge.Session.Occupancy
import TetherBridge.Transition.Basic

/-!
This module contains the accounts of `SessionRegistry`: sessions and reservations stay within the
capacity, and the count of the notifications is what the journals hold, as long as no entry is removed
while its registration is in progress.
-/

namespace Session

open Transition Snapshot

def SessionEntry.isRegistering : SessionEntry → Bool
  | .registering .. => true
  | _ => false

theorem SessionEntry.journal_of_not_isRegistering {entry : SessionEntry}
    (h : entry.isRegistering = false)
    : entry.journal = [] := by
  cases entry with
  | registering session journal => contradiction
  | live session lastAccess leases => rfl
  | evicting session lastAccess leases => rfl

/--
A call that registers nothing, waits for nothing, and did not end in what must not happen.
-/
def RegistryCall.isPlain : RegistryCall → Bool
  | .registering .. => false
  | .waiting _ => false
  | .refused (some _) held => !held
  | .panicked _ => false
  | _ => true

namespace SessionRegistry

variable (s : SessionRegistry)

/--
How many notifications the journals hold.
-/
def journaled : Nat :=
  s.pendingNotifications.total List.length + s.sessions.total fun entry => entry.journal.length

/--
The accounts are in order: there is not more than the capacity, nobody who held a reservation was refused,
every notification is counted, and no expectation was wrong.
-/
structure Accounted : Prop where
  occupied_le : s.occupied ≤ s.capacity
  admitted : ∀ reservation, RegistryCall.refused (some reservation) true ∉ s.calls
  counted : s.pendingNotificationCount = s.journaled
  calm : ∀ message, RegistryCall.panicked message ∉ s.calls

/--
No entry is removed while it is being registered, and there are numbers left for reservations.
-/
def keepsEntries (s : SessionRegistry) : RegistryLabel → Bool
  | .remove id => (s.sessions.lookup id).all fun entry => !entry.isRegistering
  | .callSection .. => s.nextReservation < U64_MAX
  | _ => true

structure Sound : Prop extends Accounted s where
  held_nodup : s.held.Nodup
  held_lt : ∀ reservation ∈ s.held, reservation < s.nextReservation
  held_mem : ∀ reservation ∈ s.held, reservation ∈ s.reservations
  registered : ∀ id session journal, s.sessions.lookup id = some (SessionEntry.registering session journal) →
    RegistryCall.registering id session ∈ s.calls ∧ s.ready[session]? = some false
  registers : ∀ id session, RegistryCall.registering id session ∈ s.calls →
    ∃ journal, s.sessions.lookup id = some (SessionEntry.registering session journal)
  sole : ∀ (i j : Nat) id id' session, s.calls[i]? = some (RegistryCall.registering id session) →
    s.calls[j]? = some (RegistryCall.registering id' session) → i = j
  waited : ∀ session, RegistryCall.waiting session ∈ s.calls →
    s.ready[session]? = some true ∨ ∃ id, RegistryCall.registering id session ∈ s.calls

variable {s}

theorem sound_init (capacity : Nat) : ({ capacity } : SessionRegistry).Sound where
  occupied_le := Nat.zero_le _
  admitted _ h := absurd h List.not_mem_nil
  counted := rfl
  calm _ h := absurd h List.not_mem_nil
  held_nodup := .nil
  held_lt _ h := absurd h List.not_mem_nil
  held_mem _ h := absurd h List.not_mem_nil
  registered _ _ _ h := by
    rw [AList.lookup_empty] at h
    contradiction
  registers _ _ h := absurd h List.not_mem_nil
  sole i _ _ _ _ h := by
    rw [List.getElem?_nil] at h
    contradiction
  waited _ h := absurd h List.not_mem_nil

/-! Calls -/

theorem mem_setCall {index : Nat} {old new call : RegistryCall} (hold : s.calls[index]? = some old)
    (hne : call ≠ old) (h : call ∈ s.calls)
    : call ∈ (s.setCall index new).calls := by
  rw [List.mem_iff_getElem?] at h
  rcases h with ⟨i, hi⟩
  unfold setCall
  rw [List.mem_iff_getElem?]
  refine ⟨i, ?_⟩
  rw [List.getElem?_set_ne]
  . exact hi
  . intro heq
    rw [heq, hi] at hold
    injection hold with hold
    exact hne hold

theorem Sound.setCall (h : s.Sound) {index : Nat} {old new : RegistryCall}
    (hold : s.calls[index]? = some old) (hregisters : ∀ id session, old ≠ .registering id session)
    (hplain : new.isPlain
      ∨ ∃ session, new = .waiting session ∧ ∃ id, RegistryCall.registering id session ∈ s.calls)
    : (s.setCall index new).Sound := by
  have hmem : ∀ call ∈ (s.setCall index new).calls, call ∈ s.calls ∨ call = new := by
    intro call hcall
    exact List.mem_or_eq_of_mem_set hcall
  have hkeeps : ∀ id session, RegistryCall.registering id session ∈ s.calls →
      RegistryCall.registering id session ∈ (s.setCall index new).calls := by
    intro id session hcall
    exact mem_setCall hold (hregisters id session).symm hcall
  have hnew : ∀ id session, new ≠ .registering id session := by
    intro id session heq
    rw [heq] at hplain
    rcases hplain with hplain | ⟨_, hwaiting, -⟩ <;> contradiction
  refine { h with
    admitted := ?_, calm := ?_, registered := ?_, registers := ?_, sole := ?_, waited := ?_ }
  . intro reservation hcall
    cases hmem _ hcall with
    | inl hcall => exact h.admitted reservation hcall
    | inr heq =>
      rw [← heq] at hplain
      rcases hplain with hplain | ⟨_, hwaiting, -⟩ <;> contradiction
  . intro message hcall
    cases hmem _ hcall with
    | inl hcall => exact h.calm message hcall
    | inr heq =>
      rw [← heq] at hplain
      rcases hplain with hplain | ⟨_, hwaiting, -⟩ <;> contradiction
  . intro id session journal hlookup
    have hentry := h.registered id session journal hlookup
    exact ⟨hkeeps id session hentry.1, hentry.2⟩
  . intro id session hcall
    cases hmem _ hcall with
    | inl hcall => exact h.registers id session hcall
    | inr heq => exact absurd heq.symm (hnew id session)
  . intro i j id id' session hi hj
    have hset : ∀ {i : Nat} {id : String}, (s.calls.set index new)[i]? = some (RegistryCall.registering id session) →
        s.calls[i]? = some (RegistryCall.registering id session) := by
      intro i id hi
      rw [List.getElem?_set] at hi
      split at hi
      . split at hi
        . injection hi with hi
          exact absurd hi (hnew id session)
        . contradiction
      . exact hi
    exact h.sole i j id id' session (hset hi) (hset hj)
  . intro session hcall
    have hwaited : s.ready[session]? = some true ∨ ∃ id, RegistryCall.registering id session ∈ s.calls := by
      cases hmem _ hcall with
      | inl hcall => exact h.waited session hcall
      | inr heq =>
        rw [← heq] at hplain
        rcases hplain with hplain | ⟨session', hwaiting, hcall'⟩
        . contradiction
        . injection hwaiting with hwaiting
          rw [hwaiting]
          exact .inr hcall'
    rcases hwaited with hready | ⟨id, hcall'⟩
    . exact .inl hready
    . exact .inr ⟨id, hkeeps id session hcall'⟩

theorem Sound.addCall (h : s.Sound) {new : RegistryCall} (hplain : new.isPlain)
    : (s.addCall new).Sound := by
  have hmem : ∀ call ∈ (s.addCall new).calls, call ∈ s.calls ∨ call = new := by
    intro call hcall
    unfold SessionRegistry.addCall at hcall
    rw [List.mem_append, List.mem_singleton] at hcall
    exact hcall
  have hkeeps : ∀ call ∈ s.calls, call ∈ (s.addCall new).calls := by
    intro call hcall
    exact List.mem_append_left _ hcall
  refine { h with
    admitted := ?_, calm := ?_, registered := ?_, registers := ?_, sole := ?_, waited := ?_ }
  . intro reservation hcall
    cases hmem _ hcall with
    | inl hcall => exact h.admitted reservation hcall
    | inr heq =>
      rw [← heq] at hplain
      contradiction
  . intro message hcall
    cases hmem _ hcall with
    | inl hcall => exact h.calm message hcall
    | inr heq =>
      rw [← heq] at hplain
      contradiction
  . intro id session journal hlookup
    have hentry := h.registered id session journal hlookup
    exact ⟨hkeeps _ hentry.1, hentry.2⟩
  . intro id session hcall
    cases hmem _ hcall with
    | inl hcall => exact h.registers id session hcall
    | inr heq =>
      rw [← heq] at hplain
      contradiction
  . intro i j id id' session hi hj
    have hold : ∀ {i : Nat} {id : String},
        (s.addCall new).calls[i]? = some (RegistryCall.registering id session) →
        s.calls[i]? = some (RegistryCall.registering id session) := by
      intro i id hi
      unfold SessionRegistry.addCall at hi
      rw [List.getElem?_append] at hi
      split at hi
      . exact hi
      . have hnew := List.mem_of_getElem? hi
        rw [List.mem_singleton] at hnew
        rw [← hnew] at hplain
        contradiction
    exact h.sole i j id id' session (hold hi) (hold hj)
  . intro session hcall
    cases hmem _ hcall with
    | inl hcall =>
      rcases h.waited session hcall with hready | ⟨id, hcall'⟩
      . exact .inl hready
      . exact .inr ⟨id, hkeeps _ hcall'⟩
    | inr heq =>
      rw [← heq] at hplain
      contradiction

/-! Entries -/

/--
Entries that are not being registered come and go, as long as there are not more of them.
-/
theorem Sound.withSessions (h : s.Sound) {sessions : Table String SessionEntry}
    (hsize : sessions.size ≤ s.sessions.size)
    (htotal : sessions.total (fun entry => entry.journal.length)
      = s.sessions.total fun entry => entry.journal.length)
    (hlookup : ∀ id session journal, sessions.lookup id = some (SessionEntry.registering session journal)
      ↔ s.sessions.lookup id = some (SessionEntry.registering session journal))
    : ({ s with sessions } : SessionRegistry).Sound := by
  refine { h with occupied_le := ?_, counted := ?_, registered := ?_, registers := ?_ }
  . have hle := h.occupied_le
    unfold occupied at hle ⊢
    dsimp only at hle ⊢
    omega
  . have hcounted := h.counted
    unfold journaled at hcounted ⊢
    dsimp only
    rw [htotal]
    exact hcounted
  . intro id session journal hentry
    rw [hlookup] at hentry
    exact h.registered id session journal hentry
  . intro id session hcall
    rcases h.registers id session hcall with ⟨journal, hentry⟩
    refine ⟨journal, ?_⟩
    rw [hlookup]
    exact hentry

theorem ne_registering {entry : SessionEntry} (h : entry.isRegistering = false) (session : Nat)
    (journal : List Nat)
    : entry ≠ .registering session journal := by
  intro heq
  rw [heq] at h
  contradiction

theorem Sound.putEntry (h : s.Sound) {id : String} {old : SessionEntry}
    (hentry : s.sessions.lookup id = some old) (hold : old.isRegistering = false)
    (new : SessionEntry) (hnew : new.isRegistering = false)
    : ({ s with sessions := s.sessions.insert id new } : SessionRegistry).Sound := by
  apply h.withSessions
  . rw [Table.size_insert_of_some]
    rw [hentry]
    rfl
  . have htotal := Table.total_insert (fun entry : SessionEntry => entry.journal.length) id new s.sessions
    unfold Table.weightAt at htotal
    rw [hentry, Option.elim_some, SessionEntry.journal_of_not_isRegistering hold,
      SessionEntry.journal_of_not_isRegistering hnew] at htotal
    exact htotal
  . intro id' session journal
    by_cases hid : id' = id
    . rw [hid, AList.lookup_insert, hentry]
      simp only [Option.some.injEq, ne_registering hold, ne_registering hnew]
    . rw [AList.lookup_insert_ne hid]

theorem Sound.eraseEntry (h : s.Sound) {id : String}
    (hentry : (s.sessions.lookup id).all fun entry => !entry.isRegistering)
    : ({ s with sessions := s.sessions.erase id } : SessionRegistry).Sound := by
  apply h.withSessions
  . exact Table.size_erase_le id
  . have htotal := Table.total_erase (fun entry : SessionEntry => entry.journal.length) id s.sessions
    unfold Table.weightAt at htotal
    cases hlookup : s.sessions.lookup id with
    | none =>
      rw [hlookup] at htotal
      exact htotal
    | some old =>
      rw [hlookup, Option.all_some, Bool.not_eq_true'] at hentry
      rw [hlookup, Option.elim_some, SessionEntry.journal_of_not_isRegistering hentry] at htotal
      exact htotal
  . intro id' session journal
    by_cases hid : id' = id
    . rw [hid, AList.lookup_erase]
      constructor
      . intro hlookup
        contradiction
      . intro hlookup
        rw [hlookup] at hentry
        contradiction
    . rw [AList.lookup_erase_ne hid]

theorem Sound.withAccess (h : s.Sound) (nextAccess : Nat) (leases : List Nat)
    : ({ s with nextAccess, leases } : SessionRegistry).Sound :=
  { h with }

/-! Notifications -/

/--
The journal of a registration changes together with the count.
-/
theorem Sound.putJournal (h : s.Sound) {id : String} {session : Nat} {old new : List Nat} {count : Nat}
    (hentry : s.sessions.lookup id = some (SessionEntry.registering session old))
    (hcount : count + old.length = s.pendingNotificationCount + new.length)
    : ({ s with
        sessions := s.sessions.insert id (.registering session new)
        pendingNotificationCount := count } : SessionRegistry).Sound := by
  refine { h with occupied_le := ?_, counted := ?_, registered := ?_, registers := ?_ }
  . have hle := h.occupied_le
    have hsome : (s.sessions.lookup id).isSome := by
      rw [hentry]
      rfl
    unfold occupied at hle ⊢
    dsimp only at hle ⊢
    rw [Table.size_insert_of_some hsome]
    exact hle
  . have hcounted := h.counted
    have htotal := Table.total_insert (fun entry : SessionEntry => entry.journal.length) id
      (.registering session new) s.sessions
    have hjournal : ∀ journal, (SessionEntry.registering session journal).journal = journal :=
      fun _ => rfl
    unfold Table.weightAt at htotal
    rw [hentry, Option.elim_some, hjournal, hjournal] at htotal
    unfold journaled at hcounted ⊢
    dsimp only at hcounted ⊢
    omega
  . intro id' session' journal hlookup
    dsimp only at hlookup
    by_cases hid : id' = id
    . rw [hid, AList.lookup_insert] at hlookup
      injection hlookup with hlookup
      injection hlookup with hsession
      rw [hid, ← hsession]
      exact h.registered id session old hentry
    . rw [AList.lookup_insert_ne hid] at hlookup
      exact h.registered id' session' journal hlookup
  . intro id' session' hcall
    rcases h.registers id' session' hcall with ⟨journal, hlookup⟩
    dsimp only
    by_cases hid : id' = id
    . rw [hid, hentry] at hlookup
      injection hlookup with hlookup
      injection hlookup with hsession
      rw [hid, AList.lookup_insert, hsession]
      exact ⟨new, rfl⟩
    . rw [AList.lookup_insert_ne hid]
      exact ⟨journal, hlookup⟩

theorem Sound.park (h : s.Sound) (id : String) (notification : Nat)
    : (s.park id notification).Sound := by
  unfold SessionRegistry.park
  split
  . exact h
  . refine { h with counted := ?_ }
    have hcounted := h.counted
    have htotal := Table.total_insert List.length id
      ((s.pendingNotifications.lookup id).getD [] ++ [notification]) s.pendingNotifications
    have hat : s.pendingNotifications.weightAt List.length id
        = ((s.pendingNotifications.lookup id).getD []).length := by
      unfold Table.weightAt
      cases s.pendingNotifications.lookup id <;> rfl
    rw [List.length_append, List.length_singleton] at htotal
    unfold journaled at hcounted ⊢
    dsimp only
    omega

/--
What is pending for an id is taken out together with its count.
-/
theorem Sound.erasePending (h : s.Sound) (id : String)
    : ((s.pendingNotifications.lookup id).getD []).length ≤ s.pendingNotificationCount
        ∧ ({ s with
            pendingNotifications := s.pendingNotifications.erase id
            pendingNotificationCount := s.pendingNotificationCount
              - ((s.pendingNotifications.lookup id).getD []).length } : SessionRegistry).Sound := by
  have hcounted := h.counted
  have htotal := Table.total_erase List.length id s.pendingNotifications
  have hat : s.pendingNotifications.weightAt List.length id
      = ((s.pendingNotifications.lookup id).getD []).length := by
    unfold Table.weightAt
    cases s.pendingNotifications.lookup id <;> rfl
  unfold journaled at hcounted
  refine ⟨by omega, { h with counted := ?_ }⟩
  unfold journaled
  dsimp only
  omega

/-! Reservations -/

theorem Sound.releaseReservation (h : s.Sound) (reservation : Nat)
    : (s.releaseReservation reservation).Sound := by
  refine { h with occupied_le := ?_, held_nodup := ?_, held_lt := ?_, held_mem := ?_ }
  . have hle := h.occupied_le
    have herase := List.length_erase_le (a := reservation) (l := s.reservations)
    unfold occupied at hle ⊢
    unfold SessionRegistry.releaseReservation
    dsimp only at hle ⊢
    omega
  . exact h.held_nodup.erase reservation
  . intro other hother
    exact h.held_lt other (List.mem_of_mem_erase hother)
  . intro other hother
    have hne : other ≠ reservation := by
      intro heq
      rw [heq] at hother
      exact h.held_nodup.not_mem_erase hother
    have hmem := h.held_mem other (List.mem_of_mem_erase hother)
    exact (List.mem_erase_of_ne hne).mpr hmem

/--
A reservation is answered when there is room for it.
-/
theorem Sound.addReservation (h : s.Sound) (hroom : s.occupied < s.capacity)
    (hnumbers : s.nextReservation < U64_MAX)
    : ({ s with
        nextReservation := saturatingAdd U64_MAX s.nextReservation 1
        reservations := s.reservations.insert s.nextReservation
        held := s.nextReservation :: s.held } : SessionRegistry).Sound := by
  have hnext : saturatingAdd U64_MAX s.nextReservation 1 = s.nextReservation + 1 :=
    saturatingAdd_of_le hnumbers
  refine { h with occupied_le := ?_, held_nodup := ?_, held_lt := ?_, held_mem := ?_ }
  . have hinsert : (s.reservations.insert s.nextReservation).length ≤ s.reservations.length + 1 := by
      rw [List.insert]
      split
      . omega
      . rw [List.length_cons]
    unfold occupied at hroom ⊢
    dsimp only at hroom ⊢
    omega
  . dsimp only
    rw [List.nodup_cons]
    refine ⟨?_, h.held_nodup⟩
    intro hmem
    have hlt := h.held_lt _ hmem
    omega
  . intro reservation hmem
    dsimp only at hmem ⊢
    rw [hnext]
    rw [List.mem_cons] at hmem
    cases hmem with
    | inl heq => omega
    | inr hmem =>
      have hlt := h.held_lt reservation hmem
      omega
  . intro reservation hmem
    dsimp only at hmem ⊢
    rw [List.mem_insert_iff]
    rw [List.mem_cons] at hmem
    cases hmem with
    | inl heq => exact .inl heq
    | inr hmem => exact .inr (h.held_mem reservation hmem)

/-! Registrations -/

theorem setCall_cases {calls : List RegistryCall} {index i : Nat} {new call : RegistryCall}
    (h : (calls.set index new)[i]? = some call)
    : i = index ∧ call = new ∨ i ≠ index ∧ calls[i]? = some call := by
  rw [List.getElem?_set] at h
  split at h
  . next heq =>
    split at h
    . injection h with h
      exact .inl ⟨heq.symm, h.symm⟩
    . contradiction
  . next hne => exact .inr ⟨fun heq => hne heq.symm, h⟩

theorem mem_setCall_self {index : Nat} {old : RegistryCall} (hold : s.calls[index]? = some old)
    (new : RegistryCall)
    : new ∈ (s.setCall index new).calls := by
  rw [List.getElem?_eq_some_iff] at hold
  exact List.mem_set hold.1 new

theorem Sound.insertRegistering (h : s.Sound) (hroom : s.occupied < s.capacity) {id : String}
    (hentry : s.sessions.lookup id = none) {index : Nat} {old : RegistryCall}
    (hold : s.calls[index]? = some old) (hregisters : ∀ id session, old ≠ .registering id session)
    : (s.insertRegistering index id).Sound := by
  have hpending := h.erasePending id
  unfold SessionRegistry.insertRegistering
  dsimp only
  generalize (s.pendingNotifications.lookup id).getD [] = journal at hpending ⊢
  have hready : ∀ (session : Nat) value, s.ready[session]? = some value →
      (s.ready ++ [false])[session]? = some value := by
    intro session value hvalue
    rw [List.getElem?_append_left]
    . exact hvalue
    . exact (List.getElem?_eq_some_iff.mp hvalue).1
  have hkeeps : ∀ call ∈ s.calls, call ≠ old →
      call ∈ (s.setCall index (.registering id s.ready.length)).calls := by
    intro call hcall hne
    exact mem_setCall hold hne hcall
  have hcases : ∀ call ∈ (s.setCall index (.registering id s.ready.length)).calls,
      call ∈ s.calls ∨ call = .registering id s.ready.length := by
    intro call hcall
    exact List.mem_or_eq_of_mem_set hcall
  constructor
  . constructor
    . unfold occupied at hroom ⊢
      dsimp only [SessionRegistry.setCall]
      rw [Table.size_insert_of_none hentry]
      omega
    . intro reservation hcall
      cases hcases _ hcall with
      | inl hcall => exact h.admitted reservation hcall
      | inr heq => contradiction
    . have hcounted := h.counted
      have hcounted' := hpending.2.counted
      have htotal := Table.total_insert (fun entry : SessionEntry => entry.journal.length) id
        (.registering s.ready.length journal) s.sessions
      have hjournal : (SessionEntry.registering s.ready.length journal).journal = journal := rfl
      unfold Table.weightAt at htotal
      rw [hentry, Option.elim_none, hjournal] at htotal
      unfold journaled at hcounted hcounted' ⊢
      dsimp only [SessionRegistry.setCall] at hcounted hcounted' ⊢
      omega
    . intro message hcall
      cases hcases _ hcall with
      | inl hcall => exact h.calm message hcall
      | inr heq => contradiction
  . exact h.held_nodup
  . exact h.held_lt
  . exact h.held_mem
  . intro id' session journal' hlookup
    dsimp only [SessionRegistry.setCall] at hlookup
    by_cases hid : id' = id
    . rw [hid, AList.lookup_insert] at hlookup
      injection hlookup with hlookup
      injection hlookup with hsession
      rw [hid, ← hsession]
      refine ⟨mem_setCall_self hold _, ?_⟩
      exact List.getElem?_concat_length
    . rw [AList.lookup_insert_ne hid] at hlookup
      have hregistered := h.registered id' session journal' hlookup
      exact ⟨hkeeps _ hregistered.1 (hregisters id' session).symm, hready session _ hregistered.2⟩
  . intro id' session hcall
    dsimp only [SessionRegistry.setCall]
    cases hcases _ hcall with
    | inl hcall =>
      rcases h.registers id' session hcall with ⟨journal', hlookup⟩
      have hid : id' ≠ id := by
        intro hid
        rw [hid, hentry] at hlookup
        contradiction
      rw [AList.lookup_insert_ne hid]
      exact ⟨journal', hlookup⟩
    | inr heq =>
      injection heq with hid hsession
      rw [hid, AList.lookup_insert, hsession]
      exact ⟨journal, rfl⟩
  . intro i j id₁ id₂ session hi hj
    have hfresh : ∀ {i : Nat} {id' : String},
        s.calls[i]? = some (RegistryCall.registering id' s.ready.length) → False := by
      intro i id' hi
      have hmem := List.mem_of_getElem? hi
      rcases h.registers _ _ hmem with ⟨journal', hlookup⟩
      have hregistered := (h.registered _ _ _ hlookup).2
      rw [List.getElem?_eq_none (Nat.le_refl _)] at hregistered
      contradiction
    rcases setCall_cases hi with ⟨hi, hcall⟩ | ⟨-, hi⟩
    . injection hcall with hid hsession
      rw [hsession] at hj
      rcases setCall_cases hj with ⟨hj, -⟩ | ⟨-, hj⟩
      . rw [hi, hj]
      . exact (hfresh hj).elim
    . rcases setCall_cases hj with ⟨-, hcall⟩ | ⟨-, hj⟩
      . injection hcall with hid hsession
        rw [hsession] at hi
        exact (hfresh hi).elim
      . exact h.sole i j id₁ id₂ session hi hj
  . intro session hcall
    cases hcases _ hcall with
    | inl hcall =>
      rcases h.waited session hcall with htrue | ⟨id', hcall'⟩
      . exact .inl (hready session _ htrue)
      . exact .inr ⟨id', hkeeps _ hcall' (hregisters id' session).symm⟩
    | inr heq => contradiction

/--
The registration whose journal is empty goes live, and those who wait for it are told.
-/
theorem Sound.goLive (h : s.Sound) {index : Nat} {id : String} {session : Nat}
    (hcall : s.calls[index]? = some (RegistryCall.registering id session))
    (hentry : s.sessions.lookup id = some (SessionEntry.registering session []))
    : (s.goLive index id session).Sound := by
  have hfalse := (h.registered id session [] hentry).2
  have htrue : (s.ready.set session true)[session]? = some true := by
    rw [List.getElem?_set_self (List.getElem?_eq_some_iff.mp hfalse).1]
  have hsole : ∀ id' session', RegistryCall.registering id' session' ∈ s.calls → session' = session →
      id' = id := by
    intro id' session' hcall' hsession
    rw [List.mem_iff_getElem?] at hcall'
    rcases hcall' with ⟨i, hi⟩
    rw [hsession] at hi
    have hindex := h.sole i index id' id session hi hcall
    rw [hindex, hcall] at hi
    injection hi with hi
    injection hi with hid
    exact hid.symm
  have hcases : ∀ call ∈ s.calls.set index .done, call ∈ s.calls ∨ call = .done := by
    intro call hmem
    exact List.mem_or_eq_of_mem_set hmem
  have hkeeps : ∀ call ∈ s.calls, call ≠ .registering id session → call ∈ s.calls.set index .done := by
    intro call hmem hne
    exact mem_setCall hcall hne hmem
  unfold SessionRegistry.goLive SessionRegistry.setCall
  refine { h with
    occupied_le := ?_, admitted := ?_, counted := ?_, calm := ?_, registered := ?_, registers := ?_,
    sole := ?_, waited := ?_ }
  . have hle := h.occupied_le
    have hsome : (s.sessions.lookup id).isSome := by
      rw [hentry]
      rfl
    unfold occupied at hle ⊢
    dsimp only at hle ⊢
    rw [Table.size_insert_of_some hsome]
    exact hle
  . intro reservation hmem
    cases hcases _ hmem with
    | inl hmem => exact h.admitted reservation hmem
    | inr heq => contradiction
  . have hcounted := h.counted
    have htotal := Table.total_insert (fun entry : SessionEntry => entry.journal.length) id
      (.live session s.nextAccess s.leases.length) s.sessions
    have hold : (SessionEntry.registering session []).journal = [] := rfl
    have hnew : (SessionEntry.live session s.nextAccess s.leases.length).journal = [] := rfl
    unfold Table.weightAt at htotal
    rw [hentry, Option.elim_some, hold, hnew] at htotal
    unfold journaled at hcounted ⊢
    dsimp only at hcounted ⊢
    omega
  . intro message hmem
    cases hcases _ hmem with
    | inl hmem => exact h.calm message hmem
    | inr heq => contradiction
  . intro id' session' journal hlookup
    dsimp only at hlookup ⊢
    by_cases hid : id' = id
    . rw [hid, AList.lookup_insert] at hlookup
      injection hlookup with hlookup
      contradiction
    . rw [AList.lookup_insert_ne hid] at hlookup
      have hregistered := h.registered id' session' journal hlookup
      constructor
      . apply hkeeps _ hregistered.1
        intro heq
        injection heq with heq
        exact hid heq
      . rw [List.getElem?_set_ne]
        . exact hregistered.2
        . intro heq
          exact hid (hsole id' session' hregistered.1 heq.symm)
  . intro id' session' hmem
    dsimp only at hmem ⊢
    rw [List.mem_iff_getElem?] at hmem
    rcases hmem with ⟨i, hi⟩
    rcases setCall_cases hi with ⟨-, heq⟩ | ⟨hne, hi⟩
    . contradiction
    . rcases h.registers id' session' (List.mem_of_getElem? hi) with ⟨journal, hlookup⟩
      have hid : id' ≠ id := by
        intro hid
        rw [hid, hentry] at hlookup
        injection hlookup with hlookup
        injection hlookup with hsession
        rw [← hsession] at hi
        exact hne (h.sole i index id' id session hi hcall)
      rw [AList.lookup_insert_ne hid]
      exact ⟨journal, hlookup⟩
  . intro i j id₁ id₂ session' hi hj
    dsimp only at hi hj
    rcases setCall_cases hi with ⟨-, heq⟩ | ⟨-, hi⟩
    . contradiction
    . rcases setCall_cases hj with ⟨-, heq⟩ | ⟨-, hj⟩
      . contradiction
      . exact h.sole i j id₁ id₂ session' hi hj
  . intro session' hmem
    dsimp only at hmem ⊢
    by_cases hsession : session' = session
    . rw [hsession]
      exact .inl htrue
    . rw [List.getElem?_set_ne (Ne.symm hsession)]
      cases hcases _ hmem with
      | inr heq => contradiction
      | inl hmem =>
        rcases h.waited session' hmem with hready | ⟨id', hcall'⟩
        . exact .inl hready
        . right
          refine ⟨id', hkeeps _ hcall' ?_⟩
          intro heq
          injection heq with hid heq
          exact hsession heq

/-! Sections -/

theorem Sound.takeJournal (h : s.Sound) {index : Nat} {id : String} {session : Nat}
    (hcall : s.calls[index]? = some (RegistryCall.registering id session))
    : (s.takeJournal index id session).Sound := by
  rcases h.registers id session (List.mem_of_getElem? hcall) with ⟨journal, hentry⟩
  unfold SessionRegistry.takeJournal
  rw [hentry]
  cases journal with
  | nil => exact h.goLive hcall hentry
  | cons notification journal =>
    apply h.putJournal hentry
    have hcounted := h.counted
    have htotal := Table.total_erase (fun entry : SessionEntry => entry.journal.length) id s.sessions
    have hjournal : (SessionEntry.registering session (notification :: journal)).journal
        = notification :: journal := rfl
    unfold Table.weightAt at htotal
    rw [hentry, Option.elim_some, hjournal, List.length_cons] at htotal
    unfold journaled at hcounted
    rw [List.length_cons]
    omega

/--
An eviction that is given up gives the session what was pending, and the count covers that.
-/
theorem Sound.restoreEviction (h : s.Sound) {index : Nat} {id : String} {session lastAccess leases : Nat}
    {next : Option (Admission × List String)}
    (hcall : s.calls[index]? = some (.restoring id session lastAccess leases next))
    : (s.restoreEviction index id session lastAccess leases next).Sound := by
  have hregisters : ∀ id' session', RegistryCall.restoring id session lastAccess leases next
      ≠ .registering id' session' := by
    intro id' session' heq
    contradiction
  have hplain : (afterRestore next).isPlain := by
    cases next <;> rfl
  unfold SessionRegistry.restoreEviction
  split
  . next hevicting =>
    have hpending := h.erasePending id
    dsimp only
    rw [if_pos hpending.1]
    unfold isEvicting at hevicting
    split at hevicting
    . next current access counter hentry =>
      have hsound := hpending.2.putEntry hentry rfl (.live session lastAccess leases) rfl
      exact hsound.setCall hcall hregisters (.inl hplain)
    . contradiction
  . exact h.setCall hcall hregisters (.inl hplain)

theorem Sound.refuse (h : s.Sound) {index : Nat} {admission : Admission} {rejected : List String}
    (hcall : s.calls[index]? = some (.admitting admission rejected))
    (hheld : ∀ id reservation, admission = .register id (some reservation) → reservation ∉ s.held)
    : (s.refuse index admission).Sound := by
  have hregisters : ∀ id session, RegistryCall.admitting admission rejected
      ≠ .registering id session := by
    intro id session heq
    contradiction
  unfold SessionRegistry.refuse
  split
  . exact h.setCall hcall hregisters (.inl rfl)
  . exact h.setCall hcall hregisters (.inl rfl)
  . next id reservation =>
    apply h.setCall hcall hregisters
    left
    unfold RegistryCall.isPlain
    dsimp only
    rw [Bool.not_eq_true', ← Bool.not_eq_true, List.contains_iff_mem]
    exact hheld id reservation rfl

theorem Sound.beginEviction (h : s.Sound) {index : Nat} {admission : Admission} {rejected : List String}
    (hcall : s.calls[index]? = some (.admitting admission rejected))
    (hheld : ∀ id reservation, admission = .register id (some reservation) → reservation ∉ s.held)
    (candidate : Option String)
    : (s.beginEviction index admission rejected candidate).Sound := by
  have hregisters : ∀ id session, RegistryCall.admitting admission rejected
      ≠ .registering id session := by
    intro id session heq
    contradiction
  unfold SessionRegistry.beginEviction
  split
  . exact h.refuse hcall hheld
  . next id =>
    split
    . next session lastAccess leases hentry =>
      have hsound := h.putEntry hentry rfl (.evicting session lastAccess leases) rfl
      exact hsound.setCall hcall hregisters (.inl rfl)
    . exact h

theorem Sound.finishEviction (h : s.Sound) {index : Nat} {admission : Admission} {rejected : List String}
    {id : String} {session lastAccess leases : Nat}
    (hcall : s.calls[index]? = some (.evicting admission rejected id session lastAccess leases))
    (operationFree evictable : Bool)
    : (s.finishEviction index admission rejected id session lastAccess leases operationFree
        evictable).Sound := by
  have hregisters : ∀ id' session', RegistryCall.evicting admission rejected id session lastAccess leases
      ≠ .registering id' session' := by
    intro id' session' heq
    contradiction
  unfold SessionRegistry.finishEviction
  dsimp only
  split
  . split
    . next hcan =>
      unfold canEvict at hcan
      rw [Bool.and_eq_true, Bool.and_eq_true, Bool.and_eq_true] at hcan
      have hentry : (s.sessions.lookup id).all fun entry => !entry.isRegistering := by
        have hevicting := hcan.1.1.1
        unfold isEvicting at hevicting
        split at hevicting
        . next hlookup =>
          rw [hlookup]
          rfl
        . contradiction
      have hsound := h.eraseEntry hentry
      have hnothing : (s.pendingNotifications.lookup id).getD [] = [] := by
        have hnone := hcan.1.2
        rw [Option.isNone_iff_eq_none] at hnone
        rw [hnone]
        rfl
      split
      . exact hsound.setCall hcall hregisters (.inl rfl)
      . have hpending := (hsound.erasePending id).2
        dsimp only at hpending
        rw [hnothing] at hpending
        exact hpending.setCall hcall hregisters (.inl rfl)
    . split
      . exact h.setCall hcall hregisters (.inl rfl)
      . split
        . exact h.setCall hcall hregisters (.inl rfl)
        . exact h.setCall hcall hregisters (.inl rfl)
  . exact h.setCall hcall hregisters (.inl rfl)

theorem Sound.admitReserve (h : s.Sound) (hnumbers : s.nextReservation < U64_MAX) {index : Nat}
    {rejected : List String} (hcall : s.calls[index]? = some (.admitting .reserve rejected))
    (candidate : Option String)
    : (s.admitReserve index rejected candidate).Sound := by
  unfold SessionRegistry.admitReserve
  split
  . next hroom =>
    have hsound := h.addReservation hroom hnumbers
    apply hsound.setCall hcall _ (.inl rfl)
    intro id session heq
    contradiction
  . apply h.beginEviction hcall
    intro id reservation heq
    contradiction

theorem Sound.joinEntry (h : s.Sound) {index : Nat} {old : RegistryCall}
    (hcall : s.calls[index]? = some old) (hregisters : ∀ id session, old ≠ .registering id session)
    {id : String} {entry : SessionEntry} (hentry : s.sessions.lookup id = some entry)
    : (s.joinEntry index id entry).Sound := by
  cases entry with
  | live session lastAccess leases => exact h.setCall hcall hregisters (.inl rfl)
  | evicting session lastAccess leases => exact h.setCall hcall hregisters (.inl rfl)
  | registering session journal =>
    apply h.setCall hcall hregisters
    right
    exact ⟨session, rfl, id, (h.registered id session journal hentry).1⟩

theorem useReservation_frame (reservation : Option Nat)
    : (s.useReservation reservation).sessions = s.sessions
        ∧ (s.useReservation reservation).calls = s.calls
        ∧ (s.useReservation reservation).capacity = s.capacity := by
  cases reservation <;> exact ⟨rfl, rfl, rfl⟩

theorem Sound.useReservation (h : s.Sound) (reservation : Option Nat)
    : (s.useReservation reservation).Sound := by
  cases reservation with
  | none => exact h
  | some reservation => exact h.releaseReservation reservation

/--
Whoever gives a reservation that is outstanding finds room.
-/
theorem Sound.admitRegister (h : s.Sound) {index : Nat} {id : String} {reservation : Option Nat}
    {rejected : List String}
    (hcall : s.calls[index]? = some (.admitting (.register id reservation) rejected))
    (candidate : Option String)
    : (s.admitRegister index id reservation rejected candidate).Sound := by
  have hregisters : ∀ id' session, RegistryCall.admitting (.register id reservation) rejected
      ≠ .registering id' session := by
    intro id' session heq
    contradiction
  have hframe := useReservation_frame (s := s) reservation
  have hcall' := hcall
  rw [← hframe.2.1] at hcall'
  unfold SessionRegistry.admitRegister
  split
  . next hunknown =>
    apply h.refuse hcall
    intro id' number heq hheld
    injection heq with hid hreservation
    rw [hreservation, Option.any_some, Bool.not_eq_true', ← Bool.not_eq_true, List.contains_iff_mem]
      at hunknown
    exact hunknown (h.held_mem number hheld)
  . next hknown =>
    have hmem : ∀ number, reservation = some number → number ∈ s.reservations := by
      intro number hreservation
      rw [hreservation, Option.any_some, Bool.not_eq_true', Bool.not_eq_false, List.contains_iff_mem]
        at hknown
      exact hknown
    split
    . next entry hentry =>
      rw [← hframe.1] at hentry
      exact (h.useReservation reservation).joinEntry hcall' hregisters hentry
    . next hentry =>
      split
      . next hroom =>
        rw [← hframe.1] at hentry
        apply (h.useReservation reservation).insertRegistering _ hentry hcall' hregisters
        rw [hframe.2.2]
        cases reservation with
        | none => exact hroom
        | some number =>
          have hlength := List.length_erase_of_mem (hmem number rfl)
          have hpos := List.length_pos_of_mem (hmem number rfl)
          unfold occupied SessionRegistry.useReservation SessionRegistry.releaseReservation
          unfold occupied at hroom
          rw [Option.toList_some, List.length_singleton] at hroom
          dsimp only
          omega
      . next hfull =>
        apply h.beginEviction hcall
        intro id' number heq
        injection heq with hid hreservation
        have hpos := List.length_pos_of_mem (hmem number hreservation)
        have hle := h.occupied_le
        unfold occupied at hfull hle
        rw [hreservation, Option.toList_some, List.length_singleton] at hfull
        omega

/--
The sender of a channel that is waited for is alive until it has sent.
-/
theorem Sound.await (h : s.Sound) {index session : Nat} {s' : SessionRegistry}
    (hcall : s.calls[index]? = some (.waiting session)) (hstep : s.await index session = some s')
    : s'.Sound := by
  have hregisters : ∀ id session', RegistryCall.waiting session ≠ .registering id session' := by
    intro id session' heq
    contradiction
  unfold SessionRegistry.await at hstep
  split at hstep
  . injection hstep with hstep
    rw [← hstep]
    exact h.setCall hcall hregisters (.inl rfl)
  . next hready =>
    split at hstep
    . contradiction
    . next hdropped =>
      rcases h.waited session (List.mem_of_getElem? hcall) with htrue | ⟨id, hmem⟩
      . exact absurd htrue hready
      . exfalso
        apply hdropped
        unfold senderAlive
        rw [List.any_eq_true]
        exact ⟨_, hmem, beq_self_eq_true session⟩

theorem Sound.touch (h : s.Sound) (id : String) : (s.touch id).Sound := by
  unfold SessionRegistry.touch
  split
  . next session lastAccess leases hentry =>
    have hsound := h.putEntry hentry rfl (.live session s.nextAccess leases) rfl
    exact hsound.withAccess (saturatingAdd U64_MAX s.nextAccess 1) s.leases
  . exact h.withAccess (saturatingAdd U64_MAX s.nextAccess 1) s.leases

theorem Sound.addLease (h : s.Sound) (leases : Nat) : (s.addLease leases).Sound := by
  have hsound := h.withAccess s.nextAccess (s.leases.modify leases (· + 1))
  exact hsound.addCall rfl

theorem Sound.lease (h : s.Sound) (id : String) : (s.lease id).Sound := by
  unfold SessionRegistry.lease leaseOf
  split
  . exact (h.touch id).addLease _
  . exact h.touch id

theorem Sound.route (h : s.Sound) (id : String) (notification : Nat)
    : (s.route id notification).Sound := by
  unfold SessionRegistry.route
  split
  . exact h.addLease _
  . exact h.addCall rfl
  . next session journal hentry =>
    split
    . exact h
    . apply h.putJournal hentry
      rw [List.length_append, List.length_singleton]
      omega
  . exact h.park id notification

theorem park_calls (id : String) (notification : Nat) : (s.park id notification).calls = s.calls := by
  unfold park
  split <;> rfl

theorem Sound.routeCaptured (h : s.Sound) {index : Nat} {id : String} {session notification : Nat}
    (hcall : s.calls[index]? = some (.captured id session notification))
    : (s.routeCaptured index id session notification).Sound := by
  have hregisters : ∀ id' session', RegistryCall.captured id session notification
      ≠ .registering id' session' := by
    intro id' session' heq
    contradiction
  unfold SessionRegistry.routeCaptured
  split
  . exact h.setCall hcall hregisters (.inl rfl)
  . rw [← park_calls id notification] at hcall
    exact (h.park id notification).setCall hcall hregisters (.inl rfl)

theorem Sound.dropLease (h : s.Sound) {index leases : Nat}
    (hcall : s.calls[index]? = some (.leasing leases))
    : (s.dropLease index leases).Sound := by
  have hsound := h.withAccess s.nextAccess (s.leases.modify leases (· - 1))
  apply hsound.setCall hcall _ (.inl rfl)
  intro id session heq
  contradiction

theorem Sound.runSection (h : s.Sound) (hnumbers : s.nextReservation < U64_MAX) {index : Nat}
    {candidate : Option String} {operationFree evictable : Bool} {s' : SessionRegistry}
    (hstep : s.runSection index candidate operationFree evictable = some s')
    : s'.Sound := by
  unfold SessionRegistry.runSection at hstep
  split at hstep
  . next rejected hcall =>
    split at hstep
    . injection hstep with hstep
      rw [← hstep]
      exact h.admitReserve hnumbers hcall candidate
    . contradiction
  . next id reservation rejected hcall =>
    split at hstep
    . injection hstep with hstep
      rw [← hstep]
      exact h.admitRegister hcall candidate
    . contradiction
  . next admission rejected id session lastAccess leases hcall =>
    injection hstep with hstep
    rw [← hstep]
    exact h.finishEviction hcall operationFree evictable
  . next id session lastAccess leases next hcall =>
    injection hstep with hstep
    rw [← hstep]
    exact h.restoreEviction hcall
  . next id session hcall =>
    injection hstep with hstep
    rw [← hstep]
    exact h.takeJournal hcall
  . next session hcall => exact h.await hcall hstep
  . next id session notification hcall =>
    injection hstep with hstep
    rw [← hstep]
    exact h.routeCaptured hcall
  . next leases hcall =>
    injection hstep with hstep
    rw [← hstep]
    exact h.dropLease hcall
  . contradiction

theorem sound_step {label : RegistryLabel} {s' : SessionRegistry} (h : s.Sound)
    (hkeeps : s.keepsEntries label = true) (hstep : s.step label = some s')
    : s'.Sound := by
  cases label with
  | reserve =>
    injection hstep with hstep
    rw [← hstep]
    exact h.addCall rfl
  | releaseReservation reservation =>
    injection hstep with hstep
    rw [← hstep]
    exact h.releaseReservation reservation
  | register id reservation =>
    injection hstep with hstep
    rw [← hstep]
    exact h.addCall rfl
  | get id =>
    injection hstep with hstep
    rw [← hstep]
    exact h.touch id
  | lease id =>
    injection hstep with hstep
    rw [← hstep]
    exact h.lease id
  | remove id =>
    injection hstep with hstep
    rw [← hstep]
    exact h.eraseEntry hkeeps
  | route id notification =>
    injection hstep with hstep
    rw [← hstep]
    exact h.route id notification
  | callSection index candidate operationFree evictable =>
    apply h.runSection _ hstep
    unfold keepsEntries at hkeeps
    exact of_decide_eq_true hkeeps

/--
In every run that removes no entry while it is being registered, the accounts stay in order.
-/
theorem accounted_of_exec {capacity : Nat} {labels : List RegistryLabel}
    (hmeets : Meets step (fun s label => s.keepsEntries label = true) { capacity } labels)
    (hexec : exec step { capacity } labels = some s)
    : s.Accounted :=
  (exec_invariant (fun _ _ _ => sound_step) (sound_init capacity) hmeets hexec).toAccounted

/--
Two calls register a session for which a notification waits, and one reserves room; the first one takes
the notification and goes live.
-/
def registeredTwice : List RegistryLabel :=
  [.route "a" 0, .reserve, .callSection 0 none true true, .register "a" (some 0), .register "a" none,
    .callSection 1 none true true, .callSection 2 none true true, .callSection 1 none true true,
    .callSection 1 none true true, .callSection 2 (some "a") true true]

theorem accounted_of_registeredTwice
    : (exec step { capacity := 1 } registeredTwice).isSome
        ∧ ∀ s, exec step { capacity := 1 } registeredTwice = some s → s.Accounted := by
  refine ⟨by decide +kernel, ?_⟩
  intro s hexec
  exact accounted_of_exec (by decide +kernel) hexec

/--
The session is removed before the first call takes the notification: it stays counted, and the second
call panics.
-/
def removedRegistering : List RegistryLabel :=
  [.route "a" 0, .register "a" none, .register "a" none, .callSection 0 none true true,
    .callSection 1 none true true, .remove "a", .callSection 0 none true true, .callSection 1 none true true]

theorem not_accounted_of_removedRegistering
    : ∃ s ∈ exec step { capacity := 1 } removedRegistering,
        s.pendingNotificationCount ≠ s.journaled
          ∧ .panicked "registration sender remains alive with its entry" ∈ s.calls := by
  decide +kernel

end SessionRegistry

end Session
