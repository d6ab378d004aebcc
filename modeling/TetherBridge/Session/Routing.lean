import TetherBridge.Data.Sole
import TetherBridge.Transition.Basic
import TetherBridge.Session.Registry

/-!
This module contains the path of the notifications of a session id from `route` to the receipts of its
session. They are conserved and stay in order, as long as no journal that was taken out of the registry
is overtaken and nothing is parked or delivered behind the back of the entry.
-/

namespace Session

open Transition

/--
The notifications a task has taken out of the registry.
-/
def RegistryTask.carried : RegistryTask → List Nat
  | .journaling _ notification => [notification]
  | .restored _ journal => journal
  | _ => []

/--
The session that the task registers.
-/
def RegistryTask.registers : RegistryTask → Option Nat
  | .registering session => some session
  | .journaling session _ => some session
  | _ => none

/--
The notification `route` has in its hands.
-/
def RouteCall.held : RouteCall → List Nat
  | .captured _ notification => [notification]
  | .delivering _ notification _ => [notification]
  | _ => []

/--
The notification `route` has not answered for.
-/
def RouteCall.unanswered : RouteCall → List Nat
  | .captured _ notification => [notification]
  | .delivering _ notification _ => [notification]
  | .delivered _ notification _ => [notification]
  | .idle => []

/--
The entry takes notifications, so that none has to be parked.
-/
def RegistryEntry.accepts : RegistryEntry → Bool
  | .registering .. => true
  | .live _ => true
  | .evicting _ => false

namespace RegistryState

variable (s : RegistryState)

def carried : List Nat :=
  s.tasks.flatMap RegistryTask.carried

def enqueued : List Nat :=
  s.log.map (·.notification)

/--
The notifications of the calls so far that were not refused.
-/
def accepted : List Nat :=
  s.answered ++ s.route.unanswered

def quiescent : Bool :=
  s.route = .idle && s.tasks.all (· = .done)

end RegistryState

/--
The condition on a section. The second section of `route` finds the id absent, on its way out, or live
with the session it has captured for. While a journal is on its way to a session, `route` delivers
nothing, no other journal is taken, and no session is evicted. A session that `route` delivers to
without a lease is not evicted either.
-/
def keepsOrder (s : RegistryState) : Routing → Bool
  | .routeSection =>
    match s.route with
    | .captured session _ =>
      s.entry.all fun entry => entry = .live session || !entry.accepts
    | .delivering .. => s.carried.isEmpty
    | _ => true
  | .taskSection index operationFree evictable =>
    match s.tasks[index]? with
    | some (.evicting session _) =>
      !operationFree || !s.canEvict session evictable || s.carried.isEmpty && s.route.held.isEmpty
    | some (.restoring session) =>
      s.entry ≠ some (.evicting session) || s.pendingNotifications.isEmpty || s.carried.isEmpty
    | _ => true
  | _ => true

/--
What a task relies on.
-/
def Fits (entry : Option RegistryEntry) : RegistryTask → Prop
  | .registering session => ∃ journal, entry = some (.registering session journal)
  | .journaling session _ => ∃ journal, entry = some (.registering session journal)
  | .restored session journal =>
    journal = [] ∨ entry = some (.live session) ∨ entry = some (.evicting session)
  | _ => True

/--
What `route` relies on before it enqueues.
-/
def RouteFits (s : RegistryState) : RouteCall → Prop
  | .delivering session _ leased =>
    s.pendingNotifications = []
      ∧ (s.entry = some (.live session) ∨ leased = false ∧ s.entry = some (.evicting session))
      ∧ (leased = true → s.unleased session = false)
  | _ => True

/--
The invariant: what was enqueued, is carried by a task, waits in the registry or is held by `route` is
what was accepted, in this order.
-/
structure InOrder (s : RegistryState) : Prop where
  conserved : s.enqueued ++ s.carried ++ s.journal ++ s.pendingNotifications ++ s.route.held
    = s.accepted
  increasing : s.accepted.Pairwise (· < ·)
  accepted_lt : ∀ notification ∈ s.accepted, notification < s.nextNotification
  registered : ∀ enqueued ∈ s.log, enqueued.registered
  waiting : ∀ entry, s.entry = some entry → entry.accepts → s.pendingNotifications = []
  sole : ∃ i, List.Sole RegistryTask.carried s.tasks i
  fits : ∀ (i : Nat) (task : RegistryTask), s.tasks[i]? = some task → Fits s.entry task
  registrar : ∀ session journal, s.entry = some (.registering session journal) →
    ∃ i : Nat, (∃ task, s.tasks[i]? = some task ∧ task.registers.isSome)
      ∧ ∀ (j : Nat) (task : RegistryTask), s.tasks[j]? = some task → task.registers.isSome → j = i
  route : RouteFits s s.route

namespace InOrder

variable {s : RegistryState}

theorem init : InOrder {} := by
  constructor <;> simp [RegistryState.enqueued, RegistryState.carried, RegistryState.journal,
    RegistryState.accepted, RouteCall.held, RouteCall.unanswered, RouteFits, List.Sole]

theorem elsewhere (h : InOrder s) (count : Nat) : InOrder { s with elsewhere := count } :=
  { h with }

theorem unleased_modifySession (session : Nat) {update : RegisteredSession → RegisteredSession}
    (hupdate : ∀ state, (update state).leases = state.leases) (target : Nat)
    : (s.modifySession session update).unleased target = s.unleased target := by
  unfold RegistryState.modifySession RegistryState.unleased
  dsimp only
  rw [List.getElem?_modify]
  cases s.sessions[target]? with
  | none => rfl
  | some state =>
    dsimp only [Option.map_eq_map, Option.map_some, Option.any_some]
    split
    . rw [hupdate]
    . rfl

/--
Nothing of a session matters but whether it is leased.
-/
theorem modifySession (h : InOrder s) (session : Nat)
    {update : RegisteredSession → RegisteredSession}
    (hupdate : ∀ state, (update state).leases = state.leases)
    : InOrder (s.modifySession session update) := by
  refine { h with route := ?_ }
  have hroute := h.route
  change RouteFits _ s.route
  cases hcall : s.route with
  | delivering target notification leased =>
    rw [hcall] at hroute
    refine ⟨hroute.1, hroute.2.1, ?_⟩
    intro hleased
    rw [unleased_modifySession session hupdate]
    exact hroute.2.2 hleased
  | _ => trivial

theorem drain (h : InOrder s) (session : Nat) : InOrder (s.drain session) := by
  apply h.modifySession
  intro state
  split <;> rfl

/--
The part of the invariant that is about the call of `route` in progress.
-/
theorem view (h : InOrder s) {route : RouteCall} (hroute : s.route = route)
    : s.enqueued ++ s.carried ++ s.journal ++ s.pendingNotifications ++ route.held
          = s.answered ++ route.unanswered
        ∧ (s.answered ++ route.unanswered).Pairwise (· < ·)
        ∧ (∀ notification ∈ s.answered ++ route.unanswered, notification < s.nextNotification)
        ∧ RouteFits s route := by
  subst hroute
  exact ⟨h.conserved, h.increasing, h.accepted_lt, h.route⟩

/-! `route` -/

/--
The notification of the next call is greater than all before.
-/
theorem accept (h : InOrder s) (hidle : s.route = .idle)
    : (s.answered ++ [s.nextNotification]).Pairwise (· < ·)
        ∧ ∀ notification ∈ s.answered ++ [s.nextNotification],
          notification < s.nextNotification + 1 := by
  rcases h.view hidle with ⟨-, hincreasing, hlt, -⟩
  rw [RouteCall.unanswered, List.append_nil] at hincreasing hlt
  constructor
  . rw [List.pairwise_append]
    refine ⟨hincreasing, List.pairwise_singleton _ _, ?_⟩
    intro old hold new hnew
    rw [List.mem_singleton] at hnew
    rw [hnew]
    exact hlt old hold
  . intro notification hmem
    rw [List.mem_append, List.mem_singleton] at hmem
    cases hmem with
    | inl hold => exact Nat.lt_succ_of_lt (hlt notification hold)
    | inr hnew => omega

theorem conserved_of_idle (h : InOrder s) (hidle : s.route = .idle)
    : s.enqueued ++ s.carried ++ s.journal ++ s.pendingNotifications = s.answered := by
  simpa [RouteCall.held, RouteCall.unanswered] using (h.view hidle).1

/--
A parked notification waits behind everything else.
-/
theorem park (h : InOrder s) {notification : Nat} (hheld : s.route.held = [notification])
    (hunanswered : s.route.unanswered = [notification])
    (hentry : ∀ entry, s.entry = some entry → entry.accepts = false)
    : InOrder (s.park notification) := by
  rcases h.view rfl with ⟨hconserved, hincreasing, hlt, -⟩
  rw [hunanswered] at hconserved hincreasing hlt
  rw [hheld] at hconserved
  unfold RegistryState.park
  split
  . have hdropped := List.append_cancel_right hconserved
    constructor
    case conserved =>
      change s.enqueued ++ s.carried ++ s.journal ++ s.pendingNotifications ++ [] = s.answered ++ []
      rw [hdropped, List.append_nil]
    case increasing => exact hincreasing.sublist (by simp [RegistryState.accepted, RouteCall.unanswered])
    case accepted_lt =>
      intro old hold
      change old ∈ s.answered ++ [] at hold
      rw [List.append_nil] at hold
      exact hlt old (List.mem_append_left _ hold)
    case registered => exact h.registered
    case waiting => exact h.waiting
    case sole => exact h.sole
    case fits => exact h.fits
    case registrar => exact h.registrar
    case route => trivial
  . constructor
    case conserved =>
      change s.enqueued ++ s.carried ++ s.journal ++ (s.pendingNotifications ++ [notification]) ++ []
        = s.answered ++ [notification] ++ []
      rw [List.append_nil, List.append_nil, ← List.append_assoc, hconserved]
    case increasing => simpa [RegistryState.accepted, RouteCall.unanswered] using hincreasing
    case accepted_lt => simpa [RegistryState.accepted, RouteCall.unanswered] using hlt
    case registered => exact h.registered
    case waiting =>
      intro entry heq haccepts
      rw [hentry entry heq] at haccepts
      contradiction
    case sole => exact h.sole
    case fits => exact h.fits
    case registrar => exact h.registrar
    case route => trivial

/--
The next call of `route` has begun.
-/
theorem beginRoute (h : InOrder s) (hidle : s.route = .idle) (session : Nat)
    : InOrder { s with
        nextNotification := s.nextNotification + 1
        route := .captured session s.nextNotification } := by
  have haccept := h.accept hidle
  have hconserved := h.conserved_of_idle hidle
  constructor
  case conserved =>
    change s.enqueued ++ s.carried ++ s.journal ++ s.pendingNotifications ++ [s.nextNotification]
      = s.answered ++ [s.nextNotification]
    rw [hconserved]
  case increasing => exact haccept.1
  case accepted_lt => exact haccept.2
  case registered => exact h.registered
  case waiting => exact h.waiting
  case sole => exact h.sole
  case fits => exact h.fits
  case registrar => exact h.registrar
  case route => trivial

theorem unleased_lease (session : Nat)
    : (s.modifySession session fun state => { state with leases := state.leases + 1 }).unleased
        session = false := by
  unfold RegistryState.unleased RegistryState.modifySession
  dsimp only
  rw [List.getElem?_modify_eq]
  cases s.sessions[session]? with
  | none => rfl
  | some state => rfl

theorem routeFirst (h : InOrder s) (hidle : s.route = .idle) : InOrder s.routeFirst := by
  unfold RegistryState.routeFirst
  dsimp only
  split
  . next session hentry =>
    have hbegin := h.beginRoute hidle session
    exact
      { hbegin with
        route := ⟨h.waiting _ hentry rfl, .inl hentry, fun _ => unleased_lease session⟩ }
  . next session hentry => exact h.beginRoute hidle session
  . next session journal hentry =>
    have haccept := h.accept hidle
    have hconserved := h.conserved_of_idle hidle
    have hpending := h.waiting _ hentry rfl
    have hjournal : s.journal = journal := by
      unfold RegistryState.journal
      rw [hentry]
    split
    . refine { h with accepted_lt := ?_ }
      intro notification hmem
      exact Nat.lt_succ_of_lt (h.accepted_lt notification hmem)
    . rw [hjournal, hpending, List.append_nil] at hconserved
      constructor
      case conserved =>
        unfold RegistryState.accepted
        dsimp only
        rw [hidle]
        change s.enqueued ++ s.carried ++ (journal ++ [s.nextNotification]) ++ s.pendingNotifications
          ++ [] = s.answered ++ [s.nextNotification] ++ []
        rw [hpending, List.append_nil, List.append_nil, List.append_nil, ← List.append_assoc,
          hconserved]
      case increasing =>
        unfold RegistryState.accepted
        dsimp only
        rw [hidle]
        simpa [RouteCall.unanswered] using haccept.1
      case accepted_lt =>
        unfold RegistryState.accepted
        dsimp only
        rw [hidle]
        simpa [RouteCall.unanswered] using haccept.2
      case registered => exact h.registered
      case waiting => exact fun _ _ _ => hpending
      case sole => exact h.sole
      case fits =>
        intro i task htask
        have hfits := h.fits i task htask
        rw [hentry] at hfits
        cases task <;> simp_all [Fits]
      case registrar =>
        intro session' journal' heq
        exact h.registrar session journal hentry
      case route =>
        rw [hidle]
        trivial
  . next hentry =>
    apply (h.beginRoute hidle 0).park rfl rfl
    intro entry heq
    change s.entry = some entry at heq
    rw [hentry] at heq
    contradiction

/--
The rule for what is put into the receipts of the registered session: it is the first of what has not
been enqueued.
-/
theorem enqueue (h : InOrder s) {session : Nat} {notifications : List Nat}
    (hentry : notifications = [] ∨ ∃ entry, s.entry = some entry ∧ entry.session = session)
    {tasks : List RegistryTask} {route : RouteCall}
    (hconserved : s.enqueued ++ notifications ++ tasks.flatMap RegistryTask.carried ++ s.journal
      ++ s.pendingNotifications ++ route.held = s.answered ++ route.unanswered)
    (hanswered : s.route.unanswered = route.unanswered)
    (hsole : ∃ i, List.Sole RegistryTask.carried tasks i)
    (hfits : ∀ (i : Nat) task, tasks[i]? = some task → Fits s.entry task)
    (hregistrar : ∀ session journal, s.entry = some (.registering session journal) →
      ∃ i : Nat, (∃ task, tasks[i]? = some task ∧ task.registers.isSome)
        ∧ ∀ (j : Nat) (task : RegistryTask), tasks[j]? = some task → task.registers.isSome → j = i)
    (hroute : RouteFits s route)
    : InOrder { s.enqueue session notifications with tasks, route } := by
  rcases h.view rfl with ⟨-, hincreasing, hlt, -⟩
  rw [hanswered] at hincreasing hlt
  constructor
  case conserved =>
    unfold RegistryState.enqueued RegistryState.enqueue
    dsimp only
    rw [List.map_append, List.map_map]
    have hmap : (notifications.map ((fun e : Enqueued => e.notification) ∘ fun notification =>
        { notification, registered := s.entry.any (·.session == session) })) = notifications :=
      List.map_id _
    rw [hmap]
    exact hconserved
  case increasing => exact hincreasing
  case accepted_lt => exact hlt
  case registered =>
    intro enqueued hmem
    unfold RegistryState.enqueue at hmem
    rw [List.mem_append, List.mem_map] at hmem
    cases hmem with
    | inl hold => exact h.registered enqueued hold
    | inr hnew =>
      rcases hnew with ⟨notification, hmem, heq⟩
      cases hentry with
      | inl hnil =>
        rw [hnil] at hmem
        contradiction
      | inr hentry =>
        rcases hentry with ⟨entry, hentry, hsession⟩
        rw [← heq, hentry, ← hsession]
        exact beq_self_eq_true _
  case waiting => exact h.waiting
  case sole => exact hsole
  case fits => exact hfits
  case registrar => exact hregistrar
  case route =>
    have hleases : ∀ target, (s.enqueue session notifications).unleased target
        = s.unleased target := unleased_modifySession session fun _ => rfl
    change RouteFits _ route
    cases hcall : route with
    | delivering target notification leased =>
      rw [hcall] at hroute
      refine ⟨hroute.1, hroute.2.1, ?_⟩
      intro hleased
      exact (hleases target).trans (hroute.2.2 hleased)
    | _ => trivial

/--
`route` puts the notification it holds into the receipts of the session.
-/
theorem deliver (h : InOrder s) {session notification : Nat} {leased : Bool}
    (hroute : s.route = .delivering session notification leased) (hcarried : s.carried = [])
    : InOrder { s.enqueue session [notification] with
        route := .delivered session notification leased } := by
  rcases h.view hroute with ⟨hconserved, -, -, hpending, hentry, -⟩
  have hjournal : s.journal = [] := by
    unfold RegistryState.journal
    rcases hentry with hlive | ⟨-, hevicting⟩
    . rw [hlive]
    . rw [hevicting]
  rw [hcarried, hjournal, hpending] at hconserved
  refine h.enqueue ?_ ?_ ?_ h.sole h.fits h.registrar trivial
  . rcases hentry with hlive | ⟨-, hevicting⟩
    . exact .inr ⟨_, hlive, rfl⟩
    . exact .inr ⟨_, hevicting, rfl⟩
  . change _ ++ s.carried ++ _ ++ _ ++ _ = _
    rw [hcarried, hjournal, hpending]
    simpa [RouteCall.held, RouteCall.unanswered] using hconserved
  . rw [hroute]
    rfl

/--
The answer of `route`.
-/
theorem answer (h : InOrder s) {session notification : Nat} {leased : Bool}
    (hroute : s.route = .delivered session notification leased)
    : InOrder { s with route := .idle, answered := s.answered ++ [notification] } := by
  rcases h.view hroute with ⟨hconserved, hincreasing, hlt, -⟩
  constructor
  case conserved =>
    unfold RegistryState.accepted
    dsimp only
    rw [RouteCall.unanswered, List.append_nil]
    exact hconserved
  case increasing =>
    unfold RegistryState.accepted
    dsimp only
    rw [RouteCall.unanswered, List.append_nil]
    exact hincreasing
  case accepted_lt =>
    unfold RegistryState.accepted
    dsimp only
    rw [RouteCall.unanswered, List.append_nil]
    exact hlt
  case registered => exact h.registered
  case waiting => exact h.waiting
  case sole => exact h.sole
  case fits => exact h.fits
  case registrar => exact h.registrar
  case route => trivial

theorem routeNext (h : InOrder s) {t : RegistryState} (hguard : keepsOrder s .routeSection)
    (hstep : s.routeNext = some t)
    : InOrder t := by
  unfold RegistryState.routeNext at hstep
  unfold keepsOrder at hguard
  cases hroute : s.route with
  | idle =>
    rw [hroute] at hstep
    contradiction
  | captured session notification =>
    rw [hroute] at hstep hguard
    dsimp only at hstep hguard
    split at hstep
    . next hentry =>
      rw [← Option.some.inj hstep]
      rcases h.view hroute with ⟨hconserved, hincreasing, hlt, -⟩
      exact
        { h with
          conserved := hconserved
          increasing := hincreasing
          accepted_lt := hlt
          route := ⟨h.waiting _ hentry rfl, .inl hentry, by simp⟩ }
    . next hentry =>
      rw [← Option.some.inj hstep]
      apply h.park
      . rw [hroute]
        rfl
      . rw [hroute]
        rfl
      . intro entry heq
        rw [heq] at hguard hentry
        simp_all
  | delivering session notification leased =>
    rw [hroute] at hstep hguard
    rw [← Option.some.inj hstep]
    exact h.deliver hroute (List.isEmpty_iff.mp hguard)
  | delivered session notification leased =>
    rw [hroute] at hstep
    rw [← Option.some.inj hstep]
    have hanswer := h.answer hroute
    split
    . exact { hanswer with route := trivial }
    . exact hanswer

/-! `register` and the start of an eviction -/

/--
A call begins that carries nothing and registers nothing.
-/
theorem appendTask (h : InOrder s) (task : RegistryTask) (hcarried : task.carried = [])
    (hregisters : task.registers = none) (hfits : Fits s.entry task)
    : InOrder { s with tasks := s.tasks ++ [task] } := by
  have hold : ∀ (i : Nat) (t : RegistryTask), (s.tasks ++ [task])[i]? = some t →
      s.tasks[i]? = some t ∨ t = task := by
    intro i t ht
    rw [List.getElem?_append] at ht
    split at ht
    . exact .inl ht
    . rw [List.getElem?_singleton] at ht
      split at ht
      . exact .inr (Option.some.inj ht).symm
      . contradiction
  constructor
  case conserved =>
    have hconserved := h.conserved
    unfold RegistryState.carried at hconserved ⊢
    dsimp only
    rw [List.flatMap_append, List.flatMap_singleton, hcarried, List.append_nil]
    exact hconserved
  case increasing => exact h.increasing
  case accepted_lt => exact h.accepted_lt
  case registered => exact h.registered
  case waiting => exact h.waiting
  case sole =>
    cases h.sole with
    | intro i hsole => exact ⟨i, hsole.append_singleton hcarried⟩
  case fits =>
    intro i t ht
    cases hold i t ht with
    | inl ht => exact h.fits i t ht
    | inr heq =>
      rw [heq]
      exact hfits
  case registrar =>
    intro session journal hentry
    rcases h.registrar session journal hentry with ⟨i, ⟨t, ht, hregister⟩, hunique⟩
    refine ⟨i, ⟨t, ?_, hregister⟩, ?_⟩
    . dsimp only
      rw [List.getElem?_append_left (List.getElem?_eq_some_iff.mp ht).1]
      exact ht
    . intro j t' ht' hregister'
      cases hold j t' ht' with
      | inl ht' => exact hunique j t' ht' hregister'
      | inr heq =>
        rw [heq, hregisters] at hregister'
        contradiction
  case route => exact h.route

/--
A task that relies on no entry carries nothing and registers nothing.
-/
theorem idle_of_fits_none {task : RegistryTask} (h : Fits none task)
    : task.carried = [] ∧ task.registers = none := by
  cases task <;> simp_all [Fits, RegistryTask.carried, RegistryTask.registers]

theorem not_registers_of_fits {entry : RegistryEntry} {task : RegistryTask}
    (h : Fits (some entry) task) (hentry : ∀ session journal, entry ≠ .registering session journal)
    : task.registers = none := by
  cases task <;> simp_all [Fits, RegistryTask.registers]

theorem register (h : InOrder s) : InOrder s.register := by
  unfold RegistryState.register
  split
  . exact h
  . exact h
  . exact h.appendTask _ rfl rfl trivial
  . next hentry =>
    have hjournal : s.journal = [] := by
      unfold RegistryState.journal
      rw [hentry]
    have hidle : ∀ (i : Nat) (task : RegistryTask), s.tasks[i]? = some task →
        task.carried = [] ∧ task.registers = none := by
      intro i task htask
      have hfits := h.fits i task htask
      rw [hentry] at hfits
      exact idle_of_fits_none hfits
    constructor
    case conserved =>
      have hconserved := h.conserved
      rw [hjournal, List.append_nil] at hconserved
      change s.enqueued ++ (s.tasks ++ [RegistryTask.registering s.sessions.length]).flatMap
        RegistryTask.carried ++ s.pendingNotifications ++ [] ++ s.route.held = s.accepted
      rw [List.flatMap_append, List.append_nil]
      exact (List.append_nil (s.tasks.flatMap RegistryTask.carried)).symm ▸ hconserved
    case increasing => exact h.increasing
    case accepted_lt => exact h.accepted_lt
    case registered => exact h.registered
    case waiting => exact fun _ _ _ => rfl
    case sole =>
      cases h.sole with
      | intro i hsole => exact ⟨i, hsole.append_singleton rfl⟩
    case fits =>
      intro i task htask
      rw [List.getElem?_append] at htask
      split at htask
      . have hidle := hidle i task htask
        cases task <;> simp_all [Fits, RegistryTask.carried, RegistryTask.registers]
      . rw [List.getElem?_singleton] at htask
        split at htask
        . rw [← Option.some.inj htask]
          exact ⟨_, rfl⟩
        . contradiction
    case registrar =>
      intro session journal _
      refine ⟨s.tasks.length, ⟨_, List.getElem?_concat_length, rfl⟩, ?_⟩
      intro j task htask hregisters
      rw [List.getElem?_append] at htask
      split at htask
      . rw [(hidle j task htask).2] at hregisters
        contradiction
      . rw [List.getElem?_singleton] at htask
        split at htask
        . omega
        . contradiction
    case route =>
      change RouteFits _ s.route
      cases hroute : s.route with
      | delivering target notification leased =>
        have hfits := (h.view hroute).2.2.2
        rw [RouteFits, hentry] at hfits
        simp at hfits
      | _ => trivial

/--
An entry that is evicted takes no notifications any more.
-/
theorem evict (h : InOrder s) {reserving : Bool} {t : RegistryState}
    (hstep : s.evict reserving = some t)
    : InOrder t := by
  unfold RegistryState.evict at hstep
  split at hstep
  . next session hentry =>
    split at hstep
    . next hleases =>
      rw [← Option.some.inj hstep]
      have happend := h.appendTask (.evicting session reserving) rfl rfl trivial
      have hjournal : s.journal = [] := by
        unfold RegistryState.journal
        rw [hentry]
      refine
        { happend with conserved := ?_, waiting := ?_, fits := ?_, registrar := ?_, route := ?_ }
      . have hconserved := happend.conserved
        change _ ++ s.journal ++ _ ++ _ = _ at hconserved
        rw [hjournal] at hconserved
        exact hconserved
      . intro entry heq haccepts
        rw [← Option.some.inj heq] at haccepts
        contradiction
      . intro i task htask
        have hfits := happend.fits i task htask
        change Fits s.entry task at hfits
        rw [hentry] at hfits
        cases task <;> simp_all [Fits]
      . intro session journal heq
        injection heq with heq
        contradiction
      . change RouteFits _ s.route
        cases hroute : s.route with
        | delivering target notification leased =>
          rcases (h.view hroute).2.2.2 with ⟨hpending, hlive, hleased⟩
          rw [hentry] at hlive
          cases hlive with
          | inl hlive =>
            injection hlive with hlive
            injection hlive with hlive
            subst hlive
            cases leased with
            | false => exact ⟨hpending, .inr ⟨rfl, rfl⟩, by simp⟩
            | true =>
              rw [hleased rfl] at hleases
              contradiction
          | inr hevicting =>
            injection hevicting.2 with hevicting
            contradiction
        | _ => trivial
    . contradiction
  . contradiction

/-! The sections of the tasks -/

theorem getElem?_set_cases {tasks : List RegistryTask} {index i : Nat} {new task : RegistryTask}
    (h : (tasks.set index new)[i]? = some task)
    : (i = index ∧ task = new) ∨ (i ≠ index ∧ tasks[i]? = some task) := by
  rw [List.getElem?_set] at h
  split at h
  . next heq =>
    split at h
    . exact .inl ⟨heq.symm, (Option.some.inj h).symm⟩
    . contradiction
  . next hne => exact .inr ⟨Ne.symm hne, h⟩

/--
A task that registers as before leaves the registrations as they are.
-/
theorem registrar_set (h : InOrder s) {index : Nat} {old new : RegistryTask}
    (hold : s.tasks[index]? = some old) (hregisters : new.registers = old.registers)
    (session : Nat) (journal : List Nat) (hentry : s.entry = some (.registering session journal))
    : ∃ i : Nat, (∃ task, (s.tasks.set index new)[i]? = some task ∧ task.registers.isSome)
        ∧ ∀ (j : Nat) (task : RegistryTask), (s.tasks.set index new)[j]? = some task →
          task.registers.isSome → j = i := by
  rcases h.registrar session journal hentry with ⟨i, ⟨task, htask, hregister⟩, hunique⟩
  have hlt := (List.getElem?_eq_some_iff.mp hold).1
  refine ⟨i, ?_, ?_⟩
  . rw [List.getElem?_set]
    split
    . next heq =>
      subst heq
      rw [hold] at htask
      refine ⟨new, rfl, ?_⟩
      rw [hregisters, Option.some.inj htask]
      exact hregister
    . exact ⟨task, htask, hregister⟩
  . intro j task' htask' hregister'
    cases getElem?_set_cases htask' with
    | inl hnew =>
      rw [hnew.2, hregisters] at hregister'
      rw [hnew.1]
      exact hunique index old hold hregister'
    | inr hother => exact hunique j task' hother.2 hregister'

/--
A task goes on without taking or leaving anything.
-/
theorem setTask (h : InOrder s) {index : Nat} {old : RegistryTask}
    (hold : s.tasks[index]? = some old) (new : RegistryTask) (hcarried : new.carried = old.carried)
    (hregisters : new.registers = old.registers) (hfits : Fits s.entry new)
    : InOrder (s.setTask index new) := by
  constructor
  case conserved =>
    have hconserved := h.conserved
    unfold RegistryState.carried at hconserved ⊢
    change _ ++ (s.tasks.set index new).flatMap RegistryTask.carried ++ _ ++ _ ++ _ = _
    rw [List.flatMap_set_of_eq hold hcarried]
    exact hconserved
  case increasing => exact h.increasing
  case accepted_lt => exact h.accepted_lt
  case registered => exact h.registered
  case waiting => exact h.waiting
  case sole =>
    rcases h.sole with ⟨i, hsole⟩
    cases hnil : old.carried with
    | nil => exact ⟨i, hsole.set_of_eq_nil index (hcarried.trans hnil)⟩
    | cons notification rest =>
      have hindex := hsole.eq_of_ne_nil hold (by rw [hnil]; simp)
      subst hindex
      exact ⟨index, hsole.set new⟩
  case fits =>
    intro i task htask
    cases getElem?_set_cases htask with
    | inl hnew =>
      rw [hnew.2]
      exact hfits
    | inr hother => exact h.fits i task hother.2
  case registrar => exact h.registrar_set hold hregisters
  case route => exact h.route

theorem conserved_of_evicting (h : InOrder s) {session : Nat}
    (hentry : s.entry = some (.evicting session))
    : s.enqueued ++ s.carried ++ s.pendingNotifications ++ s.route.held = s.accepted := by
  have hjournal : s.journal = [] := by
    unfold RegistryState.journal
    rw [hentry]
  have hconserved := h.conserved
  rw [hjournal, List.append_nil] at hconserved
  exact hconserved

/--
The session is gone. Nothing is on its way to it.
-/
theorem removeEntry (h : InOrder s) {session : Nat} (hentry : s.entry = some (.evicting session))
    (hcarried : s.carried = []) (hheld : s.route.held = [])
    : InOrder { s with entry := none } := by
  refine { h with conserved := ?_, waiting := ?_, fits := ?_, registrar := ?_, route := ?_ }
  . have hconserved := h.conserved_of_evicting hentry
    change s.enqueued ++ s.carried ++ [] ++ _ ++ _ = _
    rw [List.append_nil]
    exact hconserved
  . intro entry heq
    contradiction
  . intro i task htask
    have hfits := h.fits i task htask
    have hnil : task.carried = [] :=
      List.flatMap_eq_nil_iff.mp hcarried task (List.mem_of_getElem? htask)
    rw [hentry] at hfits
    cases task <;> simp_all [Fits, RegistryTask.carried]
  . intro session journal heq
    contradiction
  . change RouteFits _ s.route
    cases hroute : s.route with
    | delivering target notification leased =>
      rw [hroute] at hheld
      contradiction
    | _ => trivial

/--
`restore_eviction` takes what is pending and makes the session live again.
-/
theorem restoreEntry (h : InOrder s) {index session : Nat}
    (htask : s.tasks[index]? = some (.restoring session))
    (hentry : s.entry = some (.evicting session))
    (hguard : s.pendingNotifications = [] ∨ s.carried = [])
    : InOrder { s.setTask index (.restored session s.pendingNotifications) with
        entry := some (.live session)
        pendingNotifications := [] } := by
  have hconserved := h.conserved_of_evicting hentry
  have hlt := (List.getElem?_eq_some_iff.mp htask).1
  have hnew : (s.tasks.set index (.restored session s.pendingNotifications))[index]?
      = some (.restored session s.pendingNotifications) := by
    rw [List.getElem?_set_self hlt]
  have hsole : ∃ i, List.Sole RegistryTask.carried
      (s.tasks.set index (.restored session s.pendingNotifications)) i := by
    cases hguard with
    | inl hpending =>
      rcases h.sole with ⟨i, hsole⟩
      exact ⟨i, hsole.set_of_eq_nil index hpending⟩
    | inr hcarried => exact ⟨index, (List.sole_of_flatMap_eq_nil hcarried index).set _⟩
  have hcarried : (s.tasks.set index (.restored session s.pendingNotifications)).flatMap
      RegistryTask.carried = s.carried ++ s.pendingNotifications := by
    cases hguard with
    | inl hpending =>
      rw [List.flatMap_set_of_eq htask hpending, hpending, List.append_nil]
      rfl
    | inr hcarried =>
      rw [((List.sole_of_flatMap_eq_nil hcarried index).set _).flatMap_eq hnew, hcarried]
      rfl
  constructor
  case conserved =>
    change s.enqueued ++ (s.tasks.set index _).flatMap RegistryTask.carried ++ [] ++ [] ++ _ = _
    rw [hcarried, List.append_nil, List.append_nil, ← List.append_assoc]
    exact hconserved
  case increasing => exact h.increasing
  case accepted_lt => exact h.accepted_lt
  case registered => exact h.registered
  case waiting => exact fun _ _ _ => rfl
  case sole => exact hsole
  case fits =>
    intro i task htask'
    cases getElem?_set_cases htask' with
    | inl hnew =>
      rw [hnew.2]
      exact .inr (.inl rfl)
    | inr hother =>
      have hfits := h.fits i task hother.2
      rw [hentry] at hfits
      cases task <;> simp_all [Fits]
  case registrar =>
    intro session journal heq
    injection heq with heq
    contradiction
  case route =>
    change RouteFits _ s.route
    cases hroute : s.route with
    | delivering target notification leased =>
      rcases (h.view hroute).2.2.2 with ⟨-, hlive, -⟩
      rw [hentry] at hlive
      cases hlive with
      | inl hlive =>
        injection hlive with hlive
        contradiction
      | inr hevicting =>
        injection hevicting.2 with hevicting
        injection hevicting with hevicting
        subst hevicting
        exact ⟨rfl, .inl rfl, by simp [hevicting.1]⟩
    | _ => trivial

/--
While a registration is between two notifications, nothing is on its way to the session.
-/
theorem carried_of_registering (h : InOrder s) {index session : Nat}
    (htask : s.tasks[index]? = some (.registering session))
    : s.carried = [] := by
  rcases h.fits index _ htask with ⟨journal, hentry⟩
  rcases h.registrar session journal hentry with ⟨i, -, hunique⟩
  have hindex := hunique index _ htask rfl
  unfold RegistryState.carried
  rw [List.flatMap_eq_nil_iff]
  intro task hmem
  rw [List.mem_iff_getElem?] at hmem
  rcases hmem with ⟨j, hj⟩
  have hfits := h.fits j task hj
  rw [hentry] at hfits
  cases task with
  | journaling _ notification =>
    have hj' := hunique j _ hj rfl
    rw [hj', ← hindex, htask] at hj
    injection hj with hj
    contradiction
  | restored _ pending => simp_all [Fits, RegistryTask.carried]
  | _ => rfl

theorem takeJournal (h : InOrder s) {index session : Nat}
    (htask : s.tasks[index]? = some (.registering session))
    : InOrder (s.takeJournal index session) := by
  have hcarried := h.carried_of_registering htask
  have hlt := (List.getElem?_eq_some_iff.mp htask).1
  rcases h.fits index _ htask with ⟨journal, hentry⟩
  rcases h.registrar session journal hentry with ⟨i, -, hunique⟩
  have hindex := hunique index _ htask rfl
  subst hindex
  have hpending := h.waiting _ hentry rfl
  have hjournal : s.journal = journal := by
    unfold RegistryState.journal
    rw [hentry]
  have hconserved := h.conserved
  rw [hcarried, hjournal, hpending] at hconserved
  have hroute : ∀ state : RegistryState, RouteFits state s.route := by
    intro state
    cases hcall : s.route with
    | delivering target notification leased =>
      have hfits := (h.view hcall).2.2.2
      rw [RouteFits, hentry] at hfits
      simp at hfits
    | _ => trivial
  have hother : ∀ (j : Nat) task, j ≠ index → s.tasks[j]? = some task →
      task.registers = none ∧ task.carried = [] := by
    intro j task hne hj
    have hnil : task.carried = [] :=
      List.flatMap_eq_nil_iff.mp hcarried task (List.mem_of_getElem? hj)
    refine ⟨?_, hnil⟩
    cases hregisters : task.registers with
    | none => rfl
    | some registered => exact absurd (hunique j task hj (by rw [hregisters]; rfl)) hne
  unfold RegistryState.takeJournal
  rw [hentry]
  cases journal with
  | nil =>
    constructor
    case conserved =>
      change s.enqueued ++ (s.tasks.set index .done).flatMap RegistryTask.carried ++ []
        ++ s.pendingNotifications ++ s.route.held = s.accepted
      rw [List.flatMap_set_of_eq htask (by rfl), hpending]
      change s.enqueued ++ s.carried ++ [] ++ [] ++ s.route.held = s.accepted
      rw [hcarried]
      exact hconserved
    case increasing => exact h.increasing
    case accepted_lt => exact h.accepted_lt
    case registered => exact h.registered
    case waiting => exact fun _ _ _ => hpending
    case sole => exact ⟨index, (List.sole_of_flatMap_eq_nil hcarried index).set _⟩
    case fits =>
      intro j task hj
      cases getElem?_set_cases hj with
      | inl hnew =>
        rw [hnew.2]
        trivial
      | inr hold =>
        have hother := hother j task hold.1 hold.2
        cases task <;> simp_all [Fits, RegistryTask.carried, RegistryTask.registers]
    case registrar =>
      intro session journal heq
      injection heq with heq
      contradiction
    case route => exact hroute _
  | cons notification journal =>
    constructor
    case conserved =>
      change s.enqueued ++ (s.tasks.set index _).flatMap RegistryTask.carried ++ journal
        ++ s.pendingNotifications ++ s.route.held = s.accepted
      rw [((List.sole_of_flatMap_eq_nil hcarried index).set _).flatMap_eq
        (List.getElem?_set_self hlt), hpending]
      simpa [RegistryTask.carried] using hconserved
    case increasing => exact h.increasing
    case accepted_lt => exact h.accepted_lt
    case registered => exact h.registered
    case waiting => exact fun _ _ _ => hpending
    case sole => exact ⟨index, (List.sole_of_flatMap_eq_nil hcarried index).set _⟩
    case fits =>
      intro j task hj
      cases getElem?_set_cases hj with
      | inl hnew =>
        rw [hnew.2]
        exact ⟨_, rfl⟩
      | inr hold =>
        have hother := hother j task hold.1 hold.2
        cases task <;> simp_all [Fits, RegistryTask.carried, RegistryTask.registers]
    case registrar =>
      intro _ _ _
      refine ⟨index, ⟨_, List.getElem?_set_self hlt, rfl⟩, ?_⟩
      intro j task hj hregisters
      cases getElem?_set_cases hj with
      | inl hnew => exact hnew.1
      | inr hold => exact hunique j task hold.2 hregisters
    case route => exact hroute _

/--
A task puts what it carries into the receipts of the session, and carries nothing any more.
-/
theorem unload (h : InOrder s) {index session : Nat} {old : RegistryTask}
    (hold : s.tasks[index]? = some old)
    (hentry : old.carried = [] ∨ ∃ entry, s.entry = some entry ∧ entry.session = session)
    (new : RegistryTask) (hcarried : new.carried = []) (hregisters : new.registers = old.registers)
    (hfits : Fits s.entry new)
    : InOrder ((s.enqueue session old.carried).setTask index new) := by
  have hlt := (List.getElem?_eq_some_iff.mp hold).1
  have htasks : ∃ i, List.Sole RegistryTask.carried (s.tasks.set index new) i := by
    rcases h.sole with ⟨i, hsole⟩
    exact ⟨i, hsole.set_of_eq_nil index hcarried⟩
  have hsum : old.carried ++ (s.tasks.set index new).flatMap RegistryTask.carried = s.carried := by
    rcases h.sole with ⟨i, hsole⟩
    cases hnil : old.carried with
    | nil =>
      rw [List.flatMap_set_of_eq hold (hcarried.trans hnil.symm)]
      rfl
    | cons notification rest =>
      have hindex := hsole.eq_of_ne_nil hold (by rw [hnil]; simp)
      subst hindex
      rw [(hsole.set new).flatMap_eq (List.getElem?_set_self hlt), hcarried, List.append_nil,
        ← hnil]
      exact (hsole.flatMap_eq hold).symm
  refine h.enqueue hentry ?_ rfl htasks ?_ (h.registrar_set hold hregisters) h.route
  . change s.enqueued ++ old.carried ++ (s.tasks.set index new).flatMap RegistryTask.carried ++ _
      ++ _ ++ _ = _
    rw [List.append_assoc s.enqueued, hsum]
    exact h.conserved
  . intro i task htask
    cases getElem?_set_cases htask with
    | inl hnew =>
      rw [hnew.2]
      exact hfits
    | inr hother => exact h.fits i task hother.2

theorem endTask (h : InOrder s) {index : Nat} {old : RegistryTask}
    (hold : s.tasks[index]? = some old) (hcarried : old.carried = [])
    (hregisters : old.registers = none)
    : InOrder (s.endTask index) :=
  h.setTask hold .done hcarried.symm hregisters.symm trivial

theorem checkEviction (h : InOrder s) {index session : Nat} {reserving others : Bool}
    (htask : s.tasks[index]? = some (.evicting session reserving))
    (hguard : s.canEvict session others → s.carried = [] ∧ s.route.held = [])
    : InOrder (s.checkEviction index session reserving others) := by
  unfold RegistryState.checkEviction
  split
  . next hevict =>
    have hended := h.endTask htask rfl rfl
    have hnothing := hguard hevict
    unfold RegistryState.canEvict at hevict
    simp only [Bool.and_eq_true, decide_eq_true_eq] at hevict
    apply hended.removeEntry hevict.1.1.1
    . change (s.tasks.set index .done).flatMap RegistryTask.carried = []
      rw [List.flatMap_set_of_eq htask (by rfl)]
      exact hnothing.1
    . exact hnothing.2
  . split
    . exact h.setTask htask (.restoring session) rfl rfl trivial
    . exact h.endTask htask rfl rfl

theorem restore (h : InOrder s) {index session : Nat}
    (htask : s.tasks[index]? = some (.restoring session))
    (hguard : s.entry = some (.evicting session) →
      s.pendingNotifications = [] ∨ s.carried = [])
    : InOrder (s.restore index session) := by
  unfold RegistryState.restore
  split
  . next hentry => exact h.restoreEntry htask hentry (hguard hentry)
  . exact h.endTask htask rfl rfl

theorem taskNext (h : InOrder s) {index : Nat} {operationFree evictable : Bool} {t : RegistryState}
    (hguard : keepsOrder s (.taskSection index operationFree evictable))
    (hstep : s.taskNext index operationFree evictable = some t)
    : InOrder t := by
  unfold RegistryState.taskNext at hstep
  unfold keepsOrder at hguard
  dsimp only at hguard
  split at hstep
  . contradiction
  . contradiction
  . next session htask => exact Option.some.inj hstep ▸ h.takeJournal htask
  . next session notification htask =>
    rw [← Option.some.inj hstep]
    rcases h.fits index _ htask with ⟨journal, hentry⟩
    exact h.unload htask (.inr ⟨_, hentry, rfl⟩) (.registering session) rfl rfl ⟨journal, hentry⟩
  . next session reserving htask =>
    split at hstep
    . next hfree =>
      rw [← Option.some.inj hstep]
      apply h.checkEviction htask
      intro hevict
      rw [htask] at hguard
      simpa [hfree, hevict] using hguard
    . exact Option.some.inj hstep ▸ h.setTask htask (.restoring session) rfl rfl trivial
  . next session htask =>
    rw [← Option.some.inj hstep]
    apply h.restore htask
    intro hentry
    rw [htask] at hguard
    simpa [hentry] using hguard
  . next session journal htask =>
    rw [← Option.some.inj hstep]
    apply h.unload htask _ .done rfl rfl trivial
    rcases h.fits index _ htask with hnil | hlive | hevicting
    . exact .inl hnil
    . exact .inr ⟨_, hlive, rfl⟩
    . exact .inr ⟨_, hevicting, rfl⟩

/--
Every allowed section keeps the invariant.
-/
theorem step (h : InOrder s) {label : Routing} {t : RegistryState} (hguard : keepsOrder s label)
    (hstep : s.step label = some t)
    : InOrder t := by
  cases label with
  | elsewhere count => exact Option.some.inj hstep ▸ h.elsewhere count
  | route =>
    dsimp only [RegistryState.step] at hstep
    split at hstep
    . next hidle => exact Option.some.inj hstep ▸ h.routeFirst hidle
    . contradiction
  | routeSection => exact h.routeNext hguard hstep
  | register => exact Option.some.inj hstep ▸ h.register
  | evict reserving => exact h.evict hstep
  | taskSection index operationFree evictable => exact h.taskNext hguard hstep
  | drain session => exact Option.some.inj hstep ▸ h.drain session

end InOrder

/--
What the callers of `route` are promised. Every notification is enqueued to the session registered at
that time; they are enqueued once and in the order of the calls, as the ones that were not refused have
increasing numbers; none is pending while the entry takes notifications; and once no call is in
progress, those that are not pending have been enqueued.
-/
structure Routed (s : RegistryState) : Prop where
  registered : ∀ enqueued ∈ s.log, enqueued.registered
  increasing : s.accepted.Pairwise (· < ·)
  enqueued : s.enqueued <+: s.accepted
  pending : ∀ entry, s.entry = some entry → entry.accepts → s.pendingNotifications = []
  complete : s.quiescent → s.enqueued ++ s.pendingNotifications = s.answered

theorem InOrder.routed {s : RegistryState} (h : InOrder s) : Routed s := by
  constructor
  case registered => exact h.registered
  case increasing => exact h.increasing
  case enqueued =>
    refine ⟨s.carried ++ s.journal ++ s.pendingNotifications ++ s.route.held, ?_⟩
    rw [← h.conserved]
    simp only [List.append_assoc]
  case pending => exact h.waiting
  case complete =>
    intro hquiescent
    unfold RegistryState.quiescent at hquiescent
    simp only [Bool.and_eq_true, decide_eq_true_eq, List.all_eq_true] at hquiescent
    have hcarried : s.carried = [] := by
      unfold RegistryState.carried
      rw [List.flatMap_eq_nil_iff]
      intro task hmem
      rw [hquiescent.2 task hmem]
      rfl
    have hjournal : s.journal = [] := by
      unfold RegistryState.journal
      split
      . next session journal hentry =>
        rcases h.registrar session journal hentry with ⟨i, ⟨task, htask, hregisters⟩, -⟩
        rw [hquiescent.2 task (List.mem_of_getElem? htask)] at hregisters
        contradiction
      . rfl
    have hconserved := h.conserved_of_idle hquiescent.1
    rw [hcarried, hjournal, List.append_nil, List.append_nil] at hconserved
    exact hconserved

/--
In every run whose sections all meet the condition, nothing is lost, duplicated or reordered on the way
from `route` to the session.
-/
theorem routed_of_exec {labels : List Routing} {s : RegistryState}
    (hmeets : Meets RegistryState.step (keepsOrder · ·) {} labels)
    (hexec : exec RegistryState.step {} labels = some s)
    : Routed s := by
  have h : InOrder s :=
    exec_invariant (fun s label t h hguard hstep => h.step hguard hstep) InOrder.init hmeets hexec
  exact h.routed

/--
A notification waits for the registration, one is parked during an eviction and restored with the
session, and one is delivered directly.
-/
def restoredInOrder : List Routing :=
  [.route, .register, .taskSection 0 true true, .taskSection 0 true true, .taskSection 0 true true,
    .drain 0, .evict true, .route, .routeSection, .taskSection 1 true true, .taskSection 1 true true,
    .taskSection 1 true true, .route, .routeSection, .routeSection]

theorem routed_of_restoredInOrder
    : ∃ s, exec RegistryState.step {} restoredInOrder = some s ∧ Routed s := by
  have hmeets : Meets RegistryState.step (keepsOrder · ·) {} restoredInOrder := by decide
  exact ⟨_, rfl, routed_of_exec hmeets rfl⟩

/--
`route` finds the session on its way out. Until it gets back to the registry, the session is evicted
and the id registered again: the notification is parked next to a live session.
-/
def parkedBesideLive : List Routing :=
  [.register, .taskSection 0 true true, .evict true, .route, .taskSection 1 true true, .register,
    .taskSection 2 true true, .routeSection]

theorem not_routed_of_parkedBesideLive
    : ¬ ∀ labels s, exec RegistryState.step {} labels = some s → Routed s := by
  intro h
  have hrun : (exec RegistryState.step {} parkedBesideLive).any (fun s =>
      decide (s.entry = some (.live 1)) && decide (s.pendingNotifications = [0])) = true := by
    rfl
  obtain ⟨s, hexec, hparked⟩ := (Option.any_eq_true _ _).mp hrun
  simp only [Bool.and_eq_true, decide_eq_true_eq] at hparked
  have hpending := (h parkedBesideLive s hexec).pending _ hparked.1 rfl
  rw [hparked.2] at hpending
  simp at hpending

end Session
