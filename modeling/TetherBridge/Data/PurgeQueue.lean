import Mathlib.Data.List.Basic
import TetherBridge.Transition.Basic

/-!
This module contains queues of operations on one file. The operations run one after the other, while
further ones are called, and a purge makes those stale that were captured before it. Once the queue has run
dry, the file is what the calls captured after the last purge make of no file, one after the other.
-/

namespace PurgeQueue

universe u v

/--
What an operation does, from one await to the next.
-/
inductive Program (φ : Type u) where
  | done
  /-- the operation ends here unless the generation is current -/
  | check (generation : Nat) (rest : Program φ)
  | makeDirectory (rest : Program φ)
  | read (rest : Option φ → Nat → Program φ)
  | write (content : φ) (rest : Program φ)
  | delete (rest : Program φ)

/--
The program runs to its end while the generation does not change. What is read comes with the time.
-/
inductive Runs {φ : Type u} (generation : Nat) : Program φ → Option φ → Option φ → Prop where
  | done {file : Option φ} : Runs generation .done file file
  | current {file after : Option φ} {rest : Program φ}
    : Runs generation rest file after → Runs generation (.check generation rest) file after
  | stale {file : Option φ} {rest : Program φ} {captured : Nat}
    : captured ≠ generation → Runs generation (.check captured rest) file file
  | makeDirectory {file after : Option φ} {rest : Program φ}
    : Runs generation rest file after → Runs generation (.makeDirectory rest) file after
  | read {file after : Option φ} {rest : Option φ → Nat → Program φ} (now : Nat)
    : Runs generation (rest file now) file after → Runs generation (.read rest) file after
  | write {file after : Option φ} {rest : Program φ} {content : φ}
    : Runs generation rest (some content) after → Runs generation (.write content rest) file after
  | delete {file after : Option φ} {rest : Program φ}
    : Runs generation rest none after → Runs generation (.delete rest) file after

/--
A call that was made.
-/
inductive Entry (ω : Type v) where
  | purge
  /-- the generation that was captured for it, and how many calls had been made by then -/
  | call (operation : ω) (generation capturedAt : Nat)

structure State (φ : Type u) (ω : Type v) where
  file : Option φ := none
  generation : Nat := 0
  /-- the generations that callers hold -/
  captured : List (Nat × Nat) := []
  waiting : List (Entry ω) := []
  running : Option (Entry ω × Program φ) := none
  /-- the calls that have run -/
  done : List (Entry ω) := []

inductive Label (ω : Type v) where
  /-- a caller takes the generation, for a call it will make -/
  | capture
  /-- with a generation that was captured before, or with the current one -/
  | call (operation : ω) (captured : Option Nat)
  | purge
  | start
  /-- up to the next await, at a time -/
  | proceed (now : Nat)

section

variable {φ : Type u} {ω : Type v} (program : ω → Nat → Program φ) (gated : ω → Bool)

def Entry.body : Entry ω → Program φ
  | .purge => .delete .done
  | .call operation generation _ => program operation generation

namespace State

variable (s : State φ ω)

/--
All calls, in the order in which they were made.
-/
def log : List (Entry ω) :=
  s.done ++ s.running.toList.map (·.1) ++ s.waiting

def capture : State φ ω :=
  { s with captured := s.captured ++ [(s.generation, s.log.length)] }

def enqueue (entry : Entry ω) : State φ ω :=
  { s with waiting := s.waiting ++ [entry] }

/--
Only a gated operation takes a generation that was captured before.
-/
def call (operation : ω) (captured : Option Nat) : Option (State φ ω) :=
  match captured with
  | none => some (s.enqueue (.call operation s.generation s.log.length))
  | some index =>
    if gated operation then
      s.captured[index]?.map fun entry => s.enqueue (.call operation entry.1 entry.2)
    else
      none

def purge : State φ ω :=
  { s with generation := s.generation + 1 }.enqueue .purge

def start : Option (State φ ω) :=
  match s.running, s.waiting with
  | none, entry :: waiting => some { s with waiting, running := some (entry, entry.body program) }
  | _, _ => none

def proceed (now : Nat) : Option (State φ ω) :=
  match s.running with
  | none => none
  | some (entry, .done) => some { s with running := none, done := s.done ++ [entry] }
  | some (entry, .check generation rest) =>
    some { s with running := some (entry, if generation = s.generation then rest else .done) }
  | some (entry, .makeDirectory rest) => some { s with running := some (entry, rest) }
  | some (entry, .read rest) => some { s with running := some (entry, rest s.file now) }
  | some (entry, .write content rest) =>
    some { s with file := some content, running := some (entry, rest) }
  | some (entry, .delete rest) => some { s with file := none, running := some (entry, rest) }

def step (s : State φ ω) : Label ω → Option (State φ ω)
  | .capture => some s.capture
  | .call operation captured => s.call gated operation captured
  | .purge => some s.purge
  | .start => s.start program
  | .proceed now => s.proceed now

end State

/-! What the calls amount to -/

def isPurge : Entry ω → Bool
  | .purge => true
  | .call .. => false

def purges (log : List (Entry ω)) : Nat :=
  log.countP isPurge

/--
The operation of a call after whose capture nothing was purged.
-/
def freshIn (log : List (Entry ω)) : Entry ω → Option ω
  | .purge => none
  | .call operation _ capturedAt =>
    if purges (log.drop capturedAt) = 0 then some operation else none

def fresh (log : List (Entry ω)) : List ω :=
  log.filterMap (freshIn log)

/--
The operations run one after the other, each on the file that the one before it has left.
-/
inductive InTurn (applies : ω → Option φ → Option φ → Prop) : Option φ → List ω → Option φ → Prop where
  | nil {file : Option φ} : InTurn applies file [] file
  | cons {file between after : Option φ} {operation : ω} {operations : List ω}
    : applies operation file between → InTurn applies between operations after →
      InTurn applies file (operation :: operations) after

/--
What an operation does that is not disturbed.
-/
def Applies (operation : ω) (file after : Option φ) : Prop :=
  ∃ generation, Runs generation (program operation generation) file after

/--
The file is what the fresh calls make of no file.
-/
def Settles (log : List (Entry ω)) (file : Option φ) : Prop :=
  InTurn (Applies program) none (fresh log) file

/-! Calls that are appended -/

theorem purges_append (log more : List (Entry ω))
    : purges (log ++ more) = purges log + purges more := List.countP_append

theorem isPurge_call (operation : ω) (generation capturedAt : Nat)
    : isPurge (.call operation generation capturedAt) = false := rfl

theorem purges_call (operation : ω) (generation capturedAt : Nat)
    : purges [.call operation generation capturedAt] = 0 := rfl

theorem purges_take_eq_iff (log : List (Entry ω)) (count : Nat)
    : purges (log.take count) = purges log ↔ purges (log.drop count) = 0 := by
  have hsplit := purges_append (log.take count) (log.drop count)
  rw [List.take_append_drop] at hsplit
  omega

/--
A generation is captured before the call it is captured for, and is the number of purges up to then.
-/
def Entry.Captured (log : List (Entry ω)) : Entry ω → Prop
  | .purge => True
  | .call operation generation capturedAt =>
    capturedAt ≤ log.length ∧ generation = purges (log.take capturedAt)
      ∧ (gated operation = false → capturedAt = log.length)

theorem freshIn_append {log more : List (Entry ω)} {operation : ω} {generation capturedAt : Nat}
    (hle : capturedAt ≤ log.length)
    : freshIn (log ++ more) (.call operation generation capturedAt) =
        if purges more = 0 then freshIn log (.call operation generation capturedAt) else none := by
  unfold freshIn
  dsimp only
  rw [List.drop_append_of_le_length hle, purges_append]
  split <;> split <;> first | rfl | omega | skip
  all_goals split <;> first | rfl | omega

def WellCaptured (log : List (Entry ω)) : Prop :=
  ∀ (n : Nat) entry, log[n]? = some entry → entry.Captured gated (log.take n)

variable {program} {gated} {log : List (Entry ω)}

theorem WellCaptured.append_singleton (h : WellCaptured gated log) {entry : Entry ω}
    (hentry : entry.Captured gated log)
    : WellCaptured gated (log ++ [entry]) := by
  intro n other hother
  rw [List.getElem?_append] at hother
  split at hother
  . next hlt =>
    rw [List.take_append_of_le_length (Nat.le_of_lt hlt)]
    exact h n other hother
  . next hle =>
    rw [List.getElem?_singleton] at hother
    split at hother
    . next hzero =>
      injection hother with hother
      subst hother
      have hn : n = log.length := by omega
      rw [hn, List.take_left]
      exact hentry
    . contradiction

theorem WellCaptured.of_append {more : List (Entry ω)} (h : WellCaptured gated (log ++ more))
    : WellCaptured gated log := by
  intro n entry hentry
  have hlt := (List.getElem?_eq_some_iff.mp hentry).1
  have hcaptured := h n entry (by rw [List.getElem?_append_left hlt, hentry])
  rw [List.take_append_of_le_length (Nat.le_of_lt hlt)] at hcaptured
  exact hcaptured

theorem WellCaptured.capturedAt_le (h : WellCaptured gated log) {operation : ω}
    {generation capturedAt : Nat} (hmem : .call operation generation capturedAt ∈ log)
    : capturedAt ≤ log.length := by
  rcases List.getElem?_of_mem hmem with ⟨n, hn⟩
  have hle := (h n _ hn).1
  rw [List.length_take] at hle
  omega

/--
What is fresh stays fresh until the next purge.
-/
theorem WellCaptured.filterMap_freshIn (h : WellCaptured gated log) (entry : Entry ω)
    : log.filterMap (freshIn (log ++ [entry])) = if isPurge entry then [] else fresh log := by
  have hpurges : purges [entry] = if isPurge entry then 1 else 0 := by
    unfold purges
    rw [List.countP_singleton]
  split
  . next hpurge =>
    rw [List.filterMap_eq_nil_iff]
    intro other hother
    cases other with
    | purge => rfl
    | call operation generation capturedAt =>
      rw [freshIn_append (h.capturedAt_le hother), hpurges, if_pos hpurge, if_neg Nat.one_ne_zero]
  . next hcall =>
    unfold fresh
    apply List.filterMap_congr
    intro other hother
    cases other with
    | purge => rfl
    | call operation generation capturedAt =>
      rw [freshIn_append (h.capturedAt_le hother), hpurges, if_neg hcall, if_pos rfl]

theorem InTurn.concat {applies : ω → Option φ → Option φ → Prop} {file between after : Option φ}
    {operations : List ω} {operation : ω} (h : InTurn applies file operations between)
    (hlast : applies operation between after)
    : InTurn applies file (operations ++ [operation]) after := by
  induction h with
  | nil => exact .cons hlast .nil
  | cons hfirst _ ih => exact .cons hfirst (ih hlast)

theorem InTurn.mono {applies applies' : ω → Option φ → Option φ → Prop} {file after : Option φ}
    {operations : List ω} (h : InTurn applies file operations after)
    (himp : ∀ operation file after, applies operation file after → applies' operation file after)
    : InTurn applies' file operations after := by
  induction h with
  | nil => exact .nil
  | cons hfirst _ ih => exact .cons (himp _ _ _ hfirst) ih

theorem settles_purge (h : WellCaptured gated log)
    : Settles program (log ++ [.purge]) none := by
  unfold Settles fresh
  rw [List.filterMap_append, h.filterMap_freshIn]
  exact .nil

/--
A call that runs where the calls before it have settled settles too.
-/
theorem settles_call (h : WellCaptured gated log)
    (hgated : ∀ operation generation, gated operation →
      ∃ rest, program operation generation = .check generation rest)
    {file after : Option φ} (hsettles : Settles program log file) {operation : ω}
    {generation capturedAt : Nat} (hcaptured : (Entry.call operation generation capturedAt).Captured gated log)
    (hruns : Runs (purges log) (program operation generation) file after)
    : Settles program (log ++ [.call operation generation capturedAt]) after := by
  have hself : freshIn (log ++ [.call operation generation capturedAt])
      (.call operation generation capturedAt) =
        if generation = purges log then some operation else none := by
    rw [freshIn_append hcaptured.1, if_pos (purges_call operation generation capturedAt)]
    unfold freshIn
    dsimp only
    rw [hcaptured.2.1]
    split
    . next hfresh => rw [if_pos ((purges_take_eq_iff log capturedAt).mpr hfresh)]
    . next hstale => rw [if_neg (mt (purges_take_eq_iff log capturedAt).mp hstale)]
  unfold Settles fresh
  rw [List.filterMap_append, h.filterMap_freshIn, isPurge_call, if_neg Bool.false_ne_true,
    List.filterMap_cons, hself]
  by_cases hcurrent : generation = purges log
  . rw [if_pos hcurrent]
    exact hsettles.concat ⟨purges log, hcurrent ▸ hruns⟩
  . rw [if_neg hcurrent, List.filterMap_nil, List.append_nil]
    have hsame : after = file := by
      cases hgate : gated operation with
      | false =>
        exfalso
        apply hcurrent
        rw [hcaptured.2.1, hcaptured.2.2 hgate, List.take_length]
      | true =>
        rcases hgated operation generation hgate with ⟨rest, hprogram⟩
        rw [hprogram] at hruns
        cases hruns with
        | current _ => exact absurd rfl hcurrent
        | stale _ => rfl
    rw [hsame]
    exact hsettles

/-! Runs -/

namespace State

variable {s s' : State φ ω}

/--
As long as a purge is waiting, the file may hold anything: the purge will delete it.
-/
structure Sound (program : ω → Nat → Program φ) (gated : ω → Bool) (s : State φ ω) : Prop where
  generation : s.generation = purges s.log
  entries : WellCaptured gated s.log
  captured : ∀ entry ∈ s.captured, entry.2 ≤ s.log.length ∧ entry.1 = purges (s.log.take entry.2)
  idle : purges s.waiting = 0 → s.running = none → Settles program s.done s.file
  running : purges s.waiting = 0 → ∀ entry rest, s.running = some (entry, rest) →
    ∀ after, Runs s.generation rest s.file after → Settles program (s.done ++ [entry]) after

theorem sound_init : ({} : State φ ω).Sound program gated where
  generation := rfl
  entries _ _ h := by
    rw [log, List.getElem?_eq_none (Nat.zero_le _)] at h
    contradiction
  captured _ h := absurd h List.not_mem_nil
  idle _ _ := .nil
  running _ _ _ h := by contradiction

/--
A step of the operation that runs changes neither the calls nor the generation.
-/
theorem Sound.proceedTo (h : s.Sound program gated) {entry : Entry ω} {rest rest' : Program φ}
    (hrunning : s.running = some (entry, rest)) {file : Option φ}
    (hruns : ∀ after, Runs s.generation rest' file after → Runs s.generation rest s.file after)
    : { s with file, running := some (entry, rest') }.Sound program gated := by
  have hlog : { s with file, running := some (entry, rest') }.log = s.log := by
    unfold log
    rw [hrunning]
    rfl
  refine ⟨?_, ?_, ?_, ?_, ?_⟩
  . rw [hlog]
    exact h.generation
  . rw [hlog]
    exact h.entries
  . rw [hlog]
    exact h.captured
  . intro _ hidle
    contradiction
  . intro hpurges other rest'' hother after hafter
    injection hother with hother
    injection hother with hentry hrest
    subst hentry hrest
    exact h.running hpurges entry rest hrunning after (hruns after hafter)

theorem Sound.proceed (h : s.Sound program gated) {now : Nat} (hstep : s.proceed now = some s')
    : s'.Sound program gated := by
  unfold State.proceed at hstep
  split at hstep
  . contradiction
  . next entry hrunning =>
    injection hstep with hstep
    subst hstep
    have hlog : { s with running := none, done := s.done ++ [entry] }.log = s.log := by
      unfold log
      rw [hrunning]
      dsimp only [Option.toList, List.map]
      rw [List.append_nil]
    refine ⟨?_, ?_, ?_, ?_, ?_⟩
    . rw [hlog]
      exact h.generation
    . rw [hlog]
      exact h.entries
    . rw [hlog]
      exact h.captured
    . intro hpurges _
      exact h.running hpurges entry .done hrunning s.file .done
    . intro _ _ _ hnone
      contradiction
  . next entry generation rest hrunning =>
    injection hstep with hstep
    subst hstep
    apply h.proceedTo hrunning
    intro after hafter
    split at hafter
    . next hcurrent =>
      rw [hcurrent]
      exact .current hafter
    . next hstale =>
      cases hafter
      exact .stale hstale
  . next entry rest hrunning =>
    injection hstep with hstep
    subst hstep
    exact h.proceedTo hrunning fun _ hafter => .makeDirectory hafter
  . next entry rest hrunning =>
    injection hstep with hstep
    subst hstep
    exact h.proceedTo hrunning fun _ hafter => .read now hafter
  . next entry content rest hrunning =>
    injection hstep with hstep
    subst hstep
    exact h.proceedTo hrunning fun _ hafter => .write hafter
  . next entry rest hrunning =>
    injection hstep with hstep
    subst hstep
    exact h.proceedTo hrunning fun _ hafter => .delete hafter

theorem Sound.start (h : s.Sound program gated)
    (hgated : ∀ operation generation, gated operation →
      ∃ rest, program operation generation = .check generation rest)
    (hstep : s.start program = some s')
    : s'.Sound program gated := by
  unfold State.start at hstep
  split at hstep
  . next entry waiting hrunning hwaiting =>
    injection hstep with hstep
    subst hstep
    have hold : s.log = s.done ++ entry :: waiting := by
      unfold log
      rw [hrunning, hwaiting]
      exact congrArg (· ++ entry :: waiting) (List.append_nil s.done)
    have hlog : { s with waiting, running := some (entry, entry.body program) }.log = s.log := by
      rw [hold]
      unfold log
      dsimp only [Option.toList, List.map]
      rw [List.append_assoc]
      rfl
    have hdone : WellCaptured gated s.done := by
      have hentries := h.entries
      rw [hold] at hentries
      exact hentries.of_append
    refine ⟨?_, ?_, ?_, ?_, ?_⟩
    . rw [hlog]
      exact h.generation
    . rw [hlog]
      exact h.entries
    . rw [hlog]
      exact h.captured
    . intro _ hidle
      contradiction
    . intro hpurges other rest hother after hafter
      injection hother with hother
      injection hother with hentry hrest
      subst hentry hrest
      cases hcall : entry with
      | purge =>
        rw [hcall] at hafter
        cases hafter with
        | delete hafter =>
          cases hafter
          exact settles_purge hdone
      | call operation generation capturedAt =>
        rw [hcall] at hafter
        have hcaptured := h.entries s.done.length entry (by
          rw [hold, List.getElem?_append_right (Nat.le_refl _), Nat.sub_self]
          rfl)
        rw [hold, List.take_left, hcall] at hcaptured
        have hwaiting' : purges s.waiting = 0 := by
          rw [hwaiting, hcall]
          exact hpurges
        have hgeneration : s.generation = purges s.done := by
          rw [h.generation, hold, ← hwaiting, purges_append, hwaiting']
          rfl
        change Runs s.generation _ s.file after at hafter
        rw [hgeneration] at hafter
        exact settles_call hdone hgated (h.idle hwaiting' hrunning) hcaptured hafter
  . contradiction

theorem Sound.enqueueCall (h : s.Sound program gated) {operation : ω} {generation capturedAt : Nat}
    (hcaptured : (Entry.call operation generation capturedAt).Captured gated s.log)
    : (s.enqueue (.call operation generation capturedAt)).Sound program gated := by
  have hlog : (s.enqueue (.call operation generation capturedAt)).log
      = s.log ++ [.call operation generation capturedAt] := by
    unfold log enqueue
    rw [List.append_assoc _ s.waiting]
  have hpurges : purges (s.enqueue (.call operation generation capturedAt)).waiting
      = purges s.waiting := by
    unfold enqueue
    dsimp only
    rw [purges_append, purges_call]
    rfl
  refine ⟨?_, ?_, ?_, ?_, ?_⟩
  . rw [hlog, purges_append, purges_call]
    exact h.generation
  . rw [hlog]
    exact h.entries.append_singleton hcaptured
  . intro entry hentry
    have hold := h.captured entry hentry
    rw [hlog, List.length_append, List.take_append_of_le_length hold.1]
    exact ⟨Nat.le_add_right_of_le hold.1, hold.2⟩
  . intro hwaiting
    exact h.idle (hpurges ▸ hwaiting)
  . intro hwaiting
    exact h.running (hpurges ▸ hwaiting)

theorem Sound.call (h : s.Sound program gated) {operation : ω} {captured : Option Nat}
    (hstep : s.call gated operation captured = some s')
    : s'.Sound program gated := by
  unfold State.call at hstep
  split at hstep
  . injection hstep with hstep
    subst hstep
    apply h.enqueueCall
    refine ⟨Nat.le_refl _, ?_, fun _ => rfl⟩
    rw [List.take_length]
    exact h.generation
  . next index =>
    split at hstep
    . next hgate =>
      rw [Option.map_eq_some_iff] at hstep
      rcases hstep with ⟨entry, hentry, rfl⟩
      have hold := h.captured entry (List.mem_of_getElem? hentry)
      apply h.enqueueCall
      refine ⟨hold.1, hold.2, ?_⟩
      intro hnot
      rw [hgate] at hnot
      contradiction
    . contradiction

theorem Sound.purge (h : s.Sound program gated) : s.purge.Sound program gated := by
  have hlog : s.purge.log = s.log ++ [.purge] := by
    unfold log State.purge enqueue
    rw [List.append_assoc _ s.waiting]
  have hpurges : purges s.purge.waiting ≠ 0 := by
    unfold State.purge enqueue
    dsimp only
    rw [purges_append]
    exact Nat.succ_ne_zero _
  refine ⟨?_, ?_, ?_, ?_, ?_⟩
  . rw [hlog, purges_append, ← h.generation]
    rfl
  . rw [hlog]
    exact h.entries.append_singleton trivial
  . intro entry hentry
    have hold := h.captured entry hentry
    rw [hlog, List.length_append, List.take_append_of_le_length hold.1]
    exact ⟨Nat.le_add_right_of_le hold.1, hold.2⟩
  . intro hwaiting
    exact absurd hwaiting hpurges
  . intro hwaiting
    exact absurd hwaiting hpurges

theorem Sound.capture (h : s.Sound program gated) : s.capture.Sound program gated := by
  refine ⟨h.generation, h.entries, ?_, h.idle, h.running⟩
  intro entry hentry
  unfold State.capture at hentry
  dsimp only at hentry
  rw [List.mem_append, List.mem_singleton] at hentry
  rcases hentry with hentry | rfl
  . exact h.captured entry hentry
  . refine ⟨Nat.le_refl _, ?_⟩
    change s.generation = purges (s.log.take s.log.length)
    rw [List.take_length]
    exact h.generation

theorem sound_step (hgated : ∀ operation generation, gated operation →
      ∃ rest, program operation generation = .check generation rest)
    (h : s.Sound program gated) (label : Label ω) (hstep : s.step program gated label = some s')
    : s'.Sound program gated := by
  cases label with
  | capture =>
    injection hstep with hstep
    exact hstep ▸ h.capture
  | call operation captured => exact h.call hstep
  | purge =>
    injection hstep with hstep
    exact hstep ▸ h.purge
  | start => exact h.start hgated hstep
  | proceed now => exact h.proceed hstep

/--
A queue that has run dry has settled.
-/
theorem Sound.settles (h : s.Sound program gated) (hrunning : s.running = none)
    (hwaiting : s.waiting = [])
    : Settles program s.log s.file := by
  have hlog : s.log = s.done := by
    unfold log
    rw [hrunning, hwaiting, List.append_nil]
    exact List.append_nil _
  rw [hlog]
  apply h.idle _ hrunning
  rw [hwaiting]
  rfl

end State

end

end PurgeQueue
