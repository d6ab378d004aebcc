import TetherBridge.Session.Discovery

/-!
This module contains what the discoveries do in any order of their sections: each ends after its polls, links
a child only for a reason, and links no child that another has linked.
-/

namespace Session

open Acp Std Snapshot Transition

/-! The choice -/

/--
The reasons to choose a child: its title names the task, it alone is new, or it is the only one there is.
-/
structure Pick.Justified (pick : Pick) : Prop where
  candidate : pick.child ∈ pick.candidates
  reason : childMatchesToolTitle pick.child.1.title pick.toolTitle
    ∨ pick.child.2 ∉ pick.baseline ∨ pick.candidates = [pick.child]

theorem selectSpawnedChild_justified {candidates : List Candidate} {toolTitle : String}
    {baseline : List String} {child : Candidate}
    (h : selectSpawnedChild candidates toolTitle baseline = some child)
    : Pick.Justified { child, toolTitle, candidates, baseline } := by
  unfold selectSpawnedChild at h
  rw [Option.or_eq_some_iff] at h
  rcases h with h | ⟨-, honly⟩
  . rw [Option.or_eq_some_iff] at h
    rcases h with hnamed | ⟨-, hnew⟩
    . have htitle := List.find?_some hnamed
      exact ⟨List.mem_of_find?_eq_some hnamed, .inl htitle⟩
    . split at hnew
      . next first hfilter =>
        injection hnew with hnew
        subst hnew
        have hmem : first ∈ candidates.filter fun candidate => !baseline.contains candidate.2 := by
          rw [hfilter]
          exact List.mem_cons_self
        rw [List.mem_filter, Bool.not_eq_true', ← Bool.not_eq_true, List.contains_iff_mem] at hmem
        exact ⟨hmem.1, .inr (.inl hmem.2)⟩
      . contradiction
  . split at honly
    . injection honly with honly
      subst honly
      exact ⟨List.mem_cons_self, .inr (.inr rfl)⟩
    . contradiction

/-! A single task -/

namespace DiscoveryPhase

def pick? : DiscoveryPhase → Option Pick
  | .claiming pick | .adopting pick => some pick
  | _ => none

def adopting? : DiscoveryPhase → Option Pick
  | .adopting pick => some pick
  | _ => none

/--
The children that were neither claimed nor tracked when the task looked at them.
-/
def candidates : DiscoveryPhase → List Candidate
  | .checking _ _ candidates => candidates
  | .looking _ _ _ candidates => candidates
  | .claiming pick => pick.candidates
  | _ => []

/--
The threads that the task has found not to be claimed, and has not passed over since.
-/
def seen : DiscoveryPhase → List String
  | .looking _ child _ candidates => child.2 :: candidates.map (·.2)
  | phase => phase.candidates.map (·.2)

theorem mem_seen (phase : DiscoveryPhase) {c : Candidate} (h : c ∈ phase.candidates)
    : c.2 ∈ phase.seen := by
  cases phase with
  | looking => exact List.mem_cons_of_mem _ (List.mem_map_of_mem h)
  | _ => exact List.mem_map_of_mem h

/--
How far a poll is from its end, and how many children are left to be looked at.
-/
def rank : DiscoveryPhase → Nat × Nat
  | .waiting => (0, 0)
  | .listing _ => (5, 0)
  | .checking _ children _ => (4, 2 * children.length)
  | .looking _ _ children _ => (4, 2 * children.length + 1)
  | .claiming _ => (3, 0)
  | .adopting _ => (2, 0)
  | .ending => (1, 0)

end DiscoveryPhase

namespace Discovery

variable {d d' : Discovery}

/--
The task has polls left when it waits for the next one, and has a reason for its choice.
-/
structure Sound (d : Discovery) : Prop where
  attempts : d.attempts ≤ SUBAGENT_DISCOVERY_ATTEMPTS
  waiting : d.phase = .waiting → d.attempts < SUBAGENT_DISCOVERY_ATTEMPTS
  picks : ∀ pick, d.phase.pick? = some pick → pick.Justified

/--
The task has come closer to its end: it has begun another poll, or come further in the one it is in.
-/
def Nearer (d' d : Discovery) : Prop :=
  (d'.attempts ≤ SUBAGENT_DISCOVERY_ATTEMPTS ∧ d.attempts < d'.attempts)
    ∨ (d'.attempts = d.attempts ∧ Prod.Lex (· < ·) (· < ·) d'.phase.rank d.phase.rank)

theorem goOn_sound (h : d.attempts ≤ SUBAGENT_DISCOVERY_ATTEMPTS) : d.goOn.Sound := by
  unfold goOn
  refine ⟨h, ?_, ?_⟩
  . intro hwaiting
    dsimp only at hwaiting
    split at hwaiting
    . assumption
    . contradiction
  . intro pick hpick
    dsimp only at hpick
    split at hpick <;> contradiction

theorem goOn_phase : d.goOn.phase = .waiting ∨ d.goOn.phase = .ending := by
  unfold goOn
  dsimp only
  split
  . exact .inl rfl
  . exact .inr rfl

theorem goOn_attempts : d.goOn.attempts = d.attempts := rfl

theorem read_cases {toolCallId : String} {parent : Option SessionSnapshot}
    (h : d.read toolCallId parent = some d')
    : d.phase = .waiting ∧ d'.attempts = d.attempts + 1 ∧ d'.baseline = d.baseline
      ∧ (d' = { d with attempts := d.attempts + 1 }.goOn ∨ d'.phase = .ending
        ∨ ∃ toolTitle, d'.phase = .listing toolTitle) := by
  unfold read at h
  split at h
  . next hphase =>
    refine ⟨hphase, ?_⟩
    dsimp only at h
    split at h
    . injection h with h
      subst h
      exact ⟨rfl, rfl, .inr (.inl rfl)⟩
    . split at h
      . injection h with h
        subst h
        exact ⟨rfl, rfl, .inl rfl⟩
      . split at h
        . injection h with h
          subst h
          exact ⟨rfl, rfl, .inr (.inl rfl)⟩
        . injection h with h
          subst h
          exact ⟨rfl, rfl, .inr (.inr ⟨_, rfl⟩)⟩
  . contradiction

theorem read_sound {toolCallId : String} {parent : Option SessionSnapshot} (hd : d.Sound)
    (h : d.read toolCallId parent = some d')
    : d'.Sound ∧ d'.Nearer d := by
  rcases read_cases h with ⟨hwaiting, hattempts, -, hcases⟩
  have hlt := hd.waiting hwaiting
  have hle : d'.attempts ≤ SUBAGENT_DISCOVERY_ATTEMPTS := by omega
  refine ⟨?_, .inl ⟨hle, by omega⟩⟩
  rcases hcases with heq | hending | ⟨toolTitle, hlisting⟩
  . rw [heq]
    apply goOn_sound
    dsimp only
    omega
  . refine ⟨hle, ?_, ?_⟩
    . rw [hending]
      intro h
      contradiction
    . rw [hending]
      intro pick h
      contradiction
  . refine ⟨hle, ?_, ?_⟩
    . rw [hlisting]
      intro h
      contradiction
    . rw [hlisting]
      intro pick h
      contradiction

theorem list_sound {children : List HarnessChildSession} (hd : d.Sound)
    (h : d.list children = some d')
    : d'.Sound ∧ d'.Nearer d := by
  unfold list at h
  split at h
  . next toolTitle hphase =>
    injection h with h
    subst h
    refine ⟨⟨hd.attempts, ?_, ?_⟩, .inr ⟨rfl, ?_⟩⟩
    . intro h
      contradiction
    . intro pick h
      contradiction
    . rw [hphase]
      exact .left _ _ (by decide)
  . contradiction

theorem select_sound {toolTitle : String} {candidates : List Candidate}
    (hd : d.attempts ≤ SUBAGENT_DISCOVERY_ATTEMPTS)
    : (d.select toolTitle candidates).Sound
      ∧ (d.select toolTitle candidates).attempts = d.attempts
      ∧ (d.select toolTitle candidates).phase.rank.1 < 4 := by
  unfold select
  dsimp only
  split
  . refine ⟨goOn_sound hd, rfl, ?_⟩
    rcases goOn_phase (d := { d with baseline := some (d.baseline.getD (candidates.map (·.2))) })
      with hphase | hphase
    all_goals
      rw [hphase]
      decide
  . next child hselect =>
    refine ⟨⟨hd, ?_, ?_⟩, rfl, Nat.lt_succ_self 3⟩
    . intro h
      contradiction
    . intro pick hpick
      injection hpick with hpick
      subst hpick
      exact selectSpawnedChild_justified hselect

theorem check_sound {threadOf : String → Option String} {claimed : List String} (hd : d.Sound)
    (h : d.check threadOf claimed = some d')
    : d'.Sound ∧ d'.Nearer d := by
  have hphase : ∀ {phase : DiscoveryPhase}, phase ≠ .waiting → phase.pick? = none
      → Sound { d with phase } := by
    intro phase hwaiting hpick
    refine ⟨hd.attempts, (absurd · hwaiting), ?_⟩
    intro pick h
    rw [hpick] at h
    contradiction
  unfold check at h
  split at h
  . next toolTitle child children candidates heq =>
    have hrank : ∀ phase : DiscoveryPhase, phase.rank.1 = 4 → phase.rank.2 ≤ 2 * children.length + 1
        → Nearer { d with phase } d := by
      intro phase hfirst hsecond
      right
      refine ⟨rfl, ?_⟩
      rw [heq, Prod.lex_def]
      right
      refine ⟨hfirst, ?_⟩
      change phase.rank.2 < 2 * (children.length + 1)
      omega
    split at h
    . injection h with h
      subst h
      exact ⟨hphase (by simp) rfl, hrank _ rfl (Nat.le_succ _)⟩
    . split at h
      . injection h with h
        subst h
        exact ⟨hphase (by simp) rfl, hrank _ rfl (Nat.le_succ _)⟩
      . injection h with h
        subst h
        exact ⟨hphase (by simp) rfl, hrank _ rfl (Nat.le_refl _)⟩
  . next toolTitle candidates heq =>
    injection h with h
    subst h
    rcases @select_sound d toolTitle candidates hd.attempts with ⟨hsound, hattempts, hrank⟩
    refine ⟨hsound, .inr ⟨hattempts, ?_⟩⟩
    rw [heq, Prod.lex_def]
    exact .inl hrank
  . contradiction

theorem look_sound {tracked : List String} (hd : d.Sound) (h : d.look tracked = some d')
    : d'.Sound ∧ d'.Nearer d := by
  unfold look at h
  split at h
  . next toolTitle child children candidates heq =>
    have hnearer : ∀ candidates, Nearer { d with phase := .checking toolTitle children candidates } d := by
      intro candidates
      right
      refine ⟨rfl, ?_⟩
      rw [heq, Prod.lex_def]
      right
      refine ⟨rfl, ?_⟩
      simp only [DiscoveryPhase.rank]
      omega
    have hsound : ∀ candidates, Sound { d with phase := .checking toolTitle children candidates } := by
      intro candidates
      refine ⟨hd.attempts, ?_, ?_⟩
      . intro h
        contradiction
      . intro pick h
        contradiction
    split at h
    all_goals
      injection h with h
      subst h
      exact ⟨hsound _, hnearer _⟩
  . contradiction

end Discovery

/-! All tasks -/

/--
The task that takes the step.
-/
def DiscoveryStep.task? : DiscoveryStep → Option ToolKey
  | .report _ | .link .. => none
  | .read key _ | .list key _ | .check key | .look key | .claim key | .adopt key .. | .finish key =>
    some key

namespace Discoveries

variable {threadOf : String → String → Option String} {s t : Discoveries}

/--
The sections that only concern the task itself.
-/
def ownStep (threadOf : String → String → Option String) (s : Discoveries) (key : ToolKey)
    (d d' : Discovery) : DiscoveryStep → Prop
  | .read key' parent => key' = key ∧ d.read key.2 parent = some d'
  | .list key' children => key' = key ∧ d.list children = some d'
  | .check key' => key' = key ∧ d.check (threadOf key.1) s.claimed = some d'
  | .look key' => key' = key ∧ d.look s.tracked = some d'
  | _ => False

/--
What a step can be.
-/
inductive Steps (threadOf : String → String → Option String) (s : Discoveries)
    : DiscoveryStep → Discoveries → Prop where
  | known {key : ToolKey} (hpolling : discoveryKey key ∈ s.polling) : Steps threadOf s (.report key) s
  | reported {key : ToolKey} (hpolling : discoveryKey key ∉ s.polling)
    : Steps threadOf s (.report key)
        { s.setTask key {} with polling := s.polling ++ [discoveryKey key] }
  | own {label : DiscoveryStep} {key : ToolKey} {d d' : Discovery} (htask : s.tasks key = some d)
      (hown : s.ownStep threadOf key d d' label)
    : Steps threadOf s label (s.setTask key d')
  | claimed {key : ToolKey} {d : Discovery} {pick : Pick} (htask : s.tasks key = some d)
      (hphase : d.phase = .claiming pick)
    : Steps threadOf s (.claim key)
        { s.setTask key { d with phase := .adopting pick } with
          claimed := (if s.claimed.length ≥ MAX_CLAIMED_SUBAGENTS then [] else s.claimed).insert
            pick.child.2 }
  | linked {key : ToolKey} {d : Discovery} {pick : Pick} {evicted : Option String}
      {tracked : List String} (htask : s.tasks key = some d) (hphase : d.phase = .adopting pick)
      (htracked : noteLink s.tracked pick.child.2 evicted = some tracked)
    : Steps threadOf s (.adopt key true evicted)
        { s.setTask key { d with phase := .ending } with
          tracked, links := s.links ++ [(key, pick)] }
  | refused {key : ToolKey} {d : Discovery} {pick : Pick} {evicted : Option String}
      (htask : s.tasks key = some d) (hphase : d.phase = .adopting pick)
    : Steps threadOf s (.adopt key false evicted) (s.setTask key { d with phase := .ending })
  | finished {key : ToolKey} {d : Discovery} (htask : s.tasks key = some d) (hphase : d.phase = .ending)
    : Steps threadOf s (.finish key)
        { s with
          tasks := Function.update s.tasks key none
          polling := s.polling.filter (· != discoveryKey key) }
  | noted {threadId : String} {evicted : Option String} {tracked : List String}
      (htracked : noteLink s.tracked threadId evicted = some tracked)
    : Steps threadOf s (.link threadId evicted) { s with tracked }

theorem step_cases {label : DiscoveryStep} (hstep : s.step threadOf label = some t)
    : Steps threadOf s label t := by
  have hown : ∀ {key : ToolKey} {f : Discovery → Option Discovery},
      ((s.tasks key).bind f).map (s.setTask key) = some t
        → ∃ d d', s.tasks key = some d ∧ f d = some d' ∧ t = s.setTask key d' := by
    intro key f h
    rw [Option.map_eq_some_iff] at h
    rcases h with ⟨d', h, heq⟩
    rw [Option.bind_eq_some_iff] at h
    rcases h with ⟨d, htask, h⟩
    exact ⟨d, d', htask, h, heq.symm⟩
  cases label with
  | report key =>
    injection hstep with hstep
    subst hstep
    unfold report
    split
    . next hpolling => exact .known (List.contains_iff_mem.mp hpolling)
    . next hpolling => exact .reported (mt List.contains_iff_mem.mpr hpolling)
  | read key parent =>
    rcases hown hstep with ⟨d, d', htask, h, rfl⟩
    exact .own htask ⟨rfl, h⟩
  | list key children =>
    rcases hown hstep with ⟨d, d', htask, h, rfl⟩
    exact .own htask ⟨rfl, h⟩
  | check key =>
    rcases hown hstep with ⟨d, d', htask, h, rfl⟩
    exact .own htask ⟨rfl, h⟩
  | look key =>
    rcases hown hstep with ⟨d, d', htask, h, rfl⟩
    exact .own htask ⟨rfl, h⟩
  | claim key =>
    unfold step claim at hstep
    rw [Option.bind_eq_some_iff] at hstep
    rcases hstep with ⟨d, htask, hstep⟩
    split at hstep
    . next pick hphase =>
      injection hstep with hstep
      subst hstep
      exact .claimed htask hphase
    . contradiction
  | adopt key adopted evicted =>
    unfold step adopt at hstep
    rw [Option.bind_eq_some_iff] at hstep
    rcases hstep with ⟨d, htask, hstep⟩
    split at hstep
    . next pick hphase =>
      dsimp only at hstep
      split at hstep
      . next hadopted =>
        rw [Option.map_eq_some_iff] at hstep
        rcases hstep with ⟨tracked, htracked, rfl⟩
        rw [hadopted]
        exact .linked htask hphase htracked
      . next hadopted =>
        injection hstep with hstep
        subst hstep
        rw [Bool.not_eq_true] at hadopted
        rw [hadopted]
        exact .refused htask hphase
    . contradiction
  | finish key =>
    unfold step finish at hstep
    rw [Option.bind_eq_some_iff] at hstep
    rcases hstep with ⟨d, htask, hstep⟩
    split at hstep
    . next hphase =>
      injection hstep with hstep
      subst hstep
      exact .finished htask hphase
    . contradiction
  | link threadId evicted =>
    unfold step at hstep
    rw [Option.map_eq_some_iff] at hstep
    rcases hstep with ⟨tracked, htracked, rfl⟩
    exact .noted htracked

theorem ownStep_sound {label : DiscoveryStep} {key : ToolKey} {d d' : Discovery} (hd : d.Sound)
    (hown : s.ownStep threadOf key d d' label)
    : d'.Sound ∧ d'.Nearer d := by
  unfold ownStep at hown
  split at hown
  . exact Discovery.read_sound hd hown.2
  . exact Discovery.list_sound hd hown.2
  . exact Discovery.check_sound hd hown.2
  . exact Discovery.look_sound hd hown.2
  . contradiction

/--
Whatever a task does, the others are as they were.
-/
theorem step_others {label : DiscoveryStep} {key : ToolKey} (hkey : label.task? = some key)
    (hstep : s.step threadOf label = some t) {other : ToolKey} (hne : other ≠ key)
    : t.tasks other = s.tasks other := by
  cases step_cases hstep with
  | known => rfl
  | reported => contradiction
  | noted => rfl
  | own htask hown =>
    unfold ownStep at hown
    split at hown
    case h_5 => contradiction
    all_goals
      injection hkey with hkey
      rw [← hkey, hown.1] at hne
      exact Function.update_of_ne hne _ _
  | _ =>
    injection hkey with hkey
    subst hkey
    exact Function.update_of_ne hne _ _

theorem setTask_self (key : ToolKey) (d : Discovery) : (s.setTask key d).tasks key = some d :=
  Function.update_self _ _ _

theorem setTask_of_ne {key other : ToolKey} (hne : other ≠ key) (d : Discovery)
    : (s.setTask key d).tasks other = s.tasks other :=
  Function.update_of_ne hne _ _

theorem setTask_eq_some {key other : ToolKey} {d d' : Discovery}
    (h : (s.setTask key d).tasks other = some d')
    : (other = key ∧ d' = d) ∨ (other ≠ key ∧ s.tasks other = some d') := by
  unfold setTask at h
  dsimp only at h
  by_cases heq : other = key
  . subst heq
    rw [Function.update_self] at h
    exact .inl ⟨rfl, (Option.some.inj h).symm⟩
  . rw [Function.update_of_ne heq] at h
    exact .inr ⟨heq, h⟩

/--
The tasks are sound, those that poll are the ones that are there, and every link was made for a reason.
-/
structure Kept (s : Discoveries) : Prop where
  sound : ∀ key d, s.tasks key = some d → d.Sound
  polling : ∀ key, discoveryKey key ∈ s.polling ↔ (s.tasks key).isSome
  links : ∀ link ∈ s.links, link.2.Justified

theorem kept_init : Kept {} := by
  refine ⟨?_, ?_, ?_⟩
  . intro key d h
    contradiction
  . intro key
    exact ⟨fun h => absurd h List.not_mem_nil, fun h => by contradiction⟩
  . intro link h
    contradiction

theorem Kept.setTask (h : s.Kept) {key : ToolKey} {d d' : Discovery} (htask : s.tasks key = some d)
    (hsound : d'.Sound)
    : (s.setTask key d').Kept := by
  refine ⟨?_, ?_, h.links⟩
  . intro other e hother
    rcases setTask_eq_some hother with ⟨-, rfl⟩ | ⟨-, hother⟩
    . exact hsound
    . exact h.sound other e hother
  . intro other
    change discoveryKey other ∈ s.polling ↔ _
    rw [h.polling]
    by_cases heq : other = key
    . subst heq
      rw [setTask_self, htask]
      rfl
    . rw [setTask_of_ne heq]

theorem Kept.step (h : s.Kept) {label : DiscoveryStep} (hstep : s.step threadOf label = some t)
    : t.Kept := by
  cases step_cases hstep with
  | known hpolling => exact h
  | @reported key hpolling =>
    refine ⟨?_, ?_, h.links⟩
    . intro other d hother
      rcases setTask_eq_some hother with ⟨-, rfl⟩ | ⟨-, hother⟩
      . exact ⟨Nat.zero_le _, fun _ => by decide, fun pick hpick => by contradiction⟩
      . exact h.sound other d hother
    . intro other
      dsimp only
      rw [List.mem_append, List.mem_singleton, discoveryKey_injective.eq_iff, h.polling]
      by_cases heq : other = key
      . subst heq
        rw [setTask_self]
        exact ⟨fun _ => rfl, fun _ => .inr rfl⟩
      . rw [setTask_of_ne heq]
        exact or_iff_left heq
  | own htask hown => exact h.setTask htask (ownStep_sound (h.sound _ _ htask) hown).1
  | @claimed key d pick htask hphase =>
    have hd := h.sound _ _ htask
    have hnext : Discovery.Sound { d with phase := .adopting pick } := by
      refine ⟨hd.attempts, ?_, ?_⟩
      . intro hwaiting
        contradiction
      . intro pick' hpick
        apply hd.picks
        rw [hphase]
        exact hpick
    have hset := h.setTask htask hnext
    exact ⟨hset.sound, hset.polling, hset.links⟩
  | @linked key d pick evicted tracked htask hphase htracked =>
    have hd := h.sound _ _ htask
    have hnext : Discovery.Sound { d with phase := .ending } := by
      refine ⟨hd.attempts, ?_, ?_⟩
      . intro hwaiting
        contradiction
      . intro pick hpick
        contradiction
    have hset := h.setTask htask hnext
    refine ⟨hset.sound, hset.polling, ?_⟩
    intro link hlink
    rcases List.mem_append.mp hlink with hold | hnew
    . exact h.links link hold
    . rw [List.mem_singleton] at hnew
      rw [hnew]
      apply hd.picks
      rw [hphase]
      rfl
  | refused htask hphase =>
    apply h.setTask htask
    refine ⟨(h.sound _ _ htask).attempts, ?_, ?_⟩
    . intro hwaiting
      contradiction
    . intro pick hpick
      contradiction
  | @finished key d htask hphase =>
    refine ⟨?_, ?_, h.links⟩
    . intro other e hother
      dsimp only at hother
      by_cases heq : other = key
      . rw [heq, Function.update_self] at hother
        contradiction
      . rw [Function.update_of_ne heq] at hother
        exact h.sound other e hother
    . intro other
      dsimp only
      rw [List.mem_filter, bne_iff_ne, discoveryKey_injective.ne_iff, h.polling]
      by_cases heq : other = key
      . rw [heq, Function.update_self]
        exact ⟨fun h => absurd rfl h.2, fun h => by contradiction⟩
      . rw [Function.update_of_ne heq]
        exact and_iff_left heq
  | noted htracked => exact ⟨h.sound, h.polling, h.links⟩

/--
A step of a task brings it closer to its end, or ends it.
-/
theorem Kept.progress (h : s.Kept) {label : DiscoveryStep} {key : ToolKey} {d : Discovery}
    (hkey : label.task? = some key) (htask : s.tasks key = some d)
    (hstep : s.step threadOf label = some t)
    : t.tasks key = none ∨ ∃ d', t.tasks key = some d' ∧ d'.Nearer d := by
  have hlater : ∀ {phase : DiscoveryPhase}, Prod.Lex (· < ·) (· < ·) phase.rank d.phase.rank
      → Discovery.Nearer { d with phase } d := fun h => .inr ⟨rfl, h⟩
  cases step_cases hstep with
  | known => contradiction
  | reported => contradiction
  | noted => contradiction
  | @own _ key' e d' htask' hown =>
    have hsame : key' = key := by
      unfold ownStep at hown
      split at hown
      case h_5 => contradiction
      all_goals
        injection hkey with hkey
        rw [← hkey, hown.1]
    subst hsame
    rw [htask] at htask'
    injection htask' with htask'
    subst htask'
    exact .inr ⟨d', setTask_self _ _, (ownStep_sound (h.sound _ _ htask) hown).2⟩
  | claimed htask' hphase =>
    injection hkey with hkey
    subst hkey
    rw [htask] at htask'
    injection htask' with htask'
    subst htask'
    refine .inr ⟨_, setTask_self _ _, hlater ?_⟩
    rw [hphase]
    exact .left _ _ (Nat.lt_succ_self 2)
  | linked htask' hphase =>
    injection hkey with hkey
    subst hkey
    rw [htask] at htask'
    injection htask' with htask'
    subst htask'
    refine .inr ⟨_, setTask_self _ _, hlater ?_⟩
    rw [hphase]
    exact .left _ _ (Nat.lt_succ_self 1)
  | refused htask' hphase =>
    injection hkey with hkey
    subst hkey
    rw [htask] at htask'
    injection htask' with htask'
    subst htask'
    refine .inr ⟨_, setTask_self _ _, hlater ?_⟩
    rw [hphase]
    exact .left _ _ (Nat.lt_succ_self 1)
  | finished =>
    injection hkey with hkey
    subst hkey
    exact .inl (Function.update_self _ _ _)

/--
Wherever a task is, it can take a step.
-/
theorem enabled {key : ToolKey} {d : Discovery} (htask : s.tasks key = some d)
    : ∃ label, label.task? = some key ∧ (s.step threadOf label).isSome := by
  cases hphase : d.phase with
  | waiting =>
    refine ⟨.read key none, rfl, ?_⟩
    simp only [step, htask, Option.bind_some, Discovery.read, hphase, Option.map_some, Option.isSome_some]
  | listing toolTitle =>
    refine ⟨.list key [], rfl, ?_⟩
    simp only [step, htask, Option.bind_some, Discovery.list, hphase, Option.map_some, Option.isSome_some]
  | checking toolTitle children candidates =>
    refine ⟨.check key, rfl, ?_⟩
    simp only [step, htask, Option.bind_some, Option.isSome_map, Discovery.check, hphase]
    cases children with
    | nil => rfl
    | cons child children =>
      dsimp only
      split
      . rfl
      . split <;> rfl
  | looking toolTitle child children candidates =>
    refine ⟨.look key, rfl, ?_⟩
    simp only [step, htask, Option.bind_some, Option.isSome_map, Discovery.look, hphase]
    split <;> rfl
  | claiming pick =>
    refine ⟨.claim key, rfl, ?_⟩
    simp only [step, claim, htask, Option.bind_some, hphase, Option.isSome_some]
  | adopting pick =>
    refine ⟨.adopt key false none, rfl, ?_⟩
    simp only [step, adopt, htask, Option.bind_some, hphase]
    rfl
  | ending =>
    refine ⟨.finish key, rfl, ?_⟩
    simp only [step, finish, htask, Option.bind_some, hphase, Option.isSome_some]

/-! The children that are linked -/

def linked (s : Discoveries) : List String :=
  s.links.map (·.2.child.2)

/--
The child has been linked, or is about to be.
-/
def Taken (s : Discoveries) (threadId : String) : Prop :=
  threadId ∈ s.linked
    ∨ ∃ key d pick, s.tasks key = some d ∧ d.phase.adopting? = some pick ∧ pick.child.2 = threadId

/--
What keeps the tasks apart: no child is claimed that another task has looked at and may still choose, the
claims are only cleared when their children are tracked, and only a claimed child is no longer tracked.
-/
def Orderly (s : Discoveries) : DiscoveryStep → Prop
  | .claim key => ∀ d pick, s.tasks key = some d → d.phase = .claiming pick →
    (s.claimed.length < MAX_CLAIMED_SUBAGENTS ∨ s.claimed ⊆ s.tracked)
      ∧ ∀ other d', other ≠ key → s.tasks other = some d' → pick.child.2 ∉ d'.phase.seen
  | .adopt _ _ evicted => ∀ threadId, evicted = some threadId → threadId ∈ s.claimed
  | .link _ evicted => ∀ threadId, evicted = some threadId → threadId ∈ s.claimed
  | _ => True

/--
A child that is taken is known, so that no task comes to choose it again.
-/
structure Apart (s : Discoveries) : Prop where
  known : ∀ threadId, s.Taken threadId → threadId ∈ s.claimed ∨ threadId ∈ s.tracked
  fresh : ∀ key d, s.tasks key = some d → ∀ c ∈ d.phase.candidates, ¬s.Taken c.2
  unclaimed : ∀ key d, s.tasks key = some d → ∀ threadId ∈ d.phase.seen, threadId ∉ s.claimed
  once : s.linked.Nodup
  pending : ∀ key d pick, s.tasks key = some d → d.phase.adopting? = some pick → pick.child.2 ∉ s.linked
  apart : ∀ key key' d d' pick pick', s.tasks key = some d → d.phase.adopting? = some pick →
    s.tasks key' = some d' → d'.phase.adopting? = some pick' → pick.child.2 = pick'.child.2 → key = key'

theorem apart_init : Apart {} := by
  have hnone : ∀ threadId, ¬Taken {} threadId := by
    rintro threadId (hlinked | ⟨key, d, pick, htask, -⟩)
    . exact absurd hlinked List.not_mem_nil
    . contradiction
  refine ⟨?_, ?_, ?_, .nil, ?_, ?_⟩
  . intro threadId htaken
    exact absurd htaken (hnone threadId)
  all_goals
    intros
    contradiction

/--
What a task may choose later on it may choose already, or it has looked at it just now.
-/
structure LooksOn (s : Discoveries) (phase phase' : DiscoveryPhase) : Prop where
  before : phase.adopting? = none
  after : phase'.adopting? = none
  candidates : ∀ c ∈ phase'.candidates, c ∈ phase.candidates ∨ (c.2 ∈ phase.seen ∧ c.2 ∉ s.tracked)
  seen : ∀ threadId ∈ phase'.seen, threadId ∈ phase.seen ∨ threadId ∉ s.claimed

theorem LooksOn.of_nothing {phase phase' : DiscoveryPhase} (hbefore : phase.adopting? = none)
    (hafter : phase'.adopting? = none) (hseen : phase'.seen = []) (hcandidates : phase'.candidates = [])
    : s.LooksOn phase phase' where
  before := hbefore
  after := hafter
  candidates c hmem := by
    rw [hcandidates] at hmem
    contradiction
  seen threadId hmem := by
    rw [hseen] at hmem
    contradiction

theorem LooksOn.of_checking {toolTitle : String} {child : HarnessChildSession}
    {children : List HarnessChildSession} {candidates : List Candidate}
    : s.LooksOn (.checking toolTitle (child :: children) candidates)
        (.checking toolTitle children candidates) where
  before := rfl
  after := rfl
  candidates _ hmem := .inl hmem
  seen _ hmem := .inl hmem

theorem read_looksOn {d d' : Discovery} {toolCallId : String} {parent : Option SessionSnapshot}
    (h : d.read toolCallId parent = some d')
    : s.LooksOn d.phase d'.phase := by
  rcases Discovery.read_cases h with ⟨hwaiting, -, -, hcases⟩
  rw [hwaiting]
  rcases hcases with heq | hending | ⟨toolTitle, hlisting⟩
  . rw [heq]
    rcases Discovery.goOn_phase (d := { d with attempts := d.attempts + 1 }) with hphase | hphase
    all_goals
      rw [hphase]
      exact .of_nothing rfl rfl rfl rfl
  . rw [hending]
    exact .of_nothing rfl rfl rfl rfl
  . rw [hlisting]
    exact .of_nothing rfl rfl rfl rfl

theorem list_looksOn {d d' : Discovery} {children : List HarnessChildSession}
    (h : d.list children = some d')
    : s.LooksOn d.phase d'.phase := by
  unfold Discovery.list at h
  split at h
  . next toolTitle hphase =>
    injection h with h
    subst h
    rw [hphase]
    exact .of_nothing rfl rfl rfl rfl
  . contradiction

theorem select_looksOn {d : Discovery} {toolTitle : String} {candidates : List Candidate}
    : s.LooksOn (.checking toolTitle [] candidates) (d.select toolTitle candidates).phase := by
  unfold Discovery.select
  dsimp only
  split
  . rcases Discovery.goOn_phase
      (d := { d with baseline := some (d.baseline.getD (candidates.map (·.2))) }) with hphase | hphase
    all_goals
      rw [hphase]
      exact .of_nothing rfl rfl rfl rfl
  . exact ⟨rfl, rfl, fun _ hmem => .inl hmem, fun _ hmem => .inl hmem⟩

theorem check_looksOn {d d' : Discovery} {threadOf : String → Option String}
    (h : d.check threadOf s.claimed = some d')
    : s.LooksOn d.phase d'.phase := by
  unfold Discovery.check at h
  split at h
  . next toolTitle child children candidates hphase =>
    rw [hphase]
    split at h
    . injection h with h
      subst h
      exact .of_checking
    . next threadId _ =>
      split at h
      . injection h with h
        subst h
        exact .of_checking
      . next hclaimed =>
        injection h with h
        subst h
        refine ⟨rfl, rfl, fun _ hmem => .inl hmem, ?_⟩
        intro seen hmem
        rcases List.mem_cons.mp hmem with heq | hmem
        . right
          rw [heq, ← List.contains_iff_mem]
          exact hclaimed
        . exact .inl hmem
  . next toolTitle candidates hphase =>
    injection h with h
    subst h
    rw [hphase]
    exact select_looksOn
  . contradiction

theorem look_looksOn {d d' : Discovery} (h : d.look s.tracked = some d')
    : s.LooksOn d.phase d'.phase := by
  unfold Discovery.look at h
  split at h
  . next toolTitle child children candidates hphase =>
    rw [hphase]
    split at h
    . injection h with h
      subst h
      exact ⟨rfl, rfl, fun _ hmem => .inl hmem, fun _ hmem => .inl (List.mem_cons_of_mem _ hmem)⟩
    . next htracked =>
      injection h with h
      subst h
      refine ⟨rfl, rfl, ?_, ?_⟩
      . intro c hmem
        rcases List.mem_append.mp hmem with hmem | hmem
        . exact .inl hmem
        . rw [List.mem_singleton] at hmem
          right
          rw [hmem]
          exact ⟨List.mem_cons_self, mt List.contains_iff_mem.mpr htracked⟩
      . intro threadId hmem
        left
        change threadId ∈ (candidates ++ [child]).map (·.2) at hmem
        rw [List.map_append, List.mem_append] at hmem
        rcases hmem with hmem | hmem
        . exact List.mem_cons_of_mem _ hmem
        . rw [List.map_singleton, List.mem_singleton] at hmem
          rw [hmem]
          exact List.mem_cons_self
  . contradiction

theorem ownStep_looksOn {label : DiscoveryStep} {key : ToolKey} {d d' : Discovery}
    (hown : s.ownStep threadOf key d d' label)
    : s.LooksOn d.phase d'.phase := by
  unfold ownStep at hown
  split at hown
  . exact read_looksOn hown.2
  . exact list_looksOn hown.2
  . exact check_looksOn hown.2
  . exact look_looksOn hown.2
  . contradiction

/-! No child twice -/

theorem noteLink_keeps {tracked tracked' : List String} {threadId : String} {evicted : Option String}
    (h : noteLink tracked threadId evicted = some tracked')
    : ∀ known ∈ tracked, known ∈ tracked' ∨ evicted = some known := by
  intro known hmem
  unfold noteLink at h
  split at h
  . injection h with h
    exact .inl (h ▸ hmem)
  . split at h
    . split at h
      . contradiction
      . next gone =>
        split at h
        . injection h with h
          subst h
          by_cases heq : known = gone
          . exact .inr (congrArg some heq.symm)
          . exact .inl (List.mem_append_left _ ((List.mem_erase_of_ne heq).mpr hmem))
        . contradiction
    . injection h with h
      subst h
      exact .inl (List.mem_append_left _ hmem)

theorem taken_setTask {key : ToolKey} {d' : Discovery}
    (hbefore : ∀ d, s.tasks key = some d → d.phase.adopting? = none) (hafter : d'.phase.adopting? = none)
    {threadId : String}
    : (s.setTask key d').Taken threadId ↔ s.Taken threadId := by
  apply or_congr_right
  constructor
  . rintro ⟨other, e, pick, htask, hphase, hpick⟩
    rcases setTask_eq_some htask with ⟨-, rfl⟩ | ⟨-, htask⟩
    . rw [hafter] at hphase
      contradiction
    . exact ⟨other, e, pick, htask, hphase, hpick⟩
  . rintro ⟨other, e, pick, htask, hphase, hpick⟩
    refine ⟨other, e, pick, ?_, hphase, hpick⟩
    rw [setTask_of_ne _ d']
    . exact htask
    . rintro rfl
      rw [hbefore e htask] at hphase
      contradiction

/--
A task that adopts nothing, before or afterwards, only has to look at what is not taken.
-/
theorem Apart.setTask (h : s.Apart) {key : ToolKey} {d' : Discovery}
    (hbefore : ∀ d, s.tasks key = some d → d.phase.adopting? = none) (hafter : d'.phase.adopting? = none)
    (hfresh : ∀ c ∈ d'.phase.candidates, ¬s.Taken c.2)
    (hunclaimed : ∀ threadId ∈ d'.phase.seen, threadId ∉ s.claimed)
    : (s.setTask key d').Apart := by
  have hadopting : ∀ {other e pick}, (s.setTask key d').tasks other = some e → e.phase.adopting? = some pick
      → s.tasks other = some e := by
    intro other e pick htask hphase
    rcases setTask_eq_some htask with ⟨-, rfl⟩ | ⟨-, htask⟩
    . rw [hafter] at hphase
      contradiction
    . exact htask
  refine ⟨?_, ?_, ?_, h.once, ?_, ?_⟩
  . intro threadId htaken
    exact h.known threadId ((taken_setTask hbefore hafter).mp htaken)
  . intro other e htask c hmem
    rw [taken_setTask hbefore hafter]
    rcases setTask_eq_some htask with ⟨-, rfl⟩ | ⟨-, htask⟩
    . exact hfresh c hmem
    . exact h.fresh other e htask c hmem
  . intro other e htask threadId hmem
    rcases setTask_eq_some htask with ⟨-, rfl⟩ | ⟨-, htask⟩
    . exact hunclaimed threadId hmem
    . exact h.unclaimed other e htask threadId hmem
  . intro other e pick htask hphase
    exact h.pending other e pick (hadopting htask hphase) hphase
  . intro other other' e e' pick pick' htask hphase htask' hphase' hsame
    exact h.apart other other' e e' pick pick' (hadopting htask hphase) hphase (hadopting htask' hphase')
      hphase' hsame

theorem Apart.ownStep (h : s.Apart) {key : ToolKey} {d d' : Discovery} (htask : s.tasks key = some d)
    (hlooks : s.LooksOn d.phase d'.phase)
    : (s.setTask key d').Apart := by
  apply h.setTask _ hlooks.after
  . intro c hmem htaken
    rcases hlooks.candidates c hmem with hold | ⟨hseen, htracked⟩
    . exact h.fresh key d htask c hold htaken
    . rcases h.known c.2 htaken with hclaimed | htracked'
      . exact h.unclaimed key d htask c.2 hseen hclaimed
      . exact htracked htracked'
  . intro threadId hmem
    rcases hlooks.seen threadId hmem with hold | hnew
    . exact h.unclaimed key d htask threadId hold
    . exact hnew
  . intro e he
    rw [htask] at he
    injection he with he
    rw [← he]
    exact hlooks.before

theorem Apart.claim (h : s.Apart) (hkept : s.Kept) {key : ToolKey} {d : Discovery} {pick : Pick}
    (htask : s.tasks key = some d) (hphase : d.phase = .claiming pick) (horderly : s.Orderly (.claim key))
    : Apart { s.setTask key { d with phase := .adopting pick } with
        claimed := (if s.claimed.length ≥ MAX_CLAIMED_SUBAGENTS then [] else s.claimed).insert
          pick.child.2 } := by
  rcases horderly d pick htask hphase with ⟨hroom, hothers⟩
  have hjustified : pick.Justified := by
    apply (hkept.sound key d htask).picks
    rw [hphase]
    rfl
  have hnot : ¬s.Taken pick.child.2 := by
    apply h.fresh key d htask
    rw [hphase]
    exact hjustified.candidate
  generalize hcleared : (if s.claimed.length ≥ MAX_CLAIMED_SUBAGENTS then [] else s.claimed) = cleared
  have hsubset : cleared ⊆ s.claimed := by
    rw [← hcleared]
    split
    . exact List.nil_subset _
    . exact List.Subset.refl _
  have hremembered : ∀ threadId ∈ s.claimed, threadId ∈ cleared ∨ threadId ∈ s.tracked := by
    intro threadId hmem
    rw [← hcleared]
    rcases hroom with hroom | htracked
    . rw [if_neg (by omega)]
      exact .inl hmem
    . exact .inr (htracked hmem)
  have hadopting : ∀ {other e pick'},
      (s.setTask key { d with phase := .adopting pick }).tasks other = some e
        → e.phase.adopting? = some pick'
        → (other = key ∧ pick' = pick) ∨ (s.tasks other = some e ∧ s.Taken pick'.child.2) := by
    intro other e pick' he hadopting
    rcases setTask_eq_some he with ⟨heq, rfl⟩ | ⟨-, he⟩
    . injection hadopting with hadopting
      exact .inl ⟨heq, hadopting.symm⟩
    . exact .inr ⟨he, .inr ⟨other, e, pick', he, hadopting, rfl⟩⟩
  have hgrows : ∀ {threadId}, Taken { s.setTask key { d with phase := .adopting pick } with
      claimed := cleared.insert pick.child.2 } threadId → s.Taken threadId ∨ threadId = pick.child.2 := by
    rintro threadId (hlinked | ⟨other, e, pick', he, hphase', rfl⟩)
    . exact .inl (.inl hlinked)
    . rcases hadopting he hphase' with ⟨-, rfl⟩ | ⟨-, htaken⟩
      . exact .inr rfl
      . exact .inl htaken
  refine ⟨?_, ?_, ?_, h.once, ?_, ?_⟩
  . intro threadId htaken'
    dsimp only
    rw [List.mem_insert_iff]
    rcases hgrows htaken' with hold | heq
    . rcases h.known threadId hold with hclaimed | htracked
      . rcases hremembered threadId hclaimed with hmem | htracked
        . exact .inl (.inr hmem)
        . exact .inr htracked
      . exact .inr htracked
    . exact .inl (.inl heq)
  . intro other e he c hmem htaken'
    rcases setTask_eq_some he with ⟨-, rfl⟩ | ⟨hne, he⟩
    . contradiction
    . rcases hgrows htaken' with hold | heq
      . exact h.fresh other e he c hmem hold
      . apply hothers other e hne he
        rw [← heq]
        exact e.phase.mem_seen hmem
  . intro other e he threadId hmem
    dsimp only
    rcases setTask_eq_some he with ⟨-, rfl⟩ | ⟨hne, he⟩
    . contradiction
    . rw [List.mem_insert_iff, not_or]
      refine ⟨?_, fun hmem' => h.unclaimed other e he threadId hmem (hsubset hmem')⟩
      rintro rfl
      exact hothers other e hne he hmem
  . intro other e pick' he hphase' hmem
    rcases hadopting he hphase' with ⟨-, rfl⟩ | ⟨he, -⟩
    . exact hnot (.inl hmem)
    . exact h.pending other e pick' he hphase' hmem
  . intro other other' e e' pick' pick'' he hphase' he' hphase'' hsame
    rcases hadopting he hphase' with ⟨rfl, rfl⟩ | ⟨hold, htaken⟩
    . rcases hadopting he' hphase'' with ⟨rfl, rfl⟩ | ⟨-, htaken⟩
      . rfl
      . rw [← hsame] at htaken
        exact absurd htaken hnot
    . rcases hadopting he' hphase'' with ⟨rfl, rfl⟩ | ⟨hold', -⟩
      . rw [hsame] at htaken
        exact absurd htaken hnot
      . exact h.apart other other' e e' pick' pick'' hold hphase' hold' hphase'' hsame

/--
A link moves a child from the task that adopts it to the links.
-/
theorem Apart.adopt (h : s.Apart) {key : ToolKey} {d : Discovery} {pick : Pick}
    (htask : s.tasks key = some d) (hphase : d.phase = .adopting pick) {tracked : List String}
    (htracked : ∀ threadId ∈ s.tracked, threadId ∈ tracked ∨ threadId ∈ s.claimed)
    {links : List (ToolKey × Pick)} (hlinks : links = s.links ∨ links = s.links ++ [(key, pick)])
    : Apart { s.setTask key { d with phase := .ending } with tracked, links } := by
  have hadopts : d.phase.adopting? = some pick := by
    rw [hphase]
    rfl
  have hlinked : ∀ {threadId}, threadId ∈ links.map (·.2.child.2)
      → threadId ∈ s.linked ∨ threadId = pick.child.2 := by
    intro threadId hmem
    rcases hlinks with rfl | rfl
    . exact .inl hmem
    . rw [List.map_append, List.mem_append, List.map_singleton, List.mem_singleton] at hmem
      exact hmem
  have hadopting : ∀ {other e pick'}, (s.setTask key { d with phase := .ending }).tasks other = some e
      → e.phase.adopting? = some pick' → other ≠ key ∧ s.tasks other = some e := by
    intro other e pick' he hphase'
    rcases setTask_eq_some he with ⟨-, rfl⟩ | he
    . contradiction
    . exact he
  have htaken : ∀ {threadId}, Taken { s.setTask key { d with phase := .ending } with tracked, links } threadId
      → s.Taken threadId := by
    rintro threadId (hmem | ⟨other, e, pick', he, hphase', hpick⟩)
    . rcases hlinked hmem with hold | heq
      . exact .inl hold
      . exact .inr ⟨key, d, pick, htask, hadopts, heq.symm⟩
    . exact .inr ⟨other, e, pick', (hadopting he hphase').2, hphase', hpick⟩
  refine ⟨?_, ?_, ?_, ?_, ?_, ?_⟩
  . intro threadId htaken'
    rcases h.known threadId (htaken htaken') with hclaimed | hold
    . exact .inl hclaimed
    . exact (htracked threadId hold).symm
  . intro other e he c hmem htaken'
    rcases setTask_eq_some he with ⟨-, rfl⟩ | ⟨-, he⟩
    . contradiction
    . exact h.fresh other e he c hmem (htaken htaken')
  . intro other e he threadId hmem
    rcases setTask_eq_some he with ⟨-, rfl⟩ | ⟨-, he⟩
    . contradiction
    . exact h.unclaimed other e he threadId hmem
  . change (links.map (·.2.child.2)).Nodup
    rcases hlinks with rfl | rfl
    . exact h.once
    . rw [List.map_append, List.nodup_append]
      refine ⟨h.once, List.pairwise_singleton _ _, ?_⟩
      rintro threadId hmem other hother rfl
      rw [List.map_singleton, List.mem_singleton] at hother
      exact h.pending key d pick htask hadopts (hother ▸ hmem)
  . intro other e pick' he hphase' hmem
    rcases hadopting he hphase' with ⟨hne, he⟩
    rcases hlinked hmem with hold | heq
    . exact h.pending other e pick' he hphase' hold
    . exact hne (h.apart other key e d pick' pick he hphase' htask hadopts heq)
  . intro other other' e e' pick' pick'' he hphase' he' hphase'' hsame
    exact h.apart other other' e e' pick' pick'' (hadopting he hphase').2 hphase' (hadopting he' hphase'').2
      hphase'' hsame

/--
The tasks are as before, or one that was ending is gone.
-/
theorem Apart.congr (h : s.Apart) (htasks : ∀ key d, t.tasks key = some d → s.tasks key = some d)
    (hlinks : t.links = s.links) (hclaimed : t.claimed = s.claimed)
    (htracked : ∀ threadId ∈ s.tracked, threadId ∈ t.tracked ∨ threadId ∈ s.claimed)
    : t.Apart := by
  have hlinked : t.linked = s.linked := by
    unfold linked
    rw [hlinks]
  have htaken : ∀ {threadId}, t.Taken threadId → s.Taken threadId := by
    rintro threadId (hmem | ⟨key, d, pick, htask, hphase, hpick⟩)
    . exact .inl (hlinked ▸ hmem)
    . exact .inr ⟨key, d, pick, htasks key d htask, hphase, hpick⟩
  refine ⟨?_, ?_, ?_, hlinked ▸ h.once, ?_, ?_⟩
  . intro threadId htaken'
    rw [hclaimed]
    rcases h.known threadId (htaken htaken') with hmem | hmem
    . exact .inl hmem
    . exact (htracked threadId hmem).symm
  . intro key d htask c hmem htaken'
    exact h.fresh key d (htasks key d htask) c hmem (htaken htaken')
  . intro key d htask threadId hmem
    rw [hclaimed]
    exact h.unclaimed key d (htasks key d htask) threadId hmem
  . intro key d pick htask hphase
    rw [hlinked]
    exact h.pending key d pick (htasks key d htask) hphase
  . intro key key' d d' pick pick' htask hphase htask' hphase'
    exact h.apart key key' d d' pick pick' (htasks key d htask) hphase (htasks key' d' htask') hphase'

theorem Apart.step (h : s.Apart) (hkept : s.Kept) {label : DiscoveryStep} (horderly : s.Orderly label)
    (hstep : s.step threadOf label = some t)
    : t.Apart := by
  have hnoted : ∀ {threadId evicted tracked}, noteLink s.tracked threadId evicted = some tracked
      → (∀ threadId, evicted = some threadId → threadId ∈ s.claimed)
      → ∀ known ∈ s.tracked, known ∈ tracked ∨ known ∈ s.claimed := by
    intro threadId evicted tracked hnote horderly known hmem
    exact (noteLink_keeps hnote known hmem).imp_right (horderly known)
  cases step_cases hstep with
  | known => exact h
  | @reported key hpolling =>
    have hnone : s.tasks key = none := by
      rw [hkept.polling, Option.not_isSome_iff_eq_none] at hpolling
      exact hpolling
    have hset : (s.setTask key {}).Apart := by
      apply h.setTask _ rfl
      . intro c hmem
        contradiction
      . intro threadId hmem
        contradiction
      . intro d htask
        rw [hnone] at htask
        contradiction
    exact hset.congr (fun _ _ h => h) rfl rfl fun _ h => .inl h
  | own htask hown => exact h.ownStep htask (ownStep_looksOn hown)
  | claimed htask hphase => exact h.claim hkept htask hphase horderly
  | linked htask hphase htracked => exact h.adopt htask hphase (hnoted htracked horderly) (.inr rfl)
  | refused htask hphase => exact h.adopt htask hphase (fun _ h => .inl h) (.inl rfl)
  | @finished key d htask hphase =>
    refine h.congr ?_ rfl rfl fun _ h => .inl h
    intro other e he
    dsimp only at he
    by_cases heq : other = key
    . rw [heq, Function.update_self] at he
      contradiction
    . rw [Function.update_of_ne heq] at he
      exact he
  | noted htracked => exact h.congr (fun _ _ h => h) rfl rfl (hnoted htracked horderly)

/-! Runs -/

/--
A step of another task, or a report of this one, leaves the task alone.
-/
theorem Kept.untouched (h : s.Kept) {label : DiscoveryStep} {key : ToolKey} {d : Discovery}
    (hkey : label.task? ≠ some key) (htask : s.tasks key = some d) (hstep : s.step threadOf label = some t)
    : t.tasks key = some d := by
  cases hlabel : label.task? with
  | some other =>
    rw [step_others hlabel hstep, htask]
    rintro rfl
    exact hkey hlabel
  | none =>
    cases step_cases hstep with
    | known => exact htask
    | noted => exact htask
    | @reported other hpolling =>
      have hne : key ≠ other := by
        rintro rfl
        rw [h.polling, htask] at hpolling
        exact hpolling rfl
      exact (setTask_of_ne hne _).trans htask
    | own htask' hown =>
      unfold ownStep at hown
      split at hown <;> contradiction
    | _ => contradiction

/--
A task has begun no more polls than it may. It can always go on, comes closer to its end with every step of
its own until it is gone, and the steps of others do not concern it.
-/
structure RunsOut (threadOf : String → String → Option String) (s : Discoveries) (key : ToolKey)
    (d : Discovery) : Prop where
  attempts : d.attempts ≤ SUBAGENT_DISCOVERY_ATTEMPTS
  enabled : ∃ label, label.task? = some key ∧ (s.step threadOf label).isSome
  nearer : ∀ label t, label.task? = some key → s.step threadOf label = some t →
    t.tasks key = none ∨ ∃ d', t.tasks key = some d' ∧ d'.Nearer d
  untouched : ∀ label t, label.task? ≠ some key → s.step threadOf label = some t → t.tasks key = some d

/--
In any order of their sections, whatever the server lists: a child is linked for a reason, every task runs
out and has its entry in `polling` just as long, and in an orderly run no child is linked twice.
-/
theorem linkedOnce_of_exec {decode : String → Option AgentSessionId} {base64 : String → String}
    {labels : List DiscoveryStep} (hexec : exec (step (childThreadId decode base64)) {} labels = some s)
    : (Meets (step (childThreadId decode base64)) Orderly {} labels → s.linked.Nodup)
      ∧ (∀ link ∈ s.links, link.2.Justified)
      ∧ (∀ key, discoveryKey key ∈ s.polling ↔ (s.tasks key).isSome)
      ∧ ∀ key d, s.tasks key = some d → s.RunsOut (childThreadId decode base64) key d := by
  have hkept : s.Kept := exec_invariant' (fun _ _ _ h hstep => h.step hstep) kept_init hexec
  refine ⟨?_, hkept.links, hkept.polling, ?_⟩
  . intro hmeets
    have hboth : s.Kept ∧ s.Apart :=
      exec_invariant (I := fun s => s.Kept ∧ s.Apart)
        (fun _ _ _ h horderly hstep => ⟨h.1.step hstep, h.2.step h.1 horderly hstep⟩)
        ⟨kept_init, apart_init⟩ hmeets hexec
    exact hboth.2.once
  . intro key d htask
    refine ⟨(hkept.sound key d htask).attempts, enabled htask, ?_, ?_⟩
    . intro label t hkey hstep
      exact hkept.progress hkey htask hstep
    . intro label t hkey hstep
      exact hkept.untouched hkey htask hstep

/-! A parent with one child -/

def decodeParent : String → Option AgentSessionId
  | "v1.b3BlbmNvZGU.cGFyZW50" => some { agentId := "opencode", acpSessionId := "parent" }
  | _ => none

def encodeName : String → String
  | "opencode" => "b3BlbmNvZGU"
  | "child" => "Y2hpbGQ"
  | _ => ""

/--
A tool call of the parent that has no title of its own yet.
-/
def taskKey (toolCallId : String) : ToolKey :=
  ("v1.b3BlbmNvZGU.cGFyZW50", toolCallId)

def runningTask (toolCallId : String) : SessionSnapshot :=
  { SessionSnapshot.new "opencode" "v1.b3BlbmNvZGU.cGFyZW50" with
    tools := (∅ : TreeMap String SnapshotTool).insert toolCallId
      { id := toolCallId
        generation := some 1
        kind := .other
        status := .inProgress
        title := "task"
        content := ""
        structuredContent := []
        locations := []
        truncated := false
        subagent := true } }

def onlyChild : HarnessChildSession where
  title := none
  acpSessionId := "child"

/--
A poll that comes to a choice.
-/
def choice (toolCallId : String) : List DiscoveryStep :=
  [.read (taskKey toolCallId) (some (runningTask toolCallId)), .list (taskKey toolCallId) [onlyChild],
    .check (taskKey toolCallId), .look (taskKey toolCallId), .check (taskKey toolCallId)]

def takeUp (toolCallId : String) : List DiscoveryStep :=
  [.claim (taskKey toolCallId), .adopt (taskKey toolCallId) true none, .finish (taskKey toolCallId)]

def linksOf (labels : List DiscoveryStep) : Option (List (ToolKey × String × List String)) :=
  (exec (step (childThreadId decodeParent encodeName)) {} labels).map fun s =>
    s.links.map fun link => (link.1, link.2.child.2, link.2.baseline)

theorem linkedOnce_choice
    : ∃ s, exec (step (childThreadId decodeParent encodeName)) {}
          ([.report (taskKey "a")] ++ choice "a" ++ takeUp "a") = some s
        ∧ Meets (step (childThreadId decodeParent encodeName)) Orderly {}
          ([.report (taskKey "a")] ++ choice "a" ++ takeUp "a")
        ∧ s.linked = ["v1.b3BlbmNvZGU.Y2hpbGQ"] ∧ s.linked.Nodup := by
  have hrun : linksOf ([.report (taskKey "a")] ++ choice "a" ++ takeUp "a")
      = some [(taskKey "a", "v1.b3BlbmNvZGU.Y2hpbGQ", ["v1.b3BlbmNvZGU.Y2hpbGQ"])] := by
    decide +kernel
  unfold linksOf at hrun
  rw [Option.map_eq_some_iff] at hrun
  rcases hrun with ⟨s, hexec, hlinks⟩
  have hmeets : Meets (step (childThreadId decodeParent encodeName)) Orderly {}
      ([.report (taskKey "a")] ++ choice "a" ++ takeUp "a") := by
    refine .cons trivial rfl (.cons trivial rfl (.cons trivial rfl (.cons trivial rfl (.cons trivial rfl
      (.cons trivial rfl (.cons ?_ rfl (.cons ?_ rfl (.cons trivial rfl (meets_nil _)))))))))
    . intro d pick _ _
      refine ⟨.inl (by decide), ?_⟩
      intro other d' hne hother
      simp only [setTask_of_ne hne] at hother
      change Function.update _ _ _ other = _ at hother
      rw [Function.update_of_ne hne] at hother
      contradiction
    . intro threadId hevicted
      contradiction
  have hlinked := congrArg (List.map (·.2.1)) hlinks
  rw [List.map_map] at hlinked
  exact ⟨s, hexec, hmeets, hlinked, (linkedOnce_of_exec hexec).1 hmeets⟩

/--
A child that was there before, and whose title names nothing, is linked as the only one there is. Two tasks
that look at a child before either claims it both link it.
-/
theorem not_linkedOnce
    : linksOf ([.report (taskKey "a")] ++ choice "a" ++ takeUp "a")
        = some [(taskKey "a", "v1.b3BlbmNvZGU.Y2hpbGQ", ["v1.b3BlbmNvZGU.Y2hpbGQ"])]
      ∧ childMatchesToolTitle onlyChild.title "task" = false
      ∧ linksOf ([.report (taskKey "a"), .report (taskKey "b")] ++ choice "a" ++ choice "b" ++ takeUp "a"
            ++ takeUp "b")
        = some
          [(taskKey "a", "v1.b3BlbmNvZGU.Y2hpbGQ", ["v1.b3BlbmNvZGU.Y2hpbGQ"]),
            (taskKey "b", "v1.b3BlbmNvZGU.Y2hpbGQ", ["v1.b3BlbmNvZGU.Y2hpbGQ"])] := by
  refine ⟨?_, ?_, ?_⟩ <;> decide +kernel

end Discoveries

end Session
