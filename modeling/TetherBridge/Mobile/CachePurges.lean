import TetherBridge.Mobile.ChatCaches

/-!
This module contains what the files of the chat caches hold once all operations have settled: what the
calls after the last purge make of no file, one after the other. That a summary stays in the file is not
part of it, a cache that is saved as a whole replaces the file.
-/

namespace Mobile

open PurgeQueue Transition

variable (intl : Intl) (profileId : String)

/-! What a call amounts to -/

def SnapshotCall.apply : SnapshotCall → ChatSnapshotCache
  | .save cache => boundChatSnapshotCache intl cache

/--
What the file holds after a call, which was read at a time.
-/
def SummaryCall.apply (file : Option Json) (readAt : Nat) : SummaryCall → ChatSummaryCache
  | .save cache => boundChatSummaryCache intl cache
  | .persist summaries now =>
    mergeChatSummaryCache intl (readCache intl profileId file readAt) summaries now
  | .reconcile summaries now =>
    reconcileChatSummaryCache intl (readCache intl profileId file readAt) summaries now
  | .deleteSummary chatId now =>
    removeChatSummaryFromCache intl (readCache intl profileId file readAt) chatId now

def SnapshotCall.Writes (call : SnapshotCall) (_ after : Option Json) : Prop :=
  after = some (call.apply intl).toJson

def SummaryCall.Writes (call : SummaryCall) (file after : Option Json) : Prop :=
  ∃ readAt, after = some (call.apply intl profileId file readAt).toJson

variable {intl profileId} {file after : Option Json}

theorem SnapshotCall.writes_of_applies {call : SnapshotCall}
    (h : Applies (SnapshotCall.program intl) call file after)
    : call.Writes intl file after := by
  rcases h with ⟨generation, hruns⟩
  cases call with
  | save cache =>
    cases hruns with
    | stale hne => exact absurd rfl hne
    | current hruns =>
      cases hruns with
      | makeDirectory hruns =>
        cases hruns with
        | stale hne => exact absurd rfl hne
        | current hruns =>
          cases hruns with
          | write hruns =>
            cases hruns
            rfl

theorem eq_of_runs_writeCache {generation : Nat} {cache : ChatSummaryCache}
    (h : Runs generation (writeCache cache) file after)
    : after = some cache.toJson := by
  cases h with
  | makeDirectory h =>
    cases h with
    | write h =>
      cases h
      rfl

theorem eq_of_runs_updateCache {generation : Nat} (update : ChatSummaryCache → ChatSummaryCache)
    (h : Runs generation (updateCache intl profileId update generation) file after)
    : ∃ readAt, after = some (update (readCache intl profileId file readAt)).toJson := by
  cases h with
  | stale hne => exact absurd rfl hne
  | current h =>
    cases h with
    | read now h => exact ⟨now, eq_of_runs_writeCache h⟩

theorem SummaryCall.writes_of_applies {call : SummaryCall}
    (h : Applies (SummaryCall.program intl profileId) call file after)
    : call.Writes intl profileId file after := by
  rcases h with ⟨generation, hruns⟩
  cases call with
  | save cache => exact ⟨0, eq_of_runs_writeCache hruns⟩
  | persist summaries now =>
    exact eq_of_runs_updateCache (fun current => mergeChatSummaryCache intl current summaries now) hruns
  | reconcile summaries now =>
    exact eq_of_runs_updateCache (fun current => reconcileChatSummaryCache intl current summaries now) hruns
  | deleteSummary chatId now =>
    exact eq_of_runs_updateCache (fun current => removeChatSummaryFromCache intl current chatId now) hruns

theorem SnapshotCall.gated_program (call : SnapshotCall) (generation : Nat)
    : ∃ rest, call.program intl generation = .check generation rest := by
  cases call with
  | save cache => exact ⟨_, rfl⟩

theorem SummaryCall.gated_program (call : SummaryCall) (generation : Nat) (h : call.gated)
    : ∃ rest, call.program intl profileId generation = .check generation rest := by
  cases call with
  | save cache => contradiction
  | persist summaries now => exact ⟨_, rfl⟩
  | reconcile summaries now => exact ⟨_, rfl⟩
  | deleteSummary chatId now => exact ⟨_, rfl⟩

/-! Runs -/

namespace ProfileCaches

variable {s s' : ProfileCaches}

structure Sound (intl : Intl) (profileId : String) (s : ProfileCaches) : Prop where
  snapshots : s.snapshots.Sound (SnapshotCall.program intl) fun _ => true
  summaries : s.summaries.Sound (SummaryCall.program intl profileId) SummaryCall.gated

theorem Sound.snapshotStep (h : s.Sound intl profileId) {label : Label SnapshotCall}
    (hstep : s.snapshotStep intl profileId label = some s')
    : s'.Sound intl profileId := by
  have hnext : (s.snapshots.step (SnapshotCall.program intl) (fun _ => true) label).map
      (fun snapshots => { s with snapshots }) = some s' := by
    unfold ProfileCaches.snapshotStep at hstep
    dsimp only at hstep
    split at hstep
    . split at hstep
      . exact hstep
      . contradiction
    . exact hstep
  rw [Option.map_eq_some_iff] at hnext
  rcases hnext with ⟨snapshots, hsnapshots, rfl⟩
  refine ⟨?_, h.summaries⟩
  exact State.sound_step (fun call generation _ => call.gated_program generation) h.snapshots label
    hsnapshots

theorem Sound.summaryStep (h : s.Sound intl profileId) {label : Label SummaryCall}
    (hstep : s.summaryStep intl profileId label = some s')
    : s'.Sound intl profileId := by
  have hnext : (s.summaries.step (SummaryCall.program intl profileId) SummaryCall.gated label).map
      (fun summaries => { s with summaries }) = some s' ∨ s' = s := by
    unfold ProfileCaches.summaryStep at hstep
    dsimp only at hstep
    split at hstep
    . split at hstep
      . exact .inl hstep
      . contradiction
    . split at hstep
      . injection hstep with hstep
        exact .inr hstep.symm
      . exact .inl hstep
    . exact .inl hstep
  rcases hnext with hnext | rfl
  . rw [Option.map_eq_some_iff] at hnext
    rcases hnext with ⟨summaries, hsummaries, rfl⟩
    refine ⟨h.snapshots, ?_⟩
    exact State.sound_step SummaryCall.gated_program h.summaries label hsummaries
  . exact h

/--
All operations of a cache have settled.
-/
def Idle {φ ω : Type} (cache : State φ ω) : Prop :=
  cache.running = none ∧ cache.waiting = []

/--
Once its operations have settled, the file of a cache is what the calls that were captured after the last
purge make of no file, one after the other. The others have left nothing in it.
-/
structure Settled (intl : Intl) (profileId : String) (s : ProfileCaches) : Prop where
  snapshots : Idle s.snapshots →
    InTurn (SnapshotCall.Writes intl) none (fresh s.snapshots.log) s.snapshots.file
  summaries : Idle s.summaries →
    InTurn (SummaryCall.Writes intl profileId) none (fresh s.summaries.log) s.summaries.file

theorem purged_of_exec {labels : List CacheLabel} (hexec : exec (step intl profileId) {} labels = some s)
    : s.Settled intl profileId := by
  have hsound : s.Sound intl profileId := by
    apply exec_invariant' (I := Sound intl profileId) _ ⟨State.sound_init, State.sound_init⟩ hexec
    intro t label t' hinvariant hstep
    cases label with
    | snapshots label => exact hinvariant.snapshotStep hstep
    | summaries label => exact hinvariant.summaryStep hstep
  constructor
  . intro hidle
    exact (hsound.snapshots.settles hidle.1 hidle.2).mono fun _ _ _ => SnapshotCall.writes_of_applies
  . intro hidle
    exact (hsound.summaries.settles hidle.1 hidle.2).mono fun _ _ _ => SummaryCall.writes_of_applies

/-! Summaries that do not stay -/

def storedIds (file : Option Json) : List String :=
  match (file.bind fun file => file.get "entries").bind Json.asArray with
  | some entries =>
    entries.filterMap fun entry => ((entry.get "summary").bind fun summary => summary.get "id").bind Json.asStr
  | none => []

/--
What a list that was persisted has brought stays in the file, unless its chat is deleted from it later.
-/
def Kept (intl : Intl) (s : ProfileCaches) : Prop :=
  Idle s.summaries → ∀ before summaries now after,
    fresh s.summaries.log = before ++ .persist summaries now :: after →
    ∀ value ∈ summaries, ∀ summary ∈ normalizeSummary intl value,
    (∀ chatId now, SummaryCall.deleteSummary chatId now ∈ after → Js.trim chatId ≠ summary.id) →
    summary.id ∈ storedIds s.summaries.file

/--
Dates of one day only.
-/
def oneDay : Intl :=
  { parseDate := fun text => if text = "2026-01-01T00:00:00.000Z" then some 1767225600000 else none
    toISOString := fun _ => "2026-01-01T00:00:00.000Z"
    localeCompare := fun a b => if a = b then 0 else if a < b then -1 else 1 }

def someChat : ChatSummary :=
  { id := "t1", title := "", status := "idle", createdAt := "2026-01-01T00:00:00.000Z",
    updatedAt := "2026-01-01T00:00:00.000Z", statusUpdatedAt := "2026-01-01T00:00:00.000Z",
    lastMessagePreview := "", optional := [] }

def persistSomeChat : SummaryCall :=
  .persist [someChat.toJson] "2026-01-01T00:00:00.000Z"

/--
The summaries of a chat are persisted, deleted while they are being written, and persisted again by a call
that was captured before.
-/
def persistedAcrossPurge : List CacheLabel :=
  ([.capture, .call persistSomeChat none, .start, .proceed 1767225600000, .purge, .proceed 1767225600000,
    .proceed 1767225600000, .proceed 1767225600000, .proceed 1767225600000,
    .call persistSomeChat (some 0), .start, .proceed 1767225600000, .proceed 1767225600000, .start,
    .proceed 1767225600000, .proceed 1767225600000] : List (Label SummaryCall)).map .summaries

theorem settled_of_persistedAcrossPurge
    : ∃ s, exec (step oneDay "p") {} persistedAcrossPurge = some s ∧ s.Settled oneDay "p" := by
  have hexec : (exec (step oneDay "p") {} persistedAcrossPurge).isSome := by decide +kernel
  rcases Option.isSome_iff_exists.mp hexec with ⟨s, hs⟩
  exact ⟨s, hs, purged_of_exec hs⟩

/--
A chat is persisted, and then a cache without it is saved.
-/
def savedAfterPersist : List CacheLabel :=
  ([.call persistSomeChat none, .call (.save (createEmptyChatSummaryCache "p" "2026-01-01T00:00:00.000Z")) none,
    .start, .proceed 1767225600000, .proceed 1767225600000, .proceed 1767225600000,
    .proceed 1767225600000, .proceed 1767225600000, .start, .proceed 1767225600000,
    .proceed 1767225600000, .proceed 1767225600000] : List (Label SummaryCall)).map .summaries

theorem not_kept_of_savedAfterPersist
    : ∃ s, exec (step oneDay "p") {} savedAfterPersist = some s ∧ ¬s.Kept oneDay := by
  have hidle : (exec (step oneDay "p") {} savedAfterPersist).map
      (fun s => (s.summaries.running.isNone, s.summaries.waiting.isEmpty, storedIds s.summaries.file))
        = some (true, true, []) := by
    decide +kernel
  have hfresh : (exec (step oneDay "p") {} savedAfterPersist).map (fun s => fresh s.summaries.log)
      = some [persistSomeChat, .save (createEmptyChatSummaryCache "p" "2026-01-01T00:00:00.000Z")] := rfl
  have hnormalize : (normalizeSummary oneDay someChat.toJson).map (·.id) = some "t1" := by
    decide +kernel
  rw [Option.map_eq_some_iff] at hidle
  rcases hidle with ⟨s, hs, hidle⟩
  rw [hs, Option.map_some, Option.some_inj] at hfresh
  rw [Option.map_eq_some_iff] at hnormalize
  rcases hnormalize with ⟨summary, hsummary, -⟩
  injection hidle with hrunning hidle
  injection hidle with hwaiting hstored
  refine ⟨s, hs, ?_⟩
  intro hkept
  have hmem := hkept ⟨Option.isNone_iff_eq_none.mp hrunning, List.isEmpty_iff.mp hwaiting⟩ [] _ _ _
    hfresh someChat.toJson List.mem_cons_self summary hsummary (by
      intro chatId now hdelete
      rw [List.mem_singleton] at hdelete
      contradiction)
  rw [hstored] at hmem
  contradiction

end ProfileCaches

end Mobile
