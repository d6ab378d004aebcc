import TetherBridge.Data.Window
import TetherBridge.Mobile.Submission
import TetherBridge.Transition.Basic

/-!
This module contains what the ids of submissions are good for: an id stands for one request, is carried by
one outstanding submission at most, is not used again once it has succeeded, and is used again for the
retry of a submission that failed, as long as the calls for one id do not overlap and restarts find what
was remembered.
-/

namespace Mobile

open Transition List

namespace SubmissionApp

variable (s : SubmissionApp)

/--
The ids that were given, with the requests they were given to.
-/
def identities : List (String × SubmissionRequest) :=
  s.submissions.map fun submission => (submission.id, submission.request)

/--
An id and a key of the store stand for one request. The ids are as they are read from the file.
-/
structure Identified (identities : List (String × SubmissionRequest)) : Prop where
  requests : ∀ identity ∈ identities, ∀ other ∈ identities, identity.1 = other.1 → identity.2 = other.2
  storeKeys : ∀ identity ∈ identities, ∀ other ∈ identities,
    identity.2.storeKey = other.2.storeKey → identity.2 = other.2
  trimmed : ∀ identity ∈ identities, Js.trim identity.1 = identity.1 ∧ identity.1 ≠ ""

/--
The entries that `load` has to find, or has found, and that are not too old.
-/
def live : SubmissionEntries :=
  (if s.loaded then s.entries else s.file).filter (isFresh s.now)

/--
The failure is among the last ones, and if the app was restarted since it is not too old.
-/
def isDue (retry : Retry) : Prop :=
  s.failures - retry.ordinal < min FAILED_SUBMISSION_LIMIT SUBMISSION_IDEMPOTENCY_LIMIT
    ∧ (retry.restarted → s.now - retry.failedAt ≤ SUBMISSION_IDEMPOTENCY_TTL_MS)

/--
No other outstanding submission carries the id.
-/
def Sole (index : Nat) (id : String) : Prop :=
  ∀ other ∈ s.submissions.eraseIdx index, other.status = .outstanding → other.id ≠ id

/--
What the ids are good for.
-/
structure Settled : Prop where
  outstanding : ∀ (index : Nat) submission, s.submissions[index]? = some submission →
    submission.status = .outstanding → s.Sole index submission.id
  requests : ∀ identity ∈ s.identities, ∀ other ∈ s.identities, identity.1 = other.1 →
    identity.2 = other.2
  succeeded : ∀ submission ∈ s.submissions, submission.id ∈ s.succeeded →
    submission.status ≠ .outstanding
  retried : s.loaded → ∀ retry ∈ s.retries, s.isDue retry → s.retryId retry.request = some retry.id

/--
The calls are made once the file is loaded. A new id is new, no other request has the same hash, and the id
of an outstanding submission is not taken from the store once more. What settles is the only outstanding
submission with its id; its id has not succeeded before when it fails, it does not fail again in the
millisecond of another failure, and when it succeeds no other submission waits for the same retry. The
file is read, and a restart finds in it what is remembered.
-/
def Allowed (s : SubmissionApp) : SubmissionLabel → Prop
  | .begins request createdId nonce =>
    s.loaded
      ∧ (s.retryId request = none → ∀ identity ∈ s.identities,
        identity.1 ≠ s.createSubmissionId createdId nonce)
      ∧ (∀ identity ∈ s.identities, identity.2.storeKey = request.storeKey → identity.2 = request)
      ∧ (s.failedId request = none → ∀ submission ∈ s.submissions, submission.status = .outstanding →
        s.persistedId request ≠ some submission.id)
  | .fails index _ =>
    s.loaded ∧ ∀ submission ∈ s.submissions[index]?,
      submission.id ∉ s.succeeded ∧ s.Sole index submission.id
        ∧ ((∃ entry ∈ s.entries, entry.1 = submission.request.storeKey) →
          ∀ entry ∈ s.entries, entry.1 ≠ submission.request.storeKey → entry.2.updatedAt < s.now)
  | .succeeds index =>
    s.loaded ∧ ∀ submission ∈ s.submissions[index]?,
      s.Sole index submission.id ∧ ∀ id ∈ s.retryId submission.request, id = submission.id
  | .read ok => ok
  | .restart => s.loaded → s.file.filter (isFresh s.now) = s.entries.filter (isFresh s.now)
  | _ => True

/--
What is remembered of a failure whose request was not begun again.
-/
structure Remembered (retry : Retry) : Prop where
  ordinal_le : retry.ordinal ≤ s.failures
  identity : (retry.id, retry.request) ∈ s.identities
  restarted : retry.restarted → s.failed.lookup retry.request = none
  failed : retry.restarted = false → s.failures - retry.ordinal < FAILED_SUBMISSION_LIMIT →
    ∃ index submission, s.failed.Recent retry.request index (s.failures - retry.ordinal)
      ∧ s.submissions[index]? = some submission ∧ submission.id = retry.id
  stored : s.failures - retry.ordinal < SUBMISSION_IDEMPOTENCY_LIMIT →
    s.now - retry.failedAt ≤ SUBMISSION_IDEMPOTENCY_TTL_MS →
    s.live.Recent retry.request.storeKey { submissionId := retry.id, updatedAt := retry.failedAt }
      (s.failures - retry.ordinal)

/--
A submission can be retried: its id has not succeeded, and no outstanding submission carries it.
-/
def Idle (id : String) : Prop :=
  id ∉ s.succeeded ∧ ∀ other ∈ s.submissions, other.status = .outstanding → other.id ≠ id

structure Sound : Prop where
  outstanding : ∀ (index : Nat) submission, s.submissions[index]? = some submission →
    submission.status = .outstanding → s.Sole index submission.id
  identified : Identified s.identities
  known : ∀ id ∈ s.succeeded, ∃ identity ∈ s.identities, identity.1 = id
  succeeded : ∀ submission ∈ s.submissions, submission.id ∈ s.succeeded →
    submission.status ≠ .outstanding
  failed : ∀ entry ∈ s.failed, ∃ submission, s.submissions[entry.2]? = some submission
    ∧ submission.request = entry.1 ∧ s.Idle submission.id
  keys : (s.entries.map (·.1)).Nodup
  liveKeys : (s.live.map (·.1)).Nodup
  live : ∀ entry ∈ s.live, entry.2.submissionId ∉ s.succeeded ∧ entry.2.updatedAt ≤ s.now
    ∧ ∃ identity ∈ s.identities, identity.1 = entry.2.submissionId ∧ identity.2.storeKey = entry.1
  sorted : s.live.Pairwise fun a b => a.2.updatedAt ≤ b.2.updatedAt
  /-- what `load` has read is what `live` counts -/
  unloaded : s.loaded = false → s.writes = [] ∧ s.failed = [] ∧ ∀ raw ∈ s.read, raw = s.file
  reading : s.loaded → s.read = none
  retries : ∀ retry ∈ s.retries, s.Remembered retry

variable {s} {s' : SubmissionApp}

theorem sound_init : ({} : SubmissionApp).Sound where
  outstanding _ _ h := by
    rw [List.getElem?_nil] at h
    contradiction
  identified :=
    { requests _ h := absurd h List.not_mem_nil
      storeKeys _ h := absurd h List.not_mem_nil
      trimmed _ h := absurd h List.not_mem_nil }
  known _ h := absurd h List.not_mem_nil
  succeeded _ h := absurd h List.not_mem_nil
  failed _ h := absurd h List.not_mem_nil
  keys := .nil
  liveKeys := .nil
  live _ h := absurd h List.not_mem_nil
  sorted := .nil
  unloaded _ := ⟨rfl, rfl, fun _ h => by contradiction⟩
  reading _ := rfl
  retries _ h := absurd h List.not_mem_nil

/-! Reading off -/

theorem Sound.failedId_eq (h : s.Sound) {retry : Retry} (hmem : retry ∈ s.retries)
    (hlimit : s.failures - retry.ordinal < FAILED_SUBMISSION_LIMIT)
    : s.failedId retry.request = if retry.restarted then none else some retry.id := by
  have hretry := h.retries retry hmem
  unfold failedId
  split
  . next hrestarted =>
    rw [hretry.restarted hrestarted, Option.bind_none]
  . next hrestarted =>
    rcases hretry.failed (Bool.eq_false_iff.mpr hrestarted) hlimit
      with ⟨index, submission, hrecent, hsubmission, hid⟩
    rw [hrecent.lookup, Option.bind_some, hsubmission, Option.map_some, hid]

theorem Sound.persistedId_eq (h : s.Sound) (hloaded : s.loaded) {retry : Retry}
    (hmem : retry ∈ s.retries) (hlimit : s.failures - retry.ordinal < SUBMISSION_IDEMPOTENCY_LIMIT)
    (htime : s.now - retry.failedAt ≤ SUBMISSION_IDEMPOTENCY_TTL_MS)
    : s.persistedId retry.request = some retry.id := by
  have hretry := h.retries retry hmem
  have hstored := (hretry.stored hlimit htime).lookup
  have hne := (h.identified.trimmed _ hretry.identity).2
  unfold SubmissionApp.live at hstored
  rw [if_pos hloaded] at hstored
  unfold persistedId lookup
  rw [lookup_of_filter h.keys hstored]
  dsimp only
  rw [if_pos htime, Option.filter_some, if_pos (decide_eq_true hne)]

theorem Sound.retryId_eq (h : s.Sound) (hloaded : s.loaded) {retry : Retry} (hmem : retry ∈ s.retries)
    (hdue : s.isDue retry)
    : s.retryId retry.request = some retry.id := by
  have hlimit := hdue.1
  unfold retryId
  rw [h.failedId_eq hmem (by omega)]
  cases hrestarted : retry.restarted with
  | false => rw [if_neg Bool.false_ne_true]
  | true =>
    rw [if_pos rfl]
    exact h.persistedId_eq hloaded hmem (by omega) (hdue.2 hrestarted)

theorem Sound.settled (h : s.Sound) : s.Settled where
  outstanding := h.outstanding
  requests := h.identified.requests
  succeeded := h.succeeded
  retried hloaded _ hmem hdue := h.retryId_eq hloaded hmem hdue

/-! What `live` becomes -/

theorem isFresh_of_le {now duration : Nat} {entry : List Char × SubmissionIdempotencyRecord}
    (h : isFresh (now + duration) entry)
    : isFresh now entry := by
  unfold isFresh at h ⊢
  rw [decide_eq_true_eq] at h ⊢
  omega

theorem isFresh_of_mem_live {entry : List Char × SubmissionIdempotencyRecord} (h : entry ∈ s.live)
    : isFresh s.now entry :=
  (mem_filter.mp h).2

theorem live_eq_of_loaded (h : s.loaded) : s.live = s.entries.filter (isFresh s.now) := by
  unfold SubmissionApp.live
  rw [if_pos h]

theorem live_wait (s : SubmissionApp) (duration : Nat)
    : { s with now := s.now + duration }.live = s.live.filter (isFresh (s.now + duration)) := by
  unfold SubmissionApp.live
  rw [filter_filter]
  apply filter_congr
  intro entry _
  change isFresh (s.now + duration) entry = _
  cases hfresh : isFresh (s.now + duration) entry with
  | false => rw [Bool.false_and]
  | true => rw [isFresh_of_le hfresh, Bool.and_true]

/--
The entries `lookup` deletes are too old.
-/
theorem Sound.filter_forgetExpired (h : s.Sound) (request : SubmissionRequest)
    : (s.forgetExpired request).filter (isFresh s.now) = s.entries.filter (isFresh s.now) := by
  unfold forgetExpired
  split
  . next record hlookup =>
    split
    . rfl
    . next hexpired =>
      unfold List.forget
      rw [filter_filter]
      apply filter_congr
      intro entry hentry
      by_cases hkey : entry.1 = request.storeKey
      . have heq := inj_on_of_nodup_map h.keys hentry (mem_of_lookup hlookup) hkey
        have hold : isFresh s.now entry = false := by
          unfold isFresh
          rw [heq]
          exact decide_eq_false hexpired
        rw [hold, Bool.false_and]
      . rw [decide_eq_true hkey, Bool.and_true]
  . rfl

/--
Recording a failure brings its key to the end.
-/
theorem Sound.prune_assign (h : s.Sound) (hloaded : s.loaded) {key : List Char} {id : String}
    (hlt : (∃ entry ∈ s.entries, entry.1 = key) →
      ∀ entry ∈ s.entries, entry.1 ≠ key → entry.2.updatedAt < s.now)
    : pruneSubmissionIdempotencyEntries (s.entries.assign key { submissionId := id, updatedAt := s.now })
        s.now
        =
      (s.live.touch key { submissionId := id, updatedAt := s.now }).keepLast
        SUBMISSION_IDEMPOTENCY_LIMIT := by
  rcases assign_spec h.keys key { submissionId := id, updatedAt := s.now }
    with ⟨before, after, hforget, hassign, hafter⟩
  have hnow : isFresh s.now (key, { submissionId := id, updatedAt := s.now }) := by
    unfold isFresh
    dsimp only
    rw [Nat.sub_self]
    exact decide_eq_true (Nat.zero_le _)
  have hlive : s.live.forget key = before.filter (isFresh s.now) ++ after.filter (isFresh s.now) := by
    rw [← filter_append, ← hforget, live_eq_of_loaded hloaded]
    unfold List.forget
    rw [filter_comm]
  have hsorted := h.sorted.sublist (filter_sublist (p := fun entry => entry.1 ≠ key))
  change (s.live.forget key).Pairwise _ at hsorted
  rw [hlive] at hsorted
  have hmem : ∀ entry ∈ before.filter (isFresh s.now) ++ after.filter (isFresh s.now),
      entry ∈ s.live := by
    intro entry hentry
    rw [← hlive] at hentry
    exact (mem_forget.mp hentry).1
  unfold pruneSubmissionIdempotencyEntries
  rw [hassign, filter_append, filter_cons_of_pos hnow]
  have hmiddle := insertionSort_middle (f := fun entry => entry.2.updatedAt)
    (x := (key, ({ submissionId := id, updatedAt := s.now } : SubmissionIdempotencyRecord))) hsorted
  rw [hmiddle]
  . unfold List.touch
    rw [hlive]
  . intro entry hentry
    exact (h.live entry (hmem entry (mem_append_left _ hentry))).2.1
  . intro entry hentry
    have hin : entry ∈ before ++ after := mem_append_right _ (mem_of_mem_filter hentry)
    rw [← hforget] at hin
    have hin := mem_forget.mp hin
    exact hlt (hafter (ne_nil_of_mem (mem_of_mem_filter hentry))) entry hin.1 hin.2

theorem filter_keepLast_eq_self {now : Nat} {entries : SubmissionEntries}
    (h : ∀ entry ∈ entries, isFresh now entry) (limit : Nat)
    : (entries.keepLast limit).filter (isFresh now) = entries.keepLast limit := by
  rw [filter_eq_self]
  intro entry hentry
  exact h entry (mem_of_mem_drop hentry)

/--
`load` keeps what is not too old, of which the last ones.
-/
theorem Sound.parse_file (h : s.Sound) (hloaded : s.loaded = false)
    : parseSubmissionIdempotencyEntries s.file s.now = s.live.keepLast SUBMISSION_IDEMPOTENCY_LIMIT := by
  have hlive : s.live = s.file.filter (isFresh s.now) := by
    unfold SubmissionApp.live
    rw [hloaded, if_neg Bool.false_ne_true]
  have hparse : ∀ entry ∈ s.live, parseSubmissionIdempotencyEntry entry = some entry := by
    intro entry hentry
    rcases (h.live entry hentry).2.2 with ⟨identity, hidentity, hid, hkey⟩
    have htrimmed := h.identified.trimmed identity hidentity
    rw [hid] at htrimmed
    have hmem : Char.ofNat 0 ∈ entry.1 := by
      rw [← hkey]
      unfold SubmissionRequest.storeKey buildKey
      exact mem_append_left _ (mem_append_right _ mem_cons_self)
    unfold parseSubmissionIdempotencyEntry
    dsimp only
    rw [htrimmed.1, if_pos ⟨Js.trimChars_ne_nil hmem (by decide), htrimmed.2⟩]
  have hfresh : ∀ entry, ∀ parsed ∈ parseSubmissionIdempotencyEntry entry,
      isFresh s.now parsed = isFresh s.now entry := by
    intro entry parsed hparsed
    unfold parseSubmissionIdempotencyEntry at hparsed
    dsimp only at hparsed
    split at hparsed
    . rw [Option.mem_some_iff] at hparsed
      rw [← hparsed]
      rfl
    . contradiction
  have hfilter : (s.file.filterMap parseSubmissionIdempotencyEntry).filter (isFresh s.now) = s.live := by
    rw [filter_filterMap, hlive, ← filterMap_eq_filter]
    apply filterMap_congr
    intro entry hentry
    rw [Option.guard_eq_ite]
    split
    . next hold =>
      rw [hparse entry (hlive ▸ mem_filter.mpr ⟨hentry, hold⟩), Option.filter_some, if_pos hold]
    . next hold =>
      rw [Option.filter_eq_none_iff]
      intro parsed hparsed
      rw [hfresh entry parsed hparsed]
      exact hold
  unfold parseSubmissionIdempotencyEntries pruneSubmissionIdempotencyEntries
  rw [hfilter, Pairwise.insertionSort_eq h.sorted]

/-! Steps that keep the submissions -/

theorem Sound.wait (h : s.Sound) (duration : Nat) : { s with now := s.now + duration }.Sound := by
  have hsublist : { s with now := s.now + duration }.live <+ s.live := by
    rw [live_wait]
    exact filter_sublist
  refine { h with liveKeys := ?_, live := ?_, sorted := ?_, retries := ?_ }
  . exact h.liveKeys.sublist (hsublist.map _)
  . intro entry hentry
    have hold := h.live entry (hsublist.mem hentry)
    exact ⟨hold.1, Nat.le_trans hold.2.1 (Nat.le_add_right _ _), hold.2.2⟩
  . exact h.sorted.sublist hsublist
  . intro retry hretry
    have hold := h.retries retry hretry
    refine { hold with stored := ?_ }
    intro hlimit htime
    dsimp only at htime
    rw [live_wait]
    apply (hold.stored hlimit (by omega)).filter
    exact decide_eq_true htime

/--
Steps that change neither the submissions nor what is remembered of them.
-/
theorem Sound.of_live (h : s.Sound) {entries writes : _} {loaded : Bool} {read : Option SubmissionEntries}
    {file : SubmissionEntries}
    (hsublist : { s with entries, loaded, read, writes, file }.live <+ s.live)
    (hrecent : ∀ key value later, later < SUBMISSION_IDEMPOTENCY_LIMIT → s.live.Recent key value later →
      { s with entries, loaded, read, writes, file }.live.Recent key value later)
    (hkeys : (entries.map (·.1)).Nodup)
    (hunloaded : loaded = false → writes = [] ∧ s.failed = [] ∧ ∀ raw ∈ read, raw = file)
    (hreading : loaded → read = none)
    : { s with entries, loaded, read, writes, file }.Sound := by
  refine { h with
    keys := hkeys
    liveKeys := h.liveKeys.sublist (hsublist.map _)
    live := fun entry hentry => h.live entry (hsublist.mem hentry)
    sorted := h.sorted.sublist hsublist
    unloaded := hunloaded
    reading := hreading
    retries := ?_ }
  intro retry hretry
  have hold := h.retries retry hretry
  refine { hold with stored := ?_ }
  intro hlimit htime
  exact hrecent _ _ _ hlimit (hold.stored hlimit htime)

theorem Sound.write (h : s.Sound) {ok : Bool} (hstep : s.write ok = some s') : s'.Sound := by
  unfold SubmissionApp.write at hstep
  split at hstep
  . next entries writes hwrites =>
    injection hstep with hstep
    subst hstep
    have hloaded : s.loaded = true := by
      by_contra hunloaded
      rw [(h.unloaded (Bool.eq_false_iff.mpr hunloaded)).1] at hwrites
      contradiction
    have hlive : { s with writes, file := if ok then entries else s.file }.live = s.live := by
      rw [live_eq_of_loaded (s := s) hloaded]
      exact live_eq_of_loaded hloaded
    apply h.of_live
    . rw [hlive]
    . intro _ _ _ _ hrecent
      rw [hlive]
      exact hrecent
    . exact h.keys
    . intro hunloaded
      rw [hloaded] at hunloaded
      contradiction
    . exact h.reading
  . contradiction

theorem Sound.readFile (h : s.Sound) (hstep : s.readFile true = some s') : s'.Sound := by
  unfold SubmissionApp.readFile at hstep
  split at hstep
  . contradiction
  . next hread =>
    rw [Bool.not_eq_true, Bool.or_eq_false_iff] at hread
    injection hstep with hstep
    subst hstep
    apply h.of_live
    . exact Sublist.refl s.live
    . intro _ _ _ _ hrecent
      exact hrecent
    . exact h.keys
    . intro hloaded
      have hunloaded := h.unloaded hloaded
      refine ⟨hunloaded.1, hunloaded.2.1, ?_⟩
      intro raw hraw
      exact (Option.mem_some_iff.mp hraw).symm
    . intro hloaded
      rw [hread.1] at hloaded
      contradiction

theorem Sound.finishLoad (h : s.Sound) (hstep : s.finishLoad = some s') : s'.Sound := by
  unfold SubmissionApp.finishLoad at hstep
  rw [Option.map_eq_some_iff] at hstep
  rcases hstep with ⟨raw, hraw, rfl⟩
  have hloaded : s.loaded = false := by
    by_contra hloaded
    rw [h.reading (Bool.not_eq_false _ ▸ hloaded)] at hraw
    contradiction
  have hentries : parseSubmissionIdempotencyEntries raw s.now
      = s.live.keepLast SUBMISSION_IDEMPOTENCY_LIMIT := by
    rw [(h.unloaded hloaded).2.2 raw hraw, h.parse_file hloaded]
  have hlive : SubmissionApp.live
      { s with entries := parseSubmissionIdempotencyEntries raw s.now, loaded := true, read := none }
      = s.live.keepLast SUBMISSION_IDEMPOTENCY_LIMIT := by
    rw [live_eq_of_loaded rfl, hentries]
    apply filter_keepLast_eq_self
    intro entry hentry
    exact isFresh_of_mem_live (s := s) hentry
  apply h.of_live
  . rw [hlive]
    exact drop_sublist _ _
  . intro _ _ _ hlimit hrecent
    rw [hlive]
    exact hrecent.keepLast hlimit
  . rw [hentries]
    exact h.liveKeys.sublist ((drop_sublist _ _).map _)
  . intro hfalse
    contradiction
  . intro _
    rfl

/-! Submissions that change their status -/

theorem sole_iff {index : Nat} {id : String}
    : s.Sole index id
        ↔
      ∀ (i : Nat) other, s.submissions[i]? = some other → i ≠ index → other.status = .outstanding →
        other.id ≠ id := by
  unfold Sole
  constructor
  . intro h i other hother hne
    exact h other (mem_eraseIdx_iff_getElem?.mpr ⟨i, hne, hother⟩)
  . intro h other hother
    rcases mem_eraseIdx_iff_getElem?.mp hother with ⟨i, hne, hother⟩
    exact h i other hother hne

theorem mem_identities {submission : ComposerSubmission} (h : submission ∈ s.submissions)
    : (submission.id, submission.request) ∈ s.identities :=
  mem_map_of_mem (f := fun submission => (submission.id, submission.request)) h

theorem mem_or_eq_of_mem_setSubmission {index : Nat} {submission other : ComposerSubmission}
    (h : other ∈ (s.setSubmission index submission).submissions)
    : other ∈ s.submissions.eraseIdx index ∨ other = submission := by
  rcases getElem?_of_mem h with ⟨i, hi⟩
  unfold setSubmission at hi
  dsimp only at hi
  rw [getElem?_set] at hi
  split at hi
  . split at hi
    . injection hi with hi
      exact .inr hi.symm
    . contradiction
  . next hne => exact .inl (mem_eraseIdx_iff_getElem?.mpr ⟨i, Ne.symm hne, hi⟩)

theorem identities_setSubmission {index : Nat} {old submission : ComposerSubmission}
    (hold : s.submissions[index]? = some old) (hid : submission.id = old.id)
    (hrequest : submission.request = old.request)
    : (s.setSubmission index submission).identities = s.identities := by
  unfold identities setSubmission
  apply map_set_of_eq hold
  rw [hid, hrequest]

theorem getElem?_setSubmission {index : Nat} {old submission : ComposerSubmission}
    (hold : s.submissions[index]? = some old) (hid : submission.id = old.id)
    (hrequest : submission.request = old.request) {i : Nat} {other : ComposerSubmission}
    (hother : s.submissions[i]? = some other)
    : ∃ other', (s.setSubmission index submission).submissions[i]? = some other'
        ∧ other'.id = other.id ∧ other'.request = other.request := by
  unfold setSubmission
  dsimp only
  rw [getElem?_set]
  split
  . next hi =>
    subst hi
    rw [hold] at hother
    injection hother with hother
    rw [if_pos (List.getElem?_eq_some_iff.mp hold).1]
    exact ⟨submission, rfl, hother ▸ hid, hother ▸ hrequest⟩
  . exact ⟨other, hother, rfl, rfl⟩

theorem getElem?_setSubmission_self {index : Nat} {old : ComposerSubmission}
    (hold : s.submissions[index]? = some old) (submission : ComposerSubmission)
    : (s.setSubmission index submission).submissions[index]? = some submission := by
  unfold setSubmission
  dsimp only
  rw [getElem?_set_self (List.getElem?_eq_some_iff.mp hold).1]

/--
Only a submission that is the sole one with its id may be made outstanding.
-/
theorem outstanding_setSubmission (h : ∀ (index : Nat) submission,
      s.submissions[index]? = some submission → submission.status = .outstanding →
      s.Sole index submission.id)
    {index : Nat} {submission : ComposerSubmission}
    (hnew : submission.status = .outstanding → s.Sole index submission.id)
    : ∀ (i : Nat) other, (s.setSubmission index submission).submissions[i]? = some other →
        other.status = .outstanding → (s.setSubmission index submission).Sole i other.id := by
  intro i other hother hstatus
  rw [sole_iff]
  intro j another hanother hne hstatus'
  unfold setSubmission at hother hanother
  dsimp only at hother hanother
  rw [getElem?_set] at hother hanother
  split at hother
  . next hi =>
    subst hi
    rw [if_neg (Ne.symm hne)] at hanother
    split at hother
    . injection hother with hother
      subst hother
      exact sole_iff.mp (hnew hstatus) j another hanother hne hstatus'
    . contradiction
  . next hi =>
    split at hanother
    . next hj =>
      subst hj
      split at hanother
      . injection hanother with hanother
        subst hanother
        exact Ne.symm (sole_iff.mp (hnew hstatus') i other hother (Ne.symm hi) hstatus)
      . contradiction
    . exact sole_iff.mp (h i other hother hstatus) j another hanother hne hstatus'

theorem Idle.setSubmission {id : String} (h : s.Idle id) {index : Nat} {submission : ComposerSubmission}
    (hnew : submission.status = .outstanding → submission.id ≠ id)
    : (s.setSubmission index submission).Idle id := by
  refine ⟨h.1, ?_⟩
  intro other hother hstatus
  rcases mem_or_eq_of_mem_setSubmission hother with hother | rfl
  . exact h.2 other (mem_of_mem_eraseIdx hother) hstatus
  . exact hnew hstatus

/--
What is remembered of a failure does not depend on the status of a submission.
-/
theorem Remembered.setSubmission {retry : Retry} (h : s.Remembered retry) {index : Nat}
    {old submission : ComposerSubmission} (hold : s.submissions[index]? = some old)
    (hid : submission.id = old.id) (hrequest : submission.request = old.request)
    : (s.setSubmission index submission).Remembered retry := by
  refine { h with identity := ?_, failed := ?_ }
  . rw [identities_setSubmission hold hid hrequest]
    exact h.identity
  . intro hrestarted hlimit
    rcases h.failed hrestarted hlimit with ⟨place, failed, hrecent, hfailed, hretry⟩
    rcases getElem?_setSubmission hold hid hrequest hfailed with ⟨failed', hfailed', hsame, -⟩
    exact ⟨place, failed', hrecent, hfailed', hsame.trans hretry⟩

theorem Sound.setSubmission (h : s.Sound) {index : Nat} {old : ComposerSubmission}
    (hold : s.submissions[index]? = some old) (submission : ComposerSubmission) (hid : submission.id = old.id)
    (hrequest : submission.request = old.request)
    (hnew : submission.status = .outstanding → s.Sole index old.id ∧ old.id ∉ s.succeeded
      ∧ ∀ entry ∈ s.failed, ∀ failed, s.submissions[entry.2]? = some failed → failed.id ≠ old.id)
    : (s.setSubmission index submission).Sound := by
  have hidentities := identities_setSubmission hold hid hrequest
  refine { h with
    outstanding := ?_
    identified := ?_
    known := ?_
    succeeded := ?_
    failed := ?_
    live := ?_
    retries := ?_ }
  . apply outstanding_setSubmission h.outstanding
    intro hstatus
    rw [hid]
    exact (hnew hstatus).1
  . rw [hidentities]
    exact h.identified
  . rw [hidentities]
    exact h.known
  . intro other hother hsucceeded hstatus
    rcases mem_or_eq_of_mem_setSubmission hother with hother | rfl
    . exact h.succeeded other (mem_of_mem_eraseIdx hother) hsucceeded hstatus
    . exact (hnew hstatus).2.1 (hid ▸ hsucceeded)
  . intro entry hentry
    rcases h.failed entry hentry with ⟨failed, hfailed, hkey, hidle⟩
    rcases getElem?_setSubmission hold hid hrequest hfailed with ⟨failed', hfailed', hsame, hrequest'⟩
    refine ⟨failed', hfailed', hrequest'.trans hkey, ?_⟩
    rw [hsame]
    apply hidle.setSubmission
    intro hstatus heq
    exact (hnew hstatus).2.2 entry hentry failed hfailed (heq.symm.trans hid)
  . rw [hidentities]
    exact h.live
  . intro retry hretry
    exact (h.retries retry hretry).setSubmission hold hid hrequest

theorem Sound.markCleared (h : s.Sound) {index revision : Nat}
    (hstep : s.markCleared index revision = some s')
    : s'.Sound := by
  unfold SubmissionApp.markCleared at hstep
  rw [Option.map_eq_some_iff] at hstep
  rcases hstep with ⟨submission, hsubmission, rfl⟩
  have hmem := mem_of_getElem? hsubmission
  apply h.setSubmission hsubmission { submission with clearedRevision := some revision } rfl rfl
  intro hstatus
  refine ⟨h.outstanding index submission hsubmission hstatus, ?_, ?_⟩
  . intro hsucceeded
    exact h.succeeded submission hmem hsucceeded hstatus
  . intro entry hentry failed hfailed heq
    rcases h.failed entry hentry with ⟨same, hsame, -, hidle⟩
    rw [hfailed] at hsame
    injection hsame with hsame
    subst hsame
    exact hidle.2 submission hmem hstatus heq.symm

/-! What is forgotten of failures -/

theorem Sound.dropRetries (h : s.Sound) (p : Retry → Bool) : (s.dropRetries p).Sound := by
  refine { h with retries := ?_ }
  intro retry hretry
  have hold := h.retries retry (mem_of_mem_filter hretry)
  exact { hold with }

theorem request_ne_of_mem_dropRetries {request : SubmissionRequest} {retry : Retry}
    (h : retry ∈ (s.dropRetries fun retry => retry.request = request).retries)
    : retry.request ≠ request := by
  intro heq
  have hkept := (mem_filter.mp h).2
  dsimp only at hkept
  rw [decide_eq_true heq] at hkept
  contradiction

theorem Sound.forgetFailed (h : s.Sound) {request : SubmissionRequest}
    (hretries : ∀ retry ∈ s.retries, retry.request ≠ request)
    : { s with failed := s.failed.forget request }.Sound := by
  refine { h with failed := ?_, unloaded := ?_, retries := ?_ }
  . intro entry hentry
    exact h.failed entry (mem_forget.mp hentry).1
  . intro hloaded
    have hunloaded := h.unloaded hloaded
    refine ⟨hunloaded.1, ?_, hunloaded.2.2⟩
    rw [hunloaded.2.1]
    rfl
  . intro retry hretry
    have hold := h.retries retry hretry
    have hne := hretries retry hretry
    refine { hold with restarted := ?_, failed := ?_ }
    . intro hrestarted
      exact Sublist.lookup_eq_none filter_sublist (hold.restarted hrestarted)
    . intro hrestarted hlimit
      rcases hold.failed hrestarted hlimit with ⟨index, submission, hrecent, hsubmission, hid⟩
      exact ⟨index, submission, hrecent.forget hne, hsubmission, hid⟩

/-! `begin` -/

/--
`begin` of a submission that failed in this session.
-/
theorem Sound.beginsAgain (h : s.Sound) {request : SubmissionRequest} {index : Nat}
    {submission : ComposerSubmission} (hfailed : s.failed.lookup request = some index)
    (hsubmission : s.submissions[index]? = some submission)
    : ({ s.dropRetries (fun retry => retry.request = request) with
        failed := s.failed.forget request }.setSubmission index
          { submission with clearedRevision := none, status := .outstanding }).Sound := by
  rcases h.failed _ (mem_of_lookup hfailed) with ⟨same, hsame, hrequest, hidle⟩
  dsimp only at hsame hrequest
  rw [hsubmission] at hsame
  injection hsame with hsame
  subst hsame
  have hforget := (h.dropRetries fun retry => retry.request = request).forgetFailed
    fun _ hretry => request_ne_of_mem_dropRetries hretry
  apply hforget.setSubmission hsubmission
    { submission with clearedRevision := none, status := .outstanding } rfl rfl
  intro _
  refine ⟨?_, hidle.1, ?_⟩
  . intro other hother hstatus
    exact hidle.2 other (mem_of_mem_eraseIdx hother) hstatus
  . intro entry hentry failed hfailed' heq
    have hentry := mem_forget.mp hentry
    rcases h.failed entry hentry.1 with ⟨same, hsame, hkey, -⟩
    change s.submissions[entry.2]? = some failed at hfailed'
    rw [hfailed'] at hsame
    injection hsame with hsame
    subst hsame
    apply hentry.2
    rw [← hkey, ← hrequest]
    exact h.identified.requests _ (mem_identities (mem_of_getElem? hfailed')) _
      (mem_identities (mem_of_getElem? hsubmission)) heq

theorem Identified.append {identities : List (String × SubmissionRequest)} (h : Identified identities)
    {id : String} {request : SubmissionRequest}
    (hid : ∀ identity ∈ identities, identity.1 = id → identity.2 = request)
    (hkey : ∀ identity ∈ identities, identity.2.storeKey = request.storeKey → identity.2 = request)
    (htrimmed : Js.trim id = id ∧ id ≠ "")
    : Identified (identities ++ [(id, request)]) := by
  refine ⟨?_, ?_, ?_⟩
  . intro identity hidentity other hother heq
    rw [mem_append, mem_singleton] at hidentity hother
    rcases hidentity with hidentity | rfl
    . rcases hother with hother | rfl
      . exact h.requests identity hidentity other hother heq
      . exact hid identity hidentity heq
    . rcases hother with hother | rfl
      . exact (hid other hother heq.symm).symm
      . rfl
  . intro identity hidentity other hother heq
    rw [mem_append, mem_singleton] at hidentity hother
    rcases hidentity with hidentity | rfl
    . rcases hother with hother | rfl
      . exact h.storeKeys identity hidentity other hother heq
      . exact hkey identity hidentity heq
    . rcases hother with hother | rfl
      . exact (hkey other hother heq.symm).symm
      . rfl
  . intro identity hidentity
    rw [mem_append, mem_singleton] at hidentity
    rcases hidentity with hidentity | rfl
    . exact h.trimmed identity hidentity
    . exact htrimmed

/--
A submission may be added with an id that can be retried.
-/
theorem Sound.addSubmission (h : s.Sound) {id : String} {request : SubmissionRequest}
    (hid : ∀ identity ∈ s.identities, identity.1 = id → identity.2 = request)
    (hkey : ∀ identity ∈ s.identities, identity.2.storeKey = request.storeKey →
      identity.2 = request)
    (htrimmed : Js.trim id = id ∧ id ≠ "") (hidle : s.Idle id)
    (hfailed : ∀ entry ∈ s.failed, ∀ failed, s.submissions[entry.2]? = some failed → failed.id ≠ id)
    : (s.addSubmission id request).Sound := by
  have hidentities : (s.addSubmission id request).identities = s.identities ++ [(id, request)] := by
    unfold identities SubmissionApp.addSubmission
    rw [map_append, map_singleton]
  have hsubset : ∀ identity ∈ s.identities, identity ∈ (s.addSubmission id request).identities := by
    intro identity hidentity
    rw [hidentities]
    exact mem_append_left _ hidentity
  have hget : ∀ (i : Nat) submission, s.submissions[i]? = some submission →
      (s.addSubmission id request).submissions[i]? = some submission := by
    intro i submission hsubmission
    unfold SubmissionApp.addSubmission
    dsimp only
    rw [getElem?_append_left (List.getElem?_eq_some_iff.mp hsubmission).1, hsubmission]
  have hmem : ∀ other ∈ (s.addSubmission id request).submissions,
      other ∈ s.submissions ∨ other = { id, request } := by
    intro other hother
    unfold SubmissionApp.addSubmission at hother
    rw [mem_append, mem_singleton] at hother
    exact hother
  refine { h with
    outstanding := ?_
    identified := ?_
    known := ?_
    succeeded := ?_
    failed := ?_
    live := ?_
    retries := ?_ }
  . intro index submission hsubmission hstatus
    rw [sole_iff]
    intro i other hother hne hstatus'
    unfold SubmissionApp.addSubmission at hsubmission hother
    dsimp only at hsubmission hother
    rw [getElem?_append] at hsubmission hother
    split at hsubmission
    . split at hother
      . exact sole_iff.mp (h.outstanding index submission hsubmission hstatus) i other hother hne hstatus'
      . rw [getElem?_singleton] at hother
        split at hother
        . injection hother with hother
          subst hother
          exact Ne.symm (hidle.2 submission (mem_of_getElem? hsubmission) hstatus)
        . contradiction
    . rw [getElem?_singleton] at hsubmission
      split at hsubmission
      . injection hsubmission with hsubmission
        subst hsubmission
        split at hother
        . exact hidle.2 other (mem_of_getElem? hother) hstatus'
        . rw [getElem?_singleton] at hother
          split at hother
          . omega
          . contradiction
      . contradiction
  . rw [hidentities]
    exact h.identified.append hid hkey htrimmed
  . intro succeeded hsucceeded
    rcases h.known succeeded hsucceeded with ⟨identity, hidentity, heq⟩
    exact ⟨identity, hsubset identity hidentity, heq⟩
  . intro other hother hsucceeded
    rcases hmem other hother with hother | rfl
    . exact h.succeeded other hother hsucceeded
    . exact absurd hsucceeded hidle.1
  . intro entry hentry
    rcases h.failed entry hentry with ⟨failed, hfailed', hkey', hidle'⟩
    refine ⟨failed, hget _ _ hfailed', hkey', hidle'.1, ?_⟩
    intro other hother hstatus
    rcases hmem other hother with hother | rfl
    . exact hidle'.2 other hother hstatus
    . exact Ne.symm (hfailed entry hentry failed hfailed')
  . intro entry hentry
    have hlive := h.live entry hentry
    rcases hlive.2.2 with ⟨identity, hidentity, heq⟩
    exact ⟨hlive.1, hlive.2.1, identity, hsubset identity hidentity, heq⟩
  . intro retry hretry
    have hold := h.retries retry hretry
    refine { hold with identity := hsubset _ hold.identity, failed := ?_ }
    intro hrestarted hlimit
    rcases hold.failed hrestarted hlimit with ⟨index, submission, hrecent, hsubmission, heq⟩
    exact ⟨index, submission, hrecent, hget _ _ hsubmission, heq⟩

theorem trim_createSubmissionId (s : SubmissionApp) (createdId nonce : String)
    : Js.trim (s.createSubmissionId createdId nonce) = s.createSubmissionId createdId nonce
        ∧ s.createSubmissionId createdId nonce ≠ "" := by
  unfold createSubmissionId
  split
  . next hcreated => exact ⟨Js.trim_trim createdId, hcreated⟩
  . have hlist : ("submission-" ++ nonce ++ "-" ++ String.ofList (Js.toRadix 36 (s.counter + 1))).toList
        = "submission-".toList ++ (nonce.toList ++ "-".toList ++ Js.toRadix 36 (s.counter + 1)) := by
      have hradix : (String.ofList (Js.toRadix 36 (s.counter + 1))).toList
          = Js.toRadix 36 (s.counter + 1) := String.toList_ofList
      rw [String.toList_append, String.toList_append, String.toList_append, hradix, append_assoc,
        append_assoc, append_assoc]
    constructor
    . apply Js.trim_eq_self
      . rw [hlist]
        intro c hc
        rw [head?_append, show "submission-".toList.head? = some 's' from rfl, Option.some_or,
          Option.mem_some_iff] at hc
        rw [← hc]
        rfl
      . rw [hlist]
        intro c hc
        rw [getLast?_append, getLast?_append, Js.getLast?_toRadix, Option.some_or, Option.some_or,
          Option.mem_some_iff] at hc
        rw [← hc]
        exact Js.isWhitespace_digitChar (Nat.mod_lt _ (by decide))
    . intro hempty
      rw [hempty] at hlist
      exact append_ne_nil_of_left_ne_nil (by decide) _ hlist.symm

/--
What the store answers is among what is remembered.
-/
theorem mem_live_of_persistedId (hloaded : s.loaded) {request : SubmissionRequest} {id : String}
    (hid : s.persistedId request = some id)
    : ∃ entry ∈ s.live, entry.1 = request.storeKey ∧ entry.2.submissionId = id := by
  unfold persistedId at hid
  rw [Option.filter_eq_some_iff] at hid
  have hlookup := hid.1
  unfold lookup at hlookup
  split at hlookup
  . next record hrecord =>
    split at hlookup
    . next hfresh =>
      injection hlookup with hlookup
      refine ⟨(request.storeKey, record), ?_, rfl, hlookup⟩
      rw [live_eq_of_loaded hloaded, mem_filter]
      exact ⟨mem_of_lookup hrecord, decide_eq_true hfresh⟩
    . contradiction
  . contradiction

theorem forgetExpired_sublist (s : SubmissionApp) (request : SubmissionRequest)
    : (s.forgetExpired request) <+ s.entries := by
  unfold forgetExpired
  split
  . split
    . exact Sublist.refl _
    . exact filter_sublist
  . exact Sublist.refl _

theorem Sound.setCounter (h : s.Sound) (counter : Nat) : { s with counter }.Sound := by
  refine { h with retries := ?_ }
  intro retry hretry
  have hold := h.retries retry hretry
  exact { hold with }

theorem Sound.begins (h : s.Sound) {request : SubmissionRequest} {createdId nonce : String}
    (hguard : s.Allowed (.begins request createdId nonce))
    (hstep : s.begins request createdId nonce = some s')
    : s'.Sound := by
  rcases hguard with ⟨hloaded, hnew, hkey, hsole⟩
  unfold SubmissionApp.begins at hstep
  dsimp only at hstep
  split at hstep
  . next index hfailed =>
    rw [Option.map_eq_some_iff] at hstep
    rcases hstep with ⟨submission, hsubmission, rfl⟩
    exact h.beginsAgain hfailed hsubmission
  . next hfailed =>
    have hfailedId : s.failedId request = none := by
      unfold failedId
      rw [hfailed, Option.bind_none]
    have hnotFailed : ∀ entry ∈ s.failed, entry.1 ≠ request := by
      intro entry hentry heq
      rw [lookup_eq_none_iff] at hfailed
      exact bne_iff_ne.mp (hfailed entry hentry) heq.symm
    have hforget : { s.dropRetries (fun retry => retry.request = request) with
        entries := s.forgetExpired request }.Sound := by
      have hlive : { s with entries := s.forgetExpired request }.live = s.live := by
        rw [live_eq_of_loaded (s := s) hloaded, ← h.filter_forgetExpired request]
        exact live_eq_of_loaded hloaded
      apply (h.dropRetries fun retry => retry.request = request).of_live
      . exact hlive ▸ Sublist.refl s.live
      . intro _ _ _ _ hrecent
        exact hlive ▸ hrecent
      . exact h.keys.sublist ((forgetExpired_sublist s request).map _)
      . exact h.unloaded
      . exact h.reading
    split at hstep
    . next id hid =>
      injection hstep with hstep
      subst hstep
      rcases mem_live_of_persistedId hloaded hid with ⟨entry, hentry, hentryKey, hentryId⟩
      have hlive := h.live entry hentry
      rcases hlive.2.2 with ⟨identity, hidentity, hidentityId, hidentityKey⟩
      have hrequest := hkey identity hidentity (hidentityKey.trans hentryKey)
      have hid' : ∀ other ∈ s.identities, other.1 = id → other.2 = request := by
        intro other hother heq
        rw [← hrequest]
        apply h.identified.requests other hother identity hidentity
        rw [heq, hidentityId, hentryId]
      apply hforget.addSubmission hid' hkey
      . rw [← hentryId, ← hidentityId]
        exact h.identified.trimmed identity hidentity
      . refine ⟨hentryId ▸ hlive.1, ?_⟩
        intro other hother hstatus heq
        apply hsole hfailedId other hother hstatus
        rw [hid, heq]
      . intro failedEntry hfailedEntry failed hfailed' heq
        rcases h.failed failedEntry hfailedEntry with ⟨same, hsame, hsameRequest, -⟩
        change s.submissions[failedEntry.2]? = some failed at hfailed'
        rw [hfailed'] at hsame
        injection hsame with hsame
        subst hsame
        apply hnotFailed failedEntry hfailedEntry
        rw [← hsameRequest]
        exact hid' _ (mem_identities (mem_of_getElem? hfailed')) heq
    . next hid =>
      injection hstep with hstep
      subst hstep
      have hnew : ∀ identity ∈ s.identities, identity.1 ≠ s.createSubmissionId createdId nonce := by
        apply hnew
        unfold retryId
        rw [hfailedId, hid]
      have hcounter := hforget.setCounter (s.counter + 1)
      apply hcounter.addSubmission
      . intro identity hidentity heq
        exact absurd heq (hnew identity hidentity)
      . exact hkey
      . exact trim_createSubmissionId s createdId nonce
      . refine ⟨?_, ?_⟩
        . intro hsucceeded
          rcases h.known _ hsucceeded with ⟨identity, hidentity, heq⟩
          exact hnew identity hidentity heq
        . intro other hother _
          exact hnew _ (mem_identities hother)
      . intro entry _ failed hfailed'
        exact hnew _ (mem_identities (mem_of_getElem? hfailed'))

/-! `fail` -/

/--
A failed submission becomes the last one that can be retried, in memory and in the store.
-/
theorem Sound.remember (h : s.Sound) (hloaded : s.loaded) {index : Nat} (submission : ComposerSubmission)
    (hsubmission : s.submissions[index]? = some submission) (hidle : s.Idle submission.id)
    (hlt : (∃ entry ∈ s.entries, entry.1 = submission.request.storeKey) →
      ∀ entry ∈ s.entries, entry.1 ≠ submission.request.storeKey → entry.2.updatedAt < s.now)
    (hretries : ∀ retry ∈ s.retries, retry.request ≠ submission.request)
    : { s.record submission.request submission.id with
        failed := (s.failed.touch submission.request index).keepLast FAILED_SUBMISSION_LIMIT
        failures := s.failures + 1
        retries := s.retries ++ [Retry.mk submission.request submission.id s.now (s.failures + 1) false]
        }.Sound := by
  have hidentity := mem_identities (mem_of_getElem? hsubmission)
  generalize hkey : submission.request.storeKey = key at hlt
  generalize hrecord : SubmissionIdempotencyRecord.mk submission.id s.now = record
  have hentries : pruneSubmissionIdempotencyEntries (s.entries.assign key record) s.now
      = (s.live.touch key record).keepLast SUBMISSION_IDEMPOTENCY_LIMIT := by
    rw [← hrecord]
    exact h.prune_assign hloaded hlt
  have htouch : ∀ entry ∈ s.live.touch key record, entry ∈ s.live ∨ entry = (key, record) := by
    intro entry hentry
    unfold List.touch at hentry
    rw [mem_append, mem_singleton] at hentry
    exact hentry.imp_left fun hentry => (mem_forget.mp hentry).1
  have hlive : (s.record submission.request submission.id).live
      = (s.live.touch key record).keepLast SUBMISSION_IDEMPOTENCY_LIMIT := by
    have hloaded' : (s.record submission.request submission.id).loaded = true := hloaded
    rw [live_eq_of_loaded hloaded']
    unfold SubmissionApp.record persist
    dsimp only
    rw [hkey, hrecord, hentries]
    apply filter_keepLast_eq_self
    intro entry hentry
    rcases htouch entry hentry with hentry | rfl
    . exact isFresh_of_mem_live hentry
    . unfold isFresh
      rw [← hrecord]
      dsimp only
      rw [Nat.sub_self]
      exact decide_eq_true (Nat.zero_le _)
  have hkeys : ((s.live.touch key record).map (·.1)).Nodup := by
    unfold List.touch
    rw [map_append, map_singleton, nodup_append]
    refine ⟨h.liveKeys.sublist (filter_sublist.map _), nodup_singleton _, ?_⟩
    intro a ha b hb heq
    rw [mem_map] at ha
    rcases ha with ⟨entry, hentry, rfl⟩
    rw [mem_singleton] at hb
    exact (mem_forget.mp hentry).2 (heq.trans hb)
  refine { h with
    failed := ?_
    keys := ?_
    liveKeys := ?_
    live := ?_
    sorted := ?_
    unloaded := ?_
    retries := ?_ }
  . intro entry hentry
    have hentry := mem_of_mem_drop hentry
    unfold List.touch at hentry
    rw [mem_append, mem_singleton] at hentry
    rcases hentry with hentry | rfl
    . exact h.failed entry (mem_forget.mp hentry).1
    . exact ⟨submission, hsubmission, rfl, hidle⟩
  . unfold SubmissionApp.record persist
    dsimp only
    rw [hkey, hrecord, hentries]
    exact hkeys.sublist ((drop_sublist _ _).map _)
  . change ((s.record submission.request submission.id).live.map (·.1)).Nodup
    rw [hlive]
    exact hkeys.sublist ((drop_sublist _ _).map _)
  . intro entry hentry
    change entry ∈ (s.record submission.request submission.id).live at hentry
    rw [hlive] at hentry
    rcases htouch entry (mem_of_mem_drop hentry) with hentry | rfl
    . exact h.live entry hentry
    . rw [← hrecord]
      exact ⟨hidle.1, Nat.le_refl _, _, hidentity, rfl, hkey⟩
  . change (s.record submission.request submission.id).live.Pairwise _
    rw [hlive]
    apply Pairwise.sublist (drop_sublist _ _)
    unfold List.touch
    rw [pairwise_append]
    refine ⟨h.sorted.sublist filter_sublist, pairwise_singleton _ _, ?_⟩
    intro a ha b hb
    rw [mem_singleton] at hb
    rw [hb, ← hrecord]
    exact (h.live a (mem_forget.mp ha).1).2.1
  . intro hunloaded
    change s.loaded = false at hunloaded
    rw [hloaded] at hunloaded
    contradiction
  . intro retry hretry
    rw [mem_append, mem_singleton] at hretry
    rcases hretry with hretry | rfl
    . have hold := h.retries retry hretry
      have hne := hretries retry hretry
      have hneKey : retry.request.storeKey ≠ key := by
        intro heq
        exact hne (h.identified.storeKeys _ hold.identity _ hidentity (heq.trans hkey.symm))
      have hle := hold.ordinal_le
      have hlater : s.failures + 1 - retry.ordinal = s.failures - retry.ordinal + 1 := by omega
      refine ⟨Nat.le_succ_of_le hle, hold.identity, ?_, ?_, ?_⟩
      . intro hrestarted
        apply Sublist.lookup_eq_none (drop_sublist _ _)
        have hnone := hold.restarted hrestarted
        rw [lookup_eq_none_iff] at hnone ⊢
        intro entry hentry
        unfold List.touch at hentry
        rw [mem_append, mem_singleton] at hentry
        rcases hentry with hentry | rfl
        . exact hnone entry (mem_forget.mp hentry).1
        . exact bne_iff_ne.mpr hne
      . intro hrestarted hlimit
        dsimp only at hlimit ⊢
        rw [hlater] at hlimit ⊢
        rcases hold.failed hrestarted (by omega) with ⟨place, failed, hrecent, hfailed, hid⟩
        exact ⟨place, failed, (hrecent.touch hne index).keepLast hlimit, hfailed, hid⟩
      . intro hlimit htime
        change (s.record submission.request submission.id).live.Recent _ _ _
        dsimp only at hlimit htime ⊢
        rw [hlater] at hlimit ⊢
        rw [hlive]
        exact ((hold.stored (by omega) htime).touch hneKey record).keepLast hlimit
    . refine ⟨Nat.le_refl _, hidentity, ?_, ?_, ?_⟩
      . intro hrestarted
        contradiction
      . intro _ _
        dsimp only
        rw [Nat.sub_self]
        exact ⟨index, submission, (recent_touch _ _ _).keepLast (by decide), hsubmission, rfl⟩
      . intro _ _
        change (s.record submission.request submission.id).live.Recent _ _ _
        dsimp only
        rw [Nat.sub_self, hlive, hkey, hrecord]
        exact (recent_touch _ _ _).keepLast (by decide)

theorem Sound.fails (h : s.Sound) {index : Nat} {current : SubmissionDraftSnapshot}
    (hguard : s.Allowed (.fails index current)) {restores : Bool}
    (hstep : s.fails index current = some (s', restores))
    : s'.Sound := by
  rcases hguard with ⟨hloaded, hguard⟩
  unfold SubmissionApp.fails at hstep
  split at hstep
  . next submission hsubmission =>
    split at hstep
    . contradiction
    . rcases hguard submission hsubmission with ⟨hsucceeded, hsole, hlt⟩
      injection hstep with hstep
      have hstate := congrArg Prod.fst hstep
      dsimp only at hstate
      subst hstate
      have hfailed := (h.dropRetries fun retry => retry.request = submission.request).setSubmission
        hsubmission { submission with status := .failed } rfl rfl (by intro hstatus; contradiction)
      apply hfailed.remember hloaded { submission with status := .failed }
      . exact getElem?_setSubmission_self hsubmission _
      . refine ⟨hsucceeded, ?_⟩
        intro other hother hstatus
        rcases mem_or_eq_of_mem_setSubmission hother with hother | rfl
        . exact hsole other hother hstatus
        . contradiction
      . exact hlt
      . intro retry hretry
        exact request_ne_of_mem_dropRetries hretry
  . contradiction

/-! `succeed` -/

theorem clear_eq (s : SubmissionApp) (request : SubmissionRequest)
    : s.clear request =
        { s with
          entries := s.entries.forget request.storeKey
          writes :=
            if s.entries.any fun entry => entry.1 = request.storeKey then
              s.writes ++ [s.entries.forget request.storeKey]
            else
              s.writes } := by
  unfold clear
  split
  . rfl
  . next hnone =>
    rw [forget_of_forall_ne]
    intro entry hentry heq
    apply hnone
    rw [any_eq_true]
    exact ⟨entry, hentry, decide_eq_true heq⟩

/--
A failure that waits for the retry of another submission is not the one that is answered.
-/
theorem Sound.not_waiting (h : s.Sound) (hloaded : s.loaded) {retry : Retry} (hmem : retry ∈ s.retries)
    (hne : s.retryId retry.request ≠ some retry.id)
    : (retry.restarted = false → FAILED_SUBMISSION_LIMIT ≤ s.failures - retry.ordinal)
        ∧ (s.failures - retry.ordinal < SUBMISSION_IDEMPOTENCY_LIMIT →
          SUBMISSION_IDEMPOTENCY_TTL_MS < s.now - retry.failedAt) := by
  have hlimits : FAILED_SUBMISSION_LIMIT = SUBMISSION_IDEMPOTENCY_LIMIT := rfl
  have hdue : ¬s.isDue retry := fun hdue => hne (h.retryId_eq hloaded hmem hdue)
  unfold isDue at hdue
  constructor
  . intro hrestarted
    by_contra hlimit
    apply hdue
    refine ⟨by omega, ?_⟩
    intro htrue
    rw [hrestarted] at htrue
    contradiction
  . intro hlimit
    by_contra htime
    exact hdue ⟨by omega, fun _ => Nat.le_of_not_lt htime⟩

/--
Nothing is remembered any more of a submission that has succeeded.
-/
theorem Sound.settle (h : s.Sound) (hloaded : s.loaded) {id : String} {request : SubmissionRequest}
    (hmem : (id, request) ∈ s.identities)
    (hdone : ∀ other ∈ s.submissions, other.status = .outstanding → other.id ≠ id)
    (hretries : ∀ retry ∈ s.retries, retry.id ≠ id)
    (hwaiting : ∀ retry ∈ s.retries, retry.request = request →
      (retry.restarted = false → FAILED_SUBMISSION_LIMIT ≤ s.failures - retry.ordinal)
        ∧ (s.failures - retry.ordinal < SUBMISSION_IDEMPOTENCY_LIMIT →
          SUBMISSION_IDEMPOTENCY_TTL_MS < s.now - retry.failedAt))
    : { s.clear request with
        failed := s.failed.forget request, succeeded := id :: s.succeeded }.Sound := by
  rw [clear_eq]
  generalize (if s.entries.any fun entry => entry.1 = request.storeKey then
    s.writes ++ [s.entries.forget request.storeKey] else s.writes) = writes
  have hlive : { s with entries := s.entries.forget request.storeKey, writes }.live
      = s.live.forget request.storeKey := by
    rw [live_eq_of_loaded (s := s) hloaded]
    unfold List.forget
    rw [filter_comm]
    exact live_eq_of_loaded hloaded
  have hsublist : s.live.forget request.storeKey <+ s.live := filter_sublist
  refine { h with
    known := ?_
    succeeded := ?_
    failed := ?_
    keys := h.keys.sublist (filter_sublist.map _)
    liveKeys := ?_
    live := ?_
    sorted := ?_
    unloaded := ?_
    retries := ?_ }
  . intro succeeded hsucceeded
    rcases mem_cons.mp hsucceeded with rfl | hsucceeded
    . exact ⟨_, hmem, rfl⟩
    . exact h.known succeeded hsucceeded
  . intro other hother hsucceeded hstatus
    rcases mem_cons.mp hsucceeded with heq | hsucceeded
    . exact hdone other hother hstatus heq
    . exact h.succeeded other hother hsucceeded hstatus
  . intro entry hentry
    have hentry := mem_forget.mp hentry
    rcases h.failed entry hentry.1 with ⟨failed, hfailed, hrequest, hidle⟩
    refine ⟨failed, hfailed, hrequest, ?_, hidle.2⟩
    intro hsucceeded
    rcases mem_cons.mp hsucceeded with heq | hsucceeded
    . apply hentry.2
      rw [← hrequest]
      exact h.identified.requests _ (mem_identities (mem_of_getElem? hfailed)) _ hmem heq
    . exact hidle.1 hsucceeded
  . change (List.map (·.1) { s with entries := s.entries.forget request.storeKey, writes }.live).Nodup
    rw [hlive]
    exact h.liveKeys.sublist (hsublist.map _)
  . intro entry hentry
    change entry ∈ { s with entries := s.entries.forget request.storeKey, writes }.live at hentry
    rw [hlive, mem_forget] at hentry
    have hold := h.live entry hentry.1
    refine ⟨?_, hold.2.1, hold.2.2⟩
    intro hsucceeded
    rcases mem_cons.mp hsucceeded with heq | hsucceeded
    . rcases hold.2.2 with ⟨identity, hidentity, hid, hkey⟩
      apply hentry.2
      rw [← hkey, h.identified.requests _ hidentity _ hmem (hid.trans heq)]
    . exact hold.1 hsucceeded
  . change { s with entries := s.entries.forget request.storeKey, writes }.live.Pairwise _
    rw [hlive]
    exact h.sorted.sublist hsublist
  . intro hunloaded
    change s.loaded = false at hunloaded
    rw [hloaded] at hunloaded
    contradiction
  . intro retry hretry
    have hold := h.retries retry hretry
    refine ⟨hold.ordinal_le, hold.identity, ?_, ?_, ?_⟩
    . intro hrestarted
      exact Sublist.lookup_eq_none filter_sublist (hold.restarted hrestarted)
    . intro hrestarted hlimit
      rcases hold.failed hrestarted hlimit with ⟨place, failed, hrecent, hfailed, hid⟩
      refine ⟨place, failed, hrecent.forget ?_, hfailed, hid⟩
      intro heq
      have hfar := (hwaiting retry hretry heq).1 hrestarted
      dsimp only at hlimit
      omega
    . intro hlimit htime
      change { s with entries := s.entries.forget request.storeKey, writes }.live.Recent _ _ _
      rw [hlive]
      apply (hold.stored hlimit htime).forget
      intro heq
      have hsame := h.identified.storeKeys _ hold.identity _ hmem heq
      have hfar := (hwaiting retry hretry hsame).2 hlimit
      dsimp only at htime
      omega

theorem Sound.succeeds (h : s.Sound) {index : Nat} (hguard : s.Allowed (.succeeds index))
    (hstep : s.succeeds index = some s')
    : s'.Sound := by
  rcases hguard with ⟨hloaded, hguard⟩
  unfold SubmissionApp.succeeds at hstep
  split at hstep
  . next submission hsubmission =>
    split at hstep
    . contradiction
    . rcases hguard submission hsubmission with ⟨hsole, hretry⟩
      injection hstep with hstep
      subst hstep
      have hset := (h.dropRetries fun retry => retry.id = submission.id).setSubmission
        hsubmission { submission with status := .succeeded } rfl rfl (by intro hstatus; contradiction)
      have hget := getElem?_setSubmission_self hsubmission { submission with status := .succeeded }
      have hmem := mem_identities (mem_of_getElem? hget)
      have hsettled := hset.settle hloaded hmem ?_ ?_ ?_
      . rw [clear_eq] at hsettled ⊢
        exact hsettled
      . intro other hother hstatus
        rcases mem_or_eq_of_mem_setSubmission hother with hother | rfl
        . exact hsole other hother hstatus
        . contradiction
      . intro retry hkept heq
        have hkept := (mem_filter.mp hkept).2
        dsimp only at hkept
        rw [decide_eq_true heq] at hkept
        contradiction
      . intro retry hkept heq
        have hkept := mem_filter.mp hkept
        apply h.not_waiting hloaded hkept.1
        intro hretryId
        rw [heq] at hretryId
        have hsame := hretry retry.id hretryId
        have hdropped := hkept.2
        dsimp only at hdropped
        rw [decide_eq_true hsame] at hdropped
        contradiction
  . contradiction

/-! Restarts -/

theorem status_ne_outstanding_of_restart {submission : ComposerSubmission}
    (h : submission ∈ s.restart.submissions)
    : submission.status ≠ .outstanding := by
  unfold SubmissionApp.restart at h
  dsimp only at h
  rw [mem_map] at h
  rcases h with ⟨old, -, rfl⟩
  split
  . next hsucceeded =>
    rw [hsucceeded]
    decide
  . intro hstatus
    contradiction

theorem identities_restart (s : SubmissionApp) : s.restart.identities = s.identities := by
  unfold identities SubmissionApp.restart
  dsimp only
  rw [map_map]
  apply map_congr_left
  intro submission _
  dsimp only [Function.comp_apply]
  split <;> rfl

theorem Sound.restart (h : s.Sound) (hguard : s.Allowed .restart) : s.restart.Sound := by
  have hlive : s.restart.live = s.live := by
    cases hloaded : s.loaded with
    | true =>
      rw [live_eq_of_loaded hloaded, ← hguard hloaded]
      rfl
    | false =>
      unfold SubmissionApp.live
      rw [hloaded]
      rfl
  have hidentities := identities_restart s
  refine ⟨?_, ?_, ?_, ?_, ?_, .nil, ?_, ?_, ?_, ?_, ?_, ?_⟩
  . intro index submission hsubmission hstatus
    exact absurd hstatus (status_ne_outstanding_of_restart (mem_of_getElem? hsubmission))
  . rw [hidentities]
    exact h.identified
  . rw [hidentities]
    exact h.known
  . intro submission hsubmission _
    exact status_ne_outstanding_of_restart hsubmission
  . intro entry hentry
    exact absurd hentry not_mem_nil
  . rw [hlive]
    exact h.liveKeys
  . rw [hlive, hidentities]
    exact h.live
  . rw [hlive]
    exact h.sorted
  . intro _
    exact ⟨rfl, rfl, fun _ hraw => by contradiction⟩
  . intro hloaded
    contradiction
  . intro retry hretry
    unfold SubmissionApp.restart at hretry
    dsimp only at hretry
    rw [mem_map] at hretry
    rcases hretry with ⟨old, hold, rfl⟩
    have hold := h.retries old hold
    refine ⟨hold.ordinal_le, ?_, fun _ => rfl, ?_, ?_⟩
    . rw [hidentities]
      exact hold.identity
    . intro hrestarted
      contradiction
    . rw [hlive]
      exact hold.stored

/-! Runs -/

theorem sound_step (h : s.Sound) (label : SubmissionLabel) (hguard : s.Allowed label)
    (hstep : s.step label = some s')
    : s'.Sound := by
  cases label with
  | begins request createdId nonce => exact h.begins hguard hstep
  | markCleared index revision => exact h.markCleared hstep
  | fails index current =>
    unfold SubmissionApp.step at hstep
    rw [Option.map_eq_some_iff] at hstep
    rcases hstep with ⟨⟨after, restores⟩, hfails, rfl⟩
    exact h.fails hguard hfails
  | succeeds index => exact h.succeeds hguard hstep
  | write ok => exact h.write hstep
  | read ok =>
    have hok : ok = true := hguard
    subst hok
    exact h.readFile hstep
  | finishLoad => exact h.finishLoad hstep
  | restart =>
    injection hstep with hstep
    exact hstep ▸ h.restart hguard
  | wait duration =>
    injection hstep with hstep
    exact hstep ▸ h.wait duration

instance (s : SubmissionApp) (index : Nat) (id : String) : Decidable (s.Sole index id) :=
  inferInstanceAs (Decidable (∀ _ ∈ _, _))

instance (s : SubmissionApp) (label : SubmissionLabel) : Decidable (s.Allowed label) :=
  match label with
  | .begins .. => inferInstanceAs (Decidable (_ ∧ _ ∧ _ ∧ _))
  | .fails .. => inferInstanceAs (Decidable (_ ∧ _))
  | .succeeds _ => inferInstanceAs (Decidable (_ ∧ _))
  | .read _ => inferInstanceAs (Decidable (_ = true))
  | .restart => inferInstanceAs (Decidable (_ → _))
  | .markCleared .. => inferInstanceAs (Decidable True)
  | .write _ => inferInstanceAs (Decidable True)
  | .finishLoad => inferInstanceAs (Decidable True)
  | .wait _ => inferInstanceAs (Decidable True)

def prompt : SubmissionRequest :=
  { scopeKey := "[\"p\",null]", draft := "hi", mentions := [], localImages := [] }

def sentAgain : List SubmissionLabel :=
  [.read true, .finishLoad, .begins prompt "a" "", .markCleared 0 1,
    .fails 0 { scopeKey := prompt.scopeKey, value := "", revision := 1 }, .write true, .restart, .read true,
    .finishLoad, .begins prompt "b" "", .succeeds 1]

/--
A submission fails and is begun again, which takes its id from memory, and a second submission with the
same content takes the id from the store.
-/
def sentTwice : List SubmissionLabel :=
  [.read true, .finishLoad, .begins prompt "a" "",
    .fails 0 { scopeKey := prompt.scopeKey, value := "", revision := 0 }, .begins prompt "b" "",
    .begins prompt "c" ""]

end SubmissionApp

end Mobile
