import TetherBridge.AgUi.SnapshotMessages
import Mathlib.Data.List.Basic

/-!
This module contains which messages of a snapshot are kept when they do not all fit: exactly when they are whole groups.
-/

namespace AgUi

open Acp Snapshot

variable {x : Crates} {snapshot : SessionSnapshot} {fits : List Message → Bool}

/-! Messages of groups -/

def groupToolIds : MessageGroup → List String
  | .tool tool => [tool.id]
  | _ => []

/--
The messages without the results of some calls.
-/
def withoutResults (toolCallIds : List String) (messages : List Message) : List Message :=
  messages.filter fun message => !message.toolCallId.any toolCallIds.contains

/--
Neither a call nor a result.
-/
def Message.isPlain (message : Message) : Prop :=
  message.toolCalls = none ∧ message.toolCallId = none

theorem withoutResults_append (toolCallIds : List String) (messages messages' : List Message)
    : withoutResults toolCallIds (messages ++ messages')
        = withoutResults toolCallIds messages ++ withoutResults toolCallIds messages' :=
  List.filter_append ..

theorem withoutResults_sublist (toolCallIds : List String) (messages : List Message)
    : (withoutResults toolCallIds messages).Sublist messages :=
  List.filter_sublist

theorem withoutResults_withoutResults (toolCallIds toolCallIds' : List String) (messages : List Message)
    : withoutResults toolCallIds' (withoutResults toolCallIds messages)
        = withoutResults (toolCallIds ++ toolCallIds') messages := by
  unfold withoutResults
  rw [List.filter_filter]
  apply List.filter_congr
  intro message _
  cases message.toolCallId with
  | none => rfl
  | some id => simp [Bool.and_comm]

theorem withoutResults_cons_of_none {message : Message} (h : message.toolCallId = none) (toolCallIds : List String)
    (messages : List Message)
    : withoutResults toolCallIds (message :: messages) = message :: withoutResults toolCallIds messages := by
  unfold withoutResults
  rw [List.filter_cons_of_pos (by simp [h])]

theorem withoutResults_toolResult (toolCallIds : List String) (tool : SnapshotTool)
    : withoutResults toolCallIds [toolResult x tool] = if tool.id ∈ toolCallIds then [] else [toolResult x tool] := by
  unfold withoutResults toolResult
  by_cases hmem : tool.id ∈ toolCallIds
  . simp [hmem]
  . simp [hmem]

theorem toolMeta_isPlain (tool : SnapshotTool) : (toolMeta tool).isPlain :=
  ⟨rfl, rfl⟩

/--
A group that is not a tool is one plain message.
-/
theorem groupMessages_eq_singleton (x : Crates) (snapshot : SessionSnapshot) {group : MessageGroup}
    (h : groupToolIds group = [])
    : ∃ message : Message, message.isPlain ∧ groupMessages x snapshot group = [message] := by
  cases group with
  | single message => exact ⟨textMessage x message, ⟨rfl, rfl⟩, rfl⟩
  | subagent tool task => exact ⟨subagentMessage x snapshot tool task, ⟨rfl, rfl⟩, rfl⟩
  | tool tool => contradiction

theorem groupToolIds_eq_nil_or (group : MessageGroup) : groupToolIds group = [] ∨ ∃ tool, group = .tool tool := by
  cases group with
  | single message => exact .inl rfl
  | subagent tool task => exact .inl rfl
  | tool tool => exact .inr ⟨tool, rfl⟩

section

variable (x snapshot)

def groupsMessages (groups : List MessageGroup) : List Message :=
  groups.flatMap (groupMessages x snapshot)

theorem groupsMessages_cons (group : MessageGroup) (groups : List MessageGroup)
    : groupsMessages x snapshot (group :: groups)
        = groupMessages x snapshot group ++ groupsMessages x snapshot groups :=
  List.flatMap_cons

theorem groupsMessages_append (groups groups' : List MessageGroup)
    : groupsMessages x snapshot (groups ++ groups')
        = groupsMessages x snapshot groups ++ groupsMessages x snapshot groups' :=
  List.flatMap_append

/--
The first message of whole groups is plain.
-/
theorem head_groupsMessages {groups : List MessageGroup} {first : Message} {rest : List Message}
    (h : groupsMessages x snapshot groups = first :: rest)
    : first.isPlain := by
  cases groups with
  | nil => contradiction
  | cons group groups =>
    rw [groupsMessages_cons] at h
    cases groupToolIds_eq_nil_or group with
    | inl hnil =>
      rcases groupMessages_eq_singleton x snapshot hnil with ⟨message, hplain, hmessages⟩
      rw [hmessages, List.cons_append, List.cons.injEq] at h
      exact h.1 ▸ hplain
    | inr htool =>
      rcases htool with ⟨tool, rfl⟩
      dsimp only [groupMessages] at h
      rw [List.cons_append, List.cons.injEq] at h
      exact h.1 ▸ toolMeta_isPlain tool

/--
Results of other tools are not touched.
-/
theorem withoutResults_groupsMessages {toolCallIds : List String} {groups : List MessageGroup}
    (h : ∀ id ∈ toolCallIds, id ∉ groups.flatMap groupToolIds)
    : withoutResults toolCallIds (groupsMessages x snapshot groups) = groupsMessages x snapshot groups := by
  induction groups with
  | nil => rfl
  | cons group groups ih =>
    have hrest : ∀ id ∈ toolCallIds, id ∉ groups.flatMap groupToolIds := by
      intro id hid hmem
      apply h id hid
      rw [List.flatMap_cons, List.mem_append]
      exact .inr hmem
    rw [groupsMessages_cons, withoutResults_append, ih hrest]
    congr 1
    cases groupToolIds_eq_nil_or group with
    | inl hnil =>
      rcases groupMessages_eq_singleton x snapshot hnil with ⟨message, hplain, hmessages⟩
      rw [hmessages, withoutResults_cons_of_none hplain.2]
      rfl
    | inr htool =>
      rcases htool with ⟨tool, rfl⟩
      have hmem : tool.id ∉ toolCallIds := by
        intro hid
        apply h tool.id hid
        rw [List.flatMap_cons]
        exact List.mem_append_left _ List.mem_cons_self
      dsimp only [groupMessages]
      rw [withoutResults_cons_of_none rfl, withoutResults_cons_of_none rfl, withoutResults_toolResult, if_neg hmem]

end

/-! What one round removes -/

theorem removeOldest_plain {oldest : Message} (h : oldest.isPlain) (messages : List Message)
    : removeOldestSnapshotMessageGroup oldest messages = messages := by
  unfold removeOldestSnapshotMessageGroup
  rw [h.1, h.2, List.filter_eq_self]
  intro message _
  cases message.toolCallId with
  | none => rfl
  | some id => rfl

theorem removeOldest_toolCall (tool : SnapshotTool) (messages : List Message)
    : removeOldestSnapshotMessageGroup (toolCall tool) messages = withoutResults [tool.id] messages := by
  unfold removeOldestSnapshotMessageGroup withoutResults
  apply List.filter_congr
  intro message _
  change (if message.toolCallId.any [tool.id].contains then false else true) = _
  cases message.toolCallId.any [tool.id].contains with
  | true => rfl
  | false => rfl

/--
With its call goes the result of a tool.
-/
theorem removeOldest_toolCall_result (gone : List String) (tool : SnapshotTool) (messages : List Message)
    : removeOldestSnapshotMessageGroup (toolCall tool)
          (withoutResults gone [toolResult x tool] ++ withoutResults gone messages)
        = withoutResults (gone ++ [tool.id]) messages := by
  have hself : tool.id ∈ gone ++ [tool.id] := List.mem_append_right _ List.mem_cons_self
  rw [removeOldest_toolCall, withoutResults_append, withoutResults_withoutResults, withoutResults_withoutResults,
    withoutResults_toolResult, if_pos hself, List.nil_append]

theorem boundMessages_of_fits {messages : List Message} (h : fits messages) : boundMessages fits messages = messages := by
  unfold boundMessages
  rw [if_pos h]

theorem boundMessages_cons {oldest : Message} {messages : List Message} (hfits : ¬fits (oldest :: messages))
    (hlength : 2 ≤ (oldest :: messages).length)
    : boundMessages fits (oldest :: messages)
        = boundMessages fits (removeOldestSnapshotMessageGroup oldest messages) := by
  cases messages with
  | nil => simp at hlength
  | cons next rest =>
    rw [boundMessages.eq_def, if_neg hfits]

/--
What a round leaves depends on the whole list only through whether it fits.
-/
theorem boundMessages_stop_or (fits : List Message → Bool) (oldest : Message) (messages : List Message)
    : boundMessages fits (oldest :: messages) = oldest :: messages
        ∨ (¬fits (oldest :: messages)
          ∧ 2 ≤ (oldest :: messages).length
          ∧ boundMessages fits (oldest :: messages)
            = boundMessages fits (removeOldestSnapshotMessageGroup oldest messages)) := by
  by_cases hfits : fits (oldest :: messages)
  . exact .inl (boundMessages_of_fits hfits)
  . cases messages with
    | nil =>
      left
      rw [boundMessages.eq_def, if_neg hfits]
    | cons next rest =>
      right
      have hlength : 2 ≤ (oldest :: next :: rest).length := by simp
      exact ⟨hfits, hlength, boundMessages_cons hfits hlength⟩

/-! Whole groups -/

section

variable (x snapshot)

/--
What is left of a group before its last message goes: a tool has lost its description by then, and its result when
another tool of the same id went before.
-/
def lastMessages (gone : List String) : MessageGroup → List Message
  | .tool tool => toolCall tool :: if tool.id ∈ gone then [] else [toolResult x tool]
  | group => groupMessages x snapshot group

/--
The messages that are kept are whole groups from the end of the transcript, and no fewer than fit. Calls and results
are kept together.
-/
structure KeepsWhole (fits : List Message → Bool) (groups : List MessageGroup) (kept : List Message) : Prop where
  fitting : fits kept
  cut : ∃ k, kept = groupsMessages x snapshot (groups.drop k)
    ∧ ∀ j < k, ¬fits (groupsMessages x snapshot (groups.drop j))
  calls : ∀ message ∈ kept, ∀ calls, message.toolCalls = some calls → ∀ call ∈ calls,
    ∃ result ∈ kept, result.toolCallId = some call.id
  results : ∀ result ∈ kept, ∀ id, result.toolCallId = some id →
    ∃ message ∈ kept, ∃ calls, message.toolCalls = some calls ∧ ∃ call ∈ calls, call.id = id

/--
The groups that have to go and the ones that fit. What is left of the last one that has to go does not fit, and is not
the last message of all. No tool is on both sides.
-/
structure Splits (fits : List Message → Bool) (groups dropped kept : List MessageGroup) : Prop where
  split : groups = dropped ++ kept
  fitting : fits (groupsMessages x snapshot kept)
  apart : ∀ id ∈ dropped.flatMap groupToolIds, id ∉ kept.flatMap groupToolIds
  last : ∀ before group, dropped = before ++ [group] →
    ¬fits (lastMessages x snapshot (before.flatMap groupToolIds) group ++ groupsMessages x snapshot kept)
      ∧ 2 ≤ (lastMessages x snapshot (before.flatMap groupToolIds) group ++ groupsMessages x snapshot kept).length

end

/--
A call is kept with its result when the groups are whole.
-/
theorem groupsMessages_pairs (x : Crates) (snapshot : SessionSnapshot) (groups : List MessageGroup) {message : Message}
    (h : message ∈ groupsMessages x snapshot groups)
    : message.isPlain
        ∨ ∃ tool, (message = toolCall tool ∨ message = toolResult x tool)
          ∧ toolCall tool ∈ groupsMessages x snapshot groups
          ∧ toolResult x tool ∈ groupsMessages x snapshot groups := by
  unfold groupsMessages at h
  rw [List.mem_flatMap] at h
  rcases h with ⟨group, hgroup, hmem⟩
  cases groupToolIds_eq_nil_or group with
  | inl hnil =>
    rcases groupMessages_eq_singleton x snapshot hnil with ⟨plain, hplain, hmessages⟩
    rw [hmessages, List.mem_singleton] at hmem
    exact .inl (hmem ▸ hplain)
  | inr htool =>
    rcases htool with ⟨tool, rfl⟩
    have hall : ∀ message ∈ groupMessages x snapshot (.tool tool), message ∈ groupsMessages x snapshot groups :=
      fun message hmessage => List.mem_flatMap.mpr ⟨.tool tool, hgroup, hmessage⟩
    dsimp only [groupMessages] at hmem hall
    simp only [List.mem_cons, List.not_mem_nil, or_false] at hmem hall
    rcases hmem with rfl | hmem
    . exact .inl (toolMeta_isPlain tool)
    . exact .inr ⟨tool, hmem, hall _ (.inr (.inl rfl)), hall _ (.inr (.inr rfl))⟩

theorem lastMessages_plain (x : Crates) (snapshot : SessionSnapshot) (gone : List String) {group : MessageGroup} (h : groupToolIds group = [])
    : lastMessages x snapshot gone group = groupMessages x snapshot group := by
  cases group with
  | single message => rfl
  | subagent tool task => rfl
  | tool tool => contradiction

theorem lastMessages_sublist (x : Crates) (snapshot : SessionSnapshot) (gone : List String) (group : MessageGroup)
    : (lastMessages x snapshot gone group).Sublist (groupMessages x snapshot group) := by
  cases group with
  | single message => exact .refl _
  | subagent tool task => exact .refl _
  | tool tool =>
    dsimp only [lastMessages, groupMessages]
    apply List.Sublist.cons
    apply List.Sublist.cons_cons
    split
    . exact List.nil_sublist _
    . exact .refl _

/--
What is left of a group at last was there before.
-/
theorem lastMessages_sublist_withoutResults {gone gone' : List String} (h : ∀ id ∈ gone', id ∈ gone)
    (group : MessageGroup)
    : (lastMessages x snapshot gone group).Sublist (withoutResults gone' (groupMessages x snapshot group)) := by
  have hself : withoutResults gone' (lastMessages x snapshot gone group) = lastMessages x snapshot gone group := by
    cases groupToolIds_eq_nil_or group with
    | inl hnil =>
      rcases groupMessages_eq_singleton x snapshot hnil with ⟨message, hplain, hmessages⟩
      rw [lastMessages_plain x snapshot gone hnil, hmessages, withoutResults_cons_of_none hplain.2]
      rfl
    | inr htool =>
      rcases htool with ⟨tool, rfl⟩
      dsimp only [lastMessages]
      rw [withoutResults_cons_of_none rfl]
      split
      . rfl
      . next hmem => rw [withoutResults_toolResult, if_neg fun hid => hmem (h _ hid)]
  rw [← hself]
  exact (lastMessages_sublist x snapshot gone group).filter _

/--
The last group of several and what comes after it stay until that group is the first one.
-/
theorem last_sublist {gone gone' : List String} (h : ∀ id ∈ gone', id ∈ gone) (between : List MessageGroup)
    (group : MessageGroup) {kept : List MessageGroup}
    (hkept : withoutResults gone' (groupsMessages x snapshot kept) = groupsMessages x snapshot kept)
    : (lastMessages x snapshot gone group ++ groupsMessages x snapshot kept).Sublist
        (withoutResults gone' (groupsMessages x snapshot (between ++ group :: kept))) := by
  rw [groupsMessages_append, groupsMessages_cons, withoutResults_append, withoutResults_append, hkept]
  exact ((lastMessages_sublist_withoutResults h group).append_right _).trans (List.sublist_append_right _ _)

/-! Rounds over a whole group -/

section

variable (hfits : ∀ messages messages' : List Message, messages.Sublist messages' → fits messages' → fits messages)
include hfits

theorem boundMessages_of_sublist {last : List Message} (hlast : ¬fits last) (hlength : 2 ≤ last.length)
    {oldest : Message} {messages : List Message} (hsublist : last.Sublist (oldest :: messages))
    : boundMessages fits (oldest :: messages)
        = boundMessages fits (removeOldestSnapshotMessageGroup oldest messages) :=
  boundMessages_cons (fun hall => hlast (hfits _ _ hsublist hall)) (Nat.le_trans hlength hsublist.length_le)

/--
A group goes as a whole when what is left of it at last does not fit.
-/
theorem boundMessages_group {last : List Message} (hlast : ¬fits last) (hlength : 2 ≤ last.length) (gone : List String)
    (group : MessageGroup) (groups : List MessageGroup)
    (hsublist : last.Sublist (lastMessages x snapshot gone group
      ++ withoutResults gone (groupsMessages x snapshot groups)))
    : boundMessages fits (withoutResults gone (groupsMessages x snapshot (group :: groups)))
        = boundMessages fits (withoutResults (gone ++ groupToolIds group) (groupsMessages x snapshot groups)) := by
  rw [groupsMessages_cons, withoutResults_append]
  cases groupToolIds_eq_nil_or group with
  | inl hnil =>
    rcases groupMessages_eq_singleton x snapshot hnil with ⟨message, hplain, hmessages⟩
    have hleft := lastMessages_sublist x snapshot gone group
    rw [hmessages] at hleft
    rw [hnil, List.append_nil, hmessages, withoutResults_cons_of_none hplain.2]
    generalize withoutResults gone (groupsMessages x snapshot groups) = rest at hsublist ⊢
    have hround : boundMessages fits (message :: rest)
        = boundMessages fits (removeOldestSnapshotMessageGroup message rest) :=
      boundMessages_of_sublist hfits hlast hlength (hsublist.trans (hleft.append_right rest))
    rw [removeOldest_plain hplain] at hround
    exact hround
  | inr htool =>
    rcases htool with ⟨tool, rfl⟩
    dsimp only [groupMessages, groupToolIds, lastMessages] at hsublist ⊢
    rw [← withoutResults_toolResult] at hsublist
    rw [withoutResults_cons_of_none rfl, withoutResults_cons_of_none rfl]
    rw [← removeOldest_toolCall_result (x := x)]
    rw [List.cons_append] at hsublist ⊢
    rw [List.cons_append]
    generalize withoutResults gone [toolResult x tool]
      ++ withoutResults gone (groupsMessages x snapshot groups) = rest at hsublist ⊢
    have hmeta : boundMessages fits (toolMeta tool :: toolCall tool :: rest)
        = boundMessages fits (removeOldestSnapshotMessageGroup (toolMeta tool) (toolCall tool :: rest)) :=
      boundMessages_of_sublist hfits hlast hlength (hsublist.cons (toolMeta tool))
    have hpair : boundMessages fits (toolCall tool :: rest)
        = boundMessages fits (removeOldestSnapshotMessageGroup (toolCall tool) rest) :=
      boundMessages_of_sublist hfits hlast hlength hsublist
    rw [removeOldest_plain (toolMeta_isPlain tool)] at hmeta
    exact hmeta.trans hpair

/--
The groups that have to go are gone, and the ones that fit are kept.
-/
theorem boundMessages_dropped {kept : List MessageGroup} (hkept : fits (groupsMessages x snapshot kept))
    (before dropped : List MessageGroup)
    (hapart : ∀ id ∈ (before ++ dropped).flatMap groupToolIds, id ∉ kept.flatMap groupToolIds)
    (hlast : ∀ others group, dropped = others ++ [group] →
      ¬fits (lastMessages x snapshot ((before ++ others).flatMap groupToolIds) group ++ groupsMessages x snapshot kept)
        ∧ 2 ≤ (lastMessages x snapshot ((before ++ others).flatMap groupToolIds) group
          ++ groupsMessages x snapshot kept).length)
    : boundMessages fits
        (withoutResults (before.flatMap groupToolIds) (groupsMessages x snapshot (dropped ++ kept)))
        = groupsMessages x snapshot kept := by
  have hbefore : withoutResults (before.flatMap groupToolIds) (groupsMessages x snapshot kept)
      = groupsMessages x snapshot kept := by
    apply withoutResults_groupsMessages
    intro id hid
    apply hapart id
    rw [List.flatMap_append]
    exact List.mem_append_left _ hid
  induction dropped generalizing before with
  | nil =>
    rw [List.nil_append, hbefore]
    exact boundMessages_of_fits hkept
  | cons group dropped ih =>
    have hsnoc : before ++ group :: dropped = (before ++ [group]) ++ dropped := by simp
    have hgone : (before ++ [group]).flatMap groupToolIds = before.flatMap groupToolIds ++ groupToolIds group := by
      simp
    have hnext : withoutResults ((before ++ [group]).flatMap groupToolIds) (groupsMessages x snapshot kept)
        = groupsMessages x snapshot kept := by
      apply withoutResults_groupsMessages
      intro id hid
      apply hapart id
      rw [hsnoc, List.flatMap_append]
      exact List.mem_append_left _ hid
    have hrest := ih (before ++ [group]) (by rwa [← hsnoc]) (by
      intro others last hdropped
      have hthis := hlast (group :: others) last (by rw [hdropped]; rfl)
      rw [show before ++ group :: others = before ++ [group] ++ others by simp] at hthis
      exact hthis) hnext
    rw [← hrest, hgone, List.cons_append]
    rcases List.eq_nil_or_concat dropped with rfl | ⟨others, last, hdropped⟩
    . have hthis := hlast [] group rfl
      rw [List.append_nil] at hthis
      apply boundMessages_group hfits hthis.1 hthis.2
      rw [List.nil_append, hbefore]
    . rw [List.concat_eq_append] at hdropped
      have hthis := hlast (group :: others) last (by rw [hdropped]; rfl)
      apply boundMessages_group hfits hthis.1 hthis.2
      apply List.Sublist.trans _ (List.sublist_append_right _ _)
      rw [hdropped, List.append_assoc, List.singleton_append]
      apply last_sublist _ others last hbefore
      intro id hid
      rw [List.flatMap_append]
      exact List.mem_append_left _ hid

theorem splits_boundMessages {groups dropped kept : List MessageGroup} (h : Splits x snapshot fits groups dropped kept)
    : boundMessages fits (groupsMessages x snapshot groups) = groupsMessages x snapshot kept := by
  have hnone : withoutResults [] (groupsMessages x snapshot groups) = groupsMessages x snapshot groups := by
    apply withoutResults_groupsMessages
    intro id hid
    contradiction
  have hdropped := boundMessages_dropped hfits h.fitting [] dropped h.apart h.last
  rw [← h.split] at hdropped
  rw [← hnone]
  exact hdropped

theorem Splits.keepsWhole {groups dropped kept : List MessageGroup} (h : Splits x snapshot fits groups dropped kept)
    : KeepsWhole x snapshot fits groups (groupsMessages x snapshot kept) where
  fitting := h.fitting
  cut := by
    refine ⟨dropped.length, ?_, ?_⟩
    . rw [h.split, List.drop_left]
    . intro j hj hall
      rcases List.eq_nil_or_concat dropped with rfl | ⟨others, last, hdropped⟩
      . contradiction
      . rw [List.concat_eq_append] at hdropped
        apply (h.last others last hdropped).1
        apply hfits _ _ _ hall
        rw [hdropped, List.length_append, List.length_singleton] at hj
        rw [h.split, hdropped, List.append_assoc, List.drop_append_of_le_length (by omega), groupsMessages_append]
        apply List.Sublist.trans _ (List.sublist_append_right _ _)
        rw [List.singleton_append, groupsMessages_cons]
        exact (lastMessages_sublist x snapshot _ last).append_right _
  calls := by
    intro message hmessage calls hcalls call hcall
    rcases groupsMessages_pairs x snapshot kept hmessage with hplain | ⟨tool, hself, hpair⟩
    . rw [hplain.1] at hcalls
      contradiction
    . rcases hself with rfl | rfl
      . injection hcalls with hcalls
        rw [← hcalls, List.mem_singleton] at hcall
        exact ⟨toolResult x tool, hpair.2, by rw [hcall]; rfl⟩
      . contradiction
  results := by
    intro result hresult id hid
    rcases groupsMessages_pairs x snapshot kept hresult with hplain | ⟨tool, hself, hpair⟩
    . rw [hplain.2] at hid
      contradiction
    . rcases hself with rfl | rfl
      . contradiction
      . injection hid with hid
        exact ⟨toolCall tool, hpair.1, _, rfl, _, List.mem_singleton_self _, hid⟩

end

/-! Where the rounds stop -/

/--
The rounds stop between two groups, or where only the description of a tool has gone.
-/
structure Stops (x : Crates) (snapshot : SessionSnapshot) (fits : List Message → Bool) (gone : List String)
    (groups dropped kept : List MessageGroup) (result : List Message) : Prop where
  split : groups = dropped ++ kept
  result : result = withoutResults (gone ++ dropped.flatMap groupToolIds) (groupsMessages x snapshot kept)
    ∨ ∃ tool rest, result = toolCall tool :: rest
  last : ∀ before group, dropped = before ++ [group] →
    ∃ last, last = lastMessages x snapshot (gone ++ before.flatMap groupToolIds) group
        ++ withoutResults (gone ++ before.flatMap groupToolIds) (groupsMessages x snapshot kept)
      ∧ ¬fits last ∧ 2 ≤ last.length

variable {gone : List String} {groups dropped kept : List MessageGroup} {result : List Message}

theorem stops_here (x : Crates) (snapshot : SessionSnapshot) (fits : List Message → Bool) (gone : List String) (groups : List MessageGroup)
    : Stops x snapshot fits gone groups [] groups (withoutResults gone (groupsMessages x snapshot groups)) where
  split := rfl
  result := .inl (by rw [List.flatMap_nil, List.append_nil])
  last before group h := by simp at h

theorem Stops.cons {group : MessageGroup}
    (h : Stops x snapshot fits (gone ++ groupToolIds group) groups dropped kept result) {last : List Message}
    (hlast : last = lastMessages x snapshot gone group ++ withoutResults gone (groupsMessages x snapshot groups))
    (hfits : ¬fits last) (hlength : 2 ≤ last.length)
    : Stops x snapshot fits gone (group :: groups) (group :: dropped) kept result where
  split := by rw [h.split, List.cons_append]
  result := by
    rw [List.flatMap_cons, ← List.append_assoc]
    exact h.result
  last before last' heq := by
    cases before with
    | nil =>
      rw [List.nil_append, List.cons.injEq] at heq
      rcases heq with ⟨rfl, rfl⟩
      refine ⟨last, ?_, hfits, hlength⟩
      rw [List.flatMap_nil, List.append_nil, hlast, h.split, List.nil_append]
    | cons first before =>
      rw [List.cons_append, List.cons.injEq] at heq
      rcases heq with ⟨rfl, heq⟩
      rw [List.flatMap_cons, ← List.append_assoc]
      exact h.last before last' heq

theorem boundMessages_stops (x : Crates) (snapshot : SessionSnapshot) (fits : List Message → Bool) (gone : List String) (groups : List MessageGroup)
    : ∃ dropped kept,
        Stops x snapshot fits gone groups dropped kept
          (boundMessages fits (withoutResults gone (groupsMessages x snapshot groups))) := by
  induction groups generalizing gone with
  | nil =>
    refine ⟨[], [], ?_⟩
    have hnil : boundMessages fits [] = [] := by
      rw [boundMessages.eq_def]
      split <;> rfl
    exact hnil.symm ▸ stops_here x snapshot fits gone []
  | cons group groups ih =>
    rcases ih (gone ++ groupToolIds group) with ⟨dropped, kept, hrest⟩
    have hhere := stops_here x snapshot fits gone (group :: groups)
    have hstate := groupsMessages_cons x snapshot group groups
    cases groupToolIds_eq_nil_or group with
    | inl hnil =>
      rcases groupMessages_eq_singleton x snapshot hnil with ⟨message, hplain, hmessages⟩
      have hlast := lastMessages_plain x snapshot gone hnil
      rw [hmessages, List.singleton_append] at hstate
      rw [hstate, withoutResults_cons_of_none hplain.2] at hhere ⊢
      rcases boundMessages_stop_or fits message (withoutResults gone (groupsMessages x snapshot groups))
        with hstop | ⟨hfits, hlength, hround⟩
      . rw [hstop]
        exact ⟨[], group :: groups, hhere⟩
      . refine ⟨group :: dropped, kept, Stops.cons ?_ ?_ hfits hlength⟩
        . rw [hround, removeOldest_plain hplain]
          rw [hnil, List.append_nil] at hrest ⊢
          exact hrest
        . rw [hlast, hmessages]
          rfl
    | inr htool =>
      rcases htool with ⟨tool, rfl⟩
      dsimp only [groupMessages, groupToolIds] at hstate hrest
      rw [List.cons_append, List.cons_append] at hstate
      rw [hstate, withoutResults_cons_of_none rfl, withoutResults_cons_of_none rfl, withoutResults_append] at hhere ⊢
      rw [← removeOldest_toolCall_result (x := x)] at hrest
      have hlast : toolCall tool :: (withoutResults gone [toolResult x tool]
            ++ withoutResults gone (groupsMessages x snapshot groups))
          = lastMessages x snapshot gone (.tool tool) ++ withoutResults gone (groupsMessages x snapshot groups) := by
        dsimp only [lastMessages]
        rw [withoutResults_toolResult, List.cons_append]
      generalize withoutResults gone [toolResult x tool]
        ++ withoutResults gone (groupsMessages x snapshot groups) = rest at hhere hrest hlast ⊢
      rcases boundMessages_stop_or fits (toolMeta tool) (toolCall tool :: rest) with hstop | ⟨_, _, hround⟩
      . rw [hstop]
        exact ⟨[], .tool tool :: groups, hhere⟩
      . rw [hround, removeOldest_plain (toolMeta_isPlain tool)]
        rcases boundMessages_stop_or fits (toolCall tool) rest with hstop | ⟨hfits, hlength, hround⟩
        . rw [hstop]
          exact ⟨[], .tool tool :: groups, ⟨rfl, .inr ⟨tool, rest, rfl⟩, hhere.last⟩⟩
        . rw [hround]
          exact ⟨.tool tool :: dropped, kept, Stops.cons hrest hlast hfits hlength⟩

/--
Where no result is missing, no tool that is kept has the id of one that is gone.
-/
theorem apart_of_calls (x : Crates) (snapshot : SessionSnapshot) {gone : List String} {kept : List MessageGroup}
    (h : ∀ message ∈ withoutResults gone (groupsMessages x snapshot kept), ∀ calls, message.toolCalls = some calls →
      ∀ call ∈ calls, ∃ result ∈ withoutResults gone (groupsMessages x snapshot kept), result.toolCallId = some call.id)
    : ∀ id ∈ gone, id ∉ kept.flatMap groupToolIds := by
  intro id hid hmem
  rw [List.mem_flatMap] at hmem
  rcases hmem with ⟨group, hgroup, hmem⟩
  cases group with
  | single message => contradiction
  | subagent tool task => contradiction
  | tool tool =>
    dsimp only [groupToolIds] at hmem
    rw [List.mem_singleton] at hmem
    have hcall : toolCall tool ∈ withoutResults gone (groupsMessages x snapshot kept) := by
      unfold withoutResults groupsMessages
      rw [List.mem_filter, List.mem_flatMap]
      exact ⟨⟨.tool tool, hgroup, List.mem_cons_of_mem _ List.mem_cons_self⟩, rfl⟩
    rcases h _ hcall _ rfl _ (List.mem_singleton_self _) with ⟨result, hresult, hself⟩
    unfold withoutResults at hresult
    rw [List.mem_filter, hself] at hresult
    simp [← hmem, hid] at hresult

theorem KeepsWhole.splits
    (h : KeepsWhole x snapshot fits groups (boundMessages fits (groupsMessages x snapshot groups)))
    : ∃ dropped kept, Splits x snapshot fits groups dropped kept := by
  have hnone : withoutResults [] (groupsMessages x snapshot groups) = groupsMessages x snapshot groups := by
    apply withoutResults_groupsMessages
    intro id hid
    contradiction
  rcases boundMessages_stops x snapshot fits [] groups with ⟨dropped, kept, hstops⟩
  rw [hnone] at hstops
  rcases hstops.result with hresult | ⟨tool, rest, hresult⟩
  . rw [List.nil_append] at hresult
    rw [hresult] at h
    have hapart := apart_of_calls x snapshot h.calls
    have hfitting := h.fitting
    rw [withoutResults_groupsMessages x snapshot hapart] at hfitting
    refine ⟨dropped, kept, hstops.split, hfitting, hapart, ?_⟩
    intro before group hdropped
    rcases hstops.last before group hdropped with ⟨last, hlast, hleft⟩
    have hbefore : ∀ id ∈ before.flatMap groupToolIds, id ∉ kept.flatMap groupToolIds := by
      intro id hid
      apply hapart id
      rw [hdropped, List.flatMap_append]
      exact List.mem_append_left _ hid
    rw [List.nil_append, withoutResults_groupsMessages x snapshot hbefore] at hlast
    rw [← hlast]
    exact hleft
  . rcases h.cut with ⟨k, hcut, -⟩
    rw [hresult] at hcut
    have hplain := head_groupsMessages x snapshot hcut.symm
    have hcalls := hplain.1
    contradiction

/-! The size of an envelope -/

theorem valuesBytes_cons_le (value : Json) (values : List Json)
    : Json.valuesBytes values ≤ Json.valuesBytes (value :: values) ∧ value.bytes ≤ Json.valuesBytes (value :: values) := by
  cases values with
  | nil =>
    unfold Json.valuesBytes
    omega
  | cons next rest =>
    rw [Json.valuesBytes.eq_def (value :: next :: rest)]
    dsimp only
    omega

theorem valuesBytes_of_sublist {values values' : List Json} (h : values.Sublist values')
    : Json.valuesBytes values ≤ Json.valuesBytes values' := by
  induction h with
  | slnil => exact Nat.le_refl _
  | cons value _ ih => exact Nat.le_trans ih (valuesBytes_cons_le value _).1
  | @cons_cons values values' value hsublist ih =>
    cases values with
    | nil => exact (valuesBytes_cons_le value values').2
    | cons next rest =>
      cases values' with
      | nil => cases hsublist
      | cons next' rest' =>
        rw [Json.valuesBytes.eq_def (value :: next :: rest), Json.valuesBytes.eq_def (value :: next' :: rest')]
        dsimp only
        omega

/--
A value that takes more room makes the object longer.
-/
theorem fieldsBytes_le_of_bytes_le (before : List (String × Json)) (key : String) {value value' : Json}
    (h : value.bytes ≤ value'.bytes) (after : List (String × Json))
    : Json.fieldsBytes (before ++ (key, value) :: after) ≤ Json.fieldsBytes (before ++ (key, value') :: after) := by
  induction before with
  | nil =>
    rw [List.nil_append, List.nil_append, Json.fieldsBytes.eq_def, Json.fieldsBytes.eq_def ((key, value') :: after)]
    cases after with
    | nil =>
      dsimp only
      omega
    | cons field after =>
      dsimp only
      omega
  | cons field before ih =>
    rw [List.cons_append, List.cons_append]
    cases before with
    | nil =>
      rw [List.nil_append, List.nil_append] at ih ⊢
      rw [Json.fieldsBytes.eq_def (field :: (key, value) :: after),
        Json.fieldsBytes.eq_def (field :: (key, value') :: after)]
      dsimp only
      omega
    | cons next before =>
      rw [List.cons_append, List.cons_append] at ih ⊢
      rw [Json.fieldsBytes.eq_def (field :: next :: _), Json.fieldsBytes.eq_def (field :: next :: (before ++ _))]
      dsimp only
      omega

theorem bytes_le_of_sublist (snapshot : SessionSnapshot) (runId : String) (sourceTurnId : Option String)
    (timestamp : String) {messages messages' : List Message} (h : messages.Sublist messages')
    : (snapshotEnvelope snapshot runId sourceTurnId timestamp messages).toJson.bytes
        ≤ (snapshotEnvelope snapshot runId sourceTurnId timestamp messages').toJson.bytes := by
  have hmessages : (Json.array (messages.map Message.toJson)).bytes ≤ (Json.array (messages'.map Message.toJson)).bytes :=
    Nat.add_le_add_left (valuesBytes_of_sublist (h.map Message.toJson)) 2
  unfold MessagesEnvelope.toJson snapshotEnvelope
  dsimp only
  apply Nat.add_le_add_left
  apply fieldsBytes_le_of_bytes_le
  apply Nat.add_le_add_left
  exact fieldsBytes_le_of_bytes_le
    [("rawEvent", .null), ("timestamp", .number timestamp), ("type", .string "MESSAGES_SNAPSHOT"), ("delta", .null),
      ("content", .null), ("snapshot", .null)]
    "messages" hmessages [("event", .null), ("value", .null), ("result", .null)]

theorem fits_of_sublist (snapshot : SessionSnapshot) (runId : String) (sourceTurnId : Option String) (timestamp : String)
    (messages messages' : List Message) (h : messages.Sublist messages')
    (hfits : (snapshotEnvelope snapshot runId sourceTurnId timestamp messages').fits)
    : (snapshotEnvelope snapshot runId sourceTurnId timestamp messages).fits := by
  unfold MessagesEnvelope.fits at hfits ⊢
  rw [decide_eq_true_eq] at hfits ⊢
  exact Nat.le_trans (bytes_le_of_sublist snapshot runId sourceTurnId timestamp h) hfits

/--
Exactly then the messages of the envelope are whole groups: the groups that fit come after ones of which the last does
not fit either without its description.
-/
theorem messagesSnapshotEnvelope_keepsWhole_iff (x : Crates) (snapshot : SessionSnapshot) (runId : String)
    (sourceTurnId : Option String) (timestamp : String)
    : let fits := fun messages => (snapshotEnvelope snapshot runId sourceTurnId timestamp messages).fits
      KeepsWhole x snapshot fits (messageGroups snapshot)
          (messagesSnapshotEnvelope x snapshot runId sourceTurnId timestamp).messages
        ↔
      ∃ dropped kept, Splits x snapshot fits (messageGroups snapshot) dropped kept := by
  intro fits
  have hfits := fits_of_sublist snapshot runId sourceTurnId timestamp
  constructor
  . intro h
    exact KeepsWhole.splits h
  . rintro ⟨dropped, kept, h⟩
    have hkept := h.keepsWhole hfits
    rw [← splits_boundMessages hfits h] at hkept
    exact hkept

/-! A tool with images -/

theorem bytes_le_fieldsBytes {key : String} {value : Json} {fields : List (String × Json)} (h : (key, value) ∈ fields)
    : value.bytes ≤ Json.fieldsBytes fields := by
  induction fields with
  | nil => contradiction
  | cons field fields ih =>
    rw [List.mem_cons] at h
    cases fields with
    | nil =>
      rcases h with rfl | h
      . unfold Json.fieldsBytes
        omega
      . contradiction
    | cons next rest =>
      rw [Json.fieldsBytes.eq_def]
      dsimp only
      rcases h with rfl | h
      . dsimp only
        omega
      . have := ih h
        omega

theorem bytes_le_valuesBytes {value : Json} {values : List Json} (h : value ∈ values)
    : value.bytes ≤ Json.valuesBytes values := by
  induction values with
  | nil => contradiction
  | cons first values ih =>
    rcases List.mem_cons.mp h with rfl | h
    . exact (valuesBytes_cons_le value values).2
    . exact Nat.le_trans (ih h) (valuesBytes_cons_le first values).1

theorem valuesBytes_replicate (n : Nat) (value : Json) : n * value.bytes ≤ Json.valuesBytes (List.replicate n value) := by
  induction n with
  | zero => simp
  | succ n ih =>
    rw [List.replicate_succ]
    cases n with
    | zero => simpa using (valuesBytes_cons_le value []).2
    | succ n =>
      rw [List.replicate_succ] at ih ⊢
      rw [Json.valuesBytes.eq_def]
      dsimp only
      rw [Nat.succ_mul]
      omega

theorem bytes_string (s : String) : (Json.string s).bytes = 2 + (s.toList.map Json.escapedBytes).sum :=
  rfl

theorem bytes_string_replicate (n : Nat) : (Json.string (String.ofList (List.replicate n 'a'))).bytes = 2 + n := by
  have hchar : Json.escapedBytes 'a' = 1 := by decide
  rw [bytes_string, String.toList_ofList, List.map_replicate, List.sum_replicate_nat, hchar, Nat.mul_one]

/--
A value of an object is no longer than the object.
-/
theorem bytes_le_object {key : String} {value : Json} {fields : List (String × Json)} (h : (key, value) ∈ fields)
    : value.bytes ≤ (Json.object fields).bytes :=
  Nat.le_trans (bytes_le_fieldsBytes h) (Nat.le_add_left _ 2)

theorem bytes_le_array {value : Json} {values : List Json} (h : value ∈ values)
    : value.bytes ≤ (Json.array values).bytes :=
  Nat.le_trans (bytes_le_valuesBytes h) (Nat.le_add_left _ 2)

theorem bytes_le_toolMeta (tool : SnapshotTool)
    : (Json.array tool.structuredContent).bytes ≤ (toolMeta tool).toJson.bytes := by
  have hcontent : (Json.array tool.structuredContent).bytes ≤ (toolMeta tool).content.toJson.bytes := by
    unfold toolMeta activityMessage MessageContent.toJson
    exact bytes_le_object
      (List.mem_cons_of_mem _ (List.mem_cons_of_mem _ (List.mem_cons_of_mem _ (List.mem_cons_of_mem _ List.mem_cons_self))))
  unfold Message.toJson
  exact Nat.le_trans hcontent (bytes_le_object (List.mem_append_left _ List.mem_cons_self))

theorem bytes_le_envelope (snapshot : SessionSnapshot) (runId : String) (sourceTurnId : Option String)
    (timestamp : String) {messages : List Message} {message : Message} (h : message ∈ messages)
    : message.toJson.bytes ≤ (snapshotEnvelope snapshot runId sourceTurnId timestamp messages).toJson.bytes := by
  refine Nat.le_trans (bytes_le_array (List.mem_map_of_mem h)) ?_
  unfold snapshotEnvelope MessagesEnvelope.toJson
  refine Nat.le_trans ?_ (bytes_le_object (List.mem_append_right _ List.mem_cons_self))
  exact bytes_le_object
    (List.mem_cons_of_mem _ (List.mem_cons_of_mem _ (List.mem_cons_of_mem _ (List.mem_cons_of_mem _
      (List.mem_cons_of_mem _ (List.mem_cons_of_mem _ List.mem_cons_self))))))

def imagePart (data : String) : Json :=
  .object
    [("type", .string "content"),
      ("content", .object [("type", .string "image"), ("mimeType", .string "image/png"), ("data", .string data)])]

theorem bytes_le_imagePart (data : String) : (Json.string data).bytes ≤ (imagePart data).bytes := by
  have hdata : ("data", Json.string data)
      ∈ [("type", .string "image"), ("mimeType", .string "image/png"), ("data", .string data)] := by simp
  exact Nat.le_trans (bytes_le_object hdata) (bytes_le_object (List.mem_cons_of_mem _ List.mem_cons_self))

/--
A tool that has read some images.
-/
def imageTool (data : String) : SnapshotTool :=
  { id := "c"
    generation := some 1
    kind := .read
    status := .completed
    title := "Read"
    content := ""
    structuredContent := List.replicate 16 (imagePart data)
    locations := []
    truncated := false
    subagent := false }

def imageSnapshot (data : String) : SessionSnapshot :=
  { agentId := "a"
    threadId := "t"
    tools := ({} : Std.TreeMap String SnapshotTool).insert "c" (imageTool data)
    timeline := [{ sequence := 0, kind := .tool, canonicalId := "c" }] }

theorem messageGroups_imageSnapshot (data : String) : messageGroups (imageSnapshot data) = [.tool (imageTool data)] := by
  have htask : (snapshotTask (imageSnapshot data) (imageTool data)).isSome = false := rfl
  have hkind : isSubagentTaskTool .read "Read" = false := by decide +kernel
  have htool : (imageSnapshot data).tools["c"]? = some (imageTool data) := Std.TreeMap.getElem?_insert_self
  have hentry : entryGroup (imageSnapshot data) { sequence := 0, kind := .tool, canonicalId := "c" }
      = some (.tool (imageTool data)) := by
    unfold entryGroup
    dsimp only
    rw [htool, Option.map_some]
    apply congrArg some
    apply if_neg
    have hsubagent : (imageTool data).subagent = false := rfl
    rw [htask, hsubagent, Bool.false_or, Bool.false_or, Bool.not_eq_true]
    exact hkind
  unfold messageGroups
  change [_].filterMap _ = _
  rw [List.filterMap_cons, hentry, List.filterMap_nil]

/--
The description of the tool alone is too long.
-/
theorem not_fits_imageTool (x : Crates) {data : String} {n : Nat} (hmax : MESSAGES_SNAPSHOT_MAX_BYTES < 16 * n)
    (hdata : n ≤ (Json.string data).bytes)
    : ¬(snapshotEnvelope (imageSnapshot data) "r" none "1.0"
        (groupMessages x (imageSnapshot data) (.tool (imageTool data)))).fits := by
  have hpart : n ≤ (imagePart data).bytes := Nat.le_trans hdata (bytes_le_imagePart data)
  have hparts : 16 * n ≤ Json.valuesBytes (List.replicate 16 (imagePart data)) :=
    Nat.le_trans (Nat.mul_le_mul_left 16 hpart) (valuesBytes_replicate 16 (imagePart data))
  have harray : 16 * n ≤ (Json.array (List.replicate 16 (imagePart data))).bytes :=
    Nat.le_trans hparts (Nat.le_add_left _ 2)
  have hmeta : 16 * n ≤ (toolMeta (imageTool data)).toJson.bytes :=
    Nat.le_trans harray (bytes_le_toolMeta (imageTool data))
  unfold MessagesEnvelope.fits
  rw [decide_eq_true_eq, Nat.not_le]
  exact Nat.lt_of_lt_of_le hmax
    (Nat.le_trans hmeta (bytes_le_envelope (imageSnapshot data) "r" none "1.0" List.mem_cons_self))

def imageData : String :=
  String.ofList (List.replicate 16000 'a')

def noHashes : Crates :=
  { sha256 := fun _ => ""
    toText := fun _ => ""
    base64 := fun _ => "" }

/--
Without its description the tool fits, so its call and its result are kept alone.
-/
theorem not_keepsWhole_imageSnapshot
    : ¬KeepsWhole noHashes (imageSnapshot imageData)
        (fun messages => (snapshotEnvelope (imageSnapshot imageData) "r" none "1.0" messages).fits)
        (messageGroups (imageSnapshot imageData))
        (messagesSnapshotEnvelope noHashes (imageSnapshot imageData) "r" none "1.0").messages := by
  have hdata : 16000 ≤ (Json.string imageData).bytes := by
    unfold imageData
    rw [bytes_string_replicate]
    exact Nat.le_add_left _ 2
  have hall := not_fits_imageTool noHashes (by decide +kernel) hdata
  have hrest : (snapshotEnvelope (imageSnapshot imageData) "r" none "1.0"
      [toolCall (imageTool imageData), toolResult noHashes (imageTool imageData)]).fits := by
    decide +kernel
  have hkept : (messagesSnapshotEnvelope noHashes (imageSnapshot imageData) "r" none "1.0").messages
      = [toolCall (imageTool imageData), toolResult noHashes (imageTool imageData)] := by
    have hround : boundMessages (fun messages => (snapshotEnvelope (imageSnapshot imageData) "r" none "1.0" messages).fits)
          (toolMeta (imageTool imageData) ::
            [toolCall (imageTool imageData), toolResult noHashes (imageTool imageData)])
        = _ := boundMessages_cons hall (Nat.le_add_left 2 1)
    rw [removeOldest_plain (toolMeta_isPlain _)] at hround
    unfold messagesSnapshotEnvelope
    rw [messageGroups_imageSnapshot]
    exact hround.trans (boundMessages_of_fits hrest)
  intro h
  rcases h.cut with ⟨k, hcut, -⟩
  rw [hkept, messageGroups_imageSnapshot] at hcut
  have hplain := head_groupsMessages noHashes (imageSnapshot imageData) hcut.symm
  exact absurd hplain.1 (by simp [toolCall])

end AgUi
