import TetherBridge.Mobile.ChatSnapshotCache

/-!
This module contains what leaving payloads out of a chat keeps: the chat is still one, and nothing more is left out when it
is done again.
-/

namespace Mobile

namespace ChatSnapshots

/-! Fields -/

section

variable {key other : String} {f g : Json → Json} {value : Json}

theorem get_mapField_self (key : String) (f : Json → Json) (value : Json)
    : (mapField key f value).get key = (value.get key).map f := by
  cases value with
  | object fields =>
    unfold mapField Json.get
    dsimp only
    induction fields with
    | nil => rfl
    | cons field fields ih =>
      rw [List.map_cons]
      by_cases hkey : field.1 = key
      . rw [if_pos hkey, List.lookup_cons, List.lookup_cons, hkey, beq_self_eq_true]
        rfl
      . have hbeq : (key == field.1) = false := beq_false_of_ne (Ne.symm hkey)
        rw [if_neg hkey, List.lookup_cons, List.lookup_cons, hbeq]
        exact ih
  | _ => rfl

theorem get_mapField_of_ne (h : other ≠ key) (f : Json → Json) (value : Json)
    : (mapField key f value).get other = value.get other := by
  cases value with
  | object fields =>
    unfold mapField Json.get
    dsimp only
    induction fields with
    | nil => rfl
    | cons field fields ih =>
      rw [List.map_cons, List.lookup_cons, List.lookup_cons]
      by_cases hkey : field.1 = key
      . have hbeq : (other == key) = false := beq_false_of_ne h
        rw [if_pos hkey, hkey, hbeq]
        exact ih
      . rw [if_neg hkey, ih]
  | _ => rfl

theorem get_deleteField_self (key : String) (value : Json) : (deleteField key value).get key = none := by
  cases value with
  | object fields =>
    unfold deleteField Json.get
    dsimp only
    rw [List.lookup_eq_none_iff]
    intro field hfield
    rw [List.mem_filter, decide_eq_true_eq] at hfield
    simpa using Ne.symm hfield.2
  | _ => rfl

theorem get_deleteField_of_ne (h : other ≠ key) (value : Json) : (deleteField key value).get other = value.get other := by
  cases value with
  | object fields =>
    unfold deleteField Json.get
    dsimp only
    induction fields with
    | nil => rfl
    | cons field fields ih =>
      rw [List.lookup_cons]
      by_cases hkey : field.1 = key
      . have hbeq : (other == field.1) = false := beq_false_of_ne (hkey ▸ h)
        rw [List.filter_cons_of_neg (by simpa using hkey), hbeq]
        exact ih
      . rw [List.filter_cons_of_pos (by simpa using hkey), List.lookup_cons, ih]
  | _ => rfl

theorem mapField_mapField (key : String) (f g : Json → Json) (value : Json)
    : mapField key f (mapField key g value) = mapField key (f ∘ g) value := by
  cases value with
  | object fields =>
    unfold mapField
    dsimp only
    rw [List.map_map]
    congr 1
    apply List.map_congr_left
    intro field _
    by_cases hkey : field.1 = key <;> simp [hkey]
  | _ => rfl

theorem mapField_comm (h : key ≠ other) (f g : Json → Json) (value : Json)
    : mapField key f (mapField other g value) = mapField other g (mapField key f value) := by
  cases value with
  | object fields =>
    unfold mapField
    dsimp only
    rw [List.map_map, List.map_map]
    congr 1
    apply List.map_congr_left
    intro field _
    by_cases hkey : field.1 = key
    . simp [hkey, h]
    . by_cases hother : field.1 = other
      . simp [hother, Ne.symm h]
      . simp [hkey, hother]
  | _ => rfl

theorem mapArray_mapArray (f g : Json → Json) (value : Json) : mapArray f (mapArray g value) = mapArray (f ∘ g) value := by
  cases value with
  | array values =>
    unfold mapArray
    dsimp only
    rw [List.map_map]
  | _ => rfl

theorem getString_of_get_eq {value value' : Json} (h : value.get key = value'.get key)
    : getString key value = getString key value' := by
  unfold getString
  rw [h]

end

/-! Leaving out what was left out -/

theorem sanitizePartForCache_idem (part : Json)
    : sanitizePartForCache (sanitizePartForCache part) = sanitizePartForCache part := by
  by_cases hmedia : (getString "type" part = some "image" ∨ getString "type" part = some "audio")
      ∧ isOversizedPayload (getString "data" part)
  . have hself : sanitizePartForCache part = deleteField "data" part := if_pos hmedia
    have htype : getString "type" (deleteField "data" part) = getString "type" part :=
      getString_of_get_eq (get_deleteField_of_ne (by decide) part)
    have hdata : getString "data" (deleteField "data" part) = none := by
      unfold getString
      rw [get_deleteField_self]
      rfl
    rw [hself]
    unfold sanitizePartForCache
    rw [htype, hdata, if_neg (by simp [isOversizedPayload]), if_neg]
    rintro ⟨hresource, -⟩
    rcases hmedia.1 with himage | haudio
    . rw [himage] at hresource
      exact absurd hresource (by decide)
    . rw [haudio] at hresource
      exact absurd hresource (by decide)
  . by_cases hresource : getString "type" part = some "resource"
        ∧ isOversizedPayload ((part.get "resource").bind (getString "blob"))
    . have hself : sanitizePartForCache part = mapField "resource" (deleteField "blob") part := by
        unfold sanitizePartForCache
        rw [if_neg hmedia, if_pos hresource]
      have htype : getString "type" (mapField "resource" (deleteField "blob") part) = getString "type" part :=
        getString_of_get_eq (get_mapField_of_ne (by decide) _ part)
      have hblob : ((mapField "resource" (deleteField "blob") part).get "resource").bind (getString "blob") = none := by
        rw [get_mapField_self]
        cases part.get "resource" with
        | none => rfl
        | some resource =>
          rw [Option.map_some, Option.bind_some]
          unfold getString
          rw [get_deleteField_self]
          rfl
      rw [hself]
      unfold sanitizePartForCache
      rw [htype, hblob, hresource.1, if_neg, if_neg (by simp [isOversizedPayload])]
      rintro ⟨himage | haudio, -⟩
      . exact absurd himage (by decide)
      . exact absurd haudio (by decide)
    . have hself : sanitizePartForCache part = part := by
        unfold sanitizePartForCache
        rw [if_neg hmedia, if_neg hresource]
      rw [hself, hself]

/--
What a field of a payload that was too large is replaced by.
-/
def withoutOversized (key : String) (value : Json) : Json :=
  if isOversizedValue (value.get key) then deleteField key value else value

theorem sanitizeToolMetaForCache_eq (toolMeta : Json)
    : sanitizeToolMetaForCache toolMeta = withoutOversized "locations" (withoutOversized "content" toolMeta) := by
  have hlocations : (withoutOversized "content" toolMeta).get "locations" = toolMeta.get "locations" := by
    unfold withoutOversized
    split
    . exact get_deleteField_of_ne (by decide) toolMeta
    . rfl
  unfold sanitizeToolMetaForCache
  rw [withoutOversized, hlocations]
  rfl

theorem isOversizedValue_withoutOversized_self (key : String) (value : Json)
    : isOversizedValue ((withoutOversized key value).get key) = false := by
  unfold withoutOversized
  split
  . rw [get_deleteField_self]
    rfl
  . next hsmall => rwa [Bool.not_eq_true] at hsmall

theorem withoutOversized_eq_self {key : String} {value : Json} (h : isOversizedValue (value.get key) = false)
    : withoutOversized key value = value := by
  unfold withoutOversized
  rw [h]
  rfl

theorem sanitizeToolMetaForCache_idem (toolMeta : Json)
    : sanitizeToolMetaForCache (sanitizeToolMetaForCache toolMeta) = sanitizeToolMetaForCache toolMeta := by
  rw [sanitizeToolMetaForCache_eq toolMeta, sanitizeToolMetaForCache_eq]
  have hcontent : isOversizedValue
      ((withoutOversized "locations" (withoutOversized "content" toolMeta)).get "content") = false := by
    have hget : (withoutOversized "locations" (withoutOversized "content" toolMeta)).get "content"
        = (withoutOversized "content" toolMeta).get "content" := by
      rw [withoutOversized]
      split
      . exact get_deleteField_of_ne (by decide) _
      . rfl
    rw [hget]
    exact isOversizedValue_withoutOversized_self "content" toolMeta
  rw [withoutOversized_eq_self hcontent, withoutOversized_eq_self (isOversizedValue_withoutOversized_self _ _)]

theorem sanitizeMessageForCache_idem (message : Json)
    : sanitizeMessageForCache (sanitizeMessageForCache message) = sanitizeMessageForCache message := by
  have hparts : mapArray sanitizePartForCache ∘ mapArray sanitizePartForCache = mapArray sanitizePartForCache := by
    funext value
    rw [Function.comp_apply, mapArray_mapArray]
    congr 1
    funext part
    exact sanitizePartForCache_idem part
  have hmeta : sanitizeToolMetaForCache ∘ sanitizeToolMetaForCache = sanitizeToolMetaForCache :=
    funext sanitizeToolMetaForCache_idem
  unfold sanitizeMessageForCache
  rw [mapField_comm (show "parts" ≠ "toolMeta" by decide), mapField_mapField, hmeta, mapField_mapField, hparts]

theorem sanitizeChatForCache_idem (chat : Json)
    : sanitizeChatForCache (sanitizeChatForCache chat) = sanitizeChatForCache chat := by
  have hmessages : mapArray sanitizeMessageForCache ∘ mapArray sanitizeMessageForCache
      = mapArray sanitizeMessageForCache := by
    funext value
    rw [Function.comp_apply, mapArray_mapArray]
    congr 1
    funext message
    exact sanitizeMessageForCache_idem message
  unfold sanitizeChatForCache
  rw [mapField_mapField, hmessages]

/-! What is left is a chat -/

theorem isChatMessagePart_sanitizePartForCache (part : Json)
    : isChatMessagePart (sanitizePartForCache part) = isChatMessagePart part := by
  unfold sanitizePartForCache
  split
  . have hget : ∀ key, key ≠ "data" → (deleteField "data" part).get key = part.get key :=
      fun key hkey => get_deleteField_of_ne hkey part
    unfold isChatMessagePart
    rw [getString_of_get_eq (hget "type" (by decide)), hget "text" (by decide), hget "uri" (by decide),
      hget "resource" (by decide)]
  . split
    . have hget : ∀ key, key ≠ "resource" → (mapField "resource" (deleteField "blob") part).get key = part.get key :=
        fun key hkey => get_mapField_of_ne hkey _ part
      unfold isChatMessagePart
      rw [getString_of_get_eq (hget "type" (by decide)), hget "text" (by decide), hget "uri" (by decide),
        get_mapField_self]
      split
      . rfl
      . rfl
      . rfl
      . rfl
      . cases part.get "resource" with
        | none => rfl
        | some resource => cases resource <;> rfl
      . rfl
    . rfl

/--
What is documented of the platform.
-/
structure Platform.Lawful (p : Platform) : Prop where
  localeCompare_trans : ∀ a b c, (p.localeCompare a b).isLE → (p.localeCompare b c).isLE → (p.localeCompare a c).isLE
  localeCompare_total : ∀ a b, (p.localeCompare a b).isLE ∨ (p.localeCompare b a).isLE
  /-- The schema knows neither of the fields, and strips what it does not know. -/
  messageSchema_ignores : ∀ key f message, key ∈ ["parts", "toolMeta"] →
    p.messageSchema (mapField key f message) = p.messageSchema message

variable {p : Platform} (hp : p.Lawful)
include hp

theorem isChatMessage_sanitizeMessageForCache (message : Json)
    : isChatMessage p (sanitizeMessageForCache message) = isChatMessage p message := by
  unfold isChatMessage sanitizeMessageForCache
  rw [hp.messageSchema_ignores _ _ _ (by decide), hp.messageSchema_ignores _ _ _ (by decide),
    get_mapField_of_ne (by decide), get_mapField_of_ne (by decide), get_mapField_of_ne (by decide), get_mapField_self]
  congr 1
  cases message.get "parts" with
  | none => rfl
  | some parts =>
    rw [Option.map_some]
    cases parts with
    | array parts =>
      unfold mapArray
      dsimp only
      rw [List.all_map]
      congr 1
      funext part
      exact isChatMessagePart_sanitizePartForCache part
    | _ => rfl

theorem isChat_sanitizeChatForCache (chat : Json) : isChat p (sanitizeChatForCache chat) = isChat p chat := by
  have hget : ∀ key, key ≠ "messages" → (sanitizeChatForCache chat).get key = chat.get key :=
    fun key hkey => get_mapField_of_ne hkey _ chat
  unfold isChat
  rw [getString_of_get_eq (hget "id" (by decide))]
  congr 1
  . congr 1
    simp only [List.all_cons, List.all_nil]
    rw [hget "title" (by decide), hget "status" (by decide), hget "createdAt" (by decide), hget "updatedAt" (by decide),
      hget "statusUpdatedAt" (by decide), hget "lastMessagePreview" (by decide)]
  . unfold sanitizeChatForCache
    rw [get_mapField_self]
    cases chat.get "messages" with
    | none => rfl
    | some messages =>
      rw [Option.map_some]
      cases messages with
      | array messages =>
        unfold mapArray
        dsimp only
        rw [List.all_map]
        congr 1
        funext message
        exact isChatMessage_sanitizeMessageForCache hp message
      | _ => rfl

omit hp in
theorem getString_sanitizeChatForCache (chat : Json) : getString "id" (sanitizeChatForCache chat) = getString "id" chat :=
  getString_of_get_eq (get_mapField_of_ne (by decide) _ chat)

end ChatSnapshots

end Mobile
