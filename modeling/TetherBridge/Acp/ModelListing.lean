import TetherBridge.Acp.ModelCatalog

/-!
This module contains which listings of models `parse_opencode_model_catalog` reads back.
-/

namespace Acp

open Text

/-! Listings -/

/--
A model of a listing: its line `provider/model`, and the lines of its object.
-/
structure ListedModel where
  header : List Char
  object : List (List Char)

/--
A line without line breaks.
-/
def Unbroken (line : List Char) : Prop :=
  '\n' ∉ line ∧ '\r' ∉ line

instance (line : List Char) : Decidable (Unbroken line) :=
  inferInstanceAs (Decidable ('\n' ∉ line ∧ '\r' ∉ line))

namespace ListedModel

def lines (model : ListedModel) : List (List Char) :=
  model.header :: model.object

structure WellFormed (model : ListedModel) : Prop where
  header : opensObject model.header = false
  object : ∃ first more, model.object = first :: more ∧ opensObject first = true
  lines : ∀ line ∈ model.lines, Unbroken line

end ListedModel

def listing (ending : List Char) (models : List ListedModel) : List BrokenLine :=
  endLines ending (models.flatMap (·.lines))

def ListedModel.text (ending : List Char) (model : ListedModel) : List Char :=
  objectText (endLines ending model.object)

/--
Counted line by line, all braces that were opened are closed after the last line, and not before.
-/
def Closes (depth : Nat) : List (List Char) → Prop
  | [] => False
  | [line] => countBraces depth line = 0
  | line :: rest => countBraces depth line ≠ 0 ∧ Closes (countBraces depth line) rest

def braces (brace : Char) (lines : List (List Char)) : Nat :=
  (lines.map (·.count brace)).sum

theorem count_trim {brace : Char} (hbrace : isWhitespace brace = false) (line : List Char)
    : (trim line).count brace = line.count brace := by
  have hdrop : ∀ line : List Char, (line.dropWhile isWhitespace).count brace = line.count brace := by
    intro line
    induction line with
    | nil => rfl
    | cons c line ih =>
      rw [List.dropWhile_cons]
      split
      . next hblank =>
        have hne : c ≠ brace := by
          rintro rfl
          rw [hbrace] at hblank
          contradiction
        rw [ih, List.count_cons_of_ne hne]
      . rfl
  unfold trim
  rw [List.count_reverse, hdrop, List.count_reverse, hdrop]

theorem countBraces_eq (depth : Nat) (line : List Char)
    : countBraces depth line = depth + line.count '{' - line.count '}' := by
  unfold countBraces
  rw [count_trim (by decide), count_trim (by decide)]

/--
The lines before the last one open more braces than they close, and all lines together do not, wherever the braces
stand.
-/
theorem closes_iff (depth : Nat) (object : List (List Char))
    : Closes depth object
        ↔
      object ≠ []
        ∧ (∀ before after, object = before ++ after → before ≠ [] → after ≠ []
          → braces '}' before < depth + braces '{' before)
        ∧ depth + braces '{' object ≤ braces '}' object := by
  induction object generalizing depth with
  | nil => simp [Closes]
  | cons line object ih =>
    have hbraces : ∀ brace lines, braces brace (line :: lines) = line.count brace + braces brace lines := by
      intro brace lines
      simp [braces]
    cases object with
    | nil =>
      unfold Closes
      rw [countBraces_eq]
      have hnil : ∀ brace, braces brace [] = 0 := fun _ => rfl
      have hsplit : ∀ before after : List (List Char), [line] = before ++ after → before ≠ [] → after ≠ []
          → braces '}' before < depth + braces '{' before := by
        intro before after heq hbefore hafter
        have hlength := congrArg List.length heq
        have hpos := List.length_pos_iff.mpr hbefore
        have hpos' := List.length_pos_iff.mpr hafter
        rw [List.length_append, List.length_singleton] at hlength
        omega
      rw [hbraces, hbraces, hnil, hnil]
      constructor
      . intro hzero
        exact ⟨List.cons_ne_nil _ _, hsplit, by omega⟩
      . rintro ⟨-, -, hle⟩
        omega
    | cons next object =>
      unfold Closes
      rw [ih, countBraces_eq, hbraces, hbraces]
      constructor
      . rintro ⟨hopen, -, hbefore, htotal⟩
        refine ⟨List.cons_ne_nil _ _, ?_, by omega⟩
        intro before after heq hne hafter
        cases before with
        | nil => contradiction
        | cons first before =>
          rw [List.cons_append, List.cons.injEq] at heq
          rcases heq with ⟨rfl, heq⟩
          rw [hbraces, hbraces]
          cases before with
          | nil =>
            have hnil : ∀ brace, braces brace [] = 0 := fun _ => rfl
            rw [hnil, hnil]
            omega
          | cons second before =>
            have hlt := hbefore (second :: before) after heq (List.cons_ne_nil _ _) hafter
            omega
      . rintro ⟨-, hbefore, htotal⟩
        have hfirst := hbefore [line] (next :: object) rfl (List.cons_ne_nil _ _) (List.cons_ne_nil _ _)
        have hone : ∀ brace, braces brace [line] = line.count brace := by
          intro brace
          simp [braces]
        rw [hone, hone] at hfirst
        refine ⟨by omega, List.cons_ne_nil _ _, ?_, by omega⟩
        intro before after heq hne hafter
        have hlt := hbefore (line :: before) after (by rw [heq, List.cons_append]) (List.cons_ne_nil _ _) hafter
        rw [hbraces, hbraces] at hlt
        omega

theorem takeObject_endLines_iff {ending : List Char} {depth : Nat} {object : List (List Char)}
    {rest after : List BrokenLine}
    : takeObject depth (endLines ending object ++ rest) = some (endLines ending object, after)
        ↔
      Closes depth object ∧ after = rest := by
  induction object generalizing depth with
  | nil =>
    constructor
    . intro h
      exact absurd rfl (of_takeObject h).2
    . rintro ⟨hcloses, -⟩
      exact hcloses.elim
  | cons line object ih =>
    have hlines : endLines ending (line :: object) = ⟨line, ending⟩ :: endLines ending object := rfl
    rw [hlines, List.cons_append, takeObject]
    cases object with
    | nil =>
      unfold Closes
      by_cases hzero : countBraces depth line = 0
      . rw [if_pos hzero]
        simp [endLines, hzero, eq_comm]
      . rw [if_neg hzero, Option.map_eq_some_iff]
        refine iff_of_false ?_ fun h => hzero h.1
        rintro ⟨⟨found, more⟩, hfound, heq⟩
        simp only [Prod.mk.injEq, List.cons.injEq, true_and] at heq
        have hne := (of_takeObject hfound).2
        rw [heq.1] at hne
        exact hne rfl
    | cons next object =>
      unfold Closes
      by_cases hzero : countBraces depth line = 0
      . rw [if_pos hzero]
        refine iff_of_false ?_ fun h => h.1.1 hzero
        simp [endLines]
      . rw [if_neg hzero, and_assoc, ← ih, Option.map_eq_some_iff]
        constructor
        . rintro ⟨⟨found, more⟩, hfound, heq⟩
          simp only [Prod.mk.injEq, List.cons.injEq, true_and] at heq
          rcases heq with ⟨rfl, rfl⟩
          exact ⟨hzero, hfound⟩
        . rintro ⟨-, hfound⟩
          exact ⟨_, hfound, rfl⟩

theorem takeObject_of_closes {depth : Nat} {object : List (List Char)} (h : Closes depth object) (ending : List Char)
    (rest : List BrokenLine)
    : takeObject depth (endLines ending object ++ rest) = some (endLines ending object, rest) :=
  takeObject_endLines_iff.mpr ⟨h, rfl⟩

/--
The objects of a listing are found if each of them is closed by its last line.
-/
theorem objects_listing_iff {ending : List Char} {models : List ListedModel}
    (h : ∀ model ∈ models, model.WellFormed) (previous : List BrokenLine)
    : (objects previous (listing ending models)).map (·.2) = models.map (fun model => endLines ending model.object)
        ↔
      ∀ model ∈ models, Closes 0 model.object := by
  induction models generalizing previous with
  | nil => simp [listing, endLines, objects]
  | cons model models ih =>
    rw [List.forall_mem_cons] at h
    have hlines : listing ending (model :: models)
        = ⟨model.header, ending⟩ :: (endLines ending model.object ++ listing ending models) := by
      unfold listing endLines ListedModel.lines
      simp
    rcases h.1.object with ⟨first, more, hobject, hopens⟩
    have hcons : endLines ending model.object ++ listing ending models
        = ⟨first, ending⟩ :: (endLines ending more ++ listing ending models) := by
      rw [hobject]
      rfl
    rw [hlines, objects_skipped h.1.header, List.map_cons, List.forall_mem_cons]
    have hopens' : opensObject (BrokenLine.mk first ending).content = true := hopens
    cases hfound : takeObject 0 (endLines ending model.object ++ listing ending models) with
    | none =>
      have hnone := objects_unfinished hopens' (hcons ▸ hfound)
        (previous ++ [⟨model.header, ending⟩])
      rw [hcons, hnone]
      refine iff_of_false (by simp) ?_
      rintro ⟨hcloses, -⟩
      rw [takeObject_of_closes hcloses] at hfound
      contradiction
    | some found =>
      rcases found with ⟨object, after⟩
      have hsome := objects_object hopens' (hcons ▸ hfound)
        (previous ++ [⟨model.header, ending⟩])
      rw [hcons, hsome, List.map_cons, List.cons.injEq]
      dsimp only
      constructor
      . rintro ⟨rfl, hrest⟩
        rcases takeObject_endLines_iff.mp hfound with ⟨hcloses, rfl⟩
        exact ⟨hcloses, (ih h.2 _).mp hrest⟩
      . rintro ⟨hcloses, hrest⟩
        rw [takeObject_of_closes hcloses, Option.some.injEq, Prod.mk.injEq] at hfound
        rcases hfound with ⟨rfl, rfl⟩
        exact ⟨rfl, (ih h.2 _).mpr hrest⟩

/--
The texts that the parser hands to the reader of JSON.
-/
def objectSlices (text : List Char) : Option (List (List Char)) :=
  (objects [] (breakLines text)).mapM (sliceOf text)

theorem breakLines_listing {ending : List Char} (hending : ending = lf ∨ ending = crlf) {models : List ListedModel}
    (h : ∀ model ∈ models, model.WellFormed)
    : breakLines (rawText (listing ending models)) = listing ending models := by
  apply breakLines_endLines hending
  intro line hline
  rcases List.mem_flatMap.mp hline with ⟨model, hmodel, hline⟩
  exact (h model hmodel).lines line hline

theorem sliceOf_of_lines {text : List Char} {found : List BrokenLine × List BrokenLine}
    (h : found ∈ objects [] (breakLines text)) (hlf : ∀ line ∈ breakLines text, line.ending = lf)
    : sliceOf text found = some (objectText found.2) := by
  rcases of_mem_objects h with ⟨after, hlines, hne⟩
  rcases List.eq_nil_or_concat found.2 with hnil | ⟨lines, last, hobject⟩
  . contradiction
  rw [List.concat_eq_append] at hobject
  rw [List.nil_append, hobject] at hlines
  have hended : ∀ line ∈ found.1 ++ lines, line.ending = lf := by
    intro line hline
    apply hlf
    rw [hlines]
    simp only [List.mem_append] at hline ⊢
    rcases hline with hline | hline
    . exact .inl (.inl hline)
    . exact .inl (.inr (.inl hline))
  have hoffset : ∀ {lines : List BrokenLine}, (∀ line ∈ lines, line.ending = lf)
      → byteOffset lines = size (rawText lines) := by
    intro lines hlines
    have hcrlfs : crlfs lines = 0 := by
      unfold crlfs
      rw [List.countP_eq_zero]
      intro line hline
      rw [hlines line hline]
      decide
    rw [(byteOffset_ended fun line hline => .inl (hlines line hline)).1, hcrlfs, Nat.sub_zero]
  have hbefore := hoffset fun line hline => hended line (List.mem_append_left _ hline)
  have hwhole := hoffset hended
  have htext : objectText (lines ++ [last]) = rawText lines ++ last.content := by
    unfold objectText
    rw [List.dropLast_concat, List.getLast?_concat]
    rfl
  have hstop : byteOffset (found.1 ++ (lines ++ [last])) - 1
      = size (rawText found.1) + size (rawText lines ++ last.content) := by
    rw [← List.append_assoc, byteOffset_append, byteOffset_singleton, hwhole, rawText_append, size_append, size_append]
    omega
  have hall : text = rawText found.1 ++ (rawText lines ++ last.content) ++ (last.ending ++ rawText after) := by
    have hraw := rawText_breakLines text
    rw [hlines] at hraw
    simp only [rawText_append, rawText_cons, rawText_nil, BrokenLine.raw, List.append_nil, List.append_assoc] at hraw ⊢
    exact hraw.symm
  unfold sliceOf
  rw [hobject, hstop, hbefore, htext]
  conv => lhs; rw [hall]
  exact slice_append _ _ _

theorem mapM_eq_some {α β : Type} {f : α → Option β} {g : α → β} {l : List α} (h : ∀ x ∈ l, f x = some (g x))
    : l.mapM f = some (l.map g) := by
  induction l with
  | nil => rfl
  | cons x l ih =>
    rw [List.forall_mem_cons] at h
    rw [List.mapM_cons, h.1, ih h.2]
    rfl

/--
When all lines end in one byte, the parser takes the objects to stand where they do.
-/
theorem objectSlices_of_lines {text : List Char} (hlf : ∀ line ∈ breakLines text, line.ending = lf)
    : objectSlices text = some ((objects [] (breakLines text)).map fun found => objectText found.2) :=
  mapM_eq_some fun _ hfound => sliceOf_of_lines hfound hlf

/--
The text of an object says what its lines are.
-/
theorem objectText_injective {object object' : List (List Char)} (hne : object ≠ []) (hne' : object' ≠ [])
    (h : ∀ line ∈ object, Unbroken line) (h' : ∀ line ∈ object', Unbroken line)
    (heq : objectText (endLines lf object) = objectText (endLines lf object'))
    : object = object' := by
  have hraw : ∀ {object : List (List Char)}, object ≠ []
      → rawText (endLines lf object) = objectText (endLines lf object) ++ lf := by
    intro object hne
    rcases List.eq_nil_or_concat object with hnil | ⟨lines, last, hobject⟩
    . contradiction
    . have hlines : endLines lf object = endLines lf lines ++ [⟨last, lf⟩] := by
        rw [hobject, List.concat_eq_append]
        exact List.map_append
      unfold objectText
      rw [hlines, List.dropLast_concat, List.getLast?_concat, rawText_append]
      simp [rawText_cons, BrokenLine.raw]
  have hlines : endLines lf object = endLines lf object' := by
    rw [← breakLines_endLines (.inl rfl) h, ← breakLines_endLines (.inl rfl) h', hraw hne, hraw hne', heq]
  have hcontent : ∀ object : List (List Char), (endLines lf object).map (·.content) = object := by
    intro object
    unfold endLines
    rw [List.map_map]
    exact List.map_id object
  rw [← hcontent object, hlines, hcontent]

theorem eq_of_map_eq_map {α β : Type} {P : α → Prop} {f : α → β} (hf : ∀ x y, P x → P y → f x = f y → x = y)
    {l l' : List α} (h : ∀ x ∈ l, P x) (h' : ∀ x ∈ l', P x) (heq : l.map f = l'.map f)
    : l = l' := by
  induction l generalizing l' with
  | nil =>
    rw [List.map_nil, eq_comm, List.map_eq_nil_iff] at heq
    exact heq.symm
  | cons x l ih =>
    cases l' with
    | nil => simp at heq
    | cons y l' =>
      rw [List.map_cons, List.map_cons, List.cons.injEq] at heq
      rw [List.forall_mem_cons] at h h'
      rw [hf x y h.1 h'.1 heq.1, ih h.2 h'.2 heq.2]

theorem objectSlices_lf_iff {models : List ListedModel} (h : ∀ model ∈ models, model.WellFormed)
    : objectSlices (rawText (listing lf models)) = some (models.map (·.text lf))
        ↔
      ∀ model ∈ models, Closes 0 model.object := by
  have hbreak := breakLines_listing (.inl rfl) h
  have hunbroken : ∀ line ∈ models.flatMap (·.lines), Unbroken line := by
    intro line hline
    rcases List.mem_flatMap.mp hline with ⟨model, hmodel, hline⟩
    exact (h model hmodel).lines line hline
  have hmem : ∀ line ∈ listing lf models, line.ending = lf ∧ Unbroken line.content := by
    intro line hline
    rcases List.mem_map.mp hline with ⟨content, hcontent, rfl⟩
    exact ⟨rfl, hunbroken content hcontent⟩
  have hlf : ∀ line ∈ breakLines (rawText (listing lf models)), line.ending = lf := by
    rw [hbreak]
    exact fun line hline => (hmem line hline).1
  rw [objectSlices_of_lines hlf, hbreak, ← @objects_listing_iff lf models h [], Option.some.injEq]
  have hleft : (objects [] (listing lf models)).map (fun found => objectText found.2)
      = ((objects [] (listing lf models)).map (·.2)).map objectText := by
    rw [List.map_map]
    rfl
  have hright : models.map (·.text lf) = (models.map fun model => endLines lf model.object).map objectText := by
    rw [List.map_map]
    rfl
  rw [hleft, hright]
  constructor
  . intro heq
    apply eq_of_map_eq_map (P := fun lines => ∃ object : List (List Char), object ≠ []
      ∧ (∀ line ∈ object, Unbroken line) ∧ lines = endLines lf object) _ _ _ heq
    . rintro _ _ ⟨object, hne, hobject, rfl⟩ ⟨object', hne', hobject', rfl⟩ htext
      rw [objectText_injective hne hne' hobject hobject' htext]
    . intro lines hlines
      rcases List.mem_map.mp hlines with ⟨found, hfound, rfl⟩
      rcases of_mem_objects hfound with ⟨after, hall, hne⟩
      have hsub : ∀ line ∈ found.2, line ∈ listing lf models := by
        intro line hline
        rw [List.nil_append] at hall
        rw [hall]
        simp [hline]
      refine ⟨found.2.map (·.content), by simpa using hne, ?_, ?_⟩
      . intro line hline
        rcases List.mem_map.mp hline with ⟨broken, hbroken, rfl⟩
        exact (hmem broken (hsub broken hbroken)).2
      . unfold endLines
        rw [List.map_map]
        have hself : ∀ line ∈ found.2, ((⟨·, lf⟩ : List Char → BrokenLine) ∘ (·.content)) line = line := by
          intro line hline
          have hending := (hmem line (hsub line hline)).1
          cases line
          simp_all
        exact (List.map_congr_left hself |>.trans (List.map_id' _)).symm
    . intro lines hlines
      rcases List.mem_map.mp hlines with ⟨model, hmodel, rfl⟩
      rcases (h model hmodel).object with ⟨first, more, hobject, -⟩
      refine ⟨model.object, by simp [hobject], ?_, rfl⟩
      intro line hline
      exact (h model hmodel).lines line (List.mem_cons_of_mem _ hline)
  . rintro heq
    rw [heq]

theorem objectText_start (ending first : List Char) (more : List (List Char))
    : ∃ tail, objectText (endLines ending (first :: more)) = first ++ tail := by
  unfold objectText endLines
  cases more with
  | nil => exact ⟨[], by simp⟩
  | cons next more =>
    rw [List.map_cons, List.map_cons, List.dropLast_cons_cons, rawText_cons, BrokenLine.raw, List.append_assoc,
      List.append_assoc]
    exact ⟨_, rfl⟩

/--
When lines end in two bytes, the first object is taken to start at the line feed before it.
-/
theorem objectSlices_crlf {model : ListedModel} {models : List ListedModel}
    (h : ∀ other ∈ model :: models, other.WellFormed)
    : objectSlices (rawText (listing crlf (model :: models))) ≠ some ((model :: models).map (·.text crlf)) := by
  have hbreak := breakLines_listing (.inr rfl) h
  rw [List.forall_mem_cons] at h
  have hlines : listing crlf (model :: models)
      = ⟨model.header, crlf⟩ :: (endLines crlf model.object ++ listing crlf models) := by
    unfold listing endLines ListedModel.lines
    simp
  rcases h.1.object with ⟨first, more, hobject, hopens⟩
  have hcons : endLines crlf model.object ++ listing crlf models
      = ⟨first, crlf⟩ :: (endLines crlf more ++ listing crlf models) := by
    rw [hobject]
    rfl
  unfold objectSlices
  rw [hbreak, hlines, objects_skipped h.1.header, List.map_cons]
  intro heq
  have hopens' : opensObject (BrokenLine.mk first crlf).content = true := hopens
  cases hfound : takeObject 0 (endLines crlf model.object ++ listing crlf models) with
  | none =>
    have hnone := objects_unfinished hopens' (hcons ▸ hfound) ([] ++ [⟨model.header, crlf⟩])
    rw [hcons, hnone] at heq
    simp at heq
  | some found =>
    rcases found with ⟨object, after⟩
    have hsome := objects_object hopens' (hcons ▸ hfound) ([] ++ [⟨model.header, crlf⟩])
    rw [hcons, hsome, List.mapM_cons] at heq
    have hslice : sliceOf (rawText (⟨model.header, crlf⟩ :: (endLines crlf model.object ++ listing crlf models)))
        ([⟨model.header, crlf⟩], object) = some (model.text crlf) := by
      rw [hcons]
      simp only [Option.bind_eq_bind, Option.bind_eq_some_iff, Option.pure_def, Option.some.injEq,
        List.cons.injEq] at heq
      rcases heq with ⟨found, hfound, others, -, rfl, -⟩
      exact hfound
    rcases of_slice hslice with ⟨before, rest, htext, hbefore, -⟩
    have hstart : before = model.header ++ ['\r']
        ∧ model.text crlf ++ rest = '\n' :: rawText (endLines crlf model.object ++ listing crlf models) := by
      refine append_inj_of_size ?_ ?_
      . rw [← List.append_assoc, ← htext, rawText_cons]
        simp [BrokenLine.raw, crlf]
      . rw [hbefore, size_append]
        rfl
    rcases objectText_start crlf first more with ⟨tail, htail⟩
    unfold ListedModel.text at hstart
    rw [hobject, htail] at hstart
    have hbroken := h.1.lines first (by simp [ListedModel.lines, hobject])
    cases first with
    | nil => contradiction
    | cons c first =>
      have hhead := hstart.2
      rw [List.cons_append, List.cons_append, List.cons.injEq] at hhead
      exact hbroken.1 (hhead.1 ▸ List.mem_cons_self)

theorem catalog_perm {models : List HarnessModelCatalogEntry} (h : models.length ≤ MAX_CATALOG_MODELS)
    : (catalog models).Perm models := by
  unfold catalog
  rw [List.take_of_length_le (by simpa using h)]
  exact List.mergeSort_perm _ _

/--
A listing of one model, with its name.
-/
def namedModel (name : List Char) : ListedModel where
  header := ['p', '/', 'm']
  object := [['{'], ['"', 'n', '"', ':', '"'] ++ name ++ ['"'], ['}']]

theorem wellFormed_namedModel {name : List Char} (h : Unbroken name) : (namedModel name).WellFormed where
  header := rfl
  object := ⟨_, _, rfl, rfl⟩
  lines := by
    unfold Unbroken at h
    simp [ListedModel.lines, namedModel, Unbroken, h]

end Acp
