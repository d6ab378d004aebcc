import TetherBridge.Acp.Elicitation

/-!
This module contains which values a form accepts: those that have every required field, only fields of the form, and
in each field what its schema asks for.
-/

namespace Acp

variable {formats : TextFormats}

structure AcceptsString (formats : TextFormats) (schema : StringPropertySchema) (value : String) : Prop where
  min : ∀ min ∈ schema.minLength, min ≤ value.length % 2 ^ 32
  max : ∀ max ∈ schema.maxLength, value.length % 2 ^ 32 ≤ max
  oneOfValues : ∀ values ∈ schema.enumValues, value ∈ values
  oneOfOptions : ∀ options ∈ schema.oneOf, value ∈ options.map (·.value)
  pattern : ∀ pattern ∈ schema.pattern, formats.isMatch pattern value = some true
  format : ∀ format ∈ schema.format, hasFormat formats value format

structure AcceptsInteger (schema : IntegerPropertySchema) (value : Int) : Prop where
  min : ∀ min ∈ schema.minimum, min ≤ value
  max : ∀ max ∈ schema.maximum, value ≤ max

/--
A bound that is not a number bounds nothing.
-/
structure AcceptsNumber (schema : NumberPropertySchema) (value : F64) : Prop where
  finite : ∃ q, value = .finite q
  min : ∀ min ∈ schema.minimum, value.lt min = false
  max : ∀ max ∈ schema.maximum, max.lt value = false

def MultiSelectItems.values : MultiSelectItems → List String
  | .string values => values
  | .titled options => options.map (·.value)
  | .other => []

structure AcceptsArray (schema : MultiSelectPropertySchema) (values : List String) : Prop where
  known : schema.items ≠ .other
  min : ∀ min ∈ schema.minItems, min ≤ values.length
  max : ∀ max ∈ schema.maxItems, values.length ≤ max
  items : ∀ value ∈ values, value ∈ schema.items.values

def Accepts (formats : TextFormats) : ElicitationPropertySchema → ElicitationContentValue → Prop
  | .string schema, .string value => AcceptsString formats schema value
  | .integer schema, .integer value => AcceptsInteger schema value
  | .number schema, .number value => AcceptsNumber schema value
  | .boolean _, .boolean _ => True
  | .array schema, .stringArray values => AcceptsArray schema values
  | _, _ => False

structure Conforms (formats : TextFormats) (schema : ElicitationSchema) (values : Values) : Prop where
  required : ∀ required ∈ schema.required, ∀ name ∈ required, (values.lookup name).isSome
  fields : ∀ field ∈ values, ∃ property, schema.properties.lookup field.1 = some property
    ∧ Accepts formats property field.2

section Parts

variable {ε : Type u}

theorem ite_error_eq_ok_iff {b : Bool} {e : ε} {a : α}
    : (if b then Except.error e else .ok a) = Except.ok a ↔ b = false := by
  cases b <;> simp

theorem any_eq_false_iff {o : Option α} {p : α → Bool} : o.any p = false ↔ ∀ a ∈ o, p a = false := by
  cases o <;> simp

end Parts

theorem acceptsString_iff {schema : StringPropertySchema} {value : String} (name : String)
    : validateValue formats name (.string schema) (.string value) = .ok ()
        ↔
      AcceptsString formats schema value := by
  unfold validateValue invalid
  dsimp only
  rw [ite_error_eq_ok_iff]
  simp only [Bool.or_eq_false_iff, any_eq_false_iff]
  constructor
  . rintro ⟨⟨⟨⟨⟨hmin, hmax⟩, hvalues⟩, hoptions⟩, hpattern⟩, hformat⟩
    refine ⟨?_, ?_, ?_, ?_, ?_, ?_⟩
    . intro min h
      exact Nat.le_of_not_lt (of_decide_eq_false (hmin min h))
    . intro max h
      exact Nat.le_of_not_lt (of_decide_eq_false (hmax max h))
    . intro values h
      simpa using hvalues values h
    . intro options h
      simpa using hoptions options h
    . intro pattern h
      have hmatch := hpattern pattern h
      cases hresult : formats.isMatch pattern value with
      | none => simp [hresult] at hmatch
      | some result => simpa [hresult] using hmatch
    . intro format h
      simpa using hformat format h
  . rintro ⟨hmin, hmax, hvalues, hoptions, hpattern, hformat⟩
    refine ⟨⟨⟨⟨⟨?_, ?_⟩, ?_⟩, ?_⟩, ?_⟩, ?_⟩
    . intro min h
      exact decide_eq_false (Nat.not_lt_of_le (hmin min h))
    . intro max h
      exact decide_eq_false (Nat.not_lt_of_le (hmax max h))
    . intro values h
      simpa using hvalues values h
    . intro options h
      simpa using hoptions options h
    . intro pattern h
      simp [hpattern pattern h]
    . intro format h
      simpa using hformat format h

theorem acceptsInteger_iff {schema : IntegerPropertySchema} {value : Int} (name : String)
    : validateValue formats name (.integer schema) (.integer value) = .ok ()
        ↔
      AcceptsInteger schema value := by
  unfold validateValue invalid
  dsimp only
  rw [ite_error_eq_ok_iff]
  simp only [Bool.or_eq_false_iff, any_eq_false_iff, decide_eq_false_iff_not, Int.not_lt]
  constructor
  . rintro ⟨hmin, hmax⟩
    exact ⟨hmin, hmax⟩
  . rintro ⟨hmin, hmax⟩
    exact ⟨hmin, hmax⟩

theorem F64.isFinite_iff {value : F64} : value.isFinite = true ↔ ∃ q, value = .finite q := by
  cases value <;> simp [isFinite]

theorem acceptsNumber_iff {schema : NumberPropertySchema} {value : F64} (name : String)
    : validateValue formats name (.number schema) (.number value) = .ok ()
        ↔
      AcceptsNumber schema value := by
  unfold validateValue invalid
  dsimp only
  rw [ite_error_eq_ok_iff]
  simp only [Bool.or_eq_false_iff, any_eq_false_iff, Bool.not_eq_false', F64.isFinite_iff]
  constructor
  . rintro ⟨⟨hfinite, hmin⟩, hmax⟩
    exact ⟨hfinite, hmin, hmax⟩
  . rintro ⟨hfinite, hmin, hmax⟩
    exact ⟨⟨hfinite, hmin⟩, hmax⟩

theorem acceptsArray_iff {schema : MultiSelectPropertySchema} {values : List String} (name : String)
    : validateValue formats name (.array schema) (.stringArray values) = .ok ()
        ↔
      AcceptsArray schema values := by
  have hbounds : ∀ options : Option (List String),
      ((schema.minItems.any fun min => values.length < min) || (schema.maxItems.any fun max => values.length > max)
          || (options.any fun options => values.any fun value => !options.contains value)) = false
        ↔
      (∀ min ∈ schema.minItems, min ≤ values.length) ∧ (∀ max ∈ schema.maxItems, values.length ≤ max)
        ∧ ∀ list ∈ options, ∀ value ∈ values, value ∈ list := by
    intro options
    simp [any_eq_false_iff, and_assoc]
  unfold validateValue
  dsimp only
  cases hitems : schema.items with
  | string list =>
    dsimp only [bind, Except.bind, invalid]
    rw [ite_error_eq_ok_iff, hbounds]
    constructor
    . rintro ⟨hmin, hmax, hvalues⟩
      refine ⟨by simp [hitems], hmin, hmax, ?_⟩
      intro value hvalue
      rw [hitems]
      exact hvalues list rfl value hvalue
    . rintro ⟨-, hmin, hmax, hvalues⟩
      refine ⟨hmin, hmax, ?_⟩
      rintro _ ⟨⟩ value hvalue
      have := hvalues value hvalue
      rwa [hitems] at this
  | titled options =>
    dsimp only [bind, Except.bind, invalid]
    have hall : (values.all fun value => options.any fun option => option.value == value) = true
        ↔ ∀ value ∈ values, value ∈ schema.items.values := by
      simp [hitems, MultiSelectItems.values]
    by_cases h : ∀ value ∈ values, value ∈ schema.items.values
    . rw [if_pos (hall.mpr h), ite_error_eq_ok_iff, hbounds]
      constructor
      . rintro ⟨hmin, hmax, -⟩
        exact ⟨by simp [hitems], hmin, hmax, h⟩
      . rintro ⟨-, hmin, hmax, -⟩
        exact ⟨hmin, hmax, by rintro _ ⟨⟩⟩
    . rw [if_neg (fun hvalues => h (hall.mp hvalues))]
      constructor
      . intro hcontra
        contradiction
      . rintro ⟨-, -, -, hvalues⟩
        exact absurd hvalues h
  | other =>
    dsimp only [bind, Except.bind, invalid]
    constructor
    . intro hcontra
      contradiction
    . rintro ⟨hknown, -, -, -⟩
      exact absurd hitems hknown

/--
What is checked of the value of a field is what its schema asks for.
-/
theorem validateValue_eq_ok_iff (name : String) (property : ElicitationPropertySchema)
    (value : ElicitationContentValue)
    : validateValue formats name property value = .ok () ↔ Accepts formats property value := by
  cases property with
  | string schema =>
    cases value with
    | string value => exact acceptsString_iff name
    | _ => simp [validateValue, invalid, Accepts]
  | integer schema =>
    cases value with
    | integer value => exact acceptsInteger_iff name
    | _ => simp [validateValue, invalid, Accepts]
  | number schema =>
    cases value with
    | number value => exact acceptsNumber_iff name
    | _ => simp [validateValue, invalid, Accepts]
  | boolean schema =>
    cases value with
    | boolean value => simp [validateValue, Accepts]
    | _ => simp [validateValue, invalid, Accepts]
  | array schema =>
    cases value with
    | stringArray values => exact acceptsArray_iff name
    | _ => simp [validateValue, invalid, Accepts]
  | other => cases value <;> simp [validateValue, invalid, Accepts]

theorem requireFields_eq_ok_iff {values : Values} {names : List String}
    : requireFields values names = .ok () ↔ ∀ name ∈ names, (values.lookup name).isSome := by
  induction names with
  | nil => simp [requireFields]
  | cons name names ih =>
    rw [requireFields, List.forall_mem_cons]
    by_cases h : (values.lookup name).isSome
    . rw [if_pos h, ih]
      exact ⟨fun hrest => ⟨h, hrest⟩, And.right⟩
    . rw [if_neg h]
      constructor
      . intro hcontra
        contradiction
      . intro hrest
        exact absurd hrest.1 h

theorem validateFields_eq_ok_iff {schema : ElicitationSchema} {values : Values}
    : validateFields formats schema values = .ok ()
        ↔
      ∀ field ∈ values, ∃ property, schema.properties.lookup field.1 = some property
        ∧ Accepts formats property field.2 := by
  induction values with
  | nil => simp [validateFields]
  | cons field values ih =>
    rcases field with ⟨name, value⟩
    rw [validateFields, List.forall_mem_cons]
    cases hlookup : schema.properties.lookup name with
    | none =>
      constructor
      . intro hcontra
        contradiction
      . rintro ⟨⟨property, hproperty, -⟩, -⟩
        contradiction
    | some property =>
      dsimp only
      rw [Except.bind_eq_ok]
      constructor
      . rintro ⟨_, hvalue, hrest⟩
        exact ⟨⟨property, rfl, (validateValue_eq_ok_iff name property value).mp hvalue⟩, ih.mp hrest⟩
      . rintro ⟨⟨found, hfound, haccepts⟩, hrest⟩
        cases hfound
        exact ⟨(), (validateValue_eq_ok_iff name property value).mpr haccepts, ih.mpr hrest⟩

theorem validateElicitation_eq_ok_iff {schema : ElicitationSchema} {values : Values}
    : validateElicitation formats schema values = .ok () ↔ Conforms formats schema values := by
  unfold validateElicitation
  rw [Except.bind_eq_ok]
  have hrequired : requireFields values (schema.required.getD []) = .ok ()
      ↔ ∀ required ∈ schema.required, ∀ name ∈ required, (values.lookup name).isSome := by
    rw [requireFields_eq_ok_iff]
    cases schema.required <;> simp
  constructor
  . rintro ⟨_, hnames, hfields⟩
    exact ⟨hrequired.mp hnames, validateFields_eq_ok_iff.mp hfields⟩
  . rintro ⟨hnames, hfields⟩
    exact ⟨(), hrequired.mpr hnames, validateFields_eq_ok_iff.mpr hfields⟩

/--
What a user is shown of a field never has the default of a sensitive one.
-/
theorem fieldSummary_default (name : String) (property : ElicitationPropertySchema) (schema : ElicitationSchema)
    (h : (fieldSummary name property schema).sensitive = true)
    : (fieldSummary name property schema).default = none := by
  unfold fieldSummary at h ⊢
  cases property <;> exact if_pos h

/--
The options that a user is shown for a list are the ones that are accepted.
-/
theorem options_array (name : String) (schema : MultiSelectPropertySchema) (form : ElicitationSchema)
    : (fieldSummary name (.array schema) form).options.map (·.1) = schema.items.values := by
  cases hitems : schema.items with
  | string values =>
    simp only [fieldSummary, itemOptions, hitems, MultiSelectItems.values, List.map_map]
    exact List.map_id values
  | titled options => simp [fieldSummary, itemOptions, hitems, MultiSelectItems.values]
  | other => simp [fieldSummary, itemOptions, hitems, MultiSelectItems.values]

end Acp
