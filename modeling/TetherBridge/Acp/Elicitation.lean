import TetherBridge.Data.Json
import TetherBridge.Data.Outcome
import TetherBridge.Data.Text
import Mathlib.Data.List.Basic

/-!
This module contains the forms an agent asks a user to fill in, as `acp/interactions.rs` shows them and checks what
is filled in. An `f64` is the rational number it stands for, unless it stands for none; a `BTreeMap` is the list
of its entries in the order of the keys. What a text matches is decided by other crates, and is a parameter.
-/

namespace Acp

/--
Regular expressions, URLs and dates, as the crates `regex`, `url` and `chrono` read them. A pattern may not be one.
-/
structure TextFormats where
  isMatch : String → String → Option Bool
  isUrl : String → Bool
  isDate : String → Bool
  isDateTime : String → Bool

inductive F64 where
  | nan
  | infinite (negative : Bool)
  | finite (value : Rat)
  deriving DecidableEq, Repr

namespace F64

def isFinite : F64 → Bool
  | .finite _ => true
  | _ => false

/--
The comparison `<`, which is false of anything that is not a number.
-/
def lt : F64 → F64 → Bool
  | .finite a, .finite b => decide (a < b)
  | .infinite true, .infinite true => false
  | .infinite true, .finite _ => true
  | .infinite true, .infinite false => true
  | .finite _, .infinite false => true
  | _, _ => false

end F64

inductive ElicitationContentValue where
  | string (value : String)
  | integer (value : Int)
  | number (value : F64)
  | boolean (value : Bool)
  | stringArray (values : List String)
  deriving DecidableEq, Repr

inductive StringFormat where
  | email
  | uri
  | date
  | dateTime
  | other
  deriving DecidableEq, Repr

structure EnumOption where
  value : String
  title : String
  deriving DecidableEq, Repr

abbrev Meta := List (String × Json)

structure StringPropertySchema where
  title : Option String
  description : Option String
  minLength : Option Nat
  maxLength : Option Nat
  pattern : Option String
  format : Option StringFormat
  default : Option String
  enumValues : Option (List String)
  oneOf : Option (List EnumOption)
  metadata : Option Meta

structure IntegerPropertySchema where
  title : Option String
  description : Option String
  minimum : Option Int
  maximum : Option Int
  default : Option Int
  metadata : Option Meta

structure NumberPropertySchema where
  title : Option String
  description : Option String
  minimum : Option F64
  maximum : Option F64
  default : Option F64
  metadata : Option Meta

structure BooleanPropertySchema where
  title : Option String
  description : Option String
  default : Option Bool
  metadata : Option Meta

inductive MultiSelectItems where
  | string (values : List String)
  | titled (options : List EnumOption)
  | other

structure MultiSelectPropertySchema where
  title : Option String
  description : Option String
  minItems : Option Nat
  maxItems : Option Nat
  items : MultiSelectItems
  default : Option (List String)
  metadata : Option Meta

inductive ElicitationPropertySchema where
  | string (schema : StringPropertySchema)
  | integer (schema : IntegerPropertySchema)
  | number (schema : NumberPropertySchema)
  | boolean (schema : BooleanPropertySchema)
  | array (schema : MultiSelectPropertySchema)
  | other

structure ElicitationSchema where
  properties : List (String × ElicitationPropertySchema)
  required : Option (List String)

abbrev Values := List (String × ElicitationContentValue)

inductive ElicitationFieldKind where
  | string
  | integer
  | number
  | boolean
  | stringArray
  | unsupported
  deriving DecidableEq, Repr

structure ElicitationFieldSummary where
  name : String
  title : Option String
  description : Option String
  kind : ElicitationFieldKind
  required : Bool
  sensitive : Bool
  options : List (String × String)
  default : Option ElicitationContentValue
  deriving DecidableEq, Repr

inductive InteractionError where
  | unknownRequest (requestId : String)
  | invalidPermissionOption (optionId : String)
  | noRejectOption (requestId : String)
  | invalidElicitation (message : String)
  | response (message : String)
  | wrongOwner (requestId : String)
  deriving DecidableEq, Repr

/-! What is shown of a field -/

def isSensitive (name : String) (title description : Option String) (metadata : Option Meta) : Bool :=
  (metadata.any fun metadata =>
    ["secret", "sensitive", "isSecret", "isSensitive"].any fun key =>
      (metadata.lookup key).bind Json.asBool == some true)
  || ([some name, title, description].reduceOption.any fun value =>
    ["secret", "password", "passphrase", "token", "api key"].any fun marker =>
      Text.contains marker.toList (Text.toAsciiLowercase value.toList))

def stringOptions (schema : StringPropertySchema) : List (String × String) :=
  ((schema.oneOf.map fun options => options.map fun option => (option.value, option.title))
    |>.or (schema.enumValues.map fun options => options.map fun option => (option, option)))
    |>.getD []

def itemOptions : MultiSelectItems → List (String × String)
  | .string values => values.map fun option => (option, option)
  | .titled options => options.map fun option => (option.value, option.title)
  | .other => []

def fieldSummary (name : String) (property : ElicitationPropertySchema) (schema : ElicitationSchema)
    : ElicitationFieldSummary :=
  let required := schema.required.any fun required => required.any (· == name)
  let summary (title description : Option String) (kind : ElicitationFieldKind)
      (options : List (String × String)) (default : Option ElicitationContentValue) (metadata : Option Meta) :=
    let sensitive := isSensitive name title description metadata
    { name, title, description, kind, required, sensitive, options,
      default := if sensitive then none else default }
  match property with
  | .string value =>
    summary value.title value.description .string (stringOptions value) (value.default.map .string) value.metadata
  | .integer value => summary value.title value.description .integer [] (value.default.map .integer) value.metadata
  | .number value => summary value.title value.description .number [] (value.default.map .number) value.metadata
  | .boolean value => summary value.title value.description .boolean [] (value.default.map .boolean) value.metadata
  | .array value =>
    summary value.title value.description .stringArray (itemOptions value.items) (value.default.map .stringArray)
      value.metadata
  | .other => summary none none .unsupported [] none none

/-! What is checked of the values -/

def validEmail (value : List Char) : Bool :=
  (Text.splitOnce ['@'] value).any fun (localPart, domain) =>
    !localPart.isEmpty && Text.contains ['.'] domain && !(['.'].isSuffixOf domain)

def invalid {α : Type} (message : String) : Except InteractionError α :=
  .error (.invalidElicitation message)

section Formats

variable (formats : TextFormats)

def hasFormat (value : String) : StringFormat → Bool
  | .email => validEmail value.toList
  | .uri => formats.isUrl value
  | .date => formats.isDate value
  | .dateTime => formats.isDateTime value
  | .other => false

def validateValue (name : String)
    : ElicitationPropertySchema → ElicitationContentValue → Except InteractionError Unit
  | .string schema, .string value =>
    -- the length is cast to an `u32`
    let length := value.length % 2 ^ 32
    if (schema.minLength.any fun min => length < min)
        || (schema.maxLength.any fun max => length > max)
        || (schema.enumValues.any fun options => !options.contains value)
        || (schema.oneOf.any fun options => !options.any fun option => option.value == value)
        || (schema.pattern.any fun pattern => ((formats.isMatch pattern value).map (!·)).getD true)
        || (schema.format.any fun format => !hasFormat formats value format) then
      invalid s!"invalid string field {name}"
    else
      .ok ()
  | .integer schema, .integer value =>
    if (schema.minimum.any fun min => value < min) || (schema.maximum.any fun max => value > max) then
      invalid s!"integer field {name} is out of range"
    else
      .ok ()
  | .number schema, .number value =>
    if !value.isFinite || (schema.minimum.any fun min => value.lt min)
        || (schema.maximum.any fun max => max.lt value) then
      invalid s!"number field {name} is out of range"
    else
      .ok ()
  | .boolean _, .boolean _ => .ok ()
  | .array schema, .stringArray values => do
    let length := values.length
    let validOptions ← match schema.items with
      | .string values => .ok (some values)
      | .titled options =>
        if values.all fun value => options.any fun option => option.value == value then
          .ok none
        else
          invalid s!"array field {name} has an invalid option"
      | .other => invalid s!"array field {name} has unsupported items"
    if (schema.minItems.any fun min => length < min) || (schema.maxItems.any fun max => length > max)
        || (validOptions.any fun options => values.any fun value => !options.contains value) then
      invalid s!"invalid array field {name}"
    else
      .ok ()
  | _, _ => invalid s!"field {name} has the wrong type"

def requireFields (values : Values) : List String → Except InteractionError Unit
  | [] => .ok ()
  | name :: names =>
    if (values.lookup name).isSome then
      requireFields values names
    else
      invalid s!"missing required field {name}"

def validateFields (schema : ElicitationSchema) : Values → Except InteractionError Unit
  | [] => .ok ()
  | (name, value) :: values => do
    match schema.properties.lookup name with
    | none => invalid s!"unknown field {name}"
    | some property => validateValue formats name property value
    validateFields schema values

def validateElicitation (schema : ElicitationSchema) (values : Values) : Except InteractionError Unit := do
  requireFields values (schema.required.getD [])
  validateFields formats schema values

end Formats

end Acp
