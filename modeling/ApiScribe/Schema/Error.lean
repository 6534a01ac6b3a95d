/-
**Why a schema cannot be built.**

A message shows the schemas that it speaks of as JSON with sorted members.  A schema cannot be shown
if the names somewhere in its free members have no order, such as a text beside a number; then the
cause cannot be reported as what it is, and whoever is prepared for the cause does not meet it.

Main definitions:

* `ApiScribe.SchemaError` — the causes;
* `ApiScribe.SchemaError.message` — what is said about each of them;
* `ApiScribe.Schema.isShowable` — whether a schema can be shown;
* `ApiScribe.SchemaError.isReported` — whether the cause is reported as what it is.
-/

import ApiScribe.Schema.Basic
import ApiScribe.Json.Writer
import ApiScribe.Validation.Issue

set_option autoImplicit false

namespace ApiScribe

/-- One of two schemas that are joined. -/
inductive Side where
  /-- The schema recorded so far. -/
  | first
  /-- The schema of the newest observation. -/
  | second
  deriving DecidableEq, Repr

/-- The word for a side. -/
def Side.name : Side → String
  | .first => "first"
  | .second => "second"

/-- Why a sample has no schema, or two schemas no join. -/
inductive SchemaError where
  /-- A value is of a kind that no schema describes. -/
  | unsupportedValue (value : Value)
  /-- A mapping has names that are not texts. -/
  | invalidNames (issues : List Issue)
  /-- Two schemas differ in type. -/
  | typeMismatch (first second : Schema)
  /-- A name that both sides require is not a property of one of them. -/
  | missingRequired (name : String) (side : Side) (properties : Members String Schema)

/-- A schema as it is shown in a message. -/
def Schema.shown (schema : Schema) : String := Json.text .message (schema.toValue false)

/-- Properties as they are shown in a message. -/
def shownProperties (properties : Members String Schema) : String :=
  Json.text .message (.object (propertiesToMembers false properties))

/-- What is said about the cause; of names that are not texts, how many issues they raise. -/
def SchemaError.message : SchemaError → String
  | .unsupportedValue value =>
    s!"Data type {value.typeName} not supported, value: {value.spell}"
  | .invalidNames issues =>
    let plural := if issues.length = 1 then "" else "s"
    s!"{issues.length} validation error{plural} for ObjectSchema"
  | .typeMismatch first second =>
    let types := s!"{spellText first.typeName} and {spellText second.typeName}"
    s!"The types {types} are not compatible for {first.shown} and {second.shown}"
  | .missingRequired name side properties =>
    let place := s!"within {side.name} properties {shownProperties properties}"
    s!"Missing required key {spellText name} {place}"

/-! ### Causes that can be shown -/

/-- Whether a schema can be shown in a message. -/
def Schema.isShowable (schema : Schema) : Bool := Json.isSortable (schema.toValue false)

/-- Whether the cause is reported as what it is, rather than as issues of data or as a schema that
cannot be shown. -/
def SchemaError.isReported : SchemaError → Bool
  | .unsupportedValue _ => true
  | .invalidNames _ => false
  | .typeMismatch first second => first.isShowable && second.isShowable
  | .missingRequired _ _ properties =>
    Json.isSortable (.object (propertiesToMembers false properties))

end ApiScribe
