/-
**Schemas.**

A schema describes the shape of the values seen at one place of a body.  Beside its shape it may
carry free members, such as a description, which it keeps but does not look at.

Main definitions:

* `ApiScribe.Schema` — objects, arrays and scalars; the items of an array that has only been seen
  empty have no schema;
* `ApiScribe.Schema.typeName`, `ApiScribe.Schema.extras` — the word for the shape, and the free
  members;
* `ApiScribe.Schema.toValue` — a schema as data;
* `ApiScribe.Schema.same` — equality up to the order of properties and free members.
-/

import ApiScribe.Data.Value

set_option autoImplicit false

namespace ApiScribe

/-- The kinds of values that are neither objects nor arrays. -/
inductive ScalarKind where
  /-- Texts. -/
  | string
  /-- Numbers. -/
  | number
  /-- Whole numbers that every reader represents exactly. -/
  | integer
  /-- Truth values. -/
  | boolean
  deriving DecidableEq, Repr

/-- The word for a kind. -/
def ScalarKind.name : ScalarKind → String
  | .string => "string"
  | .number => "number"
  | .integer => "integer"
  | .boolean => "boolean"

/-- The kind with a name. -/
def ScalarKind.ofName? (name : String) : Option ScalarKind :=
  [ScalarKind.string, .number, .integer, .boolean].find? (·.name = name)

/-- The shape of a value.  An empty list of required names is the same as none. -/
inductive Schema where
  /-- An object with the schemas of its properties and the names that are always present. -/
  | object (properties : List (String × Schema)) (required : List String)
      (extras : List (String × Value))
  /-- An array with the schema of its items, if one is known. -/
  | array (items : Option Schema) (extras : List (String × Value))
  /-- Any other value. -/
  | scalar (kind : ScalarKind) (extras : List (String × Value))
  deriving Repr

namespace Schema

instance : Inhabited Schema := ⟨scalar .string []⟩

/-- The word for the shape. -/
def typeName : Schema → String
  | object .. => "object"
  | array .. => "array"
  | scalar kind _ => kind.name

/-- The free members. -/
def extras : Schema → Extras
  | object _ _ extras => extras
  | array _ extras => extras
  | scalar _ extras => extras

end Schema

/-! ### Schemas as data -/

/-- The members of an object whose absent ones are shown exactly if `nulls` is set. -/
def shownMembers (nulls : Bool) (ms : Members String Value) : Members String Value :=
  if nulls then ms else ms.filter fun m => !m.2.isNull

mutual

/-- A schema as data: its type, its shape and its free members.  `nulls` says whether absent
members are shown. -/
def Schema.toValue (nulls : Bool) : Schema → Value
  | .object properties required extras =>
    .object (shownMembers nulls
      ([("type", .text "object"),
        ("properties", .object (propertiesToMembers nulls properties)),
        ("required", if required.isEmpty then .null else .list (required.map .text))]
        ++ extras))
  | .array none extras =>
    .object (shownMembers nulls
      ([("type", .text "array"), ("items", .object [])] ++ extras))
  | .array (some items) extras =>
    .object (shownMembers nulls
      ([("type", .text "array"), ("items", items.toValue nulls)] ++ extras))
  | .scalar kind extras =>
    .object (shownMembers nulls ([("type", .text kind.name)] ++ extras))

/-- Properties as the members of an object. -/
def propertiesToMembers (nulls : Bool) : List (String × Schema) → Members String Value
  | [] => []
  | (name, schema) :: rest => (name, schema.toValue nulls) :: propertiesToMembers nulls rest

end

/-! ### Equality -/

mutual

/-- Equality up to the order of properties and free members. -/
def Schema.same : Schema → Schema → Bool
  | .object ps req ex, .object ps' req' ex' =>
    ps.length == ps'.length && sameProperties ps ps' && req == req' && Extras.same ex ex'
  | .array none ex, .array none ex' => Extras.same ex ex'
  | .array (some s) ex, .array (some s') ex' => s.same s' && Extras.same ex ex'
  | .scalar kind ex, .scalar kind' ex' => kind == kind' && Extras.same ex ex'
  | _, _ => false

/-- Whether every property of the first list is in the second one with the same schema. -/
def sameProperties : List (String × Schema) → Members String Schema → Bool
  | [], _ => true
  | (name, s) :: rest, ps' =>
    (match ps'.get? name with
      | some s' => s.same s'
      | none => false) && sameProperties rest ps'

end

end ApiScribe
