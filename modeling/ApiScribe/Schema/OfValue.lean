/-
**Schemas from data.**

The member `type` tells which kind of schema data denote: `object` and `array` those two, any other
type a scalar.  Data without a type denote the unknown schema of the items of an array that has only
been seen empty; it must not stand elsewhere and must have no members.

Main definitions:

* `ApiScribe.SchemaTag`, `ApiScribe.memberTag` — the kind of schema that data denote;
* `ApiScribe.Schema.ofValue` — a schema from data;
* `ApiScribe.objectOfMembers`, `ApiScribe.arrayOfMembers`, `ApiScribe.scalarOfMembers` — a schema of
  a known kind.
-/

import ApiScribe.Schema.Basic
import ApiScribe.Validation.Fields

set_option autoImplicit false

namespace ApiScribe

/-- The kinds of schemas as data tell them. -/
inductive SchemaTag where
  /-- An object. -/
  | object
  /-- An array. -/
  | array
  /-- Any other value. -/
  | scalar
  /-- Nothing is known. -/
  | untyped
  deriving DecidableEq, Repr

/-- The kind of schema that the members of a mapping denote. -/
def memberTag (ms : Members Atom Value) : SchemaTag :=
  match ms.get? (.text "type") with
  | none => .untyped
  | some v =>
    match v with
    | .atom .null => .untyped
    | .atom (.text "object") => .object
    | .atom (.text "array") => .array
    | _ => .scalar

/-- The fields of an object schema. -/
def objectFields : List (List String) := [["type"], ["properties"], ["required"]]

/-- The fields of an array schema. -/
def arrayFields : List (List String) := [["type"], ["items"]]

/-- The fields of a scalar schema. -/
def scalarFields : List (List String) := [["type"]]

/-- The names that are required; none at all is the same as an empty list. -/
def readRequired (v : Value) : Checked (List String) :=
  (·.getD []) <$> readNullable (readSequence readText) v

/-- An object schema from its members, given what was read of its properties. -/
def objectOfMembers (ms : Members Atom Value) (properties : Checked (Members String Schema)) :
    Checked Schema :=
  (fun _ ps req extras => .object ps req extras)
    <$> optionalField ms ["type"] "object" (readOneOf ["object"])
    <*> properties.under (.name "properties")
    <*> optionalField ms ["required"] [] readRequired
    <*> freeMembers ms objectFields

/-- An array schema from its members, given what was read of its items. -/
def arrayOfMembers (ms : Members Atom Value) (items : Checked (Option Schema)) : Checked Schema :=
  (fun _ items extras => .array items extras)
    <$> optionalField ms ["type"] "array" (readOneOf ["array"])
    <*> items.under (.name "items")
    <*> freeMembers ms arrayFields

/-- The kind of scalar with a name among the four. -/
def readScalarKind (v : Value) : Checked ScalarKind :=
  (fun name => (ScalarKind.ofName? name).getD .string)
    <$> readOneOf ["string", "number", "integer", "boolean"] v

/-- A scalar schema from its members. -/
def scalarOfMembers (ms : Members Atom Value) : Checked Schema :=
  .scalar <$> requiredField ms ["type"] readScalarKind <*> freeMembers ms scalarFields

/-- The unknown schema from its members, of which there must be none. -/
def untypedOfMembers (ms : Members Atom Value) : Checked (Option Schema) :=
  (fun _ => none) <$> noFreeMembers ms

mutual

/-- A schema from data. -/
def Schema.ofValue : Value → Checked Schema
  | .map ms =>
    match memberTag ms with
    | .object => (objectOfMembers ms (propertiesField ms)).under (.name "object")
    | .array => (arrayOfMembers ms (itemsField ms)).under (.name "array")
    | .scalar => (scalarOfMembers ms).under (.name "scalar")
    | .untyped => .fail .unionTagInvalid
  | _ => .fail .unionTagInvalid

/-- The schema of items from data, where it may be unknown. -/
def itemsOfValue : Value → Checked (Option Schema)
  | .map ms =>
    match memberTag ms with
    | .object => some <$> (objectOfMembers ms (propertiesField ms)).under (.name "object")
    | .array => some <$> (arrayOfMembers ms (itemsField ms)).under (.name "array")
    | .scalar => some <$> (scalarOfMembers ms).under (.name "scalar")
    | .untyped => (untypedOfMembers ms).under (.name "untyped")
  | _ => Checked.under (.name "untyped") (.fail .modelType)

/-- What the member `properties` holds, or no properties. -/
def propertiesField : List (Atom × Value) → Checked (Members String Schema)
  | [] => .valid []
  | (k, v) :: rest => if k = .text "properties" then propertiesOfValue v else propertiesField rest

/-- Properties from data. -/
def propertiesOfValue : Value → Checked (Members String Schema)
  | .map ms => Members.ofList <$> propertiesOfMembers ms
  | _ => .fail .dictType

/-- Properties from the members of a mapping. -/
def propertiesOfMembers : List (Atom × Value) → Checked (Members String Schema)
  | [] => .valid []
  | (k, v) :: rest => (· :: ·) <$> readMember k (Schema.ofValue v) <*> propertiesOfMembers rest

/-- What the member `items` holds, or the unknown schema. -/
def itemsField : List (Atom × Value) → Checked (Option Schema)
  | [] => .valid none
  | (k, v) :: rest => if k = .text "items" then itemsOfValue v else itemsField rest

end

end ApiScribe
