/-
**Documents as data.**

The fields of an object come first, in the order of the format, and its free members after them.
Absent members are left out unless a view asks for them, and an operation without parameters has no
member for them.

Main definitions:

* `ApiScribe.View` — which members are shown, and under which names;
* `ApiScribe.Document.toValue` and its companions — the objects as data;
* `ApiScribe.Document.toJson?` — a document as JSON data.
-/

import ApiScribe.Data.JsonForm
import ApiScribe.Document.Basic

set_option autoImplicit false

namespace ApiScribe

/-- How objects are shown as data. -/
structure View where
  /-- Whether absent members are shown. -/
  nulls : Bool := false
  /-- Whether the members `in` and `schema` are shown under their second names. -/
  secondNames : Bool := false

/-- The name of the member for the place of a parameter. -/
def View.placeName (view : View) : String := if view.secondNames then "in_" else "in"

/-- The name of the member for a schema. -/
def View.schemaName (view : View) : String := if view.secondNames then "schema_" else "schema"

/-- An object of fields and free members; a free member overrides a field that is shown under its
name. -/
def View.objectOf (view : View) (fields : Members String Value) (extras : Extras) : Value :=
  .object ((shownMembers view.nulls fields).putAll (shownMembers view.nulls extras))

/-- A list of texts as data. -/
def textsToValue (texts : List String) : Value := .list (texts.map .text)

/-- A self-description as data. -/
def Info.toValue (view : View) (info : Info) : Value :=
  view.objectOf [("title", .text info.title), ("version", .text info.version)] info.extras

/-- An optional schema as data. -/
def schemaToValue (view : View) : Option Schema → Value
  | none => .null
  | some schema => schema.toValue view.nulls

/-- A parameter as data. -/
def Parameter.toValue (view : View) : Parameter → Value
  | .value p =>
    view.objectOf
      [(view.placeName, .text p.place.name),
       ("name", .text p.name),
       ("type", .text p.type),
       ("required", .atom (.bool p.required)),
       ("description", p.description.elim .null .text)]
      p.extras
  | .body p =>
    view.objectOf
      [(view.placeName, .text "body"),
       ("name", .text p.name),
       (view.schemaName, p.schema.toValue view.nulls)]
      p.extras

/-- An answer as data. -/
def Response.toValue (view : View) (response : Response) : Value :=
  view.objectOf
    [("description", .text response.description),
     (view.schemaName, schemaToValue view response.schema)]
    response.extras

/-- Parameters as data. -/
def parametersToValue (view : View) (ps : List Parameter) : Value :=
  .list (ps.map (Parameter.toValue view))

/-- An operation as data. -/
def Operation.toValue (view : View) (op : Operation) : Value :=
  view.objectOf
    ([("consumes", textsToValue op.consumes), ("produces", textsToValue op.produces)]
      ++ (if op.parameters.isEmpty then []
          else [("parameters", parametersToValue view op.parameters)])
      ++ [("responses", .object (op.responses.mapValues (Response.toValue view)))])
    op.extras

/-- Everything under a path template as data. -/
def PathItem.toValue (view : View) (item : PathItem) : Value :=
  view.objectOf
    (Method.all.map (fun m =>
        (m.name, (item.operation? m).elim .null (Operation.toValue view)))
      ++ [("parameters", item.parameters.elim .null (parametersToValue view))])
    item.extras

/-- A document as data. -/
def Document.toValue (view : View) (doc : Document) : Value :=
  view.objectOf
    [("swagger", .text doc.swagger),
     ("info", doc.info.toValue view),
     ("paths", .object (doc.paths.mapValues (PathItem.toValue view)))]
    doc.extras

/-- A document as JSON data, unless it holds bytes that encode no text. -/
def Document.toJson? (doc : Document) : Option Value := (doc.toValue {}).jsonForm?

end ApiScribe
