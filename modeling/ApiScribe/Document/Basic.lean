/-
**API documents.**

A document describes an API of version 2.0 of the format: for each path template the operations
that were recorded under it, and for each operation its parameters and its responses.  Every object
may carry free members beside those that are named here.

Main definitions:

* `ApiScribe.Info`, `ApiScribe.Parameter`, `ApiScribe.Response`, `ApiScribe.Operation`,
  `ApiScribe.PathItem`, `ApiScribe.Document` — the objects;
* `ApiScribe.Method` — the methods that have an operation;
* `ApiScribe.PathItem.operation?`, `ApiScribe.PathItem.setOperation` — the operation of a method;
* `ApiScribe.PathItem.operations` — the operations that are defined.

Main results:

* `ApiScribe.PathItem.operation?_setOperation` — the operation of a method after another one is set;
* `ApiScribe.PathItem.mem_operations_iff` — which operations are listed.
-/

import ApiScribe.Schema.Basic

set_option autoImplicit false

namespace ApiScribe

/-- The version of the format. -/
def formatVersion : String := "2.0"

/-- What a document says about itself. -/
structure Info where
  /-- The title of the API. -/
  title : String := "Generated Schema"
  /-- The version of the API. -/
  version : String := "1.0"
  /-- Free members. -/
  extras : Extras := []
  deriving Repr

/-! ### Parameters -/

/-- The places of a request, other than its body, where a parameter may stand. -/
inductive Place where
  /-- A part of the path. -/
  | path
  /-- The query. -/
  | query
  /-- A header. -/
  | header
  /-- A field of a form. -/
  | formData
  deriving DecidableEq, Repr

/-- The word for a place. -/
def Place.name : Place → String
  | .path => "path"
  | .query => "query"
  | .header => "header"
  | .formData => "formData"

/-- The place with a name. -/
def Place.ofName? (name : String) : Option Place :=
  [Place.path, .query, .header, .formData].find? (·.name = name)

/-- A parameter that is a single value. -/
structure ValueParameter where
  /-- Where the value stands. -/
  place : Place
  /-- The name of the parameter. -/
  name : String
  /-- The type of the value. -/
  type : String := "string"
  /-- Whether the value must be given. -/
  required : Bool := false
  /-- A description. -/
  description : Option String := none
  /-- Free members. -/
  extras : Extras := []
  deriving Repr

/-- The parameter for a placeholder of a path template. -/
def ValueParameter.ofPlaceholder (name : String) : ValueParameter :=
  { place := .path, name, required := true, description := some name }

/-- The body of a request. -/
structure BodyParameter where
  /-- The name of the parameter. -/
  name : String := "body"
  /-- The shape of the body. -/
  schema : Schema
  /-- Free members. -/
  extras : Extras := []
  deriving Repr

/-- A parameter of an operation. -/
inductive Parameter where
  /-- A single value. -/
  | value (p : ValueParameter)
  /-- The body of the request. -/
  | body (p : BodyParameter)
  deriving Repr

/-- The name of a parameter. -/
def Parameter.name : Parameter → String
  | .value p => p.name
  | .body p => p.name

/-- Whether the parameter is the body of the request. -/
def Parameter.isBody : Parameter → Bool
  | .value _ => false
  | .body _ => true

/-! ### Operations -/

/-- An answer to a request. -/
structure Response where
  /-- A description. -/
  description : String
  /-- The shape of the body, unless the last one was empty. -/
  schema : Option Schema := none
  /-- Free members. -/
  extras : Extras := []
  deriving Repr

/-- What is recorded for one method under one path template. -/
structure Operation where
  /-- The content types of requests. -/
  consumes : List String := []
  /-- The content types of answers. -/
  produces : List String := []
  /-- The parameters. -/
  parameters : List Parameter := []
  /-- The answers by status code. -/
  responses : Members String Response := []
  /-- Free members. -/
  extras : Extras := []
  deriving Repr

/-- The first body among the parameters. -/
def Operation.body? (op : Operation) : Option BodyParameter :=
  op.parameters.findSome? fun
    | .body p => some p
    | .value _ => none

/-- The methods that have an operation. -/
inductive Method where
  /-- GET. -/
  | get
  /-- PUT. -/
  | put
  /-- POST. -/
  | post
  /-- DELETE. -/
  | delete
  /-- OPTIONS. -/
  | options
  /-- HEAD. -/
  | head
  /-- PATCH. -/
  | patch
  deriving DecidableEq, Repr

/-- All methods, in the order in which they are written. -/
def Method.all : List Method := [.get, .put, .post, .delete, .options, .head, .patch]

/-- The name of a method in lower case. -/
def Method.name : Method → String
  | .get => "get"
  | .put => "put"
  | .post => "post"
  | .delete => "delete"
  | .options => "options"
  | .head => "head"
  | .patch => "patch"

/-- The name of a method in upper case. -/
def Method.upperName : Method → String
  | .get => "GET"
  | .put => "PUT"
  | .post => "POST"
  | .delete => "DELETE"
  | .options => "OPTIONS"
  | .head => "HEAD"
  | .patch => "PATCH"

/-- The method with a name in lower case. -/
def Method.ofName? (name : String) : Option Method := Method.all.find? (·.name = name)

/-- Everything that is recorded under one path template. -/
structure PathItem where
  /-- The operation of GET. -/
  get : Option Operation := none
  /-- The operation of PUT. -/
  put : Option Operation := none
  /-- The operation of POST. -/
  post : Option Operation := none
  /-- The operation of DELETE. -/
  delete : Option Operation := none
  /-- The operation of OPTIONS. -/
  options : Option Operation := none
  /-- The operation of HEAD. -/
  head : Option Operation := none
  /-- The operation of PATCH. -/
  patch : Option Operation := none
  /-- The parameters that all operations share. -/
  parameters : Option (List Parameter) := none
  /-- Free members. -/
  extras : Extras := []
  deriving Repr

namespace PathItem

/-- The operation of a method. -/
def operation? (item : PathItem) : Method → Option Operation
  | .get => item.get
  | .put => item.put
  | .post => item.post
  | .delete => item.delete
  | .options => item.options
  | .head => item.head
  | .patch => item.patch

/-- Sets the operation of a method. -/
def setOperation (item : PathItem) (op : Operation) : Method → PathItem
  | .get => { item with get := some op }
  | .put => { item with put := some op }
  | .post => { item with post := some op }
  | .delete => { item with delete := some op }
  | .options => { item with options := some op }
  | .head => { item with head := some op }
  | .patch => { item with patch := some op }

/-- The operations that are defined, in the order in which they are written. -/
def operations (item : PathItem) : Members Method Operation :=
  Method.all.filterMap fun m => (item.operation? m).map (m, ·)

/-- Setting the operation of one method leaves those of the others as they are. -/
theorem operation?_setOperation (item : PathItem) (op : Operation) (m n : Method) :
    (item.setOperation op m).operation? n = if m = n then some op else item.operation? n := by
  cases m <;> cases n <;> rfl

/-- An operation is listed with its method exactly if it is defined. -/
theorem mem_operations_iff {item : PathItem} {m : Method} {op : Operation} :
    (m, op) ∈ item.operations ↔ item.operation? m = some op := by
  rw [operations, List.mem_filterMap]
  constructor
  · rintro ⟨n, -, hn⟩
    obtain ⟨op', hop, heq⟩ := Option.map_eq_some_iff.1 hn
    cases heq
    exact hop
  · intro hop
    exact ⟨m, by cases m <;> decide, by rw [hop]; rfl⟩

end PathItem

/-- A description of an API. -/
structure Document where
  /-- The version of the format. -/
  swagger : String := formatVersion
  /-- What the document says about itself. -/
  info : Info := {}
  /-- What is recorded under each path template. -/
  paths : Members String PathItem := []
  /-- Free members. -/
  extras : Extras := []
  deriving Repr

end ApiScribe
