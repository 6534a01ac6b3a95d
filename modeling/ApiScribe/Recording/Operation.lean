/-
**Recording an exchange in an operation.**

An operation grows by what an exchange shows: the content types on both sides, the shape of the
request body, and the shape of the reply under its status code.

Main definitions:

* `ApiScribe.appendNew` — a content type at the end of a list, unless it is there already;
* `ApiScribe.PathItem.siblingParameters` — the path parameters that a new operation takes over;
* `ApiScribe.recordBody`, `ApiScribe.recordReply` — the shapes of the two bodies;
* `ApiScribe.Operation.record` — all of it.
-/

import ApiScribe.Document.Basic
import ApiScribe.Recording.Error
import ApiScribe.Schema.Join
import ApiScribe.Schema.OfSample
import ApiScribe.Traffic.Exchange
import ApiScribe.Traffic.Status

set_option autoImplicit false

namespace ApiScribe

/-- A list with a text at its end, unless the text is absent, empty or in the list. -/
def appendNew (texts : List String) : Option String → List String
  | none => texts
  | some t => if t.isEmpty || texts.contains t then texts else texts ++ [t]

/-! ### Path parameters -/

/-- A path parameter that is a single value. -/
def Parameter.pathValue? : Parameter → Option ValueParameter
  | .value p => if p.place = .path then some p else none
  | .body _ => none

/-- The first parameter of each name. -/
def firstOfEachName : List ValueParameter → List ValueParameter
  | [] => []
  | p :: rest => p :: (firstOfEachName rest).filter (·.name ≠ p.name)

namespace PathItem

/-- The names of the parameters that all operations share. -/
def sharedNames (item : PathItem) : List String := (item.parameters.getD []).map Parameter.name

/-- The path parameters that the operations declare beside the shared ones, once for each name. -/
def siblingParameters (item : PathItem) : List Parameter :=
  let declared := item.operations.flatMap fun m => m.2.parameters.filterMap Parameter.pathValue?
  (firstOfEachName (declared.filter fun p => !item.sharedNames.contains p.name)).map .value

/-- The operation of a method as it is before an exchange is recorded: a new one declares what its
siblings declare of the path. -/
def startOperation (item : PathItem) (m : Method) : Operation :=
  (item.operation? m).getD { parameters := item.siblingParameters }

end PathItem

/-- The names of the parameters that are single values. -/
def valueNames (ps : List Parameter) : List String :=
  ps.filterMap fun
    | .value p => some p.name
    | .body _ => none

/-- Parameters with those of `new` that have no namesake among them. -/
def addParameters (ps : List Parameter) (new : List ValueParameter) : List Parameter :=
  ps ++ (new.filter fun p => !(valueNames ps).contains p.name).map .value

/-! ### Bodies -/

/-- The schema of a body as it came. -/
def schemaOfBody (body : Value) (contentType : Option String) :
    Except RecordError (Option Schema) :=
  match readBody body contentType with
  | .error e => .error (.body e)
  | .ok v =>
    if v.isNull then .ok none
    else
      match Schema.ofSample v with
      | .error e => .error (.schema e)
      | .ok s => .ok (some s)

/-- The schema of a request body, which counts also if it is the absent value of JSON. -/
def schemaOfRequestBody (body : Value) (contentType : Option String) :
    Except RecordError Schema :=
  match readBody body contentType with
  | .error e => .error (.body e)
  | .ok v => (Schema.ofSample v).mapError .schema

/-- Joins a schema into the body among parameters, which is new if there is none. -/
def joinBody (schema : Schema) : List Parameter → Except SchemaError (List Parameter)
  | [] => .ok [.body { schema }]
  | .body p :: rest =>
    (Schema.join p.schema schema).map fun joined => .body { p with schema := joined } :: rest
  | .value p :: rest => (joinBody schema rest).map (.value p :: ·)

/-- Records the body of a request among parameters. -/
def recordBody (ps : List Parameter) (request : Request) : Except RecordError (List Parameter) :=
  if request.body.isNull then .ok ps
  else
    match schemaOfRequestBody request.body request.contentType? with
    | .error e => .error e
    | .ok schema => (joinBody schema ps).mapError .schema

/-- A schema joined with the one recorded before, if there is one. -/
def joinOption (before : Option Schema) (schema : Schema) : Except SchemaError Schema :=
  match before with
  | none => .ok schema
  | some s => Schema.join s schema

/-- The schema of a reply, given the one recorded before.  An empty body leaves no schema. -/
def replySchema (before : Option Schema) (reply : Reply) : Except RecordError (Option Schema) :=
  match schemaOfBody reply.body reply.contentType? with
  | .error e => .error e
  | .ok none => .ok none
  | .ok (some s) => ((joinOption before s).map some).mapError .schema

/-- Records a reply, given what was recorded under its status code before. -/
def recordReply (existing : Option Response) (reply : Reply) : Except RecordError Response :=
  (replySchema (existing.bind Response.schema) reply).map fun schema =>
    { existing.getD { description := "" } with
      description := statusPhrase reply.status
      schema := schema }

/-! ### Operations -/

/-- The text of a status code. -/
def Reply.statusText (reply : Reply) : String := String.ofList (integerText reply.status)

/-- Records an exchange, with path parameters that are new with it. -/
def Operation.record (op : Operation) (new : List ValueParameter) (x : Exchange) :
    Except RecordError Operation :=
  match recordBody (addParameters op.parameters new) x.request with
  | .error e => .error e
  | .ok parameters =>
    (recordReply (op.responses.get? x.reply.statusText) x.reply).map fun response =>
      { op with
        consumes := appendNew op.consumes x.request.contentType?
        produces := appendNew op.produces x.reply.contentType?
        parameters := parameters
        responses := op.responses.put x.reply.statusText response }

end ApiScribe
