/-
**Recording an exchange in a document.**

The URL tells the template, the method the operation, and the status code the response: an exchange
is recorded in one cell of the document, and everything else stays as it is.

Main definitions:

* `ApiScribe.Cell` — the place of a document where an exchange is recorded;
* `ApiScribe.Document.record` — the document after an exchange, with its cell.
-/

import ApiScribe.Recording.Operation
import ApiScribe.Template.Resolve

set_option autoImplicit false

namespace ApiScribe

/-- The place of a document where an exchange is recorded. -/
structure Cell where
  /-- The path template. -/
  template : String
  /-- The method. -/
  method : Method
  /-- The text of the status code. -/
  status : String
  deriving DecidableEq, Repr

/-- The method of a request, if it has an operation. -/
def Request.method? (request : Request) : Option Method :=
  Method.ofName? (Text.lower request.method)

namespace Document

/-- The templates in order. -/
def templates (doc : Document) : List String := doc.paths.keys

/-- What is recorded under a template. -/
def pathItem (doc : Document) (template : String) : PathItem := (doc.paths.get? template).getD {}

/-- Records an exchange in the operation of a method under a template. -/
def recordAt (doc : Document) (resolution : Template.Resolution) (m : Method) (x : Exchange) :
    Except RecordError (Cell × Document) :=
  let item := doc.pathItem resolution.template
  ((item.startOperation m).record resolution.parameters x).map fun op =>
    (⟨resolution.template, m, x.reply.statusText⟩,
      { doc with paths := doc.paths.put resolution.template (item.setOperation op m) })

/-- Records an exchange. -/
def record (doc : Document) (x : Exchange) : Except RecordError (Cell × Document) :=
  if doc.swagger ≠ formatVersion then .error (.otherVersion doc.swagger)
  else
    match x.request.method? with
    | none => .error (.unsupportedMethod x.request.method)
    | some m =>
      match Template.resolve x.request.url doc.templates with
      | .error e => .error (.url e)
      | .ok resolution => doc.recordAt resolution m x

end Document

end ApiScribe
