/-
**The union of two documents.**

Documents that were recorded side by side are put together.  What only one of them has is taken over
as it is; what both have keeps the place and the free members of the first, and schemas on both
sides are joined.

Main definitions:

* `ApiScribe.Operation.union`, `ApiScribe.PathItem.union` — the parts;
* `ApiScribe.Document.union` — the whole.
-/

import ApiScribe.Recording.Operation

set_option autoImplicit false

namespace ApiScribe

/-- Two mappings in one: the members of the first in order, then the new ones of the second.  What
stands on both sides is combined by `combine`, member by member of the second. -/
def unionMembers {α ε : Type} (combine : α → α → Except ε α) (first : Members String α) :
    Members String α → Except ε (Members String α)
  | [] => .ok first
  | (name, b) :: rest =>
    match first.get? name with
    | none => unionMembers combine (first.put name b) rest
    | some a =>
      match combine a b with
      | .error e => .error e
      | .ok c => unionMembers combine (first.put name c) rest

/-- Two optional parts in one, combined by `combine` if there are both. -/
def unionOption {α ε : Type} (combine : α → α → Except ε α) :
    Option α → Option α → Except ε (Option α)
  | none, b => .ok b
  | some a, none => .ok (some a)
  | some a, some b => (combine a b).map some

/-! ### Parameters -/

/-- Whether two parameters are single values of one name at one place. -/
def ValueParameter.sameSlot (p q : ValueParameter) : Bool := p.place = q.place && p.name = q.name

/-- Whether a parameter is the single value `p`. -/
def Parameter.fillsSlot (p : ValueParameter) : Parameter → Bool
  | .value q => q.sameSlot p
  | .body _ => false

/-- Joins a body into the last body among parameters, and adds it if there is none. -/
def unionBody (b : BodyParameter) : List Parameter → Except SchemaError (List Parameter)
  | [] => .ok [.body b]
  | .value p :: rest => (unionBody b rest).map (.value p :: ·)
  | .body p :: rest =>
    if rest.any Parameter.isBody then (unionBody b rest).map (.body p :: ·)
    else
      (Schema.join p.schema b.schema).map fun joined => .body { p with schema := joined } :: rest

/-- Parameters with one more, unless its place is taken. -/
def unionParameter (ps : List Parameter) : Parameter → Except SchemaError (List Parameter)
  | .value p => .ok (if ps.any (Parameter.fillsSlot p) then ps else ps ++ [.value p])
  | .body p => unionBody p ps

/-- The parameters of two operations. -/
def unionParameters (first : List Parameter) :
    List Parameter → Except SchemaError (List Parameter)
  | [] => .ok first
  | p :: rest =>
    match unionParameter first p with
    | .error e => .error e
    | .ok ps => unionParameters ps rest

/-! ### Operations, path items and documents -/

/-- One response for two under one status code. -/
def Response.union (a b : Response) : Except SchemaError Response :=
  (unionOption Schema.join a.schema b.schema).map fun schema => { a with schema := schema }

/-- The content types of two lists. -/
def unionTexts (first second : List String) : List String :=
  second.foldl (fun texts t => appendNew texts (some t)) first

/-- One operation for two of one method. -/
def Operation.union (a b : Operation) : Except SchemaError Operation :=
  match unionMembers Response.union a.responses b.responses with
  | .error e => .error e
  | .ok responses =>
    (unionParameters a.parameters b.parameters).map fun parameters =>
      { a with
        consumes := unionTexts a.consumes b.consumes
        produces := unionTexts a.produces b.produces
        parameters := parameters
        responses := responses }

/-- Sets the operations of the given methods to those of both sides. -/
def unionOperations (a b : PathItem) : List Method → Except SchemaError PathItem
  | [] => .ok a
  | m :: rest =>
    match unionOption Operation.union (a.operation? m) (b.operation? m) with
    | .error e => .error e
    | .ok none => unionOperations a b rest
    | .ok (some op) => unionOperations (a.setOperation op m) b rest

/-- One path item for two under one template. -/
def PathItem.union (a b : PathItem) : Except SchemaError PathItem :=
  (unionOperations a b Method.all).map fun item =>
    { item with parameters := a.parameters.orElse fun _ => b.parameters }

/-- One document for two. -/
def Document.union (a b : Document) : Except RecordError Document :=
  if a.swagger ≠ formatVersion then .error (.otherVersion a.swagger)
  else if b.swagger ≠ formatVersion then .error (.otherVersion b.swagger)
  else
    match unionMembers PathItem.union a.paths b.paths with
    | .error e => .error (.schema e)
    | .ok paths => .ok { a with paths := paths }

end ApiScribe
