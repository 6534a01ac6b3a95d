/-
**Equality of documents.**

Two documents agree if all their parts do.  The order of mappings does not count, the order of lists
does; free members are compared by what they stand for.

Main definition: `ApiScribe.Document.same`.
-/

import ApiScribe.Document.Basic

set_option autoImplicit false

namespace ApiScribe

variable {α β : Type}

/-- Whether two optional parts are both absent or agree. -/
def sameOption (same : α → α → Bool) : Option α → Option α → Bool
  | none, none => true
  | some a, some b => same a b
  | _, _ => false

/-- Whether two lists agree item by item. -/
def sameList (same : α → α → Bool) : List α → List α → Bool
  | [], [] => true
  | a :: as, b :: bs => same a b && sameList same as bs
  | _, _ => false

/-- Whether two mappings have the same names with parts that agree. -/
def sameMapping (same : α → α → Bool) (xs ys : Members String α) : Bool :=
  xs.length == ys.length && xs.all fun m =>
    match ys.get? m.1 with
    | some y => same m.2 y
    | none => false

/-- Whether two self-descriptions agree. -/
def Info.same (a b : Info) : Bool :=
  a.title == b.title && a.version == b.version && Extras.same a.extras b.extras

/-- Whether two parameters agree. -/
def Parameter.same : Parameter → Parameter → Bool
  | .value p, .value q =>
    p.place == q.place && p.name == q.name && p.type == q.type && p.required == q.required
      && p.description == q.description && Extras.same p.extras q.extras
  | .body p, .body q => p.name == q.name && p.schema.same q.schema && Extras.same p.extras q.extras
  | _, _ => false

/-- Whether two answers agree. -/
def Response.same (a b : Response) : Bool :=
  a.description == b.description && sameOption Schema.same a.schema b.schema
    && Extras.same a.extras b.extras

/-- Whether two operations agree. -/
def Operation.same (a b : Operation) : Bool :=
  a.consumes == b.consumes && a.produces == b.produces
    && sameList Parameter.same a.parameters b.parameters
    && sameMapping Response.same a.responses b.responses && Extras.same a.extras b.extras

/-- Whether everything under two path templates agrees. -/
def PathItem.same (a b : PathItem) : Bool :=
  Method.all.all (fun m => sameOption Operation.same (a.operation? m) (b.operation? m))
    && sameOption (sameList Parameter.same) a.parameters b.parameters
    && Extras.same a.extras b.extras

/-- Whether two documents agree. -/
def Document.same (a b : Document) : Bool :=
  a.swagger == b.swagger && a.info.same b.info && sameMapping PathItem.same a.paths b.paths
    && Extras.same a.extras b.extras

end ApiScribe
