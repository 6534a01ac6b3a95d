/-
**How deep a document can be shown.**

A document is shown as JSON data by a serializer that calls itself on the way down, and gives up if
more than a fixed number of its calls would be open at a time.  It opens a call for every value inside
free members, and one for every object that is described apart from where it stands: a parameter, a
schema, an operation.  The objects around them cost nothing.  What is shown for an operation is gone
through once more as plain data, where its objects count like any other mapping.

Main definitions:

* `ApiScribe.Value.depth` — how deep data nest;
* `ApiScribe.Document.nesting` — the number of calls that are open where a document is deepest;
* `ApiScribe.serializerDepth` — the number of calls that may be open on most machines;
* `ApiScribe.DumpError`, `ApiScribe.Document.toJson` — a document as JSON data, or why there are none.
-/

import ApiScribe.Document.ToValue

set_option autoImplicit false

namespace ApiScribe

/-! ### The depth of data -/

/-- The greatest of some numbers, or zero. -/
def greatest (ns : List Nat) : Nat := ns.foldr max 0

mutual

/-- How deep data nest.  An atom is one deep. -/
def Value.depth : Value → Nat
  | .atom _ => 1
  | .list xs => 1 + itemsDepth xs
  | .tuple xs => 1 + itemsDepth xs
  | .set xs => 1 + greatest (xs.map fun _ => 1)
  | .map ms => 1 + membersDepth ms

/-- The depth of the deepest item. -/
def itemsDepth : List Value → Nat
  | [] => 0
  | v :: rest => max v.depth (itemsDepth rest)

/-- The depth of the deepest member. -/
def membersDepth : List (Atom × Value) → Nat
  | [] => 0
  | (_, v) :: rest => max v.depth (membersDepth rest)

end

/-- The depth of the deepest free member that is shown. -/
def Extras.depth (extras : Extras) : Nat :=
  greatest ((shownMembers false extras).map fun m => m.2.depth)

/-! ### The calls that are open -/

mutual

/-- The calls that are open where a schema is deepest.  The unknown schema of items opens none. -/
def Schema.nesting : Schema → Nat
  | .object properties _ extras => 1 + max (propertiesNesting properties) (Extras.depth extras)
  | .array none extras => 1 + Extras.depth extras
  | .array (some items) extras => 1 + max items.nesting (Extras.depth extras)
  | .scalar _ extras => 1 + Extras.depth extras

/-- The calls that are open where the deepest property is deepest. -/
def propertiesNesting : List (String × Schema) → Nat
  | [] => 0
  | (_, s) :: rest => max s.nesting (propertiesNesting rest)

end

/-- The calls that are open where a parameter is deepest. -/
def Parameter.nesting : Parameter → Nat
  | .value p => 1 + p.extras.depth
  | .body p => 1 + max p.schema.nesting p.extras.depth

/-- The calls that are open where an operation is deepest, which is while its data are gone through
once more. -/
def Operation.nesting (op : Operation) : Nat := 1 + (op.toValue {}).depth

/-- The calls that are open where a path item is deepest. -/
def PathItem.nesting (item : PathItem) : Nat :=
  greatest (item.operations.map (fun m => m.2.nesting)
    ++ (item.parameters.getD []).map Parameter.nesting ++ [item.extras.depth])

/-- The calls that are open where a document is deepest. -/
def Document.nesting (doc : Document) : Nat :=
  greatest (doc.paths.map (fun m => m.2.nesting) ++ [doc.info.extras.depth, doc.extras.depth])

/-! ### Showing a document -/

/-- The number of calls that the serializer may have open at a time, unless it is built for a machine
with a small stack. -/
def serializerDepth : Nat := 255

/-- Why a document is not shown. -/
inductive DumpError where
  /-- It nests too deep. -/
  | tooDeep
  /-- It holds bytes that encode no text. -/
  | notText
  deriving DecidableEq, Repr

/-- What is made of a document, unless more than `limit` calls would be open.  A document that nests too
deep is refused for that, whatever else it holds. -/
def Document.within {α : Type} (doc : Document) (limit : Nat) (made : Option α) :
    Except DumpError α :=
  if limit < doc.nesting then .error .tooDeep
  else
    match made with
    | some a => .ok a
    | none => .error .notText

/-- A document as JSON data, by a serializer that has at most `limit` calls open. -/
def Document.toJson (doc : Document) (limit : Nat) : Except DumpError Value :=
  doc.within limit doc.toJson?

end ApiScribe
