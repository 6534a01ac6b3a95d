/-
**Reading YAML text.**

A text is turned into tokens, the tokens into a tree, the tree into nodes, and the nodes into the
data that they stand for.  A mapping keeps the order of its keys; of members with one key the last
one counts, in the place of the first.

Main definitions:

* `ApiScribe.Yaml.Node.value?` — the data of a node;
* `ApiScribe.Yaml.Reading`, `ApiScribe.Yaml.read?` — the data of a text, and whether they would have
  to contain themselves.
-/

import ApiScribe.Yaml.Lexer
import ApiScribe.Yaml.Literal
import ApiScribe.Yaml.Node

set_option autoImplicit false

namespace ApiScribe.Yaml

/-- Members with one more, in the place of one with the same key. -/
def putMember (ms : Members Atom Value) (k : Atom) (v : Value) : Members Atom Value :=
  match ms with
  | [] => [(k, v)]
  | (k', v') :: rest =>
    if k'.sameKey k then (k', v) :: rest else (k', v') :: putMember rest k v

/-- The members of a list, of which a later one overrides an earlier one with the same key. -/
def membersOf (ms : Members Atom Value) : Members Atom Value :=
  ms.foldl (fun found m => putMember found m.1 m.2) []

/-- The atom that a value is, if it can be a key. -/
def keyOf? : Value → Option Atom
  | .atom a => some a
  | _ => none

/-! ### Texts -/

mutual

/-- The text of a node: a text itself, or the value of the key that stands for a mapping. -/
def Node.text? : Node → Option String
  | .scalar _ text => some text
  | .sequence .. => none
  | .mapping _ members => textOfMembers? members
  | .loop _ => none

/-- The text of the first member whose key stands for the mapping. -/
def textOfMembers? : List (Node × Node) → Option String
  | [] => none
  | (k, v) :: rest => if k.tag = .value then v.text? else textOfMembers? rest

end

/-! ### Values -/

/-- A collection of the keys of members. -/
def setOf (ms : Members Atom Value) : Value := .set ((membersOf ms).map (·.1))

mutual

/-- The data of a node. -/
def Node.value? : Node → Option Value
  | .scalar tag text => (tag.atom? text.toList).map .atom
  | .sequence tag items =>
    match tag with
    | .seq => (valuesOf? items).map .list
    | .omap => (pairsOf? items).map .list
    | .pairs => (pairsOf? items).map .list
    | _ => none
  | .mapping tag members =>
    match tag with
    | .map => (splitMembers? members).map fun (merged, own) => .map (membersOf (merged ++ own))
    | .set => (splitMembers? members).map fun (merged, own) => setOf (merged ++ own)
    | tag =>
      match textOfMembers? members with
      | some text => (tag.atom? text.toList).map .atom
      | none => none
  | .loop isMapping => some (if isMapping then .map [] else .list [])

/-- The data of items. -/
def valuesOf? : List Node → Option (List Value)
  | [] => some []
  | n :: rest =>
    match n.value?, valuesOf? rest with
    | some v, some vs => some (v :: vs)
    | _, _ => none

/-- The data of items each of which is a mapping with one member, as pairs. -/
def pairsOf? : List Node → Option (List Value)
  | [] => some []
  | .mapping _ [(k, v)] :: rest =>
    match k.value?, v.value?, pairsOf? rest with
    | some k, some v, some pairs => some (.tuple [k, v] :: pairs)
    | _, _, _ => none
  | _ :: _ => none

/-- The members of a mapping: those that are merged into it, and its own.  The key that stands for
a mapping is just its text here. -/
def splitMembers? : List (Node × Node) → Option (Members Atom Value × Members Atom Value)
  | [] => some ([], [])
  | (k, v) :: rest =>
    if k.tag = .merge then
      match membersToMerge? v, splitMembers? rest with
      | some new, some (merged, own) => some (new ++ merged, own)
      | _, _ => none
    else
      let key := if k.tag = .value then k.text?.map Atom.text else k.value?.bind keyOf?
      match key, v.value?, splitMembers? rest with
      | some key, some v, some (merged, own) => some (merged, (key, v) :: own)
      | _, _, _ => none

/-- The members that a node gives to the mapping it is merged into.  Of several mappings the first
one counts most, so it comes last. -/
def membersToMerge? : Node → Option (Members Atom Value)
  | .scalar .. => none
  | .mapping _ members => (splitMembers? members).map fun (merged, own) => merged ++ own
  | .sequence _ items => membersOfAll? items
  | .loop _ => some []

/-- The members of mappings, those of the first one last. -/
def membersOfAll? : List Node → Option (Members Atom Value)
  | [] => some []
  | .mapping _ members :: rest =>
    match splitMembers? members, membersOfAll? rest with
    | some (merged, own), some more => some (more ++ (merged ++ own))
    | _, _ => none
  | .loop true :: rest => membersOfAll? rest
  | _ :: _ => none

end

/-- The data of a text. -/
structure Reading where
  /-- The data. -/
  value : Value
  /-- Whether a part of the data would have to contain itself; it is empty instead. -/
  isCircular : Bool

/-- The node of a document. -/
def Source.node? (source : Source) : Option Node :=
  (Node.ofTree? source.abbreviations [] source.tree).map (·.1)

/-- The data of a text; without a document they are the absent value. -/
def read? (cs : List Char) : Option Reading :=
  match (tokensOf? cs).bind sourceOf? with
  | none => none
  | some none => some ⟨.null, false⟩
  | some (some source) =>
    match source.node? with
    | none => none
    | some node => node.value?.map fun v => ⟨v, node.hasLoop⟩

end ApiScribe.Yaml
