/-
**From trees to nodes.**

In a node every tag has become a kind, every plain text has the kind of its form, and every
reference has been replaced by what it refers to.  Only a reference to a collection from inside the
collection itself stays a reference.

Main definitions:

* `ApiScribe.Yaml.Node` — nodes;
* `ApiScribe.Yaml.Node.ofTree?` — the node of a tree;
* `ApiScribe.Yaml.Node.hasLoop` — whether a reference has stayed.
-/

import ApiScribe.Yaml.Tag
import ApiScribe.Yaml.Tree

set_option autoImplicit false

namespace ApiScribe.Yaml

/-- A node of a document. -/
inductive Node where
  /-- A text. -/
  | scalar (tag : Tag) (text : String)
  /-- A sequence. -/
  | sequence (tag : Tag) (items : List Node)
  /-- A mapping. -/
  | mapping (tag : Tag) (members : List (Node × Node))
  /-- A reference to a sequence or mapping that the reference is a part of. -/
  | loop (isMapping : Bool)
  deriving Repr

/-- What an anchor refers to. -/
inductive Anchored where
  /-- A node that has been read. -/
  | done (node : Node)
  /-- A sequence or mapping of which parts are still to be read. -/
  | unfinished (isMapping : Bool)

/-- The anchors read so far, with what they refer to. -/
abbrev Anchors := List (String × Anchored)

/-! ### Kinds -/

/-- The full name of a tag. -/
def TagName.fullName? (abbreviations : Abbreviations) : TagName → Option String
  | .short handle suffix => (abbreviations.lookup handle).map (· ++ suffix)
  | .full name => some name

/-- The kind that properties give, if they give one; a lone exclamation mark gives none.  The outer
option is absent if an abbreviation has no meaning. -/
def Properties.kind? (abbreviations : Abbreviations) (ps : Properties) : Option (Option Tag) :=
  match ps.tag with
  | none => some none
  | some name =>
    (name.fullName? abbreviations).map fun name =>
      if name = "!" then none else some (.ofName name)

/-- The kind of a text. -/
def scalarKind? (abbreviations : Abbreviations) (ps : Properties) (plain : Bool) (text : String) :
    Option Tag :=
  (ps.kind? abbreviations).map fun kind =>
    match kind with
    | some tag => tag
    | none => if plain || ps.tag.isSome then .ofPlain text.toList else .str

/-- The kind of a collection, given the one without a tag. -/
def collectionKind? (abbreviations : Abbreviations) (ps : Properties) (standard : Tag) :
    Option Tag :=
  (ps.kind? abbreviations).map (·.getD standard)

/-! ### Anchors -/

/-- Sets what the anchor of a node refers to. -/
def Properties.bind (ps : Properties) (target : Anchored) (anchors : Anchors) : Anchors :=
  match ps.anchor with
  | some name => (name, target) :: anchors
  | none => anchors

/-- Whether the anchor of a node is a new one. -/
def Properties.isNew (ps : Properties) (anchors : Anchors) : Bool :=
  match ps.anchor with
  | some name => (anchors.lookup name).isNone
  | none => true

mutual

/-- The node of a tree, and the anchors after it. -/
def Node.ofTree? (abbreviations : Abbreviations) (anchors : Anchors) :
    Tree → Option (Node × Anchors)
  | .alias name =>
    match anchors.lookup name with
    | some (.done node) => some (node, anchors)
    | some (.unfinished isMapping) => some (.loop isMapping, anchors)
    | none => none
  | .scalar ps plain text =>
    match ps.isNew anchors, scalarKind? abbreviations ps plain text with
    | true, some tag =>
      let node := Node.scalar tag text
      some (node, ps.bind (.done node) anchors)
    | _, _ => none
  | .sequence ps items =>
    match ps.isNew anchors, collectionKind? abbreviations ps .seq with
    | true, some tag =>
      match itemsOfTrees? abbreviations (ps.bind (.unfinished false) anchors) items with
      | some (items, anchors) =>
        let node := Node.sequence tag items
        some (node, ps.bind (.done node) anchors)
      | none => none
    | _, _ => none
  | .mapping ps members =>
    match ps.isNew anchors, collectionKind? abbreviations ps .map with
    | true, some tag =>
      match membersOfTrees? abbreviations (ps.bind (.unfinished true) anchors) members with
      | some (members, anchors) =>
        let node := Node.mapping tag members
        some (node, ps.bind (.done node) anchors)
      | none => none
    | _, _ => none

/-- The nodes of items. -/
def itemsOfTrees? (abbreviations : Abbreviations) (anchors : Anchors) :
    List Tree → Option (List Node × Anchors)
  | [] => some ([], anchors)
  | t :: rest =>
    match Node.ofTree? abbreviations anchors t with
    | none => none
    | some (node, anchors) =>
      match itemsOfTrees? abbreviations anchors rest with
      | none => none
      | some (nodes, anchors) => some (node :: nodes, anchors)

/-- The nodes of members. -/
def membersOfTrees? (abbreviations : Abbreviations) (anchors : Anchors) :
    List (Tree × Tree) → Option (List (Node × Node) × Anchors)
  | [] => some ([], anchors)
  | (k, v) :: rest =>
    match Node.ofTree? abbreviations anchors k with
    | none => none
    | some (k, anchors) =>
      match Node.ofTree? abbreviations anchors v with
      | none => none
      | some (v, anchors) =>
        match membersOfTrees? abbreviations anchors rest with
        | none => none
        | some (nodes, anchors) => some ((k, v) :: nodes, anchors)

end

/-! ### Loops -/

/-- The kind of a node. -/
def Node.tag : Node → Tag
  | .scalar tag _ => tag
  | .sequence tag _ => tag
  | .mapping tag _ => tag
  | .loop isMapping => if isMapping then .map else .seq

/-- Whether the node is a reference that has stayed. -/
def Node.isLoop : Node → Bool
  | .loop _ => true
  | _ => false

mutual

/-- Whether a reference to a collection has stayed inside it.  One whose members are merged into the
mapping around it does not count, since it adds nothing. -/
def Node.hasLoop : Node → Bool
  | .scalar .. => false
  | .sequence _ items => loopInItems items
  | .mapping _ members => loopInMembers members
  | .loop _ => true

/-- Whether a reference has stayed in items. -/
def loopInItems : List Node → Bool
  | [] => false
  | n :: rest => n.hasLoop || loopInItems rest

/-- Whether a reference has stayed in members. -/
def loopInMembers : List (Node × Node) → Bool
  | [] => false
  | (k, v) :: rest =>
    k.hasLoop || (v.hasLoop && !(k.tag = .merge && v.isLoop)) || loopInMembers rest

end

end ApiScribe.Yaml
