/-
**The schema of a sample.**

A sample is one value that was seen.  Its schema is minimal: every member that is present is a
property and is required, and an array is described by its first item alone.  Absent members are
passed over, since nothing is known of their kind.  The required names are listed member by member,
so that a text is repeated if two members are named by it: by the text itself and by its bytes.

Main definitions:

* `ApiScribe.maxSafeInteger`, `ApiScribe.isSafeInteger` — the whole numbers that every reader
  represents exactly;
* `ApiScribe.Schema.ofMembers` — the schema of an object, whose members must have texts for names;
* `ApiScribe.Schema.ofSample` — the schema of a sample.
-/

import ApiScribe.Schema.Error
import ApiScribe.Validation.Fields

set_option autoImplicit false

namespace ApiScribe

/-- The greatest whole number below which every whole number is a floating-point number. -/
def maxSafeInteger : Nat := Nat.pow 2 53 - 1

/-- Whether a whole number is represented exactly by every reader. -/
def isSafeInteger (n : Int) : Bool := n.natAbs ≤ maxSafeInteger

/-- The kind of a number. -/
def numberKind (whole : Option Int) : ScalarKind :=
  match whole with
  | some n => if isSafeInteger n then .integer else .number
  | none => .number

/-- The kind of an atom, if a schema describes it. -/
def Atom.scalarKind? : Atom → Option ScalarKind
  | .bool _ => some .boolean
  | .int n => some (numberKind (some n))
  | .float x => some (numberKind x.toInt?)
  | .text _ => some .string
  | .null | .bytes _ | .date _ | .moment _ => none

/-- Members with schemas as properties, with an issue for each name that is not a text. -/
def namedProperties : Members Atom Schema → Checked (Members String Schema)
  | [] => .valid []
  | (k, s) :: rest => (· :: ·) <$> readMember k (.valid s) <*> namedProperties rest

/-- The schema of an object with members, all of which are required. -/
def Schema.ofMembers (shapes : Members Atom Schema) : Checked Schema :=
  (fun properties required => .object (Members.ofList properties) required [])
    <$> (namedProperties shapes).under (.name "properties")
    <*> (readSequence readText (.list (shapes.keys.map .atom))).under (.name "required")

mutual

/-- The schema of a sample. -/
def Schema.ofSample : Value → Except SchemaError Schema
  | .atom a =>
    match a.scalarKind? with
    | some kind => .ok (.scalar kind [])
    | none => .error (.unsupportedValue (.atom a))
  | .list [] => .ok (.array none [])
  | .list (v :: _) => (Schema.ofSample v).map fun s => .array (some s) []
  | .tuple [] => .ok (.array none [])
  | .tuple (v :: _) => (Schema.ofSample v).map fun s => .array (some s) []
  | .set items => .error (.unsupportedValue (.set items))
  | .map members =>
    match sampleMembers members with
    | .error e => .error e
    | .ok shapes =>
      match Schema.ofMembers shapes with
      | .valid s => .ok s
      | .invalid issues => .error (.invalidNames issues)

/-- The schemas of the members that are present. -/
def sampleMembers : Members Atom Value → Except SchemaError (Members Atom Schema)
  | [] => .ok []
  | (k, v) :: rest =>
    if v.isNull then sampleMembers rest
    else
      match Schema.ofSample v with
      | .error e => .error e
      | .ok s => (sampleMembers rest).map ((k, s) :: ·)

end

end ApiScribe
