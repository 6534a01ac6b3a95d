/-
**Reading the members of an object.**

An object of a fixed kind is read from a mapping.  Each of its fields has a name, and perhaps a
second one under which it is found if the first is absent; what no field takes is free.

Main definitions:

* `ApiScribe.asObject`, `ApiScribe.asMapping` — the members of an object and of a mapping;
* `ApiScribe.requiredField`, `ApiScribe.optionalField` — a field without and with a default;
* `ApiScribe.freeMembers`, `ApiScribe.noFreeMembers` — the free members, and the issues if there
  must not be any;
* `ApiScribe.readSequence`, `ApiScribe.readMapping` — sequences, and mappings from texts.
-/

import ApiScribe.Validation.Lenient

set_option autoImplicit false

namespace ApiScribe

variable {α : Type}

/-- Reads an object from its members. -/
def asObject (v : Value) (read : Members Atom Value → Checked α) : Checked α :=
  match v with
  | .map ms => read ms
  | _ => .fail .modelType

/-- Reads a mapping from its members. -/
def asMapping (v : Value) (read : Members Atom Value → Checked α) : Checked α :=
  match v with
  | .map ms => read ms
  | _ => .fail .dictType

/-! ### Fields -/

/-- The first of the names that is present, with its value. -/
def findField (ms : Members Atom Value) : List String → Option (String × Value)
  | [] => none
  | name :: rest =>
    match ms.get? (.text name) with
    | some v => some (name, v)
    | none => findField ms rest

/-- A field that must be present under one of its names. -/
def requiredField (ms : Members Atom Value) (names : List String) (read : Value → Checked α) :
    Checked α :=
  match findField ms names with
  | some (name, v) => (read v).under (.name name)
  | none => Checked.under (.name (names.headD "")) (.fail .missing)

/-- A field that has a default. -/
def optionalField (ms : Members Atom Value) (names : List String) (default : α)
    (read : Value → Checked α) : Checked α :=
  match findField ms names with
  | some (name, v) => (read v).under (.name name)
  | none => .valid default

/-- What is read unless the value is absent. -/
def readNullable (read : Value → Checked α) (v : Value) : Checked (Option α) :=
  if v.isNull then .valid none else (read v).map some

/-! ### Free members -/

/-- The names under which fields are found. -/
def takenNames (ms : Members Atom Value) (fields : List (List String)) : List String :=
  fields.filterMap fun names => (findField ms names).map (·.1)

/-- The name of a member, which must be a text.  Bytes are not taken for one here. -/
def readMemberName : Atom → Checked String
  | .text name => .valid name
  | k => Checked.under (Segment.ofKey k) (.fail .invalidKey)

/-- The members beside those named in `taken`. -/
def freeMembersBeside (taken : List String) : Members Atom Value → Checked Extras
  | [] => .valid []
  | (k, v) :: rest =>
    match readMemberName k with
    | .valid name =>
      if taken.contains name then freeMembersBeside taken rest
      else ((name, v) :: ·) <$> freeMembersBeside taken rest
    | .invalid issues =>
      (fun (_ : Unit) extras => extras) <$> .invalid issues <*> freeMembersBeside taken rest

/-- The members that none of the fields takes. -/
def freeMembers (ms : Members Atom Value) (fields : List (List String)) : Checked Extras :=
  Members.ofList <$> freeMembersBeside (takenNames ms fields) ms

/-- An issue for each member. -/
def noFreeMembers : Members Atom Value → Checked Unit
  | [] => .valid ()
  | (k, _) :: rest =>
    let issue : Checked Unit :=
      match readMemberName k with
      | .valid _ => Checked.under (Segment.ofKey k) (.fail .extraForbidden)
      | .invalid issues => .invalid issues
    (fun _ _ => ()) <$> issue <*> noFreeMembers rest

/-! ### Sequences and mappings -/

/-- The items of a sequence. -/
def sequenceItems? : Value → Option (List Value)
  | .list xs => some xs
  | .tuple xs => some xs
  | .set xs => some (xs.map .atom)
  | _ => none

/-- Reads items that have the indices from `start` on. -/
def readItemsFrom (read : Value → Checked α) (start : Nat) : List Value → Checked (List α)
  | [] => .valid []
  | v :: rest => (· :: ·) <$> (read v).under (.number start) <*> readItemsFrom read (start + 1) rest

/-- Reads a sequence item by item. -/
def readSequence (read : Value → Checked α) (v : Value) : Checked (List α) :=
  match sequenceItems? v with
  | some xs => readItemsFrom read 0 xs
  | none => .fail .listType

/-- A member of a mapping, from its key and what was read from its value. -/
def readMember (k : Atom) (value : Checked α) : Checked (String × α) :=
  Prod.mk <$> ((readText (.atom k)).under (.name "[key]")).under (Segment.ofKey k)
    <*> value.under (Segment.ofKey k)

/-- Reads the members of a mapping from texts. -/
def readMembersWith (read : Value → Checked α) : Members Atom Value → Checked (Members String α)
  | [] => .valid []
  | (k, v) :: rest => (· :: ·) <$> readMember k (read v) <*> readMembersWith read rest

/-- Reads a mapping from texts. -/
def readMapping (read : Value → Checked α) (v : Value) : Checked (Members String α) :=
  asMapping v fun ms => Members.ofList <$> readMembersWith read ms

end ApiScribe
