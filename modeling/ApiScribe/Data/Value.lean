/-
**Values.**

The data that bodies, documents and their free members are made of.  An atom is undivided; a value
is an atom, a sequence of values, or a mapping from atoms to values whose order is kept.

Main definitions:

* `ApiScribe.Atom`, `ApiScribe.Value` — the data;
* `ApiScribe.Atom.same`, `ApiScribe.Value.same` — equality of what values stand for: `1`, `1.0` and
  the truth value *true* agree, the order of a mapping does not count, and not-a-number differs from
  itself;
* `ApiScribe.Atom.sameKey` — which atoms name the same member;
* `ApiScribe.Atom.typeName`, `ApiScribe.Value.typeName` — the word for the kind of a value;
* `ApiScribe.Value.IsJson` — the values that a JSON text can hold.
-/

import ApiScribe.Data.Calendar
import ApiScribe.Data.Members

set_option autoImplicit false

namespace ApiScribe

/-- An undivided datum. -/
inductive Atom where
  /-- The absent value. -/
  | null
  /-- A truth value. -/
  | bool (b : Bool)
  /-- A whole number of any size. -/
  | int (n : Int)
  /-- A floating-point number. -/
  | float (x : Binary64)
  /-- A text. -/
  | text (s : String)
  /-- A sequence of bytes. -/
  | bytes (bs : List UInt8)
  /-- A day. -/
  | date (d : Date)
  /-- A moment. -/
  | moment (t : Moment)
  deriving DecidableEq, Repr

/-- A datum of any shape. -/
inductive Value where
  /-- An undivided datum. -/
  | atom (a : Atom)
  /-- A sequence. -/
  | list (items : List Value)
  /-- A sequence of fixed make-up. -/
  | tuple (items : List Value)
  /-- A collection of atoms without repetitions. -/
  | set (items : List Atom)
  /-- A mapping. -/
  | map (members : List (Atom × Value))
  deriving Repr

/-- The members of an object beside those that its kind fixes. -/
abbrev Extras := Members String Value

namespace Value

/-- The absent value. -/
abbrev null : Value := atom .null

/-- A text as a value. -/
abbrev text (s : String) : Value := atom (.text s)

/-- A mapping from texts. -/
def object (members : Members String Value) : Value :=
  map (members.map fun m => (.text m.1, m.2))

instance : Inhabited Value := ⟨null⟩

/-- Whether the value is absent. -/
def isNull : Value → Bool
  | atom .null => true
  | _ => false

end Value

/-! ### Equality -/

/-- The number that an atom stands for, where truth values stand for one and zero. -/
def Atom.number? : Atom → Option (Int ⊕ Binary64)
  | .bool b => some (.inl (if b then 1 else 0))
  | .int n => some (.inl n)
  | .float x => some (.inr x)
  | _ => none

/-- Whether two numbers of either kind are equal. -/
def sameNumber : Int ⊕ Binary64 → Int ⊕ Binary64 → Bool
  | .inl m, .inl n => m == n
  | .inl m, .inr y => y.isInt m
  | .inr x, .inl n => x.isInt n
  | .inr x, .inr y => x.same y

/-- Whether two atoms stand for the same. -/
def Atom.same (a b : Atom) : Bool :=
  match a.number?, b.number? with
  | some x, some y => sameNumber x y
  | none, none =>
    match a, b with
    | .moment s, .moment t => s.same t
    | a, b => a == b
  | _, _ => false

/-- Whether two atoms name the same member: atoms that stand for the same, and not-a-number. -/
def Atom.sameKey (a b : Atom) : Bool := a.same b || a == b

mutual

/-- Whether two values stand for the same. -/
def Value.same : Value → Value → Bool
  | .atom a, .atom b => a.same b
  | .list xs, .list ys => sameItems xs ys
  | .tuple xs, .tuple ys => sameItems xs ys
  | .set xs, .set ys => xs.length == ys.length && xs.all fun x => ys.any (Atom.sameKey x)
  | .map xs, .map ys => xs.length == ys.length && sameMembers xs ys
  | _, _ => false

/-- Whether two sequences agree item by item. -/
def sameItems : List Value → List Value → Bool
  | [], [] => true
  | x :: xs, y :: ys => x.same y && sameItems xs ys
  | _, _ => false

/-- Whether every member of the first mapping is in the second one with the same value. -/
def sameMembers : Members Atom Value → Members Atom Value → Bool
  | [], _ => true
  | (k, x) :: xs, ys =>
    (match ys.find? fun m => k.sameKey m.1 with
      | some m => x.same m.2
      | none => false) && sameMembers xs ys

end

/-- Whether two collections of free members agree, whatever their order. -/
def Extras.same (xs ys : Extras) : Bool :=
  xs.length == ys.length && xs.all fun m =>
    match Members.get? ys m.1 with
    | some y => m.2.same y
    | none => false

/-! ### Kinds -/

/-- The word for the kind of an atom. -/
def Atom.typeName : Atom → String
  | .null => "NoneType"
  | .bool _ => "bool"
  | .int _ => "int"
  | .float _ => "float"
  | .text _ => "str"
  | .bytes _ => "bytes"
  | .date _ => "date"
  | .moment _ => "datetime"

/-- The word for the kind of a value. -/
def Value.typeName : Value → String
  | .atom a => a.typeName
  | .list _ => "list"
  | .tuple _ => "tuple"
  | .set _ => "set"
  | .map _ => "dict"

/-- The atoms that a JSON text can hold. -/
def Atom.IsJson : Atom → Prop
  | .null | .bool _ | .int _ | .text _ => True
  | .float x => x.isFinite = true ∧ x.Canonical
  | _ => False

mutual

/-- The values that a JSON text can hold: finite numbers, and mappings from distinct texts. -/
def Value.IsJson : Value → Prop
  | .atom a => a.IsJson
  | .list xs => jsonItems xs
  | .map ms => jsonMembers ms ∧ (Members.keys ms).Nodup
  | _ => False

/-- All items are values of a JSON text. -/
def jsonItems : List Value → Prop
  | [] => True
  | v :: rest => v.IsJson ∧ jsonItems rest

/-- All names are texts, and all members are values of a JSON text. -/
def jsonMembers : Members Atom Value → Prop
  | [] => True
  | (k, v) :: rest => (∃ s, k = .text s) ∧ v.IsJson ∧ jsonMembers rest

end

end ApiScribe
