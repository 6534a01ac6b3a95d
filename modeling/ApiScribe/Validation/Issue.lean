/-
**What is wrong with data, and where.**

Main definitions:

* `ApiScribe.Segment` — one step on the way into data: a name, an index, or a number that stands in
  place of a name;
* `ApiScribe.Fault`, `ApiScribe.Issue` — a kind of fault, and a fault at a place;
* `ApiScribe.Checked` — a result, or all the issues found.  Combining two results keeps the issues
  of both, in order.
-/

import ApiScribe.Data.Spelling

set_option autoImplicit false

namespace ApiScribe

/-- One step on the way into data. -/
inductive Segment where
  /-- The member with a name. -/
  | name (s : String)
  /-- The item with an index, or the member with a number in place of a name. -/
  | number (n : Int)
  deriving DecidableEq, Repr

/-- Whether a whole number fits into a machine word of 64 bits with a sign. -/
def isWordSized (n : Int) : Bool := -0x8000000000000000 ≤ n && n < 0x8000000000000000

/-- The step to the member with a key.  Small whole numbers and truth values are shown as numbers,
other keys that are not texts as they are spelled. -/
def Segment.ofKey : Atom → Segment
  | .text s => .name s
  | .bool b => .number (if b then 1 else 0)
  | .int n => if isWordSized n then .number n else .name (Atom.int n).spell
  | a => .name a.spell

/-- The kinds of faults. -/
inductive Fault where
  /-- A member without a default is absent. -/
  | missing
  /-- A text is wanted. -/
  | stringType
  /-- Bytes in place of a text are not UTF-8. -/
  | stringUnicode
  /-- A sequence is wanted. -/
  | listType
  /-- A mapping is wanted. -/
  | dictType
  /-- An object with fixed members is wanted. -/
  | modelType
  /-- One of a few fixed texts is wanted. -/
  | literalError
  /-- The kind of a schema cannot be told. -/
  | unionTagInvalid
  /-- A member is not allowed. -/
  | extraForbidden
  /-- The name of a member is not a text. -/
  | invalidKey
  /-- A whole number is wanted. -/
  | intType
  /-- A text in place of a whole number does not denote one. -/
  | intParsing
  /-- A number in place of a whole number is too large. -/
  | intParsingSize
  /-- A number in place of a whole number has a fraction. -/
  | intFromFloat
  /-- A number is not finite. -/
  | finiteNumber
  /-- A truth value is wanted. -/
  | boolType
  /-- What stands in place of a truth value does not denote one. -/
  | boolParsing
  deriving DecidableEq, Repr

/-- The word for a kind of fault. -/
def Fault.name : Fault → String
  | .missing => "missing"
  | .stringType => "string_type"
  | .stringUnicode => "string_unicode"
  | .listType => "list_type"
  | .dictType => "dict_type"
  | .modelType => "model_type"
  | .literalError => "literal_error"
  | .unionTagInvalid => "union_tag_invalid"
  | .extraForbidden => "extra_forbidden"
  | .invalidKey => "invalid_key"
  | .intType => "int_type"
  | .intParsing => "int_parsing"
  | .intParsingSize => "int_parsing_size"
  | .intFromFloat => "int_from_float"
  | .finiteNumber => "finite_number"
  | .boolType => "bool_type"
  | .boolParsing => "bool_parsing"

/-- A fault at a place. -/
structure Issue where
  /-- The kind of fault. -/
  fault : Fault
  /-- The way from the root of the data to the place. -/
  place : List Segment
  deriving DecidableEq, Repr

/-- The same fault, seen from one step further out. -/
def Issue.under (segment : Segment) (issue : Issue) : Issue :=
  { issue with place := segment :: issue.place }

/-- A result, or all the issues that were found. -/
inductive Checked (α : Type) where
  /-- A result. -/
  | valid (a : α)
  /-- The issues in order. -/
  | invalid (issues : List Issue)
  deriving Repr

namespace Checked

variable {α β : Type}

/-- A single fault at the place itself. -/
def fail (fault : Fault) : Checked α := invalid [⟨fault, []⟩]

/-- Applies `f` to the result. -/
def map (f : α → β) : Checked α → Checked β
  | valid a => valid (f a)
  | invalid issues => invalid issues

/-- Applies one result to another; the issues of both are kept. -/
def apply : Checked (α → β) → Checked α → Checked β
  | valid f, valid a => valid (f a)
  | valid _, invalid issues => invalid issues
  | invalid issues, valid _ => invalid issues
  | invalid issues, invalid more => invalid (issues ++ more)

instance : Applicative Checked where
  pure := valid
  seq f a := apply f (a ())
  map f a := map f a

/-- The same result, seen from one step further out. -/
def under (segment : Segment) : Checked α → Checked α
  | valid a => valid a
  | invalid issues => invalid (issues.map (Issue.under segment))

/-- The result, if there is no issue. -/
def toOption : Checked α → Option α
  | valid a => some a
  | invalid _ => none

@[simp] theorem map_valid (f : α → β) (a : α) : f <$> valid a = valid (f a) := rfl

@[simp] theorem pure_eq_valid (a : α) : (pure a : Checked α) = valid a := rfl

@[simp] theorem seq_valid (f : α → β) (a : α) : valid f <*> valid a = valid (f a) := rfl

@[simp] theorem under_valid (segment : Segment) (a : α) : under segment (valid a) = valid a := rfl

end Checked

end ApiScribe
