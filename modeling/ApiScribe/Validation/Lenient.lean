/-
**Lenient reading of single values.**

Where a text, a whole number or a truth value is wanted, other values that plainly denote one are
taken for it: bytes for the text that they encode, a number without a fraction for a whole number,
texts such as `+200` or `yes` for what they say.

Main definitions: `ApiScribe.readText`, `ApiScribe.readInteger`, `ApiScribe.readTruth`,
`ApiScribe.readOneOf`.
-/

import ApiScribe.Validation.Issue
import ApiScribe.Number.Reading
import ApiScribe.Text.Blank
import ApiScribe.Text.Utf8

set_option autoImplicit false

namespace ApiScribe

/-- A text, or the text that bytes encode. -/
def readText : Value → Checked String
  | .atom (.text s) => .valid s
  | .atom (.bytes bs) =>
    match Utf8.decode? bs with
    | some cs => .valid (String.ofList cs)
    | none => .fail .stringUnicode
  | _ => .fail .stringType

/-- One of a few fixed texts. -/
def readOneOf (allowed : List String) : Value → Checked String
  | .atom (.text s) => if allowed.contains s then .valid s else .fail .literalError
  | _ => .fail .literalError

/-! ### Whole numbers -/

/-- Digits with single underscores between them, as the digits alone. -/
def dropUnderscores : List Char → Option (List Char)
  | [] => none
  | [c] => if c.isDigit then some [c] else none
  | c :: '_' :: rest => if c.isDigit then (dropUnderscores rest).map (c :: ·) else none
  | c :: rest => if c.isDigit then (dropUnderscores rest).map (c :: ·) else none

/-- A numeral without a point and the zeros after it.  There must be such a zero after a point. -/
def dropZeroFraction (cs : List Char) : Option (List Char) :=
  match cs.dropWhile (· ≠ '.') with
  | [] => some cs
  | _ :: zeros =>
    if !zeros.isEmpty && zeros.all (· = '0') then some (cs.takeWhile (· ≠ '.')) else none

/-- The number that an unsigned numeral denotes: digits with single underscores between them, and
perhaps a fraction of zeros.  Zeros in front must be followed by a digit. -/
def unsignedOf? (cs : List Char) : Option Nat :=
  match dropZeroFraction cs with
  | none => none
  | some whole =>
    match dropUnderscores whole with
    | none => none
    | some ds =>
      match whole.dropWhile (· = '0') with
      | '_' :: _ => if whole.head? = some '0' then none else some (natOfDecimal ds)
      | _ => some (natOfDecimal ds)

/-- The number that a numeral denotes, with white space around it and a sign in front.  After a
minus sign there must not be zeros in front of other digits. -/
def integerOf? (cs : List Char) : Option Int :=
  match Text.trimBy Text.isWhite cs with
  | '-' :: rest =>
    match rest with
    | '0' :: c :: _ => if c = '.' then (unsignedOf? rest).map fun n => -(n : Int) else none
    | _ => (unsignedOf? rest).map fun n => -(n : Int)
  | '+' :: rest => (unsignedOf? rest).map fun n => (n : Int)
  | rest => (unsignedOf? rest).map fun n => (n : Int)

/-- The whole number that a text denotes. -/
def readIntegerText (cs : List Char) : Checked Int :=
  match integerOf? cs with
  | some n => .valid n
  | none => .fail .intParsing

/-- A whole number, or what denotes one. -/
def readInteger : Value → Checked Int
  | .atom (.int n) => .valid n
  | .atom (.bool b) => .valid (if b then 1 else 0)
  | .atom (.float x) =>
    if !x.isFinite then .fail .finiteNumber
    else
      match x.toInt? with
      | none => .fail .intFromFloat
      | some n =>
        if -0x8000000000000000 ≤ n && n ≤ 0x8000000000000000 then .valid n
        else .fail .intParsingSize
  | .atom (.text s) => readIntegerText s.toList
  | .atom (.bytes bs) =>
    match Utf8.decode? bs with
    | some cs => readIntegerText cs
    | none => .fail .intParsing
  | _ => .fail .intType

/-! ### Truth values -/

/-- The texts for *true*. -/
def trueWords : List String := ["true", "t", "yes", "y", "on", "1"]

/-- The texts for *false*. -/
def falseWords : List String := ["false", "f", "no", "n", "off", "0"]

/-- The truth value that a text denotes, whatever the case of its letters. -/
def readTruthText (cs : List Char) : Checked Bool :=
  let word := String.ofList (cs.map Char.toLower)
  if trueWords.contains word then .valid true
  else if falseWords.contains word then .valid false
  else .fail .boolParsing

/-- The truth value that a whole number denotes: only one and zero denote one. -/
def readTruthNumber (n : Int) : Checked Bool :=
  if n = 1 then .valid true else if n = 0 then .valid false else .fail .boolParsing

/-- A truth value, or what denotes one.  A number that does not fit into a machine word is of the wrong
type. -/
def readTruth : Value → Checked Bool
  | .atom (.bool b) => .valid b
  | .atom (.int n) => if isWordSized n then readTruthNumber n else .fail .boolType
  | .atom (.float x) =>
    match x.toInt? with
    | none => .fail .boolType
    | some n =>
      if -0x8000000000000000 ≤ n && n ≤ 0x8000000000000000 then readTruthNumber n
      else .fail .boolType
  | .atom (.text s) => readTruthText s.toList
  | .atom (.bytes bs) =>
    match Utf8.decode? bs with
    | some cs => readTruthText cs
    | none => .fail .boolParsing
  | _ => .fail .boolType

end ApiScribe
