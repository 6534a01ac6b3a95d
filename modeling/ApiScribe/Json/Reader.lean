/-
**Reading JSON text.**

The reader accepts the grammar of JSON and nothing else: no words for numbers that are not finite,
no controls inside strings, no second value.  Whole numbers keep all their digits, up to a limit on
their count; of members with one name the last one counts, in the place of the first.

Main definitions:

* `ApiScribe.Json.readString`, `ApiScribe.Json.readNumber` — a string and a number at the start of
  a text;
* `ApiScribe.Json.readValue` — a value at the start of a text;
* `ApiScribe.Json.read?` — the value of a whole text.

A text cannot hold half of a surrogate pair, so an escape that denotes one is read as the
replacement character.
-/

import ApiScribe.Data.Value
import ApiScribe.Number.Reading
import ApiScribe.Text.Utf8

set_option autoImplicit false

namespace ApiScribe.Json

/-- The greatest number of digits of a whole number. -/
def maxIntegerDigits : Nat := 4300

/-- Whether `c` may stand between the parts of a JSON text. -/
def isSpace (c : Char) : Bool := c = ' ' || c = '\t' || c = '\n' || c = '\r'

/-- The text without blanks at its start. -/
def skipSpace (cs : List Char) : List Char := cs.dropWhile isSpace

/-! ### Strings -/

/-- The character that a letter after a backslash stands for. -/
def escapeOf? (c : Char) : Option Char :=
  match c with
  | '"' => some '"'
  | '\\' => some '\\'
  | '/' => some '/'
  | 'b' => some '\x08'
  | 'f' => some '\x0c'
  | 'n' => some '\n'
  | 'r' => some '\r'
  | 't' => some '\t'
  | _ => none

/-- The unit of sixteen bits that four hexadecimal digits stand for. -/
def unitOf? (a b c d : Char) : Option Nat :=
  if [a, b, c, d].all isHexDigit then some (natOfDigits 16 [a, b, c, d]) else none

/-- What one place of a string holds. -/
inductive Piece where
  /-- A character that stands for itself or is escaped by a letter. -/
  | char (c : Char)
  /-- A unit of sixteen bits that is given by its value. -/
  | unit (u : Nat)
  deriving DecidableEq, Repr

/-- The pieces of a string up to its closing quote, and the text after it. -/
def readPieces : List Char → Option (List Piece × List Char)
  | [] => none
  | '"' :: rest => some ([], rest)
  | '\\' :: 'u' :: a :: b :: c :: d :: rest =>
    match unitOf? a b c d with
    | none => none
    | some u => (readPieces rest).map fun (ps, r) => (.unit u :: ps, r)
  | '\\' :: c :: rest =>
    match escapeOf? c with
    | none => none
    | some e => (readPieces rest).map fun (ps, r) => (.char e :: ps, r)
  | c :: rest =>
    if c.toNat < 0x20 then none else (readPieces rest).map fun (ps, r) => (.char c :: ps, r)

/-- The character of a surrogate pair, if the units are one. -/
def pairChar? (u v : Nat) : Option Char :=
  if 0xD800 ≤ u ∧ u < 0xDC00 ∧ 0xDC00 ≤ v ∧ v < 0xE000 then
    some (charOfCode (0x10000 + (u - 0xD800) * 0x400 + (v - 0xDC00)))
  else none

/-- The characters of pieces, in which a unit may be the first half of a pair that is still to be
completed. -/
def joinPieces : Option Nat → List Piece → List Char
  | none, [] => []
  | some u, [] => [charOfCode u]
  | none, .char c :: rest => c :: joinPieces none rest
  | some u, .char c :: rest => charOfCode u :: c :: joinPieces none rest
  | none, .unit v :: rest => joinPieces (some v) rest
  | some u, .unit v :: rest =>
    match pairChar? u v with
    | some c => c :: joinPieces none rest
    | none => charOfCode u :: joinPieces (some v) rest

/-- The characters of a string up to its closing quote, and the text after it. -/
def readString (cs : List Char) : Option (List Char × List Char) :=
  (readPieces cs).map fun (ps, rest) => (joinPieces none ps, rest)

/-! ### Numbers -/

/-- The digits of a whole part: a zero alone, or digits that do not start with a zero. -/
def takeWhole (cs : List Char) : Option (List Char × List Char) :=
  match cs with
  | '0' :: rest => some (['0'], rest)
  | c :: _ => if c.isDigit then some (takeDigits cs) else none
  | [] => none

/-- The number with a sign and a whole part, and the text after it. -/
def readUnsigned (negative : Bool) (cs : List Char) : Option (Atom × List Char) :=
  match takeWhole cs with
  | none => none
  | some (ds, rest) =>
    match Fraction.take? rest with
    | some (f, rest) => some (.float (f.toBinary64 negative ds), rest)
    | none =>
      if ds.length ≤ maxIntegerDigits then
        let n : Int := natOfDecimal ds
        some (.int (if negative then -n else n), rest)
      else none

/-- A number, and the text after it. -/
def readNumber (cs : List Char) : Option (Atom × List Char) :=
  match cs with
  | '-' :: rest => readUnsigned true rest
  | cs => readUnsigned false cs

/-! ### Values -/

mutual

/-- A value at the start of a text, and the text after it.  The fuel bounds the number of parts
that are read one inside or after the other. -/
def readValue : Nat → List Char → Option (Value × List Char)
  | 0, _ => none
  | fuel + 1, cs =>
    match cs with
    | '"' :: rest => (readString rest).map fun (s, r) => (.text (String.ofList s), r)
    | '[' :: rest =>
      match skipSpace rest with
      | ']' :: rest => some (.list [], rest)
      | rest => (readItems fuel rest).map fun (xs, r) => (.list xs, r)
    | '{' :: rest =>
      match skipSpace rest with
      | '}' :: rest => some (.map [], rest)
      | rest => (readMembers fuel rest).map fun (ms, r) => (.map (Members.ofList ms), r)
    | 't' :: 'r' :: 'u' :: 'e' :: rest => some (.atom (.bool true), rest)
    | 'f' :: 'a' :: 'l' :: 's' :: 'e' :: rest => some (.atom (.bool false), rest)
    | 'n' :: 'u' :: 'l' :: 'l' :: rest => some (.null, rest)
    | cs => (readNumber cs).map fun (a, r) => (.atom a, r)

/-- The items of an array up to its closing bracket, of which there is at least one. -/
def readItems : Nat → List Char → Option (List Value × List Char)
  | 0, _ => none
  | fuel + 1, cs =>
    match readValue fuel cs with
    | none => none
    | some (v, rest) =>
      match skipSpace rest with
      | ']' :: rest => some ([v], rest)
      | ',' :: rest => (readItems fuel (skipSpace rest)).map fun (vs, r) => (v :: vs, r)
      | _ => none

/-- The members of an object up to its closing bracket, of which there is at least one. -/
def readMembers : Nat → List Char → Option (Members Atom Value × List Char)
  | 0, _ => none
  | fuel + 1, cs =>
    match cs with
    | '"' :: rest =>
      match readString rest with
      | none => none
      | some (name, rest) =>
        match skipSpace rest with
        | ':' :: rest =>
          match readValue fuel (skipSpace rest) with
          | none => none
          | some (v, rest) =>
            let member := (Atom.text (String.ofList name), v)
            match skipSpace rest with
            | '}' :: rest => some ([member], rest)
            | ',' :: rest =>
              (readMembers fuel (skipSpace rest)).map fun (ms, r) => (member :: ms, r)
            | _ => none
        | _ => none
    | _ => none

end

/-- The value of a whole text. -/
def read? (cs : List Char) : Option Value :=
  match readValue (cs.length + 1) (skipSpace cs) with
  | some (v, rest) => if (skipSpace rest).isEmpty then some v else none
  | none => none

end ApiScribe.Json
