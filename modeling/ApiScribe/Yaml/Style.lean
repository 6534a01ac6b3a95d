/-
**How a text is written in YAML.**

A text is written without quotes if it reads as that text again, else in single quotes if these can
express it, and else in double quotes, which can express every text.

Main definitions:

* `ApiScribe.Yaml.fitsPlain`, `ApiScribe.Yaml.fitsSingle` — whether a text can be written without
  quotes and in single quotes;
* `ApiScribe.Yaml.Style`, `ApiScribe.Yaml.Style.ofText` — the choice.
-/

import ApiScribe.Yaml.Spot
import ApiScribe.Yaml.Tag

set_option autoImplicit false

namespace ApiScribe.Yaml

/-- The ways to write a text. -/
inductive Style where
  /-- Without quotes. -/
  | plain
  /-- In single quotes. -/
  | single
  /-- In double quotes. -/
  | double
  deriving DecidableEq, Repr

/-- Whether `c` can only be written by an escape. -/
def needsEscape (c : Char) : Bool :=
  !(c = '\n' || (0x20 ≤ c.toNat && c.toNat ≤ 0x7E) || c = '\u0085'
    || (0xA0 ≤ c.toNat && c ≠ '\uFEFF' && c ≠ '\uFFFE' && c ≠ '\uFFFF' && c.toNat < 0x10FFFF))

/-- Whether two neighbours in a text are in the classes `p` and `q`. -/
def hasNeighbours (p q : Char → Bool) : List Char → Bool
  | a :: b :: rest => (p a && q b) || hasNeighbours p q (b :: rest)
  | _ => false

/-- Whether `c` is a blank; tabs are not among them. -/
def isSpace (c : Char) : Bool := c = ' '

/-- Whether a text has no line break next to a blank, and no character that needs an escape.  A
single quote loses blanks at the two ends of its lines. -/
def fitsSingle (cs : List Char) : Bool :=
  !(cs.any needsEscape || hasNeighbours isBreak isSpace cs || hasNeighbours isSpace isBreak cs)

/-! ### Plain texts -/

/-- Whether nothing or a separator comes next. -/
def endsHere : List Char → Bool
  | [] => true
  | c :: _ => isGap c

/-- Whether a text starts with a mark of the structure. -/
def startsWithMark : List Char → Bool
  | [] => false
  | '-' :: '-' :: '-' :: _ => true
  | '.' :: '.' :: '.' :: _ => true
  | c :: rest =>
    ['#', ',', '[', ']', '{', '}', '&', '*', '!', '|', '>', '\'', '"', '%', '@', '\x60'].contains c
      || ((c = '?' || c = ':' || c = '-') && endsHere rest)

/-- Whether a mark of the structure stands in a text that follows `previous`: a colon that ends a
word, or the start of a comment. -/
def holdsMark (previous : Char) : List Char → Bool
  | [] => false
  | c :: rest => (c = ':' && endsHere rest) || (c = '#' && isGap previous) || holdsMark c rest

/-- Whether a text that is not empty has no line breaks, no blanks at its ends, and nothing that
structures a document. -/
def fitsPlain : List Char → Bool
  | [] => true
  | c :: rest =>
    !((c :: rest).any (fun c => needsEscape c || isBreak c) || c = ' '
      || (c :: rest).getLast? = some ' ' || startsWithMark (c :: rest) || holdsMark c rest)

/-- How a text is written. -/
def Style.ofText (cs : List Char) : Style :=
  if Tag.ofPlain cs = .str && fitsPlain cs then .plain
  else if fitsSingle cs then .single
  else .double

end ApiScribe.Yaml
