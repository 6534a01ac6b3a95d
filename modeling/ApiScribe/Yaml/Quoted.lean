/-
**Texts in quotes.**

Between single quotes a quote is written twice, and everything else stands for itself.  Between
double quotes a backslash starts an escape.  In both a line break is folded: the blanks around it
go away, and it becomes a blank itself unless empty lines follow.

Main definitions:

* `ApiScribe.Yaml.Quote` — what has been read since the last character of the text;
* `ApiScribe.Yaml.readSingle`, `ApiScribe.Yaml.readDouble` — the text up to the closing quote, and
  what follows it.
-/

import ApiScribe.Number.Reading
import ApiScribe.Text.Utf8
import ApiScribe.Yaml.Spot

set_option autoImplicit false

namespace ApiScribe.Yaml

/-- What has been read since the last character of a text in quotes. -/
inductive Quote where
  /-- Blanks. -/
  | blanks (cs : List Char)
  /-- A line break, and those of empty lines after it. -/
  | lines (first : Char) (more : List Char)
  /-- A line break that is escaped, and those of empty lines after it. -/
  | joined (more : List Char)

namespace Quote

/-- What it contributes to the text. -/
def text : Quote → List Char
  | blanks cs => cs
  | lines first more => foldBreaks first more
  | joined more => more

/-- A blank or tab more; after a line break it does not count. -/
def blank (c : Char) : Quote → Quote
  | blanks cs => blanks (cs ++ [c])
  | q => q

/-- A line break more. -/
def lineBreak (c : Char) : Quote → Quote
  | blanks _ => lines (breakText c) []
  | lines first more => lines first (more ++ [breakText c])
  | joined more => joined (more ++ [breakText c])

end Quote

/-- A text with more in front of it. -/
def prependText (cs : List Char) : Option (List Char × List Spot) → Option (List Char × List Spot)
  | none => none
  | some (text, rest) => some (cs ++ text, rest)

/-- Reads a text in single quotes after its opening quote. -/
def readSingle (q : Quote) : List Spot → Option (List Char × List Spot)
  | [] => none
  | s :: rest =>
    if isBlank s.char then readSingle (q.blank s.char) rest
    else if isBreak s.char then
      if atMarker rest then none else readSingle (q.lineBreak s.char) rest
    else if s.char = '\'' then
      match rest with
      | t :: rest' =>
        if t.char = '\'' then prependText (q.text ++ ['\'']) (readSingle (.blanks []) rest')
        else some (q.text, t :: rest')
      | [] => some (q.text, [])
    else prependText (q.text ++ [s.char]) (readSingle (.blanks []) rest)

/-! ### Double quotes -/

/-- The character that a letter after a backslash stands for. -/
def escaped? (c : Char) : Option Char :=
  match c with
  | '0' => some '\x00'
  | 'a' => some '\x07'
  | 'b' => some '\x08'
  | 't' => some '\t'
  | '\t' => some '\t'
  | 'n' => some '\n'
  | 'v' => some '\x0b'
  | 'f' => some '\x0c'
  | 'r' => some '\r'
  | 'e' => some '\x1b'
  | ' ' => some ' '
  | '"' => some '"'
  | '\\' => some '\\'
  | '/' => some '/'
  | 'N' => some '\u0085'
  | '_' => some '\u00a0'
  | 'L' => some '\u2028'
  | 'P' => some '\u2029'
  | _ => none

/-- The number of hexadecimal digits after a letter that announces a code point. -/
def codeLength? (c : Char) : Option Nat :=
  match c with
  | 'x' => some 2
  | 'u' => some 4
  | 'U' => some 8
  | _ => none

/-- Where a text in double quotes is being read. -/
inductive DoubleState where
  /-- Outside an escape. -/
  | outside (q : Quote)
  /-- After a backslash. -/
  | backslash
  /-- Inside a code point, of which `owed` more digits come after the next one. -/
  | code (owed value : Nat)

/-- Reads a text in double quotes after its opening quote. -/
def readDouble : DoubleState → List Spot → Option (List Char × List Spot)
  | _, [] => none
  | .outside q, s :: rest =>
    if isBlank s.char then readDouble (.outside (q.blank s.char)) rest
    else if isBreak s.char then
      if atMarker rest then none else readDouble (.outside (q.lineBreak s.char)) rest
    else if s.char = '"' then some (q.text, rest)
    else if s.char = '\\' then prependText q.text (readDouble .backslash rest)
    else prependText (q.text ++ [s.char]) (readDouble (.outside (.blanks [])) rest)
  | .backslash, s :: rest =>
    match escaped? s.char with
    | some c => prependText [c] (readDouble (.outside (.blanks [])) rest)
    | none =>
      match codeLength? s.char with
      | some n => readDouble (.code (n - 1) 0) rest
      | none =>
        if isBreak s.char && !atMarker rest then readDouble (.outside (.joined [])) rest else none
  | .code owed value, s :: rest =>
    match digitValue? s.char with
    | none => none
    | some d =>
      let value := value * 16 + d
      match owed with
      | owed + 1 => readDouble (.code owed value) rest
      | 0 =>
        if 0x10FFFF < value then none
        else prependText [charOfCode value] (readDouble (.outside (.blanks [])) rest)

end ApiScribe.Yaml
