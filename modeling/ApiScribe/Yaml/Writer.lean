/-
**Writing YAML text.**

A mapping has a line for each member, and a sequence a line for each item.  A mapping inside another
one is indented; a sequence inside a mapping is not.  Long texts are broken at blanks.

Main definitions:

* `ApiScribe.Yaml.plainText`, `ApiScribe.Yaml.singleText`, `ApiScribe.Yaml.doubleText` — the three
  ways to write a text;
* `ApiScribe.Yaml.writeMembers`, `ApiScribe.Yaml.writeItems` — mappings and sequences;
* `ApiScribe.Yaml.write` — the text of a mapping.

The data are in JSON form: the keys are texts, and there are no bytes, days or moments.
-/

import ApiScribe.Data.Spelling
import ApiScribe.Yaml.Style

set_option autoImplicit false

namespace ApiScribe.Yaml

/-- The column after which a text may be broken. -/
def width : Nat := 80

/-- A number of blanks. -/
def spaces (n : Nat) : List Char := List.replicate n ' '

/-- A line break with an indentation. -/
def newLine (indent : Nat) : List Char := '\n' :: spaces indent

/-! ### Texts -/

/-- Whether a text is broken at `c`, which stands in `column` after `previous` and before `rest`:
only a lone blank inside the text can become a line break. -/
def breaksAt (column : Nat) (previous : Option Char) (c : Char) (rest : List Char) : Bool :=
  c = ' ' && width < column && previous.any (· ≠ ' ') && rest.head?.any (· ≠ ' ')

/-- A text without quotes; `split` says whether it may be broken. -/
def plainText (split : Bool) (indent column : Nat) (previous : Option Char) :
    List Char → List Char
  | [] => []
  | c :: rest =>
    if split && breaksAt column previous c rest then
      newLine indent ++ plainText split indent indent (some c) rest
    else c :: plainText split indent (column + 1) (some c) rest

/-- A text between single quotes. -/
def singleText (split : Bool) (indent column : Nat) (previous : Option Char) :
    List Char → List Char
  | [] => if previous.any isBreak then spaces indent else []
  | c :: rest =>
    let afterBreak := previous.any isBreak
    if isBreak c then
      (if c = '\n' && !afterBreak then ['\n'] else [])
        ++ c :: singleText split indent 0 (some c) rest
    else if split && breaksAt column previous c rest then
      newLine indent ++ singleText split indent indent (some c) rest
    else
      let lead := if afterBreak then spaces indent else []
      let written := if c = '\'' then ['\'', '\''] else [c]
      let column := if afterBreak then indent else column
      lead ++ written ++ singleText split indent (column + written.length) (some c) rest

/-- The letter that stands for a character after a backslash. -/
def escapeLetter? (c : Char) : Option Char :=
  match c with
  | '\x00' => some '0'
  | '\x07' => some 'a'
  | '\x08' => some 'b'
  | '\t' => some 't'
  | '\n' => some 'n'
  | '\x0b' => some 'v'
  | '\x0c' => some 'f'
  | '\r' => some 'r'
  | '\x1b' => some 'e'
  | '"' => some '"'
  | '\\' => some '\\'
  | '\u0085' => some 'N'
  | '\u2028' => some 'L'
  | '\u2029' => some 'P'
  | _ => none

/-- Whether `c` is itself between double quotes. -/
def isBare (c : Char) : Bool :=
  !(c = '"' || c = '\\' || c = '\uFEFF' || isBreak c)
    && ((0x20 ≤ c.toNat && c.toNat ≤ 0x7E) || (0xA0 ≤ c.toNat && c.toNat ≤ 0xFFFD))

/-- The last `width` hexadecimal digits of `n`, with capital letters. -/
def capitalHex (width n : Nat) : List Char := (hexDigits width n).map Char.toUpper

/-- The escape of a character. -/
def escape (c : Char) : List Char :=
  match escapeLetter? c with
  | some letter => ['\\', letter]
  | none =>
    if c.toNat ≤ 0xFF then '\\' :: 'x' :: capitalHex 2 c.toNat
    else if c.toNat ≤ 0xFFFF then '\\' :: 'u' :: capitalHex 4 c.toNat
    else '\\' :: 'U' :: capitalHex 8 c.toNat

/-- A line break that does not count as part of a text, before a character.  A blank after it is
escaped, so that it counts. -/
def hiddenBreak (indent : Nat) (next : Option Char) : List Char :=
  '\\' :: newLine indent ++ (if next = some ' ' then ['\\'] else [])

/-- The column after a hidden line break. -/
def columnAfterBreak (indent : Nat) (next : Option Char) : Nat :=
  if next = some ' ' then indent + 1 else indent

/-- A text between double quotes.  It may be broken at a blank, and after an escape; `first` says
whether no character comes before, and `fresh` whether an escape comes right before. -/
def doubleText (split : Bool) (indent column : Nat) (first fresh : Bool) : List Char → List Char
  | [] => []
  | c :: rest =>
    let inside := split && !first && !rest.isEmpty
    if isBare c then
      if inside && (c = ' ' || fresh) && width < column then
        hiddenBreak indent (some c)
          ++ c :: doubleText split indent (columnAfterBreak indent (some c) + 1) false false rest
      else c :: doubleText split indent (column + 1) false false rest
    else
      let column := column + (escape c).length
      if inside && width + 1 < column then
        escape c ++ hiddenBreak indent rest.head?
          ++ doubleText split indent (columnAfterBreak indent rest.head?) false true rest
      else escape c ++ doubleText split indent column false true rest

/-- A text that starts in a column; `indent` is the indentation of its further lines. -/
def writeText (split : Bool) (indent column : Nat) (cs : List Char) : List Char :=
  match Style.ofText cs with
  | .plain => plainText split indent column none cs
  | .single => '\'' :: singleText split indent (column + 1) none cs ++ ['\'']
  | .double => '"' :: doubleText split indent (column + 1) true true cs ++ ['"']

/-- An atom that starts in a column. -/
def writeScalar (split : Bool) (indent column : Nat) : Atom → List Char
  | .null => ['n', 'u', 'l', 'l']
  | .bool true => ['t', 'r', 'u', 'e']
  | .bool false => ['f', 'a', 'l', 's', 'e']
  | .int n => integerText n
  | .float x => Layout.yaml.render x
  | a => writeText split indent column a.plain.toList

/-! ### Collections -/

/-- The number of characters from which on a key has a line of its own. -/
def longKey : Nat := 123

/-- Whether a key stands in one line with the start of its value. -/
def isSimpleKey : Atom → Bool
  | .text s => !s.isEmpty && !s.toList.any isBreak && s.length < longKey
  | _ => true

mutual

/-- What follows the colon after a key.  The mapping is indented by `indent`, and the colon ends in
`column`. -/
def writeAfterKey (indent column : Nat) : Value → List Char
  | .atom a => ' ' :: writeScalar true (indent + 2) (column + 1) a
  | .list [] => [' ', '[', ']']
  | .list (v :: vs) => newLine indent ++ writeItems indent (v :: vs)
  | .tuple [] => [' ', '[', ']']
  | .tuple (v :: vs) => newLine indent ++ writeItems indent (v :: vs)
  | .map [] => [' ', '{', '}']
  | .map (m :: ms) => newLine (indent + 2) ++ writeMembers (indent + 2) (m :: ms)
  | .set _ => [' ', '{', '}']

/-- What follows a hyphen, or a colon at the start of a line, in the column `indent`. -/
def writeAfterMark (indent : Nat) : Value → List Char
  | .atom a => ' ' :: writeScalar true (indent + 2) (indent + 2) a
  | .list [] => [' ', '[', ']']
  | .list (v :: vs) => ' ' :: writeItems (indent + 2) (v :: vs)
  | .tuple [] => [' ', '[', ']']
  | .tuple (v :: vs) => ' ' :: writeItems (indent + 2) (v :: vs)
  | .map [] => [' ', '{', '}']
  | .map (m :: ms) => ' ' :: writeMembers (indent + 2) (m :: ms)
  | .set _ => [' ', '{', '}']

/-- The items of a sequence that is indented by `indent`, from the first hyphen on. -/
def writeItems (indent : Nat) : List Value → List Char
  | [] => []
  | v :: vs =>
    '-' :: writeAfterMark indent v
      ++ (if vs.isEmpty then [] else newLine indent ++ writeItems indent vs)

/-- The members of a mapping that is indented by `indent`, from the first key on. -/
def writeMembers (indent : Nat) : List (Atom × Value) → List Char
  | [] => []
  | (k, v) :: ms =>
    (if isSimpleKey k then
        let key := writeScalar false (indent + 2) indent k
        key ++ ':' :: writeAfterKey indent (indent + key.length + 1) v
      else
        '?' :: ' ' :: writeScalar true (indent + 2) (indent + 2) k
          ++ newLine indent ++ ':' :: writeAfterMark indent v)
      ++ (if ms.isEmpty then [] else newLine indent ++ writeMembers indent ms)

end

/-- The text of a mapping. -/
def write (ms : Members Atom Value) : List Char :=
  (if ms.isEmpty then ['{', '}'] else writeMembers 0 ms) ++ ['\n']

end ApiScribe.Yaml
