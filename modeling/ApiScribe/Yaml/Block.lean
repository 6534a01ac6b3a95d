/-
**Texts as blocks of lines.**

After a bar or a greater-than sign the text is given by the following lines that are indented as far
as its first one.  A bar keeps its line breaks; a greater-than sign folds those between lines that
do not start with a blank.  Signs after the mark say what becomes of the line breaks at the end, and
how far the lines are indented.

Main definitions:

* `ApiScribe.Yaml.Chomp`, `ApiScribe.Yaml.readHeader` — the signs after the mark;
* `ApiScribe.Yaml.readBlock` — the text and what follows it.
-/

import ApiScribe.Yaml.Spot

set_option autoImplicit false

namespace ApiScribe.Yaml

/-- What becomes of the line breaks at the end of a block. -/
inductive Chomp where
  /-- The first one stays. -/
  | clip
  /-- All of them stay. -/
  | keep
  /-- None of them stays. -/
  | strip
  deriving DecidableEq, Repr

/-! ### The line of the mark -/

/-- The digit of an indentation, which is not zero. -/
def indentDigit? (c : Char) : Option Nat :=
  if c.isDigit && c ≠ '0' then some (c.toNat - '0'.toNat) else none

/-- The sign for the end of a block. -/
def chompSign? (c : Char) : Option Chomp :=
  if c = '+' then some .keep else if c = '-' then some .strip else none

/-- Reads a sign for the end of a block, if there is one. -/
def takeChomp : List Spot → Chomp × List Spot
  | [] => (.clip, [])
  | s :: rest =>
    match chompSign? s.char with
    | some chomp => (chomp, rest)
    | none => (.clip, s :: rest)

/-- Reads the digit of an indentation, if there is one.  A zero is refused. -/
def takeIndent : List Spot → Option (Option Nat × List Spot)
  | [] => some (none, [])
  | s :: rest =>
    if s.char = '0' then none
    else
      match indentDigit? s.char with
      | some n => some (some n, rest)
      | none => some (none, s :: rest)

/-- The signs after the mark of a block, in either order. -/
def takeSigns (spots : List Spot) : Option (Chomp × Option Nat × List Spot) :=
  if nextIs (fun c => (chompSign? c).isSome) spots then
    let (chomp, rest) := takeChomp spots
    (takeIndent rest).map fun (indent, rest) => (chomp, indent, rest)
  else
    (takeIndent spots).map fun (indent, rest) =>
      if indent.isSome then
        let (chomp, rest) := takeChomp rest
        (chomp, indent, rest)
      else (.clip, none, rest)

/-- What follows a comment. -/
def dropComment : List Spot → List Spot
  | [] => []
  | s :: rest => if isBreak s.char then s :: rest else dropComment rest

/-- What follows the rest of a line, in which only blanks and a comment may stand. -/
def restOfLine (spots : List Spot) : Option (List Spot) :=
  let rest := dropSpaces spots
  match if nextIs (· = '#') rest then dropComment rest else rest with
  | [] => some []
  | s :: rest => if isBreak s.char then some rest else none

/-- The signs after the mark of a block, and what follows their line. -/
def readHeader (spots : List Spot) : Option (Chomp × Option Nat × List Spot) :=
  match takeSigns spots with
  | none => none
  | some (chomp, indent, rest) =>
    if rest.isEmpty || nextIs (fun c => c = ' ' || isBreak c) rest then
      (restOfLine rest).map fun rest => (chomp, indent, rest)
    else none

/-! ### The lines -/

/-- The line breaks of the empty lines at the start of a block, how far the furthest of them or the
first other line is indented, and what follows them. -/
def leadingLines : List Spot → List Char × Nat × List Spot
  | [] => ([], 0, [])
  | s :: rest =>
    if s.char = ' ' then
      let (breaks, indent, rest) := leadingLines rest
      (breaks, max (s.position.column + 1) indent, rest)
    else if isBreak s.char then
      let (breaks, indent, rest) := leadingLines rest
      (breakText s.char :: breaks, indent, rest)
    else ([], 0, s :: rest)

/-- The line breaks of the empty lines in a block that is indented by `indent`, and what follows
them and the indentation of the next line. -/
def emptyBlockLines (indent : Nat) : List Spot → List Char × List Spot
  | [] => ([], [])
  | s :: rest =>
    if s.char = ' ' && s.position.column < indent then emptyBlockLines indent rest
    else if isBreak s.char then
      let (breaks, rest) := emptyBlockLines indent rest
      (breakText s.char :: breaks, rest)
    else ([], s :: rest)

/-- Whether a line of a block that is indented by `indent` comes next. -/
def atBlockLine (indent : Nat) : List Spot → Bool
  | [] => false
  | s :: _ => s.position.column = indent

/-- The lines of a block. -/
structure BlockLines where
  /-- The text without the line breaks at its end. -/
  text : List Char
  /-- The line break of the last line, if there is one. -/
  last : List Char
  /-- The line breaks of the empty lines after it. -/
  breaks : List Char
  /-- What follows. -/
  rest : List Spot

/-- What the line break between two lines of a block contributes to the text. -/
def blockJoint (folded lineStartsText nextStartsText : Bool) (last breaks : List Char) :
    List Char :=
  if folded && last = ['\n'] && lineStartsText && nextStartsText then
    (if breaks.isEmpty then [' '] else [])
  else last

/-- The lines of a block that is indented by `indent`, after empty lines with the given line breaks.
The fuel bounds the number of lines. -/
def readLines (folded : Bool) (indent : Nat) : Nat → List Char → List Spot → BlockLines
  | 0, breaks, spots => ⟨[], [], breaks, spots⟩
  | fuel + 1, breaks, spots =>
    if atBlockLine indent spots then
      let (line, after) := takeRun (!isBreak ·) spots
      let (last, after) : List Char × List Spot :=
        match after with
        | [] => ([], [])
        | s :: rest => ([breakText s.char], rest)
      let (next, rest) := emptyBlockLines indent after
      if atBlockLine indent rest then
        let joint := blockJoint folded (!nextIs isBlank spots) (!nextIs isBlank rest) last next
        let lines := readLines folded indent fuel next rest
        { lines with text := breaks ++ line ++ joint ++ lines.text }
      else ⟨breaks ++ line, last, next, rest⟩
    else ⟨[], [], breaks, spots⟩

/-- The text of lines, with as many line breaks at its end as stay. -/
def BlockLines.chomped (lines : BlockLines) : Chomp → List Char
  | .clip => lines.text ++ lines.last
  | .keep => lines.text ++ lines.last ++ lines.breaks
  | .strip => lines.text

/-- Reads a block after its mark.  Its lines are indented by `least` or more; an indentation that is
given counts from there. -/
def readBlock (folded : Bool) (least fuel : Nat) (spots : List Spot) :
    Option (List Char × List Spot) :=
  match readHeader spots with
  | none => none
  | some (chomp, given, rest) =>
    let lines :=
      match given with
      | some n =>
        let indent := least + n - 1
        let (breaks, rest) := emptyBlockLines indent rest
        readLines folded indent fuel breaks rest
      | none =>
        let (breaks, indent, rest) := leadingLines rest
        readLines folded (max least indent) fuel breaks rest
    some (lines.chomped chomp, lines.rest)

end ApiScribe.Yaml
