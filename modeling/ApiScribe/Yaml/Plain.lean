/-
**Texts without quotes.**

A plain text runs on until something that cannot belong to it: a colon that ends a word, a comment,
or inside brackets one of the characters that structure them.  It may go on in the next line if that
is indented far enough.

Main definitions:

* `ApiScribe.Yaml.startsPlain` — whether a plain text starts here;
* `ApiScribe.Yaml.plainRun` — its part up to the next separator;
* `ApiScribe.Yaml.readPlain` — all of it.
-/

import ApiScribe.Yaml.Spot

set_option autoImplicit false

namespace ApiScribe.Yaml

/-- The characters that no plain text starts with, unless a further one excuses them. -/
def isIndicator (c : Char) : Bool :=
  ['-', '?', ':', ',', '[', ']', '{', '}', '#', '&', '*', '!', '|', '>', '\'', '"', '%', '@',
    '\x60'].contains c

/-- Whether a plain text starts with `c`, given what follows it. -/
def startsPlain (inFlow : Bool) (c : Char) (rest : List Spot) : Bool :=
  !(isGap c || isIndicator c)
    || (!endsWord rest && (c = '-' || (!inFlow && (c = '?' || c = ':'))))

/-- Whether `c` closes what is inside brackets, opens something, or separates it. -/
def isFlowMark (c : Char) : Bool := [',', '[', ']', '{', '}'].contains c

/-- Whether `c` cannot belong to a plain text, given what follows it. -/
def endsPlain (inFlow : Bool) (c : Char) (rest : List Spot) : Bool :=
  isGap c || (c = ':' && (endsWord rest || (inFlow && nextIs isFlowMark rest)))
    || (inFlow && (isFlowMark c || c = '?'))

/-- The characters of a plain text up to the next separator, and what follows them. -/
def plainRun (inFlow : Bool) : List Spot → List Char × List Spot
  | [] => ([], [])
  | s :: rest =>
    if endsPlain inFlow s.char rest then ([], s :: rest)
    else
      let (run, rest) := plainRun inFlow rest
      (s.char :: run, rest)

/-- The empty lines after a line break.  The first component is absent if they end at the mark of a
document. -/
def emptyLines : List Spot → Option (List Char) × List Spot
  | [] => (some [], [])
  | s :: rest =>
    if s.char = ' ' then emptyLines rest
    else if isBreak s.char then
      if atMarker rest then (none, rest)
      else
        let (breaks, rest) := emptyLines rest
        (breaks.map (breakText s.char :: ·), rest)
    else (some [], s :: rest)

/-- What stands between two runs of a plain text. -/
structure PlainGap where
  /-- What it contributes to the text; nothing if the text ends here. -/
  text : List Char
  /-- Whether it holds a line break. -/
  newLine : Bool
  /-- What follows it. -/
  rest : List Spot

/-- Reads what follows a run of a plain text. -/
def plainGap (spots : List Spot) : PlainGap :=
  let (spaces, rest) := takeRun (· = ' ') spots
  match rest with
  | [] => ⟨spaces, false, []⟩
  | s :: after =>
    if isBreak s.char then
      if atMarker after then ⟨[], true, after⟩
      else
        match emptyLines after with
        | (none, rest) => ⟨[], true, rest⟩
        | (some breaks, rest) => ⟨foldBreaks (breakText s.char) breaks, true, rest⟩
    else ⟨spaces, false, s :: after⟩

/-- Whether a plain text whose lines are indented by `indent` or more goes on here. -/
def continuesPlain (inFlow : Bool) (indent : Nat) : List Spot → Bool
  | [] => false
  | s :: rest =>
    s.char ≠ '#' && (inFlow || indent ≤ s.position.column) && !endsPlain inFlow s.char rest

/-- A plain text, whether a line break follows it, and what follows. -/
structure PlainText where
  /-- The text. -/
  text : List Char
  /-- Whether a line break follows it. -/
  newLine : Bool
  /-- What follows. -/
  rest : List Spot

/-- Reads a plain text whose lines are indented by `indent` or more.  The fuel bounds the number of
its runs. -/
def readPlain (inFlow : Bool) (indent : Nat) : Nat → List Spot → PlainText
  | 0, spots => ⟨[], false, spots⟩
  | fuel + 1, spots =>
    let (run, rest) := plainRun inFlow spots
    let gap := plainGap rest
    if !gap.text.isEmpty && continuesPlain inFlow indent gap.rest then
      let more := readPlain inFlow indent fuel gap.rest
      { more with text := run ++ gap.text ++ more.text }
    else ⟨run, gap.newLine, gap.rest⟩

end ApiScribe.Yaml
