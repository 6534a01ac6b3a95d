/-
**Characters in their places.**

The structure of a YAML text depends on where its characters stand: how far a line is indented, and
whether two characters share a line.  So the text is read as a list of characters each of which
carries its position.

Main definitions:

* `ApiScribe.Yaml.isBreak`, `ApiScribe.Yaml.isGap`, `ApiScribe.Yaml.isAllowed` — the classes of
  characters that the structure depends on;
* `ApiScribe.Yaml.Position`, `ApiScribe.Yaml.Spot`, `ApiScribe.Yaml.place` — characters with their
  positions;
* `ApiScribe.Yaml.endsWord`, `ApiScribe.Yaml.atMarker` — what comes next in a text.

Line breaks in the text are line feeds or one of three characters that stand for a line break; a
carriage return has been turned into a line feed before.
-/

set_option autoImplicit false

namespace ApiScribe.Yaml

/-! ### Classes of characters -/

/-- The byte-order mark, which takes no column. -/
def byteOrderMark : Char := '\uFEFF'

/-- Whether `c` ends a line. -/
def isBreak (c : Char) : Bool := c = '\n' || c = '\u0085' || c = '\u2028' || c = '\u2029'

/-- What a line break contributes to a text: the breaks of the older kinds are all line feeds. -/
def breakText (c : Char) : Char := if c = '\u0085' then '\n' else c

/-- Whether `c` is a blank or a tab. -/
def isBlank (c : Char) : Bool := c = ' ' || c = '\t'

/-- Whether `c` separates the parts of a text. -/
def isGap (c : Char) : Bool := isBlank c || isBreak c

/-- Whether `c` may stand in a text at all. -/
def isAllowed (c : Char) : Bool :=
  c = '\t' || c = '\n' || c = '\u0085' || (0x20 ≤ c.toNat && c.toNat ≤ 0x7E)
    || (0xA0 ≤ c.toNat && !(c = '\uFFFE' || c = '\uFFFF'))

/-! ### Positions -/

/-- A place in a text. -/
structure Position where
  /-- How many characters come before. -/
  index : Nat := 0
  /-- How many lines come before. -/
  line : Nat := 0
  /-- How many characters of the same line come before. -/
  column : Nat := 0
  deriving DecidableEq, Repr

/-- The place after a character. -/
def Position.after (p : Position) (c : Char) : Position :=
  if isBreak c then ⟨p.index + 1, p.line + 1, 0⟩
  else if c = byteOrderMark then { p with index := p.index + 1 }
  else { p with index := p.index + 1, column := p.column + 1 }

/-- A character with its place. -/
structure Spot where
  /-- The character. -/
  char : Char
  /-- Its place. -/
  position : Position
  deriving DecidableEq, Repr

/-- Characters with their places, of which the first is `p`. -/
def place : Position → List Char → List Spot
  | _, [] => []
  | p, c :: rest => ⟨c, p⟩ :: place (p.after c) rest

/-- The place after a text that starts at `p`. -/
def Position.afterAll (p : Position) (cs : List Char) : Position := cs.foldl Position.after p

/-! ### What comes next -/

/-- Whether a word ends here: a separator comes next, or nothing. -/
def endsWord : List Spot → Bool
  | [] => true
  | s :: _ => isGap s.char

/-- Whether a character of a class comes next. -/
def nextIs (p : Char → Bool) : List Spot → Bool
  | [] => false
  | s :: _ => p s.char

/-- Whether three equal characters of a class come next, and end a word. -/
def tripled (p : Char → Bool) : List Spot → Bool
  | a :: b :: c :: rest => p a.char && b.char = a.char && c.char = a.char && endsWord rest
  | _ => false

/-- Whether the mark of the start or the end of a document comes next. -/
def atMarker (spots : List Spot) : Bool := tripled (fun c => c = '-' || c = '.') spots

/-- The characters up to the first one outside a class, and what follows them. -/
def takeRun (p : Char → Bool) : List Spot → List Char × List Spot
  | [] => ([], [])
  | s :: rest =>
    if p s.char then
      let (run, rest) := takeRun p rest
      (s.char :: run, rest)
    else ([], s :: rest)

/-- What follows the blanks at the start; tabs are not among them. -/
def dropSpaces : List Spot → List Spot
  | [] => []
  | s :: rest => if s.char = ' ' then dropSpaces rest else s :: rest

/-! ### Folding -/

/-- What a line break and further empty lines contribute to a text that is folded: a single line
feed becomes a blank, and the first of several goes away. -/
def foldBreaks (first : Char) (more : List Char) : List Char :=
  if first = '\n' then (if more.isEmpty then [' '] else more) else first :: more

end ApiScribe.Yaml
