/-
**Anchors, tags and directives.**

Main definitions:

* `ApiScribe.Yaml.readAnchorName` — the name of an anchor or of a reference to it;
* `ApiScribe.Yaml.readTag` — the tag of a node;
* `ApiScribe.Yaml.readDirective` — a directive, up to the end of its line.
-/

import ApiScribe.Number.Reading
import ApiScribe.Text.Utf8
import ApiScribe.Yaml.Block
import ApiScribe.Yaml.Token

set_option autoImplicit false

namespace ApiScribe.Yaml

/-- Whether `c` may stand in the name of an anchor, a directive or an abbreviation. -/
def isNameChar (c : Char) : Bool := c.isAlphanum || c = '-' || c = '_'

/-- A name that is not empty, and what follows it. -/
def readName (spots : List Spot) : Option (String × List Spot) :=
  match takeRun isNameChar spots with
  | ([], _) => none
  | (name, rest) => some (String.ofList name, rest)

/-- Whether nothing, a blank or a line break comes next. -/
def endsField (spots : List Spot) : Bool :=
  spots.isEmpty || nextIs (fun c => c = ' ' || isBreak c) spots

/-! ### Anchors -/

/-- Whether the name of an anchor may end here. -/
def endsAnchor (spots : List Spot) : Bool :=
  endsWord spots
    || nextIs (fun c => ['?', ':', ',', ']', '}', '%', '@', '\x60'].contains c) spots

/-- The name of an anchor or of a reference, after its mark. -/
def readAnchorName (spots : List Spot) : Option (String × List Spot) :=
  match readName spots with
  | some (name, rest) => if endsAnchor rest then some (name, rest) else none
  | none => none

/-! ### Tags -/

/-- Whether `c` may stand in the name of a tag. -/
def isTagChar (c : Char) : Bool :=
  c.isAlphanum || ['-', ';', '/', '?', ':', '@', '&', '=', '+', '$', ',', '_', '.', '!', '~', '*',
    '\'', '(', ')', '[', ']', '%'].contains c

/-- Takes percent escapes apart: the escaped bytes between the other characters. -/
def takeEscapes : List Char → Option (List UInt8 × List Char)
  | '%' :: a :: b :: rest =>
    match digitValue? a, digitValue? b with
    | some x, some y => (takeEscapes rest).map fun (bytes, rest) =>
        (UInt8.ofNat (x * 16 + y) :: bytes, rest)
    | _, _ => none
  | '%' :: _ => none
  | rest => some ([], rest)

/-- The name of a tag without its percent escapes, each run of which must encode a text.  The fuel
bounds the number of characters. -/
def unescapeTag : Nat → List Char → Option (List Char)
  | 0, _ => none
  | _ + 1, [] => some []
  | fuel + 1, c :: rest =>
    if c = '%' then
      match takeEscapes (c :: rest) with
      | none => none
      | some (bytes, rest) =>
        match Utf8.decode? bytes, unescapeTag fuel rest with
        | some text, some more => some (text ++ more)
        | _, _ => none
    else (unescapeTag fuel rest).map (c :: ·)

/-- The characters of a tag's name, of which there is at least one, and what follows them. -/
def readTagText (spots : List Spot) : Option (String × List Spot) :=
  match takeRun isTagChar spots with
  | ([], _) => none
  | (text, rest) =>
    (unescapeTag (text.length + 1) text).map fun text => (String.ofList text, rest)

/-- An abbreviation of tags: an exclamation mark, or a name between two of them. -/
def readHandle (spots : List Spot) : Option (String × List Spot) :=
  match spots with
  | s :: rest =>
    if s.char ≠ '!' then none
    else if nextIs (· = ' ') rest then some ("!", rest)
    else
      match takeRun isNameChar rest with
      | (name, t :: after) =>
        if t.char = '!' then some (String.ofList ('!' :: name ++ ['!']), after) else none
      | (_, []) => none
  | [] => none

/-- Whether an exclamation mark comes before the next separator other than a tab. -/
def marksHandle : List Spot → Bool
  | [] => false
  | s :: rest =>
    if s.char = ' ' || isBreak s.char then false else s.char = '!' || marksHandle rest

/-- The name of a tag, at its exclamation mark `mark`. -/
def readTagName (mark : Spot) (rest : List Spot) : Option (TagName × List Spot) :=
  match rest with
  | s :: after =>
    if s.char = '<' then
      match readTagText after with
      | some (name, t :: rest) => if t.char = '>' then some (.full name, rest) else none
      | _ => none
    else if isGap s.char then some (.full "!", s :: after)
    else if marksHandle (s :: after) then
      match readHandle (mark :: s :: after) with
      | some (handle, rest) =>
        (readTagText rest).map fun (suffix, rest) => (.short handle suffix, rest)
      | none => none
    else (readTagText (s :: after)).map fun (suffix, rest) => (.short "!" suffix, rest)
  | [] => some (.full "!", [])

/-- The tag at an exclamation mark, after which a blank or a line break must come. -/
def readTag (mark : Spot) (rest : List Spot) : Option (TagName × List Spot) :=
  match readTagName mark rest with
  | some (name, rest) => if endsField rest then some (name, rest) else none
  | none => none

/-! ### Directives -/

/-- The number at the start of a text, which has at least one digit. -/
def readVersionPart (spots : List Spot) : Option (Nat × List Spot) :=
  match takeRun Char.isDigit spots with
  | ([], _) => none
  | (ds, rest) => some (natOfDecimal ds, rest)

/-- The two numbers of a version, of which the first one is kept. -/
def readVersion (spots : List Spot) : Option (Token × List Spot) :=
  match readVersionPart (dropSpaces spots) with
  | some (major, s :: rest) =>
    if s.char ≠ '.' then none
    else
      match readVersionPart rest with
      | some (_, rest) => if endsField rest then some (.version major, rest) else none
      | none => none
  | _ => none

/-- An abbreviation and what it stands for. -/
def readAbbreviation (spots : List Spot) : Option (Token × List Spot) :=
  match readHandle (dropSpaces spots) with
  | some (handle, rest) =>
    if nextIs (· = ' ') rest then
      match readTagText (dropSpaces rest) with
      | some (expansion, rest) =>
        if endsField rest then some (.abbreviation handle expansion, rest) else none
      | none => none
    else none
  | none => none

/-- What a directive says, given its name. -/
def readDirectiveValue (name : String) (spots : List Spot) : Option (Token × List Spot) :=
  if name = "YAML" then readVersion spots
  else if name = "TAG" then readAbbreviation spots
  else some (.reserved, dropComment spots)

/-- A directive after its percent sign, and what follows its line. -/
def readDirective (spots : List Spot) : Option (Token × List Spot) :=
  match readName spots with
  | some (name, rest) =>
    if endsField rest then
      match readDirectiveValue name rest with
      | some (token, rest) => (restOfLine rest).map (token, ·)
      | none => none
    else none
  | none => none

end ApiScribe.Yaml
