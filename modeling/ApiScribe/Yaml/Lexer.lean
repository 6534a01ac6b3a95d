/-
**From text to tokens.**

The text is read from its start, one token after the other.  Two things are not said by characters.
A block starts at a line that is indented further than the block around it, and ends at one that is
indented less.  And what turns out to be a key, because a colon follows it, is marked as one: so the
last place where a key may have started is kept until the line ends or the colon comes.

Main definitions:

* `ApiScribe.Yaml.KeyStart` — a place where a key may have started;
* `ApiScribe.Yaml.Lexing` — the tokens read so far, the open blocks and brackets, and the places
  where keys may have started;
* `ApiScribe.Yaml.tokensOf?` — the tokens of a text.
-/

import ApiScribe.Yaml.Plain
import ApiScribe.Yaml.Property
import ApiScribe.Yaml.Quoted

set_option autoImplicit false

namespace ApiScribe.Yaml

/-- How many characters a key may take. -/
def maxKeyLength : Nat := 1024

/-- A place where a key may have started. -/
structure KeyStart where
  /-- How many tokens come before. -/
  before : Nat
  /-- Whether there must be a key, since the line is one of a block of members. -/
  required : Bool
  /-- The place. -/
  position : Position

/-- Whether a key that started at a place cannot go on at `p`. -/
def KeyStart.isStale (p : Position) (k : KeyStart) : Bool :=
  k.position.line ≠ p.line || maxKeyLength < p.index - k.position.index

/-- What has been read of a text. -/
structure Lexing where
  /-- The tokens, the last one first. -/
  tokens : List Token := []
  /-- The number of tokens. -/
  count : Nat := 0
  /-- Whether a key may start here. -/
  keyAllowed : Bool := true
  /-- Where a key may have started inside the innermost brackets. -/
  keyStart : Option KeyStart := none
  /-- Where a key may have started around each pair of open brackets, from the inside out. -/
  outer : List (Option KeyStart) := []
  /-- How far the open blocks are indented, from the inside out. -/
  indents : List Nat := []

namespace Lexing

/-- Whether there are open brackets. -/
def inFlow (st : Lexing) : Bool := !st.outer.isEmpty

/-- The least column of what belongs to the innermost block without being one of its entries. -/
def inner (st : Lexing) : Nat := st.indents.head?.elim 0 (· + 1)

/-- Adds a token. -/
def push (st : Lexing) (t : Token) : Lexing :=
  { st with tokens := t :: st.tokens, count := st.count + 1 }

/-- Sets whether a key may start here. -/
def allowKey (st : Lexing) (allowed : Bool) : Lexing := { st with keyAllowed := allowed }

/-- Inserts tokens that come after the first `before` ones; the last one comes first. -/
def insertAt (st : Lexing) (before : Nat) (new : List Token) : Lexing :=
  let later := st.count - before
  { st with
    tokens := st.tokens.take later ++ new ++ st.tokens.drop later
    count := st.count + new.length }

/-! ### Blocks -/

/-- Ends the innermost blocks whose indentation is in a class. -/
def endBlocks (st : Lexing) (ends : Nat → Bool) : Lexing :=
  if st.inFlow then st
  else
    let ended := st.indents.takeWhile ends
    { st with
      tokens := ended.map (fun _ => .blockEnd) ++ st.tokens
      count := st.count + ended.length
      indents := st.indents.dropWhile ends }

/-- Ends all blocks. -/
def endAllBlocks (st : Lexing) : Lexing := st.endBlocks fun _ => true

/-- Whether a block that is indented by `column` is a new one. -/
def startsBlock (st : Lexing) (column : Nat) : Bool :=
  st.indents.head?.all (· < column)

/-- Starts a block with the token `t`, unless the innermost block is indented as far. -/
def startBlock (st : Lexing) (column : Nat) (t : Token) : Lexing :=
  if st.startsBlock column then { st with indents := column :: st.indents }.push t else st

/-! ### Keys -/

/-- Gives up the place where a key may have started; a required key is missed. -/
def dropKeyStart (st : Lexing) : Option Lexing :=
  match st.keyStart with
  | some k => if k.required then none else some { st with keyStart := none }
  | none => some st

/-- Keeps this place as one where a key may have started. -/
def saveKeyStart (st : Lexing) (p : Position) : Option Lexing :=
  if st.keyAllowed then
    st.dropKeyStart.map fun st =>
      { st with
        keyStart := some
          { before := st.count
            required := !st.inFlow && st.indents.head? = some p.column
            position := p } }
  else some st

/-- Gives up the places where keys that cannot go on at `p` may have started. -/
def dropStale (st : Lexing) (p : Position) : Option Lexing :=
  let missed (k : Option KeyStart) : Bool := k.any fun k => k.isStale p && k.required
  if missed st.keyStart || st.outer.any missed then none
  else
    let still (k : Option KeyStart) : Option KeyStart := k.filter (!·.isStale p)
    some { st with keyStart := still st.keyStart, outer := st.outer.map still }

/-! ### Tokens that structure the text -/

/-- The mark of the start or the end of a document, or a directive. -/
def outsideDocument (st : Lexing) (t : Token) : Option Lexing :=
  st.endAllBlocks.dropKeyStart.map fun st => (st.allowKey false).push t

/-- An opening bracket or brace. -/
def openBracket (st : Lexing) (p : Position) (t : Token) : Option Lexing :=
  (st.saveKeyStart p).map fun st =>
    { st with outer := st.keyStart :: st.outer, keyStart := none, keyAllowed := true }.push t

/-- A closing bracket or brace. -/
def closeBracket (st : Lexing) (t : Token) : Option Lexing :=
  match st.outer with
  | [] => none
  | k :: outer => some ({ st with outer := outer, keyStart := k, keyAllowed := false }.push t)

/-- A comma. -/
def comma (st : Lexing) : Option Lexing :=
  st.dropKeyStart.map fun st => (st.allowKey true).push .comma

/-- The hyphen of an entry. -/
def entry (st : Lexing) (p : Position) : Option Lexing :=
  if st.inFlow then st.dropKeyStart.map fun st => (st.allowKey true).push .entry
  else if st.keyAllowed then
    (st.startBlock p.column .blockSequence).dropKeyStart.map fun st =>
      (st.allowKey true).push .entry
  else none

/-- The question mark in front of a key. -/
def explicitKey (st : Lexing) (p : Position) : Option Lexing :=
  if st.inFlow then st.dropKeyStart.map fun st => (st.allowKey false).push .key
  else if st.keyAllowed then
    (st.startBlock p.column .blockMapping).dropKeyStart.map fun st =>
      (st.allowKey true).push .key
  else none

/-- The colon after a key that started at a known place. -/
def valueAfter (st : Lexing) (k : KeyStart) : Lexing :=
  let st := { st with keyStart := none, keyAllowed := false }
  if !st.inFlow && st.startsBlock k.position.column then
    ({ st with indents := k.position.column :: st.indents }.insertAt k.before
      [.key, .blockMapping]).push .value
  else (st.insertAt k.before [.key]).push .value

/-- The colon in front of a value. -/
def value (st : Lexing) (p : Position) : Option Lexing :=
  match st.keyStart with
  | some k => some (st.valueAfter k)
  | none =>
    if st.inFlow then some ((st.allowKey false).push .value)
    else if st.keyAllowed then
      some (((st.startBlock p.column .blockMapping).allowKey true).push .value)
    else none

/-- A token that may be all of a key or its start. -/
def part (st : Lexing) (p : Position) (keyAllowed : Bool) (t : Token) : Option Lexing :=
  (st.saveKeyStart p).map fun st => (st.allowKey keyAllowed).push t

/-! ### One token after the other -/

/-- Reads the structuring token at the character `s`, if there is one. -/
def readMark (st : Lexing) (s : Spot) (rest : List Spot) : Option (Option Lexing) :=
  let p := s.position
  match s.char with
  | '[' => some (st.openBracket p .openSequence)
  | '{' => some (st.openBracket p .openMapping)
  | ']' => some (st.closeBracket .closeSequence)
  | '}' => some (st.closeBracket .closeMapping)
  | ',' => some st.comma
  | '-' => if endsWord rest then some (st.entry p) else none
  | '?' => if st.inFlow || endsWord rest then some (st.explicitKey p) else none
  | ':' => if st.inFlow || endsWord rest then some (st.value p) else none
  | _ => none

/-- Reads a text in quotes or as a block of lines, a reference, an anchor or a tag at the character
`s`, if there is one. -/
def readPart (fuel : Nat) (st : Lexing) (s : Spot) (rest : List Spot) :
    Option (Option (Lexing × List Spot)) :=
  let p := s.position
  let add (found : Option (Token × List Spot)) : Option (Lexing × List Spot) :=
    match found with
    | some (t, rest) => (st.part p false t).map (·, rest)
    | none => none
  let text (found : Option (List Char × List Spot)) : Option (Token × List Spot) :=
    found.map fun (cs, rest) => (.scalar false (String.ofList cs), rest)
  let block (folded : Bool) : Option (Lexing × List Spot) :=
    match st.dropKeyStart, text (readBlock folded (max 1 st.inner) fuel rest) with
    | some st, some (t, rest) => some ((st.allowKey true).push t, rest)
    | _, _ => none
  match s.char with
  | '*' => some (add ((readAnchorName rest).map fun (name, rest) => (.alias name, rest)))
  | '&' => some (add ((readAnchorName rest).map fun (name, rest) => (.anchor name, rest)))
  | '!' => some (add ((readTag s rest).map fun (name, rest) => (.tag name, rest)))
  | '|' => if st.inFlow then none else some (block false)
  | '>' => if st.inFlow then none else some (block true)
  | '\'' => some (add (text (readSingle (.blanks []) rest)))
  | '"' => some (add (text (readDouble (.outside (.blanks [])) rest)))
  | _ => none

/-- Reads the plain text at the character `s`. -/
def readPlainPart (fuel : Nat) (st : Lexing) (s : Spot) (rest : List Spot) :
    Option (Lexing × List Spot) :=
  if startsPlain st.inFlow s.char rest then
    let found := readPlain st.inFlow st.inner fuel (s :: rest)
    (st.part s.position found.newLine (.scalar true (String.ofList found.text))).map (·, found.rest)
  else none

/-- Reads the token at the character `s`. -/
def readToken (fuel : Nat) (st : Lexing) (s : Spot) (rest : List Spot) :
    Option (Lexing × List Spot) :=
  if s.position.column = 0 && s.char = '%' then
    match readDirective rest with
    | some (t, rest) => (st.outsideDocument t).map (·, rest)
    | none => none
  else if s.position.column = 0 && atMarker (s :: rest) then
    let t := if s.char = '-' then Token.documentStart else Token.documentEnd
    (st.outsideDocument t).map (·, rest.drop 2)
  else
    match st.readMark s rest with
    | some st => st.map (·, rest)
    | none =>
      match st.readPart fuel s rest with
      | some found => found
      | none => st.readPlainPart fuel s rest

/-- Whether a line break comes before the next token, and the text from that token on.  The first
argument says whether a comment is being read. -/
def skipGap : Bool → List Spot → Bool × List Spot
  | _, [] => (false, [])
  | inComment, s :: rest =>
    if isBreak s.char then (true, (skipGap false rest).2)
    else if inComment || s.char = '#' then skipGap true rest
    else if s.char = ' ' then skipGap false rest
    else (false, s :: rest)

/-- The tokens at the end of the text, in order. -/
def finish (st : Lexing) : Option (List Token) :=
  st.endAllBlocks.dropKeyStart.map fun st => st.tokens.reverse

/-- Reads all further tokens.  The fuel bounds their number. -/
def readTokens : Nat → Lexing → List Spot → Option (List Token)
  | 0, _, _ => none
  | fuel + 1, st, spots =>
    let (newLine, rest) := skipGap false spots
    let st := if newLine && !st.inFlow then st.allowKey true else st
    match rest with
    | [] => st.finish
    | s :: rest =>
      match st.dropStale s.position with
      | none => none
      | some st =>
        match (st.endBlocks (s.position.column < ·)).readToken fuel s rest with
        | none => none
        | some (st, rest) => readTokens fuel st rest

end Lexing

/-- The characters of a text with their places, without a byte-order mark at its start. -/
def spotsOf (cs : List Char) : List Spot :=
  match place {} cs with
  | [] => []
  | s :: rest => if s.char = byteOrderMark then rest else s :: rest

/-- The tokens of a text. -/
def tokensOf? (cs : List Char) : Option (List Token) :=
  if cs.all isAllowed then Lexing.readTokens (cs.length + 1) {} (spotsOf cs) else none

end ApiScribe.Yaml
