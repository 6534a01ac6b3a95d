/-
**From tokens to trees.**

A document is a tree of texts, sequences and mappings, each of which may bear an anchor and a tag,
and of references to what bears an anchor.  What is left out, such as the value of a key without
one, is an empty plain text.

Main definitions:

* `ApiScribe.Yaml.Tree` — the tree of a document;
* `ApiScribe.Yaml.Abbreviations` — the abbreviations of tags in a document;
* `ApiScribe.Yaml.readTree` — a tree at the start of a list of tokens;
* `ApiScribe.Yaml.Source`, `ApiScribe.Yaml.sourceOf?` — the one document that all tokens are.
-/

import ApiScribe.Yaml.Token

set_option autoImplicit false

namespace ApiScribe.Yaml

/-- What a node may bear. -/
structure Properties where
  /-- The anchor. -/
  anchor : Option String := none
  /-- The tag. -/
  tag : Option TagName := none
  deriving DecidableEq, Repr

/-- The tree of a document. -/
inductive Tree where
  /-- A reference to what bears an anchor. -/
  | alias (name : String)
  /-- A text, and whether it stands there without quotes or a mark. -/
  | scalar (properties : Properties) (plain : Bool) (text : String)
  /-- A sequence. -/
  | sequence (properties : Properties) (items : List Tree)
  /-- A mapping. -/
  | mapping (properties : Properties) (members : List (Tree × Tree))
  deriving Repr

/-- What is left out. -/
def Tree.empty : Tree := .scalar {} true ""

/-- Whether a node bears nothing. -/
def Properties.isEmpty (ps : Properties) : Bool := ps.anchor.isNone && ps.tag.isNone

/-- Reads the anchor and the tag of a node, in either order. -/
def takeProperties : List Token → Properties × List Token
  | .anchor a :: .tag t :: rest => (⟨some a, some t⟩, rest)
  | .anchor a :: rest => (⟨some a, none⟩, rest)
  | .tag t :: .anchor a :: rest => (⟨some a, some t⟩, rest)
  | .tag t :: rest => (⟨none, some t⟩, rest)
  | rest => ({}, rest)

/-- Where a node stands. -/
inductive Setting where
  /-- Inside brackets. -/
  | flow
  /-- In a block. -/
  | block
  /-- As a key or value of a block, where entries need not be indented. -/
  | member
  deriving DecidableEq, Repr

/-- Whether a token ends an entry of a block. -/
def endsEntry : Token → Bool
  | .entry | .blockEnd => true
  | _ => false

/-- Whether a token ends an entry that is not indented. -/
def endsLevelEntry : Token → Bool
  | .entry | .key | .value | .blockEnd => true
  | _ => false

/-- Whether a token ends a key or a value of a block. -/
def endsMember : Token → Bool
  | .key | .value | .blockEnd => true
  | _ => false

/-- Whether a token ends a key of a pair inside brackets. -/
def endsPairKey : Token → Bool
  | .value | .comma | .closeSequence => true
  | _ => false

/-- Whether a token ends the value of a pair inside brackets. -/
def endsPairValue : Token → Bool
  | .comma | .closeSequence => true
  | _ => false

/-- Whether a token ends a key inside braces. -/
def endsFlowKey : Token → Bool
  | .value | .comma | .closeMapping => true
  | _ => false

/-- Whether a token ends a value inside braces. -/
def endsFlowValue : Token → Bool
  | .comma | .closeMapping => true
  | _ => false

/-- Whether the next token is in a class. -/
def nextToken (p : Token → Bool) : List Token → Bool
  | [] => false
  | t :: _ => p t

mutual

/-- A tree at the start of a list of tokens, and what follows it.  The fuel bounds the number of
calls one inside the other. -/
def readTree (setting : Setting) : Nat → List Token → Option (Tree × List Token)
  | 0, _ => none
  | fuel + 1, tokens =>
    match tokens with
    | .alias name :: rest => some (.alias name, rest)
    | tokens =>
      let (ps, rest) := takeProperties tokens
      readContent setting ps fuel rest

/-- The tree of a node that bears the given properties. -/
def readContent (setting : Setting) (ps : Properties) :
    Nat → List Token → Option (Tree × List Token)
  | 0, _ => none
  | fuel + 1, tokens =>
    match tokens with
    | .scalar plain text :: rest => some (.scalar ps plain text, rest)
    | .openSequence :: rest =>
      (readFlowItems true fuel rest).map fun (items, rest) => (.sequence ps items, rest)
    | .openMapping :: rest =>
      (readFlowMembers true fuel rest).map fun (ms, rest) => (.mapping ps ms, rest)
    | .entry :: rest =>
      if setting = .member then
        (readLevelItems fuel (.entry :: rest)).map fun (items, rest) => (.sequence ps items, rest)
      else if ps.isEmpty then none
      else some (.scalar ps true "", .entry :: rest)
    | .blockSequence :: rest =>
      if setting ≠ .flow then
        (readItems fuel rest).map fun (items, rest) => (.sequence ps items, rest)
      else if ps.isEmpty then none
      else some (.scalar ps true "", .blockSequence :: rest)
    | .blockMapping :: rest =>
      if setting ≠ .flow then
        (readMembers fuel rest).map fun (ms, rest) => (.mapping ps ms, rest)
      else if ps.isEmpty then none
      else some (.scalar ps true "", .blockMapping :: rest)
    | rest => if ps.isEmpty then none else some (.scalar ps true "", rest)

/-- A tree, or what is left out if the next token is in the class `ends`. -/
def readOptional (setting : Setting) (ends : Token → Bool) :
    Nat → List Token → Option (Tree × List Token)
  | 0, _ => none
  | fuel + 1, tokens =>
    if nextToken ends tokens then some (.empty, tokens) else readTree setting fuel tokens

/-- The entries of a block up to its end. -/
def readItems : Nat → List Token → Option (List Tree × List Token)
  | 0, _ => none
  | fuel + 1, tokens =>
    match tokens with
    | .entry :: rest =>
      match readOptional .block endsEntry fuel rest with
      | none => none
      | some (item, rest) => (readItems fuel rest).map fun (items, rest) => (item :: items, rest)
    | .blockEnd :: rest => some ([], rest)
    | _ => none

/-- The entries of a sequence that is not indented. -/
def readLevelItems : Nat → List Token → Option (List Tree × List Token)
  | 0, _ => none
  | fuel + 1, tokens =>
    match tokens with
    | .entry :: rest =>
      match readOptional .block endsLevelEntry fuel rest with
      | none => none
      | some (item, rest) =>
        (readLevelItems fuel rest).map fun (items, rest) => (item :: items, rest)
    | rest => some ([], rest)

/-- The members of a block up to its end. -/
def readMembers : Nat → List Token → Option (List (Tree × Tree) × List Token)
  | 0, _ => none
  | fuel + 1, tokens =>
    match tokens with
    | .key :: rest =>
      match readOptional .member endsMember fuel rest with
      | none => none
      | some (k, rest) =>
        match readBlockValue fuel rest with
        | none => none
        | some (v, rest) => (readMembers fuel rest).map fun (ms, rest) => ((k, v) :: ms, rest)
    | .blockEnd :: rest => some ([], rest)
    | _ => none

/-- The value of a key of a block. -/
def readBlockValue : Nat → List Token → Option (Tree × List Token)
  | 0, _ => none
  | fuel + 1, tokens =>
    match tokens with
    | .value :: rest => readOptional .member endsMember fuel rest
    | rest => some (.empty, rest)

/-- The items inside brackets up to the closing one; `first` says whether none comes before. -/
def readFlowItems (first : Bool) : Nat → List Token → Option (List Tree × List Token)
  | 0, _ => none
  | fuel + 1, tokens =>
    match tokens with
    | .closeSequence :: rest => some ([], rest)
    | .comma :: rest => if first then none else readFlowItem fuel rest
    | rest => if first then readFlowItem fuel rest else none

/-- An item inside brackets and those after it, or the closing bracket. -/
def readFlowItem : Nat → List Token → Option (List Tree × List Token)
  | 0, _ => none
  | fuel + 1, tokens =>
    match tokens with
    | .closeSequence :: rest => some ([], rest)
    | .key :: rest =>
      match readOptional .flow endsPairKey fuel rest with
      | none => none
      | some (k, rest) =>
        match readFlowValue endsPairValue fuel rest with
        | none => none
        | some (v, rest) =>
          (readFlowItems false fuel rest).map fun (items, rest) =>
            (.mapping {} [(k, v)] :: items, rest)
    | rest =>
      match readTree .flow fuel rest with
      | none => none
      | some (item, rest) =>
        (readFlowItems false fuel rest).map fun (items, rest) => (item :: items, rest)

/-- The value of a key inside brackets or braces. -/
def readFlowValue (ends : Token → Bool) : Nat → List Token → Option (Tree × List Token)
  | 0, _ => none
  | fuel + 1, tokens =>
    match tokens with
    | .value :: rest => readOptional .flow ends fuel rest
    | rest => some (.empty, rest)

/-- The members inside braces up to the closing one; `first` says whether none comes before. -/
def readFlowMembers (first : Bool) : Nat → List Token → Option (List (Tree × Tree) × List Token)
  | 0, _ => none
  | fuel + 1, tokens =>
    match tokens with
    | .closeMapping :: rest => some ([], rest)
    | .comma :: rest => if first then none else readFlowMember fuel rest
    | rest => if first then readFlowMember fuel rest else none

/-- A member inside braces and those after it, or the closing brace. -/
def readFlowMember : Nat → List Token → Option (List (Tree × Tree) × List Token)
  | 0, _ => none
  | fuel + 1, tokens =>
    match tokens with
    | .closeMapping :: rest => some ([], rest)
    | .key :: rest =>
      match readOptional .flow endsFlowKey fuel rest with
      | none => none
      | some (k, rest) =>
        match readFlowValue endsFlowValue fuel rest with
        | none => none
        | some (v, rest) =>
          (readFlowMembers false fuel rest).map fun (ms, rest) => ((k, v) :: ms, rest)
    | rest =>
      match readTree .flow fuel rest with
      | none => none
      | some (k, rest) =>
        (readFlowMembers false fuel rest).map fun (ms, rest) => ((k, .empty) :: ms, rest)

end

/-! ### Documents -/

/-- The abbreviations of tags with what they stand for. -/
abbrev Abbreviations := List (String × String)

/-- The abbreviations of every document, unless it redefines them. -/
def standardAbbreviations : Abbreviations := [("!", "!"), ("!!", "tag:yaml.org,2002:")]

/-- The directives in front of a document, as its abbreviations, and what follows them.  There must
be no second version, no version of another language, and no second meaning of an abbreviation. -/
def takeDirectives (versioned : Bool) (found : Abbreviations) :
    List Token → Option (Abbreviations × List Token)
  | .version major :: rest =>
    if versioned || major ≠ 1 then none else takeDirectives true found rest
  | .abbreviation handle expansion :: rest =>
    if (found.lookup handle).isSome then none
    else takeDirectives versioned (found ++ [(handle, expansion)]) rest
  | .reserved :: rest => takeDirectives versioned found rest
  | rest => some (found ++ standardAbbreviations, rest)

/-- A document. -/
structure Source where
  /-- The abbreviations of tags. -/
  abbreviations : Abbreviations
  /-- The tree. -/
  tree : Tree

/-- Whether a token stands outside documents. -/
def isOutside : Token → Bool
  | .version _ | .abbreviation .. | .reserved | .documentStart | .documentEnd => true
  | _ => false

/-- Whether a token comes before the content of a document that has a mark of its start. -/
def precedesStart : Token → Bool
  | .version _ | .abbreviation .. | .reserved | .documentStart => true
  | _ => false

/-- The tokens of one document and nothing else, read as its tree. -/
def wholeTree (tokens : List Token) : Option Tree :=
  match readTree .block (8 * (tokens.length + 1)) tokens with
  | some (tree, rest) => if rest.all (· = .documentEnd) then some tree else none
  | none => none

/-- The tree after the mark of a document's start, where it may be left out. -/
def markedTree (tokens : List Token) : Option Tree :=
  if tokens.isEmpty || nextToken isOutside tokens then
    if tokens.all (· = .documentEnd) then some .empty else none
  else wholeTree tokens

/-- The document that tokens are; without tokens there is none. -/
def sourceOf? (tokens : List Token) : Option (Option Source) :=
  if tokens.isEmpty then some none
  else if nextToken precedesStart tokens then
    match takeDirectives false [] tokens with
    | some (abbreviations, .documentStart :: rest) =>
      (markedTree rest).map fun tree => some ⟨abbreviations, tree⟩
    | _ => none
  else (wholeTree tokens).map fun tree => some ⟨standardAbbreviations, tree⟩

end ApiScribe.Yaml
