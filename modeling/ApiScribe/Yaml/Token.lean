/-
**The tokens of a YAML text.**

Main definition: `ApiScribe.Yaml.Token`.  Where blocks of lines start and end is a token of its own,
so that indentation plays no part after this.
-/

set_option autoImplicit false

namespace ApiScribe.Yaml

/-- The name of a tag as it is written: an abbreviation with what follows it, or a full name. -/
inductive TagName where
  /-- What follows an abbreviation. -/
  | short (handle suffix : String)
  /-- A full name. -/
  | full (name : String)
  deriving DecidableEq, Repr

/-- The tokens of a text. -/
inductive Token where
  /-- A directive for the version of the language, with its leading number. -/
  | version (major : Nat)
  /-- A directive for an abbreviation of tags. -/
  | abbreviation (handle expansion : String)
  /-- A directive that means nothing. -/
  | reserved
  /-- The mark of the start of a document. -/
  | documentStart
  /-- The mark of the end of a document. -/
  | documentEnd
  /-- The start of a block of entries. -/
  | blockSequence
  /-- The start of a block of members. -/
  | blockMapping
  /-- The end of a block. -/
  | blockEnd
  /-- An opening bracket. -/
  | openSequence
  /-- A closing bracket. -/
  | closeSequence
  /-- An opening brace. -/
  | openMapping
  /-- A closing brace. -/
  | closeMapping
  /-- The hyphen in front of an entry of a block. -/
  | entry
  /-- The comma between entries in brackets or braces. -/
  | comma
  /-- A key follows. -/
  | key
  /-- The value of a key follows. -/
  | value
  /-- A reference to what bears an anchor. -/
  | alias (name : String)
  /-- An anchor of what follows. -/
  | anchor (name : String)
  /-- The tag of what follows. -/
  | tag (name : TagName)
  /-- A text, and whether it stands there without quotes or a mark. -/
  | scalar (plain : Bool) (text : String)
  deriving DecidableEq, Repr

end ApiScribe.Yaml
