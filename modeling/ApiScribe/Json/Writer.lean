/-
**JSON text of a value.**

Main definitions:

* `ApiScribe.Json.Style` — the decisions: which characters are written by their code point, whether
  members are sorted by name, and how far nested items are indented;
* `ApiScribe.Json.write` — the text of a value;
* `ApiScribe.Json.isSortable` — whether a value has a text with sorted members;
* `ApiScribe.Json.Style.line`, `ApiScribe.Json.Style.message`, `ApiScribe.Json.Style.file` — the
  styles in use.

What JSON has no form for is written as the text that spells it: bytes, days and moments become
strings, and a tuple becomes an array.  That holds of values, not of names: a name is a text, a number
or absent, and only texts, or only numbers, can be put in order.
-/

import ApiScribe.Data.Spelling

set_option autoImplicit false

namespace ApiScribe.Json

/-- The decisions about JSON text. -/
structure Style where
  /-- Whether characters other than those from the blank to the tilde are written by their code
  point. -/
  asciiOnly : Bool := false
  /-- Whether the members of an object are sorted by name. -/
  sorted : Bool := false
  /-- Whether each item of an array or object has a line of its own. -/
  indented : Bool := false

/-- One line, with the characters outside ASCII as they are. -/
def Style.line : Style := {}

/-- The style of a schema in a message: one line of ASCII, with sorted members. -/
def Style.message : Style := { asciiOnly := true, sorted := true }

/-- The style of a file: indented, with the characters outside ASCII as they are. -/
def Style.file : Style := { indented := true }

/-! ### Strings -/

/-- A unit of sixteen bits by its value. -/
def escapeUnit (unit : Nat) : List Char := '\\' :: 'u' :: hexDigits 4 unit

/-- A character by the values of its one or two units of sixteen bits. -/
def escapeCode (code : Nat) : List Char :=
  if code < 0x10000 then escapeUnit code
  else
    escapeUnit (0xD800 + (code - 0x10000) / 0x400) ++ escapeUnit (0xDC00 + (code - 0x10000) % 0x400)

/-- A character inside a string. -/
def escapeChar (asciiOnly : Bool) (c : Char) : List Char :=
  if c = '"' then ['\\', '"']
  else if c = '\\' then ['\\', '\\']
  else if c = '\n' then ['\\', 'n']
  else if c = '\r' then ['\\', 'r']
  else if c = '\t' then ['\\', 't']
  else if c = '\x08' then ['\\', 'b']
  else if c = '\x0c' then ['\\', 'f']
  else if c.toNat < 0x20 || (asciiOnly && 0x7E < c.toNat) then escapeCode c.toNat
  else [c]

/-- A string in quotes. -/
def writeString (asciiOnly : Bool) (cs : List Char) : List Char :=
  '"' :: cs.flatMap (escapeChar asciiOnly) ++ ['"']

/-! ### Values -/

/-- The text of an atom. -/
def writeAtom (style : Style) : Atom → List Char
  | .null => ['n', 'u', 'l', 'l']
  | .bool true => ['t', 'r', 'u', 'e']
  | .bool false => ['f', 'a', 'l', 's', 'e']
  | .int n => integerText n
  | .float x => Layout.json.render x
  | a => writeString style.asciiOnly a.plain.toList

/-- The name of a member: a text as it is, any other atom by its text. -/
def memberName : Atom → List Char
  | .text s => s.toList
  | .null => ['n', 'u', 'l', 'l']
  | .bool true => ['t', 'r', 'u', 'e']
  | .bool false => ['f', 'a', 'l', 's', 'e']
  | .float x => Layout.json.render x
  | a => a.plain.toList

/-- A line break with the indentation of a depth. -/
def newLine (depth : Nat) : List Char := '\n' :: List.replicate (2 * depth) ' '

/-- What stands between two items at a depth. -/
def separator (style : Style) (depth : Nat) : List Char :=
  if style.indented then ',' :: newLine depth else [',', ' ']

/-- Items at a depth between two brackets.  Brackets without items stand together. -/
def enclose (style : Style) (depth : Nat) (opening closing : Char) (items : List (List Char)) :
    List Char :=
  if items.isEmpty then [opening, closing]
  else
    opening :: (if style.indented then newLine (depth + 1) else [])
      ++ (separator style (depth + 1)).intercalate items
      ++ (if style.indented then newLine depth else []) ++ [closing]

/-! ### The order of members -/

/-- Whether one name comes before another: texts by code point, numbers by value. -/
def isBefore (a b : Atom) : Bool :=
  match a, b with
  | .text s, .text t => List.lex s.toList t.toList fun c d => decide (c.toNat < d.toNat)
  | a, b =>
    match a.number?, b.number? with
    | some x, some y => (x.elim Binary64.whole id).below (y.elim Binary64.whole id)
    | _, _ => false

/-- Members in the order of their names. -/
def sortByName {α : Type} (ms : Members Atom α) : Members Atom α :=
  ms.mergeSort fun a b => !isBefore b.1 a.1

/-- Whether names have an order: they are texts, or numbers, or there is one that is absent. -/
def areSortable : List Atom → Bool
  | [.null] => true
  | names =>
    (names.all fun a => a matches .text _) || names.all fun a => a.number?.isSome

mutual

/-- Whether the members of all mappings within a value can be sorted by name. -/
def isSortable : Value → Bool
  | .atom _ | .set _ => true
  | .list xs | .tuple xs => areItemsSortable xs
  | .map ms => areSortable (Members.keys ms) && areMembersSortable ms

/-- Whether the members of all mappings within items can be sorted by name. -/
def areItemsSortable : List Value → Bool
  | [] => true
  | v :: rest => isSortable v && areItemsSortable rest

/-- Whether the members of all mappings within the values of members can be sorted by name. -/
def areMembersSortable : Members Atom Value → Bool
  | [] => true
  | (_, v) :: rest => isSortable v && areMembersSortable rest

end

/-! ### Arrays and objects -/

mutual

/-- The text of a value at a depth. -/
def writeAt (style : Style) (depth : Nat) : Value → List Char
  | .atom a => writeAtom style a
  | .list xs => enclose style depth '[' ']' (writeItems style (depth + 1) xs)
  | .tuple xs => enclose style depth '[' ']' (writeItems style (depth + 1) xs)
  | .set xs => writeString style.asciiOnly (Value.set xs).spell.toList
  | .map ms =>
    let members := writeMembers style (depth + 1) ms
    let members := if style.sorted then sortByName members else members
    enclose style depth '{' '}' (members.map fun m =>
      writeString style.asciiOnly (memberName m.1) ++ ':' :: ' ' :: m.2)

/-- The texts of the items of an array. -/
def writeItems (style : Style) (depth : Nat) : List Value → List (List Char)
  | [] => []
  | v :: rest => writeAt style depth v :: writeItems style depth rest

/-- The members of an object with their texts. -/
def writeMembers (style : Style) (depth : Nat) : Members Atom Value → Members Atom (List Char)
  | [] => []
  | (k, v) :: rest => (k, writeAt style depth v) :: writeMembers style depth rest

end

/-- The JSON text of a value. -/
def write (style : Style) (v : Value) : List Char := writeAt style 0 v

/-- The JSON text of a value as a string. -/
def text (style : Style) (v : Value) : String := String.ofList (write style v)

end ApiScribe.Json
