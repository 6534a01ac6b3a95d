/-
**The JSON form of a value.**

What JSON has no form for is turned into what comes nearest: bytes into the text that they encode,
days and moments into their standard text, tuples and sets into lists, numbers that are not finite
into the absent value, and the keys of a mapping into texts.

Main definitions: `ApiScribe.Atom.jsonForm?`, `ApiScribe.Atom.jsonKey?`, `ApiScribe.Value.jsonForm?`.
They fail exactly if there are bytes that encode no text.
-/

import ApiScribe.Data.Spelling
import ApiScribe.Text.Utf8

set_option autoImplicit false

namespace ApiScribe

/-- The text that bytes encode. -/
def textOfUtf8? (bs : List UInt8) : Option String := (Utf8.decode? bs).map String.ofList

/-- The JSON form of an atom. -/
def Atom.jsonForm? : Atom → Option Atom
  | .float x => some (if x.isFinite then .float x else .null)
  | .bytes bs => (textOfUtf8? bs).map .text
  | .date d => some (.text (String.ofList d.iso))
  | .moment t => some (.text (String.ofList t.iso))
  | a => some a

/-- The name that the key of a mapping turns into.  A number that is not finite is named like the absent
value that it turns into elsewhere. -/
def Atom.jsonKey? : Atom → Option String
  | .text s => some s
  | .bool b => some (if b then "true" else "false")
  | .float x => some (if x.isFinite then (Atom.float x).plain else Atom.null.plain)
  | .bytes bs => textOfUtf8? bs
  | .moment t => some (String.ofList t.iso)
  | a => some a.plain

mutual

/-- The JSON form of a value. -/
def Value.jsonForm? : Value → Option Value
  | .atom a => a.jsonForm?.map .atom
  | .list xs => (jsonFormItems? xs).map .list
  | .tuple xs => (jsonFormItems? xs).map .list
  | .set xs => (xs.mapM Atom.jsonForm?).map fun as => .list (as.map .atom)
  | .map ms => (jsonFormMembers? ms).map fun ms => .object (Members.ofList ms)

/-- The JSON forms of items. -/
def jsonFormItems? : List Value → Option (List Value)
  | [] => some []
  | v :: rest =>
    match v.jsonForm?, jsonFormItems? rest with
    | some v, some rest => some (v :: rest)
    | _, _ => none

/-- The members with their names and the JSON forms of their values. -/
def jsonFormMembers? : List (Atom × Value) → Option (Members String Value)
  | [] => some []
  | (k, v) :: rest =>
    match k.jsonKey?, v.jsonForm?, jsonFormMembers? rest with
    | some k, some v, some rest => some ((k, v) :: rest)
    | _, _, _ => none

end

end ApiScribe
