/-
**The template of a URL.**

A path that a known template matches belongs to that template, and of several to the first one.  A
path that none matches gets a template of its own, in which each UUID is a placeholder.

Main definitions:

* `ApiScribe.Template.startsWithUuid` — whether a text starts with a UUID;
* `ApiScribe.Template.generalize` — a path with placeholders for its UUIDs, and their names;
* `ApiScribe.Template.Resolution`, `ApiScribe.Template.resolve` — the template of a URL, and the
  parameters that are new with it.
-/

import ApiScribe.Document.Basic
import ApiScribe.Template.Pattern
import ApiScribe.Url.Split

set_option autoImplicit false

namespace ApiScribe.Template

/-! ### UUIDs -/

/-- The text after groups of hexadecimal digits with hyphens between them. -/
def afterGroups : List Nat → List Char → Bool
  | [], _ => true
  | [n], cs => (cs.take n).length == n && (cs.take n).all isHexDigit
  | n :: ns, cs =>
    (cs.take n).length == n && (cs.take n).all isHexDigit &&
      match cs.drop n with
      | '-' :: rest => afterGroups ns rest
      | _ => false

/-- The lengths of the groups of a UUID. -/
def uuidGroups : List Nat := [8, 4, 4, 4, 12]

/-- The number of characters of a UUID. -/
def uuidLength : Nat := 36

/-- Whether a text starts with a UUID. -/
def startsWithUuid (cs : List Char) : Bool := afterGroups uuidGroups cs

/-- The name of the placeholder that has `index` others before it. -/
def placeholderName (index : Nat) : String :=
  if index = 0 then "uuid" else String.ofList ("uuid".toList ++ decimalDigits index)

/-- A placeholder with a name. -/
def placeholder (name : String) : List Char := '{' :: name.toList ++ ['}']

/-- A path with placeholders for its UUIDs, after the first `skip` characters, which belong to a
UUID; `index` placeholders come before. -/
def generalizeAfter : Nat → Nat → List Char → List Char × List String
  | _, _, [] => ([], [])
  | index, skip + 1, _ :: rest => generalizeAfter index skip rest
  | index, 0, c :: rest =>
    if startsWithUuid (c :: rest) then
      let name := placeholderName index
      let (template, names) := generalizeAfter (index + 1) (uuidLength - 1) rest
      (placeholder name ++ template, name :: names)
    else
      let (template, names) := generalizeAfter index 0 rest
      (c :: template, names)

/-- A path with placeholders for its UUIDs, and the names of the placeholders. -/
def generalize (path : String) : String × List String :=
  let (template, names) := generalizeAfter 0 0 path.toList
  (String.ofList template, names)

/-! ### Resolution -/

/-- The template of a URL, and the parameters that are new with it. -/
structure Resolution where
  /-- The template. -/
  template : String
  /-- The parameters for the placeholders of a new template. -/
  parameters : List ValueParameter

/-- The template of a path among known ones, or a new one. -/
def resolvePath (path : String) (known : List String) : Resolution :=
  match known.find? (Template.matches · path) with
  | some template => ⟨template, []⟩
  | none =>
    let (template, names) := generalize path
    ⟨template, names.map ValueParameter.ofPlaceholder⟩

/-- The template of a URL among known ones, or a new one. -/
def resolve (url : String) (known : List String) : Except UrlError Resolution :=
  (pathOf url).map (resolvePath · known)

end ApiScribe.Template
