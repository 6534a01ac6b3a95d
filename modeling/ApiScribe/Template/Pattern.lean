/-
**Path templates.**

A placeholder is a pair of braces around one or more word characters.  A template is the literal
texts between its placeholders, and it matches a path that has the same literals with at least one
character in place of each placeholder.

Main definitions:

* `ApiScribe.Template.literals` — the literal texts of a template, one more than placeholders;
* `ApiScribe.Template.fits` — whether literals match a path;
* `ApiScribe.Template.matches` — whether a template matches a path.
-/

import ApiScribe.Text.Word

set_option autoImplicit false

namespace ApiScribe.Template

/-- The number of characters of the placeholder at the start of a text, if there is one. -/
def placeholderLength? : List Char → Option Nat
  | '{' :: rest =>
    let name := rest.takeWhile Text.isWord
    match rest.dropWhile Text.isWord with
    | '}' :: _ => if name.isEmpty then none else some (name.length + 2)
    | _ => none
  | _ => none

/-- Puts a character in front of the first literal. -/
def extendFirst (c : Char) : List (List Char) → List (List Char)
  | [] => [[c]]
  | l :: rest => (c :: l) :: rest

/-- The literals of a text after the first `skip` characters, which belong to a placeholder. -/
def literalsAfter : Nat → List Char → List (List Char)
  | _, [] => [[]]
  | skip + 1, _ :: rest => literalsAfter skip rest
  | 0, c :: rest =>
    match placeholderLength? (c :: rest) with
    | some n => [] :: literalsAfter (n - 1) rest
    | none => extendFirst c (literalsAfter 0 rest)

/-- The literal texts of a template, one more than placeholders. -/
def literals (template : List Char) : List (List Char) := literalsAfter 0 template

/-- A text without a literal at its start. -/
def dropLiteral : List Char → List Char → Option (List Char)
  | [], p => some p
  | _ :: _, [] => none
  | l :: ls, c :: p => if l = c then dropLiteral ls p else none

/-- Whether what follows some characters of a text, or none, is accepted. -/
def someRest (accept : List Char → Bool) : List Char → Bool
  | [] => accept []
  | c :: rest => accept (c :: rest) || someRest accept rest

/-- Whether a text consists of one or more characters in front of each of the literals. -/
def fitsAfter : List (List Char) → List Char → Bool
  | [], p => p.isEmpty
  | _ :: _, [] => false
  | l :: ls, _ :: p =>
    someRest (fun rest => match dropLiteral l rest with
      | some rest => fitsAfter ls rest
      | none => false) p

/-- Whether a text consists of the literals with one or more characters between neighbours. -/
def fits : List (List Char) → List Char → Bool
  | [], _ => false
  | l :: ls, p =>
    match dropLiteral l p with
    | some rest => fitsAfter ls rest
    | none => false

/-- Whether a template matches a path. -/
def «matches» (template path : String) : Bool := fits (literals template.toList) path.toList

end ApiScribe.Template
