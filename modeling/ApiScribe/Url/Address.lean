/-
**Numeric host addresses.**

Main definitions:

* `ApiScribe.Url.isAddress4`, `ApiScribe.Url.isAddress6` — host addresses of four bytes and of eight
  groups of hexadecimal digits;
* `ApiScribe.Url.isFutureAddress` — addresses of a version that is named in front.
-/

import ApiScribe.Number.Reading

set_option autoImplicit false

namespace ApiScribe.Url

/-- The parts of a text between the occurrences of a mark. -/
def partsAt (mark : Char) : List Char → List (List Char)
  | [] => [[]]
  | c :: rest =>
    if c = mark then [] :: partsAt mark rest
    else
      match partsAt mark rest with
      | part :: more => (c :: part) :: more
      | [] => [[c]]

/-- Whether digits denote a byte, without zeros in front. -/
def isByteNumeral (ds : List Char) : Bool :=
  !ds.isEmpty && ds.length ≤ 3 && ds.all Char.isDigit && (ds == ['0'] || ds.head? != some '0')
    && natOfDecimal ds ≤ 255

/-- Whether a text is an address of four bytes. -/
def isAddress4 (cs : List Char) : Bool :=
  let parts := partsAt '.' cs
  parts.length == 4 && parts.all isByteNumeral

/-- Whether a text is a group of an address: one to four hexadecimal digits. -/
def isGroup (cs : List Char) : Bool := !cs.isEmpty && cs.length ≤ 4 && cs.all isHexDigit

/-- Whether groups make up an address.  One empty place inside stands for a run of zero groups; an
empty place at an end is only allowed next to it. -/
def areGroups (parts : List (List Char)) : Bool :=
  let inner := (parts.drop 1).dropLast
  match (List.range inner.length).filter fun i => inner[i]? == some [] with
  | [] => parts.length == 8 && parts.all isGroup
  | [i] =>
    let before := parts.take (i + 1)
    let after := parts.drop (i + 2)
    let fits (side : List (List Char)) (outer : Option (List Char)) : Bool :=
      if outer == some [] then side.length == 1 else side.all isGroup
    let size (side : List (List Char)) (outer : Option (List Char)) : Nat :=
      if outer == some [] then 0 else side.length
    fits before parts.head? && fits after parts.getLast?
      && size before parts.head? + size after parts.getLast? < 8
  | _ => false

/-- Whether a text without a zone is an address of eight groups, of which the last two may be
written as an address of four bytes. -/
def isPlainAddress6 (cs : List Char) : Bool :=
  let parts := partsAt ':' cs
  let last := parts.getLastD []
  if parts.length < 3 then false
  else if last.contains '.' then
    isAddress4 last && parts.length ≤ 8 && areGroups (parts.dropLast ++ [['0'], ['0']])
  else parts.length ≤ 9 && areGroups parts

/-- Whether a text is an address of eight groups, perhaps with a zone. -/
def isAddress6 (cs : List Char) : Bool :=
  match partsAt '%' cs with
  | [address] => isPlainAddress6 address
  | [address, zone] => !zone.isEmpty && isPlainAddress6 address
  | _ => false

/-- Whether a text that starts with `v` names a version in hexadecimal digits and, after a point, an
address. -/
def isFutureAddress (cs : List Char) : Bool :=
  let version := (cs.drop 1).takeWhile isHexDigit
  match (cs.drop 1).dropWhile isHexDigit with
  | '.' :: rest => !version.isEmpty && !rest.isEmpty
  | _ => false

end ApiScribe.Url
