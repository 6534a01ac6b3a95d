/-
**Dates and moments in YAML.**

A day is written with hyphens between its parts.  After it may come a time of day with an optional
fraction of a second, and after that a time zone.

Main definitions:

* `ApiScribe.Yaml.Stamp`, `ApiScribe.Yaml.Stamp.read?` — the parts of a text of this form;
* `ApiScribe.Yaml.Stamp.isPlain` — whether the text is of the form also without a tag;
* `ApiScribe.Yaml.Stamp.toAtom?` — the day or moment, if there is one.
-/

import ApiScribe.Data.Value
import ApiScribe.Number.Reading

set_option autoImplicit false

namespace ApiScribe.Yaml

/-- The distance from universal time as it is written. -/
inductive Zone where
  /-- Universal time. -/
  | universal
  /-- Hours and minutes in front of or behind it. -/
  | ahead (negative : Bool) (hours minutes : Nat)
  deriving DecidableEq, Repr

/-- The distance from universal time in minutes, which must be less than a day. -/
def Zone.minutes? : Zone → Option Int
  | .universal => some 0
  | .ahead negative hours minutes =>
    let n := hours * 60 + minutes
    if n < 24 * 60 then some (if negative then -n else n) else none

/-- A time of day as it is written. -/
structure Clock where
  /-- The hour. -/
  hour : Nat
  /-- The minute. -/
  minute : Nat
  /-- The second. -/
  second : Nat
  /-- The digits of the fraction of the second. -/
  fraction : List Char
  /-- The zone. -/
  zone : Option Zone
  deriving DecidableEq, Repr

/-- A day, perhaps with a time of day, as it is written. -/
structure Stamp where
  /-- The year. -/
  year : Nat
  /-- The digits of the month. -/
  month : List Char
  /-- The digits of the day of the month. -/
  day : List Char
  /-- The time of day. -/
  clock : Option Clock
  deriving DecidableEq, Repr

namespace Stamp

/-- Reads digits of which there are at least `least` and at most `most`, as many as there are. -/
def takeSome (least most : Nat) (cs : List Char) : Option (List Char × List Char) :=
  let ds := (cs.take most).takeWhile Char.isDigit
  if least ≤ ds.length then some (ds, cs.drop ds.length) else none

/-- Reads a character. -/
def takeChar (c : Char) : List Char → Option (List Char)
  | [] => none
  | d :: rest => if d = c then some rest else none

/-- Reads a character and then digits. -/
def takeAfter (c : Char) (least most : Nat) (cs : List Char) : Option (List Char × List Char) :=
  (takeChar c cs).bind (takeSome least most)

/-- Whether `c` is a blank or a tab. -/
def isSpace (c : Char) : Bool := c = ' ' || c = '\t'

/-- Reads what stands between day and time. -/
def takeJoint : List Char → Option (List Char)
  | [] => none
  | c :: rest =>
    if c = 'T' || c = 't' then some rest
    else if isSpace c then some (rest.dropWhile isSpace)
    else none

/-- Reads the digits of a fraction after a point, if there is one. -/
def takeFraction : List Char → List Char × List Char
  | '.' :: rest => takeDigits rest
  | cs => ([], cs)

/-- The zone that a text is. -/
def readZone? (cs : List Char) : Option (Option Zone) :=
  match cs, cs.dropWhile isSpace with
  | [], _ => some none
  | _, ['Z'] => some (some .universal)
  | _, sign :: rest =>
    if sign = '+' || sign = '-' then
      match takeSome 1 2 rest with
      | some (hours, []) => some (some (.ahead (sign = '-') (natOfDecimal hours) 0))
      | some (hours, rest) =>
        match takeAfter ':' 2 2 rest with
        | some (minutes, []) =>
          some (some (.ahead (sign = '-') (natOfDecimal hours) (natOfDecimal minutes)))
        | _ => none
      | none => none
    else none
  | _, [] => none

/-- The time of day that a text is. -/
def readClock? (cs : List Char) : Option Clock := do
  let (hour, cs) ← takeSome 1 2 cs
  let (minute, cs) ← takeAfter ':' 2 2 cs
  let (second, cs) ← takeAfter ':' 2 2 cs
  let (fraction, cs) := takeFraction cs
  let zone ← readZone? cs
  some ⟨natOfDecimal hour, natOfDecimal minute, natOfDecimal second, fraction, zone⟩

/-- The day or moment that a text is. -/
def read? (cs : List Char) : Option Stamp := do
  let (year, cs) ← takeSome 4 4 cs
  let (month, cs) ← takeAfter '-' 1 2 cs
  let (day, cs) ← takeAfter '-' 1 2 cs
  match cs with
  | [] => some ⟨natOfDecimal year, month, day, none⟩
  | cs =>
    let clock ← (takeJoint cs).bind readClock?
    some ⟨natOfDecimal year, month, day, some clock⟩

/-- Whether the text is of the form also without a tag: month and day of a bare day have two digits
each. -/
def isPlain (s : Stamp) : Bool := s.clock.isSome || (s.month.length = 2 && s.day.length = 2)

/-! ### What is meant -/

/-- The millionths of a second that the digits of a fraction are. -/
def microOf (fraction : List Char) : Nat :=
  natOfDecimal ((fraction ++ List.replicate 6 '0').take 6)

/-- The moment of a day and a time of day. -/
def momentOf? (date : Date) (c : Clock) : Option Moment :=
  if c.hour < 24 && c.minute < 60 && c.second < 60 then
    let moment (offset : Option Int) : Moment :=
      ⟨date, c.hour, c.minute, c.second, microOf c.fraction, offset⟩
    match c.zone with
    | none => some (moment none)
    | some zone => zone.minutes?.map fun n => moment (some n)
  else none

/-- The day or moment, if there is one. -/
def toAtom? (s : Stamp) : Option Atom :=
  match Date.ofParts? s.year (natOfDecimal s.month) (natOfDecimal s.day) with
  | none => none
  | some date =>
    match s.clock with
    | none => some (.date date)
    | some clock => (momentOf? date clock).map .moment

end Stamp

end ApiScribe.Yaml
