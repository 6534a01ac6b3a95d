/-
**Dates and moments.**

Main definitions:

* `ApiScribe.Date`, `ApiScribe.Date.ofParts?` — a day of the proleptic Gregorian calendar;
* `ApiScribe.Moment`, `ApiScribe.Moment.same` — a time of day on a day, with an optional distance
  from universal time; two moments with a distance agree if they are the same instant;
* `ApiScribe.Moment.iso` — the text of a moment.
-/

import ApiScribe.Number.Layout

set_option autoImplicit false

namespace ApiScribe

/-- A day of the calendar. -/
structure Date where
  /-- The year, from 1 to 9999. -/
  year : Nat
  /-- The month, from 1 to 12. -/
  month : Nat
  /-- The day of the month. -/
  day : Nat
  deriving DecidableEq, Repr

/-- A time of day on a day. -/
structure Moment where
  /-- The day. -/
  date : Date
  /-- The hour, from 0 to 23. -/
  hour : Nat
  /-- The minute, from 0 to 59. -/
  minute : Nat
  /-- The second, from 0 to 59. -/
  second : Nat
  /-- The millionths of a second. -/
  micro : Nat
  /-- How many minutes the clock is ahead of universal time, if that is known. -/
  offset : Option Int
  deriving DecidableEq, Repr

namespace Date

/-- Whether a year has a leap day. -/
def isLeap (year : Nat) : Bool := year % 4 == 0 && (year % 100 != 0 || year % 400 == 0)

/-- The number of days in a month. -/
def monthLength (year month : Nat) : Nat :=
  if month == 2 then (if isLeap year then 29 else 28)
  else if month == 4 || month == 6 || month == 9 || month == 11 then 30
  else 31

/-- The day with the given year, month and day of the month, if there is one. -/
def ofParts? (year month day : Nat) : Option Date :=
  if 1 ≤ year && year ≤ 9999 && 1 ≤ month && month ≤ 12 && 1 ≤ day && day ≤ monthLength year month
  then some ⟨year, month, day⟩ else none

/-- The text `YYYY-MM-DD`. -/
def iso (d : Date) : List Char :=
  paddedDigits 4 d.year ++ '-' :: paddedDigits 2 d.month ++ '-' :: paddedDigits 2 d.day

/-- The number of days before the day. -/
def daysBefore (d : Date) : Nat :=
  let y := d.year - 1
  y * 365 + y / 4 - y / 100 + y / 400
    + (List.range (d.month - 1)).foldl (fun days m => days + monthLength d.year (m + 1)) 0
    + (d.day - 1)

end Date

namespace Moment

/-- The distance of a time zone as `+HH:MM` or `-HH:MM`. -/
def zoneText (offset : Int) : List Char :=
  (if offset < 0 then '-' else '+') :: paddedDigits 2 (offset.natAbs / 60)
    ++ ':' :: paddedDigits 2 (offset.natAbs % 60)

/-- The day and the time of day with `separator` between them, without the zone.  The fraction has
six digits and is left out if it is zero. -/
def clockText (separator : Char) (t : Moment) : List Char :=
  t.date.iso ++ separator :: paddedDigits 2 t.hour ++ ':' :: paddedDigits 2 t.minute
    ++ ':' :: paddedDigits 2 t.second
    ++ if t.micro = 0 then [] else '.' :: paddedDigits 6 t.micro

/-- The text with a `T` between day and time, universal time being marked by a `Z`. -/
def iso (t : Moment) : List Char :=
  t.clockText 'T' ++ match t.offset with
    | none => []
    | some 0 => ['Z']
    | some offset => zoneText offset

/-- The text with a blank between day and time. -/
def spaced (t : Moment) : List Char :=
  t.clockText ' ' ++ match t.offset with
    | none => []
    | some offset => zoneText offset

/-- The millionths of a second from the start of the calendar, on the clock of the zone moved to
universal time. -/
def instant (t : Moment) (offset : Int) : Int :=
  (((t.date.daysBefore * 24 + t.hour : Nat) * 60 + t.minute - offset) * 60 + t.second) * 1000000
    + t.micro

/-- Two moments agree if they are the same instant, or the same reading of clocks of which no zone
is known. -/
def same (s t : Moment) : Bool :=
  match s.offset, t.offset with
  | none, none => s == t
  | some a, some b => s.instant a == t.instant b
  | _, _ => false

end Moment

end ApiScribe
