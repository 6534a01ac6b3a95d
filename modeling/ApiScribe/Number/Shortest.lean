/-
**The fewest digits that read back.**

The decimals that are rounded to a given floating-point number form an interval around it.  Its
ends lie halfway to the two neighbours, and they belong to the interval exactly if the significand
is even.  The digits of the number are those of the shortest decimal in the interval, and of
several equally short ones those of the nearest.

Everything is exact: the number and the ends of its interval are kept as whole multiples of a
quarter of the last place (`Interval`), and a decimal is compared with them by cross-multiplying.

Main definitions:

* `ApiScribe.Shortest.interval` — the interval of a significand and an exponent;
* `ApiScribe.Shortest.Interval.holds` — whether a decimal lies in the interval;
* `ApiScribe.Shortest.digits` — the digits of a number and the power of ten of the last one.
-/

import ApiScribe.Number.Binary64

set_option autoImplicit false

namespace ApiScribe.Shortest

/-- The reals that are rounded to one number, over the common denominator `unit`. -/
structure Interval where
  /-- The numerator of the lower end. -/
  low : Nat
  /-- The numerator of the number itself. -/
  value : Nat
  /-- The numerator of the upper end. -/
  high : Nat
  /-- The common denominator. -/
  unit : Nat
  /-- Whether the ends belong to the interval. -/
  closed : Bool

/-- The interval of `m * 2 ^ e`.  Below a power of two the gap is half as wide. -/
def interval (m : Nat) (e : Int) : Interval :=
  let up := if 0 ≤ e then Nat.pow 2 e.toNat else 1
  let down := if 0 ≤ e then 1 else Nat.pow 2 (-e).toNat
  let narrow := m == Nat.pow 2 52 && Binary64.minExponent < e
  { low := (4 * m - if narrow then 1 else 2) * up
    value := 4 * m * up
    high := (4 * m + 2) * up
    unit := 4 * down
    closed := m % 2 == 0 }

/-- The decimal `d * 10 ^ x` over the denominator `unit`, as a numerator and the factor by which
the numerators of the interval are to be multiplied. -/
def Interval.decimal (i : Interval) (d : Nat) (x : Int) : Nat × Nat :=
  if 0 ≤ x then (d * Nat.pow 10 x.toNat * i.unit, 1) else (d * i.unit, Nat.pow 10 (-x).toNat)

/-- Whether `d * 10 ^ x` lies in the interval. -/
def Interval.holds (i : Interval) (d : Nat) (x : Int) : Bool :=
  let (n, f) := i.decimal d x
  if i.closed then i.low * f ≤ n && n ≤ i.high * f else i.low * f < n && n < i.high * f

/-- Whether the number is below `10 ^ k`. -/
def Interval.below (i : Interval) (k : Int) : Bool :=
  let (n, f) := i.decimal 1 k
  i.value * f < n

/-- The greatest `d` such that `d * 10 ^ x` is not above the number. -/
def Interval.floor (i : Interval) (x : Int) : Nat :=
  if 0 ≤ x then i.value / (i.unit * Nat.pow 10 x.toNat)
  else i.value * Nat.pow 10 (-x).toNat / i.unit

/-- Of `d * 10 ^ x` and the next decimal with the same last place the one that is nearer to the
number; a tie goes to the even digit. -/
def Interval.nearer (i : Interval) (d : Nat) (x : Int) : Nat :=
  let (n, f) := i.decimal (2 * d + 1) x
  if 2 * i.value * f < n then d
  else if n < 2 * i.value * f then d + 1
  else d + d % 2

/-- The decimal with last place `10 ^ x` that lies in the interval, the nearest one of two. -/
def Interval.at? (i : Interval) (x : Int) : Option Nat :=
  let d := i.floor x
  match i.holds d x, i.holds (d + 1) x with
  | true, true => some (i.nearer d x)
  | true, false => some d
  | false, true => some (d + 1)
  | false, false => none

/-- The least `k` such that `m * 2 ^ e` is below `10 ^ k`.  The logarithm is estimated from the
number of bits, and the estimate is corrected upwards. -/
def scale (i : Interval) (m : Nat) (e : Int) : Int :=
  let estimate : Int := ((m.log2 : Int) + e) * 30103 / 100000 - 1
  match (List.range 5).find? fun (j : Nat) => i.below (estimate + j) with
  | some j => estimate + j
  | none => estimate

/-- The digits without zeros at the end, and the power of ten of the last one. -/
def strip : Nat → Nat → Int → Nat × Int
  | 0, d, x => (d, x)
  | fuel + 1, d, x => if d ≠ 0 && d % 10 == 0 then strip fuel (d / 10) (x + 1) else (d, x)

/-- The digits of `m * 2 ^ e` as a whole number, and the power of ten of the last digit. -/
def digits (m : Nat) (e : Int) : Nat × Int :=
  if m = 0 then (0, 0)
  else
    let i := interval m e
    let k := scale i m e
    match (List.range 17).findSome? fun (n : Nat) =>
        (i.at? (k - (n + 1))).map fun d => (d, k - ((n : Int) + 1)) with
    | some (d, x) => strip 400 d x
    | none => if 0 ≤ e then (m * Nat.pow 2 e.toNat, 0) else (m * Nat.pow 5 (-e).toNat, e)

end ApiScribe.Shortest
