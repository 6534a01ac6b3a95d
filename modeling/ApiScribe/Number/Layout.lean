/-
**Laying out the digits of a number.**

Which digits a number has is one question, and how they are set is another.  A `Layout` holds the
decisions: which powers of ten are written positionally, whether a significand in scientific form
always has a point, and the words for what is not finite.

Main definitions:

* `ApiScribe.decimalDigits` — the digits of a whole number;
* `ApiScribe.Layout`, `ApiScribe.Layout.render` — the decisions, and the text of a number;
* `ApiScribe.Layout.json`, `ApiScribe.Layout.spelled`, `ApiScribe.Layout.yaml` — the layouts in use.
-/

import ApiScribe.Number.Shortest

set_option autoImplicit false

namespace ApiScribe

/-! ### Whole numbers -/

/-- The decimal digits of `n`. -/
abbrev decimalDigits (n : Nat) : List Char := Nat.toDigits 10 n

/-- A whole number in decimal, with a minus sign if it is negative. -/
def integerText : Int → List Char
  | .ofNat n => decimalDigits n
  | .negSucc n => '-' :: decimalDigits (n + 1)

/-- A number below `10 ^ width` in exactly `width` digits. -/
def paddedDigits (width n : Nat) : List Char :=
  let ds := decimalDigits n
  List.replicate (width - ds.length) '0' ++ ds

/-! ### Floating-point numbers -/

/-- The decisions about the text of a floating-point number. -/
structure Layout where
  /-- The least power of ten of the first digit that is written positionally. -/
  leastPositional : Int := -4
  /-- The least power of ten of the first digit that is no longer written positionally. -/
  leastScientific : Int := 16
  /-- Whether a significand of one digit gets a point in scientific form. -/
  pointInScientific : Bool := false
  /-- The text of not-a-number. -/
  nan : String
  /-- The text of the positive infinity; the negative one has a minus sign in front. -/
  infinity : String

/-- Digits with the point before the one of power `10 ^ -1`; `point` is the number of digits before
the point. -/
def positional (ds : List Char) (point : Int) : List Char :=
  if point ≤ 0 then ['0', '.'] ++ List.replicate (-point).toNat '0' ++ ds
  else
    let whole := point.toNat
    if ds.length ≤ whole then
      ds ++ List.replicate (whole - ds.length) '0' ++ ['.', '0']
    else ds.take whole ++ '.' :: ds.drop whole

/-- The power of ten of the first digit: a sign, and at least two digits. -/
def exponentText (power : Int) : List Char :=
  'e' :: (if power < 0 then '-' else '+') :: paddedDigits 2 power.natAbs

/-- Digits with the point after the first one, and the power of ten of that one. -/
def Layout.scientific (layout : Layout) (ds : List Char) (power : Int) : List Char :=
  ds.take 1
    ++ (if ds.length ≤ 1 then (if layout.pointInScientific then ['.', '0'] else [])
        else '.' :: ds.drop 1)
    ++ exponentText power

/-- The text of a finite number without its sign. -/
def Layout.magnitude (layout : Layout) (m : Nat) (e : Int) : List Char :=
  let (d, x) := Shortest.digits m e
  let ds := decimalDigits d
  let power := x + ds.length - 1
  if d = 0 then ['0', '.', '0']
  else if layout.leastPositional ≤ power && power < layout.leastScientific then
    positional ds (power + 1)
  else layout.scientific ds power

/-- The text of a floating-point number. -/
def Layout.render (layout : Layout) : Binary64 → List Char
  | .nan => layout.nan.toList
  | .infinite s => (if s then ['-'] else []) ++ layout.infinity.toList
  | .finite s m e => (if s then ['-'] else []) ++ layout.magnitude m e

/-- The layout of numbers in JSON text. -/
def Layout.json : Layout where
  nan := "NaN"
  infinity := "Infinity"

/-- The layout of numbers where a value is spelled out in a message. -/
def Layout.spelled : Layout where
  nan := "nan"
  infinity := "inf"

/-- The layout of numbers in YAML text, where only a number with a point is a floating-point
number. -/
def Layout.yaml : Layout where
  pointInScientific := true
  nan := ".nan"
  infinity := ".inf"

end ApiScribe
