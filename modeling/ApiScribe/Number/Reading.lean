/-
**Reading numbers.**

Main definitions:

* `ApiScribe.natOfDecimal`, `ApiScribe.natOfDigits` — the whole number that digits of base ten, and
  of any base up to sixteen, stand for;
* `ApiScribe.Fraction`, `ApiScribe.Fraction.take?`, `ApiScribe.Fraction.toBinary64` — what may
  follow the whole part of a decimal, and the number nearest to the decimal.
-/

import ApiScribe.Number.Layout

set_option autoImplicit false

namespace ApiScribe

/-- The value of a digit in any base up to sixteen. -/
def digitValue? (c : Char) : Option Nat :=
  if '0' ≤ c ∧ c ≤ '9' then some (c.toNat - '0'.toNat)
  else if 'a' ≤ c ∧ c ≤ 'f' then some (c.toNat - 'a'.toNat + 10)
  else if 'A' ≤ c ∧ c ≤ 'F' then some (c.toNat - 'A'.toNat + 10)
  else none

/-- Whether `c` is a hexadecimal digit. -/
def isHexDigit (c : Char) : Bool := (digitValue? c).isSome

/-- The whole number that digits of a base stand for. -/
def natOfDigits (base : Nat) (ds : List Char) : Nat :=
  ds.foldl (fun n c => n * base + (digitValue? c).getD 0) 0

/-- The whole number that decimal digits stand for. -/
abbrev natOfDecimal (ds : List Char) : Nat := Nat.ofDigitChars 10 ds 0

/-- Reading the decimal digits of a number gives the number. -/
theorem natOfDecimal_decimalDigits (n : Nat) : natOfDecimal (decimalDigits n) = n :=
  Nat.ofDigitChars_ten_toDigits

/-- Numbers have different digits. -/
theorem decimalDigits_injective {m n : Nat} (h : decimalDigits m = decimalDigits n) : m = n := by
  rw [← natOfDecimal_decimalDigits m, h, natOfDecimal_decimalDigits]

theorem isDigit_of_mem_decimalDigits {n : Nat} {c : Char} (h : c ∈ decimalDigits n) :
    c.isDigit = true := Nat.isDigit_of_mem_toDigits (by decide) (by decide) h

/-- The decimal digits at the start of a text, and the rest. -/
def takeDigits (cs : List Char) : List Char × List Char :=
  (cs.takeWhile Char.isDigit, cs.dropWhile Char.isDigit)

/-- The digits after the point and the power of ten that follow a whole part. -/
structure Fraction where
  /-- The digits after the point. -/
  digits : List Char
  /-- The power of ten by which the decimal is multiplied. -/
  power : Int

/-- Reads a point with at least one digit after it. -/
def takePoint (cs : List Char) : Option (List Char × List Char) :=
  match cs with
  | '.' :: rest =>
    match takeDigits rest with
    | ([], _) => none
    | (ds, rest) => some (ds, rest)
  | _ => none

/-- Reads the mark of a power of ten, an optional sign, and at least one digit. -/
def takePower (cs : List Char) : Option (Int × List Char) :=
  let unsigned (negative : Bool) (rest : List Char) : Option (Int × List Char) :=
    match takeDigits rest with
    | ([], _) => none
    | (ds, rest) =>
      let n : Int := natOfDecimal ds
      some (if negative then -n else n, rest)
  match cs with
  | c :: rest =>
    if c = 'e' ∨ c = 'E' then
      match rest with
      | '+' :: rest => unsigned false rest
      | '-' :: rest => unsigned true rest
      | rest => unsigned false rest
    else none
  | [] => none

/-- Reads digits after a point, a power of ten, or both. -/
def Fraction.take? (cs : List Char) : Option (Fraction × List Char) :=
  match takePoint cs with
  | some (ds, rest) =>
    match takePower rest with
    | some (power, rest) => some (⟨ds, power⟩, rest)
    | none => some (⟨ds, 0⟩, rest)
  | none => (takePower cs).map fun (power, rest) => (⟨[], power⟩, rest)

/-- The number nearest to a whole part and what follows it. -/
def Fraction.toBinary64 (negative : Bool) (whole : List Char) (f : Fraction) : Binary64 :=
  Binary64.ofDecimal negative (natOfDecimal (whole ++ f.digits)) (f.power - f.digits.length)

end ApiScribe
