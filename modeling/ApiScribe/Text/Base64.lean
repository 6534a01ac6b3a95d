/-
**Bytes in base 64.**

Four characters of the alphabet carry three bytes.  Characters outside the alphabet are skipped.
A padding mark counts from the third place of a group on, and the data end when it completes the
group; the data must not end inside a group.

Main definition: `ApiScribe.Base64.decode?`.
-/

set_option autoImplicit false

namespace ApiScribe.Base64

/-- The six bits of a character of the alphabet. -/
def sextet? (c : Char) : Option Nat :=
  if 'A' ≤ c ∧ c ≤ 'Z' then some (c.toNat - 'A'.toNat)
  else if 'a' ≤ c ∧ c ≤ 'z' then some (c.toNat - 'a'.toNat + 26)
  else if '0' ≤ c ∧ c ≤ '9' then some (c.toNat - '0'.toNat + 52)
  else if c = '+' then some 62
  else if c = '/' then some 63
  else none

/-- Reads on at a place of a group.  `carry` holds the bits of the last character that are not yet
part of a byte, and `pads` counts the padding marks since the last character. -/
def decodeFrom (place carry pads : Nat) : List Char → Option (List UInt8)
  | [] => if place = 0 then some [] else none
  | c :: rest =>
    if c = '=' then
      if 2 ≤ place then
        if 4 ≤ place + (pads + 1) then some [] else decodeFrom place carry (pads + 1) rest
      else decodeFrom place carry pads rest
    else
      match sextet? c with
      | none => decodeFrom place carry pads rest
      | some s =>
        match place with
        | 0 => decodeFrom 1 s 0 rest
        | 1 => (decodeFrom 2 (s % 16) 0 rest).map (UInt8.ofNat (carry * 4 + s / 16) :: ·)
        | 2 => (decodeFrom 3 (s % 4) 0 rest).map (UInt8.ofNat (carry * 16 + s / 4) :: ·)
        | _ => (decodeFrom 0 0 0 rest).map (UInt8.ofNat (carry * 64 + s) :: ·)

/-- The bytes that a text in base 64 stands for. -/
def decode? (cs : List Char) : Option (List UInt8) := decodeFrom 0 0 0 cs

end ApiScribe.Base64
