/-
**The values of YAML texts.**

What a text of a known kind stands for.  A tag may give a kind to a text that has not its form, so
the readers are more lenient than the forms are: blanks may surround a number, and its digits may be
of any script.

Main definitions: `ApiScribe.Yaml.readBool?`, `ApiScribe.Yaml.readInt?`,
`ApiScribe.Yaml.readFloat?`, `ApiScribe.Yaml.readBinary?`, and `ApiScribe.Yaml.Tag.atom?`, which
selects among them.
-/

import ApiScribe.Text.Base64
import ApiScribe.Text.Blank
import ApiScribe.Text.DecimalDigit
import ApiScribe.Text.LowerCase
import ApiScribe.Yaml.Tag

set_option autoImplicit false

namespace ApiScribe.Yaml

/-- The truth value that a word stands for, whatever the case of its letters. -/
def readBool? (cs : List Char) : Option Bool :=
  let word := Text.lower (String.ofList cs)
  if ["yes", "true", "on"].contains word then some true
  else if ["no", "false", "off"].contains word then some false
  else none

/-! ### Whole numbers -/

/-- The greatest number of decimal digits of a whole number. -/
def maxDecimalDigits : Nat := 4300

/-- A sign and what follows it; whether the sign is a minus comes first. -/
def takeSign : List Char → Bool × List Char
  | '-' :: rest => (true, rest)
  | '+' :: rest => (false, rest)
  | cs => (false, cs)

/-- A number with its sign. -/
def signed (negative : Bool) (n : Int) : Int := if negative then -n else n

/-- The value of a digit of any script in a base of up to sixteen. -/
def digitIn? (base : Nat) (c : Char) : Option Nat :=
  let d? := (Text.digitOf? c).orElse fun _ => digitValue? c
  d?.filter (· < base)

/-- The whole number that digits of a base stand for. -/
def digitsIn? (base : Nat) (cs : List Char) : Option Nat :=
  if cs.isEmpty then none
  else (cs.mapM (digitIn? base)).map fun ds => ds.foldl (fun n d => n * base + d) 0

/-- The letter in front of the digits of a base, after a zero. -/
def baseLetter? : Nat → Option Char
  | 2 => some 'b'
  | 8 => some 'o'
  | 16 => some 'x'
  | _ => none

/-- Digits of a base without the zero and the letter in front of them. -/
def dropBaseMark (base : Nat) : List Char → List Char
  | '0' :: c :: rest => if baseLetter? base = some c.toLower then rest else '0' :: c :: rest
  | cs => cs

/-- The whole number of a base that a text stands for, with blanks around it and with a sign. -/
def intIn? (base : Nat) (cs : List Char) : Option Int :=
  let (negative, digits) := takeSign (Text.trimBy Text.isBlank cs)
  let digits := dropBaseMark base digits
  if base = 10 && maxDecimalDigits < digits.length then none
  else (digitsIn? base digits).map fun n => signed negative n

/-- The parts of a text between colons. -/
def colonParts : List Char → List (List Char)
  | [] => [[]]
  | c :: rest =>
    if c = ':' then [] :: colonParts rest
    else
      match colonParts rest with
      | [] => [[c]]
      | part :: parts => (c :: part) :: parts

/-- The whole number to the base sixty of parts that stand for whole numbers. -/
def sixties? (parts : List (List Char)) : Option Int :=
  (parts.mapM (intIn? 10)).map fun ns => ns.foldl (fun total n => total * 60 + n) 0

/-- The whole number that a text stands for. -/
def readInt? (cs : List Char) : Option Int :=
  let (negative, digits) := takeSign (cs.filter (· ≠ '_'))
  let size :=
    match digits with
    | ['0'] => some 0
    | '0' :: 'b' :: rest => intIn? 2 rest
    | '0' :: 'x' :: rest => intIn? 16 rest
    | '0' :: _ => intIn? 8 digits
    | [] => none
    | _ => if digits.contains ':' then sixties? (colonParts digits) else intIn? 10 digits
  size.map (signed negative)

/-! ### Floating-point numbers -/

/-- The plain decimal digit that a character stands for, and other characters as they are. -/
def plainDigit (c : Char) : Char := ((Text.digitOf? c).map Nat.digitChar).getD c

/-- The number of a text of digits with an optional point and an optional power of ten. -/
def unsignedDecimal? (negative : Bool) (cs : List Char) : Option Binary64 :=
  let (whole, rest) := takeDigits cs
  let (fraction, rest) : List Char × List Char :=
    match rest with
    | '.' :: rest => takeDigits rest
    | rest => ([], rest)
  if whole.isEmpty && fraction.isEmpty then none
  else
    let number (power : Int) : Binary64 :=
      .ofDecimal negative (natOfDecimal (whole ++ fraction)) (power - fraction.length)
    match rest with
    | [] => some (number 0)
    | rest =>
      match takePower rest with
      | some (power, []) => some (number power)
      | _ => none

/-- The number that a text in lower case stands for, with blanks around it and with a sign. -/
def decimal? (cs : List Char) : Option Binary64 :=
  let (negative, text) := takeSign ((Text.trimBy Text.isBlank cs).map plainDigit)
  if text = "inf".toList || text = "infinity".toList then some (.infinite negative)
  else if text = "nan".toList then some .nan
  else unsignedDecimal? negative text

/-- The number to the base sixty of numbers, the last one first, of which the first counts `unit`.
The powers of sixty must be floating-point numbers. -/
def floatSixties? (total : Binary64) (unit : Nat) : List Binary64 → Option Binary64
  | [] => some total
  | x :: rest =>
    let scale := Binary64.ofInt unit
    if scale.isFinite then floatSixties? (total.add (x.mul scale)) (unit * 60) rest else none

/-- A number with its sign. -/
def signedFloat (negative : Bool) (x : Binary64) : Binary64 := if negative then x.neg else x

/-- The floating-point number that a text stands for. -/
def readFloat? (cs : List Char) : Option Binary64 :=
  let text := (cs.filter (· ≠ '_')).map Char.toLower
  let (negative, text) := takeSign text
  if text = ".inf".toList then some (.infinite negative)
  else if text = ".nan".toList then some .nan
  else if text.contains ':' then
    match (colonParts text).reverse.mapM decimal? with
    | some xs => (floatSixties? (.ofInt 0) 1 xs).map (signedFloat negative)
    | none => none
  else (decimal? text).map (signedFloat negative)

/-! ### Bytes -/

/-- The bytes that a text of ASCII characters stands for. -/
def readBinary? (cs : List Char) : Option (List UInt8) :=
  if cs.all (·.toNat < 0x80) then Base64.decode? cs else none

/-! ### All kinds -/

/-- What a text of a kind stands for, if it is undivided. -/
def Tag.atom? (tag : Tag) (cs : List Char) : Option Atom :=
  match tag with
  | .str => some (.text (String.ofList cs))
  | .null => some .null
  | .bool => (readBool? cs).map .bool
  | .int => (readInt? cs).map .int
  | .float => (readFloat? cs).map .float
  | .binary => (readBinary? cs).map .bytes
  | .timestamp => (Stamp.read? (withoutLineFeed cs)).bind Stamp.toAtom?
  | _ => none

end ApiScribe.Yaml
