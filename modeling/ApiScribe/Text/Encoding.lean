/-
**The encoding of a text given as bytes.**

A text of which only the bytes are known is in one of five encodings.  A byte-order mark decides;
without one the zeros among the first bytes do, since the first two characters of such a text are
taken to be ASCII.

Main definitions:

* `ApiScribe.Encoding.detect` — the encoding of bytes, and the bytes after the mark;
* `ApiScribe.Encoding.decode?` — the text of bytes in an encoding;
* `ApiScribe.textOfBytes?` — the text of bytes in the encoding that they announce.

Half of a surrogate pair is read as the replacement character.
-/

import ApiScribe.Text.Utf8

set_option autoImplicit false

namespace ApiScribe

/-- How characters are laid out in bytes. -/
inductive Encoding where
  /-- One to four bytes. -/
  | utf8
  /-- Units of two bytes. -/
  | utf16 (bigEndian : Bool)
  /-- Units of four bytes. -/
  | utf32 (bigEndian : Bool)
  deriving DecidableEq, Repr

namespace Encoding

/-- The encoding that the zeros among the first bytes show. -/
def guess : List UInt8 → Encoding
  | 0 :: 0 :: _ :: _ :: _ => utf32 true
  | 0 :: _ :: _ :: _ :: _ => utf16 true
  | _ :: 0 :: 0 :: 0 :: _ => utf32 false
  | _ :: 0 :: _ :: _ :: _ => utf16 false
  | [0, _] => utf16 true
  | [_, 0] => utf16 false
  | _ => utf8

/-- The encoding of bytes, and the bytes after the byte-order mark. -/
def detect : List UInt8 → Encoding × List UInt8
  | 0x00 :: 0x00 :: 0xFE :: 0xFF :: rest => (utf32 true, rest)
  | 0xFF :: 0xFE :: 0x00 :: 0x00 :: rest => (utf32 false, rest)
  | 0xFE :: 0xFF :: rest => (utf16 true, rest)
  | 0xFF :: 0xFE :: rest => (utf16 false, rest)
  | 0xEF :: 0xBB :: 0xBF :: rest => (utf8, rest)
  | bs => (guess bs, bs)

/-- Bytes as units of two. -/
def units16? (bigEndian : Bool) : List UInt8 → Option (List Nat)
  | [] => some []
  | [_] => none
  | a :: b :: rest =>
    let unit := if bigEndian then a.toNat * 0x100 + b.toNat else b.toNat * 0x100 + a.toNat
    (units16? bigEndian rest).map (unit :: ·)

/-- Units of two bytes as characters. -/
def ofUnits16 : List Nat → List Char
  | [] => []
  | [u] => [charOfCode u]
  | u :: v :: rest =>
    if 0xD800 ≤ u ∧ u < 0xDC00 ∧ 0xDC00 ≤ v ∧ v < 0xE000 then
      charOfCode (0x10000 + (u - 0xD800) * 0x400 + (v - 0xDC00)) :: ofUnits16 rest
    else charOfCode u :: ofUnits16 (v :: rest)

/-- Bytes as units of four, each of which is at most the last code point. -/
def units32? (bigEndian : Bool) : List UInt8 → Option (List Nat)
  | [] => some []
  | a :: b :: c :: d :: rest =>
    let value (w x y z : UInt8) : Nat :=
      ((w.toNat * 0x100 + x.toNat) * 0x100 + y.toNat) * 0x100 + z.toNat
    let unit := if bigEndian then value a b c d else value d c b a
    if unit ≤ 0x10FFFF then (units32? bigEndian rest).map (unit :: ·) else none
  | _ => none

/-- The text of bytes in an encoding. -/
def decode? : Encoding → List UInt8 → Option (List Char)
  | utf8, bs => Utf8.decodeHalves? bs
  | utf16 bigEndian, bs => (units16? bigEndian bs).map ofUnits16
  | utf32 bigEndian, bs => (units32? bigEndian bs).map (·.map charOfCode)

end Encoding

/-- The text of bytes in the encoding that they announce. -/
def textOfBytes? (bs : List UInt8) : Option (List Char) :=
  let (encoding, rest) := Encoding.detect bs
  encoding.decode? rest

end ApiScribe
