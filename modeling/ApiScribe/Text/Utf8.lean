/-
**UTF-8.**

Bytes are read one at a time.  Between two characters the first byte of the next one decides how
many more are owed and in which range the first of them must lie; a byte outside that range ends
the piece, and is read again as the start of the next one.  So every sequence of bytes falls into
characters and ill-formed pieces, each of which is as long as it can be.

Main definitions:

* `ApiScribe.Utf8.encode` — the bytes of a text;
* `ApiScribe.Utf8.pieces` — bytes as characters and ill-formed pieces;
* `ApiScribe.Utf8.decode?`, `ApiScribe.Utf8.decodeReplacing` — the text of bytes without ill-formed
  pieces, and the text with each of them replaced.
-/

set_option autoImplicit false

namespace ApiScribe

/-- The character that stands for what cannot be read. -/
def replacementChar : Char := '\uFFFD'

/-- The character with a code point; what is not the code point of a character is replaced. -/
def charOfCode (code : Nat) : Char :=
  if code.isValidChar then Char.ofNat code else replacementChar

namespace Utf8

/-- The bytes of one character. -/
def encodeChar (c : Char) : List UInt8 :=
  let n := c.toNat
  if n < 0x80 then [UInt8.ofNat n]
  else if n < 0x800 then [UInt8.ofNat (0xC0 + n / 0x40), UInt8.ofNat (0x80 + n % 0x40)]
  else if n < 0x10000 then
    [UInt8.ofNat (0xE0 + n / 0x1000), UInt8.ofNat (0x80 + n / 0x40 % 0x40),
      UInt8.ofNat (0x80 + n % 0x40)]
  else
    [UInt8.ofNat (0xF0 + n / 0x40000), UInt8.ofNat (0x80 + n / 0x1000 % 0x40),
      UInt8.ofNat (0x80 + n / 0x40 % 0x40), UInt8.ofNat (0x80 + n % 0x40)]

/-- The bytes of a text. -/
def encode (cs : List Char) : List UInt8 := cs.flatMap encodeChar

/-- A character of which bytes are still owed. -/
structure Pending where
  /-- The bits read so far. -/
  code : Nat
  /-- How many bytes are owed after the next one. -/
  owed : Nat
  /-- The least byte that may come next. -/
  low : Nat
  /-- The greatest byte that may come next. -/
  high : Nat

/-- What the first byte of a piece makes of it. -/
inductive Start where
  /-- A whole character. -/
  | char (c : Char)
  /-- The start of a character. -/
  | pending (p : Pending)
  /-- No character starts with the byte. -/
  | bad

/-- Reads the first byte of a piece.  `halves` says whether the halves of surrogate pairs are
accepted as characters. -/
def start (halves : Bool) (b : Nat) : Start :=
  if b < 0x80 then .char (Char.ofNat b)
  else if b < 0xC2 then .bad
  else if b < 0xE0 then .pending ⟨b - 0xC0, 0, 0x80, 0xBF⟩
  else if b = 0xE0 then .pending ⟨0, 1, 0xA0, 0xBF⟩
  else if b = 0xED then .pending ⟨0xD, 1, 0x80, if halves then 0xBF else 0x9F⟩
  else if b < 0xF0 then .pending ⟨b - 0xE0, 1, 0x80, 0xBF⟩
  else if b = 0xF0 then .pending ⟨0, 2, 0x90, 0xBF⟩
  else if b < 0xF4 then .pending ⟨b - 0xF0, 2, 0x80, 0xBF⟩
  else if b = 0xF4 then .pending ⟨4, 2, 0x80, 0x8F⟩
  else .bad

/-- Bytes as characters and ill-formed pieces, the latter as `none`, after the bytes of a character
that is not yet complete. -/
def pieces (halves : Bool) : Option Pending → List UInt8 → List (Option Char)
  | none, [] => []
  | some _, [] => [none]
  | some p, b :: rest =>
    if p.low ≤ b.toNat ∧ b.toNat ≤ p.high then
      let code := p.code * 0x40 + (b.toNat - 0x80)
      match p.owed with
      | 0 => some (charOfCode code) :: pieces halves none rest
      | owed + 1 => pieces halves (some ⟨code, owed, 0x80, 0xBF⟩) rest
    else
      match start halves b.toNat with
      | .char c => none :: some c :: pieces halves none rest
      | .pending p => none :: pieces halves (some p) rest
      | .bad => none :: none :: pieces halves none rest
  | none, b :: rest =>
    match start halves b.toNat with
    | .char c => some c :: pieces halves none rest
    | .pending p => pieces halves (some p) rest
    | .bad => none :: pieces halves none rest

/-- All the characters, if there is no ill-formed piece. -/
def wellFormed? : List (Option Char) → Option (List Char)
  | [] => some []
  | none :: _ => none
  | some c :: rest => (wellFormed? rest).map (c :: ·)

/-- The text of well-formed bytes. -/
def decode? (bs : List UInt8) : Option (List Char) := wellFormed? (pieces false none bs)

/-- The text of bytes that are well-formed but for halves of surrogate pairs, each of which is
replaced. -/
def decodeHalves? (bs : List UInt8) : Option (List Char) := wellFormed? (pieces true none bs)

/-- The text of bytes, each ill-formed piece being replaced. -/
def decodeReplacing (bs : List UInt8) : List Char :=
  (pieces false none bs).map (·.getD replacementChar)

end Utf8

end ApiScribe
