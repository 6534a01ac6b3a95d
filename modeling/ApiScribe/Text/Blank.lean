/-
**Blank characters, and trimming.**

Two classes of blanks are in use.  White space is the standard's class; blanks are white space and
the four separator controls besides.

Main definitions:

* `ApiScribe.Text.isWhite`, `ApiScribe.Text.isBlank` — the two classes;
* `ApiScribe.Text.trimBy` — a text without the characters of a class at its two ends.
-/

import ApiScribe.Text.Ranges

set_option autoImplicit false

namespace ApiScribe.Text

/-- The code points of white space. -/
def whiteRanges : Ranges :=
  [(0x9, 0xD), (0x20, 0x20), (0x85, 0x85), (0xA0, 0xA0),
   (0x1680, 0x1680), (0x2000, 0x200A), (0x2028, 0x2029), (0x202F, 0x202F),
   (0x205F, 0x205F), (0x3000, 0x3000)]

/-- The code points of white space and of the separator controls. -/
def blankRanges : Ranges :=
  [(0x9, 0xD), (0x1C, 0x20), (0x85, 0x85), (0xA0, 0xA0),
   (0x1680, 0x1680), (0x2000, 0x200A), (0x2028, 0x2029), (0x202F, 0x202F),
   (0x205F, 0x205F), (0x3000, 0x3000)]

/-- Whether `c` is white space. -/
def isWhite (c : Char) : Bool := whiteRanges.has c

/-- Whether `c` is white space or a separator control. -/
def isBlank (c : Char) : Bool := blankRanges.has c

/-- The characters without those of the class `drop` at the end. -/
def trimEndBy (drop : Char → Bool) (cs : List Char) : List Char :=
  (cs.reverse.dropWhile drop).reverse

/-- The characters without those of the class `drop` at the two ends. -/
def trimBy (drop : Char → Bool) (cs : List Char) : List Char :=
  trimEndBy drop (cs.dropWhile drop)

end ApiScribe.Text
