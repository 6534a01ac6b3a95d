/-
**Characters that must not occur in an authority.**

Some characters have a compatibility form that contains one of the delimiters `/`, `?`, `#`, `@`
and `:`.  An authority that holds one of them could change its extent when it is normalised, so a
URL with such an authority is refused.

Main definition: `ApiScribe.Url.isHostHazard`.
-/

import ApiScribe.Text.Ranges

set_option autoImplicit false

namespace ApiScribe.Url

/-- The code points whose compatibility form holds a delimiter. -/
def hostHazardRanges : Text.Ranges :=
  [(0x2047, 0x2049), (0x2100, 0x2101), (0x2105, 0x2106), (0x2A74, 0x2A74),
   (0xFE13, 0xFE13), (0xFE16, 0xFE16), (0xFE55, 0xFE56), (0xFE5F, 0xFE5F),
   (0xFE6B, 0xFE6B), (0xFF03, 0xFF03), (0xFF0F, 0xFF0F), (0xFF1A, 0xFF1A),
   (0xFF1F, 0xFF20)]

/-- Whether the compatibility form of `c` holds a delimiter. -/
def isHostHazard (c : Char) : Bool := hostHazardRanges.has c

end ApiScribe.Url
