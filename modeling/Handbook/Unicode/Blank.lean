/-
**Blank characters.**

The characters that separate words: Unicode white space, and the four information separators
`U+001C` to `U+001F`.
-/

import Handbook.Unicode.Ranges

namespace Handbook.Unicode

/-- Code points of blank characters. -/
def blankRanges : Ranges :=
  ⟨[(0x9, 0xD), (0x1C, 0x20), (0x85, 0x85), (0xA0, 0xA0), (0x1680, 0x1680), (0x2000, 0x200A),
    (0x2028, 0x2029), (0x202F, 0x202F), (0x205F, 0x205F), (0x3000, 0x3000)]⟩

/-- Whether a character is blank. -/
def isBlank (c : Char) : Bool := blankRanges.covers c

end Handbook.Unicode
