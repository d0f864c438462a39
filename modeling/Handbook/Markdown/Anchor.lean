/-
**Anchors of headings.**

A Markdown summary links to a heading by an anchor: the title in small letters, with only ASCII
letters, digits, hyphens and spaces kept, each space turned into a hyphen.
-/

import Handbook.Text.Lower

namespace Handbook.Markdown

/-- Whether a character is an ASCII letter or digit. -/
def isAsciiAlphanumeric (c : Char) : Bool := c.isAlphanum

/-- Whether an anchor keeps a character of the title in small letters. -/
def anchorKeeps (c : Char) : Bool := c == ' ' || c == '-' || isAsciiAlphanumeric c

/-- The anchor of a heading. Hyphens are neither trimmed nor merged. -/
def anchor (title : Text) : Text :=
  ((Text.lower title).filter anchorKeeps).map fun c => if c = ' ' then '-' else c

end Handbook.Markdown
