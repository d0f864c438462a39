/-
**Quoted texts.**

How a message shows a text that it was given: between apostrophes, or between double quotes when
the text holds an apostrophe and no double quote. The quote, the backslash and everything that
cannot be printed are escaped.
-/

import Handbook.Text.Basic
import Handbook.Unicode.Printable

namespace Handbook.Text

open Unicode

/-- The mark that encloses a text: a double quote saves the escapes of its apostrophes. -/
def quoteMark (text : Text) : Char :=
  if '\'' ∈ text ∧ '"' ∉ text then '"' else '\''

/-- The escape of a character by its code point, as short as the code point allows. -/
def codeEscape (code : Nat) : Text :=
  if code ≤ 0xFF then ['\\', 'x'] ++ hex 2 code
  else if code ≤ 0xFFFF then ['\\', 'u'] ++ hex 4 code
  else ['\\', 'U'] ++ hex 8 code

/-- A character inside quotes. -/
def quotedChar (mark : Char) (c : Char) : Text :=
  if c = mark ∨ c = '\\' then ['\\', c]
  else if c = '\n' then ['\\', 'n']
  else if c = '\t' then ['\\', 't']
  else if c = '\r' then ['\\', 'r']
  else if isPrintable c then [c]
  else codeEscape c.toNat

/-- A text between quotes. -/
def quoted (text : Text) : Text :=
  let mark := quoteMark text
  mark :: text.flatMap (quotedChar mark) ++ [mark]

end Handbook.Text
