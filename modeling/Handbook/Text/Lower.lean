/-
**Texts in small letters.**

Every capital letter of a text becomes small. A capital sigma becomes the final small sigma where
it ends a word: when the nearest character before it that is not passed over has case, and the
nearest one after it has not.
-/

import Handbook.Text.Basic
import Handbook.Unicode.Cased
import Handbook.Unicode.Lowercase

namespace Handbook.Text

open Unicode

/-- Whether the first character of a text that is not passed over has case. -/
def startsCased : Text → Bool
  | [] => false
  | c :: rest => if isCaseIgnorable c then startsCased rest else isCased c

/-- Whether the text up to and with a character ends in a cased character, given whether the text
before it does. -/
def endsCased (before : Bool) (c : Char) : Bool :=
  if isCaseIgnorable c then before else isCased c

/-- The small form of a character between two parts of a text. -/
def smallFormBetween (before : Bool) (c : Char) (after : Text) : Text :=
  if c = 'Σ' then [if before && !startsCased after then 'ς' else 'σ'] else smallForm c

/-- A text in small letters, given whether the text before it ends in a cased character. -/
def lowerAfter (before : Bool) : Text → Text
  | [] => []
  | c :: rest => smallFormBetween before c rest ++ lowerAfter (endsCased before c) rest

/-- A text in small letters. -/
def lower (text : Text) : Text := lowerAfter false text

end Handbook.Text
