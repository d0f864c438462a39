/-
**Patterns of escape sequences.**

The sequences that a terminal reads as commands: those that set colors, and all control sequences.
-/

import Handbook.Pattern.Basic
import Handbook.Terminal.Style

namespace Handbook.Pattern

open Terminal

/-- Whether a character can be a parameter of a color sequence. -/
def isColorParameter (c : Char) : Bool := c.isDigit || c == ';'

/-- The length of the color sequence that a text begins with: the escape character, a bracket,
numbers parted by semicolons, and `m`. -/
def colorSequenceSize? (text : Text) : Option Nat :=
  match text with
  | first :: '[' :: rest =>
    let parameters := rest.takeWhile isColorParameter
    if first == escape && (rest.dropWhile isColorParameter).head? == some 'm' then
      some (parameters.length + 3)
    else none
  | _ => none

/-- A sequence that sets colors. -/
def colorSequence : Pattern where
  reach? _ text := (colorSequenceSize? text).map (⟨·, []⟩)

/-- Whether a character can be a parameter of a control sequence. -/
def isParameter (c : Char) : Bool := '0' ≤ c && c ≤ '?'

/-- Whether a character can stand between the parameters and the end of a control sequence. -/
def isIntermediate (c : Char) : Bool := ' ' ≤ c && c ≤ '/'

/-- Whether a character can end a control sequence. -/
def isFinal (c : Char) : Bool := '@' ≤ c && c ≤ '~'

/-- Any control sequence: the escape character, a bracket, parameters, intermediate characters and
a final one. -/
def controlSequence : Pattern where
  reach? _ text :=
    match text with
    | first :: '[' :: rest =>
      let parameters := rest.takeWhile isParameter
      let tail := rest.dropWhile isParameter
      let intermediates := tail.takeWhile isIntermediate
      if first == escape && (tail.dropWhile isIntermediate).head?.any isFinal then
        some ⟨parameters.length + intermediates.length + 3, []⟩
      else none
    | _ => none

end Handbook.Pattern

namespace Handbook.Terminal

/-- A text without its color sequences. -/
def stripColors (text : Text) : Text := Pattern.colorSequence.replaceAll (fun _ => []) text

/-- A text without any control sequence, as it shows in a plain terminal. -/
def unstyled (text : Text) : Text := Pattern.controlSequence.replaceAll (fun _ => []) text

end Handbook.Terminal
