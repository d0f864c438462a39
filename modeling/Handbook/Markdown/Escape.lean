/-
**Escapes in Markdown.**

An argument is written between asterisks, so the characters of it that Markdown would read as
markup get a backslash. A help text is written on one line, so its line feeds become breaks.

* `escapeArgument_append`: arguments are escaped character by character.
-/

import Handbook.Text.Basic

namespace Handbook.Markdown

/-- The characters of an argument that get a backslash. -/
def isMarkup (c : Char) : Bool := c ∈ ['*', '<', '>']

/-- An argument with a backslash before each character that could be markup. -/
def escapeArgument (argument : Text) : Text :=
  argument.flatMap fun c => if isMarkup c then ['\\', c] else [c]

/-- **Arguments are escaped character by character.** -/
theorem escapeArgument_append (first second : Text) :
    escapeArgument (first ++ second) = escapeArgument first ++ escapeArgument second := by
  simp [escapeArgument]

/-- The mark of a line break inside a line. -/
def lineBreak : Text := "<br>".toList

/-- A text on one line: a pair of line feeds, and a single one, become one break each. -/
def escapeLineBreaks : Text → Text
  | [] => []
  | '\n' :: '\n' :: rest => lineBreak ++ escapeLineBreaks rest
  | '\n' :: rest => lineBreak ++ escapeLineBreaks rest
  | c :: rest => c :: escapeLineBreaks rest

end Handbook.Markdown
