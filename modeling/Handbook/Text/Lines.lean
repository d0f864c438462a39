/-
**Lines.**

A text falls into lines at every line boundary of Unicode, a carriage return followed by a line feed
counting as one boundary. Each line keeps the boundary that ends it.

* `flatten_lines`: the lines of a text, put together, are the text.
-/

import Handbook.Text.Basic

namespace Handbook.Text

open Unicode

/-- The characters that end a line. -/
def isLineBreak (c : Char) : Bool :=
  c ∈ ['\n', '\r', '\x0b', '\x0c', '\x1c', '\x1d', '\x1e', '\u0085', '\u2028', '\u2029']

/-- Puts a character in front of the first of some lines, or starts a line with it. -/
def consLine (c : Char) : List Text → List Text
  | [] => [[c]]
  | line :: others => (c :: line) :: others

/-- The lines of a text, each with the boundary that ends it. -/
def lines : Text → List Text
  | [] => []
  | '\r' :: '\n' :: rest => ['\r', '\n'] :: lines rest
  | c :: rest => if isLineBreak c then [c] :: lines rest else consLine c (lines rest)

theorem flatten_consLine (c : Char) (all : List Text) :
    (consLine c all).flatten = c :: all.flatten := by
  cases all <;> rfl

/-- **The lines of a text, put together, are the text.** -/
theorem flatten_lines (text : Text) : (lines text).flatten = text := by
  fun_induction lines text with
  | case1 => rfl
  | case2 rest step => simp [step]
  | case3 c rest _ ends step => simp [step]
  | case4 c rest _ ends step => simp [flatten_consLine, step]

/-- A text with something put in front of every line that has more than blanks. -/
def indentWith (margin : Text) (text : Text) : Text :=
  (lines text).flatMap fun line => if isBlankText line then line else margin ++ line

/-- The margin of entries and of fenced code in terminal output. -/
def margin : Text := "    ".toList

/-- A text with the usual margin. -/
def indent (text : Text) : Text := indentWith margin text

end Handbook.Text
