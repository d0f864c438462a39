/-
**Styled text for the terminal.**

A styled text stands between an escape sequence that switches its style on and the sequence that
resets the terminal. Even an empty text is styled.
-/

import Handbook.Text.Basic

namespace Handbook.Terminal

/-- The colors of terminal output. -/
inductive Color where
  | red
  | green
  | yellow
  | blue
  | magenta
  | cyan
  deriving DecidableEq, Repr

/-- The styles of terminal output: a color of the text, or dimmed text. -/
inductive Style where
  | color (shade : Color)
  | dim
  deriving DecidableEq, Repr

/-- The number of a color in an escape sequence. -/
def Color.code : Color → Text
  | .red => ['3', '1']
  | .green => ['3', '2']
  | .yellow => ['3', '3']
  | .blue => ['3', '4']
  | .magenta => ['3', '5']
  | .cyan => ['3', '6']

/-- The number of a style in an escape sequence. -/
def Style.code : Style → Text
  | .color shade => shade.code
  | .dim => ['2']

/-- The character that begins every escape sequence. -/
def escape : Char := '\x1b'

/-- The escape sequence that selects a style by its number. -/
def select (code : Text) : Text := [escape, '['] ++ code ++ ['m']

/-- The escape sequence that ends every style. -/
def reset : Text := select ['0']

/-- A text in a style. -/
def styled (style : Style) (text : Text) : Text := select style.code ++ text ++ reset

/-- A text in a color. -/
def colored (shade : Color) (text : Text) : Text := styled (.color shade) text

end Handbook.Terminal
