/-
**Coloring of fenced code.**

The pipeline for the inside of a block of code. A block loses its fences and gets a margin instead.
-/

import Handbook.Colorize.Prose
import Handbook.Pattern.Code
import Handbook.Text.Lines

namespace Handbook.Colorize

open Terminal

/-- The name of a called function in blue. -/
def codeCall (found : Match) : Text := colored .blue found.group ++ ['(']

/-- An operator in cyan, between its spaces. -/
def codeOperator (found : Match) : Text := [' '] ++ colored .cyan found.group ++ [' ']

/-- The passes that color code. -/
def codePasses : List Pass :=
  [⟨"fence_literal", .codeLiteral, whole .yellow⟩,
    ⟨"fence_call", .codeCall, codeCall⟩,
    ⟨"fence_operator", .codeOperator, codeOperator⟩]

/-- Colored code. -/
def code (text : Text) : Text := Pass.applyAll codePasses text

/-- A fenced block as colored code with a margin. -/
def codeFence (found : Match) : Text := Text.indent (code found.group)

end Handbook.Colorize
