/-
**Coloring of prose.**

The pipeline for the texts of functions, operators and preludes. Quoted spans come first, so that
what the later passes find inside them is colored within their color.
-/

import Handbook.Colorize.Pass
import Handbook.Pattern.Prose
import Handbook.Terminal.Style

namespace Handbook.Colorize

open Terminal

/-- Colors a whole occurrence. -/
def whole (shade : Color) (found : Match) : Text := colored shade found.lexeme

/-- A unary operator before a red `x`. -/
def unaryOperator (found : Match) : Text := colored .cyan found.group ++ colored .red ['x']

/-- A binary operator between a red `x` and a red `y`. -/
def binaryOperator (found : Match) : Text :=
  colored .red ['x'] ++ [' '] ++ colored .cyan found.group ++ [' '] ++ colored .red ['y']

/-- A call before a cyan pipe. -/
def pipelineOperator (found : Match) : Text := found.group ++ colored .cyan ['|']

/-- A slice of a red `x`, its parts in cyan and the colons between them plain. -/
def slice (found : Match) : Text :=
  colored .red ['x'] ++ ['[']
    ++ [':'].intercalate ((Text.split ':' found.group).map (colored .cyan)) ++ [']']

/-- The passes that color prose. -/
def prosePasses : List Pass :=
  [⟨"quote", .quote, whole .green⟩,
    ⟨"section_header", .sectionHeader, whole .yellow⟩,
    ⟨"url", .url, whole .blue⟩,
    ⟨"unary_operator", .unaryOperator, unaryOperator⟩,
    ⟨"binary_operator", .binaryOperator, binaryOperator⟩,
    ⟨"pipeline_operator", .pipelineOperator, pipelineOperator⟩,
    ⟨"slice", .slice, slice⟩,
    ⟨"flag", .flag, whole .cyan⟩]

/-- Colored prose. -/
def prose (text : Text) : Text := Pass.applyAll prosePasses text

end Handbook.Colorize
