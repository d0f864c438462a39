/-
**The operators.**

The operators of the expression language, in their groups.
-/

import Handbook.Document.Operator

namespace Handbook.Bundled

/-- An example with a help text. -/
def shows (snippet help : String) : OperatorExample := ⟨snippet.toList, some help.toList⟩

/-- An example without a help text. -/
def showsAlone (snippet : String) : OperatorExample := ⟨snippet.toList, none⟩

/-- The groups of operators. -/
def operators : List OperatorGroup :=
  [⟨"Unary operators".toList,
     none,
     [shows "!x" "boolean negation",
      shows "-x" "numerical negation"]⟩,
    ⟨"Numerical comparison".toList,
     some
       ("Warning: those operators will always consider operands as numbers or dates and will "
       ++ "try to cast them around as such. For string/sequence comparison, use the operators "
       ++ "in the next section.").toList,
     [shows "x == y" "x is equal to y",
      shows "x != y" "x is not equal to y",
      shows "x < y" "x is less than y",
      shows "x <= y" "x is less than y or equal to y",
      shows "x > y" "x is greater than y",
      shows "x >= y" "x is greater than y or equal to y"]⟩,
    ⟨"String/sequence comparison".toList,
     some
       ("Warning: those operators will always consider operands as strings or sequences and "
       ++ "will try to cast them around as such. For numerical comparison, use the operators "
       ++ "in the previous section.").toList,
     [shows "x eq y" "x is equal to y",
      shows "x ne y" "x is not equal to y",
      shows "x lt y" "x is less than y",
      shows "x le y" "x is less than y or equal to y",
      shows "x gt y" "x is greater than y",
      shows "x ge y" "x is greater than y or equal to y"]⟩,
    ⟨"Arithmetic operators".toList,
     none,
     [shows "x + y" "x plus y",
      shows "x - y" "x minus y",
      shows "x * y" "x multiplied by y",
      shows "x / y" "x divided by y",
      shows "x // y" "x integer divided by y",
      shows "x % y" "x mod y",
      shows "x ** y" "x raised to the power of y"]⟩,
    ⟨"Boolean operators".toList,
     none,
     [shows "x && y" "x and y",
      shows "x and y" "x and y",
      shows "x || y" "x or y",
      shows "x or y" "x or y",
      shows "x in y" "x is contained in y",
      shows "x not in y" "x is not contained in y"]⟩,
    ⟨"Indexing & slicing operators".toList,
     some
       "Negative indices are accepted and mean the same thing as with the Python language.".toList,
     [shows "x[y]" "get y from x (string or list index, map key)",
      shows "x[start:end]" "slice x from start index to end index",
      shows "x[:end]" "slice x from start to end index",
      shows "x[start:]" "slice x from start index to end"]⟩,
    ⟨"Pipeline operator (using \"_\" for left-hand size substitution)".toList,
     none,
     [shows "trim(name) | len(_)" "Same as len(trim(name))",
      shows "trim(name) | len" "Supports elision for unary functions",
      showsAlone "trim(name) | add(1, len(_)) | add(2, _)"]⟩]

end Handbook.Bundled
