/-
**Patterns of fenced code.**

What is highlighted inside a block of code: literals, the names of called functions and operators
between spaces.
-/

import Handbook.Pattern.Basic

namespace Handbook.Pattern

/-- The literals of code samples, a longer one before what it begins with. -/
def codeLiterals : List Text :=
  ["true".toList, "false".toList, "null".toList, "/john/i".toList, "/john/".toList]

/-- A literal. -/
def codeLiteral : Pattern where
  reach? _ text := (codeLiterals.find? (·.isPrefixOf text)).map fun word => ⟨word.length, []⟩

/-- Whether a character can stand in the name of a called function. -/
def isCallChar (c : Char) : Bool := c.isLower || c == '_'

/-- A name and the parenthesis that opens its arguments. Its group is the name. -/
def codeCall : Pattern where
  reach? _ text :=
    let name := text.takeWhile isCallChar
    if !name.isEmpty && (text.dropWhile isCallChar).head? == some '(' then
      some ⟨name.length + 1, [name]⟩
    else none

/-- The operators of code samples. -/
def codeOperators : List Text :=
  ["=>".toList, "eq".toList, "in".toList, "as".toList, "||".toList, "<".toList, ">".toList,
    "/".toList, "+".toList]

/-- An operator between two spaces. Its group is the operator. -/
def codeOperator : Pattern where
  reach? _ text :=
    match text with
    | ' ' :: rest => do
      let operator ← codeOperators.find? fun operator => (operator ++ [' ']).isPrefixOf rest
      some ⟨operator.length + 2, [operator]⟩
    | _ => none

end Handbook.Pattern
