/-
**Patterns of documentation prose.**

What is highlighted in running text: quoted spans, section headers, addresses, the snippets that
show operators (`!x`, `x + y`, `trim(name) |`, `x[a:b]`) and command line flags. None of them
reaches past the end of its line.
-/

import Handbook.Pattern.Basic
import Handbook.Unicode.Alphanumeric

namespace Handbook.Pattern

open Unicode

/-- Whether a place starts a line, given the character before it. -/
def startsLine (before : Option Char) : Bool :=
  match before with
  | none => true
  | some c => c == '\n'

/-- The text up to the end of its line. -/
def restOfLine (text : Text) : Text := text.takeWhile (· != '\n')

/-- The marks that enclose a quoted span: quotes of both kinds, and the backtick. -/
def isQuoteMark (c : Char) : Bool := c ∈ ['"', '\'', '\x60']

/-- A span between two equal quote marks on one line, with something between them. -/
def quote : Pattern where
  reach? _ text :=
    match text with
    | [] => none
    | mark :: rest =>
      if isQuoteMark mark then
        let isInside := fun c => c != mark && c != '\n'
        let inside := rest.takeWhile isInside
        if !inside.isEmpty && (rest.dropWhile isInside).head? == some mark then
          some ⟨inside.length + 2, []⟩
        else none
      else none

/-- A line that begins with one to three number signs and a space, and goes on after them. -/
def sectionHeader : Pattern where
  reach? before text :=
    if startsLine before then
      let level := (text.takeWhile (· == '#')).length
      let title := restOfLine (text.drop level)
      if 1 ≤ level && level ≤ 3 && title.head? == some ' ' && 2 ≤ title.length then
        some ⟨level + title.length, []⟩
      else none
    else none

/-- The ways in which an address begins. -/
def schemes : List Text := ["https://".toList, "http://".toList]

/-- An address, up to the next blank. -/
def url : Pattern where
  reach? _ text := do
    let scheme ← schemes.find? (·.isPrefixOf text)
    let address := (text.drop scheme.length).takeWhile (!isBlank ·)
    if address.isEmpty then none else some ⟨scheme.length + address.length, []⟩

/-- A unary operator before `x`. Its group is the operator. -/
def unaryOperator : Pattern where
  reach? _ text :=
    match text with
    | '!' :: 'x' :: _ => some ⟨2, [['!']]⟩
    | '-' :: 'x' :: _ => some ⟨2, [['-']]⟩
    | _ => none

/-- The operators that are shown between `x` and `y`. -/
def binaryOperators : List Text :=
  ["==".toList, "!=".toList, "<=".toList, "<".toList, ">=".toList, ">".toList, "&&".toList,
    "||".toList, "and".toList, "or".toList, "not in".toList, "in".toList, "eq".toList, "ne".toList,
    "lt".toList, "le".toList, "gt".toList, "ge".toList, "//".toList, "**".toList, "++".toList,
    "+".toList, "-".toList, "*".toList, "/".toList, "%".toList]

/-- A binary operator between `x` and `y`. Its group is the operator. -/
def binaryOperator : Pattern where
  reach? _ text :=
    match text with
    | 'x' :: ' ' :: rest => do
      let operator ← binaryOperators.find? fun operator => (operator ++ [' ', 'y']).isPrefixOf rest
      some ⟨operator.length + 4, [operator]⟩
    | _ => none

/-- The call that is shown before a pipe. -/
def pipedCall : Text := "trim(name) ".toList

/-- A pipe after a call. Its group is the call. -/
def pipelineOperator : Pattern where
  reach? _ text :=
    if (pipedCall ++ ['|']).isPrefixOf text then some ⟨pipedCall.length + 1, [pipedCall]⟩ else none

/-- Whether a character can stand between the brackets of a slice. -/
def isSliceChar (c : Char) : Bool := c.isLower || c == ':'

/-- A slice of `x`. Its group is what stands between the brackets. -/
def slice : Pattern where
  reach? _ text :=
    match text with
    | 'x' :: '[' :: rest =>
      let inside := rest.takeWhile isSliceChar
      if !inside.isEmpty && (rest.dropWhile isSliceChar).head? == some ']' then
        some ⟨inside.length + 3, [inside]⟩
      else none
    | _ => none

/-- Whether a character can stand in the name of a flag. -/
def isFlagChar (c : Char) : Bool := c == '-' || isWord c

/-- A command line flag: two hyphens and a name. -/
def flag : Pattern where
  reach? _ text :=
    match text with
    | '-' :: '-' :: rest =>
      let name := rest.takeWhile isFlagChar
      if name.isEmpty then none else some ⟨name.length + 2, []⟩
    | _ => none

end Handbook.Pattern
