/-
**Patterns of cheatsheets.**

A cheatsheet has more structure than prose: numbers, summary lists whose items link to sections,
fenced blocks of code and indented comments.
-/

import Handbook.Pattern.Prose
import Handbook.Pattern.Sequence

namespace Handbook.Pattern

open Unicode

/-! ### Numbers -/

/-- Whether a character can follow the first digit of a number. -/
def isNumberChar (c : Char) : Bool := c.isDigit || c == '.' || c == '_'

/-- Whether a word begins or ends between two places, given the characters on both sides. -/
def isWordBoundary (before after : Option Char) : Bool := before.any isWord != after.any isWord

/-- How many characters after one of a number still belong to the number: as many as possible, such
that a word ends or begins after them. -/
def numberTail? (last : Char) : Text → Option Nat
  | [] => if isWordBoundary (some last) none then some 0 else none
  | c :: rest =>
    let longer := if isNumberChar c then (numberTail? c rest).map (· + 1) else none
    longer.or (if isWordBoundary (some last) (some c) then some 0 else none)

/-- The length of the number without a sign that a text begins with. -/
def numberSize? : Text → Option Nat
  | [] => none
  | c :: rest => if c.isDigit then (numberTail? c rest).map (· + 1) else none

/-- A number, as a whole word. A minus before it belongs to it only where it stands after a word
character, since that is where a word boundary precedes the minus. -/
def number : Pattern where
  reach? before text :=
    if isWordBoundary before text.head? then
      match text with
      | '-' :: rest => (numberSize? rest).map fun size => ⟨size + 1, []⟩
      | _ => (numberSize? text).map (⟨·, []⟩)
    else none

/-! ### Links, code and comments -/

/-- An item of a list that is a link to a section. Its group is the text of the link. -/
def listLink : Pattern where
  reach? _ text := do
    let rest ← "- [".toList.isPrefixOf? text
    let label := rest.takeWhile (· != ']')
    let rest ← "](#".toList.isPrefixOf? (rest.dropWhile (· != ']'))
    let target := rest.takeWhile (· != ')')
    if !label.isEmpty && !target.isEmpty && (rest.dropWhile (· != ')')).head? == some ')' then
      some ⟨label.length + target.length + 7, [label]⟩
    else none

/-- The marker that opens and closes a fenced block. -/
def fence : Text := "```".toList

/-- The languages of the blocks that are highlighted. -/
def fenceLanguages : List Text := ["python".toList, "scss".toList, "javascript".toList]

/-- A fenced block in one of the languages, without backticks inside. Its group is the code, with
the line feed that precedes it. -/
def codeFence : Pattern where
  reach? _ text := do
    let rest ← fence.isPrefixOf? text
    let language ← fenceLanguages.find? (·.isPrefixOf rest)
    match rest.drop language.length with
    | '\n' :: body =>
      let code := body.takeWhile (· != '\x60')
      if !code.isEmpty && fence.isPrefixOf (body.dropWhile (· != '\x60')) then
        some ⟨language.length + code.length + 7, ['\n' :: code]⟩
      else none
    | _ => none

/-- The indentation of a comment. -/
def commentMargin : Text := "    ".toList

/-- A comment in an indented block: a line that begins with four spaces and a number sign, which
may have been colored, and goes on after it. -/
def comment : Pattern where
  reach? before text := do
    let rest ← commentMargin.isPrefixOf? text
    let color := (colorSequenceSize? rest).getD 0
    match rest.drop color with
    | '#' :: after =>
      let words := restOfLine after
      if startsLine before && !words.isEmpty then
        some ⟨commentMargin.length + color + 1 + words.length, []⟩
      else none
    | _ => none

end Handbook.Pattern
