/-
**The layout of operators.**

A group of operators is a header, an introduction if it has one, and its examples in two columns.
The whole document can only be laid out when every group has an example.
-/

import Handbook.Document.Operator
import Handbook.Layout.Ink
import Handbook.Markdown.Anchor
import Handbook.Text.Fill
import Handbook.Text.Lines

namespace Handbook

namespace OperatorGroup

/-- The header of a group. -/
def header (group : OperatorGroup) : Text := "### ".toList ++ group.title ++ "\n\n".toList

/-- The introduction of a group, written in some way. -/
def introduction (write : Text → Text) (group : OperatorGroup) : Text :=
  match group.prelude with
  | none => []
  | some prelude => write prelude ++ "\n\n".toList

/-- The rows of a group, one line for each example, written in some way. -/
def rows (write : Text → Text) (width : Nat) (group : OperatorGroup) : Text :=
  group.examples.flatMap fun shown => write (shown.row width) ++ ['\n']

/-- A group on the terminal. -/
def terminalText (group : OperatorGroup) : Except Failure Text := do
  let width ← group.columnWidth
  return group.header ++ group.introduction (Text.wrap .prose) ++ group.rows Text.indent width
    ++ "\n\n".toList

/-- A group in Markdown. -/
def markdown (group : OperatorGroup) : Except Failure Text := do
  let width ← group.columnWidth
  return group.header ++ group.introduction (fun text => text) ++ "```txt\n".toList
    ++ group.rows (fun text => text) width ++ "```\n\n".toList

end OperatorGroup

/-- The header of all operators. -/
def operatorsHeader : Text := "## Operators\n\n".toList

/-- The operators on the terminal. -/
def operatorsText (ink : Ink) (groups : List OperatorGroup) : Except Failure Text := do
  let body ← groups.mapM OperatorGroup.terminalText
  return ink.prose (operatorsHeader ++ body.flatten)

/-- The operators in Markdown. -/
def operatorsMarkdown (groups : List OperatorGroup) : Except Failure Text := do
  let body ← groups.mapM OperatorGroup.markdown
  return operatorsHeader ++ body.flatten

/-- The summary of the operators: the titles of their groups. -/
def operatorsSummary (groups : List OperatorGroup) : Text :=
  let titles := groups.map fun group => "    - ".toList ++ group.title
  ['\n'].intercalate ("- Operators".toList :: titles) ++ ['\n']

/-- An item of a Markdown summary: a title that links to its anchor. -/
def summaryLink (title : Text) : Text :=
  ['['] ++ title ++ "](#".toList ++ Markdown.anchor title ++ [')']

/-- The summary of the operators in Markdown, with links. -/
def operatorsSummaryMarkdown (groups : List OperatorGroup) : Text :=
  let titles := groups.map fun group => "    - ".toList ++ summaryLink group.title
  ['\n'].intercalate ("- [Operators](#operators)".toList :: titles) ++ ['\n']

end Handbook
