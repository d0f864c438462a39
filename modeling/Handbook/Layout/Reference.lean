/-
**References.**

A reference is what the handbook shows for one topic: parsed documents together with the prose
around them. It can be laid out for the terminal and in Markdown.
-/

import Handbook.Colorize.Cheatsheet
import Handbook.Layout.Operator
import Handbook.Layout.Section

namespace Handbook

/-- Whether a query for sections keeps the operators: no query does, one that contains `operator`,
and any part of `operators`, whatever the case of the letters. -/
def keepsOperators (query : Option Text) : Bool :=
  match query with
  | none => true
  | some query =>
    let folded := Text.lower query
    Text.occursIn folded "operators".toList || Text.occursIn "operator".toList folded

/-- A reference of functions: an introduction, the operators, and the sections of functions. -/
structure FunctionReference where
  prelude : Text
  operators : List OperatorGroup
  sections : List FunctionSection

namespace FunctionReference

/-- The titles of sections as a summary. -/
def summary (sections : List FunctionSection) : Text :=
  ['\n'].intercalate (sections.map fun part => "- ".toList ++ part.title) ++ "\n\n".toList

/-- The line of a title in a summary in Markdown. -/
def contentsLine (title : Text) : Text := "- ".toList ++ summaryLink title

/-- The titles of sections as a summary in Markdown, with links. -/
def summaryMarkdown (sections : List FunctionSection) : Text :=
  ['\n'].intercalate (sections.map fun part => contentsLine part.title) ++ "\n\n".toList

/-- A reference of functions on the terminal, with the parts of it that a query keeps. -/
def terminalText (ink : Ink) (query : Option Text) (reference : FunctionReference) :
    Except Failure Text := do
  let sections := filterSections query reference.sections
  let operatorTitles := if keepsOperators query then operatorsSummary reference.operators else []
  let operators ← if keepsOperators query then operatorsText ink reference.operators else pure []
  return ink.prose reference.prelude ++ ['\n'] ++ operatorTitles ++ summary sections ++ operators
    ++ sections.flatMap (FunctionSection.terminalText ink)

/-- A reference of functions in Markdown. -/
def markdown (reference : FunctionReference) : Except Failure Text := do
  let operators ← operatorsMarkdown reference.operators
  return reference.prelude ++ ['\n'] ++ operatorsSummaryMarkdown reference.operators
    ++ summaryMarkdown reference.sections ++ operators ++ ['\n']
    ++ reference.sections.flatMap FunctionSection.markdown

end FunctionReference

/-- A reference of aggregations: an introduction and the entries. -/
structure AggregateReference where
  prelude : Text
  entries : List Entry

namespace AggregateReference

/-- A reference of aggregations on the terminal. -/
def terminalText (ink : Ink) (reference : AggregateReference) : Text :=
  ink.prose reference.prelude ++ ['\n'] ++ entriesText ink reference.entries

/-- A reference of aggregations in Markdown. -/
def markdown (reference : AggregateReference) : Text :=
  reference.prelude ++ ['\n'] ++ entriesMarkdown reference.entries

end AggregateReference

/-- A reference of scraping: a cheatsheet and the helpers. -/
structure ScrapingReference where
  cheatsheet : Text
  helpers : ScrapingHelpers

namespace ScrapingReference

/-- A reference of scraping on a color terminal. -/
def terminalText (reference : ScrapingReference) : Text :=
  Colorize.cheatsheet reference.cheatsheet ++ "\n\n".toList
    ++ reference.helpers.terminalText .colored

/-- A reference of scraping in Markdown. -/
def markdown (reference : ScrapingReference) : Text :=
  Colorize.unlinked reference.cheatsheet ++ "\n\n".toList ++ reference.helpers.markdown

end ScrapingReference

/-- What the handbook shows for one topic. -/
inductive Reference where
  | cheatsheet (body : Text)
  | functions (reference : FunctionReference)
  | aggregates (reference : AggregateReference)
  | scraping (reference : ScrapingReference)

namespace Reference

/-- A reference on a color terminal. Only a reference of functions heeds the query. -/
def terminalText (query : Option Text) : Reference → Except Failure Text
  | .cheatsheet body => .ok (Colorize.cheatsheet body)
  | .functions reference => reference.terminalText .colored query
  | .aggregates reference => .ok (reference.terminalText .colored)
  | .scraping reference => .ok reference.terminalText

/-- A reference in Markdown. -/
def markdown : Reference → Except Failure Text
  | .cheatsheet body => .ok (Colorize.unlinked body)
  | .functions reference => reference.markdown
  | .aggregates reference => .ok reference.markdown
  | .scraping reference => .ok reference.markdown

end Reference

end Handbook
