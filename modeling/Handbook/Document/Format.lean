/-
**The JSON form of documents.**

Each kind of document has a shape, and the values of that shape are read into its type. Written
back, a document has all of its fields, null for those that it lacks.
-/

import Handbook.Document.Kind
import Handbook.Schema.Shape

namespace Handbook

open Json Schema

/-! ### Shapes -/

/-- The shape of entries. -/
def entryShape : Shape := .record <|
  .field "name".toList .required .text <|
  .field "arguments".toList .optional (.list .text) <|
  .field "returns".toList .required .text <|
  .field "help".toList .required .text <|
  .field "aliases".toList .optional (.list .text) <|
  .field "alternatives".toList .optional (.list (.list .text)) .none

/-- The shape of examples of operators. -/
def operatorExampleShape : Shape := .record <|
  .field "snippet".toList .required .text <|
  .field "help".toList .optional .text .none

/-- The shape of groups of operators. -/
def operatorGroupShape : Shape := .record <|
  .field "title".toList .required .text <|
  .field "prelude".toList .optional .text <|
  .field "examples".toList .required (.list operatorExampleShape) .none

/-- The shape of sections of functions. -/
def functionSectionShape : Shape := .record <|
  .field "title".toList .required .text <|
  .field "functions".toList .required (.list entryShape) .none

/-- The shape of the scraping helpers. -/
def scrapingHelpersShape : Shape := .record <|
  .field "selectors".toList .required (.list entryShape) <|
  .field "extractors".toList .required (.list entryShape) .none

/-- The shape of the documents of a kind. -/
def Kind.shape : Kind → Shape
  | .operators => .list operatorGroupShape
  | .functions => .list functionSectionShape
  | .aggregates => .list entryShape
  | .scraping => scrapingHelpersShape

/-! ### Reading -/

/-- The texts of a list. -/
def texts? (value : Value) : Option (List Text) := value.list? Value.text?

/-- The entry that a value writes. -/
def Entry.ofValue? (value : Value) : Option Entry := do
  let members ← value.members?
  let name ← required members "name".toList Value.text?
  let arguments ← optional members "arguments".toList texts?
  let returns ← required members "returns".toList Value.text?
  let help ← required members "help".toList Value.text?
  let aliases ← optional members "aliases".toList texts?
  let alternatives ← optional members "alternatives".toList (Value.list? texts?)
  return { name, arguments, returns, help, aliases, alternatives }

/-- The example of an operator that a value writes. -/
def OperatorExample.ofValue? (value : Value) : Option OperatorExample := do
  let members ← value.members?
  let snippet ← required members "snippet".toList Value.text?
  let help ← optional members "help".toList Value.text?
  return { snippet, help }

/-- The group of operators that a value writes. -/
def OperatorGroup.ofValue? (value : Value) : Option OperatorGroup := do
  let members ← value.members?
  let title ← required members "title".toList Value.text?
  let prelude ← optional members "prelude".toList Value.text?
  let examples ← required members "examples".toList (Value.list? OperatorExample.ofValue?)
  return { title, prelude, examples }

/-- The section of functions that a value writes. -/
def FunctionSection.ofValue? (value : Value) : Option FunctionSection := do
  let members ← value.members?
  let title ← required members "title".toList Value.text?
  let functions ← required members "functions".toList (Value.list? Entry.ofValue?)
  return { title, functions }

/-- The scraping helpers that a value writes. -/
def ScrapingHelpers.ofValue? (value : Value) : Option ScrapingHelpers := do
  let members ← value.members?
  let selectors ← required members "selectors".toList (Value.list? Entry.ofValue?)
  let extractors ← required members "extractors".toList (Value.list? Entry.ofValue?)
  return { selectors, extractors }

/-- The document of a kind that a value writes. -/
def Kind.ofValue? : (kind : Kind) → Value → Option kind.Document
  | .operators, value => value.list? OperatorGroup.ofValue?
  | .functions, value => value.list? FunctionSection.ofValue?
  | .aggregates, value => value.list? Entry.ofValue?
  | .scraping, value => ScrapingHelpers.ofValue? value

/-! ### Writing -/

/-- The fields of an entry, in order. -/
def Entry.fields (entry : Entry) : List (String × Option Value) :=
  [("name", some (.string entry.name)),
    ("arguments", entry.arguments.map Value.strings),
    ("returns", some (.string entry.returns)),
    ("help", some (.string entry.help)),
    ("aliases", entry.aliases.map Value.strings),
    ("alternatives", entry.alternatives.map fun lists => .array (lists.map Value.strings))]

/-- An entry as a value, with null for the fields that it lacks. -/
def Entry.toValue (entry : Entry) : Value := .ofFields entry.fields

/-- An entry as a value, without the fields that it lacks. -/
def Entry.toCompactValue (entry : Entry) : Value := .ofPresentFields entry.fields

/-- The example of an operator as a value. -/
def OperatorExample.toValue (shown : OperatorExample) : Value :=
  .record [("snippet", .string shown.snippet), ("help", .ofOption (shown.help.map .string))]

/-- A group of operators as a value. -/
def OperatorGroup.toValue (group : OperatorGroup) : Value :=
  .record [("title", .string group.title), ("prelude", .ofOption (group.prelude.map .string)),
    ("examples", .array (group.examples.map OperatorExample.toValue))]

/-- A section of functions as a value. -/
def FunctionSection.toValue (part : FunctionSection) : Value :=
  .record [("title", .string part.title),
    ("functions", .array (part.functions.map Entry.toValue))]

/-- The scraping helpers as a value. -/
def ScrapingHelpers.toValue (helpers : ScrapingHelpers) : Value :=
  .record [("selectors", .array (helpers.selectors.map Entry.toValue)),
    ("extractors", .array (helpers.extractors.map Entry.toValue))]

/-- A document as a value. -/
def Kind.toValue : (kind : Kind) → kind.Document → Value
  | .operators, groups => .array (List.map OperatorGroup.toValue groups)
  | .functions, sections => .array (List.map FunctionSection.toValue sections)
  | .aggregates, entries => .array (List.map Entry.toValue entries)
  | .scraping, helpers => ScrapingHelpers.toValue helpers

end Handbook
