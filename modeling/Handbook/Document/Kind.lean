/-
**Kinds of structured documents.**

Structured content comes in four kinds. The kind of a document says what it holds.
-/

import Handbook.Document.Operator
import Handbook.Document.Section

namespace Handbook

/-- The kinds of structured documents. -/
inductive Kind where
  | operators
  | functions
  | aggregates
  | scraping
  deriving DecidableEq, Repr

namespace Kind

/-- The name of a kind. -/
def name : Kind → Text
  | .operators => "operators".toList
  | .functions => "functions".toList
  | .aggregates => "aggregates".toList
  | .scraping => "scraping".toList

/-- All kinds. -/
def all : List Kind := [.operators, .functions, .aggregates, .scraping]

/-- The kind of a name. -/
def ofName? (name : Text) : Option Kind := all.find? (·.name == name)

/-- What a document of a kind holds. -/
abbrev Document : Kind → Type
  | .operators => List OperatorGroup
  | .functions => List FunctionSection
  | .aggregates => List Entry
  | .scraping => ScrapingHelpers

end Kind

end Handbook
