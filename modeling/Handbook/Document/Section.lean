/-
**Sections of functions.**

The functions are documented in sections, each with a title. A query keeps the sections whose title
contains it, whatever the case of the letters.
-/

import Handbook.Document.Entry
import Handbook.Text.Lower

namespace Handbook

/-- A titled section of functions. -/
structure FunctionSection where
  title : Text
  functions : List Entry
  deriving DecidableEq, Repr

/-- The scraping helpers: those that select parts of a document, and those that extract values. -/
structure ScrapingHelpers where
  selectors : List Entry
  extractors : List Entry
  deriving DecidableEq, Repr

/-- Whether a query keeps a section. -/
def FunctionSection.isKeptBy (query : Text) (part : FunctionSection) : Bool :=
  Text.occursIn (Text.lower query) (Text.lower part.title)

/-- The sections that a query keeps, in order. Without a query all are kept. -/
def filterSections (query : Option Text) (sections : List FunctionSection) :
    List FunctionSection :=
  match query with
  | none => sections
  | some query => sections.filter (·.isKeptBy query)

end Handbook
