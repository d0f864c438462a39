/-
**Requests.**

A request names a topic and a format, and for the functions perhaps a query for sections. Not every
combination can be answered.

* `make_eq_ok_iff`: a request is accepted exactly when a query comes with the functions as text
  only, and the cheatsheet is not asked for raw.
-/

import Handbook.Document.Kind
import Handbook.Problem
import Handbook.Settings

namespace Handbook

/-- The topics of the handbook. -/
inductive Topic where
  | cheatsheet
  | functions
  | aggregates
  | scraping
  deriving DecidableEq, Repr

namespace Topic

/-- The name of a topic. -/
def name : Topic → Text
  | .cheatsheet => "cheatsheet".toList
  | .functions => "functions".toList
  | .aggregates => "aggs".toList
  | .scraping => "scraping".toList

/-- All topics. -/
def all : List Topic := [.cheatsheet, .functions, .aggregates, .scraping]

/-- The topic of a name. -/
def ofName (name : Text) : Except Problem Topic :=
  match all.find? (·.name == name) with
  | some topic => .ok topic
  | none => .error (.unknownName name "HelpTopic")

/-- The address of a topic online. -/
def onlineUrl (settings : Settings) (topic : Topic) : Text :=
  settings.onlineUrl ++ "/".toList ++ topic.name ++ ".md".toList

end Topic

/-- The formats in which a topic can be shown. -/
inductive OutputFormat where
  | text
  | markdown
  | raw
  deriving DecidableEq, Repr

namespace OutputFormat

/-- The name of a format. -/
def name : OutputFormat → Text
  | .text => "text".toList
  | .markdown => "markdown".toList
  | .raw => "raw".toList

/-- All formats. -/
def all : List OutputFormat := [.text, .markdown, .raw]

/-- The format of a name. -/
def ofName (name : Text) : Except Problem OutputFormat :=
  match all.find? (·.name == name) with
  | some format => .ok format
  | none => .error (.unknownName name "OutputFormat")

end OutputFormat

/-- The kind of document of a name. -/
def Kind.ofName (name : Text) : Except Problem Kind :=
  match Kind.ofName? name with
  | some kind => .ok kind
  | none => .error (.unknownName name "DocumentKind")

/-- A request for a topic in a format, with a query for sections or not. -/
structure Request where
  topic : Topic
  format : OutputFormat
  query : Option Text
  deriving DecidableEq, Repr

namespace Request

/-- A request, if it can be answered. -/
def make (topic : Topic) (format : OutputFormat) (query : Option Text) : Except Failure Request :=
  if query.isSome ∧ topic ≠ .functions then .error (.sectionTopic topic.name)
  else if query.isSome ∧ format ≠ .text then .error (.sectionFormat topic.name format.name)
  else if topic = .cheatsheet ∧ format = .raw then
    .error (.unsupportedFormat topic.name format.name)
  else .ok ⟨topic, format, query⟩

/-- A request by the names of its topic and format. -/
def ofNames (topic format : Text) (query : Option Text) : Except Problem Request := do
  let topic ← Topic.ofName topic
  let format ← OutputFormat.ofName format
  (make topic format query).mapError .failure

/-- **A request is accepted exactly when a query comes with the functions as text only, and the
cheatsheet is not asked for raw.** -/
theorem make_eq_ok_iff {topic : Topic} {format : OutputFormat} {query : Option Text}
    {request : Request} :
    make topic format query = .ok request ↔
      request = ⟨topic, format, query⟩ ∧
        (query.isSome = true → topic = .functions ∧ format = .text) ∧
        ¬ (topic = .cheatsheet ∧ format = .raw) := by
  cases query <;> cases topic <;> cases format <;> simp [make, eq_comm]

end Request

end Handbook
