/-
**Failures of the handbook.**

Everything that can go wrong with the content of the handbook or with a request for it, by its
cause. A failure has a code for programs, a message for people and, mostly, details: an object that
tells the place.
-/

import Handbook.Json.Value

namespace Handbook

/-- One report on malformed content: its message, and the object that tells it in full. -/
structure Report where
  message : Text
  details : Json.Value

/-- A failure, by its cause. -/
inductive Failure where
  /-- Any failure without a cause of its own. -/
  | other (message : Text)
  /-- Structured content that is not of its kind. -/
  | malformed (kind : Text) (reports : List Report)
  /-- A group of operators without examples, which has no column width. -/
  | emptyExamples (title : Text)
  /-- A query for sections of a topic that has none to choose from. -/
  | sectionTopic (topic : Text)
  /-- A query for sections in a format that always shows all of them. -/
  | sectionFormat (topic format : Text)
  /-- A format in which a topic is not to be had. -/
  | unsupportedFormat (topic format : Text)
  /-- A text pattern that does not compile. -/
  | brokenPattern (name reason : Text)

namespace Failure

/-- The code of a failure. -/
def code : Failure → String
  | other _ => "xan_docs_error"
  | malformed _ _ => "malformed_input"
  | emptyExamples _ => "empty_example_set"
  | sectionTopic _ => "invalid_filter_target"
  | sectionFormat _ _ => "invalid_filter_target"
  | unsupportedFormat _ _ => "unsupported_format"
  | brokenPattern _ _ => "pattern_compilation_failure"

/-- The message of a failure. Malformed content is told by its first report. -/
def message : Failure → Text
  | other message => message
  | malformed kind reports =>
    "could not parse ".toList ++ kind ++ " documentation: ".toList ++
      (reports.head?.map Report.message).getD "unknown error".toList
  | emptyExamples title => "operator section '".toList ++ title ++ "' has no examples".toList
  | sectionTopic topic =>
    "section query only works with the `functions` topic, not `".toList ++ topic ++ "`!".toList
  | sectionFormat _ format =>
    "section query only works with text output, not ".toList ++ format ++ "!".toList
  | unsupportedFormat topic format =>
    topic ++ " does not support ".toList ++ format ++ " output!".toList
  | brokenPattern name reason =>
    "built-in pattern '".toList ++ name ++ "' does not compile: ".toList ++ reason

/-- The details of a failure. -/
def details? : Failure → Option Json.Value
  | other _ => none
  | malformed kind reports =>
    some (.record [("kind", .string kind), ("errors", .array (reports.map Report.details))])
  | emptyExamples title => some (.record [("section", .string title)])
  | sectionTopic topic => some (.record [("topic", .string topic)])
  | sectionFormat topic format =>
    some (.record [("topic", .string topic), ("format", .string format)])
  | unsupportedFormat topic format =>
    some (.record [("topic", .string topic), ("format", .string format)])
  | brokenPattern _ _ => none

end Failure

end Handbook
