/-
**Links between references.**

A cheatsheet links to the other references. Outside a browser the links lead nowhere, so each is
replaced by the code span that it shows.
-/

import Handbook.Colorize.Pass

namespace Handbook.Colorize

/-- A link to another reference: the topic that it leads to, and the text of the code span. -/
structure CrossReference where
  topic : String
  span : Text

namespace CrossReference

/-- The link to the reference of a topic. -/
def ofTopic (topic : String) : CrossReference where
  topic
  span := "`xan help ".toList ++ topic.toList ++ "`".toList

/-- A link as it is written. -/
def link (reference : CrossReference) : Text :=
  "[".toList ++ reference.span ++ "](./".toList ++ reference.topic.toList ++ ".md)".toList

/-- The pass that replaces a link by its code span. -/
def pass (reference : CrossReference) : Pass :=
  .literal ("link_" ++ reference.topic) reference.link reference.span

end CrossReference

/-- The links that cheatsheets hold. -/
def crossReferences : List CrossReference :=
  [.ofTopic "functions", .ofTopic "cheatsheet", .ofTopic "aggs"]

/-- The passes that replace links between references. -/
def crossReferencePasses : List Pass := crossReferences.map CrossReference.pass

/-- A text with the code span of each link in place of the link. -/
def unlinked (text : Text) : Text := Pass.applyAll crossReferencePasses text

end Handbook.Colorize
