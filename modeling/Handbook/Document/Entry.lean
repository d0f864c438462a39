/-
**Entries.**

An entry documents one callable: a function, an aggregation or a scraping helper. It has a name,
perhaps aliases, and perhaps alternative lists of arguments.

* `length_callForms`: an entry has one call form, one more for each alias, and one more for each
  alternative.
-/

import Handbook.Text.Basic

namespace Handbook

/-- A documented callable. Without a list of arguments it is called without parentheses. -/
structure Entry where
  name : Text
  arguments : Option (List Text)
  returns : Text
  help : Text
  aliases : Option (List Text)
  alternatives : Option (List (List Text))
  deriving DecidableEq, Repr

namespace Entry

/-- The name of an entry and its aliases. -/
def names (entry : Entry) : List Text := entry.name :: entry.aliases.getD []

/-- The ways to call an entry: under its name, under each alias with the same arguments, and under
its name with each alternative list of arguments. -/
def callForms (entry : Entry) : List (Text × Option (List Text)) :=
  [(entry.name, entry.arguments)]
    ++ (entry.aliases.getD []).map (fun other => (other, entry.arguments))
    ++ (entry.alternatives.getD []).map fun arguments => (entry.name, some arguments)

theorem length_callForms (entry : Entry) :
    entry.callForms.length =
      1 + (entry.aliases.getD []).length + (entry.alternatives.getD []).length := by
  simp [callForms]
  omega

end Entry

/-- Whether an argument stands for a type of value and is no name of a parameter. -/
def isPlaceholder (argument : Text) : Bool := argument.head? == some '<'

end Handbook
