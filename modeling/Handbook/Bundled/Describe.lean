/-
**Writing entries down.**

The entries that come with the handbook are written with a few words: what an entry describes, what
else it is named, and what else it takes.
-/

import Handbook.Document.Entry

namespace Handbook

/-- An entry from its name, arguments, return type and help text. -/
def Bundled.describe (name : String) (arguments : Option (List String)) (returns help : String) :
    Entry where
  name := name.toList
  arguments := arguments.map (·.map String.toList)
  returns := returns.toList
  help := help.toList
  aliases := none
  alternatives := none

namespace Entry

/-- An entry with aliases. -/
def alsoNamed (entry : Entry) (aliases : List String) : Entry :=
  { entry with aliases := some (aliases.map String.toList) }

/-- An entry with alternative lists of arguments. -/
def alsoTaking (entry : Entry) (alternatives : List (List String)) : Entry :=
  { entry with alternatives := some (alternatives.map (·.map String.toList)) }

end Entry

end Handbook
