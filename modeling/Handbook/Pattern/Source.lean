/-
**Sources of patterns.**

A pattern can be written down as a regular expression. Before such a source is used it is checked
for what breaks it. Sources are checked together, each under a name.
-/

import Handbook.Failure
import Handbook.Pattern.Source.Check

namespace Handbook.Pattern

/-- The names of sources that all compile, or the failure of the first one that does not. Of two
sources with one name the later one takes the place of the earlier. -/
def compileSources (sources : List (Text × Text)) : Except Failure (List Text) :=
  (sources.map Prod.fst).eraseDups.mapM fun name =>
    let source := (sources.reverse.lookup name).getD []
    match Source.flaw? source with
    | none => .ok name
    | some located => .error (.brokenPattern name (located.message source))

end Handbook.Pattern
