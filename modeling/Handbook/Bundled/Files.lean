/-
**The bundled content.**

The files that come with the handbook: four structured documents, two cheatsheets and two
introductions.
-/

import Handbook.Bundled.Aggregates
import Handbook.Bundled.Functions
import Handbook.Bundled.Operators
import Handbook.Bundled.Prose
import Handbook.Bundled.Scraping
import Handbook.Document.Format
import Handbook.Json.Printer
import Handbook.Store.Disk

namespace Handbook

/-! ### Names of files -/

namespace FileName

/-- The file of the operators. -/
def operators : Text := "operators.json".toList

/-- The file of the functions. -/
def functions : Text := "functions.json".toList

/-- The file of the aggregations. -/
def aggregates : Text := "aggs.json".toList

/-- The file of the scraping helpers. -/
def scraping : Text := "scraping.json".toList

/-- The file of the cheatsheet. -/
def cheatsheet : Text := "cheatsheet.md".toList

/-- The file of the cheatsheet of scraping. -/
def scrapingCheatsheet : Text := "scraping.md".toList

/-- The file of the introduction of the functions. -/
def functionsPrelude : Text := "functions_prelude.txt".toList

/-- The file of the introduction of the aggregations. -/
def aggregatesPrelude : Text := "aggs_prelude.txt".toList

end FileName

namespace Bundled

open Json

/-! ### Layouts of documents -/

/-- Fields that are there, each on one line. -/
def fieldLines (fields : List (String × Option Value)) : Layout :=
  .record (fields.filterMap fun (name, value) => value.map fun value => (name, .line value))

/-- Entries, with a line for each field. -/
def entriesLayout (entries : List Entry) : Layout :=
  .list (entries.map fun entry => fieldLines entry.fields)

/-- A section, its entries spread over lines. -/
def sectionLayout (part : FunctionSection) : Layout :=
  .record [("title", .line (.string part.title)), ("functions", entriesLayout part.functions)]

/-- An example on one line. -/
def exampleValue (shown : OperatorExample) : Value :=
  .record <| ("snippet", .string shown.snippet)
    :: (shown.help.map fun help => ("help", Value.string help)).toList

/-- A group, with a line for each example. -/
def groupLayout (group : OperatorGroup) : Layout :=
  .record <| [("title", Layout.line (.string group.title))]
    ++ (group.prelude.map fun prelude => ("prelude", Layout.line (.string prelude))).toList
    ++ [("examples", Layout.list (group.examples.map fun shown => .line (exampleValue shown)))]

/-- The scraping helpers, their entries spread over lines. -/
def scrapingLayout (helpers : ScrapingHelpers) : Layout :=
  .record [("selectors", entriesLayout helpers.selectors),
    ("extractors", entriesLayout helpers.extractors)]

/-! ### Files -/

/-- The bundled files, by name. -/
def files : List (Text × Text) :=
  [(FileName.operators, (Layout.list (operators.map groupLayout)).file),
    (FileName.functions, (Layout.list (functions.map sectionLayout)).file),
    (FileName.aggregates, (entriesLayout aggregates).file),
    (FileName.scraping, (scrapingLayout scraping).file),
    (FileName.cheatsheet, cheatsheet),
    (FileName.scrapingCheatsheet, scrapingCheatsheet),
    (FileName.functionsPrelude, functionsPrelude),
    (FileName.aggregatesPrelude, aggregatesPrelude)]

/-- A disk that holds the bundled files and nothing else. -/
def disk : Disk where
  files := files.map fun (name, text) => (Path.bundled.join (.ofText name), Utf8.encode text)
  directories := [Path.bundled]

end Bundled

end Handbook
