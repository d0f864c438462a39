/-
**The browse tool.**

Without a name the tool lists every section with the names of its entries; with one it gives the
entries that have it as their name or as an alias. Blanks in the name are evened out first.
-/

import Handbook.Layout.Entry
import Handbook.Render
import Handbook.Tool.Help

namespace Handbook.Tool

open Json

/-- The name that a tool was asked for, empty when there is none. -/
def normalizeName (name : Option Text) : Text := Text.evenBlanks (name.getD [])

/-- A section of entries of the handbook: the reference that it belongs to, and its title. -/
structure BrowseSection where
  source : Text
  title : Text
  entries : List Entry

/-- All sections of entries. Every structured document but that of the operators is loaded. -/
def browseSections (library : Library) : Loading (List BrowseSection) := do
  let functions ← library.loadDocument .functions FileName.functions
  let aggregates ← library.loadDocument .aggregates FileName.aggregates
  let scraping ← library.loadDocument .scraping FileName.scraping
  let ofFunctions := List.map (fun part : FunctionSection =>
    BrowseSection.mk Topic.functions.name part.title part.functions) functions
  return ofFunctions ++
    [⟨Topic.aggregates.name, "Aggregation functions".toList, aggregates⟩,
      ⟨Topic.scraping.name, "Selector functions".toList, ScrapingHelpers.selectors scraping⟩,
      ⟨Topic.scraping.name, "Extractor functions".toList, ScrapingHelpers.extractors scraping⟩]

/-- The data of the browse tool. -/
def browseData (entries : List Members) (summary : Members) : Value :=
  DocsData.toValue ⟨"functions".toList, "browse".toList, entries, summary⟩

/-- A number as a value. -/
def countValue (number : Nat) : Value := .integer number

/-- The item of a section in the list of all sections. -/
def BrowseSection.item (part : BrowseSection) : Members :=
  [("source".toList, .string part.source), ("section".toList, .string part.title),
    ("count".toList, countValue part.entries.length),
    ("names".toList, .strings (part.entries.map Entry.name))]

/-- The list of all sections. -/
def sectionList (sections : List BrowseSection) : Envelope :=
  let items := sections.map BrowseSection.item
  .success (browseData items [("count".toList, countValue items.length)])

/-- The items of a section's entries that have a name. -/
def BrowseSection.matchItems (name : Text) (part : BrowseSection) : List Members :=
  (part.entries.filter (·.names.contains name)).map fun entry =>
    [("source".toList, .string part.source), ("section".toList, .string part.title),
      ("entry".toList, entry.toCompactValue), ("markdown".toList, .string entry.markdown)]

/-- The names and aliases of all entries, in the order of their characters, each once. -/
def knownNames (sections : List BrowseSection) : List Text :=
  let names := sections.flatMap fun part => part.entries.flatMap Entry.names
  names.eraseDups.mergeSort Text.inOrder

/-- The error for a name that no entry has. -/
def notFound (name : Text) (sections : List BrowseSection) : ToolError where
  code := "function_not_found".toList
  message := "No function, aggregation or scraping helper named '".toList ++ name ++ "'.".toList
  details := some
    [("input".toList, .record [("name", .string name)]),
      ("available_names".toList, .strings (knownNames sections))]

/-- The entries that have a name, or the error that there are none. -/
def lookUp (name : Text) (sections : List BrowseSection) : Envelope :=
  match sections.flatMap (BrowseSection.matchItems name) with
  | [] => .failed (notFound name sections) .null
  | items =>
    .success (browseData items
      [("count".toList, countValue items.length), ("name".toList, .string name)])

/-- The answer of the browse tool. -/
def browse (library : Library) (name : Option Text) : Loading Envelope :=
  catchFailure do
    let sections ← browseSections library
    let wanted := normalizeName name
    return if wanted.isEmpty then sectionList sections else lookUp wanted sections

end Handbook.Tool
