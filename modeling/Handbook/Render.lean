/-
**Rendering.**

A request is answered with a text. The raw format gives a stored document as it is. The others load
everything that the topic needs, one file after the other, and lay it out; without color the
terminal's text loses its escape sequences.
-/

import Handbook.Bundled.Files
import Handbook.Layout.Reference
import Handbook.Request
import Handbook.Store.Library

namespace Handbook

open Library

namespace Topic

/-- The kind of a topic's structured document, and the file that holds it. -/
def document? : Topic → Option (Kind × Text)
  | .cheatsheet => none
  | .functions => some (.functions, FileName.functions)
  | .aggregates => some (.aggregates, FileName.aggregates)
  | .scraping => some (.scraping, FileName.scraping)

/-- The failure of a topic that has no structured document. -/
def notRaw (topic : Topic) : Failure := .unsupportedFormat topic.name OutputFormat.raw.name

/-- The structured document of a topic as it is stored. -/
def loadRaw (library : Library) (topic : Topic) : Loading Bytes :=
  match topic.document? with
  | some (_, file) => library.loadBytes file
  | none => throw (.failure topic.notRaw)

/-- The report on a stored document that is no UTF-8. -/
def utf8Report (fault : Utf8.Fault) : Report :=
  .make [.integer fault.start] ("invalid UTF-8: ".toList ++ fault.reason.message) "unicode_decode"

/-- The text of a topic's stored document. -/
def decodeRaw (topic : Topic) (blob : Bytes) : Except Failure Text :=
  match topic.document? with
  | none => .error topic.notRaw
  | some (kind, _) =>
    (Utf8.decode blob).mapError fun fault => .malformed kind.name [utf8Report fault]

/-- Everything that a topic shows. -/
def loadReference (library : Library) : Topic → Loading Reference
  | .cheatsheet => do
    return .cheatsheet (← library.loadText FileName.cheatsheet)
  | .functions => do
    let prelude ← library.loadText FileName.functionsPrelude
    let operators ← library.loadDocument .operators FileName.operators
    let sections ← library.loadDocument .functions FileName.functions
    return .functions { prelude, operators, sections }
  | .aggregates => do
    let prelude ← library.loadText FileName.aggregatesPrelude
    let entries ← library.loadDocument .aggregates FileName.aggregates
    return .aggregates { prelude, entries }
  | .scraping => do
    let cheatsheet ← library.loadText FileName.scrapingCheatsheet
    let helpers ← library.loadDocument .scraping FileName.scraping
    return .scraping { cheatsheet, helpers }

end Topic

/-- Loading that goes on with a result of the handbook. -/
def Loading.ofResult {α : Type} (result : Except Failure α) : Loading α :=
  match result with
  | .ok value => return value
  | .error cause => throw (.failure cause)

/-- The answer to a request. -/
def Request.render (settings : Settings) (library : Library) (request : Request) : Loading Text :=
  match request.format with
  | .raw => do
    Loading.ofResult (request.topic.decodeRaw (← request.topic.loadRaw library))
  | .markdown => do
    Loading.ofResult (← request.topic.loadReference library).markdown
  | .text => do
    let text ← Loading.ofResult ((← request.topic.loadReference library).terminalText request.query)
    return if settings.color then text else Terminal.unstyled text

/-- The answer to a request by the names of its topic and format. -/
def render (settings : Settings) (library : Library) (topic format : Text) (query : Option Text) :
    Loading Text :=
  match Request.ofNames topic format query with
  | .ok request => request.render settings library
  | .error problem => throw problem

end Handbook
