/-
**The help tool.**

The tool gives the rendering of a topic in an envelope. A failure of the handbook becomes an error;
any other problem is passed on. An empty query counts as none.
-/

import Handbook.Render
import Handbook.Tool.Envelope

namespace Handbook.Tool

open Json

/-- The answer of a tool that loads content, in which a failure has become an error. -/
def catchFailure (answer : Loading Envelope) : Loading Envelope :=
  tryCatch answer fun
    | .failure cause => return Envelope.ofFailure cause
    | problem => throw problem

/-- A query, unless it is empty. -/
def queryOf (query : Option Text) : Option Text := query.filter (!·.isEmpty)

/-- The data for a rendering. -/
def helpData (settings : Settings) (request : Request) (rendering : Text) : DocsData where
  source := "help".toList
  action := "render".toList
  entries :=
    [[("topic".toList, .string request.topic.name), ("format".toList, .string request.format.name),
      ("content".toList, .string rendering)]]
  summary :=
    [("count".toList, .integer 1),
      ("section".toList, .ofOption (request.query.map .string)),
      ("online_url".toList, .string (request.topic.onlineUrl settings))]

/-- The envelope with the rendering of a topic. -/
def helpEnvelope (settings : Settings) (library : Library) (topic format : Text)
    (query : Option Text) : Loading Envelope :=
  catchFailure do
    match Request.ofNames topic format query with
    | .error problem => throw problem
    | .ok request =>
      let rendering ← request.render settings library
      return .success (helpData settings request rendering).toValue

/-- The answer of the help tool. -/
def help (settings : Settings) (library : Library) (topic format : Text) (query : Option Text) :
    Loading Envelope :=
  helpEnvelope settings library topic format (queryOf query)

end Handbook.Tool
