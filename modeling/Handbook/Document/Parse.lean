/-
**Parsing documents.**

A blob is read as JSON, checked against the shape of its kind, and read into a document. A blob that
is no JSON has one fault, and so has one that is nested too deeply or has too long a number to be
read; one that is not of its shape has all the faults of its value.
-/

import Handbook.Document.Format
import Handbook.Json.Reader

namespace Handbook

open Json Schema

/-- The report on some fault: where it is, its message and its code. -/
def Report.make (place : List Value) (message : Text) (code : String) : Report where
  message
  details := .record [("loc", .array place), ("msg", .string message),
    ("type", .string code.toList)]

/-- The report on a blob that is no JSON. -/
def Report.ofJsonFault (fault : Json.Fault) : Report := .make [] fault.message "json_invalid"

/-- The report on a value that is not of its shape. -/
def Report.ofFault (fault : Schema.Fault) : Report :=
  .make (fault.path.map Step.toValue) fault.cause.message fault.cause.code

/-- The document of a kind that a blob writes, with its undeclared members told of in some way. -/
def parseTelling (telling : Telling) (kind : Kind) (blob : Bytes) : Except Failure kind.Document :=
  match Json.read blob with
  | .error fault => .error (.malformed kind.name [.ofJsonFault fault])
  | .ok value =>
    match kind.shape.faults telling value, kind.ofValue? value with
    | [], some document => .ok document
    | faults, _ => .error (.malformed kind.name (faults.map Report.ofFault))

/-- The document of a kind that a blob writes. -/
def parse (kind : Kind) (blob : Bytes) : Except Failure kind.Document :=
  parseTelling .customary kind blob

end Handbook
