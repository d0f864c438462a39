/-
**The program.**

Reads the command line, writes its answer, and ends with its status. The server itself is not part
of the handbook; where it would start, the program logs so.
-/

import Handbook.CommandLine.Answer

open Handbook CommandLine

/-- Writes a text without a line feed of its own. -/
def writeText (stream : IO.FS.Stream) (text : Text) : IO Unit :=
  stream.putStr (String.ofList text)

/-- The name of the transport of some settings, as it is logged. -/
def transportText (settings : ServerSettings) : Text :=
  settings.transport.elim "[]".toList Transport.name

/-- The line that is logged when the server starts. -/
def startLine (settings : ServerSettings) : Text :=
  "INFO:xan-docs.server:Starting xan docs MCP server over ".toList ++ transportText settings
    ++ ['\n']

/-- Whether settings log that the server starts. -/
def logsStart (settings : ServerSettings) : Bool :=
  match settings.logLevel with
  | some .debug => true
  | some .info => true
  | _ => false

/-- The program. -/
def main (words : List String) : IO UInt32 := do
  match answer (words.map String.toList) with
  | .run settings =>
    if logsStart settings then writeText (← IO.getStderr) (startLine settings)
    return 0
  | .stop status output errors =>
    writeText (← IO.getStdout) output
    writeText (← IO.getStderr) errors
    return status.toUInt32
