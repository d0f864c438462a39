/-
**Answers to a command line.**

Either the server is to run, or the program ends at once with a text on one of its outputs.
-/

import Handbook.CommandLine.Parse

namespace Handbook.CommandLine

/-- The name of the program. -/
def programName : Text := "xan-docs".toList

/-- How the program is used. -/
def usage : Text := Text.ofLines
  ["usage: xan-docs [-h] [--version] [--transport \x7bstdio,http,sse\x7d] [--host HOST]",
    "                [--port PORT] [--log-level \x7bDEBUG,INFO,WARNING,ERROR\x7d]"]

/-- What the program is. -/
def description : Text := Text.ofLines
  ["xan docs MCP Server - xan expression language documentation over MCP"]

/-- What the options mean. -/
def optionsText : Text := Text.ofLines
  ["options:",
    "  -h, --help            show this help message and exit",
    "  --version, -v         show program's version number and exit",
    "  --transport \x7bstdio,http,sse\x7d",
    "                        Transport protocol (default: stdio)",
    "  --host HOST           Host to bind when using http/sse transport (default:",
    "                        127.0.0.1)",
    "  --port PORT           Port to bind when using http/sse transport (default:",
    "                        8000)",
    "  --log-level \x7bDEBUG,INFO,WARNING,ERROR\x7d",
    "                        Logging level for xan-docs loggers (default: WARNING)"]

/-- The help text. -/
def helpText : Text := usage ++ ['\n'] ++ description ++ ['\n'] ++ optionsText

/-- The version of the program. -/
def versionText : Text := programName ++ " 0.1.0\n".toList

/-- The text about a mistake. -/
def Mistake.report (mistake : Mistake) : Text :=
  usage ++ programName ++ ": error: ".toList ++ mistake.message ++ ['\n']

/-- What the program does: it runs the server, or ends with a status and a text on each output. -/
inductive Answer where
  | run (settings : ServerSettings)
  | stop (status : Nat) (output : Text) (errors : Text)
  deriving DecidableEq, Repr

/-- The answer to a command line. -/
def answer (words : List Text) : Answer :=
  match parse words with
  | .ok (.run settings) => .run settings
  | .ok .help => .stop 0 helpText []
  | .ok .version => .stop 0 versionText []
  | .error mistake => .stop 2 [] mistake.report

end Handbook.CommandLine
