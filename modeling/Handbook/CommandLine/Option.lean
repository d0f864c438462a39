/-
**Options of the command line.**

The options that the server understands, with the spellings of each, and the settings that they
make.
-/

import Handbook.Text.Quoted

namespace Handbook.CommandLine

/-- How the server talks to its clients. -/
inductive Transport where
  | stdio
  | http
  | sse
  deriving DecidableEq, Repr

/-- All transports. -/
def Transport.all : List Transport := [.stdio, .http, .sse]

/-- The name of a transport. -/
def Transport.name : Transport → Text
  | .stdio => "stdio".toList
  | .http => "http".toList
  | .sse => "sse".toList

/-- Whether a transport listens on a host and a port. -/
def Transport.listens : Transport → Bool
  | .stdio => false
  | .http => true
  | .sse => true

/-- How much the server logs. -/
inductive LogLevel where
  | debug
  | info
  | warning
  | error
  deriving DecidableEq, Repr

/-- All levels, the most talkative one first. -/
def LogLevel.all : List LogLevel := [.debug, .info, .warning, .error]

/-- The name of a level. -/
def LogLevel.name : LogLevel → Text
  | .debug => "DEBUG".toList
  | .info => "INFO".toList
  | .warning => "WARNING".toList
  | .error => "ERROR".toList

/-- How the server is to run. Each setting may have been taken away. -/
structure ServerSettings where
  transport : Option Transport
  host : Option Text
  port : Option Int
  logLevel : Option LogLevel
  deriving DecidableEq, Repr

/-- How the server runs unless it is told otherwise. -/
def ServerSettings.default : ServerSettings where
  transport := some .stdio
  host := some "127.0.0.1".toList
  port := some 8000
  logLevel := some .warning

/-- Whether the server listens on its host and its port. -/
def ServerSettings.listens (settings : ServerSettings) : Bool :=
  settings.transport.any Transport.listens

/-- The options. -/
inductive Flag where
  | help
  | version
  | transport
  | host
  | port
  | logLevel
  deriving DecidableEq, Repr

namespace Flag

/-- The spellings of an option. -/
def spellings : Flag → List Text
  | .help => ["-h".toList, "--help".toList]
  | .version => ["--version".toList, "-v".toList]
  | .transport => ["--transport".toList]
  | .host => ["--host".toList]
  | .port => ["--port".toList]
  | .logLevel => ["--log-level".toList]

/-- All options. -/
def all : List Flag := [.help, .version, .transport, .host, .port, .logLevel]

/-- All spellings, each with its option. -/
def table : List (Text × Flag) :=
  all.flatMap fun flag => flag.spellings.map fun spelling => (spelling, flag)

/-- The option of a spelling. -/
def ofSpelling? (spelling : Text) : Option Flag := table.lookup spelling

/-- Whether an option takes a value. -/
def takesValue : Flag → Bool
  | .help => false
  | .version => false
  | _ => true

/-- The name of an option in messages. -/
def label (flag : Flag) : Text := ['/'].intercalate flag.spellings

end Flag

/-! ### Mistakes -/

/-- A mistake on the command line. -/
inductive Mistake where
  | ambiguous (given : Text) (spellings : List Text)
  | noValue (flag : Flag)
  | unwantedValue (flag : Flag) (value : Text)
  | notInteger (flag : Flag) (value : Text)
  | notAChoice (flag : Flag) (value : Text) (choices : List Text)
  | unrecognized (words : List Text)

/-- Texts with commas between them. -/
def commaList (texts : List Text) : Text := [',', ' '].intercalate texts

/-- The wording of what is wrong with an option. -/
def about (flag : Flag) (complaint : Text) : Text :=
  "argument ".toList ++ flag.label ++ ": ".toList ++ complaint

/-- The wording of a mistake. -/
def Mistake.message : Mistake → Text
  | .ambiguous given spellings =>
    "ambiguous option: ".toList ++ given ++ " could match ".toList ++ commaList spellings
  | .noValue flag => about flag "expected one argument".toList
  | .unwantedValue flag value =>
    about flag ("ignored explicit argument ".toList ++ Text.quoted value)
  | .notInteger flag value => about flag ("invalid int value: ".toList ++ Text.quoted value)
  | .notAChoice flag value choices =>
    about flag ("invalid choice: ".toList ++ Text.quoted value ++ " (choose from ".toList
      ++ commaList (choices.map Text.quoted) ++ ")".toList)
  | .unrecognized words => "unrecognized arguments: ".toList ++ [' '].intercalate words

end Handbook.CommandLine
