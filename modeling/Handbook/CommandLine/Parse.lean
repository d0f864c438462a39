/-
**Reading the command line.**

The options are heeded one after the other. One that asks for help or for the version is answered at
once; a mistake ends the reading. Words that belong to no option are only complained about when all
options have been heeded.
-/

import Handbook.CommandLine.Word
import Handbook.Text.Integer

namespace Handbook.CommandLine

/-- What a command line asks for: the server in some settings, help, or the version. -/
inductive Command where
  | run (settings : ServerSettings)
  | help
  | version
  deriving DecidableEq, Repr

/-! ### Values -/

/-- The choice of a name. -/
def choose {α : Type} (flag : Flag) (choices : List α) (name : α → Text) (value : Text) :
    Except Mistake α :=
  match choices.find? (name · == value) with
  | some choice => .ok choice
  | none => .error (.notAChoice flag value (choices.map name))

/-- The settings without the one that an option makes. -/
def clearValue (settings : ServerSettings) : Flag → ServerSettings
  | .transport => { settings with transport := none }
  | .host => { settings with host := none }
  | .port => { settings with port := none }
  | .logLevel => { settings with logLevel := none }
  | .help => settings
  | .version => settings

/-- The settings after an option with a value. A double hyphen is no value: it takes the setting
away. -/
def setValue (settings : ServerSettings) (flag : Flag) (value : Text) :
    Except Mistake ServerSettings :=
  if value = doubleHyphen then .ok (clearValue settings flag)
  else
    match flag with
    | .transport => (choose flag Transport.all Transport.name value).map
        fun transport => { settings with transport := some transport }
    | .host => .ok { settings with host := some value }
    | .port =>
      match Text.integer? value with
      | some port => .ok { settings with port := some port }
      | none => .error (.notInteger flag value)
    | .logLevel => (choose flag LogLevel.all LogLevel.name value).map
        fun logLevel => { settings with logLevel := some logLevel }
    | .help => .ok settings
    | .version => .ok settings

/-! ### Options without a value -/

/-- What an option without a value asks for. -/
def commandOf : Flag → Command
  | .help => .help
  | _ => .version

/-- Looks through what follows a short option in its word. No short option takes a value, so every
letter must be another one; what cannot be read so is a value that the last of them does not
want. -/
def checkLetters (flag : Flag) : Text → Except Mistake Unit
  | [] => .ok ()
  | letter :: others =>
    match Flag.ofSpelling? ['-', letter] with
    | some next => checkLetters next others
    | none => .error (.unwantedValue flag (letter :: others))

/-- Whether an option is spelled as a single letter. -/
def Spelled.isShort (spelled : Spelled) : Bool := !"--".toList.isPrefixOf spelled.spelling

/-- What an option without a value asks for, if its word holds nothing that it should not. -/
def answerFlag (spelled : Spelled) : Except Mistake Command :=
  match spelled.value with
  | none => .ok (commandOf spelled.flag)
  | some value =>
    if spelled.isShort && !value.isEmpty then
      (checkLetters spelled.flag value).map fun _ => commandOf spelled.flag
    else .error (.unwantedValue spelled.flag value)

/-! ### The whole line -/

/-- What words ask for, given the settings so far and the words so far that belong to no option, the
last one first. -/
def heed (settings : ServerSettings) (extras : List Text) :
    List (Text × Reading) → Except Mistake Command
  | [] => if extras.isEmpty then .ok (.run settings) else .error (.unrecognized extras.reverse)
  | (word, .argument) :: others => heed settings (word :: extras) others
  | (word, .endOfOptions) :: others => heed settings (word :: extras) others
  | (word, .unknown) :: others => heed settings (word :: extras) others
  | (_, .option spelled) :: others =>
    if spelled.flag.takesValue then
      match spelled.value, others with
      | some value, others => do heed (← setValue settings spelled.flag value) extras others
      | none, (value, .argument) :: rest => do
        heed (← setValue settings spelled.flag value) extras rest
      | none, _ => .error (.noValue spelled.flag)
    else answerFlag spelled

/-- What a command line asks for. -/
def parse (words : List Text) : Except Mistake Command := do
  heed .default [] (← readWords words)

end Handbook.CommandLine
