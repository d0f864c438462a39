/-
**Settings.**

Where the content of the handbook is, whether the terminal shows colors, and where the handbook is
to be found online. All three come from the environment.
-/

import Handbook.Store.Path
import Handbook.Text.Lower

namespace Handbook

/-- The variables of an environment, with their values. -/
abbrev Environment := List (Text × Text)

/-- The settings of the handbook. -/
structure Settings where
  resources : Path
  color : Bool
  onlineUrl : Text
  deriving DecidableEq, Repr

namespace Settings

/-- The address of the handbook online, unless another one is set. -/
def defaultOnlineUrl : Text := "https://github.com/medialab/xan/blob/master/docs/moonblade".toList

/-- The words that switch something on. -/
def affirmations : List Text := ["1".toList, "true".toList, "yes".toList, "on".toList]

/-- Whether the value of a variable switches something on, whatever its case and the blanks around
it. -/
def isAffirmation (value : Text) : Bool :=
  affirmations.contains (Text.lower (Text.trim Unicode.isBlank value))

/-- Where the content is: the bundled content, unless a directory is given. -/
def resourcesOf (environment : Environment) : Path :=
  match environment.lookup "XAN_DOCS_RESOURCES".toList with
  | none | some [] => .bundled
  | some directory => (Path.ofText directory).expandHome (environment.lookup "HOME".toList)

/-- Whether there are colors: as the variable of the handbook says, and otherwise unless the common
variable against colors is set, to whatever value. -/
def colorOf (environment : Environment) : Bool :=
  match environment.lookup "XAN_DOCS_COLOR".toList with
  | none => (environment.lookup "NO_COLOR".toList).isNone
  | some value => isAffirmation value

/-- The address of the handbook online, without slashes at its end. -/
def onlineUrlOf (environment : Environment) : Text :=
  Text.trimEnd (· == '/')
    ((environment.lookup "XAN_DOCS_ONLINE_URL".toList).getD defaultOnlineUrl)

/-- The settings that an environment makes. -/
def ofEnvironment (environment : Environment) : Settings where
  resources := resourcesOf environment
  color := colorOf environment
  onlineUrl := onlineUrlOf environment

end Settings

end Handbook
