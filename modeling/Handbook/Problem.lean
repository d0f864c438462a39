/-
**Problems.**

What can keep a request from being answered: a name that names nothing, a file that is not there or
is a directory, prose that is no UTF-8, or a failure of the handbook.
-/

import Handbook.Failure
import Handbook.Store.Path
import Handbook.Text.Quoted
import Handbook.Utf8

namespace Handbook

/-- Why there is no file to be read at a path: nothing is there, or a directory is. -/
inductive Vacancy where
  | nothing (path : Path)
  | directory (path : Path)

/-- A problem, by its cause. -/
inductive Problem where
  | unknownName (given : Text) (family : String)
  | missingFile (vacancy : Vacancy)
  | undecodable (fault : Utf8.Fault)
  | failure (cause : Failure)

/-- The wording of bytes that are no UTF-8. -/
def Utf8.Fault.message (fault : Utf8.Fault) : Text :=
  let place :=
    if fault.size = 1 then
      "byte 0x".toList ++ Text.hex 2 fault.first.toNat ++ " in position ".toList
        ++ Text.decimal fault.start
    else
      "bytes in position ".toList ++ Text.decimal fault.start ++ "-".toList
        ++ Text.decimal (fault.start + fault.size - 1)
  "'utf-8' codec can't decode ".toList ++ place ++ ": ".toList ++ fault.reason.message

/-- The wording of a file that cannot be read. -/
def Vacancy.message : Vacancy → Text
  | nothing path => "Documentation file not found: ".toList ++ path.toText
  | directory path => "[Errno 21] Is a directory: ".toList ++ Text.quoted path.toText

/-- The message of a problem. -/
def Problem.message : Problem → Text
  | unknownName given family => Text.quoted given ++ " is not a valid ".toList ++ family.toList
  | missingFile vacancy => vacancy.message
  | undecodable fault => fault.message
  | failure cause => cause.message

end Handbook
