/-
**Checked payloads.**

The payloads of tools are checked field by field. All violations are collected, in the order of the
fields, each with the path to the value that is wrong.
-/

import Handbook.Schema.Shape

namespace Handbook.Tool

open Json Schema

/-- What is wrong with a value of a payload. -/
inductive Breach where
  | missing
  | notText
  | notObject
  | notList
  | notModel (name : String)
  | notOneOf (choices : List Text)
  | unclearBool
  | notBool
  | incoherent (reason : Text)

/-- The wording of a choice between texts. -/
def choiceText (choices : List Text) : Text :=
  " or ".toList.intercalate (choices.map fun choice => ['\''] ++ choice ++ ['\''])

/-- The wording of a breach. -/
def Breach.message : Breach → Text
  | .missing => "Field required".toList
  | .notText => "Input should be a valid string".toList
  | .notObject => "Input should be a valid dictionary".toList
  | .notList => "Input should be a valid list".toList
  | .notModel name =>
    "Input should be a valid dictionary or instance of ".toList ++ name.toList
  | .notOneOf choices => "Input should be ".toList ++ choiceText choices
  | .unclearBool => "Input should be a valid boolean, unable to interpret input".toList
  | .notBool => "Input should be a valid boolean".toList
  | .incoherent reason => "Value error, ".toList ++ reason

/-- The code of a breach. -/
def Breach.code : Breach → String
  | .missing => "missing"
  | .notText => "string_type"
  | .notObject => "dict_type"
  | .notList => "list_type"
  | .notModel _ => "model_type"
  | .notOneOf _ => "literal_error"
  | .unclearBool => "bool_parsing"
  | .notBool => "bool_type"
  | .incoherent _ => "value_error"

/-- A breach and the path to it. -/
structure Violation where
  path : List Step
  breach : Breach

/-- A result, or all the violations that keep it from being one. -/
abbrev Checked (α : Type) := Except (List Violation) α

namespace Checked

/-- A result that is kept from being by one breach. -/
def breach {α : Type} (breach : Breach) : Checked α := .error [⟨[], breach⟩]

/-- The violations of a result. -/
def violations {α : Type} : Checked α → List Violation
  | .ok _ => []
  | .error violations => violations

/-- A result for a part, as one for the whole. -/
def under {α : Type} (step : Step) (result : Checked α) : Checked α :=
  result.mapError (·.map fun violation => { violation with path := step :: violation.path })

/-- Two results as one. -/
def both {α β : Type} (first : Checked α) (second : Checked β) : Checked (α × β) :=
  match first, second with
  | .ok a, .ok b => .ok (a, b)
  | first, second => .error (first.violations ++ second.violations)

/-- Results in a row as one result, from a position on. -/
def eachFrom {α : Type} (check : Value → Checked α) (position : Nat) :
    List Value → Checked (List α)
  | [] => .ok []
  | item :: others =>
    ((check item).under (.index position)).both (eachFrom check (position + 1) others)
      |>.map fun (first, rest) => first :: rest

end Checked

/-! ### Values -/

/-- A text. -/
def checkText : Value → Checked Text
  | .string text => .ok text
  | _ => .breach .notText

/-- An object. -/
def checkObject : Value → Checked Members
  | .object members => .ok members
  | _ => .breach .notObject

/-- A list of objects. -/
def checkObjects : Value → Checked (List Members)
  | .array items => Checked.eachFrom checkObject 0 items
  | _ => .breach .notList

/-- One of some texts. -/
def checkChoice (choices : List Text) : Value → Checked Text
  | .string text => if choices.contains text then .ok text else .breach (.notOneOf choices)
  | _ => .breach (.notOneOf choices)

/-- The words for truth. -/
def trueWords : List Text :=
  ["1".toList, "t".toList, "y".toList, "yes".toList, "on".toList, "true".toList]

/-- The words for falsehood. -/
def falseWords : List Text :=
  ["0".toList, "f".toList, "n".toList, "no".toList, "off".toList, "false".toList]

/-- A truth value, which a word in any case or one of the numbers zero and one may also tell. -/
def checkBool : Value → Checked Bool
  | .bool value => .ok value
  | .integer 0 => .ok false
  | .integer 1 => .ok true
  | .integer _ => .breach .unclearBool
  | .string text =>
    let word := text.map Char.toLower
    if trueWords.contains word then .ok true
    else if falseWords.contains word then .ok false
    else .breach .unclearBool
  | _ => .breach .notBool

/-! ### Members -/

/-- A member that must be there. -/
def requiredMember {α : Type} (members : Members) (name : Text) (check : Value → Checked α) :
    Checked α :=
  Checked.under (.field name) <|
    match member? name members with
    | some value => check value
    | none => .breach .missing

/-- A member that may be missing or null. -/
def optionalMember {α : Type} (members : Members) (name : Text) (check : Value → Checked α) :
    Checked (Option α) :=
  Checked.under (.field name) <|
    match member? name members with
    | none | some .null => .ok none
    | some value => (check value).map some

end Handbook.Tool
