/-
**JSON values.**

A value as a JSON text gives it. An object keeps its members in the order of the text, and keeps
repeated ones; the last member of a name is the one that counts.
-/

import Handbook.Text.Basic

namespace Handbook.Json

/-- A JSON value. A number that is no integer is kept as it was written. -/
inductive Value where
  | null
  | bool (value : Bool)
  | integer (value : Int)
  | decimal (lexeme : Text)
  | string (text : Text)
  | array (items : List Value)
  | object (members : List (Text × Value))
  deriving Inhabited

/-- The members of an object. -/
abbrev Members := List (Text × Value)

/-- The member of a name: the last one counts. -/
def member? (name : Text) (members : Members) : Option Value :=
  members.reverse.lookup name

namespace Value

/-- An object, from names that are given as strings. -/
def record (members : List (String × Value)) : Value :=
  .object (members.map fun (name, value) => (name.toList, value))

/-- An object from its fields, null for those that are not there. -/
def ofFields (fields : List (String × Option Value)) : Value :=
  record (fields.map fun (name, value) => (name, value.getD .null))

/-- An object from those of its fields that are there. -/
def ofPresentFields (fields : List (String × Option Value)) : Value :=
  record (fields.filterMap fun (name, value) => value.map (name, ·))

/-- An array of strings. -/
def strings (texts : List Text) : Value := .array (texts.map .string)

/-- Whether a value is null. -/
def isNull : Value → Bool
  | .null => true
  | _ => false

/-- Null for a value that is not there. -/
def ofOption : Option Value → Value
  | none => .null
  | some value => value

/-- The text of a string. -/
def text? : Value → Option Text
  | .string text => some text
  | _ => none

/-- The items of an array, each read in one way. -/
def list? {α : Type} (read : Value → Option α) : Value → Option (List α)
  | .array items => items.mapM read
  | _ => none

/-- The members of an object. -/
def members? : Value → Option Members
  | .object members => some members
  | _ => none

end Value

/-- A member that must be there, read in one way. -/
def required {α : Type} (members : Members) (name : Text) (read : Value → Option α) : Option α :=
  (member? name members).bind read

/-- A member that may be missing or null, read in one way. -/
def optional {α : Type} (members : Members) (name : Text) (read : Value → Option α) :
    Option (Option α) :=
  match member? name members with
  | none | some .null => some none
  | some value => (read value).map some

end Handbook.Json
