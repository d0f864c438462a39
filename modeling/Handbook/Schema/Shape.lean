/-
**Shapes of JSON values.**

Structured content has a declared shape: texts, lists of one shape, and records with named fields,
some of which may be missing or null. A value that is not of its shape has faults, and all of them
are listed: the items of a list in order, and in a record the declared fields in their order and,
before or after them, the undeclared members as they stand. Inside a value of the wrong kind nothing
more is looked for.
-/

import Handbook.Json.Value

namespace Handbook.Schema

open Json

/-- A step from a value into a part of it. -/
inductive Step where
  | field (name : Text)
  | index (position : Nat)
  deriving DecidableEq, Repr

/-- What is wrong with a value. -/
inductive Cause where
  | missing
  | undeclared
  | notText
  | notList
  | notRecord
  deriving DecidableEq, Repr

/-- A fault and the path to it. -/
structure Fault where
  path : List Step
  cause : Cause
  deriving DecidableEq, Repr

/-- A fault of a part, as a fault of the whole. -/
def Fault.under (step : Step) (fault : Fault) : Fault := { fault with path := step :: fault.path }

/-- Whether a field must be there. A field that need not be there may also be null. -/
inductive Presence where
  | required
  | optional
  deriving DecidableEq, Repr

mutual

/-- A declared shape. -/
inductive Shape where
  | text
  | list (item : Shape)
  | record (fields : Fields)

/-- The declared fields of a record, in order. -/
inductive Fields where
  | none
  | field (name : Text) (presence : Presence) (shape : Shape) (others : Fields)

end

/-- The names of some fields. -/
def Fields.names : Fields → List Text
  | .none => []
  | .field name _ _ others => name :: others.names

/-- How the undeclared members of an object are told of: ahead of the faults of its declared fields
or behind them, and a repeated name once or as often as it stands. Checkers of shapes, and releases
of one checker, differ in both. -/
structure Telling where
  ahead : Bool
  repeated : Bool

/-- Undeclared members are told of behind the declared fields, each name once. -/
def Telling.customary : Telling := ⟨false, false⟩

/-- The names of an object's members that are not declared, in the order in which they stand. -/
def undeclared (telling : Telling) (fields : Fields) (members : Members) : List Text :=
  let names := (members.map Prod.fst).filter (!fields.names.contains ·)
  if telling.repeated then names else names.eraseDups

/-- The faults of an object's undeclared members. -/
def undeclaredFaults (telling : Telling) (fields : Fields) (members : Members) : List Fault :=
  (undeclared telling fields members).map fun name => ⟨[.field name], .undeclared⟩

mutual

/-- The faults of a value. -/
def Shape.faults (telling : Telling) : Shape → Value → List Fault
  | .text, .string _ => []
  | .text, _ => [⟨[], .notText⟩]
  | .list item, .array items =>
    items.zipIdx.flatMap fun (value, position) =>
      (item.faults telling value).map (Fault.under (.index position))
  | .list _, _ => [⟨[], .notList⟩]
  | .record fields, .object members =>
    if telling.ahead then
      undeclaredFaults telling fields members ++ fields.faults telling members
    else fields.faults telling members ++ undeclaredFaults telling fields members
  | .record _, _ => [⟨[], .notRecord⟩]

/-- The faults of an object's declared members. -/
def Fields.faults (telling : Telling) : Fields → Members → List Fault
  | .none, _ => []
  | .field name presence shape others, members =>
    (match member? name members with
      | none => if presence = .required then [⟨[.field name], .missing⟩] else []
      | some value =>
        if presence = .optional ∧ value.isNull then []
        else (shape.faults telling value).map (Fault.under (.field name)))
      ++ others.faults telling members

end

/-- The wording of a cause. -/
def Cause.message : Cause → Text
  | .missing => "Field required".toList
  | .undeclared => "Extra inputs are not permitted".toList
  | .notText => "Input should be a valid string".toList
  | .notList => "Input should be a valid array".toList
  | .notRecord => "Input should be an object".toList

/-- The code of a cause. -/
def Cause.code : Cause → String
  | .missing => "missing"
  | .undeclared => "extra_forbidden"
  | .notText => "string_type"
  | .notList => "list_type"
  | .notRecord => "model_type"

/-- A step as a JSON value. -/
def Step.toValue : Step → Value
  | .field name => .string name
  | .index position => .integer position

end Handbook.Schema
