/-
**Envelopes.**

Every tool answers with an envelope: a success with data, or an error with a code, a message and
perhaps details. An envelope that tells success and holds an error, or tells neither, is refused.

* `coherent_of_check`: what passes the check is coherent;
* `coherent_success`, `coherent_ofFailure`: the envelopes that tools build are coherent.
-/

import Handbook.Failure
import Handbook.Tool.Check

namespace Handbook.Tool

open Json Schema

/-! ### Errors -/

/-- An error of a tool. -/
structure ToolError where
  code : Text
  message : Text
  details : Option Members

namespace ToolError

/-- The error that an object writes. -/
def check (members : Members) : Checked ToolError :=
  let code := requiredMember members "code".toList checkText
  let message := requiredMember members "message".toList checkText
  let details := optionalMember members "details".toList checkObject
  (code.both (message.both details)).map fun (code, message, details) => ⟨code, message, details⟩

/-- The fields of an error, in order. -/
def fields (error : ToolError) : List (String × Option Value) :=
  [("code", some (.string error.code)), ("message", some (.string error.message)),
    ("details", error.details.map .object)]

end ToolError

/-! ### Envelopes -/

/-- The answer of a tool. Data that are null count as none. -/
structure Envelope where
  ok : Bool
  data : Value
  error : Option ToolError

namespace Envelope

/-- Whether an envelope holds an error exactly when it tells no success. -/
def Coherent (envelope : Envelope) : Prop := envelope.ok = true ↔ envelope.error = none

/-- An envelope, if it is coherent. -/
def make (ok : Bool) (data : Value) (error : Option ToolError) : Checked Envelope :=
  match ok, error with
  | true, some _ => .breach (.incoherent "ok=true responses must not include error".toList)
  | false, none => .breach (.incoherent "ok=false responses must include error".toList)
  | ok, error => .ok ⟨ok, data, error⟩

/-- The error of an envelope, as a value writes it. -/
def checkError : Value → Checked ToolError
  | .object members => ToolError.check members
  | _ => .breach (.notModel "ToolError")

/-- The envelope that a value writes. Members that an envelope has no field for do not matter. -/
def check : Value → Checked Envelope
  | .object members => do
    let ok := requiredMember members "ok".toList checkBool
    let error := optionalMember members "error".toList checkError
    let (ok, error) ← ok.both error
    make ok (.ofOption (member? "data".toList members)) error
  | _ => .breach (.notModel "ToolEnvelope")

/-- The answer of success with some data. -/
def success (data : Value) : Envelope := ⟨true, data, none⟩

/-- The answer of an error. -/
def failed (error : ToolError) (data : Value) : Envelope := ⟨false, data, some error⟩

/-- The members of an object, if there is one. -/
def membersOf? : Option Value → Option Members
  | some (.object members) => some members
  | _ => none

/-- The answer that tells a failure of the handbook. -/
def ofFailure (cause : Failure) : Envelope :=
  failed ⟨cause.code.toList, cause.message, membersOf? cause.details?⟩ .null

/-- An envelope as a value, null for what is not there. -/
def toValue (envelope : Envelope) : Value :=
  .ofFields [("ok", some (.bool envelope.ok)), ("data", some envelope.data),
    ("error", envelope.error.map fun error => Value.ofFields error.fields)]

/-- A value, unless it is null. -/
def unlessNull (value : Value) : Option Value := if value.isNull then none else some value

/-- An envelope as a value, without what is not there. Nulls inside the data stay. -/
def toCompactValue (envelope : Envelope) : Value :=
  .ofPresentFields [("ok", some (.bool envelope.ok)), ("data", unlessNull envelope.data),
    ("error", envelope.error.map fun error => Value.ofPresentFields error.fields)]

theorem coherent_of_make {ok : Bool} {data : Value} {error : Option ToolError}
    {envelope : Envelope} (made : make ok data error = .ok envelope) : envelope.Coherent := by
  cases ok <;> cases error <;> simp [make, Checked.breach] at made <;> subst made <;>
    simp [Coherent]

/-- **What passes the check is coherent.** -/
theorem coherent_of_check {value : Value} {envelope : Envelope}
    (checked : check value = .ok envelope) : envelope.Coherent := by
  cases value with
  | object members =>
    simp only [check, bind, Except.bind] at checked
    split at checked
    · simp at checked
    · exact coherent_of_make checked
  | _ => simp [check, Checked.breach] at checked

theorem coherent_success (data : Value) : (success data).Coherent := by simp [Coherent, success]

theorem coherent_ofFailure (cause : Failure) : (ofFailure cause).Coherent := by
  simp [Coherent, ofFailure, failed]

end Envelope

/-! ### Data of the handbook's tools -/

/-- The tools that give data. -/
def sources : List Text := ["help".toList, "functions".toList]

/-- What a tool did. -/
def actions : List Text := ["render".toList, "browse".toList]

/-- What the tools of the handbook give: entries and a summary, with the tool and what it did. -/
structure DocsData where
  source : Text
  action : Text
  entries : List Members
  summary : Members

namespace DocsData

/-- Whether a value says nothing. -/
def isVoid : Value → Bool
  | .null => true
  | .bool value => !value
  | .integer value => value == 0
  | .decimal _ => false
  | .string text => text.isEmpty
  | .array items => items.isEmpty
  | .object members => members.isEmpty

/-- The data that some values write. A summary that says nothing is an empty one. -/
def check (source action entries summary : Value) : Checked DocsData :=
  let source := (checkChoice sources source).under (.field "source".toList)
  let action := (checkChoice actions action).under (.field "action".toList)
  let entries := (checkObjects entries).under (.field "entries".toList)
  let summary := if isVoid summary then .ok [] else checkObject summary
  let summary := Checked.under (.field "summary".toList) summary
  (source.both (action.both (entries.both summary))).map
    fun (source, action, entries, summary) => ⟨source, action, entries, summary⟩

/-- Data as a value. -/
def toValue (data : DocsData) : Value :=
  .record [("source", .string data.source), ("action", .string data.action),
    ("entries", .array (data.entries.map .object)), ("summary", .object data.summary)]

end DocsData

end Handbook.Tool
