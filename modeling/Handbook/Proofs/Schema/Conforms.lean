/-
**Values of a shape.**

Which values are of a shape can be said without looking for faults: a text is a string, a list an
array of values of one shape, and a record an object in which every declared field is there or may be
missing, and whose members are all declared. Of the members of one name the last one is the field.

* `Shape.Conforms`: the values of a shape;
* `Shape.completed`: a value with null for the fields that it lacks;
* `faults_eq_nil_iff`: a value has no faults exactly if it is of the shape, however the undeclared
  members are told of.
-/

import Handbook.Schema.Shape

namespace Handbook.Schema

open Json

mutual

/-- The values of a shape. -/
def Shape.Conforms : Shape → Value → Prop
  | .text, value => ∃ text, value = .string text
  | .list item, value => ∃ items, value = .array items ∧ ∀ part ∈ items, item.Conforms part
  | .record fields, value => ∃ members, value = .object members ∧ fields.Conform members ∧
      ∀ name ∈ members.map Prod.fst, name ∈ fields.names

/-- The members that give every declared field, save those that may be missing or null. -/
def Fields.Conform : Fields → Members → Prop
  | .none, _ => True
  | .field name presence shape others, members =>
    (match member? name members with
      | none => presence = .optional
      | some value => shape.Conforms value ∨ presence = .optional ∧ value = .null)
      ∧ others.Conform members

end

mutual

/-- A value with null for the fields that it lacks. Nothing else in it is changed, but the fields
come in the order in which they are declared, each once. -/
def Shape.completed : Shape → Value → Value
  | .list item, .array items => .array (items.map item.completed)
  | .record fields, .object members => .object (fields.completed members)
  | _, value => value

/-- The declared fields of an object, null for those that it lacks. -/
def Fields.completed : Fields → Members → Members
  | .none, _ => []
  | .field name _ shape others, members =>
    (name, ((member? name members).map shape.completed).getD .null) :: others.completed members

end

/-! ### Faults -/

variable {telling : Telling}

theorem mem_undeclared_iff {fields : Fields} {members : Members} {name : Text} :
    name ∈ undeclared telling fields members ↔
      name ∈ members.map Prod.fst ∧ name ∉ fields.names := by
  unfold undeclared
  split <;> simp

theorem undeclaredFaults_eq_nil_iff {fields : Fields} {members : Members} :
    undeclaredFaults telling fields members = [] ↔
      ∀ name ∈ members.map Prod.fst, name ∈ fields.names := by
  rw [undeclaredFaults, List.map_eq_nil_iff, List.eq_nil_iff_forall_not_mem]
  simp only [mem_undeclared_iff, not_and, Decidable.not_not]

theorem Shape.faults_record_eq_nil_iff {fields : Fields} {members : Members} :
    (Shape.record fields).faults telling (.object members) = [] ↔
      fields.faults telling members = [] ∧ undeclaredFaults telling fields members = [] := by
  rw [Shape.faults]
  split
  · rw [List.append_eq_nil_iff, and_comm]
  · rw [List.append_eq_nil_iff]

theorem items_faults_eq_nil_iff {faults : Value → List Fault} {items : List Value} :
    (items.zipIdx.flatMap fun (value, position) =>
      (faults value).map (Fault.under (.index position))) = [] ↔
      ∀ part ∈ items, faults part = [] := by
  simp only [List.flatMap_eq_nil_iff, List.map_eq_nil_iff]
  constructor
  · intro all part member
    obtain ⟨pair, indexed, rfl⟩ := List.mem_map.mp ((List.zipIdx_map_fst 0 items).symm ▸ member)
    exact all pair indexed
  · intro all pair indexed
    exact all pair.1 (List.fst_mem_of_mem_zipIdx indexed)

theorem value_isNull_iff {value : Value} : value.isNull = true ↔ value = .null := by
  cases value <;> simp [Value.isNull]

mutual

/-- **A value has no faults exactly if it is of the shape.** -/
theorem Shape.faults_eq_nil_iff (shape : Shape) (value : Value) :
    shape.faults telling value = [] ↔ shape.Conforms value := by
  cases shape with
  | text => cases value <;> simp [Shape.faults, Shape.Conforms]
  | list item =>
    cases value with
    | array items =>
      simp only [Shape.faults, Shape.Conforms, Value.array.injEq, exists_eq_left']
      rw [items_faults_eq_nil_iff]
      exact forall₂_congr fun part _ => item.faults_eq_nil_iff part
    | _ => simp [Shape.faults, Shape.Conforms]
  | record fields =>
    cases value with
    | object members =>
      simp only [Shape.faults_record_eq_nil_iff, Shape.Conforms, Value.object.injEq,
        exists_eq_left', undeclaredFaults_eq_nil_iff]
      rw [fields.faults_eq_nil_iff members]
    | _ => simp [Shape.faults, Shape.Conforms]

theorem Fields.faults_eq_nil_iff (fields : Fields) (members : Members) :
    fields.faults telling members = [] ↔ fields.Conform members := by
  cases fields with
  | none => simp [Fields.faults, Fields.Conform]
  | field name presence shape others =>
    simp only [Fields.faults, Fields.Conform, List.append_eq_nil_iff]
    rw [others.faults_eq_nil_iff members]
    refine and_congr_left fun _ => ?_
    cases member? name members with
    | none => cases presence <;> simp
    | some value =>
      have inside := shape.faults_eq_nil_iff value
      cases presence with
      | required => simp [inside]
      | optional =>
        by_cases null : value = .null
        · simp [null, Value.isNull]
        · have other : ¬ value.isNull = true := fun isNull => null (value_isNull_iff.mp isNull)
          simp [null, other, inside]

end

end Handbook.Schema
