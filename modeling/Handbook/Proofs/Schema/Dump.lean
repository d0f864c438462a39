/-
**Values written out in full.**

A value of a shape is written out in full if each of its records has all of the declared fields and
nothing else, in the order in which they are declared, null for optional ones that it lacks. However
such a value is said again, it is of the shape, and filling in its fields gives the value back.

* `Shape.Dumped`: the values of a shape that are written out in full;
* `Shape.dumped_within`: they are not deeper than the shape;
* `Shape.dumped_restates`: what says such a value again is of the shape, and completed it is the value.
-/

import Handbook.Proofs.Json.Restate
import Handbook.Proofs.Schema.Conforms

namespace Handbook.Schema

open Json

mutual

/-- The values of a shape that are written out in full. -/
def Shape.Dumped : Shape → Value → Prop
  | .text, value => ∃ text, value = .string text
  | .list item, value => ∃ items, value = .array items ∧ ∀ part ∈ items, item.Dumped part
  | .record fields, value => ∃ members, value = .object members ∧ fields.Dump members

/-- The declared fields in order, each of its shape or null if it is optional. -/
def Fields.Dump : Fields → Members → Prop
  | .none, members => members = []
  | .field name presence shape others, members => ∃ value rest, members = (name, value) :: rest ∧
      (shape.Dumped value ∨ presence = .optional ∧ value = .null) ∧ others.Dump rest

end

mutual

/-- How many containers may be inside each other in a value of a shape. -/
def Shape.depth : Shape → Nat
  | .text => 0
  | .list item => item.depth + 1
  | .record fields => fields.depth + 1

/-- How many containers may be inside each other in one of some fields. -/
def Fields.depth : Fields → Nat
  | .none => 0
  | .field _ _ shape others => max shape.depth others.depth

end

mutual

/-- Whether the fields of every record have different names. -/
def Shape.Distinct : Shape → Prop
  | .text => True
  | .list item => item.Distinct
  | .record fields => fields.names.Nodup ∧ fields.EachDistinct

/-- Whether this holds of the shapes of some fields. -/
def Fields.EachDistinct : Fields → Prop
  | .none => True
  | .field _ _ shape others => shape.Distinct ∧ others.EachDistinct

end

theorem Fields.names_of_dump (fields : Fields) {members : Members} (dump : fields.Dump members) :
    members.map Prod.fst = fields.names := by
  cases fields with
  | none =>
    rw [show members = [] from dump]
    rfl
  | field name _ _ others =>
    obtain ⟨value, rest, rfl, _, later⟩ := dump
    rw [List.map_cons, others.names_of_dump later]
    rfl

/-- Null is no text, no list and no record. -/
theorem Shape.not_dumped_null (shape : Shape) : ¬ shape.Dumped .null := by
  cases shape <;> simp [Shape.Dumped]

/-! ### Depth -/

theorem null_within (levels : Nat) : Within levels .null := by
  cases levels with
  | zero => rfl
  | succ levels => exact fun _ member => absurd member List.not_mem_nil

mutual

/-- **A value of a shape is not deeper than it.** -/
theorem Shape.dumped_within (shape : Shape) {value : Value} (dumped : shape.Dumped value) :
    Within shape.depth value := by
  cases shape with
  | text =>
    obtain ⟨text, rfl⟩ := dumped
    rfl
  | list item =>
    obtain ⟨items, rfl, each⟩ := dumped
    exact fun part member => item.dumped_within (each part member)
  | record fields =>
    obtain ⟨members, rfl, dump⟩ := dumped
    intro part member
    obtain ⟨pair, listed, rfl⟩ := List.mem_map.mp member
    exact fields.dump_within dump pair listed

theorem Fields.dump_within (fields : Fields) {members : Members} (dump : fields.Dump members) :
    ∀ pair ∈ members, Within fields.depth pair.2 := by
  cases fields with
  | none =>
    rw [show members = [] from dump]
    exact fun _ member => absurd member List.not_mem_nil
  | field name presence shape others =>
    obtain ⟨value, rest, rfl, first, later⟩ := dump
    intro pair member
    rcases List.mem_cons.mp member with rfl | further
    · rcases first with dumped | ⟨_, rfl⟩
      · exact (shape.dumped_within dumped).mono (Nat.le_max_left ..)
      · exact null_within _
    · exact (others.dump_within later pair further).mono (Nat.le_max_right ..)

end

/-! ### Said again -/

theorem all_restate {item : Shape} {items others : List Value}
    (each : ∀ one two, one ∈ items → Restates one two →
      item.Conforms two ∧ item.completed two = one)
    (all : List.Forall₂ Restates items others) :
    (∀ part ∈ others, item.Conforms part) ∧ others.map item.completed = items := by
  induction all with
  | nil => exact ⟨fun _ member => absurd member List.not_mem_nil, rfl⟩
  | cons same _ step =>
    obtain ⟨conforms, completed⟩ := each _ _ (List.mem_cons_self ..) same
    obtain ⟨later, rest⟩ :=
      step fun one two member => each one two (List.mem_cons_of_mem _ member)
    exact ⟨List.forall_mem_cons.mpr ⟨conforms, later⟩, by rw [List.map_cons, completed, rest]⟩

mutual

/-- **What says a value again that is written out in full is of its shape, and completed it is the
value.** -/
theorem Shape.dumped_restates (shape : Shape) (distinct : shape.Distinct) {value other : Value}
    (dumped : shape.Dumped value) (restates : Restates value other) :
    shape.Conforms other ∧ shape.completed other = value := by
  cases shape with
  | text =>
    obtain ⟨text, rfl⟩ := dumped
    cases restates
    exact ⟨⟨text, rfl⟩, rfl⟩
  | list item =>
    obtain ⟨items, rfl, each⟩ := dumped
    obtain ⟨others, rfl, all⟩ := restates.array_cases
    have part : ∀ one two, one ∈ items → Restates one two →
        item.Conforms two ∧ item.completed two = one :=
      fun one two member same => item.dumped_restates distinct (each one member) same
    have both := all_restate part all
    exact ⟨⟨others, rfl, both.1⟩, by rw [Shape.completed, both.2]⟩
  | record fields =>
    obtain ⟨members, rfl, dump⟩ := dumped
    obtain ⟨kept, others, rfl, keeps, perm⟩ := restates.object_cases
    -- The members have the declared names, so no two have the same, and each of them is found.
    have names := fields.names_of_dump dump
    have distinct' : (members.map Prod.fst).Nodup := names ▸ distinct.1
    obtain ⟨conform, completed⟩ := fields.dump_restates distinct.2 dump
      fun name value member => keeps.found perm distinct' member
    refine ⟨⟨others, rfl, conform, fun name member => ?_⟩, by rw [Shape.completed, completed]⟩
    rw [← names]
    exact keeps.names_sublist.subset ((perm.map Prod.fst).mem_iff.mpr member)

/-- The fields that are written out in full are those of any object in which each of them is found
again, save for some of those that are null. -/
theorem Fields.dump_restates (fields : Fields) (distinct : fields.EachDistinct)
    {members others : Members} (dump : fields.Dump members)
    (found : ∀ name value, (name, value) ∈ members →
      (∃ other, member? name others = some other ∧ Restates value other) ∨
        member? name others = none ∧ value = .null) :
    fields.Conform others ∧ fields.completed others = members := by
  cases fields with
  | none => exact ⟨trivial, (show members = [] from dump).symm⟩
  | field name presence shape others' =>
    obtain ⟨value, rest, rfl, first, later⟩ := dump
    obtain ⟨conform, completed⟩ := others'.dump_restates distinct.2 later
      fun name value member => found name value (List.mem_cons_of_mem _ member)
    rw [Fields.Conform, Fields.completed, completed]
    rcases found name value (List.mem_cons_self ..) with ⟨other, here, same⟩ | ⟨missing, rfl⟩
    · simp only [here, Option.map_some, Option.getD_some, List.cons.injEq, Prod.mk.injEq, true_and,
        and_true]
      rcases first with dumped | ⟨optional, rfl⟩
      · obtain ⟨conforms, equal⟩ := shape.dumped_restates distinct.1 dumped same
        exact ⟨⟨.inl conforms, conform⟩, equal⟩
      · cases same
        exact ⟨⟨.inr ⟨optional, rfl⟩, conform⟩, by cases shape <;> rfl⟩
    · simp only [missing]
      rcases first with dumped | ⟨optional, _⟩
      · exact absurd dumped shape.not_dumped_null
      · exact ⟨⟨optional, conform⟩, rfl⟩

end

end Handbook.Schema
