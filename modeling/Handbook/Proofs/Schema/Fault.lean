/-
**The faults of a value.**

What is wrong with a value can be said place by place. A path leads through the parts of a value that
are of the declared kind, and ends at a part and the shape that is declared for it. There the part
may be of another kind, and if it is an object, a required field may be missing in it or a member may
not be declared. The list of faults tells all of this and nothing else, however the undeclared
members are told of.

* `FaultAt`: the faults, without a walk;
* `Enters.unique`: a step leads into one part;
* `Shape.mem_faults_iff`: the list holds exactly the faults.
-/

import Handbook.Proofs.Schema.Conforms
import Handbook.Proofs.Schema.Dump
import Mathlib.Data.List.Basic

namespace Handbook.Schema

open Json

/-! ### Places -/

/-- The declared fields of a record, in order. -/
def Fields.declared : Fields → List (Text × Presence × Shape)
  | .none => []
  | .field name presence shape others => (name, presence, shape) :: others.declared

/-- The parts of a value, with the shapes that are declared for them: the items of an array where a
list is declared, and the members of an object for which a record has a field. A null for a field
that is optional is no part. -/
inductive Enters : Shape → Value → Step → Shape → Value → Prop where
  | item {item items position part} : items[position]? = some part →
      Enters (.list item) (.array items) (.index position) item part
  | field {fields members name presence declared part} :
      (name, presence, declared) ∈ fields.declared → member? name members = some part →
      ¬ (presence = .optional ∧ part = .null) →
      Enters (.record fields) (.object members) (.field name) declared part

/-- Where a path leads from a value of a declared shape: from part to part. -/
inductive Leads : Shape → Value → List Step → Shape → Value → Prop where
  | here {shape value} : Leads shape value [] shape value
  | into {shape value step declared part path shape' value'} :
      Enters shape value step declared part → Leads declared part path shape' value' →
      Leads shape value (step :: path) shape' value'

/-- What is wrong with a value itself, apart from its parts: it is of another kind than the declared
one, or it is an object in which a required field is missing or a member is not declared. -/
inductive Flaw : Shape → Value → List Step → Cause → Prop where
  | missing {fields members name declared} :
      (name, Presence.required, declared) ∈ fields.declared → member? name members = none →
      Flaw (.record fields) (.object members) [.field name] .missing
  | undeclared {fields members name} : name ∈ members.map Prod.fst → name ∉ fields.names →
      Flaw (.record fields) (.object members) [.field name] .undeclared
  | notText {value} : (∀ text, value ≠ .string text) → Flaw .text value [] .notText
  | notList {item value} : (∀ items, value ≠ .array items) → Flaw (.list item) value [] .notList
  | notRecord {fields value} : (∀ members, value ≠ .object members) →
      Flaw (.record fields) value [] .notRecord

/-- The faults of a value: what is wrong with the parts that paths lead to. -/
def FaultAt (shape : Shape) (value : Value) (place : List Step) (cause : Cause) : Prop :=
  ∃ path rest declared part, place = path ++ rest ∧ Leads shape value path declared part ∧
    Flaw declared part rest cause

/-! ### Fields -/

theorem Fields.names_eq (fields : Fields) : fields.names = fields.declared.map Prod.fst := by
  cases fields with
  | none => rfl
  | field name presence shape others => rw [names, declared, List.map_cons, others.names_eq]

theorem Fields.eachDistinct_iff (fields : Fields) :
    fields.EachDistinct ↔ ∀ field ∈ fields.declared, field.2.2.Distinct := by
  cases fields with
  | none => simp [EachDistinct, declared]
  | field name presence shape others =>
    rw [EachDistinct, declared, List.forall_mem_cons, others.eachDistinct_iff]

mutual

/-- **A property of shapes holds of all of them** if it holds of a shape whenever it holds of what is
declared for the parts of its values. -/
@[elab_as_elim]
theorem Shape.induction {motive : Shape → Prop}
    (whole : ∀ shape, (∀ value step declared part, Enters shape value step declared part →
      motive declared) → motive shape) (shape : Shape) : motive shape := by
  refine whole shape fun value step declared part enters => ?_
  cases shape with
  | text => cases enters
  | list item =>
    have ofItem : motive item := item.induction whole
    cases enters
    exact ofItem
  | record fields =>
    have ofFields := fields.induction whole
    cases enters with
    | field member _ _ => exact ofFields _ member

theorem Fields.induction {motive : Shape → Prop}
    (whole : ∀ shape, (∀ value step declared part, Enters shape value step declared part →
      motive declared) → motive shape) (fields : Fields) :
    ∀ field ∈ fields.declared, motive field.2.2 := by
  cases fields with
  | none => exact fun _ member => absurd member List.not_mem_nil
  | field name presence shape others =>
    exact List.forall_mem_cons.mpr ⟨shape.induction whole, others.induction whole⟩

end

/-- What is declared for a part has fields of different names if the whole shape does. -/
theorem Enters.distinct {shape declared : Shape} {value part : Value} {step : Step}
    (enters : Enters shape value step declared part) (distinct : shape.Distinct) :
    declared.Distinct := by
  cases enters with
  | item _ => exact distinct
  | field member _ _ => exact (Fields.eachDistinct_iff _).mp distinct.2 _ member

/-- A step leads into one part, if fields have different names. -/
theorem Enters.unique {shape declared declared' : Shape} {value part part' : Value} {step : Step}
    (distinct : shape.Distinct) (enters : Enters shape value step declared part)
    (enters' : Enters shape value step declared' part') : declared = declared' ∧ part = part' := by
  cases enters with
  | item found =>
    cases enters' with
    | item found' => exact ⟨rfl, Option.some.inj (found.symm.trans found')⟩
  | @field fields members name presence _ _ member found _ =>
    cases enters' with
    | field member' found' _ =>
      have names : (fields.declared.map Prod.fst).Nodup := fields.names_eq ▸ distinct.1
      have same := List.inj_on_of_nodup_map names member member' rfl
      exact ⟨congrArg (·.2.2) same, Option.some.inj (found.symm.trans found')⟩

/-! ### The list of faults -/

variable {telling : Telling}

/-- A value has a flaw of its own, or one of its parts has a fault. -/
theorem faultAt_iff {shape : Shape} {value : Value} {place : List Step} {cause : Cause} :
    FaultAt shape value place cause ↔ Flaw shape value place cause ∨
      ∃ step rest declared part, Enters shape value step declared part ∧ place = step :: rest ∧
        FaultAt declared part rest cause := by
  constructor
  · rintro ⟨path, rest, declared, part, rfl, leads, flaw⟩
    cases leads with
    | here => exact .inl flaw
    | into enters leads => exact .inr ⟨_, _, _, _, enters, rfl, _, _, _, _, rfl, leads, flaw⟩
  · rintro (flaw | ⟨step, rest, declared, part, enters, rfl, path, end', _, _, rfl, leads, flaw⟩)
    · exact ⟨[], place, shape, value, rfl, .here, flaw⟩
    · exact ⟨step :: path, end', _, _, rfl, .into enters leads, flaw⟩

/-- The faults of an array are those of its items, one after the other. -/
theorem Shape.faults_items (item : Shape) (items : List Value) :
    (Shape.list item).faults telling (.array items) = items.zipIdx.flatMap fun part =>
      (item.faults telling part.1).map (Fault.under (.index part.2)) := by
  rw [faults]

/-- The faults of an object's member of some name, for which a field is declared. -/
def memberFaults (telling : Telling) (members : Members) (name : Text) (presence : Presence)
    (shape : Shape) : List Fault :=
  match member? name members with
  | none => if presence = .required then [⟨[.field name], .missing⟩] else []
  | some value =>
    if presence = .optional ∧ value.isNull then []
    else (shape.faults telling value).map (Fault.under (.field name))

theorem Fields.faults_eq (fields : Fields) (members : Members) :
    fields.faults telling members = fields.declared.flatMap fun field =>
      memberFaults telling members field.1 field.2.1 field.2.2 := by
  cases fields with
  | none => rfl
  | field name presence shape others =>
    rw [faults, declared, List.flatMap_cons, others.faults_eq members]
    rfl

theorem mem_memberFaults_iff {members : Members} {name : Text} {presence : Presence}
    {shape : Shape} {fault : Fault} :
    fault ∈ memberFaults telling members name presence shape ↔
      (presence = .required ∧ member? name members = none ∧ fault = ⟨[.field name], .missing⟩) ∨
      ∃ part inner, member? name members = some part ∧ ¬ (presence = .optional ∧ part = .null) ∧
        inner ∈ shape.faults telling part ∧ fault = inner.under (.field name) := by
  rw [memberFaults]
  cases found : member? name members with
  | none => cases presence <;> simp
  | some part =>
    simp only [← value_isNull_iff, reduceCtorEq, false_and, and_false, false_or,
      Option.some.injEq]
    split
    · rename_i null
      refine iff_of_false List.not_mem_nil ?_
      rintro ⟨_, _, rfl, other, _⟩
      exact other null
    · rename_i other
      rw [List.mem_map]
      constructor
      · rintro ⟨inner, member, rfl⟩
        exact ⟨part, inner, rfl, other, member, rfl⟩
      · rintro ⟨_, inner, rfl, _, member, rfl⟩
        exact ⟨inner, member, rfl⟩

/-- A fault of an object is told of a declared field or of an undeclared member. -/
theorem Shape.mem_faults_record_iff {fields : Fields} {members : Members} {fault : Fault} :
    fault ∈ (Shape.record fields).faults telling (.object members) ↔
      (∃ name presence shape, (name, presence, shape) ∈ fields.declared ∧
        fault ∈ memberFaults telling members name presence shape) ∨
      ∃ name, (name ∈ members.map Prod.fst ∧ name ∉ fields.names) ∧
        fault = ⟨[.field name], .undeclared⟩ := by
  have blocks : fault ∈ (Shape.record fields).faults telling (.object members) ↔
      fault ∈ fields.faults telling members ∨
        fault ∈ undeclaredFaults telling fields members := by
    rw [faults]
    split
    · rw [List.mem_append, or_comm]
    · rw [List.mem_append]
  rw [blocks, Fields.faults_eq, List.mem_flatMap, undeclaredFaults, List.mem_map]
  simp only [mem_undeclared_iff, Prod.exists, eq_comm]

theorem faults_text {value : Value} (other : ∀ text, value ≠ .string text) :
    Shape.text.faults telling value = [⟨[], .notText⟩] := by
  cases value with
  | string text => exact absurd rfl (other text)
  | _ => rfl

theorem faults_list {item : Shape} {value : Value} (other : ∀ items, value ≠ .array items) :
    (Shape.list item).faults telling value = [⟨[], .notList⟩] := by
  cases value with
  | array items => exact absurd rfl (other items)
  | _ => rfl

theorem faults_record {fields : Fields} {value : Value}
    (other : ∀ members, value ≠ .object members) :
    (Shape.record fields).faults telling value = [⟨[], .notRecord⟩] := by
  cases value with
  | object members => exact absurd rfl (other members)
  | _ => rfl

/-- A flaw of the value itself is on the list, and so are the faults of its parts. -/
theorem Shape.mem_faults {shape : Shape} {value : Value} {fault : Fault}
    (real : Flaw shape value fault.path fault.cause ∨
      ∃ step declared part inner, Enters shape value step declared part ∧
        inner ∈ declared.faults telling part ∧ fault = inner.under step) : fault ∈ shape.faults telling value := by
  rcases real with flaw | ⟨step, declared, part, inner, enters, member, rfl⟩
  · obtain ⟨path, cause⟩ := fault
    cases flaw with
    | missing member absent =>
      exact Shape.mem_faults_record_iff.mpr
        (.inl ⟨_, _, _, member, mem_memberFaults_iff.mpr (.inl ⟨rfl, absent, rfl⟩)⟩)
    | undeclared member absent =>
      exact Shape.mem_faults_record_iff.mpr (.inr ⟨_, ⟨member, absent⟩, rfl⟩)
    | notText other => exact faults_text other ▸ List.mem_singleton_self _
    | notList other => exact faults_list other ▸ List.mem_singleton_self _
    | notRecord other => exact faults_record other ▸ List.mem_singleton_self _
  · cases enters with
    | item found =>
      rw [faults_items, List.mem_flatMap]
      exact ⟨_, List.mk_mem_zipIdx_iff_getElem?.mpr found, List.mem_map_of_mem member⟩
    | field field found present =>
      have listed := mem_memberFaults_iff.mpr (.inr ⟨_, inner, found, present, member, rfl⟩)
      exact Shape.mem_faults_record_iff.mpr (.inl ⟨_, _, _, field, listed⟩)

/-- What is on the list is a flaw of the value itself or a fault of one of its parts. -/
theorem Shape.of_mem_faults {shape : Shape} {value : Value} {fault : Fault}
    (member : fault ∈ shape.faults telling value) : Flaw shape value fault.path fault.cause ∨
      ∃ step declared part inner, Enters shape value step declared part ∧
        inner ∈ declared.faults telling part ∧ fault = inner.under step := by
  cases shape with
  | text =>
    by_cases kind : ∃ text, value = .string text
    · obtain ⟨text, rfl⟩ := kind
      exact absurd member List.not_mem_nil
    · have other : ∀ text, value ≠ .string text := not_exists.mp kind
      rw [faults_text other, List.mem_singleton] at member
      exact .inl (member ▸ .notText other)
  | list item =>
    by_cases kind : ∃ items, value = .array items
    · obtain ⟨items, rfl⟩ := kind
      rw [faults_items, List.mem_flatMap] at member
      obtain ⟨⟨part, position⟩, indexed, listed⟩ := member
      obtain ⟨inner, inside, rfl⟩ := List.mem_map.mp listed
      have found := List.mk_mem_zipIdx_iff_getElem?.mp indexed
      exact .inr ⟨_, _, _, inner, .item found, inside, rfl⟩
    · have other : ∀ items, value ≠ .array items := not_exists.mp kind
      rw [faults_list other, List.mem_singleton] at member
      exact .inl (member ▸ .notList other)
  | record fields =>
    by_cases kind : ∃ members, value = .object members
    · obtain ⟨members, rfl⟩ := kind
      rcases Shape.mem_faults_record_iff.mp member with
        ⟨name, presence, shape, field, listed⟩ | ⟨name, ⟨written, absent⟩, rfl⟩
      · rcases mem_memberFaults_iff.mp listed with
          ⟨rfl, absent, rfl⟩ | ⟨part, inner, found, present, inside, rfl⟩
        · exact .inl (.missing field absent)
        · exact .inr ⟨_, _, _, inner, .field field found present, inside, rfl⟩
      · exact .inl (.undeclared written absent)
    · have other : ∀ members, value ≠ .object members := not_exists.mp kind
      rw [faults_record other, List.mem_singleton] at member
      exact .inl (member ▸ .notRecord other)

/-- **The list holds exactly the faults of a value.** -/
theorem Shape.mem_faults_iff (shape : Shape) {value : Value} {fault : Fault} :
    fault ∈ shape.faults telling value ↔ FaultAt shape value fault.path fault.cause := by
  induction shape using Shape.induction generalizing value fault with
  | whole shape inside =>
    rw [faultAt_iff]
    constructor
    · intro listed
      refine (Shape.of_mem_faults listed).imp_right ?_
      rintro ⟨step, declared, part, inner, enters, member, rfl⟩
      exact ⟨step, inner.path, declared, part, enters, rfl, (inside _ _ _ _ enters).mp member⟩
    · intro real
      refine Shape.mem_faults (real.imp_right ?_)
      rintro ⟨step, rest, declared, part, enters, place, deeper⟩
      obtain ⟨path, cause⟩ := fault
      obtain rfl : path = step :: rest := place
      exact ⟨step, declared, part, ⟨rest, cause⟩, enters, (inside _ _ _ _ enters).mpr deeper, rfl⟩

end Handbook.Schema
