/-
**The order in which faults are told.**

Faults are told on a walk through the value: the items of a list one after another, and in an object
the declared fields as they are declared. The undeclared members of an object are told of together,
in the order in which they stand in it, ahead of the declared fields or behind them. Only they can be
told of repeatedly, and only if the telling repeats names.

* `Precedes.asymm`: of two places only one comes before the other;
* `Shape.faults_pairwise`: the list is in the order of the walk;
* `Shape.faults_together`: the undeclared members of one object are told of together;
* `Shape.faults_accounts`: the list accounts for the value.
-/

import Handbook.Proofs.Distinct
import Handbook.Proofs.Schema.Fault

namespace Handbook.Schema

open Json

variable {telling : Telling}

/-! ### The walk -/

/-- The rank of a name on a walk through an object: the declared names come in their order, and the
others have one rank, ahead of them or behind them. -/
def rank (telling : Telling) (fields : Fields) (name : Text) : Nat :=
  if telling.ahead ∧ name ∉ fields.names then 0 else fields.names.idxOf name + 1

/-- The order of the steps into the parts of a value. -/
inductive Earlier (telling : Telling) : Shape → Value → Step → Step → Prop where
  | items {item items first second} : first < second →
      Earlier telling (.list item) (.array items) (.index first) (.index second)
  | fields {fields members first second} :
      rank telling fields first < rank telling fields second →
      Earlier telling (.record fields) (.object members) (.field first) (.field second)

/-- The order of places on a walk through a value. -/
inductive Precedes (telling : Telling) : Shape → Value → List Step → List Step → Prop where
  | before {shape value first second path path'} : Earlier telling shape value first second →
      Precedes telling shape value (first :: path) (second :: path')
  | inside {shape value step declared part path path'} : Enters shape value step declared part →
      Precedes telling declared part path path' →
      Precedes telling shape value (step :: path) (step :: path')

/-- Two faults that tell of undeclared members of one object. -/
def Beside (one two : Fault) : Prop :=
  ∃ object first second, one = ⟨object ++ [.field first], .undeclared⟩ ∧
    two = ⟨object ++ [.field second], .undeclared⟩

/-- One fault may be told before another: its place comes before that of the other, or both tell of
undeclared members of one object. -/
def Follows (telling : Telling) (shape : Shape) (value : Value) (one two : Fault) : Prop :=
  Precedes telling shape value one.path two.path ∨ Beside one two

/-- A list tells of some undeclared members of an object together, and nowhere else. -/
def Together (faults : List Fault) (object : List Step) (names : List Text) : Prop :=
  ∃ before after,
    faults = before ++ names.map (fun name => ⟨object ++ [.field name], .undeclared⟩) ++ after ∧
    ∀ fault ∈ before ++ after, ∀ name, fault ≠ ⟨object ++ [.field name], .undeclared⟩

/-- A list of faults accounts for a value: it holds the faults of the value and nothing else, in the
order of the walk, with the undeclared members of each object as they stand in it. It holds each
once, save that a name may be told as often as it stands. -/
structure Accounts (telling : Telling) (shape : Shape) (value : Value) (faults : List Fault) :
    Prop where
  whole : ∀ fault, fault ∈ faults ↔ FaultAt shape value fault.path fault.cause
  walk : faults.Pairwise (Follows telling shape value)
  standing : ∀ object fields members names,
    Leads shape value object (.record fields) (.object members) →
    names = (members.map Prod.fst).filter (· ∉ fields.names) →
    Together faults object (if telling.repeated then names else names.eraseDups)
  once : ∀ fault ∈ faults, fault.cause ≠ .undeclared ∨ telling.repeated = false →
    faults.count fault = 1

theorem Earlier.asymm {shape : Shape} {value : Value} {first second : Step}
    (earlier : Earlier telling shape value first second) :
    ¬ Earlier telling shape value second first := by
  intro later
  cases earlier with
  | items before =>
    cases later with
    | items after => exact Nat.lt_asymm before after
  | fields before =>
    cases later with
    | fields after => exact Nat.lt_asymm before after

/-- **Of two places only one comes before the other**, and so no place comes before itself. -/
theorem Precedes.asymm {shape : Shape} (distinct : shape.Distinct) {value : Value}
    {first second : List Step} (precedes : Precedes telling shape value first second) :
    ¬ Precedes telling shape value second first := by
  induction precedes with
  | before earlier =>
    intro later
    cases later with
    | before earlier' => exact earlier.asymm earlier'
    | inside _ _ => exact earlier.asymm earlier
  | inside enters _ step =>
    intro later
    cases later with
    | before earlier => exact earlier.asymm earlier
    | inside enters' deeper =>
      obtain ⟨rfl, rfl⟩ := enters.unique distinct enters'
      exact step (enters.distinct distinct) deeper

/-- Only of an undeclared member may be told before itself. -/
theorem Follows.undeclared {shape : Shape} (distinct : shape.Distinct) {value : Value}
    {fault : Fault} (follows : Follows telling shape value fault fault) :
    fault.cause = .undeclared := by
  rcases follows with before | ⟨object, name, _, rfl, _⟩
  · exact absurd before (before.asymm distinct)
  · rfl

/-- Faults of a part are told in the same order as those of the whole. -/
theorem Follows.inside {shape declared : Shape} {value part : Value} {step : Step}
    (enters : Enters shape value step declared part) {one two : Fault}
    (follows : Follows telling declared part one two) :
    Follows telling shape value (one.under step) (two.under step) := by
  rcases follows with before | ⟨object, first, second, rfl, rfl⟩
  · exact .inl (.inside enters before)
  · exact .inr ⟨step :: object, first, second, rfl, rfl⟩

/-! ### The names of an object -/

theorem rank_of_mem {fields : Fields} {name : Text} (declared : name ∈ fields.names) :
    rank telling fields name = fields.names.idxOf name + 1 :=
  if_neg fun other => other.2 declared

/-- Undeclared names are ahead of the declared ones. -/
theorem rank_ahead {fields : Fields} {name other : Text} (ahead : telling.ahead = true)
    (declared : name ∈ fields.names) (undeclared : other ∉ fields.names) :
    rank telling fields other < rank telling fields name := by
  rw [rank_of_mem declared, rank, if_pos ⟨ahead, undeclared⟩]
  exact Nat.succ_pos _

/-- Undeclared names are behind the declared ones. -/
theorem rank_behind {fields : Fields} {name other : Text} (behind : ¬ telling.ahead = true)
    (declared : name ∈ fields.names) (undeclared : other ∉ fields.names) :
    rank telling fields name < rank telling fields other := by
  rw [rank_of_mem declared, rank, if_neg fun both => behind both.1,
    List.idxOf_eq_length undeclared]
  exact Nat.succ_lt_succ (List.idxOf_lt_length_of_mem declared)

/-- The declared names are in the order of their ranks. -/
theorem pairwise_rank {fields : Fields} (distinct : fields.names.Nodup) :
    fields.names.Pairwise fun first second =>
      rank telling fields first < rank telling fields second := by
  rw [List.pairwise_iff_getElem]
  intro first second short long before
  rw [rank_of_mem (List.getElem_mem short), rank_of_mem (List.getElem_mem long),
    distinct.idxOf_getElem, distinct.idxOf_getElem]
  exact Nat.succ_lt_succ before

theorem undeclared_eq {fields : Fields} {members : Members} {names : List Text}
    (standing : names = (members.map Prod.fst).filter (· ∉ fields.names)) :
    undeclared telling fields members =
      if telling.repeated then names else names.eraseDups := by
  simp [undeclared, standing]

/-! ### The order of the list -/

/-- The faults of a member are at the member or inside it. -/
theorem path_of_mem_memberFaults {members : Members} {name : Text} {presence : Presence}
    {shape : Shape} {fault : Fault}
    (member : fault ∈ memberFaults telling members name presence shape) :
    ∃ rest, fault.path = .field name :: rest := by
  rcases mem_memberFaults_iff.mp member with ⟨_, _, rfl⟩ | ⟨_, inner, _, _, _, rfl⟩
  · exact ⟨[], rfl⟩
  · exact ⟨inner.path, rfl⟩

/-- Faults at members of different names are in the order of the ranks of the names. -/
theorem follows_of_rank {fields : Fields} {members : Members} {first second : Text}
    (before : rank telling fields first < rank telling fields second) {one two : Fault}
    (at_first : ∃ rest, one.path = .field first :: rest)
    (at_second : ∃ rest, two.path = .field second :: rest) :
    Follows telling (.record fields) (.object members) one two := by
  obtain ⟨_, one⟩ := at_first
  obtain ⟨_, two⟩ := at_second
  exact .inl (one ▸ two ▸ .before (.fields before))

theorem memberFaults_pairwise {fields : Fields} {members : Members} {name : Text}
    {presence : Presence} {shape : Shape} (field : (name, presence, shape) ∈ fields.declared)
    (inside : ∀ part, Enters (.record fields) (.object members) (.field name) shape part →
      (shape.faults telling part).Pairwise (Follows telling shape part)) :
    (memberFaults telling members name presence shape).Pairwise
      (Follows telling (.record fields) (.object members)) := by
  unfold memberFaults
  split
  · split
    · exact List.pairwise_singleton ..
    · exact .nil
  · rename_i part found
    split
    · exact .nil
    · rename_i other
      rw [value_isNull_iff] at other
      have enters : Enters (.record fields) (.object members) (.field name) shape part :=
        .field field found other
      rw [List.pairwise_map]
      exact (inside part enters).imp (.inside enters)

/-- The faults of an array are in order if those of its items are: item after item. -/
theorem list_faults_pairwise {item : Shape} {items : List Value}
    (inside : ∀ position part, Enters (.list item) (.array items) (.index position) item part →
      (item.faults telling part).Pairwise (Follows telling item part)) :
    ((Shape.list item).faults telling (.array items)).Pairwise
      (Follows telling (.list item) (.array items)) := by
  have positions : items.zipIdx.Pairwise fun first second => first.2 < second.2 := by
    rw [← List.pairwise_map (f := Prod.snd), List.zipIdx_map_snd]
    exact List.pairwise_lt_range' 1
  rw [Shape.faults_items, List.pairwise_flatMap]
  constructor
  · rintro ⟨part, position⟩ indexed
    have enters : Enters (.list item) (.array items) (.index position) item part :=
      .item (List.mk_mem_zipIdx_iff_getElem?.mp indexed)
    rw [List.pairwise_map]
    exact (inside position part enters).imp (.inside enters)
  · refine positions.imp fun before one first two second => ?_
    obtain ⟨_, _, rfl⟩ := List.mem_map.mp first
    obtain ⟨_, _, rfl⟩ := List.mem_map.mp second
    exact .inl (.before (.items before))

/-- The faults of the declared fields are in order if those of the members are: field after field
as they are declared. -/
theorem fields_faults_pairwise {fields : Fields} {members : Members}
    (distinct : fields.names.Nodup)
    (inside : ∀ name shape part,
      Enters (.record fields) (.object members) (.field name) shape part →
      (shape.faults telling part).Pairwise (Follows telling shape part)) :
    (fields.faults telling members).Pairwise
      (Follows telling (.record fields) (.object members)) := by
  have ranks := @pairwise_rank telling fields distinct
  rw [fields.names_eq, List.pairwise_map] at ranks
  rw [Fields.faults_eq, List.pairwise_flatMap]
  constructor
  · rintro ⟨name, presence, shape⟩ field
    exact memberFaults_pairwise field (inside name shape)
  · exact ranks.imp fun before one atFirst two atSecond =>
      follows_of_rank before (path_of_mem_memberFaults atFirst)
        (path_of_mem_memberFaults atSecond)

/-- A fault of a declared field and one of an undeclared member. -/
theorem mem_blocks {fields : Fields} {members : Members} {one two : Fault}
    (first : one ∈ fields.faults telling members)
    (second : two ∈ undeclaredFaults telling fields members) :
    ∃ name other, name ∈ fields.names ∧ other ∉ fields.names ∧
      (∃ rest, one.path = .field name :: rest) ∧ two = ⟨[.field other], .undeclared⟩ := by
  rw [Fields.faults_eq, List.mem_flatMap] at first
  obtain ⟨⟨name, presence, shape⟩, field, listed⟩ := first
  obtain ⟨other, undeclared, rfl⟩ := List.mem_map.mp second
  exact ⟨name, other, fields.names_eq ▸ List.mem_map_of_mem field,
    (mem_undeclared_iff.mp undeclared).2, path_of_mem_memberFaults listed, rfl⟩

/-- The faults of an object are in order if those of its declared fields are. -/
theorem record_faults_pairwise {fields : Fields} {members : Members}
    (declared : (fields.faults telling members).Pairwise
      (Follows telling (.record fields) (.object members))) :
    ((Shape.record fields).faults telling (.object members)).Pairwise
      (Follows telling (.record fields) (.object members)) := by
  have undeclared : (undeclaredFaults telling fields members).Pairwise
      (Follows telling (.record fields) (.object members)) := by
    rw [undeclaredFaults, List.pairwise_map]
    exact List.pairwise_of_forall fun first second => .inr ⟨[], first, second, rfl, rfl⟩
  rw [Shape.faults]
  split
  · rename_i ahead
    refine List.pairwise_append.mpr ⟨undeclared, declared, fun one atFirst two atSecond => ?_⟩
    obtain ⟨name, other, inside, outside, path, rfl⟩ := mem_blocks atSecond atFirst
    exact follows_of_rank (rank_ahead ahead inside outside) ⟨[], rfl⟩ path
  · rename_i behind
    refine List.pairwise_append.mpr ⟨declared, undeclared, fun one atFirst two atSecond => ?_⟩
    obtain ⟨name, other, inside, outside, path, rfl⟩ := mem_blocks atFirst atSecond
    exact follows_of_rank (rank_behind behind inside outside) path ⟨[], rfl⟩

/-- **The list is in the order of the walk.** -/
theorem Shape.faults_pairwise (shape : Shape) (distinct : shape.Distinct) (value : Value) :
    (shape.faults telling value).Pairwise (Follows telling shape value) := by
  induction shape using Shape.induction generalizing value with
  | whole shape inside =>
    cases shape with
    | text =>
      by_cases kind : ∃ text, value = .string text
      · obtain ⟨text, rfl⟩ := kind
        exact .nil
      · rw [faults_text (not_exists.mp kind)]
        exact List.pairwise_singleton ..
    | list item =>
      by_cases kind : ∃ items, value = .array items
      · obtain ⟨items, rfl⟩ := kind
        exact list_faults_pairwise fun position part enters =>
          inside _ _ _ _ enters (enters.distinct distinct) part
      · rw [faults_list (not_exists.mp kind)]
        exact List.pairwise_singleton ..
    | record fields =>
      by_cases kind : ∃ members, value = .object members
      · obtain ⟨members, rfl⟩ := kind
        exact record_faults_pairwise <| fields_faults_pairwise distinct.1
          fun name shape part enters => inside _ _ _ _ enters (enters.distinct distinct) part
      · rw [faults_record (not_exists.mp kind)]
        exact List.pairwise_singleton ..

/-! ### The undeclared members of an object -/

/-- What one item of a list gives stands between what the items of other keys give. -/
theorem flatMap_around {Item Key : Type} {key : Item → Key} {items : List Item} {item : Item}
    (distinct : (items.map key).Nodup) (member : item ∈ items) (faults : Item → List Fault) :
    ∃ before after, items.flatMap faults = before ++ faults item ++ after ∧
      ∀ fault ∈ before ++ after, ∃ other ∈ items, key other ≠ key item ∧ fault ∈ faults other := by
  obtain ⟨first, second, rfl⟩ := List.append_of_mem member
  refine ⟨first.flatMap faults, second.flatMap faults, by simp, fun fault listed => ?_⟩
  rw [← List.flatMap_append, List.mem_flatMap] at listed
  obtain ⟨other, around, inside⟩ := listed
  rw [List.map_append, List.map_cons, List.nodup_middle, ← List.map_append,
    List.nodup_cons] at distinct
  refine ⟨other, ?_, fun same => distinct.1 (same ▸ List.mem_map_of_mem around), inside⟩
  rcases List.mem_append.mp around with early | late
  · exact List.mem_append_left _ early
  · exact List.mem_append_right _ (.tail _ late)

namespace Together

variable {faults : List Fault} {object : List Step} {names : List Text}

/-- Other faults may be told before. -/
theorem behind {front : List Fault} (together : Together faults object names)
    (others : ∀ fault ∈ front, ∀ name, fault ≠ ⟨object ++ [.field name], .undeclared⟩) :
    Together (front ++ faults) object names := by
  obtain ⟨before, after, rfl, elsewhere⟩ := together
  refine ⟨front ++ before, after, by simp only [List.append_assoc], fun fault listed => ?_⟩
  rw [List.append_assoc] at listed
  rcases List.mem_append.mp listed with first | rest
  · exact others fault first
  · exact elsewhere fault rest

/-- Other faults may be told behind. -/
theorem ahead {back : List Fault} (together : Together faults object names)
    (others : ∀ fault ∈ back, ∀ name, fault ≠ ⟨object ++ [.field name], .undeclared⟩) :
    Together (faults ++ back) object names := by
  obtain ⟨before, after, rfl, elsewhere⟩ := together
  refine ⟨before, after ++ back, by simp only [List.append_assoc], fun fault listed => ?_⟩
  rw [← List.append_assoc] at listed
  rcases List.mem_append.mp listed with rest | last
  · exact elsewhere fault rest
  · exact others fault last

/-- What is told together of a part is told together of what holds it. -/
theorem under (step : Step) (together : Together faults object names) :
    Together (faults.map (Fault.under step)) (step :: object) names := by
  obtain ⟨before, after, rfl, elsewhere⟩ := together
  refine ⟨before.map (Fault.under step), after.map (Fault.under step), ?_, ?_⟩
  · simp [Fault.under]
  · intro fault listed name same
    rw [← List.map_append, List.mem_map] at listed
    obtain ⟨⟨path, cause⟩, inner, rfl⟩ := listed
    refine elsewhere _ inner name ?_
    simpa [Fault.under] using same

/-- The faults of other parts do not matter. -/
theorem inside {before after : List Fault} {step : Step} (together : Together faults object names)
    (others : ∀ fault ∈ before ++ after, ∀ rest, fault.path ≠ step :: rest) :
    Together (before ++ faults.map (Fault.under step) ++ after) (step :: object) names := by
  have differ : ∀ fault ∈ before ++ after, ∀ name,
      fault ≠ ⟨step :: object ++ [.field name], .undeclared⟩ := fun fault listed name same =>
    others fault listed (object ++ [.field name]) (same ▸ rfl)
  refine ((together.under step).behind fun fault first => ?_).ahead fun fault last => ?_
  · exact differ fault (List.mem_append_left _ first)
  · exact differ fault (List.mem_append_right _ last)

/-- What is told together of the declared fields of an object is told together of the object. -/
theorem record {fields : Fields} {members : Members}
    (together : Together (fields.faults telling members) object names) (deep : object ≠ []) :
    Together ((Shape.record fields).faults telling (.object members)) object names := by
  have shallow : ∀ fault ∈ undeclaredFaults telling fields members, ∀ name,
      fault ≠ ⟨object ++ [.field name], .undeclared⟩ := by
    intro fault listed name same
    obtain ⟨other, -, rfl⟩ := List.mem_map.mp listed
    obtain ⟨step, rest, rfl⟩ := List.exists_cons_of_ne_nil deep
    simp at same
  rw [Shape.faults]
  split
  · exact together.behind shallow
  · exact together.ahead shallow

/-- What is told together of a part is told together of the whole. -/
theorem enters {shape declared : Shape} (distinct : shape.Distinct) {value part : Value}
    {step : Step} (enters : Enters shape value step declared part)
    (together : Together (declared.faults telling part) object names) :
    Together (shape.faults telling value) (step :: object) names := by
  cases enters with
  | @item _ items position _ found =>
    have positions : (items.zipIdx.map Prod.snd).Nodup := by
      rw [List.zipIdx_map_snd]
      exact List.nodup_range' 1
    obtain ⟨before, after, around, others⟩ :=
      flatMap_around positions (List.mk_mem_zipIdx_iff_getElem?.mpr found)
        fun part => (declared.faults telling part.1).map (Fault.under (.index part.2))
    rw [Shape.faults_items, around]
    refine together.inside fun fault listed rest same => ?_
    obtain ⟨other, _, different, inside⟩ := others fault listed
    obtain ⟨inner, _, rfl⟩ := List.mem_map.mp inside
    exact different (Step.index.inj (List.cons.inj same).1)
  | @field fields members name presence _ _ field found present =>
    have names : (fields.declared.map Prod.fst).Nodup := fields.names_eq ▸ distinct.1
    obtain ⟨before, after, around, others⟩ := flatMap_around names field
      fun field => memberFaults telling members field.1 field.2.1 field.2.2
    have here : memberFaults telling members name presence declared =
        (declared.faults telling part).map (Fault.under (.field name)) := by
      rw [← value_isNull_iff] at present
      simp only [memberFaults, found, if_neg present]
    refine Together.record ?_ (List.cons_ne_nil _ _)
    rw [Fields.faults_eq, around, here]
    refine together.inside fun fault listed rest same => ?_
    obtain ⟨other, _, different, inside⟩ := others fault listed
    obtain ⟨rest', place⟩ := path_of_mem_memberFaults inside
    rw [same, List.cons.injEq] at place
    exact different (Step.field.inj place.1).symm

end Together

/-- The declared fields of an object hold no fault of an undeclared member of it. -/
theorem not_undeclared_of_mem_fields {fields : Fields} {members : Members} {fault : Fault}
    (member : fault ∈ fields.faults telling members) (name : Text) :
    fault ≠ ⟨[.field name], .undeclared⟩ := by
  rintro rfl
  rw [Fields.faults_eq, List.mem_flatMap] at member
  obtain ⟨⟨declared, presence, shape⟩, _, listed⟩ := member
  rcases mem_memberFaults_iff.mp listed with ⟨_, _, same⟩ | ⟨part, inner, _, _, inside, same⟩
  · cases same
  · -- a part has a fault of this kind at one of its own members, never at itself
    have empty : inner = ⟨[], .undeclared⟩ := by
      obtain ⟨path, cause⟩ := inner
      simp only [Fault.under, Fault.mk.injEq, List.cons.injEq] at same
      rw [same.1.2, same.2]
    rw [empty, Shape.mem_faults_iff, faultAt_iff] at inside
    rcases inside with flaw | ⟨_, _, _, _, _, place, _⟩
    · cases flaw
    · cases place

/-- The undeclared members of the whole value are told of together. -/
theorem together_here (fields : Fields) (members : Members) :
    Together ((Shape.record fields).faults telling (.object members)) []
      (undeclared telling fields members) := by
  have block : Together (undeclaredFaults telling fields members) []
      (undeclared telling fields members) := ⟨[], [], (List.append_nil _).symm, nofun⟩
  have elsewhere : ∀ fault ∈ fields.faults telling members, ∀ name,
      fault ≠ ⟨[.field name], .undeclared⟩ := fun fault => not_undeclared_of_mem_fields
  rw [Shape.faults]
  split
  · exact block.ahead elsewhere
  · exact block.behind elsewhere

/-- **The undeclared members of an object are told of together**, wherever the object is. -/
theorem Shape.faults_together {shape : Shape} (distinct : shape.Distinct) {value : Value}
    {object : List Step} {fields : Fields} {members : Members}
    (leads : Leads shape value object (.record fields) (.object members)) :
    Together (shape.faults telling value) object (undeclared telling fields members) := by
  generalize record : Shape.record fields = target at leads
  generalize filled : Value.object members = goal at leads
  induction leads with
  | here =>
    subst record filled
    exact together_here fields members
  | into enters _ step =>
    exact .enters distinct enters (step (enters.distinct distinct) record filled)

/-! ### How often a fault is told -/

/-- What never stands before itself stands once. -/
theorem count_eq_one {order : Fault → Fault → Prop} {faults : List Fault}
    (walk : faults.Pairwise order) {fault : Fault} (member : fault ∈ faults)
    (single : ¬ order fault fault) : faults.count fault = 1 := by
  have some : 0 < faults.count fault := List.count_pos_iff.mpr member
  by_contra other
  have twice : (List.replicate 2 fault).Sublist faults :=
    List.replicate_sublist_iff.mpr (by omega)
  exact single ((List.pairwise_cons.mp (walk.sublist twice)).1 fault (.head _))

/-- An undeclared member that is told with different ones is told once. -/
theorem Together.count_eq_one {faults : List Fault} {object : List Step} {names : List Text}
    (together : Together faults object names) (distinct : names.Nodup) {name : Text}
    (member : name ∈ names) : faults.count ⟨object ++ [.field name], .undeclared⟩ = 1 := by
  obtain ⟨before, after, rfl, elsewhere⟩ := together
  have first : (⟨object ++ [.field name], .undeclared⟩ : Fault) ∉ before := fun listed =>
    elsewhere _ (List.mem_append_left _ listed) name rfl
  have last : (⟨object ++ [.field name], .undeclared⟩ : Fault) ∉ after := fun listed =>
    elsewhere _ (List.mem_append_right _ listed) name rfl
  have injective : Function.Injective
      fun name => (⟨object ++ [.field name], .undeclared⟩ : Fault) := fun one two same => by
    simpa using same
  rw [List.count_append, List.count_append, List.count_eq_zero_of_not_mem first,
    List.count_eq_zero_of_not_mem last,
    List.count_eq_one_of_mem (distinct.map injective) (List.mem_map_of_mem member)]

/-- Each fault but those of undeclared members is told once. -/
theorem Shape.count_declared {shape : Shape} (distinct : shape.Distinct) {value : Value}
    {fault : Fault} (member : fault ∈ shape.faults telling value)
    (other : fault.cause ≠ .undeclared) : (shape.faults telling value).count fault = 1 :=
  count_eq_one (shape.faults_pairwise distinct value) member
    fun follows => other (follows.undeclared distinct)

/-- If names are not repeated, undeclared members are told once, too. -/
theorem Shape.count_undeclared {shape : Shape} (distinct : shape.Distinct) {value : Value}
    {fault : Fault} (member : fault ∈ shape.faults telling value)
    (isUndeclared : fault.cause = .undeclared) (single : telling.repeated = false) :
    (shape.faults telling value).count fault = 1 := by
  obtain ⟨object, rest, declared, part, place, leads, flaw⟩ := shape.mem_faults_iff.mp member
  obtain ⟨path, cause⟩ := fault
  subst isUndeclared place
  cases flaw with
  | @undeclared fields members name written absent =>
    refine (Shape.faults_together distinct leads).count_eq_one ?_
      (mem_undeclared_iff.mpr ⟨written, absent⟩)
    rw [undeclared_eq rfl, single]
    exact nodup_eraseDups _

/-- **The list of its faults accounts for a value.** -/
theorem Shape.faults_accounts (shape : Shape) (distinct : shape.Distinct) (value : Value) :
    Accounts telling shape value (shape.faults telling value) where
  whole _ := shape.mem_faults_iff
  walk := shape.faults_pairwise distinct value
  standing object fields members names leads standing :=
    undeclared_eq standing ▸ Shape.faults_together distinct leads
  once fault member cause := by
    by_cases isUndeclared : fault.cause = .undeclared
    · exact Shape.count_undeclared distinct member isUndeclared
        (cause.resolve_left (not_not_intro isUndeclared))
    · exact Shape.count_declared distinct member isUndeclared

/-- A field is missing, and a name of no field stands twice. -/
example :
    let shape := Shape.record (.field "a".toList .required .text .none)
    let value := Value.object [("x".toList, .null), ("x".toList, .null)]
    let missing : Fault := ⟨[.field "a".toList], .missing⟩
    let undeclared : Fault := ⟨[.field "x".toList], .undeclared⟩
    shape.faults ⟨false, false⟩ value = [missing, undeclared] ∧
      shape.faults ⟨true, true⟩ value = [undeclared, undeclared, missing] := by decide

end Handbook.Schema
