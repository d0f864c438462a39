/-
**What is told about a document that is not of its shape.**

A blob may be JSON and still be no document. The failure then accounts for the value that the blob
writes: it lists all its faults and nothing else, in the order of a walk through the value, and each
once, save that a repeated name may be told as often as it stands. The message quotes the first one.
Of a blob that is nested too deeply or has too long a number to be read no fault of a value is told,
only that it cannot be read.

* `parse_unfit`: the failure of a blob that writes no value of the shape;
* `parse_towering`: brackets that are too deep to be read are JSON, but told to be none.
-/

import Handbook.Proofs.Document.Parse
import Handbook.Proofs.Schema.Walk

namespace Handbook

open Json Schema

/-- A value of another shape has a fault. -/
theorem exists_fault (telling : Telling) {shape : Shape} {value : Value}
    (unfit : ¬ shape.Conforms value) :
    ∃ first others, shape.faults telling value = first :: others :=
  List.exists_cons_of_ne_nil (mt (shape.faults_eq_nil_iff value).mp unfit)

theorem parse_of_faults {telling : Telling} {kind : Kind} {blob : Bytes} {value : Value} {first : Schema.Fault}
    {others : List Schema.Fault} (writes : Writes nestingLimit blob value)
    (faults : kind.shape.faults telling value = first :: others) :
    parseTelling telling kind blob =
      .error (.malformed kind.name ((first :: others).map Report.ofFault)) := by
  rw [parseTelling, read_eq_ok_iff.mpr writes]
  simp only [faults]

/-- A blob that writes no value has one fault: that it cannot be read. -/
theorem parse_of_unread {telling : Telling} {kind : Kind} {blob : Bytes} {fault : Json.Fault}
    (unread : Json.read blob = .error fault) :
    parseTelling telling kind blob = .error (.malformed kind.name [.ofJsonFault fault]) := by
  rw [parseTelling, unread]

/-- **A blob that writes a value of another shape than that of its kind fails with a list that
accounts for the value**: it holds the faults of the value and nothing else, in the order of a walk
through it, and each once, save that a repeated name may be told as often as it stands. The message
quotes the first one, and the details tell the place of each and what it is. A blob that writes no
value that can be read fails with one report, at no place, that it cannot be read. -/
theorem parse_unfit (telling : Telling) (kind : Kind) (blob : Bytes) :
    (∀ value, Writes nestingLimit blob value → ¬ kind.shape.Conforms value →
      ∃ (failure : Failure) (first : Schema.Fault) (others : List Schema.Fault),
        parseTelling telling kind blob = .error failure ∧
        Accounts telling kind.shape value (first :: others) ∧
        failure.message = "could not parse ".toList ++ kind.name ++ " documentation: ".toList ++
          first.cause.message ∧
        failure.details? = some (.record [("kind", .string kind.name),
          ("errors", .array ((first :: others).map fun fault => .record
            [("loc", .array (fault.path.map Step.toValue)), ("msg", .string fault.cause.message),
              ("type", .string fault.cause.code.toList)]))])) ∧
    ((∀ value, ¬ Writes nestingLimit blob value) →
      ∃ (failure : Failure) (fault : Json.Fault),
        parseTelling telling kind blob = .error failure ∧
        failure.message = "could not parse ".toList ++ kind.name ++ " documentation: ".toList ++
          fault.message ∧
        failure.details? = some (.record [("kind", .string kind.name),
          ("errors", .array [.record [("loc", .array []), ("msg", .string fault.message),
            ("type", .string "json_invalid".toList)]])])) := by
  constructor
  · intro value writes unfit
    obtain ⟨first, others, faults⟩ := exists_fault telling unfit
    have accounts : Accounts telling kind.shape value (kind.shape.faults telling value) :=
      kind.shape.faults_accounts (shape_distinct kind) value
    rw [faults] at accounts
    refine ⟨_, first, others, parse_of_faults writes faults, accounts, rfl, ?_⟩
    simp only [Failure.details?, List.map_map]
    rfl
  · intro unwritten
    cases unread : Json.read blob with
    | ok value => exact absurd (read_eq_ok_iff.mp unread) (unwritten value)
    | error fault => exact ⟨_, fault, parse_of_unread unread, rfl, rfl⟩

/-- An entry whose name is null, with a field of no entry, and then a truth value. -/
def muddled : Bytes := Utf8.encode "[\x7b\"name\":null,\"size\":true\x7d,false]".toList

/-- The members of the muddled entry. -/
def muddledEntry : Members := [("name".toList, .null), ("size".toList, .bool true)]

/-- The name is no string, two more fields are missing, one is not declared, and the truth value is
no entry. -/
theorem parse_unfit_muddled : ∃ failure : Failure, parse .aggregates muddled = .error failure ∧
    ∃ faults : List Schema.Fault, failure.details? = some (.record
      [("kind", .string "aggregates".toList), ("errors", .array (faults.map fun fault => .record
        [("loc", .array (fault.path.map Step.toValue)), ("msg", .string fault.cause.message),
          ("type", .string fault.cause.code.toList)]))]) ∧
      ⟨[.index 0, .field "name".toList], .notText⟩ ∈ faults ∧
      ⟨[.index 0, .field "returns".toList], .missing⟩ ∈ faults ∧
      ⟨[.index 0, .field "size".toList], .undeclared⟩ ∈ faults ∧
      ⟨[.index 1], .notRecord⟩ ∈ faults := by
  have member : ∀ (name word : String) (value : Value),
      (name.toList.all fun c => 0x20 ≤ c.toNat && c != '"' && c != '\\') →
      words.lookup word = some value →
      SpellsMember (Spells 198) (name.toList, value) _ := fun name word value plain listed =>
    .member (SpellsText.plain plain) .nil .nil (.word (mem_words word listed))
  have entry : Spells 199 (.object muddledEntry) _ := .object .nil <|
    .next (member "name" "null" .null (by decide) rfl) .nil .nil <|
      .last (member "size" "true" (.bool true) (by decide) rfl) .nil
  have last : Spells 199 (.bool false) _ := .word (mem_words "false" rfl)
  have writes : Writes nestingLimit muddled (.array [.object muddledEntry, .bool false]) :=
    ⟨[], _, [], .nil, .array .nil (.next entry .nil .nil (.last last .nil)), .nil, by decide⟩
  have faulty : (Kind.shape .aggregates).faults .customary
      (.array [.object muddledEntry, .bool false]) ≠ [] := by decide
  have unfit : ¬ (Kind.shape .aggregates).Conforms (.array [.object muddledEntry, .bool false]) :=
    mt (Shape.faults_eq_nil_iff _ _).mpr faulty
  obtain ⟨failure, first, others, failed, accounts, _, details⟩ :=
    (parse_unfit .customary .aggregates muddled).1 _ writes unfit
  have inside : ∀ {position part path cause},
      [Value.object muddledEntry, .bool false][position]? = some part →
      FaultAt entryShape part path cause → ⟨.index position :: path, cause⟩ ∈ first :: others :=
    fun found fault =>
      (accounts.whole _).mpr (faultAt_iff.mpr (.inr ⟨_, _, _, _, .item found, rfl, fault⟩))
  have name : FaultAt entryShape (.object muddledEntry) [.field "name".toList] .notText :=
    faultAt_iff.mpr <| .inr ⟨_, [], _, _, .field (.head _) rfl nofun, rfl,
      faultAt_iff.mpr (.inl (.notText nofun))⟩
  have returns : FaultAt entryShape (.object muddledEntry) [.field "returns".toList] .missing :=
    faultAt_iff.mpr (.inl (.missing (.tail _ (.tail _ (.head _))) rfl))
  have size : FaultAt entryShape (.object muddledEntry) [.field "size".toList] .undeclared :=
    faultAt_iff.mpr (.inl (.undeclared (by decide) (by decide)))
  have last : FaultAt entryShape (.bool false) [] .notRecord :=
    faultAt_iff.mpr (.inl (.notRecord nofun))
  exact ⟨failure, failed, first :: others, details, inside rfl name, inside rfl returns,
    inside rfl size, inside rfl last⟩

/-- What is told of a fault of a value is never told of a blob that cannot be read. -/
theorem Report.ofFault_ne (fault : Schema.Fault) (unread : Json.Fault) :
    (Report.ofFault fault).details ≠ (Report.ofJsonFault unread).details := by
  intro same
  have code : fault.cause.code.toList = "json_invalid".toList := by
    simp only [Report.ofFault, Report.ofJsonFault, Report.make, Value.record, List.map_cons,
      Value.object.injEq, List.cons.injEq, Prod.mk.injEq, Value.string.injEq] at same
    exact same.2.2.1.2
  revert code
  cases fault.cause <;> decide

/-- Arrays in one another, so many of them around an empty one. -/
def tower : (height : Nat) → Value
  | 0 => .array []
  | height + 1 => .array [tower height]

theorem spells_tower (height : Nat) : Spells height (tower height)
    (List.replicate (height + 1) 0x5B ++ List.replicate (height + 1) 0x5D) := by
  induction height with
  | zero => exact .emptyArray .nil
  | succ height inner =>
    have whole : List.replicate (height + 2) (0x5B : UInt8) ++ List.replicate (height + 2) 0x5D =
        0x5B :: ([] ++ ((List.replicate (height + 1) 0x5B ++ List.replicate (height + 1) 0x5D) ++
          [] ++ [0x5D])) := by
      rw [List.replicate_succ, List.replicate_succ' (n := height + 1)]
      simp
    rw [whole]
    exact .array .nil (.last inner .nil)

/-- More brackets than can be open at once. -/
def towering : Bytes := List.replicate 202 0x5B ++ List.replicate 202 0x5D

/-- The brackets write an array of arrays, where an object is declared for each item, but what is
told lists no fault of a value. -/
theorem parse_towering : ∃ levels value, Writes levels towering value ∧
    ¬ (Kind.shape .aggregates).Conforms value ∧
    ∃ failure, parse .aggregates towering = .error failure ∧
      ¬ ∃ faults : List Schema.Fault, failure.details? = some (.record
        [("kind", .string "aggregates".toList), ("errors", .array (faults.map fun fault => .record
          [("loc", .array (fault.path.map Step.toValue)), ("msg", .string fault.cause.message),
            ("type", .string fault.cause.code.toList)]))]) := by
  have writes : Writes 201 towering (tower 201) :=
    ⟨[], _, [], .nil, spells_tower 201, .nil, (List.append_nil _).symm⟩
  have unfit : ¬ (Kind.shape .aggregates).Conforms (tower 201) := by
    rintro ⟨items, same, all⟩
    obtain rfl : [tower 200] = items := Value.array.inj same
    obtain ⟨members, same, _⟩ := all (tower 200) (.head _)
    cases same
  have unread : (Json.read towering).toBool = false := by decide +kernel
  cases read : Json.read towering with
  | ok value => rw [read] at unread; cases unread
  | error fault =>
    refine ⟨201, tower 201, writes, unfit, _, parse_of_unread read, ?_⟩
    rintro ⟨faults, told⟩
    simp only [Failure.details?, Value.record, Option.some.injEq, Value.object.injEq,
      Value.array.injEq, List.map_cons, List.map_nil, List.cons.injEq, Prod.mk.injEq] at told
    have listed : [(Report.ofJsonFault fault).details] =
        faults.map fun fault => (Report.ofFault fault).details := told.2.1.2
    obtain ⟨other, _, same⟩ := List.map_eq_singleton_iff.mp listed.symm
    exact Report.ofFault_ne other fault same

end Handbook
