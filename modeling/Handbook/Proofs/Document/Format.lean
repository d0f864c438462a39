/-
**Documents and their JSON form.**

A type of documents stands for a shape if each value of the shape is read as a document, which is
written as that value completed. A document is written out in full, and no two documents are written
in the same way. All this goes from the parts of a document to the whole.

* `Represents`: a type of documents stands for a shape;
* `Represents.list`: lists stand for lists of what their items stand for;
* `Represents.required`, `Represents.optional`: the fields of a record;
* `document_represents`: the documents of each kind stand for its shape.
-/

import Handbook.Document.Format
import Handbook.Proofs.Schema.Dump

namespace Handbook

open Json Schema

/-- The values of a shape are read into a type and written from it. -/
structure Represents {Thing : Type} (shape : Shape) (read : Value → Option Thing)
    (write : Thing → Value) : Prop where
  reads : ∀ {value}, shape.Conforms value → ∃ thing, read value = some thing ∧
    write thing = shape.completed value
  dumped : ∀ thing, shape.Dumped (write thing)
  injective : ∀ {one other}, write one = write other → one = other

variable {Thing : Type} {shape : Shape} {read : Value → Option Thing} {write : Thing → Value}

/-! ### Texts and lists -/

theorem text_represents : Represents .text Value.text? Value.string where
  reads := by
    rintro value ⟨text, rfl⟩
    exact ⟨text, rfl, rfl⟩
  dumped text := ⟨text, rfl⟩
  injective := Value.string.inj

theorem Represents.mapM (represents : Represents shape read write) {items : List Value}
    (each : ∀ item ∈ items, shape.Conforms item) :
    ∃ things, items.mapM read = some things ∧ things.map write = items.map shape.completed := by
  induction items with
  | nil => exact ⟨[], rfl, rfl⟩
  | cons item rest step =>
    obtain ⟨first, later⟩ := List.forall_mem_cons.mp each
    obtain ⟨thing, one, written⟩ := represents.reads first
    obtain ⟨things, others, writtens⟩ := step later
    refine ⟨thing :: things, ?_, by rw [List.map_cons, List.map_cons, written, writtens]⟩
    rw [List.mapM_cons, one, others]
    rfl

/-- **Lists stand for lists of what their items stand for.** -/
theorem Represents.list (represents : Represents shape read write) :
    Represents (.list shape) (Value.list? read) fun things => .array (things.map write) where
  reads := by
    rintro value ⟨items, rfl, each⟩
    obtain ⟨things, found, written⟩ := represents.mapM each
    exact ⟨things, found, by rw [Shape.completed, written]⟩
  dumped things := by
    refine ⟨things.map write, rfl, fun part member => ?_⟩
    obtain ⟨thing, _, rfl⟩ := List.mem_map.mp member
    exact represents.dumped thing
  injective same := (List.map_inj_right fun _ _ => represents.injective).mp (Value.array.inj same)

theorem texts_represent : Represents (.list .text) texts? Value.strings := text_represents.list

/-! ### Fields -/

section

variable {name : Text} {others : Fields} {members : Members}

/-- A field that must be there. -/
theorem Represents.required (represents : Represents shape read write)
    (conform : (Fields.field name .required shape others).Conform members) :
    ∃ thing, Json.required members name read = some thing ∧
      (Fields.field name .required shape others).completed members =
        (name, write thing) :: others.completed members := by
  have first := conform.1
  rw [Fields.completed]
  unfold Json.required
  cases found : member? name members with
  | none => simp [found] at first
  | some value =>
    simp only [found, reduceCtorEq, false_and, or_false] at first
    obtain ⟨thing, one, written⟩ := represents.reads first
    exact ⟨thing, one, by rw [written]; rfl⟩

/-- A field that may be missing or null. -/
theorem Represents.optional (represents : Represents shape read write)
    (conform : (Fields.field name .optional shape others).Conform members) :
    ∃ thing, Json.optional members name read = some thing ∧
      (Fields.field name .optional shape others).completed members =
        (name, .ofOption (thing.map write)) :: others.completed members := by
  have first := conform.1
  rw [Fields.completed]
  unfold Json.optional
  cases found : member? name members with
  | none => exact ⟨none, rfl, rfl⟩
  | some value =>
    simp only [found, true_and] at first
    by_cases null : value = .null
    · subst null
      exact ⟨none, rfl, by cases shape <;> rfl⟩
    · obtain ⟨thing, one, written⟩ := represents.reads (first.resolve_right null)
      refine ⟨some thing, ?_, by rw [Option.map_some, ← written]; rfl⟩
      cases value with
      | null => exact absurd rfl null
      | _ => simp only [one, Option.map_some]

/-- What is written for a field that may be null is null for no document. -/
theorem Represents.ofOption_inj (represents : Represents shape read write)
    {one other : Option Thing}
    (same : Value.ofOption (one.map write) = Value.ofOption (other.map write)) : one = other := by
  have notNull : ∀ thing, write thing ≠ .null := fun thing null =>
    shape.not_dumped_null (null ▸ represents.dumped thing)
  cases one with
  | none =>
    cases other with
    | none => rfl
    | some thing => exact absurd same.symm (notNull thing)
  | some thing =>
    cases other with
    | none => exact absurd same (notNull thing)
    | some another => rw [represents.injective same]

theorem Represents.dump_required (represents : Represents shape read write) (thing : Thing)
    (later : others.Dump members) :
    (Fields.field name .required shape others).Dump ((name, write thing) :: members) :=
  ⟨_, _, rfl, .inl (represents.dumped thing), later⟩

theorem Represents.dump_optional (represents : Represents shape read write)
    (thing : Option Thing) (later : others.Dump members) :
    (Fields.field name .optional shape others).Dump
      ((name, .ofOption (thing.map write)) :: members) := by
  refine ⟨_, _, rfl, ?_, later⟩
  cases thing with
  | none => exact .inr ⟨rfl, rfl⟩
  | some thing => exact .inl (represents.dumped thing)

end

/-! ### Entries -/

theorem Entry.toValue_eq (entry : Entry) : entry.toValue = .object
    [("name".toList, .string entry.name),
      ("arguments".toList, .ofOption (entry.arguments.map Value.strings)),
      ("returns".toList, .string entry.returns),
      ("help".toList, .string entry.help),
      ("aliases".toList, .ofOption (entry.aliases.map Value.strings)),
      ("alternatives".toList,
        .ofOption (entry.alternatives.map fun lists => .array (lists.map Value.strings)))] := by
  obtain ⟨name, arguments, returns, help, aliases, alternatives⟩ := entry
  cases arguments <;> cases aliases <;> cases alternatives <;> rfl

theorem entry_represents : Represents entryShape Entry.ofValue? Entry.toValue where
  reads := by
    rintro value ⟨members, rfl, conform, _⟩
    obtain ⟨name, hasName, first⟩ := text_represents.required conform
    obtain ⟨arguments, hasArguments, second⟩ := texts_represent.optional conform.2
    obtain ⟨returns, hasReturns, third⟩ := text_represents.required conform.2.2
    obtain ⟨help, hasHelp, fourth⟩ := text_represents.required conform.2.2.2
    obtain ⟨aliases, hasAliases, fifth⟩ := texts_represent.optional conform.2.2.2.2
    obtain ⟨alternatives, hasAlternatives, sixth⟩ :=
      texts_represent.list.optional conform.2.2.2.2.2
    refine ⟨⟨name, arguments, returns, help, aliases, alternatives⟩, ?_, ?_⟩
    · simp only [Entry.ofValue?, Value.members?, hasName, hasArguments, hasReturns, hasHelp,
        hasAliases, hasAlternatives, bind, Option.bind]
      rfl
    · rw [Entry.toValue_eq, entryShape, Shape.completed, first, second, third, fourth, fifth, sixth]
      rfl
  dumped := by
    intro entry
    rw [Entry.toValue_eq]
    exact ⟨_, rfl, text_represents.dump_required _ <| texts_represent.dump_optional _ <|
      text_represents.dump_required _ <| text_represents.dump_required _ <|
      texts_represent.dump_optional _ <| texts_represent.list.dump_optional _ rfl⟩
  injective := by
    intro one other same
    rw [Entry.toValue_eq, Entry.toValue_eq] at same
    simp only [Value.object.injEq, List.cons.injEq, Prod.mk.injEq, true_and, and_true] at same
    obtain ⟨name, arguments, returns, help, aliases, alternatives⟩ := same
    cases one
    cases other
    rw [Entry.mk.injEq]
    exact ⟨Value.string.inj name, texts_represent.ofOption_inj arguments, Value.string.inj returns,
      Value.string.inj help, texts_represent.ofOption_inj aliases,
      texts_represent.list.ofOption_inj alternatives⟩

/-! ### Operators -/

theorem operatorExample_represents :
    Represents operatorExampleShape OperatorExample.ofValue? OperatorExample.toValue where
  reads := by
    rintro value ⟨members, rfl, conform, _⟩
    obtain ⟨snippet, hasSnippet, first⟩ := text_represents.required conform
    obtain ⟨help, hasHelp, second⟩ := text_represents.optional conform.2
    refine ⟨⟨snippet, help⟩, ?_, ?_⟩
    · simp only [OperatorExample.ofValue?, Value.members?, hasSnippet, hasHelp, bind, Option.bind]
      rfl
    · rw [operatorExampleShape, Shape.completed, first, second]
      rfl
  dumped := fun _ =>
    ⟨_, rfl, text_represents.dump_required _ <| text_represents.dump_optional _ rfl⟩
  injective := by
    intro one other same
    simp only [OperatorExample.toValue, Value.record, Value.object.injEq, List.map_cons,
      List.cons.injEq, Prod.mk.injEq, true_and, and_true, List.map_nil] at same
    cases one
    cases other
    rw [OperatorExample.mk.injEq]
    exact ⟨Value.string.inj same.1, text_represents.ofOption_inj same.2⟩

theorem operatorGroup_represents :
    Represents operatorGroupShape OperatorGroup.ofValue? OperatorGroup.toValue where
  reads := by
    rintro value ⟨members, rfl, conform, _⟩
    obtain ⟨title, hasTitle, first⟩ := text_represents.required conform
    obtain ⟨prelude, hasPrelude, second⟩ := text_represents.optional conform.2
    obtain ⟨examples, hasExamples, third⟩ := operatorExample_represents.list.required conform.2.2
    refine ⟨⟨title, prelude, examples⟩, ?_, ?_⟩
    · simp only [OperatorGroup.ofValue?, Value.members?, hasTitle, hasPrelude, hasExamples, bind,
        Option.bind]
      rfl
    · rw [operatorGroupShape, Shape.completed, first, second, third]
      rfl
  dumped := fun _ =>
    ⟨_, rfl, text_represents.dump_required _ <| text_represents.dump_optional _ <|
      operatorExample_represents.list.dump_required _ rfl⟩
  injective := by
    intro one other same
    simp only [OperatorGroup.toValue, Value.record, Value.object.injEq, List.map_cons,
      List.cons.injEq, Prod.mk.injEq, true_and, and_true, List.map_nil] at same
    obtain ⟨title, prelude, examples⟩ := same
    cases one
    cases other
    rw [OperatorGroup.mk.injEq]
    exact ⟨Value.string.inj title, text_represents.ofOption_inj prelude,
      operatorExample_represents.list.injective examples⟩

/-! ### Sections and helpers -/

theorem functionSection_represents :
    Represents functionSectionShape FunctionSection.ofValue? FunctionSection.toValue where
  reads := by
    rintro value ⟨members, rfl, conform, _⟩
    obtain ⟨title, hasTitle, first⟩ := text_represents.required conform
    obtain ⟨functions, hasFunctions, second⟩ := entry_represents.list.required conform.2
    refine ⟨⟨title, functions⟩, ?_, ?_⟩
    · simp only [FunctionSection.ofValue?, Value.members?, hasTitle, hasFunctions, bind,
        Option.bind]
      rfl
    · rw [functionSectionShape, Shape.completed, first, second]
      rfl
  dumped := fun _ =>
    ⟨_, rfl, text_represents.dump_required _ <| entry_represents.list.dump_required _ rfl⟩
  injective := by
    intro one other same
    simp only [FunctionSection.toValue, Value.record, Value.object.injEq, List.map_cons,
      List.cons.injEq, Prod.mk.injEq, true_and, and_true, List.map_nil] at same
    cases one
    cases other
    rw [FunctionSection.mk.injEq]
    exact ⟨Value.string.inj same.1, entry_represents.list.injective same.2⟩

theorem scrapingHelpers_represents :
    Represents scrapingHelpersShape ScrapingHelpers.ofValue? ScrapingHelpers.toValue where
  reads := by
    rintro value ⟨members, rfl, conform, _⟩
    obtain ⟨selectors, hasSelectors, first⟩ := entry_represents.list.required conform
    obtain ⟨extractors, hasExtractors, second⟩ := entry_represents.list.required conform.2
    refine ⟨⟨selectors, extractors⟩, ?_, ?_⟩
    · simp only [ScrapingHelpers.ofValue?, Value.members?, hasSelectors, hasExtractors, bind,
        Option.bind]
      rfl
    · rw [scrapingHelpersShape, Shape.completed, first, second]
      rfl
  dumped := fun _ =>
    ⟨_, rfl, entry_represents.list.dump_required _ <| entry_represents.list.dump_required _ rfl⟩
  injective := by
    intro one other same
    simp only [ScrapingHelpers.toValue, Value.record, Value.object.injEq, List.map_cons,
      List.cons.injEq, Prod.mk.injEq, true_and, and_true, List.map_nil] at same
    cases one
    cases other
    rw [ScrapingHelpers.mk.injEq]
    exact ⟨entry_represents.list.injective same.1, entry_represents.list.injective same.2⟩

/-! ### Kinds -/

/-- **The documents of each kind stand for its shape.** -/
theorem document_represents (kind : Kind) : Represents kind.shape kind.ofValue? kind.toValue := by
  cases kind with
  | operators => exact operatorGroup_represents.list
  | functions => exact functionSection_represents.list
  | aggregates => exact entry_represents.list
  | scraping => exact scrapingHelpers_represents

theorem shape_distinct (kind : Kind) : kind.shape.Distinct := by
  cases kind <;> simp [Kind.shape, operatorGroupShape, operatorExampleShape, functionSectionShape,
    scrapingHelpersShape, entryShape, Shape.Distinct, Fields.EachDistinct, Fields.names]

theorem shape_depth_le (kind : Kind) : kind.shape.depth ≤ nestingLimit := by
  cases kind <;> decide

end Handbook
