/-
**When a reference of functions can be laid out.**

A group of operators has a column only if it has examples. Everything else in the layout of a
reference can always be written, so a reference is laid out whole unless it shows its operators and
one of their groups has no examples; the first such group is told. On the terminal a query decides
whether the operators are shown, and Markdown always shows them.

* `columnWidth_eq`: a group has a column exactly when it has examples;
* `mapM_of_each`: parts that fail each for itself fail together with the first one;
* `terminalText_eq_unlessBare`, `markdown_eq_unlessBare`: a reference is whole, or tells a group;
* `laid_out_iff`: when a reference is laid out, and what is told otherwise.
-/

import Handbook.Proofs.Layout.Reference

namespace Handbook

/-! ### Groups -/

namespace OperatorGroup

/-- The length of the longest snippet of a group, zero where there is none. -/
def widest (group : OperatorGroup) : Nat :=
  (group.examples.map fun shown => shown.snippet.length).max?.getD 0

/-- Whether a group has no examples. -/
def isBare (group : OperatorGroup) : Bool := group.examples.isEmpty

/-- A group on the terminal, its column as wide as its longest snippet. -/
def wholeText (group : OperatorGroup) : Text :=
  group.header ++ group.introduction (Text.wrap .prose) ++ group.rows Text.indent group.widest
    ++ "\n\n".toList

/-- A group in Markdown, its column as wide as its longest snippet. -/
def wholeMarkdown (group : OperatorGroup) : Text :=
  group.header ++ group.introduction (fun text => text) ++ "```txt\n".toList
    ++ group.rows (fun text => text) group.widest ++ "```\n\n".toList

/-- **A group has a column exactly when it has examples.** -/
theorem columnWidth_eq (group : OperatorGroup) : group.columnWidth =
    if group.isBare then .error (.emptyExamples group.title) else .ok group.widest := by
  unfold columnWidth widest isBare
  cases group.examples with
  | nil => rfl
  | cons shown others => rfl

theorem terminalText_eq (group : OperatorGroup) : group.terminalText =
    if group.isBare then .error (.emptyExamples group.title) else .ok group.wholeText := by
  rw [terminalText, columnWidth_eq]
  cases group.isBare <;> rfl

theorem markdown_eq (group : OperatorGroup) : group.markdown =
    if group.isBare then .error (.emptyExamples group.title) else .ok group.wholeMarkdown := by
  rw [markdown, columnWidth_eq]
  cases group.isBare <;> rfl

end OperatorGroup

/-! ### The first group without examples -/

/-- **Parts that fail each for itself fail together with the first one.** -/
theorem mapM_of_each {Part : Type} {make : Part → Except Failure Text} {fails : Part → Bool}
    {cause : Part → Failure} {text : Part → Text}
    (each : ∀ part, make part = if fails part then .error (cause part) else .ok (text part))
    (parts : List Part) : parts.mapM make =
      match parts.find? fails with
      | some part => .error (cause part)
      | none => .ok (parts.map text) := by
  induction parts with
  | nil => rfl
  | cons part others step =>
    rw [List.mapM_cons, each, step, List.find?_cons]
    cases fails part with
    | true => rfl
    | false => cases others.find? fails <;> rfl

/-- A group without examples behind groups that have some. -/
def FirstBare (groups : List OperatorGroup) (group : OperatorGroup) : Prop :=
  ∃ before after, groups = before ++ group :: after ∧ group.examples = [] ∧
    ∀ other ∈ before, other.examples ≠ []

theorem isBare_iff {group : OperatorGroup} : group.isBare = true ↔ group.examples = [] :=
  List.isEmpty_iff

theorem find?_isBare_eq_some_iff {groups : List OperatorGroup} {group : OperatorGroup} :
    groups.find? OperatorGroup.isBare = some group ↔ FirstBare groups group := by
  rw [List.find?_eq_some_iff_append, isBare_iff]
  constructor
  · rintro ⟨bare, before, after, cut, filled⟩
    refine ⟨before, after, cut, bare, fun other member empty => ?_⟩
    have full := filled other member
    rw [isBare_iff.mpr empty] at full
    exact absurd full (by decide)
  · rintro ⟨before, after, cut, bare, filled⟩
    refine ⟨bare, before, after, cut, fun other member => ?_⟩
    rw [Bool.not_eq_true', Bool.eq_false_iff]
    exact mt isBare_iff.mp (filled other member)

theorem find?_isBare_eq_none_iff {groups : List OperatorGroup} :
    groups.find? OperatorGroup.isBare = none ↔ ∀ group ∈ groups, group.examples ≠ [] := by
  rw [List.find?_eq_none]
  exact forall₂_congr fun group _ => not_congr isBare_iff

/-- A text, unless there is a group to be told that has no examples. -/
def unlessBare (bare : Option OperatorGroup) (whole : Text) : Except Failure Text :=
  match bare with
  | some group => .error (.emptyExamples group.title)
  | none => .ok whole

theorem unlessBare_eq_error_iff {bare : Option OperatorGroup} {whole : Text} {failure : Failure} :
    unlessBare bare whole = .error failure ↔
      ∃ group, bare = some group ∧ failure = .emptyExamples group.title := by
  cases bare with
  | none => exact ⟨fun same => (nomatch same), fun ⟨_, same, _⟩ => (nomatch same)⟩
  | some group =>
    constructor
    · intro same
      exact ⟨group, rfl, (Except.error.inj same).symm⟩
    · rintro ⟨_, same, rfl⟩
      rw [← Option.some.inj same]
      rfl

theorem unlessBare_eq_ok_iff {bare : Option OperatorGroup} {whole text : Text} :
    unlessBare bare whole = .ok text ↔ bare = none ∧ text = whole := by
  cases bare with
  | none => exact ⟨fun same => ⟨rfl, (Except.ok.inj same).symm⟩, fun ⟨_, same⟩ => same ▸ rfl⟩
  | some group => exact ⟨fun same => (nomatch same), fun ⟨same, _⟩ => (nomatch same)⟩

/-! ### All operators -/

theorem operatorsText_eq_unlessBare (ink : Ink) (groups : List OperatorGroup) :
    operatorsText ink groups = unlessBare (groups.find? OperatorGroup.isBare)
      (ink.prose (operatorsHeader ++ groups.flatMap OperatorGroup.wholeText)) := by
  rw [operatorsText, mapM_of_each OperatorGroup.terminalText_eq, List.flatMap_def]
  cases groups.find? OperatorGroup.isBare <;> rfl

theorem operatorsMarkdown_eq_unlessBare (groups : List OperatorGroup) :
    operatorsMarkdown groups = unlessBare (groups.find? OperatorGroup.isBare)
      (operatorsHeader ++ groups.flatMap OperatorGroup.wholeMarkdown) := by
  rw [operatorsMarkdown, mapM_of_each OperatorGroup.markdown_eq, List.flatMap_def]
  cases groups.find? OperatorGroup.isBare <;> rfl

/-! ### References -/

namespace FunctionReference

/-- The group that a query lets be told, if there is one without examples. -/
def bareGroup (query : Option Text) (reference : FunctionReference) : Option OperatorGroup :=
  if keepsOperators query then reference.operators.find? OperatorGroup.isBare else none

/-- A whole reference on a color terminal: the introduction, the summary, the operators if the query
keeps them, and the sections that it keeps. -/
def wholeText (query : Option Text) (reference : FunctionReference) : Text :=
  reference.around .colored query <|
    if keepsOperators query then
      Colorize.prose (operatorsHeader ++ reference.operators.flatMap OperatorGroup.wholeText)
    else []

/-- A whole reference in Markdown: the introduction, the summary, the operators and the sections. -/
def wholeMarkdown (reference : FunctionReference) : Text :=
  reference.prelude ++ ['\n'] ++ operatorsSummaryMarkdown reference.operators
    ++ summaryMarkdown reference.sections
    ++ (operatorsHeader ++ reference.operators.flatMap OperatorGroup.wholeMarkdown) ++ ['\n']
    ++ reference.sections.flatMap FunctionSection.markdown

/-- **On the terminal a reference is whole, or tells a group.** -/
theorem terminalText_eq_unlessBare (query : Option Text) (reference : FunctionReference) :
    reference.terminalText .colored query =
      unlessBare (reference.bareGroup query) (reference.wholeText query) := by
  rw [terminalText_eq, shownOperators, operatorsText_eq_unlessBare, bareGroup, wholeText,
    Ink.colored_prose]
  split
  · cases reference.operators.find? OperatorGroup.isBare <;> rfl
  · rfl

/-- **In Markdown a reference is whole, or tells a group.** -/
theorem markdown_eq_unlessBare (reference : FunctionReference) : reference.markdown =
    unlessBare (reference.operators.find? OperatorGroup.isBare) reference.wholeMarkdown := by
  rw [markdown, operatorsMarkdown_eq_unlessBare]
  cases reference.operators.find? OperatorGroup.isBare <;> rfl

theorem bareGroup_eq_some_iff {query : Option Text} {reference : FunctionReference}
    {group : OperatorGroup} : reference.bareGroup query = some group ↔
      keepsOperators query = true ∧ FirstBare reference.operators group := by
  rw [bareGroup, Option.ite_none_right_eq_some, find?_isBare_eq_some_iff]

theorem bareGroup_eq_none_iff {query : Option Text} {reference : FunctionReference} :
    reference.bareGroup query = none ↔
      (keepsOperators query = true → ∀ group ∈ reference.operators, group.examples ≠ []) := by
  unfold bareGroup
  split
  · rename_i kept
    rw [find?_isBare_eq_none_iff]
    exact ⟨fun all _ => all, fun all => all kept⟩
  · rename_i dropped
    exact iff_of_true rfl fun kept => absurd kept dropped

end FunctionReference

/-- **When a reference of functions is laid out.** On the terminal the first group without examples
is told exactly when the query keeps the operators, and in Markdown in any case; where no group is
told, the reference is laid out whole. -/
theorem laid_out_iff (reference : FunctionReference) :
    (∀ query failure, reference.terminalText .colored query = .error failure ↔
      keepsOperators query = true ∧ ∃ group, FirstBare reference.operators group ∧
        failure = .emptyExamples group.title) ∧
    (∀ query text, reference.terminalText .colored query = .ok text ↔
      (keepsOperators query = true → ∀ group ∈ reference.operators, group.examples ≠ []) ∧
        text = reference.wholeText query) ∧
    (∀ failure, reference.markdown = .error failure ↔
      ∃ group, FirstBare reference.operators group ∧ failure = .emptyExamples group.title) ∧
    ∀ text, reference.markdown = .ok text ↔
      (∀ group ∈ reference.operators, group.examples ≠ []) ∧ text = reference.wholeMarkdown := by
  refine ⟨fun query failure => ?_, fun query text => ?_, fun failure => ?_, fun text => ?_⟩
  · rw [reference.terminalText_eq_unlessBare, unlessBare_eq_error_iff]
    simp only [FunctionReference.bareGroup_eq_some_iff, and_assoc, exists_and_left]
  · rw [reference.terminalText_eq_unlessBare, unlessBare_eq_ok_iff,
      FunctionReference.bareGroup_eq_none_iff]
  · rw [reference.markdown_eq_unlessBare, unlessBare_eq_error_iff]
    simp only [find?_isBare_eq_some_iff]
  · rw [reference.markdown_eq_unlessBare, unlessBare_eq_ok_iff, find?_isBare_eq_none_iff]

/-- A reference with two groups that have no examples, behind one that has some. -/
def bareReference : FunctionReference where
  prelude := "# Functions\n".toList
  operators := [⟨"Tests".toList, none, [⟨"!x".toList, some "not".toList⟩]⟩,
    ⟨"Logic".toList, some "Use x && y.".toList, []⟩, ⟨"Slices".toList, none, []⟩]
  sections := [⟨"Strings".toList, []⟩]

/-- The second group is told, unless a query drops the operators. -/
theorem laid_out_iff_bare :
    bareReference.terminalText .colored (some "OPER".toList) =
        .error (.emptyExamples "Logic".toList) ∧
      bareReference.markdown = .error (.emptyExamples "Logic".toList) ∧
      bareReference.terminalText .colored (some "str".toList) =
        .ok (bareReference.wholeText (some "str".toList)) := by
  have first : FirstBare bareReference.operators ⟨"Logic".toList, some "Use x && y.".toList, []⟩ :=
    ⟨[_], [_], rfl, rfl, by decide⟩
  obtain ⟨terminal, whole, markdown, -⟩ := laid_out_iff bareReference
  exact ⟨(terminal _ _).mpr ⟨by decide +kernel, _, first, rfl⟩, (markdown _).mpr ⟨_, first, rfl⟩,
    (whole _ _).mpr ⟨fun kept => absurd kept (by decide +kernel), rfl⟩⟩

end Handbook
