/-
**References in color show the plain references.**

A reference is laid out part by part, each in an ink. Where its texts hold no escape character and
its signatures keep to one line each, the colored ink adds nothing but color: without its control
sequences what it gives is what the plain ink gives. Sections, operators and the prose around them
may be any texts; a failure to lay out the operators is the same in both inks.

* `shows_sections`, `operatorsText_eq`: the parts of a reference;
* `FunctionReference.terminalText_eq`: a reference is laid out where its operators are;
* `colors_removable`: the colors of aggregations and of functions can be removed again.
-/

import Handbook.Layout.Reference
import Handbook.Proofs.Layout.Entry
import Handbook.Proofs.Result

namespace Handbook

open Terminal Colorize Text

/-! ### The texts of references -/

/-- All texts of a section. -/
def FunctionSection.texts (part : FunctionSection) : List Text :=
  part.title :: part.functions.flatMap Entry.texts

/-- All texts of an example. -/
def OperatorExample.texts (shown : OperatorExample) : List Text :=
  shown.snippet :: shown.help.toList

/-- All texts of a group of operators. -/
def OperatorGroup.texts (group : OperatorGroup) : List Text :=
  group.title :: group.prelude.toList ++ group.examples.flatMap OperatorExample.texts

/-- All texts of a reference of functions. -/
def FunctionReference.texts (reference : FunctionReference) : List Text :=
  reference.prelude :: reference.operators.flatMap OperatorGroup.texts
    ++ reference.sections.flatMap FunctionSection.texts

/-- The entries of a reference of functions. -/
def FunctionReference.entries (reference : FunctionReference) : List Entry :=
  reference.sections.flatMap FunctionSection.functions

/-- All texts of a reference of aggregations. -/
def AggregateReference.texts (reference : AggregateReference) : List Text :=
  reference.prelude :: reference.entries.flatMap Entry.texts

/-! ### Sections -/

theorem shows_section {part : FunctionSection} (clear : Clear part.texts)
    (oneLine : ∀ entry ∈ part.functions, entry.OneLine) :
    Shows (part.terminalText .colored) (part.terminalText .plain) := by
  have header : escape ∉ part.header := by
    have title := clear part.title (List.mem_cons_self ..)
    have around : escape ∉ "## ".toList ∧ escape ∉ "\n\n".toList := by decide
    simp only [FunctionSection.header, List.mem_append, not_or]
    exact ⟨⟨around.1, title⟩, around.2⟩
  have entries : Clear (part.functions.flatMap Entry.texts) := fun text member =>
    clear text (List.mem_cons_of_mem _ member)
  rw [FunctionSection.terminalText, FunctionSection.terminalText, Ink.colored_heading,
    Ink.plain_heading]
  exact ((shows_colored .yellow _ header).append (shows_entries entries oneLine)).append
    (shows_plain ['\n'] (by decide))

theorem filterSections_subset (query : Option Text) (parts : List FunctionSection) :
    filterSections query parts ⊆ parts := by
  cases query with
  | none => exact List.Subset.refl parts
  | some query => exact List.filter_sublist.subset

theorem clear_summary {parts : List FunctionSection}
    (clear : Clear (parts.flatMap FunctionSection.texts)) :
    escape ∉ FunctionReference.summary parts := by
  rw [FunctionReference.summary, List.mem_append, not_or]
  refine ⟨clear_intercalate (by decide) fun text member => ?_, by decide⟩
  obtain ⟨part, found, rfl⟩ := List.mem_map.mp member
  rw [List.mem_append, not_or]
  exact ⟨by decide, clear.of_flatMap found part.title (List.mem_cons_self ..)⟩

theorem shows_sections {parts : List FunctionSection}
    (clear : Clear (parts.flatMap FunctionSection.texts))
    (oneLine : ∀ entry ∈ parts.flatMap FunctionSection.functions, entry.OneLine) :
    Shows (parts.flatMap (FunctionSection.terminalText .colored))
      (parts.flatMap (FunctionSection.terminalText .plain)) :=
  .flatMap fun part member => shows_section (clear.of_flatMap member) fun entry inside =>
    oneLine entry (List.mem_flatMap.mpr ⟨part, member, inside⟩)

/-! ### Operators -/

theorem clear_row {shown : OperatorExample} (clear : Clear shown.texts) (width : Nat) :
    escape ∉ shown.row width := by
  have snippet := clear shown.snippet (List.mem_cons_self ..)
  have padded : escape ∉ padTo width shown.snippet := by
    rw [padTo, List.mem_append, not_or]
    exact ⟨snippet, fun member => absurd (List.eq_of_mem_replicate member) (by decide)⟩
  rw [OperatorExample.row]
  split
  · exact snippet
  · rename_i help helped
    have help := clear help (by simp [OperatorExample.texts, helped])
    simp only [List.mem_append, not_or]
    exact ⟨⟨padded, by decide⟩, help⟩

theorem clear_group {group : OperatorGroup} (clear : Clear group.texts) {text : Text}
    (laidOut : group.terminalText = .ok text) : escape ∉ text := by
  obtain ⟨width, -, same⟩ := bind_eq_ok_iff.mp laidOut
  have title : escape ∉ group.header := by
    have title := clear group.title (by simp [OperatorGroup.texts])
    have around : escape ∉ "### ".toList ∧ escape ∉ "\n\n".toList := by decide
    simp only [OperatorGroup.header, List.mem_append, not_or]
    exact ⟨⟨around.1, title⟩, around.2⟩
  have introduction : escape ∉ group.introduction (wrap .prose) := by
    rw [OperatorGroup.introduction]
    split
    · exact List.not_mem_nil
    · rename_i prelude introduced
      have prelude := clear prelude (by simp [OperatorGroup.texts, introduced])
      rw [List.mem_append, not_or]
      exact ⟨clear_wrap prelude, by decide⟩
  have rows : escape ∉ group.rows indent width := by
    intro member
    obtain ⟨shown, found, inside⟩ := List.mem_flatMap.mp member
    have row : Clear shown.texts := fun text inside =>
      clear text (List.mem_append_right _ (List.mem_flatMap.mpr ⟨shown, found, inside⟩))
    rw [List.mem_append] at inside
    exact inside.elim (clear_indent (clear_row row width)) (by decide)
  rw [← Except.ok.inj same]
  simp only [List.mem_append, not_or]
  exact ⟨⟨⟨title, introduction⟩, rows⟩, by decide⟩

/-- What is made of parts one by one comes from the parts. -/
theorem exists_of_mapM {Part : Type} {make : Part → Except Failure Text} {parts : List Part}
    {texts : List Text} (made : parts.mapM make = .ok texts) :
    ∀ text ∈ texts, ∃ part ∈ parts, make part = .ok text := by
  induction parts generalizing texts with
  | nil =>
    rw [← Except.ok.inj made]
    exact fun text member => absurd member List.not_mem_nil
  | cons part others step =>
    rw [List.mapM_cons] at made
    obtain ⟨first, one, made⟩ := bind_eq_ok_iff.mp made
    obtain ⟨later, rest, same⟩ := bind_eq_ok_iff.mp made
    rw [← Except.ok.inj same]
    intro text member
    rcases List.mem_cons.mp member with rfl | member
    · exact ⟨part, List.mem_cons_self .., one⟩
    · obtain ⟨other, found, made⟩ := step rest text member
      exact ⟨other, List.mem_cons_of_mem _ found, made⟩

theorem clear_operators {groups : List OperatorGroup}
    (clear : Clear (groups.flatMap OperatorGroup.texts)) {text : Text}
    (laidOut : operatorsText .plain groups = .ok text) : escape ∉ text := by
  obtain ⟨body, made, same⟩ := bind_eq_ok_iff.mp laidOut
  rw [← Except.ok.inj same, Ink.plain_prose, List.mem_append, not_or]
  refine ⟨by decide, fun member => ?_⟩
  obtain ⟨text, found, inside⟩ := List.mem_flatten.mp member
  obtain ⟨group, member, laidOut⟩ := exists_of_mapM made text found
  exact clear_group (clear.of_flatMap member) laidOut inside

theorem clear_operatorsSummary {groups : List OperatorGroup}
    (clear : Clear (groups.flatMap OperatorGroup.texts)) : escape ∉ operatorsSummary groups := by
  rw [operatorsSummary, List.mem_append, not_or]
  refine ⟨clear_intercalate (by decide) fun text member => ?_, by decide⟩
  rcases List.mem_cons.mp member with rfl | member
  · decide
  · obtain ⟨group, found, rfl⟩ := List.mem_map.mp member
    rw [List.mem_append, not_or]
    exact ⟨by decide, clear.of_flatMap found group.title (by simp [OperatorGroup.texts])⟩

/-- **Operators are laid out in the plain ink and then colored as a whole.** -/
theorem operatorsText_eq (ink : Ink) (groups : List OperatorGroup) :
    operatorsText ink groups = (operatorsText .plain groups).map ink.prose := by
  rw [operatorsText, operatorsText]
  cases groups.mapM OperatorGroup.terminalText with
  | error cause => rfl
  | ok body => simp only [bind, Except.bind, pure, Except.pure, Except.map, Ink.plain_prose]

/-! ### References -/

namespace FunctionReference

/-- The operators that a query keeps, on the terminal. -/
def shownOperators (ink : Ink) (query : Option Text) (reference : FunctionReference) :
    Except Failure Text :=
  if keepsOperators query then operatorsText ink reference.operators else pure []

/-- A reference on the terminal, around its operators. -/
def around (ink : Ink) (query : Option Text) (reference : FunctionReference) (operators : Text) :
    Text :=
  let sections := filterSections query reference.sections
  ink.prose reference.prelude ++ ['\n']
    ++ (if keepsOperators query then operatorsSummary reference.operators else [])
    ++ summary sections ++ operators ++ sections.flatMap (FunctionSection.terminalText ink)

/-- **A reference is laid out where its operators are.** -/
theorem terminalText_eq (ink : Ink) (query : Option Text) (reference : FunctionReference) :
    reference.terminalText ink query =
      (reference.shownOperators ink query).map (reference.around ink query) := by
  unfold terminalText shownOperators around
  cases keepsOperators query with
  | false => rfl
  | true => cases operatorsText ink reference.operators <;> rfl

theorem clear_of_texts {reference : FunctionReference} (clear : Clear reference.texts) :
    Clear (reference.operators.flatMap OperatorGroup.texts) := fun text member =>
  clear text (List.mem_append_left _ (List.mem_cons_of_mem _ member))

theorem shows_around {query : Option Text} {reference : FunctionReference}
    (clear : Clear reference.texts) (oneLine : ∀ entry ∈ reference.entries, entry.OneLine)
    {painted bare : Text} (operators : Shows painted bare) :
    Shows (reference.around .colored query painted) (reference.around .plain query bare) := by
  have prelude : escape ∉ reference.prelude := clear _ (by simp [texts])
  have kept : Clear ((filterSections query reference.sections).flatMap FunctionSection.texts) := by
    intro text member
    obtain ⟨part, found, inside⟩ := List.mem_flatMap.mp member
    exact clear text (List.mem_append_right _
      (List.mem_flatMap.mpr ⟨part, filterSections_subset _ _ found, inside⟩))
  have operatorTitles :
      escape ∉ (if keepsOperators query then operatorsSummary reference.operators else []) := by
    split
    · exact clear_operatorsSummary (clear_of_texts clear)
    · exact List.not_mem_nil
  have lines : ∀ entry ∈ (filterSections query reference.sections).flatMap
      FunctionSection.functions, entry.OneLine := by
    intro entry member
    obtain ⟨part, found, inside⟩ := List.mem_flatMap.mp member
    exact oneLine entry (List.mem_flatMap.mpr ⟨part, filterSections_subset _ _ found, inside⟩)
  rw [around, around, Ink.colored_prose, Ink.plain_prose]
  exact (((((shows_prose prelude).append (shows_plain ['\n'] (by decide))).append
    (shows_plain _ operatorTitles)).append (shows_plain _ (clear_summary kept))).append operators).append
    (shows_sections kept lines)

/-- **What is laid out in color shows what is laid out plain.** -/
theorem terminalText_cases {query : Option Text} {reference : FunctionReference}
    (clear : Clear reference.texts) (oneLine : ∀ entry ∈ reference.entries, entry.OneLine) :
    (∃ cause, reference.terminalText .colored query = .error cause ∧
        reference.terminalText .plain query = .error cause) ∨
      ∃ painted bare, reference.terminalText .colored query = .ok painted ∧
        reference.terminalText .plain query = .ok bare ∧ Shows painted bare := by
  rw [terminalText_eq, terminalText_eq, shownOperators, shownOperators]
  split
  · rw [operatorsText_eq .colored]
    cases laidOut : operatorsText .plain reference.operators with
    | error cause => exact Or.inl ⟨cause, rfl, rfl⟩
    | ok operators =>
      have shows := shows_prose (clear_operators (clear_of_texts clear) laidOut)
      rw [← Ink.colored_prose] at shows
      exact Or.inr ⟨_, _, rfl, rfl, shows_around clear oneLine shows⟩
  · exact Or.inr ⟨_, _, rfl, rfl, shows_around clear oneLine shows_nil⟩

end FunctionReference

theorem AggregateReference.shows {reference : AggregateReference} (clear : Clear reference.texts)
    (oneLine : ∀ entry ∈ reference.entries, entry.OneLine) :
    Shows (reference.terminalText .colored) (reference.terminalText .plain) := by
  have prelude : escape ∉ reference.prelude := clear _ (List.mem_cons_self ..)
  have entries : Clear (reference.entries.flatMap Entry.texts) := fun text member =>
    clear text (List.mem_cons_of_mem _ member)
  rw [terminalText, terminalText, Ink.colored_prose, Ink.plain_prose]
  exact ((shows_prose prelude).append (shows_plain ['\n'] (by decide))).append
    (shows_entries entries oneLine)

/-- The control sequences of a colored text can be removed, and what it shows is left. -/
theorem Colorize.Shows.unstyled {painted bare : Text} (shows : Shows painted bare) :
    escape ∉ Terminal.unstyled painted ∧ Terminal.unstyled painted = bare := by
  have same := unstyled_eq_stripColors shows.intact
  exact ⟨same ▸ escape_not_mem_swept sweeps_colorSequence shows.intact, same.trans shows.visible⟩

/-- **The colors of aggregations and of functions can be removed again.** Without its control
sequences a colored reference is laid out as in the plain ink: the same characters, the same margins
and the same lines. Where functions cannot be laid out, they cannot be in either ink. -/
theorem colors_removable :
    (∀ reference : AggregateReference, Clear reference.texts →
      (∀ entry ∈ reference.entries, entry.OneLine) →
        escape ∉ unstyled (reference.terminalText .colored) ∧
          unstyled (reference.terminalText .colored) = reference.terminalText .plain) ∧
    ∀ (reference : FunctionReference) (query : Option Text), Clear reference.texts →
      (∀ entry ∈ reference.entries, entry.OneLine) →
        (reference.terminalText .colored query).map unstyled = reference.terminalText .plain query ∧
          ∀ text, reference.terminalText .colored query = .ok text → escape ∉ unstyled text := by
  refine ⟨fun reference clear oneLine => (reference.shows clear oneLine).unstyled,
    fun reference query clear oneLine => ?_⟩
  rcases reference.terminalText_cases clear oneLine with
    ⟨cause, colored, plain⟩ | ⟨painted, bare, colored, plain, shows⟩
  · rw [colored, plain]
    exact ⟨rfl, fun text same => by cases same⟩
  · obtain ⟨absent, same⟩ := shows.unstyled
    rw [colored, plain]
    exact ⟨congrArg Except.ok same, fun text laidOut => Except.ok.inj laidOut ▸ absent⟩

/-- A callable whose help text has a quoted span over a line separator, and a flag behind it. -/
def splitEntry : Entry where
  name := "split".toList
  arguments := some ["<string>".toList, "sep".toList]
  returns := "list".toList
  help := "Cut at 'a\u2028b'.\n\n## With --max".toList
  aliases := some ["cut".toList]
  alternatives := some [[]]

/-- A reference in which every text that has a color has one. -/
def splitReference : FunctionReference where
  prelude := "# Functions\n".toList
  operators := [⟨"Tests".toList, some "Use x == y.".toList, [⟨"!x".toList, some "not".toList⟩]⟩]
  sections := [⟨"Strings\r".toList, [splitEntry]⟩, ⟨"Lists".toList, []⟩]

theorem colors_removable_split :
    Clear splitReference.texts ∧ (∀ entry ∈ splitReference.entries, entry.OneLine) ∧
      (splitReference.terminalText .colored none).map unstyled =
        splitReference.terminalText .plain none ∧
      unstyled (AggregateReference.terminalText .colored ⟨[], [splitEntry]⟩) =
        AggregateReference.terminalText .plain ⟨[], [splitEntry]⟩ := by
  have clear : Clear splitReference.texts := by decide
  have oneLine : ∀ entry ∈ splitReference.entries, entry.OneLine := by decide
  exact ⟨clear, oneLine, (colors_removable.2 splitReference none clear oneLine).1,
    (colors_removable.1 ⟨[], [splitEntry]⟩ (by decide) (by decide)).2⟩

end Handbook
