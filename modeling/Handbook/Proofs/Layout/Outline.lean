/-
**The outline of a filtered reference.**

A query for sections keeps some of them. The summary lists the titles of these sections and their
headers repeat the titles; no line of a help text passes for either, since the entries stand behind
a margin. Where a query drops the operators, nothing of the other sections and of the operators is
left.

* `outline_entries`: entries have no line that begins with a mark;
* `outline_around`: the lines that begin with a mark are those of the parts of a reference;
* `filtered_outline`: what a query shows, and what it depends on.
-/

import Handbook.Proofs.Layout.Reference

namespace Handbook

open Terminal Colorize Text Unicode

/-! ### Lines that begin with a mark -/

/-- The lines of a text that begin with a mark, in order. -/
def outline (mark text : Text) : List Text := (split '\n' text).filter (mark.isPrefixOf ·)

theorem outline_append_lineFeed (mark first second : Text) :
    outline mark (first ++ '\n' :: second) = outline mark first ++ outline mark second := by
  rw [outline, split_append_cons, List.filter_append]
  rfl

theorem outline_line (mark : Text) {line : Text} (alone : '\n' ∉ line) :
    outline mark line = [line].filter (mark.isPrefixOf ·) := by
  rw [outline, split_of_not_mem alone]

/-- A mark that begins with a character other than a blank. -/
def IsMark (mark : Text) : Prop := ∃ c ∈ mark.head?, isBlank c = false

theorem outline_nil {mark : Text} (isMark : IsMark mark) : outline mark [] = [] := by
  obtain ⟨c, first, -⟩ := isMark
  obtain ⟨rest, rfl⟩ := List.head?_eq_some_iff.mp first
  rfl

/-- **Behind a margin no line begins with a mark.** -/
theorem outline_margined {mark text : Text} (isMark : IsMark mark) (margined : Margined text) :
    outline mark text = [] := by
  obtain ⟨c, first, visible⟩ := isMark
  obtain ⟨rest, rfl⟩ := List.head?_eq_some_iff.mp first
  refine List.filter_eq_nil_iff.mpr fun line member begins => ?_
  obtain ⟨more, rfl⟩ := List.isPrefixOf_iff_prefix.mp begins
  rw [margined _ member c rfl] at visible
  exact absurd visible (by decide)

/-- Lines put together are the lines of the text. -/
theorem outline_intercalate {mark : Text} (isMark : IsMark mark) {lines : List Text}
    (alone : ∀ line ∈ lines, '\n' ∉ line) :
    outline mark (['\n'].intercalate lines) = lines.filter (mark.isPrefixOf ·) := by
  induction lines with
  | nil => exact outline_nil isMark
  | cons line others step =>
    have here := outline_line mark (alone line (List.mem_cons_self ..))
    have later := step fun other member => alone other (List.mem_cons_of_mem _ member)
    cases others with
    | nil => rw [List.intercalate_singleton, here]
    | cons next rest =>
      rw [List.intercalate_cons_cons, List.append_assoc, List.singleton_append,
        outline_append_lineFeed, later, here, ← List.filter_append, List.singleton_append]

/-! ### The parts of a reference -/

/-- An entry ends with a blank line. -/
theorem exists_blankEnd (ink : Ink) (entry : Entry) :
    ∃ front, entry.terminalText ink = front ++ '\n' :: ['\n'] := ⟨_, rfl⟩

theorem margined_append_entry (ink : Ink) (entry : Entry) {rest : Text} (margined : Margined rest) :
    Margined (indent (entry.terminalText ink) ++ rest) := by
  obtain ⟨front, text⟩ := exists_blankEnd ink entry
  have ends : indent (entry.terminalText ink) = indent front ++ ['\n', '\n'] := by
    rw [text]
    exact linewise_indent.append_lineFeed front ['\n']
  have nothing : Margined [] := by simp [Margined, split_nil]
  rw [ends, List.append_assoc]
  refine margined_append_lineFeed_iff.mpr ⟨margined_indent _, ?_⟩
  exact margined_append_lineFeed_iff.mpr ⟨nothing, margined⟩

theorem margined_entries (ink : Ink) (entries : List Entry) : Margined (entriesText ink entries) := by
  induction entries with
  | nil => simp [entriesText, Margined, split_nil]
  | cons entry others step => exact margined_append_entry ink entry step

theorem outline_section {mark : Text} (isMark : IsMark mark) (part : FunctionSection)
    (rest : Text) :
    outline mark (part.terminalText .plain ++ rest) =
      outline mark ("## ".toList ++ part.title) ++ outline mark rest := by
  have cut : part.terminalText .plain ++ rest = ("## ".toList ++ part.title) ++
      '\n' :: ([] ++ '\n' :: (entriesText .plain part.functions ++ '\n' :: rest)) := by
    rw [FunctionSection.terminalText, Ink.plain_heading, FunctionSection.header]
    simp
  rw [cut, outline_append_lineFeed, outline_append_lineFeed, outline_append_lineFeed,
    outline_nil isMark, outline_margined isMark (margined_entries _ _), List.nil_append,
    List.nil_append]

theorem outline_sections {mark : Text} (isMark : IsMark mark) (parts : List FunctionSection) :
    outline mark (parts.flatMap (FunctionSection.terminalText .plain)) =
      parts.flatMap fun part => outline mark ("## ".toList ++ part.title) := by
  induction parts with
  | nil => exact outline_nil isMark
  | cons part others step =>
    rw [List.flatMap_cons, outline_section isMark, step, List.flatMap_cons]

/-- **Where a query drops the operators, the marked lines are those of the introduction, of the
summary and of the headers.** -/
theorem outline_around {mark query : Text} (isMark : IsMark mark) {reference : FunctionReference}
    (dropped : keepsOperators (some query) = false)
    (alone : ∀ part ∈ reference.sections, '\n' ∉ part.title) :
    outline mark (reference.around .plain (some query) []) =
      outline mark reference.prelude ++
        ((filterSections (some query) reference.sections).map
          fun part => "- ".toList ++ part.title).filter (mark.isPrefixOf ·) ++
        (filterSections (some query) reference.sections).flatMap
          fun part => outline mark ("## ".toList ++ part.title) := by
  have items : ∀ line ∈ (filterSections (some query) reference.sections).map
      fun part => "- ".toList ++ part.title, '\n' ∉ line := by
    intro line member
    obtain ⟨part, found, rfl⟩ := List.mem_map.mp member
    rw [List.mem_append, not_or]
    exact ⟨by decide, alone part (filterSections_subset _ _ found)⟩
  have cut : reference.around .plain (some query) [] = reference.prelude ++ '\n' ::
      (['\n'].intercalate ((filterSections (some query) reference.sections).map
        fun part => "- ".toList ++ part.title) ++ '\n' :: ([] ++ '\n' ::
          (filterSections (some query) reference.sections).flatMap
            (FunctionSection.terminalText .plain))) := by
    rw [FunctionReference.around, dropped, Ink.plain_prose, FunctionReference.summary]
    simp
  rw [cut, outline_append_lineFeed, outline_append_lineFeed, outline_append_lineFeed,
    outline_nil isMark, outline_intercalate isMark items, outline_sections isMark, List.nil_append,
    List.append_assoc]

/-- A query that drops the operators is answered without them. -/
theorem FunctionReference.terminalText_dropped {ink : Ink} {query : Option Text}
    {reference : FunctionReference} (dropped : keepsOperators query = false) :
    reference.terminalText ink query = .ok (reference.around ink query []) := by
  rw [terminalText_eq, shownOperators, dropped]
  rfl

/-! ### Queries -/

/-- The sections whose title contains a query, whatever the case of the letters. -/
def FunctionReference.matching (query : Text) (reference : FunctionReference) :
    List FunctionSection :=
  reference.sections.filter fun part => occursIn (lower query) (lower part.title)

theorem filterSections_some (query : Text) (reference : FunctionReference) :
    filterSections (some query) reference.sections = reference.matching query := rfl

theorem lower_nil : lower [] = [] := rfl

theorem occursIn_nil (text : Text) : occursIn [] text = true := by
  cases text <;> rfl

/-- Every title contains the empty query. -/
theorem matching_nil (reference : FunctionReference) : reference.matching [] = reference.sections :=
  List.filter_eq_self.mpr fun part _ => by rw [lower_nil, occursIn_nil]

theorem keepsOperators_nil : keepsOperators (some []) = true := by
  rw [keepsOperators, lower_nil, occursIn_nil, Bool.true_or]

/-- **A query that keeps the operators asks for the reference without the other sections.** -/
theorem FunctionReference.terminalText_kept {ink : Ink} {query : Text}
    {reference : FunctionReference} (kept : keepsOperators (some query) = true) :
    reference.terminalText ink (some query) =
      { reference with sections := reference.matching query }.terminalText ink none := by
  have all : keepsOperators none = true := rfl
  rw [terminalText, terminalText, kept, all]
  rfl

/-- **A query that drops the operators depends on nothing but the introduction and the sections that
match.** -/
theorem FunctionReference.terminalText_congr {ink : Ink} {query : Text}
    {reference other : FunctionReference} (dropped : keepsOperators (some query) = false)
    (prelude : other.prelude = reference.prelude)
    (same : other.matching query = reference.matching query) :
    other.terminalText ink (some query) = reference.terminalText ink (some query) := by
  rw [terminalText_dropped dropped, terminalText_dropped dropped, around, around, dropped, prelude,
    filterSections_some, filterSections_some, same]
  rfl

theorem alone_heading {title : Text} (alone : '\n' ∉ title) : '\n' ∉ "## ".toList ++ title := by
  rw [List.mem_append, not_or]
  exact ⟨by decide, alone⟩

/-- The lines of a summary are marked with hyphens, and those of the headers are not. -/
theorem outline_hyphens {parts : List FunctionSection} (alone : ∀ part ∈ parts, '\n' ∉ part.title) :
    ((parts.map fun part => "- ".toList ++ part.title).filter ("- ".toList.isPrefixOf ·) =
        parts.map fun part => "- ".toList ++ part.title) ∧
      (parts.flatMap fun part => outline "- ".toList ("## ".toList ++ part.title)) = [] := by
  refine ⟨List.filter_eq_self.mpr fun line member => ?_, List.flatMap_eq_nil_iff.mpr fun part member => ?_⟩
  · obtain ⟨part, -, rfl⟩ := List.mem_map.mp member
    exact List.isPrefixOf_iff_prefix.mpr (List.prefix_append _ _)
  · rw [outline_line _ (alone_heading (alone part member))]
    rfl

/-- The lines of the headers are marked with number signs, and those of a summary are not. -/
theorem outline_signs {parts : List FunctionSection} (alone : ∀ part ∈ parts, '\n' ∉ part.title) :
    (parts.map fun part => "- ".toList ++ part.title).filter ("## ".toList.isPrefixOf ·) = [] ∧
      (parts.flatMap fun part => outline "## ".toList ("## ".toList ++ part.title)) =
        parts.map fun part => "## ".toList ++ part.title := by
  refine ⟨List.filter_eq_nil_iff.mpr fun line member => ?_, ?_⟩
  · obtain ⟨part, -, rfl⟩ := List.mem_map.mp member
    exact Bool.false_ne_true
  · rw [List.map_eq_flatMap]
    refine List.flatMap_congr fun part member => ?_
    rw [outline_line _ (alone_heading (alone part member))]
    rfl

/-- **A query shows the titles that contain it, in the summary and in the headers.** -/
theorem outline_unstyled {query : Text} {reference : FunctionReference}
    (dropped : keepsOperators (some query) = false) (clear : Clear reference.texts)
    (oneLine : ∀ entry ∈ reference.entries, entry.OneLine)
    (alone : ∀ part ∈ reference.sections, '\n' ∉ part.title)
    (unmarked : ∀ line ∈ split '\n' reference.prelude,
      ¬ "## ".toList <+: line ∧ ¬ "- ".toList <+: line) :
    ∃ text, reference.terminalText .colored (some query) = .ok text ∧
      outline "- ".toList (unstyled text) =
        (reference.matching query).map (fun part => "- ".toList ++ part.title) ∧
      outline "## ".toList (unstyled text) =
        (reference.matching query).map (fun part => "## ".toList ++ part.title) := by
  have shows : Shows (reference.around .colored (some query) [])
      (reference.around .plain (some query) []) :=
    FunctionReference.shows_around clear oneLine shows_nil
  have introduction {mark : Text}
      (absent : ∀ line ∈ split '\n' reference.prelude, ¬ mark <+: line) :
      outline mark reference.prelude = [] := List.filter_eq_nil_iff.mpr fun line member begins =>
    absent line member (List.isPrefixOf_iff_prefix.mp begins)
  have matched : ∀ part ∈ reference.matching query, '\n' ∉ part.title := fun part member =>
    alone part (List.mem_filter.mp member).1
  obtain ⟨items, noHeaders⟩ := outline_hyphens matched
  obtain ⟨noItems, headers⟩ := outline_signs matched
  refine ⟨_, FunctionReference.terminalText_dropped dropped, ?_, ?_⟩
  · rw [shows.unstyled.2, outline_around ⟨'-', rfl, by decide⟩ dropped alone,
      introduction fun line member => (unmarked line member).2, filterSections_some, items,
      noHeaders, List.nil_append, List.append_nil]
  · rw [shows.unstyled.2, outline_around ⟨'#', rfl, by decide⟩ dropped alone,
      introduction fun line member => (unmarked line member).1, filterSections_some, noItems,
      headers, List.nil_append, List.nil_append]

/-- **What a query shows.** A query that drops the operators lists the sections whose titles contain
it, whatever the case of the letters, in the summary and in the headers and nowhere else; and the
operators and the other sections do not matter. A query that keeps the operators asks for the
reference without the other sections, and so the empty query asks for all of it. -/
theorem filtered_outline (reference : FunctionReference) (query : Text) :
    (keepsOperators (some query) = false →
      (Clear reference.texts → (∀ entry ∈ reference.entries, entry.OneLine) →
        (∀ part ∈ reference.sections, '\n' ∉ part.title) →
        (∀ line ∈ split '\n' reference.prelude,
          ¬ "## ".toList <+: line ∧ ¬ "- ".toList <+: line) →
        ∃ text, reference.terminalText .colored (some query) = .ok text ∧
          outline "- ".toList (unstyled text) =
            (reference.matching query).map (fun part => "- ".toList ++ part.title) ∧
          outline "## ".toList (unstyled text) =
            (reference.matching query).map (fun part => "## ".toList ++ part.title)) ∧
      ∀ other : FunctionReference, other.prelude = reference.prelude →
        other.matching query = reference.matching query →
          other.terminalText .colored (some query) =
            reference.terminalText .colored (some query)) ∧
    (keepsOperators (some query) = true →
      reference.terminalText .colored (some query) =
        { reference with sections := reference.matching query }.terminalText .colored none) ∧
    reference.terminalText .colored (some []) = reference.terminalText .colored none := by
  refine ⟨fun dropped => ⟨fun clear oneLine alone unmarked => ?_, fun other prelude same => ?_⟩,
    fun kept => FunctionReference.terminalText_kept kept, ?_⟩
  · exact outline_unstyled dropped clear oneLine alone unmarked
  · exact FunctionReference.terminalText_congr dropped prelude same
  · rw [FunctionReference.terminalText_kept keepsOperators_nil, matching_nil]

theorem filtered_outline_split :
    keepsOperators (some "STR".toList) = false ∧ keepsOperators (some "OPER".toList) = true ∧
      (∃ text, splitReference.terminalText .colored (some "STR".toList) = .ok text ∧
        outline "## ".toList (unstyled text) = ["## Strings\r".toList]) ∧
      splitReference.terminalText .colored (some "OPER".toList) =
        { splitReference with sections := [] }.terminalText .colored none := by
  have strings : splitReference.matching "STR".toList = [⟨"Strings\r".toList, [splitEntry]⟩] := by
    decide +kernel
  have nothing : splitReference.matching "OPER".toList = [] := by decide +kernel
  have dropped : keepsOperators (some "STR".toList) = false := by decide +kernel
  have kept : keepsOperators (some "OPER".toList) = true := by decide +kernel
  obtain ⟨text, laidOut, -, headers⟩ := ((filtered_outline splitReference "STR".toList).1 dropped).1
    (by decide) (by decide) (by decide) (by decide)
  have operators := (filtered_outline splitReference "OPER".toList).2.1 kept
  rw [strings] at headers
  rw [nothing] at operators
  exact ⟨dropped, kept, ⟨text, laidOut, headers⟩, operators⟩

end Handbook
