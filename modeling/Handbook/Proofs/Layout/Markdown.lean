/-
**The lines of sections in Markdown.**

In Markdown a section is the line of its title, a blank line, a line for each item of its entries,
and a blank line. An entry has one item, and one more for each alternative. Whatever its help text
holds, it stands on the line of its item, since its line feeds become breaks; aliases stand there,
too. So the lines can be counted, and the headers among them are the titles, in the order of the
table of contents.

* `lineFeed_not_mem_signatureMarkdown`: an item stands on one line;
* `markdown_lines`: the lines of sections.
-/

import Handbook.Proofs.Layout.Outline
import Handbook.Proofs.Markdown.Anchor
import Handbook.Proofs.Markdown.LineBreak

namespace Handbook

open Text Markdown

/-! ### Texts made of lines -/

/-- **Lines that are ended and put together are cut again into them**, and nothing follows the last
one. -/
theorem split_ended {lines : List Text} (alone : ∀ line ∈ lines, '\n' ∉ line) :
    split '\n' (lines.flatMap fun line => line ++ ['\n']) = lines ++ [[]] := by
  induction lines with
  | nil => rfl
  | cons line others step =>
    rw [List.flatMap_cons, List.append_assoc, List.singleton_append, split_append_cons,
      split_of_not_mem (alone line (List.mem_cons_self ..)),
      step fun other member => alone other (List.mem_cons_of_mem _ member)]
    rfl

/-- Lines put together are ended one by one, if there are any. -/
theorem intercalate_ended (line : Text) (others : List Text) :
    ['\n'].intercalate (line :: others) ++ ['\n'] =
      (line :: others).flatMap fun line => line ++ ['\n'] := by
  induction others generalizing line with
  | nil => rw [List.intercalate_singleton, List.flatMap_singleton]
  | cons next rest step =>
    rw [List.intercalate_cons_cons, List.append_assoc, step]
    rfl

/-! ### Items -/

theorem lineFeed_not_mem_escapeArgument {argument : Text} (alone : '\n' ∉ argument) :
    '\n' ∉ escapeArgument argument := by
  intro member
  obtain ⟨c, inside, written⟩ := List.mem_flatMap.mp member
  have same : '\n' = c := by
    split at written
    · simpa using written
    · simpa using written
  exact alone (same ▸ inside)

theorem lineFeed_not_mem_listed {write : Text → Text} {texts : List Text}
    (alone : ∀ text ∈ texts, '\n' ∉ write text) :
    '\n' ∉ commaSpace.intercalate (texts.map write) := by
  intro member
  rcases mem_of_mem_intercalate member with between | ⟨part, found, inside⟩
  · exact absurd between (by decide)
  · obtain ⟨text, listed, rfl⟩ := List.mem_map.mp found
    exact alone text listed inside

namespace Entry

theorem signatureMarkdown_eq (entry : Entry) (arguments : Option (List Text)) :
    entry.signatureMarkdown arguments =
      "- **".toList ++ entry.name ++ "**".toList ++ (callMarkdown arguments ++ (" -> `".toList
        ++ (entry.returns ++ ("`".toList ++ (aliasesMarkdown entry.aliases ++ (": ".toList
          ++ escapeLineBreaks entry.help)))))) := by
  unfold signatureMarkdown
  simp only [List.append_assoc]

theorem lineFeed_not_mem_callMarkdown {arguments : Option (List Text)}
    (alone : ∀ argument ∈ arguments.getD [], '\n' ∉ argument) : '\n' ∉ callMarkdown arguments := by
  cases arguments with
  | none => exact List.not_mem_nil
  | some arguments =>
    have inside : '\n' ∉ commaSpace.intercalate (arguments.map markdownArgument) :=
      lineFeed_not_mem_listed fun argument found => by
        simpa [markdownArgument] using lineFeed_not_mem_escapeArgument (alone argument found)
    simpa [callMarkdown] using inside

theorem lineFeed_not_mem_aliasesMarkdown {aliases : Option (List Text)}
    (alone : ∀ other ∈ aliases.getD [], '\n' ∉ other) : '\n' ∉ aliasesMarkdown aliases := by
  cases aliases with
  | none => exact List.not_mem_nil
  | some aliases =>
    have mark : '\n' ∉ " (aliases: ".toList ∧ '\n' ∉ "**".toList ∧ '\n' ∉ [')'] := by decide
    have inside : '\n' ∉ commaSpace.intercalate
        (aliases.map fun other => "**".toList ++ other ++ "**".toList) :=
      lineFeed_not_mem_listed fun other found => by
        simp only [List.mem_append, not_or]
        exact ⟨⟨mark.2.1, alone other found⟩, mark.2.1⟩
    unfold aliasesMarkdown
    simp only [List.mem_append, not_or]
    exact ⟨⟨mark.1, inside⟩, mark.2.2⟩

/-- **An item stands on one line**, whatever the help text holds. -/
theorem lineFeed_not_mem_signatureMarkdown {entry : Entry}
    (alone : ∀ text ∈ entry.signatureTexts, '\n' ∉ text) {arguments : Option (List Text)}
    (form : (entry.name, arguments) ∈ entry.callForms) :
    '\n' ∉ entry.signatureMarkdown arguments := by
  obtain ⟨named, listed⟩ := mem_signatureTexts form
  have call := lineFeed_not_mem_callMarkdown fun argument found => alone argument (listed found)
  have aliases : '\n' ∉ aliasesMarkdown entry.aliases :=
    lineFeed_not_mem_aliasesMarkdown fun other found =>
      alone other (by simp [signatureTexts, names, found])
  have returned := alone entry.returns (by simp [signatureTexts])
  have marks : '\n' ∉ "- **".toList ∧ '\n' ∉ "**".toList ∧ '\n' ∉ " -> `".toList ∧
    '\n' ∉ "`".toList ∧ '\n' ∉ ": ".toList := by decide
  obtain ⟨item, bold, arrow, tick, colon⟩ := marks
  rw [signatureMarkdown_eq]
  simp only [List.mem_append, not_or]
  exact ⟨⟨⟨item, alone _ named⟩, bold⟩, call, arrow, returned, tick, aliases, colon,
    lineFeed_not_mem_escapeLineBreaks _⟩

theorem markdown_eq (entry : Entry) :
    entry.markdown = entry.markdownItems.flatMap fun line => line ++ ['\n'] :=
  intercalate_ended _ _

theorem length_markdownItems (entry : Entry) :
    entry.markdownItems.length = 1 + (entry.alternatives.getD []).length := by
  rw [markdownItems, List.length_cons, List.length_map, Nat.add_comm]

/-- The items of an entry show it under its name. -/
theorem exists_of_mem_markdownItems {entry : Entry} {line : Text}
    (member : line ∈ entry.markdownItems) : ∃ arguments,
      (entry.name, arguments) ∈ entry.callForms ∧ line = entry.signatureMarkdown arguments := by
  rcases List.mem_cons.mp member with rfl | other
  · exact ⟨_, by simp [callForms], rfl⟩
  · obtain ⟨arguments, listed, rfl⟩ := List.mem_map.mp other
    exact ⟨some arguments, by simp [callForms, listed], rfl⟩

/-- Each item begins with the name of the entry. -/
theorem prefix_of_mem_markdownItems {entry : Entry} {line : Text}
    (member : line ∈ entry.markdownItems) :
    "- **".toList ++ entry.name ++ "**".toList <+: line := by
  obtain ⟨arguments, -, rfl⟩ := exists_of_mem_markdownItems member
  rw [signatureMarkdown_eq]
  exact List.prefix_append _ _

end Entry

/-! ### Sections -/

namespace FunctionSection

/-- The lines of a section: its header, the items of its entries, and blank lines around these. -/
def markdownLines (part : FunctionSection) : List Text :=
  ("## ".toList ++ part.title) :: [] :: part.functions.flatMap Entry.markdownItems ++ [[]]

theorem markdown_eq (part : FunctionSection) :
    part.markdown = part.markdownLines.flatMap fun line => line ++ ['\n'] := by
  have entries : entriesMarkdown part.functions =
      (part.functions.flatMap Entry.markdownItems).flatMap fun line => line ++ ['\n'] := by
    rw [entriesMarkdown, List.flatMap_assoc]
    exact List.flatMap_congr fun entry _ => entry.markdown_eq
  rw [markdown, header, entries, markdownLines]
  simp

theorem lineFeed_not_mem_markdownLines {part : FunctionSection} (title : '\n' ∉ part.title)
    (alone : ∀ entry ∈ part.functions, ∀ text ∈ entry.signatureTexts, '\n' ∉ text) :
    ∀ line ∈ part.markdownLines, '\n' ∉ line := by
  intro line member
  simp only [markdownLines, List.cons_append, List.mem_cons, List.mem_append, List.mem_flatMap,
    List.not_mem_nil, or_false] at member
  rcases member with rfl | rfl | ⟨entry, found, item⟩ | rfl
  · exact alone_heading title
  · exact List.not_mem_nil
  · obtain ⟨arguments, form, rfl⟩ := Entry.exists_of_mem_markdownItems item
    exact Entry.lineFeed_not_mem_signatureMarkdown (alone entry found) form
  · exact List.not_mem_nil

/-- Among the lines of a section only its header begins with two number signs. -/
theorem filter_markdownLines (part : FunctionSection) :
    part.markdownLines.filter ("## ".toList.isPrefixOf ·) = ["## ".toList ++ part.title] := by
  have items : (part.functions.flatMap Entry.markdownItems).filter ("## ".toList.isPrefixOf ·) =
      [] := by
    refine List.filter_eq_nil_iff.mpr fun line member begins => ?_
    obtain ⟨entry, -, item⟩ := List.mem_flatMap.mp member
    obtain ⟨rest, rfl⟩ := Entry.prefix_of_mem_markdownItems item
    cases begins
  rw [markdownLines, List.filter_append, List.filter_cons_of_pos, List.filter_cons_of_neg, items]
  · rfl
  · exact Bool.false_ne_true
  · exact List.isPrefixOf_iff_prefix.mpr (List.prefix_append _ _)

end FunctionSection

/-! ### The table of contents -/

open FunctionReference (contentsLine summaryMarkdown)

theorem contentsLine_eq (title : Text) :
    contentsLine title = "- [".toList ++ title ++ "](#".toList ++ anchor title ++ [')'] := rfl

theorem lineFeed_not_mem_contentsLine {title : Text} (alone : '\n' ∉ title) :
    '\n' ∉ contentsLine title := by
  have marks : '\n' ∉ "- [".toList ∧ '\n' ∉ "](#".toList ∧ '\n' ∉ [')'] := by decide
  have link : '\n' ∉ anchor title := fun member =>
    absurd (isAnchorLetter_of_mem member) (by decide)
  rw [contentsLine_eq]
  simp only [List.mem_append, not_or]
  exact ⟨⟨⟨⟨marks.1, alone⟩, marks.2.1⟩, link⟩, marks.2.2⟩

/-- The table of contents has a line for each title, and no others that are marked as one. -/
theorem outline_summaryMarkdown {sections : List FunctionSection}
    (alone : ∀ part ∈ sections, '\n' ∉ part.title) :
    outline "- [".toList (FunctionReference.summaryMarkdown sections) =
      sections.map fun part => contentsLine part.title := by
  have isMark : IsMark "- [".toList := ⟨'-', rfl, by decide⟩
  have lines : FunctionReference.summaryMarkdown sections =
      ['\n'].intercalate (sections.map fun part => contentsLine part.title)
        ++ '\n' :: ([] ++ '\n' :: []) := by
    unfold summaryMarkdown
    simp
  have each : ∀ line ∈ sections.map fun part => contentsLine part.title, '\n' ∉ line := by
    intro line member
    obtain ⟨part, found, rfl⟩ := List.mem_map.mp member
    exact lineFeed_not_mem_contentsLine (alone part found)
  rw [lines, outline_append_lineFeed, outline_append_lineFeed, outline_nil isMark,
    outline_intercalate isMark each, List.append_nil, List.append_nil]
  refine List.filter_eq_self.mpr fun line member => ?_
  obtain ⟨part, -, rfl⟩ := List.mem_map.mp member
  rw [List.isPrefixOf_iff_prefix, contentsLine_eq]
  simp only [List.append_assoc]
  exact List.prefix_append _ _

/-- The sections stand at the end of a reference in Markdown, behind the table of contents. -/
theorem exists_of_markdown {reference : FunctionReference} {text : Text}
    (laidOut : reference.markdown = .ok text) : ∃ front between,
      text = front ++ FunctionReference.summaryMarkdown reference.sections ++ between
        ++ reference.sections.flatMap FunctionSection.markdown := by
  obtain ⟨operators, -, same⟩ := bind_eq_ok_iff.mp laidOut
  exact ⟨_, operators ++ ['\n'], by rw [← Except.ok.inj same, ← List.append_assoc]⟩

/-- **The lines of sections in Markdown.** Each section is its header, a blank line, the items of its
entries in order, one and one more for each alternative, and a blank line; nothing follows the last
section. Each item begins with the name of its entry. So the lines that are headers are the titles,
in the order of the table of contents, which stands in front of the sections. -/
theorem markdown_lines {sections : List FunctionSection}
    (titles : ∀ part ∈ sections, '\n' ∉ part.title)
    (signatures : ∀ part ∈ sections, ∀ entry ∈ part.functions,
      ∀ text ∈ entry.signatureTexts, '\n' ∉ text) :
    split '\n' (sections.flatMap FunctionSection.markdown) =
      (sections.flatMap fun part => ("## ".toList ++ part.title) :: [] ::
        part.functions.flatMap Entry.markdownItems ++ [[]]) ++ [[]] ∧
    (∀ entry : Entry,
      entry.markdownItems.length = 1 + (entry.alternatives.getD []).length ∧
      ∀ line ∈ entry.markdownItems, "- **".toList ++ entry.name ++ "**".toList <+: line) ∧
    outline "## ".toList (sections.flatMap FunctionSection.markdown) =
      sections.map (fun part => "## ".toList ++ part.title) ∧
    outline "- [".toList (FunctionReference.summaryMarkdown sections) =
      sections.map (fun part => "- [".toList ++ part.title ++ "](#".toList
        ++ anchor part.title ++ [')']) ∧
    ∀ prelude operators text,
      FunctionReference.markdown ⟨prelude, operators, sections⟩ = .ok text → ∃ front between,
        text = front ++ FunctionReference.summaryMarkdown sections ++ between
          ++ sections.flatMap FunctionSection.markdown := by
  have lines : split '\n' (sections.flatMap FunctionSection.markdown) =
      sections.flatMap FunctionSection.markdownLines ++ [[]] := by
    rw [List.flatMap_congr fun part _ => part.markdown_eq, ← List.flatMap_assoc]
    refine split_ended fun line member => ?_
    obtain ⟨part, found, inside⟩ := List.mem_flatMap.mp member
    exact FunctionSection.lineFeed_not_mem_markdownLines (titles part found)
      (signatures part found) line inside
  refine ⟨lines, fun entry => ⟨entry.length_markdownItems, fun line => ?_⟩, ?_,
    outline_summaryMarkdown titles, fun prelude operators text => exists_of_markdown⟩
  · exact Entry.prefix_of_mem_markdownItems
  · rw [outline, lines, List.filter_append, List.filter_flatMap, List.map_eq_flatMap]
    rw [List.flatMap_congr fun part _ => part.filter_markdownLines]
    exact List.append_nil _

/-- The header in the help text stands in an item, and the alias adds no item. -/
theorem markdown_lines_split :
    (∀ part ∈ splitReference.sections, '\n' ∉ part.title) ∧
      (split '\n' (splitReference.sections.flatMap FunctionSection.markdown)).length = 9 ∧
      outline "## ".toList (splitReference.sections.flatMap FunctionSection.markdown) =
        ["## Strings\r".toList, "## Lists".toList] := by
  have titles : ∀ part ∈ splitReference.sections, '\n' ∉ part.title := by decide
  obtain ⟨lines, -, headers, -⟩ := markdown_lines titles (by decide)
  refine ⟨titles, ?_, headers⟩
  rw [lines]
  rfl

end Handbook
