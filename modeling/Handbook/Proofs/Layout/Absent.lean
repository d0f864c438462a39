/-
**Lists that are empty, and lists that are absent.**

A document may give an entry an empty list of aliases, or of alternatives, or none at all. The names
and the call forms of an entry, and with them its layout on the terminal, depend on what is listed
only, so for them the two are the same; so are alternatives in Markdown. An empty list of aliases is
still announced there, in parentheses with nothing in them.

* `ListsSame.callForms`, `ListsSame.terminalText`: what depends on the listed texts only;
* `ListsSame.markdown`: in Markdown the aliases count as they are given;
* `markdown_ne`: an empty list of aliases is told from an absent one;
* `empty_shown_as_absent_iff`: which views change when an empty list is left out.
-/

import Handbook.Proofs.Layout.Markdown

namespace Handbook

/-- A list that is left out when it is empty. -/
def unlessEmpty {Item : Type} : Option (List Item) → Option (List Item)
  | some [] => none
  | given => given

theorem getD_unlessEmpty {Item : Type} (given : Option (List Item)) :
    (unlessEmpty given).getD [] = given.getD [] := by
  rcases given with _ | _ | _ <;> rfl

theorem unlessEmpty_of_ne {Item : Type} {given : Option (List Item)} (filled : given ≠ some []) :
    unlessEmpty given = given := by
  rcases given with _ | _ | _
  · rfl
  · exact absurd rfl filled
  · rfl

namespace Entry

/-- An entry without its list of aliases, if that is empty. -/
def withoutEmptyAliases (entry : Entry) : Entry :=
  { entry with aliases := unlessEmpty entry.aliases }

/-- An entry without its list of alternatives, if that is empty. -/
def withoutEmptyAlternatives (entry : Entry) : Entry :=
  { entry with alternatives := unlessEmpty entry.alternatives }

/-! ### What depends on the listed texts -/

/-- Two entries that say the same and list the same, whether empty lists are given or not. -/
structure ListsSame (one other : Entry) : Prop where
  name : one.name = other.name
  arguments : one.arguments = other.arguments
  returns : one.returns = other.returns
  help : one.help = other.help
  aliases : one.aliases.getD [] = other.aliases.getD []
  alternatives : one.alternatives.getD [] = other.alternatives.getD []

theorem listsSame_withoutEmptyAliases (entry : Entry) :
    ListsSame entry.withoutEmptyAliases entry where
  name := rfl
  arguments := rfl
  returns := rfl
  help := rfl
  aliases := getD_unlessEmpty entry.aliases
  alternatives := rfl

theorem listsSame_withoutEmptyAlternatives (entry : Entry) :
    ListsSame entry.withoutEmptyAlternatives entry where
  name := rfl
  arguments := rfl
  returns := rfl
  help := rfl
  aliases := rfl
  alternatives := getD_unlessEmpty entry.alternatives

namespace ListsSame

variable {one other : Entry} (same : ListsSame one other)

include same

theorem names : one.names = other.names := by
  rw [Entry.names, Entry.names, same.name, same.aliases]

/-- **Call forms depend on the listed texts only.** -/
theorem callForms : one.callForms = other.callForms := by
  rw [Entry.callForms, Entry.callForms, same.name, same.arguments, same.aliases, same.alternatives]

theorem signatureText (ink : Ink) (name : Text) (arguments : Option (List Text)) :
    one.signatureText ink name arguments = other.signatureText ink name arguments := by
  rw [signatureText_eq, signatureText_eq, same.returns]

/-- **So does the layout on the terminal.** -/
theorem terminalText (ink : Ink) : one.terminalText ink = other.terminalText ink := by
  have help : one.helpText ink = other.helpText ink := by rw [helpText, helpText, same.help]
  rw [Entry.terminalText, Entry.terminalText, same.callForms, help]
  simp only [same.signatureText]

/-- **In Markdown the aliases count as they are given.** -/
theorem markdown (aliases : one.aliases = other.aliases) : one.markdown = other.markdown := by
  have item (arguments : Option (List Text)) :
      one.signatureMarkdown arguments = other.signatureMarkdown arguments := by
    rw [signatureMarkdown_eq, signatureMarkdown_eq, same.name, same.returns, same.help, aliases]
  rw [markdown_eq, markdown_eq, markdownItems, markdownItems, same.arguments, same.alternatives]
  simp only [item]

end ListsSame

/-! ### Aliases in Markdown -/

/-- The first item begins with the name, the arguments and the return type, and then come the
aliases. -/
theorem exists_markdown_rest (entry : Entry) : ∃ rest,
    entry.markdown = "- **".toList ++ entry.name ++ "**".toList ++ callMarkdown entry.arguments
      ++ " -> `".toList ++ entry.returns ++ "`".toList
      ++ (aliasesMarkdown entry.aliases ++ ':' :: rest) := by
  rw [markdown_eq, markdownItems, List.flatMap_cons, signatureMarkdown_eq]
  simp only [List.append_assoc]
  exact ⟨_, rfl⟩

/-- **An empty list of aliases is told from an absent one**, since it is announced where the colon
stands without it. -/
theorem markdown_ne {entry : Entry} (empty : entry.aliases = some []) :
    entry.withoutEmptyAliases.markdown ≠ entry.markdown := by
  obtain ⟨rest, absent⟩ := exists_markdown_rest entry.withoutEmptyAliases
  obtain ⟨rest', given⟩ := exists_markdown_rest entry
  have left : entry.withoutEmptyAliases.aliases = none := congrArg unlessEmpty empty
  rw [left] at absent
  rw [empty] at given
  intro same
  have behind := List.append_cancel_left (absent.symm.trans (same.trans given))
  exact absurd (List.cons.inj behind).1 (by decide)

/-! ### The views of an entry -/

/-- Two entries that look the same in every view. -/
structure SameViews (one other : Entry) : Prop where
  names : one.names = other.names
  callForms : one.callForms = other.callForms
  terminalText : ∀ ink, one.terminalText ink = other.terminalText ink
  markdown : one.markdown = other.markdown

theorem ListsSame.sameViews {one other : Entry} (same : ListsSame one other)
    (aliases : one.aliases = other.aliases) : SameViews one other :=
  ⟨same.names, same.callForms, same.terminalText, same.markdown aliases⟩

/-- **Which views change when an empty list is left out.** Without an empty list of alternatives no
view of an entry changes. Without an empty list of aliases its names, its call forms and its layout on
the terminal stay, and in Markdown it always changes. -/
theorem empty_shown_as_absent_iff (entry : Entry) :
    SameViews entry.withoutEmptyAlternatives entry ∧
      entry.withoutEmptyAliases.names = entry.names ∧
      entry.withoutEmptyAliases.callForms = entry.callForms ∧
      (∀ ink, entry.withoutEmptyAliases.terminalText ink = entry.terminalText ink) ∧
      (SameViews entry.withoutEmptyAliases entry ↔ entry.aliases ≠ some []) := by
  have same := entry.listsSame_withoutEmptyAliases
  refine ⟨entry.listsSame_withoutEmptyAlternatives.sameViews rfl, same.names, same.callForms,
    same.terminalText, fun views empty => ?_, fun filled => ?_⟩
  · exact markdown_ne empty views.markdown
  · exact same.sameViews (unlessEmpty_of_ne filled)

/-- An entry with an empty list of aliases. -/
def unaliased : Entry :=
  ⟨"f".toList, some ["x".toList], "T".toList, "Help.".toList, some [], none⟩

theorem unaliased_announced : ¬ SameViews unaliased.withoutEmptyAliases unaliased := fun views =>
  absurd views.markdown (by decide)

end Entry

end Handbook
