/-
**Both formats of a cheatsheet show the same.**

In Markdown a cheatsheet has its links to other references unwrapped, and on the terminal it is
colored as well. Two passes change more than colors: items of a list lose their links, and blocks of
code lose their fences. A cheatsheet in which neither finds anything shows in color what it shows in
Markdown, also where a comment lost the colors that it got from other passes.

* `shows_dimComments`: dimmed comments show what they showed before;
* `formats_agree`: without its colors a cheatsheet is its Markdown.
-/

import Handbook.Layout.Reference
import Handbook.Proofs.Colorize.Cheatsheet
import Handbook.Proofs.Pattern.Located

namespace Handbook

open Terminal Colorize Pattern Text

/-- **Dimmed comments show what they showed before.** -/
theorem Colorize.shows_dimComments {painted shown : Text} (shows : Shows painted shown) :
    Shows (dimComments painted) shown := by
  have line {words : Text} (intact : Intact words) (alone : '\n' ∉ words) :
      Shows (dimComments words) (stripColors words) := by
    by_cases isComment : IsComment words
    · rw [dimComments_comment alone isComment]
      exact shows_styled .dim _ (escape_not_mem_swept sweeps_colorSequence intact)
    · rw [dimComments_other alone isComment]
      exact ⟨intact, rfl⟩
  obtain ⟨intact, rfl⟩ := shows
  induction painted using induction_lines with
  | single words alone => exact line intact alone
  | next words rest alone step =>
    obtain ⟨front, back⟩ := intact_lineFeed_iff.mp intact
    have feed := shows_plain ['\n'] (by decide)
    rw [linewise_dimComments.append_lineFeed, stripColors_append front,
      stripColors_cons (by decide)]
    exact (line front alone).append (feed.append (step back))

/-- The passes that change more of a cheatsheet than its colors. -/
def restructuring : List String := ["list_link", "code_fence"]

/-- **Both formats of a cheatsheet show the same.** Where neither the pass over linked items nor the
pass over blocks of code finds anything when its turn comes, a cheatsheet on the terminal is, without
its colors, the cheatsheet in Markdown: the text with its links to other references unwrapped. -/
theorem formats_agree (body : Text) (query : Option Text) (clear : escape ∉ body)
    (absent : ∀ done pass, done ++ [pass] <+: cheatsheetPasses → pass.name ∈ restructuring →
      pass.pattern.occurrences (Pass.applyAll done body) = []) :
    ∃ colored, Reference.terminalText query (.cheatsheet body) = .ok colored ∧
      stripColors colored = unlinked body ∧
      Reference.markdown (.cheatsheet body) = .ok (stripColors colored) := by
  have noLinks : Pattern.listLink.occurrences (coloredProse body) = [] := by
    have found := absent (crossReferencePasses ++ [⟨"number", .number, whole .red⟩] ++ prosePasses)
      ⟨"list_link", .listLink, listLink⟩ ⟨_, rfl⟩ (by decide)
    rw [Pass.applyAll_append, Pass.applyAll_append, applyAll_single] at found
    exact found
  have unchanged : beforeCode body = coloredProse body := by
    rw [beforeCode_eq, replaceAll_of_occurrences noLinks]
  have noBlocks : Pattern.codeFence.occurrences (beforeCode body) = [] :=
    absent passesBeforeCode ⟨"code_fence", .codeFence, codeFence⟩ ⟨_, rfl⟩ (by decide)
  have shows : Shows (cheatsheet body) (unlinked body) := by
    rw [cheatsheet_eq, replaceAll_of_occurrences noBlocks, unchanged]
    exact shows_dimComments (shows_coloredProse clear)
  refine ⟨cheatsheet body, rfl, shows.visible, ?_⟩
  rw [shows.visible]
  rfl

/-- A pass and the passes before it, by the number of these. -/
theorem exists_place {done passes : List Pass} {pass : Pass}
    (early : done ++ [pass] <+: passes) :
    ∃ place : Fin passes.length, done = passes.take place ∧ pass = passes[place] := by
  obtain ⟨rest, rfl⟩ := early
  refine ⟨⟨done.length, by simp⟩, ?_, ?_⟩ <;> simp

/-- A link to another reference, a quoted number, and a comment with a flag in quotes. -/
def commentedSheet : Text := "See [`xan help aggs`](./aggs.md): '1'\n    # \"--max 5\" ends".toList

theorem formats_agree_commentedSheet :
    escape ∉ commentedSheet ∧ ∃ colored,
      Reference.terminalText none (.cheatsheet commentedSheet) = .ok colored ∧
        stripColors colored = "See `xan help aggs`: '1'\n    # \"--max 5\" ends".toList := by
  have clear : escape ∉ commentedSheet := by decide
  have absent : ∀ place : Fin cheatsheetPasses.length,
      cheatsheetPasses[place].name ∈ restructuring →
        cheatsheetPasses[place].pattern.occurrences
          (Pass.applyAll (cheatsheetPasses.take place) commentedSheet) = [] := by
    decide +kernel
  obtain ⟨colored, laidOut, same, -⟩ := formats_agree commentedSheet none clear <| by
    intro done pass early named
    obtain ⟨place, rfl, rfl⟩ := exists_place early
    exact absent place named
  have unlinks : unlinked commentedSheet =
      "See `xan help aggs`: '1'\n    # \"--max 5\" ends".toList := by decide +kernel
  exact ⟨clear, colored, laidOut, same.trans unlinks⟩

end Handbook
