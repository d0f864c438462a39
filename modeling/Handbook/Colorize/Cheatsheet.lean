/-
**Coloring of cheatsheets.**

The pipeline for whole cheatsheets: links become code spans, numbers and prose are colored, summary
lists lose their links, and fenced blocks their fences. Comments come last: each loses the colors
that it got before and is dimmed as a whole.
-/

import Handbook.Colorize.Code
import Handbook.Colorize.CrossReference
import Handbook.Pattern.Sheet

namespace Handbook.Colorize

open Terminal

/-- An item of a list without its link. -/
def listLink (found : Match) : Text := ['-', ' '] ++ found.group

/-- A comment, dimmed as a whole. -/
def comment (found : Match) : Text := styled .dim (stripColors found.lexeme)

/-- The passes that color cheatsheets. -/
def cheatsheetPasses : List Pass :=
  crossReferencePasses ++ [⟨"number", .number, whole .red⟩] ++ prosePasses ++
    [⟨"list_link", .listLink, listLink⟩,
      ⟨"code_fence", .codeFence, codeFence⟩,
      ⟨"comment", .comment, comment⟩]

/-- A colored cheatsheet. -/
def cheatsheet (text : Text) : Text := Pass.applyAll cheatsheetPasses text

end Handbook.Colorize
