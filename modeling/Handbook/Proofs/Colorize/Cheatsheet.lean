/-
**When coloring of cheatsheets leaves torn sequences.**

Up to the fenced blocks every pass over a cheatsheet keeps all sequences whole. A block tears a
sequence where a literal runs into the name or the parenthesis of a call, and only a comment mends
what is torn.

* `intact_beforeCode`: before its blocks are colored, a cheatsheet has whole sequences only;
* `clean_append_replaced`: each block answers for its own lines;
* `cheatsheet_whole_iff`: a colored cheatsheet has whole sequences only, and its colors can be
  removed, exactly when no block tears a sequence.
-/

import Handbook.Proofs.Colorize.Comment
import Handbook.Proofs.Colorize.Prose

namespace Handbook.Colorize

open Terminal Pattern Text

/-! ### Before code is colored -/

/-- The passes over a cheatsheet before its fenced blocks are colored. -/
def passesBeforeCode : List Pass :=
  crossReferencePasses ++ [⟨"number", .number, whole .red⟩] ++ prosePasses ++
    [⟨"list_link", .listLink, listLink⟩]

/-- A cheatsheet before its fenced blocks are colored. -/
def beforeCode (text : Text) : Text := Pass.applyAll passesBeforeCode text

theorem escape_not_mem_unlinked {text : Text} (clear : escape ∉ text) :
    escape ∉ Pass.applyAll crossReferencePasses text := by
  have spans : ∀ reference ∈ crossReferences, escape ∉ reference.span := by decide
  have run : ∀ references : List CrossReference, (∀ one ∈ references, escape ∉ one.span) →
      ∀ text, escape ∉ text → escape ∉ Pass.applyAll (references.map CrossReference.pass) text := by
    intro references clear
    induction references with
    | nil => exact fun text absent => absent
    | cons reference others step =>
      intro text absent
      refine step (fun one member => clear one (List.mem_cons_of_mem _ member)) _ ?_
      exact not_mem_replaceAll absent fun _ _ _ => clear reference (List.mem_cons_self ..)
  exact run crossReferences spans text clear

/-- An item of a list that is a link. -/
def linkedItem (label target : Text) : Text :=
  "- [".toList ++ label ++ ("](#".toList ++ target) ++ [')']

/-- An occurrence of a linked item in an intact text has an intact label. -/
theorem exists_linkedItem {before : Option Char} {lexeme rest : Text} {groups : List Text}
    (whole : Intact lexeme)
    (found : Pattern.listLink.reach? before (lexeme ++ rest) = some ⟨lexeme.length, groups⟩) :
    ∃ label target, Intact label ∧ lexeme = linkedItem label target ∧ groups = [label] := by
  obtain ⟨label, target, later, _, cut, size⟩ := reach?_listLink found
  obtain ⟨rfl, rfl⟩ := occurrence_eq cut size
  refine ⟨label, target, ?_, rfl, rfl⟩
  rw [List.append_assoc, List.append_assoc, List.append_assoc] at whole
  exact whole.of_append_right.of_stops (stops_cons (by decide) _)

theorem intact_listLink {text : Text} (intact : Intact text) :
    Intact (Pattern.listLink.replaceAll listLink text) := by
  refine (aligned_listLink.woven intact).intact fun {before lexeme groups rest} whole found => ?_
  obtain ⟨label, target, labeled, rfl, rfl⟩ := exists_linkedItem whole found
  exact (intact_of_not_mem (by decide)).append labeled

theorem applyAll_single (pass : Pass) (text : Text) :
    Pass.applyAll [pass] text = pass.pattern.replaceAll pass.replace text := rfl

/-- A cheatsheet with code spans in place of its links, and with its numbers and its prose in
color. -/
def coloredProse (text : Text) : Text :=
  prose (Pattern.number.replaceAll (whole .red) (unlinked text))

theorem shows_coloredProse {text : Text} (clear : escape ∉ text) :
    Shows (coloredProse text) (unlinked text) := by
  have numbers : Shows (Pattern.number.replaceAll (whole .red) (unlinked text)) (unlinked text) :=
    shows_replaceAll (escape_not_mem_unlinked clear) fun found absent =>
      shows_colored .red found.lexeme absent
  exact numbers.applyAll recolors_of_mem

theorem beforeCode_eq (text : Text) :
    beforeCode text = Pattern.listLink.replaceAll listLink (coloredProse text) := by
  rw [beforeCode, passesBeforeCode, Pass.applyAll_append, Pass.applyAll_append,
    Pass.applyAll_append, applyAll_single, applyAll_single]
  rfl

/-- **Before its blocks are colored, a cheatsheet has whole sequences only.** -/
theorem intact_beforeCode {text : Text} (clear : escape ∉ text) : Intact (beforeCode text) := by
  rw [beforeCode_eq]
  exact intact_listLink (shows_coloredProse clear).intact

/-! ### Block by block -/

/-- A block of code with its literals colored. -/
def colorLiterals (text : Text) : Text := Pattern.codeLiteral.replaceAll (whole .yellow) text

theorem intact_colorLiterals {text : Text} (intact : Intact text) : Intact (colorLiterals text) :=
  (aligned_codeLiteral.woven intact).intact fun whole _ => whole.colored .yellow

/-- An occurrence of a block in an intact text holds intact code behind a line feed. -/
theorem exists_code {before : Option Char} {lexeme rest : Text} {groups : List Text}
    (whole : Intact lexeme)
    (found : Pattern.codeFence.reach? before (lexeme ++ rest) = some ⟨lexeme.length, groups⟩) :
    ∃ code, Intact code ∧ groups = ['\n' :: code] := by
  obtain ⟨language, code, later, _, _, cut, size⟩ := reach?_codeFence found
  obtain ⟨rfl, rfl⟩ := occurrence_eq cut size
  rw [List.append_assoc, List.cons_append] at whole
  exact ⟨code, whole.of_append_right.of_cons.of_stops (stops_cons (by decide) _), rfl⟩

theorem colorLiterals_lineFeed (code : Text) :
    colorLiterals ('\n' :: code) = '\n' :: colorLiterals code := by
  have forward : Pattern.codeLiteral.Forward := fun _ _ => rfl
  have absent : Pattern.codeLiteral.reach? none ('\n' :: code) = none := by
    cases found : Pattern.codeLiteral.reach? none ('\n' :: code) with
    | none => rfl
    | some reach =>
      have begins : ∀ word ∈ codeLiterals, word.head? ≠ none ∧ word.head? ≠ some '\n' := by decide
      obtain ⟨word, rest, member, cut, _⟩ := reach?_codeLiteral found
      cases word with
      | nil => exact absurd rfl (begins [] member).1
      | cons c others => exact absurd (congrArg some (List.cons.inj cut).1.symm) (begins _ member).2
  rw [colorLiterals, replaceAll_eq, replaceFrom_plain absent, forward.replaceFrom_eq]
  rfl

theorem codeFence_eq (block : Match) : codeFence block = finish (colorLiterals block.group) := rfl

/-- A block begins on a line of its own. -/
theorem finish_lineFeed (code : Text) :
    finish (colorLiterals ('\n' :: code)) = '\n' :: finish (colorLiterals code) := by
  have whole := linewise_finish.append_lineFeed [] (colorLiterals code)
  rw [colorLiterals_lineFeed]
  exact whole

/-- **Each block answers for its own lines.** -/
theorem clean_append_replaced {text : Text} {pieces : List Piece}
    (woven : Woven Pattern.codeFence text pieces) {earlier : Text} (frayed : Frayed earlier) :
    Clean (earlier ++ pieces.flatMap (Piece.replaced codeFence)) ↔
      Clean earlier ∧ ∀ block, .found block ∈ pieces → Clean (codeFence block) := by
  induction woven generalizing earlier with
  | nil => simp
  | @plain c rest pieces plain _ step =>
    have alone : Intact [c] := intact_nil.cons plain
    rw [List.flatMap_cons, ← List.append_assoc]
    refine (step (frayed.append (.of_intact alone))).trans ?_
    simp [clean_append frayed alone]
  | @sequence code rest pieces isCode _ step =>
    have alone := intact_select isCode
    rw [List.flatMap_append, flatMap_replaced_plain, ← List.append_assoc]
    refine (step (frayed.append (.of_intact alone))).trans ?_
    simp [clean_append frayed alone]
  | @found before lexeme groups rest pieces _ one found _ step =>
    obtain ⟨code, intact, rfl⟩ := exists_code one found
    have frays := frays_finish (intact_colorLiterals intact)
    have block : codeFence ⟨lexeme, ['\n' :: code]⟩ = '\n' :: finish (colorLiterals code) := by
      rw [codeFence_eq, Match.group, List.headD_cons, finish_lineFeed]
    have apart : Clean ('\n' :: finish (colorLiterals code)) ↔ Clean (finish (colorLiterals code)) :=
      (@clean_lineFeed_iff [] _).trans (and_iff_right (clean_of_intact intact_nil))
    rw [List.flatMap_cons, Piece.replaced, block, List.cons_append, clean_lineFeed_iff,
      step frays.frayed]
    simp [block, apart]

theorem frayed_replaced {text : Text} {pieces : List Piece}
    (woven : Woven Pattern.codeFence text pieces) :
    Frayed (pieces.flatMap (Piece.replaced codeFence)) := by
  induction woven with
  | nil => exact .nil
  | plain plain _ step => exact .plain plain step
  | sequence isCode _ step =>
    rw [List.flatMap_append, flatMap_replaced_plain]
    exact .sequence isCode step
  | found _ one found _ step =>
    obtain ⟨code, intact, rfl⟩ := exists_code one found
    have frays := frays_finish (intact_colorLiterals (intact.cons (by decide : '\n' ≠ escape)))
    rw [List.flatMap_cons, Piece.replaced, codeFence_eq, Match.group, List.headD_cons]
    exact frays.frayed.append step

/-! ### The whole pipeline -/

/-- A line that runs a color sequence into a call, and that does not become a comment. -/
def TornLine (line : Text) : Prop := GluedCall line ∧ ¬ BeginsComment line

/-- A cheatsheet with a fenced block of code that tears a sequence. -/
def TearsSequence (text : Text) : Prop :=
  ∃ block, .found block ∈ Pattern.codeFence.pieces (beforeCode text) ∧
    ∃ line ∈ split '\n' (colorLiterals block.group), TornLine line

theorem cheatsheet_eq (text : Text) :
    cheatsheet text = dimComments (Pattern.codeFence.replaceAll codeFence (beforeCode text)) := by
  have passes : cheatsheetPasses = passesBeforeCode ++
      [⟨"code_fence", .codeFence, codeFence⟩] ++ [⟨"comment", .comment, comment⟩] := by
    simp [cheatsheetPasses, passesBeforeCode]
  rw [cheatsheet, passes, Pass.applyAll_append, Pass.applyAll_append, applyAll_single,
    applyAll_single]
  rfl

theorem frayed_cheatsheet {text : Text} (clear : escape ∉ text) : Frayed (cheatsheet text) := by
  rw [cheatsheet_eq]
  exact frayed_dimComments (frayed_replaced (aligned_codeFence.woven (intact_beforeCode clear)))

theorem intact_cheatsheet_iff {text : Text} (clear : escape ∉ text) :
    Intact (cheatsheet text) ↔ ¬ TearsSequence text := by
  have woven := aligned_codeFence.woven (intact_beforeCode clear)
  have whole := @clean_append_replaced _ _ woven [] .nil
  have blocks (block : Match) (member : .found block ∈ Pattern.codeFence.pieces (beforeCode text)) :
      Clean (codeFence block) ↔
        ∀ line ∈ split '\n' (colorLiterals block.group), GluedCall line → BeginsComment line := by
    obtain ⟨one, before, rest, found⟩ := woven.of_mem member
    obtain ⟨code, intact, groups⟩ := exists_code one found
    have group : block.group = '\n' :: code := by rw [Match.group, groups, List.headD_cons]
    rw [codeFence_eq, group]
    exact clean_finish_iff (intact_colorLiterals (intact.cons (by decide)))
  rw [List.nil_append, and_iff_right (clean_of_intact intact_nil), Clean] at whole
  rw [cheatsheet_eq, replaceAll, whole]
  constructor
  · rintro clean ⟨block, member, line, inside, glued, other⟩
    exact other ((blocks block member).mp (clean block member) line inside glued)
  · intro untorn block member
    refine (blocks block member).mpr fun line inside glued => ?_
    by_cases begins : BeginsComment line
    · exact begins
    · exact absurd ⟨block, member, line, inside, glued, begins⟩ untorn

/-- **A colored cheatsheet has whole sequences only, and its colors can be removed, exactly when no
block of code tears a sequence.** -/
theorem cheatsheet_whole_iff (text : Text) (clear : escape ∉ text) :
    (Intact (cheatsheet text) ↔ ¬ TearsSequence text) ∧
      (escape ∉ stripColors (cheatsheet text) ↔ ¬ TearsSequence text) ∧
      (escape ∉ unstyled (cheatsheet text) ↔ ¬ TearsSequence text) := by
  have whole := intact_cheatsheet_iff clear
  have swept {pattern : Pattern} (sweeps : Sweeps pattern) :
      escape ∉ swept pattern (cheatsheet text) ↔ ¬ TearsSequence text := by
    rw [← whole]
    refine ⟨fun absent => ?_, escape_not_mem_swept sweeps⟩
    by_cases intact : Intact (cheatsheet text)
    · exact intact
    · exact absurd ((frayed_cheatsheet clear).escape_mem_swept sweeps intact) absent
  exact ⟨whole, swept sweeps_colorSequence, swept sweeps_controlSequence⟩

/-- A block that tests a cell for being empty. -/
def nullSheet : Text := "```python\nis_null(a)\n```".toList

theorem cheatsheet_whole_iff_nullSheet :
    escape ∉ nullSheet ∧ (Intact (cheatsheet nullSheet) ↔ ¬ TearsSequence nullSheet) :=
  ⟨by decide, (cheatsheet_whole_iff nullSheet (by decide)).1⟩

/-- The name of the test ends with a literal, so the sequence behind the literal is torn, and what
is left of it stays when the colors are removed. -/
theorem nullSheet_torn :
    escape ∉ nullSheet ∧ ¬ Intact (cheatsheet nullSheet) ∧
      escape ∈ stripColors (cheatsheet nullSheet) ∧ escape ∈ unstyled (cheatsheet nullSheet) := by
  have left : escape ∈ stripColors (cheatsheet nullSheet) := by decide +kernel
  exact ⟨by decide, fun intact => escape_not_mem_swept sweeps_colorSequence intact left, left,
    by decide +kernel⟩

end Handbook.Colorize
