/-
**Comments mend torn sequences.**

A comment loses its colors before it is dimmed, and with them what tears its sequences. Which lines
are comments can be told before calls and operators are colored and margins are put in front.

* `prefix_finish_iff`: a line of finished code begins as a comment exactly when the line does before;
* `clean_append`: what follows on the line of a torn sequence does not make it a comment;
* `clean_finish`: a finished line of code is clean exactly when it is a comment or holds no sequence
  that a name and a parenthesis follow.
-/

import Handbook.Colorize.Cheatsheet
import Handbook.Proofs.Colorize.Code
import Handbook.Proofs.Pattern.Sheet

namespace Handbook.Colorize

open Terminal Pattern Text Unicode

variable {paint text : Text}

/-! ### The beginnings of comments -/

theorem prefix_colorOperators_iff (isPaint : IsPaint paint) :
    paint ++ ['#'] <+: colorOperators text ↔ paint ++ ['#'] <+: text := by
  have absent : ' ' ∉ paint ++ ['#'] := by
    rw [List.mem_append, not_or]
    exact ⟨fun member => absurd (isPaint.of_mem member) (by decide), by decide⟩
  constructor
  · refine prefix_of_replaceFrom closed_codeOperator.proper ?_ absent
    intro before lexeme groups rest _
    exact ⟨_, rfl⟩
  · rintro ⟨rest, rfl⟩
    have spared : ∀ c ∈ paint ++ ['#'], Pattern.codeOperator.Spares c := fun c member =>
      spares_codeOperator fun same => absent (same ▸ member)
    rw [colorOperators, replaceAll_eq, replaceFrom_spared spared]
    exact List.prefix_append _ _

theorem isCallChar_parameter {c : Char} (parameter : isColorParameter c = true) :
    isCallChar c = false := by
  simp only [isColorParameter, Bool.or_eq_true, beq_iff_eq] at parameter
  rcases parameter with digit | rfl
  · exact isCallChar_digit digit
  · decide

theorem not_continuesCall_sign (rest : Text) : ¬ ContinuesCall ('#' :: rest) := by
  rintro ⟨name, after, inside, cut⟩
  cases name with
  | nil => exact absurd (List.cons.inj cut).1 (by decide)
  | cons c others =>
    have letter := inside c (List.mem_cons_self ..)
    rw [← (List.cons.inj cut).1] at letter
    exact absurd letter (by decide)

/-- The color of a call does not stand before a number sign. -/
theorem not_prefix_call {parameters name : Text}
    (all : ∀ c ∈ parameters, isColorParameter c = true) (nonempty : name ≠ [])
    (inside : ∀ c ∈ name, isCallChar c = true) (rest : Text) :
    ¬ select parameters ++ ['#'] <+: colored .blue name ++ rest := by
  rintro ⟨more, cut⟩
  rw [List.append_assoc, colored, styled, List.append_assoc, List.append_assoc] at cut
  have code : ∀ c ∈ Style.code (.color .blue), isColorParameter c = true :=
    List.all_eq_true.mp (by decide)
  have sizes : some (select parameters).length = some (select (Style.code (.color .blue))).length := by
    rw [← colorSequenceSize?_parameters all, cut, colorSequenceSize?_parameters code]
  have behind := (List.append_inj cut (Option.some.inj sizes)).2
  cases name with
  | nil => exact nonempty rfl
  | cons c others =>
    have letter := inside c (List.mem_cons_self ..)
    rw [← (List.cons.inj behind).1] at letter
    exact absurd letter (by decide)

theorem prefix_colorCalls_iff (isPaint : IsPaint paint) :
    paint ++ ['#'] <+: colorCalls text ↔ paint ++ ['#'] <+: text := by
  have behind {head rest : Text} (clear : escape ∉ head) (early : head <+: colorCalls rest) :
      head <+: rest :=
    prefix_of_replaceFrom closed_codeCall.proper (fun _ => ⟨_, rfl⟩) clear early
  rcases isPaint with rfl | ⟨parameters, all, rfl⟩
  · refine ⟨behind (by decide), ?_⟩
    rintro ⟨rest, rfl⟩
    have absent : Pattern.codeCall.reach? none ('#' :: rest) = none := spares_codeCall rfl none rest
    have out : colorCalls ('#' :: rest) = '#' :: colorCalls rest := colorCalls_plain absent
    exact ⟨colorCalls rest, out.symm⟩
  · have outside : ∀ c ∈ parameters, isCallChar c = false := fun c member =>
      isCallChar_parameter (all c member)
    constructor
    · intro early
      cases text with
      | nil => exact absurd (List.prefix_nil.mp early) (by simp)
      | cons c rest =>
        cases found : Pattern.codeCall.reach? none (c :: rest) with
        | none =>
          rw [colorCalls_plain found] at early
          obtain ⟨same, later⟩ := List.cons_prefix_cons.mp early
          have clear : escape ∉ '[' :: parameters ++ ['m'] ++ ['#'] := by
            have inside : escape ∉ parameters := fun member =>
              absurd (all escape member) (by decide)
            simp [escape] at inside ⊢
            exact inside
          exact List.cons_prefix_cons.mpr ⟨same, behind clear later⟩
        | some reach =>
          obtain ⟨name, others, nonempty, inside, cut, _⟩ := reach?_codeCall found
          rw [cut, colorCalls_name nonempty inside, List.append_assoc] at early
          exact absurd early (not_prefix_call all nonempty inside _)
    · rintro ⟨rest, rfl⟩
      have absent : Pattern.codeCall.reach? none ('#' :: rest) = none := spares_codeCall rfl none rest
      rw [List.append_assoc, List.singleton_append,
        colorCalls_select outside (not_continuesCall_sign rest), colorCalls_plain absent]
      exact ⟨colorCalls rest, by simp⟩

theorem isLineBreak_paint (isPaint : IsPaint paint) : ∀ c ∈ paint, isLineBreak c = false := by
  intro c member
  cases ends : isLineBreak c with
  | false => rfl
  | true =>
    have outside : ∀ c ∈ lineBreaks,
        ¬ (c = escape ∨ c = '[' ∨ isColorParameter c = true ∨ c = 'm') :=
      List.all_iff_forall_prop.mp (by decide)
    exact absurd (isPaint.of_mem member) (outside c (mem_lineBreaks ends))

theorem prefix_indent_iff (isPaint : IsPaint paint) :
    commentMargin ++ paint ++ ['#'] <+: indent text ↔ paint ++ ['#'] <+: text := by
  have inside : ∀ c ∈ paint ++ ['#'], isLineBreak c = false := by
    intro c member
    rcases List.mem_append.mp member with early | sign
    · exact isLineBreak_paint isPaint c early
    · rw [List.mem_singleton.mp sign]
      decide
  have inside' : ∀ c ∈ commentMargin ++ paint ++ ['#'], isLineBreak c = false := by
    intro c member
    rw [List.append_assoc] at member
    rcases List.mem_append.mp member with space | later
    · have spaces : commentMargin = List.replicate 4 ' ' := rfl
      rw [spaces] at space
      rw [List.eq_of_mem_replicate space]
      decide
    · exact inside c later
  have sign_blank {line : Text} (blank : isBlankText line = true) : '#' ∉ line := fun member =>
    absurd (List.all_eq_true.mp blank '#' member) (by decide)
  by_cases empty : text = []
  · rw [empty, indent_nil]
    simp
  · obtain ⟨line, rest, rfl, first⟩ := exists_firstLine empty
    rw [indent_firstLine first]
    constructor
    · rintro ⟨more, cut⟩
      unfold indentLine at cut
      split at cut
      · -- a blank line gets no margin, and it holds no number sign either
        rename_i blank
        obtain ⟨others, line_eq⟩ := first.exists_of_append (fun last => by rw [last]; rfl)
          inside' cut.symm
        exact absurd (line_eq ▸ by simp) (sign_blank blank)
      · have same : line ++ indent rest = (paint ++ ['#']) ++ more := by
          have margins : margin = commentMargin := rfl
          rw [margins, List.append_assoc, List.append_assoc, List.append_assoc] at cut
          rw [← List.append_cancel_left cut, List.append_assoc]
        obtain ⟨others, line_eq⟩ := first.exists_of_append (fun last => by rw [last]; rfl)
          inside same
        rw [line_eq, List.append_assoc]
        exact List.prefix_append _ _
    · rintro ⟨more, cut⟩
      obtain ⟨others, line_eq⟩ := first.exists_of_append id inside cut.symm
      have blank : ¬ isBlankText line = true := fun blank =>
        sign_blank blank (line_eq ▸ by simp)
      rw [indentLine, if_neg blank, line_eq]
      exact ⟨others ++ indent rest, by simp [margin, commentMargin]⟩

/-- **A line of finished code begins as a comment exactly when the line does before.** -/
theorem prefix_finish_iff (isPaint : IsPaint paint) :
    commentMargin ++ paint ++ ['#'] <+: finish text ↔ paint ++ ['#'] <+: text := by
  rw [finish, prefix_indent_iff isPaint, prefix_colorOperators_iff isPaint,
    prefix_colorCalls_iff isPaint]

/-! ### Line by line -/

theorem lineFeed_not_mem_colored (shade : Color) {text : Text} (absent : '\n' ∉ text) :
    '\n' ∉ colored shade text := by
  cases shade <;> simp [colored, styled, select, reset, Style.code, Color.code, escape, absent]

theorem linewise_colorCalls : Linewise colorCalls where
  single := by
    intro line alone
    refine not_mem_replaceAll alone fun occurrence member absent => ?_
    obtain ⟨before, rest, found⟩ := closed_codeCall.proper.reach?_of_mem member
    obtain ⟨name, others, _, inside, _, size⟩ := reach?_codeCall found
    have group : occurrence.groups = [name] := congrArg Reach.groups size
    rw [codeCall, Match.group, group, List.headD_cons, List.mem_append, not_or]
    exact ⟨lineFeed_not_mem_colored .blue (lineFeed_not_mem_name inside), by decide⟩
  next := fun rest _ => closed_codeCall.linewise.replaceAll_append_lineFeed _ rest

theorem linewise_colorOperators : Linewise colorOperators where
  single := by
    intro line alone
    have single : ∀ operator ∈ codeOperators, '\n' ∉ operator := by decide
    refine not_mem_replaceAll alone fun occurrence member absent => ?_
    obtain ⟨before, rest, found⟩ := closed_codeOperator.proper.reach?_of_mem member
    obtain ⟨operator, others, isOperator, _, size⟩ := reach?_codeOperator found
    have group : occurrence.groups = [operator] := congrArg Reach.groups size
    have absent := lineFeed_not_mem_colored .cyan (single operator isOperator)
    rw [codeOperator, Match.group, group, List.headD_cons]
    simpa using absent
  next := fun rest _ => closed_codeOperator.linewise.replaceAll_append_lineFeed _ rest

theorem linewise_finish : Linewise finish :=
  linewise_indent.comp (linewise_colorOperators.comp linewise_colorCalls)

/-- A text with its comments dimmed. -/
def dimComments (text : Text) : Text := Pattern.comment.replaceAll comment text

theorem linewise_dimComments : Linewise dimComments where
  single := by
    intro line alone
    refine not_mem_replaceAll alone fun occurrence _ absent => ?_
    have stripped : '\n' ∉ stripColors occurrence.lexeme :=
      not_mem_replaceAll absent fun _ _ _ => List.not_mem_nil
    simp [comment, styled, select, reset, Style.code, escape, stripped]
  next := fun rest _ => linewise_comment.replaceAll_append_lineFeed _ rest

/-! ### Clean texts -/

/-- A text whose sequences are whole once its comments are dimmed. -/
def Clean (text : Text) : Prop := Intact (dimComments text)

theorem clean_lineFeed_iff {first second : Text} :
    Clean (first ++ '\n' :: second) ↔ Clean first ∧ Clean second := by
  rw [Clean, linewise_dimComments.append_lineFeed, intact_lineFeed_iff]
  rfl

/-- A dimmed line. -/
theorem dimComments_comment {line : Text} (alone : '\n' ∉ line) (isComment : IsComment line) :
    dimComments line = styled .dim (stripColors line) :=
  replaceAll_comment alone isComment

theorem dimComments_other {line : Text} (alone : '\n' ∉ line) (other : ¬ IsComment line) :
    dimComments line = line :=
  replaceAll_comment_other alone other

/-- **A line is clean exactly when it is a comment or its sequences are whole.** -/
theorem clean_line_iff {line : Text} (frayed : Frayed line) (alone : '\n' ∉ line) :
    Clean line ↔ IsComment line ∨ Intact line := by
  by_cases isComment : IsComment line
  · rw [Clean, dimComments_comment alone isComment]
    exact iff_of_true (frayed.intact_stripColors.styled .dim) (Or.inl isComment)
  · rw [Clean, dimComments_other alone isComment]
    simp [isComment]

theorem clean_of_intact (intact : Intact text) : Clean text := by
  induction text using induction_lines with
  | single line alone => exact (clean_line_iff (.of_intact intact) alone).mpr (Or.inr intact)
  | next line rest alone step =>
    obtain ⟨front, back⟩ := intact_lineFeed_iff.mp intact
    exact clean_lineFeed_iff.mpr
      ⟨(clean_line_iff (.of_intact front) alone).mpr (Or.inr front), step back⟩

/-- **Dimming comments tears nothing.** -/
theorem frayed_dimComments (frayed : Frayed text) : Frayed (dimComments text) := by
  have line {line : Text} (frayed : Frayed line) (alone : '\n' ∉ line) :
      Frayed (dimComments line) := by
    by_cases isComment : IsComment line
    · rw [dimComments_comment alone isComment]
      exact .of_intact (frayed.intact_stripColors.styled .dim)
    · rw [dimComments_other alone isComment]
      exact frayed
  induction text using induction_lines with
  | single words alone => exact line frayed alone
  | next words rest alone step =>
    obtain ⟨front, back⟩ := frayed.cut_lineFeed
    rw [linewise_dimComments.append_lineFeed]
    exact (line front alone).append (.plain (by decide) (step back))

/-! ### Torn sequences in comments -/

theorem count_paint_le (isPaint : IsPaint paint) : paint.count escape ≤ 1 := by
  rcases isPaint with rfl | ⟨parameters, all, rfl⟩
  · exact Nat.zero_le _
  · have inside : escape ∉ parameters := fun member => absurd (all escape member) (by decide)
    rw [select, List.count_append, List.count_append, List.count_eq_zero.mpr inside]
    decide

/-- A comment with a torn sequence goes on behind its number sign, up to the end of the sequence. -/
theorem exists_words {first second words : Text} (isPaint : IsPaint paint) (frayed : Frayed first)
    (notIntact : ¬ Intact first)
    (cut : first ++ second = (commentMargin ++ paint ++ ['#']) ++ words) :
    ∃ more, more ≠ [] ∧ first = commentMargin ++ paint ++ '#' :: more := by
  have few : (commentMargin ++ paint ++ ['#']).count escape ≤ 1 := by
    have := count_paint_le isPaint
    rw [List.count_append, List.count_append,
      List.count_eq_zero.mpr (by decide : escape ∉ commentMargin),
      List.count_eq_zero.mpr (by decide : escape ∉ ['#'])]
    omega
  have many := frayed.two_le_count notIntact
  rcases List.append_eq_append_iff.mp cut with ⟨between, head, _⟩ | ⟨more, rfl, _⟩
  · rw [head, List.count_append] at few
    omega
  · refine ⟨more, ?_, by simp⟩
    rintro rfl
    rw [List.append_nil] at many
    omega

/-- **What follows on the line of a torn sequence does not make it a comment.** -/
theorem clean_append {first second : Text} (frayed : Frayed first) (intact : Intact second) :
    Clean (first ++ second) ↔ Clean first := by
  induction first using induction_lines with
  | next line rest alone step =>
    rw [List.append_assoc, List.cons_append, clean_lineFeed_iff, clean_lineFeed_iff,
      step frayed.cut_lineFeed.2]
  | single line alone =>
    have same {words : Text} (single : '\n' ∉ words) (whole : Intact words) :
        Clean (line ++ words) ↔ Clean line := by
      have together : '\n' ∉ line ++ words := by
        rw [List.mem_append, not_or]
        exact ⟨alone, single⟩
      rw [clean_line_iff (frayed.append (.of_intact whole)) together, clean_line_iff frayed alone,
        frayed.intact_append_iff, and_iff_left whole]
      by_cases torn : Intact line
      · simp [torn]
      · simp only [torn, or_false]
        constructor
        · rintro ⟨paint, rest, isPaint, _, cut⟩
          obtain ⟨more, nonempty, rfl⟩ := exists_words isPaint frayed torn (by simpa using cut)
          exact ⟨paint, more, isPaint, nonempty, rfl⟩
        · rintro ⟨paint, rest, isPaint, nonempty, rfl⟩
          exact ⟨paint, rest ++ words, isPaint, by simp [nonempty], by simp⟩
    rcases exists_cut '\n' second with single | ⟨words, rest, single, rfl⟩
    · exact same single intact
    · obtain ⟨front, back⟩ := intact_lineFeed_iff.mp intact
      rw [← List.append_assoc, clean_lineFeed_iff, and_iff_left (clean_of_intact back)]
      exact same single front

/-! ### Finished code -/

/-- A line of code that becomes a comment. -/
def BeginsComment (line : Text) : Prop := ∃ paint, IsPaint paint ∧ paint ++ ['#'] <+: line

theorem clean_finish_line_iff {line : Text} (intact : Intact line) (alone : '\n' ∉ line) :
    Clean (finish line) ↔ (GluedCall line → BeginsComment line) := by
  have frays := frays_finish intact
  rw [clean_line_iff frays.frayed (linewise_finish.single alone), frays.intact]
  by_cases glued : GluedCall line
  · have torn : ¬ Intact (finish line) := fun intact => frays.intact.mp intact glued
    simp only [glued, not_true, or_false, true_imp_iff]
    constructor
    · rintro ⟨paint, words, isPaint, _, cut⟩
      refine ⟨paint, isPaint, (prefix_finish_iff isPaint).mp ⟨words, ?_⟩⟩
      rw [cut]
      simp
    · rintro ⟨paint, isPaint, early⟩
      obtain ⟨words, cut⟩ := (prefix_finish_iff isPaint).mpr early
      rw [← List.append_nil (finish line)] at cut
      obtain ⟨more, nonempty, whole⟩ := exists_words isPaint frays.frayed torn cut.symm
      exact ⟨paint, more, isPaint, nonempty, whole⟩
  · simp [glued]

/-- **Finished code is clean exactly when each of its lines becomes a comment or holds no sequence
that a name and a parenthesis follow.** -/
theorem clean_finish_iff (intact : Intact text) :
    Clean (finish text) ↔ ∀ line ∈ split '\n' text, GluedCall line → BeginsComment line := by
  induction text using induction_lines with
  | single line alone =>
    rw [clean_finish_line_iff intact alone, split_of_not_mem alone]
    simp
  | next line rest alone step =>
    obtain ⟨front, back⟩ := intact_lineFeed_iff.mp intact
    rw [linewise_finish.append_lineFeed, clean_lineFeed_iff, clean_finish_line_iff front alone,
      step back, split_append_cons, split_of_not_mem alone]
    simp

end Handbook.Colorize
