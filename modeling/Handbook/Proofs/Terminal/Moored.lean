/-
**Color sequences beside visible characters.**

A margin goes in front of every line that has more than blanks, and an escape character is no blank.
So colors can change a layout where a sequence stands on a line of blanks. A text is moored when each
of its sequences has a character that is not blank on its line.

* `MooredAt.append`, `MooredAt.of_append`: moored texts are moored part by part;
* `moored_of_line`: on a line with a character that is not blank all sequences are moored;
* `Moored.stripColors_indent`: of a moored text the colors can be removed before or after it is
  indented.
-/

import Handbook.Proofs.Colorize.Code
import Handbook.Proofs.Text.Indent

namespace Handbook.Terminal

open Text Unicode

/-! ### Lines with more than blanks -/

/-- Whether the line that a text begins with has a character that is not blank. -/
def startsLit : Text → Bool
  | [] => false
  | c :: rest => !isBlank c || !isLineBreak c && startsLit rest

theorem ne_escape_of_isLineBreak {c : Char} (ends : isLineBreak c = true) : c ≠ escape := by
  rintro rfl
  exact absurd ends (by decide)

theorem startsLit_break {c : Char} (ends : isLineBreak c = true) (rest : Text) :
    startsLit (c :: rest) = false := by
  simp [startsLit, ends, isBlank_of_isLineBreak ends]

theorem startsLit_visible {c : Char} (visible : isBlank c = false) (rest : Text) :
    startsLit (c :: rest) = true := by
  simp [startsLit, visible]

theorem startsLit_blank {c : Char} (blank : isBlank c = true) (inside : isLineBreak c = false)
    (rest : Text) : startsLit (c :: rest) = startsLit rest := by
  simp [startsLit, blank, inside]

/-- A line goes on with what follows it. -/
theorem startsLit_append {first : Text} (lit : startsLit first = true) (second : Text) :
    startsLit (first ++ second) = true := by
  induction first with
  | nil => exact absurd lit (by decide)
  | cons c rest step =>
    simp only [startsLit, List.cons_append, Bool.or_eq_true, Bool.and_eq_true] at lit ⊢
    exact lit.imp_right fun later => ⟨later.1, step later.2⟩

theorem startsLit_append_iff {line : Text} (inside : ∀ c ∈ line, isLineBreak c = false)
    (rest : Text) :
    startsLit (line ++ rest) = true ↔ isBlankText line = false ∨ startsLit rest = true := by
  induction line with
  | nil => simp [isBlankText]
  | cons c others step =>
    have later := step fun d member => inside d (List.mem_cons_of_mem _ member)
    have here := inside c (List.mem_cons_self ..)
    simp only [isBlankText, List.all_cons] at later ⊢
    cases blank : isBlank c with
    | false => simp [startsLit_visible blank]
    | true =>
      rw [List.cons_append, startsLit_blank blank here, later]
      simp

/-! ### Moored sequences -/

/-- Each sequence of a colored text has a character that is not blank on its line, given the visible
characters before the text, from the last one back, and those after it. -/
inductive MooredAt : (behind painted ahead : Text) → Prop where
  | nil {behind ahead} : MooredAt behind [] ahead
  | plain {behind c rest ahead} : c ≠ escape → MooredAt (c :: behind) rest ahead →
      MooredAt behind (c :: rest) ahead
  | sequence {behind code rest ahead} : IsCode code →
      startsLit behind = true ∨ startsLit (stripColors rest ++ ahead) = true →
      MooredAt behind rest ahead → MooredAt behind (select code ++ rest) ahead

/-- A text whose sequences are moored within the text. -/
def Moored (painted : Text) : Prop := MooredAt [] painted []

variable {behind painted rest ahead first second : Text}

theorem MooredAt.intact (moored : MooredAt behind painted ahead) : Intact painted := by
  induction moored with
  | nil => exact intact_nil
  | plain plain _ step => exact step.cons plain
  | sequence isCode _ _ step => exact (intact_select isCode).append step

theorem MooredAt.of_cons {c : Char} (moored : MooredAt behind (c :: rest) ahead)
    (plain : c ≠ escape) : MooredAt (c :: behind) rest ahead := by
  generalize whole : c :: rest = painted at moored
  cases moored with
  | nil => exact absurd whole (List.cons_ne_nil _ _)
  | plain _ later =>
    obtain ⟨rfl, rfl⟩ := List.cons.inj whole
    exact later
  | sequence _ _ _ => exact absurd (List.cons.inj whole).1 plain

theorem MooredAt.of_select {code : Text} (moored : MooredAt behind (select code ++ rest) ahead)
    (isCode : IsCode code) :
    (startsLit behind = true ∨ startsLit (stripColors rest ++ ahead) = true) ∧
      MooredAt behind rest ahead := by
  generalize whole : select code ++ rest = painted at moored
  cases moored with
  | nil => exact absurd whole (by simp [select])
  | plain plain _ => exact absurd (List.cons.inj whole).1.symm plain
  | sequence isOther lit later =>
    obtain ⟨-, rfl⟩ := select_append_inj isCode isOther whole
    exact ⟨lit, later⟩

/-- **Moored parts make a moored text.** -/
theorem MooredAt.append (one : MooredAt behind first (stripColors second ++ ahead))
    (two : MooredAt ((stripColors first).reverse ++ behind) second ahead) :
    MooredAt behind (first ++ second) ahead := by
  generalize whole : stripColors second ++ ahead = later at one
  induction one with
  | nil => exact two
  | plain plain _ step =>
    rw [stripColors_cons plain, List.reverse_cons, List.append_assoc] at two
    exact .plain plain (step two whole)
  | @sequence behind code rest ahead' isCode lit intact step =>
    subst whole
    rw [stripColors_select isCode] at two
    rw [List.append_assoc]
    refine .sequence isCode ?_ (step two rfl)
    rw [stripColors_append intact.intact, List.append_assoc]
    exact lit

/-- **The parts of a moored text are moored.** -/
theorem MooredAt.of_append (intact : Intact first) (moored : MooredAt behind (first ++ second) ahead) :
    MooredAt behind first (stripColors second ++ ahead) ∧
      MooredAt ((stripColors first).reverse ++ behind) second ahead := by
  induction intact using Intact.induction generalizing behind with
  | nil => exact ⟨.nil, moored⟩
  | plain c rest plain _ step =>
    obtain ⟨one, two⟩ := step (moored.of_cons plain)
    rw [stripColors_cons plain, List.reverse_cons, List.append_assoc]
    exact ⟨.plain plain one, two⟩
  | sequence code rest isCode intact step =>
    rw [List.append_assoc] at moored
    obtain ⟨lit, later⟩ := moored.of_select isCode
    obtain ⟨one, two⟩ := step later
    rw [stripColors_select isCode]
    rw [stripColors_append intact, List.append_assoc] at lit
    exact ⟨.sequence isCode lit one, two⟩

/-- What is moored within a text is moored wherever the text stands. -/
theorem Moored.anywhere (moored : Moored painted) (behind ahead : Text) :
    MooredAt behind painted ahead := by
  have wider {within painted : Text} (moored : MooredAt within painted []) :
      MooredAt (within ++ behind) painted ahead := by
    generalize none : ([] : Text) = nothing at moored
    induction moored with
    | nil => exact .nil
    | plain plain _ step => exact .plain plain (step none)
    | sequence isCode lit _ step =>
      subst none
      rw [List.append_nil] at lit
      exact .sequence isCode
        (lit.imp (fun lit => startsLit_append lit _) fun lit => startsLit_append lit _) (step rfl)
  exact wider moored

theorem Moored.append (one : Moored first) (two : Moored second) : Moored (first ++ second) :=
  (one.anywhere _ _).append (two.anywhere _ _)

theorem moored_of_not_mem (clear : escape ∉ painted) : MooredAt behind painted ahead := by
  induction painted generalizing behind with
  | nil => exact .nil
  | cons c rest step =>
    rw [List.mem_cons, not_or] at clear
    exact .plain (Ne.symm clear.1) (step clear.2)

/-- **On a line with a character that is not blank all sequences are moored.** -/
theorem moored_of_line (intact : Intact painted)
    (inside : ∀ c ∈ stripColors painted, isLineBreak c = false)
    (lit : startsLit behind = true ∨ isBlankText (stripColors painted) = false) :
    MooredAt behind painted ahead := by
  induction intact using Intact.induction generalizing behind with
  | nil => exact .nil
  | plain c rest plain _ step =>
    rw [stripColors_cons plain] at inside lit
    have here := inside c (List.mem_cons_self ..)
    refine .plain plain (step (fun d member => inside d (List.mem_cons_of_mem _ member)) ?_)
    cases blank : isBlank c with
    | false => exact Or.inl (startsLit_visible blank _)
    | true =>
      rw [startsLit_blank blank here]
      simpa [isBlankText, blank] using lit
  | sequence code rest isCode _ step =>
    rw [stripColors_select isCode] at inside lit
    refine .sequence isCode (lit.imp_right fun lit => ?_) (step inside lit)
    exact (startsLit_append_iff inside ahead).mpr (Or.inl lit)

/-- A styled text is moored where its first and its last line are lit. -/
theorem MooredAt.styled {text : Text} (style : Style) (moored : MooredAt behind text ahead)
    (starts : startsLit (stripColors text ++ ahead) = true)
    (ends : startsLit ((stripColors text).reverse ++ behind) = true) :
    MooredAt behind (Terminal.styled style text) ahead := by
  have last : MooredAt ((stripColors text).reverse ++ behind) reset ahead := by
    have alone : MooredAt ((stripColors text).reverse ++ behind) (reset ++ []) ahead :=
      .sequence isCode_zero (Or.inl ends) .nil
    rwa [List.append_nil] at alone
  have nothing : stripColors reset = [] := by
    have alone := stripColors_select isCode_zero []
    rwa [List.append_nil] at alone
  have same : stripColors (text ++ reset) = stripColors text := by
    rw [stripColors_append moored.intact, nothing, List.append_nil]
  rw [Terminal.styled, List.append_assoc]
  refine .sequence (isCode_style style) (Or.inr ?_) (MooredAt.append ?_ last)
  · rw [same]
    exact starts
  · rw [nothing, List.nil_append]
    exact moored

/-! ### Indenting -/

/-- Between two lines of blanks a line with sequences has more than blanks. -/
theorem MooredAt.isBlankText_stripColors {line : Text} (moored : MooredAt behind line ahead)
    (inside : ∀ c ∈ line, isLineBreak c = false) (before : startsLit behind = false)
    (after : startsLit ahead = false) :
    isBlankText (stripColors line) = isBlankText line := by
  by_cases clear : escape ∈ line
  · have dark : isBlankText line = false :=
      List.all_eq_false.mpr ⟨escape, clear, by decide⟩
    have visible : ∀ c ∈ stripColors line, isLineBreak c = false := fun c member =>
      inside c (mem_of_mem_stripColors member)
    -- the first sequence on the line is lit from behind it, hence by the line itself
    have lit : startsLit behind = true ∨ startsLit (stripColors line ++ ahead) = true := by
      clear before after dark visible
      induction moored with
      | nil => exact absurd clear List.not_mem_nil
      | @plain behind c rest ahead plain _ step =>
        have here := inside c (List.mem_cons_self ..)
        rw [stripColors_cons plain, List.cons_append]
        cases blank : isBlank c with
        | false => exact Or.inr (startsLit_visible blank _)
        | true =>
          have later := step (fun d member => inside d (List.mem_cons_of_mem _ member))
            ((List.mem_cons.mp clear).resolve_left (Ne.symm plain))
          rw [startsLit_blank blank here] at later ⊢
          exact later
      | sequence isCode lit _ _ =>
        rw [stripColors_select isCode]
        exact lit
    rw [before, startsLit_append_iff visible, after] at lit
    rw [dark]
    simpa using lit
  · rw [stripColors_of_not_mem clear]

theorem stripColors_indentLine {line : Text}
    (same : isBlankText (stripColors line) = isBlankText line) :
    stripColors (indentLine line) = indentLine (stripColors line) := by
  unfold indentLine
  rw [same]
  split
  · rfl
  · rw [stripColors_append (intact_of_not_mem (by decide)), stripColors_of_not_mem (by decide)]

/-- No sequence stands between a carriage return and its line feed. -/
theorem MooredAt.head_ne_lineFeed {c : Char} (ends : isLineBreak c = true)
    (moored : MooredAt (c :: behind) rest []) (single : rest.head? ≠ some '\n') :
    (stripColors rest).head? ≠ some '\n' := by
  cases moored with
  | nil => exact single
  | plain plain _ =>
    rw [stripColors_cons plain]
    exact single
  | @sequence _ code later _ isCode lit _ =>
    rw [startsLit_break ends, stripColors_select isCode] at *
    rw [List.append_nil] at lit
    intro begins
    obtain ⟨others, cut⟩ := List.head?_eq_some_iff.mp begins
    rw [cut, startsLit_break (by decide)] at lit
    simp at lit

/-- The words of a line are indented apart from the boundary that ends it. -/
theorem MooredAt.cut_words {words : Text} {c : Char}
    (moored : MooredAt behind (words ++ c :: rest) []) (before : startsLit behind = false)
    (inside : ∀ d ∈ words, isLineBreak d = false) (ends : isLineBreak c = true) :
    (∀ tail, stripColors (indentLine words ++ c :: tail) =
        indentLine (stripColors words) ++ c :: stripColors tail) ∧
      stripColors (words ++ c :: rest) = stripColors words ++ c :: stripColors rest ∧
      MooredAt (c :: ((stripColors words).reverse ++ behind)) rest [] := by
  have plain := ne_escape_of_isLineBreak ends
  have frayed : Frayed words :=
    ((Frayed.of_intact moored.intact).cut
      (stops_cons (Colorize.isKnot_of_isLineBreak ends) rest)).1
  have whole : Intact words := (frayed.intact_append_iff.mp moored.intact).1
  obtain ⟨one, two⟩ := moored.of_append whole
  rw [stripColors_cons plain, List.append_nil] at one
  have same := one.isBlankText_stripColors inside before (startsLit_break ends _)
  refine ⟨fun tail => ?_, ?_, two.of_cons plain⟩
  · have margined : Intact (indentLine words) :=
      (Colorize.frays_indentLine frayed).intact.mpr whole
    rw [stripColors_append margined, stripColors_indentLine same, stripColors_cons plain]
  · rw [stripColors_append whole, stripColors_cons plain]

theorem MooredAt.stripColors_indent (moored : MooredAt behind painted [])
    (before : startsLit behind = false) :
    stripColors (indent painted) = indent (stripColors painted) := by
  induction painted using induction_firstLine generalizing behind with
  | nil => rfl
  | next line rest first step =>
    rw [indent_firstLine first]
    cases first with
    | last _ inside =>
      rw [List.append_nil] at moored ⊢
      have visible : ∀ c ∈ stripColors line, isLineBreak c = false := fun c member =>
        inside c (mem_of_mem_stripColors member)
      rw [indent_nil, List.append_nil, stripColors_indentLine
        (moored.isBlankText_stripColors inside before rfl), indent_line visible]
    | @ends words c _ inside ends single =>
      rw [List.append_assoc, List.singleton_append] at moored
      obtain ⟨front, visible, later⟩ := moored.cut_words before inside ends
      have first : FirstLine (stripColors words ++ [c]) (stripColors rest) :=
        .ends (fun d member => inside d (mem_of_mem_stripColors member)) ends
          fun same => later.head_ne_lineFeed ends (single same)
      have blank := isBlank_of_isLineBreak ends
      have bare := indent_firstLine first
      rw [indentLine_append_blank _ blank, List.append_assoc, List.append_assoc,
        List.singleton_append, List.singleton_append] at bare
      rw [indentLine_append_blank words blank, List.append_assoc, List.append_assoc,
        List.singleton_append, List.singleton_append, front, visible, bare,
        step later (startsLit_break ends _)]
    | @endsTwice words _ inside =>
      simp only [List.append_assoc, List.cons_append, List.nil_append] at moored ⊢
      obtain ⟨front, visible, later⟩ := moored.cut_words before inside (by decide)
      have bare := indent_firstLine (.endsTwice fun d member =>
        inside d (mem_of_mem_stripColors member) :
        FirstLine (stripColors words ++ ['\r', '\n']) (stripColors rest))
      rw [indentLine_lineEnd, List.append_assoc, List.append_assoc] at bare
      rw [indentLine_lineEnd, visible, stripColors_cons (by decide)]
      simp only [List.append_assoc, List.cons_append, List.nil_append] at bare ⊢
      rw [front, stripColors_cons (by decide), bare,
        step (later.of_cons (by decide)) (startsLit_break (by decide) _)]

/-- **Of a moored text the colors can be removed before or after it is indented.** -/
theorem Moored.stripColors_indent (moored : Moored painted) :
    stripColors (indent painted) = indent (stripColors painted) :=
  MooredAt.stripColors_indent moored rfl

end Handbook.Terminal
