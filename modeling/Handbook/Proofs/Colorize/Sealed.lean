/-
**When a color runs over the end of a line.**

The passes over a cheatsheet switch every color off behind what they color, on the same line. Where
a pass takes something out, it may take out a reset together with what stands before it and leave
the color on. Only one pass does: a linked item of a list loses the target of its link, and a quoted
span may begin in the text of the link and end in the target.

* `Woven.related`: a relation that holds part by part, of the occurrences of a pass and what takes
  their place, holds of a text and its result;
* `Woven.calms`: so a pass whose replacements are calmer than its occurrences makes a text calmer;
* `closes_of_mem`: every pass over prose switches off the colors that it switches on;
* `calms_finish`: so does the coloring of code, also where it tears a sequence;
* `sealed_beforeComments`: only an item that loses a sequence leaves a color on;
* `cheatsheet_sealed_iff`: the lines of a colored cheatsheet end without a color exactly when no line
  but a comment is left open.
-/

import Handbook.Proofs.Colorize.Cheatsheet
import Handbook.Proofs.Colorize.Moored
import Handbook.Proofs.Terminal.Pen

namespace Handbook.Pattern

open Terminal

variable {pattern : Pattern} {text : Text} {pieces : List Piece} {replace : Match → Text}

/-- **A relation of texts that holds part by part holds of a text and its result** when it holds of
the occurrences of a pass and what takes their place. -/
theorem Woven.related (woven : Woven pattern text pieces) {related : Text → Text → Prop}
    (refl : ∀ text, related text text)
    (append : ∀ {new new' old old' : Text}, Frayed new → Frayed old → related new old →
      related new' old' → related (new ++ new') (old ++ old'))
    (kept : ∀ {before lexeme groups rest}, .found ⟨lexeme, groups⟩ ∈ pieces → Intact lexeme →
      pattern.reach? before (lexeme ++ rest) = some ⟨lexeme.length, groups⟩ →
      Frayed (replace ⟨lexeme, groups⟩) ∧ related (replace ⟨lexeme, groups⟩) lexeme) :
    related (pieces.flatMap (Piece.replaced replace)) text := by
  induction woven with
  | nil => exact refl []
  | @plain c rest pieces plain _ step =>
    have one : Frayed [c] := .of_intact (intact_nil.cons plain)
    exact append one one (refl [c]) (step fun member => kept (List.mem_cons_of_mem _ member))
  | sequence isCode _ step =>
    have one := Frayed.of_intact (intact_select isCode)
    rw [List.flatMap_append, flatMap_replaced_plain]
    exact append one one (refl _) (step fun member => kept (List.mem_append_right _ member))
  | found _ one found _ step =>
    obtain ⟨frayed, here⟩ := kept (List.mem_cons_self ..) one found
    rw [List.flatMap_cons]
    exact append frayed (.of_intact one) here
      (step fun member => kept (List.mem_cons_of_mem _ member))

/-- **A pass whose replacements are calmer than its occurrences makes a text calmer.** -/
theorem Woven.calms (woven : Woven pattern text pieces)
    (kept : ∀ {before lexeme groups rest}, .found ⟨lexeme, groups⟩ ∈ pieces → Intact lexeme →
      pattern.reach? before (lexeme ++ rest) = some ⟨lexeme.length, groups⟩ →
      Frayed (replace ⟨lexeme, groups⟩) ∧ Calms (replace ⟨lexeme, groups⟩) lexeme) :
    Calms (pieces.flatMap (Piece.replaced replace)) text :=
  woven.related .refl .append kept

end Handbook.Pattern

namespace Handbook.Colorize

open Terminal Pattern Text

/-! ### Passes that switch off what they switch on -/

/-- A pass that only recolors, and whose replacements switch off every color on their line. -/
structure Closes (pass : Pass) : Prop extends Recolors pass where
  seals : ∀ {before lexeme groups rest}, Intact lexeme →
    pass.pattern.reach? before (lexeme ++ rest) = some ⟨lexeme.length, groups⟩ →
    Seals (pass.replace ⟨lexeme, groups⟩)

theorem Closes.calms {pass : Pass} (closes : Closes pass) {text : Text} (intact : Intact text) :
    Calms (pass.apply text) text :=
  (closes.aligned.woven intact).calms fun _ one found =>
    ⟨.of_intact (closes.shows one found).intact, (closes.seals one found).calms _⟩

theorem calms_applyAll {passes : List Pass} (closes : ∀ pass ∈ passes, Closes pass) {text : Text}
    (intact : Intact text) : Calms (Pass.applyAll passes text) text := by
  induction passes generalizing text with
  | nil => exact .refl text
  | cons pass others step =>
    have one := closes pass (List.mem_cons_self ..)
    have after : Intact (pass.apply text) := (one.toRecolors.apply ⟨intact, rfl⟩).intact
    exact (step (fun other member => closes other (List.mem_cons_of_mem _ member)) after).trans
      (one.calms intact)

/-- A pattern whose occurrences stand on one line. -/
def KeepsLine (pattern : Pattern) : Prop :=
  ∀ {before lexeme groups rest},
    pattern.reach? before (lexeme ++ rest) = some ⟨lexeme.length, groups⟩ → '\n' ∉ lexeme

theorem OnLine.keepsLine {pattern : Pattern} (onLine : OnLine pattern) : KeepsLine pattern := by
  intro before lexeme groups rest found member
  obtain ⟨covered, others, cut, size, inside, _⟩ := onLine found
  obtain ⟨rfl, _⟩ := List.append_inj cut size
  exact absurd (inside '\n' member) (by decide)

theorem keepsLine_quote : KeepsLine quote := closed_quote.keepsLine

theorem keepsLine_sectionHeader : KeepsLine sectionHeader := by
  intro before lexeme groups rest found
  obtain ⟨_, level, title, others, _, _, _, plain, _, cut, size⟩ := reach?_sectionHeader found
  obtain ⟨rfl, _⟩ := occurrence_eq cut size
  have absent : '\n' ∉ title := fun member => plain '\n' member rfl
  simp [absent]

theorem closes_whole {name : String} {pattern : Pattern} (shade : Color)
    (aligned : Aligned pattern) (keepsLine : KeepsLine pattern) :
    Closes ⟨name, pattern, whole shade⟩ where
  toRecolors := recolors_whole shade aligned
  seals := fun intact found => seals_styled (.color shade) intact (keepsLine found)

theorem seals_colored (shade : Color) {text : Text} (clear : escape ∉ text) (alone : '\n' ∉ text) :
    Seals (colored shade text) :=
  seals_styled (.color shade) (intact_of_not_mem clear) alone

theorem frayed_colored (shade : Color) {text : Text} (clear : escape ∉ text) :
    Frayed (colored shade text) := .of_intact ((intact_of_not_mem clear).colored shade)

theorem closes_unaryOperator {name : String} : Closes ⟨name, .unaryOperator, unaryOperator⟩ where
  toRecolors := recolors_unaryOperator
  seals := by
    intro before lexeme groups rest _ found
    obtain ⟨operator, later, either, cut, size⟩ := reach?_unaryOperator found
    obtain ⟨rfl, rfl⟩ := occurrence_eq cut size
    have plain : escape ∉ [operator] ∧ '\n' ∉ [operator] := by rcases either with rfl | rfl <;> decide
    exact (seals_colored .red (by decide) (by decide)).behind (frayed_colored .cyan plain.1)
      (lineFeed_not_mem_colored .cyan plain.2)

theorem closes_binaryOperator {name : String} : Closes ⟨name, .binaryOperator, binaryOperator⟩ where
  toRecolors := recolors_binaryOperator
  seals := by
    intro before lexeme groups rest _ found
    obtain ⟨operator, later, member, cut, size⟩ := reach?_binaryOperator found
    obtain ⟨rfl, rfl⟩ := occurrence_eq cut size
    have single : ∀ operator ∈ binaryOperators, '\n' ∉ operator := by decide
    have clear := escape_not_mem_binaryOperator member
    have left : Frayed (colored .red ['x'] ++ [' ']) :=
      (frayed_colored .red (by decide)).append (.of_not_mem (by decide))
    have middle : Frayed (colored .cyan operator ++ [' ']) :=
      (frayed_colored .cyan clear).append (.of_not_mem (by decide))
    have alone : '\n' ∉ colored .red ['x'] ++ [' '] ++ (colored .cyan operator ++ [' ']) := by
      have first : '\n' ∉ colored .red ['x'] := lineFeed_not_mem_colored .red (by decide)
      have second := lineFeed_not_mem_colored .cyan (single operator member)
      simp [first, second]
    have right : Seals (colored .red ['y']) := seals_colored .red (by decide) (by decide)
    have seals := right.behind (left.append middle) alone
    simpa [binaryOperator, Match.group] using seals

theorem closes_pipelineOperator {name : String} :
    Closes ⟨name, .pipelineOperator, pipelineOperator⟩ where
  toRecolors := recolors_pipelineOperator
  seals := by
    intro before lexeme groups rest _ found
    obtain ⟨later, cut, size⟩ := reach?_pipelineOperator found
    obtain ⟨rfl, rfl⟩ := occurrence_eq cut size
    exact (seals_colored .cyan (by decide) (by decide)).behind (.of_not_mem (by decide)) (by decide)

/-- Colored parts switch off the last color. -/
theorem seals_intercalate (shade : Color) {separator : Text} (clear : escape ∉ separator)
    (alone : '\n' ∉ separator) {parts : List Text} (nonempty : parts ≠ [])
    (plain : ∀ part ∈ parts, escape ∉ part ∧ '\n' ∉ part) :
    Seals (separator.intercalate (parts.map (colored shade))) := by
  induction parts with
  | nil => exact absurd rfl nonempty
  | cons part others step =>
    obtain ⟨clear', alone'⟩ := plain part (List.mem_cons_self ..)
    cases others with
    | nil =>
      rw [List.map_singleton, List.intercalate_singleton]
      exact seals_colored shade clear' alone'
    | cons next rest =>
      have later := step (List.cons_ne_nil _ _) fun other member =>
        plain other (List.mem_cons_of_mem _ member)
      rw [List.map_cons, List.map_cons, List.intercalate_cons_cons]
      refine later.behind ((frayed_colored shade clear').append (.of_not_mem clear)) ?_
      rw [List.mem_append, not_or]
      exact ⟨lineFeed_not_mem_colored shade alone', alone⟩

theorem closes_slice {name : String} : Closes ⟨name, .slice, slice⟩ where
  toRecolors := recolors_slice
  seals := by
    intro before lexeme groups rest _ found
    obtain ⟨inside, later, _, all, cut, size⟩ := reach?_slice found
    obtain ⟨rfl, rfl⟩ := occurrence_eq cut size
    have plain : ∀ part ∈ split ':' inside, escape ∉ part ∧ '\n' ∉ part := fun part member =>
      ⟨fun found => escape_not_mem_slice all (mem_of_mem_split member found),
        fun found => absurd (all '\n' (mem_of_mem_split member found)) (by decide)⟩
    have parts : Seals ([':'].intercalate ((split ':' inside).map (colored .cyan))) :=
      seals_intercalate .cyan (by decide) (by decide) (split_ne_nil _ _) plain
    have frayed : Frayed (colored .red ['x'] ++ ['[']) :=
      (frayed_colored .red (by decide)).append (.of_not_mem (by decide))
    have shown : Shows ([':'].intercalate ((split ':' inside).map (colored .cyan)))
        ([':'].intercalate ((split ':' inside).map fun part => part)) :=
      .intercalate (by decide) fun part member => shows_colored .cyan part (plain part member).1
    exact (parts.behind frayed (by decide)).append_plain (frayed.append (.of_intact shown.intact))
      (by decide) (by decide)

/-- **Every pass over prose switches off the colors that it switches on.** -/
theorem closes_of_mem : ∀ pass ∈ prosePasses, Closes pass := by
  intro pass member
  simp only [prosePasses, List.mem_cons, List.not_mem_nil, or_false] at member
  rcases member with rfl | rfl | rfl | rfl | rfl | rfl | rfl | rfl
  · exact closes_whole .green aligned_quote keepsLine_quote
  · exact closes_whole .yellow aligned_sectionHeader keepsLine_sectionHeader
  · exact closes_whole .blue aligned_url onLine_url.keepsLine
  · exact closes_unaryOperator
  · exact closes_binaryOperator
  · exact closes_pipelineOperator
  · exact closes_slice
  · exact closes_whole .cyan aligned_flag onLine_flag.keepsLine

/-! ### Numbers and prose -/

theorem calms_number {text : Text} (clear : escape ∉ text) :
    Calms (Pattern.number.replaceAll (whole .red) text) text := by
  have covers : (Pattern.number.pieces text).flatMap Piece.text = text := flatten_pieces _ text
  have calms : Calms ((Pattern.number.pieces text).flatMap (Piece.replaced (whole .red)))
      ((Pattern.number.pieces text).flatMap Piece.text) := by
    refine .flatMap fun piece member => ?_
    have plain : escape ∉ piece.text := fun inside =>
      clear (covers ▸ List.mem_flatMap.mpr ⟨piece, member, inside⟩)
    cases piece with
    | plain c => exact ⟨.of_not_mem plain, .of_not_mem plain, .refl _⟩
    | found occurrence =>
      obtain ⟨before, rest, found⟩ := proper_number.reach?_of_mem member
      obtain ⟨lexeme, later, _, inside, cut, size⟩ := reach?_number found
      obtain ⟨same, _⟩ := occurrence_eq cut size
      have alone : '\n' ∉ occurrence.lexeme := by
        rw [same]
        exact fun feed => absurd (inside '\n' feed) (by decide)
      exact ⟨frayed_colored .red plain, .of_not_mem plain, (seals_colored .red plain alone).calms _⟩
  rwa [covers] at calms

/-- Up to its lists and its blocks of code no color of a cheatsheet is left on. -/
theorem calms_coloredProse {text : Text} (clear : escape ∉ text) :
    Calms (coloredProse text) (unlinked text) := by
  have links := escape_not_mem_unlinked clear
  have numbers : Intact (Pattern.number.replaceAll (whole .red) (unlinked text)) :=
    (shows_replaceAll links fun found absent => shows_colored .red found.lexeme absent).intact
  exact (calms_applyAll closes_of_mem numbers).trans (calms_number links)

/-! ### Linked items -/

/-- An item loses the target of its link, which has no sequences, and no color is left on. -/
theorem calms_linkedItem {label target : Text} (intact : Intact label) (clear : escape ∉ target) :
    Calms (['-', ' '] ++ label) (linkedItem label target) := by
  have behind : escape ∉ ("](#".toList ++ target) ++ [')'] := by
    have around : escape ∉ "](#".toList ∧ escape ∉ [')'] := by decide
    simp only [List.mem_append, not_or]
    exact ⟨⟨around.1, clear⟩, around.2⟩
  have opening : Calms ['-', ' '] "- [".toList := calms_plain (by decide) (by decide) (by decide)
  have closing : Calms [] (("](#".toList ++ target) ++ [')']) :=
    calms_plain List.not_mem_nil List.not_mem_nil behind
  have item : Calms (label ++ []) (label ++ (("](#".toList ++ target) ++ [')'])) :=
    closing.behind (.of_intact intact)
  have whole := opening.append (.of_not_mem (by decide)) (.of_not_mem (by decide)) item
  rw [List.append_nil] at whole
  simpa [linkedItem] using whole

/-- A cheatsheet with an item that loses a color sequence with the target of its link. -/
def LosesSequence (text : Text) : Prop :=
  ∃ label target, .found ⟨linkedItem label target, [label]⟩ ∈
    Pattern.listLink.pieces (coloredProse text) ∧ escape ∈ target

/-- **Only an item that loses a sequence leaves a color on** before the blocks of code. -/
theorem calms_beforeCode {text : Text} (clear : escape ∉ text) (kept : ¬ LosesSequence text) :
    Calms (beforeCode text) (coloredProse text) := by
  rw [beforeCode_eq]
  refine (aligned_listLink.woven (shows_coloredProse clear).intact).calms
    fun {before lexeme groups rest} member whole found => ?_
  obtain ⟨label, target, labeled, rfl, rfl⟩ := exists_linkedItem whole found
  have absent : escape ∉ target := fun inside => kept ⟨label, target, member, inside⟩
  exact ⟨(Frayed.of_not_mem (by decide)).append (.of_intact labeled), calms_linkedItem labeled absent⟩

/-! ### Blocks of code -/

theorem keepsLine_codeLiteral : KeepsLine codeLiteral := by
  intro before lexeme groups rest found
  obtain ⟨word, later, member, cut, size⟩ := reach?_codeLiteral found
  obtain ⟨rfl, _⟩ := occurrence_eq cut size
  have single : ∀ word ∈ codeLiterals, '\n' ∉ word := by decide
  exact single _ member

theorem calms_colorLiterals {text : Text} (intact : Intact text) : Calms (colorLiterals text) text :=
  (aligned_codeLiteral.woven intact).calms fun _ one found =>
    ⟨.of_intact (one.colored .yellow),
      (seals_styled (.color .yellow) one (keepsLine_codeLiteral found)).calms _⟩

theorem seals_tornCall {code name : Text} (isCode : IsCode code)
    (inside : ∀ c ∈ name, isCallChar c = true) : Seals (tornCall code name) := by
  have drawn := strokes_tornCall isCode inside []
  rw [List.append_nil, strokes_nil] at drawn
  exact ⟨[.color], by decide, drawn⟩

/-- **No call leaves a color on**, also where it tears a sequence. -/
theorem calms_colorCalls {text : Text} (intact : Intact text) : Calms (colorCalls text) text := by
  have steps := callsColored intact
  clear intact
  generalize colorCalls text = painted at steps
  induction steps with
  | nil => exact .refl _
  | plain plain _ step => exact step.behind (.of_intact (intact_nil.cons plain))
  | @call name _ _ _ inside _ step =>
    have clear := escape_not_mem_name inside
    have frayed : Frayed (name ++ ['(']) := (Frayed.of_not_mem clear).append (.of_not_mem (by decide))
    have seals : Seals (colored .blue name ++ ['(']) :=
      (seals_colored .blue clear (lineFeed_not_mem_name inside)).append_plain
        (frayed_colored .blue clear) (by decide) (by decide)
    exact .append (.of_intact (intact_call inside)) frayed (seals.calms _) step
  | sequence isCode _ _ step => exact step.behind (.of_intact (intact_select isCode))
  | @torn code name rest painted isCode inside _ step =>
    -- the torn sequence itself has no stroke; the name behind it gets a color and its reset
    have torn : Frayed (tornCall code name) := by
      have whole : Frayed (tornCall code name ++ []) := .torn isCode inside .nil
      rwa [List.append_nil] at whole
    have frayed : Frayed (select code ++ name) :=
      (Frayed.of_intact (intact_select isCode)).append (.of_not_mem (escape_not_mem_name inside))
    have later : Calms (['('] ++ painted) (['('] ++ rest) := step.behind (.of_not_mem (by decide))
    rw [← List.append_assoc]
    exact .append torn frayed ((seals_tornCall isCode inside).calms _) later

theorem calms_colorOperators {text : Text} (frayed : Frayed text) :
    Calms (colorOperators text) text := by
  have steps := operatorsColored frayed
  clear frayed
  generalize colorOperators text = painted at steps
  induction steps with
  | nil => exact .refl _
  | plain plain _ step => exact step.behind (.of_intact (intact_nil.cons plain))
  | @operator operator _ _ member _ step =>
    have single : ∀ operator ∈ codeOperators, escape ∉ operator ∧ '\n' ∉ operator := by decide
    obtain ⟨clear, alone⟩ := single operator member
    have colors : Seals ([' '] ++ colored .cyan operator) :=
      (seals_colored .cyan clear alone).behind (.of_not_mem (by decide)) (by decide)
    have front : Frayed ([' '] ++ colored .cyan operator) :=
      (Frayed.of_not_mem (by decide)).append (frayed_colored .cyan clear)
    have seals := colors.append_plain front (by decide : escape ∉ [' ']) (by decide)
    exact .append (.of_intact (intact_operator member))
      (.of_not_mem (escape_not_mem_operator member)) (seals.calms _) step
  | sequence isCode _ step => exact step.behind (.of_intact (intact_select isCode))
  | @torn code name _ _ isCode inside _ step =>
    have torn : Frayed (tornCall code name ++ []) := .torn isCode inside .nil
    rw [List.append_nil] at torn
    exact step.behind torn

theorem calms_indent {text : Text} (frayed : Frayed text) : Calms (indent text) text := by
  induction text using induction_firstLine with
  | nil => exact .refl _
  | next line rest first step =>
    obtain ⟨front, back⟩ := frayed_firstLine first frayed
    have calms : Calms (indentLine line) line := by
      unfold indentLine
      split
      · exact .refl line
      · have spaces : Calms margin [] := calms_plain (by decide) (by decide) List.not_mem_nil
        exact spaces.append (.of_not_mem (by decide)) .nil (.refl line)
    rw [indent_firstLine first]
    exact .append (frays_indentLine front).frayed front calms (step back)

/-- **Colored code leaves no color on.** -/
theorem calms_finish {text : Text} (intact : Intact text) : Calms (finish text) text := by
  have calls := (frays_colorCalls intact).frayed
  have operators := (frays_colorOperators calls).frayed
  exact (calms_indent operators).trans ((calms_colorOperators calls).trans (calms_colorCalls intact))

/-- A block loses its fences, which have no sequences, and no color is left on. -/
theorem calms_codeFence {before : Option Char} {lexeme rest : Text} {groups : List Text}
    (whole : Intact lexeme)
    (found : Pattern.codeFence.reach? before (lexeme ++ rest) = some ⟨lexeme.length, groups⟩) :
    Frayed (codeFence ⟨lexeme, groups⟩) ∧ Calms (codeFence ⟨lexeme, groups⟩) lexeme := by
  obtain ⟨code, intact, rfl⟩ := exists_code whole found
  obtain ⟨language, _, later, member, _, cut, size⟩ := reach?_codeFence found
  obtain ⟨rfl, same⟩ := occurrence_eq cut size
  obtain rfl := (List.cons.inj (List.cons.inj same).1).2
  have intact : Intact ('\n' :: code) := intact.cons (by decide)
  have literals := intact_colorLiterals intact
  have fences : ∀ language ∈ fenceLanguages, escape ∉ fence ++ language := by decide
  have opening : Calms [] (fence ++ language) :=
    calms_plain List.not_mem_nil List.not_mem_nil (fences language member)
  have closing : Calms [] fence := calms_plain List.not_mem_nil List.not_mem_nil (by decide)
  have around : Calms ('\n' :: code ++ []) ('\n' :: code ++ fence) :=
    closing.behind (.of_intact intact)
  have dropped : Calms ([] ++ ('\n' :: code ++ [])) ((fence ++ language) ++ ('\n' :: code ++ fence)) :=
    opening.append .nil (.of_not_mem (fences language member)) around
  rw [List.append_nil, List.nil_append, ← List.append_assoc] at dropped
  exact ⟨(frays_finish literals).frayed,
    (calms_finish literals).trans ((calms_colorLiterals intact).trans dropped)⟩

/-! ### The whole pipeline -/

/-- A cheatsheet before its comments are dimmed. -/
def beforeComments (text : Text) : Text := Pattern.codeFence.replaceAll codeFence (beforeCode text)

theorem frayed_beforeComments {text : Text} (clear : escape ∉ text) :
    Frayed (beforeComments text) :=
  frayed_replaced (aligned_codeFence.woven (intact_beforeCode clear))

/-- **Blocks of code leave no color on.** -/
theorem calms_beforeComments {text : Text} (clear : escape ∉ text) :
    Calms (beforeComments text) (beforeCode text) := by
  rw [beforeComments, replaceAll]
  refine (aligned_codeFence.woven (intact_beforeCode clear)).calms ?_
  intro before lexeme groups rest _ whole found
  exact calms_codeFence whole found

/-- **Where no item loses a sequence, every line ends without a color.** -/
theorem sealed_beforeComments {text : Text} (clear : escape ∉ text) (kept : ¬ LosesSequence text) :
    ∀ line ∈ split '\n' (beforeComments text), Sealed line := by
  have calms : Calms (beforeComments text) (unlinked text) :=
    (calms_beforeComments clear).trans ((calms_beforeCode clear kept).trans (calms_coloredProse clear))
  have off : pen? false (strokes (unlinked text)) = some false :=
    pen?_feeds (strokes_of_not_mem (escape_not_mem_unlinked clear))
  obtain ⟨less, low, answer⟩ := calms.calmer (Bool.le_refl false) off
  rw [Bool.eq_false_of_le_false low] at answer
  rw [sealed_iff (frayed_beforeComments clear)]
  exact answer

/-! ### Comments -/

theorem sealed_dimComments_line {line : Text} (frayed : Frayed line) (alone : '\n' ∉ line) :
    Sealed (dimComments line) ↔ IsComment line ∨ Sealed line := by
  by_cases isComment : IsComment line
  · have single : '\n' ∉ dimComments line := linewise_dimComments.single alone
    have stripped : '\n' ∉ stripColors line := fun member => alone (mem_of_mem_stripColors member)
    obtain ⟨first, alone', cut⟩ := seals_styled .dim frayed.intact_stripColors stripped
    rw [sealed_line_iff single, dimComments_comment alone isComment, cut]
    exact iff_of_true (pen?_seal alone' false) (Or.inl isComment)
  · rw [dimComments_other alone isComment]
    simp [isComment]

/-- **Only comments change how a line ends**: they are dimmed without the colors that they had. -/
theorem sealed_dimComments {text : Text} (frayed : Frayed text) :
    (∀ line ∈ split '\n' (dimComments text), Sealed line) ↔
      ∀ line ∈ split '\n' text, IsComment line ∨ Sealed line := by
  induction text using induction_lines with
  | single line alone =>
    rw [split_of_not_mem alone, split_of_not_mem (linewise_dimComments.single alone),
      List.forall_mem_singleton, List.forall_mem_singleton]
    exact sealed_dimComments_line frayed alone
  | next line rest alone step =>
    obtain ⟨front, back⟩ := frayed.cut_lineFeed
    rw [linewise_dimComments.append_lineFeed, split_append_cons, split_append_cons,
      split_of_not_mem alone, split_of_not_mem (linewise_dimComments.single alone),
      List.singleton_append, List.singleton_append, List.forall_mem_cons, List.forall_mem_cons,
      step back, sealed_dimComments_line front alone]

/-! ### Whole cheatsheets -/

/-- A cheatsheet with a line that is no comment and on which a color is left on. -/
def LeavesOpen (text : Text) : Prop :=
  ∃ line ∈ split '\n' (beforeComments text), ¬ IsComment line ∧ ¬ Sealed line

/-- **The lines of a colored cheatsheet end without a color exactly when no line but a comment is
left open, and that takes an item of a list that loses a color sequence with the target of its
link.** -/
theorem cheatsheet_sealed_iff (text : Text) (clear : escape ∉ text) :
    ((∀ line ∈ split '\n' (cheatsheet text), Sealed line) ↔ ¬ LeavesOpen text) ∧
      (LeavesOpen text → LosesSequence text) := by
  have lines : (∀ line ∈ split '\n' (cheatsheet text), Sealed line) ↔
      ∀ line ∈ split '\n' (beforeComments text), IsComment line ∨ Sealed line := by
    rw [cheatsheet_eq]
    exact sealed_dimComments (frayed_beforeComments clear)
  refine ⟨?_, ?_⟩
  · rw [lines]
    simp only [LeavesOpen, not_exists, not_and, not_not, or_iff_not_imp_left]
  · rintro ⟨line, member, _, opened⟩
    by_contra kept
    exact opened (sealed_beforeComments clear kept line member)

/-- An item whose quoted span begins in the text of a link and ends in its target. -/
def linkedQuote : Text := "- [a \"b](#c\" d)".toList

theorem cheatsheet_sealed_iff_linkedQuote :
    escape ∉ linkedQuote ∧ LeavesOpen linkedQuote ∧ LosesSequence linkedQuote := by
  have clear : escape ∉ linkedQuote := by decide
  have bleeds : ¬ ∀ line ∈ split '\n' (cheatsheet linkedQuote), Sealed line := by decide +kernel
  obtain ⟨lines, items⟩ := cheatsheet_sealed_iff linkedQuote clear
  have opened : LeavesOpen linkedQuote := not_not.mp fun kept => bleeds (lines.mpr kept)
  exact ⟨clear, opened, items opened⟩

/-- The target is dropped together with the reset of the span, so the item ends in color. -/
theorem linkedQuote_bleeds :
    escape ∉ linkedQuote ∧ ∃ line ∈ split '\n' (cheatsheet linkedQuote), ¬ Sealed line :=
  ⟨by decide, by decide +kernel⟩

end Handbook.Colorize
