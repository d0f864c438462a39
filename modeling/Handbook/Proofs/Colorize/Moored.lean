/-
**Colors of indented prose are moored.**

A pass over prose puts its sequences beside what it colors: next to a quote mark, or on a line with
the snippet, the address or the flag. Section headers alone may end in blanks, behind a boundary
that is no line feed; where no line begins with a number sign there are none. So of such prose, and
of indented prose in particular, the colors can be removed before or after a margin is put in front
of its lines.

* `Woven.moored`: a pass that replaces moored occurrences by moored texts keeps a text moored;
* `moors_of_mem`: every pass over prose but the one for section headers does;
* `moored_prose`: colored prose without section headers is moored.
-/

import Handbook.Proofs.Colorize.Prose
import Handbook.Proofs.Terminal.Moored

namespace Handbook.Pattern

open Terminal

variable {pattern : Pattern} {text behind ahead : Text} {pieces : List Piece}
  {replace : Match → Text}

/-- **A pass that replaces moored occurrences by moored texts keeps a text moored.** -/
theorem Woven.moored (woven : Woven pattern text pieces) (moored : MooredAt behind text ahead)
    (shows : ∀ {before lexeme groups rest}, Intact lexeme →
      pattern.reach? before (lexeme ++ rest) = some ⟨lexeme.length, groups⟩ →
      Intact (replace ⟨lexeme, groups⟩) ∧
        stripColors (replace ⟨lexeme, groups⟩) = stripColors lexeme)
    (kept : ∀ {before lexeme groups rest behind ahead}, Intact lexeme →
      pattern.reach? before (lexeme ++ rest) = some ⟨lexeme.length, groups⟩ →
      MooredAt behind lexeme ahead → MooredAt behind (replace ⟨lexeme, groups⟩) ahead) :
    MooredAt behind (pieces.flatMap (Piece.replaced replace)) ahead := by
  induction woven generalizing behind with
  | nil => exact .nil
  | plain plain _ step => exact .plain plain (step (moored.of_cons plain))
  | sequence isCode woven step =>
    obtain ⟨lit, later⟩ := moored.of_select isCode
    rw [List.flatMap_append, flatMap_replaced_plain]
    refine .sequence isCode ?_ (step later)
    rw [woven.stripColors_eq shows]
    exact lit
  | found _ one found woven step =>
    obtain ⟨first, later⟩ := moored.of_append one
    obtain ⟨_, same⟩ := shows one found
    rw [List.flatMap_cons]
    refine MooredAt.append ?_ ?_
    · rw [woven.stripColors_eq shows]
      exact kept one found first
    · show MooredAt ((stripColors (replace _)).reverse ++ _) _ _
      rw [same]
      exact step later

end Handbook.Pattern

namespace Handbook.Colorize

open Terminal Pattern Text Unicode

/-! ### Passes that keep texts moored -/

/-- A pass that only recolors, and whose replacements are moored where the occurrences are. -/
structure Moors (pass : Pass) : Prop extends Recolors pass where
  moored : ∀ {before lexeme groups rest behind ahead}, Intact lexeme →
    pass.pattern.reach? before (lexeme ++ rest) = some ⟨lexeme.length, groups⟩ →
    MooredAt behind lexeme ahead → MooredAt behind (pass.replace ⟨lexeme, groups⟩) ahead

theorem Moors.apply {pass : Pass} (moors : Moors pass) {text : Text} (moored : Moored text) :
    Moored (pass.apply text) :=
  (moors.aligned.woven moored.intact).moored moored
    (fun one found => ⟨(moors.shows one found).intact, (moors.shows one found).visible⟩)
    moors.moored

/-- Occurrences that stand on one line, with a character that is not blank. -/
def OnLine (pattern : Pattern) : Prop :=
  ∀ {before text reach}, pattern.reach? before text = some reach →
    ∃ lexeme rest, text = lexeme ++ rest ∧ reach.size = lexeme.length ∧
      (∀ c ∈ lexeme, isLineBreak c = false) ∧ isBlankText (stripColors lexeme) = false

/-- **A pass over occurrences that stand on one line keeps texts moored.** -/
theorem moors_of_onLine {pass : Pass} (recolors : Recolors pass) (onLine : OnLine pass.pattern) :
    Moors pass where
  toRecolors := recolors
  moored := by
    intro before lexeme groups rest behind ahead whole found _
    obtain ⟨covered, others, cut, size, inside, lit⟩ := onLine found
    obtain ⟨rfl, _⟩ := List.append_inj cut size
    obtain ⟨intact, visible⟩ := recolors.shows whole found
    rw [← visible] at lit
    refine moored_of_line intact ?_ (Or.inr lit)
    rw [visible]
    exact fun c member => inside c (mem_of_mem_stripColors member)

theorem onLine_url : OnLine url := by
  intro before text reach found
  obtain ⟨scheme, address, rest, member, _, unblank, _, cut, size⟩ := reach?_url found
  have each : ∀ scheme ∈ schemes,
      escape ∉ scheme ∧ scheme.all isBlank = false ∧ scheme.any isBlank = false := by decide
  obtain ⟨plain, lit, scheme_unblank⟩ := each scheme member
  refine ⟨scheme ++ address, rest, cut, by rw [size], ?_, ?_⟩
  · intro c inside
    have visible : isBlank c = false := (List.mem_append.mp inside).elim
      (fun early => Bool.eq_false_iff.mpr (List.any_eq_false.mp scheme_unblank c early)) (unblank c)
    cases ends : isLineBreak c with
    | false => rfl
    | true =>
      rw [isBlank_of_isLineBreak ends] at visible
      exact absurd visible (by decide)
  · rw [stripColors_append (intact_of_not_mem plain), stripColors_of_not_mem plain, isBlankText,
      List.all_append, lit, Bool.false_and]

/-- Whether a character neither ends a line nor begins a sequence. -/
def isInline (c : Char) : Bool := c != escape && !isLineBreak c

/-- Occurrences of such characters are seen as they are. -/
theorem onLine_of_inline {pattern : Pattern}
    (occurrence : ∀ {before text reach}, pattern.reach? before text = some reach →
      ∃ lexeme rest, text = lexeme ++ rest ∧ reach.size = lexeme.length ∧
        lexeme.all isInline = true ∧ isBlankText lexeme = false) :
    OnLine pattern := by
  intro before text reach found
  obtain ⟨lexeme, rest, cut, size, inside, lit⟩ := occurrence found
  simp only [List.all_eq_true, isInline, Bool.and_eq_true, bne_iff_ne, Bool.not_eq_true'] at inside
  have clear : escape ∉ lexeme := fun member => (inside escape member).1 rfl
  refine ⟨lexeme, rest, cut, size, fun c member => (inside c member).2, ?_⟩
  rw [stripColors_of_not_mem clear]
  exact lit

theorem isInline_of {test : Char → Bool} (outside : (escape :: lineBreaks).any test = false)
    {c : Char} (inside : test c = true) : isInline c = true := by
  have absent : c ∉ escape :: lineBreaks := fun member =>
    List.any_eq_false.mp outside c member inside
  rw [List.mem_cons, not_or] at absent
  rw [isInline, Bool.and_eq_true, bne_iff_ne, Bool.not_eq_true']
  exact ⟨absent.1, Bool.eq_false_iff.mpr fun ends => absent.2 (mem_lineBreaks ends)⟩

theorem onLine_unaryOperator : OnLine .unaryOperator := onLine_of_inline <| by
  intro before text reach found
  obtain ⟨operator, rest, either, cut, size⟩ := reach?_unaryOperator found
  refine ⟨[operator, 'x'], rest, cut, by rw [size], ?_⟩
  rcases either with rfl | rfl <;> decide

theorem onLine_binaryOperator : OnLine .binaryOperator := onLine_of_inline <| by
  intro before text reach found
  obtain ⟨operator, rest, member, cut, size⟩ := reach?_binaryOperator found
  have each : ∀ operator ∈ binaryOperators,
      (['x', ' '] ++ operator ++ [' ', 'y']).all isInline = true ∧
        isBlankText (['x', ' '] ++ operator ++ [' ', 'y']) = false := by decide
  exact ⟨_, rest, cut, by rw [size], each operator member⟩

theorem onLine_pipelineOperator : OnLine .pipelineOperator := onLine_of_inline <| by
  intro before text reach found
  obtain ⟨rest, cut, size⟩ := reach?_pipelineOperator found
  exact ⟨_, rest, cut, by rw [size], by decide⟩

theorem onLine_slice : OnLine .slice := onLine_of_inline <| by
  intro before text reach found
  obtain ⟨inside, rest, _, all, cut, size⟩ := reach?_slice found
  have inline : inside.all isInline = true := List.all_eq_true.mpr fun c member =>
    isInline_of (by decide) (all c member)
  refine ⟨['x', '['] ++ inside ++ [']'], rest, cut, by rw [size], ?_, ?_⟩
  · rw [List.all_append, List.all_append, inline]
    decide
  · exact List.all_eq_false.mpr ⟨'x', by simp, by decide⟩

theorem onLine_flag : OnLine .flag := onLine_of_inline <| by
  intro before text reach found
  obtain ⟨name, rest, _, all, _, cut, size⟩ := reach?_flag found
  have inline : name.all isInline = true := List.all_eq_true.mpr fun c member =>
    isInline_of (by decide +kernel) (all c member)
  refine ⟨['-', '-'] ++ name, rest, cut, by rw [size], ?_, ?_⟩
  · rw [List.all_append, inline]
    decide
  · exact List.all_eq_false.mpr ⟨'-', by simp, by decide⟩

/-- A quoted span begins and ends with its marks, also where it reaches over boundaries of lines. -/
theorem moors_quote {name : String} : Moors ⟨name, .quote, whole .green⟩ where
  toRecolors := recolors_whole .green aligned_quote
  moored := by
    intro before lexeme groups rest behind ahead intact found moored
    obtain ⟨mark, inside, others, isMark, _, _, cut, size⟩ := reach?_quote found
    obtain ⟨rfl, _⟩ := occurrence_eq cut size
    obtain ⟨visible, plain, outer⟩ := isBlank_of_isQuoteMark isMark
    have within : Intact inside := intact.of_cons.of_stops (stops_cons outer [])
    have alone : escape ∉ [mark] := by simpa using plain.symm
    have shown : stripColors (mark :: inside ++ [mark]) = mark :: stripColors inside ++ [mark] := by
      rw [List.cons_append, stripColors_cons plain, stripColors_append within,
        stripColors_of_not_mem alone, List.cons_append]
    refine MooredAt.styled (.color .green) moored ?_ ?_
    · rw [shown]
      exact startsLit_visible visible _
    · rw [shown, List.reverse_append]
      exact startsLit_visible visible _

/-! ### Section headers -/

/-- Where no visible line begins with a number sign there is no section header. -/
theorem replaceAll_sectionHeader {replace : Match → Text} {painted text : Text}
    (shows : Shows painted text) (margined : Margined text) :
    sectionHeader.replaceAll replace painted = painted := by
  refine replaceFrom_absent aligned_sectionHeader.proper fun first c rest cut => ?_
  cases found : sectionHeader.reach? (lastChar none first) (c :: rest) with
  | none => rfl
  | some reach =>
    obtain ⟨starts, level, title, others, low, _, _, _, _, header, _⟩ := reach?_sectionHeader found
    have sign : c = '#' := by
      obtain ⟨fewer, rfl⟩ : ∃ fewer, level = fewer + 1 := ⟨level - 1, by omega⟩
      exact (List.cons.inj header).1
    subst sign
    have intact := shows.intact
    have visible := shows.visible
    rw [cut] at intact visible
    have front : Intact first := intact.of_stops (stops_cons (by decide) rest)
    rw [stripColors_append front, stripColors_cons (by decide)] at visible
    have begins : Margined ('#' :: stripColors rest) := by
      rcases List.eq_nil_or_concat first with rfl | ⟨init, last, rfl⟩
      · have nothing : stripColors [] = [] := stripColors_of_not_mem List.not_mem_nil
        rw [nothing, List.nil_append] at visible
        rw [visible]
        exact margined
      · have lineFeed : last = '\n' := by simpa [lastChar, startsLine] using starts
        subst lineFeed
        rw [List.concat_eq_append] at front visible
        have before : Intact init := front.of_stops (stops_cons (by decide) [])
        rw [stripColors_append before, stripColors_of_not_mem (by decide : escape ∉ ['\n']),
          List.append_assoc, List.singleton_append] at visible
        rw [← visible] at margined
        exact (margined_append_lineFeed_iff.mp margined).2
    exact absurd (begins.isBlank_of_cons (by decide)) (by decide)

/-! ### All passes -/

theorem moored_applyAll {passes : List Pass} {painted text : Text} (margined : Margined text)
    (kept : ∀ pass ∈ passes, Recolors pass ∧ (Moors pass ∨ pass.pattern = .sectionHeader))
    (shows : Shows painted text) (moored : Moored painted) :
    Moored (Pass.applyAll passes painted) := by
  induction passes generalizing painted with
  | nil => exact moored
  | cons pass others step =>
    obtain ⟨recolors, either⟩ := kept pass (List.mem_cons_self ..)
    refine step (fun other member => kept other (List.mem_cons_of_mem _ member))
      (recolors.apply shows) ?_
    rcases either with moors | header
    · exact moors.apply moored
    · have same : pass.apply painted = painted := by
        unfold Pass.apply
        rw [header]
        exact replaceAll_sectionHeader shows margined
      show Moored (pass.apply painted)
      rw [same]
      exact moored

/-- Every pass over prose but the one for section headers keeps texts moored. -/
theorem moors_of_mem : ∀ pass ∈ prosePasses, Moors pass ∨ pass.pattern = .sectionHeader := by
  intro pass member
  have recolors := recolors_of_mem pass member
  simp only [prosePasses, List.mem_cons, List.not_mem_nil, or_false] at member
  rcases member with rfl | rfl | rfl | rfl | rfl | rfl | rfl | rfl
  · exact Or.inl moors_quote
  · exact Or.inr rfl
  · exact Or.inl (moors_of_onLine recolors onLine_url)
  · exact Or.inl (moors_of_onLine recolors onLine_unaryOperator)
  · exact Or.inl (moors_of_onLine recolors onLine_binaryOperator)
  · exact Or.inl (moors_of_onLine recolors onLine_pipelineOperator)
  · exact Or.inl (moors_of_onLine recolors onLine_slice)
  · exact Or.inl (moors_of_onLine recolors onLine_flag)

/-- **Colored prose is moored where none of its lines begins with a character other than a
blank.** -/
theorem moored_prose {text : Text} (clear : escape ∉ text) (margined : Margined text) :
    Moored (prose text) :=
  moored_applyAll margined (fun pass member => ⟨recolors_of_mem pass member, moors_of_mem pass member⟩)
    (shows_plain text clear) (moored_of_not_mem clear)

end Handbook.Colorize
