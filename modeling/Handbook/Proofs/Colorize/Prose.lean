/-
**Coloring of prose adds only color.**

Each pass over prose finds its occurrences between the color sequences of the passes before it, and
what it puts in the place of an occurrence shows the same characters. So the colors can be removed
again, and no pass ever cuts a sequence in two.

* `recolors_of_mem`: every pass over prose only recolors;
* `prose_adds_only_color`: colored prose without its colors is the prose, each pass leaves whole
  sequences only, and none cuts a sequence.
-/

import Handbook.Colorize.Prose
import Handbook.Proofs.Pattern.Aligned

namespace Handbook.Colorize

open Terminal Pattern Text Unicode

/-! ### Colored texts and what they show -/

/-- An intact text shows a text when the other is left of it without its color sequences. -/
structure Shows (painted shown : Text) : Prop where
  intact : Intact painted
  visible : stripColors painted = shown

theorem Shows.append {painted painted' shown shown' : Text} (one : Shows painted shown)
    (two : Shows painted' shown') : Shows (painted ++ painted') (shown ++ shown') where
  intact := one.intact.append two.intact
  visible := by rw [stripColors_append one.intact, one.visible, two.visible]

theorem shows_plain (text : Text) (clear : escape ∉ text) : Shows text text where
  intact := intact_of_not_mem clear
  visible := stripColors_of_not_mem clear

theorem shows_nil : Shows [] [] := shows_plain [] List.not_mem_nil

theorem shows_styled (style : Style) (text : Text) (clear : escape ∉ text) :
    Shows (styled style text) text where
  intact := (intact_of_not_mem clear).styled style
  visible := by
    rw [stripColors_styled style (intact_of_not_mem clear), stripColors_of_not_mem clear]

theorem shows_colored (shade : Color) (text : Text) (clear : escape ∉ text) :
    Shows (colored shade text) text :=
  shows_styled (.color shade) text clear

theorem Shows.not_mem {painted shown : Text} (shows : Shows painted shown) {c : Char}
    (plain : c ≠ escape) (outer : isInner c = false) (absent : c ∉ shown) : c ∉ painted :=
  fun member => absent (shows.visible ▸ mem_stripColors shows.intact member plain outer)

/-- **Parts between separators show the parts that they show one by one.** -/
theorem Shows.intercalate {Part : Type} {painted shown : Part → Text} {parts : List Part}
    {separator : Text} (clear : escape ∉ separator)
    (each : ∀ part ∈ parts, Shows (painted part) (shown part)) :
    Shows (separator.intercalate (parts.map painted)) (separator.intercalate (parts.map shown)) := by
  induction parts with
  | nil => exact shows_nil
  | cons part others step =>
    have first := each part (List.mem_cons_self ..)
    have later := step fun other member => each other (List.mem_cons_of_mem _ member)
    cases others with
    | nil => simpa using first
    | cons next rest =>
      have between := shows_plain separator clear
      simp only [List.map_cons, List.intercalate_cons_cons] at later ⊢
      exact (first.append between).append later

theorem Shows.flatMap {Part : Type} {painted shown : Part → Text} {parts : List Part}
    (each : ∀ part ∈ parts, Shows (painted part) (shown part)) :
    Shows (parts.flatMap painted) (parts.flatMap shown) := by
  induction parts with
  | nil => exact shows_nil
  | cons part others step =>
    rw [List.flatMap_cons, List.flatMap_cons]
    exact (each part (List.mem_cons_self ..)).append
      (step fun other member => each other (List.mem_cons_of_mem _ member))

/-- Pieces without escape characters are shown once the occurrences among them are replaced by texts
that show them. -/
theorem shows_pieces {replace : Match → Text} {pieces : List Piece}
    (clear : escape ∉ pieces.flatMap Piece.text)
    (kept : ∀ occurrence : Match, escape ∉ occurrence.lexeme →
      Shows (replace occurrence) occurrence.lexeme) :
    Shows (pieces.flatMap (Piece.replaced replace)) (pieces.flatMap Piece.text) := by
  refine .flatMap fun piece member => ?_
  have alone : escape ∉ piece.text := fun inside =>
    clear (List.mem_flatMap.mpr ⟨piece, member, inside⟩)
  cases piece with
  | plain c => exact shows_plain [c] alone
  | found occurrence => exact kept occurrence alone

theorem shows_replaceAll {pattern : Pattern} {replace : Match → Text} {text : Text}
    (clear : escape ∉ text)
    (kept : ∀ occurrence : Match, escape ∉ occurrence.lexeme →
      Shows (replace occurrence) occurrence.lexeme) :
    Shows (pattern.replaceAll replace text) text := by
  have covers : (pattern.pieces text).flatMap Piece.text = text := flatten_pieces pattern text
  have shows := shows_pieces (covers ▸ clear) kept
  rwa [covers] at shows

/-! ### Passes that only recolor -/

/-- A pass that only recolors: its pattern is aligned, and what it puts in the place of an occurrence
shows what the occurrence shows. -/
structure Recolors (pass : Pass) : Prop where
  aligned : Aligned pass.pattern
  shows : ∀ {before lexeme groups rest}, Intact lexeme →
    pass.pattern.reach? before (lexeme ++ rest) = some ⟨lexeme.length, groups⟩ →
    Shows (pass.replace ⟨lexeme, groups⟩) (stripColors lexeme)

theorem Recolors.apply {pass : Pass} (recolors : Recolors pass) {text shown : Text}
    (shows : Shows text shown) : Shows (pass.apply text) shown where
  intact := (recolors.aligned.woven shows.intact).intact fun one found =>
    (recolors.shows one found).intact
  visible := by
    rw [← shows.visible]
    exact (recolors.aligned.woven shows.intact).stripColors_eq fun one found =>
      ⟨(recolors.shows one found).intact, (recolors.shows one found).visible⟩

theorem Shows.applyAll {passes : List Pass} (recolors : ∀ pass ∈ passes, Recolors pass)
    {text shown : Text} (shows : Shows text shown) : Shows (Pass.applyAll passes text) shown := by
  induction passes generalizing text with
  | nil => exact shows
  | cons pass others step =>
    exact step (fun other member => recolors other (List.mem_cons_of_mem _ member))
      ((recolors pass (List.mem_cons_self ..)).apply shows)

/-- A pass does not cut a sequence: the text before each of its occurrences, and the text up to the
end of each, is intact. -/
def CutsNoSequence (pass : Pass) (text : Text) : Prop :=
  ∀ located ∈ pass.pattern.occurrences text,
    Intact (text.take located.start) ∧ Intact (text.take located.stop)

theorem Recolors.cutsNoSequence {pass : Pass} (recolors : Recolors pass) {text : Text}
    (intact : Intact text) : CutsNoSequence pass text := fun _ member =>
  (recolors.aligned.woven intact).cuts intact_nil member

/-- Coloring a whole occurrence shows the occurrence. -/
theorem recolors_whole {name : String} {pattern : Pattern} (shade : Color)
    (aligned : Aligned pattern) : Recolors ⟨name, pattern, whole shade⟩ where
  aligned := aligned
  shows := fun intact _ => ⟨intact.colored shade, stripColors_colored shade intact⟩

/-! ### The passes over prose -/

theorem recolors_unaryOperator {name : String} :
    Recolors ⟨name, .unaryOperator, unaryOperator⟩ where
  aligned := aligned_unaryOperator
  shows := by
    intro before lexeme groups rest _ found
    obtain ⟨operator, later, either, cut, size⟩ := reach?_unaryOperator found
    obtain ⟨rfl, rfl⟩ := occurrence_eq cut size
    have plain : escape ∉ [operator] := by rcases either with rfl | rfl <;> decide
    have letter : escape ∉ ['x'] := by decide
    have shows := (shows_colored .cyan _ plain).append (shows_colored .red _ letter)
    exact ⟨shows.intact, shows.visible.trans (shows_plain _ (by simp_all)).visible.symm⟩

theorem recolors_binaryOperator {name : String} :
    Recolors ⟨name, .binaryOperator, binaryOperator⟩ where
  aligned := aligned_binaryOperator
  shows := by
    intro before lexeme groups rest _ found
    obtain ⟨operator, later, member, cut, size⟩ := reach?_binaryOperator found
    obtain ⟨rfl, rfl⟩ := occurrence_eq cut size
    have clear := escape_not_mem_binaryOperator member
    have space := shows_plain [' '] (by decide)
    have left := shows_colored .red ['x'] (by decide)
    have right := shows_colored .red ['y'] (by decide)
    have shows := (((left.append space).append (shows_colored .cyan _ clear)).append space).append right
    refine ⟨shows.intact, shows.visible.trans ?_⟩
    rw [stripColors_of_not_mem (by simp [escape] at clear ⊢; exact clear)]
    simp

theorem recolors_pipelineOperator {name : String} :
    Recolors ⟨name, .pipelineOperator, pipelineOperator⟩ where
  aligned := aligned_pipelineOperator
  shows := by
    intro before lexeme groups rest _ found
    obtain ⟨later, cut, size⟩ := reach?_pipelineOperator found
    obtain ⟨rfl, rfl⟩ := occurrence_eq cut size
    have call := shows_plain pipedCall (by decide)
    have shows := call.append (shows_colored .cyan ['|'] (by decide))
    exact ⟨shows.intact, shows.visible.trans (stripColors_of_not_mem (by decide)).symm⟩

theorem recolors_slice {name : String} : Recolors ⟨name, .slice, slice⟩ where
  aligned := aligned_slice
  shows := by
    intro before lexeme groups rest _ found
    obtain ⟨inside, later, _, all, cut, size⟩ := reach?_slice found
    obtain ⟨rfl, rfl⟩ := occurrence_eq cut size
    have clear := escape_not_mem_slice all
    have parts : ∀ part ∈ Text.split ':' inside, escape ∉ part := by
      intro part member found
      exact clear (mem_of_mem_split member found)
    have left := shows_colored .red ['x'] (by decide)
    have opening := shows_plain ['['] (by decide)
    have middle : Shows ([':'].intercalate ((Text.split ':' inside).map (colored .cyan)))
        ([':'].intercalate ((Text.split ':' inside).map fun part => part)) :=
      .intercalate (by decide) fun part member => shows_colored .cyan part (parts part member)
    have closing := shows_plain [']'] (by decide)
    rw [List.map_id', intercalate_split] at middle
    have shows := ((left.append opening).append middle).append closing
    refine ⟨shows.intact, shows.visible.trans ?_⟩
    rw [stripColors_of_not_mem (by simp [escape] at clear ⊢; exact clear)]
    simp

/-- **Every pass over prose only recolors.** -/
theorem recolors_of_mem : ∀ pass ∈ prosePasses, Recolors pass := by
  intro pass member
  simp only [prosePasses, List.mem_cons, List.not_mem_nil, or_false] at member
  rcases member with rfl | rfl | rfl | rfl | rfl | rfl | rfl | rfl
  · exact recolors_whole .green aligned_quote
  · exact recolors_whole .yellow aligned_sectionHeader
  · exact recolors_whole .blue aligned_url
  · exact recolors_unaryOperator
  · exact recolors_binaryOperator
  · exact recolors_pipelineOperator
  · exact recolors_slice
  · exact recolors_whole .cyan aligned_flag

/-- **Coloring of prose adds only color.** Without its color sequences, or without all control
sequences, colored prose is the prose; and before and after each pass all sequences are whole, and
the occurrences that the next pass finds cut none of them. -/
theorem prose_adds_only_color (text : Text) (clear : escape ∉ text) :
    stripColors (prose text) = text ∧ unstyled (prose text) = text ∧
      ∀ done, done <+: prosePasses →
        Intact (Pass.applyAll done text) ∧
          ∀ pass, done ++ [pass] <+: prosePasses →
            CutsNoSequence pass (Pass.applyAll done text) := by
  have part : ∀ done, done <+: prosePasses → Shows (Pass.applyAll done text) text :=
    fun done early => (shows_plain text clear).applyAll fun pass member =>
      recolors_of_mem pass (early.subset member)
  have whole : Shows (prose text) text := part prosePasses (List.prefix_refl _)
  refine ⟨whole.visible, ?_, fun done early => ⟨(part done early).intact, ?_⟩⟩
  · rw [unstyled_eq_stripColors whole.intact, whole.visible]
  · intro pass next
    have member : pass ∈ prosePasses := next.subset (List.mem_append_right _ (List.mem_cons_self ..))
    exact (recolors_of_mem pass member).cutsNoSequence (part done early).intact

/-- A snippet and a flag inside quotes: one color inside another. -/
theorem prose_adds_only_color_nested :
    escape ∉ "'!x --a'".toList ∧ stripColors (prose "'!x --a'".toList) = "'!x --a'".toList :=
  ⟨by decide, (prose_adds_only_color _ (by decide)).1⟩

end Handbook.Colorize
