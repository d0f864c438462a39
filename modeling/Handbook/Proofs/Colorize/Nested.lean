/-
**Colors of prose nest on their line.**

A later pass over prose may color a stretch that holds the end of an earlier color without its
beginning, as an address does that takes in the mark at the end of a quoted span. The levels of a
text survive that: every pass puts as many resets as openings into its replacements, and the openings
first. So no line ever resets more than it has opened, or ends with a color on.

* `Nests`: a pass whose replacements reach the levels that its occurrences reach;
* `nests_of_mem`: every pass over prose is one;
* `prose_balanced`: every line of colored prose is balanced.
-/

import Handbook.Proofs.Colorize.Sealed
import Handbook.Proofs.Terminal.Nesting

namespace Handbook.Colorize

open Terminal Pattern Text

/-! ### Passes that keep levels -/

/-- A pass that only recolors, and whose replacements reach the levels that its occurrences reach. -/
structure Nests (pass : Pass) : Prop extends Recolors pass where
  steadies : ∀ {before lexeme groups rest}, Intact lexeme →
    pass.pattern.reach? before (lexeme ++ rest) = some ⟨lexeme.length, groups⟩ →
    Steadies (pass.replace ⟨lexeme, groups⟩) lexeme

theorem Nests.apply {pass : Pass} (nests : Nests pass) {text : Text} (intact : Intact text) :
    Steadies (pass.apply text) text :=
  (nests.aligned.woven intact).related .refl .append fun _ one found =>
    ⟨.of_intact (nests.shows one found).intact, nests.steadies one found⟩

theorem steadies_applyAll {passes : List Pass} (nests : ∀ pass ∈ passes, Nests pass) {text : Text}
    (intact : Intact text) : Steadies (Pass.applyAll passes text) text := by
  induction passes generalizing text with
  | nil => exact .refl text
  | cons pass others step =>
    have one := nests pass (List.mem_cons_self ..)
    have after : Intact (pass.apply text) := (one.toRecolors.apply ⟨intact, rfl⟩).intact
    exact (step (fun other member => nests other (List.mem_cons_of_mem _ member)) after).trans
      (one.apply intact)

/-! ### The passes over prose -/

theorem nests_whole {name : String} {pattern : Pattern} (shade : Color)
    (aligned : Aligned pattern) (keepsLine : KeepsLine pattern) :
    Nests ⟨name, pattern, whole shade⟩ where
  toRecolors := recolors_whole shade aligned
  steadies := fun intact found => steadies_colored shade intact (keepsLine found)

theorem nests_unaryOperator {name : String} : Nests ⟨name, .unaryOperator, unaryOperator⟩ where
  toRecolors := recolors_unaryOperator
  steadies := by
    intro before lexeme groups rest _ found
    obtain ⟨operator, later, either, cut, size⟩ := reach?_unaryOperator found
    obtain ⟨rfl, rfl⟩ := occurrence_eq cut size
    have plain : escape ∉ [operator] ∧ '\n' ∉ [operator] := by rcases either with rfl | rfl <;> decide
    have operand : Neutral (colored .red ['x']) := neutral_colored .red (by decide) (by decide)
    have neutral :=
      (neutral_colored .cyan plain.1 plain.2).append (frayed_colored .cyan plain.1) operand
    refine neutral.steadies ?_ (closed_unaryOperator.keepsLine found)
    rcases either with rfl | rfl <;> decide

theorem nests_binaryOperator {name : String} : Nests ⟨name, .binaryOperator, binaryOperator⟩ where
  toRecolors := recolors_binaryOperator
  steadies := by
    intro before lexeme groups rest _ found
    obtain ⟨operator, later, member, cut, size⟩ := reach?_binaryOperator found
    obtain ⟨rfl, rfl⟩ := occurrence_eq cut size
    have plain : ∀ operator ∈ binaryOperators, '\n' ∉ operator ∧
        escape ∉ ['x', ' '] ++ operator ++ [' ', 'y'] := by decide
    obtain ⟨alone, clear⟩ := plain operator member
    have shade := frayed_colored .cyan (escape_not_mem_binaryOperator member)
    have space : Neutral [' '] ∧ Frayed [' '] :=
      ⟨neutral_plain (by decide) (by decide), .of_not_mem (by decide)⟩
    have right : Neutral (colored .red ['y']) := neutral_colored .red (by decide) (by decide)
    have middle : Neutral (colored .cyan operator ++ ([' '] ++ colored .red ['y'])) :=
      (neutral_colored .cyan (escape_not_mem_binaryOperator member) alone).append shade
        (space.1.append space.2 right)
    have left : Neutral (colored .red ['x']) := neutral_colored .red (by decide) (by decide)
    have neutral := left.append (frayed_colored .red (by decide)) (space.1.append space.2 middle)
    refine Neutral.steadies ?_ clear (closed_binaryOperator.keepsLine found)
    simpa [binaryOperator, Match.group] using neutral

theorem nests_pipelineOperator {name : String} :
    Nests ⟨name, .pipelineOperator, pipelineOperator⟩ where
  toRecolors := recolors_pipelineOperator
  steadies := by
    intro before lexeme groups rest _ found
    obtain ⟨later, cut, size⟩ := reach?_pipelineOperator found
    obtain ⟨rfl, rfl⟩ := occurrence_eq cut size
    have call : Neutral pipedCall := neutral_plain (by decide) (by decide)
    have pipe : Neutral (colored .cyan ['|']) := neutral_colored .cyan (by decide) (by decide)
    exact (call.append (.of_not_mem (by decide)) pipe).steadies (by decide) (by decide)

/-- Colored parts between plain separators are neutral. -/
theorem neutral_intercalate (shade : Color) {separator : Text} (clear : escape ∉ separator)
    (alone : '\n' ∉ separator) {parts : List Text}
    (plain : ∀ part ∈ parts, escape ∉ part ∧ '\n' ∉ part) :
    Neutral (separator.intercalate (parts.map (colored shade))) := by
  induction parts with
  | nil => exact neutral_plain List.not_mem_nil List.not_mem_nil
  | cons part others step =>
    obtain ⟨clear', alone'⟩ := plain part (List.mem_cons_self ..)
    have first := neutral_colored shade clear' alone'
    cases others with
    | nil =>
      rw [List.map_singleton, List.intercalate_singleton]
      exact first
    | cons next rest =>
      have later := step fun other member => plain other (List.mem_cons_of_mem _ member)
      have front := frayed_colored shade clear'
      rw [List.map_cons, List.map_cons, List.intercalate_cons_cons]
      exact (first.append front (neutral_plain clear alone)).append
        (front.append (.of_not_mem clear)) later

theorem nests_slice {name : String} : Nests ⟨name, .slice, slice⟩ where
  toRecolors := recolors_slice
  steadies := by
    intro before lexeme groups rest _ found
    obtain ⟨inside, later, _, all, cut, size⟩ := reach?_slice found
    obtain ⟨rfl, rfl⟩ := occurrence_eq cut size
    have plain : ∀ part ∈ split ':' inside, escape ∉ part ∧ '\n' ∉ part := fun part member =>
      ⟨fun found => escape_not_mem_slice all (mem_of_mem_split member found),
        fun found => absurd (all '\n' (mem_of_mem_split member found)) (by decide)⟩
    have shown : Shows ([':'].intercalate ((split ':' inside).map (colored .cyan)))
        ([':'].intercalate ((split ':' inside).map fun part => part)) :=
      .intercalate (by decide) fun part member => shows_colored .cyan part (plain part member).1
    have front : Frayed (colored .red ['x'] ++ ['[']) :=
      (frayed_colored .red (by decide)).append (.of_not_mem (by decide))
    have opening : Neutral (colored .red ['x'] ++ ['[']) :=
      (neutral_colored .red (by decide) (by decide)).append (frayed_colored .red (by decide))
        (neutral_plain (by decide) (by decide))
    have closing : Neutral [']'] := neutral_plain (by decide) (by decide)
    have parts := neutral_intercalate .cyan (by decide : escape ∉ [':']) (by decide) plain
    have neutral := (opening.append front parts).append (front.append (.of_intact shown.intact)) closing
    have absent := escape_not_mem_slice all
    refine neutral.steadies ?_ (closed_slice.keepsLine found)
    simp only [List.mem_append, List.mem_cons, List.not_mem_nil, or_false, not_or]
    exact ⟨⟨by decide, absent⟩, by decide⟩

/-- **Every pass over prose keeps the levels.** -/
theorem nests_of_mem : ∀ pass ∈ prosePasses, Nests pass := by
  intro pass member
  simp only [prosePasses, List.mem_cons, List.not_mem_nil, or_false] at member
  rcases member with rfl | rfl | rfl | rfl | rfl | rfl | rfl | rfl
  · exact nests_whole .green aligned_quote keepsLine_quote
  · exact nests_whole .yellow aligned_sectionHeader keepsLine_sectionHeader
  · exact nests_whole .blue aligned_url onLine_url.keepsLine
  · exact nests_unaryOperator
  · exact nests_binaryOperator
  · exact nests_pipelineOperator
  · exact nests_slice
  · exact nests_whole .cyan aligned_flag onLine_flag.keepsLine

/-! ### Colored prose -/

/-- **Colors of prose nest on their line.** Every line of colored prose resets as often as it opens a
color, none of its beginnings resets more often, and its last sequence is a reset. -/
theorem prose_balanced (text : Text) (clear : escape ∉ text) :
    ∀ line ∈ split '\n' (prose text), Balanced line := by
  have intact : Intact (prose text) :=
    ((shows_plain text clear).applyAll recolors_of_mem).intact
  have steadies : Steadies (prose text) text :=
    steadies_applyAll nests_of_mem (intact_of_not_mem clear)
  exact balanced_of_levels intact
    (steadies.steadier (level?_feeds (strokes_of_not_mem clear)))

/-- A quoted span whose last mark an address takes in: the reset of the span stands inside the
address. -/
theorem prose_balanced_swallowed :
    escape ∉ "\"see http://a\" b".toList ∧
      ∀ line ∈ split '\n' (prose "\"see http://a\" b".toList), Balanced line :=
  have clear : escape ∉ "\"see http://a\" b".toList := by decide
  ⟨clear, prose_balanced _ clear⟩

end Handbook.Colorize
