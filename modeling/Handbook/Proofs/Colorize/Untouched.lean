/-
**Coloring leaves prose without triggers untouched, and makes all other prose longer.**

Wherever its pattern occurs, a pass over prose writes more characters than the occurrence has, and
everything else stays. So a pass either finds nothing and changes nothing, or makes the text longer;
and what it adds no later pass takes away, although later passes find occurrences inside of it. The
text may have escape sequences of its own.

* `Scans.exists_found_iff`: a scan finds something exactly when the pattern occurs somewhere;
* `Lengthens.apply_eq`, `Lengthens.length_lt`: a pass that finds nothing, and one that finds something;
* `lengthens_of_mem`: every pass over prose lengthens what it finds;
* `prose_untouched_iff`: when prose is left as it is, and when it gets longer.
-/

import Mathlib.Algebra.Order.BigOperators.Group.List
import Mathlib.Algebra.Order.Ring.Nat
import Handbook.Colorize.Prose
import Handbook.Proofs.Pattern.Prose

namespace Handbook

open Terminal Text

namespace Pattern

/-! ### Patterns that occur somewhere -/

/-- Whether a pattern occurs at some place of a text. -/
def Occurs (pattern : Pattern) (text : Text) : Prop :=
  ∃ first rest, text = first ++ rest ∧ pattern.reach? (lastChar none first) rest ≠ none

/-- **A scan finds something exactly when the pattern occurs somewhere**, also where occurrences
overlap and not all of them are found. -/
theorem Scans.exists_found_iff {pattern : Pattern} (proper : pattern.Proper)
    {before : Option Char} {text : Text} {pieces : List Piece}
    (scans : Scans pattern before text pieces) :
    (∃ occurrence, .found occurrence ∈ pieces) ↔
      ∃ first rest, text = first ++ rest ∧ pattern.reach? (lastChar before first) rest ≠ none := by
  induction scans with
  | nil =>
    refine iff_of_false (fun ⟨_, member⟩ => List.not_mem_nil member) ?_
    rintro ⟨first, rest, cut, found⟩
    obtain ⟨rfl, rfl⟩ := List.append_eq_nil_iff.mp cut.symm
    exact found (proper.reach?_nil _)
  | @plain before c rest pieces absent _ step =>
    simp only [List.mem_cons, reduceCtorEq, false_or, step]
    constructor
    · rintro ⟨first, later, rfl, found⟩
      exact ⟨c :: first, later, rfl, by rwa [lastChar_cons]⟩
    · rintro ⟨first, later, cut, found⟩
      cases first with
      | nil =>
        rw [List.nil_append] at cut
        exact absurd absent (cut ▸ found)
      | cons d first =>
        obtain ⟨rfl, rfl⟩ := List.cons.inj cut
        exact ⟨first, later, rfl, by rwa [lastChar_cons] at found⟩
  | found _ found _ _ =>
    refine iff_of_true ⟨_, List.mem_cons_self ..⟩ ⟨[], _, (List.nil_append _).symm, ?_⟩
    rw [lastChar_nil, found]
    exact Option.some_ne_none _

end Pattern

namespace Colorize

open Pattern

/-! ### Passes that lengthen what they find -/

/-- A pass that writes more than an occurrence of its pattern covers. -/
structure Lengthens (pass : Pass) : Prop where
  proper : pass.pattern.Proper
  longer : ∀ {before lexeme groups rest},
    pass.pattern.reach? before (lexeme ++ rest) = some ⟨lexeme.length, groups⟩ →
    lexeme.length < (pass.replace ⟨lexeme, groups⟩).length

section

variable {pass : Pass} {text : Text}

/-- **A pass whose pattern occurs nowhere changes nothing.** -/
theorem Lengthens.apply_eq (lengthens : Lengthens pass) (absent : ¬ pass.pattern.Occurs text) :
    pass.apply text = text :=
  replaceFrom_absent lengthens.proper fun first c rest cut =>
    by_contra fun found => absent ⟨first, c :: rest, cut, found⟩

/-- **A pass whose pattern occurs somewhere makes the text longer.** -/
theorem Lengthens.length_lt (lengthens : Lengthens pass) (occurs : pass.pattern.Occurs text) :
    text.length < (pass.apply text).length := by
  obtain ⟨occurrence, member⟩ :=
    ((lengthens.proper.scans none text).exists_found_iff lengthens.proper).mpr occurs
  have longer {found : Match} (listed : .found found ∈ pass.pattern.pieces text) :
      found.lexeme.length < (pass.replace found).length := by
    obtain ⟨_, _, here⟩ := lengthens.proper.reach?_of_mem listed
    exact lengthens.longer here
  have each : ∀ piece ∈ pass.pattern.pieces text,
      piece.text.length ≤ (piece.replaced pass.replace).length := by
    intro piece listed
    cases piece with
    | plain c => exact Nat.le_refl 1
    | found one => exact Nat.le_of_lt (longer listed)
  calc text.length
      = ((pass.pattern.pieces text).map fun piece => piece.text.length).sum := by
        rw [← List.length_flatMap, flatten_pieces]
    _ < ((pass.pattern.pieces text).map fun piece => (piece.replaced pass.replace).length).sum :=
        List.sum_lt_sum _ _ each ⟨_, member, longer member⟩
    _ = (pass.apply text).length := List.length_flatMap.symm

end

/-- **A pipeline of such passes** finds nothing in a text and leaves it, or finds something and makes
it longer. The first pass that finds something sees the text as it was. -/
theorem applyAll_untouched_or_longer {passes : List Pass}
    (lengthen : ∀ pass ∈ passes, Lengthens pass) (text : Text) :
    (∀ pass ∈ passes, ¬ pass.pattern.Occurs text) ∧ Pass.applyAll passes text = text ∨
      (∃ pass ∈ passes, pass.pattern.Occurs text) ∧
        text.length < (Pass.applyAll passes text).length := by
  induction passes generalizing text with
  | nil => exact Or.inl ⟨fun _ member => absurd member List.not_mem_nil, rfl⟩
  | cons pass others step =>
    have lengthens := lengthen pass (List.mem_cons_self ..)
    have later := step (fun other member => lengthen other (List.mem_cons_of_mem _ member))
      (pass.apply text)
    by_cases occurs : pass.pattern.Occurs text
    · have longer := lengthens.length_lt occurs
      refine Or.inr ⟨⟨pass, List.mem_cons_self .., occurs⟩, ?_⟩
      rcases later with ⟨-, same⟩ | ⟨-, more⟩
      · exact longer.trans_eq (congrArg List.length same).symm
      · exact longer.trans more
    · rw [lengthens.apply_eq occurs] at later
      have here : Pass.applyAll (pass :: others) text = Pass.applyAll others text :=
        congrArg (Pass.applyAll others) (lengthens.apply_eq occurs)
      rw [here]
      refine later.imp (And.imp_left fun absent => ?_) (And.imp_left ?_)
      · exact List.forall_mem_cons.mpr ⟨occurs, absent⟩
      · rintro ⟨other, member, found⟩
        exact ⟨other, List.mem_cons_of_mem _ member, found⟩

/-! ### The passes over prose -/

theorem length_lt_colored (shade : Color) (text : Text) :
    text.length < (colored shade text).length := by
  simp only [colored, styled, select, reset, List.length_append, List.length_cons]
  omega

theorem lengthens_whole {name : String} {pattern : Pattern} (shade : Color)
    (proper : pattern.Proper) : Lengthens ⟨name, pattern, whole shade⟩ where
  proper := proper
  longer := fun _ => length_lt_colored shade _

theorem lengthens_unaryOperator {name : String} :
    Lengthens ⟨name, .unaryOperator, unaryOperator⟩ where
  proper := closed_unaryOperator.proper
  longer := by
    intro before lexeme groups rest found
    obtain ⟨operator, later, _, cut, size⟩ := reach?_unaryOperator found
    obtain ⟨rfl, rfl⟩ := occurrence_eq cut size
    have sign := length_lt_colored .cyan [operator]
    have letter := length_lt_colored .red ['x']
    simp only [unaryOperator, Match.group, List.headD_cons, List.length_append, List.length_cons,
      List.length_nil] at sign letter ⊢
    omega

theorem lengthens_binaryOperator {name : String} :
    Lengthens ⟨name, .binaryOperator, binaryOperator⟩ where
  proper := closed_binaryOperator.proper
  longer := by
    intro before lexeme groups rest found
    obtain ⟨operator, later, _, cut, size⟩ := reach?_binaryOperator found
    obtain ⟨rfl, rfl⟩ := occurrence_eq cut size
    have left := length_lt_colored .red ['x']
    have middle := length_lt_colored .cyan operator
    have right := length_lt_colored .red ['y']
    simp only [binaryOperator, Match.group, List.headD_cons, List.length_append, List.length_cons,
      List.length_nil] at left right ⊢
    omega

theorem lengthens_pipelineOperator {name : String} :
    Lengthens ⟨name, .pipelineOperator, pipelineOperator⟩ where
  proper := closed_pipelineOperator.proper
  longer := by
    intro before lexeme groups rest found
    obtain ⟨later, cut, size⟩ := reach?_pipelineOperator found
    obtain ⟨rfl, rfl⟩ := occurrence_eq cut size
    have pipe := length_lt_colored .cyan ['|']
    simp only [pipelineOperator, Match.group, List.headD_cons, List.length_append]
    omega

/-- Parts between separators get no shorter when none of the parts does. -/
theorem length_intercalate_le {separator : Text} {change : Text → Text} {parts : List Text}
    (each : ∀ part ∈ parts, part.length ≤ (change part).length) :
    (separator.intercalate parts).length ≤ (separator.intercalate (parts.map change)).length := by
  induction parts with
  | nil => exact Nat.le_refl 0
  | cons part others step =>
    have first := each part (List.mem_cons_self ..)
    have later := step fun other member => each other (List.mem_cons_of_mem _ member)
    cases others with
    | nil => simpa using first
    | cons next rest =>
      simp only [List.map_cons, List.intercalate_cons_cons, List.length_append] at later ⊢
      omega

theorem lengthens_slice {name : String} : Lengthens ⟨name, .slice, slice⟩ where
  proper := closed_slice.proper
  longer := by
    intro before lexeme groups rest found
    obtain ⟨inside, later, _, _, cut, size⟩ := reach?_slice found
    obtain ⟨rfl, rfl⟩ := occurrence_eq cut size
    have letter := length_lt_colored .red ['x']
    have parts : inside.length ≤
        ([':'].intercalate ((Text.split ':' inside).map (colored .cyan))).length := by
      have each : ∀ part ∈ Text.split ':' inside, part.length ≤ (colored .cyan part).length :=
        fun part _ => Nat.le_of_lt (length_lt_colored .cyan part)
      have longer := @length_intercalate_le [':'] _ _ each
      rwa [intercalate_split] at longer
    simp only [slice, Match.group, List.headD_cons, List.length_append, List.length_cons,
      List.length_nil] at letter ⊢
    omega

/-- **Every pass over prose lengthens what it finds.** -/
theorem lengthens_of_mem : ∀ pass ∈ prosePasses, Lengthens pass := by
  intro pass member
  simp only [prosePasses, List.mem_cons, List.not_mem_nil, or_false] at member
  rcases member with rfl | rfl | rfl | rfl | rfl | rfl | rfl | rfl
  · exact lengthens_whole .green closed_quote.proper
  · exact lengthens_whole .yellow delimited_sectionHeader.proper
  · exact lengthens_whole .blue delimited_url.proper
  · exact lengthens_unaryOperator
  · exact lengthens_binaryOperator
  · exact lengthens_pipelineOperator
  · exact lengthens_slice
  · exact lengthens_whole .cyan delimited_flag.proper

/-- **When coloring leaves prose untouched.** Prose stays as it is exactly when none of the patterns
occurs at any place of it, and gets longer exactly when one of them does, whatever escape sequences it
holds before. -/
theorem prose_untouched_iff (text : Text) :
    (prose text = text ↔ ∀ pass ∈ prosePasses, ¬ pass.pattern.Occurs text) ∧
      (text.length < (prose text).length ↔ ∃ pass ∈ prosePasses, pass.pattern.Occurs text) := by
  rcases applyAll_untouched_or_longer lengthens_of_mem text with ⟨absent, same⟩ | ⟨found, longer⟩
  · have nowhere : ¬ ∃ pass ∈ prosePasses, pass.pattern.Occurs text := fun ⟨pass, member, occurs⟩ =>
      absent pass member occurs
    refine ⟨iff_of_true same absent, iff_of_false ?_ nowhere⟩
    exact (congrArg List.length same).not_gt
  · refine ⟨iff_of_false ?_ ?_, iff_of_true longer found⟩
    · exact fun same => longer.ne' (congrArg List.length same)
    · intro absent
      obtain ⟨pass, member, occurs⟩ := found
      exact absent pass member occurs

end Colorize

end Handbook
