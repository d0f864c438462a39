/-
**Texts without their sequences.**

Two patterns find the sequences of a terminal: the one of color sequences, and the one of all
control sequences. On a text whose sequences are whole both find just these, so removing what they
find leaves the plain characters.

* `swept_append`: intact texts are swept part by part;
* `unstyled_eq_stripColors`: on an intact text both patterns leave the same;
* `escape_not_mem_stripColors`: no escape character is left of an intact text.
-/

import Handbook.Pattern.Sequence
import Handbook.Proofs.Pattern.Scan
import Handbook.Proofs.Terminal.Intact

namespace Handbook.Terminal

open Pattern Text

/-- A pattern of sequences: it occurs only at an escape character, it covers a whole color sequence,
and it does not occur where the next escape character comes before the sequence has ended. -/
structure Sweeps (pattern : Pattern) : Prop extends pattern.Proper where
  forward : pattern.Forward
  others : ∀ {c}, c ≠ escape → pattern.Spares c
  whole : ∀ {code rest}, IsCode code →
    pattern.reach? none (select code ++ rest) = some ⟨(select code).length, []⟩
  torn : ∀ {code rest}, IsCode code →
    pattern.reach? none ((escape :: '[' :: code) ++ escape :: rest) = none

/-- A text without the occurrences of a pattern. -/
def swept (pattern : Pattern) (text : Text) : Text := pattern.replaceAll (fun _ => []) text

theorem stripColors_eq (text : Text) : stripColors text = swept colorSequence text := rfl

/-! ### Sweeping -/

section

variable {pattern : Pattern} (sweeps : Sweeps pattern)

include sweeps

theorem swept_nil : swept pattern [] = [] := replaceFrom_nil sweeps.toProper none

theorem swept_cons {c : Char} (plain : c ≠ escape) (rest : Text) :
    swept pattern (c :: rest) = c :: swept pattern rest := by
  rw [swept, replaceAll_eq, replaceFrom_plain (sweeps.others plain _ _),
    sweeps.forward.replaceFrom_eq]
  rfl

theorem swept_plain {text : Text} (clear : escape ∉ text) (rest : Text) :
    swept pattern (text ++ rest) = text ++ swept pattern rest := by
  have spared : ∀ c ∈ text, pattern.Spares c := fun c member =>
    sweeps.others fun isEscape => clear (isEscape ▸ member)
  rw [swept, replaceAll_eq, replaceFrom_spared spared, sweeps.forward.replaceFrom_eq]
  rfl

theorem swept_select {code : Text} (isCode : IsCode code) (rest : Text) :
    swept pattern (select code ++ rest) = swept pattern rest := by
  rw [swept, replaceAll_eq, replaceFrom_found (by simp [select]) (sweeps.whole isCode),
    sweeps.forward.replaceFrom_eq]
  rfl

theorem swept_torn {code : Text} (isCode : IsCode code) (rest : Text) :
    swept pattern ((escape :: '[' :: code) ++ escape :: rest) =
      (escape :: '[' :: code) ++ swept pattern (escape :: rest) := by
  have absent : pattern.reach? none ((escape :: '[' :: code) ++ escape :: rest) = none :=
    sweeps.torn isCode
  rw [List.cons_append] at absent ⊢
  rw [swept, replaceAll_eq, replaceFrom_plain absent, sweeps.forward.replaceFrom_eq]
  refine congrArg (escape :: ·) (swept_plain sweeps ?_ _)
  rw [List.mem_cons, not_or]
  exact ⟨by decide, escape_not_mem_code isCode⟩

/-- **Intact texts are swept part by part.** -/
theorem swept_append {first : Text} (intact : Intact first) (second : Text) :
    swept pattern (first ++ second) = swept pattern first ++ swept pattern second := by
  induction intact using Intact.induction with
  | nil => rw [swept_nil sweeps, List.nil_append, List.nil_append]
  | plain c rest plain _ step =>
    rw [List.cons_append, swept_cons sweeps plain, swept_cons sweeps plain, step, List.cons_append]
  | sequence code rest isCode _ step =>
    rw [List.append_assoc, swept_select sweeps isCode, swept_select sweeps isCode, step]

theorem swept_of_not_mem {text : Text} (clear : escape ∉ text) : swept pattern text = text := by
  have whole := swept_plain sweeps clear []
  rw [List.append_nil, swept_nil sweeps, List.append_nil] at whole
  exact whole

/-- **Styling leaves nothing that is not swept.** -/
theorem swept_styled {text : Text} (style : Style) (intact : Intact text) :
    swept pattern (styled style text) = swept pattern text := by
  have last : swept pattern reset = [] := by
    have whole := swept_select sweeps isCode_zero []
    rw [List.append_nil, swept_nil sweeps] at whole
    exact whole
  rw [styled, List.append_assoc, swept_select sweeps (isCode_style style),
    swept_append sweeps intact, last, List.append_nil]

/-- **No escape character is left of an intact text.** -/
theorem escape_not_mem_swept {text : Text} (intact : Intact text) : escape ∉ swept pattern text := by
  induction intact using Intact.induction with
  | nil =>
    rw [swept_nil sweeps]
    exact List.not_mem_nil
  | plain c rest plain _ step =>
    rw [swept_cons sweeps plain, List.mem_cons, not_or]
    exact ⟨plain.symm, step⟩
  | sequence code rest isCode _ step =>
    rw [swept_select sweeps isCode]
    exact step

end

/-- **On an intact text all patterns of sequences leave the same.** -/
theorem swept_eq_swept {first second : Pattern} (one : Sweeps first) (two : Sweeps second)
    {text : Text} (intact : Intact text) : swept first text = swept second text := by
  induction intact using Intact.induction with
  | nil => rw [swept_nil one, swept_nil two]
  | plain c rest plain _ step => rw [swept_cons one plain, swept_cons two plain, step]
  | sequence code rest isCode _ step => rw [swept_select one isCode, swept_select two isCode, step]

/-! ### The two patterns -/

theorem colorSequenceSize?_other {c : Char} (plain : c ≠ escape) (rest : Text) :
    colorSequenceSize? (c :: rest) = none := by
  cases rest with
  | nil => rfl
  | cons d others =>
    unfold colorSequenceSize?
    split
    · rename_i same
      simp only [List.cons.injEq] at same
      simp [← same.1, plain]
    · rfl

theorem isColorParameter_code {code : Text} (isCode : IsCode code) :
    ∀ c ∈ code, isColorParameter c = true := by
  intro c member
  simp [isColorParameter, isCode.2 c member]

theorem colorSequenceSize?_parameters {parameters : Text}
    (all : ∀ c ∈ parameters, isColorParameter c = true) (rest : Text) :
    colorSequenceSize? (select parameters ++ rest) = some (select parameters).length := by
  have stops : Stops isColorParameter ('m' :: rest) := stops_cons (by decide) rest
  simp only [select, List.cons_append, List.nil_append, List.append_assoc, colorSequenceSize?]
  rw [takeWhile_cut all stops, dropWhile_cut all stops]
  simp

theorem colorSequenceSize?_select {code : Text} (isCode : IsCode code) (rest : Text) :
    colorSequenceSize? (select code ++ rest) = some (select code).length :=
  colorSequenceSize?_parameters (isColorParameter_code isCode) rest

theorem colorSequenceSize?_torn {code : Text} (isCode : IsCode code) (rest : Text) :
    colorSequenceSize? ((escape :: '[' :: code) ++ escape :: rest) = none := by
  have stops : Stops isColorParameter (escape :: rest) := stops_cons (by decide) rest
  simp only [List.cons_append, colorSequenceSize?]
  rw [dropWhile_cut (isColorParameter_code isCode) stops]
  simp [escape]

/-- A text that begins with a color sequence is cut behind it. -/
theorem colorSequenceSize?_eq_some {text : Text} {size : Nat}
    (found : colorSequenceSize? text = some size) :
    ∃ parameters rest, (∀ c ∈ parameters, isColorParameter c = true) ∧
      text = select parameters ++ rest ∧ size = (select parameters).length := by
  unfold colorSequenceSize? at found
  split at found
  · rename_i first rest
    simp only [Option.ite_none_right_eq_some, Bool.and_eq_true, beq_iff_eq,
      Option.some.injEq] at found
    obtain ⟨⟨rfl, ends⟩, size⟩ := found
    obtain ⟨others, tail⟩ := List.head?_eq_some_iff.mp ends
    refine ⟨rest.takeWhile isColorParameter, others, fun c => of_mem_takeWhile, ?_, ?_⟩
    · have whole : rest = rest.takeWhile isColorParameter ++ rest.dropWhile isColorParameter :=
        List.takeWhile_append_dropWhile.symm
      rw [tail] at whole
      simp only [select, List.cons_append, List.nil_append, List.append_assoc]
      rw [← whole]
    · rw [← size]
      simp [select]
  · simp at found

theorem sweeps_colorSequence : Sweeps colorSequence where
  positive := by
    intro before text reach found
    obtain ⟨size, sized, rfl⟩ := Option.map_eq_some_iff.mp found
    obtain ⟨_, _, _, _, rfl⟩ := colorSequenceSize?_eq_some sized
    simp [select]
  within := by
    intro before text reach found
    obtain ⟨size, sized, rfl⟩ := Option.map_eq_some_iff.mp found
    obtain ⟨_, _, _, rfl, rfl⟩ := colorSequenceSize?_eq_some sized
    simp
  forward := fun _ _ => rfl
  others := by
    intro c plain before rest
    simp only [colorSequence, colorSequenceSize?_other plain, Option.map_none]
  whole := by
    intro code rest isCode
    simp only [colorSequence, colorSequenceSize?_select isCode, Option.map_some]
  torn := by
    intro code rest isCode
    simp only [colorSequence, colorSequenceSize?_torn isCode, Option.map_none]

theorem isParameter_code {code : Text} (isCode : IsCode code) :
    ∀ c ∈ code, isParameter c = true := by
  intro c member
  have digit := isCode.2 c member
  simp only [Char.isDigit, Bool.and_eq_true, decide_eq_true_eq] at digit
  simp only [isParameter, Bool.and_eq_true, decide_eq_true_eq]
  exact ⟨digit.1, Nat.le_trans digit.2 (by decide)⟩

/-- Where a control sequence occurs, it is cut off: an escape character and a bracket, parameters,
intermediate characters and a final one. -/
theorem reach?_controlSequence {before : Option Char} {text : Text} {reach : Reach}
    (found : controlSequence.reach? before text = some reach) :
    ∃ parameters intermediates final rest,
      text = (escape :: '[' :: parameters ++ intermediates ++ [final]) ++ rest ∧
        reach.size = parameters.length + intermediates.length + 3 := by
  simp only [controlSequence] at found
  split at found
  · rename_i first rest
    simp only [Option.ite_none_right_eq_some, Bool.and_eq_true, beq_iff_eq,
      Option.some.injEq, Option.any_eq_true] at found
    obtain ⟨⟨rfl, final, ends, -⟩, rfl⟩ := found
    obtain ⟨others, tail⟩ := List.head?_eq_some_iff.mp ends
    refine ⟨rest.takeWhile isParameter, (rest.dropWhile isParameter).takeWhile isIntermediate,
      final, others, ?_, rfl⟩
    simp only [List.cons_append, List.append_assoc, List.nil_append]
    rw [← tail, List.takeWhile_append_dropWhile, List.takeWhile_append_dropWhile]
  · simp at found

theorem sweeps_controlSequence : Sweeps controlSequence where
  positive := by
    intro before text reach found
    obtain ⟨_, _, _, _, _, size⟩ := reach?_controlSequence found
    omega
  within := by
    intro before text reach found
    obtain ⟨_, _, _, _, rfl, size⟩ := reach?_controlSequence found
    simp only [List.length_append, List.length_cons, List.length_nil]
    omega
  forward := fun _ _ => rfl
  others := by
    intro c plain before rest
    cases found : controlSequence.reach? before (c :: rest) with
    | none => rfl
    | some reach =>
      obtain ⟨_, _, _, _, cut, _⟩ := reach?_controlSequence found
      simp only [List.cons_append, List.cons.injEq] at cut
      exact absurd cut.1 plain
  whole := by
    intro code rest isCode
    have stops : Stops isParameter ('m' :: rest) := stops_cons (by decide) rest
    simp only [controlSequence, select, List.cons_append, List.nil_append, List.append_assoc]
    rw [takeWhile_cut (isParameter_code isCode) stops, dropWhile_cut (isParameter_code isCode) stops]
    have letter : isIntermediate 'm' = false := by decide
    have final : isFinal 'm' = true := by decide
    simp [letter, final]
  torn := by
    intro code rest isCode
    have stops : Stops isParameter (escape :: rest) := stops_cons (by decide) rest
    have other : isIntermediate escape = false := by decide
    have notFinal : isFinal escape = false := by decide
    simp only [controlSequence, List.cons_append]
    rw [dropWhile_cut (isParameter_code isCode) stops]
    simp [other, notFinal]

/-! ### Color sequences in particular -/

theorem stripColors_cons {c : Char} (plain : c ≠ escape) (rest : Text) :
    stripColors (c :: rest) = c :: stripColors rest :=
  swept_cons sweeps_colorSequence plain rest

theorem stripColors_append {first : Text} (intact : Intact first) (second : Text) :
    stripColors (first ++ second) = stripColors first ++ stripColors second :=
  swept_append sweeps_colorSequence intact second

theorem stripColors_of_not_mem {text : Text} (clear : escape ∉ text) : stripColors text = text :=
  swept_of_not_mem sweeps_colorSequence clear

theorem stripColors_styled {text : Text} (style : Style) (intact : Intact text) :
    stripColors (styled style text) = stripColors text :=
  swept_styled sweeps_colorSequence style intact

theorem stripColors_colored {text : Text} (shade : Color) (intact : Intact text) :
    stripColors (colored shade text) = stripColors text :=
  stripColors_styled (.color shade) intact

theorem stripColors_select {code : Text} (isCode : IsCode code) (rest : Text) :
    stripColors (select code ++ rest) = stripColors rest :=
  swept_select sweeps_colorSequence isCode rest

/-- What is left of a text without its colors stands in the text. -/
theorem mem_of_mem_stripColors {text : Text} {c : Char} (member : c ∈ stripColors text) :
    c ∈ text := by
  by_cases inside : c ∈ text
  · exact inside
  · exact absurd member (not_mem_replaceAll inside fun _ _ _ => List.not_mem_nil)

/-- A character that is in no sequence is shown. -/
theorem mem_stripColors {text : Text} (intact : Intact text) {c : Char} (member : c ∈ text)
    (plain : c ≠ escape) (outer : isInner c = false) : c ∈ stripColors text := by
  induction intact using Intact.induction with
  | nil => exact absurd member List.not_mem_nil
  | plain d rest other _ step =>
    rw [stripColors_cons other]
    rcases List.mem_cons.mp member with rfl | later
    · exact List.mem_cons_self ..
    · exact List.mem_cons_of_mem _ (step later)
  | sequence code rest isCode _ step =>
    rw [stripColors_select isCode]
    rcases List.mem_append.mp member with early | later
    · rcases mem_select isCode early with same | inner
      · exact absurd same plain
      · rw [outer] at inner
        exact absurd inner (by decide)
    · exact step later

/-- **On an intact text both patterns of sequences leave the same.** -/
theorem unstyled_eq_stripColors {text : Text} (intact : Intact text) :
    unstyled text = stripColors text :=
  swept_eq_swept sweeps_controlSequence sweeps_colorSequence intact

end Handbook.Terminal
