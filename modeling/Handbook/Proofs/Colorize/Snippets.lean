/-
**The passes over snippets and flags.**

Behind the spans come the passes that look for operators, slices and flags. None of their
occurrences holds a sequence, so between two sequences each of them sees nothing but what stands
there. The pass over pipes colors a single character and keeps everything else, even in the middle of
a call.

* `avoids_escape`, `haltsAt_escape`: no occurrence holds a sequence, and none looks past one;
* `Holds.applyAll`: a stretch between two sequences stands through all of these passes;
* `Holds.piped`: a stretch without a pipe stands through the pass over pipes.
-/

import Handbook.Proofs.Colorize.Standing

namespace Handbook.Colorize

open Terminal Pattern Text

variable {painted front piece back : Text}

/-! ### Sequences -/

/-- **No occurrence of a snippet or a flag holds a sequence.** -/
theorem avoids_escape : ∀ pass ∈ prosePasses.drop 3, Avoids pass.pattern escape := by
  intro pass member before lexeme groups rest found
  simp only [prosePasses, List.drop_succ_cons, List.drop_zero, List.mem_cons, List.not_mem_nil,
    or_false] at member
  rcases member with rfl | rfl | rfl | rfl | rfl
  · obtain ⟨sign, _, either, cut, size⟩ := reach?_unaryOperator found
    rw [(occurrence_eq cut size).1]
    rcases either with rfl | rfl <;> decide
  · obtain ⟨operator, _, one, cut, size⟩ := reach?_binaryOperator found
    have all : ∀ operator ∈ binaryOperators, escape ∉ ['x', ' '] ++ operator ++ [' ', 'y'] := by
      decide
    rw [(occurrence_eq cut size).1]
    exact all operator one
  · obtain ⟨_, cut, size⟩ := reach?_pipelineOperator found
    rw [(occurrence_eq cut size).1]
    decide
  · obtain ⟨inside, _, _, all, cut, size⟩ := reach?_slice found
    have clear := escape_not_mem_slice all
    rw [(occurrence_eq cut size).1]
    simp only [escape] at clear ⊢
    simp [clear]
  · obtain ⟨name, _, _, all, _, cut, size⟩ := reach?_flag found
    have clear : escape ∉ name := fun inside => absurd (all escape inside) (by decide)
    rw [(occurrence_eq cut size).1]
    simp only [escape] at clear ⊢
    simp [clear]

/-- **No snippet or flag looks past a sequence.** -/
theorem haltsAt_escape : ∀ pass ∈ prosePasses.drop 3,
    pass.pattern.Forward ∧ pass.pattern.HaltsAt escape := by
  intro pass member
  have avoids : Avoids pass.pattern escape := avoids_escape pass member
  simp only [prosePasses, List.drop_succ_cons, List.drop_zero, List.mem_cons, List.not_mem_nil,
    or_false] at member
  rcases member with rfl | rfl | rfl | rfl | rfl
  · exact ⟨closed_unaryOperator.forward, closed_unaryOperator.delimited.haltsAt avoids rfl⟩
  · exact ⟨closed_binaryOperator.forward, closed_binaryOperator.delimited.haltsAt avoids rfl⟩
  · exact ⟨closed_pipelineOperator.forward, closed_pipelineOperator.delimited.haltsAt avoids rfl⟩
  · exact ⟨closed_slice.forward, closed_slice.delimited.haltsAt avoids rfl⟩
  · exact ⟨fun _ _ => rfl, delimited_flag.haltsAt avoids (by decide)⟩

/-- **A stretch between two sequences stands through all of these passes**, when none of them finds
anything in it or behind it. -/
theorem Holds.applyAll {passes : List Pass} (snippets : passes ⊆ prosePasses.drop 3)
    {opening closing inner tail : Text} (isCode : IsCode opening) (isCode' : IsCode closing)
    (same : ∀ pass ∈ passes, pass.apply inner = inner)
    (silent : ∀ pass ∈ passes, pass.pattern.Silent tail)
    (holds : Holds painted front (select opening ++ (inner ++ (select closing ++ tail))) back) :
    Holds (Pass.applyAll passes painted) front
      (select opening ++ (inner ++ (select closing ++ tail))) back := by
  induction passes generalizing painted with
  | nil => exact holds
  | cons pass others step =>
    have here : pass ∈ pass :: others := List.mem_cons_self ..
    have recolors := recolors_of_mem pass (List.mem_of_mem_drop (snippets here))
    obtain ⟨forward, halts⟩ := haltsAt_escape pass (snippets here)
    exact step (fun other member => snippets (List.mem_cons_of_mem _ member))
      (fun other member => same other (List.mem_cons_of_mem _ member))
      (fun other member => silent other (List.mem_cons_of_mem _ member))
      (holds.island recolors forward halts isCode isCode' (same pass here) (silent pass here))

/-! ### Pipes -/

/-- A text in which some pipes are cyan. -/
inductive Piped : (text painted : Text) → Prop where
  | nil : Piped [] []
  | keep {c rest painted} : Piped rest painted → Piped (c :: rest) (c :: painted)
  | pipe {rest painted} : Piped rest painted →
      Piped ('|' :: rest) (colored .cyan ['|'] ++ painted)

namespace Piped

variable {text first second painted painted' : Text}

theorem refl (text : Text) : Piped text text := by
  induction text with
  | nil => exact .nil
  | cons c rest step => exact step.keep

theorem append (one : Piped first painted) (two : Piped second painted') :
    Piped (first ++ second) (painted ++ painted') := by
  induction one with
  | nil => exact two
  | keep _ step => exact step.keep
  | pipe _ step =>
    rw [List.append_assoc]
    exact step.pipe

theorem of_append (piped : Piped (first ++ second) painted) :
    ∃ one two, painted = one ++ two ∧ Piped first one ∧ Piped second two := by
  induction first generalizing painted with
  | nil => exact ⟨[], painted, rfl, .nil, piped⟩
  | cons c rest step =>
    rw [List.cons_append] at piped
    cases piped with
    | keep later =>
      obtain ⟨one, two, rfl, front, back⟩ := step later
      exact ⟨c :: one, two, rfl, front.keep, back⟩
    | pipe later =>
      obtain ⟨one, two, rfl, front, back⟩ := step later
      exact ⟨_ ++ one, two, by rw [List.append_assoc], front.pipe, back⟩

/-- Without a pipe nothing changes. -/
theorem eq_of_not_mem (piped : Piped text painted) (absent : '|' ∉ text) : painted = text := by
  induction piped with
  | nil => rfl
  | keep _ step => rw [step fun member => absent (List.mem_cons_of_mem _ member)]
  | pipe _ _ => exact absurd (List.mem_cons_self ..) absent

theorem shows (intact : Intact text) (piped : Piped text painted) :
    Shows painted (stripColors text) := by
  induction intact using Intact.induction generalizing painted with
  | nil =>
    cases piped
    exact shows_nil
  | plain c rest plain _ step =>
    rw [stripColors_cons plain]
    cases piped with
    | keep later => exact (shows_plain [c] (by simpa using plain.symm)).append (step later)
    | pipe later => exact (shows_colored .cyan ['|'] (by decide)).append (step later)
  | sequence code rest isCode _ step =>
    have absent : '|' ∉ select code := fun member => by
      rcases mem_select isCode member with same | inner
      · exact absurd same (by decide)
      · exact absurd inner (by decide)
    obtain ⟨one, two, rfl, front, back⟩ := piped.of_append
    rw [front.eq_of_not_mem absent, stripColors_select isCode]
    exact (shows_select isCode).append (step back)

end Piped

theorem piped_apply {name : String} (text : Text) :
    Piped text (Pass.apply ⟨name, .pipelineOperator, pipelineOperator⟩ text) := by
  have steps := closed_pipelineOperator.proper.scans none text
  rw [Pass.apply, replaceAll, pieces]
  generalize piecesFrom Pattern.pipelineOperator none 0 text = pieces at steps
  generalize none = before at steps
  induction steps with
  | nil => exact .nil
  | plain _ _ step => exact step.keep
  | found _ found _ step =>
    obtain ⟨_, cut, size⟩ := reach?_pipelineOperator found
    obtain ⟨rfl, rfl⟩ := occurrence_eq cut size
    exact ((Piped.refl pipedCall).append (Piped.pipe .nil)).append step

/-- **A stretch without a pipe stands through the pass over pipes.** -/
theorem Holds.piped {name : String} (absent : '|' ∉ piece)
    (holds : Holds painted front piece back) :
    Holds (Pass.apply ⟨name, .pipelineOperator, pipelineOperator⟩ painted) front piece back := by
  obtain ⟨before, after, rfl, first, second⟩ := holds
  obtain ⟨one, later, whole, early, late⟩ :=
    (@piped_apply name (before ++ (piece ++ after))).of_append
  obtain ⟨middle, two, rfl, inside, behind⟩ := late.of_append
  rw [inside.eq_of_not_mem absent] at whole
  refine ⟨one, two, whole, ?_, ?_⟩
  · rw [← first.visible]
    exact early.shows first.intact
  · rw [← second.visible]
    exact behind.shows second.intact

end Handbook.Colorize
