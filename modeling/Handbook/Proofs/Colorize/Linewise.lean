/-
**Prose is colored line by line.**

No pattern of prose reaches over the end of a line, and none looks at what stands on other lines. So
each pass over prose treats the parts around a line feed apart, whatever sequences the parts hold
already, and so do all passes together.

* `linewise_of_mem`: every pass over prose looks at single lines;
* `prose_linewise`: coloring a document is coloring each of its lines.
-/

import Handbook.Proofs.Colorize.Sealed

namespace Handbook.Colorize

open Pattern Text

theorem linewise_sectionHeader : sectionHeader.Linewise :=
  have halts := delimited_sectionHeader.haltsAt keepsLine_sectionHeader rfl
  ⟨halts.toProper, halts.spares, fun _ => rfl, halts.stretch⟩

theorem linewise_url : url.Linewise :=
  have halts := delimited_url.haltsAt onLine_url.keepsLine (by decide)
  ⟨halts.toProper, halts.spares, fun _ => rfl, halts.stretch⟩

theorem linewise_flag : flag.Linewise :=
  have halts := delimited_flag.haltsAt onLine_flag.keepsLine (by decide)
  ⟨halts.toProper, halts.spares, fun _ => rfl, halts.stretch⟩

/-- **Every pass over prose looks at single lines.** -/
theorem linewise_of_mem : ∀ pass ∈ prosePasses, pass.pattern.Linewise := by
  intro pass member
  simp only [prosePasses, List.mem_cons, List.not_mem_nil, or_false] at member
  rcases member with rfl | rfl | rfl | rfl | rfl | rfl | rfl | rfl
  · exact closed_quote.linewise
  · exact linewise_sectionHeader
  · exact linewise_url
  · exact closed_unaryOperator.linewise
  · exact closed_binaryOperator.linewise
  · exact closed_pipelineOperator.linewise
  · exact closed_slice.linewise
  · exact linewise_flag

theorem applyAll_parts {passes : List Pass} (linewise : ∀ pass ∈ passes, pass.pattern.Linewise)
    (first second : Text) :
    Pass.applyAll passes (first ++ '\n' :: second) =
      Pass.applyAll passes first ++ '\n' :: Pass.applyAll passes second := by
  induction passes generalizing first second with
  | nil => rfl
  | cons pass others step =>
    have parts : pass.apply (first ++ '\n' :: second) =
        pass.apply first ++ '\n' :: pass.apply second :=
      (linewise pass (List.mem_cons_self ..)).replaceAll_append_lineFeed first second
    have later := step (fun other member => linewise other (List.mem_cons_of_mem _ member))
      (pass.apply first) (pass.apply second)
    rw [← parts] at later
    exact later

theorem prose_parts (first second : Text) :
    prose (first ++ '\n' :: second) = prose first ++ '\n' :: prose second :=
  applyAll_parts linewise_of_mem first second

/-- **Prose is colored line by line.** Each pass over prose, and all of them together, treat the
parts around a line feed apart, and a colored document is its lines, each colored by itself. The
texts may hold color sequences already. -/
theorem prose_linewise :
    (∀ pass ∈ prosePasses, ∀ first second, pass.apply (first ++ '\n' :: second) =
      pass.apply first ++ '\n' :: pass.apply second) ∧
      (∀ first second, prose (first ++ '\n' :: second) = prose first ++ '\n' :: prose second) ∧
      ∀ text, prose text = ['\n'].intercalate ((split '\n' text).map prose) := by
  refine ⟨fun pass member => (linewise_of_mem pass member).replaceAll_append_lineFeed, prose_parts, ?_⟩
  intro text
  induction text using induction_lines with
  | single line alone => simp [split_of_not_mem alone]
  | next line rest alone step =>
    have others : (split '\n' rest).map prose ≠ [] := by
      rw [ne_eq, List.map_eq_nil_iff]
      exact split_ne_nil _ _
    rw [prose_parts, step, split_append_cons, split_of_not_mem alone, List.singleton_append,
      List.map_cons, List.intercalate_cons_of_ne_nil others, List.append_assoc,
      List.singleton_append]

end Handbook.Colorize
