/-
**Where no occurrence begins.**

The occurrences of a pattern begin with one of a few openings. Where none of these can be read, not
even over the end of a stretch, the pattern is silent: none of its occurrences begins in the stretch,
whatever stands behind it.

* `begins_quote` to `begins_flag`: the openings of the patterns of prose;
* `silent_of_apart`: where no opening can be read a pattern is silent;
* `silent_brackets`: between the brackets of a slice only few patterns are not.
-/

import Mathlib.Data.List.Infix
import Handbook.Proofs.Pattern.Located
import Handbook.Proofs.Pattern.Prose

namespace Handbook.Pattern

open Text

variable {pattern : Pattern} {openings : List Text}

/-! ### Openings -/

/-- The occurrences of a pattern begin with one of some openings. -/
def Begins (pattern : Pattern) (openings : List Text) : Prop :=
  ∀ {before text reach}, pattern.reach? before text = some reach →
    ∃ opening ∈ openings, opening <+: text

theorem begins_quote : quote.Begins [['"'], ['\''], ['\x60']] := by
  intro before text reach found
  obtain ⟨mark, inside, rest, isMark, _, _, rfl, _⟩ := reach?_quote found
  simp only [isQuoteMark, List.mem_cons, List.not_mem_nil, or_false, decide_eq_true_eq] at isMark
  exact ⟨[mark], by simpa using isMark, by simp⟩

theorem begins_url : url.Begins schemes := by
  intro before text reach found
  obtain ⟨scheme, address, rest, member, _, _, _, rfl, _⟩ := reach?_url found
  exact ⟨scheme, member, by rw [List.append_assoc]; exact List.prefix_append _ _⟩

theorem begins_unaryOperator : unaryOperator.Begins ["!x".toList, "-x".toList] := by
  intro before text reach found
  obtain ⟨operator, rest, either, rfl, _⟩ := reach?_unaryOperator found
  exact ⟨[operator, 'x'], by rcases either with rfl | rfl <;> decide, List.prefix_append _ _⟩

theorem begins_binaryOperator : binaryOperator.Begins ["x ".toList] := by
  intro before text reach found
  obtain ⟨operator, rest, _, rfl, _⟩ := reach?_binaryOperator found
  exact ⟨_, List.mem_singleton_self _, by simp⟩

theorem begins_pipelineOperator : pipelineOperator.Begins [pipedCall ++ ['|']] := by
  intro before text reach found
  obtain ⟨rest, rfl, _⟩ := reach?_pipelineOperator found
  exact ⟨_, List.mem_singleton_self _, List.prefix_append _ _⟩

theorem begins_slice : slice.Begins ["x[".toList] := by
  intro before text reach found
  obtain ⟨inside, rest, _, _, rfl, _⟩ := reach?_slice found
  exact ⟨_, List.mem_singleton_self _, by simp⟩

theorem begins_flag : flag.Begins ["--".toList] := by
  intro before text reach found
  obtain ⟨name, rest, _, _, _, rfl, _⟩ := reach?_flag found
  exact ⟨_, List.mem_singleton_self _, by simp⟩

/-- A character with which no opening begins. -/
theorem Begins.spares (begins : pattern.Begins openings) {c : Char}
    (other : ∀ opening ∈ openings, opening.head? ≠ none ∧ opening.head? ≠ some c) :
    pattern.Spares c := by
  intro before rest
  cases found : pattern.reach? before (c :: rest) with
  | none => rfl
  | some reach =>
    obtain ⟨opening, member, early⟩ := begins found
    obtain ⟨nonempty, apart⟩ := other opening member
    cases opening with
    | nil => exact absurd rfl nonempty
    | cons d more => exact absurd (congrArg some (List.cons_prefix_cons.mp early).1) apart

/-! ### Silent stretches -/

/-- **Where no opening can be read, not even over the end of a stretch, a pattern is silent.** -/
theorem silent_of_apart (begins : pattern.Begins openings) {stretch : Text}
    (apart : ∀ late ∈ stretch.tails, late ≠ [] → ∀ opening ∈ openings,
      opening.isPrefixOf late = false ∧ late.isPrefixOf opening = false) :
    pattern.Silent stretch := by
  intro early late rest cut nonempty
  cases found : pattern.reach? none (late ++ rest) with
  | none => rfl
  | some reach =>
    obtain ⟨opening, member, starts⟩ := begins found
    have listed : late ∈ stretch.tails := by
      rw [List.mem_tails, cut]
      exact List.suffix_append _ _
    obtain ⟨one, two⟩ := apart late listed nonempty opening member
    rcases List.prefix_or_prefix_of_prefix starts (List.prefix_append late rest) with sooner | later
    · rw [List.isPrefixOf_iff_prefix.mpr sooner] at one
      exact absurd one (by decide)
    · rw [List.isPrefixOf_iff_prefix.mpr later] at two
      exact absurd two (by decide)

/-- **A pattern is silent between the brackets of a slice** when its openings go on, behind letters
that can stand there, with a character that cannot. -/
theorem silent_brackets (begins : pattern.Begins openings) {inside : Text}
    (all : ∀ c ∈ inside, isSliceChar c = true)
    (goesOn : ∀ opening ∈ openings, (opening.dropWhile isSliceChar).head?.any
      (fun c => c != '[' && c != ']') = true) :
    pattern.Silent (['['] ++ inside ++ [']']) := by
  intro early late rest cut nonempty
  cases found : pattern.reach? none (late ++ rest) with
  | none => rfl
  | some reach =>
    obtain ⟨opening, member, more, starts⟩ := begins found
    have next := goesOn opening member
    rw [Option.any_eq_true] at next
    obtain ⟨c, first, other⟩ := next
    simp only [Bool.and_eq_true, bne_iff_ne] at other
    obtain ⟨others, tail⟩ := List.head?_eq_some_iff.mp first
    -- behind the letters the stretch goes on with a bracket, and the opening does not
    have outside : isSliceChar c = false := stops_dropWhile isSliceChar opening c first
    have reads : (late ++ rest).dropWhile isSliceChar = c :: (others ++ more) := by
      rw [← starts, ← List.takeWhile_append_dropWhile (p := isSliceChar) (l := opening), tail,
        List.append_assoc, List.cons_append]
      exact dropWhile_cut (fun d => of_mem_takeWhile) (stops_cons outside _)
    have bracket : ((late ++ rest).dropWhile isSliceChar).head? = some '[' ∨
        ((late ++ rest).dropWhile isSliceChar).head? = some ']' := by
      cases early with
      | nil =>
        rw [List.nil_append] at cut
        rw [← cut]
        exact Or.inl rfl
      | cons d before =>
        have suffix : inside ++ [']'] = before ++ late := (List.cons.inj cut).2
        obtain ⟨letters, rfl⟩ : ∃ letters, late = letters ++ [']'] := by
          obtain ⟨letters, last, rfl⟩ := List.eq_nil_or_concat late |>.resolve_left nonempty
          rw [List.concat_eq_append, ← List.append_assoc] at suffix
          obtain ⟨_, same⟩ := List.append_inj' suffix rfl
          exact ⟨letters, by rw [List.concat_eq_append, same]⟩
        rw [← List.append_assoc] at suffix
        obtain ⟨same, _⟩ := List.append_inj' suffix rfl
        have kept : ∀ d ∈ letters, isSliceChar d = true := fun d member =>
          all d (same ▸ List.mem_append_right _ member)
        rw [List.append_assoc, List.singleton_append, dropWhile_cut kept (stops_cons (by decide) _)]
        exact Or.inr rfl
    rw [reads, List.head?_cons] at bracket
    rcases bracket with opens | closes
    · exact absurd (Option.some.inj opens) other.1
    · exact absurd (Option.some.inj closes) other.2

/-- **Behind the first operand of a binary operation no pattern of prose occurs**, headers apart. -/
theorem silent_operation {operator : Text} (member : operator ∈ binaryOperators) :
    ∀ pattern ∈ [quote, url, unaryOperator, binaryOperator, pipelineOperator, slice, flag],
      pattern.Silent ([' '] ++ operator ++ [' ', 'y']) := by
  have apart : ∀ openings ∈ [[['"'], ['\''], ['\x60']], schemes, ["!x".toList, "-x".toList],
      ["x ".toList], [pipedCall ++ ['|']], ["x[".toList], ["--".toList]],
      ∀ operator ∈ binaryOperators, ∀ late ∈ ([' '] ++ operator ++ [' ', 'y']).tails, late ≠ [] →
        ∀ opening ∈ openings,
          opening.isPrefixOf late = false ∧ late.isPrefixOf opening = false := by decide
  intro pattern one
  simp only [List.mem_cons, List.not_mem_nil, or_false] at one
  rcases one with rfl | rfl | rfl | rfl | rfl | rfl | rfl
  · exact silent_of_apart begins_quote (apart _ (by simp) operator member)
  · exact silent_of_apart begins_url (apart _ (by simp) operator member)
  · exact silent_of_apart begins_unaryOperator (apart _ (by simp) operator member)
  · exact silent_of_apart begins_binaryOperator (apart _ (by simp) operator member)
  · exact silent_of_apart begins_pipelineOperator (apart _ (by simp) operator member)
  · exact silent_of_apart begins_slice (apart _ (by simp) operator member)
  · exact silent_of_apart begins_flag (apart _ (by simp) operator member)

/-- **Between the brackets of a slice few patterns of prose occur.** -/
theorem silent_index {inside : Text} (all : ∀ c ∈ inside, isSliceChar c = true) :
    ∀ pattern ∈ [quote, url, unaryOperator, binaryOperator, flag],
      pattern.Silent (['['] ++ inside ++ [']']) := by
  intro pattern one
  simp only [List.mem_cons, List.not_mem_nil, or_false] at one
  rcases one with rfl | rfl | rfl | rfl | rfl
  · exact silent_brackets begins_quote all (by decide)
  · exact silent_brackets begins_url all (by decide)
  · exact silent_brackets begins_unaryOperator all (by decide)
  · exact silent_brackets begins_binaryOperator all (by decide)
  · exact silent_brackets begins_flag all (by decide)

end Handbook.Pattern
