/-
**The aligned patterns.**

Quoted spans begin and end with their marks, section headers and addresses end at a line feed or a
blank, and the other patterns of prose hold no escape character at all. So none of their occurrences
in an intact text begins or ends inside a color sequence. The same goes for the links and the fenced
blocks of a cheatsheet, and for the literals of code.
-/

import Handbook.Proofs.Pattern.Code
import Handbook.Proofs.Pattern.Prose
import Handbook.Proofs.Pattern.Sheet
import Handbook.Proofs.Pattern.Weave

namespace Handbook.Pattern

open Terminal Text Unicode

/-! ### Prose -/

/-- A quote mark is visible, and no part of a color sequence. -/
theorem isBlank_of_isQuoteMark {mark : Char} (isMark : isQuoteMark mark = true) :
    isBlank mark = false ∧ mark ≠ escape ∧ isInner mark = false := by
  simp only [isQuoteMark, List.mem_cons, List.not_mem_nil, or_false, decide_eq_true_eq] at isMark
  rcases isMark with rfl | rfl | rfl <;> decide

theorem aligned_quote : Aligned quote where
  occurrence := by
    intro before text reach found
    obtain ⟨mark, inside, rest, isMark, _, _, cut, size⟩ := reach?_quote found
    obtain ⟨-, plain, outer⟩ := isBlank_of_isQuoteMark isMark
    refine ⟨mark, inside ++ [mark], rest, plain, outer, ?_, ?_, ?_⟩
    · rw [← List.cons_append]
      exact .closed plain outer
    · rw [cut, List.cons_append]
    · rw [size]
      simp

theorem aligned_sectionHeader : Aligned sectionHeader where
  occurrence := by
    intro before text reach found
    obtain ⟨_, level, title, rest, low, _, _, _, stops, cut, size⟩ := reach?_sectionHeader found
    obtain ⟨fewer, rfl⟩ : ∃ fewer, level = fewer + 1 := ⟨level - 1, by omega⟩
    refine ⟨'#', List.replicate fewer '#' ++ ' ' :: title, rest, by decide, by decide, ?_, ?_, ?_⟩
    · refine .stops fun c member => ?_
      have lineFeed := stops c member
      simp only [bne_eq_false_iff_eq] at lineFeed
      rw [lineFeed]
      decide
    · rw [cut, List.replicate_succ]
      rfl
    · rw [size]
      simp only [List.length_append, List.length_replicate, List.length_cons]
      omega

/-- No blank stands in a color sequence. -/
theorem isInner_of_isBlank {c : Char} (blank : isBlank c = true) : isInner c = false := by
  obtain ⟨range, member, low, high⟩ := Ranges.exists_of_covers blank
  have outside : ∀ range ∈ blankRanges.bounds, range.2 < 48 ∨ 109 < range.1 := by decide
  have far : c.toNat < 48 ∨ 109 < c.toNat := by
    rcases outside range member with below | above <;> omega
  cases inner : isInner c with
  | false => rfl
  | true =>
    simp only [isInner, Bool.or_eq_true, beq_iff_eq] at inner
    rcases inner with (rfl | digit) | rfl
    · exact absurd far (by decide)
    · simp only [Char.isDigit, Bool.and_eq_true, decide_eq_true_eq] at digit
      have low : 48 ≤ c.toNat := digit.1
      have high : c.toNat ≤ 57 := digit.2
      omega
    · exact absurd far (by decide)

theorem stops_isInner {rest : Text} (stops : Stops (!isBlank ·) rest) : Stops isInner rest := by
  intro c next
  have blank := stops c next
  rw [Bool.not_eq_false'] at blank
  exact isInner_of_isBlank blank

theorem aligned_url : Aligned url where
  occurrence := by
    intro before text reach found
    obtain ⟨scheme, address, rest, member, _, _, stops, cut, size⟩ := reach?_url found
    obtain ⟨others, rfl⟩ : ∃ others, scheme = 'h' :: others := by
      simp only [schemes, List.mem_cons, List.not_mem_nil, or_false] at member
      rcases member with rfl | rfl
      · exact ⟨"ttps://".toList, rfl⟩
      · exact ⟨"ttp://".toList, rfl⟩
    refine ⟨'h', others ++ address, rest, by decide, by decide, .stops (stops_isInner stops), cut, ?_⟩
    rw [size]
    simp

theorem aligned_unaryOperator : Aligned unaryOperator where
  occurrence := by
    intro before text reach found
    obtain ⟨operator, rest, either, cut, size⟩ := reach?_unaryOperator found
    refine ⟨operator, ['x'], rest, ?_, ?_, .clear ?_, cut, ?_⟩
    · rcases either with rfl | rfl <;> decide
    · rcases either with rfl | rfl <;> decide
    · rcases either with rfl | rfl <;> decide
    · rw [size]
      rfl

theorem escape_not_mem_binaryOperator {operator : Text} (member : operator ∈ binaryOperators) :
    escape ∉ operator := by
  have all : ∀ operator ∈ binaryOperators, escape ∉ operator := by decide
  exact all operator member

theorem aligned_binaryOperator : Aligned binaryOperator where
  occurrence := by
    intro before text reach found
    obtain ⟨operator, rest, member, cut, size⟩ := reach?_binaryOperator found
    have clear := escape_not_mem_binaryOperator member
    refine ⟨'x', ' ' :: operator ++ [' ', 'y'], rest, by decide, by decide, .clear ?_, cut, ?_⟩
    · simp [escape] at clear ⊢
      exact clear
    · rw [size]
      simp

theorem aligned_pipelineOperator : Aligned pipelineOperator where
  occurrence := by
    intro before text reach found
    obtain ⟨rest, cut, size⟩ := reach?_pipelineOperator found
    refine ⟨'t', "rim(name) |".toList, rest, by decide, by decide, .clear (by decide), cut, ?_⟩
    rw [size]
    decide

/-- The escape character stands in no slice. -/
theorem escape_not_mem_slice {inside : Text} (all : ∀ c ∈ inside, isSliceChar c = true) :
    escape ∉ inside := fun member => absurd (all escape member) (by decide)

theorem aligned_slice : Aligned slice where
  occurrence := by
    intro before text reach found
    obtain ⟨inside, rest, _, all, cut, size⟩ := reach?_slice found
    have clear := escape_not_mem_slice all
    refine ⟨'x', '[' :: inside ++ [']'], rest, by decide, by decide, .clear ?_, cut, ?_⟩
    · simp [escape] at clear ⊢
      exact clear
    · rw [size]
      simp

theorem aligned_flag : Aligned flag where
  occurrence := by
    intro before text reach found
    obtain ⟨name, rest, _, all, _, cut, size⟩ := reach?_flag found
    have clear : escape ∉ name := fun member => absurd (all escape member) (by decide)
    refine ⟨'-', '-' :: name, rest, by decide, by decide, .clear ?_, cut, ?_⟩
    · simp [escape] at clear ⊢
      exact clear
    · rw [size]
      simp

/-! ### Cheatsheets and code -/

theorem aligned_listLink : Aligned listLink where
  occurrence := by
    intro before text reach found
    obtain ⟨label, target, rest, _, cut, size⟩ := reach?_listLink found
    have closed : Bounded ("- [".toList ++ label ++ ("](#".toList ++ target) ++ [')']) rest :=
      .closed (by decide) (by decide)
    refine ⟨'-', " [".toList ++ label ++ ("](#".toList ++ target) ++ [')'], rest, by decide,
      by decide, closed, cut, ?_⟩
    rw [size]
    rfl

theorem aligned_codeFence : Aligned codeFence where
  occurrence := by
    intro before text reach found
    obtain ⟨language, code, rest, _, _, cut, size⟩ := reach?_codeFence found
    have closed : Bounded (fence ++ language ++ '\n' :: code ++ fence) rest := by
      have ends : fence ++ language ++ '\n' :: code ++ fence =
          (fence ++ language ++ '\n' :: code ++ ['\x60', '\x60']) ++ ['\x60'] := by
        rw [List.append_assoc (fence ++ language ++ '\n' :: code)]
        rfl
      rw [ends]
      exact .closed (by decide) (by decide)
    refine ⟨'\x60', ['\x60', '\x60'] ++ language ++ '\n' :: code ++ fence, rest, by decide,
      by decide, closed, cut, ?_⟩
    rw [size]
    rfl

theorem aligned_codeLiteral : Aligned codeLiteral where
  occurrence := by
    intro before text reach found
    obtain ⟨word, rest, member, cut, size⟩ := reach?_codeLiteral found
    have clear : ∀ word ∈ codeLiterals, escape ∉ word := by decide
    have begins : ∀ word ∈ codeLiterals, word.head?.any isInner = false := by decide
    cases word with
    | nil => exact absurd member (by decide)
    | cons first others =>
      refine ⟨first, others, rest, ?_, begins _ member, .clear (clear _ member), cut, ?_⟩
      · exact fun same => clear _ member (same ▸ List.mem_cons_self ..)
      · rw [size]
        rfl

end Handbook.Pattern
