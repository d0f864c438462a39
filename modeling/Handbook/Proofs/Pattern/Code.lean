/-
**Where the patterns of fenced code occur.**

For each pattern of fenced code: the text that an occurrence covers, what stands behind it, and its
groups. Calls and operators close themselves, the one with a parenthesis and the other with a space.
-/

import Handbook.Pattern.Code
import Handbook.Proofs.Pattern.Delimited

namespace Handbook.Pattern

open Text

variable {before : Option Char} {text : Text} {reach : Reach}

theorem reach?_codeLiteral (found : codeLiteral.reach? before text = some reach) :
    ∃ word rest, word ∈ codeLiterals ∧ text = word ++ rest ∧ reach = ⟨word.length, []⟩ := by
  obtain ⟨word, chosen, rfl⟩ := Option.map_eq_some_iff.mp found
  have starts := List.find?_some chosen
  obtain ⟨rest, rfl⟩ := List.isPrefixOf_iff_prefix.mp starts
  exact ⟨word, rest, List.mem_of_find?_eq_some chosen, rfl, rfl⟩

/-! ### Calls -/

theorem reach?_codeCall (found : codeCall.reach? before text = some reach) :
    ∃ name rest, name ≠ [] ∧ (∀ c ∈ name, isCallChar c = true) ∧ text = (name ++ ['(']) ++ rest ∧
      reach = ⟨(name ++ ['(']).length, [name]⟩ := by
  simp only [codeCall, Option.ite_none_right_eq_some, Bool.and_eq_true, Bool.not_eq_true',
    List.isEmpty_eq_false_iff, beq_iff_eq, Option.some.injEq] at found
  obtain ⟨⟨nonempty, next⟩, size⟩ := found
  obtain ⟨rest, tail⟩ := List.head?_eq_some_iff.mp next
  refine ⟨text.takeWhile isCallChar, rest, nonempty, fun c => of_mem_takeWhile, ?_, ?_⟩
  · rw [List.append_assoc, List.singleton_append, ← tail, List.takeWhile_append_dropWhile]
  · rw [← size]
    simp

/-- A name before a parenthesis is a call. -/
theorem codeCall_name {name : Text} (nonempty : name ≠ [])
    (inside : ∀ c ∈ name, isCallChar c = true) (rest : Text) :
    codeCall.reach? before ((name ++ ['(']) ++ rest) =
      some ⟨(name ++ ['(']).length, [name]⟩ := by
  have stops : Stops isCallChar ('(' :: rest) := stops_cons (by decide) rest
  rw [List.append_assoc, List.singleton_append]
  simp only [codeCall]
  rw [takeWhile_cut inside stops, dropWhile_cut inside stops]
  simp [nonempty]

theorem lineFeed_not_mem_name {name : Text} (inside : ∀ c ∈ name, isCallChar c = true) :
    '\n' ∉ name := fun member => absurd (inside '\n' member) (by decide)

theorem closed_codeCall : codeCall.Closed where
  occurrence := by
    intro before text reach found
    obtain ⟨name, rest, nonempty, inside, cut, size⟩ := reach?_codeCall found
    refine ⟨name ++ ['('], rest, by simp, ?_, cut, by rw [size], fun _ _ => ?_⟩
    · rw [List.mem_append, not_or]
      exact ⟨lineFeed_not_mem_name inside, by decide⟩
    · rw [codeCall_name nonempty inside, size]

/-! ### Operators -/

theorem reach?_codeOperator (found : codeOperator.reach? before text = some reach) :
    ∃ operator rest, operator ∈ codeOperators ∧ text = (' ' :: operator ++ [' ']) ++ rest ∧
      reach = ⟨(' ' :: operator ++ [' ']).length, [operator]⟩ := by
  simp only [codeOperator] at found
  split at found
  · rename_i rest
    simp only [Option.bind_eq_bind, Option.bind_eq_some_iff, Option.some.injEq] at found
    obtain ⟨operator, chosen, size⟩ := found
    have starts := List.find?_some chosen
    obtain ⟨tail, rfl⟩ := List.isPrefixOf_iff_prefix.mp starts
    refine ⟨operator, tail, List.mem_of_find?_eq_some chosen, ?_, ?_⟩
    · simp
    · rw [← size]
      simp
  · simp at found

/-- Of the operators only one can stand before a space. -/
theorem codeOperator_eq {operator other rest : Text} (member : operator ∈ codeOperators)
    (member' : other ∈ codeOperators)
    (starts : (other ++ [' ']).isPrefixOf (operator ++ ' ' :: rest) = true) : other = operator := by
  have spaceless : ∀ operator ∈ codeOperators, operator.all (· != ' ') = true := by decide
  have inside := List.all_eq_true.mp (spaceless operator member)
  have inside' := List.all_eq_true.mp (spaceless other member')
  obtain ⟨tail, cut⟩ := List.isPrefixOf_iff_prefix.mp starts
  rw [List.append_assoc, List.singleton_append] at cut
  have stops (behind : Text) : Stops (· != ' ') (' ' :: behind) := stops_cons rfl behind
  rw [← takeWhile_cut inside' (stops tail), cut, takeWhile_cut inside (stops rest)]

/-- An operator between spaces occurs. -/
theorem codeOperator_spaced {operator : Text} (member : operator ∈ codeOperators) (rest : Text) :
    codeOperator.reach? before ((' ' :: operator ++ [' ']) ++ rest) =
      some ⟨(' ' :: operator ++ [' ']).length, [operator]⟩ := by
  have starts : (operator ++ [' ']).isPrefixOf (operator ++ ' ' :: rest) = true :=
    List.isPrefixOf_iff_prefix.mpr ⟨rest, by simp⟩
  have chosen : codeOperators.find? (fun other => (other ++ [' ']).isPrefixOf
      (operator ++ ' ' :: rest)) = some operator := by
    cases first : codeOperators.find? (fun other => (other ++ [' ']).isPrefixOf
        (operator ++ ' ' :: rest)) with
    | none =>
      have none := List.find?_eq_none.mp first operator member
      exact absurd starts none
    | some other =>
      have starts' := List.find?_some first
      rw [codeOperator_eq member (List.mem_of_find?_eq_some first) starts']
  simp only [List.cons_append, List.append_assoc, codeOperator]
  rw [List.nil_append, chosen]
  simp

theorem closed_codeOperator : codeOperator.Closed where
  occurrence := by
    intro before text reach found
    have single : ∀ operator ∈ codeOperators, '\n' ∉ operator := by decide
    obtain ⟨operator, rest, member, cut, size⟩ := reach?_codeOperator found
    refine ⟨' ' :: operator ++ [' '], rest, by simp, ?_, cut, by rw [size], fun _ _ => ?_⟩
    · rw [List.cons_append, List.mem_cons, List.mem_append, not_or, not_or]
      exact ⟨by decide, single operator member, by decide⟩
    · rw [codeOperator_spaced member, size]

end Handbook.Pattern
