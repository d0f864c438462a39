/-
**What overlaps a flag or an operation.**

Where a pattern does not clear a stretch of a text, one of its occurrences overlaps the stretch: it
begins inside of the stretch, or the stretch begins inside of it. When the stretch is an occurrence
of another pattern, and this one is silent behind the first character of what overlaps it, only the
first can be.

* `Proper.exists_of_not_clears`: an occurrence that overlaps a stretch;
* `exists_begins_inside`: an occurrence that begins inside of one of another pattern;
* `exists_sign_in_flag`, `exists_operand_of_flag`: what overlaps a flag;
* `exists_sign_before_operation`, `clears_with_sign`: what overlaps a binary operation, and what does
  not.
-/

import Handbook.Proofs.Pattern.Steady

namespace Handbook.Pattern

open Text

variable {pattern other : Pattern} {front piece back : Text}

/-! ### Overlapping stretches -/

/-- Of two stretches that overlap, one begins inside of the other. -/
theorem exists_overlap {first lexeme rest : Text}
    (whole : first ++ (lexeme ++ rest) = front ++ (piece ++ back))
    (stops : front.length < first.length + lexeme.length)
    (starts : first.length < front.length + piece.length) :
    (∃ early late, late ≠ [] ∧ piece = early ++ late ∧ late ++ back = lexeme ++ rest) ∨
      ∃ early late, early ≠ [] ∧ late ≠ [] ∧ front = first ++ early ∧ lexeme = early ++ late ∧
        late ++ rest = piece ++ back := by
  rcases Nat.lt_or_ge first.length front.length with sooner | later
  · obtain ⟨early, rfl, behind⟩ := exists_between whole (Nat.le_of_lt sooner)
    rw [List.length_append] at sooner stops
    obtain ⟨late, rfl, tail⟩ := exists_between behind.symm (by omega)
    rw [List.length_append] at stops
    exact Or.inr ⟨early, late, List.length_pos_iff.mp (by omega), List.length_pos_iff.mp (by omega),
      rfl, rfl, tail.symm⟩
  · obtain ⟨early, rfl, behind⟩ := exists_between whole.symm later
    rw [List.length_append] at starts
    obtain ⟨late, rfl, tail⟩ := exists_between behind.symm (by omega)
    rw [List.length_append] at starts
    exact Or.inl ⟨early, late, List.length_pos_iff.mp (by omega), rfl, tail.symm⟩

/-- **Where a pattern does not clear a stretch, an occurrence overlaps it.** -/
theorem Proper.exists_of_not_clears (proper : pattern.Proper)
    (touched : ¬ pattern.Clears (front ++ (piece ++ back)) front.length
      (front.length + piece.length)) :
    ∃ before lexeme rest groups,
      pattern.reach? before (lexeme ++ rest) = some ⟨lexeme.length, groups⟩ ∧
        ((∃ early late, late ≠ [] ∧ piece = early ++ late ∧ late ++ back = lexeme ++ rest) ∨
          ∃ first early late, early ≠ [] ∧ late ≠ [] ∧ front = first ++ early ∧
            lexeme = early ++ late ∧ late ++ rest = piece ++ back) := by
  simp only [Clears, not_forall, not_or, Nat.not_le] at touched
  obtain ⟨located, member, stops, starts⟩ := touched
  obtain ⟨first, lexeme, rest, _, cut, found, start, stop⟩ := proper.exists_of_mem_occurrences member
  rw [stop] at stops
  rw [start] at starts
  refine ⟨_, lexeme, rest, _, found, (exists_overlap cut.symm stops starts).imp_right ?_⟩
  rintro ⟨early, late, parts⟩
  exact ⟨first, early, late, parts⟩

/-- **When a pattern is silent behind the first character of what overlaps one of its occurrences,
that begins inside of the occurrence.** -/
theorem exists_begins_inside (proper : other.Proper)
    (silent : ∀ {before lexeme groups rest},
      other.reach? before (lexeme ++ rest) = some ⟨lexeme.length, groups⟩ →
      pattern.Silent lexeme.tail) {reach : Reach}
    (found : pattern.reach? none (piece ++ back) = some reach)
    (touched : ¬ other.Clears (front ++ (piece ++ back)) front.length
      (front.length + piece.length)) :
    ∃ before lexeme rest groups early late,
      other.reach? before (lexeme ++ rest) = some ⟨lexeme.length, groups⟩ ∧ late ≠ [] ∧
        piece = early ++ late ∧ late ++ back = lexeme ++ rest := by
  obtain ⟨before, lexeme, rest, groups, here, ⟨early, late, nonempty, cut, behind⟩ |
    ⟨_, early, late, some_early, nonempty, _, rfl, behind⟩⟩ := proper.exists_of_not_clears touched
  · exact ⟨before, lexeme, rest, groups, early, late, here, nonempty, cut, behind⟩
  · obtain ⟨c, more, rfl⟩ := List.exists_cons_of_ne_nil some_early
    have absent := silent here more late rest rfl nonempty
    rw [behind, found] at absent
    exact absurd absent (Option.some_ne_none _)

/-! ### Flags -/

/-- A flag is a run of its characters that begins with two hyphens. -/
theorem exists_name_of_flag {groups : List Text}
    (found : flag.reach? none (piece ++ back) = some ⟨piece.length, groups⟩) :
    ∃ name, piece = '-' :: '-' :: name ∧ (∀ c ∈ piece, isFlagChar c = true) ∧
      Stops isFlagChar back := by
  obtain ⟨name, rest, _, all, stops, cut, size⟩ := reach?_flag found
  obtain ⟨rfl, _⟩ := occurrence_eq cut size
  obtain rfl := List.append_cancel_left cut
  have hyphens : ∀ c ∈ ['-', '-'], isFlagChar c = true := List.all_eq_true.mp (by decide)
  exact ⟨name, rfl, fun c member => (List.mem_append.mp member).elim (hyphens c) (all c), stops⟩

/-- **A unary operator that overlaps a flag stands in it.** -/
theorem exists_sign_in_flag {groups : List Text}
    (found : flag.reach? none (piece ++ back) = some ⟨piece.length, groups⟩)
    (touched : ¬ unaryOperator.Clears (front ++ (piece ++ back)) front.length
      (front.length + piece.length)) :
    ∃ early late, piece = early ++ (['-', 'x'] ++ late) := by
  have silent : flag.Silent ['x'] := silent_of_apart begins_flag (by decide)
  obtain ⟨_, _, all, stops⟩ := exists_name_of_flag found
  obtain ⟨_, lexeme, rest, _, early, late, here, nonempty, rfl, behind⟩ :=
    exists_begins_inside closed_unaryOperator.proper (fun {_ lexeme _ _} here => by
      obtain ⟨_, _, _, cut, size⟩ := reach?_unaryOperator here
      rwa [(occurrence_eq cut size).1]) found touched
  obtain ⟨sign, _, either, cut, size⟩ := reach?_unaryOperator here
  rw [(occurrence_eq cut size).1] at behind
  obtain ⟨c, more, rfl⟩ := List.exists_cons_of_ne_nil nonempty
  obtain ⟨rfl, next⟩ := List.cons.inj behind
  have hyphen : c = '-' := by
    rcases either with rfl | rfl
    · exact absurd (all '!' (by simp)) (by decide)
    · rfl
  cases more with
  | nil =>
    have begins : back = 'x' :: rest := next
    exact absurd (stops 'x' (by rw [begins]; rfl)) (by decide)
  | cons d others =>
    obtain ⟨rfl, _⟩ := List.cons.inj next
    exact ⟨early, others, by rw [hyphen]; rfl⟩

/-- **What begins with an operand and goes on with no character of a flag overlaps a flag only at its
last character.** -/
theorem exists_operand_of_flag (proper : other.Proper)
    (shape : ∀ {before lexeme groups rest},
      other.reach? before (lexeme ++ rest) = some ⟨lexeme.length, groups⟩ →
      ∃ c tail, lexeme = 'x' :: c :: tail ∧ isFlagChar c = false ∧ flag.Silent (c :: tail))
    {groups : List Text}
    (found : flag.reach? none (piece ++ back) = some ⟨piece.length, groups⟩)
    (touched : ¬ other.Clears (front ++ (piece ++ back)) front.length
      (front.length + piece.length)) :
    ∃ early tail rest before groups, piece = early ++ ['x'] ∧ back = tail ++ rest ∧
      other.reach? before (('x' :: tail) ++ rest) = some ⟨('x' :: tail).length, groups⟩ := by
  obtain ⟨_, _, all, _⟩ := exists_name_of_flag found
  obtain ⟨before, lexeme, rest, groups, early, late, here, nonempty, rfl, behind⟩ :=
    exists_begins_inside proper (fun here => by
      obtain ⟨c, tail, same, _, silent⟩ := shape here
      rwa [same]) found touched
  obtain ⟨c, tail, rfl, ends, _⟩ := shape here
  obtain ⟨d, more, rfl⟩ := List.exists_cons_of_ne_nil nonempty
  obtain ⟨rfl, next⟩ := List.cons.inj behind
  cases more with
  | nil => exact ⟨early, c :: tail, rest, before, groups, rfl, next, here⟩
  | cons e others =>
    obtain ⟨rfl, _⟩ := List.cons.inj next
    rw [all e (by simp)] at ends
    exact absurd ends (by decide)

theorem operand_of_binaryOperator {before : Option Char} {lexeme rest : Text} {groups : List Text}
    (found : binaryOperator.reach? before (lexeme ++ rest) = some ⟨lexeme.length, groups⟩) :
    ∃ c tail, lexeme = 'x' :: c :: tail ∧ isFlagChar c = false ∧ flag.Silent (c :: tail) := by
  obtain ⟨operator, _, member, cut, size⟩ := reach?_binaryOperator found
  rw [(occurrence_eq cut size).1]
  exact ⟨' ', operator ++ [' ', 'y'], rfl, by decide, silent_operation member flag (by simp)⟩

theorem operand_of_slice {before : Option Char} {lexeme rest : Text} {groups : List Text}
    (found : slice.reach? before (lexeme ++ rest) = some ⟨lexeme.length, groups⟩) :
    ∃ c tail, lexeme = 'x' :: c :: tail ∧ isFlagChar c = false ∧ flag.Silent (c :: tail) := by
  obtain ⟨inside, _, _, all, cut, size⟩ := reach?_slice found
  rw [(occurrence_eq cut size).1]
  exact ⟨'[', inside ++ [']'], rfl, by decide, silent_index all flag (by simp)⟩

/-! ### Operations -/

/-- **A unary operator that overlaps a binary operation stands before its first operand.** -/
theorem exists_sign_before_operation {groups : List Text}
    (found : binaryOperator.reach? none (piece ++ back) = some ⟨piece.length, groups⟩)
    (touched : ¬ unaryOperator.Clears (front ++ (piece ++ back)) front.length
      (front.length + piece.length)) :
    ∃ first sign, front = first ++ [sign] ∧ (sign = '!' ∨ sign = '-') := by
  obtain ⟨operator, _, member, cut, size⟩ := reach?_binaryOperator found
  obtain ⟨rfl, _⟩ := occurrence_eq cut size
  have apart : ∀ operator ∈ binaryOperators, ∀ late ∈ (['x', ' '] ++ operator ++ [' ', 'y']).tails,
      late ≠ [] → ∀ opening ∈ ["!x".toList, "-x".toList],
        opening.isPrefixOf late = false ∧ late.isPrefixOf opening = false := by decide
  have silent := silent_of_apart begins_unaryOperator (apart operator member)
  obtain ⟨_, lexeme, rest, _, here, ⟨early, late, nonempty, split, behind⟩ |
    ⟨first, early, late, some_early, nonempty, rfl, rfl, behind⟩⟩ :=
      closed_unaryOperator.proper.exists_of_not_clears touched
  · have absent := silent early late back split nonempty
    rw [behind, ← closed_unaryOperator.forward, here] at absent
    exact absurd absent (Option.some_ne_none _)
  · obtain ⟨sign, _, either, cut', size'⟩ := reach?_unaryOperator here
    have sizes := congrArg List.length (occurrence_eq cut' size').1
    obtain ⟨c, more, rfl⟩ := List.exists_cons_of_ne_nil some_early
    obtain ⟨rfl, _⟩ := List.cons.inj (occurrence_eq cut' size').1
    have positive := List.length_pos_iff.mpr nonempty
    simp only [List.length_append, List.length_cons, List.length_nil] at sizes
    obtain rfl : more = [] := List.eq_nil_of_length_eq_zero (by omega)
    exact ⟨first, c, rfl, either⟩

/-- **What quotes and addresses leave alone, they leave alone with a sign before it**: no quoted span
ends with a sign, and no address ends before an operand. -/
theorem clears_with_sign {sign : Char} (either : sign = '!' ∨ sign = '-') {tail : Text}
    (clears : ∀ pattern ∈ [quote, url], pattern.Clears ((front ++ [sign]) ++ ('x' :: tail ++ back))
      (front ++ [sign]).length ((front ++ [sign]).length + ('x' :: tail).length)) :
    ∀ pattern ∈ [quote, url], pattern.Clears ((front ++ [sign]) ++ ('x' :: tail ++ back))
      front.length (front.length + (sign :: 'x' :: tail).length) := by
  intro pattern member
  have before := clears pattern member
  simp only [List.mem_cons, List.not_mem_nil, or_false] at member
  rcases member with rfl | rfl
  · refine before.extend_left closed_quote.proper fun {_ lexeme _} found => ?_
    obtain ⟨mark, inside, _, isMark, _, _, cut, size⟩ := reach?_quote found
    rw [(occurrence_eq cut size).1, List.getLast?_concat]
    intro same
    obtain rfl := Option.some.inj same
    rcases either with rfl | rfl <;> exact absurd isMark (by decide)
  · refine before.extend_left steady_url.toProper fun {_ lexeme _} found => ?_
    obtain ⟨scheme, address, _, _, _, _, stops, cut, size⟩ := reach?_url found
    rw [(occurrence_eq cut size).1] at cut
    rw [← List.append_cancel_left cut] at stops
    exact absurd (stops 'x' rfl) (by decide)

end Handbook.Pattern
