/-
**Where the patterns of prose occur.**

For each pattern of documentation prose: the text that an occurrence covers, what stands behind it,
and its groups. The other way round, what is written in this way is an occurrence.

* `reach?_quote` to `reach?_flag`: what an occurrence covers;
* `find?_isPrefixOf`: of words none of which begins another, only one can stand at a place;
* `quote_span` to `flag_name`: what is an occurrence wherever it stands;
* `closed_quote` to `delimited_flag`: where the occurrences end.
-/

import Handbook.Pattern.Prose
import Handbook.Proofs.Pattern.Delimited

namespace Handbook.Pattern

open Text Unicode

variable {before : Option Char} {text : Text} {reach : Reach}

/-- A text that is cut where the characters of a test end, when a character stands behind the cut. -/
theorem eq_takeWhile_append {test : Char → Bool} {c : Char}
    (next : (text.dropWhile test).head? = some c) :
    ∃ rest, text = text.takeWhile test ++ c :: rest := by
  obtain ⟨rest, tail⟩ := List.head?_eq_some_iff.mp next
  refine ⟨rest, ?_⟩
  rw [← tail, List.takeWhile_append_dropWhile]

theorem reach?_quote (found : quote.reach? before text = some reach) :
    ∃ mark inside rest, isQuoteMark mark = true ∧ inside ≠ [] ∧
      (∀ c ∈ inside, c ≠ mark ∧ c ≠ '\n') ∧
      text = (mark :: inside ++ [mark]) ++ rest ∧
      reach = ⟨(mark :: inside ++ [mark]).length, []⟩ := by
  simp only [quote] at found
  split at found
  · simp at found
  · rename_i mark rest
    simp only [Option.ite_none_right_eq_some, Bool.and_eq_true, Bool.not_eq_true',
      List.isEmpty_eq_false_iff, beq_iff_eq, Option.some.injEq] at found
    obtain ⟨isMark, ⟨nonempty, next⟩, size⟩ := found
    obtain ⟨others, cut⟩ := eq_takeWhile_append next
    refine ⟨mark, rest.takeWhile fun c => c != mark && c != '\n', others, isMark, nonempty, ?_, ?_,
      ?_⟩
    · intro c member
      have inside := of_mem_takeWhile member
      simpa using inside
    · rw [List.append_assoc, List.cons_append, List.singleton_append, ← cut]
    · rw [← size]
      simp

theorem reach?_sectionHeader (found : sectionHeader.reach? before text = some reach) :
    startsLine before = true ∧ ∃ level title rest, 1 ≤ level ∧ level ≤ 3 ∧ title ≠ [] ∧
      (∀ c ∈ title, c ≠ '\n') ∧ Stops (· != '\n') rest ∧
      text = (List.replicate level '#' ++ ' ' :: title) ++ rest ∧
      reach = ⟨(List.replicate level '#' ++ ' ' :: title).length, []⟩ := by
  simp only [sectionHeader] at found
  split at found
  · rename_i starts
    simp only [Option.ite_none_right_eq_some, Bool.and_eq_true, decide_eq_true_eq, beq_iff_eq,
      Option.some.injEq] at found
    obtain ⟨⟨⟨⟨low, high⟩, space⟩, long⟩, size⟩ := found
    obtain ⟨level, tail, cut, count⟩ : ∃ level tail, text = List.replicate level '#' ++ tail ∧
        (text.takeWhile (· == '#')).length = level := by
      have marks : text.takeWhile (· == '#') =
          List.replicate (text.takeWhile (· == '#')).length '#' :=
        List.eq_replicate_iff.mpr ⟨rfl, fun c member => by simpa using of_mem_takeWhile member⟩
      refine ⟨_, text.dropWhile (· == '#'), ?_, rfl⟩
      rw [← marks, List.takeWhile_append_dropWhile]
    rw [count] at low high space long size
    rw [cut, List.drop_left' (List.length_replicate ..)] at space long size
    obtain ⟨title, words⟩ := List.head?_eq_some_iff.mp space
    rw [words] at long size
    have inside : ∀ c ∈ ' ' :: title, c ≠ '\n' := by
      intro c member
      rw [← words, restOfLine] at member
      simpa using of_mem_takeWhile member
    refine ⟨starts, level, title, tail.dropWhile (· != '\n'), low, high, ?_,
      fun c member => inside c (List.mem_cons_of_mem _ member), stops_dropWhile _ _, ?_, ?_⟩
    · rintro rfl
      simp at long
    · rw [cut, List.append_assoc, ← words, restOfLine, List.takeWhile_append_dropWhile]
    · rw [← size, List.length_append, List.length_replicate]
  · simp at found

theorem reach?_url (found : url.reach? before text = some reach) :
    ∃ scheme address rest, scheme ∈ schemes ∧ address ≠ [] ∧ (∀ c ∈ address, isBlank c = false) ∧
      Stops (!isBlank ·) rest ∧ text = (scheme ++ address) ++ rest ∧
      reach = ⟨(scheme ++ address).length, []⟩ := by
  simp only [url, Option.bind_eq_bind, Option.bind_eq_some_iff] at found
  obtain ⟨scheme, chosen, found⟩ := found
  simp only [Option.ite_none_left_eq_some, List.isEmpty_iff, Option.some.injEq] at found
  obtain ⟨nonempty, size⟩ := found
  have starts := List.find?_some chosen
  obtain ⟨tail, rfl⟩ := List.isPrefixOf_iff_prefix.mp starts
  rw [List.drop_left] at nonempty size
  refine ⟨scheme, tail.takeWhile (!isBlank ·), tail.dropWhile (!isBlank ·),
    List.mem_of_find?_eq_some chosen, nonempty, ?_, stops_dropWhile _ _, ?_, ?_⟩
  · intro c member
    simpa using of_mem_takeWhile member
  · rw [List.append_assoc, List.takeWhile_append_dropWhile]
  · rw [← size, List.length_append]

theorem reach?_unaryOperator (found : unaryOperator.reach? before text = some reach) :
    ∃ operator rest, (operator = '!' ∨ operator = '-') ∧ text = [operator, 'x'] ++ rest ∧
      reach = ⟨[operator, 'x'].length, [[operator]]⟩ := by
  simp only [unaryOperator] at found
  split at found
  · rename_i rest
    exact ⟨'!', rest, Or.inl rfl, rfl, (Option.some.inj found).symm⟩
  · rename_i rest
    exact ⟨'-', rest, Or.inr rfl, rfl, (Option.some.inj found).symm⟩
  · simp at found

theorem reach?_binaryOperator (found : binaryOperator.reach? before text = some reach) :
    ∃ operator rest, operator ∈ binaryOperators ∧
      text = (['x', ' '] ++ operator ++ [' ', 'y']) ++ rest ∧
      reach = ⟨(['x', ' '] ++ operator ++ [' ', 'y']).length, [operator]⟩ := by
  simp only [binaryOperator] at found
  split at found
  · rename_i rest
    simp only [Option.bind_eq_bind, Option.bind_eq_some_iff, Option.some.injEq] at found
    obtain ⟨operator, chosen, size⟩ := found
    have starts := List.find?_some chosen
    obtain ⟨tail, rfl⟩ := List.isPrefixOf_iff_prefix.mp starts
    refine ⟨operator, tail, List.mem_of_find?_eq_some chosen, ?_, ?_⟩
    · simp
    · rw [← size]
      simp
  · simp at found

theorem reach?_pipelineOperator (found : pipelineOperator.reach? before text = some reach) :
    ∃ rest, text = (pipedCall ++ ['|']) ++ rest ∧
      reach = ⟨(pipedCall ++ ['|']).length, [pipedCall]⟩ := by
  simp only [pipelineOperator, Option.ite_none_right_eq_some, Option.some.injEq] at found
  obtain ⟨starts, size⟩ := found
  obtain ⟨rest, rfl⟩ := List.isPrefixOf_iff_prefix.mp starts
  exact ⟨rest, rfl, size.symm⟩

theorem reach?_slice (found : slice.reach? before text = some reach) :
    ∃ inside rest, inside ≠ [] ∧ (∀ c ∈ inside, isSliceChar c = true) ∧
      text = (['x', '['] ++ inside ++ [']']) ++ rest ∧
      reach = ⟨(['x', '['] ++ inside ++ [']']).length, [inside]⟩ := by
  simp only [slice] at found
  split at found
  · rename_i rest
    simp only [Option.ite_none_right_eq_some, Bool.and_eq_true, Bool.not_eq_true',
      List.isEmpty_eq_false_iff, beq_iff_eq, Option.some.injEq] at found
    obtain ⟨⟨nonempty, next⟩, size⟩ := found
    obtain ⟨others, cut⟩ := eq_takeWhile_append next
    refine ⟨rest.takeWhile isSliceChar, others, nonempty, fun c => of_mem_takeWhile, ?_, ?_⟩
    · simp only [List.cons_append, List.nil_append, List.append_assoc]
      rw [← cut]
    · rw [← size]
      simp
  · simp at found

theorem reach?_flag (found : flag.reach? before text = some reach) :
    ∃ name rest, name ≠ [] ∧ (∀ c ∈ name, isFlagChar c = true) ∧ Stops isFlagChar rest ∧
      text = (['-', '-'] ++ name) ++ rest ∧ reach = ⟨(['-', '-'] ++ name).length, []⟩ := by
  simp only [flag] at found
  split at found
  · rename_i rest
    simp only [Option.ite_none_left_eq_some, List.isEmpty_iff, Option.some.injEq] at found
    obtain ⟨nonempty, size⟩ := found
    refine ⟨rest.takeWhile isFlagChar, rest.dropWhile isFlagChar, nonempty,
      fun c => of_mem_takeWhile, stops_dropWhile _ _, ?_, ?_⟩
    · simp
    · rw [← size]
      simp
  · simp at found

/-! ### Words at a place -/

/-- **Of words none of which begins another, only one can stand at a place.** -/
theorem find?_isPrefixOf {words : List Text} {written : Text → Text}
    (free : ∀ one ∈ words, ∀ other ∈ words, (written one).isPrefixOf (written other) = true →
      one = other) {word : Text} (member : word ∈ words) (rest : Text) :
    words.find? (fun other => (written other).isPrefixOf (written word ++ rest)) = some word := by
  cases found : words.find? (fun other => (written other).isPrefixOf (written word ++ rest)) with
  | none =>
    have absent := List.find?_eq_none.mp found word member
    exact absurd (List.isPrefixOf_iff_prefix.mpr (List.prefix_append _ _)) absent
  | some other =>
    have member' := List.mem_of_find?_eq_some found
    have starts : (written other).isPrefixOf (written word ++ rest) = true := by
      simpa using List.find?_some found
    have starts := List.isPrefixOf_iff_prefix.mp starts
    rcases List.prefix_or_prefix_of_prefix starts (List.prefix_append _ rest) with early | early
    · rw [free other member' word member (List.isPrefixOf_iff_prefix.mpr early)]
    · rw [free word member other member' (List.isPrefixOf_iff_prefix.mpr early)]

/-! ### What is an occurrence -/

theorem quote_span {mark : Char} {inside : Text} (isMark : isQuoteMark mark = true)
    (nonempty : inside ≠ []) (plain : ∀ c ∈ inside, c ≠ mark ∧ c ≠ '\n') (rest : Text) :
    quote.reach? before ((mark :: inside ++ [mark]) ++ rest) =
      some ⟨(mark :: inside ++ [mark]).length, []⟩ := by
  have all : ∀ c ∈ inside, (c != mark && c != '\n') = true := fun c member => by
    simpa using plain c member
  have stops : Stops (fun c => c != mark && c != '\n') (mark :: rest) := stops_cons (by simp) rest
  rw [List.append_assoc, List.cons_append, List.singleton_append]
  simp only [quote, isMark, if_true]
  rw [takeWhile_cut all stops, dropWhile_cut all stops]
  simp [nonempty]

theorem sectionHeader_line {level : Nat} {title rest : Text} (starts : startsLine before = true)
    (low : 1 ≤ level) (high : level ≤ 3) (nonempty : title ≠ []) (single : ∀ c ∈ title, c ≠ '\n')
    (stops : Stops (· != '\n') rest) :
    sectionHeader.reach? before ((List.replicate level '#' ++ ' ' :: title) ++ rest) =
      some ⟨(List.replicate level '#' ++ ' ' :: title).length, []⟩ := by
  have signs : ∀ c ∈ List.replicate level '#', (c == '#') = true := fun c member => by
    simpa using List.eq_of_mem_replicate member
  have words : ∀ c ∈ ' ' :: title, (c != '\n') = true := fun c member => by
    rcases List.mem_cons.mp member with rfl | member
    · decide
    · simpa using single c member
  have marks : Stops (· == '#') ((' ' :: title) ++ rest) := stops_cons (by decide) _
  have size : 1 ≤ title.length := List.length_pos_iff.mpr nonempty
  have line : restOfLine ((' ' :: title) ++ rest) = ' ' :: title := takeWhile_cut words stops
  rw [List.append_assoc]
  simp only [sectionHeader, starts, if_true, takeWhile_cut signs marks, List.length_replicate,
    List.drop_left' (List.length_replicate ..), line]
  simp [low, high, size]

theorem url_address {scheme address rest : Text} (member : scheme ∈ schemes)
    (nonempty : address ≠ []) (visible : ∀ c ∈ address, isBlank c = false)
    (stops : Stops (!isBlank ·) rest) :
    url.reach? before ((scheme ++ address) ++ rest) = some ⟨(scheme ++ address).length, []⟩ := by
  have free : ∀ one ∈ schemes, ∀ other ∈ schemes, one.isPrefixOf other = true → one = other := by
    decide
  have all : ∀ c ∈ address, (!isBlank c) = true := fun c inside => by rw [visible c inside]; rfl
  rw [List.append_assoc]
  simp only [url, find?_isPrefixOf free member, Option.bind_eq_bind, Option.bind_some,
    List.drop_left, takeWhile_cut all stops, List.length_append]
  simp [nonempty]

theorem unaryOperator_x {operator : Char} (either : operator = '!' ∨ operator = '-') (rest : Text) :
    unaryOperator.reach? before ([operator, 'x'] ++ rest) =
      some ⟨[operator, 'x'].length, [[operator]]⟩ := by
  rcases either with rfl | rfl <;> rfl

theorem binaryOperator_between {operator : Text} (member : operator ∈ binaryOperators)
    (rest : Text) :
    binaryOperator.reach? before ((['x', ' '] ++ operator ++ [' ', 'y']) ++ rest) =
      some ⟨(['x', ' '] ++ operator ++ [' ', 'y']).length, [operator]⟩ := by
  have free : ∀ one ∈ binaryOperators, ∀ other ∈ binaryOperators,
      (one ++ [' ', 'y']).isPrefixOf (other ++ [' ', 'y']) = true → one = other := by decide
  have chosen := @find?_isPrefixOf binaryOperators (· ++ [' ', 'y']) free operator member rest
  simp only [List.cons_append, List.nil_append, binaryOperator]
  rw [chosen]
  simp

theorem pipelineOperator_call (rest : Text) :
    pipelineOperator.reach? before ((pipedCall ++ ['|']) ++ rest) =
      some ⟨(pipedCall ++ ['|']).length, [pipedCall]⟩ := by
  have starts : (pipedCall ++ ['|']).isPrefixOf ((pipedCall ++ ['|']) ++ rest) = true :=
    List.isPrefixOf_iff_prefix.mpr (List.prefix_append _ _)
  simp only [pipelineOperator, starts, if_true]
  rfl

theorem slice_inside {inside : Text} (nonempty : inside ≠ [])
    (all : ∀ c ∈ inside, isSliceChar c = true) (rest : Text) :
    slice.reach? before ((['x', '['] ++ inside ++ [']']) ++ rest) =
      some ⟨(['x', '['] ++ inside ++ [']']).length, [inside]⟩ := by
  have stops : Stops isSliceChar (']' :: rest) := stops_cons (by decide) rest
  simp only [List.cons_append, List.nil_append, List.append_assoc, slice]
  rw [takeWhile_cut all stops, dropWhile_cut all stops]
  simp [nonempty]

theorem flag_name {name rest : Text} (nonempty : name ≠ [])
    (all : ∀ c ∈ name, isFlagChar c = true) (stops : Stops isFlagChar rest) :
    flag.reach? before ((['-', '-'] ++ name) ++ rest) =
      some ⟨(['-', '-'] ++ name).length, []⟩ := by
  simp only [List.cons_append, List.nil_append, flag]
  rw [takeWhile_cut all stops]
  simp [nonempty]

/-! ### Where occurrences end -/

theorem closed_quote : quote.Closed where
  occurrence := by
    intro before text reach found
    obtain ⟨mark, inside, rest, isMark, nonempty, plain, cut, rfl⟩ := reach?_quote found
    refine ⟨_, rest, by simp, ?_, cut, rfl, fun _ => quote_span isMark nonempty plain⟩
    have other : '\n' ≠ mark := by
      rintro rfl
      exact absurd isMark (by decide)
    have absent : '\n' ∉ inside := fun member => (plain '\n' member).2 rfl
    simp [other, absent]

theorem delimited_sectionHeader : Delimited sectionHeader (· != '\n') where
  occurrence := by
    intro before text reach found
    obtain ⟨starts, level, title, rest, low, high, nonempty, single, stops, cut, rfl⟩ :=
      reach?_sectionHeader found
    exact ⟨_, rest, by simp, cut, rfl, stops, fun _ =>
      sectionHeader_line starts low high nonempty single⟩

theorem delimited_url : Delimited url (!isBlank ·) where
  occurrence := by
    intro before text reach found
    obtain ⟨scheme, address, rest, member, nonempty, visible, stops, cut, rfl⟩ := reach?_url found
    exact ⟨_, rest, by simp [nonempty], cut, rfl, stops, fun _ =>
      url_address member nonempty visible⟩

theorem closed_unaryOperator : unaryOperator.Closed where
  occurrence := by
    intro before text reach found
    obtain ⟨operator, rest, either, cut, rfl⟩ := reach?_unaryOperator found
    refine ⟨_, rest, by simp, ?_, cut, rfl, fun _ => unaryOperator_x either⟩
    rcases either with rfl | rfl <;> decide

theorem closed_binaryOperator : binaryOperator.Closed where
  occurrence := by
    intro before text reach found
    obtain ⟨operator, rest, member, cut, rfl⟩ := reach?_binaryOperator found
    have single : ∀ operator ∈ binaryOperators, '\n' ∉ ['x', ' '] ++ operator ++ [' ', 'y'] := by
      decide
    exact ⟨_, rest, by simp, single operator member, cut, rfl, fun _ =>
      binaryOperator_between member⟩

theorem closed_pipelineOperator : pipelineOperator.Closed where
  occurrence := by
    intro before text reach found
    obtain ⟨rest, cut, rfl⟩ := reach?_pipelineOperator found
    exact ⟨_, rest, by simp, by decide, cut, rfl, fun _ => pipelineOperator_call⟩

theorem closed_slice : slice.Closed where
  occurrence := by
    intro before text reach found
    obtain ⟨inside, rest, nonempty, all, cut, rfl⟩ := reach?_slice found
    refine ⟨_, rest, by simp, ?_, cut, rfl, fun _ => slice_inside nonempty all⟩
    have absent : '\n' ∉ inside := fun member => absurd (all '\n' member) (by decide)
    simp [absent]

theorem delimited_flag : Delimited flag isFlagChar where
  occurrence := by
    intro before text reach found
    obtain ⟨name, rest, nonempty, all, stops, cut, rfl⟩ := reach?_flag found
    exact ⟨_, rest, by simp, cut, rfl, stops, fun _ => flag_name nonempty all⟩

end Handbook.Pattern
