/-
**Which flags and operations are colored.**

A flag or a binary operation outside of quotes, headers and addresses is colored by its own pass
unless an earlier pass has colored a part of it. The pass over unary operators colors every `-x`,
also inside of a flag, and every operand that a sign stands before; the passes over binary operators
and slices color an `x` with which a flag ends. In each of these cases the flag or the operation
stays in pieces.

* `holds_uncovered`: what quotes, headers and addresses leave alone is held behind them;
* `holds_flag_iff`: a flag is colored as a whole exactly when no earlier pass touches it;
* `holds_operation`, `not_holds_operation`: an operation is when no sign touches it, else it is not;
* `prose_colors_whole_iff`: both for all flags and operations of a line.
-/

import Handbook.Proofs.Colorize.Snippets
import Handbook.Proofs.Colorize.Spans
import Handbook.Proofs.Pattern.Overlap

namespace Handbook.Colorize

open Terminal Pattern Text

/-- Quotes, headers and addresses leave a stretch of a line alone. -/
def Uncovered (line : Text) (start stop : Nat) : Prop :=
  ∀ pattern ∈ [Pattern.quote, .sectionHeader, .url], pattern.Clears line start stop

instance (line : Text) (start stop : Nat) : Decidable (Uncovered line start stop) :=
  inferInstanceAs (Decidable (∀ pattern ∈ [Pattern.quote, .sectionHeader, .url],
    pattern.Clears line start stop))

variable {line painted front piece tail back : Text}

/-! ### Behind the spans -/

theorem next_unaryOperator :
    prosePasses[3]? = some ⟨"unary_operator", .unaryOperator, unaryOperator⟩ := rfl

theorem next_binaryOperator :
    prosePasses[4]? = some ⟨"binary_operator", .binaryOperator, binaryOperator⟩ := rfl

theorem next_pipelineOperator :
    prosePasses[5]? = some ⟨"pipeline_operator", .pipelineOperator, pipelineOperator⟩ := rfl

theorem next_slice : prosePasses[6]? = some ⟨"slice", .slice, slice⟩ := rfl

theorem next_flag : prosePasses[7]? = some ⟨"flag", .flag, whole .cyan⟩ := rfl

theorem applyAll_next {done : Nat} {pass : Pass} (next : prosePasses[done]? = some pass)
    (line : Text) : Pass.applyAll (prosePasses.take (done + 1)) line =
      pass.apply (Pass.applyAll (prosePasses.take done) line) := by
  rw [List.take_add_one, next, Pass.applyAll_append]
  rfl

theorem prose_eq (done : Nat) (line : Text) : prose line =
    Pass.applyAll (prosePasses.drop done) (Pass.applyAll (prosePasses.take done) line) := by
  rw [← Pass.applyAll_append, List.take_append_drop]
  rfl

theorem snippet_of_next {done : Nat} {pass : Pass} (behind : 3 ≤ done)
    (next : prosePasses[done]? = some pass) : pass ∈ prosePasses.drop 3 := by
  refine List.mem_of_getElem? (i := done - 3) ?_
  rw [List.getElem?_drop, Nat.add_sub_cancel' behind, next]

/-- A snippet or a flag that its pass clears stands through the pass. -/
theorem Holds.cleared {done : Nat} {pass : Pass} (behind : 3 ≤ done)
    (next : prosePasses[done]? = some pass) (steady : pass.pattern.Steady) (nonempty : piece ≠ [])
    (bare : escape ∉ piece)
    (clears : pass.pattern.Clears (front ++ (piece ++ back)) front.length
      (front.length + piece.length))
    (holds : Holds (Pass.applyAll (prosePasses.take done) line) front piece back) :
    Holds (Pass.applyAll (prosePasses.take (done + 1)) line) front piece back := by
  have recolors := recolors_of_mem pass (List.mem_of_getElem? next)
  have snippet := snippet_of_next behind next
  rw [applyAll_next next]
  exact holds.keep recolors steady nonempty bare
    (lifts_of_avoids steady recolors.aligned (avoids_escape pass snippet) (holds.shows bare)) clears

section

variable (clear : escape ∉ front ++ (piece ++ (tail ++ back)))
  (single : '\n' ∉ front ++ (piece ++ (tail ++ back))) (nonempty : piece ≠ [])
  (uncovered : Uncovered (front ++ (piece ++ (tail ++ back))) front.length
    (front.length + piece.length))

include clear single nonempty uncovered

/-- **What is uncovered is held behind the spans**, together with a stretch behind it in which none
of them begins. -/
theorem holds_uncovered (silent : ∀ pattern ∈ [Pattern.quote, url], pattern.Silent tail) :
    Holds (Pass.applyAll (prosePasses.take 3) (front ++ (piece ++ (tail ++ back)))) front
      (piece ++ tail) back := by
  have absent := occurrences_sectionHeader single nonempty (uncovered _ (by simp))
  have quotes := (uncovered .quote (by simp)).extend closed_quote.proper closed_quote.forward
    (silent _ (by simp))
  have addresses := (uncovered .url (by simp)).extend steady_url.toProper steady_url.forward
    (silent _ (by simp))
  rw [← List.append_assoc piece] at *
  refine holds_spans clear single (by simp [nonempty]) absent fun pattern member => ?_
  simp only [List.mem_cons, List.not_mem_nil, or_false] at member
  rcases member with rfl | rfl
  · exact quotes
  · exact addresses

/-- It is held behind the unary operators when these clear it. -/
theorem holds_behind_signs
    (silent : ∀ pattern ∈ [Pattern.quote, url, .unaryOperator], pattern.Silent tail)
    (clears : Pattern.unaryOperator.Clears (front ++ (piece ++ (tail ++ back))) front.length
      (front.length + piece.length)) :
    Holds (Pass.applyAll (prosePasses.take 4) (front ++ (piece ++ (tail ++ back)))) front
      (piece ++ tail) back := by
  have solitary := solitary_unaryOperator
  have behind := holds_uncovered clear single nonempty uncovered
    fun pattern member => silent pattern (List.mem_append_left [_] member)
  have signs := clears.extend solitary.proper solitary.forward (silent _ (by simp))
  rw [← List.append_assoc piece] at *
  have bare : escape ∉ piece ++ tail := fun member =>
    clear (List.mem_append_right _ (List.mem_append_left _ member))
  exact behind.cleared (by decide) next_unaryOperator solitary.steady (by simp [nonempty]) bare signs

/-- It is held behind the binary operations, too, when they clear it as well. -/
theorem holds_behind_operations
    (silent : ∀ pattern ∈ [Pattern.quote, url, .unaryOperator, .binaryOperator],
      pattern.Silent tail)
    (clears : ∀ pattern ∈ [Pattern.unaryOperator, .binaryOperator],
      pattern.Clears (front ++ (piece ++ (tail ++ back))) front.length
        (front.length + piece.length)) :
    Holds (Pass.applyAll (prosePasses.take 5) (front ++ (piece ++ (tail ++ back)))) front
      (piece ++ tail) back := by
  have solitary := solitary_binaryOperator
  have behind := holds_behind_signs clear single nonempty uncovered
    (fun pattern member => silent pattern (List.mem_append_left [_] member)) (clears _ (by simp))
  have operations := (clears .binaryOperator (by simp)).extend solitary.proper solitary.forward
    (silent _ (by simp))
  rw [← List.append_assoc piece] at *
  have bare : escape ∉ piece ++ tail := fun member =>
    clear (List.mem_append_right _ (List.mem_append_left _ member))
  exact behind.cleared (by decide) next_binaryOperator solitary.steady (by simp [nonempty]) bare
    operations

end

/-! ### Operands -/

theorem silent_snippets {operator : Text} (member : operator ∈ binaryOperators) :
    ∀ pass ∈ prosePasses.drop 3, pass.pattern.Silent ([' '] ++ operator ++ [' ', 'y']) := by
  intro pass snippet
  refine silent_operation member _ ?_
  simp only [prosePasses, List.drop_succ_cons, List.drop_zero, List.mem_cons, List.not_mem_nil,
    or_false] at snippet
  rcases snippet with rfl | rfl | rfl | rfl | rfl <;> simp

/-- **A red operand stands through all the passes that are left.** -/
theorem Holds.operand {done : Nat} (behind : 3 ≤ done)
    (silent : ∀ pass ∈ prosePasses.drop 3, pass.pattern.Silent tail)
    (holds : Holds (Pass.applyAll (prosePasses.take done) line) front (colored .red ['x'] ++ tail)
      back) : Holds (prose line) front (colored .red ['x'] ++ tail) back := by
  have snippets : prosePasses.drop done ⊆ prosePasses.drop 3 := List.drop_subset_drop_left _ behind
  have same : ∀ pass ∈ prosePasses.drop 3, pass.apply ['x'] = ['x'] := by decide
  have shape : colored .red ['x'] ++ tail =
      select Color.red.code ++ (['x'] ++ (select ['0'] ++ tail)) := by
    simp [colored, styled, reset, Style.code]
  rw [shape] at holds ⊢
  rw [prose_eq done]
  exact holds.applyAll snippets (isCode_color .red) isCode_zero
    (fun pass member => same pass (snippets member)) fun pass member => silent pass (snippets member)

theorem binaryOperator_begins (found : Match) :
    ∃ more, binaryOperator found = colored .red ['x'] ++ more :=
  ⟨[' '] ++ colored .cyan found.group ++ [' '] ++ colored .red ['y'], by simp [binaryOperator]⟩

theorem slice_begins (found : Match) : ∃ more, slice found = colored .red ['x'] ++ more :=
  ⟨['['] ++ [':'].intercalate ((Text.split ':' found.group).map (colored .cyan)) ++ [']'],
    by simp [slice]⟩

/-- **Where a solitary pass finds an operand, the operand is red in the end.** -/
theorem Holds.operand_found {done : Nat} {pass : Pass} {groups : List Text} {early : Text}
    (behind : 3 ≤ done) (next : prosePasses[done]? = some pass) (solitary : pass.pattern.Solitary)
    (found : pass.pattern.reach? none ('x' :: tail) = some ⟨('x' :: tail).length, groups⟩)
    (begins : ∃ more, pass.replace ⟨'x' :: tail, groups⟩ = colored .red ['x'] ++ more)
    (bare : escape ∉ (early ++ ['x']) ++ tail)
    (holds : Holds (Pass.applyAll (prosePasses.take done) line) front ((early ++ ['x']) ++ tail)
      back) : Holds (prose line) (front ++ early) (colored .red ['x']) (tail ++ back) := by
  have recolors := recolors_of_mem pass (List.mem_of_getElem? next)
  obtain ⟨more, shape⟩ := begins
  rw [List.append_assoc, List.singleton_append] at bare holds
  rw [List.mem_append, not_or] at bare
  have shows : Shows more tail := by
    have whole : pass.pattern.reach? none (('x' :: tail) ++ []) =
        some ⟨('x' :: tail).length, groups⟩ := by rwa [List.append_nil]
    have both := recolors.shows (intact_of_not_mem bare.2) whole
    rw [shape, stripColors_of_not_mem bare.2] at both
    exact (shows_colored .red ['x'] (by decide)).of_append both
  have last := holds.last (shows_plain early bare.1)
  have replaced := Holds.found recolors solitary found (silent_nil _) (by rwa [List.append_nil])
  rw [← applyAll_next next, shape, List.append_nil] at replaced
  have operand := replaced.first shows
  rw [← List.append_nil (colored .red ['x'])] at operand ⊢
  exact operand.operand (Nat.le_succ_of_le behind) fun pass _ => silent_nil pass.pattern

/-- **Behind a sign the operand is red in the end.** -/
theorem Holds.sign {sign : Char} (either : sign = '!' ∨ sign = '-')
    (silent : ∀ pass ∈ prosePasses.drop 3, pass.pattern.Silent tail)
    (holds : Holds (Pass.applyAll (prosePasses.take 3) line) front ([sign, 'x'] ++ tail) back) :
    Holds (prose line) (front ++ [sign]) (colored .red ['x'] ++ tail) back := by
  have found : Pattern.unaryOperator.reach? none [sign, 'x'] = some ⟨2, [[sign]]⟩ :=
    unaryOperator_x either []
  have recolors := recolors_of_mem _ (List.mem_of_getElem? next_unaryOperator)
  have replaced := Holds.found recolors solitary_unaryOperator found
    (silent _ (snippet_of_next (by decide) next_unaryOperator)) holds
  have shape : unaryOperator ⟨[sign, 'x'], [[sign]]⟩ ++ tail =
      colored .cyan [sign] ++ (colored .red ['x'] ++ tail) := List.append_assoc ..
  have plain : escape ∉ [sign] := by rcases either with rfl | rfl <;> decide
  rw [← applyAll_next next_unaryOperator] at replaced
  simp only [shape] at replaced
  exact (replaced.last (shows_colored .cyan [sign] plain)).operand (by decide) silent

/-! ### Flags -/

/-- **A flag with a red operand in it is not colored as a whole.** -/
theorem not_holds_flag {early late back' : Text} {groups : List Text}
    (found : Pattern.flag.reach? none (piece ++ back) = some ⟨piece.length, groups⟩)
    (cut : piece = early ++ 'x' :: late)
    (operand : Holds painted (front ++ early) (colored .red ['x']) back') :
    ¬ Holds painted front (colored .cyan piece) back := by
  intro holds
  obtain ⟨name, shape, all, _⟩ := exists_name_of_flag found
  have bare : escape ∉ early := fun member =>
    absurd (all escape (cut ▸ List.mem_append_left _ member)) (by decide)
  cases early with
  | nil => exact absurd (List.cons.inj (cut.symm.trans shape)).1 (by decide)
  | cons d more =>
    obtain ⟨rfl, _⟩ := List.cons.inj (cut.symm.trans shape)
    have plain : Holds painted (front ++ []) piece ([] ++ back) := by
      rw [colored, styled, List.append_assoc] at holds
      exact (holds.last (shows_select (isCode_style _))).first (shows_select isCode_zero)
    rw [List.append_nil, cut] at plain
    exact plain.exclusive (isCode_color .red) operand bare (by decide) (by decide) (by decide)

section

variable {groups : List Text} (clear : escape ∉ front ++ (piece ++ back))
  (single : '\n' ∉ front ++ (piece ++ back))
  (uncovered : Uncovered (front ++ (piece ++ back)) front.length (front.length + piece.length))
  (found : Pattern.flag.reach? none (piece ++ back) = some ⟨piece.length, groups⟩)

include clear single uncovered found

/-- **A flag that no earlier pass touches is colored as a whole.** -/
theorem holds_flag
    (clears : ∀ pattern ∈ [Pattern.unaryOperator, .binaryOperator, .slice],
      pattern.Clears (front ++ (piece ++ back)) front.length (front.length + piece.length))
    {located : Located} (listed : located ∈ Pattern.flag.occurrences (front ++ (piece ++ back)))
    (start : located.start = front.length) :
    Holds (prose (front ++ (piece ++ back))) front (colored .cyan piece) back := by
  obtain ⟨name, shape, all, stops⟩ := exists_name_of_flag found
  have nonempty : piece ≠ [] := by rw [shape]; exact List.cons_ne_nil _ _
  have bare : escape ∉ piece := fun member => absurd (all escape member) (by decide)
  have noPipe : '|' ∉ piece := fun member => absurd (all '|' member) (by decide)
  have operated := @holds_behind_operations front piece [] back clear single nonempty uncovered
    (fun pattern _ => silent_nil pattern)
    fun pattern member => clears pattern (List.mem_append_left [_] member)
  rw [List.append_nil, List.nil_append] at operated
  have piped := @Holds.piped _ _ _ _ "pipeline_operator" noPipe operated
  rw [← applyAll_next next_pipelineOperator] at piped
  have sliced := piped.cleared (by decide) next_slice solitary_slice.steady nonempty bare
    (clears _ (by simp))
  have recolors := recolors_of_mem _ (List.mem_of_getElem? next_flag)
  have avoids : Avoids Pattern.flag escape := avoids_escape _ (snippet_of_next (by decide) next_flag)
  have lifts : Lifts Pattern.flag _ _ :=
    lifts_of_avoids steady_flag recolors.aligned avoids (sliced.shows bare)
  have replaced := sliced.replace recolors steady_flag nonempty bare lifts listed start
    fun after shows => delimited_flag.reach?_of found (shows.stops stops (by decide))
  rw [← applyAll_next next_flag] at replaced
  exact replaced

/-- **A unary operator in a flag keeps a red operand there.** -/
theorem exists_operand_of_sign
    (touched : ¬ Pattern.unaryOperator.Clears (front ++ (piece ++ back)) front.length
      (front.length + piece.length)) :
    ∃ early late, piece = early ++ 'x' :: late ∧
      Holds (prose (front ++ (piece ++ back))) (front ++ early) (colored .red ['x'])
        (late ++ back) := by
  obtain ⟨name, shape, all, _⟩ := exists_name_of_flag found
  obtain ⟨early, late, rfl⟩ := exists_sign_in_flag found touched
  have bare : escape ∉ early ++ (['-', 'x'] ++ late) := fun member =>
    absurd (all escape member) (by decide)
  have spans := @holds_uncovered front _ [] back clear single (by simp) uncovered
    fun pattern _ => silent_nil pattern
  rw [List.mem_append, List.mem_append, not_or, not_or] at bare
  rw [List.append_nil, List.nil_append] at spans
  generalize front ++ (early ++ (['-', 'x'] ++ late) ++ back) = line at spans ⊢
  have sign : Holds _ _ (['-', 'x'] ++ []) _ :=
    (spans.last (shows_plain early bare.1)).first (shows_plain late bare.2.2)
  have operand := sign.sign (Or.inr rfl) fun pass _ => silent_nil pass.pattern
  rw [List.append_nil, List.append_assoc] at operand
  exact ⟨early ++ ['-'], late, by simp, operand⟩

/-- **A binary operation behind a flag keeps a red operand at its end.** -/
theorem exists_operand_of_operation
    (signs : Pattern.unaryOperator.Clears (front ++ (piece ++ back)) front.length
      (front.length + piece.length))
    (touched : ¬ Pattern.binaryOperator.Clears (front ++ (piece ++ back)) front.length
      (front.length + piece.length)) :
    ∃ early late, piece = early ++ 'x' :: late ∧
      Holds (prose (front ++ (piece ++ back))) (front ++ early) (colored .red ['x'])
        (late ++ back) := by
  obtain ⟨early, tail, rest, before, groups, rfl, rfl, here⟩ :=
    exists_operand_of_flag closed_binaryOperator.proper operand_of_binaryOperator found touched
  obtain ⟨operator, _, member, cut, size⟩ := reach?_binaryOperator here
  have same : tail = [' '] ++ operator ++ [' ', 'y'] :=
    (List.cons.inj (occurrence_eq cut size).1).2
  have silent := silent_operation member
  rw [← same] at silent
  have bare : escape ∉ (early ++ ['x']) ++ tail := fun inside =>
    clear (List.mem_append_right _ (List.append_assoc _ tail rest ▸ List.mem_append_left _ inside))
  have signed := holds_behind_signs clear single (by simp) uncovered
    (fun pattern one => silent pattern (List.mem_append_left [_, _, _, _] one)) signs
  have whole := closed_binaryOperator.reach?_of here none []
  rw [List.append_nil] at whole
  have operand := signed.operand_found (by decide) next_binaryOperator solitary_binaryOperator whole
    (binaryOperator_begins _) bare
  exact ⟨early, [], rfl, operand⟩

/-- **A slice behind a flag keeps a red operand at its end.** -/
theorem exists_operand_of_slice
    (clears : ∀ pattern ∈ [Pattern.unaryOperator, .binaryOperator],
      pattern.Clears (front ++ (piece ++ back)) front.length (front.length + piece.length))
    (touched : ¬ Pattern.slice.Clears (front ++ (piece ++ back)) front.length
      (front.length + piece.length)) :
    ∃ early late, piece = early ++ 'x' :: late ∧
      Holds (prose (front ++ (piece ++ back))) (front ++ early) (colored .red ['x'])
        (late ++ back) := by
  obtain ⟨_, _, all, _⟩ := exists_name_of_flag found
  obtain ⟨early, tail, rest, before, groups, rfl, rfl, here⟩ :=
    exists_operand_of_flag closed_slice.proper operand_of_slice found touched
  obtain ⟨inside, _, _, letters, cut, size⟩ := reach?_slice here
  have same : tail = ['['] ++ inside ++ [']'] := (List.cons.inj (occurrence_eq cut size).1).2
  have silent := silent_index letters
  rw [← same] at silent
  have bare : escape ∉ (early ++ ['x']) ++ tail := fun inside =>
    clear (List.mem_append_right _ (List.append_assoc _ tail rest ▸ List.mem_append_left _ inside))
  have noPipe : '|' ∉ (early ++ ['x']) ++ tail := by
    have outside : '|' ∉ inside := fun member => absurd (letters '|' member) (by decide)
    rw [List.mem_append, not_or, same]
    exact ⟨fun member => absurd (all '|' member) (by decide), by simp [outside]⟩
  have operated := holds_behind_operations clear single (by simp) uncovered
    (fun pattern one => silent pattern (List.mem_append_left [_] one)) clears
  have piped := @Holds.piped _ _ _ _ "pipeline_operator" noPipe operated
  rw [← applyAll_next next_pipelineOperator] at piped
  have whole := closed_slice.reach?_of here none []
  rw [List.append_nil] at whole
  have operand := piped.operand_found (by decide) next_slice solitary_slice whole
    (slice_begins _) bare
  exact ⟨early, [], rfl, operand⟩

/-- **A flag is colored as a whole exactly when no earlier pass touches it.** -/
theorem holds_flag_iff {located : Located}
    (listed : located ∈ Pattern.flag.occurrences (front ++ (piece ++ back)))
    (start : located.start = front.length) :
    Holds (prose (front ++ (piece ++ back))) front (colored .cyan piece) back ↔
      ∀ pattern ∈ [Pattern.unaryOperator, .binaryOperator, .slice],
        pattern.Clears (front ++ (piece ++ back)) front.length (front.length + piece.length) := by
  refine ⟨fun holds => ?_, fun clears =>
    holds_flag clear single uncovered found clears listed start⟩
  have untouched {early late : Text} (cut : piece = early ++ 'x' :: late) :
      ¬ Holds (prose (front ++ (piece ++ back))) (front ++ early) (colored .red ['x'])
        (late ++ back) := fun operand => not_holds_flag found cut operand holds
  have signs : Pattern.unaryOperator.Clears (front ++ (piece ++ back)) front.length
      (front.length + piece.length) := by
    by_contra touched
    obtain ⟨early, late, cut, operand⟩ :=
      exists_operand_of_sign clear single uncovered found touched
    exact untouched cut operand
  have operations : Pattern.binaryOperator.Clears (front ++ (piece ++ back)) front.length
      (front.length + piece.length) := by
    by_contra touched
    obtain ⟨early, late, cut, operand⟩ :=
      exists_operand_of_operation clear single uncovered found signs touched
    exact untouched cut operand
  have both : ∀ pattern ∈ [Pattern.unaryOperator, .binaryOperator],
      pattern.Clears (front ++ (piece ++ back)) front.length (front.length + piece.length) := by
    simp [signs, operations]
  have slices : Pattern.slice.Clears (front ++ (piece ++ back)) front.length
      (front.length + piece.length) := by
    by_contra touched
    obtain ⟨early, late, cut, operand⟩ :=
      exists_operand_of_slice clear single uncovered found both touched
    exact untouched cut operand
  simp [signs, operations, slices]

end

/-! ### Operations -/

/-- What stands between the first sequence of a colored operation and the last one. -/
def operationInside (operator : Text) : Text :=
  ['x'] ++ reset ++ [' '] ++ colored .cyan operator ++ [' '] ++ select Color.red.code ++ ['y']

theorem binaryOperator_eq (lexeme operator : Text) :
    binaryOperator ⟨lexeme, [operator]⟩ =
      select Color.red.code ++ (operationInside operator ++ (select ['0'] ++ [])) := by
  simp [binaryOperator, operationInside, colored, styled, reset, Style.code, Match.group]

/-- The passes behind find nothing there. -/
theorem apply_operationInside : ∀ pass ∈ prosePasses.drop 5, ∀ operator ∈ binaryOperators,
    pass.apply (operationInside operator) = operationInside operator := by decide +kernel

/-- **An operation whose operator follows the operand in plain text is not colored as a whole.** -/
theorem not_holds_of_operand {operator back' : Text} (member : operator ∈ binaryOperators)
    (operand : Holds painted front (colored .red ['x'] ++ ([' '] ++ operator ++ [' ', 'y'])) back) :
    ¬ Holds painted front (binaryOperator ⟨piece, [operator]⟩) back' := by
  intro holds
  have some_operator : ∀ operator ∈ binaryOperators, operator ≠ [] := by decide
  have bare := escape_not_mem_binaryOperator member
  obtain ⟨c, more, rfl⟩ := List.exists_cons_of_ne_nil (some_operator operator member)
  have plain : c ≠ escape := fun same => bare (same ▸ List.mem_cons_self ..)
  have red := shows_colored .red ['x'] (by decide)
  have inside : Holds _ _ (([' '] : Text) ++ c :: (more ++ [' ', 'y'])) back := operand.last red
  have shape : binaryOperator ⟨piece, [c :: more]⟩ = colored .red ['x'] ++ ([' '] ++
      (select Color.cyan.code ++ c :: (more ++ reset ++ [' '] ++ colored .red ['y']))) := by
    simp [binaryOperator, colored, styled, Style.code, Match.group]
  rw [shape] at holds
  exact inside.exclusive (isCode_color .cyan)
    ((holds.last red).last (shows_plain [' '] (by decide))) (by decide) (by decide) plain plain

section

variable {groups : List Text} (clear : escape ∉ front ++ (piece ++ back))
  (single : '\n' ∉ front ++ (piece ++ back))
  (uncovered : Uncovered (front ++ (piece ++ back)) front.length (front.length + piece.length))
  (found : Pattern.binaryOperator.reach? none (piece ++ back) = some ⟨piece.length, groups⟩)

include clear single uncovered found

/-- **A binary operation that no unary operator touches is colored as a whole.** -/
theorem holds_operation
    (clears : Pattern.unaryOperator.Clears (front ++ (piece ++ back)) front.length
      (front.length + piece.length)) :
    Holds (prose (front ++ (piece ++ back))) front (binaryOperator ⟨piece, groups⟩) back := by
  have whole := closed_binaryOperator.reach?_of found none []
  rw [List.append_nil] at whole
  obtain ⟨operator, _, member, cut, size⟩ := reach?_binaryOperator found
  obtain ⟨shape, rfl⟩ := occurrence_eq cut size
  have nonempty : piece ≠ [] := by rw [shape]; exact List.cons_ne_nil _ _
  have signed := @holds_behind_signs front piece [] back clear single nonempty uncovered
    (fun pattern _ => silent_nil pattern) clears
  rw [List.nil_append] at signed
  have recolors := recolors_of_mem _ (List.mem_of_getElem? next_binaryOperator)
  have replaced := Holds.found recolors solitary_binaryOperator whole (silent_nil _) signed
  rw [← applyAll_next next_binaryOperator, List.append_nil] at replaced
  have snippets : prosePasses.drop 5 ⊆ prosePasses.drop 3 :=
    List.drop_subset_drop_left _ (by decide)
  simp only [binaryOperator_eq] at replaced ⊢
  rw [prose_eq 5]
  exact replaced.applyAll snippets (isCode_color .red) isCode_zero
    (fun pass one => apply_operationInside pass one operator member)
    fun pass _ => silent_nil pass.pattern

/-- **A sign before a binary operation keeps its first operand apart.** -/
theorem not_holds_operation
    (touched : ¬ Pattern.unaryOperator.Clears (front ++ (piece ++ back)) front.length
      (front.length + piece.length)) :
    ¬ Holds (prose (front ++ (piece ++ back))) front (binaryOperator ⟨piece, groups⟩) back := by
  obtain ⟨first, sign, rfl, either⟩ := exists_sign_before_operation found touched
  obtain ⟨operator, _, member, cut, size⟩ := reach?_binaryOperator found
  obtain ⟨rfl, rfl⟩ := occurrence_eq cut size
  have absent := occurrences_sectionHeader single (List.cons_ne_nil _ _) (uncovered _ (by simp))
  have clears := clears_with_sign either fun pattern one => uncovered pattern (by
    simp only [List.mem_cons, List.not_mem_nil, or_false] at one ⊢
    rcases one with rfl | rfl <;> simp)
  rw [List.append_assoc first] at clear single absent clears ⊢
  have spans := @holds_spans first ([sign, 'x'] ++ ([' '] ++ operator ++ [' ', 'y'])) back
    clear single (List.cons_ne_nil _ _) absent clears
  exact not_holds_of_operand member (spans.sign either (silent_snippets member))

end

/-! ### All flags and operations of a line -/

/-- The text that an occurrence covers. -/
def covered (line : Text) (found : Located) : Text := (line.take found.stop).drop found.start

/-- **When flags and binary operations are colored as a whole.** A flag outside of quotes, headers and
addresses stands between cyan and a reset, with the rest of the line shown around it, exactly when no
unary operator, binary operation or slice of the line overlaps it; and a binary operation there is
written as its pass writes it exactly when no unary operator does. -/
theorem prose_colors_whole_iff (line : Text) (clear : escape ∉ line) (single : '\n' ∉ line) :
    (∀ found ∈ Pattern.flag.occurrences line, Uncovered line found.start found.stop →
      (Holds (prose line) (line.take found.start) (colored .cyan (covered line found))
          (line.drop found.stop) ↔
        ∀ pattern ∈ [Pattern.unaryOperator, .binaryOperator, .slice],
          pattern.Clears line found.start found.stop)) ∧
      ∀ found ∈ Pattern.binaryOperator.occurrences line, Uncovered line found.start found.stop →
        (Holds (prose line) (line.take found.start)
            (binaryOperator ⟨covered line found, found.groups⟩) (line.drop found.stop) ↔
          Pattern.unaryOperator.Clears line found.start found.stop) := by
  have parts (first lexeme rest : Text) {found : Located} (start : found.start = first.length)
      (stop : found.stop = first.length + lexeme.length) :
      (first ++ (lexeme ++ rest)).take found.start = first ∧
        (first ++ (lexeme ++ rest)).drop found.stop = rest ∧
        covered (first ++ (lexeme ++ rest)) found = lexeme := by
    rw [covered, start, stop, ← List.append_assoc, ← List.length_append, List.drop_left,
      List.take_left, List.drop_left, List.append_assoc, List.take_left]
    exact ⟨rfl, rfl, rfl⟩
  constructor
  · intro found listed uncovered
    obtain ⟨first, lexeme, rest, _, rfl, here, start, stop⟩ :=
      steady_flag.toProper.exists_of_mem_occurrences listed
    obtain ⟨before, behind, inside⟩ := parts first lexeme rest start stop
    rw [start, stop] at uncovered
    rw [before, behind, inside, start, stop]
    exact holds_flag_iff clear single uncovered here listed start
  · intro found listed uncovered
    obtain ⟨first, lexeme, rest, _, rfl, here, start, stop⟩ :=
      closed_binaryOperator.proper.exists_of_mem_occurrences listed
    obtain ⟨before, behind, inside⟩ := parts first lexeme rest start stop
    rw [closed_binaryOperator.forward] at here
    rw [start, stop] at uncovered
    rw [before, behind, inside, start, stop]
    refine ⟨fun holds => ?_, holds_operation clear single uncovered here⟩
    by_contra touched
    exact not_holds_operation clear single uncovered here touched holds

/-- A flag that is colored as a whole, and an operation behind a sign, which is not. -/
def mixedLine : Text := "sort --max -x + y".toList

theorem prose_colors_whole_iff_mixedLine :
    (escape ∉ mixedLine ∧ '\n' ∉ mixedLine) ∧
      Holds (prose mixedLine) "sort ".toList (colored .cyan "--max".toList) " -x + y".toList ∧
      ¬ Holds (prose mixedLine) "sort --max -".toList
        (binaryOperator ⟨"x + y".toList, ["+".toList]⟩) [] := by
  have clear : escape ∉ mixedLine ∧ '\n' ∉ mixedLine := by decide
  obtain ⟨flags, operations⟩ := prose_colors_whole_iff mixedLine clear.1 clear.2
  have flag : (⟨5, 10, []⟩ : Located) ∈ Pattern.flag.occurrences mixedLine :=
    List.mem_cons_self ..
  have operation : (⟨12, 17, ["+".toList]⟩ : Located) ∈
      Pattern.binaryOperator.occurrences mixedLine := List.mem_cons_self ..
  refine ⟨clear, (flags _ flag (by decide)).mpr (by decide), fun holds => ?_⟩
  have untouched := (operations _ operation (by decide)).mp holds
  exact absurd untouched (by decide)

/-- A flag whose name begins with an `x`. -/
def hiddenFlag : Text := "use --xan here".toList

/-- The sign and the `x` of the flag are colored as a unary operator, and the flag stays in pieces. -/
theorem hiddenFlag_in_pieces :
    escape ∉ hiddenFlag ∧ '\n' ∉ hiddenFlag ∧
      ∃ found ∈ Pattern.flag.occurrences hiddenFlag, Uncovered hiddenFlag found.start found.stop ∧
        covered hiddenFlag found = "--xan".toList ∧
        ¬ Holds (prose hiddenFlag) (hiddenFlag.take found.start)
          (colored .cyan (covered hiddenFlag found)) (hiddenFlag.drop found.stop) := by
  refine ⟨by decide, by decide, ⟨4, 9, []⟩, List.mem_cons_self .., by decide, by decide, ?_⟩
  rintro ⟨before, after, whole, _, _⟩
  rw [← List.append_assoc] at whole
  have occurs := occursIn_iff.mpr ⟨before, after, whole⟩
  exact absurd occurs (by decide)

end Handbook.Colorize
