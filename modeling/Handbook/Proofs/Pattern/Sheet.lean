/-
**Where the patterns of cheatsheets occur.**

For numbers, for links in lists and for fenced code: the text that an occurrence covers, what stands
behind it, and its group. Comments are whole lines, so a pass over comments takes each line by
itself. Numbers stand on one line as well.

* `linewise_number`: numbers are looked for line by line;
* `reach?_codeFence`, `codeFence_block`: a block of code goes up to the next backtick;
* `reach?_comment`: a comment occurs at the start of a line that is a comment, and covers it;
* `linewise_comment`: comments are looked for line by line;
* `replaceAll_comment`: a pass over comments replaces a line as a whole or leaves it.
-/

import Mathlib.Data.List.Basic
import Handbook.Pattern.Sheet
import Handbook.Proofs.Pattern.Prose
import Handbook.Proofs.Terminal.Sweep

namespace Handbook.Pattern

open Terminal Text Unicode

variable {before : Option Char} {text : Text} {reach : Reach}

/-! ### Numbers -/

theorem numberTail?_cut {last : Char} {size : Nat} (found : numberTail? last text = some size) :
    ∃ tail rest, (∀ c ∈ tail, isNumberChar c = true) ∧ text = tail ++ rest ∧ size = tail.length := by
  have none {text : Text} {size : Nat} (ends : 0 = size) :
      ∃ tail rest, (∀ c ∈ tail, isNumberChar c = true) ∧ text = tail ++ rest ∧ size = tail.length :=
    ⟨[], text, fun c member => absurd member List.not_mem_nil, rfl, ends.symm⟩
  induction text generalizing last size with
  | nil =>
    simp only [numberTail?, Option.ite_none_right_eq_some, Option.some.injEq] at found
    exact none found.2
  | cons c rest step =>
    simp only [numberTail?, Option.or_eq_some_iff, Option.ite_none_right_eq_some,
      Option.map_eq_some_iff, Option.some.injEq] at found
    rcases found with ⟨isDigit, fewer, longer, rfl⟩ | ⟨_, _, ends⟩
    · obtain ⟨tail, others, inside, rfl, rfl⟩ := step longer
      refine ⟨c :: tail, others, fun d member => ?_, rfl, rfl⟩
      exact (List.mem_cons.mp member).elim (fun same => same ▸ isDigit) (inside d)
    · exact none ends

theorem numberSize?_cut {size : Nat} (found : numberSize? text = some size) :
    ∃ digits rest, digits ≠ [] ∧ (∀ c ∈ digits, isNumberChar c = true) ∧ text = digits ++ rest ∧
      size = digits.length := by
  cases text with
  | nil => simp [numberSize?] at found
  | cons c rest =>
    simp only [numberSize?, Option.ite_none_right_eq_some, Option.map_eq_some_iff] at found
    obtain ⟨digit, fewer, longer, rfl⟩ := found
    obtain ⟨tail, others, inside, rfl, rfl⟩ := numberTail?_cut longer
    refine ⟨c :: tail, others, List.cons_ne_nil _ _, fun d member => ?_, rfl, rfl⟩
    rcases List.mem_cons.mp member with rfl | later
    · simp [isNumberChar, digit]
    · exact inside d later

theorem reach?_number (found : number.reach? before text = some reach) :
    ∃ lexeme rest, lexeme ≠ [] ∧ (∀ c ∈ lexeme, c = '-' ∨ isNumberChar c = true) ∧
      text = lexeme ++ rest ∧ reach = ⟨lexeme.length, []⟩ := by
  simp only [number, Option.ite_none_right_eq_some] at found
  obtain ⟨_, found⟩ := found
  split at found
  · rename_i rest
    obtain ⟨size, sized, rfl⟩ := Option.map_eq_some_iff.mp found
    obtain ⟨digits, others, _, inside, rfl, rfl⟩ := numberSize?_cut sized
    refine ⟨'-' :: digits, others, List.cons_ne_nil _ _, fun c member => ?_, rfl, rfl⟩
    exact (List.mem_cons.mp member).imp id (inside c)
  · obtain ⟨size, sized, rfl⟩ := Option.map_eq_some_iff.mp found
    obtain ⟨digits, others, nonempty, inside, rfl, rfl⟩ := numberSize?_cut sized
    exact ⟨digits, others, nonempty, fun c member => Or.inr (inside c member), rfl, rfl⟩

theorem proper_number : number.Proper where
  positive := by
    intro before text reach found
    obtain ⟨lexeme, rest, nonempty, _, _, rfl⟩ := reach?_number found
    exact List.length_pos_iff.mpr nonempty
  within := by
    intro before text reach found
    obtain ⟨lexeme, rest, _, _, rfl, rfl⟩ := reach?_number found
    rw [List.length_append]
    exact Nat.le_add_right _ _

/-- A line feed ends a number as the end of the text does. -/
theorem numberTail?_lineFeed {last : Char} {line : Text} (single : '\n' ∉ line) (rest : Text) :
    numberTail? last (line ++ '\n' :: rest) = numberTail? last line := by
  induction line generalizing last with
  | nil =>
    have ends : isNumberChar '\n' = false := by decide
    have boundary : isWordBoundary (some last) (some '\n') = isWordBoundary (some last) none := rfl
    simp [numberTail?, ends, boundary]
  | cons c others step =>
    rw [List.mem_cons, not_or] at single
    rw [List.cons_append, numberTail?, numberTail?, step single.2]

theorem numberSize?_lineFeed {line : Text} (single : '\n' ∉ line) (rest : Text) :
    numberSize? (line ++ '\n' :: rest) = numberSize? line := by
  cases line with
  | nil => rfl
  | cons c others =>
    rw [List.mem_cons, not_or] at single
    rw [List.cons_append, numberSize?, numberSize?, numberTail?_lineFeed single.2]

/-- **Numbers are looked for line by line.** -/
theorem linewise_number : number.Linewise where
  toProper := proper_number
  lineFeed := by
    intro before rest
    have absent : numberSize? ('\n' :: rest) = none := rfl
    simp [number, absent]
  start := fun _ => rfl
  line := by
    intro before line rest nonempty single
    cases line with
    | nil => exact absurd rfl nonempty
    | cons c others =>
      have behind : '\n' ∉ others := fun member => single (List.mem_cons_of_mem _ member)
      have whole := numberSize?_lineFeed single rest
      rw [List.cons_append] at whole ⊢
      by_cases minus : c = '-'
      · simp [number, minus, numberSize?_lineFeed behind]
      · simp [number, minus, whole]

/-! ### Links and code -/

theorem reach?_listLink (found : listLink.reach? before text = some reach) :
    ∃ label target rest, (∀ c ∈ label, c ≠ ']') ∧
      text = ("- [".toList ++ label ++ ("](#".toList ++ target) ++ [')']) ++ rest ∧
      reach = ⟨("- [".toList ++ label ++ ("](#".toList ++ target) ++ [')']).length, [label]⟩ := by
  simp only [listLink, Option.bind_eq_bind, Option.bind_eq_some_iff, Option.ite_none_right_eq_some,
    List.isPrefixOf?_eq_some_iff_append_eq, Bool.and_eq_true, beq_iff_eq, Option.some.injEq] at found
  obtain ⟨behind, opening, others, middle, ⟨_, closing⟩, size⟩ := found
  obtain ⟨rest, tail⟩ := List.head?_eq_some_iff.mp closing
  refine ⟨behind.takeWhile (· != ']'), others.takeWhile (· != ')'), rest, ?_, ?_, ?_⟩
  · intro c member
    simpa using of_mem_takeWhile member
  · have cut : "](#".toList ++ (others.takeWhile (· != ')') ++ ([')'] ++ rest)) =
        behind.dropWhile (· != ']') := by
      rw [List.singleton_append, ← tail, List.takeWhile_append_dropWhile, middle]
    rw [List.append_assoc, List.append_assoc, List.append_assoc, List.append_assoc, cut,
      List.takeWhile_append_dropWhile, opening]
  · rw [← size]
    simp
    omega

theorem reach?_codeFence (found : codeFence.reach? before text = some reach) :
    ∃ language code rest, language ∈ fenceLanguages ∧ '\x60' ∉ code ∧
      text = (fence ++ language ++ '\n' :: code ++ fence) ++ rest ∧
      reach = ⟨(fence ++ language ++ '\n' :: code ++ fence).length, ['\n' :: code]⟩ := by
  simp only [codeFence, Option.bind_eq_bind, Option.bind_eq_some_iff,
    List.isPrefixOf?_eq_some_iff_append_eq] at found
  obtain ⟨behind, opening, language, chosen, found⟩ := found
  have starts := List.find?_some chosen
  obtain ⟨others, rfl⟩ := List.isPrefixOf_iff_prefix.mp starts
  rw [List.drop_left] at found
  split at found
  · rename_i body
    simp only [Option.ite_none_right_eq_some, Bool.and_eq_true, Option.some.injEq] at found
    obtain ⟨⟨_, closing⟩, size⟩ := found
    obtain ⟨rest, tail⟩ := List.isPrefixOf_iff_prefix.mp closing
    refine ⟨language, body.takeWhile (· != '\x60'), rest, List.mem_of_find?_eq_some chosen, ?_, ?_, ?_⟩
    · exact fun member => absurd (of_mem_takeWhile member) (by decide)
    · rw [List.append_assoc, List.append_assoc, List.cons_append, List.append_assoc, tail,
        List.takeWhile_append_dropWhile, opening]
    · rw [← size]
      simp [fence]
      omega
  · simp at found

/-- **A fenced stretch without backticks is a block of code.** -/
theorem codeFence_block {language code : Text} (tagged : language ∈ fenceLanguages)
    (nonempty : code ≠ []) (plain : '\x60' ∉ code) (rest : Text) :
    codeFence.reach? before ((fence ++ language ++ '\n' :: code ++ fence) ++ rest) =
      some ⟨(fence ++ language ++ '\n' :: code ++ fence).length, ['\n' :: code]⟩ := by
  have all : ∀ c ∈ code, (c != '\x60') = true := fun c member => by
    rw [bne_iff_ne]
    exact fun same => plain (same ▸ member)
  have stops : Stops (· != '\x60') (fence ++ rest) := stops_cons (by decide) _
  have chosen : fenceLanguages.find? (·.isPrefixOf (language ++ '\n' :: (code ++ (fence ++ rest)))) =
      some language := @find?_isPrefixOf fenceLanguages id (by decide) language tagged _
  have opening : fence.isPrefixOf? (fence ++ (language ++ '\n' :: (code ++ (fence ++ rest)))) =
      some (language ++ '\n' :: (code ++ (fence ++ rest))) :=
    List.isPrefixOf?_eq_some_iff_append_eq.mpr rfl
  have closing : fence.isPrefixOf (fence ++ rest) = true :=
    List.isPrefixOf_iff_prefix.mpr (List.prefix_append _ _)
  simp only [codeFence, Option.bind_eq_bind, List.append_assoc, List.cons_append, opening,
    Option.bind_some, chosen, List.drop_left]
  rw [takeWhile_cut all stops, dropWhile_cut all stops, closing]
  simp [nonempty, fence]
  omega

/-! ### Comments -/

/-- What can stand between the margin of a comment and its number sign: nothing, or a sequence that
sets colors. -/
def IsPaint (paint : Text) : Prop :=
  paint = [] ∨ ∃ parameters : Text, (∀ c ∈ parameters, isColorParameter c = true) ∧
    paint = select parameters

/-- A line that is a comment. -/
def IsComment (line : Text) : Prop :=
  ∃ paint words, IsPaint paint ∧ words ≠ [] ∧ line = commentMargin ++ paint ++ '#' :: words

theorem IsPaint.size {paint : Text} (isPaint : IsPaint paint) (rest : Text) :
    (colorSequenceSize? (paint ++ '#' :: rest)).getD 0 = paint.length := by
  rcases isPaint with rfl | ⟨parameters, all, rfl⟩
  · rw [List.nil_append, colorSequenceSize?_other (by decide)]
    rfl
  · rw [colorSequenceSize?_parameters all]
    rfl

theorem IsPaint.of_mem {paint : Text} (isPaint : IsPaint paint) {c : Char} (member : c ∈ paint) :
    c = escape ∨ c = '[' ∨ isColorParameter c = true ∨ c = 'm' := by
  rcases isPaint with rfl | ⟨parameters, all, rfl⟩
  · exact absurd member List.not_mem_nil
  · simp only [select, List.cons_append, List.nil_append, List.mem_cons, List.mem_append,
      List.not_mem_nil, or_false] at member
    rcases member with first | bracket | inside | letter
    · exact Or.inl first
    · exact Or.inr (Or.inl bracket)
    · exact Or.inr (Or.inr (Or.inl (all c inside)))
    · exact Or.inr (Or.inr (Or.inr letter))

theorem IsPaint.lineFeed_not_mem {paint : Text} (isPaint : IsPaint paint) : '\n' ∉ paint :=
  fun member => absurd (isPaint.of_mem member) (by decide)

/-- A color sequence that a text begins with, or nothing, is cut off. -/
theorem exists_paint (text : Text) :
    ∃ paint rest, IsPaint paint ∧ text = paint ++ rest ∧
      (colorSequenceSize? text).getD 0 = paint.length := by
  cases sized : colorSequenceSize? text with
  | none => exact ⟨[], text, Or.inl rfl, rfl, rfl⟩
  | some size =>
    obtain ⟨parameters, rest, all, cut, length⟩ := colorSequenceSize?_eq_some sized
    exact ⟨select parameters, rest, Or.inr ⟨parameters, all, rfl⟩, cut, length⟩

theorem restOfLine_append {line : Text} (single : '\n' ∉ line) (rest : Text) :
    restOfLine (line ++ rest) = line ++ restOfLine rest :=
  List.takeWhile_append_of_pos fun c member => by
    rw [bne_iff_ne]
    exact fun same => single (same ▸ member)

/-- **A comment occurs at the start of a line that is a comment, and covers it.** -/
theorem reach?_comment :
    comment.reach? before text = some reach ↔
      startsLine before = true ∧ IsComment (restOfLine text) ∧
        reach = ⟨(restOfLine text).length, []⟩ := by
  constructor
  · intro found
    simp only [comment, Option.bind_eq_bind, Option.bind_eq_some_iff,
      List.isPrefixOf?_eq_some_iff_append_eq] at found
    obtain ⟨behind, rfl, found⟩ := found
    obtain ⟨paint, others, isPaint, rfl, size⟩ := exists_paint behind
    rw [size, List.drop_left] at found
    split at found
    · rename_i after
      simp only [Option.ite_none_right_eq_some, Bool.and_eq_true, Bool.not_eq_true',
        List.isEmpty_eq_false_iff, Option.some.injEq] at found
      obtain ⟨⟨starts, nonempty⟩, same⟩ := found
      have line : restOfLine (commentMargin ++ (paint ++ '#' :: after)) =
          commentMargin ++ paint ++ '#' :: restOfLine after := by
        rw [restOfLine_append (by decide), restOfLine_append isPaint.lineFeed_not_mem,
          List.append_assoc]
        rfl
      refine ⟨starts, ⟨paint, restOfLine after, isPaint, nonempty, line⟩, ?_⟩
      rw [line, ← same]
      simp
      omega
    · simp at found
  · rintro ⟨starts, ⟨paint, words, isPaint, nonempty, line⟩, rfl⟩
    have whole : restOfLine text ++ text.dropWhile (· != '\n') = text :=
      List.takeWhile_append_dropWhile
    have cut : commentMargin ++ (paint ++ '#' :: (words ++ text.dropWhile (· != '\n'))) = text := by
      rw [line, List.append_assoc, List.append_assoc] at whole
      exact whole
    have inside : ∀ c ∈ words, (c != '\n') = true := by
      intro c member
      have inLine : c ∈ restOfLine text := by
        rw [line]
        exact List.mem_append_right _ (List.mem_cons_of_mem _ member)
      exact @of_mem_takeWhile Char (· != '\n') text c inLine
    have rest : restOfLine (words ++ text.dropWhile (· != '\n')) = words :=
      takeWhile_cut inside (stops_dropWhile _ _)
    rw [line]
    simp only [comment, Option.bind_eq_bind, List.isPrefixOf?_eq_some_iff_append_eq.mpr cut,
      Option.bind_some, isPaint.size, List.drop_left, rest, starts]
    simp [nonempty]
    omega

/-- **Comments are looked for line by line.** -/
theorem linewise_comment : comment.Linewise where
  positive := by
    intro before text reach found
    obtain ⟨_, ⟨_, _, _, _, line⟩, rfl⟩ := reach?_comment.mp found
    rw [line]
    simp only [List.length_append, List.length_cons]
    omega
  within := by
    intro before text reach found
    obtain ⟨_, _, rfl⟩ := reach?_comment.mp found
    exact (List.takeWhile_prefix _).length_le
  lineFeed := by
    intro before rest
    cases found : comment.reach? before ('\n' :: rest) with
    | none => rfl
    | some reach =>
      obtain ⟨_, ⟨_, _, _, _, line⟩, _⟩ := reach?_comment.mp found
      simp [restOfLine, commentMargin] at line
  start := fun text => by
    ext reach
    rw [reach?_comment, reach?_comment]
    rfl
  line := by
    intro before line rest _ single
    have same : restOfLine (line ++ '\n' :: rest) = restOfLine line := by
      rw [restOfLine_append single, ← List.append_nil line, restOfLine_append single]
      simp [restOfLine]
    ext reach
    rw [reach?_comment, reach?_comment, same]

theorem restOfLine_of_not_mem {line : Text} (single : '\n' ∉ line) : restOfLine line = line := by
  rw [← List.append_nil line, restOfLine_append single]
  rfl

/-- Behind the start of a line no comment begins. -/
theorem replaceFrom_comment {replace : Match → Text} {before : Char} {line : Text}
    (inside : before ≠ '\n') (single : '\n' ∉ line) :
    comment.replaceFrom replace (some before) line = line := by
  induction line generalizing before with
  | nil => exact replaceFrom_nil linewise_comment.toProper _
  | cons c rest step =>
    rw [List.mem_cons, not_or] at single
    have absent : comment.reach? (some before) (c :: rest) = none := by
      cases found : comment.reach? (some before) (c :: rest) with
      | none => rfl
      | some reach =>
        have starts := (reach?_comment.mp found).1
        simp [startsLine, inside] at starts
    rw [replaceFrom_plain absent, step (Ne.symm single.1) single.2]

/-- **A pass over comments replaces a line that is a comment as a whole.** -/
theorem replaceAll_comment {replace : Match → Text} {line : Text} (single : '\n' ∉ line)
    (isComment : IsComment line) : comment.replaceAll replace line = replace ⟨line, []⟩ := by
  have nonempty : line ≠ [] := by
    obtain ⟨_, _, _, _, rfl⟩ := isComment
    simp [commentMargin]
  have found : comment.reach? none (line ++ []) = some ⟨line.length, []⟩ := by
    rw [reach?_comment, List.append_nil, restOfLine_of_not_mem single]
    exact ⟨rfl, isComment, rfl⟩
  rw [replaceAll_eq, ← List.append_nil line, replaceFrom_found nonempty found,
    replaceFrom_nil linewise_comment.toProper]
  simp

/-- **It leaves any other line.** -/
theorem replaceAll_comment_other {replace : Match → Text} {line : Text} (single : '\n' ∉ line)
    (other : ¬ IsComment line) : comment.replaceAll replace line = line := by
  cases line with
  | nil => exact replaceFrom_nil linewise_comment.toProper _
  | cons c rest =>
    have absent : comment.reach? none (c :: rest) = none := by
      cases found : comment.reach? none (c :: rest) with
      | none => rfl
      | some reach =>
        have isComment := (reach?_comment.mp found).2.1
        rw [restOfLine_of_not_mem single] at isComment
        exact absurd isComment other
    rw [List.mem_cons, not_or] at single
    rw [replaceAll_eq, replaceFrom_plain absent, replaceFrom_comment (Ne.symm single.1) single.2]

end Handbook.Pattern
