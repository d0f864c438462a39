/-
**Numerals between words.**

A numeral in a cheatsheet is colored before the prose is. It goes up to the blank behind it, and the
pattern asks for a word boundary before it. Between a blank and a minus there is none, so the minus
of a signed numeral stays plain and only the digits behind it are colored. No later pass finds
anything in what is then written.

* `IsMagnitude.reach?_number`: behind a character outside of words a numeral is taken whole;
* `reach?_number_minus`: a minus there begins no number;
* `Standalone.number_eq`: the pass over numbers colors what stands behind the sign;
* `Standalone.idle_marked` to `Standalone.idle_comment`: the later passes leave the text;
* `cheatsheet_numeral_iff`: a numeral is one span of color exactly when it has no sign.
-/

import Handbook.Proofs.Colorize.Block

namespace Handbook.Pattern

open Text Unicode

/-- One or more digits. -/
def IsDigits (run : Text) : Prop := run ≠ [] ∧ run.all Char.isDigit = true

instance (run : Text) : Decidable (IsDigits run) :=
  inferInstanceAs (Decidable (_ ∧ _))

/-- A numeral without a sign: digits, and any number of groups that are a dot or an underscore and
more digits. -/
inductive IsMagnitude : Text → Prop where
  | digits {run} : IsDigits run → IsMagnitude run
  | group {front mark run} : IsMagnitude front → mark = '.' ∨ mark = '_' → IsDigits run →
      IsMagnitude (front ++ mark :: run)

/-- A numeral: without a sign, or behind a minus. -/
def IsNumeral (numeral : Text) : Prop :=
  IsMagnitude numeral ∨ ∃ magnitude, IsMagnitude magnitude ∧ numeral = '-' :: magnitude

/-! ### What a numeral is made of -/

variable {magnitude : Text}

/-- What holds of the ten digits holds of every digit. -/
theorem of_isDigit {test : Char → Bool}
    (each : ∀ place < 10, test (Char.ofNat (48 + place)) = true) {c : Char}
    (digit : c.isDigit = true) : test c = true := by
  simp only [Char.isDigit, Bool.and_eq_true, decide_eq_true_eq] at digit
  have low : 48 ≤ c.toNat := UInt32.le_iff_toNat_le.mp digit.1
  have high : c.toNat ≤ 57 := UInt32.le_iff_toNat_le.mp digit.2
  have code : 48 + (c.toNat - 48) = c.toNat := by omega
  have holds := each (c.toNat - 48) (by omega)
  rwa [code, Char.ofNat_toNat] at holds

theorem isWord_of_isDigit {c : Char} (digit : c.isDigit = true) : isWord c = true :=
  of_isDigit (by decide +kernel) digit

theorem isDigit_eq_false_of_isAlpha {c : Char} (letter : c.isAlpha = true) : c.isDigit = false := by
  rw [Bool.eq_false_iff]
  intro digit
  have other : (!c.isAlpha) = true := @of_isDigit (!·.isAlpha) (by decide) c digit
  rw [letter] at other
  exact absurd other (by decide)

theorem IsDigits.isDigit_of_mem {run : Text} (isDigits : IsDigits run) :
    ∀ c ∈ run, c.isDigit = true :=
  List.all_eq_true.mp isDigits.2

theorem IsDigits.lastChar {run : Text} (isDigits : IsDigits run) (before : Option Char) :
    (lastChar before run).any isWord = true := by
  rw [Pattern.lastChar, List.getLast?_eq_some_getLast isDigits.1]
  exact isWord_of_isDigit (isDigits.isDigit_of_mem _ (List.getLast_mem isDigits.1))

theorem IsMagnitude.isNumberChar_of_mem (isMagnitude : IsMagnitude magnitude) :
    ∀ c ∈ magnitude, isNumberChar c = true := by
  have run {run : Text} (isDigits : IsDigits run) (c : Char) (member : c ∈ run) :
      isNumberChar c = true := by
    simp [isNumberChar, isDigits.isDigit_of_mem c member]
  induction isMagnitude with
  | digits isDigits => exact run isDigits
  | group _ marked isDigits step =>
    intro c member
    rcases List.mem_append.mp member with early | late
    · exact step c early
    · rcases List.mem_cons.mp late with rfl | later
      · rcases marked with rfl | rfl <;> rfl
      · exact run isDigits c later

theorem IsMagnitude.not_mem (isMagnitude : IsMagnitude magnitude) {c : Char}
    (other : isNumberChar c = false) : c ∉ magnitude := fun member =>
  absurd (isMagnitude.isNumberChar_of_mem c member) (by simp [other])

/-- A numeral without a sign begins with a digit. -/
theorem IsMagnitude.head (isMagnitude : IsMagnitude magnitude) :
    ∃ digit tail, magnitude = digit :: tail ∧ digit.isDigit = true := by
  induction isMagnitude with
  | @digits run isDigits =>
    cases run with
    | nil => exact absurd rfl isDigits.1
    | cons digit tail =>
      exact ⟨digit, tail, rfl, isDigits.isDigit_of_mem digit (List.mem_cons_self ..)⟩
  | @group front mark run _ _ _ step =>
    obtain ⟨digit, tail, rfl, isDigit⟩ := step
    exact ⟨digit, tail ++ mark :: run, rfl, isDigit⟩

/-- It ends with a character of words. -/
theorem IsMagnitude.lastChar (isMagnitude : IsMagnitude magnitude) (before : Option Char) :
    (lastChar before magnitude).any isWord = true := by
  cases isMagnitude with
  | digits isDigits => exact isDigits.lastChar before
  | group _ _ isDigits =>
    rw [lastChar_append, lastChar_cons]
    exact isDigits.lastChar _

/-! ### Where a numeral is taken -/

/-- A number is taken up to the blank behind it when a word ends there. -/
theorem numberTail?_blank {last : Char} {tail : Text} (inside : ∀ c ∈ tail, isNumberChar c = true)
    (ends : (lastChar (some last) tail).any isWord = true) (rest : Text) :
    numberTail? last (tail ++ ' ' :: rest) = some tail.length := by
  induction tail generalizing last with
  | nil =>
    have blank : isNumberChar ' ' = false ∧ isWord ' ' = false := by decide +kernel
    have word : isWord last = true := ends
    simp [numberTail?, isWordBoundary, blank, word]
  | cons c others step =>
    rw [lastChar_cons] at ends
    rw [List.cons_append, numberTail?, inside c (List.mem_cons_self ..),
      step (fun d member => inside d (List.mem_cons_of_mem _ member)) ends]
    rfl

/-- **Behind a character outside of words a numeral without a sign is taken whole.** -/
theorem IsMagnitude.reach?_number (isMagnitude : IsMagnitude magnitude) {before : Char}
    (outside : isWord before = false) (rest : Text) :
    number.reach? (some before) (magnitude ++ ' ' :: rest) = some ⟨magnitude.length, []⟩ := by
  have inside := isMagnitude.isNumberChar_of_mem
  have ends := isMagnitude.lastChar none
  obtain ⟨digit, tail, rfl, isDigit⟩ := isMagnitude.head
  rw [lastChar_cons] at ends
  have later : ∀ c ∈ tail, isNumberChar c = true := fun c member =>
    inside c (List.mem_cons_of_mem _ member)
  have covers := numberTail?_blank later ends rest
  have size : numberSize? (digit :: (tail ++ ' ' :: rest)) = some (tail.length + 1) := by
    rw [numberSize?, if_pos isDigit, covers]
    rfl
  have plain : digit ≠ '-' := fun same => absurd (same ▸ isDigit) (by decide)
  simp [number, isWordBoundary, outside, isWord_of_isDigit isDigit, plain, size]

/-- A minus outside of words begins no number: no word begins or ends before it. -/
theorem reach?_number_minus {before : Option Char} (outside : before.any isWord = false)
    (rest : Text) : number.reach? before ('-' :: rest) = none := by
  have minus : isWord '-' = false := by decide +kernel
  simp [number, isWordBoundary, outside, minus]

theorem spares_number {c : Char} (digitless : c.isDigit = false) (plain : c ≠ '-') :
    number.Spares c := by
  intro before rest
  simp [number, numberSize?, digitless, plain]

end Handbook.Pattern

namespace Handbook.Colorize

open Terminal Pattern Text Unicode

/-- A text of nothing but letters. -/
def IsLetters (word : Text) : Prop := word.all Char.isAlpha = true

instance (word : Text) : Decidable (IsLetters word) :=
  inferInstanceAs (Decidable (_ = _))

theorem IsLetters.isAlpha_of_mem {word : Text} (letters : IsLetters word) :
    ∀ c ∈ word, c.isAlpha = true :=
  List.all_eq_true.mp letters

theorem IsLetters.not_mem {word : Text} (letters : IsLetters word) {c : Char}
    (other : c.isAlpha = false) : c ∉ word := fun member =>
  absurd (letters.isAlpha_of_mem c member) (by simp [other])

/-- A text between two others, with blanks around it. -/
def between (before inside after : Text) : Text := before ++ ' ' :: (inside ++ ' ' :: after)

theorem between_inj {before inside inside' after : Text} :
    between before inside after = between before inside' after ↔ inside = inside' := by
  simp [between]

/-- A numeral between two words, in red behind its sign. -/
def inRed (before sign magnitude after : Text) : Text :=
  between before (sign ++ colored .red magnitude) after

/-- A numeral between two words. -/
structure Standalone (before sign magnitude after : Text) : Prop where
  first : IsLetters before
  signed : sign = [] ∨ sign = ['-']
  isMagnitude : IsMagnitude magnitude
  second : IsLetters after

namespace Standalone

variable {before sign magnitude after : Text}

/-! ### The pass over numbers -/

theorem spares_letter {word : Text} (letters : IsLetters word) : ∀ c ∈ word, number.Spares c := by
  intro c member
  have letter := letters.isAlpha_of_mem c member
  refine spares_number (isDigit_eq_false_of_isAlpha letter) ?_
  rintro rfl
  exact absurd letter (by decide)

/-- **The pass over numbers colors what stands behind the sign.** -/
theorem number_eq (standalone : Standalone before sign magnitude after) :
    Pattern.number.replaceAll (whole .red) (between before (sign ++ magnitude) after) =
      inRed before sign magnitude after := by
  have blank : number.Spares ' ' := spares_number (by decide) (by decide)
  have outside : (some ' ').any isWord = false ∧ isWord '-' = false := by decide +kernel
  have behind {before : Option Char} :
      number.replaceFrom (whole .red) before (' ' :: after) = ' ' :: after := by
    have spared : ∀ c ∈ ' ' :: after, number.Spares c := fun c member =>
      (List.mem_cons.mp member).elim (fun same => same ▸ blank) (spares_letter standalone.second c)
    have kept := @replaceFrom_spared _ (whole .red) _ spared before []
    rwa [List.append_nil, replaceFrom_nil proper_number, List.append_nil] at kept
  have digits {mark : Char} (outer : isWord mark = false) :
      number.replaceFrom (whole .red) (some mark) (magnitude ++ ' ' :: after) =
        colored .red magnitude ++ ' ' :: after := by
    have nonempty : magnitude ≠ [] := by
      obtain ⟨digit, tail, rfl, _⟩ := standalone.isMagnitude.head
      exact List.cons_ne_nil _ _
    rw [replaceFrom_found nonempty (standalone.isMagnitude.reach?_number outer after), behind]
    rfl
  have numeral : number.replaceFrom (whole .red) (some ' ') (sign ++ magnitude ++ ' ' :: after) =
      sign ++ colored .red magnitude ++ ' ' :: after := by
    rcases standalone.signed with rfl | rfl
    · exact digits outside.1
    · rw [List.append_assoc, List.singleton_append,
        replaceFrom_plain (reach?_number_minus outside.1 _), digits outside.2, List.append_assoc,
        List.singleton_append]
  rw [replaceAll_eq, between, replaceFrom_spared (spares_letter standalone.first),
    replaceFrom_plain (blank _ _), numeral, inRed, between]

/-! ### What is then written -/

/-- The characters of a text in which a number between two words is colored. -/
def isSheetChar (c : Char) : Bool :=
  c.isAlpha || isNumberChar c || c ∈ [' ', '-', escape, '[']

section

variable (standalone : Standalone before sign magnitude after)

include standalone

theorem isSheetChar_of_mem : ∀ c ∈ inRed before sign magnitude after, isSheetChar c = true := by
  have letters {word : Text} (letters : IsLetters word) : word.all isSheetChar = true :=
    List.all_eq_true.mpr fun c member => by simp [isSheetChar, letters.isAlpha_of_mem c member]
  have numeral : magnitude.all isSheetChar = true := List.all_eq_true.mpr fun c member => by
    simp [isSheetChar, standalone.isMagnitude.isNumberChar_of_mem c member]
  have sequences : (select (Style.color .red).code).all isSheetChar = true ∧
      reset.all isSheetChar = true ∧ isSheetChar ' ' = true := by decide
  have signs : sign.all isSheetChar = true := by rcases standalone.signed with rfl | rfl <;> decide
  rw [← List.all_eq_true]
  simp only [inRed, between, colored, styled, List.all_append, List.all_cons,
    letters standalone.first, letters standalone.second, numeral, sequences, signs, Bool.and_self]

theorem not_mem {c : Char} (outside : isSheetChar c = false) :
    c ∉ inRed before sign magnitude after := fun member =>
  absurd (standalone.isSheetChar_of_mem c member) (by simp [outside])

/-- Blanks and hyphens are those around the numeral, and those of its sign. -/
theorem count_eq {c : Char} (either : c = ' ' ∨ c = '-') :
    (inRed before sign magnitude after).count c = [' ', ' '].count c + sign.count c := by
  have other : c.isAlpha = false ∧ isNumberChar c = false ∧
      (select (Style.color .red).code).count c = 0 ∧ reset.count c = 0 := by
    rcases either with rfl | rfl <;> decide
  have letters {word : Text} (letters : IsLetters word) : word.count c = 0 :=
    List.count_eq_zero.mpr (letters.not_mem other.1)
  have numeral : magnitude.count c = 0 :=
    List.count_eq_zero.mpr (standalone.isMagnitude.not_mem other.2.1)
  simp only [inRed, between, colored, styled, List.count_append, List.count_cons, List.count_nil,
    letters standalone.first, letters standalone.second, numeral, other.2.2]
  omega

/-! ### The later passes -/

/-- A pattern whose occurrences all hold another character finds nothing. -/
theorem idle_marked {pattern : Pattern} {replace : Match → Text} (proper : pattern.Proper)
    (marked : ∀ {before lexeme groups rest},
      pattern.reach? before (lexeme ++ rest) = some ⟨lexeme.length, groups⟩ →
        ∃ c ∈ lexeme, isSheetChar c = false) :
    pattern.replaceAll replace (inRed before sign magnitude after) =
      inRed before sign magnitude after := by
  refine proper.replaceAll_of_no_infix fun inside found => ?_
  obtain ⟨c, member, outside⟩ := marked found
  exact standalone.not_mem outside (inside.subset member)

theorem idle_quote {replace : Match → Text} :
    Pattern.quote.replaceAll replace (inRed before sign magnitude after) =
      inRed before sign magnitude after := by
  refine standalone.idle_marked closed_quote.proper fun found => ?_
  obtain ⟨mark, inside, later, isMark, _, _, cut, size⟩ := reach?_quote found
  rw [(occurrence_eq cut size).1]
  refine ⟨mark, by simp, ?_⟩
  simp only [isQuoteMark, List.mem_cons, List.not_mem_nil, or_false, decide_eq_true_eq] at isMark
  rcases isMark with rfl | rfl | rfl <;> rfl

theorem idle_sectionHeader {replace : Match → Text} :
    Pattern.sectionHeader.replaceAll replace (inRed before sign magnitude after) =
      inRed before sign magnitude after := by
  refine standalone.idle_marked delimited_sectionHeader.proper fun found => ?_
  obtain ⟨_, level, title, later, low, _, _, _, _, cut, size⟩ := reach?_sectionHeader found
  rw [(occurrence_eq cut size).1]
  exact ⟨'#', List.mem_append_left _ (List.mem_replicate.mpr ⟨by omega, rfl⟩), by decide⟩

theorem idle_url {replace : Match → Text} :
    Pattern.url.replaceAll replace (inRed before sign magnitude after) =
      inRed before sign magnitude after := by
  refine standalone.idle_marked delimited_url.proper fun found => ?_
  obtain ⟨scheme, address, later, member, _, _, _, cut, size⟩ := reach?_url found
  rw [(occurrence_eq cut size).1]
  have each : ∀ scheme ∈ schemes, ':' ∈ scheme := by decide
  exact ⟨':', List.mem_append_left _ (each scheme member), by decide⟩

/-- The color of the number stands behind its sign, hence no `x`. -/
theorem idle_unaryOperator {replace : Match → Text} :
    Pattern.unaryOperator.replaceAll replace (inRed before sign magnitude after) =
      inRed before sign magnitude after := by
  refine closed_unaryOperator.proper.replaceAll_of_no_infix fun inside found => ?_
  obtain ⟨operator, later, either, cut, size⟩ := reach?_unaryOperator found
  rw [(occurrence_eq cut size).1] at inside
  rcases either with rfl | rfl
  · exact standalone.not_mem (c := '!') (by decide) (inside.subset (by simp))
  · obtain ⟨early, last, whole⟩ := inside
    have count := standalone.count_eq (Or.inr rfl)
    rw [← whole] at count
    rcases standalone.signed with rfl | rfl
    · simp at count
    · have absent : '-' ∉ early := List.count_eq_zero.mp (by simp at count; omega)
      have absent' : '-' ∉ before ++ [' '] := by simp [standalone.first.not_mem]
      have behind : 'x' :: last = colored .red magnitude ++ ' ' :: after :=
        (cut_unique absent absent' (by simpa [inRed, between] using whole)).2
      exact absurd (congrArg List.head? behind) (by simp [colored, styled, select, escape])

/-- Between the only two blanks stands a color, which no operator holds. -/
theorem idle_binaryOperator {replace : Match → Text} :
    Pattern.binaryOperator.replaceAll replace (inRed before sign magnitude after) =
      inRed before sign magnitude after := by
  refine closed_binaryOperator.proper.replaceAll_of_no_infix fun inside found => ?_
  obtain ⟨operator, later, member, cut, size⟩ := reach?_binaryOperator found
  rw [(occurrence_eq cut size).1] at inside
  obtain ⟨early, last, whole⟩ := inside
  have blanks : (inRed before sign magnitude after).count ' ' = 2 := by
    rw [standalone.count_eq (Or.inl rfl)]
    rcases standalone.signed with rfl | rfl <;> decide
  -- an operation holds two blanks, so there are none before it and none in its operator
  have found : early.count ' ' = 0 ∧ operator.count ' ' = 0 := by
    rw [← whole] at blanks
    simp at blanks
    omega
  have painted : before.count ' ' = 0 ∧ (sign ++ colored .red magnitude).count ' ' = 0 := by
    rw [inRed, between, List.count_append, List.count_cons_self, List.count_append,
      List.count_cons_self] at blanks
    omega
  have front : ' ' ∉ early ++ ['x'] := by simp [List.count_eq_zero.mp found.1]
  have behind : operator ++ ' ' :: 'y' :: last = (sign ++ colored .red magnitude) ++ ' ' :: after :=
    (cut_unique front (List.count_eq_zero.mp painted.1) (by simpa [inRed, between] using whole)).2
  have same : operator = sign ++ colored .red magnitude :=
    (cut_unique (List.count_eq_zero.mp found.2) (List.count_eq_zero.mp painted.2) behind).1
  refine escape_not_mem_binaryOperator member ?_
  rw [same]
  exact List.mem_append_right _ (List.mem_cons_self ..)

theorem idle_pipelineOperator {replace : Match → Text} :
    Pattern.pipelineOperator.replaceAll replace (inRed before sign magnitude after) =
      inRed before sign magnitude after := by
  refine standalone.idle_marked closed_pipelineOperator.proper fun found => ?_
  obtain ⟨later, cut, size⟩ := reach?_pipelineOperator found
  rw [(occurrence_eq cut size).1]
  exact ⟨'|', by decide, by decide⟩

theorem idle_slice {replace : Match → Text} :
    Pattern.slice.replaceAll replace (inRed before sign magnitude after) =
      inRed before sign magnitude after := by
  refine standalone.idle_marked closed_slice.proper fun found => ?_
  obtain ⟨inside, later, _, _, cut, size⟩ := reach?_slice found
  rw [(occurrence_eq cut size).1]
  exact ⟨']', by simp, by decide⟩

/-- A flag has two hyphens, the text at most one. -/
theorem idle_flag {replace : Match → Text} :
    Pattern.flag.replaceAll replace (inRed before sign magnitude after) =
      inRed before sign magnitude after := by
  refine delimited_flag.proper.replaceAll_of_no_infix fun inside found => ?_
  obtain ⟨name, later, _, _, _, cut, size⟩ := reach?_flag found
  rw [(occurrence_eq cut size).1] at inside
  have least : ['-', '-'].count '-' ≤ (['-', '-'] ++ name).count '-' :=
    (List.sublist_append_left _ _).count_le _
  have most : (inRed before sign magnitude after).count '-' ≤ 1 := by
    rw [standalone.count_eq (Or.inr rfl)]
    rcases standalone.signed with rfl | rfl <;> decide
  have chain := Nat.le_trans (Nat.le_trans least (inside.sublist.count_le '-')) most
  exact absurd chain (by decide)

theorem idle_listLink {replace : Match → Text} :
    Pattern.listLink.replaceAll replace (inRed before sign magnitude after) =
      inRed before sign magnitude after := by
  refine standalone.idle_marked aligned_listLink.proper fun found => ?_
  obtain ⟨label, target, later, _, cut, size⟩ := reach?_listLink found
  rw [(occurrence_eq cut size).1]
  exact ⟨')', by simp, by decide⟩

theorem idle_codeFence {replace : Match → Text} :
    Pattern.codeFence.replaceAll replace (inRed before sign magnitude after) =
      inRed before sign magnitude after := by
  refine standalone.idle_marked aligned_codeFence.proper fun found => ?_
  obtain ⟨language, code, later, _, _, cut, size⟩ := reach?_codeFence found
  rw [(occurrence_eq cut size).1]
  exact ⟨'\x60', List.mem_append_right _ (by decide), by decide⟩

/-- No line begins with a margin and a number sign. -/
theorem idle_comment :
    dimComments (inRed before sign magnitude after) = inRed before sign magnitude after := by
  refine dimComments_other (standalone.not_mem (by decide)) ?_
  rintro ⟨paint, words, _, _, line⟩
  refine standalone.not_mem (c := '#') (by decide) ?_
  rw [line]
  exact List.mem_append_right _ (List.mem_cons_self ..)

theorem idle_prose :
    prose (inRed before sign magnitude after) = inRed before sign magnitude after := by
  simp only [prose, prosePasses, Pass.applyAll, Pass.apply, List.foldl_cons, List.foldl_nil]
  rw [standalone.idle_quote, standalone.idle_sectionHeader, standalone.idle_url,
    standalone.idle_unaryOperator, standalone.idle_binaryOperator,
    standalone.idle_pipelineOperator, standalone.idle_slice, standalone.idle_flag]

/-- **A numeral between two words is colored behind its sign.** -/
theorem cheatsheet_eq :
    cheatsheet (between before (sign ++ magnitude) after) = inRed before sign magnitude after := by
  have signs : '[' ∉ sign := by rcases standalone.signed with rfl | rfl <;> decide
  have links : '[' ∉ between before (sign ++ magnitude) after := by
    simp [between, standalone.first.not_mem, standalone.second.not_mem,
      standalone.isMagnitude.not_mem, isNumberChar, signs]
  rw [Colorize.cheatsheet_eq, beforeCode_eq, coloredProse, unlinked_of_not_mem links,
    standalone.number_eq, standalone.idle_prose, standalone.idle_listLink,
    standalone.idle_codeFence, standalone.idle_comment]

end

end Standalone

/-- **A numeral between two words is one span of color exactly when it has no sign**; with a sign
the minus stays plain, and the numeral behind it is one span. -/
theorem cheatsheet_numeral_iff {before numeral after : Text} (first : IsLetters before)
    (isNumeral : IsNumeral numeral) (second : IsLetters after) :
    (cheatsheet (between before numeral after) = between before (colored .red numeral) after ↔
        numeral.head? ≠ some '-') ∧
      ∀ magnitude, numeral = '-' :: magnitude →
        cheatsheet (between before numeral after) =
          between before ('-' :: colored .red magnitude) after := by
  rcases isNumeral with isMagnitude | ⟨magnitude, isMagnitude, rfl⟩
  · have whole : cheatsheet (between before numeral after) =
        between before (colored .red numeral) after :=
      (Standalone.mk first (Or.inl rfl) isMagnitude second).cheatsheet_eq
    obtain ⟨digit, tail, rfl, isDigit⟩ := isMagnitude.head
    have unsigned : digit ≠ '-' := fun same => absurd (same ▸ isDigit) (by decide)
    refine ⟨iff_of_true whole (by simpa using unsigned), fun magnitude same => ?_⟩
    exact absurd (List.cons.inj same).1 unsigned
  · have split : cheatsheet (between before ('-' :: magnitude) after) =
        between before ('-' :: colored .red magnitude) after :=
      (Standalone.mk first (Or.inr rfl) isMagnitude second).cheatsheet_eq
    refine ⟨iff_of_false ?_ (by simp), fun other same => ?_⟩
    · rw [split, between_inj]
      intro same
      exact absurd (congrArg List.head? same) (by simp [colored, styled, select, escape])
    · rw [← (List.cons.inj same).2]
      exact split

theorem cheatsheet_numeral_iff_both :
    cheatsheet (between "take".toList "1_000".toList "items".toList) =
        between "take".toList (colored .red "1_000".toList) "items".toList ∧
      cheatsheet (between "take".toList "-3.14".toList "items".toList) =
        between "take".toList ('-' :: colored .red "3.14".toList) "items".toList := by
  have thousand : IsMagnitude "1_000".toList :=
    @IsMagnitude.group ['1'] '_' ['0', '0', '0'] (.digits (by decide)) (Or.inr rfl) (by decide)
  have third : IsMagnitude "3.14".toList :=
    @IsMagnitude.group ['3'] '.' ['1', '4'] (.digits (by decide)) (Or.inl rfl) (by decide)
  exact ⟨(cheatsheet_numeral_iff (by decide) (Or.inl thousand) (by decide)).1.mpr (by decide),
    (cheatsheet_numeral_iff (by decide) (Or.inr ⟨_, third, rfl⟩) (by decide)).2 _ rfl⟩

/-- The minus of a number between two words is left out of its color. -/
theorem signedNumber_split :
    IsLetters "a".toList ∧ IsNumeral "-5".toList ∧ IsLetters "b".toList ∧
      cheatsheet (between "a".toList "-5".toList "b".toList) ≠
        between "a".toList (colored .red "-5".toList) "b".toList :=
  ⟨by decide, Or.inr ⟨['5'], .digits (by decide), rfl⟩, by decide, by decide +kernel⟩

end Handbook.Colorize
