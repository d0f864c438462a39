/-
**Reading JSON is the inverse of spelling it.**

A reader of values is built level by level from the reader of the values inside them, so what it
takes is shown for one level, given that it holds for the level below, and then for all of them.

* `valueAt_reads`: one level reads exactly what is spelled at it;
* `value_reads`: so does any number of levels;
* `read_eq_ok_iff`: a blob is read as a value exactly if it writes the value.
-/

import Handbook.Proofs.Json.Container

namespace Handbook.Json

open Text

variable {bytes rest : Bytes} {value : Value}

/-! ### Words -/

theorem mem_words (name : String) (listed : words.lookup name = some value) :
    (name, value) ∈ words := by
  obtain ⟨before, after, cut, _⟩ := List.lookup_eq_some_iff.mp listed
  rw [cut]
  exact List.mem_append_right _ (List.mem_cons_self ..)

/-- A word of which some bytes have been read is read from its other letters. -/
theorem word_sound (inner : Value → Bytes → Prop) (name : String) (front : Bytes) (others : String)
    {meant : Value} (cut : Utf8.encode name.toList = front ++ Utf8.encode others.toList)
    (same : (Utf8.encode others.toList).map UInt8.toNat = others.toList.map Char.toNat)
    (listed : words.lookup name = some meant)
    (read : word others meant bytes = .ok (value, rest)) :
    ∃ spelled, SpellsAt inner value spelled ∧ front ++ bytes = spelled ++ rest := by
  obtain ⟨left, found, pair⟩ := map_eq_ok_iff.mp read
  rw [Prod.mk.injEq] at pair
  obtain ⟨rfl, rfl⟩ := pair
  refine ⟨_, .word (mem_words name listed), ?_⟩
  rw [(expectWord_eq_ok_iff same).mp found, cut, List.append_assoc]

theorem word_complete (others : String)
    (same : (Utf8.encode others.toList).map UInt8.toNat = others.toList.map Char.toNat) :
    word others value (Utf8.encode others.toList ++ rest) = .ok (value, rest) := by
  rw [word, (expectWord_eq_ok_iff same).mpr rfl]
  rfl

/-! ### Numbers -/

theorem IsInteger.opens {lexeme : Bytes} (isInteger : IsInteger lexeme) :
    ∃ byte others, lexeme = byte :: others ∧ isDigitByte byte = true := by
  rcases isInteger with rfl | ⟨⟨nonempty, all⟩, _, _⟩
  · exact ⟨0x30, [], rfl, by decide⟩
  · cases lexeme with
    | nil => exact absurd rfl nonempty
    | cons byte others => exact ⟨byte, others, rfl, all byte (List.mem_cons_self ..)⟩

/-- A number begins with a minus or a digit. -/
theorem SpellsNumber.opens (spells : SpellsNumber value bytes) :
    ∃ byte others, bytes = byte :: others ∧ (byte = 0x2D ∨ isDigitByte byte = true) := by
  cases spells with
  | positive isInteger _ _ =>
    obtain ⟨byte, others, rfl, digit⟩ := isInteger.opens
    exact ⟨byte, _, rfl, .inr digit⟩
  | negative _ _ _ => exact ⟨0x2D, _, rfl, .inl rfl⟩

theorem ne_of_isDigitByte {byte other : UInt8} (digit : isDigitByte byte = true)
    (none : isDigitByte other = false) : byte ≠ other := by
  rintro rfl
  rw [digit] at none
  exact absurd none (by decide)

theorem ne_of_begins {byte mark : UInt8} (begins : byte = 0x2D ∨ isDigitByte byte = true)
    (noMinus : mark ≠ 0x2D) (noDigit : isDigitByte mark = false) : byte ≠ mark := by
  rcases begins with rfl | digit
  · exact noMinus.symm
  · exact ne_of_isDigitByte digit noDigit

theorem not_isBlankByte_of_begins {byte : UInt8} (begins : byte = 0x2D ∨ isDigitByte byte = true) :
    isBlankByte byte = false := by
  rw [isBlankByte, decide_eq_false_iff_not]
  simp only [List.mem_cons, List.not_mem_nil, or_false, not_or]
  exact ⟨ne_of_begins begins (by decide) (by decide), ne_of_begins begins (by decide) (by decide),
    ne_of_begins begins (by decide) (by decide), ne_of_begins begins (by decide) (by decide)⟩

theorem number_negative {byte : UInt8} (other : byte ≠ 0x49) :
    number (0x2D :: byte :: rest) = unsignedNumber true (byte :: rest) := by
  unfold number
  split
  · rename_i same
    exact absurd (List.cons.inj (List.cons.inj same).2).1 other
  · rename_i same
    rw [(List.cons.inj same).2]
  · rename_i none
    exact absurd rfl (none _)

theorem number_positive {byte : UInt8} (other : byte ≠ 0x2D) :
    number (byte :: rest) = unsignedNumber false (byte :: rest) := by
  unfold number
  split
  · rename_i same
    exact absurd (List.cons.inj same).1 other
  · rename_i same
    exact absurd (List.cons.inj same).1 other
  · rfl

/-- **What is read as a number or a negative infinity spells it.** -/
theorem number_sound (inner : Value → Bytes → Prop) (read : number bytes = .ok (value, rest)) :
    ∃ spelled, SpellsAt inner value spelled ∧ bytes = spelled ++ rest := by
  unfold number at read
  split at read
  · exact word_sound inner "-Infinity" [0x2D, 0x49] "nfinity" (by decide) (by decide) rfl read
  · rename_i others _
    obtain ⟨integer, fraction, exponent, isInteger, isFraction, isExponent, rfl, rfl⟩ :=
      unsignedNumber_sound read
    exact ⟨_, .number (.negative isInteger isFraction isExponent), rfl⟩
  · obtain ⟨integer, fraction, exponent, isInteger, isFraction, isExponent, rfl, rfl⟩ :=
      unsignedNumber_sound read
    exact ⟨_, .number (.positive isInteger isFraction isExponent), rfl⟩

/-- **The spelling of a number is read as it.** -/
theorem number_complete {lexeme : Bytes} (spells : SpellsNumber value lexeme)
    (stops : Stops isNumberByte rest) : number (lexeme ++ rest) = .ok (value, rest) := by
  cases spells with
  | @positive integer fraction exponent isInteger isFraction isExponent =>
    have whole := unsignedNumber_complete false isInteger isFraction isExponent stops
    obtain ⟨byte, others, rfl, digit⟩ := isInteger.opens
    rw [← whole]
    exact number_positive (ne_of_isDigitByte digit (by decide))
  | @negative integer fraction exponent isInteger isFraction isExponent =>
    have whole := unsignedNumber_complete true isInteger isFraction isExponent stops
    obtain ⟨byte, others, rfl, digit⟩ := isInteger.opens
    rw [← whole]
    exact number_negative (ne_of_isDigitByte digit (by decide))

/-! ### Containers -/

section

variable {inner : Option (Reader Value)} {spells : Value → Bytes → Prop}

theorem array_sound (reads : Reads (nested inner) spells)
    (whole : array inner bytes = .ok (value, rest)) :
    ∃ spelled, SpellsAt spells value (0x5B :: spelled) ∧ bytes = spelled ++ rest := by
  obtain ⟨blanks, blank, cut⟩ := skipBlanks_cut bytes
  unfold array at whole
  split at whole
  · simp at whole
  · rename_i left closing
    rw [Except.ok.injEq, Prod.mk.injEq] at whole
    obtain ⟨rfl, rfl⟩ := whole
    rw [closing] at cut
    exact ⟨_, .emptyArray blank, by rw [cut]; simp⟩
  · obtain ⟨⟨values, left⟩, read, pair⟩ := map_eq_ok_iff.mp whole
    rw [Prod.mk.injEq] at pair
    obtain ⟨rfl, rfl⟩ := pair
    obtain ⟨before, spelled, blank', list, same⟩ := items_sound reads read
    refine ⟨_, .array (blank.append blank') list, ?_⟩
    rw [cut, same]
    simp

theorem array_empty {blanks : Bytes} (blank : Blank blanks) :
    array inner (blanks ++ 0x5D :: rest) = .ok (.array [], rest) := by
  rw [array, skipBlanks_cons blank (by decide)]
  rfl

theorem array_items (reads : Reads (nested inner) spells) {blanks spelled : Bytes}
    {values : List Value} (blank : Blank blanks) (list : SpellsList spells values spelled) :
    array inner (blanks ++ (spelled ++ 0x5D :: rest)) = .ok (.array values, rest) := by
  obtain ⟨byte, others, rfl, opening⟩ := list.opens reads.opens
  have skipped := skipBlanks_cons blank opening.1 (others ++ 0x5D :: rest)
  have fueled : values.length ≤ (byte :: (others ++ 0x5D :: rest)).length := by
    have short := list.length_le
    rw [List.length_cons] at short
    rw [List.length_cons, List.length_append, List.length_cons]
    omega
  have whole : items (nested inner) _ ([] ++ (byte :: others ++ 0x5D :: rest)) =
      .ok (values, rest) := items_complete reads .nil list fueled
  rw [List.nil_append, List.cons_append] at whole
  rw [array, List.cons_append, skipped]
  split
  · rename_i none
    exact absurd none (List.cons_ne_nil _ _)
  · rename_i closes
    exact absurd (List.cons.inj closes).1 opening.2.1
  · rw [whole]
    rfl

theorem object_sound (reads : Reads (nested inner) spells)
    (whole : object inner bytes = .ok (value, rest)) :
    ∃ spelled, SpellsAt spells value (0x7B :: spelled) ∧ bytes = spelled ++ rest := by
  obtain ⟨blanks, blank, cut⟩ := skipBlanks_cut bytes
  unfold object at whole
  split at whole
  · simp at whole
  · rename_i left closing
    rw [Except.ok.injEq, Prod.mk.injEq] at whole
    obtain ⟨rfl, rfl⟩ := whole
    rw [closing] at cut
    exact ⟨_, .emptyObject blank, by rw [cut]; simp⟩
  · rename_i first quote
    obtain ⟨⟨values, left⟩, read, pair⟩ := map_eq_ok_iff.mp whole
    rw [Prod.mk.injEq] at pair
    obtain ⟨rfl, rfl⟩ := pair
    obtain ⟨spelled, list, same⟩ := members_sound reads read
    refine ⟨_, .object blank list, ?_⟩
    have again : bytes = blanks ++ (spelled ++ 0x7D :: left) := by
      rw [cut, quote, ← same]
      rfl
    rw [again]
    simp
  · simp at whole

theorem object_empty {blanks : Bytes} (blank : Blank blanks) :
    object inner (blanks ++ 0x7D :: rest) = .ok (.object [], rest) := by
  rw [object, skipBlanks_cons blank (by decide)]
  rfl

theorem object_members (reads : Reads (nested inner) spells) {blanks spelled : Bytes}
    {named : Members} (blank : Blank blanks)
    (list : SpellsList (SpellsMember spells) named spelled) :
    object inner (blanks ++ (spelled ++ 0x7D :: rest)) = .ok (.object named, rest) := by
  obtain ⟨others, rfl⟩ := list.quote
  have fueled : named.length ≤ (others ++ 0x7D :: rest).length + 1 := by
    have short := list.length_le
    rw [List.length_cons] at short
    rw [List.length_append, List.length_cons]
    omega
  have whole : members (nested inner) _ (others ++ 0x7D :: rest) = .ok (named, rest) :=
    members_complete reads list fueled
  rw [object, List.cons_append, skipBlanks_cons blank (by decide)]
  show (members (nested inner) ((others ++ 0x7D :: rest).length + 1) (others ++ 0x7D :: rest)).map
    (fun found => (Value.object found.1, found.2)) = _
  rw [whole]
  rfl

/-! ### Values -/

/-- Whatever is spelled inside a value, it begins with no blank and with nothing that closes a
container. -/
theorem SpellsAt.opens (one : SpellsAt spells value bytes) :
    ∃ byte others, bytes = byte :: others ∧ Opens byte := by
  cases one with
  | @word name _ listed =>
    simp only [words, List.mem_cons, List.not_mem_nil, or_false, Prod.mk.injEq] at listed
    rcases listed with ⟨rfl, _⟩ | ⟨rfl, _⟩ | ⟨rfl, _⟩ | ⟨rfl, _⟩ | ⟨rfl, _⟩ | ⟨rfl, _⟩
    all_goals exact ⟨_, _, rfl, by decide, by decide, by decide⟩
  | number spells =>
    obtain ⟨byte, others, rfl, begins⟩ := spells.opens
    exact ⟨byte, others, rfl, not_isBlankByte_of_begins begins,
      ne_of_begins begins (by decide) (by decide), ne_of_begins begins (by decide) (by decide)⟩
  | string _ => exact ⟨_, _, rfl, by decide, by decide, by decide⟩
  | emptyArray _ => exact ⟨_, _, rfl, by decide, by decide, by decide⟩
  | array _ _ => exact ⟨_, _, rfl, by decide, by decide, by decide⟩
  | emptyObject _ => exact ⟨_, _, rfl, by decide, by decide, by decide⟩
  | object _ _ => exact ⟨_, _, rfl, by decide, by decide, by decide⟩

theorem valueAt_number {byte : UInt8} (begins : byte = 0x2D ∨ isDigitByte byte = true) :
    valueAt inner (byte :: rest) = number (byte :: rest) := by
  have skipped : skipBlanks (byte :: rest) = byte :: rest :=
    skipBlanks_append .nil (stops_cons (not_isBlankByte_of_begins begins) rest)
  unfold valueAt
  simp only [skipped]
  -- The byte is none of the eight that values of the other kinds begin with.
  iterate 8 rw [if_neg (ne_of_begins begins (by decide) (by decide))]
  rw [if_pos begins]

/-- **What one level reads is spelled at it.** -/
theorem valueAt_sound (reads : Reads (nested inner) spells)
    (whole : valueAt inner bytes = .ok (value, rest)) :
    ∃ before spelled, Blank before ∧ SpellsAt spells value spelled ∧
      bytes = before ++ (spelled ++ rest) := by
  obtain ⟨before, blank, cut⟩ := skipBlanks_cut bytes
  -- What is left is one value without blanks in front, and its first byte says which kind it is of.
  suffices found : ∃ spelled, SpellsAt spells value spelled ∧ skipBlanks bytes = spelled ++ rest by
    obtain ⟨spelled, one, same⟩ := found
    exact ⟨before, spelled, blank, one, by rw [← same, ← cut]⟩
  unfold valueAt at whole
  split at whole
  · simp at whole
  · rename_i byte after first
    rw [first]
    split at whole
    · rename_i bracket
      obtain ⟨spelled, one, rfl⟩ := array_sound reads whole
      exact ⟨_, one, by rw [bracket]; rfl⟩
    split at whole
    · rename_i brace
      obtain ⟨spelled, one, rfl⟩ := object_sound reads whole
      exact ⟨_, one, by rw [brace]; rfl⟩
    split at whole
    · rename_i quote
      obtain ⟨⟨text, left⟩, read, pair⟩ := map_eq_ok_iff.mp whole
      rw [Prod.mk.injEq] at pair
      obtain ⟨rfl, rfl⟩ := pair
      obtain ⟨inside, spelled, rfl⟩ := string_eq_ok_iff.mp read
      exact ⟨_, .string spelled, by rw [quote]; simp⟩
    split at whole
    · rename_i letter
      subst letter
      exact word_sound spells "null" [0x6E] "ull" (by decide) (by decide) rfl whole
    split at whole
    · rename_i letter
      subst letter
      exact word_sound spells "true" [0x74] "rue" (by decide) (by decide) rfl whole
    split at whole
    · rename_i letter
      subst letter
      exact word_sound spells "false" [0x66] "alse" (by decide) (by decide) rfl whole
    split at whole
    · rename_i letter
      subst letter
      exact word_sound spells "NaN" [0x4E] "aN" (by decide) (by decide) rfl whole
    split at whole
    · rename_i letter
      subst letter
      exact word_sound spells "Infinity" [0x49] "nfinity" (by decide) (by decide) rfl whole
    split at whole
    · exact number_sound spells whole
    · simp at whole

theorem valueAt_blanks {before : Bytes} (blank : Blank before) :
    valueAt inner (before ++ bytes) = valueAt inner bytes := by
  have skipped : skipBlanks (before ++ bytes) = skipBlanks bytes :=
    List.dropWhile_append_of_pos blank
  unfold valueAt
  rw [skipped]

theorem valueAt_word {name : String} (listed : (name, value) ∈ words) :
    valueAt inner (Utf8.encode name.toList ++ rest) = .ok (value, rest) := by
  simp only [words, List.mem_cons, List.not_mem_nil, or_false, Prod.mk.injEq] at listed
  rcases listed with ⟨rfl, rfl⟩ | ⟨rfl, rfl⟩ | ⟨rfl, rfl⟩ | ⟨rfl, rfl⟩ | ⟨rfl, rfl⟩ | ⟨rfl, rfl⟩
  · exact word_complete "ull" (by decide)
  · exact word_complete "rue" (by decide)
  · exact word_complete "alse" (by decide)
  · exact word_complete "aN" (by decide)
  · exact word_complete "nfinity" (by decide)
  · exact word_complete "nfinity" (by decide)

/-- **What is spelled at one level is read there.** -/
theorem valueAt_complete (reads : Reads (nested inner) spells) {before spelled : Bytes}
    (blank : Blank before) (one : SpellsAt spells value spelled)
    (stops : Stops isNumberByte rest) :
    valueAt inner (before ++ (spelled ++ rest)) = .ok (value, rest) := by
  rw [valueAt_blanks blank]
  cases one with
  | word listed => exact valueAt_word listed
  | number spelling =>
    rw [← number_complete spelling stops]
    obtain ⟨byte, others, rfl, begins⟩ := spelling.opens
    exact valueAt_number begins
  | @string text inside spelling =>
    have whole := string_eq_ok_iff.mpr ⟨inside, spelling, @rfl _ (inside ++ quoteByte :: rest)⟩
    show (string (inside ++ [quoteByte] ++ rest)).map
      (fun found => (Value.string found.1, found.2)) = _
    rw [List.append_assoc, List.singleton_append, whole]
    rfl
  | emptyArray blank' =>
    show array inner (_ ++ [0x5D] ++ rest) = _
    rw [List.append_assoc, List.singleton_append, array_empty blank']
  | array blank' list =>
    show array inner (_ ++ (_ ++ [0x5D]) ++ rest) = _
    rw [List.append_assoc, List.append_assoc, List.singleton_append, array_items reads blank' list]
  | emptyObject blank' =>
    show object inner (_ ++ [0x7D] ++ rest) = _
    rw [List.append_assoc, List.singleton_append, object_empty blank']
  | object blank' list =>
    show object inner (_ ++ (_ ++ [0x7D]) ++ rest) = _
    rw [List.append_assoc, List.append_assoc, List.singleton_append,
      object_members reads blank' list]

theorem valueAt_reads (reads : Reads (nested inner) spells) :
    Reads (valueAt inner) (SpellsAt spells) where
  opens := SpellsAt.opens
  sound := valueAt_sound reads
  complete := valueAt_complete reads

end

/-! ### All levels -/

/-- When no level is left, nothing inside a container is read. -/
theorem nested_none_reads : Reads (nested none) fun _ _ => False where
  opens := False.elim
  sound := by
    intro bytes value rest whole
    unfold nested at whole
    dsimp only at whole
    split at whole <;> simp at whole
  complete := fun _ absurdity => absurdity.elim

theorem value_reads (levels : Nat) : Reads (Json.value levels) (Spells levels) := by
  induction levels with
  | zero => exact valueAt_reads nested_none_reads
  | succ levels step => exact @valueAt_reads (some (Json.value levels)) _ step

/-- **A blob is read as a value exactly if it writes the value.** -/
theorem read_eq_ok_iff {blob : Bytes} :
    read blob = .ok value ↔ Writes nestingLimit blob value := by
  unfold read
  constructor
  · intro whole
    split at whole
    · simp at whole
    · rename_i result rest first
      obtain ⟨before, spelled, blank, one, rfl⟩ := (value_reads nestingLimit).sound first
      obtain ⟨after, blank', cut⟩ := skipBlanks_cut rest
      split at whole
      · rename_i none
        rw [Except.ok.injEq] at whole
        rw [none, List.append_nil] at cut
        rw [cut]
        exact ⟨before, spelled, after, blank, whole ▸ one, blank', rfl⟩
      · simp at whole
  · rintro ⟨before, spelled, after, blank, one, blank', rfl⟩
    have stops : Stops isNumberByte after := by
      have whole := stops_isNumberByte blank' (stops_nil isNumberByte)
      rwa [List.append_nil] at whole
    have skipped : skipBlanks after = [] := by
      have whole := skipBlanks_append blank' (stops_nil isBlankByte)
      rwa [List.append_nil] at whole
    rw [(value_reads nestingLimit).complete blank one stops]
    simp only [skipped]

end Handbook.Json
