/-
**Reading numbers and words.**

A number is read as far as it goes, so what spells it is read as a number of its own where no byte
follows that would make it longer.

* `unsignedNumber_sound`: what is read as a number has its three parts;
* `unsignedNumber_complete`: three such parts are read as the number they make;
* `expectWord_eq_ok_iff`: words are read exactly from their letters.
-/

import Handbook.Proofs.Json.Spelling
import Handbook.Proofs.Result
import Handbook.Proofs.Text.Cut

namespace Handbook.Json

open Text

variable {bytes rest : Bytes}

/-- Whether a byte can make a number longer. -/
def isNumberByte (byte : UInt8) : Bool :=
  isDigitByte byte || byte == 0x2E || byte == 0x45 || byte == 0x65

/-! ### Digits -/

theorem digits_sound (read : digits bytes = .ok rest) :
    ∃ lexeme, IsDigits lexeme ∧ bytes = lexeme ++ rest := by
  unfold digits at read
  split at read
  · simp at read
  · rename_i byte others
    split at read
    · rename_i digit
      rw [Except.ok.injEq] at read
      refine ⟨byte :: others.takeWhile isDigitByte, ⟨List.cons_ne_nil _ _, ?_⟩, ?_⟩
      · exact List.forall_mem_cons.mpr ⟨digit, fun _ => of_mem_takeWhile⟩
      · rw [List.cons_append, ← read, List.takeWhile_append_dropWhile]
    · simp at read

theorem digits_complete {lexeme : Bytes} (isDigits : IsDigits lexeme)
    (stops : Stops isDigitByte rest) : digits (lexeme ++ rest) = .ok rest := by
  obtain ⟨nonempty, all⟩ := isDigits
  cases lexeme with
  | nil => exact absurd rfl nonempty
  | cons byte others =>
    obtain ⟨first, later⟩ := List.forall_mem_cons.mp all
    rw [List.cons_append, digits, if_pos first, dropWhile_cut later stops]

theorem integerPart_sound (read : integerPart bytes = .ok rest) :
    ∃ lexeme, IsInteger lexeme ∧ bytes = lexeme ++ rest := by
  unfold integerPart at read
  split at read
  · simp at read
  · rename_i byte others
    split at read
    · rename_i zero
      split at read
      · simp at read
      · rw [Except.ok.injEq] at read
        rw [zero, read]
        exact ⟨[0x30], Or.inl rfl, rfl⟩
    · rename_i nonzero
      obtain ⟨after, digits, read⟩ := bind_eq_ok_iff.mp read
      obtain ⟨lexeme, isDigits, cut⟩ := digits_sound digits
      split at read
      · simp at read
      · rename_i short
        rw [Except.ok.injEq] at read
        subst read
        refine ⟨lexeme, Or.inr ⟨isDigits, ?_, ?_⟩, cut⟩
        · intro zero
          obtain ⟨more, rfl⟩ := List.head?_eq_some_iff.mp zero
          exact nonzero (List.cons.inj cut).1
        · have lengths := congrArg List.length cut
          rw [List.length_cons, List.length_append] at lengths
          omega

theorem integerPart_complete {lexeme : Bytes} (isInteger : IsInteger lexeme)
    (stops : Stops isDigitByte rest) : integerPart (lexeme ++ rest) = .ok rest := by
  rcases isInteger with rfl | ⟨isDigits, nonzero, short⟩
  · have last : rest.head?.any isDigitByte = false := by
      cases rest with
      | nil => rfl
      | cons byte others => exact stops byte rfl
    simp [integerPart, last]
  · have read := digits_complete isDigits stops
    cases lexeme with
    | nil => exact absurd rfl isDigits.1
    | cons byte others =>
      have other : byte ≠ 0x30 := fun zero => nonzero (congrArg some zero)
      rw [List.cons_append] at read ⊢
      rw [integerPart, if_neg other, bind_eq_ok_iff]
      refine ⟨rest, read, if_neg ?_⟩
      rw [List.length_cons] at short
      rw [List.length_append]
      omega

/-! ### Fractions and exponents -/

theorem fractionPart_sound {found : Bool} (read : fractionPart bytes = .ok (found, rest)) :
    ∃ lexeme, IsFraction lexeme ∧ bytes = lexeme ++ rest ∧ found = !lexeme.isEmpty := by
  unfold fractionPart at read
  split at read
  · obtain ⟨after, digits, same⟩ := map_eq_ok_iff.mp read
    obtain ⟨lexeme, isDigits, rfl⟩ := digits_sound digits
    rw [Prod.mk.injEq] at same
    obtain ⟨rfl, rfl⟩ := same
    exact ⟨0x2E :: lexeme, Or.inr ⟨lexeme, isDigits, rfl⟩, rfl, rfl⟩
  · rw [Except.ok.injEq, Prod.mk.injEq] at read
    obtain ⟨rfl, rfl⟩ := read
    exact ⟨[], Or.inl rfl, rfl, rfl⟩

theorem fractionPart_complete {lexeme : Bytes} (isFraction : IsFraction lexeme)
    (stops : Stops isDigitByte rest) (noPoint : rest.head? ≠ some 0x2E) :
    fractionPart (lexeme ++ rest) = .ok (!lexeme.isEmpty, rest) := by
  rcases isFraction with rfl | ⟨digits, isDigits, rfl⟩
  · unfold fractionPart
    split
    · rename_i point
      rw [List.nil_append] at point
      rw [point] at noPoint
      exact absurd rfl noPoint
    · rfl
  · rw [List.cons_append, fractionPart, digits_complete isDigits stops]
    rfl

theorem exponentPart_sound {found : Bool} (read : exponentPart bytes = .ok (found, rest)) :
    ∃ lexeme, IsExponent lexeme ∧ bytes = lexeme ++ rest ∧ found = !lexeme.isEmpty := by
  unfold exponentPart at read
  split at read
  · rw [Except.ok.injEq, Prod.mk.injEq] at read
    obtain ⟨rfl, rfl⟩ := read
    exact ⟨[], Or.inl rfl, rfl, rfl⟩
  · rename_i byte others
    split at read
    · rename_i letter
      have of_digits {sign after : Bytes} (either : sign = [] ∨ sign = [0x2B] ∨ sign = [0x2D])
          (read : (digits after).map (true, ·) = .ok (found, rest)) :
          ∃ lexeme, IsExponent lexeme ∧ byte :: (sign ++ after) = lexeme ++ rest ∧
            found = !lexeme.isEmpty := by
        obtain ⟨_, digits, same⟩ := map_eq_ok_iff.mp read
        obtain ⟨lexeme, isDigits, rfl⟩ := digits_sound digits
        rw [Prod.mk.injEq] at same
        obtain ⟨rfl, rfl⟩ := same
        exact ⟨byte :: (sign ++ lexeme), Or.inr ⟨byte, sign, lexeme, letter, either, isDigits, rfl⟩,
          by simp, rfl⟩
      split at read
      · exact of_digits (Or.inr (Or.inl rfl)) read
      · exact of_digits (Or.inr (Or.inr rfl)) read
      · exact of_digits (Or.inl rfl) read
    · rw [Except.ok.injEq, Prod.mk.injEq] at read
      obtain ⟨rfl, rfl⟩ := read
      exact ⟨[], Or.inl rfl, rfl, rfl⟩

theorem exponentPart_letter {letter : UInt8} (isLetter : letter = 0x45 ∨ letter = 0x65)
    (others : Bytes) :
    exponentPart (letter :: others) =
      match others with
      | 0x2B :: after => (digits after).map (true, ·)
      | 0x2D :: after => (digits after).map (true, ·)
      | after => (digits after).map (true, ·) := by
  unfold exponentPart
  exact if_pos isLetter

theorem exponentPart_other {byte : UInt8} (other : ¬ (byte = 0x45 ∨ byte = 0x65)) (others : Bytes) :
    exponentPart (byte :: others) = .ok (false, byte :: others) := by
  unfold exponentPart
  exact if_neg other

theorem exponentPart_complete {lexeme : Bytes} (isExponent : IsExponent lexeme)
    (stops : Stops isNumberByte rest) :
    exponentPart (lexeme ++ rest) = .ok (!lexeme.isEmpty, rest) := by
  have outside : ∀ byte ∈ rest.head?, isDigitByte byte = false ∧ ¬ (byte = 0x45 ∨ byte = 0x65) := by
    intro byte next
    have shorter := stops byte next
    simp only [isNumberByte, Bool.or_eq_false_iff, beq_eq_false_iff_ne, ne_eq] at shorter
    exact ⟨shorter.1.1.1, by rw [not_or]; exact ⟨shorter.1.2, shorter.2⟩⟩
  rcases isExponent with rfl | ⟨letter, sign, lexeme, isLetter, isSign, isDigits, rfl⟩
  · cases rest with
    | nil => rfl
    | cons byte others => exact exponentPart_other (outside byte rfl).2 others
  · have read := digits_complete isDigits fun byte next => (outside byte next).1
    have found : (digits (lexeme ++ rest)).map (true, ·) = .ok (true, rest) := by
      rw [read]
      rfl
    rw [List.cons_append, exponentPart_letter isLetter, List.append_assoc]
    rcases isSign with rfl | rfl | rfl
    · -- a digit is no sign
      have unsigned (byte : UInt8) (sign : isDigitByte byte = false) (after : Bytes) :
          lexeme ++ rest ≠ byte :: after := by
        intro cut
        cases lexeme with
        | nil => exact isDigits.1 rfl
        | cons first more =>
          have digit := isDigits.2 first (List.mem_cons_self ..)
          rw [(List.cons.inj cut).1, sign] at digit
          exact absurd digit (by decide)
      rw [List.nil_append]
      split
      · rename_i plus
        exact absurd plus (unsigned 0x2B (by decide) _)
      · rename_i minus
        exact absurd minus (unsigned 0x2D (by decide) _)
      · exact found
    · exact found
    · exact found

/-! ### Whole numbers -/

/-- The parts of a number make its value. -/
theorem numberValue_eq (negative : Bool) (integer fraction exponent : Bytes) :
    numberValue negative integer fraction exponent =
      if !fraction.isEmpty || !exponent.isEmpty then
        let written := (integer ++ fraction ++ exponent).map fun byte => Char.ofNat byte.toNat
        .decimal (if negative then '-' :: written else written)
      else
        .integer (if negative then -(numeral (integer ++ fraction ++ exponent) : Int)
          else numeral (integer ++ fraction ++ exponent)) := by
  cases fraction <;> cases exponent <;> simp [numberValue]

/-- What is left of some bytes without their end. -/
theorem take_lexeme (lexeme rest : Bytes) :
    (lexeme ++ rest).take ((lexeme ++ rest).length - rest.length) = lexeme := by
  rw [List.length_append, Nat.add_sub_cancel, List.take_left]

theorem unsignedNumber_sound {negative : Bool} {value : Value}
    (read : unsignedNumber negative bytes = .ok (value, rest)) :
    ∃ integer fraction exponent, IsInteger integer ∧ IsFraction fraction ∧ IsExponent exponent ∧
      bytes = (integer ++ fraction ++ exponent) ++ rest ∧
      value = numberValue negative integer fraction exponent := by
  obtain ⟨afterInteger, first, read⟩ := bind_eq_ok_iff.mp read
  obtain ⟨⟨hasFraction, afterFraction⟩, second, read⟩ := bind_eq_ok_iff.mp read
  obtain ⟨⟨hasExponent, behind⟩, third, read⟩ := bind_eq_ok_iff.mp read
  obtain ⟨integer, isInteger, rfl⟩ := integerPart_sound first
  obtain ⟨fraction, isFraction, rfl, rfl⟩ := fractionPart_sound second
  obtain ⟨exponent, isExponent, rfl, rfl⟩ := exponentPart_sound third
  have taken := take_lexeme (integer ++ fraction ++ exponent) behind
  rw [List.append_assoc, List.append_assoc] at taken
  simp only [taken, pure, Except.pure, Except.ok.injEq, Prod.mk.injEq] at read
  obtain ⟨rfl, rfl⟩ := read
  refine ⟨integer, fraction, exponent, isInteger, isFraction, isExponent, ?_, ?_⟩
  · rw [List.append_assoc, List.append_assoc]
  · rw [numberValue_eq]

theorem stops_digits_of_stops (stops : Stops isNumberByte rest) :
    Stops isDigitByte rest ∧ rest.head? ≠ some 0x2E := by
  refine ⟨fun byte next => ?_, fun point => absurd (stops 0x2E point) (by decide)⟩
  have outside := stops byte next
  simp only [isNumberByte, Bool.or_eq_false_iff] at outside
  exact outside.1.1.1

/-- An exponent, or what follows where there is none, begins with neither a digit nor a point. -/
theorem stops_exponent {exponent : Bytes} (isExponent : IsExponent exponent)
    (stops : Stops isNumberByte rest) :
    Stops isDigitByte (exponent ++ rest) ∧ (exponent ++ rest).head? ≠ some 0x2E := by
  rcases isExponent with rfl | ⟨letter, sign, digits, isLetter, _, _, rfl⟩
  · exact stops_digits_of_stops stops
  · refine ⟨stops_cons ?_ _, ?_⟩
    · rcases isLetter with rfl | rfl <;> decide
    · rcases isLetter with rfl | rfl <;> simp

/-- **The spelling of a number is read as it.** -/
theorem unsignedNumber_complete (negative : Bool) {integer fraction exponent : Bytes}
    (isInteger : IsInteger integer) (isFraction : IsFraction fraction)
    (isExponent : IsExponent exponent) (stops : Stops isNumberByte rest) :
    unsignedNumber negative ((integer ++ fraction ++ exponent) ++ rest) =
      .ok (numberValue negative integer fraction exponent, rest) := by
  obtain ⟨noDigit, noPoint⟩ := stops_exponent isExponent stops
  have behind : Stops isDigitByte (fraction ++ (exponent ++ rest)) := by
    rcases isFraction with rfl | ⟨digits, _, rfl⟩
    · exact noDigit
    · exact stops_cons (by decide) _
  have taken := take_lexeme (integer ++ fraction ++ exponent) rest
  rw [List.append_assoc, List.append_assoc] at taken ⊢
  rw [unsignedNumber, integerPart_complete isInteger behind, numberValue_eq]
  simp only [bind, Except.bind, fractionPart_complete isFraction noDigit noPoint,
    exponentPart_complete isExponent stops, taken]
  rfl

/-! ### Words -/

/-- **Words are read exactly from their letters.** -/
theorem expectWord_eq_ok_iff {letters : Text} {spelled : Bytes}
    (same : spelled.map UInt8.toNat = letters.map Char.toNat) :
    expectWord letters bytes = .ok rest ↔ bytes = spelled ++ rest := by
  induction letters generalizing bytes spelled with
  | nil =>
    rw [List.map_nil, List.map_eq_nil_iff] at same
    rw [same, expectWord, Except.ok.injEq, List.nil_append]
  | cons c others step =>
    cases spelled with
    | nil => exact absurd same.symm (List.cons_ne_nil _ _)
    | cons byte more =>
      obtain ⟨first, later⟩ := List.cons.inj same
      cases bytes with
      | nil => simp [expectWord]
      | cons other behind =>
        rw [expectWord, List.cons_append, List.cons.injEq, ← first]
        by_cases equal : other = byte
        · rw [if_pos (by rw [equal]), step later, and_iff_right equal]
        · rw [if_neg fun codes => equal (UInt8.toNat_inj.mp codes)]
          simp [equal]

end Handbook.Json
