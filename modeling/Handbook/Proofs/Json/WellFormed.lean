/-
**What writes a JSON value is well-formed.**

Only the content of strings is checked to be UTF-8 while JSON is read. All that stands around it is
ASCII, and so is every escape, so each blob that writes a value is UTF-8 as a whole.

* `SpellsText.wellFormed`: the insides of strings;
* `Spells.wellFormed`: the spellings of values;
* `Writes.wellFormed`: the blobs that write values.
-/

import Handbook.Proofs.Json.Spelling
import Handbook.Proofs.Utf8.Fault

namespace Handbook.Json

open Utf8

variable {bytes : Bytes}

/-! ### ASCII -/

/-- Bytes that are characters by themselves. -/
def Ascii (bytes : Bytes) : Prop := ∀ byte ∈ bytes, byte.toNat < 0x80

theorem Ascii.cons {byte : UInt8} (low : byte.toNat < 0x80) (others : Ascii bytes) :
    Ascii (byte :: bytes) :=
  List.forall_mem_cons.mpr ⟨low, others⟩

theorem Ascii.append {first second : Bytes} (one : Ascii first) (two : Ascii second) :
    Ascii (first ++ second) :=
  List.forall_mem_append.mpr ⟨one, two⟩

theorem wellFormed_cons {byte : UInt8} (low : byte.toNat < 0x80) (others : WellFormed bytes) :
    WellFormed (byte :: bytes) :=
  .append (.one low) others

theorem Ascii.wellFormed (ascii : Ascii bytes) : WellFormed bytes := by
  induction bytes with
  | nil => exact .nil
  | cons byte others step =>
    obtain ⟨low, ascii⟩ := List.forall_mem_cons.mp ascii
    exact wellFormed_cons low (step ascii)

theorem Blank.ascii (blank : Blank bytes) : Ascii bytes := by
  intro byte member
  have isBlank := blank byte member
  simp only [isBlankByte, decide_eq_true_eq, List.mem_cons, List.not_mem_nil, or_false] at isBlank
  rcases isBlank with rfl | rfl | rfl | rfl <;> decide

theorem low_of_isDigitByte {byte : UInt8} (digit : isDigitByte byte = true) :
    byte.toNat < 0x80 := by
  simp only [isDigitByte, Bool.and_eq_true, decide_eq_true_eq, UInt8.le_iff_toNat_le,
    UInt8.reduceToNat] at digit
  omega

theorem low_of_hexValue {byte : UInt8} {digit : Nat} (hex : hexValue? byte = some digit) :
    byte.toNat < 0x80 := by
  simp only [hexValue?, UInt8.le_iff_toNat_le, UInt8.reduceToNat] at hex
  split_ifs at hex <;> omega

theorem low_of_shortEscape {letter : UInt8} {c : Char} (short : shortEscape? letter = some c) :
    letter.toNat < 0x80 := by
  unfold shortEscape? at short
  split_ifs at short <;> subst letter <;> decide

/-! ### Strings -/

theorem SpellsUnit.ascii {code : Nat} (spells : SpellsUnit code bytes) : Ascii bytes := by
  obtain ⟨first, second, third, fourth⟩ := spells
  exact .cons (low_of_hexValue first) <| .cons (low_of_hexValue second) <|
    .cons (low_of_hexValue third) <| .cons (low_of_hexValue fourth) nofun

theorem Escapes.ascii {c : Char} (escapes : Escapes c bytes) : Ascii bytes := by
  cases escapes with
  | short short => exact .cons (low_of_shortEscape short) nofun
  | unit spells _ _ => exact .cons (by decide) spells.ascii
  | pair spells _ spells' _ =>
    exact .append (.cons (by decide) spells.ascii)
      (.cons (by decide) (.cons (by decide) spells'.ascii))

/-- **The inside of a string is UTF-8**: its characters stand as they are or as escapes. -/
theorem SpellsText.wellFormed {text : Text} (spells : SpellsText text bytes) :
    WellFormed bytes := by
  induction spells with
  | nil => exact .nil
  | cons char _ step =>
    refine WellFormed.join ?_ step
    cases char with
    | plain _ _ _ => exact encode_singleton _ ▸ wellFormed_encode [_]
    | escaped escapes => exact wellFormed_cons (by decide) escapes.ascii.wellFormed

/-! ### Numbers -/

theorem IsDigits.ascii (digits : IsDigits bytes) : Ascii bytes :=
  fun byte member => low_of_isDigitByte (digits.2 byte member)

theorem IsInteger.ascii (isInteger : IsInteger bytes) : Ascii bytes := by
  rcases isInteger with rfl | ⟨digits, _⟩
  · exact .cons (by decide) nofun
  · exact digits.ascii

theorem IsFraction.ascii (isFraction : IsFraction bytes) : Ascii bytes := by
  rcases isFraction with rfl | ⟨lexeme, digits, rfl⟩
  · exact nofun
  · exact .cons (by decide) digits.ascii

theorem IsExponent.ascii (isExponent : IsExponent bytes) : Ascii bytes := by
  rcases isExponent with rfl | ⟨letter, sign, lexeme, letters, signs, digits, rfl⟩
  · exact nofun
  · refine .cons (by rcases letters with rfl | rfl <;> decide) (.append ?_ digits.ascii)
    rcases signs with rfl | rfl | rfl
    · exact nofun
    · exact .cons (by decide) nofun
    · exact .cons (by decide) nofun

theorem SpellsNumber.ascii {value : Value} (spells : SpellsNumber value bytes) : Ascii bytes := by
  cases spells with
  | positive isInteger isFraction isExponent =>
    exact (isInteger.ascii.append isFraction.ascii).append isExponent.ascii
  | negative isInteger isFraction isExponent =>
    exact .cons (by decide) ((isInteger.ascii.append isFraction.ascii).append isExponent.ascii)

/-! ### Values -/

section

variable {spells : Value → Bytes → Prop}

theorem SpellsList.wellFormed {Item : Type} {spells : Item → Bytes → Prop} {items : List Item}
    (inner : ∀ item bytes, spells item bytes → WellFormed bytes)
    (list : SpellsList spells items bytes) : WellFormed bytes := by
  induction list with
  | last one blank => exact (inner _ _ one).join blank.ascii.wellFormed
  | next one before after _ step =>
    exact (inner _ _ one).join <| before.ascii.wellFormed.join <|
      wellFormed_cons (by decide) (after.ascii.wellFormed.join step)

theorem SpellsMember.wellFormed (inner : ∀ value bytes, spells value bytes → WellFormed bytes)
    {member : Text × Value} (one : SpellsMember spells member bytes) : WellFormed bytes := by
  cases one with
  | member text before after value =>
    exact wellFormed_cons (by decide) <| text.wellFormed.join <| wellFormed_cons (by decide) <|
      before.ascii.wellFormed.join <| wellFormed_cons (by decide) <|
        after.ascii.wellFormed.join (inner _ _ value)

/-- What is between two brackets or braces is UTF-8 together with them. -/
theorem wellFormed_enclosed {opening closing : UInt8} {blanks inside : Bytes}
    (low : opening.toNat < 0x80) (low' : closing.toNat < 0x80) (blank : Blank blanks)
    (wellFormed : WellFormed inside) :
    WellFormed (opening :: (blanks ++ (inside ++ [closing]))) :=
  wellFormed_cons low <| blank.ascii.wellFormed.join <|
    wellFormed.join (wellFormed_cons low' .nil)

theorem SpellsAt.wellFormed (inner : ∀ value bytes, spells value bytes → WellFormed bytes)
    {value : Value} (one : SpellsAt spells value bytes) : WellFormed bytes := by
  cases one with
  | word _ => exact wellFormed_encode _
  | number spelling => exact spelling.ascii.wellFormed
  | string text =>
    exact wellFormed_cons (by decide) (text.wellFormed.join (wellFormed_cons (by decide) .nil))
  | emptyArray blank => exact wellFormed_enclosed (by decide) (by decide) blank .nil
  | array blank list =>
    exact wellFormed_enclosed (by decide) (by decide) blank (list.wellFormed inner)
  | emptyObject blank => exact wellFormed_enclosed (by decide) (by decide) blank .nil
  | object blank list =>
    exact wellFormed_enclosed (by decide) (by decide) blank
      (list.wellFormed fun _ _ => SpellsMember.wellFormed inner)

end

/-- **The spelling of a value is UTF-8.** -/
theorem Spells.wellFormed {levels : Nat} {value : Value} (spells : Spells levels value bytes) :
    WellFormed bytes := by
  induction levels generalizing value bytes with
  | zero => exact SpellsAt.wellFormed (fun _ _ => False.elim) spells
  | succ levels step => exact SpellsAt.wellFormed (fun _ _ => step) spells

/-- **A blob that writes a value is UTF-8.** -/
theorem Writes.wellFormed {levels : Nat} {blob : Bytes} {value : Value}
    (writes : Writes levels blob value) : WellFormed blob := by
  obtain ⟨before, spelled, after, blank, spells, blank', rfl⟩ := writes
  exact blank.ascii.wellFormed.join (spells.wellFormed.join blank'.ascii.wellFormed)

end Handbook.Json
