/-
**How JSON values are spelled.**

A value may be spelled in many ways: with blanks between its tokens, and with any mix of plain
characters and escapes in its strings. Nothing is said here of how a spelling is read.

* `SpellsText`: the insides of the strings that spell a text;
* `SpellsNumber`: the numbers;
* `Spells`: all values, given how many containers that hold something may be open at once;
* `Writes`: the blobs that write a value.
-/

import Handbook.Json.Reader

namespace Handbook.Json

/-- Bytes that part tokens. -/
def Blank (bytes : Bytes) : Prop := ∀ byte ∈ bytes, isBlankByte byte = true

/-! ### Strings -/

/-- Four hexadecimal digits of a code unit. -/
inductive SpellsUnit : (code : Nat) → Bytes → Prop where
  | digits {first second third fourth a b c d} : hexValue? first = some a →
      hexValue? second = some b → hexValue? third = some c → hexValue? fourth = some d →
      SpellsUnit (((a * 16 + b) * 16 + c) * 16 + d) [first, second, third, fourth]

/-- What stands behind the backslash of an escape: the letter of a short escape, or one code unit,
or two that make a pair. -/
inductive Escapes : Char → Bytes → Prop where
  | short {c letter} : shortEscape? letter = some c → Escapes c [letter]
  | unit {code digits} : SpellsUnit code digits → isHighSurrogate code = false →
      isLowSurrogate code = false → Escapes (Char.ofNat code) (unicodeByte :: digits)
  | pair {high low digits digits'} : SpellsUnit high digits → isHighSurrogate high = true →
      SpellsUnit low digits' → isLowSurrogate low = true →
      Escapes (Char.ofNat (0x10000 + (high - 0xD800) * 0x400 + (low - 0xDC00)))
        (unicodeByte :: digits ++ backslashByte :: unicodeByte :: digits')

/-- A character inside a string: as it is, unless it is a control character, a quote or a backslash,
or as an escape. -/
inductive SpellsChar : Char → Bytes → Prop where
  | plain {c} : 0x20 ≤ c.toNat → c ≠ '"' → c ≠ '\\' → SpellsChar c (String.utf8EncodeChar c)
  | escaped {c spelled} : Escapes c spelled → SpellsChar c (backslashByte :: spelled)

/-- The inside of a string. -/
inductive SpellsText : Text → Bytes → Prop where
  | nil : SpellsText [] []
  | cons {c rest spelled others} : SpellsChar c spelled → SpellsText rest others →
      SpellsText (c :: rest) (spelled ++ others)

/-! ### Numbers -/

/-- One digit or more. -/
def IsDigits (digits : Bytes) : Prop := digits ≠ [] ∧ ∀ byte ∈ digits, isDigitByte byte = true

/-- The integer part of a number: a zero, or digits that begin with none and are not too many. -/
def IsInteger (lexeme : Bytes) : Prop :=
  lexeme = [0x30] ∨ IsDigits lexeme ∧ lexeme.head? ≠ some 0x30 ∧ lexeme.length ≤ digitLimit

/-- The fraction of a number, if there is one. -/
def IsFraction (lexeme : Bytes) : Prop :=
  lexeme = [] ∨ ∃ digits, IsDigits digits ∧ lexeme = 0x2E :: digits

/-- The exponent of a number, if there is one. -/
def IsExponent (lexeme : Bytes) : Prop :=
  lexeme = [] ∨ ∃ letter sign digits, (letter = 0x45 ∨ letter = 0x65) ∧
    (sign = [] ∨ sign = [0x2B] ∨ sign = [0x2D]) ∧ IsDigits digits ∧
      lexeme = letter :: (sign ++ digits)

/-- The value of a number, by its parts. -/
def numberValue (negative : Bool) (integer fraction exponent : Bytes) : Value :=
  if fraction = [] ∧ exponent = [] then
    .integer (if negative then -(numeral integer : Int) else numeral integer)
  else
    let written := (integer ++ fraction ++ exponent).map fun byte => Char.ofNat byte.toNat
    .decimal (if negative then '-' :: written else written)

/-- A number with or without a minus. -/
inductive SpellsNumber : Value → Bytes → Prop where
  | positive {integer fraction exponent} : IsInteger integer → IsFraction fraction →
      IsExponent exponent →
      SpellsNumber (numberValue false integer fraction exponent) (integer ++ fraction ++ exponent)
  | negative {integer fraction exponent} : IsInteger integer → IsFraction fraction →
      IsExponent exponent →
      SpellsNumber (numberValue true integer fraction exponent)
        (0x2D :: (integer ++ fraction ++ exponent))

/-! ### Values -/

/-- The words that are values. -/
def words : List (String × Value) :=
  [("null", .null), ("true", .bool true), ("false", .bool false), ("NaN", .decimal "NaN".toList),
    ("Infinity", .decimal "Infinity".toList), ("-Infinity", .decimal "-Infinity".toList)]

/-- Things parted by commas, with blanks around the commas and behind the last thing. -/
inductive SpellsList {Item : Type} (spells : Item → Bytes → Prop) : List Item → Bytes → Prop where
  | last {item spelled blanks} : spells item spelled → Blank blanks →
      SpellsList spells [item] (spelled ++ blanks)
  | next {item others spelled before after rest} : spells item spelled → Blank before →
      Blank after → SpellsList spells others rest →
      SpellsList spells (item :: others) (spelled ++ (before ++ 0x2C :: (after ++ rest)))

/-- A member of an object: its name, a colon and its value. -/
inductive SpellsMember (spells : Value → Bytes → Prop) : Text × Value → Bytes → Prop where
  | member {name value inside before after spelled} : SpellsText name inside → Blank before →
      Blank after → spells value spelled →
      SpellsMember spells (name, value)
        (quoteByte :: (inside ++ quoteByte :: (before ++ 0x3A :: (after ++ spelled))))

/-- A value, given how the values inside it are spelled. -/
inductive SpellsAt (inner : Value → Bytes → Prop) : Value → Bytes → Prop where
  | word {name value} : (name, value) ∈ words → SpellsAt inner value (Utf8.encode name.toList)
  | number {value lexeme} : SpellsNumber value lexeme → SpellsAt inner value lexeme
  | string {text inside} : SpellsText text inside →
      SpellsAt inner (.string text) (quoteByte :: (inside ++ [quoteByte]))
  | emptyArray {blanks} : Blank blanks → SpellsAt inner (.array []) (0x5B :: (blanks ++ [0x5D]))
  | array {blanks items bytes} : Blank blanks → SpellsList inner items bytes →
      SpellsAt inner (.array items) (0x5B :: (blanks ++ (bytes ++ [0x5D])))
  | emptyObject {blanks} : Blank blanks → SpellsAt inner (.object []) (0x7B :: (blanks ++ [0x7D]))
  | object {blanks members bytes} : Blank blanks →
      SpellsList (SpellsMember inner) members bytes →
      SpellsAt inner (.object members) (0x7B :: (blanks ++ (bytes ++ [0x7D])))

/-- A value in which at most so many containers that hold something are open at once. -/
def Spells : (levels : Nat) → Value → Bytes → Prop
  | 0 => SpellsAt fun _ _ => False
  | levels + 1 => SpellsAt (Spells levels)

/-- A blob that is one value with blanks around it. -/
def Writes (levels : Nat) (blob : Bytes) (value : Value) : Prop :=
  ∃ before spelled after, Blank before ∧ Spells levels value spelled ∧ Blank after ∧
    blob = before ++ (spelled ++ after)

end Handbook.Json
