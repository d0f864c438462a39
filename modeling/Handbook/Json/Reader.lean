/-
**Reading JSON.**

A blob is read as one JSON value with blanks around it. Beside the usual words a value may be `NaN`
or an infinity. At most two hundred containers that hold something may be open at once: each level
of nesting is read by a reader that is built from the reader of the level below. A number may be as
large as its digits make it, as long as there are not too many before its point.
-/

import Handbook.Json.String
import Handbook.Json.Value

namespace Handbook.Json

/-- What reads a thing at the start of some bytes: it gives the thing and the bytes after it. -/
abbrev Reader (α : Type) := Bytes → Except Failure (α × Bytes)

/-! ### Blanks and words -/

/-- Whether a byte is a blank between tokens. -/
def isBlankByte (byte : UInt8) : Bool := byte ∈ [0x20, 0x09, 0x0A, 0x0D]

/-- The bytes after the blanks at the start. -/
def skipBlanks (bytes : Bytes) : Bytes := bytes.dropWhile isBlankByte

/-- The bytes after the rest of a word that has begun. -/
def expectWord (word : Text) (bytes : Bytes) : Except Failure Bytes :=
  match word, bytes with
  | [], bytes => .ok bytes
  | _ :: _, [] => .error ⟨.endInValue, 0⟩
  | c :: others, byte :: rest =>
    if byte.toNat = c.toNat then expectWord others rest
    else .error ⟨.expectedIdent, rest.length + 1⟩

/-- A value that is a word, whose first letter has been read. -/
def word (others : String) (value : Value) : Reader Value := fun bytes =>
  (expectWord others.toList bytes).map (value, ·)

/-! ### Numbers -/

/-- Whether a byte is a digit. -/
def isDigitByte (byte : UInt8) : Bool := 0x30 ≤ byte && byte ≤ 0x39

/-- The bytes after one digit or more. -/
def digits : Bytes → Except Failure Bytes
  | [] => .error ⟨.endInValue, 0⟩
  | byte :: rest =>
    if isDigitByte byte then .ok (rest.dropWhile isDigitByte)
    else .error ⟨.invalidNumber, rest.length + 1⟩

/-- How many digits the integer part of a number may have. -/
def digitLimit : Nat := 4300

/-- The bytes after the integer part of a number, which has no zero in front of other digits. If it
has too many digits, it fails after the first digit too many. -/
def integerPart : Bytes → Except Failure Bytes
  | [] => .error ⟨.endInValue, 0⟩
  | byte :: rest =>
    if byte = 0x30 then
      if rest.head?.any isDigitByte then .error ⟨.invalidNumber, rest.length⟩ else .ok rest
    else do
      let after ← digits (byte :: rest)
      if after.length + digitLimit ≤ rest.length then
        .error ⟨.numberOutOfRange, rest.length - digitLimit⟩
      else .ok after

/-- The bytes after the fraction of a number, and whether there is one. -/
def fractionPart : Bytes → Except Failure (Bool × Bytes)
  | 0x2E :: rest => (digits rest).map (true, ·)
  | bytes => .ok (false, bytes)

/-- The bytes after the exponent of a number, and whether there is one. -/
def exponentPart (bytes : Bytes) : Except Failure (Bool × Bytes) :=
  match bytes with
  | [] => .ok (false, [])
  | byte :: rest =>
    if byte = 0x45 ∨ byte = 0x65 then
      match rest with
      | 0x2B :: after => (digits after).map (true, ·)
      | 0x2D :: after => (digits after).map (true, ·)
      | after => (digits after).map (true, ·)
    else .ok (false, byte :: rest)

/-- The number that a row of digits writes. -/
def numeral (lexeme : Bytes) : Nat :=
  lexeme.foldl (fun value byte => value * 10 + (byte.toNat - 0x30)) 0

/-- A number without a sign, given whether a minus stands before it. -/
def unsignedNumber (negative : Bool) : Reader Value := fun bytes => do
  let afterInteger ← integerPart bytes
  let (fraction, afterFraction) ← fractionPart afterInteger
  let (exponent, rest) ← exponentPart afterFraction
  let lexeme := bytes.take (bytes.length - rest.length)
  let value :=
    if fraction || exponent then
      let written := lexeme.map fun byte => Char.ofNat byte.toNat
      .decimal (if negative then '-' :: written else written)
    else
      .integer (if negative then -(numeral lexeme : Int) else numeral lexeme)
  return (value, rest)

/-- A number with or without a sign, or a negative infinity. -/
def number : Reader Value
  | 0x2D :: 0x49 :: rest => word "nfinity" (.decimal "-Infinity".toList) rest
  | 0x2D :: rest => unsignedNumber true rest
  | bytes => unsignedNumber false bytes

/-! ### Containers -/

/-- The items of an array from one of them on, up to the closing bracket. -/
def items (read : Reader Value) : (fuel : Nat) → Reader (List Value)
  | 0, bytes => .error ⟨.endInList, bytes.length⟩
  | fuel + 1, bytes => do
    let (item, rest) ← read bytes
    match skipBlanks rest with
    | [] => .error ⟨.endInList, 0⟩
    | 0x5D :: after => return ([item], after)
    | 0x2C :: after =>
      match skipBlanks after with
      | [] => .error ⟨.endInValue, 0⟩
      | 0x5D :: others => .error ⟨.trailingComma, others.length + 1⟩
      | next =>
        let (others, left) ← items read fuel next
        return (item :: others, left)
    | other => .error ⟨.expectedCommaOrBracket, other.length⟩

/-- The name of a member, whose opening quote has been read, up to its colon. -/
def memberName : Reader Text := fun bytes => do
  let (name, rest) ← string bytes
  match skipBlanks rest with
  | [] => .error ⟨.endInObject, 0⟩
  | 0x3A :: after => return (name, after)
  | other => .error ⟨.expectedColon, other.length⟩

/-- The members of an object from one of them on, the quote of whose name has been read, up to the
closing brace. -/
def members (read : Reader Value) : (fuel : Nat) → Reader Members
  | 0, bytes => .error ⟨.endInObject, bytes.length⟩
  | fuel + 1, bytes => do
    let (name, rest) ← memberName bytes
    let (value, rest) ← read rest
    match skipBlanks rest with
    | [] => .error ⟨.endInObject, 0⟩
    | 0x7D :: after => return ([(name, value)], after)
    | 0x2C :: after =>
      match skipBlanks after with
      | [] => .error ⟨.endInValue, 0⟩
      | 0x7D :: others => .error ⟨.trailingComma, others.length + 1⟩
      | 0x22 :: next =>
        let (others, left) ← members read fuel next
        return ((name, value) :: others, left)
      | other => .error ⟨.keyMustBeString, other.length⟩
    | other => .error ⟨.expectedCommaOrBrace, other.length⟩

/-! ### Values -/

/-- The reader of the values inside a container. When no level is left, the first one fails. -/
def nested (inner : Option (Reader Value)) : Reader Value := fun bytes =>
  match inner with
  | some read => read bytes
  | none =>
    match skipBlanks bytes with
    | [] => .error ⟨.endInValue, 0⟩
    | value => .error ⟨.recursionLimit, value.length⟩

/-- An array, whose opening bracket has been read. -/
def array (inner : Option (Reader Value)) : Reader Value := fun bytes =>
  match skipBlanks bytes with
  | [] => .error ⟨.endInList, 0⟩
  | 0x5D :: rest => .ok (.array [], rest)
  | first => (items (nested inner) first.length first).map fun (values, rest) =>
    (.array values, rest)

/-- An object, whose opening brace has been read. -/
def object (inner : Option (Reader Value)) : Reader Value := fun bytes =>
  match skipBlanks bytes with
  | [] => .error ⟨.endInObject, 0⟩
  | 0x7D :: rest => .ok (.object [], rest)
  | 0x22 :: first => (members (nested inner) (first.length + 1) first).map fun (values, rest) =>
    (.object values, rest)
  | other => .error ⟨.keyMustBeString, other.length⟩

/-- A value after blanks, given the reader of the values inside it. -/
def valueAt (inner : Option (Reader Value)) : Reader Value := fun bytes =>
  match skipBlanks bytes with
  | [] => .error ⟨.endInValue, 0⟩
  | byte :: rest =>
    if byte = 0x5B then array inner rest
    else if byte = 0x7B then object inner rest
    else if byte = quoteByte then (string rest).map fun (text, after) => (.string text, after)
    else if byte = 0x6E then word "ull" .null rest
    else if byte = 0x74 then word "rue" (.bool true) rest
    else if byte = 0x66 then word "alse" (.bool false) rest
    else if byte = 0x4E then word "aN" (.decimal "NaN".toList) rest
    else if byte = 0x49 then word "nfinity" (.decimal "Infinity".toList) rest
    else if byte = 0x2D ∨ isDigitByte byte then number (byte :: rest)
    else .error ⟨.expectedValue, rest.length + 1⟩

/-- A value after blanks, with a number of levels of containers that hold something. -/
def value : (levels : Nat) → Reader Value
  | 0 => valueAt none
  | levels + 1 => valueAt (some (value levels))

/-- How many containers that hold something may be open at once. -/
def nestingLimit : Nat := 200

/-- The value that a blob writes. -/
def read (blob : Bytes) : Except Fault Value :=
  match value nestingLimit blob with
  | .error failure => .error (failure.located blob)
  | .ok (result, rest) =>
    match skipBlanks rest with
    | [] => .ok result
    | other => .error (Failure.located blob ⟨.trailingCharacters, other.length⟩)

end Handbook.Json
