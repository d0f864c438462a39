/-
**Failures of reading JSON.**

A failure says what is wrong and at which byte. The byte is told by a line and a column, both
counted over the bytes up to and with it: the lines from one, and the column from the last line
feed.
-/

import Handbook.Utf8

namespace Handbook.Json

/-- What is wrong with a JSON text. -/
inductive Reason where
  | endInValue
  | endInList
  | endInObject
  | endInString
  | expectedValue
  | expectedIdent
  | invalidNumber
  | numberOutOfRange
  | expectedCommaOrBracket
  | expectedCommaOrBrace
  | trailingComma
  | keyMustBeString
  | expectedColon
  | recursionLimit
  | controlCharacter
  | invalidEscape
  | loneSurrogate
  | unexpectedEndOfEscape
  | invalidCodePoint
  | trailingCharacters
  deriving DecidableEq, Repr

/-- The wording of a reason. -/
def Reason.message : Reason → Text
  | .endInValue => "EOF while parsing a value".toList
  | .endInList => "EOF while parsing a list".toList
  | .endInObject => "EOF while parsing an object".toList
  | .endInString => "EOF while parsing a string".toList
  | .expectedValue => "expected value".toList
  | .expectedIdent => "expected ident".toList
  | .invalidNumber => "invalid number".toList
  | .numberOutOfRange => "number out of range".toList
  | .expectedCommaOrBracket => "expected `,` or `]`".toList
  | .expectedCommaOrBrace => "expected `,` or `\x7d`".toList
  | .trailingComma => "trailing comma".toList
  | .keyMustBeString => "key must be a string".toList
  | .expectedColon => "expected `:`".toList
  | .recursionLimit => "recursion limit exceeded".toList
  | .controlCharacter =>
    "control character (\\u0000-\\u001F) found while parsing a string".toList
  | .invalidEscape => "invalid escape".toList
  | .loneSurrogate => "lone leading surrogate in hex escape".toList
  | .unexpectedEndOfEscape => "unexpected end of hex escape".toList
  | .invalidCodePoint => "invalid unicode code point".toList
  | .trailingCharacters => "trailing characters".toList

/-- A failure, and how many bytes are left from the byte at which it happened. -/
structure Failure where
  reason : Reason
  remaining : Nat
  deriving DecidableEq, Repr

/-- A failure with its place in the text. -/
structure Fault where
  reason : Reason
  line : Nat
  column : Nat
  deriving DecidableEq, Repr

/-- The byte that ends a line. -/
def lineFeed : UInt8 := 0x0A

/-- The place of a failure in a text. -/
def Failure.located (blob : Bytes) (failure : Failure) : Fault :=
  let seen := blob.take (blob.length - failure.remaining + 1)
  { reason := failure.reason
    line := seen.count lineFeed + 1
    column := (seen.reverse.takeWhile (· != lineFeed)).length }

/-- The wording of a failure. -/
def Fault.message (fault : Fault) : Text :=
  "Invalid JSON: ".toList ++ fault.reason.message ++ " at line ".toList ++ Text.decimal fault.line
    ++ " column ".toList ++ Text.decimal fault.column

end Handbook.Json
