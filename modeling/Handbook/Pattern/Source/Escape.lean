/-
**Escapes of regular expressions.**

A token with a backslash stands for a character, for a class of characters, for a place in the text,
or for what a group has matched. Inside a set of characters only the first two have a meaning. The
digits of a character's code are tokens of their own.
-/

import Handbook.Pattern.Source.Scanner

namespace Handbook.Pattern.Source

/-- What an escape stands for. -/
inductive Meaning where
  | char (code : Nat)
  | category
  | place
  | reference (width : Width)

/-- Whether a character is an octal digit. -/
def isOctalDigit (c : Char) : Bool := '0' ≤ c && c ≤ '7'

/-- Whether a character is a hexadecimal digit. -/
def isHexDigit (c : Char) : Bool := c.isDigit || ('a' ≤ c && c ≤ 'f') || ('A' ≤ c && c ≤ 'F')

/-- The value of a digit. -/
def digitValue (c : Char) : Nat :=
  if c.isDigit then c.toNat - 0x30
  else if c.isUpper then c.toNat - 0x37
  else c.toNat - 0x57

/-- The number that digits write in a base. -/
def numberOf (base : Nat) (digits : Text) : Nat :=
  digits.foldl (fun number digit => number * base + digitValue digit) 0

/-- The codes of control characters and of the backslash, by the letters that stand for them. -/
def letterCodes : List (Char × Nat) :=
  [('a', 7), ('b', 8), ('f', 12), ('n', 10), ('r', 13), ('t', 9), ('v', 11), ('\\', 92)]

/-- Whether a letter stands for a class of characters. -/
def isCategory (c : Char) : Bool := c ∈ ['d', 'D', 's', 'S', 'w', 'W']

/-- Whether a letter stands for a place in the text. -/
def isPlaceLetter (c : Char) : Bool := c ∈ ['A', 'b', 'B', 'Z']

/-- The largest code of an octal escape. -/
def octalLimit : Nat := 0o377

/-- The code that some octal digits write, those of an escape at a place. -/
def octalCode (position : Nat) (digits : Text) : Scan Nat := do
  let code := numberOf 8 digits
  if code ≤ octalLimit then return code else fail (.octalTooLarge ('\\' :: digits)) position

/-- The code that a number of hexadecimal digits write, in an escape that begins with a token. -/
def hexCode (token : Token) (count : Nat) : Scan Nat := do
  let digits ← takeChars count isHexDigit
  let escape := token.text ++ digits
  if digits.length < count then fail (.incompleteEscape escape) token.position
  let code := numberOf 16 digits
  if code ≤ 0x10FFFF then return code else fail (.badEscape escape) token.position

/-- The code of an escape that means the same everywhere. -/
def plainCode (token : Token) : Scan Nat :=
  match token.char with
  | 'x' => hexCode token 2
  | 'u' => hexCode token 4
  | 'U' => hexCode token 8
  | c => if c.isAlpha then fail (.badEscape token.text) token.position else return c.toNat

/-- What an escape stands for in a set. -/
def meaningInSet (token : Token) : Scan Meaning := do
  match letterCodes.lookup token.char with
  | some code => return .char code
  | none =>
    if isCategory token.char then return .category
    else if isOctalDigit token.char then
      let others ← takeChars 2 isOctalDigit
      return .char (← octalCode token.position (token.char :: others))
    else if token.char.isDigit then fail (.badEscape token.text) token.position
    else return .char (← plainCode token)

/-- What a reference by number stands for, given the place of its backslash. -/
def numberedReference (position : Nat) (group : Nat) : Scan Meaning := do
  if group < (← groups).count then return .reference (← referTo group position)
  else fail (.noSuchGroup group) (position + 1)

/-- What an escape with a digit other than zero stands for: three octal digits are a character, and
one digit or two are a group. -/
def meaningOfDigits (token : Token) : Scan Meaning := do
  match ← takeChars 1 Char.isDigit with
  | [second] =>
    let third ←
      if isOctalDigit token.char && isOctalDigit second then takeChars 1 isOctalDigit else pure []
    let digits := token.char :: second :: third
    if third.isEmpty then numberedReference token.position (numberOf 10 digits)
    else return .char (← octalCode token.position digits)
  | _ => numberedReference token.position (digitValue token.char)

/-- What an escape stands for outside sets. -/
def meaningOf (token : Token) : Scan Meaning := do
  if isPlaceLetter token.char then return .place
  else if isCategory token.char then return .category
  else
    match letterCodes.lookup token.char with
    | some code => return .char code
    | none =>
      if token.char == '0' then
        return .char (numberOf 8 (← takeChars 2 isOctalDigit))
      else if token.char.isDigit then meaningOfDigits token
      else return .char (← plainCode token)

end Handbook.Pattern.Source
