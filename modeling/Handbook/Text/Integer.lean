/-
**Integers in texts.**

An integer is written with digits of any script, perhaps with a sign before them, single underscores
between them, and blanks around the whole: the six of ASCII, and all that are not in ASCII.
-/

import Handbook.Text.Basic
import Handbook.Unicode.Digit

namespace Handbook.Text

open Unicode

/-- Whether a character is one of the ASCII blanks. -/
def isAsciiBlank (c : Char) : Bool := c ∈ [' ', '\t', '\n', '\x0b', '\x0c', '\r']

/-- Whether a character is in ASCII. -/
def isAscii (c : Char) : Bool := c.toNat < 0x80

/-- Whether a character may surround an integer in a text: an ASCII blank, and a blank outside ASCII
too. -/
def surroundsInteger (c : Char) : Bool := isAsciiBlank c || (!isAscii c && isBlank c)

/-- The values of the digits from one of them on, which single underscores may part. -/
def digitRow? : Text → Option (List Nat)
  | [] => none
  | [c] => (digitValue? c).map ([·])
  | c :: '_' :: rest => do
    let first ← digitValue? c
    let others ← digitRow? rest
    return first :: others
  | c :: rest => do
    let first ← digitValue? c
    let others ← digitRow? rest
    return first :: others

/-- How many digits an integer may have. -/
def digitLimit : Nat := 4300

/-- The number that a row of digits writes, if it is not too long. -/
def natural? (text : Text) : Option Nat := do
  let digits ← digitRow? text
  if digits.length ≤ digitLimit then
    return digits.foldl (fun value digit => value * 10 + digit) 0
  else none

/-- The integer that a text writes. -/
def integer? (text : Text) : Option Int :=
  match trim surroundsInteger text with
  | '-' :: digits => (natural? digits).map fun number => -(number : Int)
  | '+' :: digits => (natural? digits).map Int.ofNat
  | digits => (natural? digits).map Int.ofNat

end Handbook.Text
