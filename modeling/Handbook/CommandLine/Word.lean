/-
**Words of the command line.**

Before anything is done, every word of the command line is read as an option or as a plain argument.
A long option may be cut short as long as it is clear which one is meant, and a value may follow it
after an equals sign; the letters of short options may stand in one word. After a double hyphen
every word is plain.
-/

import Handbook.CommandLine.Option
import Handbook.Unicode.Digit

namespace Handbook.CommandLine

/-- An option as a word spells it: the option, its full spelling, and the value that the word
holds. -/
structure Spelled where
  flag : Flag
  spelling : Text
  value : Option Text

/-- What a word is: a plain argument, the double hyphen that ends the options, an option, or what
looks like an option and is none. -/
inductive Reading where
  | argument
  | endOfOptions
  | option (spelled : Spelled)
  | unknown

/-- The word that ends the options. -/
def doubleHyphen : Text := ['-', '-']

/-- A word without a line feed at its end. -/
def dropLineFeed (word : Text) : Text :=
  if word.getLast? = some '\n' then word.dropLast else word

/-- Whether what follows a minus is a number: digits, or a point with digits after it and perhaps
before it. -/
def isUnsignedNumber (word : Text) : Bool :=
  let rest := word.dropWhile Unicode.isDigit
  match rest with
  | [] => !word.isEmpty
  | '.' :: fraction => !fraction.isEmpty && fraction.all Unicode.isDigit
  | _ => false

/-- Whether a word is a negative number, perhaps with a line feed at its end. -/
def isNegativeNumber (word : Text) : Bool :=
  match word with
  | '-' :: rest => isUnsignedNumber rest || isUnsignedNumber (dropLineFeed rest)
  | _ => false

/-- A word cut at its first equals sign. -/
def cutAtEquals (word : Text) : Text × Option Text :=
  match word.dropWhile (· != '=') with
  | [] => (word, none)
  | _ :: value => (word.takeWhile (· != '='), some value)

/-- The options that a shortened word may mean. -/
def candidates (word : Text) : List Spelled :=
  match word with
  | '-' :: '-' :: _ =>
    let (name, value) := cutAtEquals word
    (Flag.table.filter fun (spelling, _) => name.isPrefixOf spelling).map
      fun (spelling, flag) => ⟨flag, spelling, value⟩
  | _ =>
    Flag.table.filterMap fun (spelling, flag) =>
      if spelling = word.take 2 then some ⟨flag, spelling, some (word.drop 2)⟩
      else if word.isPrefixOf spelling then some ⟨flag, spelling, none⟩
      else none

/-- The option that a word spells in full, perhaps with a value after an equals sign. -/
def spelledInFull? (word : Text) : Option Spelled :=
  match Flag.ofSpelling? word, cutAtEquals word with
  | some flag, _ => some ⟨flag, word, none⟩
  | none, (name, some value) =>
    (Flag.ofSpelling? name).map fun flag => ⟨flag, name, some value⟩
  | none, (_, none) => none

/-- What a word that begins with a hyphen and has more after it is. -/
def readHyphenated (word : Text) : Except Mistake Reading :=
  match spelledInFull? word, candidates word with
  | some spelled, _ => .ok (.option spelled)
  | none, [spelled] => .ok (.option spelled)
  | none, [] =>
    if isNegativeNumber word || ' ' ∈ word then .ok .argument else .ok .unknown
  | none, several => .error (.ambiguous word (several.map Spelled.spelling))

/-- What a word is, before the end of the options. -/
def readWord (word : Text) : Except Mistake Reading :=
  match word with
  | ['-', '-'] => .ok .endOfOptions
  | '-' :: _ :: _ => readHyphenated word
  | _ => .ok .argument

/-- What the words of a command line are. -/
def readWords : List Text → Except Mistake (List (Text × Reading))
  | [] => .ok []
  | word :: others => do
    match ← readWord word with
    | .endOfOptions =>
      return (word, .endOfOptions) :: others.map fun other => (other, .argument)
    | reading =>
      let rest ← readWords others
      return (word, reading) :: rest

end Handbook.CommandLine
