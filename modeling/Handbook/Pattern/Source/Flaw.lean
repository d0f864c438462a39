/-
**Flaws of regular expressions.**

A flaw says what breaks the source of a pattern and where. The place is the count of characters in
front of it; when the source has several lines, its line and its column are told as well, both
counted from one.
-/

import Handbook.Text.Quoted

namespace Handbook.Pattern.Source

/-- What breaks a source. -/
inductive Flaw where
  | loneBackslash
  | badEscape (escape : Text)
  | incompleteEscape (escape : Text)
  | octalTooLarge (escape : Text)
  | openSet
  | badRange (first last : Text)
  | nothingToRepeat
  | multipleRepeat
  | boundsOutOfOrder
  | openGroup
  | openComment
  | unbalanced
  | unexpectedEnd
  | unknownExtension (extension : Text)
  | missingName
  | openName (closing : Char)
  | badName (name : Text)
  | unknownName (name : Text)
  | sameName (name : Text) (group earlier : Nat)
  | groupZero
  | noSuchGroup (group : Nat)
  | openReference
  | lookBehindReference
  | thirdBranch
  | variableLookBehind
  | lateFlags
  | byteFlag
  | incompatibleFlags
  | unknownFlag
  | missingFlag
  | missingColon
  | missingFlagsEnd
  | globalFlagOn
  | globalFlagOff
  | typeFlagOff
  | flagOnAndOff

/-- The wording of a flaw. -/
def Flaw.message : Flaw → Text
  | .loneBackslash => "bad escape (end of pattern)".toList
  | .badEscape escape => "bad escape ".toList ++ escape
  | .incompleteEscape escape => "incomplete escape ".toList ++ escape
  | .octalTooLarge escape =>
    "octal escape value ".toList ++ escape ++ " outside of range 0-0o377".toList
  | .openSet => "unterminated character set".toList
  | .badRange first last => "bad character range ".toList ++ first ++ ['-'] ++ last
  | .nothingToRepeat => "nothing to repeat".toList
  | .multipleRepeat => "multiple repeat".toList
  | .boundsOutOfOrder => "min repeat greater than max repeat".toList
  | .openGroup => "missing ), unterminated subpattern".toList
  | .openComment => "missing ), unterminated comment".toList
  | .unbalanced => "unbalanced parenthesis".toList
  | .unexpectedEnd => "unexpected end of pattern".toList
  | .unknownExtension extension => "unknown extension ".toList ++ extension
  | .missingName => "missing group name".toList
  | .openName closing => "missing ".toList ++ [closing] ++ ", unterminated name".toList
  | .badName name => "bad character in group name ".toList ++ Text.quoted name
  | .unknownName name => "unknown group name ".toList ++ Text.quoted name
  | .sameName name group earlier =>
    "redefinition of group name ".toList ++ Text.quoted name ++ " as group ".toList
      ++ Text.decimal group ++ "; was group ".toList ++ Text.decimal earlier
  | .groupZero => "bad group number".toList
  | .noSuchGroup group => "invalid group reference ".toList ++ Text.decimal group
  | .openReference => "cannot refer to an open group".toList
  | .lookBehindReference =>
    "cannot refer to group defined in the same lookbehind subpattern".toList
  | .thirdBranch => "conditional backref with more than two branches".toList
  | .variableLookBehind => "look-behind requires fixed-width pattern".toList
  | .lateFlags => "global flags not at the start of the expression".toList
  | .byteFlag => "bad inline flags: cannot use 'L' flag with a str pattern".toList
  | .incompatibleFlags => "bad inline flags: flags 'a', 'u' and 'L' are incompatible".toList
  | .unknownFlag => "unknown flag".toList
  | .missingFlag => "missing flag".toList
  | .missingColon => "missing :".toList
  | .missingFlagsEnd => "missing -, : or )".toList
  | .globalFlagOn => "bad inline flags: cannot turn on global flag".toList
  | .globalFlagOff => "bad inline flags: cannot turn off global flag".toList
  | .typeFlagOff => "bad inline flags: cannot turn off flags 'a', 'u' and 'L'".toList
  | .flagOnAndOff => "bad inline flags: flag turned on and off".toList

/-- A flaw and where it is in the source, unless it is of the source as a whole. -/
structure LocatedFlaw where
  flaw : Flaw
  position : Option Nat

/-- The line and the column of a place in a source. -/
def lineAndColumn (source : Text) (position : Nat) : Nat × Nat :=
  let seen := source.take position
  (seen.count '\n' + 1, (seen.reverse.takeWhile (· != '\n')).length + 1)

/-- The wording of a place in a source. -/
def placeText (source : Text) (position : Nat) : Text :=
  let (line, column) := lineAndColumn source position
  let lines :=
    if '\n' ∈ source then
      " (line ".toList ++ Text.decimal line ++ ", column ".toList ++ Text.decimal column ++ [')']
    else []
  " at position ".toList ++ Text.decimal position ++ lines

/-- The wording of a flaw of a source with its place. -/
def LocatedFlaw.message (located : LocatedFlaw) (source : Text) : Text :=
  located.flaw.message ++ located.position.elim [] (placeText source)

end Handbook.Pattern.Source
