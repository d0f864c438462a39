/-
**Openings of groups in regular expressions.**

A parenthesis with a question mark after it opens a group of a special kind, or is no group at all:
it may be a comment, a reference by name, or flags for the whole expression.
-/

import Handbook.Pattern.Source.Scanner
import Handbook.Text.Integer

namespace Handbook.Pattern.Source

/-- What an opening parenthesis begins: a group that is counted and perhaps named, one that is not
counted but may switch flags on and off, a look ahead or behind, or two branches under a condition;
and what is complete with the opening: a comment, a reference by name, and flags. -/
inductive Opening where
  | counted (name : Option Text)
  | uncounted (added removed : Text)
  | look (behind : Bool)
  | condition (group : Nat)
  | comment
  | reference (width : Width)
  | flags (added : Text)

/-! ### Flags -/

/-- The letters of the flags. -/
def flagLetters : Text := "iLmsxatu".toList

/-- The flags that choose a kind of text; only one of them may be on. -/
def typeFlags : Text := ['a', 'L', 'u']

/-- The flag that is always for the whole expression. -/
def globalFlag : Char := 't'

/-- Whether a token is a flag. -/
def isFlag (token : Token) : Bool := token.isOneOf flagLetters

/-- The flaw of a token that is no flag and not what may come after flags. -/
def notFlag (token : Token) (otherwise : Flaw) : Flaw :=
  if !token.escaped && Unicode.isAlphanumeric token.char && !Unicode.isDigit token.char then
    .unknownFlag
  else otherwise

/-- Looks whether a flag may be switched on beside others. -/
def checkAdded (added : Text) (letter : Char) : Scan Unit := do
  if letter == 'L' then fail .byteFlag (← place)
  if letter ∈ typeFlags && added.any fun other => other ∈ typeFlags && other != letter then
    fail .incompatibleFlags (← place)

/-- Takes flags to switch on, after those that have been taken, up to what ends them. -/
def takeAdded (added : Text) (letter : Char) : (fuel : Nat) → Scan (Text × Char)
  | 0 => do fail .missingFlagsEnd (← place)
  | fuel + 1 => do
    checkAdded added letter
    match ← takeToken with
    | none => fail .missingFlagsEnd (← place)
    | some token =>
      if token.isOneOf [')', '-', ':'] then return (letter :: added, token.char)
      else if isFlag token then takeAdded (letter :: added) token.char fuel
      else fail (notFlag token .missingFlagsEnd) token.position

/-- Takes flags to switch off, after those that have been taken, up to the colon. -/
def takeRemoved (removed : Text) (letter : Char) : (fuel : Nat) → Scan Text
  | 0 => do fail .missingColon (← place)
  | fuel + 1 => do
    if letter ∈ typeFlags then fail .typeFlagOff (← place)
    match ← takeToken with
    | none => fail .missingColon (← place)
    | some token =>
      if token.isPlain ':' then return letter :: removed
      else if isFlag token then takeRemoved (letter :: removed) token.char fuel
      else fail (notFlag token .missingColon) token.position

/-- Takes the flags to switch off after a minus. -/
def takeRemovedFlags : Scan Text := do
  match ← takeToken with
  | none => fail .missingFlag (← place)
  | some token =>
    if isFlag token then takeRemoved [] token.char ((← get).tokens.length + 1)
    else fail (notFlag token .missingFlag) token.position

/-- Takes flags, of which the first character has been taken. -/
def takeFlags (first : Char) : Scan Opening := do
  let (added, ending) ←
    if first == '-' then pure ([], '-') else takeAdded [] first ((← get).tokens.length + 1)
  if ending == ')' then return .flags added
  if globalFlag ∈ added then fail .globalFlagOn ((← place) - 1)
  let removed ← if ending == '-' then takeRemovedFlags else pure []
  if globalFlag ∈ removed then fail .globalFlagOff ((← place) - 1)
  if added.any (· ∈ removed) then fail .flagOnAndOff ((← place) - 1)
  return .uncounted added removed

/-! ### Other openings -/

/-- Takes a comment, whose number sign has been taken, given the place of its parenthesis. -/
def takeComment (opened : Nat) : Scan Opening := do
  match (← get).tokens.dropWhile fun token => !token.isPlain ')' with
  | [] =>
    goTo []
    fail .openComment opened
  | _ :: rest =>
    goTo rest
    return .comment

/-- Takes what comes after a question mark and the letter P, given the place of the mark. -/
def takeNamed (mark : Nat) : Scan Opening := do
  if ← takeIf '<' then return .counted (some (← takeGoodName '>'))
  else if ← takeIf '=' then
    let name ← takeGoodName ')'
    let group ← groupOfName name
    return .reference (← referTo group (← nameStart name))
  else
    match ← takeToken with
    | none => fail .unexpectedEnd (← place)
    | some token => fail (.unknownExtension (['?', 'P'] ++ token.text)) mark

/-- Takes what comes after a question mark and a less-than sign, given the place of the mark. -/
def takeBehind (mark : Nat) : Scan Opening := do
  match ← takeToken with
  | none => fail .unexpectedEnd (← place)
  | some token =>
    if token.isOneOf ['=', '!'] then return .look true
    else fail (.unknownExtension (['?', '<'] ++ token.text)) mark

/-- The largest number of groups. -/
def groupLimit : Nat := 0x3FFFFFFF

/-- The group that a number in a condition means. -/
def groupOfNumber (name : Text) : Scan Nat := do
  match Text.integer? name with
  | some (.ofNat 0) => fail .groupZero (← nameStart name)
  | some (.ofNat group) =>
    let position ← nameStart name
    if groupLimit ≤ group then fail (.noSuchGroup group) position
    changeGroups fun known =>
      { known with conditions := known.conditions ++ [(group, position)] }
    return group
  | _ => fail (.badName name) (← nameStart name)

/-- Takes the condition of two branches. -/
def takeCondition : Scan Opening := do
  let name ← takeName ')'
  let group ← if isName name then groupOfName name else groupOfNumber name
  checkBehind group
  return .condition group

/-- Takes the opening of a group whose parenthesis, at some place, has been taken. -/
def takeOpening (opened : Nat) : Scan Opening := do
  if !(← takeIf '?') then return .counted none
  match ← takeToken with
  | none => fail .unexpectedEnd (← place)
  | some token =>
    if token.isPlain 'P' then takeNamed (opened + 1)
    else if token.isOneOf [':', '>'] then return .uncounted [] []
    else if token.isPlain '#' then takeComment opened
    else if token.isOneOf ['=', '!'] then return .look false
    else if token.isPlain '<' then takeBehind (opened + 1)
    else if token.isPlain '(' then takeCondition
    else if isFlag token || token.isPlain '-' then takeFlags token.char
    else fail (.unknownExtension ('?' :: token.text)) (opened + 1)

end Handbook.Pattern.Source
