/-
**Sets of characters in regular expressions.**

A set stands between brackets. A closing bracket right at its start is one of its members, and a
hyphen between two members makes a range, unless it is the last one.
-/

import Handbook.Pattern.Source.Escape

namespace Handbook.Pattern.Source

/-- The code of a member of a set, unless the member is a class of characters. -/
def memberCode (token : Token) : Scan (Option Nat) := do
  if token.escaped then
    match ← meaningInSet token with
    | .char code => return some code
    | _ => return none
  else return some token.char.toNat

/-- Takes the next token of a set, given the place of its bracket. -/
def takeInSet (opened : Nat) : Scan Token := do
  match ← takeToken with
  | some token => return token
  | none => fail .openSet opened

/-- Whether two members make a range. -/
def isRange : Option Nat → Option Nat → Bool
  | some first, some last => first ≤ last
  | _, _ => false

/-- Takes a member of a set, or a range, or the bracket that closes the set, and tells whether the
set is closed. -/
def takeMember (opened : Nat) (isFirst : Bool) : Scan Bool := do
  let token ← takeInSet opened
  if token.isPlain ']' && !isFirst then return true
  let first ← memberCode token
  if ← takeIf '-' then
    let other ← takeInSet opened
    if other.isPlain ']' then return true
    let last ← memberCode other
    if isRange first last then return false
    else
      let size := token.text.length + 1 + other.text.length
      fail (.badRange token.text other.text) ((← place) - size)
  else return false

/-- Takes members of a set up to its end, at most as many as there are tokens. -/
def takeMembers (opened : Nat) (isFirst : Bool) : (fuel : Nat) → Scan Unit
  | 0 => fail .openSet opened
  | fuel + 1 => do if !(← takeMember opened isFirst) then takeMembers opened false fuel

/-- Takes a set whose bracket has been taken. -/
def takeSet (opened : Nat) : Scan Unit := do
  let _ ← takeIf '^'
  takeMembers opened true ((← get).tokens.length + 1)

end Handbook.Pattern.Source
