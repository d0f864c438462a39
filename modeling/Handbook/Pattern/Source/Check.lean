/-
**Checking regular expressions.**

A source is checked from left to right, with the levels that are open, the innermost one first. The
first flaw that shows ends the check; what concerns the expression as a whole is looked at last.
-/

import Handbook.Pattern.Source.CharacterSet
import Handbook.Pattern.Source.Group
import Handbook.Pattern.Source.Level

namespace Handbook.Pattern.Source

/-- The levels that are open: the innermost one, and those around it, from the inside out. -/
structure Levels where
  inner : Level
  outer : List Level

/-- The levels with a change to the innermost one. -/
def Levels.change (levels : Levels) (change : Level → Level) : Levels :=
  { levels with inner := change levels.inner }

/-- The levels with one more item on the innermost one. -/
def Levels.add (levels : Levels) (item : Item) : Levels := levels.change (·.add item)

/-! ### Repetitions -/

/-- Takes the bounds of a repetition and the brace that closes them, if they are well formed. -/
def takeBounds : Scan (Option (Nat × Option Nat)) := do
  let saved := (← get).tokens
  let start ← place
  if saved.head?.any (·.isPlain '}') then return none
  let low ← takeDigits
  let high ← if ← takeIf ',' then takeDigits else pure low
  if !(← takeIf '}') then
    modify ({ · with tokens := saved })
    return none
  let least := numberOf 10 low
  let most := if high.isEmpty then none else some (numberOf 10 high)
  if most.any (· < least) then fail .boundsOutOfOrder start
  return some (least, most)

/-- The levels with the last item repeated, given where the repetition begins. A mark after it says
how eager the repetition is. -/
def repeatItem (levels : Levels) (position least : Nat) (most : Option Nat) : Scan Levels := do
  match levels.inner.last with
  | none => fail .nothingToRepeat position
  | some item =>
    match item.kind with
    | .place => fail .nothingToRepeat position
    | .repetition => fail .multipleRepeat position
    | .other =>
      if !(← takeIf '?') then let _ ← takeIf '+'
      return levels.change (·.repeatLast item least most)

/-! ### Groups -/

/-- Opens a level inside the others. -/
def Levels.enter (levels : Levels) (kind : LevelKind) (opened : Nat) (verbose : Bool) : Levels :=
  ⟨.start kind opened verbose, levels.inner :: levels.outer⟩

/-- The flag that makes blanks and comments be skipped. -/
def verboseFlag : Char := 'x'

/-- The levels after a parenthesis that opens something, whose place is given. -/
def openLevel (levels : Levels) (opened : Nat) : Scan Levels := do
  let verbose := levels.inner.verbose
  match ← takeOpening opened with
  | .counted name => return levels.enter (.counted (← openGroup name)) opened verbose
  | .uncounted added removed =>
    let skips := (verbose || verboseFlag ∈ added) && !(verboseFlag ∈ removed)
    return levels.enter .uncounted opened skips
  | .look behind =>
    let around := (← groups).behind
    if behind then
      changeGroups fun known => { known with behind := some (around.getD known.count) }
    return levels.enter (.look behind around) opened verbose
  | .condition _ => return levels.enter .conditional opened verbose
  | .comment => return levels
  | .reference width => return levels.add ⟨.other, width⟩
  | .flags added =>
    if levels.outer.isEmpty && levels.inner.isFresh then
      return levels.change fun level =>
        { level with verbose := level.verbose || verboseFlag ∈ added }
    else fail .lateFlags opened

/-- The item that a level is once it is closed. -/
def closeLevel (level : Level) : Scan Item := do
  let width := level.width
  match level.kind with
  | .counted group =>
    changeGroups fun known => { known with closed := (group, width) :: known.closed }
    return ⟨.other, width⟩
  | .look behind around =>
    changeGroups fun known =>
      { known with
        behind := around
        variableWidth := known.variableWidth || (behind && !width.isFixed) }
    return ⟨.other, .exactly 0⟩
  | _ => return ⟨.other, width⟩

/-- The levels after a parenthesis that closes the innermost one, and is yet to be taken. -/
def leave (levels : Levels) : Scan Levels := do
  match levels.outer with
  | [] => fail .unbalanced (← place)
  | inner :: outer =>
    let _ ← takeToken
    let item ← closeLevel levels.inner
    return (Levels.mk inner outer).add item

/-- The levels after a bar, which is yet to be taken. -/
def branch (levels : Levels) : Scan Levels := do
  match levels.inner.kind, levels.inner.branches with
  | .conditional, _ :: _ => fail .thirdBranch (← place)
  | _, _ =>
    let _ ← takeToken
    return levels.change Level.nextBranch

/-! ### Items -/

/-- Whether a character is skipped where blanks are. -/
def isSkippedBlank (c : Char) : Bool := c ∈ [' ', '\t', '\n', '\r', '\x0b', '\x0c']

/-- Skips the rest of a line. -/
def skipLine : Scan Unit := do
  goTo (((← get).tokens.dropWhile fun token => !token.isPlain '\n').drop 1)

/-- The item that an escape is. -/
def escapedItem (token : Token) : Scan Item := do
  match ← meaningOf token with
  | .place => return ⟨.place, .exactly 0⟩
  | .reference width => return ⟨.other, width⟩
  | _ => return .char

/-- The levels after a character that has no backslash and has been taken. -/
def plainItem (levels : Levels) (c : Char) (position : Nat) : Scan Levels := do
  match c with
  | '[' =>
    takeSet position
    return levels.add .char
  | '(' => openLevel levels position
  | '*' => repeatItem levels position 0 none
  | '+' => repeatItem levels position 1 none
  | '?' => repeatItem levels position 0 (some 1)
  | '{' =>
    match ← takeBounds with
    | some (least, most) => repeatItem levels position least most
    | none => return levels.add .char
  | '^' => return levels.add ⟨.place, .exactly 0⟩
  | '$' => return levels.add ⟨.place, .exactly 0⟩
  | _ => return levels.add .char

/-- The levels after a token that has been taken and neither closes a level nor begins a branch. -/
def tokenItem (levels : Levels) (token : Token) : Scan Levels := do
  if token.escaped then return levels.add (← escapedItem token)
  else if levels.inner.verbose && isSkippedBlank token.char then return levels
  else if levels.inner.verbose && token.char == '#' then
    skipLine
    return levels
  else plainItem levels token.char token.position

/-! ### Whole sources -/

/-- Checks what is left of a source, given the levels that are open. -/
def checkRest (levels : Levels) : (fuel : Nat) → Scan Unit
  | 0 => return ()
  | fuel + 1 => do
    match ← peek with
    | none => if !levels.outer.isEmpty then fail .openGroup levels.inner.opened
    | some token =>
      let next ←
        if token.isPlain '|' then branch levels
        else if token.isPlain ')' then leave levels
        else do
          let _ ← takeToken
          tokenItem levels token
      checkRest next fuel

/-- Checks what only shows at the end: that conditions ask for groups that exist, and that a
look-behind has one width. -/
def checkWhole : Scan Unit := do
  let known ← groups
  match known.conditions.find? fun (group, _) => known.count ≤ group with
  | some (group, position) => fail (.noSuchGroup group) position
  | none => if known.variableWidth then throw ⟨.variableLookBehind, none⟩

/-- Checks a source from its start. -/
def check : Scan Unit := do
  goTo (← get).tokens
  checkRest ⟨.start .whole 0 false, []⟩ ((← get).tokens.length + 1)
  checkWhole

/-- The first flaw of a source. -/
def flaw? (source : Text) : Option LocatedFlaw :=
  let (tokens, broken) := Token.ofText 0 source
  match check.run ⟨tokens, broken, source.length, ⟨1, [], [], none, [], false⟩⟩ with
  | .ok _ => none
  | .error located => some located

end Handbook.Pattern.Source
