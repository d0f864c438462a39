/-
**Scanning regular expressions.**

A source is scanned token by token; a token is a character, or a backslash with the character after
it. A backslash at the very end is no token. It breaks the source as soon as the last token before
it has been taken, so it comes before every flaw that only shows in that token.

* `flatten_ofText`: the tokens and the lone backslash after them make up the source.
-/

import Handbook.Pattern.Source.Flaw
import Handbook.Unicode.Alphanumeric
import Handbook.Unicode.Digit

namespace Handbook.Pattern.Source

/-- A character of a source, whether a backslash stands before it, and where it begins. -/
structure Token where
  escaped : Bool
  char : Char
  position : Nat

namespace Token

/-- A token as it is written. -/
def text (token : Token) : Text := if token.escaped then ['\\', token.char] else [token.char]

/-- Whether a token is a character without a backslash. -/
def isPlain (token : Token) (c : Char) : Bool := !token.escaped && token.char == c

/-- Whether a token is one of some characters, without a backslash. -/
def isOneOf (token : Token) (chars : List Char) : Bool :=
  !token.escaped && chars.contains token.char

/-- The tokens of a text from a place on, and whether a lone backslash comes after them. -/
def ofText (position : Nat) : Text → List Token × Bool
  | [] => ([], false)
  | ['\\'] => ([], true)
  | '\\' :: c :: rest =>
    let (others, broken) := ofText (position + 2) rest
    (⟨true, c, position⟩ :: others, broken)
  | c :: rest =>
    let (others, broken) := ofText (position + 1) rest
    (⟨false, c, position⟩ :: others, broken)

/-- **The tokens and the lone backslash after them make up the source.** -/
theorem flatten_ofText (position : Nat) (source : Text) :
    (ofText position source).1.flatMap text
      ++ (if (ofText position source).2 then ['\\'] else []) = source := by
  fun_induction ofText position source with
  | case1 => rfl
  | case2 => rfl
  | case3 position c rest others broken equal step => simpa [text, equal] using step
  | case4 position c rest _ _ others broken equal step => simpa [text, equal] using step

end Token

/-- The least and the most characters that a part of a pattern may match; there may be no bound. -/
structure Width where
  least : Nat
  most : Option Nat

/-- What is known of the groups of a source: how many were opened, the whole pattern counted as one,
the widths of those that were closed, the names, the first group that a look-behind may not refer
to, the groups that conditions ask for with their places, and whether a look-behind is of variable
width. -/
structure Groups where
  count : Nat
  closed : List (Nat × Width)
  names : List (Text × Nat)
  behind : Option Nat
  conditions : List (Nat × Nat)
  variableWidth : Bool

/-- How far a scan is: the tokens that are left, whether a lone backslash comes after them, the
length of the source, and what is known of the groups. -/
structure Scanner where
  tokens : List Token
  broken : Bool
  size : Nat
  groups : Groups

/-- What scans a part of a source and may find a flaw. -/
abbrev Scan := StateT Scanner (Except LocatedFlaw)

/-- Ends a scan with a flaw at a place. -/
def fail {α : Type} (flaw : Flaw) (position : Nat) : Scan α := throw ⟨flaw, some position⟩

/-- The next token, which stays. -/
def peek : Scan (Option Token) := return (← get).tokens.head?

/-- The place of the next token. -/
def place : Scan Nat := do
  let scanner ← get
  return (scanner.tokens.head?.map Token.position).getD scanner.size

/-- Goes on with the tokens that are left. -/
def goTo (rest : List Token) : Scan Unit := do
  let scanner ← get
  if rest.isEmpty && scanner.broken then fail .loneBackslash (scanner.size - 1)
  else set { scanner with tokens := rest }

/-- Takes the next token. -/
def takeToken : Scan (Option Token) := do
  match (← get).tokens with
  | [] => return none
  | token :: rest =>
    goTo rest
    return some token

/-- Takes the next token if it is some character, and tells whether it did. -/
def takeIf (c : Char) : Scan Bool := do
  match (← get).tokens with
  | [] => return false
  | token :: rest =>
    if token.isPlain c then
      goTo rest
      return true
    else return false

/-- Takes the characters that are accepted, up to a number of them. -/
def takeChars (limit : Nat) (accepts : Char → Bool) : Scan Text := do
  let tokens := (← get).tokens
  let taken := (tokens.take limit).takeWhile fun token => !token.escaped && accepts token.char
  goTo (tokens.drop taken.length)
  return taken.map Token.char

/-- Takes all next digits. -/
def takeDigits : Scan Text := do takeChars (← get).tokens.length Char.isDigit

/-! ### Names -/

/-- Takes a name and the character that closes it. -/
def takeName (closing : Char) : Scan Text := do
  let tokens := (← get).tokens
  let inside := tokens.takeWhile fun token => !token.isPlain closing
  let name := inside.flatMap Token.text
  match tokens.drop inside.length with
  | [] =>
    goTo []
    if name.isEmpty then fail .missingName (← place)
    else fail (.openName closing) ((← place) - name.length)
  | _ :: rest =>
    goTo rest
    if name.isEmpty then fail .missingName ((← place) - 1) else return name

/-- Whether a character may be in a name. -/
def isNameChar (c : Char) : Bool := c == '_' || Unicode.isAlphanumeric c

/-- Whether a text is a name: it does not begin with a digit. -/
def isName (text : Text) : Bool :=
  !text.isEmpty && text.all isNameChar && !text.head?.any Unicode.isDigit

/-- The place of a name that has just been taken, with the character that closes it. -/
def nameStart (name : Text) : Scan Nat := return (← place) - (name.length + 1)

/-- Takes a name that must be well formed. -/
def takeGoodName (closing : Char) : Scan Text := do
  let name ← takeName closing
  if isName name then return name else fail (.badName name) (← nameStart name)

/-! ### Groups -/

/-- What is known of the groups. -/
def groups : Scan Groups := return (← get).groups

/-- Changes what is known of the groups. -/
def changeGroups (change : Groups → Groups) : Scan Unit :=
  modify fun scanner => { scanner with groups := change scanner.groups }

/-- Looks whether a group may be referred to from inside a look-behind. -/
def checkBehind (group : Nat) : Scan Unit := do
  let known ← groups
  match known.behind with
  | none => return ()
  | some limit =>
    if (known.closed.lookup group).isNone then fail .openReference (← place)
    if limit ≤ group then fail .lookBehindReference (← place)

/-- The width of a group that is referred to; the place is that of an open group's flaw. -/
def referTo (group : Nat) (position : Nat) : Scan Width := do
  match (← groups).closed.lookup group with
  | none => fail .openReference position
  | some width =>
    checkBehind group
    return width

/-- The group of a name that has just been taken. -/
def groupOfName (name : Text) : Scan Nat := do
  match (← groups).names.lookup name with
  | some group => return group
  | none => fail (.unknownName name) (← nameStart name)

/-- Opens a group, whose name, if it has one, has just been taken. -/
def openGroup (name : Option Text) : Scan Nat := do
  let known ← groups
  let group := known.count
  match name with
  | none => changeGroups ({ · with count := group + 1 })
  | some name =>
    match known.names.lookup name with
    | some earlier => fail (.sameName name group earlier) (← nameStart name)
    | none => changeGroups ({ · with count := group + 1, names := (name, group) :: known.names })
  return group

end Handbook.Pattern.Source
