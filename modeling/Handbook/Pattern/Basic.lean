/-
**Patterns in texts.**

A pattern tells, at a place in a text, whether it occurs there, how far it reaches and what its
groups are. A scan takes the occurrences from left to right, none of them overlapping, and so cuts
the text into pieces: single characters, and occurrences of the pattern. Replacing the occurrences
and listing them both read these pieces.

* `flatten_pieces`: the pieces of a text, put together, are the text;
* `replaceAll_lexeme`: replacing each occurrence by itself changes nothing.
-/

import Handbook.Text.Basic

namespace Handbook

/-- How far a pattern reaches from a place, and the texts of its groups. -/
structure Reach where
  size : Nat
  groups : List Text
  deriving DecidableEq, Repr

/-- A pattern: whether, and how far, it reaches from a place, given the character before the place
and the text after it. -/
structure Pattern where
  reach? : (before : Option Char) → (text : Text) → Option Reach

/-- An occurrence of a pattern: the text that it covers, and the texts of its groups. -/
structure Match where
  lexeme : Text
  groups : List Text
  deriving DecidableEq, Repr

/-- The text of the first group, empty when the pattern has none. -/
def Match.group (found : Match) : Text := found.groups.headD []

namespace Pattern

/-! ### Scanning -/

/-- A piece of a scanned text. -/
inductive Piece where
  | plain (c : Char)
  | found (occurrence : Match)

/-- The text that a piece covers. -/
def Piece.text : Piece → Text
  | .plain c => [c]
  | .found occurrence => occurrence.lexeme

/-- The pieces of a text from a place on, given the character before the place and how many
characters the last occurrence still covers. After an empty occurrence the scan passes over one
character. -/
def piecesFrom (pattern : Pattern) : (before : Option Char) → (covered : Nat) → Text → List Piece
  | before, 0, [] =>
    match pattern.reach? before [] with
    | none => []
    | some reach => [.found ⟨[], reach.groups⟩]
  | _, _ + 1, [] => []
  | before, 0, c :: rest =>
    match pattern.reach? before (c :: rest) with
    | none => .plain c :: piecesFrom pattern (some c) 0 rest
    | some ⟨0, groups⟩ => .found ⟨[], groups⟩ :: .plain c :: piecesFrom pattern (some c) 0 rest
    | some ⟨others + 1, groups⟩ =>
      .found ⟨c :: rest.take others, groups⟩ :: piecesFrom pattern (some c) others rest
  | _, covered + 1, c :: rest => piecesFrom pattern (some c) covered rest

/-- The pieces of a text. -/
def pieces (pattern : Pattern) (text : Text) : List Piece := piecesFrom pattern none 0 text

theorem flatten_piecesFrom (pattern : Pattern) (before : Option Char) (covered : Nat)
    (text : Text) :
    (piecesFrom pattern before covered text).flatMap Piece.text = text.drop covered := by
  fun_induction piecesFrom pattern before covered text with
  | case1 => rfl
  | case2 => rfl
  | case3 => simp
  | case4 _ _ _ _ step => simpa [Piece.text] using step
  | case5 _ _ _ _ _ step => simpa [Piece.text] using step
  | case6 _ _ _ _ _ _ step => simp [Piece.text, step]
  | case7 _ _ _ _ step => simpa using step

/-- **The pieces of a text, put together, are the text.** -/
theorem flatten_pieces (pattern : Pattern) (text : Text) :
    (pattern.pieces text).flatMap Piece.text = text :=
  flatten_piecesFrom pattern none 0 text

/-! ### Replacing -/

/-- A piece with its occurrence replaced. -/
def Piece.replaced (replace : Match → Text) : Piece → Text
  | .plain c => [c]
  | .found occurrence => replace occurrence

/-- A text with every occurrence of a pattern replaced. -/
def replaceAll (pattern : Pattern) (replace : Match → Text) (text : Text) : Text :=
  (pattern.pieces text).flatMap (Piece.replaced replace)

/-- **Replacing each occurrence by itself changes nothing.** -/
theorem replaceAll_lexeme (pattern : Pattern) (text : Text) :
    pattern.replaceAll Match.lexeme text = text := by
  have same : Piece.replaced Match.lexeme = Piece.text := by
    funext piece
    cases piece <;> rfl
  rw [replaceAll, same, flatten_pieces]

/-! ### Listing -/

/-- An occurrence and the places where it starts and ends, counted in characters. -/
structure Located where
  start : Nat
  stop : Nat
  groups : List Text

/-- The occurrences among some pieces, the first of which starts at a place. -/
def locate (place : Nat) : List Piece → List Located
  | [] => []
  | .plain _ :: others => locate (place + 1) others
  | .found occurrence :: others =>
    let stop := place + occurrence.lexeme.length
    ⟨place, stop, occurrence.groups⟩ :: locate stop others

/-- The occurrences of a pattern in a text, from left to right. -/
def occurrences (pattern : Pattern) (text : Text) : List Located :=
  locate 0 (pattern.pieces text)

/-! ### The simplest pattern -/

/-- The pattern that is one exact text. -/
def literal (needle : Text) : Pattern where
  reach? _ text := if needle.isPrefixOf text then some ⟨needle.length, []⟩ else none

end Pattern

end Handbook
