/-
**Paths.**

A path starts from some place and goes down through named parts. Empty parts and single dots are
dropped when a path is read or joined, so paths that only differ in them are equal. Two slashes at
the start are a root of their own; any other number of them is the usual root. A part of two dots
stays, as it goes back only where there is something to go back from.

* `join_assoc`: joining is associative on relative paths.
-/

import Handbook.Text.Basic

namespace Handbook

/-- The places that paths start from: wherever the program runs, the root, the other root that two
slashes write, and wherever the handbook itself is. -/
inductive Anchor where
  | relative
  | root
  | secondRoot
  | handbook
  deriving DecidableEq, Repr

/-- A path. -/
structure Path where
  anchor : Anchor
  parts : List Text
  deriving DecidableEq, Repr

namespace Path

/-- The parts of a path that count, as a text writes them between slashes. -/
def partsOf (text : Text) : List Text :=
  (Text.split '/' text).filter fun part => part ≠ [] ∧ part ≠ ['.']

/-- The place that a text starts from, by the number of its slashes at the start. -/
def anchorOf (text : Text) : Anchor :=
  match (text.takeWhile (· == '/')).length with
  | 0 => .relative
  | 2 => .secondRoot
  | _ => .root

/-- The path that a text writes. -/
def ofText (text : Text) : Path := ⟨anchorOf text, partsOf text⟩

/-- The content that comes with the handbook. -/
def bundled : Path := ⟨.handbook, ["resources".toList]⟩

/-- A path seen from another: a path with a place of its own stays as it is. -/
def join (base path : Path) : Path :=
  match path.anchor with
  | .relative => ⟨base.anchor, base.parts ++ path.parts⟩
  | _ => path

/-- **Joining is associative on relative paths.** -/
theorem join_assoc (base first second : Path) (here : first.anchor = .relative)
    (there : second.anchor = .relative) :
    (base.join first).join second = base.join (first.join second) := by
  simp [join, here, there]

/-- How a place is written in front of the parts. -/
def anchorText : Anchor → Text
  | .relative => []
  | .root => ['/']
  | .secondRoot => ['/', '/']
  | .handbook => []

/-- A path as a text. -/
def toText (path : Path) : Text :=
  match path.anchor, path.parts with
  | .relative, [] => ['.']
  | anchor, parts => anchorText anchor ++ ['/'].intercalate parts

/-- The part that stands for the user's own directory. -/
def homePart : Text := ['~']

/-- A path with the user's directory in place of a tilde at its start. The slashes at the end of the
directory do not count. -/
def expandHome (home : Option Text) (path : Path) : Path :=
  match home, path.anchor, path.parts with
  | some home, .relative, first :: others =>
    if first = homePart then
      let directory := Text.trimEnd (· == '/') home
      join (ofText (if directory.isEmpty then ['/'] else directory)) ⟨.relative, others⟩
    else path
  | _, _, _ => path

/-! ### Where paths lead -/

/-- The part that goes back. -/
def backPart : Text := ['.', '.']

/-- The names on the way to a place after one more part, the last one first. -/
def follow (names : List Text) (part : Text) : List Text :=
  if part = backPart then names.tail else part :: names

/-- The place where a path leads. -/
def resolved (path : Path) : Path := ⟨path.anchor, (path.parts.foldl follow []).reverse⟩

/-- The places that parts go through, given the names on the way so far, the last one first. -/
def stationsAfter (anchor : Anchor) (names : List Text) : List Text → List Path
  | [] => []
  | part :: others => ⟨anchor, names.reverse⟩ :: stationsAfter anchor (follow names part) others

/-- The places that a path goes through before it is where it leads. -/
def stations (path : Path) : List Path := stationsAfter path.anchor [] path.parts

end Path

end Handbook
