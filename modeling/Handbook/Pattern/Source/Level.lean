/-
**Levels of regular expressions.**

Each group that is open, and the expression as a whole, is a level with branches. A level knows what
its branches may match so far, and what the last item is, because only an item that is neither a
place in the text nor a repetition can be repeated.
-/

import Handbook.Pattern.Source.Scanner

namespace Handbook.Pattern.Source

namespace Width

/-- The width of a number of characters. -/
def exactly (count : Nat) : Width := ⟨count, some count⟩

/-- The width of one part after another. -/
def beside (first second : Width) : Width where
  least := first.least + second.least
  most := first.most.bind fun most => second.most.map (most + ·)

/-- The width of one part or another. -/
def either (first second : Width) : Width where
  least := min first.least second.least
  most := first.most.bind fun most => second.most.map (max most ·)

/-- The width of a part that is repeated, between two numbers of times or without a bound. -/
def times (width : Width) (least : Nat) (most : Option Nat) : Width where
  least := width.least * least
  most :=
    match width.most, most with
    | some 0, _ => some 0
    | some single, some most => some (single * most)
    | _, _ => none

/-- Whether a part always matches the same number of characters. -/
def isFixed (width : Width) : Bool := width.most == some width.least

end Width

/-- What an item of a branch is, as far as repeating it goes. -/
inductive ItemKind where
  | place
  | repetition
  | other
  deriving DecidableEq

/-- An item of a branch. -/
structure Item where
  kind : ItemKind
  width : Width

/-- An item that matches one character. -/
def Item.char : Item := ⟨.other, .exactly 1⟩

/-- What a level belongs to: the whole expression, a group that is counted or not, a look behind or
ahead, with the look-behind limit around it, or branches under a condition. -/
inductive LevelKind where
  | whole
  | counted (group : Nat)
  | uncounted
  | look (behind : Bool) (around : Option Nat)
  | conditional

/-- A level: what it belongs to, where it was opened, whether blanks and comments are skipped, the
widths of its finished branches, the width of the items before the last one, and the last item. -/
structure Level where
  kind : LevelKind
  opened : Nat
  verbose : Bool
  branches : List Width
  before : Width
  last : Option Item

namespace Level

/-- A level without items. -/
def start (kind : LevelKind) (opened : Nat) (verbose : Bool) : Level :=
  ⟨kind, opened, verbose, [], .exactly 0, none⟩

/-- The width of the branch that is not finished. -/
def branchWidth (level : Level) : Width :=
  level.last.elim level.before fun item => level.before.beside item.width

/-- A level with one more item. -/
def add (level : Level) (item : Item) : Level :=
  { level with before := level.branchWidth, last := some item }

/-- A level whose last item is repeated. -/
def repeatLast (level : Level) (item : Item) (least : Nat) (most : Option Nat) : Level :=
  { level with last := some ⟨.repetition, item.width.times least most⟩ }

/-- A level with another branch. -/
def nextBranch (level : Level) : Level :=
  { level with branches := level.branchWidth :: level.branches, before := .exactly 0, last := none }

/-- Whether nothing has been seen on a level. -/
def isFresh (level : Level) : Bool := level.branches.isEmpty && level.last.isNone

/-- The width of all branches. A condition without a second branch may match nothing. -/
def width (level : Level) : Width :=
  let all := level.branches.foldl Width.either level.branchWidth
  match level.kind, level.branches with
  | .conditional, [] => all.either (.exactly 0)
  | _, _ => all

end Level

end Handbook.Pattern.Source
