/-
**Filling lines.**

Prose is broken into lines of a given width. Each line takes chunks as long as they fit; a chunk
longer than a whole line is broken, after its last hyphen that fits if there is one. Blanks at a
line's end are dropped, and so are those at its start unless the line is the first.

* `weight_takeLine_lt`: every line takes something of what is left, so filling ends.
-/

import Handbook.Text.Chunk

namespace Handbook.Text

/-- The width of a line, in characters. -/
structure Width where
  columns : Nat
  positive : 0 < columns

/-- The width of prose in the terminal. -/
def Width.prose : Width := ⟨81, by decide⟩

/-- The width with a number of columns, if that is positive. -/
def Width.ofInt? (columns : Int) : Option Width :=
  if positive : 0 < columns.toNat then some ⟨columns.toNat, positive⟩ else none

/-! ### Blanks of a line -/

/-- A line with spaces in place of its tabs, up to the next multiple of eight columns. -/
def expandTabs (column : Nat) : Text → Text
  | [] => []
  | c :: rest =>
    if c = '\t' then
      let spaces := 8 - column % 8
      List.replicate spaces ' ' ++ expandTabs (column + spaces) rest
    else c :: expandTabs (if c = '\r' ∨ c = '\n' then 0 else column + 1) rest

/-- Whether a character is one of the blanks at which lines are broken. -/
def isBreakable (c : Char) : Bool := c ∈ ['\t', '\n', '\x0b', '\x0c', '\r', ' ']

/-- A line whose breakable blanks are all spaces. -/
def levelBlanks (line : Text) : Text :=
  (expandTabs 0 line).map fun c => if isBreakable c then ' ' else c

/-! ### One line -/

/-- The chunks that fit into some room, and the others. -/
def takeFitting (room : Nat) : List Text → List Text × List Text
  | [] => ([], [])
  | chunk :: others =>
    if chunk.length ≤ room then
      let (line, left) := takeFitting (room - chunk.length) others
      (chunk :: line, left)
    else ([], chunk :: others)

/-- The part of a long chunk that still goes into some room: up to its last hyphen there, if
something other than hyphens is before that hyphen, and as much as there is room for otherwise. -/
def breakOff (room : Nat) (chunk : Text) : Text :=
  let fitting := chunk.take room
  let hyphenated := trimEnd (· != '-') fitting
  if hyphenated.any (· != '-') then hyphenated else fitting

/-- The chunks of one line, and those left for the lines after it. -/
def takeLine (width : Width) (chunks : List Text) : List Text × List Text :=
  match takeFitting width.columns chunks with
  | (line, []) => (line, [])
  | (line, chunk :: others) =>
    if width.columns < chunk.length then
      let piece := breakOff (width.columns - line.flatten.length) chunk
      (line ++ [piece], chunk.drop piece.length :: others)
    else (line, chunk :: others)

/-- A line without its last chunk, if that is blank. -/
def dropBlankEnd (line : List Text) : List Text :=
  if line.getLast?.any isBlankText then line.dropLast else line

/-! ### Every line takes something -/

/-- A measure of what is left: characters, and one for each chunk. -/
def weight : List Text → Nat
  | [] => 0
  | chunk :: others => chunk.length + 1 + weight others

@[simp] theorem weight_nil : weight [] = 0 := rfl

@[simp] theorem weight_cons (chunk : Text) (others : List Text) :
    weight (chunk :: others) = chunk.length + 1 + weight others := rfl

theorem weight_takeFitting_le (room : Nat) (chunks : List Text) :
    weight (takeFitting room chunks).2 ≤ weight chunks := by
  induction chunks generalizing room with
  | nil => simp [takeFitting]
  | cons chunk others step =>
    rw [takeFitting]
    split
    · have := step (room - chunk.length)
      simp only [weight_cons]
      omega
    · simp

theorem length_breakOff_pos {room : Nat} {chunk : Text} (roomy : 0 < room)
    (long : room < chunk.length) : 0 < (breakOff room chunk).length := by
  rw [breakOff]
  split
  · rename_i other
    apply List.length_pos_iff.mpr
    intro nothing
    simp [nothing] at other
  · simp
    omega

/-- **Every line takes something of what is left.** -/
theorem weight_takeLine_lt (width : Width) (chunk : Text) (others : List Text) :
    weight (takeLine width (chunk :: others)).2 < weight (chunk :: others) := by
  by_cases fits : chunk.length ≤ width.columns
  · have less := weight_takeFitting_le (width.columns - chunk.length) others
    simp only [takeLine, takeFitting, fits, if_true]
    split
    · simp only [weight_nil, weight_cons]
      omega
    · rename_i line first rest same
      simp only [Prod.mk.injEq] at same
      rw [same.2] at less
      split <;> simp only [weight_cons, List.length_drop] at less ⊢ <;> omega
  · have long : width.columns < chunk.length := by omega
    have taken := length_breakOff_pos width.positive long
    simp only [takeLine, takeFitting, fits, if_false, long, if_true, List.flatten_nil,
      List.length_nil, Nat.sub_zero, weight_cons, List.length_drop]
    omega

theorem weight_takeLine_le (width : Width) (chunks : List Text) :
    weight (takeLine width chunks).2 ≤ weight chunks := by
  cases chunks with
  | nil => simp [takeLine, takeFitting]
  | cons chunk others => exact Nat.le_of_lt (weight_takeLine_lt width chunk others)

/-! ### All lines -/

/-- The lines that some chunks fill, given whether a line stands before them. -/
def fillLines (width : Width) (started : Bool) : List Text → List Text
  | [] => []
  | chunk :: others =>
    let taken := takeLine width (if started && isBlankText chunk then others else chunk :: others)
    let line := dropBlankEnd taken.1
    if line.isEmpty then fillLines width started taken.2
    else line.flatten :: fillLines width true taken.2
termination_by chunks => weight chunks
decreasing_by
  all_goals
    split
    · have := weight_takeLine_le width others
      simp only [weight_cons]
      omega
    · exact weight_takeLine_lt width chunk others

/-- One line of prose, broken into lines of a width. -/
def fill (width : Width) (line : Text) : Text :=
  ['\n'].intercalate (fillLines width false (chunks (levelBlanks line)))

/-- Prose broken into lines of a width. The line breaks that it has stay, and its blank lines become
empty. -/
def wrap (width : Width) (text : Text) : Text :=
  ['\n'].intercalate <|
    (split '\n' text).map fun line => if isBlankText line then [] else fill width line

/-- Prose broken into lines of a given number of columns. A line that is not blank can be filled
only where there is a column. -/
def wrapAt? (columns : Int) (text : Text) : Option Text := do
  let lines ← (split '\n' text).mapM fun line =>
    if isBlankText line then some [] else (Width.ofInt? columns).map (fill · line)
  return ['\n'].intercalate lines

end Handbook.Text
