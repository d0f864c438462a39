/-
**Chunks of a line.**

Before a line is filled it is cut into chunks, the pieces that a line break may separate: stretches
of blanks, words, and dashes between words. A word with hyphens is cut after a hyphen that stands
between letters.

* `flatten_chunks`: the chunks of a line, put together, are the line.
-/

import Handbook.Text.Basic
import Handbook.Unicode.Alphanumeric
import Handbook.Unicode.Digit

namespace Handbook.Text

open Unicode

/-! ### The places where a chunk ends -/

/-- Whether a character is a letter, for the hyphens between letters: a word character that is no
decimal digit. -/
def isLetter (c : Char) : Bool := isWord c && !isDigit c

/-- Whether a dash may follow a character: a word character or one of the marks that end a word. -/
def endsWord (c : Char) : Bool := isWord c || c ∈ ['!', '"', '\'', '&', '.', ',', '?']

/-- Whether a text, given the characters before it from the last one back, begins with a dash
between words: two or more hyphens, all of them, between the end of a word and a word character. -/
def startsDash (before text : Text) : Bool :=
  (before.head?.any endsWord)
    && 2 ≤ (text.takeWhile (· == '-')).length
    && ((text.dropWhile (· == '-')).head?.any isWord)

/-- Whether two letters, or two letters that a hyphen parts, come next. -/
def startsLetters : Text → Bool
  | c :: '-' :: d :: _ => isLetter c && isLetter d
  | c :: d :: _ => isLetter c && isLetter d
  | _ => false

/-- Whether a word may be cut after a hyphen, given the characters before the hyphen, from the last
one back, and those after it: letters stand on both sides. -/
def cutsAfterHyphen (before after : Text) : Bool :=
  startsLetters before && startsLetters after

/-! ### Cutting into chunks -/

/-- What the chunk under way is: nothing yet, a stretch of blanks, a dash, or a word. -/
inductive Stretch where
  | closed
  | blanks
  | dash
  | word

/-- The stretch that a character begins. -/
def Stretch.starting (before : Text) (c : Char) (rest : Text) : Stretch :=
  if c = ' ' then .blanks else if startsDash before (c :: rest) then .dash else .word

/-- The stretch under way after a character when the character belongs to the chunk under way, and
nothing when it begins a new chunk. -/
def Stretch.continued? (before : Text) (c : Char) (rest : Text) : Stretch → Option Stretch
  | .closed => none
  | .blanks => if c = ' ' then some .blanks else none
  | .dash => if c = '-' then some .dash else none
  | .word =>
    if c = '-' ∧ cutsAfterHyphen before rest then some .closed
    else if c = ' ' ∨ startsDash before (c :: rest) then none
    else some .word

/-- The rest of the chunk under way, followed by the chunks after it. -/
def chunksAfter (before : Text) (stretch : Stretch) : Text → List Text
  | [] => [[]]
  | c :: rest =>
    match stretch.continued? before c rest with
    | some next => (chunksAfter (c :: before) next rest).modifyHead (c :: ·)
    | none =>
      [] :: (chunksAfter (c :: before) (.starting before c rest) rest).modifyHead (c :: ·)

/-- The chunks of a line. -/
def chunks (line : Text) : List Text := (chunksAfter [] .closed line).tail

theorem chunksAfter_ne_nil (before : Text) (stretch : Stretch) (text : Text) :
    chunksAfter before stretch text ≠ [] := by
  induction text generalizing before stretch with
  | nil => simp [chunksAfter]
  | cons c rest step =>
    rw [chunksAfter]
    split
    · rename_i next _
      cases pieces : chunksAfter (c :: before) next rest with
      | nil => exact absurd pieces (step _ _)
      | cons first others => simp
    · simp

theorem flatten_chunksAfter (before : Text) (stretch : Stretch) (text : Text) :
    (chunksAfter before stretch text).flatten = text := by
  induction text generalizing before stretch with
  | nil => rfl
  | cons c rest step =>
    rw [chunksAfter]
    split
    · rw [flatten_modifyHead_cons _ _ (chunksAfter_ne_nil _ _ _), step]
    · rw [List.flatten_cons, flatten_modifyHead_cons _ _ (chunksAfter_ne_nil _ _ _), step]
      rfl

/-- **The chunks of a line, put together, are the line.** -/
theorem flatten_chunks (line : Text) : (chunks line).flatten = line := by
  cases line with
  | nil => rfl
  | cons c rest =>
    have whole := flatten_chunksAfter [] .closed (c :: rest)
    rw [chunksAfter] at whole
    simpa [chunks, chunksAfter, Stretch.continued?] using whole

end Handbook.Text
