/-
**Texts.**

A text is a list of characters. Here are the operations on texts that every part of the handbook
shares: cutting at separators, words between blanks, trimming, padding, searching, order, and
writing lines and numbers.

* `flatten_splitWhere`: cutting a text removes the separators and nothing else;
* `occursIn_iff`: a text occurs in another exactly when it stands between two other pieces of it.
-/

import Handbook.Unicode.Blank

namespace Handbook

/-- A text, as its characters. -/
abbrev Text := List Char

namespace Text

open Unicode

/-! ### Cutting -/

/-- The pieces of a text between the characters that satisfy a test. There is one piece more than
there are separators. -/
def splitWhere (separates : Char → Bool) : Text → List Text
  | [] => [[]]
  | c :: rest =>
    if separates c then [] :: splitWhere separates rest
    else (splitWhere separates rest).modifyHead (c :: ·)

/-- The pieces of a text between the occurrences of one character. -/
def split (separator : Char) (text : Text) : List Text := splitWhere (· == separator) text

/-- The words of a text: its longest stretches without blanks. -/
def words (text : Text) : List Text := (splitWhere isBlank text).filter (!·.isEmpty)

/-- The words of a text, parted by single spaces. -/
def evenBlanks (text : Text) : Text := [' '].intercalate (words text)

theorem flatten_modifyHead_cons (c : Char) (pieces : List Text) (nonempty : pieces ≠ []) :
    (pieces.modifyHead (c :: ·)).flatten = c :: pieces.flatten := by
  cases pieces with
  | nil => exact absurd rfl nonempty
  | cons first others => rfl

theorem splitWhere_ne_nil (separates : Char → Bool) (text : Text) :
    splitWhere separates text ≠ [] := by
  induction text with
  | nil => simp [splitWhere]
  | cons c rest step =>
    rw [splitWhere]
    split
    · simp
    · cases pieces : splitWhere separates rest with
      | nil => exact absurd pieces step
      | cons first others => simp

/-- **Cutting a text removes the separators and nothing else.** -/
theorem flatten_splitWhere (separates : Char → Bool) (text : Text) :
    (splitWhere separates text).flatten = text.filter (!separates ·) := by
  induction text with
  | nil => rfl
  | cons c rest step =>
    rw [splitWhere]
    by_cases cut : separates c = true
    · simp [cut, step]
    · rw [if_neg cut, flatten_modifyHead_cons _ _ (splitWhere_ne_nil _ _), step]
      simp [cut]

/-! ### Trimming and padding -/

/-- Whether a text has no character but blanks. -/
def isBlankText (text : Text) : Bool := text.all isBlank

/-- A text without the characters at its end that satisfy a test. -/
def trimEnd (drops : Char → Bool) (text : Text) : Text := (text.reverse.dropWhile drops).reverse

/-- A text without the characters at either end that satisfy a test. -/
def trim (drops : Char → Bool) (text : Text) : Text := trimEnd drops (text.dropWhile drops)

/-- A text followed by as many spaces as bring it to a width. -/
def padTo (width : Nat) (text : Text) : Text :=
  text ++ List.replicate (width - text.length) ' '

/-! ### Searching -/

/-- Whether a text occurs inside another. -/
def occursIn (needle : Text) : Text → Bool
  | [] => needle.isEmpty
  | c :: rest => needle.isPrefixOf (c :: rest) || occursIn needle rest

/-- **A text occurs in another exactly when it stands between two other pieces of it.** -/
theorem occursIn_iff {needle text : Text} :
    occursIn needle text = true ↔ ∃ before after, text = before ++ needle ++ after := by
  induction text with
  | nil => simp [occursIn]
  | cons c rest step =>
    rw [occursIn, Bool.or_eq_true, step, List.isPrefixOf_iff_prefix]
    constructor
    · rintro (⟨after, equal⟩ | ⟨before, after, equal⟩)
      · exact ⟨[], after, by simp [equal]⟩
      · exact ⟨c :: before, after, by simp [equal]⟩
    · rintro ⟨before, after, equal⟩
      cases before with
      | nil => exact Or.inl ⟨after, by simpa using equal.symm⟩
      | cons head others =>
        simp only [List.cons_append, List.cons.injEq] at equal
        exact Or.inr ⟨others, after, equal.2⟩

/-! ### Order -/

/-- Whether two texts are in order: by the codes of their characters, and what is shorter first. -/
def inOrder : Text → Text → Bool
  | [], _ => true
  | _ :: _, [] => false
  | first :: rest, second :: others =>
    first.toNat < second.toNat || first == second && inOrder rest others

/-! ### Writing -/

/-- A text from its lines, each of which ends with a line feed. -/
def ofLines (lines : List String) : Text := lines.flatMap fun line => line.toList ++ ['\n']

/-- A number in hexadecimal, filled up with zeros to a width. -/
def hex (width : Nat) (number : Nat) : Text := (Nat.toDigits 16 number).leftpad width '0'

/-- A number in decimal. -/
def decimal (number : Nat) : Text := Nat.toDigits 10 number

/-- A number in decimal, with a minus when it is negative. -/
def signedDecimal : Int → Text
  | .ofNat number => decimal number
  | .negSucc number => '-' :: decimal (number + 1)

end Text

end Handbook
