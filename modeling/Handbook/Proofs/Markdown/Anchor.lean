/-
**Anchors are made character by character.**

Lowering a title looks at the neighbours of a capital sigma, but an anchor keeps neither of the small
letters that a sigma becomes. So each character of a title tells by itself what it leaves in the
anchor. That can be a letter of ASCII where the character is none: the Kelvin sign leaves a `k`, and
the capital I with a dot an `i`.

* `anchor_eq_flatMap`: an anchor is what the characters of the title leave, one after the other;
* `isAnchorLetter_of_mem`: an anchor holds only small letters of ASCII, digits and hyphens;
* `anchor_of_letters`: a text of these is its own anchor;
* `anchors_compose`: anchors are put together like titles, and an anchor is its own anchor.
-/

import Mathlib.Data.List.Basic
import Handbook.Markdown.Anchor
import Handbook.Proofs.Text.Lower

namespace Handbook.Markdown

open Text Unicode

/-- What an anchor keeps of a text in small letters. -/
def anchorPart (letters : Text) : Text :=
  (letters.filter anchorKeeps).map fun c => if c = ' ' then '-' else c

/-- Whether a character is a small letter of ASCII, a digit or a hyphen. -/
def isAnchorLetter (c : Char) : Bool := c.isLower || c.isDigit || c == '-'

/-! ### Character by character -/

theorem anchorPart_append (first second : Text) :
    anchorPart (first ++ second) = anchorPart first ++ anchorPart second := by
  simp [anchorPart]

/-- **The neighbours of a character do not matter**: an anchor keeps neither small sigma. -/
theorem anchorPart_smallFormBetween (before : Bool) (c : Char) (after : Text) :
    anchorPart (smallFormBetween before c after) = anchorPart (smallForm c) := by
  by_cases sigma : c = 'Σ'
  · have dropped : ∀ final : Bool, anchorPart [if final then 'ς' else 'σ'] =
        anchorPart (smallForm 'Σ') := by decide +kernel
    rw [sigma, smallFormBetween_sigma]
    exact dropped _
  · rw [smallFormBetween_of_ne sigma]

theorem anchorPart_lowerAfter (before : Bool) (title : Text) :
    anchorPart (lowerAfter before title) = title.flatMap fun c => anchorPart (smallForm c) := by
  induction title generalizing before with
  | nil => rfl
  | cons c rest step =>
    rw [lowerAfter, anchorPart_append, anchorPart_smallFormBetween, step, List.flatMap_cons]

/-- **An anchor is what the characters of the title leave**, one after the other. -/
theorem anchor_eq_flatMap (title : Text) :
    anchor title = title.flatMap fun c => anchorPart (smallForm c) :=
  anchorPart_lowerAfter false title

/-! ### The letters of an anchor -/

theorem toNat_lt_of_anchorKeeps {c : Char} (keeps : anchorKeeps c = true) : c.toNat < 128 := by
  have upTo {last : Char} (below : last.toNat < 128) (least : c.val ≤ last.val) : c.toNat < 128 :=
    Nat.lt_of_le_of_lt least below
  rcases Bool.or_eq_true_iff.mp keeps with mark | alphanumeric
  · rcases Bool.or_eq_true_iff.mp mark with space | hyphen
    · rw [eq_of_beq space]
      decide
    · rw [eq_of_beq hyphen]
      decide
  · rcases Bool.or_eq_true_iff.mp alphanumeric with letter | digit
    · rcases Bool.or_eq_true_iff.mp letter with upper | lower
      · have range : c.val ≥ 'A'.val ∧ c.val ≤ 'Z'.val := of_decide_eq_true upper
        exact upTo (by decide) range.2
      · have range := Bool.and_eq_true_iff.mp lower
        exact @upTo 'z' (by decide) (of_decide_eq_true range.2)
    · have range := Bool.and_eq_true_iff.mp digit
      exact @upTo '9' (by decide) (of_decide_eq_true range.2)

theorem anchorKeeps_of_isAnchorLetter {c : Char} (letter : isAnchorLetter c = true) :
    anchorKeeps c = true := by
  rcases Bool.or_eq_true_iff.mp letter with small | hyphen
  · have alphanumeric : isAsciiAlphanumeric c = true := by
      rcases Bool.or_eq_true_iff.mp small with lower | digit
      · have alpha : c.isAlpha = true := Bool.or_eq_true_iff.mpr (Or.inr lower)
        exact Bool.or_eq_true_iff.mpr (Or.inl alpha)
      · exact Bool.or_eq_true_iff.mpr (Or.inr digit)
    exact Bool.or_eq_true_iff.mpr (Or.inr alphanumeric)
  · have mark : (c == ' ' || c == '-') = true := Bool.or_eq_true_iff.mpr (Or.inr hyphen)
    exact Bool.or_eq_true_iff.mpr (Or.inl mark)

/-- **An anchor holds only small letters of ASCII, digits and hyphens.** -/
theorem isAnchorLetter_of_mem {title : Text} {c : Char} (member : c ∈ anchor title) :
    isAnchorLetter c = true := by
  -- what lowering leaves is small, so a capital letter of ASCII is not among it
  have letters : ∀ code < 128, anchorKeeps (Char.ofNat code) = true → IsSmall (Char.ofNat code) →
      isAnchorLetter (if Char.ofNat code = ' ' then '-' else Char.ofNat code) = true := by
    decide +kernel
  obtain ⟨letter, kept, rfl⟩ := List.mem_map.mp member
  obtain ⟨lowered, keeps⟩ := List.mem_filter.mp kept
  have small : IsSmall letter := isSmall_of_mem_lowerAfter lowered
  have here := letters letter.toNat (toNat_lt_of_anchorKeeps keeps)
  rw [Char.ofNat_toNat] at here
  exact here keeps small

/-- **A text of such letters is its own anchor.** -/
theorem anchor_of_letters {text : Text} (letters : ∀ c ∈ text, isAnchorLetter c = true) :
    anchor text = text := by
  have kept : ∀ code < 128, isAnchorLetter (Char.ofNat code) = true →
      anchorPart (smallForm (Char.ofNat code)) = [Char.ofNat code] := by decide +kernel
  have single : ∀ c ∈ text, anchorPart (smallForm c) = [c] := by
    intro c member
    have letter := letters c member
    have here := kept c.toNat (toNat_lt_of_anchorKeeps (anchorKeeps_of_isAnchorLetter letter))
    rw [Char.ofNat_toNat] at here
    exact here letter
  rw [anchor_eq_flatMap, List.flatMap_congr single, List.flatMap_singleton']

/-! ### Anchors of titles -/

/-- **Anchors are put together like titles.** The anchor of two titles in a row is their anchors in a
row; an anchor is its own anchor; a title in small letters has the same anchor; and all characters of
an anchor are small letters of ASCII, digits or hyphens. -/
theorem anchors_compose (first second : Text) :
    anchor (first ++ second) = anchor first ++ anchor second ∧
      anchor (anchor first) = anchor first ∧ anchor (lower first) = anchor first ∧
      ∀ c ∈ anchor first, isAnchorLetter c = true := by
  refine ⟨?_, ?_, ?_, fun c => isAnchorLetter_of_mem⟩
  · rw [anchor_eq_flatMap, anchor_eq_flatMap, anchor_eq_flatMap, List.flatMap_append]
  · exact anchor_of_letters fun c => isAnchorLetter_of_mem
  · rw [anchor, anchor, lower_lower]

/-- A sigma that ends a word on its own and no longer does before another title, and two characters
outside of ASCII that leave letters. -/
theorem anchors_compose_sigma :
    'k' ∈ anchor "\u212AΟΣ-".toList ∧
      anchor ("\u212AΟΣ-".toList ++ "A \u0130!".toList) = "k-a-i".toList ∧
      isAnchorLetter 'k' = true := by
  have first : anchor "\u212AΟΣ-".toList = "k-".toList := by decide +kernel
  have second : anchor "A \u0130!".toList = "a-i".toList := by decide +kernel
  have letter : 'k' ∈ anchor "\u212AΟΣ-".toList := by rw [first]; decide
  obtain ⟨whole, -, -, letters⟩ := anchors_compose "\u212AΟΣ-".toList "A \u0130!".toList
  rw [first, second] at whole
  exact ⟨letter, whole, letters 'k' letter⟩

end Handbook.Markdown
