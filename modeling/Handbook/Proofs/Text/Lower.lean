/-
**Texts in small letters.**

A part of a text is lowered like the part alone, but for its capital sigmas: each looks for the
nearest characters around it that are not passed over, and these may stand outside the part. A
sigma whose neighbours cannot change is settled. What is lowered stays as it is when it is lowered
again, and the case of the letters of ASCII does not matter.

* `lower_append`: the lowered text, part by part;
* `lowerBetween_eq_iff`: a part is lowered alike in two places exactly when its sigmas end words
  alike there;
* `Settled.isFinalSigma_eq`: a settled sigma ends a word in every text or in none;
* `settled_of_occursIn`: a text that is found lowered between letters has only settled sigmas;
* `lower_lower`, `SameLetters.lower_eq`: lowering again, and lowering after a change of case.
-/

import Handbook.Proofs.Unicode.Lowercase
import Handbook.Text.Lower

namespace Handbook.Text

open Unicode

/-! ### What stands around a part -/

/-- Whether a text ends in a cased character, given whether the text before it does. -/
def endsCasedAfter (before : Bool) (text : Text) : Bool := text.foldl endsCased before

/-- Whether a text has only characters that the search for a cased neighbour passes over. -/
def isPassedOver (text : Text) : Bool := text.all isCaseIgnorable

/-- Whether a capital sigma between two texts ends a word, given whether what stands before them
ends in a cased character. -/
def isFinalSigma (cased : Bool) (before after : Text) : Bool :=
  endsCasedAfter cased before && !startsCased after

theorem isPassedOver_cons (c : Char) (rest : Text) :
    isPassedOver (c :: rest) = (isCaseIgnorable c && isPassedOver rest) := rfl

theorem endsCasedAfter_cons (before : Bool) (c : Char) (rest : Text) :
    endsCasedAfter before (c :: rest) = endsCasedAfter (endsCased before c) rest := rfl

theorem endsCasedAfter_append (before : Bool) (first second : Text) :
    endsCasedAfter before (first ++ second) =
      endsCasedAfter (endsCasedAfter before first) second :=
  List.foldl_append

/-- Only a text that is passed over leaves the decision to what stands before it. -/
theorem endsCasedAfter_eq (before : Bool) (text : Text) :
    endsCasedAfter before text =
      if isPassedOver text then before else endsCasedAfter false text := by
  induction text generalizing before with
  | nil => rfl
  | cons c rest step =>
    rw [endsCasedAfter_cons, endsCasedAfter_cons, isPassedOver_cons, endsCased, endsCased]
    cases isCaseIgnorable c with
    | true => exact step before
    | false => rfl

/-- Only a text that is passed over leaves the decision to what stands behind it. -/
theorem startsCased_append (text after : Text) :
    startsCased (text ++ after) =
      if isPassedOver text then startsCased after else startsCased text := by
  induction text with
  | nil => rfl
  | cons c rest step =>
    rw [List.cons_append, startsCased, startsCased, isPassedOver_cons]
    cases isCaseIgnorable c with
    | true => exact step
    | false => rfl

theorem not_isPassedOver {text : Text} (cased : startsCased text = true) :
    isPassedOver text = false := by
  have same := startsCased_append text []
  rw [List.append_nil, cased] at same
  cases passed : isPassedOver text with
  | false => rfl
  | true => simp [passed, startsCased] at same

/-! ### Lowering part by part -/

/-- A part of a text in small letters, given whether the text before it ends in a cased character,
and the text behind it. -/
def lowerBetween (before : Bool) (after : Text) : Text → Text
  | [] => []
  | c :: rest =>
    smallFormBetween before c (rest ++ after) ++ lowerBetween (endsCased before c) after rest

theorem lowerAfter_append (before : Bool) (first second : Text) :
    lowerAfter before (first ++ second) =
      lowerBetween before second first ++ lowerAfter (endsCasedAfter before first) second := by
  induction first generalizing before with
  | nil => rfl
  | cons c rest step =>
    rw [List.cons_append, lowerAfter, step, lowerBetween, List.append_assoc]
    rfl

theorem lowerBetween_nil (before : Bool) (text : Text) :
    lowerBetween before [] text = lowerAfter before text := by
  have same := lowerAfter_append before text []
  rw [List.append_nil, lowerAfter, List.append_nil] at same
  exact same.symm

/-- **The lowered text, part by part.** -/
theorem lower_append (before text after : Text) : lower (before ++ text ++ after) =
    lowerBetween false (text ++ after) before
      ++ lowerBetween (endsCasedAfter false before) after text
      ++ lowerAfter (endsCasedAfter false (before ++ text)) after := by
  rw [lower, List.append_assoc, lowerAfter_append, lowerAfter_append, endsCasedAfter_append,
    List.append_assoc]

theorem smallFormBetween_sigma (before : Bool) (after : Text) :
    smallFormBetween before 'Σ' after = [if before && !startsCased after then 'ς' else 'σ'] :=
  if_pos rfl

theorem smallFormBetween_of_ne {c : Char} (other : c ≠ 'Σ') (before : Bool) (after : Text) :
    smallFormBetween before c after = smallForm c :=
  if_neg other

/-- A character is lowered alike between texts that agree on whether a sigma there ends a word. -/
theorem smallFormBetween_eq_iff {one other : Bool} {behind behind' : Text} {c : Char} :
    smallFormBetween one c behind = smallFormBetween other c behind' ↔
      (c = 'Σ' → isFinalSigma one [] behind = isFinalSigma other [] behind') := by
  by_cases sigma : c = 'Σ'
  · rw [sigma, smallFormBetween_sigma, smallFormBetween_sigma]
    change [if isFinalSigma one [] behind then 'ς' else 'σ'] =
      [if isFinalSigma other [] behind' then 'ς' else 'σ'] ↔ _
    cases isFinalSigma one [] behind <;> cases isFinalSigma other [] behind' <;> decide
  · rw [smallFormBetween_of_ne sigma, smallFormBetween_of_ne sigma]
    exact iff_of_true rfl fun same => absurd same sigma

theorem length_smallFormBetween (before : Bool) (c : Char) (after : Text) :
    (smallFormBetween before c after).length = (smallForm c).length := by
  by_cases sigma : c = 'Σ'
  · rw [sigma, smallFormBetween_sigma]
    rfl
  · rw [smallFormBetween_of_ne sigma]

/-- **A part is lowered alike in two places exactly when its sigmas end words alike there.** -/
theorem lowerBetween_eq_iff {one other : Bool} {behind behind' text : Text} :
    lowerBetween one behind text = lowerBetween other behind' text ↔
      ∀ before after, text = before ++ 'Σ' :: after →
        isFinalSigma one before (after ++ behind) =
          isFinalSigma other before (after ++ behind') := by
  induction text generalizing one other with
  | nil => simp [lowerBetween]
  | cons c rest step =>
    have parts : lowerBetween one behind (c :: rest) = lowerBetween other behind' (c :: rest) ↔
        smallFormBetween one c (rest ++ behind) = smallFormBetween other c (rest ++ behind') ∧
          lowerBetween (endsCased one c) behind rest =
            lowerBetween (endsCased other c) behind' rest :=
      ⟨fun same => List.append_inj same (by rw [length_smallFormBetween, length_smallFormBetween]),
        fun ⟨first, later⟩ => by rw [lowerBetween, lowerBetween, first, later]⟩
    rw [parts, smallFormBetween_eq_iff, step]
    constructor
    · rintro ⟨first, later⟩ before after cut
      cases before with
      | nil =>
        obtain ⟨sigma, rfl⟩ := List.cons.inj cut
        exact first sigma
      | cons d before =>
        obtain ⟨rfl, rest⟩ := List.cons.inj cut
        exact later before after rest
    · refine fun all => ⟨?_, fun before after cut => all (c :: before) after (by rw [cut]; rfl)⟩
      rintro rfl
      exact all [] rest rfl

/-! ### Settled sigmas -/

/-- A capital sigma between two texts is settled when these tell whether it ends a word: a cased
character follows, or what precedes it has no case, or the nearest character on either side that is
not passed over is in them. -/
def Settled (before after : Text) : Prop :=
  startsCased after = true ∨ endsCasedAfter true before = false ∨
    isPassedOver before = false ∧ isPassedOver after = false

/-- **A settled sigma ends a word in every text or in none.** -/
theorem Settled.isFinalSigma_eq {before after : Text} (settled : Settled before after)
    (cased : Bool) (behind : Text) :
    isFinalSigma cased before (after ++ behind) = isFinalSigma false before after := by
  unfold isFinalSigma
  rw [startsCased_append]
  rcases settled with follows | uncased | ⟨early, late⟩
  · rw [not_isPassedOver follows, follows]
    simp
  · have fixed := endsCasedAfter_eq true before
    rw [uncased] at fixed
    cases passed : isPassedOver before with
    | true =>
      rw [passed] at fixed
      exact absurd fixed Bool.false_ne_true
    | false =>
      rw [passed] at fixed
      have plain : endsCasedAfter false before = false := fixed.symm
      rw [endsCasedAfter_eq cased, passed, plain]
      rfl
  · rw [late, endsCasedAfter_eq cased before, early]
    simp

/-- **Two neighbours tell whether a sigma is settled**: a letter before the text and one behind
it. -/
theorem settled_of_neighbours {before after : Text}
    (early : isFinalSigma true before after = isFinalSigma false before after)
    (late : isFinalSigma false before (after ++ ['a']) = isFinalSigma false before after) :
    Settled before after := by
  unfold isFinalSigma at early late
  have cased : startsCased ['a'] = true := by decide +kernel
  rw [startsCased_append, cased] at late
  by_cases follows : startsCased after = true
  · exact Or.inl follows
  by_cases uncased : endsCasedAfter true before = false
  · exact Or.inr (Or.inl uncased)
  refine Or.inr (Or.inr ?_)
  simp only [Bool.not_eq_true, Bool.not_eq_false] at follows uncased
  simp only [follows, uncased, Bool.not_false, Bool.and_true] at early late
  constructor
  · cases passed : isPassedOver before with
    | false => rfl
    | true =>
      have plain := endsCasedAfter_eq false before
      rw [passed, ← early] at plain
      exact absurd plain.symm Bool.false_ne_true
  · cases passed : isPassedOver after with
    | false => rfl
    | true =>
      rw [passed, ← early] at late
      exact absurd late (by decide)

/-! ### Final sigmas, counted -/

/-- A text that has final sigmas in fewer places than another, and plain ones there instead. -/
def Fewer (first second : Text) : Prop :=
  first.count 'ς' < second.count 'ς' ∧ second.count 'σ' < first.count 'σ'

theorem smallFormBetween_eq_or_fewer {one other : Bool} {behind behind' : Text} (c : Char)
    (ends : one && !startsCased behind → other && !startsCased behind') :
    smallFormBetween one c behind = smallFormBetween other c behind' ∨
      Fewer (smallFormBetween one c behind) (smallFormBetween other c behind') := by
  by_cases sigma : c = 'Σ'
  · rw [sigma, smallFormBetween_sigma, smallFormBetween_sigma]
    revert ends
    generalize (one && !startsCased behind) = first, (other && !startsCased behind') = second
    unfold Fewer
    cases first <;> cases second <;> decide
  · rw [smallFormBetween_of_ne sigma, smallFormBetween_of_ne sigma]
    exact Or.inl rfl

theorem eq_or_fewer_append {first first' second second' : Text}
    (one : first = first' ∨ Fewer first first') (two : second = second' ∨ Fewer second second') :
    first ++ second = first' ++ second' ∨ Fewer (first ++ second) (first' ++ second') := by
  unfold Fewer at one two ⊢
  simp only [List.count_append]
  rcases one with rfl | one <;> rcases two with rfl | two
  · exact Or.inl rfl
  all_goals exact Or.inr (by omega)

/-- **Behind a cased letter, and in front of none, only more sigmas end words.** -/
theorem lowerBetween_eq_or_fewer {one other : Bool} {behind behind' text : Text}
    (cased : one = true → other = true)
    (starts : startsCased behind' = true → startsCased behind = true) :
    lowerBetween one behind text = lowerBetween other behind' text ∨
      Fewer (lowerBetween one behind text) (lowerBetween other behind' text) := by
  induction text generalizing one other with
  | nil => exact Or.inl rfl
  | cons c rest step =>
    have later : endsCased one c = true → endsCased other c = true := by
      unfold endsCased
      split
      · exact cased
      · exact id
    have starts' : startsCased (rest ++ behind') = true → startsCased (rest ++ behind) = true := by
      rw [startsCased_append, startsCased_append]
      split
      · exact starts
      · exact id
    refine eq_or_fewer_append (smallFormBetween_eq_or_fewer c fun ends => ?_) (step later)
    rw [Bool.and_eq_true, Bool.not_eq_true'] at ends ⊢
    exact ⟨cased ends.1, Bool.eq_false_iff.mpr fun follows =>
      absurd (starts' follows) (Bool.eq_false_iff.mp ends.2)⟩

theorem count_le_of_occursIn {needle text : Text} (occurs : occursIn needle text = true)
    (c : Char) : needle.count c ≤ text.count c := by
  obtain ⟨before, after, rfl⟩ := occursIn_iff.mp occurs
  rw [List.count_append, List.count_append]
  omega

/-- **A text that is still found lowered behind a letter and in front of one has only settled
sigmas.** Another sigma would end a word in one of the two texts and not in the other. -/
theorem settled_of_occursIn {text : Text}
    (behind : occursIn (lower text) (lower ('a' :: text)) = true)
    (front : occursIn (lower text) (lower (text ++ ['a'])) = true) :
    ∀ before after, text = before ++ 'Σ' :: after → Settled before after := by
  have alone : lower text = lowerBetween false [] text := (lowerBetween_nil false text).symm
  have early : lower ('a' :: text) = 'a' :: lowerBetween true [] text := by
    rw [lowerBetween_nil, lower, lowerAfter]
    have letter : smallFormBetween false 'a' text = ['a'] := by
      rw [smallFormBetween_of_ne (by decide)]
      decide +kernel
    have cased : endsCased false 'a' = true := by decide +kernel
    rw [letter, cased]
    rfl
  have late : lower (text ++ ['a']) = lowerBetween false ['a'] text ++ ['a'] := by
    rw [lower, lowerAfter_append]
    have letter : ∀ before, lowerAfter before ['a'] = ['a'] := by decide +kernel
    rw [letter]
  have sameEarly : lowerBetween false [] text = lowerBetween true [] text := by
    have either : _ ∨ Fewer (lowerBetween false [] text) (lowerBetween true [] text) :=
      lowerBetween_eq_or_fewer (fun _ => rfl) id
    rcases either with same | fewer
    · exact same
    · have counts := count_le_of_occursIn behind 'σ'
      rw [alone, early, List.count_cons_of_ne (by decide)] at counts
      exact absurd fewer.2 (Nat.not_lt.mpr counts)
  have sameLate : lowerBetween false ['a'] text = lowerBetween false [] text := by
    have either : _ ∨ Fewer (lowerBetween false ['a'] text) (lowerBetween false [] text) :=
      lowerBetween_eq_or_fewer id fun starts => absurd starts (by decide)
    rcases either with same | fewer
    · exact same
    · have counts := count_le_of_occursIn front 'ς'
      rw [alone, late, List.count_append, List.count_singleton] at counts
      exact absurd fewer.1 (Nat.not_lt.mpr counts)
  intro before after cut
  have first := lowerBetween_eq_iff.mp sameEarly before after cut
  have second := lowerBetween_eq_iff.mp sameLate before after cut
  rw [List.append_nil] at first second
  exact settled_of_neighbours first.symm second

/-! ### Lowering again -/

/-- A text of small characters is its own small form. -/
theorem lowerAfter_of_small {text : Text} (small : ∀ c ∈ text, IsSmall c) (before : Bool) :
    lowerAfter before text = text := by
  induction text generalizing before with
  | nil => rfl
  | cons c rest step =>
    obtain ⟨other, same⟩ := small c (List.mem_cons_self ..)
    rw [lowerAfter, smallFormBetween_of_ne other, same,
      step fun d member => small d (List.mem_cons_of_mem _ member)]
    rfl

theorem isSmall_of_mem_lowerAfter {text : Text} {before : Bool} {c : Char}
    (member : c ∈ lowerAfter before text) : IsSmall c := by
  induction text generalizing before with
  | nil => exact absurd member List.not_mem_nil
  | cons d rest step =>
    rcases List.mem_append.mp member with first | later
    · by_cases sigma : d = 'Σ'
      · have both : IsSmall 'ς' ∧ IsSmall 'σ' := by decide +kernel
        rw [sigma, smallFormBetween_sigma] at first
        split at first
        · exact List.mem_singleton.mp first ▸ both.1
        · exact List.mem_singleton.mp first ▸ both.2
      · rw [smallFormBetween_of_ne sigma] at first
        exact isSmall_of_mem_smallForm first
    · exact step later

/-- **What is lowered stays as it is when it is lowered again.** -/
theorem lower_lower (text : Text) : lower (lower text) = lower text :=
  lowerAfter_of_small (fun _ => isSmall_of_mem_lowerAfter) false

/-! ### The case of the letters of ASCII -/

/-- Two texts that differ at most in the case of their letters of ASCII. -/
def SameLetters (first second : Text) : Prop := first.map Char.toLower = second.map Char.toLower

instance (first second : Text) : Decidable (SameLetters first second) :=
  inferInstanceAs (Decidable (_ = _))

theorem startsCased_toLower (text : Text) :
    startsCased (text.map Char.toLower) = startsCased text := by
  induction text with
  | nil => rfl
  | cons c rest step =>
    rw [List.map_cons, startsCased, startsCased, isCaseIgnorable_toLower, isCased_toLower, step]

theorem smallFormBetween_toLower (before : Bool) (c : Char) (after : Text) :
    smallFormBetween before c.toLower (after.map Char.toLower) =
      smallFormBetween before c after := by
  by_cases sigma : c = 'Σ'
  · rw [(toLower_eq_sigma_iff c).mpr sigma, sigma, smallFormBetween_sigma, smallFormBetween_sigma,
      startsCased_toLower]
  · have other := mt (toLower_eq_sigma_iff c).mp sigma
    rw [smallFormBetween_of_ne sigma, smallFormBetween_of_ne other, smallForm_toLower]

theorem lowerAfter_toLower (before : Bool) (text : Text) :
    lowerAfter before (text.map Char.toLower) = lowerAfter before text := by
  induction text generalizing before with
  | nil => rfl
  | cons c rest step =>
    have ends : endsCased before c.toLower = endsCased before c := by
      rw [endsCased, endsCased, isCaseIgnorable_toLower, isCased_toLower]
    rw [List.map_cons, lowerAfter, lowerAfter, smallFormBetween_toLower, ends, step]

/-- **The case of the letters of ASCII does not matter.** -/
theorem SameLetters.lower_eq {first second : Text} (same : SameLetters first second) :
    lower first = lower second :=
  calc lower first = lower (first.map Char.toLower) := (lowerAfter_toLower false first).symm
    _ = lower (second.map Char.toLower) := by rw [same]
    _ = lower second := lowerAfter_toLower false second

end Handbook.Text
