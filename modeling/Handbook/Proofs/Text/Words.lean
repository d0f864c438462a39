/-
**Words and the blanks between them.**

A text is cut into words at its blanks, whichever they are. When its blanks are evened out, its words
are parted by single spaces. They stay the words of the text, and no other text with these words has
all of its blanks between two words and each of them a single space.

* `induction_blanks`: what holds of texts without blanks and goes on over blanks holds of all texts;
* `words_append_blank`: a blank in the middle cuts the words of a text in two;
* `words_spaced`: words that are parted by spaces are the words of the result;
* `IsWord.singleSpaced_append_iff`: what a word before a space asks of what follows;
* `singleSpaced_spaced`, `SingleSpaced.spaced_words`: words parted by spaces are the single-spaced
  texts;
* `eq_evenBlanks_iff`: evened out, a text is the single-spaced text with its words.
-/

import Handbook.Proofs.Text.Greedy

namespace Handbook.Text

open Unicode

/-! ### Cutting at blanks -/

/-- A word: a text with something in it and no blank. -/
structure IsWord (word : Text) : Prop where
  nonempty : word ≠ []
  visible : ∀ c ∈ word, isBlank c = false

/-- A text has no blank, or is cut at its first one. -/
theorem exists_blank_cut (text : Text) : (∀ c ∈ text, isBlank c = false) ∨
    ∃ front c rest, (∀ d ∈ front, isBlank d = false) ∧ isBlank c = true ∧
      text = front ++ c :: rest := by
  have whole : text.takeWhile (!isBlank ·) ++ text.dropWhile (!isBlank ·) = text :=
    List.takeWhile_append_dropWhile
  have visible : ∀ c ∈ text.takeWhile (!isBlank ·), isBlank c = false := fun c member => by
    simpa using of_mem_takeWhile member
  have stops := stops_dropWhile (!isBlank ·) text
  cases tail : text.dropWhile (!isBlank ·) with
  | nil =>
    rw [tail, List.append_nil] at whole
    exact Or.inl (whole ▸ visible)
  | cons c rest =>
    rw [tail] at whole stops
    exact Or.inr ⟨_, c, rest, visible, by simpa using stops c rfl, whole.symm⟩

/-- **What holds of texts without blanks and goes on over blanks holds of all texts.** -/
@[elab_as_elim]
theorem induction_blanks {motive : Text → Prop}
    (single : ∀ front, (∀ c ∈ front, isBlank c = false) → motive front)
    (next : ∀ front c rest, (∀ d ∈ front, isBlank d = false) → isBlank c = true → motive rest →
      motive (front ++ c :: rest)) (text : Text) : motive text := by
  induction size : text.length using Nat.strongRecOn generalizing text with
  | ind size step =>
  rcases exists_blank_cut text with visible | ⟨front, c, rest, visible, blank, rfl⟩
  · exact single text visible
  · refine next front c rest visible blank (step rest.length ?_ rest rfl)
    rw [List.length_append, List.length_cons] at size
    omega

/-- **A blank in the middle cuts the words of a text in two.** -/
theorem words_append_blank {c : Char} (blank : isBlank c = true) (first rest : Text) :
    words (first ++ c :: rest) = words first ++ words rest := by
  rw [words, splitWhere_append_cons blank, List.filter_append]
  rfl

theorem words_nil : words [] = [] := rfl

theorem IsWord.words_eq {word : Text} (isWord : IsWord word) : words word = [word] := by
  rw [words, splitWhere_of_absent isWord.visible]
  simp [isWord.nonempty]

theorem words_of_visible {text : Text} (visible : ∀ c ∈ text, isBlank c = false) :
    ∀ word ∈ words text, IsWord word := by
  by_cases empty : text = []
  · rw [empty, words_nil]
    exact fun _ member => absurd member List.not_mem_nil
  · have isWord : IsWord text := ⟨empty, visible⟩
    rw [isWord.words_eq]
    exact List.forall_mem_singleton.mpr isWord

/-- **The words of a text are words.** -/
theorem isWord_of_mem_words {text : Text} : ∀ word ∈ words text, IsWord word := by
  induction text using induction_blanks with
  | single front visible => exact words_of_visible visible
  | next front c rest visible blank step =>
    rw [words_append_blank blank, List.forall_mem_append]
    exact ⟨words_of_visible visible, step⟩

/-- A text of blanks has no words. -/
theorem words_of_isBlankText {text : Text} (blank : isBlankText text = true) :
    words text = [] := by
  induction text with
  | nil => rfl
  | cons c rest step =>
    rw [isBlankText, List.all_cons, Bool.and_eq_true] at blank
    exact (words_append_blank blank.1 [] rest).trans (step blank.2)

/-! ### Single spaces -/

/-- Whether every blank of a text is a single space between two words: it is a space, and there are
characters on both sides of it that are no blanks. -/
def SingleSpaced (text : Text) : Prop :=
  ∀ before c after, text = before ++ c :: after → isBlank c = true →
    c = ' ' ∧ (∃ d ∈ before.getLast?, isBlank d = false) ∧ ∃ d ∈ after.head?, isBlank d = false

theorem singleSpaced_of_visible {text : Text} (visible : ∀ c ∈ text, isBlank c = false) :
    SingleSpaced text := by
  rintro before c after rfl blank
  have other := visible c (List.mem_append_right _ (List.mem_cons_self ..))
  exact absurd blank (Bool.eq_false_iff.mp other)

/-- **A word before a space** leaves a text single-spaced if what follows is, and begins with no
blank. -/
theorem IsWord.singleSpaced_append_iff {word : Text} (isWord : IsWord word) (rest : Text) :
    SingleSpaced (word ++ ' ' :: rest) ↔
      SingleSpaced rest ∧ ∃ d ∈ rest.head?, isBlank d = false := by
  constructor
  · intro single
    obtain ⟨-, -, d, starts, visible⟩ := single word ' ' rest rfl (by decide)
    refine ⟨?_, d, starts, visible⟩
    intro before c after cut blank
    obtain ⟨space, ⟨e, ends, visible'⟩, behind⟩ :=
      single (word ++ ' ' :: before) c after (by rw [cut, List.append_assoc]; rfl) blank
    refine ⟨space, ⟨e, ?_, visible'⟩, behind⟩
    cases before with
    | nil =>
      -- the rest would begin with a blank, next to the one before it
      rw [cut, List.nil_append, List.head?_cons, Option.mem_some_iff] at starts
      exact absurd (starts ▸ blank) (Bool.eq_false_iff.mp visible)
    | cons f more =>
      rwa [List.getLast?_append, List.getLast?_cons_cons, Option.mem_def,
        List.getLast?_eq_some_getLast (List.cons_ne_nil f more), Option.some_or] at ends
  · rintro ⟨single, starts⟩ before c after cut blank
    -- the blank is none of the word, so it is the space behind it or stands later
    have all : ∀ d ∈ word, (!isBlank d) = true := fun d member => by
      rw [isWord.visible d member]
      rfl
    have stops : Stops (!isBlank ·) (c :: after) := stops_cons (by simp [blank]) after
    obtain ⟨between, rfl, tail⟩ := exists_of_stops all stops cut
    cases between with
    | nil =>
      obtain ⟨rfl, rfl⟩ := List.cons.inj tail
      have last := List.getLast?_eq_some_getLast isWord.nonempty
      rw [List.append_nil]
      exact ⟨rfl, ⟨_, last, isWord.visible _ (List.getLast_mem isWord.nonempty)⟩, starts⟩
    | cons space between =>
      obtain ⟨rfl, behind⟩ := List.cons.inj tail
      obtain ⟨isSpace, ⟨d, last, visible⟩, front⟩ := single between c after behind blank
      refine ⟨isSpace, ⟨d, ?_, visible⟩, front⟩
      rw [← List.singleton_append, ← List.append_assoc, List.getLast?_append, last]
      rfl

variable {list : List Text}

theorem head?_spaced {word : Text} {others : List Text} (isWord : IsWord word) :
    ∃ d ∈ (spaced (word :: others)).head?, isBlank d = false := by
  obtain ⟨c, rest, rfl⟩ := List.exists_cons_of_ne_nil isWord.nonempty
  refine ⟨c, ?_, isWord.visible c (List.mem_cons_self ..)⟩
  cases others with
  | nil => rw [spaced_singleton]; rfl
  | cons next more => rw [spaced_cons_cons]; rfl

/-- **Words that are parted by spaces are the words of the result.** -/
theorem words_spaced (all : ∀ word ∈ list, IsWord word) : words (spaced list) = list := by
  induction list with
  | nil => rfl
  | cons word others step =>
    obtain ⟨isWord, later⟩ := List.forall_mem_cons.mp all
    cases others with
    | nil => rw [spaced_singleton, isWord.words_eq]
    | cons next more =>
      rw [spaced_cons_cons, words_append_blank (by decide), isWord.words_eq, step later]
      rfl

/-- **Words that are parted by spaces are single-spaced.** -/
theorem singleSpaced_spaced (all : ∀ word ∈ list, IsWord word) : SingleSpaced (spaced list) := by
  induction list with
  | nil => exact singleSpaced_of_visible fun c member => absurd member List.not_mem_nil
  | cons word others step =>
    obtain ⟨isWord, later⟩ := List.forall_mem_cons.mp all
    cases others with
    | nil =>
      rw [spaced_singleton]
      exact singleSpaced_of_visible isWord.visible
    | cons next more =>
      have starts := @head?_spaced next more (later next (List.mem_cons_self ..))
      rw [spaced_cons_cons]
      exact (isWord.singleSpaced_append_iff _).mpr ⟨step later, starts⟩

/-- **A single-spaced text is its words, parted by spaces.** -/
theorem SingleSpaced.spaced_words {text : Text} (single : SingleSpaced text) :
    spaced (words text) = text := by
  induction text using induction_blanks with
  | single front visible =>
    by_cases empty : front = []
    · rw [empty]
      rfl
    · rw [IsWord.words_eq ⟨empty, visible⟩, spaced_singleton]
  | next front c rest visible blank step =>
    obtain ⟨rfl, ⟨last, ends, -⟩, -⟩ := single front c rest rfl blank
    have isWord : IsWord front := ⟨fun empty => absurd ends (by simp [empty]), visible⟩
    obtain ⟨later, first, starts, -⟩ := (isWord.singleSpaced_append_iff rest).mp single
    have remains := step later
    rw [words_append_blank blank, isWord.words_eq, List.singleton_append]
    cases parts : words rest with
    | nil =>
      rw [parts] at remains
      rw [← remains] at starts
      exact absurd starts (by simp [spaced])
    | cons word others => rw [spaced_cons_cons, ← parts, remains]

/-! ### Blanks evened out -/

theorem words_evenBlanks (text : Text) : words (evenBlanks text) = words text :=
  words_spaced isWord_of_mem_words

theorem singleSpaced_evenBlanks (text : Text) : SingleSpaced (evenBlanks text) :=
  singleSpaced_spaced isWord_of_mem_words

/-- **Evened out, a text is the single-spaced text with its words.** -/
theorem eq_evenBlanks_iff {text even : Text} :
    even = evenBlanks text ↔ words even = words text ∧ SingleSpaced even := by
  constructor
  · rintro rfl
    exact ⟨words_evenBlanks text, singleSpaced_evenBlanks text⟩
  · rintro ⟨same, single⟩
    rw [← single.spaced_words, same]
    rfl

end Handbook.Text
