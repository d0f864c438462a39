/-
**Greedy filling.**

Prose of words without hyphens, parted by single spaces, is filled greedily: a line takes words as
long as they fit, and the next word starts the next line. The space between the two is where the
line breaks, so a line that is full to its last column breaks there as well.

* `chunks_spaced`: the chunks of such prose are its words and the spaces between them;
* `takeFitting_words`: a line takes the words that fit, and perhaps the space behind them;
* `Greedy.unique`: there is one way to fill lines greedily;
* `wrapAt?_greedy`: wrapping fills lines in this way.
-/

import Handbook.Proofs.Text.Fill

namespace Handbook.Text

open Unicode

/-! ### Words and spaces -/

/-- Words parted by single spaces. -/
def spaced (words : List Text) : Text := [' '].intercalate words

/-- A word that is broken nowhere but at its ends: without blanks and without hyphens. -/
structure IsSolid (word : Text) : Prop where
  nonempty : word ≠ []
  visible : ∀ c ∈ word, isBlank c = false
  unhyphened : '-' ∉ word

theorem spaced_singleton (word : Text) : spaced [word] = word := List.intercalate_singleton

theorem spaced_cons_cons (word next : Text) (rest : List Text) :
    spaced (word :: next :: rest) = word ++ ' ' :: spaced (next :: rest) := by
  rw [spaced, List.intercalate_cons_cons, List.append_assoc]
  rfl

theorem length_spaced_cons_cons (word next : Text) (rest : List Text) :
    (spaced (word :: next :: rest)).length = word.length + 1 + (spaced (next :: rest)).length := by
  rw [spaced_cons_cons, List.length_append, List.length_cons]
  omega

namespace IsSolid

variable {word : Text}

theorem not_blank (solid : IsSolid word) : isBlankText word = false := by
  obtain ⟨c, rest, rfl⟩ := List.exists_cons_of_ne_nil solid.nonempty
  simp [isBlankText, solid.visible c (List.mem_cons_self ..)]

theorem ne_space (solid : IsSolid word) : ∀ c ∈ word, c ≠ ' ' := by
  rintro c member rfl
  exact absurd (solid.visible ' ' member) (by decide)

theorem ne_hyphen (solid : IsSolid word) : ∀ c ∈ word, c ≠ '-' := fun _ member same =>
  solid.unhyphened (same ▸ member)

end IsSolid

/-! ### Chunks -/

theorem startsDash_other {c : Char} (other : c ≠ '-') (before rest : Text) :
    startsDash before (c :: rest) = false := by
  simp [startsDash, other]

/-- Inside a word no chunk ends. -/
theorem chunksAfter_word {word : Text} (space : ∀ c ∈ word, c ≠ ' ') (hyphen : ∀ c ∈ word, c ≠ '-')
    (before rest : Text) : chunksAfter before .word (word ++ rest) =
      (chunksAfter (word.reverse ++ before) .word rest).modifyHead (word ++ ·) := by
  induction word generalizing before with
  | nil =>
    cases pieces : chunksAfter before .word rest <;> simp [pieces]
  | cons c others step =>
    have other := hyphen c (List.mem_cons_self ..)
    have goesOn : Stretch.word.continued? before c (others ++ rest) = some .word := by
      simp [Stretch.continued?, other, space c (List.mem_cons_self ..), startsDash_other other]
    have later := step (fun d member => space d (List.mem_cons_of_mem _ member))
      (fun d member => hyphen d (List.mem_cons_of_mem _ member)) (c :: before)
    rw [List.cons_append, chunksAfter, goesOn]
    simp only [later, List.modifyHead_modifyHead, List.reverse_cons, List.append_assoc,
      List.singleton_append]
    rfl

/-- A word begins a chunk at the start of a line and behind a space. -/
theorem chunksAfter_opens {stretch : Stretch} (opens : stretch = .closed ∨ stretch = .blanks)
    {word : Text} (solid : IsSolid word) (before rest : Text) :
    chunksAfter before stretch (word ++ rest) =
      [] :: (chunksAfter (word.reverse ++ before) .word rest).modifyHead (word ++ ·) := by
  obtain ⟨c, others, rfl⟩ := List.exists_cons_of_ne_nil solid.nonempty
  have other := solid.ne_hyphen c (List.mem_cons_self ..)
  have space := solid.ne_space c (List.mem_cons_self ..)
  have begins : stretch.continued? before c (others ++ rest) = none := by
    rcases opens with rfl | rfl <;> simp [Stretch.continued?, space]
  have starting : Stretch.starting before c (others ++ rest) = .word := by
    simp [Stretch.starting, space, startsDash_other other]
  have later := chunksAfter_word (fun d member => solid.ne_space d (List.mem_cons_of_mem _ member))
    (fun d member => solid.ne_hyphen d (List.mem_cons_of_mem _ member)) (c :: before) rest
  rw [List.cons_append, chunksAfter, begins]
  simp only [starting, later, List.modifyHead_modifyHead, List.reverse_cons, List.append_assoc,
    List.singleton_append]
  rfl

/-- A space ends a word and is a chunk of its own before the next word. -/
theorem chunksAfter_space (before rest : Text) : chunksAfter before .word (' ' :: rest) =
    [] :: (chunksAfter (' ' :: before) .blanks rest).modifyHead (' ' :: ·) := by
  rw [chunksAfter]
  rfl

theorem chunksAfter_spaced {stretch : Stretch} (opens : stretch = .closed ∨ stretch = .blanks)
    {word : Text} {others : List Text} (solid : ∀ one ∈ word :: others, IsSolid one)
    (before : Text) : chunksAfter before stretch (spaced (word :: others)) =
      [] :: (word :: others).intersperse [' '] := by
  induction others generalizing word before stretch with
  | nil =>
    rw [spaced_singleton, ← List.append_nil word,
      chunksAfter_opens opens (solid word (List.mem_cons_self ..))]
    simp [chunksAfter]
  | cons next rest step =>
    have later := step (Or.inr rfl) fun one member => solid one (List.mem_cons_of_mem _ member)
    rw [spaced_cons_cons, chunksAfter_opens opens (solid word (List.mem_cons_self ..)),
      chunksAfter_space, later]
    simp

/-- **The chunks of words parted by spaces are the words and the spaces.** -/
theorem chunks_spaced {words : List Text} (solid : ∀ word ∈ words, IsSolid word) :
    chunks (spaced words) = words.intersperse [' '] := by
  cases words with
  | nil => rfl
  | cons word others =>
    rw [chunks, chunksAfter_spaced (Or.inl rfl) solid]
    rfl

theorem expandTabs_of_not_mem {line : Text} (absent : '\t' ∉ line) (column : Nat) :
    expandTabs column line = line := by
  induction line generalizing column with
  | nil => rfl
  | cons c rest step =>
    rw [List.mem_cons, not_or] at absent
    rw [expandTabs, if_neg (Ne.symm absent.1), step absent.2]

theorem mem_spaced {words : List Text} {c : Char} (member : c ∈ spaced words) :
    c = ' ' ∨ ∃ word ∈ words, c ∈ word :=
  (mem_of_mem_intercalate member).imp_left List.mem_singleton.mp

theorem lineFeed_not_mem_spaced {words : List Text} (solid : ∀ word ∈ words, IsSolid word) :
    '\n' ∉ spaced words := by
  intro member
  rcases mem_spaced member with space | ⟨word, found, inside⟩
  · exact absurd space (by decide)
  · exact absurd ((solid word found).visible '\n' inside) (by decide)

theorem not_blank_spaced {words : List Text} (nonempty : words ≠ [])
    (solid : ∀ word ∈ words, IsSolid word) : ¬ isBlankText (spaced words) = true := by
  obtain ⟨word, others, rfl⟩ := List.exists_cons_of_ne_nil nonempty
  intro blank
  have nothing := withoutBlanks_eq_nil_iff.mpr blank
  rw [spaced, withoutBlanks_intercalate (by decide), List.flatten_cons, withoutBlanks_append,
    List.append_eq_nil_iff, withoutBlanks_eq_nil_iff,
    (solid word (List.mem_cons_self ..)).not_blank] at nothing
  exact absurd nothing.1 (by decide)

/-- The blanks of words parted by spaces are level. -/
theorem levelBlanks_spaced {words : List Text} (solid : ∀ word ∈ words, IsSolid word) :
    levelBlanks (spaced words) = spaced words := by
  have level : ∀ c ∈ spaced words, isBreakable c = true → c = ' ' := by
    intro c member breakable
    rcases mem_spaced member with space | ⟨word, found, inside⟩
    · exact space
    · have visible := (solid word found).visible c inside
      rw [isBlank_of_isBreakable breakable] at visible
      exact absurd visible (by decide)
  have tab : '\t' ∉ spaced words := fun member =>
    absurd (level '\t' member (by decide)) (by decide)
  rw [levelBlanks, expandTabs_of_not_mem tab]
  refine (List.map_congr_left fun c member => ?_).trans (List.map_id _)
  split
  · rename_i breakable
    exact (level c member breakable).symm
  · rfl

/-! ### One line -/

/-- The chunks that some words leave for the lines after them: the words behind them, or the space
before these and they. -/
def LeavesWords (words : List Text) (left : List Text) : Prop :=
  left = words.intersperse [' '] ∨ words ≠ [] ∧ left = [' '] :: words.intersperse [' ']

/-- The chunks of some words, or these and the space behind them. -/
def TakesWords (words : List Text) (taken : List Text) : Prop :=
  taken = words.intersperse [' '] ∨ taken = words.intersperse [' '] ++ [[' ']]

/-- **A line takes the words that fit, and perhaps the space behind them**, and the next word does
not fit. -/
theorem takeFitting_words {room : Nat} {word : Text} {others : List Text}
    (fits : word.length ≤ room) :
    ∃ front back, others = front ++ back ∧ (spaced (word :: front)).length ≤ room ∧
      (∀ next ∈ back.head?, room < (spaced (word :: front)).length + 1 + next.length) ∧
      TakesWords (word :: front) (takeFitting room ((word :: others).intersperse [' '])).1 ∧
      LeavesWords back (takeFitting room ((word :: others).intersperse [' '])).2 := by
  induction others generalizing word room with
  | nil =>
    refine ⟨[], [], rfl, by rwa [spaced_singleton], by simp, ?_, ?_⟩
    · simp [takeFitting, fits, TakesWords]
    · simp [takeFitting, fits, LeavesWords]
  | cons next rest step =>
    rw [List.intersperse_cons_cons, takeFitting, if_pos fits, takeFitting]
    by_cases space : 1 ≤ room - word.length
    · rw [if_pos (by simpa using space)]
      by_cases more : next.length ≤ room - word.length - 1
      · -- the next word goes on the line, and so do those that follow it
        obtain ⟨front, back, rfl, short, long, taken, left⟩ := step more
        refine ⟨next :: front, back, rfl, ?_, ?_, ?_, left⟩
        · rw [length_spaced_cons_cons]
          omega
        · intro later member
          have := long later member
          rw [length_spaced_cons_cons]
          omega
        · exact taken.imp (fun same => by simp [same]) fun same => by simp [same]
      · -- the space fits, and the next word does not
        have stops : takeFitting (room - word.length - 1) ((next :: rest).intersperse [' ']) =
            ([], (next :: rest).intersperse [' ']) := by
          cases rest <;> simp [takeFitting, more]
        refine ⟨[], next :: rest, rfl, by rwa [spaced_singleton], ?_, ?_, ?_⟩
        · intro later member
          obtain rfl := Option.some.inj member
          rw [spaced_singleton]
          omega
        · exact Or.inr (by simp [stops])
        · exact Or.inl (by simp [stops])
    · -- the line is full up to its last column
      rw [if_neg (by simpa using space)]
      refine ⟨[], next :: rest, rfl, by rwa [spaced_singleton], ?_, ?_, ?_⟩
      · intro later member
        rw [spaced_singleton]
        omega
      · exact Or.inl rfl
      · exact Or.inr ⟨List.cons_ne_nil _ _, rfl⟩

theorem getLast?_intersperse {word : Text} {others : List Text} :
    ((word :: others).intersperse [' ']).getLast? = (word :: others).getLast? := by
  induction others generalizing word with
  | nil => rfl
  | cons next rest step =>
    rw [List.intersperse_cons_cons, List.getLast?_cons_cons, List.getLast?_cons, step,
      List.getLast?_cons_cons]
    simp [List.getLast?_cons]

/-- At its end a line of words has no space. -/
theorem dropBlankEnd_words {word : Text} {others : List Text}
    (solid : ∀ one ∈ word :: others, IsSolid one) {taken : List Text}
    (takes : TakesWords (word :: others) taken) :
    dropBlankEnd taken = (word :: others).intersperse [' '] := by
  unfold dropBlankEnd
  rcases takes with rfl | rfl
  · rw [if_neg]
    rw [getLast?_intersperse, Option.any_eq_true]
    rintro ⟨last, found, blank⟩
    rw [(solid last (List.mem_of_getLast? found)).not_blank] at blank
    exact absurd blank (by decide)
  · rw [List.getLast?_concat, if_pos (by decide), List.dropLast_concat]

/-- Of chunks that fit into a line none is broken. -/
theorem takeLine_eq {width : Width} {chunks : List Text}
    (fits : ∀ chunk ∈ chunks, chunk.length ≤ width.columns) :
    takeLine width chunks = takeFitting width.columns chunks := by
  have all := append_takeFitting width.columns chunks
  rw [takeLine]
  split
  · rename_i line whole
    exact whole.symm
  · rename_i line chunk others whole
    rw [whole] at all
    have short := fits chunk (all ▸ List.mem_append_right _ (List.mem_cons_self ..))
    rw [if_neg (Nat.not_lt.mpr short), whole]

theorem length_le_of_mem_intersperse {width : Width} {words : List Text}
    (fits : ∀ word ∈ words, word.length ≤ width.columns) :
    ∀ chunk ∈ words.intersperse [' '], chunk.length ≤ width.columns := by
  induction words with
  | nil => exact fun _ member => absurd member List.not_mem_nil
  | cons word others step =>
    have later := step fun one member => fits one (List.mem_cons_of_mem _ member)
    have first := fits word (List.mem_cons_self ..)
    cases others with
    | nil => simpa using first
    | cons next rest =>
      intro chunk member
      rw [List.intersperse_cons_cons, List.mem_cons, List.mem_cons] at member
      rcases member with rfl | rfl | inside
      · exact first
      · exact width.positive
      · exact later chunk inside

/-! ### Greedy lines -/

/-- Words put into lines greedily: no line is empty, each fits, and each is full, in that the first
word of the next line would not fit behind a space. -/
structure Greedy (columns : Int) (words : List Text) (lines : List (List Text)) : Prop where
  whole : lines.flatten = words
  filled : ∀ line ∈ lines, line ≠ []
  fits : ∀ line ∈ lines, ((spaced line).length : Int) ≤ columns
  full : lines.IsChain fun line next => ∀ word ∈ next.head?,
    columns < (spaced line).length + 1 + word.length

theorem greedy_nil (columns : Int) : Greedy columns [] [] where
  whole := rfl
  filled := fun _ member => absurd member List.not_mem_nil
  fits := fun _ member => absurd member List.not_mem_nil
  full := .nil

theorem Greedy.cons {columns : Int} {line words : List Text} {lines : List (List Text)}
    (greedy : Greedy columns words lines) (nonempty : line ≠ [])
    (fits : ((spaced line).length : Int) ≤ columns)
    (full : ∀ word ∈ words.head?, columns < (spaced line).length + 1 + word.length) :
    Greedy columns (line ++ words) (line :: lines) where
  whole := by rw [List.flatten_cons, greedy.whole]
  filled := List.forall_mem_cons.mpr ⟨nonempty, greedy.filled⟩
  fits := List.forall_mem_cons.mpr ⟨fits, greedy.fits⟩
  full := by
    cases lines with
    | nil => exact .singleton line
    | cons next rest =>
      refine .cons_cons (fun word member => full word ?_) greedy.full
      rw [← greedy.whole, List.flatten_cons, List.head?_append, member]
      rfl

/-- A line that starts with a word is not skipped. -/
theorem fillLines_opens {width : Width} {word : Text} {others line : List Text}
    (visible : isBlankText word = false)
    (taken : dropBlankEnd (takeLine width ((word :: others).intersperse [' '])).1 = line)
    (nonempty : line ≠ []) (started : Bool) :
    fillLines width started ((word :: others).intersperse [' ']) = line.flatten ::
      fillLines width true (takeLine width ((word :: others).intersperse [' '])).2 := by
  obtain ⟨tail, cut⟩ : ∃ tail, (word :: others).intersperse [' '] = word :: tail := by
    cases others with
    | nil => exact ⟨_, rfl⟩
    | cons next rest => exact ⟨_, rfl⟩
  rw [cut] at taken ⊢
  conv_lhs => rw [fillLines]
  simp only [visible, Bool.and_false, Bool.false_eq_true, if_false, taken, List.isEmpty_iff,
    nonempty]

/-- A line behind another one starts behind the space. -/
theorem fillLines_space (width : Width) {chunk : Text} (visible : isBlankText chunk = false)
    (others : List Text) :
    fillLines width true ([' '] :: chunk :: others) = fillLines width true (chunk :: others) := by
  have space : isBlankText [' '] = true := by decide
  conv_lhs => rw [fillLines]
  conv_rhs => rw [fillLines]
  simp only [visible, space, Bool.and_true, Bool.and_false, if_true, Bool.false_eq_true, if_false]

theorem fillLines_leaves {width : Width} {words left : List Text}
    (solid : ∀ word ∈ words, IsSolid word) (leaves : LeavesWords words left) :
    fillLines width true left = fillLines width true (words.intersperse [' ']) := by
  rcases leaves with rfl | ⟨nonempty, rfl⟩
  · rfl
  · obtain ⟨word, others, rfl⟩ := List.exists_cons_of_ne_nil nonempty
    have visible := (solid word (List.mem_cons_self ..)).not_blank
    cases others with
    | nil => exact fillLines_space width visible []
    | cons next rest => exact fillLines_space width visible _

/-- **Words are filled greedily.** -/
theorem fillLines_words {width : Width} {words : List Text} (solid : ∀ word ∈ words, IsSolid word)
    (fits : ∀ word ∈ words, word.length ≤ width.columns) (started : Bool) :
    ∃ lines, Greedy width.columns words lines ∧
      fillLines width started (words.intersperse [' ']) = lines.map spaced := by
  induction size : words.length using Nat.strongRecOn generalizing words started with
  | ind count step =>
  cases words with
  | nil => exact ⟨[], greedy_nil _, by simp [fillLines]⟩
  | cons word others =>
    obtain ⟨front, back, rfl, short, long, takes, leaves⟩ :=
      @takeFitting_words _ word others (fits word (List.mem_cons_self ..))
    have lineSolid : ∀ one ∈ word :: front, IsSolid one := fun one member =>
      solid one (List.mem_append_left back member)
    have backSolid : ∀ one ∈ back, IsSolid one := fun one member =>
      solid one (List.mem_append_right (word :: front) member)
    have fewer : back.length < count := by
      simp only [← size, List.length_cons, List.length_append]
      omega
    obtain ⟨lines, greedy, filled⟩ := step back.length fewer backSolid
      (fun one member => fits one (List.mem_append_right (word :: front) member)) true rfl
    refine ⟨(word :: front) :: lines, greedy.cons (List.cons_ne_nil _ _) (by exact_mod_cast short)
      (fun next member => by exact_mod_cast long next member), ?_⟩
    have line := dropBlankEnd_words lineSolid takes
    rw [← takeLine_eq (length_le_of_mem_intersperse fits)] at line leaves
    have opens := fillLines_opens (solid word (List.mem_cons_self ..)).not_blank line
      (by cases front <;> exact List.cons_ne_nil _ _) started
    exact opens.trans (by rw [fillLines_leaves backSolid leaves, filled]; rfl)

/-! ### One way to fill -/

section

variable {columns : Int} {words line between rest : List Text} {lines : List (List Text)}

theorem Greedy.tail (greedy : Greedy columns words (line :: lines)) :
    Greedy columns lines.flatten lines where
  whole := rfl
  filled := (List.forall_mem_cons.mp greedy.filled).2
  fits := (List.forall_mem_cons.mp greedy.fits).2
  full := by
    cases lines with
    | nil => exact .nil
    | cons next others => exact (List.isChain_cons_cons.mp greedy.full).2

theorem length_spaced_lt {line : List Text} (nonempty : line ≠ []) (next : Text) (more : List Text) :
    (spaced line).length + 1 + next.length ≤ (spaced (line ++ next :: more)).length := by
  have whole : spaced (line ++ next :: more) = spaced line ++ [' '] ++ spaced (next :: more) :=
    intercalate_append [' '] nonempty (List.cons_ne_nil _ _)
  have first : next.length ≤ (spaced (next :: more)).length := by
    cases more with
    | nil => exact Nat.le_of_eq (congrArg List.length (spaced_singleton next).symm)
    | cons later others =>
      rw [length_spaced_cons_cons]
      omega
  rw [whole, List.length_append, List.length_append, List.length_singleton]
  omega

/-- No more words would fit into a line that is filled greedily. -/
theorem Greedy.eq_nil_of_fits (greedy : Greedy columns words (line :: lines))
    (later : lines.flatten = between ++ rest)
    (fits : ((spaced (line ++ between)).length : Int) ≤ columns) : between = [] := by
  cases between with
  | nil => rfl
  | cons next more =>
    have nonempty := greedy.filled line (List.mem_cons_self ..)
    cases lines with
    | nil => exact absurd later.symm (List.cons_ne_nil _ _)
    | cons second others =>
      have filled := greedy.tail.filled second (List.mem_cons_self ..)
      obtain ⟨word, behind, rfl⟩ := List.exists_cons_of_ne_nil filled
      obtain ⟨rfl, -⟩ := List.cons.inj later
      have full := (List.isChain_cons_cons.mp greedy.full).1 word rfl
      have long := length_spaced_lt nonempty word more
      omega

/-- **There is one way to fill lines greedily.** -/
theorem Greedy.unique {others : List (List Text)} (one : Greedy columns words lines)
    (other : Greedy columns words others) : lines = others := by
  induction lines generalizing words others with
  | nil =>
    cases others with
    | nil => rfl
    | cons line rest =>
      have nothing := other.whole.trans one.whole.symm
      exact absurd (List.append_eq_nil_iff.mp nothing).1 (other.filled line (List.mem_cons_self ..))
  | cons line rest step =>
    cases others with
    | nil =>
      have nothing := one.whole.trans other.whole.symm
      exact absurd (List.append_eq_nil_iff.mp nothing).1 (one.filled line (List.mem_cons_self ..))
    | cons line' rest' =>
      have whole : line ++ rest.flatten = line' ++ rest'.flatten :=
        one.whole.trans other.whole.symm
      have same : line = line' := by
        rcases List.append_eq_append_iff.mp whole with ⟨between, longer, later⟩ |
          ⟨between, longer, later⟩
        · have fits := other.fits line' (List.mem_cons_self ..)
          rw [longer] at fits
          rw [longer, one.eq_nil_of_fits later fits, List.append_nil]
        · have fits := one.fits line (List.mem_cons_self ..)
          rw [longer] at fits
          rw [longer, other.eq_nil_of_fits later fits, List.append_nil]
      subst same
      have behind := other.tail
      rw [← List.append_cancel_left whole] at behind
      rw [step one.tail behind]

end

/-! ### The text again -/

theorem map_intercalate (change : Char → Char) (separator : Text) (parts : List Text) :
    (separator.intercalate parts).map change =
      (separator.map change).intercalate (parts.map (·.map change)) := by
  induction parts with
  | nil => rfl
  | cons part others step =>
    cases others with
    | nil => simp
    | cons next rest =>
      rw [List.intercalate_cons_cons, List.map_append, List.map_append, step, List.map_cons,
        List.map_cons, List.map_cons, List.intercalate_cons_cons]

/-- Where the lines of words break, a space stood. -/
theorem spaced_of_lines {lines : List (List Text)} (filled : ∀ line ∈ lines, line ≠ [])
    (alone : ∀ line ∈ lines, '\n' ∉ spaced line) :
    (['\n'].intercalate (lines.map spaced)).map (fun c => if c = '\n' then ' ' else c) =
      spaced lines.flatten := by
  have same : (lines.map spaced).map (·.map fun c => if c = '\n' then ' ' else c) =
      lines.map spaced := by
    rw [List.map_map]
    refine List.map_congr_left fun line member => ?_
    refine (List.map_congr_left fun c inside => ?_).trans (List.map_id _)
    exact if_neg fun feed : c = '\n' => alone line member (feed ▸ inside)
  rw [map_intercalate, same]
  exact intercalate_groups [' '] filled

/-- **Words are wrapped greedily**: no word is broken, and where a line breaks a space stood. -/
theorem wrapAt?_greedy {columns : Int} (positive : 1 ≤ columns) {words : List Text}
    (nonempty : words ≠ [])
    (solid : ∀ word ∈ words, IsSolid word ∧ (word.length : Int) ≤ columns) :
    ∃ wrapped lines, wrapAt? columns (spaced words) = some wrapped ∧
      split '\n' wrapped = lines.map spaced ∧ Greedy columns words lines ∧
      (∀ others, Greedy columns words others → others = lines) ∧
      wrapped.map (fun c => if c = '\n' then ' ' else c) = spaced words := by
  obtain ⟨width, rfl⟩ := exists_width positive
  have solids : ∀ word ∈ words, IsSolid word := fun word member => (solid word member).1
  obtain ⟨lines, greedy, filled⟩ := fillLines_words solids
    (fun word member => Int.ofNat_le.mp (solid word member).2) false
  have broken : brokenLine width (spaced words) = lines.map spaced := by
    rw [brokenLine_filled (not_blank_spaced nonempty solids), levelBlanks_spaced solids,
      chunks_spaced solids, filled]
  have alone := lineFeed_not_mem_spaced solids
  refine ⟨wrap width (spaced words), lines, wrapAt?_eq width _, ?_, greedy,
    fun others other => other.unique greedy, ?_⟩
  · rw [split_wrap, split_of_not_mem alone, List.flatMap_singleton, broken]
  · rw [wrap_eq, split_of_not_mem alone, List.flatMap_singleton, broken,
      spaced_of_lines greedy.filled, greedy.whole]
    intro line member
    have inside : spaced line ∈ brokenLine width (spaced words) :=
      broken ▸ List.mem_map_of_mem member
    exact lineFeed_not_mem_brokenLine inside

/-- Words that fill a line to its last column, and one that leaves a column behind it. -/
def filledWords : List Text :=
  ["aaa".toList, "bb".toList, "cc".toList, "dd,d".toList, "e".toList, "ffffff".toList]

theorem wrapAt?_greedy_filled :
    filledWords ≠ [] ∧ (∀ word ∈ filledWords, IsSolid word ∧ (word.length : Int) ≤ 6) ∧
      ∃ lines, Greedy 6 filledWords lines ∧
        lines.map spaced = ["aaa bb".toList, "cc".toList, "dd,d e".toList, "ffffff".toList] := by
  have each : ∀ word ∈ filledWords, word ≠ [] ∧ word.all (fun c => !isBlank c) = true ∧
      '-' ∉ word ∧ (word.length : Int) ≤ 6 := by decide
  have solid : ∀ word ∈ filledWords, IsSolid word ∧ (word.length : Int) ≤ 6 := fun word member =>
    have ⟨nonempty, visible, unhyphened, fits⟩ := each word member
    ⟨⟨nonempty, fun c inside => by simpa using List.all_eq_true.mp visible c inside, unhyphened⟩,
      fits⟩
  have nonempty : filledWords ≠ [] := List.cons_ne_nil _ _
  obtain ⟨wrapped, lines, known, cut, greedy, -⟩ := wrapAt?_greedy (by decide) nonempty solid
  have same : wrapAt? 6 (spaced filledWords) = some "aaa bb\ncc\ndd,d e\nffffff".toList := by
    decide +kernel
  rw [same] at known
  obtain rfl := Option.some.inj known
  exact ⟨nonempty, solid, lines, greedy, cut.symm⟩

end Handbook.Text
