/-
**Cutting texts.**

Where the characters of a test end, a text is cut in two, and the cut can be read off the two parts.
A text is also cut at each of its line feeds; what is done line by line commutes with that.

* `takeWhile_cut`, `dropWhile_cut`: the two parts of a cut;
* `exists_of_stops`, `exists_between`: a cut behind a stretch, and two cuts of one text;
* `splitWhere_append_cons`, `split_append_cons`: cutting at a separator that stands in the middle;
* `intercalate_split`, `split_intercalate`: cutting and joining undo each other;
* `induction_lines`: what holds of single lines and goes on over line feeds holds of all texts;
* `Linewise.append_lineFeed`: a change made line by line treats the parts around a line feed apart;
* `Linewise.split`: the lines of the result are the changed lines.
-/

import Handbook.Text.Basic

namespace Handbook.Text

/-! ### The longest stretch that satisfies a test -/

section

variable {Item : Type} {test : Item → Bool}

/-- Nothing at the start of a list satisfies a test. -/
def Stops (test : Item → Bool) (rest : List Item) : Prop := ∀ item ∈ rest.head?, test item = false

theorem stops_nil (test : Item → Bool) : Stops test [] := by
  intro item member
  simp at member

theorem stops_cons {item : Item} (fails : test item = false) (rest : List Item) :
    Stops test (item :: rest) := by
  intro other member
  rw [List.head?_cons, Option.mem_some_iff] at member
  rw [← member, fails]

theorem stops_of_append {first rest : List Item} (stops : Stops test (first ++ rest)) :
    Stops test first := by
  cases first with
  | nil => exact stops_nil test
  | cons item others => exact stops

theorem stops_dropWhile (test : Item → Bool) (list : List Item) : Stops test (list.dropWhile test) := by
  intro item member
  have fails := List.head?_dropWhile_not test list
  rw [Option.mem_def.mp member] at fails
  exact fails

/-- **The stretch in front of a cut.** -/
theorem takeWhile_cut {inside rest : List Item} (all : ∀ item ∈ inside, test item = true)
    (stops : Stops test rest) : (inside ++ rest).takeWhile test = inside := by
  rw [List.takeWhile_append_of_pos all]
  cases rest with
  | nil => simp
  | cons item others => simp [stops item rfl]

/-- **What stands behind a cut.** -/
theorem dropWhile_cut {inside rest : List Item} (all : ∀ item ∈ inside, test item = true)
    (stops : Stops test rest) : (inside ++ rest).dropWhile test = rest := by
  rw [List.dropWhile_append_of_pos all]
  cases rest with
  | nil => rfl
  | cons item others => simp [stops item rfl]

/-- **Where a stretch that satisfies a test comes first, a cut before an item that does not is behind
it.** -/
theorem exists_of_stops {stretch first second rest : List Item}
    (all : ∀ item ∈ stretch, test item = true) (stops : Stops test second)
    (whole : stretch ++ rest = first ++ second) :
    ∃ between, first = stretch ++ between ∧ rest = between ++ second := by
  rcases List.append_eq_append_iff.mp whole with ⟨between, cut, later⟩ | ⟨between, cut, later⟩
  · exact ⟨between, cut, later⟩
  · cases between with
    | nil => exact ⟨[], by rw [cut, List.append_nil, List.append_nil], later.symm⟩
    | cons item others =>
      have inside := all item (cut ▸ List.mem_append_right _ (List.mem_cons_self ..))
      rw [stops item (by rw [later]; rfl)] at inside
      exact absurd inside (by decide)

/-- **Of two cuts of a list one comes first**, and what stands between them ends the one part and
begins the other. -/
theorem exists_between {first second first' second' : List Item}
    (whole : first ++ second = first' ++ second') (order : first.length ≤ first'.length) :
    ∃ between, first' = first ++ between ∧ second = between ++ second' := by
  rcases List.append_eq_append_iff.mp whole with ⟨between, one, two⟩ | ⟨between, one, two⟩
  · exact ⟨between, one, two⟩
  · have sizes := congrArg List.length one
    rw [List.length_append] at sizes
    have empty : between = [] := List.eq_nil_of_length_eq_zero (by omega)
    rw [empty] at one two
    exact ⟨[], by rw [one, List.append_nil, List.append_nil], two.symm⟩

theorem of_mem_takeWhile {list : List Item} {item : Item}
    (member : item ∈ list.takeWhile test) : test item = true :=
  List.all_eq_true.mp List.all_takeWhile item member

end

/-! ### Lines -/

theorem split_ne_nil (separator : Char) (text : Text) : split separator text ≠ [] :=
  splitWhere_ne_nil _ _

theorem split_nil (separator : Char) : split separator [] = [[]] := rfl

theorem split_separator (separator : Char) (rest : Text) :
    split separator (separator :: rest) = [] :: split separator rest := by
  simp [split, splitWhere]

theorem split_other {separator c : Char} (other : c ≠ separator) (rest : Text) :
    split separator (c :: rest) = (split separator rest).modifyHead (c :: ·) := by
  simp [split, splitWhere, other]

/-- **A separator in the middle cuts a text in two.** -/
theorem splitWhere_append_cons {separates : Char → Bool} {c : Char} (cuts : separates c = true)
    (first second : Text) :
    splitWhere separates (first ++ c :: second) =
      splitWhere separates first ++ splitWhere separates second := by
  induction first with
  | nil => simp [splitWhere, cuts]
  | cons d rest step =>
    rw [List.cons_append, splitWhere, splitWhere, step]
    split
    · rfl
    · cases pieces : splitWhere separates rest with
      | nil => exact absurd pieces (splitWhere_ne_nil _ _)
      | cons head others => rfl

theorem splitWhere_of_absent {separates : Char → Bool} {text : Text}
    (single : ∀ c ∈ text, separates c = false) : splitWhere separates text = [text] := by
  induction text with
  | nil => rfl
  | cons c rest step =>
    have inside : ¬ separates c = true := by
      rw [single c (List.mem_cons_self ..)]
      decide
    rw [splitWhere, if_neg inside, step fun d member => single d (List.mem_cons_of_mem _ member)]
    rfl

theorem split_append_cons (separator : Char) (first second : Text) :
    split separator (first ++ separator :: second) =
      split separator first ++ split separator second :=
  @splitWhere_append_cons (· == separator) separator (beq_self_eq_true separator) first second

theorem split_of_not_mem {separator : Char} {text : Text} (single : separator ∉ text) :
    split separator text = [text] :=
  splitWhere_of_absent fun c member => by
    rw [beq_eq_false_iff_ne]
    exact fun same => single (same ▸ member)

/-- **The pieces of a cut text, joined by the separator, are the text.** -/
theorem intercalate_split (separator : Char) (text : Text) :
    [separator].intercalate (split separator text) = text := by
  induction text with
  | nil => rfl
  | cons c rest step =>
    have nonempty := split_ne_nil separator rest
    by_cases same : c = separator
    · rw [same, split_separator, List.intercalate_cons_of_ne_nil nonempty, step]
      rfl
    · rw [split_other same]
      cases pieces : split separator rest with
      | nil => exact absurd pieces nonempty
      | cons first others =>
        rw [List.modifyHead_cons, List.intercalate_cons_cons_left, ← pieces, step]

theorem intercalate_append (separator : Text) {first second : List Text} (nonempty : first ≠ [])
    (more : second ≠ []) : separator.intercalate (first ++ second) =
      separator.intercalate first ++ separator ++ separator.intercalate second := by
  induction first with
  | nil => exact absurd rfl nonempty
  | cons part others step =>
    cases others with
    | nil => rw [List.singleton_append, List.intercalate_cons_of_ne_nil more,
        List.intercalate_singleton]
    | cons next rest =>
      rw [List.cons_append, List.cons_append, List.intercalate_cons_cons, ← List.cons_append,
        step (List.cons_ne_nil _ _), List.intercalate_cons_cons]
      simp only [List.append_assoc]

/-- **Lines that are joined by line feeds are cut again into them.** -/
theorem split_intercalate {lines : List Text} (nonempty : lines ≠ [])
    (alone : ∀ line ∈ lines, '\n' ∉ line) : split '\n' (['\n'].intercalate lines) = lines := by
  induction lines with
  | nil => exact absurd rfl nonempty
  | cons line others step =>
    have first := alone line (List.mem_cons_self ..)
    cases others with
    | nil => rw [List.intercalate_singleton, split_of_not_mem first]
    | cons next rest =>
      rw [List.intercalate_cons_cons, List.append_assoc, List.singleton_append, split_append_cons,
        split_of_not_mem first, step (List.cons_ne_nil _ _) fun other member =>
          alone other (List.mem_cons_of_mem _ member)]
      rfl

/-- A piece of a text holds only characters of the text. -/
theorem mem_of_mem_split {separator c : Char} {text piece : Text}
    (member : piece ∈ split separator text) (inside : c ∈ piece) : c ∈ text := by
  have whole := flatten_splitWhere (· == separator) text
  have found : c ∈ (splitWhere (· == separator) text).flatten :=
    List.mem_flatten.mpr ⟨piece, member, inside⟩
  rw [whole] at found
  exact (List.mem_filter.mp found).1

/-- What stands behind a text is cut in the same way, but for what the text puts in front of its first
piece. -/
theorem exists_of_mem_split_behind {separator : Char} {rest piece : Text} (front : Text)
    (member : piece ∈ split separator rest) :
    ∃ whole ∈ split separator (front ++ rest), piece <:+ whole := by
  induction front with
  | nil => exact ⟨piece, member, List.suffix_rfl⟩
  | cons c others step =>
    obtain ⟨whole, found, ending⟩ := step
    rw [List.cons_append]
    by_cases same : c = separator
    · rw [same, split_separator]
      exact ⟨whole, List.mem_cons_of_mem _ found, ending⟩
    · rw [split_other same]
      cases pieces : split separator (others ++ rest) with
      | nil => exact absurd pieces (split_ne_nil _ _)
      | cons first more =>
        rw [pieces] at found
        rcases List.mem_cons.mp found with rfl | later
        · exact ⟨c :: whole, List.mem_cons_self .., ending.trans (List.suffix_cons _ _)⟩
        · exact ⟨whole, List.mem_cons_of_mem _ later, ending⟩

/-- A text either is one line or is cut at its first separator. -/
theorem exists_cut (separator : Char) (text : Text) :
    separator ∉ text ∨ ∃ line rest, separator ∉ line ∧ text = line ++ separator :: rest := by
  by_cases member : separator ∈ text
  · obtain ⟨line, rest, cut, single⟩ := List.eq_append_cons_of_mem member
    exact Or.inr ⟨line, rest, single, cut⟩
  · exact Or.inl member

/-- A stretch without separators at the start of a text begins its first piece. -/
theorem exists_split_of_stretch {separator : Char} {stretch : Text} (alone : separator ∉ stretch)
    (rest : Text) : ∃ whole ∈ split separator (stretch ++ rest), stretch <+: whole := by
  rcases exists_cut separator rest with single | ⟨line, later, single, rfl⟩
  · have whole : separator ∉ stretch ++ rest := fun member =>
      (List.mem_append.mp member).elim alone single
    rw [split_of_not_mem whole]
    exact ⟨_, List.mem_singleton_self _, List.prefix_append _ _⟩
  · have first : separator ∉ stretch ++ line := fun member =>
      (List.mem_append.mp member).elim alone single
    rw [← List.append_assoc, split_append_cons, split_of_not_mem first]
    exact ⟨_, List.mem_cons_self .., List.prefix_append _ _⟩

/-- A text is cut at its first separator in one way. -/
theorem cut_unique {separator : Char} {line line' rest rest' : Text} (alone : separator ∉ line)
    (alone' : separator ∉ line') (whole : line ++ separator :: rest = line' ++ separator :: rest') :
    line = line' ∧ rest = rest' := by
  have all {line : Text} (alone : separator ∉ line) : ∀ c ∈ line, (c != separator) = true :=
    fun c member => by
      rw [bne_iff_ne]
      exact fun same => alone (same ▸ member)
  have stops (rest : Text) : Stops (· != separator) (separator :: rest) := stops_cons (by simp) rest
  have same : line = line' := by
    rw [← takeWhile_cut (all alone) (stops rest), whole, takeWhile_cut (all alone') (stops rest')]
  rw [same] at whole
  exact ⟨same, List.cons.inj (List.append_cancel_left whole) |>.2⟩

/-- **What holds of single lines and goes on over line feeds holds of all texts.** -/
@[elab_as_elim]
theorem induction_lines {motive : Text → Prop} (single : ∀ line, '\n' ∉ line → motive line)
    (next : ∀ line rest, '\n' ∉ line → motive rest → motive (line ++ '\n' :: rest)) (text : Text) :
    motive text := by
  induction size : text.length using Nat.strongRecOn generalizing text with
  | ind size step =>
  rcases exists_cut '\n' text with alone | ⟨line, rest, alone, rfl⟩
  · exact single text alone
  · refine next line rest alone (step rest.length ?_ rest rfl)
    rw [List.length_append, List.length_cons] at size
    omega

/-- The lines of a text hold no line feed. -/
theorem lineFeed_not_mem_of_mem_split {text line : Text} (member : line ∈ split '\n' text) :
    '\n' ∉ line := by
  induction text using induction_lines with
  | single whole alone =>
    rw [split_of_not_mem alone, List.mem_singleton] at member
    rwa [member]
  | next first rest alone step =>
    rw [split_append_cons, split_of_not_mem alone, List.singleton_append, List.mem_cons] at member
    exact member.elim (fun same => same ▸ alone) step

/-- A change of texts that is made line by line. -/
structure Linewise (change : Text → Text) : Prop where
  single : ∀ {line}, '\n' ∉ line → '\n' ∉ change line
  next : ∀ {line} rest, '\n' ∉ line →
    change (line ++ '\n' :: rest) = change line ++ '\n' :: change rest

theorem Linewise.comp {first second : Text → Text} (later : Linewise second)
    (sooner : Linewise first) : Linewise fun text => second (first text) where
  single := fun alone => later.single (sooner.single alone)
  next := fun rest alone => by rw [sooner.next rest alone, later.next _ (sooner.single alone)]

/-- **A change made line by line treats the parts around any line feed apart.** -/
theorem Linewise.append_lineFeed {change : Text → Text} (linewise : Linewise change)
    (first second : Text) :
    change (first ++ '\n' :: second) = change first ++ '\n' :: change second := by
  induction first using induction_lines with
  | single line alone => exact linewise.next second alone
  | next line rest alone step =>
    rw [List.append_assoc, List.cons_append, linewise.next _ alone, step, linewise.next _ alone,
      List.append_assoc, List.cons_append]

/-- **The lines of a text that is changed line by line are the changed lines.** -/
theorem Linewise.split {change : Text → Text} (linewise : Linewise change) (text : Text) :
    Text.split '\n' (change text) = (Text.split '\n' text).map change := by
  induction text using induction_lines with
  | single line alone =>
    rw [split_of_not_mem alone, split_of_not_mem (linewise.single alone), List.map_singleton]
  | next line rest alone step =>
    rw [linewise.next rest alone, split_append_cons, split_append_cons, split_of_not_mem alone,
      split_of_not_mem (linewise.single alone), step, List.map_append, List.map_singleton]

end Handbook.Text
