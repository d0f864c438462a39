/-
**The lines that prose is broken into.**

Prose is broken line by line. A line that is blank becomes empty; any other line is broken into one
line or more, none of them wider than there are columns. What is broken moves, drops and puts in
blanks only: all other characters stay, in their order.

* `length_takeLine_le`: a line takes no more than fits;
* `withoutBlanks_fillLines`: what is not blank stays, in its order;
* `split_wrap`: the lines of wrapped prose are those of its lines, one group after the other;
* `wrapAt?_breaks`: wherever there is a column, each line of prose is broken into lines that fit.
-/

import Mathlib.Data.List.Forall2
import Handbook.Proofs.Text.Wrap

namespace Handbook.Text

open Unicode

/-! ### Texts without their blanks -/

/-- A text without its blanks. -/
def withoutBlanks (text : Text) : Text := text.filter (!isBlank ·)

@[simp] theorem withoutBlanks_nil : withoutBlanks [] = [] := rfl

@[simp] theorem withoutBlanks_append (first second : Text) :
    withoutBlanks (first ++ second) = withoutBlanks first ++ withoutBlanks second :=
  List.filter_append first second

theorem withoutBlanks_blank {c : Char} (blank : isBlank c = true) (rest : Text) :
    withoutBlanks (c :: rest) = withoutBlanks rest :=
  List.filter_cons_of_neg (by simp [blank])

theorem withoutBlanks_cons (c : Char) (rest : Text) :
    withoutBlanks (c :: rest) = withoutBlanks [c] ++ withoutBlanks rest :=
  withoutBlanks_append [c] rest

theorem withoutBlanks_eq_nil_iff {text : Text} :
    withoutBlanks text = [] ↔ isBlankText text = true := by
  simp [withoutBlanks, isBlankText]

/-- Parts joined by blanks hold what is not blank in the parts. -/
theorem withoutBlanks_intercalate {separator : Text} (blank : isBlankText separator = true)
    (parts : List Text) :
    withoutBlanks (separator.intercalate parts) = withoutBlanks parts.flatten := by
  induction parts with
  | nil => rfl
  | cons part others step =>
    cases others with
    | nil => rw [List.intercalate_singleton, List.flatten_singleton]
    | cons next rest =>
      rw [List.intercalate_cons_cons, withoutBlanks_append, withoutBlanks_append, step,
        withoutBlanks_eq_nil_iff.mpr blank, List.append_nil, ← withoutBlanks_append]
      rfl

/-- A text cut at blanks of one kind holds what is not blank in its pieces. -/
theorem withoutBlanks_split {separator : Char} (blank : isBlank separator = true) (text : Text) :
    withoutBlanks (split separator text).flatten = withoutBlanks text := by
  have alone : isBlankText [separator] = true := by simp [isBlankText, blank]
  rw [← withoutBlanks_intercalate alone, intercalate_split]

/-! ### Leveled blanks -/

theorem isBlank_of_isBreakable {c : Char} (breakable : isBreakable c = true) :
    isBlank c = true := by
  have each : ∀ c ∈ ['\t', '\n', '\x0b', '\x0c', '\r', ' '], isBlank c = true :=
    List.all_eq_true.mp (by decide)
  exact each c (of_decide_eq_true breakable)

theorem withoutBlanks_expandTabs (column : Nat) (line : Text) :
    withoutBlanks (expandTabs column line) = withoutBlanks line := by
  induction line generalizing column with
  | nil => rfl
  | cons c rest step =>
    rw [expandTabs]
    split
    · rename_i tab
      have spaces : isBlankText (List.replicate (8 - column % 8) ' ') = true :=
        List.all_eq_true.mpr fun d member => List.eq_of_mem_replicate member ▸ by decide
      rw [withoutBlanks_append, withoutBlanks_eq_nil_iff.mpr spaces, step, List.nil_append, tab,
        withoutBlanks_blank (by decide)]
    · rw [withoutBlanks_cons, step, ← withoutBlanks_cons]

theorem withoutBlanks_levelBlanks (line : Text) :
    withoutBlanks (levelBlanks line) = withoutBlanks line := by
  have level (expanded : Text) : withoutBlanks
      (expanded.map fun c => if isBreakable c then ' ' else c) = withoutBlanks expanded := by
    induction expanded with
    | nil => rfl
    | cons c rest step =>
      rw [List.map_cons, withoutBlanks_cons, step, withoutBlanks_cons c]
      congr 1
      split
      · rename_i breakable
        rw [withoutBlanks_blank (by decide), withoutBlanks_blank (isBlank_of_isBreakable breakable)]
      · rfl
  rw [levelBlanks, level, withoutBlanks_expandTabs]

theorem lineFeed_not_mem_levelBlanks (line : Text) : '\n' ∉ levelBlanks line := by
  intro member
  obtain ⟨c, -, same⟩ := List.mem_map.mp member
  split at same
  · exact absurd same (by decide)
  · rename_i other
    rw [same] at other
    exact other (by decide)

/-! ### One line -/

theorem length_takeFitting_le (room : Nat) (chunks : List Text) :
    (takeFitting room chunks).1.flatten.length ≤ room := by
  induction chunks generalizing room with
  | nil => exact Nat.zero_le room
  | cons chunk others step =>
    rw [takeFitting]
    split
    · have later := step (room - chunk.length)
      rw [List.flatten_cons, List.length_append]
      omega
    · exact Nat.zero_le room

theorem length_breakOff_le (room : Nat) (chunk : Text) : (breakOff room chunk).length ≤ room := by
  have fitting : (chunk.take room).length ≤ room := List.length_take_le room chunk
  rw [breakOff]
  split
  · exact Nat.le_trans (prefix_trimEnd _ _).length_le fitting
  · exact fitting

/-- **A line takes no more than fits.** -/
theorem length_takeLine_le (width : Width) (chunks : List Text) :
    (takeLine width chunks).1.flatten.length ≤ width.columns := by
  have fits := length_takeFitting_le width.columns chunks
  rw [takeLine]
  split
  · rename_i line whole
    rwa [whole] at fits
  · rename_i line chunk others whole
    rw [whole] at fits
    dsimp only at fits
    split
    · have piece := length_breakOff_le (width.columns - line.flatten.length) chunk
      rw [List.flatten_append, List.length_append, List.flatten_singleton]
      omega
    · exact fits

theorem withoutBlanks_dropBlankEnd (line : List Text) :
    withoutBlanks (dropBlankEnd line).flatten = withoutBlanks line.flatten := by
  rw [dropBlankEnd]
  split
  · rename_i blank
    obtain ⟨init, last, rfl⟩ | rfl := (List.eq_nil_or_concat line).symm
    · rw [List.concat_eq_append] at blank ⊢
      rw [List.getLast?_concat, Option.any_some] at blank
      rw [List.dropLast_concat, List.flatten_append, List.flatten_singleton, withoutBlanks_append,
        withoutBlanks_eq_nil_iff.mpr blank, List.append_nil]
    · rfl
  · rfl

/-! ### All lines -/

/-- A line behind another one starts at its first chunk that is not blank. -/
theorem withoutBlanks_taken (width : Width) (started : Bool) (chunk : Text) (others : List Text) :
    let taken := takeLine width (if started && isBlankText chunk then others else chunk :: others)
    withoutBlanks taken.1.flatten ++ withoutBlanks taken.2.flatten =
      withoutBlanks (chunk :: others).flatten := by
  intro taken
  rw [← withoutBlanks_append, flatten_takeLine]
  split
  · rename_i dropped
    rw [Bool.and_eq_true] at dropped
    rw [List.flatten_cons, withoutBlanks_append, withoutBlanks_eq_nil_iff.mpr dropped.2,
      List.nil_append]
  · rfl

/-- **What is not blank stays, in its order.** -/
theorem withoutBlanks_fillLines (width : Width) (started : Bool) (chunks : List Text) :
    withoutBlanks (fillLines width started chunks).flatten = withoutBlanks chunks.flatten := by
  fun_induction fillLines width started chunks with
  | case1 => rfl
  | case2 started chunk others taken line empty step =>
    have nothing : withoutBlanks taken.1.flatten = [] := by
      rw [← withoutBlanks_dropBlankEnd, show dropBlankEnd taken.1 = [] from List.isEmpty_iff.mp empty]
      rfl
    have whole := withoutBlanks_taken width started chunk others
    rw [step, ← whole]
    exact (congrArg (· ++ withoutBlanks taken.2.flatten) nothing).symm
  | case3 started chunk others taken line filled step =>
    rw [List.flatten_cons, withoutBlanks_append, step, withoutBlanks_dropBlankEnd]
    exact withoutBlanks_taken width started chunk others

theorem length_le_of_mem_fillLines {width : Width} {started : Bool} {chunks : List Text}
    {line : Text} (member : line ∈ fillLines width started chunks) :
    line.length ≤ width.columns := by
  fun_induction fillLines width started chunks with
  | case1 => exact absurd member List.not_mem_nil
  | case2 started chunk others taken filled empty step => exact step member
  | case3 started chunk others taken filled nonempty step =>
    rcases List.mem_cons.mp member with rfl | later
    · exact Nat.le_trans (dropBlankEnd_sublist taken.1).flatten.length_le
        (length_takeLine_le width _)
    · exact step later

/-! ### Lines of prose -/

/-- The lines that a line of prose is broken into. -/
def brokenLine (width : Width) (line : Text) : List Text :=
  if isBlankText line then [[]] else fillLines width false (chunks (levelBlanks line))

theorem brokenLine_blank {width : Width} {line : Text} (blank : isBlankText line = true) :
    brokenLine width line = [[]] := if_pos blank

theorem brokenLine_filled {width : Width} {line : Text} (filled : ¬ isBlankText line = true) :
    brokenLine width line = fillLines width false (chunks (levelBlanks line)) := if_neg filled

theorem withoutBlanks_brokenLine (width : Width) (line : Text) :
    withoutBlanks (brokenLine width line).flatten = withoutBlanks line := by
  by_cases blank : isBlankText line = true
  · rw [brokenLine_blank blank, withoutBlanks_eq_nil_iff.mpr blank]
    rfl
  · rw [brokenLine_filled blank, withoutBlanks_fillLines, flatten_chunks, withoutBlanks_levelBlanks]

/-- A line is broken into one line at least. -/
theorem brokenLine_ne_nil (width : Width) (line : Text) : brokenLine width line ≠ [] := by
  intro nothing
  have whole := withoutBlanks_brokenLine width line
  rw [nothing, List.flatten_nil, withoutBlanks_nil] at whole
  rw [brokenLine_blank (withoutBlanks_eq_nil_iff.mp whole.symm)] at nothing
  exact List.cons_ne_nil _ _ nothing

theorem length_le_of_mem_brokenLine {width : Width} {line part : Text}
    (member : part ∈ brokenLine width line) : part.length ≤ width.columns := by
  unfold brokenLine at member
  split at member
  · rw [List.mem_singleton.mp member]
    exact Nat.zero_le _
  · exact length_le_of_mem_fillLines member

theorem lineFeed_not_mem_brokenLine {width : Width} {line part : Text}
    (member : part ∈ brokenLine width line) : '\n' ∉ part := by
  unfold brokenLine at member
  split at member
  · rw [List.mem_singleton.mp member]
    exact List.not_mem_nil
  · intro feed
    have inside := (sublist_fillLines width false (chunks (levelBlanks line))).subset
      (List.mem_flatten.mpr ⟨part, member, feed⟩)
    rw [flatten_chunks] at inside
    exact lineFeed_not_mem_levelBlanks line inside

/-- Groups of lines that are joined, and then joined with each other, are joined lines. -/
theorem intercalate_groups (separator : Text) {groups : List (List Text)}
    (nonempty : ∀ group ∈ groups, group ≠ []) :
    separator.intercalate (groups.map separator.intercalate) =
      separator.intercalate groups.flatten := by
  induction groups with
  | nil => rfl
  | cons group others step =>
    have later := step fun other member => nonempty other (List.mem_cons_of_mem _ member)
    have first := nonempty group (List.mem_cons_self ..)
    cases others with
    | nil =>
      rw [List.map_singleton, List.intercalate_singleton, List.flatten_singleton]
    | cons next rest =>
      have second := nonempty next (by simp)
      have more : (next :: rest).flatten ≠ [] := by simp [second]
      rw [List.map_cons, List.intercalate_cons_of_ne_nil (by simp), later,
        ← intercalate_append separator first more]
      rfl

/-! ### Whole texts -/

theorem fill_eq (width : Width) {line : Text} (filled : ¬ isBlankText line = true) :
    fill width line = ['\n'].intercalate (brokenLine width line) := by
  rw [fill, brokenLine_filled filled]

/-- Wrapped prose is the lines of its lines. -/
theorem wrap_eq (width : Width) (text : Text) :
    wrap width text = ['\n'].intercalate ((split '\n' text).flatMap (brokenLine width)) := by
  have each (line : Text) : (if isBlankText line then [] else fill width line) =
      ['\n'].intercalate (brokenLine width line) := by
    split
    · rename_i blank
      rw [brokenLine_blank blank, List.intercalate_singleton]
    · rename_i filled
      exact fill_eq width filled
  have groups : ∀ group ∈ (split '\n' text).map (brokenLine width), group ≠ [] := by
    intro group member
    obtain ⟨line, -, rfl⟩ := List.mem_map.mp member
    exact brokenLine_ne_nil width line
  rw [wrap, List.flatMap_def, ← intercalate_groups ['\n'] groups, List.map_map]
  exact congrArg _ (List.map_congr_left fun line _ => each line)

/-- **The lines of wrapped prose are those of its lines**, one group after the other. -/
theorem split_wrap (width : Width) (text : Text) :
    split '\n' (wrap width text) = (split '\n' text).flatMap (brokenLine width) := by
  have nonempty : (split '\n' text).flatMap (brokenLine width) ≠ [] := by
    obtain ⟨line, others, lines⟩ := List.exists_cons_of_ne_nil (split_ne_nil '\n' text)
    rw [lines, List.flatMap_cons]
    exact List.append_ne_nil_of_left_ne_nil (brokenLine_ne_nil width line) _
  rw [wrap_eq]
  refine split_intercalate nonempty fun part member => ?_
  obtain ⟨line, -, inside⟩ := List.mem_flatMap.mp member
  exact lineFeed_not_mem_brokenLine inside

/-- **Where there is a column, prose is wrapped.** -/
theorem wrapAt?_eq (width : Width) (text : Text) :
    wrapAt? width.columns text = some (wrap width text) := by
  have known : Width.ofInt? width.columns = some width := by
    rw [Width.ofInt?, dif_pos (by simpa using width.positive)]
    rfl
  have each : (split '\n' text).mapM (fun line =>
      if isBlankText line then some [] else (Width.ofInt? width.columns).map (fill · line)) =
      some ((split '\n' text).map fun line => if isBlankText line then [] else fill width line) := by
    rw [known]
    induction split '\n' text with
    | nil => rfl
    | cons line others step =>
      rw [List.mapM_cons, step]
      split <;> simp_all
  rw [wrapAt?, each]
  rfl

theorem exists_width {columns : Int} (positive : 1 ≤ columns) :
    ∃ width : Width, columns = width.columns :=
  ⟨⟨columns.toNat, by omega⟩, by dsimp only; omega⟩

theorem withoutBlanks_wrap (width : Width) (text : Text) :
    withoutBlanks (wrap width text) = withoutBlanks text := by
  have lines (pieces : List Text) : withoutBlanks (pieces.flatMap (brokenLine width)).flatten =
      withoutBlanks pieces.flatten := by
    induction pieces with
    | nil => rfl
    | cons line others step =>
      rw [List.flatMap_cons, List.flatten_append, withoutBlanks_append, withoutBlanks_brokenLine,
        step, List.flatten_cons, withoutBlanks_append]
  have feed : isBlank '\n' = true := by decide
  rw [← withoutBlanks_split feed, split_wrap, lines, withoutBlanks_split feed]

/-- A line of prose is broken into a group of lines. -/
structure Breaks (columns : Int) (line : Text) (group : List Text) : Prop where
  nonempty : group ≠ []
  fits : ∀ part ∈ group, (part.length : Int) ≤ columns
  whole : withoutBlanks group.flatten = withoutBlanks line
  blank : isBlankText line = true → group = [[]]
  alone : wrapAt? columns line = some (['\n'].intercalate group)

theorem breaks_brokenLine (width : Width) {line : Text} (single : '\n' ∉ line) :
    Breaks width.columns line (brokenLine width line) where
  nonempty := brokenLine_ne_nil width line
  fits := fun _ member => Int.ofNat_le.mpr (length_le_of_mem_brokenLine member)
  whole := withoutBlanks_brokenLine width line
  blank := brokenLine_blank
  alone := by
    rw [wrapAt?_eq, wrap_eq, split_of_not_mem single, List.flatMap_singleton]

/-- **Wherever there is a column, each line of prose is broken into lines that fit**, a blank one
into one empty line, and nothing but blanks is lost or brought in. -/
theorem wrapAt?_breaks {columns : Int} (positive : 1 ≤ columns) (text : Text) :
    ∃ wrapped groups, wrapAt? columns text = some wrapped ∧
      List.Forall₂ (Breaks columns) (split '\n' text) groups ∧
      split '\n' wrapped = groups.flatten ∧
      (∀ line ∈ split '\n' wrapped, (line.length : Int) ≤ columns) ∧
      withoutBlanks wrapped = withoutBlanks text := by
  obtain ⟨width, rfl⟩ := exists_width positive
  have fits : ∀ part ∈ (split '\n' text).flatMap (brokenLine width),
      (part.length : Int) ≤ width.columns := by
    intro part member
    obtain ⟨line, -, inside⟩ := List.mem_flatMap.mp member
    exact Int.ofNat_le.mpr (length_le_of_mem_brokenLine inside)
  refine ⟨wrap width text, (split '\n' text).map (brokenLine width), wrapAt?_eq width text,
    List.forall₂_map_right_iff.mpr (List.forall₂_same.mpr fun line member => ?_), ?_, ?_,
    withoutBlanks_wrap width text⟩
  · exact breaks_brokenLine width (lineFeed_not_mem_of_mem_split member)
  · rw [split_wrap, List.flatMap_def]
  · rwa [split_wrap]

/-- Prose with a tab, a dash, a line of blanks and a word wider than its column. -/
def narrowProse : Text := "\tto be-or, not\n \u2003\nall-tomorrow  x".toList

theorem wrapAt?_breaks_narrow :
    (1 : Int) ≤ 4 ∧ ∃ groups, List.Forall₂ (Breaks 4) (split '\n' narrowProse) groups ∧
      groups.flatten = ["to".toList, "be-".toList, "or,".toList, "not".toList, [],
        "all-".toList, "tomo".toList, "rrow".toList, "x".toList] := by
  obtain ⟨wrapped, groups, known, broken, lines, -, -⟩ :=
    wrapAt?_breaks (by decide : (1 : Int) ≤ 4) narrowProse
  have same : wrapAt? 4 narrowProse =
      some "to\nbe-\nor,\nnot\n\nall-\ntomo\nrrow\nx".toList := by decide +kernel
  rw [same] at known
  obtain rfl := Option.some.inj known
  exact ⟨by decide, groups, broken, lines.symm⟩

end Handbook.Text
