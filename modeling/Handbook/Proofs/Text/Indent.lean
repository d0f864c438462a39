/-
**Indenting line by line.**

Indenting a text takes its lines one after the other. A text begins with one line: up to a line
boundary, or the whole text where there is none.

* `exists_firstLine`, `indent_firstLine`: a text begins with a line, which is indented by itself;
* `linewise_indent`: texts are indented line by line;
* `lines_indent`: the lines of an indented text are its lines, each indented by itself;
* `margined_indent`: no line of an indented text begins with a character other than a blank.
-/

import Handbook.Proofs.Text.Cut
import Handbook.Text.Lines

namespace Handbook.Text

open Unicode

/-! ### The first line -/

/-- The first line of a text and the text behind it. -/
inductive FirstLine : (line rest : Text) → Prop where
  | last {line} : line ≠ [] → (∀ c ∈ line, isLineBreak c = false) → FirstLine line []
  | ends {words c rest} : (∀ d ∈ words, isLineBreak d = false) → isLineBreak c = true →
      (c = '\r' → rest.head? ≠ some '\n') → FirstLine (words ++ [c]) rest
  | endsTwice {words rest} : (∀ d ∈ words, isLineBreak d = false) →
      FirstLine (words ++ ['\r', '\n']) rest

/-- Every text but the empty one begins with a line. -/
theorem exists_firstLine {text : Text} (nonempty : text ≠ []) :
    ∃ line rest, text = line ++ rest ∧ FirstLine line rest := by
  have inside : ∀ c ∈ text.takeWhile (!isLineBreak ·), isLineBreak c = false := fun c member => by
    simpa using of_mem_takeWhile member
  have cut : text.takeWhile (!isLineBreak ·) ++ text.dropWhile (!isLineBreak ·) = text :=
    List.takeWhile_append_dropWhile
  cases tail : text.dropWhile (!isLineBreak ·) with
  | nil =>
    rw [tail, List.append_nil] at cut
    rw [cut] at inside
    exact ⟨text, [], (List.append_nil _).symm, .last nonempty inside⟩
  | cons c others =>
    have ends : isLineBreak c = true := by
      have fails := stops_dropWhile (!isLineBreak ·) text c (by rw [tail]; rfl)
      rwa [Bool.not_eq_false'] at fails
    rw [tail] at cut
    by_cases twice : c = '\r' ∧ others.head? = some '\n'
    · obtain ⟨rfl, next⟩ := twice
      obtain ⟨rest, rfl⟩ := List.head?_eq_some_iff.mp next
      refine ⟨_, rest, ?_, .endsTwice inside⟩
      rw [List.append_assoc]
      exact cut.symm
    · refine ⟨_, others, ?_, .ends inside ends fun same next => twice ⟨same, next⟩⟩
      rw [List.append_assoc]
      exact cut.symm

theorem FirstLine.ne_nil {line rest : Text} (first : FirstLine line rest) : line ≠ [] := by
  cases first with
  | last nonempty _ => exact nonempty
  | ends _ _ _ => simp
  | endsTwice _ => simp

/-- **What goes on over first lines holds of all texts.** -/
@[elab_as_elim]
theorem induction_firstLine {motive : Text → Prop} (nil : motive [])
    (next : ∀ line rest, FirstLine line rest → motive rest → motive (line ++ rest)) (text : Text) :
    motive text := by
  induction size : text.length using Nat.strongRecOn generalizing text with
  | ind total step =>
  by_cases empty : text = []
  · rw [empty]
    exact nil
  · obtain ⟨line, rest, rfl, first⟩ := exists_firstLine empty
    refine next line rest first (step rest.length ?_ rest rfl)
    have := List.length_pos_iff.mpr first.ne_nil
    rw [List.length_append] at size
    omega

/-- A stretch without line boundaries at the start of a text lies in its first line. -/
theorem FirstLine.exists_of_append {line rest head behind tail : Text} (first : FirstLine line rest)
    (last : rest = [] → behind = []) (inside : ∀ c ∈ head, isLineBreak c = false)
    (cut : line ++ behind = head ++ tail) : ∃ more, line = head ++ more := by
  rcases List.append_eq_append_iff.mp cut with ⟨between, rfl, later⟩ | ⟨more, rfl, _⟩
  · have ends : rest ≠ [] → ∃ c ∈ line, isLineBreak c = true := by
      intro nonempty
      cases first with
      | last _ _ => exact absurd rfl nonempty
      | @ends words c _ _ ends _ => exact ⟨c, by simp, ends⟩
      | @endsTwice words _ _ => exact ⟨'\n', by simp, by decide⟩
    by_cases whole : rest = []
    · rw [last whole] at later
      have empty := (List.append_eq_nil_iff.mp later.symm).1
      exact ⟨[], by rw [empty, List.append_nil, List.append_nil]⟩
    · obtain ⟨c, member, breaks⟩ := ends whole
      rw [inside c (List.mem_append_left _ member)] at breaks
      exact absurd breaks (by decide)
  · exact ⟨more, rfl⟩

/-- The characters that end a line. -/
def lineBreaks : List Char :=
  ['\n', '\r', '\x0b', '\x0c', '\x1c', '\x1d', '\x1e', '\u0085', '\u2028', '\u2029']

theorem mem_lineBreaks {c : Char} (ends : isLineBreak c = true) : c ∈ lineBreaks :=
  of_decide_eq_true ends

theorem isBlank_of_isLineBreak {c : Char} (ends : isLineBreak c = true) : isBlank c = true := by
  have each : ∀ c ∈ lineBreaks, isBlank c = true := List.all_eq_true.mp (by decide)
  exact each c (mem_lineBreaks ends)

/-! ### Its place among the lines -/

theorem lines_consLine {c : Char} (inside : isLineBreak c = false) (rest : Text) :
    lines (c :: rest) = consLine c (lines rest) := by
  rw [lines, inside]
  · rfl
  · rintro others rfl
    exact absurd inside (by decide)

theorem lines_break {c : Char} (ends : isLineBreak c = true) {rest : Text}
    (single : c = '\r' → rest.head? ≠ some '\n') : lines (c :: rest) = [c] :: lines rest := by
  rw [lines, ends]
  · rfl
  · rintro others same rfl
    exact single same rfl

theorem lines_words {words : Text} (nonempty : words ≠ [])
    (inside : ∀ c ∈ words, isLineBreak c = false) : lines words = [words] := by
  induction words with
  | nil => exact absurd rfl nonempty
  | cons c others step =>
    rw [lines_consLine (inside c (List.mem_cons_self ..))]
    cases others with
    | nil => rfl
    | cons d more =>
      rw [step (List.cons_ne_nil _ _) fun e member => inside e (List.mem_cons_of_mem _ member)]
      rfl

theorem lines_append_words {words rest line : Text} {others : List Text}
    (inside : ∀ c ∈ words, isLineBreak c = false) (behind : lines rest = line :: others) :
    lines (words ++ rest) = (words ++ line) :: others := by
  induction words with
  | nil => exact behind
  | cons c more step =>
    rw [List.cons_append, lines_consLine (inside c (List.mem_cons_self ..)),
      step fun d member => inside d (List.mem_cons_of_mem _ member)]
    rfl

/-- **The lines of a text are its first line and the lines behind it.** -/
theorem lines_firstLine {line rest : Text} (first : FirstLine line rest) :
    lines (line ++ rest) = line :: lines rest := by
  cases first with
  | last nonempty inside =>
    rw [List.append_nil, lines_words nonempty inside]
    rfl
  | ends inside ends single =>
    rw [List.append_assoc]
    exact lines_append_words inside (lines_break ends single)
  | endsTwice inside =>
    rw [List.append_assoc]
    exact lines_append_words inside (by rw [List.cons_append, List.cons_append, lines]; rfl)

/-! ### Indenting -/

/-- A line with a margin, unless it is blank. -/
def indentLine (line : Text) : Text := if isBlankText line then line else margin ++ line

theorem indent_nil : indent [] = [] := rfl

/-- **The first line of a text is indented by itself.** -/
theorem indent_firstLine {line rest : Text} (first : FirstLine line rest) :
    indent (line ++ rest) = indentLine line ++ indent rest := by
  rw [indent, indentWith, lines_firstLine first, List.flatMap_cons]
  rfl

/-- A line without a boundary is indented as a whole. -/
theorem indent_line {line : Text} (inside : ∀ c ∈ line, isLineBreak c = false) :
    indent line = indentLine line := by
  by_cases empty : line = []
  · rw [empty]
    rfl
  · have whole := indent_firstLine (.last empty inside)
    rw [indent_nil, List.append_nil, List.append_nil] at whole
    exact whole

theorem indentLine_append_blank (line : Text) {c : Char} (blank : isBlank c = true) :
    indentLine (line ++ [c]) = indentLine line ++ [c] := by
  have same : isBlankText (line ++ [c]) = isBlankText line := by
    simp [isBlankText, List.all_append, blank]
  unfold indentLine
  rw [same]
  split
  · rfl
  · rw [List.append_assoc]

theorem indentLine_lineEnd (line : Text) :
    indentLine (line ++ ['\r', '\n']) = indentLine line ++ ['\r', '\n'] := by
  rw [show line ++ ['\r', '\n'] = line ++ ['\r'] ++ ['\n'] by simp,
    indentLine_append_blank _ (by decide), indentLine_append_blank _ (by decide), List.append_assoc]
  rfl

theorem not_mem_indentLine {line : Text} (alone : '\n' ∉ line) : '\n' ∉ indentLine line := by
  unfold indentLine
  split
  · exact alone
  · rw [List.mem_append, not_or]
    exact ⟨by decide, alone⟩

/-- Indenting brings in nothing but spaces. -/
theorem mem_of_mem_indent {text : Text} {c : Char} (member : c ∈ indent text) :
    c ∈ text ∨ c = ' ' := by
  obtain ⟨line, found, inside⟩ := List.mem_flatMap.mp member
  have standing {d : Char} (inside : d ∈ line) : d ∈ text := by
    rw [← flatten_lines text]
    exact List.mem_flatten.mpr ⟨line, found, inside⟩
  split at inside
  · exact Or.inl (standing inside)
  · rcases List.mem_append.mp inside with space | inside
    · have spaces : margin = List.replicate 4 ' ' := rfl
      rw [spaces] at space
      exact Or.inr (List.eq_of_mem_replicate space)
    · exact Or.inl (standing inside)

/-- A line without a line feed, and the line feed behind it. -/
theorem indent_words {words : Text} (inside : ∀ c ∈ words, isLineBreak c = false) (rest : Text) :
    indent (words ++ '\n' :: rest) = indentLine words ++ '\n' :: indent rest := by
  have first : FirstLine (words ++ ['\n']) rest :=
    .ends inside (by decide) fun same => absurd same (by decide)
  have whole := indent_firstLine first
  rw [indentLine_append_blank words (by decide), List.append_assoc, List.append_assoc] at whole
  exact whole

theorem indent_lineFeed (rest : Text) : indent ('\n' :: rest) = '\n' :: indent rest :=
  indent_words (fun _ member => absurd member List.not_mem_nil) rest

/-- **Texts are indented line by line.** -/
theorem linewise_indent : Linewise indent where
  single := by
    intro line alone
    induction line using induction_firstLine with
    | nil => exact List.not_mem_nil
    | next line rest first step =>
      rw [List.mem_append, not_or] at alone
      rw [indent_firstLine first, List.mem_append, not_or]
      exact ⟨not_mem_indentLine alone.1, step alone.2⟩
  next := by
    intro line rest alone
    induction line using induction_firstLine with
    | nil => exact indent_lineFeed rest
    | next line later first step =>
      rw [List.mem_append, not_or] at alone
      rw [indent_firstLine first, List.append_assoc, List.append_assoc, ← step alone.2]
      cases first with
      | last _ inside =>
        rw [List.nil_append, indent_words inside, indent_lineFeed]
      | @ends words c _ inside ends single =>
        by_cases twice : c = '\r' ∧ later = []
        · -- the line feed joins the carriage return before it
          obtain ⟨rfl, rfl⟩ := twice
          have whole := indent_firstLine (@FirstLine.endsTwice words rest inside)
          rw [show words ++ ['\r', '\n'] = words ++ ['\r'] ++ ['\n'] by simp,
            indentLine_append_blank _ (by decide), List.append_assoc, List.append_assoc] at whole
          rw [List.nil_append, indent_lineFeed, List.append_assoc]
          exact whole.trans (List.append_assoc ..)
        · refine indent_firstLine (.ends inside ends fun same => ?_)
          cases later with
          | nil => exact absurd ⟨same, rfl⟩ twice
          | cons d more => exact single same
      | endsTwice inside => exact absurd (by simp) alone.1

/-! ### The lines of an indented text -/

theorem isBlankText_margin_append (line : Text) :
    isBlankText (margin ++ line) = isBlankText line := by
  have blank : isBlankText margin = true := by decide
  rw [isBlankText, List.all_append]
  exact congrArg (· && _) blank

theorem isLineBreak_of_mem_margin {c : Char} (member : c ∈ margin) : isLineBreak c = false := by
  have spaces : margin = List.replicate 4 ' ' := rfl
  rw [spaces] at member
  rw [List.eq_of_mem_replicate member]
  decide

theorem isLineBreak_margin_append {line : Text} (inside : ∀ c ∈ line, isLineBreak c = false) :
    ∀ c ∈ margin ++ line, isLineBreak c = false := fun c member =>
  (List.mem_append.mp member).elim isLineBreak_of_mem_margin (inside c)

theorem isLineBreak_indentLine {line : Text} (inside : ∀ c ∈ line, isLineBreak c = false) :
    ∀ c ∈ indentLine line, isLineBreak c = false := by
  unfold indentLine
  split
  · exact inside
  · exact isLineBreak_margin_append inside

/-- Indenting puts no line feed at the start of a text. -/
theorem head?_indent_ne {text : Text} (other : text.head? ≠ some '\n') :
    (indent text).head? ≠ some '\n' := by
  induction text using induction_firstLine with
  | nil => exact other
  | next line rest first _ =>
    rw [indent_firstLine first]
    unfold indentLine
    split
    · cases line with
      | nil => exact absurd rfl first.ne_nil
      | cons c others => exact other
    · exact fun same => absurd (Option.some.inj same) (by decide)

/-- With a margin a first line is the first line of the indented text. -/
theorem FirstLine.indentLine {line rest : Text} (first : FirstLine line rest) :
    FirstLine (Text.indentLine line) (indent rest) := by
  cases first with
  | last nonempty inside =>
    refine .last (fun nothing => nonempty ?_) (isLineBreak_indentLine inside)
    unfold Text.indentLine at nothing
    split at nothing
    · exact nothing
    · exact absurd nothing (List.append_ne_nil_of_left_ne_nil (by decide) _)
  | ends inside ends single =>
    rw [indentLine_append_blank _ (isBlank_of_isLineBreak ends)]
    exact .ends (isLineBreak_indentLine inside) ends fun same => head?_indent_ne (single same)
  | endsTwice inside =>
    rw [indentLine_lineEnd]
    exact .endsTwice (isLineBreak_indentLine inside)

/-- **The lines of an indented text are its lines, each indented by itself.** -/
theorem lines_indent (text : Text) : lines (indent text) = (lines text).map indentLine := by
  induction text using induction_firstLine with
  | nil => rfl
  | next line rest first step =>
    rw [indent_firstLine first, lines_firstLine first.indentLine, lines_firstLine first, step,
      List.map_cons]

/-- Lines that are ended are indented one by one. -/
theorem indent_ended {words : List Text} (inside : ∀ line ∈ words, ∀ c ∈ line, isLineBreak c = false)
    (rest : Text) :
    indent ((words.flatMap fun line => line ++ ['\n']) ++ rest) =
      (words.flatMap fun line => indentLine line ++ ['\n']) ++ indent rest := by
  induction words with
  | nil => rfl
  | cons line others step =>
    simp only [List.flatMap_cons, List.append_assoc, List.cons_append, List.nil_append]
    rw [indent_words (inside line (List.mem_cons_self ..)),
      step fun other member => inside other (List.mem_cons_of_mem _ member)]

/-! ### Lines without what ends them -/

/-- A line without the boundary that ends it. -/
def bareLine (line : Text) : Text := line.takeWhile (!isLineBreak ·)

/-- The lines of a text without the boundaries that end them. -/
def bareLines (text : Text) : List Text := (lines text).map bareLine

theorem isLineBreak_of_mem_bareLine {line : Text} : ∀ c ∈ bareLine line, isLineBreak c = false :=
  fun c member => by simpa using of_mem_takeWhile member

/-- **Each line of a text stands in a piece of it between line feeds.** -/
theorem exists_split_of_mem_bareLines {text line : Text} (member : line ∈ bareLines text) :
    ∃ whole ∈ split '\n' text, line <:+: whole := by
  induction text using induction_firstLine with
  | nil => exact absurd member List.not_mem_nil
  | next words rest first step =>
    rw [bareLines, lines_firstLine first, List.map_cons, List.mem_cons] at member
    rcases member with rfl | later
    · obtain ⟨ending, cut⟩ := List.takeWhile_prefix (l := words) (!isLineBreak ·)
      have alone : '\n' ∉ bareLine words := fun feed =>
        absurd (isLineBreak_of_mem_bareLine _ feed) (by decide)
      obtain ⟨whole, found, early⟩ := exists_split_of_stretch alone (ending ++ rest)
      rw [← List.append_assoc, show bareLine words ++ ending = words from cut] at found
      exact ⟨whole, found, early.isInfix⟩
    · obtain ⟨piece, found, inside⟩ := step later
      obtain ⟨whole, found', ending⟩ := exists_of_mem_split_behind words found
      exact ⟨whole, found', inside.trans ending.isInfix⟩

/-- **A line of an indented text** is a blank line of the text, or a line of it behind a margin. -/
theorem mem_bareLines_indent {text line : Text} (member : line ∈ bareLines (indent text)) :
    isBlankText line = true ∧ line ∈ bareLines text ∨
      ∃ words ∈ bareLines text, line = margin ++ words := by
  rw [bareLines, lines_indent, List.map_map] at member
  obtain ⟨whole, found, rfl⟩ := List.mem_map.mp member
  have listed : bareLine whole ∈ bareLines text := List.mem_map_of_mem found
  rw [Function.comp_apply]
  unfold indentLine
  split
  · rename_i blank
    refine Or.inl ⟨List.all_eq_true.mpr fun c inside => ?_, listed⟩
    exact List.all_eq_true.mp blank c ((List.takeWhile_prefix _).subset inside)
  · refine Or.inr ⟨bareLine whole, listed, ?_⟩
    refine List.takeWhile_append_of_pos fun c member => ?_
    rw [isLineBreak_of_mem_margin member, Bool.not_false]

/-! ### The beginnings of indented lines -/

/-- A text without a line, cut at line feeds, that begins with a character other than a blank. -/
def Margined (text : Text) : Prop := ∀ line ∈ split '\n' text, ∀ c ∈ line.head?, isBlank c = true

theorem margined_append_lineFeed_iff {first second : Text} :
    Margined (first ++ '\n' :: second) ↔ Margined first ∧ Margined second := by
  simp only [Margined, split_append_cons, List.mem_append]
  exact ⟨fun all => ⟨fun line member => all line (Or.inl member),
    fun line member => all line (Or.inr member)⟩,
    fun both line member => member.elim (both.1 line) (both.2 line)⟩

theorem Margined.isBlank_of_cons {c : Char} {rest : Text} (margined : Margined (c :: rest))
    (inside : c ≠ '\n') : isBlank c = true := by
  rw [Margined, split_other inside] at margined
  cases pieces : split '\n' rest with
  | nil => exact absurd pieces (split_ne_nil _ _)
  | cons line others =>
    rw [pieces] at margined
    exact margined (c :: line) (List.mem_cons_self ..) c rfl

theorem isBlank_head_indent (line : Text) : ∀ c ∈ (indent line).head?, isBlank c = true := by
  by_cases empty : line = []
  · rw [empty]
    simp [indent_nil]
  · obtain ⟨words, rest, rfl, first⟩ := exists_firstLine empty
    rw [indent_firstLine first, List.head?_append]
    intro c member
    unfold indentLine at member
    split at member
    · rename_i blank
      cases words with
      | nil => exact absurd rfl first.ne_nil
      | cons d others =>
        simp only [List.head?_cons, Option.some_or, Option.mem_some_iff] at member
        rw [← member]
        exact List.all_eq_true.mp blank d (List.mem_cons_self ..)
    · have space : ' ' = c := by simpa [margin] using member
      rw [← space]
      decide

/-- **No line of an indented text begins with a character other than a blank.** -/
theorem margined_indent (text : Text) : Margined (indent text) := by
  induction text using induction_lines with
  | single line alone =>
    rw [Margined, split_of_not_mem (linewise_indent.single alone)]
    intro whole member
    rw [List.mem_singleton.mp member]
    exact isBlank_head_indent line
  | next line rest alone step =>
    rw [linewise_indent.next rest alone, margined_append_lineFeed_iff]
    refine ⟨?_, step⟩
    rw [Margined, split_of_not_mem (linewise_indent.single alone)]
    intro whole member
    rw [List.mem_singleton.mp member]
    exact isBlank_head_indent line

end Handbook.Text
