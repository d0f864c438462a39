/-
**Where prose has its color sequences.**

A span of color begins with a visible character of its own, and but for headers it ends with one. So
in colored prose no sequence stands among the blanks that a line begins with, and none stands before
a number sign or a closing bracket that follows such blanks. Only an address can end with a closing
parenthesis, and then its word holds the sequence that the address begins with.

* `supports_color`: behind a sequence every place is allowed, and what comes later keeps its place;
* `placed_colored`: a colored text has its two sequences in place when it begins and ends well;
* `anchors_of_mem`: every pass over prose but the one for headers puts its sequences in place;
* `placed_coloredProse`: so colored prose has all its sequences in their places.
-/

import Handbook.Proofs.Colorize.Linewise
import Handbook.Proofs.Colorize.Spans
import Handbook.Proofs.Terminal.Placed

namespace Handbook.Colorize

open Terminal Pattern Text Unicode

/-! ### The places -/

/-- A text whose last word has a sequence in it. -/
def EndsColored (text : Text) : Prop :=
  ∃ early late, text = early ++ escape :: late ∧ ∀ c ∈ late, isBlank c = false

/-- A text that a span of color can end behind: its last character is visible, and it is a closing
parenthesis only at the end of a word with a sequence. -/
def Clings (before : Text) : Prop :=
  ∃ c, lastChar none before = some c ∧ c ≠ ' ' ∧ c ≠ '\n' ∧ (c = ')' → EndsColored before)

/-- A text that a span of color can begin with: no space and no closing bracket, and a number sign
only at the start of a line. -/
def Opens (before ahead : Text) : Prop :=
  ∀ c ∈ ahead.head?, c ≠ ' ' ∧ c ≠ ']' ∧ (c = '#' → startsLine (lastChar none before) = true)

/-- The place of a sequence that colors: beside a character that a span can end or begin with. -/
structure Beside (before code ahead : Text) : Prop where
  color : code ≠ Style.dim.code
  place : Clings before ∨ Opens before ahead

variable {text behind behind' ahead : Text}

theorem EndsColored.of_append {word : Text} (clear : escape ∉ word)
    (ends : EndsColored (text ++ word)) : EndsColored text := by
  obtain ⟨early, late, cut, visible⟩ := ends
  rcases List.append_eq_append_iff.mp cut with ⟨between, _, later⟩ | ⟨between, rfl, later⟩
  · exact absurd (later ▸ List.mem_append_right _ (List.mem_cons_self ..)) clear
  · cases between with
    | nil =>
      rw [List.nil_append] at later
      exact absurd (later ▸ List.mem_cons_self ..) clear
    | cons c others =>
      obtain ⟨rfl, rfl⟩ := List.cons.inj later
      exact ⟨early, others, rfl, fun c member => visible c (List.mem_append_left _ member)⟩

/-- The last character of such a text is visible. -/
theorem EndsColored.exists_last (ends : EndsColored text) :
    ∃ c, lastChar none text = some c ∧ isBlank c = false := by
  obtain ⟨early, late, rfl, visible⟩ := ends
  rw [lastChar_append, lastChar_cons]
  rcases List.eq_nil_or_concat late with rfl | ⟨others, last, rfl⟩
  · exact ⟨escape, rfl, by decide⟩
  · exact ⟨last, by simp [lastChar], visible last (by simp)⟩

theorem ne_of_isBlank {c : Char} (visible : isBlank c = false) : c ≠ ' ' ∧ c ≠ '\n' := by
  constructor <;> rintro rfl <;> exact absurd visible (by decide)

theorem EndsColored.clings (ends : EndsColored text) : Clings text := by
  obtain ⟨c, last, visible⟩ := ends.exists_last
  obtain ⟨space, feed⟩ := ne_of_isBlank visible
  exact ⟨c, last, space, feed, fun _ => ends⟩

theorem clings_last {c : Char} (visible : isBlank c = false) (inside : c ≠ ')') (front : Text) :
    Clings (front ++ [c]) := by
  obtain ⟨space, feed⟩ := ne_of_isBlank visible
  exact ⟨c, by simp [lastChar], space, feed, fun same => absurd same inside⟩

theorem isBlank_of_isInner {c : Char} (inner : isInner c = true) : isBlank c = false := by
  cases blank : isBlank c with
  | false => rfl
  | true =>
    rw [isInner_of_isBlank blank] at inner
    exact absurd inner (by decide)

/-- What follows the escape of a sequence is no blank. -/
theorem visible_sequence {code : Text} (isCode : IsCode code) :
    ∀ c ∈ '[' :: code ++ ['m'], isBlank c = false := by
  intro c member
  simp only [List.cons_append, List.mem_cons, List.mem_append, List.not_mem_nil,
    or_false] at member
  rcases member with rfl | digit | rfl
  · decide
  · exact isBlank_of_isInner (isInner_of_mem_code isCode digit)
  · decide

/-- A word that is colored, or the end of one, ends a text with a sequence in its last word. -/
theorem endsColored_word {code word : Text} (isCode : IsCode code)
    (visible : ∀ c ∈ word, isBlank c = false) (front : Text) :
    EndsColored (front ++ (select code ++ word)) := by
  refine ⟨front, '[' :: code ++ ['m'] ++ word, by simp [select], fun c member => ?_⟩
  exact (List.mem_append.mp member).elim (visible_sequence isCode c) (visible c)

/-- A character that passes a test is none of those that do not. -/
theorem ne_of_test {test : Char → Bool} {others : List Char}
    (outside : ∀ d ∈ others, test d = false) {c : Char} (inside : test c = true) :
    ∀ d ∈ others, c ≠ d := by
  rintro d member rfl
  rw [outside c member] at inside
  exact absurd inside (by decide)

/-- A span can end behind colored characters that are no blanks of a line and no parentheses. -/
theorem clings_test {test : Char → Bool} (outside : ∀ c ∈ [' ', '\n', ')'], test c = false)
    {code word : Text} (isCode : IsCode code) (all : ∀ c ∈ word, test c = true) (front : Text) :
    Clings (front ++ (select code ++ word)) := by
  rcases List.eq_nil_or_concat word with rfl | ⟨init, last, rfl⟩
  · exact (endsColored_word isCode (fun c member => absurd member List.not_mem_nil) front).clings
  · have apart := ne_of_test outside (all last (by simp))
    exact ⟨last, by simp [lastChar, List.getLast?_append], apart _ (by simp), apart _ (by simp),
      fun closing => absurd closing (apart _ (by simp))⟩

/-- A word keeps its sequence, or has the one that is put in front of it. -/
theorem EndsColored.replaced {tail more : Text} (visible : ∀ c ∈ tail, isBlank c = false)
    (ends : EndsColored (behind ++ more)) :
    EndsColored (behind' ++ escape :: tail ++ more) := by
  obtain ⟨early, late, cut, word⟩ := ends
  rcases List.append_eq_append_iff.mp cut with ⟨between, _, later⟩ | ⟨between, _, later⟩
  · exact ⟨behind' ++ escape :: tail ++ between, late, by simp [later], word⟩
  · cases between with
    | nil =>
      rw [List.nil_append] at later
      exact ⟨behind' ++ escape :: tail, late, by rw [later], word⟩
    | cons c others =>
      obtain ⟨_, rfl⟩ := List.cons.inj later
      refine ⟨behind', tail ++ more, by simp, fun d member => ?_⟩
      rcases List.mem_append.mp member with early | late
      · exact visible d early
      · exact word d (List.mem_append_right _ late)

/-- **Behind a sequence every place is allowed**, and what comes later keeps its place. -/
theorem supports_color {tail : Text} (visible : ∀ c ∈ tail, isBlank c = false)
    (behind behind' : Text) : Supports Beside behind (behind' ++ escape :: tail) := by
  rintro more code ahead ⟨color, place⟩
  refine ⟨color, ?_⟩
  cases more with
  | nil =>
    have ends : EndsColored (behind' ++ escape :: tail) := ⟨behind', tail, rfl, visible⟩
    rw [List.append_nil]
    exact Or.inl ends.clings
  | cons c rest =>
    have same : lastChar none (behind' ++ escape :: tail ++ c :: rest) =
        lastChar none (behind ++ c :: rest) := by
      rw [lastChar_append, lastChar_append none behind, lastChar_cons, lastChar_cons]
    rcases place with ⟨d, last, space, feed, word⟩ | opens
    · exact Or.inl ⟨d, same.trans last, space, feed, fun closing => (word closing).replaced visible⟩
    · refine Or.inr fun d next => ?_
      rw [same]
      exact opens d next

/-! ### Colored texts -/

theorem colored_eq (shade : Color) (text : Text) :
    colored shade text = select shade.code ++ (text ++ select ['0']) := by
  simp [colored, styled, reset, Style.code]

theorem stripColors_reset : stripColors (select ['0']) = [] := (shows_select isCode_zero).visible

/-- **A colored text has its sequences in their places** when it begins and ends with characters
that a span can begin and end with. -/
theorem placed_colored (shade : Color) (intact : Intact text)
    (placed : Placed Beside behind text ahead)
    (opens : Clings behind' ∨ Opens behind' (stripColors text ++ ahead))
    (closes : Clings (behind' ++ (select shade.code ++ text)) ∨
      Opens (behind' ++ (select shade.code ++ text)) ahead) :
    Placed Beside behind' (colored shade text) ahead := by
  have other : shade.code ≠ Style.dim.code ∧ ['0'] ≠ Style.dim.code := by cases shade <;> decide
  have isCode := isCode_color shade
  rw [colored_eq]
  refine .append (intact_select isCode) (placed_select isCode ⟨other.1, ?_⟩)
    (.append intact ?_ (placed_select isCode_zero ⟨other.2, ?_⟩))
  · rwa [stripColors_append intact, stripColors_reset, List.append_nil]
  · rw [stripColors_reset, List.nil_append]
    exact placed.supported (supports_color (visible_sequence isCode) behind behind')
  · rwa [List.append_assoc]

/-- Behind a colored text every place is allowed. -/
theorem supports_colored (shade : Color) (behind behind' text : Text) {tail : Text}
    (visible : ∀ c ∈ tail, isBlank c = false) :
    Supports Beside behind (behind' ++ (colored shade text ++ tail)) := by
  have shape : behind' ++ (colored shade text ++ tail) =
      (behind' ++ (select shade.code ++ text)) ++ escape :: (['[', '0', 'm'] ++ tail) := by
    simp [colored_eq, select]
  rw [shape]
  refine supports_color (fun c member => ?_) behind _
  exact (List.mem_append.mp member).elim (visible_sequence isCode_zero c) (visible c)

/-! ### The passes -/

/-- A pass that only recolors, and that puts its sequences in their places. -/
structure Anchors (pass : Pass) : Prop extends Recolors pass where
  placed : ∀ {before lexeme groups rest behind behind' ahead}, Intact lexeme →
    pass.pattern.reach? before (lexeme ++ rest) = some ⟨lexeme.length, groups⟩ →
    Placed Beside behind lexeme ahead →
    Placed Beside behind' (pass.replace ⟨lexeme, groups⟩) ahead ∧
      Supports Beside (behind ++ lexeme) (behind' ++ pass.replace ⟨lexeme, groups⟩)

theorem Anchors.apply {pass : Pass} (anchors : Anchors pass) (intact : Intact text)
    (placed : Placed Beside [] text []) : Placed Beside [] (pass.apply text) [] :=
  (anchors.aligned.woven intact).placed
    (fun one found => ⟨(anchors.shows one found).intact, (anchors.shows one found).visible⟩)
    anchors.placed (.refl _) placed

/-- What a span of color can begin with, wherever it stands. -/
def isOpening (c : Char) : Bool := c != ' ' && c != ']' && c != '#'

theorem opens_of_isOpening {c : Char} (opening : isOpening c = true) (behind rest : Text) :
    Opens behind (c :: rest) := by
  simp only [isOpening, Bool.and_eq_true, bne_iff_ne] at opening
  intro d next
  obtain rfl := Option.some.inj next
  exact ⟨opening.1.1, opening.1.2, fun same => absurd same opening.2⟩

/-- **A pass that colors whole occurrences** puts its sequences in their places when the occurrences
begin and end with characters that a span can begin and end with. -/
theorem anchors_whole {name : String} {pattern : Pattern} (shade : Color)
    (aligned : Aligned pattern)
    (opens : ∀ {before lexeme groups rest},
      pattern.reach? before (lexeme ++ rest) = some ⟨lexeme.length, groups⟩ →
      ∃ c others, lexeme = c :: others ∧ c ≠ escape ∧ isOpening c = true)
    (closes : ∀ {before lexeme groups rest},
      pattern.reach? before (lexeme ++ rest) = some ⟨lexeme.length, groups⟩ →
      ∀ behind, Clings (behind ++ (select shade.code ++ lexeme))) :
    Anchors ⟨name, pattern, whole shade⟩ where
  toRecolors := recolors_whole shade aligned
  placed := by
    intro before lexeme groups rest behind behind' ahead intact found placed
    obtain ⟨c, others, rfl, plain, opening⟩ := opens found
    refine ⟨placed_colored shade intact placed (Or.inr ?_) (Or.inl (closes found behind')), ?_⟩
    · rw [stripColors_cons plain]
      exact opens_of_isOpening opening behind' _
    · have supports := @supports_colored shade (behind ++ c :: others) behind' (c :: others) []
        (fun d member => absurd member List.not_mem_nil)
      rwa [List.append_nil] at supports

theorem anchors_quote {name : String} : Anchors ⟨name, .quote, whole .green⟩ := by
  refine anchors_whole .green aligned_quote (fun found => ?_) fun found behind => ?_
  · obtain ⟨mark, inside, _, isMark, _, _, cut, size⟩ := reach?_quote found
    obtain ⟨rfl, _⟩ := occurrence_eq cut size
    have opening : ∀ mark ∈ ['"', '\'', '\x60'], mark ≠ escape ∧ isOpening mark = true :=
      List.all_iff_forall_prop.mp (by decide)
    exact ⟨mark, inside ++ [mark], rfl, opening mark (of_decide_eq_true isMark)⟩
  · obtain ⟨mark, inside, _, isMark, _, _, cut, size⟩ := reach?_quote found
    obtain ⟨rfl, _⟩ := occurrence_eq cut size
    have closing : ∀ mark ∈ ['"', '\'', '\x60'], mark ≠ ')' :=
      List.all_iff_forall_prop.mp (by decide)
    have visible := (isBlank_of_isQuoteMark isMark).1
    have clings := clings_last visible (closing mark (of_decide_eq_true isMark))
      (behind ++ (select Color.green.code ++ mark :: inside))
    simpa using clings

theorem anchors_url {name : String} : Anchors ⟨name, .url, whole .blue⟩ := by
  refine anchors_whole .blue aligned_url (fun found => ?_) fun found behind => ?_
  · obtain ⟨scheme, address, _, member, _, _, _, cut, size⟩ := reach?_url found
    obtain ⟨rfl, _⟩ := occurrence_eq cut size
    have begins : ∀ scheme ∈ schemes, scheme = 'h' :: scheme.tail := by decide
    rw [begins scheme member]
    exact ⟨'h', _, rfl, by decide, by decide⟩
  · obtain ⟨scheme, address, _, member, _, visible, _, cut, size⟩ := reach?_url found
    obtain ⟨rfl, _⟩ := occurrence_eq cut size
    have each : ∀ scheme ∈ schemes, scheme.all (fun c => !isBlank c) = true :=
      List.all_eq_true.mp (by decide)
    have inScheme : ∀ c ∈ scheme, isBlank c = false := fun c inside => by
      simpa using List.all_eq_true.mp (each scheme member) c inside
    refine (endsColored_word (isCode_color .blue) (fun c inside => ?_) behind).clings
    exact (List.mem_append.mp inside).elim (inScheme c) (visible c)

theorem anchors_flag {name : String} : Anchors ⟨name, .flag, whole .cyan⟩ := by
  refine anchors_whole .cyan aligned_flag (fun found => ?_) fun found behind => ?_
  · obtain ⟨name, _, _, _, _, cut, size⟩ := reach?_flag found
    obtain ⟨rfl, _⟩ := occurrence_eq cut size
    exact ⟨'-', '-' :: name, rfl, by decide, by decide⟩
  · obtain ⟨name, _, _, all, _, cut, size⟩ := reach?_flag found
    obtain ⟨rfl, _⟩ := occurrence_eq cut size
    have outside : ∀ c ∈ [' ', '\n', ')'], isFlagChar c = false :=
      List.all_iff_forall_prop.mp (by decide)
    have hyphens : ∀ c ∈ ['-', '-'], isFlagChar c = true := List.all_eq_true.mp (by decide)
    refine clings_test outside (isCode_color .cyan) (fun c member => ?_) behind
    exact (List.mem_append.mp member).elim (hyphens c) (all c)

/-- A plain snippet that begins with an opening character and does not end with a parenthesis. -/
theorem placed_snippet (shade : Color) {c last : Char} (clear : escape ∉ text)
    (begins : text.head? = some c) (opening : isOpening c = true) (ends : text.getLast? = some last)
    (visible : isBlank last = false) (inside : last ≠ ')') :
    Placed Beside behind (colored shade text) ahead := by
  obtain ⟨rest, shape⟩ := List.head?_eq_some_iff.mp begins
  obtain ⟨init, shape'⟩ := List.getLast?_eq_some_iff.mp ends
  have intact := intact_of_not_mem clear
  refine placed_colored shade intact (placed_of_not_mem clear : Placed Beside [] text ahead)
    (Or.inr ?_) (Or.inl ?_)
  · rw [stripColors_of_not_mem clear, shape]
    exact opens_of_isOpening opening behind _
  · rw [shape', ← List.append_assoc, ← List.append_assoc]
    exact clings_last visible inside _

/-- A letter in color. -/
theorem placed_letter (shade : Color) {c : Char} (plain : c ≠ escape) (opening : isOpening c = true)
    (visible : isBlank c = false) (inside : c ≠ ')') :
    Placed Beside behind (colored shade [c]) ahead :=
  placed_snippet shade (by simpa using plain.symm) rfl opening rfl visible inside

theorem anchors_unaryOperator {name : String} : Anchors ⟨name, .unaryOperator, unaryOperator⟩ where
  toRecolors := recolors_unaryOperator
  placed := by
    intro before lexeme groups rest behind behind' ahead _ found _
    obtain ⟨operator, later, either, cut, size⟩ := reach?_unaryOperator found
    obtain ⟨rfl, rfl⟩ := occurrence_eq cut size
    have each : operator ≠ escape ∧ isOpening operator = true ∧ isBlank operator = false ∧
        operator ≠ ')' := by
      rcases either with rfl | rfl <;> decide
    obtain ⟨plain, opening, visible, inside⟩ := each
    have shape : unaryOperator ⟨[operator, 'x'], [[operator]]⟩ =
        colored .cyan [operator] ++ colored .red ['x'] := rfl
    simp only [shape]
    refine ⟨.append ((intact_nil.cons plain).colored .cyan) ?_ ?_, ?_⟩
    · exact placed_letter .cyan plain opening visible inside
    · exact placed_letter .red (by decide) (by decide) (by decide) (by decide)
    · have supports := @supports_colored .red (behind ++ [operator, 'x'])
        (behind' ++ colored .cyan [operator]) ['x'] [] (by simp)
      simpa using supports

theorem anchors_binaryOperator {name : String} :
    Anchors ⟨name, .binaryOperator, binaryOperator⟩ where
  toRecolors := recolors_binaryOperator
  placed := by
    intro before lexeme groups rest behind behind' ahead _ found _
    obtain ⟨operator, later, member, cut, size⟩ := reach?_binaryOperator found
    obtain ⟨rfl, rfl⟩ := occurrence_eq cut size
    have clear := escape_not_mem_binaryOperator member
    have begins : ∀ operator ∈ binaryOperators, operator.head?.any isOpening = true :=
      List.all_eq_true.mp (by decide)
    have ends : ∀ operator ∈ binaryOperators,
        operator.getLast?.any (fun last => !isBlank last && last != ')') = true :=
      List.all_eq_true.mp (by decide)
    obtain ⟨c, head, opening⟩ := (Option.any_eq_true ..).mp (begins operator member)
    obtain ⟨last, tail, allowed⟩ := (Option.any_eq_true ..).mp (ends operator member)
    obtain ⟨visible, inside⟩ : isBlank last = false ∧ last ≠ ')' := by simpa using allowed
    have space : escape ∉ [' '] := by decide
    have gap : Intact [' '] := intact_of_not_mem space
    have red (letter : Char) (plain : letter ≠ escape) : Intact (colored .red [letter]) :=
      (intact_nil.cons plain).colored .red
    have shape : binaryOperator ⟨['x', ' '] ++ operator ++ [' ', 'y'], [operator]⟩ =
        colored .red ['x'] ++
          ([' '] ++ (colored .cyan operator ++ ([' '] ++ colored .red ['y']))) := by
      simp [binaryOperator, Match.group]
    simp only [shape]
    refine ⟨.append (red 'x' (by decide)) ?_ (.append gap (placed_of_not_mem space)
      (.append ((intact_of_not_mem clear).colored .cyan) ?_ (.append gap (placed_of_not_mem space)
        ?_))), ?_⟩
    · exact placed_letter .red (by decide) (by decide) (by decide) (by decide)
    · exact placed_snippet .cyan clear head opening tail visible inside
    · exact placed_letter .red (by decide) (by decide) (by decide) (by decide)
    · have supports := @supports_colored .red (behind ++ (['x', ' '] ++ operator ++ [' ', 'y']))
        (behind' ++ (colored .red ['x'] ++ ([' '] ++ (colored .cyan operator ++ [' '])))) ['y'] []
        (by simp)
      simpa using supports

theorem anchors_pipelineOperator {name : String} :
    Anchors ⟨name, .pipelineOperator, pipelineOperator⟩ where
  toRecolors := recolors_pipelineOperator
  placed := by
    intro before lexeme groups rest behind behind' ahead _ found _
    obtain ⟨later, cut, size⟩ := reach?_pipelineOperator found
    obtain ⟨rfl, rfl⟩ := occurrence_eq cut size
    have call : escape ∉ pipedCall := by decide
    have shape : pipelineOperator ⟨pipedCall ++ ['|'], [pipedCall]⟩ =
        pipedCall ++ colored .cyan ['|'] := rfl
    simp only [shape]
    refine ⟨.append (intact_of_not_mem call) (placed_of_not_mem call) ?_, ?_⟩
    · exact placed_letter .cyan (by decide) (by decide) (by decide) (by decide)
    · have supports := @supports_colored .cyan (behind ++ (pipedCall ++ ['|']))
        (behind' ++ pipedCall) ['|'] [] (by simp)
      simpa using supports

/-- The parts of a slice stand behind a bracket or a colon, also where they are empty. -/
theorem placed_parts {parts : List Text} (clings : Clings behind)
    (each : ∀ part ∈ parts, ∀ c ∈ part, isSliceChar c = true) :
    Placed Beside behind ([':'].intercalate (parts.map (colored .cyan))) ahead := by
  have outside : ∀ c ∈ [' ', '\n', ')'], isSliceChar c = false :=
    List.all_iff_forall_prop.mp (by decide)
  have one {behind ahead part : Text} (clings : Clings behind)
      (all : ∀ c ∈ part, isSliceChar c = true) :
      Placed Beside behind (colored .cyan part) ahead := by
    have clear := escape_not_mem_slice all
    exact placed_colored .cyan (intact_of_not_mem clear)
      (placed_of_not_mem clear : Placed Beside [] part _) (Or.inl clings)
      (Or.inl (clings_test outside (isCode_color .cyan) all behind))
  induction parts generalizing behind with
  | nil => exact placed_of_not_mem List.not_mem_nil
  | cons part others step =>
    have all := each part (List.mem_cons_self ..)
    cases others with
    | nil =>
      rw [List.map_singleton, List.intercalate_singleton]
      exact one clings all
    | cons next rest =>
      have intact : Intact (colored .cyan part) :=
        (intact_of_not_mem (escape_not_mem_slice all)).colored .cyan
      have colon : escape ∉ [':'] := by decide
      rw [List.map_cons, List.map_cons, List.intercalate_cons_cons, List.append_assoc]
      have clings' : Clings (behind ++ colored .cyan part ++ [':']) :=
        clings_last (by decide) (by decide) _
      have later := step clings' fun other member => each other (List.mem_cons_of_mem _ member)
      exact .append intact (one clings all) (.append (intact_of_not_mem colon)
        (placed_of_not_mem colon) later)

/-- Joined parts end with the color of the last one. -/
theorem exists_last_part (separator : Text) {parts : List Text} (nonempty : parts ≠ []) :
    ∃ early last,
      separator.intercalate (parts.map (colored .cyan)) = early ++ colored .cyan last := by
  induction parts with
  | nil => exact absurd rfl nonempty
  | cons part others step =>
    cases others with
    | nil => exact ⟨[], part, by simp⟩
    | cons next rest =>
      obtain ⟨early, last, ends⟩ := step (List.cons_ne_nil _ _)
      refine ⟨colored .cyan part ++ separator ++ early, last, ?_⟩
      rw [List.map_cons, List.map_cons, List.intercalate_cons_cons, ← List.map_cons, ends,
        List.append_assoc (colored .cyan part ++ separator)]

theorem anchors_slice {name : String} : Anchors ⟨name, .slice, slice⟩ where
  toRecolors := recolors_slice
  placed := by
    intro before lexeme groups rest behind behind' ahead _ found _
    obtain ⟨inside, later, _, all, cut, size⟩ := reach?_slice found
    obtain ⟨rfl, rfl⟩ := occurrence_eq cut size
    have each : ∀ part ∈ split ':' inside, ∀ c ∈ part, isSliceChar c = true :=
      fun part member c letter => all c (mem_of_mem_split member letter)
    have bracket : escape ∉ ['['] ∧ escape ∉ [']'] := by decide
    have joined : Shows ([':'].intercalate ((split ':' inside).map (colored .cyan)))
        ([':'].intercalate ((split ':' inside).map fun part => part)) :=
      .intercalate (by decide) fun part member =>
        shows_colored .cyan part (escape_not_mem_slice (each part member))
    have shape : slice ⟨['x', '['] ++ inside ++ [']'], [inside]⟩ = colored .red ['x'] ++ (['['] ++
        ([':'].intercalate ((split ':' inside).map (colored .cyan)) ++ [']'])) := by
      simp [slice, Match.group]
    simp only [shape]
    refine ⟨.append ((intact_of_not_mem (by decide)).colored .red) ?_
      (.append (intact_of_not_mem bracket.1) (placed_of_not_mem bracket.1)
        (.append joined.intact (placed_parts ?_ each) (placed_of_not_mem bracket.2))), ?_⟩
    · exact placed_letter .red (by decide) (by decide) (by decide) (by decide)
    · exact clings_last (by decide) (by decide) _
    · obtain ⟨early, last, ends⟩ := exists_last_part [':'] (split_ne_nil ':' inside)
      have supports := @supports_colored .cyan (behind ++ (['x', '['] ++ inside ++ [']']))
        (behind' ++ (colored .red ['x'] ++ (['['] ++ early))) last [']']
        (List.all_iff_forall_prop.mp (by decide))
      rw [ends]
      simpa using supports

/-- **Every pass over prose but the one for headers puts its sequences in their places.** -/
theorem anchors_of_mem : ∀ pass ∈ prosePasses,
    Anchors pass ∨ pass = ⟨"section_header", .sectionHeader, whole .yellow⟩ := by
  intro pass member
  simp only [prosePasses, List.mem_cons, List.not_mem_nil, or_false] at member
  rcases member with rfl | rfl | rfl | rfl | rfl | rfl | rfl | rfl
  · exact Or.inl anchors_quote
  · exact Or.inr rfl
  · exact Or.inl anchors_url
  · exact Or.inl anchors_unaryOperator
  · exact Or.inl anchors_binaryOperator
  · exact Or.inl anchors_pipelineOperator
  · exact Or.inl anchors_slice
  · exact Or.inl anchors_flag

/-! ### Lines -/

/-- **A header is a whole line**, so its first sequence stands at the start of the line and its last
one at the end. -/
theorem placed_sectionHeader {line : Text} (single : '\n' ∉ line) (intact : Intact line)
    (placed : Placed Beside [] line []) :
    Placed Beside [] (Pattern.sectionHeader.replaceAll (whole .yellow) line) [] := by
  cases found : Pattern.sectionHeader.reach? none line with
  | none =>
    have same : Pattern.sectionHeader.replaceAll (whole .yellow) line = line := by
      refine replaceFrom_absent aligned_sectionHeader.proper fun first c rest cut => ?_
      cases later : Pattern.sectionHeader.reach? (lastChar none first) (c :: rest) with
      | none => rfl
      | some reach =>
        obtain ⟨rfl, _⟩ := eq_nil_of_sectionHeader (cut ▸ single) later
        rw [cut] at found
        exact absurd (found.symm.trans later) (by simp)
    rwa [same]
  | some reach =>
    obtain ⟨_, level, title, low, _, _, shape, size⟩ :=
      @eq_nil_of_sectionHeader [] line reach single found
    obtain ⟨fewer, rfl⟩ : ∃ fewer, level = fewer + 1 := ⟨level - 1, by omega⟩
    have whole : Pattern.sectionHeader.replaceAll (whole .yellow) line = colored .yellow line := by
      have here : Pattern.sectionHeader.reach? none (line ++ []) = some ⟨line.length, []⟩ := by
        rw [List.append_nil, found, size]
      have replaced := @replaceFrom_found _ (Colorize.whole .yellow) _ _ _ _ (by simp [shape]) here
      rwa [replaceFrom_nil aligned_sectionHeader.proper, List.append_nil,
        List.append_nil] at replaced
    rw [whole]
    refine placed_colored .yellow intact placed (Or.inr ?_) (Or.inr fun c none => ?_)
    · have begins : line = '#' :: (List.replicate fewer '#' ++ ' ' :: title) := by
        rw [shape, List.replicate_succ, List.cons_append]
      rw [begins, stripColors_cons (by decide)]
      intro c next
      obtain rfl := Option.some.inj next
      exact ⟨by decide, by decide, fun _ => rfl⟩
    · exact absurd none (by simp)

/-- A number begins with a digit or a minus and ends with a character of a number, so its sequences
are in their places wherever it stands. -/
theorem placed_number (clear : escape ∉ text) :
    Placed Beside behind (Pattern.number.replaceAll (whole .red) text) ahead := by
  have steps := proper_number.scans none text
  rw [replaceAll, pieces]
  generalize piecesFrom Pattern.number none 0 text = pieces at steps ⊢
  generalize none = before at steps
  induction steps generalizing behind with
  | nil => exact placed_of_not_mem List.not_mem_nil
  | plain _ _ step =>
    rw [List.mem_cons, not_or] at clear
    exact .cons (Ne.symm clear.1) (step clear.2)
  | @found _ lexeme groups rest pieces nonempty found _ step =>
    rw [List.mem_append, not_or] at clear
    obtain ⟨digits, _, _, inside, cut, size⟩ := reach?_number found
    obtain ⟨rfl, _⟩ := occurrence_eq cut size
    let test := fun c => c == '-' || isNumberChar c
    have all : ∀ c ∈ lexeme, test c = true := fun c member => by simpa [test] using inside c member
    have outside : ∀ c ∈ [' ', '\n', ')'], test c = false :=
      List.all_iff_forall_prop.mp (by decide)
    obtain ⟨c, others, rfl⟩ := List.exists_cons_of_ne_nil nonempty
    have opening : isOpening c = true := by
      have closed : ∀ c ∈ [' ', ']', '#'], test c = false := List.all_iff_forall_prop.mp (by decide)
      have apart := ne_of_test closed (all c (List.mem_cons_self ..))
      simpa [isOpening, and_assoc] using apart
    have intact := intact_of_not_mem clear.1
    refine .append (intact.colored .red) (placed_colored .red intact (placed_of_not_mem clear.1 :
      Placed Beside [] (c :: others) _) (Or.inr ?_) (Or.inl ?_)) (step clear.2)
    · rw [stripColors_of_not_mem clear.1]
      exact opens_of_isOpening opening behind _
    · exact clings_test outside (isCode_color .red) all behind

/-! ### Whole texts -/

/-- A line with its numbers and its prose in color. -/
def coloredLine (line : Text) : Text := prose (Pattern.number.replaceAll (whole .red) line)

theorem coloredLine_lineFeed (first second : Text) :
    coloredLine (first ++ '\n' :: second) = coloredLine first ++ '\n' :: coloredLine second := by
  rw [coloredLine, linewise_number.replaceAll_append_lineFeed, prose_parts]
  rfl

theorem shows_coloredLine (clear : escape ∉ text) : Shows (coloredLine text) text := by
  have numbers : Shows (Pattern.number.replaceAll (whole .red) text) text :=
    shows_replaceAll clear fun found absent => shows_colored .red found.lexeme absent
  exact numbers.applyAll recolors_of_mem

/-- Pass after pass the sequences of a line stay in their places. -/
theorem placed_applyAll {passes : List Pass} {line painted : Text} (single : '\n' ∉ line)
    (known : ∀ pass ∈ passes, pass ∈ prosePasses) (shows : Shows painted line)
    (placed : Placed Beside [] painted []) :
    Placed Beside [] (Pass.applyAll passes painted) [] := by
  induction passes generalizing painted with
  | nil => exact placed
  | cons pass others step =>
    have member := known pass (List.mem_cons_self ..)
    refine step (fun other later => known other (List.mem_cons_of_mem _ later))
      ((recolors_of_mem pass member).apply shows) ?_
    rcases anchors_of_mem pass member with anchored | rfl
    · exact anchored.apply shows.intact placed
    · exact placed_sectionHeader (shows.not_mem (by decide) (by decide) single) shows.intact placed

theorem placed_coloredLine {line : Text} (clear : escape ∉ line) (single : '\n' ∉ line) :
    Placed Beside [] (coloredLine line) [] :=
  placed_applyAll single (fun _ member => member)
    (shows_replaceAll clear fun found absent => shows_colored .red found.lexeme absent)
    (placed_number clear)

/-- The end of a text is as good a place as the end of a line. -/
theorem Beside.lineFeed {before code shown : Text} (beside : Beside before code shown)
    (rest : Text) : Beside before code (shown ++ '\n' :: rest) := by
  refine ⟨beside.color, beside.place.imp_right fun opens c next => ?_⟩
  cases shown with
  | nil =>
    obtain rfl := Option.some.inj next
    exact ⟨by decide, by decide, fun same => absurd same (by decide)⟩
  | cons d others => exact opens c next

/-- The start of a text is as good a place as the start of a line. -/
theorem supports_lineFeed (line : Text) : Supports Beside [] (line ++ ['\n']) := by
  rintro more code ahead ⟨color, place⟩
  rw [List.nil_append] at place
  refine ⟨color, ?_⟩
  cases more with
  | nil =>
    rcases place with ⟨c, none, _⟩ | opens
    · exact absurd none (by simp)
    · refine Or.inr fun c next => ?_
      obtain ⟨space, bracket, _⟩ := opens c next
      exact ⟨space, bracket, fun _ => by simp [lastChar, startsLine]⟩
  | cons c rest =>
    have same : lastChar none (line ++ ['\n'] ++ c :: rest) = lastChar none (c :: rest) := by
      rw [lastChar_append, lastChar_cons, lastChar_cons]
    rcases place with ⟨d, last, space, feed, word⟩ | opens
    · refine Or.inl ⟨d, same.trans last, space, feed, fun closing => ?_⟩
      obtain ⟨early, late, cut, visible⟩ := word closing
      exact ⟨line ++ ['\n'] ++ early, late, by simp [cut], visible⟩
    · refine Or.inr fun d next => ?_
      rw [same]
      exact opens d next

/-- **Colored prose has all its sequences in their places.** -/
theorem placed_coloredProse (clear : escape ∉ text) : Placed Beside [] (coloredProse text) [] := by
  show Placed Beside [] (coloredLine (unlinked text)) []
  have clear := escape_not_mem_unlinked clear
  show Placed Beside [] (coloredLine (Pass.applyAll crossReferencePasses text)) []
  generalize Pass.applyAll crossReferencePasses text = text at clear ⊢
  induction text using induction_lines with
  | single line single => exact placed_coloredLine clear single
  | next line rest single step =>
    rw [List.mem_append, List.mem_cons, not_or, not_or] at clear
    rw [coloredLine_lineFeed]
    refine .append (shows_coloredLine clear.1).intact
      ((placed_coloredLine clear.1 single).followed fun before code shown beside => ?_)
      (.cons (by decide) ((step clear.2.2).supported (supports_lineFeed _)))
    rw [stripColors_cons (by decide), List.cons_append]
    rw [List.append_nil] at beside
    exact beside.lineFeed _

end Handbook.Colorize
