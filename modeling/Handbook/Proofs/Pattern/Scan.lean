/-
**How a scan goes on.**

`piecesFrom` counts the characters that the last occurrence still covers. Seen from outside, a scan
has three kinds of steps: it passes over a character at which its pattern does not occur, it takes
an occurrence as a whole, and it passes over a stretch in which no occurrence can begin.

* `piecesFrom_plain`, `piecesFrom_found`, `piecesFrom_spared`: the three steps;
* `Proper.scans`, `Proper.piecesFrom_append`: a scan is made of such steps, and can be cut in two;
* `Proper.replaceAll_of_no_infix`: a pattern finds nothing in a text of which no stretch is an
  occurrence;
* `replaceAll_append_lineFeed`: a pattern that looks at single lines is replaced line by line.
-/

import Mathlib.Data.List.Basic
import Handbook.Pattern.Basic

namespace Handbook.Pattern

/-- The last character before a place that stands behind a text, given the character before the
text. -/
def lastChar (before : Option Char) (text : Text) : Option Char := text.getLast?.or before

/-- A pattern never occurs at a character, whatever surrounds it. -/
def Spares (pattern : Pattern) (c : Char) : Prop :=
  ∀ before rest, pattern.reach? before (c :: rest) = none

/-- A pattern whose occurrences cover at least one character, and nothing behind the text. -/
structure Proper (pattern : Pattern) : Prop where
  positive : ∀ {before text reach}, pattern.reach? before text = some reach → 0 < reach.size
  within : ∀ {before text reach}, pattern.reach? before text = some reach →
    reach.size ≤ text.length

/-! ### The steps of a scan -/

variable {pattern : Pattern}

@[simp] theorem lastChar_nil (before : Option Char) : lastChar before [] = before := rfl

@[simp] theorem lastChar_cons (before : Option Char) (c : Char) (rest : Text) :
    lastChar before (c :: rest) = lastChar (some c) rest := by
  cases last : rest.getLast? <;> simp [lastChar, List.getLast?_cons, last]

theorem lastChar_append (before : Option Char) (first second : Text) :
    lastChar before (first ++ second) = lastChar (lastChar before first) second := by
  rw [lastChar, List.getLast?_append, Option.or_assoc]
  rfl

/-- A proper pattern does not occur at the end of a text. -/
theorem Proper.reach?_nil (proper : pattern.Proper) (before : Option Char) :
    pattern.reach? before [] = none := by
  cases found : pattern.reach? before [] with
  | none => rfl
  | some reach =>
    have positive := proper.positive found
    have within := proper.within found
    simp only [List.length_nil] at within
    omega

theorem piecesFrom_nil (proper : pattern.Proper) (before : Option Char) :
    piecesFrom pattern before 0 [] = [] := by
  rw [piecesFrom, proper.reach?_nil]

/-- **Where the pattern does not occur, one character is passed over.** -/
theorem piecesFrom_plain {before : Option Char} {c : Char} {rest : Text}
    (absent : pattern.reach? before (c :: rest) = none) :
    piecesFrom pattern before 0 (c :: rest) = .plain c :: piecesFrom pattern (some c) 0 rest := by
  rw [piecesFrom, absent]

/-- Characters that an occurrence still covers are skipped. -/
theorem piecesFrom_covered (before : Option Char) (covered rest : Text) :
    piecesFrom pattern before covered.length (covered ++ rest) =
      piecesFrom pattern (lastChar before covered) 0 rest := by
  induction covered generalizing before with
  | nil => rfl
  | cons c others step =>
    rw [List.length_cons, List.cons_append, piecesFrom, step, lastChar_cons]

/-- **Where the pattern occurs, its whole occurrence is one piece.** -/
theorem piecesFrom_found {before : Option Char} {lexeme rest : Text} {groups : List Text}
    (nonempty : lexeme ≠ [])
    (found : pattern.reach? before (lexeme ++ rest) = some ⟨lexeme.length, groups⟩) :
    piecesFrom pattern before 0 (lexeme ++ rest) =
      .found ⟨lexeme, groups⟩ :: piecesFrom pattern (lastChar before lexeme) 0 rest := by
  cases lexeme with
  | nil => exact absurd rfl nonempty
  | cons c others =>
    rw [List.cons_append] at found ⊢
    rw [piecesFrom, found]
    simp only [List.length_cons, List.take_left']
    rw [piecesFrom_covered, lastChar_cons]

/-- **A stretch in which no occurrence can begin is passed over.** -/
theorem piecesFrom_spared {text : Text} (spared : ∀ c ∈ text, pattern.Spares c)
    (before : Option Char) (rest : Text) :
    piecesFrom pattern before 0 (text ++ rest) =
      text.map .plain ++ piecesFrom pattern (lastChar before text) 0 rest := by
  induction text generalizing before with
  | nil => rfl
  | cons c others step =>
    rw [List.cons_append, piecesFrom_plain (spared c (List.mem_cons_self ..) _ _),
      step fun d member => spared d (List.mem_cons_of_mem _ member), lastChar_cons]
    rfl

/-- An occurrence of a proper pattern cuts the text in two. -/
theorem Proper.cut (proper : pattern.Proper) {before : Option Char} {text : Text} {reach : Reach}
    (found : pattern.reach? before text = some reach) :
    ∃ lexeme rest, lexeme ≠ [] ∧ text = lexeme ++ rest ∧
      reach = ⟨lexeme.length, reach.groups⟩ := by
  have positive := proper.positive found
  have within := proper.within found
  refine ⟨text.take reach.size, text.drop reach.size, ?_, ?_, ?_⟩
  · intro empty
    rw [← List.length_eq_zero_iff, List.length_take] at empty
    omega
  · rw [List.take_append_drop]
  · rw [List.length_take, Nat.min_eq_left within]

/-- The steps in which a scan cuts a text into pieces, given the character before the text. -/
inductive Scans (pattern : Pattern) : Option Char → Text → List Piece → Prop where
  | nil {before} : Scans pattern before [] []
  | plain {before c rest pieces} : pattern.reach? before (c :: rest) = none →
      Scans pattern (some c) rest pieces → Scans pattern before (c :: rest) (.plain c :: pieces)
  | found {before lexeme groups rest pieces} : lexeme ≠ [] →
      pattern.reach? before (lexeme ++ rest) = some ⟨lexeme.length, groups⟩ →
      Scans pattern (lastChar before lexeme) rest pieces →
      Scans pattern before (lexeme ++ rest) (.found ⟨lexeme, groups⟩ :: pieces)

/-- **A proper pattern cuts every text in these steps.** -/
theorem Proper.scans (proper : pattern.Proper) (before : Option Char) (text : Text) :
    Scans pattern before text (piecesFrom pattern before 0 text) := by
  -- an occurrence may take many characters at once, hence an induction on the length
  induction size : text.length using Nat.strongRecOn generalizing before text with
  | ind total step =>
  cases text with
  | nil =>
    rw [piecesFrom_nil proper]
    exact .nil
  | cons c others =>
    cases found : pattern.reach? before (c :: others) with
    | none =>
      rw [piecesFrom_plain found]
      exact .plain found (step others.length (by simp [← size]) _ _ rfl)
    | some reach =>
      obtain ⟨lexeme, rest, nonempty, cut, length⟩ := proper.cut found
      rw [cut, length] at found
      rw [cut] at size ⊢
      rw [piecesFrom_found nonempty found]
      have := List.length_pos_iff.mpr nonempty
      rw [List.length_append] at size
      exact .found nonempty found (step rest.length (by omega) _ _ rfl)

/-- The pieces of a scan that are occurrences are occurrences of its pattern. -/
theorem Proper.reach?_of_mem (proper : pattern.Proper) {before : Option Char} {text : Text}
    {occurrence : Match} (member : .found occurrence ∈ piecesFrom pattern before 0 text) :
    ∃ before rest, pattern.reach? before (occurrence.lexeme ++ rest) =
      some ⟨occurrence.lexeme.length, occurrence.groups⟩ := by
  have steps := proper.scans before text
  generalize piecesFrom pattern before 0 text = pieces at steps member
  induction steps with
  | nil => exact absurd member List.not_mem_nil
  | plain _ _ step =>
    rcases List.mem_cons.mp member with same | later
    · exact absurd same Piece.noConfusion
    · exact step later
  | found _ found _ step =>
    rcases List.mem_cons.mp member with same | later
    · rw [Piece.found.injEq] at same
      rw [same]
      exact ⟨_, _, found⟩
    · exact step later

/-- **A scan can be cut where no occurrence before the cut depends on what is behind it.** -/
theorem Proper.piecesFrom_append (proper : pattern.Proper) {before : Option Char} {first rest : Text}
    (same : ∀ early late, first = early ++ late → late ≠ [] →
      pattern.reach? (lastChar before early) (late ++ rest) =
        pattern.reach? (lastChar before early) late) :
    piecesFrom pattern before 0 (first ++ rest) =
      piecesFrom pattern before 0 first ++ piecesFrom pattern (lastChar before first) 0 rest := by
  have steps := proper.scans before first
  generalize piecesFrom pattern before 0 first = pieces at steps
  induction steps with
  | nil => rfl
  | @plain before c others pieces absent _ step =>
    have here : pattern.reach? before (c :: (others ++ rest)) = none :=
      (same [] (c :: others) rfl (List.cons_ne_nil _ _)).trans absent
    rw [List.cons_append, piecesFrom_plain here, lastChar_cons, List.cons_append,
      step fun early late cut => ?_]
    have there := same (c :: early) late (by rw [cut, List.cons_append])
    rwa [lastChar_cons] at there
  | @found before lexeme groups others pieces nonempty found _ step =>
    have here : pattern.reach? before (lexeme ++ (others ++ rest)) =
        some ⟨lexeme.length, groups⟩ := by
      rw [← List.append_assoc]
      exact (same [] (lexeme ++ others) rfl (by simp [nonempty])).trans found
    rw [List.append_assoc, piecesFrom_found nonempty here, lastChar_append, List.cons_append,
      step fun early late cut => ?_]
    have there := same (lexeme ++ early) late (by rw [cut, List.append_assoc])
    rwa [lastChar_append] at there

/-- An occurrence covers what its pattern says that it covers. -/
theorem occurrence_eq {lexeme rest lexeme' rest' : Text} {groups groups' : List Text}
    (cut : lexeme ++ rest = lexeme' ++ rest')
    (size : (⟨lexeme.length, groups⟩ : Reach) = ⟨lexeme'.length, groups'⟩) :
    lexeme = lexeme' ∧ groups = groups' := by
  rw [Reach.mk.injEq] at size
  exact ⟨(List.append_inj cut size.1).1, size.2⟩

/-- What an occurrence covers is a stretch of the text. -/
theorem infix_of_mem_pieces {text : Text} {occurrence : Match}
    (member : .found occurrence ∈ pattern.pieces text) : occurrence.lexeme <:+: text := by
  rw [← flatten_pieces pattern text, List.flatMap_def]
  exact List.infix_of_mem_flatten (List.mem_map.mpr ⟨_, member, rfl⟩)

theorem subset_of_mem_pieces {text : Text} {occurrence : Match}
    (member : .found occurrence ∈ pattern.pieces text) : occurrence.lexeme ⊆ text :=
  (infix_of_mem_pieces member).subset

/-! ### Replacing from a place on -/

/-- A text from a place on with every occurrence replaced, given the character before the place. -/
def replaceFrom (pattern : Pattern) (replace : Match → Text) (before : Option Char) (text : Text) :
    Text :=
  (piecesFrom pattern before 0 text).flatMap (Piece.replaced replace)

variable {replace : Match → Text}

theorem replaceAll_eq (pattern : Pattern) (replace : Match → Text) (text : Text) :
    pattern.replaceAll replace text = pattern.replaceFrom replace none text := rfl

theorem replaceFrom_nil (proper : pattern.Proper) (before : Option Char) :
    pattern.replaceFrom replace before [] = [] := by
  rw [replaceFrom, piecesFrom_nil proper]
  rfl

theorem replaceFrom_plain {before : Option Char} {c : Char} {rest : Text}
    (absent : pattern.reach? before (c :: rest) = none) :
    pattern.replaceFrom replace before (c :: rest) =
      c :: pattern.replaceFrom replace (some c) rest := by
  rw [replaceFrom, piecesFrom_plain absent]
  rfl

theorem replaceFrom_found {before : Option Char} {lexeme rest : Text} {groups : List Text}
    (nonempty : lexeme ≠ [])
    (found : pattern.reach? before (lexeme ++ rest) = some ⟨lexeme.length, groups⟩) :
    pattern.replaceFrom replace before (lexeme ++ rest) =
      replace ⟨lexeme, groups⟩ ++ pattern.replaceFrom replace (lastChar before lexeme) rest := by
  rw [replaceFrom, piecesFrom_found nonempty found]
  rfl

theorem Proper.replaceFrom_append (proper : pattern.Proper) {before : Option Char}
    {first rest : Text} (same : ∀ early late, first = early ++ late → late ≠ [] →
      pattern.reach? (lastChar before early) (late ++ rest) =
        pattern.reach? (lastChar before early) late) :
    pattern.replaceFrom replace before (first ++ rest) =
      pattern.replaceFrom replace before first ++
        pattern.replaceFrom replace (lastChar before first) rest := by
  rw [replaceFrom, proper.piecesFrom_append same, List.flatMap_append]
  rfl

theorem flatMap_replaced_plain (text : Text) :
    (text.map Piece.plain).flatMap (Piece.replaced replace) = text := by
  induction text with
  | nil => rfl
  | cons c rest step =>
    rw [List.map_cons, List.flatMap_cons, step]
    rfl

theorem replaceFrom_spared {text : Text} (spared : ∀ c ∈ text, pattern.Spares c)
    (before : Option Char) (rest : Text) :
    pattern.replaceFrom replace before (text ++ rest) =
      text ++ pattern.replaceFrom replace (lastChar before text) rest := by
  rw [replaceFrom, piecesFrom_spared spared, List.flatMap_append, flatMap_replaced_plain]
  rfl

/-- **A text in which the pattern occurs nowhere stays as it is.** -/
theorem replaceFrom_absent (proper : pattern.Proper) {before : Option Char} {text : Text}
    (absent : ∀ first c rest, text = first ++ c :: rest →
      pattern.reach? (lastChar before first) (c :: rest) = none) :
    pattern.replaceFrom replace before text = text := by
  induction text generalizing before with
  | nil => exact replaceFrom_nil proper before
  | cons c rest step =>
    have here : pattern.reach? before (c :: rest) = none := absent [] c rest rfl
    rw [replaceFrom_plain here, step fun first d later cut => ?_]
    have there := absent (c :: first) d later (by rw [cut, List.cons_append])
    rwa [lastChar_cons] at there

/-- **What stands neither in a text nor in what replaces its occurrences is not in the result.** -/
theorem not_mem_replaceAll {c : Char} {text : Text} (absent : c ∉ text)
    (kept : ∀ occurrence, .found occurrence ∈ pattern.pieces text → c ∉ occurrence.lexeme →
      c ∉ replace occurrence) : c ∉ pattern.replaceAll replace text := by
  intro member
  obtain ⟨piece, inside, found⟩ := List.mem_flatMap.mp member
  cases piece with
  | plain d =>
    refine absent ?_
    rw [← flatten_pieces pattern text]
    exact List.mem_flatMap.mpr ⟨.plain d, inside, found⟩
  | found occurrence =>
    exact kept occurrence inside (fun covered => absent (subset_of_mem_pieces inside covered)) found

/-- **A pattern finds nothing in a text of which no stretch is an occurrence.** -/
theorem Proper.replaceAll_of_no_infix (proper : pattern.Proper) {text : Text}
    (absent : ∀ {before lexeme groups rest}, lexeme <:+: text →
      pattern.reach? before (lexeme ++ rest) ≠ some ⟨lexeme.length, groups⟩) :
    pattern.replaceAll replace text = text := by
  have same : ∀ piece ∈ pattern.pieces text, piece.replaced replace = piece.text := by
    intro piece member
    cases piece with
    | plain d => rfl
    | found occurrence =>
      obtain ⟨before, rest, found⟩ := proper.reach?_of_mem member
      exact absurd found (absent (infix_of_mem_pieces member))
  rw [replaceAll, List.flatMap_congr same, flatten_pieces]

/-- A pattern finds nothing in a text without a character that all its occurrences hold. -/
theorem Proper.replaceAll_of_not_mem (proper : pattern.Proper) {c : Char}
    (marked : ∀ {before lexeme groups rest},
      pattern.reach? before (lexeme ++ rest) = some ⟨lexeme.length, groups⟩ → c ∈ lexeme)
    {text : Text} (absent : c ∉ text) : pattern.replaceAll replace text = text :=
  proper.replaceAll_of_no_infix fun inside found => absent (inside.subset (marked found))

/-- Where all replacements begin with one character, a stretch at the start of the result that does
not hold it is the start of the text. -/
theorem prefix_of_replaceFrom (proper : pattern.Proper) {mark : Char}
    (starts : ∀ {before lexeme groups rest},
      pattern.reach? before (lexeme ++ rest) = some ⟨lexeme.length, groups⟩ →
        ∃ more, replace ⟨lexeme, groups⟩ = mark :: more)
    {before : Option Char} {head text : Text} (absent : mark ∉ head)
    (early : head <+: pattern.replaceFrom replace before text) : head <+: text := by
  induction head generalizing before text with
  | nil => exact List.nil_prefix
  | cons c others step =>
    rw [List.mem_cons, not_or] at absent
    cases text with
    | nil =>
      rw [replaceFrom_nil proper] at early
      exact absurd (List.prefix_nil.mp early) (List.cons_ne_nil _ _)
    | cons d rest =>
      cases found : pattern.reach? before (d :: rest) with
      | none =>
        rw [replaceFrom_plain found, List.cons_prefix_cons] at early
        exact List.cons_prefix_cons.mpr ⟨early.1, step absent.2 early.2⟩
      | some reach =>
        obtain ⟨lexeme, later, nonempty, cut, length⟩ := proper.cut found
        rw [cut, length] at found
        obtain ⟨more, same⟩ := starts found
        rw [cut, replaceFrom_found nonempty found, same, List.cons_append,
          List.cons_prefix_cons] at early
        exact absurd early.1.symm absent.1

/-- A pattern that does not look at the character before a place. -/
def Forward (pattern : Pattern) : Prop :=
  ∀ before text, pattern.reach? before text = pattern.reach? none text

theorem Forward.piecesFrom_eq (forward : pattern.Forward) (before other : Option Char)
    (covered : Nat) (text : Text) :
    piecesFrom pattern before covered text = piecesFrom pattern other covered text := by
  cases text with
  | nil =>
    cases covered with
    | zero => rw [piecesFrom, piecesFrom, forward before, forward other]
    | succ covered => rw [piecesFrom, piecesFrom]
  | cons c rest =>
    cases covered with
    | zero => rw [piecesFrom, piecesFrom, forward before, forward other]
    | succ covered => rw [piecesFrom, piecesFrom]

/-- **Such a pattern is replaced in the same way wherever the text stands.** -/
theorem Forward.replaceFrom_eq (forward : pattern.Forward) (before : Option Char) (text : Text) :
    pattern.replaceFrom replace before text = pattern.replaceAll replace text := by
  rw [replaceFrom, forward.piecesFrom_eq before none]
  rfl

/-! ### Stretches before a character -/

/-- A pattern that halts at a character: it does not occur there, and before it the pattern sees
neither the character nor what comes after it. -/
structure HaltsAt (pattern : Pattern) (bar : Char) : Prop extends pattern.Proper where
  spares : pattern.Spares bar
  stretch : ∀ before first rest, first ≠ [] → bar ∉ first →
    pattern.reach? before (first ++ bar :: rest) = pattern.reach? before first

/-- Before such a character the pattern sees nothing of what comes after it. -/
theorem HaltsAt.reach?_append {bar : Char} (halts : pattern.HaltsAt bar) (before : Option Char)
    {first : Text} (nonempty : first ≠ []) (rest : Text) :
    pattern.reach? before (first ++ bar :: rest) = pattern.reach? before first := by
  by_cases member : bar ∈ first
  · obtain ⟨early, late, rfl, absent⟩ := List.eq_append_cons_of_mem member
    rw [List.append_assoc, List.cons_append]
    cases early with
    | nil => exact (halts.spares before _).trans (halts.spares before _).symm
    | cons c others =>
      rw [halts.stretch before _ _ (List.cons_ne_nil _ _) absent,
        halts.stretch before _ _ (List.cons_ne_nil _ _) absent]
  · exact halts.stretch before first rest nonempty member

/-- **What stands before such a character is replaced by itself.** -/
theorem HaltsAt.replaceFrom_append {bar : Char} (halts : pattern.HaltsAt bar)
    (before : Option Char) (first rest : Text) :
    pattern.replaceFrom replace before (first ++ bar :: rest) =
      pattern.replaceFrom replace before first ++
        bar :: pattern.replaceFrom replace (some bar) rest := by
  have parts : pattern.replaceFrom replace before (first ++ bar :: rest) =
      pattern.replaceFrom replace before first ++
        pattern.replaceFrom replace (lastChar before first) (bar :: rest) :=
    halts.toProper.replaceFrom_append fun _ _ _ nonempty => halts.reach?_append _ nonempty rest
  rw [parts, replaceFrom_plain (halts.spares _ _)]

/-! ### Single lines -/

/-- A pattern that looks at single lines: it does not occur at a line feed, it sees neither the
line feed that ends its line nor what comes after it, and it takes the start of the text and a
place after a line feed for the same. -/
structure Linewise (pattern : Pattern) : Prop extends pattern.Proper where
  lineFeed : pattern.Spares '\n'
  start : ∀ text, pattern.reach? (some '\n') text = pattern.reach? none text
  line : ∀ before line rest, line ≠ [] → '\n' ∉ line →
    pattern.reach? before (line ++ '\n' :: rest) = pattern.reach? before line

theorem Linewise.haltsAt (linewise : pattern.Linewise) : pattern.HaltsAt '\n' :=
  ⟨linewise.toProper, linewise.lineFeed, linewise.line⟩

theorem Linewise.replaceFrom_start (linewise : pattern.Linewise) (text : Text) :
    pattern.replaceFrom replace (some '\n') text = pattern.replaceFrom replace none text := by
  cases text with
  | nil => rw [replaceFrom_nil linewise.toProper, replaceFrom_nil linewise.toProper]
  | cons c rest =>
    cases found : pattern.reach? none (c :: rest) with
    | none =>
      rw [replaceFrom_plain found, replaceFrom_plain ((linewise.start _).trans found)]
    | some reach =>
      obtain ⟨lexeme, others, nonempty, cut, size⟩ := linewise.cut found
      rw [cut, size] at found
      rw [cut, replaceFrom_found nonempty found,
        replaceFrom_found nonempty ((linewise.start _).trans found)]
      cases lexeme with
      | nil => exact absurd rfl nonempty
      | cons d later => rw [lastChar_cons, lastChar_cons]

/-- **A pattern that looks at single lines is replaced apart on both sides of a line feed.** -/
theorem Linewise.replaceAll_append_lineFeed (linewise : pattern.Linewise) (first rest : Text) :
    pattern.replaceAll replace (first ++ '\n' :: rest) =
      pattern.replaceAll replace first ++ '\n' :: pattern.replaceAll replace rest := by
  rw [replaceAll_eq, linewise.haltsAt.replaceFrom_append none first rest,
    linewise.replaceFrom_start]
  rfl

/-! ### Exact texts -/

theorem reach?_literal {needle : Text} {before : Option Char} {text : Text} {reach : Reach}
    (found : (literal needle).reach? before text = some reach) :
    ∃ rest, text = needle ++ rest ∧ reach = ⟨needle.length, []⟩ := by
  simp only [literal, Option.ite_none_right_eq_some, Option.some.injEq] at found
  obtain ⟨rest, cut⟩ := List.isPrefixOf_iff_prefix.mp found.1
  exact ⟨rest, cut.symm, found.2.symm⟩

theorem reach?_literal_append (before : Option Char) (needle rest : Text) :
    (literal needle).reach? before (needle ++ rest) = some ⟨needle.length, []⟩ :=
  if_pos (List.isPrefixOf_iff_prefix.mpr (List.prefix_append needle rest))

theorem reach?_literal_eq_none_iff {needle text : Text} {before : Option Char} :
    (literal needle).reach? before text = none ↔ ¬ needle <+: text := by
  simp [literal, List.isPrefixOf_iff_prefix]

theorem forward_literal (needle : Text) : (literal needle).Forward := fun _ _ => rfl

theorem proper_literal {needle : Text} (nonempty : needle ≠ []) : (literal needle).Proper where
  positive := by
    intro before text reach found
    obtain ⟨_, _, rfl⟩ := reach?_literal found
    exact List.length_pos_iff.mpr nonempty
  within := by
    intro before text reach found
    obtain ⟨_, rfl, rfl⟩ := reach?_literal found
    rw [List.length_append]
    exact Nat.le_add_right _ _

end Handbook.Pattern
