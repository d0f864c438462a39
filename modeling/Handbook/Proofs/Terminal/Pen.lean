/-
**Colors that end on their line.**

A terminal draws with a pen: a color sequence switches a color on, the reset sequence switches it
off, and it stays as it is up to the next sequence, also over the end of a line. A line is sealed
when no color is left on at its end. Of a whole text only the strokes of the pen matter: its line
feeds, its colors and its resets, in order.

* `strokes_append`: texts are drawn part by part;
* `Calmer.append`, `calmer_seal`, `calmer_feeds`: strokes after which no more colors are left on, and
  how they are made;
* `sealed_iff`: every line of a text is sealed exactly when the pen is off at every line feed and at
  the end.
-/

import Mathlib.Data.List.Basic
import Handbook.Proofs.Pattern.Code
import Handbook.Proofs.Terminal.Frayed

namespace Handbook.Terminal

open Pattern Text

/-! ### The sequences of a text -/

/-- The color sequence that a piece of a text is, if it is one. -/
def pieceColor : Piece → Option Text
  | .plain _ => none
  | .found occurrence => some occurrence.lexeme

/-- The color sequences of a text, from left to right. -/
def colors (text : Text) : List Text := (colorSequence.pieces text).filterMap pieceColor

/-- A line whose last color sequence, if it has any, resets the terminal. -/
def Sealed (line : Text) : Prop := ∀ last ∈ (colors line).getLast?, last = reset

instance (line : Text) : Decidable (Sealed line) :=
  inferInstanceAs (Decidable (∀ last ∈ (colors line).getLast?, last = reset))

/-- What a pen does on its way through a text. -/
inductive Stroke where
  | feed
  | color
  | reset
  deriving DecidableEq

/-- The stroke of a color sequence. -/
def Stroke.ofSequence (sequence : Text) : Stroke :=
  if sequence = Terminal.reset then .reset else .color

/-- The stroke of a piece of a text, if it has one. -/
def pieceStroke : Piece → Option Stroke
  | .plain c => if c = '\n' then some .feed else none
  | .found occurrence => some (.ofSequence occurrence.lexeme)

/-- The strokes of a text, from left to right. -/
def strokes (text : Text) : List Stroke := (colorSequence.pieces text).filterMap pieceStroke

/-! ### Texts part by part -/

theorem pieces_cons {c : Char} (plain : c ≠ escape) (rest : Text) :
    colorSequence.pieces (c :: rest) = .plain c :: colorSequence.pieces rest := by
  rw [pieces, piecesFrom_plain (sweeps_colorSequence.others plain _ _),
    sweeps_colorSequence.forward.piecesFrom_eq _ none]
  rfl

theorem pieces_select {code : Text} (isCode : IsCode code) (rest : Text) :
    colorSequence.pieces (select code ++ rest) =
      .found ⟨select code, []⟩ :: colorSequence.pieces rest := by
  rw [pieces, piecesFrom_found (by simp [select]) (sweeps_colorSequence.whole isCode),
    sweeps_colorSequence.forward.piecesFrom_eq _ none]
  rfl

theorem strokes_nil : strokes [] = [] := by
  rw [strokes, pieces, piecesFrom_nil sweeps_colorSequence.toProper]
  rfl

theorem strokes_cons {c : Char} (plain : c ≠ escape) (inside : c ≠ '\n') (rest : Text) :
    strokes (c :: rest) = strokes rest := by
  rw [strokes, pieces_cons plain]
  simp [pieceStroke, inside, strokes]

theorem strokes_lineFeed (rest : Text) : strokes ('\n' :: rest) = .feed :: strokes rest := by
  rw [strokes, pieces_cons (by decide)]
  rfl

theorem strokes_select {code : Text} (isCode : IsCode code) (rest : Text) :
    strokes (select code ++ rest) = .ofSequence (select code) :: strokes rest := by
  rw [strokes, pieces_select isCode]
  rfl

/-- A stretch of a line without escape characters has no strokes. -/
theorem strokes_plain {first : Text} (clear : escape ∉ first) (alone : '\n' ∉ first) (rest : Text) :
    strokes (first ++ rest) = strokes rest := by
  induction first with
  | nil => rfl
  | cons c others step =>
    rw [List.mem_cons, not_or] at clear alone
    rw [List.cons_append, strokes_cons (Ne.symm clear.1) (Ne.symm alone.1), step clear.2 alone.2]

theorem strokes_eq_nil {text : Text} (clear : escape ∉ text) (alone : '\n' ∉ text) :
    strokes text = [] := by
  have whole := strokes_plain clear alone []
  rwa [List.append_nil, strokes_nil] at whole

theorem strokes_torn {code : Text} (isCode : IsCode code) (rest : Text) :
    strokes ((escape :: '[' :: code) ++ escape :: rest) = strokes (escape :: rest) := by
  have absent : colorSequence.reach? none ((escape :: '[' :: code) ++ escape :: rest) = none :=
    sweeps_colorSequence.torn isCode
  have clear : escape ∉ '[' :: code := by
    rw [List.mem_cons, not_or]
    exact ⟨by decide, escape_not_mem_code isCode⟩
  have alone : '\n' ∉ '[' :: code := by
    rw [List.mem_cons, not_or]
    exact ⟨by decide, fun member => absurd (isCode.2 '\n' member) (by decide)⟩
  rw [List.cons_append] at absent ⊢
  have passed : strokes (escape :: ('[' :: code ++ escape :: rest)) =
      strokes ('[' :: code ++ escape :: rest) := by
    rw [strokes, pieces, piecesFrom_plain absent, sweeps_colorSequence.forward.piecesFrom_eq _ none]
    rfl
  rw [passed, strokes_plain clear alone]

/-- A torn sequence is passed over, and the name behind it has a color of its own. -/
theorem strokes_tornCall {code name : Text} (isCode : IsCode code)
    (inside : ∀ c ∈ name, isCallChar c = true) (rest : Text) :
    strokes (tornCall code name ++ rest) = .color :: .reset :: strokes rest := by
  have clear : escape ∉ 'm' :: name := by
    rw [List.mem_cons, not_or]
    exact ⟨by decide, fun member => absurd (inside escape member) (by decide)⟩
  have alone : '\n' ∉ 'm' :: name := by
    rw [List.mem_cons, not_or]
    exact ⟨by decide, lineFeed_not_mem_name inside⟩
  have blue : strokes (colored .blue ('m' :: name) ++ rest) = .color :: .reset :: strokes rest := by
    rw [colored, styled, List.append_assoc, List.append_assoc,
      strokes_select (isCode_style (.color .blue)), strokes_plain clear alone, reset,
      strokes_select isCode_zero]
    rfl
  rw [← blue, tornCall, List.append_assoc]
  exact strokes_torn isCode _

/-- **Texts are drawn part by part.** -/
theorem strokes_append {first : Text} (frayed : Frayed first) (second : Text) :
    strokes (first ++ second) = strokes first ++ strokes second := by
  induction frayed with
  | nil => rw [strokes_nil, List.nil_append, List.nil_append]
  | @plain c rest plain _ step =>
    by_cases feed : c = '\n'
    · rw [feed, List.cons_append, strokes_lineFeed, strokes_lineFeed, step, List.cons_append]
    · rw [List.cons_append, strokes_cons plain feed, strokes_cons plain feed, step]
  | sequence isCode _ step =>
    rw [List.append_assoc, strokes_select isCode, strokes_select isCode, step, List.cons_append]
  | torn isCode inside _ step =>
    rw [List.append_assoc, strokes_tornCall isCode inside, strokes_tornCall isCode inside, step]
    rfl

/-- A text without escape characters has no strokes but line feeds. -/
theorem strokes_of_not_mem {text : Text} (clear : escape ∉ text) :
    ∀ stroke ∈ strokes text, stroke = .feed := by
  induction text with
  | nil =>
    rw [strokes_nil]
    exact fun stroke member => absurd member List.not_mem_nil
  | cons c rest step =>
    rw [List.mem_cons, not_or] at clear
    by_cases feed : c = '\n'
    · rw [feed, strokes_lineFeed]
      intro stroke member
      exact (List.mem_cons.mp member).elim id (step clear.2 stroke)
    · rw [strokes_cons (Ne.symm clear.1) feed]
      exact step clear.2

/-- A line has no line feed among its strokes. -/
theorem feed_not_mem_strokes {text : Text} (alone : '\n' ∉ text) : .feed ∉ strokes text := by
  intro member
  obtain ⟨piece, found, same⟩ := List.mem_filterMap.mp member
  cases piece with
  | plain c =>
    simp only [pieceStroke, Option.ite_none_right_eq_some, and_true] at same
    refine alone (same ▸ ?_)
    rw [← flatten_pieces colorSequence text]
    exact List.mem_flatMap.mpr ⟨.plain c, found, List.mem_cons_self ..⟩
  | found occurrence =>
    simp only [pieceStroke, Stroke.ofSequence, Option.some.injEq] at same
    split at same <;> exact Stroke.noConfusion same

/-! ### The pen -/

/-- Whether a color is on after some strokes, given whether one is on before them. There is no answer
where a line ends while a color is on. -/
def pen? : Bool → List Stroke → Option Bool
  | lit, [] => some lit
  | lit, .feed :: rest => if lit then none else pen? false rest
  | _, .color :: rest => pen? true rest
  | _, .reset :: rest => pen? false rest

theorem pen?_append (lit : Bool) (first second : List Stroke) :
    pen? lit (first ++ second) = (pen? lit first).bind (pen? · second) := by
  induction first generalizing lit with
  | nil => rfl
  | cons stroke rest step =>
    cases stroke with
    | feed => cases lit <;> simp [pen?, step]
    | color => exact step true
    | reset => exact step false

/-- Without line feeds there is always an answer. -/
theorem exists_pen {line : List Stroke} (alone : .feed ∉ line) (lit : Bool) :
    ∃ after, pen? lit line = some after := by
  induction line generalizing lit with
  | nil => exact ⟨lit, rfl⟩
  | cons stroke rest step =>
    rw [List.mem_cons, not_or] at alone
    cases stroke with
    | feed => exact absurd rfl alone.1
    | color => exact step alone.2 true
    | reset => exact step alone.2 false

theorem pen?_feeds {all : List Stroke} (feeds : ∀ stroke ∈ all, stroke = .feed) :
    pen? false all = some false := by
  induction all with
  | nil => rfl
  | cons stroke rest step =>
    rw [feeds stroke (List.mem_cons_self ..)]
    exact step fun other member => feeds other (List.mem_cons_of_mem _ member)

theorem pen?_seal {first : List Stroke} (alone : .feed ∉ first) (lit : Bool) :
    pen? lit (first ++ [.reset]) = some false := by
  obtain ⟨on, answer⟩ := exists_pen alone lit
  rw [pen?_append, answer]
  rfl

/-! ### Calmer strokes -/

/-- The new strokes leave a color on, at a line feed or at the end, only where the old ones do, also
where no color is on before them and one is on before the old ones. -/
def Calmer (new old : List Stroke) : Prop :=
  ∀ {fewer lit after : Bool}, fewer ≤ lit → pen? lit old = some after →
    ∃ less, less ≤ after ∧ pen? fewer new = some less

theorem Calmer.refl (all : List Stroke) : Calmer all all := by
  intro fewer lit after below answer
  induction all generalizing fewer lit with
  | nil =>
    rw [← Option.some.inj answer]
    exact ⟨fewer, below, rfl⟩
  | cons stroke rest step =>
    cases stroke with
    | feed =>
      -- an answer means that no color is on at the line feed, and so none is on with fewer
      cases lit with
      | true => exact absurd answer (by simp [pen?])
      | false =>
        cases fewer with
        | true => exact absurd below (by decide)
        | false => exact step (Bool.le_refl _) answer
    | color => exact step (Bool.le_refl _) answer
    | reset => exact step (Bool.le_refl _) answer

theorem Calmer.trans {first second third : List Stroke} (one : Calmer first second)
    (two : Calmer second third) : Calmer first third := by
  intro fewer lit after below answer
  obtain ⟨less, low, answer⟩ := two (Bool.le_refl lit) answer
  obtain ⟨least, lower, answer⟩ := one below answer
  exact ⟨least, Bool.le_trans lower low, answer⟩

/-- **Calmer parts make calmer strokes.** -/
theorem Calmer.append {new new' old old' : List Stroke} (one : Calmer new old)
    (two : Calmer new' old') : Calmer (new ++ new') (old ++ old') := by
  intro fewer lit after below answer
  rw [pen?_append] at answer
  obtain ⟨between, front, back⟩ := Option.bind_eq_some_iff.mp answer
  obtain ⟨less, low, answer⟩ := one below front
  obtain ⟨least, lower, last⟩ := two low back
  refine ⟨least, lower, ?_⟩
  rw [pen?_append, answer]
  exact last

/-- **Line feeds can be dropped.** -/
theorem calmer_feeds {old : List Stroke} (feeds : ∀ stroke ∈ old, stroke = .feed) :
    Calmer [] old := by
  intro fewer lit after below answer
  cases old with
  | nil =>
    rw [← Option.some.inj answer]
    exact ⟨fewer, below, rfl⟩
  | cons stroke rest =>
    rw [feeds stroke (List.mem_cons_self ..)] at answer
    cases lit with
    | true => exact absurd answer (by simp [pen?])
    | false =>
      cases fewer with
      | true => exact absurd below (by decide)
      | false => exact ⟨false, Bool.false_le _, rfl⟩

/-- **Strokes that switch every color off on their line can take the place of any.** -/
theorem calmer_seal {first : List Stroke} (alone : .feed ∉ first) (old : List Stroke) :
    Calmer (first ++ [.reset]) old := by
  intro fewer lit after _ _
  exact ⟨false, Bool.false_le _, pen?_seal alone fewer⟩

/-! ### Calmer texts -/

/-- The new text leaves a color on only where the old one does. -/
structure Calms (new old : Text) : Prop where
  calmer : Calmer (strokes new) (strokes old)

theorem Calms.refl (text : Text) : Calms text text := ⟨Calmer.refl _⟩

theorem Calms.trans {first second third : Text} (one : Calms first second)
    (two : Calms second third) : Calms first third := ⟨Calmer.trans one.calmer two.calmer⟩

theorem Calms.append {new new' old old' : Text} (frayed : Frayed new) (frayed' : Frayed old)
    (one : Calms new old) (two : Calms new' old') : Calms (new ++ new') (old ++ old') := by
  refine ⟨?_⟩
  rw [strokes_append frayed, strokes_append frayed']
  exact Calmer.append one.calmer two.calmer

theorem Calms.behind {first new old : Text} (frayed : Frayed first) (calms : Calms new old) :
    Calms (first ++ new) (first ++ old) :=
  .append frayed frayed (.refl first) calms

theorem Calms.flatMap {Part : Type} {new old : Part → Text} {parts : List Part}
    (each : ∀ part ∈ parts, Frayed (new part) ∧ Frayed (old part) ∧ Calms (new part) (old part)) :
    Calms (parts.flatMap new) (parts.flatMap old) := by
  induction parts with
  | nil => exact .refl _
  | cons part others step =>
    obtain ⟨frayed, frayed', calms⟩ := each part (List.mem_cons_self ..)
    rw [List.flatMap_cons, List.flatMap_cons]
    exact .append frayed frayed' calms
      (step fun other member => each other (List.mem_cons_of_mem _ member))

/-- Plain characters can take the place of plain characters, also over the ends of lines. -/
theorem calms_plain {new old : Text} (clear : escape ∉ new) (alone : '\n' ∉ new)
    (clear' : escape ∉ old) : Calms new old := by
  refine ⟨?_⟩
  rw [strokes_eq_nil clear alone]
  exact calmer_feeds (strokes_of_not_mem clear')

/-- A stretch of a line behind which no color is on, as it switches off all colors itself. -/
def Seals (text : Text) : Prop := ∃ first, .feed ∉ first ∧ strokes text = first ++ [.reset]

theorem Seals.calms {new : Text} (seals : Seals new) (old : Text) : Calms new old := by
  obtain ⟨first, alone, cut⟩ := seals
  refine ⟨?_⟩
  rw [cut]
  exact calmer_seal alone _

theorem Seals.behind {first second : Text} (frayed : Frayed first) (alone : '\n' ∉ first)
    (seals : Seals second) : Seals (first ++ second) := by
  obtain ⟨others, alone', cut⟩ := seals
  refine ⟨strokes first ++ others, ?_, ?_⟩
  · rw [List.mem_append, not_or]
    exact ⟨feed_not_mem_strokes alone, alone'⟩
  · rw [strokes_append frayed, cut, List.append_assoc]

theorem Seals.append_plain {first second : Text} (frayed : Frayed first) (seals : Seals first)
    (clear : escape ∉ second) (alone : '\n' ∉ second) : Seals (first ++ second) := by
  obtain ⟨others, alone', cut⟩ := seals
  refine ⟨others, alone', ?_⟩
  rw [strokes_append frayed, cut, strokes_eq_nil clear alone, List.append_nil]

/-- **A styled stretch of a line switches off its color.** -/
theorem seals_styled {text : Text} (style : Style) (intact : Intact text) (alone : '\n' ∉ text) :
    Seals (styled style text) := by
  have last : strokes reset = [.reset] := by
    have whole := strokes_select isCode_zero []
    rw [List.append_nil, strokes_nil] at whole
    rw [reset, whole]
    rfl
  refine ⟨.ofSequence (select style.code) :: strokes text, ?_, ?_⟩
  · rw [List.mem_cons, not_or]
    refine ⟨?_, feed_not_mem_strokes alone⟩
    unfold Stroke.ofSequence
    split <;> exact Stroke.noConfusion
  · rw [styled, List.append_assoc, strokes_select (isCode_style style),
      strokes_append (.of_intact intact), last]
    rfl

/-! ### Sealed lines -/

theorem strokes_eq_map {line : Text} (alone : '\n' ∉ line) :
    strokes line = (colors line).map .ofSequence := by
  have plain : ∀ c, .plain c ∈ colorSequence.pieces line → c ≠ '\n' := by
    rintro c member rfl
    refine alone ?_
    rw [← flatten_pieces colorSequence line]
    exact List.mem_flatMap.mpr ⟨_, member, List.mem_cons_self ..⟩
  rw [strokes, colors, List.map_filterMap]
  refine List.filterMap_congr fun piece member => ?_
  cases piece with
  | plain c => simp [pieceStroke, pieceColor, plain c member]
  | found occurrence => rfl

/-- A line is sealed exactly when the pen is off at its end. -/
theorem sealed_line_iff {line : Text} (alone : '\n' ∉ line) :
    Sealed line ↔ pen? false (strokes line) = some false := by
  have drawn := feed_not_mem_strokes alone
  rw [strokes_eq_map alone] at drawn ⊢
  rcases List.eq_nil_or_concat (colors line) with none | ⟨first, last, cut⟩
  · simp [Sealed, none, pen?]
  · rw [cut, List.concat_eq_append, List.map_append, List.map_singleton, List.mem_append,
      not_or] at drawn
    obtain ⟨lit, answer⟩ := exists_pen drawn.1 false
    have ends : Sealed line ↔ last = reset := by simp [Sealed, cut]
    rw [ends, cut, List.concat_eq_append, List.map_append, List.map_singleton, pen?_append, answer,
      Stroke.ofSequence]
    split
    · rename_i same
      exact iff_of_true same rfl
    · rename_i other
      exact iff_of_false other (by simp [pen?])

/-- **Every line of a text is sealed exactly when the pen is off at every line feed and at the
end.** -/
theorem sealed_iff {text : Text} (frayed : Frayed text) :
    (∀ line ∈ split '\n' text, Sealed line) ↔ pen? false (strokes text) = some false := by
  induction text using induction_lines with
  | single line alone =>
    rw [split_of_not_mem alone, List.forall_mem_singleton]
    exact sealed_line_iff alone
  | next line rest alone step =>
    obtain ⟨front, back⟩ := frayed.cut_lineFeed
    obtain ⟨lit, answer⟩ := exists_pen (feed_not_mem_strokes alone) false
    rw [split_append_cons, split_of_not_mem alone, List.singleton_append, List.forall_mem_cons,
      step back, sealed_line_iff alone, strokes_append front, strokes_lineFeed, pen?_append, answer]
    cases lit <;> simp [pen?]

end Handbook.Terminal
