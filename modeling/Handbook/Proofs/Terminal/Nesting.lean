/-
**Colors that nest on their line.**

Inside a colored stretch another stretch may be colored. On a line of nested stretches every reset
ends a stretch that is still open, and at the end of the line none is open any more. How many are
open after some strokes of the pen is their level.

* `Steadier.append`, `steadier_wrap`: strokes that reach the same level as others;
* `balanced_of_level`: where the level is well defined and nothing is open at a line feed or at the
  end, every line is balanced: as many resets as openings, never more resets than openings, and a
  reset last.
-/

import Handbook.Proofs.Terminal.Pen

namespace Handbook.Terminal

open Pattern Text

/-! ### Balanced lines -/

/-- How many color sequences of a text reset the terminal. -/
def resets (text : Text) : Nat := (colors text).count reset

/-- How many color sequences of a text switch a color on. -/
def openings (text : Text) : Nat := (colors text).countP (· != reset)

/-- A line with as many resets as openings, no beginning of which has more resets than openings, and
whose last color sequence, if it has any, resets the terminal. -/
structure Balanced (line : Text) : Prop where
  even : resets line = openings line
  covered : ∀ first, first <+: line → resets first ≤ openings first
  ends : Sealed line

/-! ### Levels -/

/-- How many stretches are open after some strokes, given how many are open before them. There is no
answer where a reset finds none open, or where a line ends while one is. -/
def level? : Nat → List Stroke → Option Nat
  | level, [] => some level
  | level, .feed :: rest => if level = 0 then level? 0 rest else none
  | level, .color :: rest => level? (level + 1) rest
  | 0, .reset :: _ => none
  | level + 1, .reset :: rest => level? level rest

theorem level?_append (level : Nat) (first second : List Stroke) :
    level? level (first ++ second) = (level? level first).bind (level? · second) := by
  induction first generalizing level with
  | nil => rfl
  | cons stroke rest step =>
    cases stroke with
    | feed =>
      by_cases closed : level = 0
      · simp [level?, closed, step]
      · simp [level?, closed]
    | color => exact step (level + 1)
    | reset =>
      cases level with
      | zero => rfl
      | succ level => exact step level

/-- Line feeds do not change a level of zero. -/
theorem level?_feeds {all : List Stroke} (feeds : ∀ stroke ∈ all, stroke = .feed) :
    level? 0 all = some 0 := by
  induction all with
  | nil => rfl
  | cons stroke rest step =>
    rw [feeds stroke (List.mem_cons_self ..)]
    exact step fun other member => feeds other (List.mem_cons_of_mem _ member)

/-- On one line more stretches may be open around all strokes. -/
theorem level?_succ {line : List Stroke} (alone : .feed ∉ line) {level after : Nat}
    (answer : level? level line = some after) : level? (level + 1) line = some (after + 1) := by
  induction line generalizing level with
  | nil => exact congrArg (Option.map (· + 1)) answer
  | cons stroke rest step =>
    rw [List.mem_cons, not_or] at alone
    cases stroke with
    | feed => exact absurd rfl alone.1
    | color => exact step alone.2 answer
    | reset =>
      cases level with
      | zero => exact absurd answer (Option.some_ne_none _).symm
      | succ level => exact step alone.2 answer

/-! ### Steadier strokes -/

/-- The new strokes reach the level that the old ones reach, wherever the old ones reach any. -/
def Steadier (new old : List Stroke) : Prop :=
  ∀ {level after : Nat}, level? level old = some after → level? level new = some after

theorem Steadier.append {new new' old old' : List Stroke} (one : Steadier new old)
    (two : Steadier new' old') : Steadier (new ++ new') (old ++ old') := by
  intro level after answer
  rw [level?_append] at answer
  obtain ⟨between, front, back⟩ := Option.bind_eq_some_iff.mp answer
  rw [level?_append, one front]
  exact two back

/-- **A stretch of a line can be wrapped in a color.** -/
theorem steadier_wrap {line : List Stroke} (alone : .feed ∉ line) :
    Steadier (.color :: line ++ [.reset]) line := by
  intro level after answer
  rw [List.cons_append, level?, level?_append, level?_succ alone answer]
  rfl

/-- The new text reaches the levels of the old one. -/
structure Steadies (new old : Text) : Prop where
  steadier : Steadier (strokes new) (strokes old)

theorem Steadies.refl (text : Text) : Steadies text text := ⟨fun answer => answer⟩

theorem Steadies.trans {first second third : Text} (one : Steadies first second)
    (two : Steadies second third) : Steadies first third :=
  ⟨fun answer => one.steadier (two.steadier answer)⟩

theorem Steadies.append {new new' old old' : Text} (frayed : Frayed new) (frayed' : Frayed old)
    (one : Steadies new old) (two : Steadies new' old') :
    Steadies (new ++ new') (old ++ old') := by
  refine ⟨?_⟩
  rw [strokes_append frayed, strokes_append frayed']
  exact Steadier.append one.steadier two.steadier

/-- **A color around a stretch of a line keeps the levels.** -/
theorem steadies_colored (shade : Color) {text : Text} (intact : Intact text)
    (alone : '\n' ∉ text) : Steadies (colored shade text) text := by
  have opens : Stroke.ofSequence (select shade.code) = .color := by cases shade <;> decide
  have last : strokes reset = [.reset] := by
    have whole := strokes_select isCode_zero []
    rw [List.append_nil, strokes_nil] at whole
    exact whole
  refine ⟨?_⟩
  rw [colored, styled, List.append_assoc, strokes_select (isCode_style (.color shade)),
    strokes_append (.of_intact intact), last]
  exact opens ▸ steadier_wrap (feed_not_mem_strokes alone)

/-! ### Neutral texts -/

/-- A text behind which as many stretches are open as before it. -/
def Neutral (text : Text) : Prop := ∀ level, level? level (strokes text) = some level

theorem Neutral.append {first second : Text} (frayed : Frayed first) (one : Neutral first)
    (two : Neutral second) : Neutral (first ++ second) := by
  intro level
  rw [strokes_append frayed, level?_append, one level]
  exact two level

theorem neutral_plain {text : Text} (clear : escape ∉ text) (alone : '\n' ∉ text) :
    Neutral text := by
  intro level
  rw [strokes_eq_nil clear alone]
  rfl

theorem neutral_colored (shade : Color) {text : Text} (clear : escape ∉ text)
    (alone : '\n' ∉ text) : Neutral (colored shade text) := fun level =>
  (steadies_colored shade (intact_of_not_mem clear) alone).steadier (neutral_plain clear alone level)

/-- **A neutral text can take the place of a plain one.** -/
theorem Neutral.steadies {new old : Text} (neutral : Neutral new) (clear : escape ∉ old)
    (alone : '\n' ∉ old) : Steadies new old := by
  refine ⟨fun {level after} answer => ?_⟩
  rw [neutral_plain clear alone level] at answer
  rw [← answer]
  exact neutral level

/-! ### From levels to balanced lines -/

/-- What a level says of the sequences up to it. -/
theorem level?_count {sequences : List Text} {level after : Nat}
    (answer : level? level (sequences.map .ofSequence) = some after) :
    level + sequences.countP (· != reset) = after + sequences.count reset := by
  induction sequences generalizing level with
  | nil => simpa [level?] using answer
  | cons sequence rest step =>
    rw [List.map_cons] at answer
    by_cases same : sequence = reset
    · have stroke : Stroke.ofSequence sequence = .reset := if_pos same
      cases level with
      | zero =>
        rw [stroke] at answer
        exact absurd answer (Option.some_ne_none _).symm
      | succ level =>
        rw [stroke] at answer
        have later := step answer
        rw [same, List.count_cons_self, List.countP_cons_of_neg (by simp)]
        omega
    · have stroke : Stroke.ofSequence sequence = .color := if_neg same
      rw [stroke] at answer
      have later := step answer
      rw [List.count_cons_of_ne same, List.countP_cons_of_pos (by simpa using same)]
      omega

/-- Without the letter that ends them there are no color sequences. -/
theorem colors_of_not_mem {text : Text} (absent : 'm' ∉ text) : colors text = [] := by
  rw [colors, List.filterMap_eq_nil_iff]
  intro piece member
  cases piece with
  | plain c => rfl
  | found occurrence =>
    obtain ⟨before, rest, found⟩ := sweeps_colorSequence.toProper.reach?_of_mem member
    obtain ⟨size, sized, same⟩ := Option.map_eq_some_iff.mp found
    obtain ⟨parameters, later, _, cut, length⟩ := colorSequenceSize?_eq_some sized
    rw [Reach.mk.injEq] at same
    obtain ⟨whole, _⟩ := List.append_inj cut (same.1.symm.trans length)
    refine absurd (subset_of_mem_pieces member ?_) absent
    rw [whole]
    exact List.mem_append_right _ (List.mem_singleton_self _)

/-- **The beginning of an intact text has its first sequences.** -/
theorem colors_prefix {text first : Text} (intact : Intact text) (early : first <+: text) :
    colors first <+: colors text := by
  induction intact using Intact.induction generalizing first with
  | nil =>
    obtain rfl := List.prefix_nil.mp early
    exact List.prefix_refl _
  | plain c rest plain _ step =>
    cases first with
    | nil =>
      rw [colors_of_not_mem List.not_mem_nil]
      exact List.nil_prefix
    | cons d others =>
      obtain ⟨rfl, later⟩ := List.cons_prefix_cons.mp early
      rw [colors, colors, pieces_cons plain, pieces_cons plain]
      exact step later
  | sequence code rest isCode _ step =>
    obtain ⟨second, cut⟩ := early
    rcases List.append_eq_append_iff.mp cut with ⟨between, whole, _⟩ | ⟨later, rfl, behind⟩
    · rcases List.eq_nil_or_concat between with rfl | ⟨others, last, rfl⟩
      · rw [List.append_nil] at whole
        have alone : colors (select code ++ []) = [select code] := by
          rw [colors, pieces_select isCode, pieces, piecesFrom_nil sweeps_colorSequence.toProper]
          rfl
        rw [← whole, ← List.append_nil (select code), alone, List.append_nil, colors,
          pieces_select isCode]
        exact List.cons_prefix_cons.mpr ⟨rfl, List.nil_prefix⟩
      · -- the last letter of the sequence stands behind the beginning
        rw [List.concat_eq_append, ← List.append_assoc, select] at whole
        obtain ⟨inner, _⟩ := List.append_inj' whole rfl
        have absent : 'm' ∉ first := by
          intro member
          have inside : 'm' ∈ [escape, '['] ++ code := inner ▸ List.mem_append_left _ member
          rcases List.mem_append.mp inside with opening | digit
          · exact absurd opening (by decide)
          · exact absurd (isCode.2 'm' digit) (by decide)
        rw [colors_of_not_mem absent]
        exact List.nil_prefix
    · rw [colors, colors, pieces_select isCode, pieces_select isCode]
      exact List.cons_prefix_cons.mpr ⟨rfl, step ⟨second, behind.symm⟩⟩

/-- **A line at whose end nothing is open is balanced.** -/
theorem balanced_of_level {line : Text} (intact : Intact line) (alone : '\n' ∉ line)
    (answer : level? 0 (strokes line) = some 0) : Balanced line where
  even := by
    rw [strokes_eq_map alone] at answer
    have count := level?_count answer
    simp only [resets, openings]
    omega
  covered := by
    intro first early
    rw [strokes_eq_map alone] at answer
    obtain ⟨later, cut⟩ := colors_prefix intact early
    rw [← cut, List.map_append, level?_append] at answer
    obtain ⟨level, front, _⟩ := Option.bind_eq_some_iff.mp answer
    have count := level?_count front
    simp only [resets, openings]
    omega
  ends := by
    intro last ends
    rw [strokes_eq_map alone] at answer
    obtain ⟨first, cut⟩ := List.getLast?_eq_some_iff.mp ends
    rw [cut, List.map_append, level?_append] at answer
    obtain ⟨level, _, closed⟩ := Option.bind_eq_some_iff.mp answer
    by_contra other
    -- behind an opening at least one stretch is open
    rw [List.map_singleton, Stroke.ofSequence, if_neg other, level?, level?] at closed
    exact absurd (Option.some.inj closed) (Nat.succ_ne_zero level)

/-- **Where nothing is open at a line feed or at the end, every line is balanced.** -/
theorem balanced_of_levels {text : Text} (intact : Intact text)
    (answer : level? 0 (strokes text) = some 0) : ∀ line ∈ split '\n' text, Balanced line := by
  induction text using induction_lines with
  | single line alone =>
    rw [split_of_not_mem alone, List.forall_mem_singleton]
    exact balanced_of_level intact alone answer
  | next line rest alone step =>
    obtain ⟨front, back⟩ := intact_lineFeed_iff.mp intact
    rw [strokes_append (.of_intact front), strokes_lineFeed, level?_append] at answer
    obtain ⟨level, first, second⟩ := Option.bind_eq_some_iff.mp answer
    obtain ⟨rfl, later⟩ : level = 0 ∧ level? 0 (strokes rest) = some 0 := by
      simpa [level?] using second
    rw [split_append_cons, split_of_not_mem alone, List.singleton_append, List.forall_mem_cons]
    exact ⟨balanced_of_level front alone first, step back later⟩

end Handbook.Terminal
