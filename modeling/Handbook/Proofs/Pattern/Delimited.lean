/-
**Where occurrences end.**

What a pattern covers can often be told from its own characters and the one behind them. An
occurrence in one text is then an occurrence in every text that goes on in the same way, and the
pattern looks no further than that. A pattern whose occurrences close themselves, with a mark of
their own, does not even look at the character behind them.

* `Delimited.haltsAt`: a pattern halts at a character that is in no occurrence and ends each;
* `Closed.linewise`: a pattern whose occurrences close themselves looks at single lines.
-/

import Handbook.Proofs.Pattern.Scan
import Handbook.Proofs.Text.Cut

namespace Handbook.Pattern

open Text

variable {pattern : Pattern}

/-! ### Occurrences that end where a test does -/

/-- A pattern whose occurrences end where the characters of a test do: what an occurrence covers is
an occurrence before every text that does not begin with such a character. -/
structure Delimited (pattern : Pattern) (goesOn : Char → Bool) : Prop where
  occurrence : ∀ {before text reach}, pattern.reach? before text = some reach →
    ∃ lexeme rest, lexeme ≠ [] ∧ text = lexeme ++ rest ∧ reach = ⟨lexeme.length, reach.groups⟩ ∧
      Stops goesOn rest ∧
      ∀ rest', Stops goesOn rest' → pattern.reach? before (lexeme ++ rest') = some reach

theorem Delimited.proper {goesOn : Char → Bool} (delimited : Delimited pattern goesOn) :
    pattern.Proper where
  positive := by
    intro before text reach found
    obtain ⟨lexeme, _, nonempty, _, size, _⟩ := delimited.occurrence found
    rw [size]
    exact List.length_pos_iff.mpr nonempty
  within := by
    intro before text reach found
    obtain ⟨lexeme, _, _, rfl, size, _⟩ := delimited.occurrence found
    rw [size, List.length_append]
    exact Nat.le_add_right _ _

/-- No occurrence of a pattern holds a character. -/
def Avoids (pattern : Pattern) (c : Char) : Prop :=
  ∀ {before lexeme groups rest},
    pattern.reach? before (lexeme ++ rest) = some ⟨lexeme.length, groups⟩ → c ∉ lexeme

/-- **A pattern halts at a character that is in no occurrence and ends each.** -/
theorem Delimited.haltsAt {goesOn : Char → Bool} {bar : Char}
    (delimited : Delimited pattern goesOn) (avoids : Avoids pattern bar)
    (ends : goesOn bar = false) : pattern.HaltsAt bar where
  toProper := delimited.proper
  spares := by
    intro before rest
    cases found : pattern.reach? before (bar :: rest) with
    | none => rfl
    | some reach =>
      obtain ⟨lexeme, later, nonempty, cut, size, _⟩ := delimited.occurrence found
      rw [cut, size] at found
      cases lexeme with
      | nil => exact absurd rfl nonempty
      | cons c others =>
        exact absurd (List.mem_cons.mpr (Or.inl (List.cons.inj cut).1)) (avoids found)
  stretch := by
    intro before first rest _ absent
    cases found : pattern.reach? before first with
    | some reach =>
      obtain ⟨lexeme, later, _, rfl, _, stops, anywhere⟩ := delimited.occurrence found
      rw [List.append_assoc]
      refine anywhere _ ?_
      cases later with
      | nil => exact stops_cons ends rest
      | cons c others => exact stops
    | none =>
      cases whole : pattern.reach? before (first ++ bar :: rest) with
      | none => rfl
      | some reach =>
        obtain ⟨lexeme, later, _, cut, size, stops, anywhere⟩ := delimited.occurrence whole
        have outside : bar ∉ lexeme := by
          rw [cut, size] at whole
          exact avoids whole
        -- the occurrence ends before the character, so the stretch has it too
        rcases List.append_eq_append_iff.mp cut with ⟨between, rfl, tail⟩ | ⟨between, rfl, tail⟩
        · cases between with
          | nil =>
            have here := anywhere [] (stops_nil _)
            rw [List.append_nil, List.append_nil] at here
            rw [here] at found
            exact absurd found (Option.some_ne_none _)
          | cons c others =>
            rw [List.cons_append, List.cons.injEq] at tail
            exact absurd (List.mem_append_right _ (List.mem_cons.mpr (Or.inl tail.1))) outside
        · have behind : Stops goesOn between := by
            cases between with
            | nil => exact stops_nil _
            | cons c others =>
              rw [tail] at stops
              exact stops
          rw [anywhere between behind] at found
          exact absurd found (Option.some_ne_none _)

/-! ### Occurrences that close themselves -/

/-- A pattern whose occurrences close themselves: what an occurrence covers is an occurrence wherever
it stands, and it holds no line feed. -/
structure Closed (pattern : Pattern) : Prop where
  occurrence : ∀ {before text reach}, pattern.reach? before text = some reach →
    ∃ lexeme rest, lexeme ≠ [] ∧ '\n' ∉ lexeme ∧ text = lexeme ++ rest ∧
      reach.size = lexeme.length ∧
      ∀ before' rest', pattern.reach? before' (lexeme ++ rest') = some reach

namespace Closed

variable (closed : pattern.Closed)

include closed

theorem proper : pattern.Proper where
  positive := by
    intro before text reach found
    obtain ⟨lexeme, _, nonempty, _, _, size, _⟩ := closed.occurrence found
    have := List.length_pos_iff.mpr nonempty
    omega
  within := by
    intro before text reach found
    obtain ⟨lexeme, _, _, _, rfl, size, _⟩ := closed.occurrence found
    rw [List.length_append]
    omega

theorem forward : pattern.Forward := by
  intro before text
  cases found : pattern.reach? before text with
  | some reach =>
    obtain ⟨lexeme, rest, _, _, rfl, _, anywhere⟩ := closed.occurrence found
    exact (anywhere none rest).symm
  | none =>
    cases first : pattern.reach? none text with
    | none => rfl
    | some reach =>
      obtain ⟨lexeme, rest, _, _, rfl, _, anywhere⟩ := closed.occurrence first
      rw [anywhere before rest] at found
      exact absurd found (Option.some_ne_none _)

theorem delimited : Delimited pattern fun _ => false where
  occurrence := by
    intro before text reach found
    obtain ⟨lexeme, rest, nonempty, _, cut, size, anywhere⟩ := closed.occurrence found
    exact ⟨lexeme, rest, nonempty, cut, by rw [← size], fun _ _ => rfl,
      fun rest' _ => anywhere before rest'⟩

theorem keepsLine : Avoids pattern '\n' := by
  intro before lexeme groups rest found
  obtain ⟨covered, others, _, alone, cut, size, _⟩ := closed.occurrence found
  rwa [(List.append_inj cut size).1]

/-- **A pattern whose occurrences close themselves looks at single lines.** -/
theorem linewise : pattern.Linewise :=
  have halts := closed.delimited.haltsAt closed.keepsLine rfl
  ⟨halts.toProper, halts.spares, fun text => closed.forward (some '\n') text, halts.stretch⟩

end Closed

end Handbook.Pattern
