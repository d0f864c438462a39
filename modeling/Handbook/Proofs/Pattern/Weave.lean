/-
**Scans of texts that are colored already.**

A pattern is aligned when none of its occurrences in an intact text begins or ends inside a color
sequence. The scan of an aligned pattern then takes each sequence as a whole: it passes over it, or
it has it inside an occurrence.

* `Aligned.woven`: the scan of an aligned pattern keeps the sequences of an intact text whole;
* `Woven.intact`, `Woven.stripColors_eq`: what is replaced by intact texts gives an intact text, and what is
  replaced by texts that show the same shows the same;
* `Woven.cuts`: where an occurrence starts or stops, the text before it is intact.
-/

import Handbook.Proofs.Terminal.Sweep

namespace Handbook.Pattern

open Terminal Text

/-! ### Aligned patterns -/

/-- Why no sequence reaches over the end of an occurrence: it holds no escape character, or what
stands behind it does not go on with a sequence, or its last character ends none. -/
inductive Bounded : (lexeme rest : Text) → Prop where
  | clear {lexeme rest} : escape ∉ lexeme → Bounded lexeme rest
  | stops {lexeme rest} : Stops isInner rest → Bounded lexeme rest
  | closed {init last rest} : last ≠ escape → isInner last = false → Bounded (init ++ [last]) rest

theorem Bounded.intact {lexeme rest : Text} (bounded : Bounded lexeme rest)
    (intact : Intact (lexeme ++ rest)) : Intact lexeme := by
  cases bounded with
  | clear clear => exact intact_of_not_mem clear
  | stops stops => exact intact.of_stops stops
  | closed plain outer => exact intact.of_closed plain outer

/-- A pattern whose occurrences begin with a character that is in no sequence, and are bounded. -/
structure Aligned (pattern : Pattern) : Prop where
  occurrence : ∀ {before text reach}, pattern.reach? before text = some reach →
    ∃ first others rest, first ≠ escape ∧ isInner first = false ∧
      Bounded (first :: others) rest ∧ text = first :: others ++ rest ∧
      reach.size = others.length + 1

namespace Aligned

variable {pattern : Pattern} (aligned : Aligned pattern)

include aligned

theorem proper : pattern.Proper where
  positive := by
    intro before text reach found
    obtain ⟨_, _, _, _, _, _, _, size⟩ := aligned.occurrence found
    omega
  within := by
    intro before text reach found
    obtain ⟨_, _, _, _, _, _, rfl, size⟩ := aligned.occurrence found
    simp only [List.cons_append, List.length_cons, List.length_append]
    omega

theorem spares {c : Char} (inside : c = escape ∨ isInner c = true) : pattern.Spares c := by
  intro before rest
  cases found : pattern.reach? before (c :: rest) with
  | none => rfl
  | some reach =>
    obtain ⟨first, others, later, plain, outer, _, cut, _⟩ := aligned.occurrence found
    rw [List.cons_append, List.cons.injEq] at cut
    rcases inside with isEscape | inner
    · exact absurd (cut.1.symm.trans isEscape) plain
    · rw [cut.1, outer] at inner
      exact absurd inner (by decide)

/-- An occurrence in an intact text cuts it into two intact texts. -/
theorem cut {before : Option Char} {text : Text} {reach : Reach} (intact : Intact text)
    (found : pattern.reach? before text = some reach) :
    ∃ lexeme rest, lexeme ≠ [] ∧ text = lexeme ++ rest ∧ Intact lexeme ∧ Intact rest ∧
      reach = ⟨lexeme.length, reach.groups⟩ := by
  obtain ⟨first, others, rest, _, _, bounded, rfl, size⟩ := aligned.occurrence found
  refine ⟨first :: others, rest, List.cons_ne_nil _ _, rfl, bounded.intact intact,
    intact.of_append_right, ?_⟩
  rw [List.length_cons, ← size]

end Aligned

/-! ### Woven scans -/

/-- A scan that keeps sequences whole: it passes over plain characters and over sequences, and it
takes occurrences that are intact. -/
inductive Woven (pattern : Pattern) : Text → List Piece → Prop where
  | nil : Woven pattern [] []
  | plain {c rest pieces} : c ≠ escape → Woven pattern rest pieces →
      Woven pattern (c :: rest) (.plain c :: pieces)
  | sequence {code rest pieces} : IsCode code → Woven pattern rest pieces →
      Woven pattern (select code ++ rest) ((select code).map .plain ++ pieces)
  | found {before lexeme groups rest pieces} : lexeme ≠ [] → Intact lexeme →
      pattern.reach? before (lexeme ++ rest) = some ⟨lexeme.length, groups⟩ →
      Woven pattern rest pieces → Woven pattern (lexeme ++ rest) (.found ⟨lexeme, groups⟩ :: pieces)

theorem Aligned.woven_from {pattern : Pattern} (aligned : Aligned pattern) (before : Option Char)
    {text : Text} (intact : Intact text) :
    Woven pattern text (piecesFrom pattern before 0 text) := by
  -- an occurrence may reach over many sequences, hence an induction on the length
  induction size : text.length using Nat.strongRecOn generalizing before text with
  | ind size step =>
  cases text with
  | nil =>
    rw [piecesFrom_nil aligned.proper]
    exact .nil
  | cons c rest =>
    cases found : pattern.reach? before (c :: rest) with
    | some reach =>
      obtain ⟨lexeme, later, nonempty, cut, one, two, length⟩ := aligned.cut intact found
      rw [cut, length] at found
      rw [cut] at size ⊢
      rw [piecesFrom_found nonempty found]
      refine .found nonempty one found (step later.length ?_ _ two rfl)
      have := List.length_pos_iff.mpr nonempty
      rw [List.length_append] at size
      omega
    | none =>
      by_cases isEscape : c = escape
      · rw [isEscape] at intact size ⊢
        obtain ⟨code, others, isCode, whole⟩ := intact.whole
        rw [whole] at intact size ⊢
        rw [piecesFrom_spared fun d member => aligned.spares (mem_select isCode member)]
        refine .sequence isCode (step others.length ?_ _ intact.of_append_right rfl)
        simp only [select, List.length_append, List.length_cons] at size
        omega
      · rw [piecesFrom_plain found]
        refine .plain isEscape (step rest.length ?_ _ intact.of_cons rfl)
        rw [List.length_cons] at size
        omega

/-- **The scan of an aligned pattern keeps the sequences of an intact text whole.** -/
theorem Aligned.woven {pattern : Pattern} (aligned : Aligned pattern) {text : Text}
    (intact : Intact text) : Woven pattern text (pattern.pieces text) :=
  aligned.woven_from none intact

namespace Woven

variable {pattern : Pattern} {text : Text} {pieces : List Piece} {replace : Match → Text}

/-- **What is replaced by intact texts gives an intact text.** -/
theorem intact (woven : Woven pattern text pieces)
    (kept : ∀ {before lexeme groups rest}, Intact lexeme →
      pattern.reach? before (lexeme ++ rest) = some ⟨lexeme.length, groups⟩ →
      Intact (replace ⟨lexeme, groups⟩)) :
    Intact (pieces.flatMap (Piece.replaced replace)) := by
  induction woven with
  | nil => exact intact_nil
  | plain plain _ step => exact step.cons plain
  | sequence isCode _ step =>
    rw [List.flatMap_append, flatMap_replaced_plain]
    exact (intact_select isCode).append step
  | found _ one found _ step => exact (kept one found).append step

/-- **What is replaced by texts that show the same shows the same.** -/
theorem stripColors_eq (woven : Woven pattern text pieces)
    (kept : ∀ {before lexeme groups rest}, Intact lexeme →
      pattern.reach? before (lexeme ++ rest) = some ⟨lexeme.length, groups⟩ →
      Intact (replace ⟨lexeme, groups⟩) ∧
        stripColors (replace ⟨lexeme, groups⟩) = stripColors lexeme) :
    stripColors (pieces.flatMap (Piece.replaced replace)) = stripColors text := by
  induction woven with
  | nil => rfl
  | @plain c rest pieces plain _ step =>
    show stripColors (c :: pieces.flatMap (Piece.replaced replace)) = stripColors (c :: rest)
    rw [stripColors_cons plain, step, ← stripColors_cons plain]
  | sequence isCode _ step =>
    rw [List.flatMap_append, flatMap_replaced_plain, stripColors_append (intact_select isCode),
      step, stripColors_append (intact_select isCode)]
  | found _ one found _ step =>
    obtain ⟨two, same⟩ := kept one found
    rw [List.flatMap_cons, stripColors_append one, ← step, ← same]
    exact stripColors_append two _

/-- The occurrences of a woven scan are intact. -/
theorem of_mem (woven : Woven pattern text pieces) {lexeme : Text} {groups : List Text}
    (member : .found ⟨lexeme, groups⟩ ∈ pieces) :
    Intact lexeme ∧ ∃ before rest,
      pattern.reach? before (lexeme ++ rest) = some ⟨lexeme.length, groups⟩ := by
  induction woven with
  | nil => exact absurd member List.not_mem_nil
  | plain _ _ step =>
    rcases List.mem_cons.mp member with same | later
    · exact absurd same Piece.noConfusion
    · exact step later
  | sequence _ _ step =>
    rcases List.mem_append.mp member with early | later
    · obtain ⟨c, _, same⟩ := List.mem_map.mp early
      exact absurd same Piece.noConfusion
    · exact step later
  | found _ one found _ step =>
    rcases List.mem_cons.mp member with same | later
    · rw [Piece.found.injEq, Match.mk.injEq] at same
      obtain ⟨rfl, rfl⟩ := same
      exact ⟨one, _, _, found⟩
    · exact step later

theorem locate_plain (stretch : Text) (place : Nat) (pieces : List Piece) :
    locate place (stretch.map .plain ++ pieces) = locate (place + stretch.length) pieces := by
  induction stretch generalizing place with
  | nil => rfl
  | cons c rest step =>
    rw [List.map_cons, List.cons_append, locate, step, List.length_cons]
    congr 1
    omega

/-- **Where an occurrence starts or stops, the text before it is intact.** -/
theorem cuts (woven : Woven pattern text pieces) {earlier : Text} (intact : Intact earlier)
    {located : Located} (member : located ∈ locate earlier.length pieces) :
    Intact ((earlier ++ text).take located.start) ∧
      Intact ((earlier ++ text).take located.stop) := by
  induction woven generalizing earlier with
  | nil => exact absurd member List.not_mem_nil
  | @plain c rest pieces plain _ step =>
    have later := step (intact.append (intact_nil.cons plain)) (by
      rw [List.length_append]
      exact member)
    rw [List.append_assoc, List.singleton_append] at later
    exact later
  | @sequence code rest pieces isCode _ step =>
    rw [locate_plain, ← List.length_append] at member
    have later := step (intact.append (intact_select isCode)) member
    rw [List.append_assoc] at later
    exact later
  | @found before lexeme groups rest pieces _ one _ _ step =>
    rw [locate, List.mem_cons] at member
    rcases member with rfl | member
    · refine ⟨?_, ?_⟩
      · rw [List.take_left]
        exact intact
      · simp only
        rw [← List.append_assoc, ← List.length_append, List.take_left]
        exact intact.append one
    · rw [← List.length_append] at member
      have later := step (intact.append one) member
      rw [List.append_assoc] at later
      exact later

end Woven

end Handbook.Pattern
